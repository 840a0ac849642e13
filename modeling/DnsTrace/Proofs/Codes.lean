import DnsTrace.Body
import DnsTrace.Header

/-!
# Codes

The operation and the outcome of a header and the type and class of an item are sent as numbers.
A few numbers have a name and every other one is kept as it is, so a value is the only one that
has its number: `Codes.HasCode` says so without reading a number, and reading finds that value.
-/

namespace DnsTrace

/-- The values that the numbers of one kind are read as. A few values have a name, every other one
is a number that is kept. -/
structure Codes (α : Type) where
  size : Nat
  named : List α
  unknown : Nat → α
  ofCode : Nat → α
  code : α → Nat
  named_or_unknown : ∀ value, value ∈ named ∨ ∃ n < size, value = unknown n
  code_unknown : ∀ n < size, code (unknown n) = n
  code_ofCode : ∀ n < size, code (ofCode n) = n
  ofCode_code : ∀ value ∈ named, ofCode (code value) = value

namespace Codes

variable {α : Type}

/-- The value has this number, and a value without a name only a number that no name has. -/
def HasCode (codes : Codes α) (value : α) (n : Nat) : Prop :=
  codes.code value = n ∧ (value ∈ codes.named ∨ ∀ other ∈ codes.named, codes.code other ≠ n)

instance [DecidableEq α] (codes : Codes α) (value : α) (n : Nat) :
    Decidable (codes.HasCode value n) :=
  inferInstanceAs (Decidable (_ ∧ _))

/-- Two values without a name are equal if their numbers are. -/
theorem eq_of_code_eq (codes : Codes α) {value value' : α} (hvalue : value ∉ codes.named)
    (hvalue' : value' ∉ codes.named) (h : codes.code value = codes.code value') :
    value = value' := by
  obtain hnamed | ⟨n, hn, rfl⟩ := codes.named_or_unknown value
  · exact absurd hnamed hvalue
  · obtain hnamed | ⟨n', hn', rfl⟩ := codes.named_or_unknown value'
    · exact absurd hnamed hvalue'
    · rw [codes.code_unknown n hn, codes.code_unknown n' hn'] at h
      rw [h]

/-- A number is read as the value that has it. -/
theorem eq_ofCode_iff (codes : Codes α) {value : α} {n : Nat} (hn : n < codes.size) :
    value = codes.ofCode n ↔ codes.HasCode value n := by
  have hread := codes.code_ofCode n hn
  refine ⟨fun h => ?_, fun h => ?_⟩
  · subst h
    refine ⟨hread, ?_⟩
    by_cases hnamed : codes.ofCode n ∈ codes.named
    · exact .inl hnamed
    · refine .inr fun other hother hcode => hnamed ?_
      rw [← hcode, codes.ofCode_code other hother]
      exact hother
  · obtain ⟨hcode, hnamed | hkept⟩ := h
    · rw [← hcode, codes.ofCode_code value hnamed]
    · exact codes.eq_of_code_eq (fun hnamed => hkept value hnamed hcode)
        (fun hnamed => hkept _ hnamed hread) (hcode.trans hread.symm)

end Codes

/-- The code that stands for an operation. -/
def OpCode.code : OpCode → UInt8
  | query => 0
  | inverseQuery => 1
  | completionMany => 2
  | completionUnique => 3
  | notify => 4
  | update => 5
  | zoneInit => 14
  | zoneRef => 15
  | unknown code => code

/-- Every code survives being read as an operation. -/
theorem OpCode.code_ofCode (c : UInt8) : (ofCode c).code = c := by
  unfold ofCode
  split <;> rfl

/-- The code that stands for an outcome. -/
def ResponseCode.code : ResponseCode → UInt8
  | noError => 0
  | formatError => 1
  | serverFailure => 2
  | nameError => 3
  | notImplemented => 4
  | refused => 5
  | nameExists => 6
  | recordsExist => 7
  | recordsMissing => 8
  | notAuthoritative => 9
  | notInZone => 10
  | unknown code => code

/-- Every code survives being read as an outcome. -/
theorem ResponseCode.code_ofCode (c : UInt8) : (ofCode c).code = c := by
  unfold ofCode
  split <;> rfl

/-- The codes of operations. -/
def OpCode.codes : Codes OpCode where
  size := UInt8.size
  named := [query, inverseQuery, completionMany, completionUnique, notify, update, zoneInit,
    zoneRef]
  unknown n := unknown (.ofNat n)
  ofCode n := ofCode (.ofNat n)
  code value := value.code.toNat
  named_or_unknown value := by
    cases value
    case unknown key => exact .inr ⟨key.toNat, key.toNat_lt, by rw [UInt8.ofNat_toNat]⟩
    all_goals simp
  code_unknown _ := UInt8.toNat_ofNat_of_lt'
  code_ofCode n hn := by
    rw [code_ofCode]
    exact UInt8.toNat_ofNat_of_lt' hn
  ofCode_code := by decide

/-- The codes of outcomes. -/
def ResponseCode.codes : Codes ResponseCode where
  size := UInt8.size
  named := [noError, formatError, serverFailure, nameError, notImplemented, refused, nameExists,
    recordsExist, recordsMissing, notAuthoritative, notInZone]
  unknown n := unknown (.ofNat n)
  ofCode n := ofCode (.ofNat n)
  code value := value.code.toNat
  named_or_unknown value := by
    cases value
    case unknown key => exact .inr ⟨key.toNat, key.toNat_lt, by rw [UInt8.ofNat_toNat]⟩
    all_goals simp
  code_unknown _ := UInt8.toNat_ofNat_of_lt'
  code_ofCode n hn := by
    rw [code_ofCode]
    exact UInt8.toNat_ofNat_of_lt' hn
  ofCode_code := by decide

/-- The codes of classes. -/
def RRClass.codes : Codes RRClass where
  size := UInt16.size
  named := [internet, csnet, chaos, hesiod, none, any]
  unknown n := unknown (.ofNat n)
  ofCode n := ofCode (.ofNat n)
  code value := value.code.toNat
  named_or_unknown value := by
    cases value
    case unknown key => exact .inr ⟨key.toNat, key.toNat_lt, by rw [UInt16.ofNat_toNat]⟩
    all_goals simp
  code_unknown _ := UInt16.toNat_ofNat_of_lt'
  code_ofCode n hn := by
    rw [code_ofCode]
    exact UInt16.toNat_ofNat_of_lt' hn
  ofCode_code := by decide

/-- The class that is read from a code has that code. -/
theorem RRClass.hasCode_ofCode (c : UInt16) : codes.HasCode (ofCode c) c.toNat :=
  (codes.eq_ofCode_iff c.toNat_lt).mp (congrArg ofCode UInt16.ofNat_toNat.symm)

/-- The codes of types. -/
def RRType.codes : Codes RRType where
  size := UInt16.size
  named := [a, ns, md, mf, cname, soa, mb, mg, mr, null, wks, ptr, hinfo, minfo, mx, txt, rp, afsdb,
    sig, key, aaaa, loc, srv, naptr, dname, opt, ds, sshfp, rrsig, nsec, dnskey, nsec3, nsec3param,
    tlsa, svcb, https, spf, tkey, tsig, ixfr, axfr, mailb, maila, any, caa]
  unknown n := unknown (.ofNat n)
  ofCode n := ofCode (.ofNat n)
  code value := value.code.toNat
  named_or_unknown value := by
    cases value
    case unknown key => exact .inr ⟨key.toNat, key.toNat_lt, by rw [UInt16.ofNat_toNat]⟩
    all_goals simp
  code_unknown _ := UInt16.toNat_ofNat_of_lt'
  code_ofCode n hn := by
    rw [code_ofCode]
    exact UInt16.toNat_ofNat_of_lt' hn
  ofCode_code := by decide +kernel

/-- The type that is read from a code has that code. -/
theorem RRType.hasCode_ofCode (c : UInt16) : codes.HasCode (ofCode c) c.toNat :=
  (codes.eq_ofCode_iff c.toNat_lt).mp (congrArg ofCode UInt16.ofNat_toNat.symm)

end DnsTrace
