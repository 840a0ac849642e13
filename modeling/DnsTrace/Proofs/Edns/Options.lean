import DnsTrace.Edns
import DnsTrace.Proofs.Reading

/-!
# The options of an EDNS record

The data of an EDNS record is a row of options, each a code, a length and a payload of that
many octets, and behind the row a tail too short for another header. `OptionField` is an option
as it is written; `OptionField.Fill` says that a row of them fills the data.

Reading accepts exactly the rows in which every client subnet has its four fixed octets. It
moves on by the declared length, whatever it shows of the payload, so what a client subnet
carries behind its address is never taken for another option.
-/

namespace DnsTrace

namespace Octets

/-- A number of sixteen bits is written as its quotient and its remainder by 256. -/
theorem ofNumber_two (number : Nat) :
    ofNumber 2 number = [UInt8.ofNat (number / 256), UInt8.ofNat number] := rfl

/-- Two octets are the written form of the number that they spell. -/
theorem ofNumber_value_pair (high low : UInt8) : ofNumber 2 (value [high, low]) = [high, low] :=
  ofNumber_value [high, low]

/-- Two octets fit in a word of sixteen bits. -/
theorem toNat_ofNat_value_pair (high low : UInt8) :
    (UInt16.ofNat (value [high, low])).toNat = value [high, low] := by
  have hbound := value_lt [high, low]
  apply UInt16.toNat_ofNat_of_lt'
  rwa [List.length_cons, List.length_singleton] at hbound

end Octets

/-- An option as it is written: a code and a payload whose length fits in two octets. -/
structure OptionField where
  code : UInt16
  payload : Octets
  payload_length : payload.length ≤ 65535

namespace OptionField

/-- The octets of an option: its code, the length of its payload, and the payload. -/
def wire (field : OptionField) : Octets :=
  .ofNumber 2 field.code.toNat ++ (.ofNumber 2 field.payload.length ++ field.payload)

/-- A client subnet has at least its four fixed octets; other options may have any length. -/
def Complete (field : OptionField) : Prop := field.code = 8 → 4 ≤ field.payload.length

instance (field : OptionField) : Decidable field.Complete :=
  inferInstanceAs (Decidable (_ → _))

/-- The options, each complete, fill the data up to a tail of at most three octets. -/
def Fill (fields : List OptionField) (rdata : Octets) : Prop :=
  ∃ tail : Octets, rdata = fields.flatMap wire ++ tail ∧ tail.length < 4 ∧
    ∀ field ∈ fields, field.Complete

/-- What is shown of an option: for a client subnet the family, the two prefix lengths and
sixteen octets of address, with zeros for those that the payload lacks; for any other option
its payload. -/
def content (field : OptionField) : EdnsOption :=
  if field.code = 8 then
    .clientSubnet (.ofNat field.payload.length)
      { family := .ofNat (field.payload.number 0 2)
        source := field.payload.getD 2 0
        scope := field.payload.getD 3 0
        octets := .ofFn fun i => field.payload.getD (4 + i) 0 }
  else .other field.code field.payload

/-- The code that is shown is the code that was written. -/
theorem code_content (field : OptionField) : field.content.code = field.code := by
  unfold content
  by_cases hcode : field.code = 8
  · rw [if_pos hcode, hcode]
    rfl
  · rw [if_neg hcode]
    rfl

/-- The length that is written fits in two octets. -/
theorem toNat_ofNat_length (field : OptionField) :
    (UInt16.ofNat field.payload.length).toNat = field.payload.length := by
  have hlength := field.payload_length
  exact UInt16.toNat_ofNat_of_lt' (by simp only [UInt16.size]; omega)

/-- The length that is shown is the length of the payload. -/
theorem length_content (field : OptionField) :
    field.content.length.toNat = field.payload.length := by
  have hword := field.toNat_ofNat_length
  unfold content
  by_cases hcode : field.code = 8
  · rw [if_pos hcode]
    exact hword
  · rw [if_neg hcode]
    exact hword

/-- A client subnet is understood exactly when its four fixed octets are there. -/
theorem clientSubnet_parse_eq_ok_iff (payload : Octets) (subnet : ClientSubnet) :
    ClientSubnet.parse payload = .ok subnet ↔
      4 ≤ payload.length ∧ subnet =
        { family := .ofNat (payload.number 0 2)
          source := payload.getD 2 0
          scope := payload.getD 3 0
          octets := .ofFn fun i => payload.getD (4 + i) 0 } := by
  match payload with
  | high :: low :: source :: scope :: address =>
    have haddress : (Vector.ofFn fun i : Fin 16 =>
        (high :: low :: source :: scope :: address).getD (4 + i) 0) =
          Vector.ofFn fun i : Fin 16 => address.getD i 0 := by
      congr 1
      funext i
      rw [Nat.add_comm]
      rfl
    have hlength : 4 ≤ (high :: low :: source :: scope :: address).length := by
      simp only [List.length_cons]
      omega
    rw [haddress, ClientSubnet.parse, Except.ok.injEq, eq_comm]
    exact (and_iff_right hlength).symm
  | [] | [_] | [_, _] | [_, _, _] => simp [ClientSubnet.parse]

/-- The payload of an option is understood exactly when the option is complete. -/
theorem parse_eq_ok_iff (field : OptionField) (option : EdnsOption) :
    EdnsOption.parse field.code field.payload = .ok option ↔
      field.Complete ∧ option = field.content := by
  unfold EdnsOption.parse content Complete ClientSubnet.optionCode
  by_cases hcode : field.code = 8
  · rw [if_pos hcode, if_pos hcode, bind_eq_ok_iff]
    simp only [clientSubnet_parse_eq_ok_iff, hcode, true_implies]
    constructor
    · intro h
      obtain ⟨subnet, ⟨hlength, rfl⟩, hoption⟩ := h
      cases hoption
      exact ⟨hlength, rfl⟩
    · intro h
      obtain ⟨hlength, rfl⟩ := h
      exact ⟨_, ⟨hlength, rfl⟩, rfl⟩
  · rw [if_neg hcode, if_neg hcode, Except.ok.injEq, eq_comm]
    exact (and_iff_right fun h => absurd h hcode).symm

/-- Behind a header, reading goes on as the payload that it declares is there or not. -/
theorem readAll_header {codeHigh codeLow lengthHigh lengthLow : UInt8} (behind : Octets)
    {code length : UInt16} (hcode : .ofNat (Octets.value [codeHigh, codeLow]) = code)
    (hlength : .ofNat (Octets.value [lengthHigh, lengthLow]) = length) :
    EdnsOption.readAll (codeHigh :: codeLow :: lengthHigh :: lengthLow :: behind) =
      match Octets.split? length.toNat behind with
      | none => .error (.optionOverrun code length behind.length)
      | some (payload, back) =>
          EdnsOption.parse code payload >>= fun option =>
            (EdnsOption.readAll back).map (option :: ·) := by
  subst hcode hlength
  rw [EdnsOption.readAll]
  -- The recursion remembers which split it took, so the split is resolved by cases.
  split
  · rename_i hsplit
    rw [hsplit]
  · rename_i payload back hsplit
    rw [hsplit]
    dsimp only
    cases EdnsOption.parse _ payload <;> rfl

/-- Behind a code and a length as they are written, reading goes on as the payload is there or
not. -/
theorem readAll_declared (code length : UInt16) (behind : Octets) :
    EdnsOption.readAll (.ofNumber 2 code.toNat ++ (.ofNumber 2 length.toNat ++ behind)) =
      match Octets.split? length.toNat behind with
      | none => .error (.optionOverrun code length behind.length)
      | some (payload, back) =>
          EdnsOption.parse code payload >>= fun option =>
            (EdnsOption.readAll back).map (option :: ·) := by
  have hvalue (word : UInt16) : UInt16.ofNat (Octets.value (.ofNumber 2 word.toNat)) = word := by
    have hbound : word.toNat < 256 ^ 2 := word.toNat_lt
    rw [Octets.value_ofNumber, Nat.mod_eq_of_lt hbound, UInt16.ofNat_toNat]
  have hcode := hvalue code
  have hlength := hvalue length
  rw [Octets.ofNumber_two] at hcode hlength
  rw [Octets.ofNumber_two, Octets.ofNumber_two]
  exact readAll_header behind hcode hlength

/-- An option stands in front of other octets as its code, its length and its payload do. -/
theorem wire_append (field : OptionField) (rest : Octets) :
    field.wire ++ rest =
      .ofNumber 2 field.code.toNat ++
        (.ofNumber 2 (UInt16.ofNat field.payload.length).toNat ++ (field.payload ++ rest)) := by
  rw [wire, List.append_assoc, List.append_assoc, field.toNat_ofNat_length]

/-- Reading takes the first option off and goes on behind its payload. -/
theorem readAll_wire (field : OptionField) (rest : Octets) :
    EdnsOption.readAll (field.wire ++ rest) =
      (EdnsOption.parse field.code field.payload).bind fun option =>
        (EdnsOption.readAll rest).map (option :: ·) := by
  have hsplit : Octets.split? field.payload.length (field.payload ++ rest) =
      some (field.payload, rest) := Octets.split?_eq_some_iff.mpr ⟨rfl, rfl⟩
  rw [wire_append, readAll_declared, field.toNat_ofNat_length, hsplit]
  rfl

/-- At most three octets hold no option. -/
theorem readAll_tail {tail : Octets} (h : tail.length < 4) : EdnsOption.readAll tail = .ok [] := by
  match tail with
  | [] | [_] | [_, _] | [_, _, _] => rw [EdnsOption.readAll]; simp
  | _ :: _ :: _ :: _ :: _ => simp only [List.length_cons] at h; omega

/-- A row of complete options is read, each as what it shows. -/
theorem readAll_of_fill {fields : List OptionField} {rdata : Octets} (h : Fill fields rdata) :
    EdnsOption.readAll rdata = .ok (fields.map content) := by
  obtain ⟨tail, rfl, htail, hcomplete⟩ := h
  induction fields with
  | nil => exact readAll_tail htail
  | cons field fields ih =>
    obtain ⟨hfield, hfields⟩ := List.forall_mem_cons.mp hcomplete
    have hparse := (parse_eq_ok_iff field field.content).mpr ⟨hfield, rfl⟩
    rw [List.flatMap_cons, List.append_assoc, readAll_wire, hparse]
    simp only [Except.bind, ih hfields, Except.map, List.map_cons]

/-- Four octets of header and the payload behind them are the written form of an option. -/
theorem wire_of_split (codeHigh codeLow : UInt8) {lengthHigh lengthLow : UInt8}
    {behind payload back : Octets}
    (h : Octets.split? (UInt16.ofNat (Octets.value [lengthHigh, lengthLow])).toNat behind =
      some (payload, back)) :
    ∃ field : OptionField, field.code = .ofNat (Octets.value [codeHigh, codeLow]) ∧
      field.payload = payload ∧
      codeHigh :: codeLow :: lengthHigh :: lengthLow :: behind = field.wire ++ back := by
  obtain ⟨rfl, hlength⟩ := Octets.split?_eq_some_iff.mp h
  have hbound := (UInt16.ofNat (Octets.value [lengthHigh, lengthLow])).toNat_lt
  refine ⟨⟨.ofNat (Octets.value [codeHigh, codeLow]), payload, by omega⟩, rfl, rfl, ?_⟩
  simp only [wire, hlength, Octets.toNat_ofNat_value_pair, Octets.ofNumber_value_pair,
    List.cons_append, List.nil_append]

/-- Whatever is read was a row of complete options. -/
theorem exists_fill_of_readAll {rdata : Octets} {options : List EdnsOption}
    (h : EdnsOption.readAll rdata = .ok options) : ∃ fields, Fill fields rdata := by
  fun_induction EdnsOption.readAll rdata generalizing options with
  | case1 => cases h
  | case2 => cases h
  | case3 codeHigh codeLow lengthHigh lengthLow behind code length payload back hsplit option =>
    rename_i hparse ih
    obtain ⟨field, hcode, hpayload, hwire⟩ := wire_of_split codeHigh codeLow hsplit
    obtain ⟨others, hothers, -⟩ := map_eq_ok_iff.mp h
    obtain ⟨fields, tail, hback, htail, hcomplete⟩ := ih hothers
    have hfield : EdnsOption.parse field.code field.payload = .ok option := by
      rw [hcode, hpayload]
      exact hparse
    have hfirst := ((parse_eq_ok_iff field option).mp hfield).1
    refine ⟨field :: fields, tail, ?_, htail, List.forall_mem_cons.mpr ⟨hfirst, hcomplete⟩⟩
    rw [hwire, hback, List.flatMap_cons, List.append_assoc]
  | case4 rdata hshort =>
    refine ⟨[], rdata, rfl, ?_, by simp⟩
    match rdata with
    | [] | [_] | [_, _] | [_, _, _] => simp
    | a :: b :: c :: d :: rest => exact absurd rfl (hshort a b c d rest)

end OptionField

namespace Edns

variable {ν : Type}

/-- The fields of an EDNS record that its ttl holds, from the top bits down. -/
def HoldsTtl (edns : Edns) (ttl : UInt32) : Prop :=
  ttl.toNat = edns.extendedCode.toNat * 2 ^ 24 + edns.version.toNat * 2 ^ 16 +
    edns.dnssecOk.toNat * 2 ^ 15 + edns.z.toNat ∧ edns.z.toNat < 2 ^ 15

/-- The fields of a ttl are its bits, and no other fields add up to it. -/
theorem holdsTtl_iff (edns : Edns) (ttl : UInt32) :
    edns.HoldsTtl ttl ↔
      edns.extendedCode = .ofNat (ttl.toNat / 16777216) ∧
        edns.version = .ofNat (ttl.toNat / 65536 % 256) ∧
        edns.dnssecOk = ttl.toNat.testBit 15 ∧ edns.z = .ofNat (ttl.toNat % 32768) := by
  have hbound := ttl.toNat_lt
  have hcode := edns.extendedCode.toNat_lt
  have hversion := edns.version.toNat_lt
  have hbit := Bool.toNat_le edns.dnssecOk
  have htest : edns.dnssecOk = ttl.toNat.testBit 15 ↔
      edns.dnssecOk.toNat = ttl.toNat / 2 ^ 15 % 2 := by
    rw [← Nat.toNat_testBit]
    cases edns.dnssecOk <;> cases ttl.toNat.testBit 15 <;> decide
  rw [HoldsTtl, htest, ← UInt8.toNat_inj, ← UInt8.toNat_inj, ← UInt16.toNat_inj,
    UInt8.toNat_ofNat', UInt8.toNat_ofNat', UInt16.toNat_ofNat']
  omega

/-- A record is read exactly when its options are; its other fields are never refused. -/
theorem ofRecord_eq_ok_iff_readAll (record : Record ν) (edns : Edns) :
    ofRecord record = .ok edns ↔
      EdnsOption.readAll record.rdata = .ok edns.options ∧ edns.rdlength = record.rdata.length ∧
        edns.payloadSize = record.rrClass.code ∧ edns.HoldsTtl record.ttl := by
  rw [holdsTtl_iff, ofRecord, bind_eq_ok_iff]
  constructor
  · intro h
    obtain ⟨options, hoptions, hpure⟩ := h
    cases hpure
    exact ⟨hoptions, rfl, rfl, rfl, rfl, rfl, rfl⟩
  · intro h
    obtain ⟨rdlength, payloadSize, extendedCode, version, dnssecOk, z, options⟩ := edns
    obtain ⟨hoptions, hrdlength, hsize, hcode, hversion, hbit, hz⟩ := h
    refine ⟨options, hoptions, ?_⟩
    simp only at hrdlength hsize hcode hversion hbit hz
    rw [hrdlength, hsize, hcode, hversion, hbit, hz]
    rfl

/-- An EDNS record is read exactly when complete options fill its data. Then the options that
are shown are those options, one by one and in order, with the codes and lengths that were
written. The data has the length that is shown, the class is the payload size, whether it has
a name as a class or not, and the ttl is the sum of its four fields. -/
theorem ofRecord_eq_ok_iff_fill (record : Record ν) (cls : UInt16)
    (h : record.rrClass = .ofCode cls ∨ record.rrClass = .unknown cls) :
    ((∃ edns, ofRecord record = .ok edns) ↔ ∃ fields, OptionField.Fill fields record.rdata) ∧
      ∀ fields, OptionField.Fill fields record.rdata → ∀ edns, ofRecord record = .ok edns ↔
        edns.options = fields.map OptionField.content ∧
          edns.options.map (fun option => (option.code, option.length.toNat)) =
            fields.map (fun field => (field.code, field.payload.length)) ∧
          edns.rdlength = record.rdata.length ∧ edns.payloadSize = cls ∧
          edns.HoldsTtl record.ttl := by
  have hclass : record.rrClass.code = cls := by
    obtain h | h := h
    · rw [h, RRClass.code_ofCode]
    · rw [h]
      rfl
  refine ⟨⟨fun hread => ?_, fun hfill => ?_⟩, fun fields hfill edns => ?_⟩
  · obtain ⟨edns, hedns⟩ := hread
    exact OptionField.exists_fill_of_readAll ((ofRecord_eq_ok_iff_readAll record edns).mp hedns).1
  · obtain ⟨fields, hfields⟩ := hfill
    rw [ofRecord, OptionField.readAll_of_fill hfields]
    exact ⟨_, rfl⟩
  · have hshown : (fields.map OptionField.content).map
        (fun option => (option.code, option.length.toNat)) =
          fields.map (fun field => (field.code, field.payload.length)) := by
      rw [List.map_map]
      apply List.map_congr_left
      intro field _
      exact congrArg₂ Prod.mk field.code_content field.length_content
    rw [ofRecord_eq_ok_iff_readAll, OptionField.readAll_of_fill hfill, hclass, Except.ok.injEq]
    constructor
    · intro hread
      rw [← hread.1]
      exact ⟨rfl, hshown, hread.2⟩
    · intro hread
      exact ⟨hread.1.symm, hread.2.2⟩

/-- A record of class IN with an option of one octet, a client subnet with one octet more than
it shows, an option of two octets, and two octets that are no option. -/
def stepRecord : Record String where
  name := "."
  rrType := .opt
  rrClass := .internet
  ttl := 0x0102ffff
  rdata := [0, 3, 0, 1, 5, 0, 8, 0, 21, 0, 1, 16, 0, 10, 1, 0, 0, 1, 2, 3, 4, 5, 6, 7, 8, 9, 10, 11,
    12, 0xff, 0, 10, 0, 2, 0xab, 0xcd, 0, 0]
  rdataOffset := 0

/-- The options of `stepRecord`. -/
def stepFields : List OptionField :=
  [⟨3, [5], by decide⟩,
    ⟨8, [0, 1, 16, 0, 10, 1, 0, 0, 1, 2, 3, 4, 5, 6, 7, 8, 9, 10, 11, 12, 0xff], by decide⟩,
    ⟨10, [0xab, 0xcd], by decide⟩]

/-- All three options of `stepRecord` are read, and its class is a payload size of one. -/
theorem ofRecord_stepRecord :
    stepRecord.rrClass = .ofCode 1 ∧ OptionField.Fill stepFields stepRecord.rdata ∧
      ofRecord stepRecord = .ok
        { rdlength := 38
          payloadSize := 1
          extendedCode := 1
          version := 2
          dnssecOk := true
          z := 32767
          options := [.other 3 [5],
            .clientSubnet 21 ⟨1, 16, 0, #v[10, 1, 0, 0, 1, 2, 3, 4, 5, 6, 7, 8, 9, 10, 11, 12]⟩,
            .other 10 [0xab, 0xcd]] } := by
  have hfill : OptionField.Fill stepFields stepRecord.rdata :=
    ⟨[0, 0], by decide, by decide, by decide⟩
  obtain ⟨-, hread⟩ := ofRecord_eq_ok_iff_fill stepRecord 1 (.inl rfl)
  refine ⟨rfl, hfill, (hread stepFields hfill _).mpr ⟨by decide, by decide, by decide, rfl, ?_⟩⟩
  rw [holdsTtl_iff]
  decide

end Edns

end DnsTrace
