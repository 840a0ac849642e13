import DnsTrace.Proofs.Codes
import DnsTrace.Proofs.Text.Digits
import Mathlib.Data.List.Basic
import Mathlib.Data.List.Nodup

/-!
# The fields of a text

A trace is put together from fields, with a blank between words and a comma between the parts of
an item. A field without the separator is found again whole, so a text tells its fields apart
wherever the fields that may have the separator are few enough.

Numbers and the mnemonics of codes have letters and digits only, and no two codes have one
mnemonic: those without a name are shown by a stem, which begins no name, and their number.
-/

namespace DnsTrace

/-- What stands between the separators of a text. -/
def fields (separator : Char) (text : String) : List (List Char) :=
  text.toList.splitOn separator

section Separators

variable {separator : Char}

/-- The fields of a text give back the text. -/
theorem fields_injective (separator : Char) : Function.Injective (fields separator) := by
  intro text text' h
  have hjoined := congrArg (List.intercalate [separator]) h
  rw [fields, fields, List.intercalate_splitOn, List.intercalate_splitOn] at hjoined
  exact String.toList_injective hjoined

/-- Of two texts with a separator between them, each keeps its fields. -/
theorem fields_append {mark : String} (h : mark.toList = [separator]) (first second : String) :
    fields separator (first ++ mark ++ second) =
      fields separator first ++ fields separator second := by
  simp only [fields, String.toList_append, h, List.append_assoc, List.singleton_append,
    List.splitOn_append_cons_self]

/-- A text has one field more than separators. -/
theorem length_fields (separator : Char) (text : String) :
    (fields separator text).length = text.toList.count separator + 1 := by
  rw [fields]
  induction text.toList with
  | nil => rfl
  | cons char chars ih =>
    rw [List.splitOn_cons_eq_if_modifyHead, List.count_cons]
    split
    · rw [List.length_cons, ih]
    · rw [List.length_modifyHead, ih, Nat.add_zero]

/-- A text without separators is one field. -/
theorem fields_of_not_mem {text : String} (h : separator ∉ text.toList) :
    fields separator text = [text.toList] :=
  List.splitOn_eq_singleton h

/-- Texts without separators are their own fields. -/
theorem flatMap_fields {texts : List String} (h : ∀ text ∈ texts, separator ∉ text.toList) :
    texts.flatMap (fields separator) = texts.map String.toList := by
  induction texts with
  | nil => rfl
  | cons text texts ih =>
    obtain ⟨htext, hrest⟩ := List.forall_mem_cons.mp h
    rw [List.flatMap_cons, fields_of_not_mem htext, ih hrest, List.map_cons,
      List.singleton_append]

/-- Joined texts keep their fields. -/
theorem fields_intercalate {mark : String} (h : mark.toList = [separator]) {texts : List String}
    (hne : texts ≠ []) :
    fields separator (mark.intercalate texts) = texts.flatMap (fields separator) := by
  induction texts with
  | nil => exact absurd rfl hne
  | cons text texts ih =>
    cases texts with
    | nil => simp
    | cons next texts =>
      rw [String.intercalate_cons_cons, fields_append h, ih (by simp)]
      rfl

/-- A character of joined texts is one of the mark or of one of the texts. -/
theorem not_mem_intercalate {char : Char} {mark : String} (hmark : char ∉ mark.toList)
    {texts : List String} (htexts : ∀ text ∈ texts, char ∉ text.toList) :
    char ∉ (mark.intercalate texts).toList := by
  induction texts with
  | nil => simp
  | cons text texts ih =>
    obtain ⟨htext, hrest⟩ := List.forall_mem_cons.mp htexts
    cases texts with
    | nil => rwa [String.intercalate_singleton]
    | cons next texts =>
      rw [String.intercalate_cons_cons, String.toList_append, String.toList_append,
        List.mem_append, List.mem_append]
      exact not_or_intro (not_or_intro htext hmark) (ih hrest)

end Separators

/-- The text has letters and digits only. -/
def Alphanumeric (text : String) : Prop :=
  ∀ char ∈ text.toList, char.isAlphanum = true

instance (text : String) : Decidable (Alphanumeric text) :=
  List.decidableBAll (fun char : Char => char.isAlphanum = true) text.toList

namespace Alphanumeric

/-- Two texts in a row have letters and digits only if both do. -/
theorem append {first second : String} (hfirst : Alphanumeric first)
    (hsecond : Alphanumeric second) : Alphanumeric (first ++ second) := by
  rw [Alphanumeric, String.toList_append, List.forall_mem_append]
  exact ⟨hfirst, hsecond⟩

/-- Other characters are not in the text. -/
theorem not_mem {text : String} (h : Alphanumeric text) {char : Char}
    (hchar : char.isAlphanum = false) : char ∉ text.toList := by
  intro hmem
  rw [h char hmem] at hchar
  cases hchar

/-- A text of letters and digits is one field, whatever separates it from others. -/
theorem fields_eq {text : String} (h : Alphanumeric text) {separator : Char}
    (hseparator : separator.isAlphanum = false) : fields separator text = [text.toList] :=
  fields_of_not_mem (h.not_mem hseparator)

end Alphanumeric

/-- Every digit is a letter or a digit. -/
theorem isAlphanum_digitChar : ∀ digit < 16, digit.digitChar.isAlphanum = true := by decide

/-- A number in base ten has letters and digits only. -/
theorem alphanumeric_decimal (n : Nat) : Alphanumeric (decimal n) := by
  rw [Alphanumeric, toList_decimal]
  exact forall_mem_toDigits (by decide)
    (fun digit hdigit => isAlphanum_digitChar digit (by omega)) n

/-- A number in base sixteen has letters and digits only. -/
theorem alphanumeric_hexadecimal (n : Nat) : Alphanumeric (hexadecimal n) := by
  rw [Alphanumeric, toList_hexadecimal]
  exact forall_mem_toDigits (by decide) isAlphanum_digitChar n

/-- The texts of the values with these codes. The values without a name are shown by a stem and
their number; all texts are letters and digits, and the stem begins no name. -/
structure Mnemonics {α : Type} (codes : Codes α) (text : α → String) where
  stem : String
  text_unknown : ∀ n < codes.size, text (codes.unknown n) = stem ++ decimal n
  names_nodup : (codes.named.map text).Nodup
  stem_apart : ∀ value ∈ codes.named, ¬ stem.toList <+: (text value).toList
  alphanumeric_named : ∀ value ∈ codes.named, Alphanumeric (text value)
  alphanumeric_stem : Alphanumeric stem

namespace Mnemonics

variable {α : Type} {codes : Codes α} {text : α → String}

/-- Every text has letters and digits only. -/
theorem alphanumeric_text (mnemonics : Mnemonics codes text) (value : α) :
    Alphanumeric (text value) := by
  obtain hnamed | ⟨n, hn, rfl⟩ := codes.named_or_unknown value
  · exact mnemonics.alphanumeric_named value hnamed
  · rw [mnemonics.text_unknown n hn]
    exact mnemonics.alphanumeric_stem.append (alphanumeric_decimal n)

/-- No two values have the same text. -/
theorem text_injective (mnemonics : Mnemonics codes text) : Function.Injective text := by
  have happart (value : α) (hnamed : value ∈ codes.named) (n : Nat) (hn : n < codes.size) :
      text value ≠ text (codes.unknown n) := by
    intro heq
    apply mnemonics.stem_apart value hnamed
    rw [heq, mnemonics.text_unknown n hn, String.toList_append]
    exact List.prefix_append _ _
  intro value value' h
  obtain hnamed | ⟨n, hn, rfl⟩ := codes.named_or_unknown value <;>
    obtain hnamed' | ⟨n', hn', rfl⟩ := codes.named_or_unknown value'
  · exact List.inj_on_of_nodup_map mnemonics.names_nodup hnamed hnamed' h
  · exact absurd h (happart value hnamed n' hn')
  · exact absurd h.symm (happart value' hnamed' n hn)
  · rw [mnemonics.text_unknown n hn, mnemonics.text_unknown n' hn', ← String.toList_inj,
      String.toList_append, String.toList_append, List.append_right_inj, String.toList_inj] at h
    rw [decimal_injective h]

end Mnemonics

/-- The texts of operations. -/
def OpCode.mnemonics : Mnemonics OpCode.codes OpCode.text where
  stem := "OPCODE"
  text_unknown n hn :=
    congrArg (fun key => "OPCODE" ++ decimal key) (UInt8.toNat_ofNat_of_lt' hn)
  names_nodup := by decide
  stem_apart := by decide
  alphanumeric_named := by decide
  alphanumeric_stem := by decide

/-- The texts of outcomes. -/
def ResponseCode.mnemonics : Mnemonics ResponseCode.codes ResponseCode.text where
  stem := "RCODE"
  text_unknown n hn := congrArg (fun key => "RCODE" ++ decimal key) (UInt8.toNat_ofNat_of_lt' hn)
  names_nodup := by decide
  stem_apart := by decide
  alphanumeric_named := by decide
  alphanumeric_stem := by decide

/-- The texts of classes. -/
def RRClass.mnemonics : Mnemonics RRClass.codes RRClass.text where
  stem := "CLASS"
  text_unknown n hn := congrArg (fun key => "CLASS" ++ decimal key) (UInt16.toNat_ofNat_of_lt' hn)
  names_nodup := by decide
  stem_apart := by decide
  alphanumeric_named := by decide
  alphanumeric_stem := by decide

/-- The texts of types. -/
def RRType.mnemonics : Mnemonics RRType.codes RRType.text where
  stem := "TYPE"
  text_unknown n hn := congrArg (fun key => "TYPE" ++ decimal key) (UInt16.toNat_ofNat_of_lt' hn)
  names_nodup := by decide +kernel
  stem_apart := by decide +kernel
  alphanumeric_named := by decide +kernel
  alphanumeric_stem := by decide

end DnsTrace
