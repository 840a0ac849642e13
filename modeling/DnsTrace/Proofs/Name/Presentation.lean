import DnsTrace.Proofs.Name.Escapes

/-!
# Reading names back from their text

Three shapes of escape stand side by side in the text of a name: a backslash with a character,
a backslash with three digits, and the plain character. They are told apart from the left. Only
separators begin with a plain dot, only escapes with a backslash, and no character that needs a
backslash is a digit.
-/

namespace DnsTrace

namespace Label

/-- The octet that a character stands for. -/
def octetOf (char : Char) : UInt8 := .ofNat char.toNat

/-- The octet that three decimal digits name. -/
def octetOfDigits (high middle low : Char) : UInt8 :=
  .ofNat ((high.toNat - 48) * 100 + (middle.toNat - 48) * 10 + (low.toNat - 48))

/-- The character with the number of an octet stands for it. -/
theorem octetOf_eq {octet : UInt8} {char : Char} (h : char.toNat = octet.toNat) :
    octetOf char = octet := by
  rw [octetOf, h, UInt8.ofNat_toNat]

/-- The three digits of an octet name it. -/
theorem octetOfDigits_eq {octet : UInt8} {high middle low : Nat}
    (hdigits : high < 10 ∧ middle < 10 ∧ low < 10)
    (h : 100 * high + 10 * middle + low = octet.toNat) :
    octetOfDigits high.digitChar middle.digitChar low.digitChar = octet := by
  obtain ⟨hhigh, hmiddle, hlow⟩ := hdigits
  rw [octetOfDigits, Nat.toNat_digitChar_sub_48_of_lt_ten hhigh,
    Nat.toNat_digitChar_sub_48_of_lt_ten hmiddle, Nat.toNat_digitChar_sub_48_of_lt_ten hlow,
    Nat.mul_comm high, Nat.mul_comm middle, h, UInt8.ofNat_toNat]

end Label

namespace DomainName

/-- Put an octet in front of the first label. -/
def prepend (octet : UInt8) : DomainName → DomainName
  | [] => [[octet]]
  | label :: labels => (octet :: label) :: labels

/-- The labels that a text spells, without regard to the root. -/
def ofChars : List Char → DomainName
  | [] => [[]]
  | first :: rest =>
      if first = '.' then [] :: ofChars rest
      else if first = '\\' then
        match rest with
        | [] => [[]]
        | second :: rest =>
            if second.isDigit then
              match rest with
              | middle :: low :: rest =>
                  prepend (Label.octetOfDigits second middle low) (ofChars rest)
              | _ => [[]]
            else prepend (Label.octetOf second) (ofChars rest)
      else prepend (Label.octetOf first) (ofChars rest)

/-- The name that a text spells; the root is spelled by a single dot. -/
def ofText (text : String) : DomainName :=
  if text = "." then [] else ofChars text.toList

/-- A dot that is not escaped ends a label. -/
theorem ofChars_dot (rest : List Char) : ofChars ('.' :: rest) = [] :: ofChars rest := by
  rw [ofChars.eq_def]
  simp only [if_true]

/-- A character behind a backslash stands for itself, unless it is a digit. -/
theorem ofChars_backslash {second : Char} (h : second.isDigit = false) (rest : List Char) :
    ofChars ('\\' :: second :: rest) = prepend (Label.octetOf second) (ofChars rest) := by
  have hfirst : '\\' ≠ '.' := by decide
  rw [ofChars.eq_def]
  simp only [if_neg hfirst, if_true, h, Bool.false_eq_true, if_false]

/-- Three digits behind a backslash name an octet. -/
theorem ofChars_digits {high : Char} (h : high.isDigit = true) (middle low : Char)
    (rest : List Char) :
    ofChars ('\\' :: high :: middle :: low :: rest) =
      prepend (Label.octetOfDigits high middle low) (ofChars rest) := by
  have hfirst : '\\' ≠ '.' := by decide
  rw [ofChars.eq_def]
  simp only [if_neg hfirst, if_true, h]

/-- Any other character stands for itself. -/
theorem ofChars_plain {first : Char} (hdot : first ≠ '.') (hbackslash : first ≠ '\\')
    (rest : List Char) :
    ofChars (first :: rest) = prepend (Label.octetOf first) (ofChars rest) := by
  rw [ofChars.eq_def]
  simp only [if_neg hdot, if_neg hbackslash]

/-- An octet is read back from each of its shapes, and what stands behind it is left to itself. -/
theorem ofChars_append_of_octetShownAs {octet : UInt8} {chars : List Char}
    (h : Label.OctetShownAs octet chars) (rest : List Char) :
    ofChars (chars ++ rest) = prepend octet (ofChars rest) := by
  cases h with
  | @quoted char hstands hmeaning =>
    have hdigit : ∀ char ∈ Label.meaningful, char.isDigit = false := by simp [Label.meaningful]
    rw [List.cons_append, List.cons_append, List.nil_append,
      ofChars_backslash (hdigit char hmeaning), Label.octetOf_eq hstands]
  | @plain char hstands hmeaning hvisible =>
    have hplain {other : Char} (hother : other ∈ Label.meaningful) : char ≠ other :=
      fun h => hmeaning (h ▸ hother)
    rw [List.cons_append, List.nil_append, ofChars_plain (hplain (by decide)) (hplain (by decide)),
      Label.octetOf_eq hstands]
  | @numbered high middle low hdigits hnumber hhidden =>
    have hdigit : high.digitChar.isDigit = true := by
      rw [Nat.isDigit_digitChar]
      exact decide_eq_true hdigits.1
    simp only [List.cons_append, List.nil_append]
    rw [ofChars_digits hdigit, Label.octetOfDigits_eq hdigits hnumber]

/-- An escaped label is read back in front of the label that is open behind it. -/
theorem ofChars_escape {rest : List Char} {first : Label} {others : DomainName}
    (h : ofChars rest = first :: others) (label : Label) :
    ofChars (label.escape ++ rest) = (label ++ first) :: others := by
  induction label with
  | nil => exact h
  | cons octet label ih =>
    change ofChars ((Label.escapeOctet octet ++ Label.escape label) ++ rest) = _
    rw [List.append_assoc,
      ofChars_append_of_octetShownAs (Label.octetShownAs_escapeOctet octet), ih]
    rfl

/-- Labels are read back from their text. -/
theorem ofChars_joined (label : Label) (labels : DomainName) :
    ofChars (joined (label :: labels)) = label :: labels := by
  induction labels generalizing label with
  | nil =>
    have hend : ofChars [] = [[]] := rfl
    have hread := ofChars_escape hend label
    rwa [List.append_nil, List.append_nil] at hread
  | cons next labels ih =>
    have hrest : ofChars ('.' :: joined (next :: labels)) = [] :: next :: labels := by
      rw [ofChars_dot, ih]
    have hread := ofChars_escape hrest label
    rwa [List.append_nil] at hread

/-- A name is read back from its text. A text of one plain dot would spell two empty labels,
so only the root has it. -/
theorem ofText_text {name : DomainName} (h : ∀ label ∈ name, label ≠ []) :
    ofText name.text = name := by
  cases name with
  | nil => rfl
  | cons label labels =>
    have hlist := toList_text_of_ne_root (List.cons_ne_nil label labels)
    have hread := ofChars_joined label labels
    have hroot : text (label :: labels) ≠ "." := by
      intro hdot
      rw [hdot] at hlist
      rw [← hlist] at hread
      have hempty : [[], []] = label :: labels := hread
      cases hempty
      exact h [] List.mem_cons_self rfl
    rw [ofText, if_neg hroot, hlist, hread]

example : ofChars ['a', '\\', '.', 'b', '.', '\\', '0', '3', '2'] = [[97, 46, 98], [32]] := by
  decide

end DomainName

end DnsTrace
