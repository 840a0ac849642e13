import DnsTrace.Name.Label
import Mathlib.Data.List.Basic
import Mathlib.Data.List.Forall2

/-!
# The text of a name

An octet of a label has one of three shapes in text, and only one of them is open to it:
`Label.OctetShownAs` lists them. A label is shown as its octets in a row, and a name as its labels
with a dot between each two of them. The escapes that are written are exactly these.
-/

namespace DnsTrace

/-- Lists are related item by item by a function exactly when it maps the one to the other. -/
theorem forall₂_iff_eq_map {α β : Type} {R : α → β → Prop} {f : α → β}
    (h : ∀ item result, R item result ↔ result = f item) {items : List α} {results : List β} :
    List.Forall₂ R items results ↔ results = items.map f := by
  have hfunction : R = fun item result => f item = result := by
    funext item result
    exact propext ((h item result).trans eq_comm)
  rw [hfunction, ← List.forall₂_map_left_iff, List.forall₂_eq_eq_eq, eq_comm]

namespace Label

/-- The characters that master files give a meaning. -/
def meaningful : List Char := ['.', ';', '\\', '(', ')', '"', '@', '$']

/-- An octet in text: a character with a meaning stands behind a backslash, any other visible
character stands for itself, and an octet that is no visible character is a backslash and its
number in three decimal digits. -/
inductive OctetShownAs (octet : UInt8) : List Char → Prop
  | quoted {char : Char} (stands : char.toNat = octet.toNat) (meaning : char ∈ meaningful) :
      OctetShownAs octet ['\\', char]
  | plain {char : Char} (stands : char.toNat = octet.toNat) (meaning : char ∉ meaningful)
      (visible : 0x21 ≤ octet.toNat ∧ octet.toNat ≤ 0x7e) : OctetShownAs octet [char]
  | numbered {high middle low : Nat} (digits : high < 10 ∧ middle < 10 ∧ low < 10)
      (number : 100 * high + 10 * middle + low = octet.toNat)
      (hidden : octet.toNat < 0x21 ∨ 0x7e < octet.toNat) :
      OctetShownAs octet ['\\', high.digitChar, middle.digitChar, low.digitChar]

/-- A label in text: its octets in a row. -/
def ShownAs (label : Label) (chars : List Char) : Prop :=
  ∃ pieces, List.Forall₂ OctetShownAs label pieces ∧ chars = pieces.flatten

/-- The character of an octet is the one with its number. -/
theorem eq_ofUInt8_iff {char : Char} {octet : UInt8} :
    char = Char.ofUInt8 octet ↔ char.toNat = octet.toNat := by
  refine ⟨fun h => ?_, fun h => Char.ext (UInt32.toNat_inj.mp h)⟩
  rw [h]
  rfl

/-- The special octets are those of the characters with a meaning. -/
theorem isSpecial_iff {octet : UInt8} :
    isSpecial octet = true ↔ Char.ofUInt8 octet ∈ meaningful := by
  have hinjective : Function.Injective Char.ofUInt8 := fun octet octet' h =>
    UInt8.toNat_inj.mp (eq_ofUInt8_iff.mp h)
  have hchars : meaningful =
      [0x2e, 0x3b, 0x5c, 0x28, 0x29, 0x22, 0x40, 0x24].map Char.ofUInt8 := rfl
  rw [hchars, List.mem_map_of_injective hinjective, isSpecial, List.contains_iff_mem]

/-- The characters with a meaning are visible. -/
theorem visible_of_mem_meaningful :
    ∀ char ∈ meaningful, 0x21 ≤ char.toNat ∧ char.toNat ≤ 0x7e := by
  simp [meaningful]

/-- An octet is shown as its escape. -/
theorem octetShownAs_escapeOctet (octet : UInt8) : OctetShownAs octet (escapeOctet octet) := by
  rw [escapeOctet]
  by_cases hspecial : isSpecial octet
  · rw [if_pos hspecial]
    exact .quoted rfl (isSpecial_iff.mp hspecial)
  · have hmeaning : Char.ofUInt8 octet ∉ meaningful := mt isSpecial_iff.mpr hspecial
    rw [if_neg hspecial]
    split
    · rename_i hvisible
      exact .plain rfl hmeaning hvisible
    · rename_i hvisible
      have hoctet := octet.toNat_lt
      have hhidden : octet.toNat < 0x21 ∨ 0x7e < octet.toNat := by
        change ¬ (0x21 ≤ octet.toNat ∧ octet.toNat ≤ 0x7e) at hvisible
        omega
      exact .numbered ⟨by omega, by omega, by omega⟩ (by omega) hhidden

/-- No octet is shown in two ways. -/
theorem OctetShownAs.unique {octet : UInt8} {chars chars' : List Char}
    (h : OctetShownAs octet chars) (h' : OctetShownAs octet chars') : chars = chars' := by
  have hchar {char char' : Char} (hchar : char.toNat = octet.toNat)
      (hchar' : char'.toNat = octet.toNat) : char = char' :=
    (eq_ofUInt8_iff.mpr hchar).trans (eq_ofUInt8_iff.mpr hchar').symm
  have hhidden {char : Char} (hchar : char.toNat = octet.toNat) (hmeaning : char ∈ meaningful) :
      ¬ (octet.toNat < 0x21 ∨ 0x7e < octet.toNat) := by
    have hvisible := visible_of_mem_meaningful char hmeaning
    omega
  cases h with
  | quoted hstands hmeaning =>
    cases h' with
    | quoted hstands' => rw [hchar hstands hstands']
    | plain hstands' hmeaning' => exact absurd (hchar hstands hstands' ▸ hmeaning) hmeaning'
    | numbered _ _ hhidden' => exact absurd hhidden' (hhidden hstands hmeaning)
  | plain hstands hmeaning hvisible =>
    cases h' with
    | quoted hstands' hmeaning' => exact absurd (hchar hstands hstands' ▸ hmeaning') hmeaning
    | plain hstands' => rw [hchar hstands hstands']
    | numbered _ _ hhidden' => omega
  | @numbered high middle low hdigits hnumber hhidden' =>
    cases h' with
    | quoted hstands hmeaning => exact absurd hhidden' (hhidden hstands hmeaning)
    | plain _ _ hvisible => omega
    | @numbered high' middle' low' hdigits' hnumber' =>
      obtain rfl : high = high' := by omega
      obtain rfl : middle = middle' := by omega
      obtain rfl : low = low' := by omega
      rfl

/-- An octet is shown as its escape and not otherwise. -/
theorem octetShownAs_iff (octet : UInt8) (chars : List Char) :
    OctetShownAs octet chars ↔ chars = escapeOctet octet := by
  have hescape := octetShownAs_escapeOctet octet
  exact ⟨fun h => h.unique hescape, fun h => h ▸ hescape⟩

/-- A label is shown as its escape and not otherwise. -/
theorem shownAs_iff (label : Label) (chars : List Char) :
    label.ShownAs chars ↔ chars = label.escape := by
  have hpieces (pieces : List (List Char)) :
      List.Forall₂ OctetShownAs label pieces ↔ pieces = label.map escapeOctet :=
    forall₂_iff_eq_map octetShownAs_iff
  simp only [ShownAs, hpieces, exists_eq_left, escape, List.flatMap_def]

end Label

namespace DomainName

/-- A name in text: a single dot for the root, and otherwise its labels joined by dots. -/
def ShownAs (name : DomainName) (text : String) : Prop :=
  ∃ labels, List.Forall₂ Label.ShownAs name labels ∧
    text = if name = [] then "." else String.ofList (['.'].intercalate labels)

/-- Between two labels stands one dot. -/
theorem joined_cons_cons (label next : Label) (labels : List Label) :
    joined (label :: next :: labels) = label.escape ++ '.' :: joined (next :: labels) := rfl

/-- Joining labels puts one dot between each two of them. -/
theorem joined_eq_intercalate (labels : List Label) :
    joined labels = ['.'].intercalate (labels.map Label.escape) := by
  induction labels with
  | nil => rfl
  | cons label labels ih =>
    cases labels with
    | nil => simp [joined, List.intercalate]
    | cons next labels =>
      rw [joined_cons_cons, ih]
      simp [List.intercalate]

/-- The text of a name is a single dot, or the escaped labels joined by dots. -/
theorem text_eq (name : DomainName) :
    name.text =
      if name = [] then "." else String.ofList (['.'].intercalate (name.map Label.escape)) := by
  cases name with
  | nil => rfl
  | cons label labels =>
    rw [if_neg (List.cons_ne_nil _ _), ← joined_eq_intercalate]
    rfl

/-- A name is shown as its text and not otherwise. -/
theorem shownAs_iff {name : DomainName} {text : String} :
    name.ShownAs text ↔ text = name.text := by
  have hlabels (labels : List (List Char)) :
      List.Forall₂ Label.ShownAs name labels ↔ labels = name.map Label.escape :=
    forall₂_iff_eq_map Label.shownAs_iff
  simp only [ShownAs, hlabels, exists_eq_left, text_eq]

end DomainName

end DnsTrace
