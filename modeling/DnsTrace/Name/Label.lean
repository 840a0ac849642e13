import DnsTrace.Octets

/-!
# Labels and domain names

A domain name is its list of labels, the most specific first; the root has none. On the wire
every label is preceded by a length octet and the name is closed by a zero octet, which
fixes its wire length however much of it is shared with other names by compression.

In text, the characters that master files give a meaning are preceded by a backslash,
octets outside the visible ASCII range are written as a backslash and three decimal
digits, labels are joined by dots, and the root is a single dot.
-/

namespace DnsTrace

/-- The octets of one label, without its length octet. -/
abbrev Label := Octets

/-- The labels of a name, the most specific first. -/
abbrev DomainName := List Label

namespace Label

/-- The octets that need a backslash in text although they are visible characters. -/
def isSpecial (octet : UInt8) : Bool :=
  [0x2e, 0x3b, 0x5c, 0x28, 0x29, 0x22, 0x40, 0x24].contains octet

/-- Three decimal digits that name an octet by its number. -/
def octetDigits (octet : UInt8) : List Char :=
  [octet.toNat / 100, octet.toNat / 10 % 10, octet.toNat % 10].map Nat.digitChar

/-- The text of one octet of a label. -/
def escapeOctet (octet : UInt8) : List Char :=
  if isSpecial octet then ['\\', Char.ofUInt8 octet]
  else if 0x21 ≤ octet ∧ octet ≤ 0x7e then [Char.ofUInt8 octet]
  else '\\' :: octetDigits octet

/-- The text of a label. -/
def escape (label : Label) : List Char :=
  label.flatMap escapeOctet

end Label

namespace DomainName

/-- The most octets that a name may take on the wire. -/
def maxWireLength : Nat := 255

/-- How many octets labels take on the wire, each with its length octet. -/
def labelsLength : List Label → Nat
  | [] => 0
  | label :: labels => (label.length + 1) + labelsLength labels

/-- How many octets the uncompressed name takes on the wire, with its closing zero. -/
def wireLength (name : DomainName) : Nat :=
  1 + labelsLength name

/-- The labels in text, joined by dots. -/
def joined : DomainName → List Char
  | [] => []
  | [label] => label.escape
  | label :: labels => label.escape ++ '.' :: joined labels

/-- The text of a name. -/
def text (name : DomainName) : String :=
  match name with
  | [] => "."
  | labels => String.ofList (joined labels)

/-- The root is written as a single dot. -/
theorem text_root : text [] = "." := rfl

/-- A name other than the root is written as its labels joined by dots. -/
theorem toList_text_of_ne_root {name : DomainName} (h : name ≠ []) :
    name.text.toList = joined name := by
  cases name with
  | nil => exact absurd rfl h
  | cons label labels => simp [text]

end DomainName

end DnsTrace
