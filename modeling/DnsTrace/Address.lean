import DnsTrace.Digits
import DnsTrace.Octets

/-!
# Address texts

An IPv4 address is written as its four octets in decimal, joined by dots.

An IPv6 address is written as its eight groups of sixteen bits in lower case hexadecimal,
joined by colons. The longest run of two or more zero groups, and of several equally long
ones the first, is left out and leaves two colons in its place. An address that maps an
IPv4 address, which is `::ffff:` followed by two groups, ends in the dotted form.
-/

namespace DnsTrace

/-- An IPv4 address. -/
structure IPv4 where
  octets : Vector UInt8 4
  deriving DecidableEq

/-- An IPv6 address. -/
structure IPv6 where
  octets : Vector UInt8 16
  deriving DecidableEq

/-- An address of either family. -/
inductive Address where
  | v4 (address : IPv4)
  | v6 (address : IPv6)
  deriving DecidableEq

namespace IPv4

/-- The dotted text of some octets. -/
def dotted (octets : Octets) : String :=
  ".".intercalate (octets.map fun octet => decimal octet.toNat)

/-- The text of an address. -/
def text (address : IPv4) : String :=
  dotted address.octets.toList

end IPv4

namespace IPv6

/-- Octets in pairs, each pair as the number it spells. -/
def pairs : Octets → List Nat
  | high :: low :: octets => (high.toNat * 256 + low.toNat) :: pairs octets
  | _ => []

/-- The eight groups of an address. -/
def groups (address : IPv6) : List Nat :=
  pairs address.octets.toList

/-- A stretch of equal neighbours in a list of groups. -/
structure Stretch where
  start : Nat
  length : Nat
  deriving DecidableEq

/-- The zero groups in a row from an index on. -/
def zerosFrom (groups : List Nat) (index : Nat) : Stretch :=
  ⟨index, ((groups.drop index).takeWhile (· = 0)).length⟩

/-- The first of the longest stretches of zero groups; its length is zero if no group is. -/
def longestZeros (groups : List Nat) : Stretch :=
  (List.range groups.length).foldl
    (fun best index =>
      let here := zerosFrom groups index
      if best.length < here.length then here else best)
    ⟨0, 0⟩

/-- Groups in hexadecimal, joined by colons. -/
def colonned (groups : List Nat) : String :=
  ":".intercalate (groups.map hexadecimal)

/-- The text of eight groups in which no IPv4 address is mapped. -/
def compressed (groups : List Nat) : String :=
  let zeros := longestZeros groups
  if 2 ≤ zeros.length then
    colonned (groups.take zeros.start) ++ "::" ++
      colonned (groups.drop (zeros.start + zeros.length))
  else colonned groups

/-- The prefix under which IPv4 addresses are mapped. -/
def isMapped (address : IPv6) : Bool :=
  address.groups.take 6 = [0, 0, 0, 0, 0, 0xffff]

/-- The text of an address. -/
def text (address : IPv6) : String :=
  if address.isMapped then "::ffff:" ++ IPv4.dotted (address.octets.toList.drop 12)
  else compressed address.groups

end IPv6

namespace Address

/-- The text of an address. -/
def text : Address → String
  | v4 address => address.text
  | v6 address => address.text

end Address

end DnsTrace
