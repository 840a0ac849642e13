/-!
# Socket addresses

A socket address names an address and one of its services. It is written either as an
IPv4 address in dotted form, a colon and a service number, or as an IPv6 address in
brackets, a colon and a service number; a percent sign and a scope number may close the
address inside the brackets.

The octets of a dotted address have at most three digits and no leading zero. The groups
of an IPv6 address have at most four hexadecimal digits. Two colons stand for one or more
zero groups, and the last two groups may be written in dotted form. Service and scope
numbers may have leading zeros. Nothing may follow.
-/

namespace DnsTrace

/-- An address at which datagrams are received. -/
inductive SocketAddress where
  | v4 (octets : List Nat) (service : Nat)
  | v6 (groups : List Nat) (scope service : Nat)
  deriving DecidableEq

namespace SocketAddress

/-- The value of a digit in a base of at most sixteen. -/
def digit? (base : Nat) (c : Char) : Option Nat :=
  let value? :=
    if '0' ≤ c ∧ c ≤ '9' then some (c.toNat - '0'.toNat)
    else if 'a' ≤ c ∧ c ≤ 'f' then some (c.toNat - 'a'.toNat + 10)
    else if 'A' ≤ c ∧ c ≤ 'F' then some (c.toNat - 'A'.toNat + 10)
    else none
  value?.filter (· < base)

/-- Read the digits in front, as many as there are, as a number below `bound`. -/
def number? (base bound : Nat) (text : List Char) : Option (Nat × List Char) :=
  match text.takeWhile fun c => (digit? base c).isSome with
  | [] => none
  | digits =>
      let value := digits.foldl (fun total c => total * base + (digit? base c).getD 0) 0
      if value < bound then some (value, text.drop digits.length) else none

/-- How many digits stand in front. -/
def digitCount (base : Nat) (text : List Char) : Nat :=
  (text.takeWhile fun c => (digit? base c).isSome).length

/-- Read one given character. -/
def char? (c : Char) : List Char → Option (List Char)
  | first :: text => if first = c then some text else none
  | [] => none

/-- Read an octet in decimal, without leading zeros. -/
def octet? (text : List Char) : Option (Nat × List Char) :=
  if 3 < digitCount 10 text then none
  else if text.head? = some '0' ∧ 1 < digitCount 10 text then none
  else number? 10 256 text

/-- Read four octets in dotted form. -/
def dotted? (text : List Char) : Option (List Nat × List Char) := do
  let (first, text) ← octet? text
  let text ← char? '.' text
  let (second, text) ← octet? text
  let text ← char? '.' text
  let (third, text) ← octet? text
  let text ← char? '.' text
  let (fourth, text) ← octet? text
  return ([first, second, third, fourth], text)

/-- Read a group in hexadecimal. -/
def group? (text : List Char) : Option (Nat × List Char) :=
  if 4 < digitCount 16 text then none else number? 16 65536 text

/-- Read at most `limit` groups with colons between them, and a colon in front unless the
groups are the `first`. Tells whether they end in a dotted address. -/
def groups (first : Bool) (limit : Nat) (text : List Char) :
    (List Nat × Bool) × List Char :=
  match limit with
  | 0 => (([], false), text)
  | limit + 1 =>
      let separated := if first then some text else char? ':' text
      match if limit = 0 then none else separated.bind dotted? with
      | some ([a, b, c, d], text) => (([a * 256 + b, c * 256 + d], true), text)
      | _ =>
          match separated.bind group? with
          | none => (([], false), text)
          | some (group, text) =>
              let ((others, mapped), text) := groups false limit text
              ((group :: others, mapped), text)

/-- Read the eight groups of an IPv6 address. -/
def ipv6? (text : List Char) : Option (List Nat × List Char) :=
  let ((head, mapped), text) := groups true 8 text
  if head.length = 8 then some (head, text)
  else if mapped then none
  else do
    let text ← char? ':' text
    let text ← char? ':' text
    let ((tail, _), text) := groups true (7 - head.length) text
    return (head ++ List.replicate (8 - head.length - tail.length) 0 ++ tail, text)

/-- Read a colon and a service number. -/
def service? (text : List Char) : Option (Nat × List Char) := do
  let text ← char? ':' text
  number? 10 65536 text

/-- Read a percent sign and a scope, if they are there. -/
def scope (text : List Char) : Nat × List Char :=
  match (char? '%' text).bind (number? 10 4294967296) with
  | some (scope, text) => (scope, text)
  | none => (0, text)

/-- Read a socket address of the fourth version. -/
def v4? (text : List Char) : Option (SocketAddress × List Char) := do
  let (octets, text) ← dotted? text
  let (service, text) ← service? text
  return (.v4 octets service, text)

/-- Read a socket address of the sixth version. -/
def v6? (text : List Char) : Option (SocketAddress × List Char) := do
  let text ← char? '[' text
  let (groups, text) ← ipv6? text
  let (scope, text) := scope text
  let text ← char? ']' text
  let (service, text) ← service? text
  return (.v6 groups scope service, text)

/-- The socket address that a text spells. -/
def parse? (text : String) : Option SocketAddress :=
  match (v4? text.toList).or (v6? text.toList) with
  | some (address, []) => some address
  | _ => none

end SocketAddress

end DnsTrace
