import DnsTrace.Digits

/-!
# Faults

Everything that can be wrong with a message is one cause with the numbers that locate
it. The wording of each cause is given in one place, `Fault.message`.

A malformed frame is located by its absolute offset in the message, also where the
octets read were only a window of it or the target of a compression pointer.
-/

namespace DnsTrace

/-- What a framing field ran into. -/
inductive Defect where
  /-- The octets end before the field does. -/
  | endOfInput
  /-- A length octet has the reserved top bits 01 or 10. -/
  | reservedLength
  deriving DecidableEq

namespace Defect

/-- The tag under which a defect is reported. -/
def text : Defect → String
  | .endOfInput => "Eof"
  | .reservedLength => "Verify"

end Defect

/-- The causes for which a message, a name or a piece of record data is refused. -/
inductive Fault where
  /-- The frame cannot be read on from `offset`. -/
  | malformed (offset : Nat) (defect : Defect)
  /-- A bounded read needed more octets than its bounds hold. -/
  | truncated (needed remaining : Nat)
  /-- A compression pointer leads behind the last octet. -/
  | pointerOutside (target : Nat)
  /-- A compression pointer was met a second time in one name. -/
  | pointerLoop (target : Nat)
  /-- A name follows more than `limit` compression pointers. -/
  | pointerChain (limit : Nat)
  /-- A name has grown to `octets` octets on the wire. -/
  | nameTooLong (octets : Nat)
  /-- An option declares more octets than its record still holds. -/
  | optionOverrun (code length : UInt16) (remaining : Nat)
  /-- A client subnet option is too short for its fixed fields. -/
  | shortClientSubnet (octets : Nat)
  deriving DecidableEq

namespace Fault

/-- The wording of a fault. -/
def message : Fault → String
  | malformed offset defect =>
      "malformed message at offset " ++ decimal offset ++ " (" ++ defect.text ++ ")"
  | truncated needed remaining =>
      "truncated: needed " ++ decimal needed ++ " bytes, " ++ decimal remaining ++ " remaining"
  | pointerOutside target =>
      "name pointer " ++ decimal target ++ " is outside the message"
  | pointerLoop target =>
      "Circular reference - detected a pointer we have seen already: " ++ decimal target
  | pointerChain limit =>
      "name follows more than " ++ decimal limit ++ " compression pointers"
  | nameTooLong octets =>
      "name of " ++ decimal octets ++ " octets exceeds 255"
  | optionOverrun code length remaining =>
      "edns0 option " ++ decimal code.toNat ++ " declares " ++ decimal length.toNat ++
        " bytes, " ++ decimal remaining ++ " remaining"
  | shortClientSubnet octets =>
      "edns0 client subnet option of " ++ decimal octets ++ " bytes is too short"

end Fault

end DnsTrace
