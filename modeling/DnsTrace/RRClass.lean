import DnsTrace.Digits

/-!
# Record classes

Codes are two octets wide. EDNS records carry a payload size in place of a class, so every
code has to survive being read as one.
-/

namespace DnsTrace

/-- The class of a record or question. -/
inductive RRClass where
  | internet
  | csnet
  | chaos
  | hesiod
  /-- No class, used in update prerequisites. -/
  | none
  /-- All classes. -/
  | any
  /-- A code without a name. -/
  | unknown (code : UInt16)
  deriving DecidableEq

namespace RRClass

/-- The class that a code stands for. -/
def ofCode : UInt16 → RRClass
  | 1 => internet
  | 2 => csnet
  | 3 => chaos
  | 4 => hesiod
  | 254 => none
  | 255 => any
  | code => unknown code

/-- The code that stands for a class. -/
def code : RRClass → UInt16
  | internet => 1
  | csnet => 2
  | chaos => 3
  | hesiod => 4
  | none => 254
  | any => 255
  | unknown code => code

/-- The mnemonic of a class. -/
def text : RRClass → String
  | internet => "IN"
  | csnet => "CS"
  | chaos => "CHAOS"
  | hesiod => "HS"
  | none => "NONE"
  | any => "ANY"
  | unknown code => "CLASS" ++ decimal code.toNat

/-- Every code survives being read as a class. -/
@[simp] theorem code_ofCode (c : UInt16) : (ofCode c).code = c := by
  unfold ofCode
  split <;> rfl

end RRClass

end DnsTrace
