import DnsTrace.Cursor
import DnsTrace.Header.OpCode
import DnsTrace.Header.ResponseCode

/-!
# Headers

A header is twelve octets: an identifier, sixteen bits of flags and codes, and the sizes
of the four sections. The flags and codes are, from the top bit down, `qr`, four bits of
operation code, `aa`, `tc`, `rd`, `ra`, `z`, `ad`, `cd` and four bits of response code.

The two octets of flags are read one by one, so a message that ends between them is
reported at the second; every other field is reported at its first octet.
-/

namespace DnsTrace

/-- The single bit flags of a header. -/
structure Flags where
  /-- The message is a response. -/
  qr : Bool
  /-- The answer is authoritative. -/
  aa : Bool
  /-- The message was cut to fit its transport. -/
  tc : Bool
  /-- Recursion is desired. -/
  rd : Bool
  /-- Recursion is available. -/
  ra : Bool
  /-- The reserved bit. -/
  z : Bool
  /-- The data was authenticated. -/
  ad : Bool
  /-- Checking is disabled. -/
  cd : Bool
  deriving DecidableEq

namespace Flags

/-- The flags with their mnemonics, in wire order. -/
def named (flags : Flags) : List (String × Bool) :=
  [("qr", flags.qr), ("aa", flags.aa), ("tc", flags.tc), ("rd", flags.rd),
    ("ra", flags.ra), ("z", flags.z), ("ad", flags.ad), ("cd", flags.cd)]

/-- The mnemonics of the flags that are set, in wire order. -/
def set (flags : Flags) : List String :=
  (flags.named.filter (·.2)).map (·.1)

end Flags

/-- The header of a message, apart from the section sizes. -/
structure Header where
  id : UInt16
  opcode : OpCode
  rcode : ResponseCode
  flags : Flags
  deriving DecidableEq

/-- How many items the header announces for each section. -/
structure SectionSizes where
  questions : UInt16
  answers : UInt16
  authority : UInt16
  additional : UInt16
  deriving DecidableEq

namespace Header

/-- Interpret an identifier and the two octets of flags and codes. -/
def ofWire (id : UInt16) (high low : UInt8) : Header where
  id := id
  opcode := .ofCode (UInt8.ofNat (high.toNat / 8 % 16))
  rcode := .ofCode (UInt8.ofNat (low.toNat % 16))
  flags :=
    { qr := high.toNat.testBit 7
      aa := high.toNat.testBit 2
      tc := high.toNat.testBit 1
      rd := high.toNat.testBit 0
      ra := low.toNat.testBit 7
      z := low.toNat.testBit 6
      ad := low.toNat.testBit 5
      cd := low.toNat.testBit 4 }

/-- Read a header and the section sizes behind it. -/
def read (cursor : Cursor) : Except Fault ((Header × SectionSizes) × Cursor) := do
  let (id, cursor) ← cursor.field16
  let (high, cursor) ← cursor.field8
  let (low, cursor) ← cursor.field8
  let (questions, cursor) ← cursor.field16
  let (answers, cursor) ← cursor.field16
  let (authority, cursor) ← cursor.field16
  let (additional, cursor) ← cursor.field16
  return ((ofWire id high low, ⟨questions, answers, authority, additional⟩), cursor)

end Header

end DnsTrace
