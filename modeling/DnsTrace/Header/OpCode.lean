import DnsTrace.Digits

/-!
# Operation codes

The four bit operation code of a header. Codes without a name are kept as numbers, and so
are the codes above 15 that only a header made by hand can carry.
-/

namespace DnsTrace

/-- The kind of query that a message makes or answers. -/
inductive OpCode where
  | query
  | inverseQuery
  /-- Completion query with several answers. -/
  | completionMany
  /-- Completion query with one answer. -/
  | completionUnique
  | notify
  | update
  | zoneInit
  | zoneRef
  | unknown (code : UInt8)
  deriving DecidableEq

namespace OpCode

/-- The operation that a code stands for. -/
def ofCode : UInt8 → OpCode
  | 0 => query
  | 1 => inverseQuery
  | 2 => completionMany
  | 3 => completionUnique
  | 4 => notify
  | 5 => update
  | 14 => zoneInit
  | 15 => zoneRef
  | code => unknown code

/-- The mnemonic of an operation. -/
def text : OpCode → String
  | query => "QUERY"
  | inverseQuery => "IQUERY"
  | completionMany => "CQUERYM"
  | completionUnique => "CQUERYU"
  | notify => "NOTIFY"
  | update => "UPDATE"
  | zoneInit => "ZONEINIT"
  | zoneRef => "ZONEREF"
  | unknown code => "OPCODE" ++ decimal code.toNat

end OpCode

end DnsTrace
