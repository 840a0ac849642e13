import DnsTrace.Envelope
import DnsTrace.Name.Walk

/-!
# Messages

A message is an envelope whose owner names are resolved to text, together with the octets
it was read from: names inside record data are resolved against those octets when the
data is decoded. The octets stay as they are when the sections are edited by hand.
-/

namespace DnsTrace

/-- A message with its owner names in text. -/
structure Message where
  header : Header
  body : Body String
  raw : Octets
  deriving DecidableEq

namespace Message

/-- Read a message: frame all of it, then resolve its owner names in wire order. -/
def parse (raw : Octets) : Except Fault Message := do
  let (envelope, _) ← Envelope.read (Cursor.start raw)
  let body ← envelope.body.mapNames fun run => (run.resolve raw).map DomainName.text
  return { header := envelope.header, body, raw }

/-- The text of the name at `offset` and how many octets it takes there; its first run must
end before `limit`. -/
def nameAt (message : Message) (offset limit : Nat) : Except Fault (String × Nat) := do
  let (name, size) ← DomainName.readAt message.raw offset limit
  return (name.text, size)

/-- The records of a section. -/
def records (message : Message) (part : Section) : List (Record String) :=
  message.body.records part

/-- How many questions or records a section holds. -/
def count (message : Message) (part : Section) : Nat :=
  message.body.count part

/-- The name that the message asks about first, if it asks about any. -/
def askedName? (message : Message) : Option String :=
  message.body.questions.head?.map (·.name)

/-- The name that a captured payload asks about first, if it asks about any. -/
def readAskedName (payload : Octets) : Except Fault (Option String) :=
  (parse payload).map askedName?

/-- A short description: the names asked about and, in a response, the answers. -/
def describe (message : Message) : String :=
  let asked := message.body.questions.map fun question =>
    question.name ++ "(" ++ question.rrType.text ++ ")"
  let answered := message.body.answers.map fun record =>
    record.name ++ " => " ++ record.rrType.text ++ "[" ++ decimal record.rdlength ++ "]"
  "Message(id:" ++ decimal message.header.id.toNat ++ ") - Query [" ++
    ", ".intercalate asked ++ "]" ++
    if message.header.flags.qr then " - Response [" ++ ", ".intercalate answered ++ "]" else ""

end Message

end DnsTrace
