import DnsTrace.RecordData
import DnsTrace.Sink

/-!
# The trace of a message

The head of a trace names the operation, the response code and the identifier, and lists
the flags that are set behind a comma, with bars between them. The four sections follow
in wire order. An empty section is the number zero; any other is a fold, its size and its
items, with a fold in front of every item but the first.

A record is shown by its fixed fields, a comma and its data. Behind the fixed part of an
EDNS record comes a blank, a fold and the options, one directly after the other.

A payload that is no message has a trace too: the reason why it is none.
-/

namespace DnsTrace

/-- The flags that are set, as the end of a trace's head. -/
def Flags.text (flags : Flags) : String :=
  match flags.set with
  | [] => ""
  | names => "," ++ "|".intercalate names

/-- The head of a trace. -/
def Header.trace (header : Header) : Trace :=
  [.text " ", .fold,
    .text ("dns " ++ header.opcode.text ++ "," ++ header.rcode.text ++ "," ++
      decimal header.id.toNat ++ header.flags.text)]

namespace Trace

/-- A section that holds the given items. -/
def ofItems : List Trace → Trace
  | [] => [.text " 0"]
  | first :: others =>
      [.text " ", .fold, .text (decimal (first :: others).length), .text " "] ++ first ++
        others.flatMap fun item => [.text " ", .fold] ++ item

end Trace

/-- A question in a trace. -/
def Question.trace (question : Question String) : Trace :=
  [.text question.text]

/-- A record in a trace. -/
def Record.trace (record : Record String) (message : Message) : Trace :=
  .text record.text ::
    match record.data message with
    | .opt edns =>
        [.text ("," ++ edns.text ++ " "), .fold] ++
          edns.options.map fun option => .text option.text
    | data => [.text ("," ++ data.text)]

namespace Message

/-- The items of a section in a trace. -/
def itemTraces (message : Message) : Section → List Trace
  | .question => message.body.questions.map Question.trace
  | part => (message.records part).map (Record.trace · message)

/-- The trace of a message. -/
def trace (message : Message) : Trace :=
  message.header.trace ++
    Section.all.flatMap fun part => Trace.ofItems (message.itemTraces part)

/-- The text of a message's trace with a given continuation token. -/
def traceText (message : Message) (token : String) : String :=
  message.trace.render token

end Message

/-- The trace of a payload that is no message. -/
def Fault.trace (fault : Fault) : Trace :=
  [.text " ", .fold, .text ("dns " ++ fault.message)]

namespace Trace

/-- The trace of a captured payload. -/
def ofPayload (payload : Octets) : Trace :=
  match Message.parse payload with
  | .ok message => message.trace
  | .error fault => fault.trace

end Trace

/-- Write the trace of a captured payload; tells whether the sink accepted all of it. -/
def Sink.writePayload (sink : Sink) (token : String) (payload : Octets) : Bool × Sink :=
  sink.writeTrace token (Trace.ofPayload payload)

end DnsTrace
