import DnsTrace.Effect
import DnsTrace.Format

/-!
# Relays

A relay prints datagrams as they arrive, one line each, and passes over failures to
receive. A line is handed to the writer as its text and its end, and then flushed. The
first failure of the writer ends the relay, which passes it on; later events are left
unread.
-/

namespace DnsTrace

/-- What a relay receives. -/
inductive Arrival where
  | datagram (payload : Octets)
  | failure (reason : String)
  deriving DecidableEq

/-- A place where octets are written. -/
structure Writer where
  /-- How many more octets are accepted; without a number, any. -/
  room : Option Nat
  /-- What the writer fails with when it accepts no more octets. -/
  refusal : String
  accepted : Octets
  /-- How often the writer was flushed. -/
  flushes : Nat
  deriving DecidableEq

namespace Writer

/-- A writer that nothing was written to yet. -/
def opened (room : Option Nat) (refusal : String) : Writer := ⟨room, refusal, [], 0⟩

/-- An empty writer that says so when it is full. -/
def empty (room : Option Nat) : Writer := opened room "sink full"

/-- A step on a writer, and the failure of the writer if it comes to that. -/
abbrev Action := Effect Writer String Unit

/-- Write octets, as many as there is room for, and fail if that is not all of them. -/
def accept (octets : Octets) : Action := do
  let writer ← get
  match writer.room with
  | none => set { writer with accepted := writer.accepted ++ octets }
  | some room =>
      let front := octets.take room
      set { writer with
        room := some (room - front.length)
        accepted := writer.accepted ++ front }
      if front.length < octets.length then throw writer.refusal

/-- Flush what was written. -/
def flush : Action :=
  modify fun writer => { writer with flushes := writer.flushes + 1 }

/-- Write a line: its text, its end, and a flush. -/
def putLine (line : String) : Action := do
  accept (line.toList.flatMap String.utf8EncodeChar)
  accept [0x0a]
  flush

end Writer

/-- How a relay ended. -/
structure Relay where
  writer : Writer
  /-- The failure that ended the relay early. -/
  failure : Option String
  /-- The events that were not read any more. -/
  unread : List Arrival
  deriving DecidableEq

namespace Relay

/-- Relay events to a writer. -/
def run (format : Format) (writer : Writer) : List Arrival → Relay
  | [] => ⟨writer, none, []⟩
  | .failure _ :: arrivals => run format writer arrivals
  | .datagram payload :: arrivals =>
      match Writer.putLine (format.render payload) writer with
      | (.error failure, left) => ⟨left, some failure, arrivals⟩
      | (.ok (), left) => run format left arrivals

end Relay

end DnsTrace
