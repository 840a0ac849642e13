import DnsTrace.Trace

/-!
# Sinks

A sink takes characters one by one. A bounded sink refuses every character once it is
full, and the first refusal ends the writing: nothing is written behind it.
-/

namespace DnsTrace

/-- A place where characters are written. -/
structure Sink where
  /-- How many more characters are accepted; without a number, any. -/
  room : Option Nat
  accepted : String
  deriving DecidableEq

namespace Sink

/-- An empty sink. -/
def empty (room : Option Nat) : Sink := ⟨room, ""⟩

/-- Whether the next character will be refused. -/
def isFull (sink : Sink) : Bool := sink.room == some 0

/-- Take in one character. -/
def push (sink : Sink) (c : Char) : Sink :=
  ⟨sink.room.map (· - 1), sink.accepted.push c⟩

/-- Write characters up to the first refusal; tells whether all were accepted. -/
def write (sink : Sink) : List Char → Bool × Sink
  | [] => (true, sink)
  | c :: cs => if sink.isFull then (false, sink) else (sink.push c).write cs

/-- Write a trace fragment by fragment up to the first refusal; tells whether all of it was
accepted. -/
def writeTrace (sink : Sink) (token : String) : Trace → Bool × Sink
  | [] => (true, sink)
  | fragment :: trace =>
      match sink.write (fragment.render token).toList with
      | (false, full) => (false, full)
      | (true, next) => next.writeTrace token trace

/-- An unbounded sink accepts everything. -/
theorem write_unbounded (accepted : String) (cs : List Char) :
    (Sink.mk none accepted).write cs = (true, ⟨none, accepted ++ String.ofList cs⟩) := by
  induction cs generalizing accepted with
  | nil => simp [write]
  | cons c cs ih => simp [write, isFull, push, ih, ← String.toList_inj]

/-- A bounded sink accepts what it has room for and refuses the rest. -/
theorem write_bounded (room : Nat) (accepted : String) (cs : List Char) :
    (Sink.mk (some room) accepted).write cs =
      (decide (cs.length ≤ room),
        ⟨some (room - cs.length), accepted ++ String.ofList (cs.take room)⟩) := by
  induction cs generalizing room accepted with
  | nil => simp [write]
  | cons c cs ih =>
    cases room with
    | zero => simp [write, isFull]
    | succ room => simp [write, isFull, push, ih, ← String.toList_inj]

end Sink

end DnsTrace
