import DnsTrace.Effect
import DnsTrace.Fault
import DnsTrace.Octets

/-!
# Cursors

A cursor is a position together with the octets that lie before it. Fields of record
data are read through a cursor over that data alone: a read either takes exactly its
width and advances past it, or fails with the width and what was left. A bounded read is
a `Cursor.Action`: it leaves a cursor behind whether it succeeds or fails. Decoding stops
at the first read that fails, so it keeps the `outcome` of an action alone. Fields of the
frame are read through a cursor over the message and report the position at which they
start.

`Cursor.serve` performs one request of any kind, so that whole sequences of reads, with
failures in between, are runs of one transition.
-/

namespace DnsTrace

/-- A position and the octets still to be read from it. -/
structure Cursor where
  position : Nat
  rest : Octets
  deriving DecidableEq

namespace Cursor

/-- A cursor at the first of the given octets. -/
def start (octets : Octets) : Cursor := ⟨0, octets⟩

/-- How many octets lie before the cursor. -/
def remaining (cursor : Cursor) : Nat := cursor.rest.length

/-- Take exactly `n` octets and advance past them, when there are that many. -/
def take? (n : Nat) (cursor : Cursor) : Option (Octets × Cursor) :=
  (Octets.split? n cursor.rest).map fun (front, back) => (front, ⟨cursor.position + n, back⟩)

/-- A bounded read: what it yields or fails with, and the cursor that it leaves in either case. -/
abbrev Action (α : Type) := Effect Cursor Fault α

namespace Action

variable {α β : Type}

/-- Read `n` octets. The cursor advances only behind the check that there are as many. -/
def bytes (n : Nat) : Action Octets := do
  let cursor ← get
  match cursor.take? n with
  | none => throw (.truncated n cursor.remaining)
  | some (octets, next) =>
      set next
      return octets

/-- Read one octet. -/
def read8 : Action UInt8 := do
  let octets ← bytes 1
  return UInt8.ofNat (Octets.value octets)

/-- Read a two octet number. -/
def read16 : Action UInt16 := do
  let octets ← bytes 2
  return UInt16.ofNat (Octets.value octets)

/-- Read a four octet number. -/
def read32 : Action UInt32 := do
  let octets ← bytes 4
  return UInt32.ofNat (Octets.value octets)

/-- Advance past `n` octets. -/
def skip (n : Nat) : Action Unit := do
  let _ ← bytes n

/-- Check that `n` octets are left, without reading them. -/
def ensure (n : Nat) : Action Unit := do
  let cursor ← get
  if cursor.remaining < n then throw (.truncated n cursor.remaining)

/-- What an action comes to for a reader that gives up when it fails. -/
def outcome (action : Action α) (cursor : Cursor) : Except Fault (α × Cursor) :=
  match action cursor with
  | (.ok item, next) => .ok (item, next)
  | (.error fault, _) => .error fault

/-- The outcome of an action is that of its first step and, if that succeeds, of the others. -/
theorem outcome_bind (first : Action α) (next : α → Action β) (cursor : Cursor) :
    (first >>= next).outcome cursor =
      first.outcome cursor >>= fun taken => (next taken.1).outcome taken.2 := by
  rw [outcome, outcome, Effect.bind_apply]
  obtain ⟨_ | _, _⟩ := first cursor <;> rfl

end Action

/-- Read `n` octets inside bounds. -/
def bytes (n : Nat) (cursor : Cursor) : Except Fault (Octets × Cursor) :=
  (Action.bytes n).outcome cursor

/-- Read a two octet number inside bounds. -/
def read16 (cursor : Cursor) : Except Fault (UInt16 × Cursor) :=
  Action.read16.outcome cursor

/-- Read a four octet number inside bounds. -/
def read32 (cursor : Cursor) : Except Fault (UInt32 × Cursor) :=
  Action.read32.outcome cursor

/-- Advance past `n` octets inside bounds. -/
def skip (n : Nat) (cursor : Cursor) : Except Fault Cursor := do
  let (_, cursor) ← (Action.skip n).outcome cursor
  return cursor

/-- Check that `n` octets are left inside bounds, without reading them. -/
def ensure (n : Nat) (cursor : Cursor) : Except Fault Unit := do
  let _ ← (Action.ensure n).outcome cursor

/-- Read a frame field of `n` octets; a field cut short is reported at its first octet. -/
def field (n : Nat) (cursor : Cursor) : Except Fault (Octets × Cursor) :=
  match cursor.take? n with
  | some taken => .ok taken
  | none => .error (.malformed cursor.position .endOfInput)

/-- Read a one octet frame field. -/
def field8 (cursor : Cursor) : Except Fault (UInt8 × Cursor) := do
  let (octets, cursor) ← cursor.field 1
  return (UInt8.ofNat (Octets.value octets), cursor)

/-- Read a two octet frame field. -/
def field16 (cursor : Cursor) : Except Fault (UInt16 × Cursor) := do
  let (octets, cursor) ← cursor.field 2
  return (UInt16.ofNat (Octets.value octets), cursor)

/-- Read a four octet frame field. -/
def field32 (cursor : Cursor) : Except Fault (UInt32 × Cursor) := do
  let (octets, cursor) ← cursor.field 4
  return (UInt32.ofNat (Octets.value octets), cursor)

/-- Read `count` items one after the other. -/
def many {α : Type} (item : Cursor → Except Fault (α × Cursor)) :
    Nat → Cursor → Except Fault (List α × Cursor)
  | 0, cursor => .ok ([], cursor)
  | count + 1, cursor => do
      let (first, cursor) ← item cursor
      let (others, cursor) ← many item count cursor
      return (first :: others, cursor)

/-- Taking splits the octets before the cursor and advances by as many as were taken. -/
theorem take?_eq_some_iff {n : Nat} {cursor next : Cursor} {octets : Octets} :
    cursor.take? n = some (octets, next) ↔
      cursor.rest = octets ++ next.rest ∧ octets.length = n ∧
        next.position = cursor.position + n := by
  obtain ⟨position, rest⟩ := next
  simp only [take?, Option.map_eq_some_iff, Prod.exists, Prod.mk.injEq, Cursor.mk.injEq]
  constructor
  · rintro ⟨front, back, h, rfl, rfl, rfl⟩
    obtain ⟨hrest, hlength⟩ := Octets.split?_eq_some_iff.mp h
    exact ⟨hrest, hlength, rfl⟩
  · rintro ⟨hrest, hlength, rfl⟩
    exact ⟨octets, rest, Octets.split?_eq_some_iff.mpr ⟨hrest, hlength⟩, rfl, rfl, rfl⟩

/-- Octets are taken, or else refused with how many are left, and then the cursor stays. -/
theorem Action.bytes_apply (n : Nat) (cursor : Cursor) :
    Action.bytes n cursor =
      match cursor.take? n with
      | some (octets, next) => (.ok octets, next)
      | none => (.error (.truncated n cursor.remaining), cursor) := by
  change (match cursor.take? n with
    | none => throw (.truncated n cursor.remaining)
    | some (octets, next) => (do set next; return octets) : Action Octets) cursor = _
  cases cursor.take? n <;> rfl

/-- A check passes when enough octets are left, and the cursor stays in either case. -/
theorem Action.ensure_apply (n : Nat) (cursor : Cursor) :
    Action.ensure n cursor =
      (if n ≤ cursor.remaining then .ok () else .error (.truncated n cursor.remaining),
        cursor) := by
  change (if cursor.remaining < n then throw (.truncated n cursor.remaining) else pure () :
    Action Unit) cursor = _
  by_cases hshort : cursor.remaining < n
  · rw [if_pos hshort, if_neg (Nat.not_le_of_lt hshort)]
    rfl
  · rw [if_neg hshort, if_pos (Nat.le_of_not_lt hshort)]
    rfl

/-- Reading octets is taking them. -/
theorem bytes_eq (n : Nat) (cursor : Cursor) :
    cursor.bytes n =
      match cursor.take? n with
      | some taken => .ok taken
      | none => .error (.truncated n cursor.remaining) := by
  rw [bytes, Action.outcome, Action.bytes_apply]
  cases cursor.take? n <;> rfl

/-- A two octet number is read from its octets. -/
theorem read16_eq (cursor : Cursor) :
    cursor.read16 =
      cursor.bytes 2 >>= fun taken => pure (UInt16.ofNat (Octets.value taken.1), taken.2) :=
  Action.outcome_bind _ _ cursor

/-- A four octet number is read from its octets. -/
theorem read32_eq (cursor : Cursor) :
    cursor.read32 =
      cursor.bytes 4 >>= fun taken => pure (UInt32.ofNat (Octets.value taken.1), taken.2) :=
  Action.outcome_bind _ _ cursor

/-- Octets are passed over as they are read. -/
theorem skip_eq (n : Nat) (cursor : Cursor) :
    cursor.skip n = cursor.bytes n >>= fun taken => pure taken.2 := by
  have houtcome : (Action.skip n).outcome cursor =
      cursor.bytes n >>= fun taken => pure ((), taken.2) := Action.outcome_bind _ _ cursor
  rw [skip, houtcome]
  cases cursor.bytes n <;> rfl

/-- Checking for octets is comparing with how many are left. -/
theorem ensure_eq (n : Nat) (cursor : Cursor) :
    cursor.ensure n =
      if n ≤ cursor.remaining then .ok () else .error (.truncated n cursor.remaining) := by
  rw [ensure, Action.outcome, Action.ensure_apply]
  by_cases hfits : n ≤ cursor.remaining
  · rw [if_pos hfits]
    rfl
  · rw [if_neg hfits]
    rfl

/-- The kinds of bounded read. -/
inductive Request where
  | read8
  | read16
  | read32
  | bytes (n : Nat)
  | skip (n : Nat)
  | ensure (n : Nat)
  deriving DecidableEq

/-- How many octets a request needs. -/
def Request.width : Request → Nat
  | .read8 => 1
  | .read16 => 2
  | .read32 => 4
  | .bytes n => n
  | .skip n => n
  | .ensure n => n

/-- What a granted request answers. -/
inductive Reply where
  | number (n : Nat)
  | octets (octets : Octets)
  | done
  deriving DecidableEq

/-- Perform one request. -/
def Request.perform : Request → Action Reply
  | .read8 => return .number (← Action.read8).toNat
  | .read16 => return .number (← Action.read16).toNat
  | .read32 => return .number (← Action.read32).toNat
  | .bytes n => return .octets (← Action.bytes n)
  | .skip n => do
      Action.skip n
      return .done
  | .ensure n => do
      Action.ensure n
      return .done

/-- Answer one request, and the cursor that it leaves. -/
def serve (cursor : Cursor) (request : Request) : Except Fault Reply × Cursor :=
  request.perform cursor

/-- The replies to requests in turn, each with the cursor behind it. -/
def run (cursor : Cursor) : List Request → List (Except Fault Reply × Cursor)
  | [] => []
  | request :: requests =>
      let served := cursor.serve request
      served :: run served.2 requests

end Cursor

end DnsTrace
