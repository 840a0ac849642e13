import DnsTrace.Cursor
import DnsTrace.Name.Label

/-!
# Runs

A run is the part of a name that is written in one place: labels in a row, closed either
by a zero octet, which ends the name, or by a two octet pointer to the run that continues
it. Reading a run never follows its pointer.

The first octet of each element decides what it is: below 64 it is the length of a label,
from 192 on it opens a pointer, and what lies between is reserved. A reserved octet, a
missing octet and a pointer without its second octet are reported at the element's first
octet, a label that is cut short at the first octet of its text.
-/

namespace DnsTrace

/-- What the first octet of an element of a run announces. -/
inductive Lead where
  /-- A label of `length` octets follows; the empty label ends the name. -/
  | label (length : Nat)
  /-- A pointer whose upper six bits are `high`. -/
  | pointer (high : Nat)
  /-- The top bits 01 and 10 announce nothing. -/
  | reserved
  deriving DecidableEq

namespace Lead

/-- Classify a first octet by its top two bits. -/
def ofOctet (octet : UInt8) : Lead :=
  if octet.toNat < 64 then label octet.toNat
  else if octet.toNat < 192 then reserved
  else pointer (octet.toNat - 192)

end Lead

/-- Labels in a row and the offset at which the name continues, if it does. -/
structure Run where
  labels : List Label
  target : Option Nat
  deriving DecidableEq

namespace Run

/-- How many octets a run takes where it is written. -/
def size (run : Run) : Nat :=
  DomainName.labelsLength run.labels + if run.target.isSome then 2 else 1

/-- The run with one more label in front. -/
def cons (label : Label) (run : Run) : Run :=
  { run with labels := label :: run.labels }

/-- Read the run that starts at `position`, where the given octets are. -/
def read (position : Nat) (octets : Octets) : Except Fault (Run × Cursor) :=
  match octets with
  | [] => .error (.malformed position .endOfInput)
  | first :: behind =>
      match Lead.ofOctet first with
      | .reserved => .error (.malformed position .reservedLength)
      | .pointer high =>
          match behind with
          | [] => .error (.malformed position .endOfInput)
          | low :: back => .ok (⟨[], some (high * 256 + low.toNat)⟩, ⟨position + 2, back⟩)
      | .label 0 => .ok (⟨[], none⟩, ⟨position + 1, behind⟩)
      | .label (length + 1) =>
          match hsplit : Octets.split? (length + 1) behind with
          | none => .error (.malformed (position + 1) .endOfInput)
          | some (label, back) => do
              let (run, cursor) ← read (position + 1 + (length + 1)) back
              return (run.cons label, cursor)
termination_by octets.length
decreasing_by
  have := Octets.length_le_of_split? hsplit
  simp only [List.length_cons]
  omega

/-- A run takes at least its closing octet. -/
theorem size_pos (run : Run) : 0 < run.size := by
  simp only [size]
  split <;> omega

/-- One more label takes its own octets and its length octet. -/
theorem size_cons (label : Label) (run : Run) :
    (run.cons label).size = label.length + 1 + run.size := by
  obtain ⟨labels, target⟩ := run
  cases target <;> simp [size, cons, DomainName.labelsLength, Nat.add_assoc]

/-- Reading a run passes over as many octets as the run takes. -/
theorem size_of_read {position : Nat} {octets : Octets} {run : Run} {cursor : Cursor}
    (h : read position octets = .ok (run, cursor)) :
    cursor.position = position + run.size ∧ octets.length = run.size + cursor.rest.length := by
  fun_induction read position octets generalizing run with
  | case1 => simp at h
  | case2 => simp at h
  | case3 => simp at h
  | case4 position first high _ low back =>
    simp only [Except.ok.injEq, Prod.mk.injEq] at h
    obtain ⟨rfl, rfl⟩ := h
    simp [size, DomainName.labelsLength]
    omega
  | case5 position first behind =>
    simp only [Except.ok.injEq, Prod.mk.injEq] at h
    obtain ⟨rfl, rfl⟩ := h
    simp [size, DomainName.labelsLength]
    omega
  | case6 => simp at h
  | case7 position first behind length _ label back hsplit ih =>
    obtain ⟨rfl, hlength⟩ := Octets.split?_eq_some_iff.mp hsplit
    cases hread : read (position + 1 + (length + 1)) back with
    | error fault =>
      rw [hread] at h
      simp [bind, Except.bind] at h
    | ok pair =>
      obtain ⟨inner, next⟩ := pair
      rw [hread] at h
      simp only [bind, Except.bind, pure, Except.pure, Except.ok.injEq, Prod.mk.injEq] at h
      obtain ⟨rfl, rfl⟩ := h
      obtain ⟨hposition, hrest⟩ := ih hread
      rw [size_cons]
      simp only [List.length_cons, List.length_append]
      omega

end Run

namespace Cursor

/-- Read the run at the cursor. -/
def readRun (cursor : Cursor) : Except Fault (Run × Cursor) :=
  Run.read cursor.position cursor.rest

end Cursor

end DnsTrace
