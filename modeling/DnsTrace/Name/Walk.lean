import DnsTrace.Name.Run

/-!
# Walks

The name that starts with a run is found by walking: take the run's labels, follow its
pointer to the next run, and go on until a run ends the name. A pointer may lead anywhere
in the message, backwards, forwards or into another field.

Three limits end a walk. The labels met so far must fit in 255 octets, counted label by
label. No pointer may be met twice. And at most 127 pointers are followed: of the pointers
that lead to labels, no name that fits has more. Within one run the labels are counted first;
then its pointer is tried against the pointers already met, the number of hops and the end of
the message, in this order.
-/

namespace DnsTrace

namespace Walk

/-- The most pointers that a name may follow. -/
def maxHops : Nat := 127

/-- The wire length after some more labels, none of which may pass the limit. -/
def charge (wireLength : Nat) : List Label → Except Fault Nat
  | [] => .ok wireLength
  | label :: labels =>
      let charged := wireLength + (label.length + 1)
      if DomainName.maxWireLength < charged then .error (.nameTooLong charged)
      else charge charged labels

/-- Charging succeeds exactly when the labels fit, and then counts all their octets. -/
theorem charge_eq_ok_iff {wireLength charged : Nat} {labels : List Label}
    (h : wireLength ≤ DomainName.maxWireLength) :
    charge wireLength labels = .ok charged ↔
      charged = wireLength + DomainName.labelsLength labels ∧
        charged ≤ DomainName.maxWireLength := by
  induction labels generalizing wireLength with
  | nil =>
    simp only [charge, DomainName.labelsLength, Except.ok.injEq]
    omega
  | cons label labels ih =>
    simp only [charge, DomainName.labelsLength]
    split
    · simp only [reduceCtorEq, false_iff, not_and]
      omega
    · rw [ih (by omega)]
      omega

/-- Walk on from a run, with `hops` pointers left to follow. -/
def follow (raw : Octets) (hops : Nat) (visited : List Nat) (wireLength : Nat) (run : Run) :
    Except Fault DomainName :=
  match charge wireLength run.labels with
  | .error fault => .error fault
  | .ok charged =>
      match run.target with
      | none => .ok run.labels
      | some target =>
          if target ∈ visited then .error (.pointerLoop target)
          else
            match hops with
            | 0 => .error (.pointerChain maxHops)
            | hops + 1 =>
                match raw.drop target with
                | [] => .error (.pointerOutside target)
                | octets =>
                    match Run.read target octets with
                    | .error fault => .error fault
                    | .ok (next, _) =>
                        (follow raw hops (target :: visited) charged next).map (run.labels ++ ·)

end Walk

/-- The name that starts with a run of the message `raw`. -/
def Run.resolve (raw : Octets) (run : Run) : Except Fault DomainName :=
  Walk.follow raw Walk.maxHops [] 1 run

/-- The name at `offset` of the message `raw` and how many octets it takes there. The run
at `offset` must end before `limit`; what its pointers lead to may lie anywhere. -/
def DomainName.readAt (raw : Octets) (offset limit : Nat) : Except Fault (DomainName × Nat) :=
  let bound := min limit raw.length
  if bound < offset then .error (.truncated 1 0)
  else do
    let (run, _) ← Run.read offset ((raw.take bound).drop offset)
    let name ← run.resolve raw
    return (name, run.size)

end DnsTrace
