/-!
# Effects

A step that works on a state may fail on its way. What it has done to the state until then is not
undone: the failure is told beside the state that is left. A caller that goes on behind a failed
step starts from there.
-/

namespace DnsTrace

/-- A step on a state: what it yields or fails with, and the state that it leaves in either case. -/
abbrev Effect (σ ε α : Type) := ExceptT ε (StateM σ) α

namespace Effect

variable {σ ε α β : Type}

/-- A second step starts from the state that the first one left, and only behind a success. -/
theorem bind_apply (first : Effect σ ε α) (next : α → Effect σ ε β) (state : σ) :
    (first >>= next) state =
      match first state with
      | (.ok item, left) => next item left
      | (.error failure, left) => (.error failure, left) := by
  change ExceptT.bindCont next (first state).1 (first state).2 = _
  obtain ⟨_ | _, _⟩ := first state <;> rfl

end Effect

end DnsTrace
