import DnsTrace.Proofs.Name.Unfolding

/-!
# The same name in other octets

What a walk collects depends on the runs that it meets and on nothing else. `Walk.Kept` says
that other octets have the same runs wherever some pointers lead. In such octets a name is read
as before, as soon as its own run stands there too and the limit leaves room for it. Octets
that continue a message keep all of its runs, so appending disturbs no name that was read.
-/

namespace DnsTrace

namespace Octets

/-- Octets stand at an offset exactly when they are the slice there. -/
theorem prefix_drop_iff_slice {octets front : Octets} {offset : Nat} :
    front <+: octets.drop offset ↔ octets.slice offset front.length = front := by
  rw [List.prefix_iff_eq_take, slice, eq_comm]

/-- Octets in front stay where they are when more is appended. -/
theorem slice_append {octets : Octets} {offset n : Nat} (h : offset + n ≤ octets.length)
    (more : Octets) : (octets ++ more).slice offset n = octets.slice offset n := by
  have hdrop : offset ≤ octets.length := by omega
  rw [slice, slice, List.drop_append_of_le_length hdrop]
  apply List.take_append_of_le_length
  rw [List.length_drop]
  omega

/-- A number in front stays what it is when more is appended. -/
theorem number_append {octets : Octets} {offset n : Nat} (h : offset + n ≤ octets.length)
    (more : Octets) : (octets ++ more).number offset n = octets.number offset n := by
  rw [number, number, slice_append h]

end Octets

namespace Run

/-- A run stands in other octets that have the same slice where it is. -/
theorem LiesIn.of_slice {raw other : Octets} {offset : Nat} {run : Run}
    (h : run.LiesIn (raw.drop offset))
    (hslice : other.slice offset run.size = raw.slice offset run.size) :
    run.LiesIn (other.drop offset) := by
  obtain ⟨hwell, hwire⟩ := h
  refine ⟨hwell, ?_⟩
  rw [Octets.prefix_drop_iff_slice, length_wire] at hwire ⊢
  rw [hslice, hwire]

/-- A run stands before a limit exactly when it stands without one and ends before it. -/
theorem liesIn_between_iff {raw : Octets} {offset limit : Nat} {run : Run} :
    run.LiesIn (raw.between offset (min limit raw.length)) ↔
      run.LiesIn (raw.drop offset) ∧ offset + run.size ≤ limit := by
  have hpos := run.size_pos
  constructor
  · intro h
    have hsize := h.size_le
    rw [Octets.length_between] at hsize
    exact ⟨h.of_between, by omega⟩
  · intro h
    obtain ⟨⟨hwell, hwire⟩, hlimit⟩ := h
    have hsize := hwire.length_le
    rw [length_wire, List.length_drop] at hsize
    refine ⟨hwell, ?_⟩
    rw [Octets.between, List.drop_take, List.prefix_take_iff, length_wire]
    exact ⟨hwire, by omega⟩

end Run

namespace Walk

/-- Wherever one of the pointers leads to a run, the other octets have that run too. -/
def Kept (raw other : Octets) (pointers : List Nat) : Prop :=
  ∀ pointer ∈ pointers, ∀ run : Run, run.LiesIn (raw.drop pointer) →
    run.LiesIn (other.drop pointer)

/-- All runs are kept when more is appended. -/
theorem kept_append (raw more : Octets) (pointers : List Nat) :
    Kept raw (raw ++ more) pointers := by
  intro pointer _ run hrun
  apply hrun.of_prefix
  rw [List.drop_append]
  exact List.prefix_append _ _

/-- A walk is the same where the runs behind its pointers are the same. -/
theorem Unfolds.of_kept {raw other : Octets} {run : Run} {pointers : List Nat}
    {name : DomainName} (h : Unfolds raw run pointers name) (hkept : Kept raw other pointers) :
    Unfolds other run pointers name := by
  induction h with
  | ends labels => exact .ends labels
  | @follows labels target next pointers name inside stands rest ih =>
    have hstands := hkept target List.mem_cons_self next stands
    have hinside : target < other.length := by
      have hsize := hstands.size_le
      have hpos := next.size_pos
      rw [List.length_drop] at hsize
      omega
    apply Unfolds.follows labels hinside hstands
    apply ih
    intro pointer hpointer
    exact hkept pointer (List.mem_cons_of_mem _ hpointer)

end Walk

namespace Message

variable {message other : Message} {offset limit used : Nat} {text : String}

/-- A text is read where a run stands, ends before the limit and is resolved. -/
theorem nameAt_eq_ok_iff_stands :
    message.nameAt offset limit = .ok (text, used) ↔
      ∃ (run : Run) (name : DomainName),
        run.LiesIn (message.raw.drop offset) ∧ run.resolve message.raw = .ok name ∧
          text = name.text ∧ used = run.size ∧ offset + used ≤ limit := by
  rw [nameAt_eq_ok_iff]
  simp only [Run.liesIn_between_iff]
  constructor
  · intro h
    obtain ⟨run, name, ⟨hstands, hlimit⟩, hresolve, htext, rfl⟩ := h
    exact ⟨run, name, hstands, hresolve, htext, rfl, hlimit⟩
  · intro h
    obtain ⟨run, name, hstands, hresolve, htext, rfl, hlimit⟩ := h
    exact ⟨run, name, ⟨hstands, hlimit⟩, hresolve, htext, rfl⟩

/-- A name takes room, all of it before the limit and inside the message. -/
theorem used_of_nameAt (h : message.nameAt offset limit = .ok (text, used)) :
    0 < used ∧ offset + used ≤ limit ∧ offset + used ≤ message.raw.length := by
  obtain ⟨run, name, hstands, -, -, rfl, hlimit⟩ := nameAt_eq_ok_iff_stands.mp h
  have hpos := run.size_pos
  have hsize := hstands.size_le
  rw [List.length_drop] at hsize
  omega

/-- The pointers that are followed for the name at an offset. -/
def FollowsAt (message : Message) (offset : Nat) (pointers : List Nat) : Prop :=
  ∃ (run : Run) (name : DomainName), run.LiesIn (message.raw.drop offset) ∧
    Walk.Unfolds message.raw run pointers name

/-- A name is read as before in another message that spells its own octets and keeps the runs
behind its pointers, when the limit leaves room for it. -/
theorem nameAt_of_kept (h : message.nameAt offset limit = .ok (text, used))
    (hslice : other.raw.slice offset used = message.raw.slice offset used)
    (hkept : ∀ pointers, message.FollowsAt offset pointers →
      Walk.Kept message.raw other.raw pointers)
    {limit' : Nat} (hlimit : offset + used ≤ limit') :
    other.nameAt offset limit' = .ok (text, used) := by
  obtain ⟨run, name, hstands, hresolve, htext, rfl, -⟩ := nameAt_eq_ok_iff_stands.mp h
  obtain ⟨pointers, hunfolds, hhops, hfits⟩ := Run.resolve_eq_ok_iff.mp hresolve
  have hwalk := hunfolds.of_kept (hkept pointers ⟨run, name, hstands, hunfolds⟩)
  apply nameAt_eq_ok_iff_stands.mpr
  exact ⟨run, name, hstands.of_slice hslice,
    Run.resolve_eq_ok_iff.mpr ⟨pointers, hwalk, hhops, hfits⟩, htext, rfl, hlimit⟩

/-- A name is read as before when octets are appended and the limit is moved on. -/
theorem nameAt_append (h : message.nameAt offset limit = .ok (text, used)) {more : Octets}
    (hraw : other.raw = message.raw ++ more) {limit' : Nat} (hlimit : limit ≤ limit') :
    other.nameAt offset limit' = .ok (text, used) := by
  obtain ⟨-, hbefore, hinside⟩ := used_of_nameAt h
  apply nameAt_of_kept h
  · rw [hraw, Octets.slice_append hinside]
  · intro pointers _
    rw [hraw]
    exact Walk.kept_append message.raw more pointers
  · omega

end Message

end DnsTrace
