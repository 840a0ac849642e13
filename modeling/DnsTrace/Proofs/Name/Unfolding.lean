import DnsTrace.Message
import DnsTrace.Proofs.Name.Escapes
import DnsTrace.Proofs.Name.Wire

/-!
# Names as the ends of walks

`Walk.Unfolds` is the walk of a name with no limit on it at all: no count of pointers, no
count of octets and no memory of the pointers met. It relates a run to the pointers that
are followed from it, in order, and to the labels collected on the way.

Runs stand unambiguously, so a walk that ends is determined by where it starts. A pointer met
twice would start the same rest of the walk twice, which a walk that ends cannot afford;
hence the check for revisited pointers takes nothing from the names that exist. Resolving
accepts exactly the walks that end, follow at most 127 pointers and fit in 255 octets.
-/

namespace DnsTrace

namespace DomainName

/-- Labels in a row take what each part of the row takes. -/
theorem labelsLength_append (left right : List Label) :
    labelsLength (left ++ right) = labelsLength left + labelsLength right := by
  induction left with
  | nil => simp [labelsLength]
  | cons label labels ih => simp only [List.cons_append, labelsLength, ih, Nat.add_assoc]

/-- Labels take their own octets and one length octet each. -/
theorem labelsLength_eq_sum (labels : List Label) :
    labelsLength labels = (labels.map fun label => label.length + 1).sum := by
  induction labels with
  | nil => rfl
  | cons label labels ih => rw [labelsLength, ih, List.map_cons, List.sum_cons]

/-- Labels with something in them take at least two octets each. -/
theorem two_mul_length_le {labels : List Label}
    (h : ∀ label ∈ labels, 1 ≤ label.length ∧ label.length ≤ 63) :
    2 * labels.length ≤ labelsLength labels := by
  induction labels with
  | nil => exact Nat.le_refl 0
  | cons label labels ih =>
    obtain ⟨hlabel, hlabels⟩ := List.forall_mem_cons.mp h
    have hrest := ih hlabels
    rw [List.length_cons, labelsLength]
    omega

end DomainName

namespace Walk

/-- From a run, the walk follows these pointers in turn, ends, and collects these labels. -/
inductive Unfolds (raw : Octets) : Run → List Nat → DomainName → Prop
  /-- A run that is closed by a zero octet ends the walk. -/
  | ends (labels : List Label) : Unfolds raw ⟨labels, none⟩ [] labels
  /-- A pointer inside the message leads to the run that stands there. -/
  | follows (labels : List Label) {target : Nat} {next : Run} {pointers : List Nat}
      {name : DomainName} (inside : target < raw.length) (stands : next.LiesIn (raw.drop target))
      (rest : Unfolds raw next pointers name) :
      Unfolds raw ⟨labels, some target⟩ (target :: pointers) (labels ++ name)

namespace Unfolds

variable {raw : Octets} {run : Run} {pointers : List Nat} {name : DomainName}

/-- One label more in front of a run is one label more in front of its name. -/
theorem cons (h : Unfolds raw run pointers name) (label : Label) :
    Unfolds raw (run.cons label) pointers (label :: name) := by
  cases h with
  | ends => exact .ends _
  | follows labels inside stands rest => exact .follows (label :: labels) inside stands rest

/-- A walk is determined by the run from which it starts. -/
theorem unique (h : Unfolds raw run pointers name) {pointers' : List Nat} {name' : DomainName}
    (h' : Unfolds raw run pointers' name') : pointers = pointers' ∧ name = name' := by
  induction h generalizing pointers' name' with
  | ends labels =>
    cases h'
    exact ⟨rfl, rfl⟩
  | follows labels inside stands rest ih =>
    cases h' with
    | follows _ _ stands' rest' =>
      obtain rfl := stands.unique stands'
      obtain ⟨rfl, rfl⟩ := ih rest'
      exact ⟨rfl, rfl⟩

/-- Behind every pointer of a walk, a shorter walk goes on. -/
theorem exists_shorter (h : Unfolds raw run pointers name) {pointer : Nat}
    (hmem : pointer ∈ pointers) :
    ∃ next pointers' name', next.LiesIn (raw.drop pointer) ∧
      Unfolds raw next pointers' name' ∧ pointers'.length < pointers.length := by
  induction h with
  | ends labels => cases hmem
  | follows labels inside stands rest ih =>
    obtain rfl | hmem := List.mem_cons.mp hmem
    · exact ⟨_, _, _, stands, rest, Nat.lt_succ_self _⟩
    · obtain ⟨next, pointers', name', hstands, hnext, hlength⟩ := ih hmem
      exact ⟨next, pointers', name', hstands, hnext, Nat.lt_succ_of_lt hlength⟩

/-- A walk that ends meets no pointer twice. -/
theorem nodup (h : Unfolds raw run pointers name) : pointers.Nodup := by
  induction h with
  | ends labels => exact List.nodup_nil
  | follows labels inside stands rest ih =>
    refine List.nodup_cons.mpr ⟨?_, ih⟩
    intro hmem
    obtain ⟨next, pointers', name', hstands, hnext, hlength⟩ := rest.exists_shorter hmem
    obtain rfl := stands.unique hstands
    obtain ⟨rfl, -⟩ := rest.unique hnext
    exact Nat.lt_irrefl _ hlength

/-- Every label that a walk collects was read from a wire form. -/
theorem label_length (h : Unfolds raw run pointers name) (hrun : run.WellFormed) :
    ∀ label ∈ name, 1 ≤ label.length ∧ label.length ≤ 63 := by
  induction h with
  | ends labels => exact hrun.label_length
  | follows labels inside stands rest ih =>
    intro label hlabel
    obtain hlabel | hlabel := List.mem_append.mp hlabel
    · exact hrun.label_length label hlabel
    · exact ih stands.1 label hlabel

/-- No label that a walk collects is empty. -/
theorem label_ne_nil (h : Unfolds raw run pointers name) (hrun : run.WellFormed) :
    ∀ label ∈ name, label ≠ [] := by
  intro label hlabel hempty
  have hlength := (h.label_length hrun label hlabel).1
  rw [hempty] at hlength
  cases hlength

end Unfolds

section Turn

/-! One turn of `follow`, by what ends it or what it passes on. -/

/-- The run to which a pointer leads. -/
def arrive (raw : Octets) (target : Nat) : Except Fault Run :=
  match raw.drop target with
  | [] => .error (.pointerOutside target)
  | octets => (Run.read target octets).map (·.1)

/-- A pointer leads to the run that stands at its target. -/
theorem arrive_eq_ok_iff {raw : Octets} {target : Nat} {next : Run} :
    arrive raw target = .ok next ↔ next.LiesIn (raw.drop target) := by
  rw [arrive]
  cases hwindow : raw.drop target with
  | nil => simp [Run.not_liesIn_nil]
  | cons first behind => simp [Run.liesIn_iff_read target, map_eq_ok_iff]

variable {raw : Octets} {hops : Nat} {visited : List Nat} {wireLength charged : Nat} {run : Run}

/-- Labels that do not fit end the walk. -/
theorem follow_of_charge_eq_error {fault : Fault}
    (h : charge wireLength run.labels = .error fault) :
    follow raw hops visited wireLength run = .error fault := by
  rw [follow.eq_def, h]

/-- A run without a pointer ends the walk with its labels. -/
theorem follow_of_target_eq_none (h : charge wireLength run.labels = .ok charged)
    (htarget : run.target = none) :
    follow raw hops visited wireLength run = .ok run.labels := by
  rw [follow.eq_def, h, htarget]

/-- A pointer that was met before ends the walk. -/
theorem follow_of_mem (h : charge wireLength run.labels = .ok charged) {target : Nat}
    (htarget : run.target = some target) (hvisited : target ∈ visited) :
    follow raw hops visited wireLength run = .error (.pointerLoop target) := by
  rw [follow.eq_def, h, htarget]
  exact if_pos hvisited

/-- A new pointer that may not be followed any more ends the walk. -/
theorem follow_zero (h : charge wireLength run.labels = .ok charged) {target : Nat}
    (htarget : run.target = some target) (hvisited : target ∉ visited) :
    follow raw 0 visited wireLength run = .error (.pointerChain maxHops) := by
  rw [follow.eq_def, h, htarget]
  exact if_neg hvisited

/-- A new pointer is followed, and what is found there comes behind the labels. -/
theorem follow_succ (h : charge wireLength run.labels = .ok charged) {target : Nat}
    (htarget : run.target = some target) (hvisited : target ∉ visited) :
    follow raw (hops + 1) visited wireLength run =
      (arrive raw target).bind fun next =>
        (follow raw hops (target :: visited) charged next).map (run.labels ++ ·) := by
  rw [follow.eq_def, h, htarget, arrive]
  simp only [if_neg hvisited]
  cases raw.drop target with
  | nil => rfl
  | cons first behind =>
    cases hread : Run.read target (first :: behind) with
    | error fault => simp only [hread, Except.map, Except.bind]
    | ok taken => simp only [hread, Except.map, Except.bind]

end Turn

/-- What is resolved is the end of a walk, within the hops and octets that were left. -/
theorem unfolds_of_follow {raw : Octets} {hops : Nat} {visited : List Nat} {wireLength : Nat}
    {run : Run} {name : DomainName} (hlength : wireLength ≤ DomainName.maxWireLength)
    (h : follow raw hops visited wireLength run = .ok name) :
    ∃ pointers, Unfolds raw run pointers name ∧ pointers.length ≤ hops ∧
      wireLength + DomainName.labelsLength name ≤ DomainName.maxWireLength := by
  fun_induction follow raw hops visited wireLength run generalizing name with
  | case1 => cases h
  | case2 hops visited wireLength run charged hcharge htarget =>
    obtain ⟨labels, target⟩ := run
    obtain rfl : target = none := htarget
    cases h
    have hcharged := (charge_eq_ok_iff hlength).mp hcharge
    exact ⟨[], .ends labels, Nat.zero_le _, by omega⟩
  | case3 => cases h
  | case4 => cases h
  | case5 => cases h
  | case6 => cases h
  | case7 visited wireLength run charged hcharge target htarget hvisited hops next cursor hwindow
      hread ih =>
    obtain ⟨labels, target⟩ := run
    obtain rfl : target = some _ := htarget
    obtain ⟨rest, hrest, rfl⟩ := map_eq_ok_iff.mp h
    have hcharged := (charge_eq_ok_iff hlength).mp hcharge
    obtain ⟨pointers, hunfolds, hhops, hfits⟩ := ih hcharged.2 hrest
    have hstands := (Run.liesIn_iff_read _).mpr ⟨_, hread⟩
    have hinside := List.length_lt_of_drop_ne_nil hwindow
    refine ⟨_, .follows labels hinside hstands hunfolds, Nat.succ_le_succ hhops, ?_⟩
    rw [DomainName.labelsLength_append]
    simp only at hcharged ⊢
    omega

/-- The pointers behind the first stay fresh when the first one is remembered, because a walk
that ends does not come back to it. -/
theorem fresh_of_unfolds {raw : Octets} {run : Run} {first : Nat} {pointers visited : List Nat}
    {name : DomainName} (h : Unfolds raw run (first :: pointers) name)
    (hfresh : ∀ pointer ∈ first :: pointers, pointer ∉ visited) :
    ∀ pointer ∈ pointers, pointer ∉ first :: visited := by
  intro pointer hpointer hmem
  obtain rfl | hmem := List.mem_cons.mp hmem
  · exact (List.nodup_cons.mp h.nodup).1 hpointer
  · exact hfresh pointer (List.mem_cons_of_mem _ hpointer) hmem

/-- A walk that ends within the hops and octets that are left, and meets no pointer that was
met before, is resolved. -/
theorem follow_of_unfolds {raw : Octets} {run : Run} {pointers : List Nat} {name : DomainName}
    (h : Unfolds raw run pointers name) {hops : Nat} (hhops : pointers.length ≤ hops)
    {visited : List Nat} (hfresh : ∀ pointer ∈ pointers, pointer ∉ visited) {wireLength : Nat}
    (hfits : wireLength + DomainName.labelsLength name ≤ DomainName.maxWireLength) :
    follow raw hops visited wireLength run = .ok name := by
  induction h generalizing hops visited wireLength with
  | ends labels =>
    have hcharge := (charge_eq_ok_iff (by omega)).mpr ⟨rfl, hfits⟩
    exact follow_of_target_eq_none hcharge rfl
  | @follows labels target next pointers name inside stands rest ih =>
    rw [DomainName.labelsLength_append] at hfits
    have hcharge : charge wireLength labels = .ok (wireLength + DomainName.labelsLength labels) :=
      (charge_eq_ok_iff (by omega)).mpr ⟨rfl, by omega⟩
    obtain ⟨hops, rfl⟩ : ∃ hops', hops = hops' + 1 :=
      ⟨hops - 1, by rw [List.length_cons] at hhops; omega⟩
    have hfreshRest := fresh_of_unfolds (.follows labels inside stands rest) hfresh
    have hrest : follow raw hops (target :: visited) (wireLength + DomainName.labelsLength labels)
        next = .ok name :=
      ih (Nat.le_of_succ_le_succ hhops) hfreshRest (by omega)
    rw [follow_succ hcharge rfl (hfresh target List.mem_cons_self), arrive_eq_ok_iff.mpr stands]
    simp only [Except.bind, hrest, Except.map]

/-- Labels are refused for their length only. -/
theorem nameTooLong_of_charge {wireLength : Nat} {labels : List Label} {fault : Fault}
    (h : charge wireLength labels = .error fault) : ∃ octets, fault = .nameTooLong octets := by
  induction labels generalizing wireLength with
  | nil => cases h
  | cons label labels ih =>
    simp only [charge] at h
    split at h
    · cases h
      exact ⟨_, rfl⟩
    · exact ih h

/-- A pointer is reported as met before only when the labels in front of it fit. -/
theorem charge_of_pointerLoop {raw : Octets} {hops : Nat} {visited : List Nat}
    {wireLength target : Nat} {run : Run}
    (h : follow raw hops visited wireLength run = .error (.pointerLoop target)) :
    ∃ charged, charge wireLength run.labels = .ok charged := by
  cases hcharge : charge wireLength run.labels with
  | ok charged => exact ⟨charged, rfl⟩
  | error fault =>
    obtain ⟨octets, rfl⟩ := nameTooLong_of_charge hcharge
    rw [follow_of_charge_eq_error hcharge] at h
    cases h

/-- Where a walk ends, no pointer is reported as met before. -/
theorem follow_ne_pointerLoop {raw : Octets} {run : Run} {pointers : List Nat}
    {name : DomainName} (h : Unfolds raw run pointers name) (hops : Nat) {visited : List Nat}
    (hfresh : ∀ pointer ∈ pointers, pointer ∉ visited) (wireLength target : Nat) :
    follow raw hops visited wireLength run ≠ .error (.pointerLoop target) := by
  induction h generalizing hops visited wireLength with
  | ends labels =>
    intro hloop
    obtain ⟨charged, hcharge⟩ := charge_of_pointerLoop hloop
    rw [follow_of_target_eq_none hcharge rfl] at hloop
    cases hloop
  | @follows labels first next pointers name inside stands rest ih =>
    intro hloop
    have hfirst := hfresh first List.mem_cons_self
    have hfreshRest := fresh_of_unfolds (.follows labels inside stands rest) hfresh
    obtain ⟨charged, hcharge⟩ := charge_of_pointerLoop hloop
    cases hops with
    | zero =>
      rw [follow_zero hcharge rfl hfirst] at hloop
      cases hloop
    | succ hops =>
      rw [follow_succ hcharge rfl hfirst, arrive_eq_ok_iff.mpr stands] at hloop
      cases hrest : follow raw hops (first :: visited) charged next with
      | error fault =>
        simp only [Except.bind, hrest, Except.map] at hloop
        obtain rfl := Except.error.inj hloop
        exact ih hops hfreshRest charged hrest
      | ok name =>
        simp only [Except.bind, hrest, Except.map] at hloop
        cases hloop

end Walk

/-- Resolving yields exactly the names of walks that end after at most 127 pointers and within
255 octets. -/
theorem Run.resolve_eq_ok_iff {raw : Octets} {run : Run} {name : DomainName} :
    run.resolve raw = .ok name ↔
      ∃ pointers, Walk.Unfolds raw run pointers name ∧ pointers.length ≤ Walk.maxHops ∧
        name.wireLength ≤ DomainName.maxWireLength := by
  refine ⟨fun h => Walk.unfolds_of_follow (by decide) h, fun h => ?_⟩
  · obtain ⟨pointers, hunfolds, hhops, hfits⟩ := h
    exact Walk.follow_of_unfolds hunfolds hhops (fun _ _ => List.not_mem_nil) hfits

/-- What is resolved from a run is what its walk collects. -/
theorem Walk.Unfolds.eq_of_resolve {raw : Octets} {run : Run} {pointers : List Nat}
    {labels name : DomainName} (walk : Unfolds raw run pointers labels)
    (h : run.resolve raw = .ok name) : name = labels := by
  obtain ⟨pointers', hunfolds, -⟩ := Run.resolve_eq_ok_iff.mp h
  exact (hunfolds.unique walk).2

namespace DomainName

variable {raw : Octets} {offset limit : Nat} {run : Run}

/-- Where a run stands in the window, reading a name is resolving that run. -/
theorem readAt_of_liesIn (h : run.LiesIn (raw.between offset (min limit raw.length))) :
    readAt raw offset limit = (run.resolve raw).map fun name => (name, run.size) := by
  have hsize := h.size_le
  have hpos := run.size_pos
  rw [Octets.length_between] at hsize
  obtain ⟨cursor, hread⟩ := (Run.liesIn_iff_read offset).mp h
  rw [Octets.between] at hread
  simp only [readAt]
  rw [if_neg (by omega), hread]
  change (run.resolve raw >>= fun name => pure (name, run.size)) = _
  cases run.resolve raw <;> rfl

/-- A name that is read begins with a run that stands in the window. -/
theorem exists_liesIn_of_readAt {name : DomainName} {used : Nat}
    (h : readAt raw offset limit = .ok (name, used)) :
    ∃ run : Run, run.LiesIn (raw.between offset (min limit raw.length)) := by
  simp only [readAt] at h
  split at h
  · cases h
  · obtain ⟨⟨run, cursor⟩, hread, -⟩ := bind_eq_ok_iff.mp h
    exact ⟨run, (Run.liesIn_iff_read offset).mpr ⟨cursor, hread⟩⟩

/-- A name is read where a run stands in the window and is resolved. -/
theorem readAt_eq_ok_iff {name : DomainName} {used : Nat} :
    readAt raw offset limit = .ok (name, used) ↔
      ∃ run : Run, run.LiesIn (raw.between offset (min limit raw.length)) ∧
        run.resolve raw = .ok name ∧ used = run.size := by
  refine ⟨fun h => ?_, fun h => ?_⟩
  · obtain ⟨run, hstands⟩ := exists_liesIn_of_readAt h
    rw [readAt_of_liesIn hstands] at h
    obtain ⟨name, hresolve, hpair⟩ := map_eq_ok_iff.mp h
    cases hpair
    exact ⟨run, hstands, hresolve, rfl⟩
  · obtain ⟨run, hstands, hresolve, rfl⟩ := h
    rw [readAt_of_liesIn hstands, hresolve]
    rfl

end DomainName

namespace Message

/-- The text read at an offset is that of the name read there. -/
theorem nameAt_eq_map (message : Message) (offset limit : Nat) :
    message.nameAt offset limit =
      (DomainName.readAt message.raw offset limit).map fun taken => (taken.1.text, taken.2) := by
  rw [nameAt]
  cases DomainName.readAt message.raw offset limit <;> rfl

/-- A text is read where a run stands in the window and is resolved. -/
theorem nameAt_eq_ok_iff {message : Message} {offset limit used : Nat} {text : String} :
    message.nameAt offset limit = .ok (text, used) ↔
      ∃ (run : Run) (name : DomainName),
        run.LiesIn (message.raw.between offset (min limit message.raw.length)) ∧
        run.resolve message.raw = .ok name ∧ text = name.text ∧ used = run.size := by
  rw [nameAt_eq_map, map_eq_ok_iff]
  refine ⟨fun h => ?_, fun h => ?_⟩
  · obtain ⟨⟨name, size⟩, hread, hpair⟩ := h
    obtain ⟨run, hstands, hresolve, hsize⟩ := DomainName.readAt_eq_ok_iff.mp hread
    cases hpair
    exact ⟨run, name, hstands, hresolve, rfl, hsize⟩
  · obtain ⟨run, name, hstands, hresolve, rfl, rfl⟩ := h
    exact ⟨(name, run.size), DomainName.readAt_eq_ok_iff.mpr ⟨run, hstands, hresolve, rfl⟩, rfl⟩

/-- The text and size read at an offset are exactly those of a walk that ends: its first run
stands between the offset and the limit, at most 127 pointers are followed, wherever they
lead, and the labels fit in 255 octets. A walk that ends is never refused for a revisited
pointer, also when it is refused for its length. -/
theorem nameAt_eq_ok_iff_unfolds (message : Message) (offset limit : Nat) :
    (∀ text used, message.nameAt offset limit = .ok (text, used) ↔
      offset ≤ min limit message.raw.length ∧
        ∃ (run : Run) (pointers : List Nat) (name : DomainName),
          run.LiesIn (message.raw.between offset (min limit message.raw.length)) ∧
          Walk.Unfolds message.raw run pointers name ∧
          pointers.length ≤ 127 ∧ 1 + (name.map fun label => label.length + 1).sum ≤ 255 ∧
          name.ShownAs text ∧ used = run.wire.length) ∧
      ∀ (run : Run) (pointers : List Nat) (name : DomainName),
        run.LiesIn (message.raw.between offset (min limit message.raw.length)) →
        Walk.Unfolds message.raw run pointers name →
        ∀ target, message.nameAt offset limit ≠ .error (.pointerLoop target) := by
  refine ⟨fun text used => ?_, fun run pointers name hstands hunfolds target hloop => ?_⟩
  · rw [nameAt_eq_ok_iff]
    refine ⟨fun h => ?_, fun h => ?_⟩
    · obtain ⟨run, name, hstands, hresolve, htext, hused⟩ := h
      obtain ⟨pointers, hunfolds, hhops, hfits⟩ := Run.resolve_eq_ok_iff.mp hresolve
      have hsize := hstands.size_le
      have hpos := run.size_pos
      rw [Octets.length_between] at hsize
      rw [DomainName.wireLength, DomainName.labelsLength_eq_sum] at hfits
      rw [← DomainName.shownAs_iff] at htext
      rw [← Run.length_wire] at hused
      exact ⟨by omega, run, pointers, name, hstands, hunfolds, hhops, hfits, htext, hused⟩
    · obtain ⟨-, run, pointers, name, hstands, hunfolds, hhops, hfits, htext, hused⟩ := h
      rw [← DomainName.labelsLength_eq_sum] at hfits
      rw [DomainName.shownAs_iff] at htext
      rw [Run.length_wire] at hused
      exact ⟨run, name, hstands, Run.resolve_eq_ok_iff.mpr ⟨pointers, hunfolds, hhops, hfits⟩,
        htext, hused⟩
  · rw [nameAt_eq_map, DomainName.readAt_of_liesIn hstands] at hloop
    cases hresolve : run.resolve message.raw with
    | ok name =>
      rw [hresolve] at hloop
      cases hloop
    | error fault =>
      rw [hresolve] at hloop
      obtain rfl := Except.error.inj hloop
      exact Walk.follow_ne_pointerLoop hunfolds _ (fun _ _ => List.not_mem_nil) _ target hresolve

/-- A capture of `com` at 0 and, at 5, of `a` before a pointer to it. -/
def sharedSuffix : Message where
  header := ⟨0, .query, .noError, ⟨false, false, false, false, false, false, false, false⟩⟩
  body := ⟨[], [], [], []⟩
  raw := [3, 99, 111, 109, 0, 1, 97, 0xc0, 0]

/-- The same with a first label of a dot, a letter and two octets that are no characters. -/
def escapedSuffix : Message :=
  { sharedSuffix with raw := [3, 99, 111, 109, 0, 4, 46, 97, 7, 200, 0xc0, 0] }

/-- The walk from 5 ends after one pointer, so it is read and meets no loop. -/
theorem nameAt_escapedSuffix :
    Walk.Unfolds escapedSuffix.raw ⟨[[46, 97, 7, 200]], some 0⟩ [0]
        [[46, 97, 7, 200], [99, 111, 109]] ∧
      DomainName.ShownAs [[46, 97, 7, 200], [99, 111, 109]] "\\.a\\007\\200.com" ∧
      escapedSuffix.nameAt 5 12 = .ok ("\\.a\\007\\200.com", 7) ∧
      escapedSuffix.nameAt 5 12 ≠ .error (.pointerLoop 0) := by
  have hfirst : (⟨[[46, 97, 7, 200]], some 0⟩ : Run).LiesIn
      (escapedSuffix.raw.between 5 (min 12 12)) := ⟨⟨by decide, by decide⟩, by decide⟩
  have hsecond : (⟨[[99, 111, 109]], none⟩ : Run).LiesIn (escapedSuffix.raw.drop 0) :=
    ⟨⟨by decide, by decide⟩, by decide⟩
  have hwalk : Walk.Unfolds escapedSuffix.raw ⟨[[46, 97, 7, 200]], some 0⟩ [0]
      [[46, 97, 7, 200], [99, 111, 109]] :=
    .follows [[46, 97, 7, 200]] (by decide) hsecond (.ends [[99, 111, 109]])
  have hlabel : Label.ShownAs [46, 97, 7, 200]
      ['\\', '.', 'a', '\\', '0', '0', '7', '\\', '2', '0', '0'] :=
    ⟨[['\\', '.'], ['a'], ['\\', '0', '0', '7'], ['\\', '2', '0', '0']],
      .cons (.quoted rfl (by decide)) (.cons (.plain rfl (by decide) (by decide))
        (.cons (@Label.OctetShownAs.numbered 7 0 0 7 (by decide) (by decide) (by decide))
          (.cons (@Label.OctetShownAs.numbered 200 2 0 0 (by decide) (by decide) (by decide))
            .nil))), rfl⟩
  have hsuffix : Label.ShownAs [99, 111, 109] ['c', 'o', 'm'] :=
    ⟨[['c'], ['o'], ['m']], .cons (.plain rfl (by decide) (by decide))
      (.cons (.plain rfl (by decide) (by decide))
        (.cons (.plain rfl (by decide) (by decide)) .nil)), rfl⟩
  have hshown : DomainName.ShownAs [[46, 97, 7, 200], [99, 111, 109]] "\\.a\\007\\200.com" :=
    ⟨_, .cons hlabel (.cons hsuffix .nil), by decide⟩
  obtain ⟨hread, hloop⟩ := nameAt_eq_ok_iff_unfolds escapedSuffix 5 12
  exact ⟨hwalk, hshown, (hread _ 7).mpr ⟨by decide, _, _, _, hfirst, hwalk, by decide, by decide,
    hshown, by decide⟩, hloop _ _ _ hfirst hwalk 0⟩

end Message

end DnsTrace
