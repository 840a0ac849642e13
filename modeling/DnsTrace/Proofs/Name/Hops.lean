import DnsTrace.Proofs.Name.Limit

/-!
# How many pointers a name needs

A pointer is of use where it leads to a run with labels; only the last may lead to a run without
any, to end the name. In names that are written in this way the pointers are counted by the
labels: there is at most one pointer more than there are labels behind pointers. A name of 255
octets has at most 127 labels, so it follows at most 128 pointers.

The limit is one less. It refuses the names that follow 128 pointers, and these have one shape:
127 labels of one octet, each behind a pointer of its own, between a pointer that begins the name
and a pointer to a lone zero octet.
-/

namespace DnsTrace

namespace DomainName

/-- Labels that take two octets each have one octet each. -/
theorem length_eq_one_of_labelsLength_le {labels : List Label}
    (h : ∀ label ∈ labels, 1 ≤ label.length ∧ label.length ≤ 63)
    (hlength : labelsLength labels ≤ 2 * labels.length) : ∀ label ∈ labels, label.length = 1 := by
  induction labels with
  | nil => simp
  | cons label labels ih =>
    obtain ⟨hlabel, hlabels⟩ := List.forall_mem_cons.mp h
    have hrest := two_mul_length_le hlabels
    rw [labelsLength, List.length_cons] at hlength
    exact List.forall_mem_cons.mpr ⟨by omega, ih hlabels (by omega)⟩

end DomainName

namespace Walk

variable {raw : Octets} {run : Run} {pointers : List Nat} {name : DomainName}

/-- Every pointer but the last leads to a run with labels. -/
def LabelsBehind (raw : Octets) (pointers : List Nat) : Prop :=
  ∀ pointer ∈ pointers.dropLast, ∀ next : Run, next.LiesIn (raw.drop pointer) → next.labels ≠ []

/-- Where every pointer but the last leads to a label, the labels of the name are enough for those
of its first run, those of its last run, and one for each pointer but the last. -/
theorem Unfolds.length_pointers_le (h : Unfolds raw run pointers name)
    (hlabels : LabelsBehind raw pointers) {target : Nat}
    (htarget : pointers.getLast? = some target) {last : Run}
    (hlast : last.LiesIn (raw.drop target)) :
    pointers.length + run.labels.length + last.labels.length ≤ name.length + 1 := by
  induction h with
  | ends labels => cases htarget
  | @follows labels first next pointers name inside stands rest ih =>
    cases pointers with
    | nil =>
      obtain rfl := Option.some.inj htarget
      obtain rfl := stands.unique hlast
      cases rest with
      | ends => simp only [List.length_append, List.length_cons, List.length_nil]; omega
    | cons second pointers =>
      have hfirst := hlabels first (by simp) next stands
      have hpos := List.length_pos_iff.mpr hfirst
      have hrest := ih (fun pointer hpointer => hlabels pointer (List.mem_cons_of_mem _ hpointer))
        (by rw [← htarget, List.getLast?_cons_cons])
      simp only [List.length_append, List.length_cons] at hrest ⊢
      omega

/-- The last pointer of a walk leads to a run. -/
theorem Unfolds.exists_last (h : Unfolds raw run pointers name) (hne : pointers ≠ []) :
    ∃ target last, pointers.getLast? = some target ∧ Run.LiesIn (raw.drop target) last := by
  induction h with
  | ends labels => exact absurd rfl hne
  | @follows labels first next pointers name inside stands rest ih =>
    cases pointers with
    | nil => exact ⟨first, next, rfl, stands⟩
    | cons second pointers =>
      obtain ⟨target, last, htarget, hlast⟩ := ih (List.cons_ne_nil _ _)
      exact ⟨target, last, by rw [List.getLast?_cons_cons, htarget], hlast⟩

/-- A walk that ends within 255 octets, but follows more pointers than are left, is refused for
them. -/
theorem follow_of_unfolds_of_lt (h : Unfolds raw run pointers name) {hops : Nat}
    (hhops : hops < pointers.length) {visited : List Nat}
    (hfresh : ∀ pointer ∈ pointers, pointer ∉ visited) {wireLength : Nat}
    (hfits : wireLength + DomainName.labelsLength name ≤ DomainName.maxWireLength) :
    follow raw hops visited wireLength run = .error (.pointerChain maxHops) := by
  induction h generalizing hops visited wireLength with
  | ends labels => cases hhops
  | @follows labels target next pointers name inside stands rest ih =>
    rw [DomainName.labelsLength_append] at hfits
    have hcharge : charge wireLength labels = .ok (wireLength + DomainName.labelsLength labels) :=
      (charge_eq_ok_iff (by omega)).mpr ⟨rfl, by omega⟩
    cases hops with
    | zero => exact follow_zero hcharge rfl (hfresh target List.mem_cons_self)
    | succ hops =>
      have hfreshRest := fresh_of_unfolds (.follows labels inside stands rest) hfresh
      have hrest : follow raw hops (target :: visited)
          (wireLength + DomainName.labelsLength labels) next = .error (.pointerChain maxHops) :=
        ih (Nat.lt_of_succ_lt_succ hhops) hfreshRest (by omega)
      rw [follow_succ hcharge rfl (hfresh target List.mem_cons_self), arrive_eq_ok_iff.mpr stands]
      simp only [Except.bind, hrest, Except.map]

/-- A walk that ends within 255 octets is resolved, or refused for following more than 127
pointers. -/
theorem Unfolds.resolve_eq (h : Unfolds raw run pointers name)
    (hfits : name.wireLength ≤ DomainName.maxWireLength) :
    run.resolve raw =
      if pointers.length ≤ maxHops then .ok name else .error (.pointerChain maxHops) := by
  split
  · rename_i hhops
    exact follow_of_unfolds h hhops (fun _ _ => List.not_mem_nil) hfits
  · rename_i hhops
    exact follow_of_unfolds_of_lt h (Nat.lt_of_not_le hhops) (fun _ _ => List.not_mem_nil) hfits

end Walk

namespace Message

/-- Of the names that end within 255 octets, and in which every pointer but the last leads to a
run with labels, the limit on pointers refuses exactly those that follow 128. All others are
read. A name that follows 128 pointers has no label in its first run and none in its last, and
127 labels of one octet between. -/
theorem nameAt_eq_pointerChain_iff_longest (message : Message) (offset limit : Nat) (run : Run)
    (pointers : List Nat) (name : DomainName)
    (hstands : run.LiesIn (message.raw.between offset (min limit message.raw.length)))
    (hwalk : Walk.Unfolds message.raw run pointers name)
    (hfits : 1 + (name.map fun label => label.length + 1).sum ≤ 255)
    (hlabels : Walk.LabelsBehind message.raw pointers) :
    (message.nameAt offset limit = .error (.pointerChain 127) ↔ pointers.length = 128) ∧
      (pointers.length ≠ 128 → message.nameAt offset limit = .ok (name.text, run.size)) ∧
      (pointers.length = 128 → run.labels = [] ∧
        (∀ target last, pointers.getLast? = some target →
          Run.LiesIn (message.raw.drop target) last → last.labels = []) ∧
        name.length = 127 ∧ ∀ label ∈ name, label.length = 1) := by
  have hlength := hwalk.label_length hstands.1
  have hcount := DomainName.two_mul_length_le hlength
  rw [← DomainName.labelsLength_eq_sum] at hfits
  have hread : message.nameAt offset limit =
      if pointers.length ≤ 127 then .ok (name.text, run.size) else .error (.pointerChain 127) := by
    rw [nameAt_eq_map, DomainName.readAt_of_liesIn hstands, hwalk.resolve_eq hfits, Walk.maxHops]
    split <;> rfl
  have hle : pointers.length ≤ 128 := by
    by_cases hne : pointers = []
    · rw [hne]
      exact Nat.zero_le _
    · obtain ⟨target, last, htarget, hlast⟩ := hwalk.exists_last hne
      have hbound := hwalk.length_pointers_le hlabels htarget hlast
      omega
  refine ⟨?_, fun hother => ?_, fun hlongest => ?_⟩
  · rw [hread]
    split
    · simp only [reduceCtorEq, false_iff]
      omega
    · simp only [true_iff]
      omega
  · rw [hread, if_pos (by omega)]
  · obtain ⟨target, last, htarget, hlast⟩ := hwalk.exists_last (by
      intro hnil
      rw [hnil] at hlongest
      cases hlongest)
    have hbound := hwalk.length_pointers_le hlabels htarget hlast
    refine ⟨List.length_eq_zero_iff.mp (by omega), fun target' last' htarget' hlast' => ?_,
      by omega, DomainName.length_eq_one_of_labelsLength_le hlength (by omega)⟩
    have hbound' := hwalk.length_pointers_le hlabels htarget' hlast'
    exact List.length_eq_zero_iff.mp (by omega)

/-- Where the rung of `ladder` with `k` labels from there on is written. -/
def rungAt (k : Nat) : Nat := 14 + 4 * (127 - k)

/-- The rungs of `ladder`: one label and a pointer to the next rung, and at last a zero octet. -/
def rung : Nat → Run
  | 0 => ⟨[], none⟩
  | k + 1 => ⟨[[97]], some (rungAt k)⟩

/-- A capture with no items, and behind its header a pointer to 127 rungs in a row. -/
def ladder : Message where
  header := ⟨0, .query, .noError, ⟨false, false, false, false, false, false, false, false⟩⟩
  body := ⟨[], [], [], []⟩
  raw := List.replicate 12 0 ++ Run.closing (some (rungAt 127)) ++
    (List.range 128).reverse.flatMap fun k => (rung k).wire

/-- Every rung stands where it is written. -/
theorem rung_liesIn {k : Nat} (h : k ≤ 127) : (rung k).LiesIn (ladder.raw.drop (rungAt k)) := by
  have hwire : ∀ k < 128, (rung k).wire <+: ladder.raw.drop (rungAt k) := by decide +kernel
  refine ⟨?_, hwire k (by omega)⟩
  cases k with
  | zero => exact ⟨by decide, by decide⟩
  | succ k =>
    refine ⟨by simp [rung], fun target htarget => ?_⟩
    obtain rfl := Option.some.inj htarget
    rw [rungAt]
    omega

/-- From a rung the walk goes down all rungs that are left, and collects one label at each. -/
theorem rung_unfolds {k : Nat} (h : k ≤ 127) :
    Walk.Unfolds ladder.raw (rung k) ((List.range k).reverse.map rungAt)
      (List.replicate k [97]) := by
  induction k with
  | zero => exact .ends []
  | succ k ih =>
    have hstands := rung_liesIn (Nat.le_of_succ_le h)
    have hinside : rungAt k < ladder.raw.length := by
      have hlength : ladder.raw.length = 523 := by decide +kernel
      rw [hlength, rungAt]
      omega
    rw [List.range_succ, List.reverse_concat]
    exact .follows [[97]] hinside hstands (ih (Nat.le_of_succ_le h))

/-- All rungs but the last have a label. -/
theorem rung_labelsBehind {k : Nat} (h : k ≤ 128) :
    Walk.LabelsBehind ladder.raw ((List.range k).reverse.map rungAt) := by
  intro pointer hpointer next hnext
  rw [← List.map_dropLast, List.dropLast_reverse, List.mem_map] at hpointer
  obtain ⟨i, hi, rfl⟩ := hpointer
  cases k with
  | zero => simp at hi
  | succ k =>
    rw [List.range_succ_eq_map, List.tail_cons, List.mem_reverse, List.mem_map] at hi
    obtain ⟨j, hj, rfl⟩ := hi
    rw [List.mem_range] at hj
    obtain rfl := hnext.unique (rung_liesIn (by omega))
    exact List.cons_ne_nil _ _

/-- The pointer behind the header of `ladder` begins a name of 128 pointers. -/
theorem ladder_unfolds :
    Walk.Unfolds ladder.raw ⟨[], some (rungAt 127)⟩ ((List.range 128).reverse.map rungAt)
      (List.replicate 127 [97]) := by
  rw [List.range_succ, List.reverse_concat]
  exact .follows [] (by decide +kernel) (rung_liesIn (Nat.le_refl 127))
    (rung_unfolds (Nat.le_refl 127))

/-- The pointer behind the header of `ladder` stands in the window of its name. -/
theorem ladder_liesIn :
    (⟨[], some (rungAt 127)⟩ : Run).LiesIn
      (ladder.raw.between 12 (min 523 ladder.raw.length)) :=
  ⟨⟨by decide, by decide⟩, by decide +kernel⟩

/-- The name behind the header of `ladder` follows one pointer more than the name at the first
rung. It is refused, and the other is read. -/
theorem nameAt_ladder :
    ladder.nameAt 12 523 = .error (.pointerChain 127) ∧
      ladder.nameAt 14 523 = .ok (DomainName.text (List.replicate 127 [97]), 4) := by
  have hsecond : (rung 127).LiesIn (ladder.raw.between 14 (min 523 ladder.raw.length)) :=
    ⟨(rung_liesIn (Nat.le_refl 127)).1, by decide +kernel⟩
  have hlonger := nameAt_eq_pointerChain_iff_longest ladder 12 523 _ _ _ ladder_liesIn
    ladder_unfolds (by decide +kernel) (rung_labelsBehind (Nat.le_refl 128))
  have hshorter := nameAt_eq_pointerChain_iff_longest ladder 14 523 _ _ _ hsecond
    (rung_unfolds (Nat.le_refl 127)) (by decide +kernel) (rung_labelsBehind (by decide))
  exact ⟨hlonger.1.mpr (by decide +kernel), hshorter.2.1 (by decide +kernel)⟩

/-- So the limit on pointers does refuse a name that ends within 255 octets and in which every
pointer but the last leads to a label. -/
theorem pointerChain_of_labelsBehind :
    ¬ ∀ (message : Message) (offset limit : Nat) (run : Run) (pointers : List Nat)
        (name : DomainName),
      run.LiesIn (message.raw.between offset (min limit message.raw.length)) →
      Walk.Unfolds message.raw run pointers name →
      1 + (name.map fun label => label.length + 1).sum ≤ 255 →
      Walk.LabelsBehind message.raw pointers →
      ∀ count, message.nameAt offset limit ≠ .error (.pointerChain count) := by
  intro hclaim
  refine hclaim ladder 12 523 _ _ _ ladder_liesIn ladder_unfolds (by decide +kernel)
    (rung_labelsBehind (Nat.le_refl 128)) 127 ?_
  rw [nameAt_eq_map, DomainName.readAt_of_liesIn ladder_liesIn,
    ladder_unfolds.resolve_eq (by decide +kernel), if_neg (by decide +kernel)]
  rfl

end Message

end DnsTrace
