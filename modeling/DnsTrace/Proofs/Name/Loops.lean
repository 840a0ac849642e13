import DnsTrace.Proofs.Name.Limit
import DnsTrace.Proofs.Name.Stations
import Mathlib.Data.Fintype.Pigeonhole

/-!
# Walks that do not end

What follows a pointer depends on the pointer alone. So a walk that meets a pointer a second time
goes round for ever, and since a message has room for finitely many pointers, an endless walk does
meet one a second time. `Walk.FirstRepeat` is the first time at which that happens.

A loop is therefore reported only where no limit would have helped, and it names the pointer of
the first repetition. On an endless walk three limits compete: the repetition is reported unless
the labels in front of it are too many, or more than 127 pointers come before it.
-/

namespace DnsTrace

namespace Walk

/-- The pointer at the station after `again` others is the first that the walk meets a second
time. -/
structure FirstRepeat (raw : Octets) (start : Run) (again pointer : Nat) : Prop where
  meets : pointer? raw start again = some pointer
  before : ∃ earlier < again, pointer? raw start earlier = some pointer
  distinct : ∀ i j, i < j → j < again → pointer? raw start i ≠ pointer? raw start j

section Repetition

variable {raw : Octets} {start next : Run} {again pointer : Nat}

/-- Behind one pointer the walk is the same whenever it meets it. -/
theorem station?_add_eq {i j : Nat} (h : pointer? raw start i = pointer? raw start j) (k : Nat) :
    station? raw start (i + 1 + k) = station? raw start (j + 1 + k) := by
  induction k with
  | zero =>
    change (pointer? raw start i).bind _ = (pointer? raw start j).bind _
    rw [h]
  | succ k ih =>
    change ((station? raw start (i + 1 + k)).bind _).bind _ =
      ((station? raw start (j + 1 + k)).bind _).bind _
    rw [ih]

/-- A walk that meets a pointer twice is endless. -/
theorem endless_of_repeat {earlier : Nat} (hlt : earlier < again)
    (hearlier : pointer? raw start earlier = some pointer)
    (hagain : pointer? raw start again = some pointer) : Endless raw start := by
  intro n
  induction n using Nat.strong_induction_on with
  | _ n ih =>
    by_cases hn : n ≤ again
    · obtain ⟨here, hhere, -⟩ := Option.bind_eq_some_iff.mp hagain
      exact isSome_station?_of_le (Option.isSome_of_mem hhere) hn
    · obtain ⟨k, rfl⟩ : ∃ k, n = again + 1 + k := ⟨n - (again + 1), by omega⟩
      rw [← station?_add_eq (hearlier.trans hagain.symm) k]
      exact ih (earlier + 1 + k) (by omega)

/-- An endless walk finds a pointer at every station. -/
theorem Endless.exists_pointer (h : Endless raw start) (n : Nat) :
    ∃ target, pointer? raw start n = some target ∧ target < raw.length := by
  obtain ⟨next, hnext⟩ := Option.isSome_iff_exists.mp (h (n + 1))
  obtain ⟨target, hpointer, hstands⟩ := station?_succ_eq_some_iff.mp hnext
  have hsize := hstands.size_le
  have hpos := next.size_pos
  rw [List.length_drop] at hsize
  exact ⟨target, hpointer, by omega⟩

/-- An endless walk meets a pointer twice, because the message is finite. -/
theorem Endless.exists_repeat (h : Endless raw start) :
    ∃ again, ∃ earlier < again, pointer? raw start earlier = pointer? raw start again := by
  choose target hpointer hinside using h.exists_pointer
  obtain ⟨i, j, hne, hsame⟩ :=
    Finite.exists_ne_map_eq_of_infinite fun n => (⟨target n, hinside n⟩ : Fin raw.length)
  have htarget : pointer? raw start i = pointer? raw start j := by
    rw [hpointer, hpointer, Fin.mk.inj hsame]
  obtain hlt | hlt := Nat.lt_or_gt_of_ne hne
  · exact ⟨j, i, hlt, htarget⟩
  · exact ⟨i, j, hlt, htarget.symm⟩

/-- An endless walk has a first repetition. -/
theorem Endless.exists_firstRepeat (h : Endless raw start) :
    ∃ again pointer, FirstRepeat raw start again pointer := by
  classical
  have hrepeat := h.exists_repeat
  obtain ⟨earlier, hlt, hsame⟩ := Nat.find_spec hrepeat
  obtain ⟨target, hpointer, -⟩ := h.exists_pointer (Nat.find hrepeat)
  refine ⟨Nat.find hrepeat, target, hpointer, ⟨earlier, hlt, hsame.trans hpointer⟩, ?_⟩
  intro i j hij hj hequal
  exact Nat.find_min hrepeat hj ⟨i, hij, hequal⟩

/-- From the run behind its first pointer, a walk has the stations that are left. -/
theorem station?_succ_of_arrive {labels : List Label} {target : Nat}
    (hnext : next.LiesIn (raw.drop target)) (n : Nat) :
    station? raw ⟨labels, some target⟩ (n + 1) = station? raw next n := by
  induction n with
  | zero => exact station?_succ_eq_some_iff.mpr ⟨target, rfl, hnext⟩
  | succ n ih => rw [station?, ih, station?]

/-- An endless walk does not end, whatever limits it is given. -/
theorem Endless.not_unfolds (h : Endless raw start) (pointers : List Nat) (name : DomainName) :
    ¬ Unfolds raw start pointers name := by
  intro hunfolds
  induction hunfolds with
  | ends labels =>
    obtain ⟨target, hpointer, -⟩ := h.exists_pointer 0
    cases hpointer
  | follows labels inside stands rest ih =>
    apply ih
    intro n
    rw [← station?_succ_of_arrive stands n]
    exact h (n + 1)

end Repetition

section Diagnosis

variable {raw : Octets} {start : Run} {again pointer target : Nat}

/-- A loop is reported at the first repetition of an endless walk. -/
theorem endless_of_resolve_eq_pointerLoop
    (h : start.resolve raw = .error (.pointerLoop target)) :
    ∃ again ≤ maxHops, FirstRepeat raw start again target ∧ Endless raw start ∧
      1 + DomainName.labelsLength (collected raw start (again + 1)) ≤
        DomainName.maxWireLength := by
  obtain ⟨n, here, hn, hreaches, hends⟩ := exists_endsAt raw start
  rw [h] at hends
  cases hends with
  | loop points fits before same =>
    have hmeets : pointer? raw start n = some target := by
      rw [pointer?_of_station? hreaches.stands, points]
    exact ⟨n, hn, ⟨hmeets, ⟨_, before, same⟩, hreaches.distinct⟩,
      endless_of_repeat before same hmeets, fits⟩
  | astray points fits fresh hops leads =>
    obtain hfault | ⟨_, _, -, -, hfault⟩ := eq_of_arrive_eq_error leads <;> cases hfault

/-- A chain is reported only where 128 pointers in a row are pairwise different. -/
theorem distinct_of_resolve_eq_pointerChain {count : Nat}
    (h : start.resolve raw = .error (.pointerChain count)) :
    count = maxHops ∧ (∀ n < maxHops + 1, (pointer? raw start n).isSome) ∧
      ∀ i j, i < j → j < maxHops + 1 → pointer? raw start i ≠ pointer? raw start j := by
  obtain ⟨n, here, hn, hreaches, hends⟩ := exists_endsAt raw start
  rw [h] at hends
  cases hends with
  | chain points fits fresh hops =>
    subst hops
    have hmeets := pointer?_of_station? hreaches.stands
    refine ⟨rfl, fun m hm => ?_, fun i j hij hj => ?_⟩
    · obtain hlt | rfl := Nat.lt_succ_iff_lt_or_eq.mp hm
      · exact isSome_pointer?_of_lt (Option.isSome_of_mem hreaches.stands) hlt
      · rw [hmeets, points]
        rfl
    · obtain hlt | rfl := Nat.lt_succ_iff_lt_or_eq.mp hj
      · exact hreaches.distinct i j hij hlt
      · rw [hmeets, points]
        exact fresh i hij
  | astray points fits fresh hops leads =>
    obtain hfault | ⟨_, _, -, -, hfault⟩ := eq_of_arrive_eq_error leads <;> cases hfault

/-- On an endless walk every station leads on. -/
theorem Endless.arrives (h : Endless raw start) {n : Nat} {here : Run} {fault : Fault}
    (hstands : station? raw start n = some here) (htarget : here.target = some target) :
    arrive raw target ≠ .error fault := by
  intro hfault
  obtain ⟨next, hnext⟩ := Option.isSome_iff_exists.mp (h (n + 1))
  obtain ⟨target', hpointer, hlies⟩ := station?_succ_eq_some_iff.mp hnext
  rw [pointer?_of_station? hstands, htarget] at hpointer
  cases hpointer
  cases hfault.symm.trans (arrive_eq_ok_iff.mpr hlies)

/-- An endless walk is refused for one of the three limits. -/
theorem Endless.resolve_eq_error (h : Endless raw start) :
    ∃ fault, start.resolve raw = .error fault ∧
      ((∃ target, fault = .pointerLoop target) ∨ fault = .pointerChain maxHops ∨
        ∃ octets, fault = .nameTooLong octets) := by
  obtain ⟨n, here, hn, hreaches, hends⟩ := exists_endsAt raw start
  have hmeets := pointer?_of_station? hreaches.stands
  generalize start.resolve raw = result at hends ⊢
  cases hends with
  | tooLong passes => exact ⟨_, rfl, .inr (.inr ⟨_, rfl⟩)⟩
  | closed ends fits =>
    obtain ⟨target, hpointer, -⟩ := h.exists_pointer n
    cases (hmeets.trans ends).symm.trans hpointer
  | loop points fits before same => exact ⟨_, rfl, .inl ⟨_, rfl⟩⟩
  | chain points fits fresh hops => exact ⟨_, rfl, .inr (.inl rfl)⟩
  | astray points fits fresh hops leads => exact absurd leads (h.arrives hreaches.stands points)

/-- A name is reported as too long at a station to which the walk gets, and whose labels are those
that do not fit any more. -/
theorem exists_reaches_of_resolve_eq_nameTooLong {octets : Nat}
    (h : start.resolve raw = .error (.nameTooLong octets)) :
    ∃ n here, Reaches raw start n here ∧
      DomainName.maxWireLength < 1 + DomainName.labelsLength (collected raw start (n + 1)) := by
  obtain ⟨n, here, hn, hreaches, hends⟩ := exists_endsAt raw start
  rw [h] at hends
  cases hends with
  | tooLong passes =>
    refine ⟨n, here, hreaches, Nat.lt_of_not_le fun hfits => ?_⟩
    rw [collected_succ hreaches.stands, DomainName.labelsLength_append, ← Nat.add_assoc] at hfits
    cases passes.symm.trans ((charge_eq_ok_iff hreaches.fits).mpr ⟨rfl, hfits⟩)
  | astray points fits fresh hops leads =>
    obtain hfault | ⟨_, _, -, -, hfault⟩ := eq_of_arrive_eq_error leads <;> cases hfault

namespace FirstRepeat

/-- What comes before the first repetition is as long as the walk is without one. -/
theorem le_of_distinct (h : FirstRepeat raw start again pointer) {n : Nat}
    (hdistinct : ∀ i j, i < j → j < n → pointer? raw start i ≠ pointer? raw start j) :
    n ≤ again := by
  obtain ⟨earlier, hlt, hsame⟩ := h.before
  apply Nat.le_of_not_lt
  intro hagain
  exact hdistinct earlier again hlt hagain (hsame.trans h.meets.symm)

/-- A walk has one first repetition. -/
theorem unique (h : FirstRepeat raw start again pointer) {again' pointer' : Nat}
    (h' : FirstRepeat raw start again' pointer') : again = again' ∧ pointer = pointer' := by
  obtain rfl := Nat.le_antisymm (h'.le_of_distinct h.distinct) (h.le_of_distinct h'.distinct)
  exact ⟨rfl, Option.some.inj (h.meets.symm.trans h'.meets)⟩

/-- A walk with a repetition is endless. -/
theorem endless (h : FirstRepeat raw start again pointer) : Endless raw start := by
  obtain ⟨earlier, hlt, hsame⟩ := h.before
  exact endless_of_repeat hlt hsame h.meets

/-- A loop is reported exactly where no more than 127 pointers and 255 octets come before the
first repetition, and it is named by the pointer that is repeated. -/
theorem resolve_eq_pointerLoop_iff (h : FirstRepeat raw start again pointer) :
    start.resolve raw = .error (.pointerLoop target) ↔
      target = pointer ∧ again ≤ maxHops ∧
        1 + DomainName.labelsLength (collected raw start (again + 1)) ≤
          DomainName.maxWireLength := by
  constructor
  · intro hloop
    obtain ⟨again', hle, hfirst, -, hfits⟩ := endless_of_resolve_eq_pointerLoop hloop
    obtain ⟨rfl, rfl⟩ := h.unique hfirst
    exact ⟨rfl, hle, hfits⟩
  · rintro ⟨rfl, hle, hfits⟩
    obtain ⟨fault, hfault, hkind⟩ := h.endless.resolve_eq_error
    obtain ⟨target, rfl⟩ | rfl | ⟨octets, rfl⟩ := hkind
    · obtain ⟨_, _, hfirst, -⟩ := endless_of_resolve_eq_pointerLoop hfault
      rw [hfault, (h.unique hfirst).2]
    · obtain ⟨-, -, hdistinct⟩ := distinct_of_resolve_eq_pointerChain hfault
      have hlong := h.le_of_distinct hdistinct
      omega
    · obtain ⟨n, here, hreaches, hlong⟩ := exists_reaches_of_resolve_eq_nameTooLong hfault
      have hn := h.le_of_distinct hreaches.distinct
      have hmore : DomainName.labelsLength (collected raw start (n + 1)) ≤
          DomainName.labelsLength (collected raw start (again + 1)) :=
        labelsLength_collected_le (Nat.succ_le_succ hn)
      omega

end FirstRepeat

end Diagnosis

end Walk

namespace Message

/-- A name is refused for a loop, a chain or its length because a run stands at its offset and
resolving that run is refused for it. -/
theorem exists_resolve_of_nameAt_eq_error {message : Message} {offset limit : Nat} {fault : Fault}
    (h : message.nameAt offset limit = .error fault)
    (hframe : fault ≠ .truncated 1 0 ∧ ∀ position defect, fault ≠ .malformed position defect) :
    ∃ start : Run, start.LiesIn (message.raw.between offset (min limit message.raw.length)) ∧
      start.resolve message.raw = .error fault := by
  rw [nameAt_eq_map, map_eq_error_iff, DomainName.readAt_eq_error_iff] at h
  obtain ⟨-, hfault⟩ | ⟨-, position, defect, -, hfault⟩ | hrun := h
  · exact absurd hfault hframe.1
  · exact absurd hfault (hframe.2 position defect)
  · exact hrun

/-- A name whose run stands at its offset is refused exactly when resolving that run is. -/
theorem nameAt_eq_error_iff_resolve {message : Message} {offset limit : Nat} {fault : Fault}
    {start : Run} (h : start.LiesIn (message.raw.between offset (min limit message.raw.length))) :
    message.nameAt offset limit = .error fault ↔ start.resolve message.raw = .error fault := by
  rw [nameAt_eq_map, map_eq_error_iff, DomainName.readAt_eq_error_iff_resolve h]

/-- A loop is reported only on a walk that never ends: the pointer it names is the first that is
met a second time, no walk from there ends, and the name cannot be read with any other limit. A
chain is reported only where the first 128 pointers are pairwise different. Conversely, a walk
that never ends is refused for a loop, a chain or its length, and for nothing else; it has a
first repetition, and it is refused for a loop exactly when at most 127 pointers come before that
and all labels up to there fit in 255 octets. The loop is then named by the repeated pointer. -/
theorem nameAt_diagnoses_loops (message : Message) (offset limit : Nat) :
    (∀ pointer, message.nameAt offset limit = .error (.pointerLoop pointer) →
      ∃ start : Run, start.LiesIn (message.raw.between offset (min limit message.raw.length)) ∧
        Walk.Endless message.raw start ∧
        (∃ again, Walk.FirstRepeat message.raw start again pointer) ∧
        (∀ pointers name, ¬ Walk.Unfolds message.raw start pointers name) ∧
        ∀ limit' taken, message.nameAt offset limit' ≠ .ok taken) ∧
    (∀ count, message.nameAt offset limit = .error (.pointerChain count) →
      count = 127 ∧
      ∃ start : Run, start.LiesIn (message.raw.between offset (min limit message.raw.length)) ∧
        (∀ n < 128, (Walk.pointer? message.raw start n).isSome) ∧
        ∀ i j, i < j → j < 128 →
          Walk.pointer? message.raw start i ≠ Walk.pointer? message.raw start j) ∧
    ∀ start : Run, start.LiesIn (message.raw.between offset (min limit message.raw.length)) →
      Walk.Endless message.raw start →
        (∃ fault, message.nameAt offset limit = .error fault ∧
          ((∃ pointer, fault = .pointerLoop pointer) ∨ fault = .pointerChain 127 ∨
            ∃ octets, fault = .nameTooLong octets)) ∧
        (∃ again pointer, Walk.FirstRepeat message.raw start again pointer) ∧
        ∀ again pointer, Walk.FirstRepeat message.raw start again pointer → ∀ target,
          (message.nameAt offset limit = .error (.pointerLoop target) ↔
            target = pointer ∧ again ≤ 127 ∧
              1 + ((Walk.collected message.raw start (again + 1)).map
                fun label => label.length + 1).sum ≤ 255) := by
  refine ⟨fun pointer h => ?_, fun count h => ?_, fun start hstands hendless => ⟨?_, ?_, ?_⟩⟩
  · obtain ⟨start, hstands, hresolve⟩ :=
      exists_resolve_of_nameAt_eq_error h ⟨by simp, by simp⟩
    obtain ⟨again, -, hfirst, hendless, -⟩ := Walk.endless_of_resolve_eq_pointerLoop hresolve
    refine ⟨start, hstands, hendless, ⟨again, hfirst⟩, hendless.not_unfolds, ?_⟩
    rintro limit' ⟨text, used⟩ hread
    obtain ⟨run, name, hother, hresolved, -⟩ := nameAt_eq_ok_iff_stands.mp hread
    obtain rfl := hother.unique hstands.of_between
    cases hresolve.symm.trans hresolved
  · obtain ⟨start, hstands, hresolve⟩ :=
      exists_resolve_of_nameAt_eq_error h ⟨by simp, by simp⟩
    obtain ⟨hcount, hmeets, hdistinct⟩ := Walk.distinct_of_resolve_eq_pointerChain hresolve
    exact ⟨hcount, start, hstands, hmeets, hdistinct⟩
  · obtain ⟨fault, hresolve, hkind⟩ := hendless.resolve_eq_error
    exact ⟨fault, (nameAt_eq_error_iff_resolve hstands).mpr hresolve, hkind⟩
  · exact hendless.exists_firstRepeat
  · intro again pointer hfirst target
    rw [nameAt_eq_error_iff_resolve hstands, hfirst.resolve_eq_pointerLoop_iff,
      DomainName.labelsLength_eq_sum]
    rfl

/-- A label in front of a pointer to itself. -/
def selfPointer : Message where
  header := ⟨0, .query, .noError, ⟨false, false, false, false, false, false, false, false⟩⟩
  body := ⟨[], [], [], []⟩
  raw := [1, 97, 0xc0, 0]

/-- The label is met twice before the pointer is met a second time, and that is what is
reported. -/
theorem nameAt_selfPointer :
    selfPointer.nameAt 0 4 = .error (.pointerLoop 0) ∧
      ∃ start : Run, Walk.Endless selfPointer.raw start ∧
        ∃ again ≤ 127, Walk.FirstRepeat selfPointer.raw start again 0 ∧
          1 + ((Walk.collected selfPointer.raw start (again + 1)).map
            fun label => label.length + 1).sum ≤ 255 := by
  have hread : selfPointer.nameAt 0 4 = .error (.pointerLoop 0) := by with_unfolding_all rfl
  obtain ⟨hloop, -, hendless⟩ := nameAt_diagnoses_loops selfPointer 0 4
  obtain ⟨start, hstands, hwalk, ⟨again, hfirst⟩, -, -⟩ := hloop 0 hread
  obtain ⟨-, -, hexact⟩ := hendless start hstands hwalk
  obtain ⟨-, hhops, hfits⟩ := (hexact again 0 hfirst 0).mp hread
  exact ⟨hread, start, hwalk, again, hhops, hfirst, hfits⟩

end Message

end DnsTrace
