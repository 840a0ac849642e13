import DnsTrace.Proofs.Message.Defects
import DnsTrace.Proofs.Name.Unfolding

/-!
# The stations of a walk

A walk without limits is a sequence of runs, its stations: the run from which it starts, and
behind each pointer the run to which that pointer leads. `Walk.station?` is this sequence,
`Walk.pointer?` are the pointers that stand at its stations. The sequence breaks off behind a run
without a pointer and behind a pointer that leads to no run; otherwise the walk is endless.

Resolving a name goes along the stations until one of its limits, or the end of the walk, stops
it. `Walk.EndsAt` has one constructor for each way in which this can happen at a station, and
`Walk.exists_endsAt` says that it does happen, at one of the first 128.
-/

namespace DnsTrace

namespace Walk

/-- The run at which a walk stands after `n` pointers, if it comes that far. -/
def station? (raw : Octets) (start : Run) : Nat → Option Run
  | 0 => some start
  | n + 1 =>
      ((station? raw start n).bind (·.target)).bind fun target => (arrive raw target).toOption

/-- The pointer at the station after `n` pointers, if the walk comes there and finds one. -/
def pointer? (raw : Octets) (start : Run) (n : Nat) : Option Nat :=
  (station? raw start n).bind (·.target)

/-- The labels that a walk collects at its first `n` stations. -/
def collected (raw : Octets) (start : Run) : Nat → List Label
  | 0 => []
  | n + 1 => collected raw start n ++ ((station? raw start n).map (·.labels)).getD []

/-- The walk comes to every station: it never ends and never goes astray. -/
def Endless (raw : Octets) (start : Run) : Prop := ∀ n, (station? raw start n).isSome

section Sequence

variable {raw : Octets} {start here next : Run} {n m target : Nat}

/-- A station is followed by the run to which its pointer leads. -/
theorem station?_succ_eq_some_iff :
    station? raw start (n + 1) = some next ↔
      ∃ target, pointer? raw start n = some target ∧ next.LiesIn (raw.drop target) := by
  have harrive (target : Nat) :
      (arrive raw target).toOption = some next ↔ next.LiesIn (raw.drop target) := by
    rw [← arrive_eq_ok_iff]
    cases arrive raw target <;> simp [Except.toOption]
  change (pointer? raw start n).bind _ = some next ↔ _
  simp only [Option.bind_eq_some_iff, harrive]

/-- A walk that comes to a station comes to all stations before it. -/
theorem isSome_station?_of_le (h : (station? raw start n).isSome) (hle : m ≤ n) :
    (station? raw start m).isSome := by
  induction hle with
  | refl => exact h
  | @step n _ ih =>
    obtain ⟨next, hnext⟩ := Option.isSome_iff_exists.mp h
    obtain ⟨target, hpointer, -⟩ := station?_succ_eq_some_iff.mp hnext
    obtain ⟨here, hhere, -⟩ := Option.bind_eq_some_iff.mp hpointer
    exact ih (Option.isSome_of_mem hhere)

/-- A walk that comes to a station finds a pointer at every station before it. -/
theorem isSome_pointer?_of_lt (h : (station? raw start n).isSome) (hlt : m < n) :
    (pointer? raw start m).isSome := by
  obtain ⟨next, hnext⟩ := Option.isSome_iff_exists.mp (isSome_station?_of_le h hlt)
  obtain ⟨target, hpointer, -⟩ := station?_succ_eq_some_iff.mp hnext
  exact Option.isSome_of_mem hpointer

/-- The pointer at a station is that of the run there. -/
theorem pointer?_of_station? (h : station? raw start n = some here) :
    pointer? raw start n = here.target := by
  rw [pointer?, h]
  rfl

/-- At a station the walk collects the labels of the run there. -/
theorem collected_succ (h : station? raw start n = some here) :
    collected raw start (n + 1) = collected raw start n ++ here.labels := by
  rw [collected, h]
  rfl

/-- Labels that are collected later come on top. -/
theorem labelsLength_collected_le (h : m ≤ n) :
    DomainName.labelsLength (collected raw start m) ≤
      DomainName.labelsLength (collected raw start n) := by
  induction h with
  | refl => exact Nat.le_refl _
  | @step n _ ih =>
    rw [collected, DomainName.labelsLength_append]
    omega

end Sequence

/-- The walk gets to the station after `n` pointers: so far it has met no pointer twice, and its
labels fit. -/
structure Reaches (raw : Octets) (start : Run) (n : Nat) (here : Run) : Prop where
  stands : station? raw start n = some here
  distinct : ∀ i j, i < j → j < n → pointer? raw start i ≠ pointer? raw start j
  fits : 1 + DomainName.labelsLength (collected raw start n) ≤ DomainName.maxWireLength

/-- What resolving makes of a walk that stands at `here` after `n` pointers, if it stops there. -/
inductive EndsAt (raw : Octets) (start : Run) (n : Nat) (here : Run) :
    Except Fault DomainName → Prop
  /-- A label passes the longest name. -/
  | tooLong {octets : Nat}
      (passes : charge (1 + DomainName.labelsLength (collected raw start n)) here.labels =
        .error (.nameTooLong octets)) : EndsAt raw start n here (.error (.nameTooLong octets))
  /-- The run is closed by a zero octet. -/
  | closed (ends : here.target = none)
      (fits : 1 + DomainName.labelsLength (collected raw start (n + 1)) ≤
        DomainName.maxWireLength) : EndsAt raw start n here (.ok (collected raw start (n + 1)))
  /-- The pointer was met before. -/
  | loop {earlier target : Nat} (points : here.target = some target)
      (fits : 1 + DomainName.labelsLength (collected raw start (n + 1)) ≤
        DomainName.maxWireLength) (before : earlier < n)
      (same : pointer? raw start earlier = some target) :
      EndsAt raw start n here (.error (.pointerLoop target))
  /-- The pointer is new, but no more pointers may be followed. -/
  | chain {target : Nat} (points : here.target = some target)
      (fits : 1 + DomainName.labelsLength (collected raw start (n + 1)) ≤
        DomainName.maxWireLength) (fresh : ∀ i < n, pointer? raw start i ≠ some target)
      (hops : n = maxHops) : EndsAt raw start n here (.error (.pointerChain maxHops))
  /-- The pointer is new and leads to no run. -/
  | astray {target : Nat} {fault : Fault} (points : here.target = some target)
      (fits : 1 + DomainName.labelsLength (collected raw start (n + 1)) ≤
        DomainName.maxWireLength) (fresh : ∀ i < n, pointer? raw start i ≠ some target)
      (hops : n < maxHops) (leads : arrive raw target = .error fault) :
      EndsAt raw start n here (.error fault)

section Turns

variable {raw : Octets} {hops : Nat} {visited : List Nat} {wireLength charged : Nat} {run : Run}

/-- What lies behind a pointer is no run because the message ends before it, or because the run
there is broken. -/
theorem eq_of_arrive_eq_error {target : Nat} {fault : Fault}
    (h : arrive raw target = .error fault) :
    fault = .pointerOutside target ∨ ∃ offset defect, target < raw.length ∧
      Run.BrokenAt raw target offset defect ∧ fault = .malformed offset defect := by
  rw [arrive] at h
  cases hwindow : raw.drop target with
  | nil =>
    rw [hwindow] at h
    cases h
    exact .inl rfl
  | cons first behind =>
    have hinside := List.length_lt_of_drop_ne_nil (hwindow ▸ List.cons_ne_nil first behind)
    rw [hwindow] at h
    obtain ⟨offset, defect, hbroken, rfl⟩ :=
      Run.brokenAt_of_read (map_eq_error_iff.mp h) hwindow
    exact .inr ⟨offset, defect, hinside, hbroken, rfl⟩

end Turns

section Resolving

variable {raw : Octets} {start here : Run} {n : Nat}

/-- The next station is reached when the labels fit and the pointer is new. -/
theorem Reaches.next {target : Nat} {next : Run} (h : Reaches raw start n here)
    (hfits : 1 + DomainName.labelsLength (collected raw start (n + 1)) ≤
      DomainName.maxWireLength)
    (htarget : here.target = some target) (hfresh : ∀ i < n, pointer? raw start i ≠ some target)
    (hnext : arrive raw target = .ok next) : Reaches raw start (n + 1) next := by
  have hpointer : pointer? raw start n = some target := by
    rw [pointer?_of_station? h.stands, htarget]
  refine ⟨station?_succ_eq_some_iff.mpr ⟨target, hpointer, arrive_eq_ok_iff.mp hnext⟩, ?_, hfits⟩
  intro i j hij hj
  obtain hlt | rfl := Nat.lt_succ_iff_lt_or_eq.mp hj
  · exact h.distinct i j hij hlt
  · rw [hpointer]
    exact hfresh i hij

/-- At a station a walk ends, however many hops are left, or it finds a pointer that it has not
met yet behind labels that fit. -/
theorem endsAt_or_turns {visited : List Nat} (h : Reaches raw start n here)
    (hvisited : ∀ pointer, pointer ∈ visited ↔ ∃ i < n, pointer? raw start i = some pointer) :
    (∀ hops, EndsAt raw start n here
      ((follow raw hops visited (1 + DomainName.labelsLength (collected raw start n)) here).map
        (collected raw start n ++ ·))) ∨
    ∃ target, here.target = some target ∧ target ∉ visited ∧
      charge (1 + DomainName.labelsLength (collected raw start n)) here.labels =
        .ok (1 + DomainName.labelsLength (collected raw start (n + 1))) ∧
      1 + DomainName.labelsLength (collected raw start (n + 1)) ≤ DomainName.maxWireLength := by
  have hcollected := collected_succ h.stands
  cases hcharge : charge (1 + DomainName.labelsLength (collected raw start n)) here.labels with
  | error fault =>
    obtain ⟨octets, rfl⟩ := nameTooLong_of_charge hcharge
    left
    intro hops
    rw [follow_of_charge_eq_error hcharge]
    exact .tooLong hcharge
  | ok charged =>
    obtain ⟨hcharged, hfits⟩ := (charge_eq_ok_iff h.fits).mp hcharge
    have hsum : charged = 1 + DomainName.labelsLength (collected raw start (n + 1)) := by
      rw [hcollected, DomainName.labelsLength_append]
      omega
    rw [hsum] at hfits
    cases htarget : here.target with
    | none =>
      left
      intro hops
      rw [follow_of_target_eq_none hcharge htarget, Except.map, ← hcollected]
      exact .closed htarget hfits
    | some target =>
      by_cases hmem : target ∈ visited
      · obtain ⟨earlier, hbefore, hsame⟩ := (hvisited target).mp hmem
        left
        intro hops
        rw [follow_of_mem hcharge htarget hmem]
        exact .loop htarget hfits hbefore hsame
      · exact .inr ⟨target, rfl, hmem, by rw [hsum], hfits⟩

/-- A walk that stands at a station with the hops that are left, the pointers that it has met and
the labels that it has collected ends there or at a later station. -/
theorem exists_endsAt_of_reaches {hops : Nat} {visited : List Nat} (hhops : n + hops = maxHops)
    (h : Reaches raw start n here)
    (hvisited : ∀ pointer, pointer ∈ visited ↔ ∃ i < n, pointer? raw start i = some pointer) :
    ∃ m last, m ≤ maxHops ∧ Reaches raw start m last ∧ EndsAt raw start m last
      ((follow raw hops visited (1 + DomainName.labelsLength (collected raw start n)) here).map
        (collected raw start n ++ ·)) := by
  induction hops generalizing n here visited with
  | zero =>
    obtain hends | ⟨target, htarget, hmem, hcharge, hfits⟩ := endsAt_or_turns h hvisited
    · exact ⟨n, here, by omega, h, hends 0⟩
    · have hfresh (i : Nat) (hi : i < n) (hpointer : pointer? raw start i = some target) : False :=
        hmem ((hvisited target).mpr ⟨i, hi, hpointer⟩)
      rw [follow_zero hcharge htarget hmem]
      exact ⟨n, here, by omega, h, .chain htarget hfits hfresh (by omega)⟩
  | succ hops ih =>
    obtain hends | ⟨target, htarget, hmem, hcharge, hfits⟩ := endsAt_or_turns h hvisited
    · exact ⟨n, here, by omega, h, hends (hops + 1)⟩
    · have hfresh (i : Nat) (hi : i < n) (hpointer : pointer? raw start i = some target) : False :=
        hmem ((hvisited target).mpr ⟨i, hi, hpointer⟩)
      rw [follow_succ hcharge htarget hmem]
      cases harrive : arrive raw target with
      | error fault => exact ⟨n, here, by omega, h, .astray htarget hfits hfresh (by omega) harrive⟩
      | ok next =>
        have hpointer : pointer? raw start n = some target := by
          rw [pointer?_of_station? h.stands, htarget]
        have hmet (pointer : Nat) :
            pointer ∈ target :: visited ↔ ∃ i < n + 1, pointer? raw start i = some pointer := by
          simp only [List.mem_cons, hvisited, Nat.lt_succ_iff_lt_or_eq]
          constructor
          · rintro (rfl | ⟨i, hi, hsame⟩)
            · exact ⟨n, .inr rfl, hpointer⟩
            · exact ⟨i, .inl hi, hsame⟩
          · rintro ⟨i, hi | rfl, hsame⟩
            · exact .inr ⟨i, hi, hsame⟩
            · exact .inl (Option.some.inj (hsame.symm.trans hpointer))
        obtain ⟨m, last, hm, hreaches, hends⟩ :=
          ih (by omega) (h.next hfits htarget hfresh harrive) hmet
        refine ⟨m, last, hm, hreaches, ?_⟩
        cases hfollow : follow raw hops (target :: visited)
            (1 + DomainName.labelsLength (collected raw start (n + 1))) next with
        | error fault => simpa only [Except.bind, Except.map, hfollow] using hends
        | ok name =>
          simp only [hfollow, Except.map] at hends
          rw [collected_succ h.stands, List.append_assoc] at hends
          simpa only [Except.bind, Except.map, hfollow] using hends

/-- Resolving ends at one of the first 128 stations, to which it gets without meeting a pointer
twice and with labels that fit. -/
theorem exists_endsAt (raw : Octets) (start : Run) :
    ∃ n here, n ≤ maxHops ∧ Reaches raw start n here ∧
      EndsAt raw start n here (start.resolve raw) := by
  have hfirst : Reaches raw start 0 start := ⟨rfl, fun i j _ hj => absurd hj (Nat.not_lt_zero j),
    by rw [collected, DomainName.labelsLength]; decide⟩
  obtain ⟨n, here, hn, hreaches, hends⟩ :=
    exists_endsAt_of_reaches (Nat.zero_add maxHops) hfirst (fun pointer => by
      show pointer ∈ [] ↔ _
      simp)
  refine ⟨n, here, hn, hreaches, ?_⟩
  rw [Run.resolve]
  cases hfollow : follow raw maxHops [] 1 start <;>
  · simpa [collected, DomainName.labelsLength, hfollow, Except.map] using hends

end Resolving

end Walk

end DnsTrace
