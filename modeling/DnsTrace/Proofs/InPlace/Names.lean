import DnsTrace.Proofs.InPlace.Frame

/-!
# Names read in place

A name is read in place by following its pointers to slices of the whole message. Its own first
run is read from a window of the message, and how many octets it takes there is how much shorter
what is left of the window is. A message is its envelope with the owner names resolved in this
way.

All of it yields what reading by positions says, for every message, offset and limit.
-/

namespace DnsTrace

namespace InPlace

section Located

variable {α β : Type} {bound : Nat}

/-- The fault that a stop amounts to among octets that end at `bound`. -/
def located (bound : Nat) (stop : Stop) : Option Fault := do
  let offset ← difference? bound stop.input.length
  return .malformed offset stop.defect

/-- An attempt on octets that end at `bound`, with its stop located. -/
def reported (bound : Nat) (attempt : Attempt Stop α) : Attempt Fault α :=
  .mk do
    match ← attempt.run with
    | .ok result => return .ok result
    | .error stop => return .error (← located bound stop)

/-- No slice reaches back behind the front, so every stop can be located. -/
theorem located_of_reports {stop : Stop} {fault : Fault} (h : Reports bound stop fault) :
    located bound stop = some fault := by
  obtain ⟨offset, hbound, rfl⟩ := h
  have hoffset : bound - stop.input.length = offset := by omega
  rw [located, difference?_of_le (by omega), hoffset]
  rfl

/-- What matches up to a slice matches by position. -/
theorem Matches.reported {Result : α → β → Prop} {attempt : Attempt Stop α}
    {result : Except Fault β} (h : Matches (Reports bound) Result attempt result) :
    Matches Eq Result (InPlace.reported bound attempt) result := by
  cases h with
  | ok result => exact .ok result
  | error reports =>
    rename_i stop fault
    have hlocated : InPlace.reported bound (some (.error stop) : Attempt Stop α) =
        some (.error fault) := by
      show (located bound stop >>= fun fault => some (Except.error fault)) = _
      rw [located_of_reports reports]
      rfl
    rw [hlocated]
    exact .error rfl

end Located

section Walking

variable {raw : Octets}

/-- The run to which a pointer leads. -/
def arrive (raw : Octets) (target : Nat) : Attempt Fault Run :=
  match raw.drop target with
  | [] => throw (.pointerOutside target)
  | octets => do
      let (run, _) ← reported raw.length (run octets)
      return run

/-- Walk on from a run, with `hops` pointers left to follow. -/
def follow (raw : Octets) (hops : Nat) (visited : List Nat) (wireLength : Nat) (run : Run) :
    Attempt Fault DomainName :=
  match Walk.charge wireLength run.labels with
  | .error fault => throw fault
  | .ok charged =>
      match run.target with
      | none => return run.labels
      | some target =>
          if target ∈ visited then throw (.pointerLoop target)
          else
            match hops with
            | 0 => throw (.pointerChain Walk.maxHops)
            | hops + 1 => do
                let next ← arrive raw target
                let name ← follow raw hops (target :: visited) charged next
                return run.labels ++ name

/-- The name that starts with a run of the message `raw`. -/
def resolve (raw : Octets) (run : Run) : Attempt Fault DomainName :=
  follow raw Walk.maxHops [] 1 run

/-- The name at `offset` of the message `raw` and how many octets it takes there. -/
def readAt (raw : Octets) (offset limit : Nat) : Attempt Fault (DomainName × Nat) :=
  let bound := min limit raw.length
  if bound < offset then throw (.truncated 1 0)
  else do
    let window := (raw.take bound).drop offset
    let (run, rest) ← reported bound (run window)
    let name ← resolve raw run
    let used ← difference? window.length rest.length
    return (name, used)

/-- What a pointer leads to is read from what is left of the message there. -/
theorem arrive_eq (target : Nat) : arrive raw target = settled (Walk.arrive raw target) := by
  rw [arrive, Walk.arrive]
  cases hoctets : raw.drop target with
  | nil => rfl
  | cons first behind =>
    have hlength := congrArg List.length hoctets
    rw [List.length_drop, List.length_cons] at hlength
    have hstands : Stands raw.length (first :: behind) ⟨target, first :: behind⟩ := by
      refine ⟨rfl, ?_⟩
      show target + (behind.length + 1) = raw.length
      omega
    exact matches_eq_iff.mp ((run_matches hstands).reported.map fun _ _ h => h.1)

/-- A walk in place takes the turns of the walk by positions. -/
theorem follow_eq (hops : Nat) (visited : List Nat) (wireLength : Nat) (run : Run) :
    follow raw hops visited wireLength run =
      settled (Walk.follow raw hops visited wireLength run) := by
  rw [follow.eq_def]
  cases hcharge : Walk.charge wireLength run.labels with
  | error fault =>
    rw [Walk.follow_of_charge_eq_error hcharge]
    rfl
  | ok charged =>
    cases htarget : run.target with
    | none =>
      rw [Walk.follow_of_target_eq_none hcharge htarget]
      rfl
    | some target =>
      by_cases hvisited : target ∈ visited
      · rw [Walk.follow_of_mem hcharge htarget hvisited]
        exact if_pos hvisited
      · dsimp only
        rw [if_neg hvisited]
        cases hops with
        | zero =>
          rw [Walk.follow_zero hcharge htarget hvisited]
          rfl
        | succ hops =>
          rw [Walk.follow_succ hcharge htarget hvisited, arrive_eq]
          cases Walk.arrive raw target with
          | error fault => rfl
          | ok next =>
            have hrest := matches_eq_iff.mpr (follow_eq hops (target :: visited) charged next)
            exact matches_eq_iff.mp (hrest.map fun _ _ h => congrArg (run.labels ++ ·) h)

/-- A run is resolved in place. -/
theorem resolve_eq (run : Run) : resolve raw run = settled (run.resolve raw) :=
  follow_eq Walk.maxHops [] 1 run

/-- The octets that a name takes are those by which its window gets shorter. -/
theorem readAt_eq (offset limit : Nat) :
    readAt raw offset limit = settled (DomainName.readAt raw offset limit) := by
  rw [readAt, DomainName.readAt]
  generalize hbound : min limit raw.length = bound
  dsimp only
  by_cases hoffset : bound < offset
  · rw [if_pos hoffset, if_pos hoffset]
    rfl
  · rw [if_neg hoffset, if_neg hoffset]
    generalize hwindow : (raw.take bound).drop offset = window
    have hstands : Stands bound window ⟨offset, window⟩ := by
      refine ⟨rfl, ?_⟩
      show offset + window.length = bound
      rw [← hwindow, List.length_drop, List.length_take]
      omega
    have hrun := (run_matches hstands).reported.and_of_ok fun _ => Run.size_of_read
    refine matches_eq_iff.mp (hrun.bind ?_)
    rintro ⟨run, rest⟩ ⟨_, cursor⟩ ⟨⟨rfl, hstands⟩, -, hsize⟩
    have hrest : cursor.rest = rest := hstands.rest_eq
    have hshorter : window.length = run.size + cursor.rest.length := hsize
    have hused : difference? window.length rest.length = some run.size := by
      rw [hrest] at hshorter
      rw [difference?_of_le (by omega)]
      congr 1
      omega
    refine (matches_eq_iff.mpr (resolve_eq run)).bind ?_
    rintro name _ rfl
    rw [hused]
    exact .ok rfl

end Walking

section Messages

/-- Change the form of the name of a question. -/
def mapQuestion {ν μ : Type} (change : ν → Attempt Fault μ) (question : Question ν) :
    Attempt Fault (Question μ) := do
  let name ← change question.name
  return { question with name }

/-- Change the form of the owner name of a record. -/
def mapRecord {ν μ : Type} (change : ν → Attempt Fault μ) (record : Record ν) :
    Attempt Fault (Record μ) := do
  let name ← change record.name
  return { record with name }

/-- Change the form of every name, in wire order. -/
def mapNames {ν μ : Type} (change : ν → Attempt Fault μ) (body : Body ν) :
    Attempt Fault (Body μ) := do
  let questions ← body.questions.mapM (mapQuestion change)
  let answers ← body.answers.mapM (mapRecord change)
  let authority ← body.authority.mapM (mapRecord change)
  let additional ← body.additional.mapM (mapRecord change)
  return { questions, answers, authority, additional }

/-- A message, with its owner names in text. -/
def parse (raw : Octets) : Attempt Fault Message := do
  let (envelope, _) ← reported raw.length (outcome (envelope raw) raw)
  let body ← mapNames (fun run => return (← resolve raw run).text) envelope.body
  return { header := envelope.header, body, raw }

/-- The name that a captured payload asks about first, if it asks about any. -/
def askedName (payload : Octets) : Attempt Fault (Option String) := do
  let message ← parse payload
  return message.askedName?

/-- The text of the name at `offset` and how many octets it takes there. -/
def nameAt (message : Message) (offset limit : Nat) : Attempt Fault (String × Nat) := do
  let (name, used) ← readAt message.raw offset limit
  return (name.text, used)

/-- Names are changed in place when each of them is. -/
theorem mapNames_settled {ν μ : Type} (change : ν → Except Fault μ) (body : Body ν) :
    mapNames (fun name => settled (change name)) body = settled (body.mapNames change) := by
  have hquestion : mapQuestion (fun name => settled (change name)) =
      fun question => settled (question.mapName change) :=
    funext fun question => settled_bind (change question.name) fun name =>
      pure ({ question with name } : Question μ)
  have hrecord : mapRecord (fun name => settled (change name)) =
      fun record => settled (record.mapName change) :=
    funext fun record => settled_bind (change record.name) fun name =>
      pure ({ record with name } : Record μ)
  rw [mapNames, hquestion, hrecord]
  simp only [mapM_settled, Body.mapNames, ← settled_bind]
  rfl

/-- A message is read in place. -/
theorem parse_eq (payload : Octets) : parse payload = settled (Message.parse payload) := by
  have hnames : (fun run => resolve payload run >>= fun name => pure name.text) =
      fun run : Run => settled ((run.resolve payload).map DomainName.text) := by
    funext run
    rw [resolve_eq]
    cases run.resolve payload <;> rfl
  have hframe := (envelope_follows payload ⟨0, payload⟩ ⟨rfl, Nat.zero_add _⟩).reported
  refine matches_eq_iff.mp (hframe.bind ?_)
  rintro ⟨envelope, rest⟩ ⟨_, cursor⟩ ⟨rfl, -⟩
  show Matches Eq Eq (mapNames _ envelope.body >>= _) _
  rw [hnames, mapNames_settled]
  exact matches_eq_iff.mpr (settled_bind _ _)

/-- The name asked about is read in place. -/
theorem askedName_eq (payload : Octets) :
    askedName payload = settled (Message.readAskedName payload) :=
  matches_eq_iff.mp ((matches_eq_iff.mpr (parse_eq payload)).map fun _ _ h =>
    congrArg Message.askedName? h)

/-- A name inside record data is read in place. -/
theorem nameAt_eq (message : Message) (offset limit : Nat) :
    nameAt message offset limit = settled (message.nameAt offset limit) := by
  rw [nameAt, readAt_eq, Message.nameAt]
  cases DomainName.readAt message.raw offset limit <;> rfl

end Messages

end InPlace

end DnsTrace
