import DnsTrace.Proofs.Reading

/-!
# Reading in place

A program that reads a message in place hands slices of it around. It works out positions as
differences of lengths, takes slices by their bounds, copies octets into fields of a fixed size
and narrows lengths to the width at which they are shown. Each of these steps is meant for some of
its arguments only: a difference may not be negative, a bound may not lie behind the last octet, a
copy may not be longer or shorter than its field, and a narrowed number may not lose a bit.

Here such a step yields nothing where it is not meant to be taken. `Matches` relates reading in
place to reading by positions: the first always yields something, and it is what the second says.
So wherever the two match, no step was taken outside of what it is meant for.
-/

namespace DnsTrace

namespace InPlace

/-- What is left of a whole when a part of it is taken away. -/
def difference? (whole part : Nat) : Option Nat :=
  if part ≤ whole then some (whole - part) else none

/-- The slice from a bound on to the last octet. -/
def suffix? (octets : Octets) (bound : Nat) : Option Octets :=
  if bound ≤ octets.length then some (octets.drop bound) else none

/-- A field of `n` octets, all zero, of which the first `count` are overwritten by a slice of that
length. -/
def copy? (n count : Nat) (slice : Octets) : Option (Vector UInt8 n) :=
  if count ≤ n ∧ slice.length = count then some (Octets.padded n slice) else none

/-- A number as a word of sixteen bits. -/
def narrow? (number : Nat) : Option UInt16 :=
  if number < 2 ^ 16 then some (.ofNat number) else none

/-- A difference of lengths of which the first is the longer. -/
theorem difference?_of_le {whole part : Nat} (h : part ≤ whole) :
    difference? whole part = some (whole - part) := if_pos h

/-- A slice from a bound that is not passed. -/
theorem suffix?_of_le {octets : Octets} {bound : Nat} (h : bound ≤ octets.length) :
    suffix? octets bound = some (octets.drop bound) := if_pos h

/-- A slice as long as the front of the field that it overwrites. -/
theorem copy?_of_length_eq {n count : Nat} {slice : Octets} (h : slice.length = count)
    (hcount : count ≤ n) : copy? n count slice = some (Octets.padded n slice) :=
  if_pos ⟨hcount, h⟩

/-- A number below 65536 is kept. -/
theorem narrow?_of_lt {number : Nat} (h : number < 2 ^ 16) :
    narrow? number = some (.ofNat number) := if_pos h

/-- A computation in place: it yields nothing once a step is taken that is not meant to be, and
otherwise a result or what it stopped for. -/
abbrev Attempt (ε α : Type) := ExceptT ε Option α

/-- The attempt that yields a given result. -/
def settled {ε α : Type} (result : Except ε α) : Attempt ε α := some result

/-- A reader in place: it moves on as it reads, and leaves a state also when it stops. -/
abbrev Reader (σ ε α : Type) := ExceptT ε (StateT σ Option) α

/-- An attempt is a step of a reader that leaves the state alone. -/
instance {σ ε : Type} : MonadLift (Attempt ε) (Reader σ ε) where
  monadLift attempt := .mk (StateT.lift attempt.run)

/-- What a reader comes to for one that gives up where it stops. -/
def outcome {σ ε α : Type} (reader : Reader σ ε α) (state : σ) : Attempt ε (α × σ) :=
  .mk do
    let (result, left) ← reader state
    return result.map fun item => (item, left)

section Matching

variable {ε α β γ δ σ : Type}

/-- An attempt yields something, and it is related to what the other computation says. -/
inductive Matches (Reports : ε → Fault → Prop) (Result : α → β → Prop) :
    Attempt ε α → Except Fault β → Prop
  /-- Both have a result. -/
  | ok {a : α} {b : β} (result : Result a b) :
      Matches Reports Result (some (.ok a)) (.ok b)
  /-- Both stop. -/
  | error {stop : ε} {fault : Fault} (reports : Reports stop fault) :
      Matches Reports Result (some (.error stop)) (.error fault)

variable {Reports : ε → Fault → Prop} {Result : α → β → Prop} {Result' : γ → δ → Prop}

/-- Two steps match when the first do and the second do on related results. -/
theorem Matches.bind {first : Attempt ε α} {first' : Except Fault β} {next : α → Attempt ε γ}
    {next' : β → Except Fault δ} (h : Matches Reports Result first first')
    (hnext : ∀ a b, Result a b → Matches Reports Result' (next a) (next' b)) :
    Matches Reports Result' (first >>= next) (first' >>= next') := by
  cases h with
  | ok result => exact hnext _ _ result
  | error reports => exact .error reports

/-- Changing what is yielded keeps attempts in step. -/
theorem Matches.map {attempt : Attempt ε α} {result : Except Fault β} {change : α → γ}
    {change' : β → δ} (h : Matches Reports Result attempt result)
    (hchange : ∀ a b, Result a b → Result' (change a) (change' b)) :
    Matches Reports Result' (attempt >>= fun a => pure (change a)) (result.map change') := by
  cases h with
  | ok result => exact .ok (hchange _ _ result)
  | error reports => exact .error reports

/-- What holds of every result of a computation holds of the result that an attempt matches. -/
theorem Matches.and_of_ok {attempt : Attempt ε α} {result : Except Fault β} {Holds : β → Prop}
    (h : Matches Reports Result attempt result) (hholds : ∀ b, result = .ok b → Holds b) :
    Matches Reports (fun a b => Result a b ∧ Holds b) attempt result := by
  cases h with
  | ok result => exact .ok ⟨result, hholds _ rfl⟩
  | error reports => exact .error reports

/-- Without a state, matching is yielding the same. -/
theorem matches_eq_iff {attempt : Attempt Fault α} {result : Except Fault α} :
    Matches Eq Eq attempt result ↔ attempt = settled result := by
  constructor
  · intro h
    cases h with
    | ok result => rw [result, settled]
    | error reports => rw [reports, settled]
  · rintro rfl
    cases result with
    | ok a => exact .ok rfl
    | error fault => exact .error rfl

/-- Settled steps are settled together. -/
theorem settled_bind (first : Except ε α) (next : α → Except ε γ) :
    (settled first >>= fun a => settled (next a)) = settled (first >>= next) := by
  cases first <;> rfl

/-- A step that is settled on every item is settled on a list of them. -/
theorem mapM_settled (step : α → Except ε γ) (items : List α) :
    (items.mapM fun item => settled (step item)) = settled (items.mapM step) := by
  induction items with
  | nil => rfl
  | cons item items ih =>
    rw [List.mapM_cons, List.mapM_cons, ih, ← settled_bind]
    congr 1
    funext first
    exact settled_bind (items.mapM step) fun others => pure (first :: others)

end Matching

section Following

variable {ε α β σ : Type}

/-- A second reader starts from the state that the first one left, and only behind an item. -/
theorem bind_apply (first : Reader σ ε α) (next : α → Reader σ ε β) (state : σ) :
    (first >>= next) state =
      match first state with
      | none => none
      | some (.ok item, left) => next item left
      | some (.error stop, left) => some (.error stop, left) := by
  change (first state >>= fun taken => ExceptT.bindCont next taken.1 taken.2) = _
  obtain _ | ⟨_ | _, _⟩ := first state <;> rfl

/-- What is done about a stop starts from the state that was left there. -/
theorem catch_apply (reader : Reader σ ε α) (handler : ε → Reader σ ε α) (state : σ) :
    (tryCatchThe ε reader handler : Reader σ ε α) state =
      match reader state with
      | none => none
      | some (.ok item, left) => some (.ok item, left)
      | some (.error stop, left) => handler stop left := by
  change Option.bind (reader state) _ = _
  obtain _ | ⟨_ | _, _⟩ := reader state <;> rfl

/-- Looking at the state leaves it alone. -/
theorem get_apply (state : σ) : (get : Reader σ ε σ) state = some (.ok state, state) := rfl

/-- What follows a step that yields an item goes on from there. -/
theorem bind_of_eq_ok {first : Reader σ ε α} {next : α → Reader σ ε β} {state left : σ}
    {item : α} (h : first state = some (.ok item, left)) :
    (first >>= next) state = next item left := by
  rw [bind_apply, h]

/-- Nothing follows a step that stops. -/
theorem bind_of_eq_error {first : Reader σ ε α} {next : α → Reader σ ε β} {state left : σ}
    {stop : ε} (h : first state = some (.error stop, left)) :
    (first >>= next) state = some (.error stop, left) := by
  rw [bind_apply, h]

/-- A reader that yields an item settles its outcome. -/
theorem outcome_of_eq_ok {reader : Reader σ ε α} {state left : σ} {item : α}
    (h : reader state = some (.ok item, left)) :
    outcome reader state = settled (.ok (item, left)) := by
  rw [outcome, h]
  rfl

/-- A reader that stops settles its outcome, in which the state is given up. -/
theorem outcome_of_eq_error {reader : Reader σ ε α} {state left : σ} {stop : ε}
    (h : reader state = some (.error stop, left)) :
    outcome reader state = settled (.error stop) := by
  rw [outcome, h]
  rfl

/-- Readers that yield and leave the same come to the same. -/
theorem outcome_congr {reader reader' : Reader σ ε α} {state state' : σ}
    (h : reader state = reader' state') : outcome reader state = outcome reader' state' := by
  rw [outcome, outcome, h]

/-- The outcome of a reader is that of its first step and, behind an item, of the others. -/
theorem outcome_bind (first : Reader σ ε α) (next : α → Reader σ ε β) (state : σ) :
    outcome (first >>= next) state =
      outcome first state >>= fun taken => outcome (next taken.1) taken.2 := by
  rw [outcome, outcome, bind_apply]
  obtain _ | ⟨_ | _, _⟩ := first state <;> rfl

/-- The outcome of what follows an attempt depends on the attempt alone. -/
theorem outcome_lift_bind (attempt : Attempt ε α) (next : α → Reader σ ε β) (state : σ) :
    outcome ((liftM attempt : Reader σ ε α) >>= next) state =
      attempt >>= fun item => outcome (next item) state := by
  match attempt with
  | none | some (.ok _) | some (.error _) => rfl

/-- From states that stand for cursors, the reader in place matches the reader by positions, and
leaves a state that stands for the cursor left there. -/
def Follows (Reports : ε → Fault → Prop) (Stands : σ → Cursor → Prop)
    (inPlace : Reader σ ε α) (read : Cursor → Except Fault (α × Cursor)) : Prop :=
  ∀ state cursor, Stands state cursor →
    Matches Reports (fun left right => left.1 = right.1 ∧ Stands left.2 right.2)
      (outcome inPlace state) (read cursor)

/-- The same of a reader that leaves no cursor. -/
def Yields (Reports : ε → Fault → Prop) (Stands : σ → Cursor → Prop)
    (inPlace : Reader σ ε α) (read : Cursor → Except Fault α) : Prop :=
  ∀ state cursor, Stands state cursor →
    Matches Reports (fun left right => left.1 = right) (outcome inPlace state) (read cursor)

variable {Reports : ε → Fault → Prop} {Stands : σ → Cursor → Prop}

/-- Yielding an item without reading. -/
theorem Follows.pure (item : α) :
    Follows Reports Stands (Pure.pure item) fun cursor => Pure.pure (item, cursor) :=
  fun _ _ hstands => .ok ⟨rfl, hstands⟩

/-- Yielding an item as the last step. -/
theorem Yields.pure (item : α) :
    Yields Reports Stands (Pure.pure item) fun _ => Pure.pure item :=
  fun _ _ _ => .ok rfl

/-- A reader followed by what reads on. -/
theorem Follows.bind {first : Reader σ ε α} {first' : Cursor → Except Fault (α × Cursor)}
    {next : α → Reader σ ε β} {next' : α × Cursor → Except Fault (β × Cursor)}
    (h : Follows Reports Stands first first')
    (hnext : ∀ item, Follows Reports Stands (next item) fun cursor => next' (item, cursor)) :
    Follows Reports Stands (first >>= next) fun cursor => first' cursor >>= next' := by
  intro state cursor hstands
  rw [outcome_bind]
  refine (h state cursor hstands).bind ?_
  rintro ⟨item, state⟩ ⟨item', cursor⟩ ⟨rfl, hstands⟩
  exact hnext item state cursor hstands

/-- A reader followed by the last steps. -/
theorem Follows.bind_yields {first : Reader σ ε α} {first' : Cursor → Except Fault (α × Cursor)}
    {next : α → Reader σ ε β} {next' : α × Cursor → Except Fault β}
    (h : Follows Reports Stands first first')
    (hnext : ∀ item, Yields Reports Stands (next item) fun cursor => next' (item, cursor)) :
    Yields Reports Stands (first >>= next) fun cursor => first' cursor >>= next' := by
  intro state cursor hstands
  rw [outcome_bind]
  refine (h state cursor hstands).bind ?_
  rintro ⟨item, state⟩ ⟨item', cursor⟩ ⟨rfl, hstands⟩
  exact hnext item state cursor hstands

/-- A reader and the last steps, from a state that stands for a cursor. -/
theorem Follows.bind_matches {first : Reader σ ε α} {first' : Cursor → Except Fault (α × Cursor)}
    {next : α → Reader σ ε β} {next' : α × Cursor → Except Fault β} {state : σ} {cursor : Cursor}
    (h : Follows Reports Stands first first') (hstands : Stands state cursor)
    (hnext : ∀ item, Yields Reports Stands (next item) fun cursor => next' (item, cursor)) :
    Matches Reports (fun left right => left.1 = right) (outcome (first >>= next) state)
      (first' cursor >>= next') :=
  h.bind_yields hnext state cursor hstands

/-- A counted number of items, one after the other. -/
def many (item : Reader σ ε α) : Nat → Reader σ ε (List α)
  | 0 => return []
  | count + 1 => do
      let first ← item
      let others ← many item count
      return first :: others

/-- Counted items are read in place when each of them is. -/
theorem Follows.many {item : Reader σ ε α} {item' : Cursor → Except Fault (α × Cursor)}
    (h : Follows Reports Stands item item') (count : Nat) :
    Follows Reports Stands (InPlace.many item count) (Cursor.many item' count) := by
  induction count with
  | zero => exact .pure []
  | succ count ih => exact h.bind fun first => ih.bind fun others => .pure (first :: others)

end Following

end InPlace

end DnsTrace
