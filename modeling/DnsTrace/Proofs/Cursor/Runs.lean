import DnsTrace.Proofs.Cursor

/-!
# Runs of requests

A cursor answers one request after another, and any of them may be refused. At every time its
octets fall into two parts: those that the granted reads and skips have passed over, and those
that remain. A request is granted exactly when as many octets remain as it needs, and a granted
read is answered from the very next of them.

A refused request leaves nothing behind but its own reply. The cursor stands where it stood, so
the run goes on as it would without that request.
-/

namespace DnsTrace

namespace Cursor

/-- How far a granted request moves the cursor. A check moves it nowhere. -/
def Request.advance : Request → Nat
  | .ensure _ => 0
  | request => request.width

/-- What a request is answered from the octets that it needs. -/
def Request.reply (octets : Octets) : Request → Reply
  | .read8 | .read16 | .read32 => .number (Octets.value octets)
  | .bytes _ => .octets octets
  | .skip _ | .ensure _ => .done

/-- The cursor behind some requests. -/
def after (cursor : Cursor) (requests : List Request) : Cursor :=
  requests.foldl (fun cursor request => (cursor.serve request).2) cursor

/-- How many octets the granted reads and skips of a run have passed over. -/
def passed (cursor : Cursor) (requests : List Request) : Nat :=
  ((requests.zip (cursor.run requests)).map fun (request, result, _) =>
    if result.isOk then request.advance else 0).sum

/-- The cursor accounts for all octets: it stands behind those that the requests were granted,
and the others remain. -/
structure AccountsFor (cursor : Cursor) (octets : Octets) (requests : List Request) : Prop where
  position_add_remaining : cursor.position + cursor.remaining = octets.length
  position_eq : cursor.position = passed (start octets) requests
  rest_eq : cursor.rest = octets.drop cursor.position

section Steps

/-- Octets are read at a position where as many remain. Otherwise they are refused, and the cursor
that is left behind stands where it stood. -/
theorem Action.bytes_within (octets : Octets) (position n : Nat) :
    Action.bytes n (within octets position) =
      if n ≤ octets.length - position then
        (.ok (octets.slice position n), within octets (position + n))
      else (.error (.truncated n (octets.length - position)), within octets position) := by
  rw [Action.bytes_apply, take?_within]
  by_cases hfits : n ≤ octets.length - position
  · rw [if_pos hfits, if_pos hfits]
  · rw [if_neg hfits, if_neg hfits, remaining_within]

/-- Octets that are interpreted as soon as they are read. -/
theorem Action.bytes_bind_within {α : Type} (octets : Octets) (position n : Nat)
    (interpret : Octets → α) :
    (Action.bytes n >>= fun taken => pure (interpret taken)) (within octets position) =
      if n ≤ octets.length - position then
        (.ok (interpret (octets.slice position n)), within octets (position + n))
      else (.error (.truncated n (octets.length - position)), within octets position) := by
  rw [Effect.bind_apply, Action.bytes_within]
  by_cases hfits : n ≤ octets.length - position
  · rw [if_pos hfits, if_pos hfits]
    rfl
  · rw [if_neg hfits, if_neg hfits]

/-- A number that is narrowed to a width that holds it is the number at the cursor. -/
theorem Action.bytes_bind_number_within (octets : Octets) (position n : Nat) (narrow : Nat → Nat)
    (h : narrow (octets.number position n) = octets.number position n) :
    (Action.bytes n >>= fun taken => pure (Reply.number (narrow (Octets.value taken))))
        (within octets position) =
      if n ≤ octets.length - position then
        (.ok (.number (octets.number position n)), within octets (position + n))
      else (.error (.truncated n (octets.length - position)), within octets position) := by
  rw [Octets.number] at h ⊢
  rw [Action.bytes_bind_within octets position n fun taken =>
    Reply.number (narrow (Octets.value taken)), h]

/-- One request at a position. It is granted where as many octets remain as it needs; refused, it
leaves the cursor where it is. -/
theorem serve_within (octets : Octets) (position : Nat) (request : Request) :
    (within octets position).serve request =
      if request.width ≤ octets.length - position then
        (.ok (request.reply (octets.slice position request.width)),
          within octets (position + request.advance))
      else
        (.error (.truncated request.width (octets.length - position)),
          within octets position) := by
  rw [serve]
  cases request with
  | read8 =>
    simp only [Request.perform, Action.read8, bind_assoc, pure_bind]
    exact Action.bytes_bind_number_within octets position 1 (fun n => (UInt8.ofNat n).toNat)
      (octets.toNat_ofNat_number_one position)
  | read16 =>
    simp only [Request.perform, Action.read16, bind_assoc, pure_bind]
    exact Action.bytes_bind_number_within octets position 2 (fun n => (UInt16.ofNat n).toNat)
      (octets.toNat_ofNat_number_two position)
  | read32 =>
    simp only [Request.perform, Action.read32, bind_assoc, pure_bind]
    exact Action.bytes_bind_number_within octets position 4 (fun n => (UInt32.ofNat n).toNat)
      (octets.toNat_ofNat_number_four position)
  | bytes n => exact Action.bytes_bind_within octets position n Reply.octets
  | skip n =>
    simp only [Request.perform, Action.skip, bind_assoc, pure_bind]
    exact Action.bytes_bind_within octets position n fun _ => Reply.done
  | ensure n =>
    rw [Request.perform, Effect.bind_apply, Action.ensure_apply, remaining_within, Request.width]
    by_cases hfits : n ≤ octets.length - position
    · rw [if_pos hfits, if_pos hfits]
      rfl
    · rw [if_neg hfits, if_neg hfits]

/-- A granted request moves the cursor no further than the octets that it needs. -/
theorem Request.advance_le (request : Request) : request.advance ≤ request.width := by
  cases request with
  | ensure n => exact Nat.zero_le n
  | _ => exact Nat.le_refl _

/-- A number that is answered is written out by the octets that it was read from. -/
theorem Request.ofNumber_of_reply {request : Request} {octets : Octets} {n : Nat}
    (h : request.reply octets = .number n) : Octets.ofNumber octets.length n = octets := by
  cases request with
  | read8 | read16 | read32 =>
    cases h
    exact Octets.ofNumber_value octets
  | bytes _ | skip _ | ensure _ => cases h

end Steps

section Runs

/-- Every request of a run has its reply. -/
theorem length_run (cursor : Cursor) (requests : List Request) :
    (cursor.run requests).length = requests.length := by
  induction requests generalizing cursor with
  | nil => rfl
  | cons request requests ih => rw [run, List.length_cons, ih, List.length_cons]

/-- A run goes on from the cursor behind its first requests. -/
theorem run_append (cursor : Cursor) (earlier later : List Request) :
    cursor.run (earlier ++ later) = cursor.run earlier ++ (cursor.after earlier).run later := by
  induction earlier generalizing cursor with
  | nil => rfl
  | cons request earlier ih =>
    rw [List.cons_append, run, run, ih]
    rfl

/-- The first request passes over its own octets, if it is granted, and the others over theirs. -/
theorem passed_cons (cursor : Cursor) (request : Request) (requests : List Request) :
    cursor.passed (request :: requests) =
      (if (cursor.serve request).1.isOk then request.advance else 0) +
        (cursor.serve request).2.passed requests := by
  simp only [passed, run, List.zip_cons_cons, List.map_cons, List.sum_cons]

/-- Behind some requests the cursor stands further on by the octets that they were granted, and
not behind the last octet. -/
theorem after_within {octets : Octets} {position : Nat} (h : position ≤ octets.length)
    (requests : List Request) :
    (within octets position).after requests =
        within octets (position + (within octets position).passed requests) ∧
      position + (within octets position).passed requests ≤ octets.length := by
  induction requests generalizing position with
  | nil => exact ⟨rfl, h⟩
  | cons request requests ih =>
    have hserve := serve_within octets position request
    have hafter : (within octets position).after (request :: requests) =
        ((within octets position).serve request).2.after requests := rfl
    rw [passed_cons, hafter]
    by_cases hfits : request.width ≤ octets.length - position
    · rw [if_pos hfits] at hserve
      have hle := request.advance_le
      have hnext : position + request.advance ≤ octets.length := by omega
      obtain ⟨hstands, hinside⟩ := ih hnext
      simp only [hserve, Except.isOk, Except.toBool, if_true, ← Nat.add_assoc]
      exact ⟨hstands, hinside⟩
    · rw [if_neg hfits] at hserve
      obtain ⟨hstands, hinside⟩ := ih h
      simp only [hserve, Except.isOk, Except.toBool, Bool.false_eq_true, if_false, Nat.zero_add]
      exact ⟨hstands, hinside⟩

/-- The cursor behind some requests accounts for the octets. -/
theorem accountsFor_after (octets : Octets) (requests : List Request) :
    ((start octets).after requests).AccountsFor octets requests := by
  obtain ⟨hstands, hinside⟩ := after_within (Nat.zero_le octets.length) requests
  rw [← start_eq_within, Nat.zero_add] at hstands hinside
  rw [hstands]
  refine ⟨?_, rfl, rfl⟩
  rw [remaining_within]
  exact Nat.add_sub_of_le hinside

/-- A cursor that accounts for the octets stands at its position of them. -/
theorem AccountsFor.eq_within {cursor : Cursor} {octets : Octets} {requests : List Request}
    (h : cursor.AccountsFor octets requests) : cursor = within octets cursor.position := by
  obtain ⟨position, rest⟩ := cursor
  rw [within, ← h.rest_eq]

/-- A run over some octets keeps account of them. Take any requests and the cursor behind them. Its
position and what remains add up to all octets, and the position is what the reads and skips among
the requests were granted together. Another request, of any kind, is granted exactly when as many
octets remain as it needs. Then it is answered from the very next of them, a number as the one
that they write out, and the cursor moves on by its width, or stays if it is a check. Otherwise it
is answered with its width and what remains, the cursor stays, and the rest of the run is the same
as without it. -/
theorem run_keeps_account (octets : Octets) (earlier later : List Request) (request : Request)
    (cursor : Cursor) (h : (start octets).after earlier = cursor) :
    (start octets).run (earlier ++ request :: later) =
        (start octets).run earlier ++ cursor.serve request :: (cursor.serve request).2.run later ∧
      cursor.AccountsFor octets earlier ∧
      ((∃ reply, (cursor.serve request).1 = .ok reply) ↔ request.width ≤ cursor.remaining) ∧
      (request.width ≤ cursor.remaining →
        ∃ front back, cursor.rest = front ++ back ∧ front.length = request.width ∧
          cursor.serve request =
            (.ok (request.reply front), within octets (cursor.position + request.advance)) ∧
          ∀ n, request.reply front = .number n → Octets.ofNumber request.width n = front) ∧
      (cursor.remaining < request.width →
        cursor.serve request = (.error (.truncated request.width cursor.remaining), cursor) ∧
          ((start octets).run (earlier ++ request :: later)).eraseIdx earlier.length =
            (start octets).run (earlier ++ later)) := by
  have hrun : (start octets).run (earlier ++ request :: later) =
      (start octets).run earlier ++ cursor.serve request :: (cursor.serve request).2.run later := by
    rw [run_append, h, run]
  have haccount : cursor.AccountsFor octets earlier := h ▸ accountsFor_after octets earlier
  have hserve := serve_within octets cursor.position request
  rw [← remaining_within, ← haccount.eq_within] at hserve
  refine ⟨hrun, haccount, ?_, fun hfits => ?_, fun hshort => ?_⟩
  · rw [hserve]
    by_cases hfits : request.width ≤ cursor.remaining
    · rw [if_pos hfits]
      exact iff_of_true ⟨_, rfl⟩ hfits
    · rw [if_neg hfits]
      exact iff_of_false (by simp) hfits
  · rw [if_pos hfits] at hserve
    have hlength : (cursor.rest.take request.width).length = request.width := by
      rw [List.length_take]
      exact Nat.min_eq_left hfits
    refine ⟨cursor.rest.take request.width, cursor.rest.drop request.width,
      (List.take_append_drop _ _).symm, hlength, ?_, fun n hn => ?_⟩
    · rw [hserve, haccount.rest_eq]
      rfl
    · have hnumber := Request.ofNumber_of_reply hn
      rwa [hlength] at hnumber
  · rw [if_neg (Nat.not_le_of_lt hshort)] at hserve
    refine ⟨hserve, ?_⟩
    rw [hrun, hserve, run_append, h, ← length_run (start octets) earlier,
      List.eraseIdx_append_of_length_le (Nat.le_refl _), Nat.sub_self, List.eraseIdx_cons_zero]

end Runs

/-- Behind the first of three octets a number of four octets is refused. Without that request the
check behind it passes just the same, and the two octets that remain are read as the same
number. -/
theorem run_past_refusal :
    (start [0, 1, 2]).after [.skip 1] = ⟨1, [1, 2]⟩ ∧
      AccountsFor ⟨1, [1, 2]⟩ [0, 1, 2] [.skip 1] ∧
      (start [0, 1, 2]).run [.skip 1, .read32, .ensure 2, .read16, .read8] =
        [(.ok .done, ⟨1, [1, 2]⟩), (.error (.truncated 4 2), ⟨1, [1, 2]⟩),
          (.ok .done, ⟨1, [1, 2]⟩), (.ok (.number 258), ⟨3, []⟩),
          (.error (.truncated 1 0), ⟨3, []⟩)] ∧
      (start [0, 1, 2]).run [.skip 1, .ensure 2, .read16, .read8] =
        [(.ok .done, ⟨1, [1, 2]⟩), (.ok .done, ⟨1, [1, 2]⟩), (.ok (.number 258), ⟨3, []⟩),
          (.error (.truncated 1 0), ⟨3, []⟩)] := by
  have hafter : (start [0, 1, 2]).after [.skip 1] = ⟨1, [1, 2]⟩ := by decide
  have hrun : (start [0, 1, 2]).run [.skip 1, .read32, .ensure 2, .read16, .read8] =
      [(.ok .done, ⟨1, [1, 2]⟩), (.error (.truncated 4 2), ⟨1, [1, 2]⟩),
        (.ok .done, ⟨1, [1, 2]⟩), (.ok (.number 258), ⟨3, []⟩),
        (.error (.truncated 1 0), ⟨3, []⟩)] := by with_unfolding_all rfl
  obtain ⟨-, haccount, -, -, hrefused⟩ :=
    run_keeps_account [0, 1, 2] [.skip 1] [.ensure 2, .read16, .read8] .read32 _ hafter
  have hwithout := (hrefused (by decide)).2
  refine ⟨hafter, haccount, hrun, ?_⟩
  rw [List.singleton_append, List.singleton_append, hrun] at hwithout
  exact hwithout.symm

end Cursor

end DnsTrace
