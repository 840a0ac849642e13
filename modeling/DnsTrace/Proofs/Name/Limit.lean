import DnsTrace.Proofs.Message.Truncation

/-!
# The limit before which a name must end

A name is read through a window that ends at its limit, or with the message if that comes first.
Only the run at the offset has to stand in the window. So the limit decides one thing: whether
that run is complete. From its end on every limit gives the same result, whatever the pointers
behind it lead to; a limit inside the run cuts it off and is reported as an end of input there;
and a limit in front of the offset leaves no window at all.
-/

namespace DnsTrace

namespace Run

variable {raw : Octets} {start bound offset : Nat} {defect : Defect} {run : Run}

/-- A defect of a run lies no earlier than the run begins. -/
theorem BrokenAt.le_offset (h : BrokenAt raw start offset defect) : start ≤ offset := by
  induction h with
  | missing => exact Nat.le_refl _
  | reserved => exact Nat.le_refl _
  | halfPointer => exact Nat.le_refl _
  | shortLabel => exact Nat.le_succ _
  | behind _ _ _ _ ih => omega

/-- A run that passes a cut is broken by it, between its first octet and the cut. -/
theorem brokenAt_take_of_liesIn (h : run.LiesIn (raw.drop start)) (hstart : start ≤ bound)
    (hcut : bound < start + run.size) :
    ∃ offset, start ≤ offset ∧ offset ≤ bound ∧
      BrokenAt (raw.take bound) start offset .endOfInput := by
  have hsize := h.size_le
  rw [List.length_drop] at hsize
  have hlength : (raw.take bound).length = bound := by
    rw [List.length_take]
    omega
  cases hread : read start ((raw.take bound).drop start) with
  | ok taken =>
    obtain ⟨shorter, cursor⟩ := taken
    have hstands := (liesIn_iff_read start).mpr ⟨cursor, hread⟩
    have hfits := hstands.size_le
    rw [List.length_drop, hlength] at hfits
    obtain rfl := (LiesIn.of_between hstands).unique h
    omega
  | error fault =>
    obtain ⟨offset, defect, hbroken, rfl⟩ := brokenAt_of_read hread rfl
    cases defect with
    | endOfInput =>
      have hend := hbroken.offset_le (by omega)
      exact ⟨offset, hbroken.le_offset, by omega, hbroken⟩
    | reservedLength =>
      -- A reserved octet in front of the cut would also be one of the whole message.
      have hwhole := read_of_brokenAt (hbroken.append (raw.drop bound) rfl)
      rw [List.take_append_drop] at hwhole
      obtain ⟨cursor, hrun⟩ := (liesIn_iff_read start).mp h
      cases hrun.symm.trans hwhole

end Run

namespace DomainName

variable {raw : Octets} {offset limit : Nat} {fault : Fault}

/-- Behind the limit or the message there is no window to read. -/
theorem readAt_of_lt (h : min limit raw.length < offset) :
    readAt raw offset limit = .error (.truncated 1 0) := by
  rw [readAt]
  exact if_pos h

/-- A run that is broken in the window is reported as it is. -/
theorem readAt_of_brokenAt {position : Nat} {defect : Defect} (h : offset ≤ min limit raw.length)
    (hbroken : Run.BrokenAt (raw.take (min limit raw.length)) offset position defect) :
    readAt raw offset limit = .error (.malformed position defect) := by
  simp only [readAt, if_neg (Nat.not_lt_of_le h), Run.read_of_brokenAt hbroken]
  rfl

/-- A run in the window is refused as resolving it is. -/
theorem readAt_eq_error_iff_resolve {run : Run}
    (h : run.LiesIn (raw.between offset (min limit raw.length))) :
    readAt raw offset limit = .error fault ↔ run.resolve raw = .error fault := by
  rw [readAt_of_liesIn h, map_eq_error_iff]

/-- A name is refused because its window is missing, because the run in the window is broken, or
for the fault of a run that stands there. -/
theorem readAt_eq_error_iff :
    readAt raw offset limit = .error fault ↔
      (min limit raw.length < offset ∧ fault = .truncated 1 0) ∨
        (offset ≤ min limit raw.length ∧ ∃ position defect,
          Run.BrokenAt (raw.take (min limit raw.length)) offset position defect ∧
            fault = .malformed position defect) ∨
        ∃ run : Run, run.LiesIn (raw.between offset (min limit raw.length)) ∧
          run.resolve raw = .error fault := by
  constructor
  · intro h
    by_cases hwindow : min limit raw.length < offset
    · rw [readAt_of_lt hwindow, Except.error.injEq] at h
      exact .inl ⟨hwindow, h.symm⟩
    · have hinside := Nat.le_of_not_lt hwindow
      cases hread : Run.read offset (raw.between offset (min limit raw.length)) with
      | error first =>
        obtain ⟨position, defect, hbroken, -⟩ := Run.brokenAt_of_read hread rfl
        rw [readAt_of_brokenAt hinside hbroken, Except.error.injEq] at h
        exact .inr (.inl ⟨hinside, position, defect, hbroken, h.symm⟩)
      | ok taken =>
        have hstands := (Run.liesIn_iff_read offset).mpr ⟨taken.2, hread⟩
        exact .inr (.inr ⟨taken.1, hstands, (readAt_eq_error_iff_resolve hstands).mp h⟩)
  · intro h
    obtain ⟨hwindow, rfl⟩ | ⟨hinside, position, defect, hbroken, rfl⟩ | ⟨run, hstands, hfault⟩ := h
    · exact readAt_of_lt hwindow
    · exact readAt_of_brokenAt hinside hbroken
    · exact (readAt_eq_error_iff_resolve hstands).mpr hfault

end DomainName

namespace Message

variable {message : Message} {offset limit : Nat}

/-- Where a run stands, every limit that it does not pass gives the same result. -/
theorem nameAt_of_liesIn {run : Run} (h : run.LiesIn (message.raw.drop offset))
    (hlimit : offset + run.size ≤ limit) :
    message.nameAt offset limit =
      (run.resolve message.raw).map fun name => (name.text, run.size) := by
  rw [nameAt_eq_map, DomainName.readAt_of_liesIn (Run.liesIn_between_iff.mpr ⟨h, hlimit⟩)]
  cases run.resolve message.raw <;> rfl

/-- A name that is read takes at least one octet, all of them before the limit and inside the
message. With any limit from its end on it is read again; with a limit inside it, it is reported
as cut off, between its first octet and that limit; with a limit in front of it, nothing is left
to read. The limit decides about the run at the offset only: where a run stands that does not
pass it, the result is that of resolving the run in the whole message, so no limit restricts
what is read behind a pointer. -/
theorem nameAt_limit_exact (message : Message) (offset : Nat) :
    (∀ limit text used, message.nameAt offset limit = .ok (text, used) →
      1 ≤ used ∧ offset + used ≤ min limit message.raw.length ∧
      ∀ limit',
        (offset + used ≤ limit' → message.nameAt offset limit' = .ok (text, used)) ∧
        (offset ≤ limit' → limit' < offset + used → ∃ position, offset ≤ position ∧
          position ≤ limit' ∧
          message.nameAt offset limit' = .error (.malformed position .endOfInput)) ∧
        (limit' < offset → message.nameAt offset limit' = .error (.truncated 1 0))) ∧
    ∀ run : Run, run.LiesIn (message.raw.drop offset) → ∀ limit, offset + run.size ≤ limit →
      message.nameAt offset limit =
        (run.resolve message.raw).map fun name => (name.text, run.size) := by
  refine ⟨fun limit text used h => ?_, fun run hrun limit hlimit => nameAt_of_liesIn hrun hlimit⟩
  obtain ⟨hpos, hlimit, hinside⟩ := used_of_nameAt h
  obtain ⟨run, name, hstands, hresolve, rfl, rfl, -⟩ := nameAt_eq_ok_iff_stands.mp h
  refine ⟨hpos, by omega, fun limit' => ⟨fun hroom => ?_, fun hle hcut => ?_, fun hlt => ?_⟩⟩
  · rw [nameAt_of_liesIn hstands hroom, hresolve]
    rfl
  · obtain ⟨position, hfirst, hlast, hbroken⟩ := Run.brokenAt_take_of_liesIn hstands hle hcut
    have hbound : min limit' message.raw.length = limit' := by omega
    rw [← hbound] at hle hbroken
    refine ⟨position, hfirst, hlast, ?_⟩
    rw [nameAt_eq_map, DomainName.readAt_of_brokenAt hle hbroken]
    rfl
  · rw [nameAt_eq_map, DomainName.readAt_of_lt (by omega)]
    rfl

/-- The name `a.com` of `sharedSuffix` stands from 5 up to 9 and goes on at 0. With the limit
inside its pointer it is cut off at the pointer. -/
theorem nameAt_sharedSuffix_limits :
    sharedSuffix.nameAt 5 9 = .ok ("a.com", 4) ∧
      sharedSuffix.nameAt 5 100 = .ok ("a.com", 4) ∧
      (∃ position, 5 ≤ position ∧ position ≤ 8 ∧
        sharedSuffix.nameAt 5 8 = .error (.malformed position .endOfInput)) ∧
      sharedSuffix.nameAt 5 4 = .error (.truncated 1 0) := by
  have hread : sharedSuffix.nameAt 5 9 = .ok ("a.com", 4) := by with_unfolding_all rfl
  obtain ⟨hexact, -⟩ := nameAt_limit_exact sharedSuffix 5
  obtain ⟨-, -, hlimits⟩ := hexact 9 "a.com" 4 hread
  exact ⟨hread, (hlimits 100).1 (by decide), (hlimits 8).2.1 (by decide) (by decide),
    (hlimits 4).2.2 (by decide)⟩

end Message

end DnsTrace
