import DnsTrace.Proofs.Reading

/-!
# Bounded reads

Record data is read through a cursor over that data alone. At any position a bounded read of
some octets takes exactly those octets, when the data still holds them, and is refused with
what was left otherwise. So bounded reads have the same description as frame fields: the item,
where it starts and where it stops.
-/

namespace DnsTrace

namespace Cursor

/-- As many octets are read as are asked for. -/
theorem length_of_bytes {n : Nat} {cursor : Cursor} {taken : Octets × Cursor}
    (h : cursor.bytes n = .ok taken) : taken.1.length = n := by
  rw [bytes_eq] at h
  cases htake : cursor.take? n with
  | none =>
    rw [htake] at h
    cases h
  | some found =>
    rw [htake] at h
    cases h
    exact (take?_eq_some_iff.mp htake).2.1

/-- What remains at a position is what the octets have behind it. -/
theorem remaining_within (raw : Octets) (position : Nat) :
    (within raw position).remaining = raw.length - position := by
  rw [remaining, within, List.length_drop]

/-- Octets are read where as many remain, or refused with what remains. -/
theorem bytes_within_remaining (raw : Octets) (position n : Nat) :
    (within raw position).bytes n =
      if n ≤ raw.length - position then .ok (raw.slice position n, within raw (position + n))
      else .error (.truncated n (raw.length - position)) := by
  rw [bytes_eq, take?_within]
  by_cases hfits : n ≤ raw.length - position
  · rw [if_pos hfits, if_pos hfits]
  · rw [if_neg hfits, if_neg hfits, remaining_within]

/-- Octets that are interpreted as soon as they are read, where as many remain. -/
theorem bytes_bind_within_remaining {α : Type} (raw : Octets) (position n : Nat)
    (interpret : Octets → α) :
    ((within raw position).bytes n >>= fun taken => pure (interpret taken.1, taken.2)) =
      if n ≤ raw.length - position then
        .ok (interpret (raw.slice position n), within raw (position + n))
      else .error (.truncated n (raw.length - position)) := by
  rw [bytes_within_remaining]
  by_cases hfits : n ≤ raw.length - position
  · rw [if_pos hfits, if_pos hfits]
    rfl
  · rw [if_neg hfits, if_neg hfits]
    rfl

/-- Octets are read where they end inside the data, or refused with what is left. -/
theorem bytes_within (raw : Octets) (position n : Nat) (hn : 0 < n) :
    (within raw position).bytes n =
      if position + n ≤ raw.length then .ok (raw.slice position n, within raw (position + n))
      else .error (.truncated n (raw.length - position)) := by
  rw [bytes_within_remaining]
  exact if_congr (by omega) rfl rfl

/-- Octets that are interpreted as soon as they are read, where they end inside the data. -/
theorem bytes_bind_within {α : Type} (raw : Octets) (position n : Nat) (hn : 0 < n)
    (interpret : Octets → α) :
    ((within raw position).bytes n >>= fun taken => pure (interpret taken.1, taken.2)) =
      if position + n ≤ raw.length then
        .ok (interpret (raw.slice position n), within raw (position + n))
      else .error (.truncated n (raw.length - position)) := by
  rw [bytes_bind_within_remaining]
  exact if_congr (by omega) rfl rfl

/-- Octets inside the data can be passed over. -/
theorem skip_within (raw : Octets) {position n : Nat} (hn : 0 < n)
    (h : position + n ≤ raw.length) :
    (within raw position).skip n = .ok (within raw (position + n)) := by
  rw [skip_eq, bytes_within raw position n hn, if_pos h]
  rfl

/-- A check for octets passes exactly when the data still holds as many. -/
theorem ensure_within_eq_ok_iff (raw : Octets) (position n : Nat) :
    (within raw position).ensure n = .ok () ↔ n ≤ raw.length - position := by
  rw [ensure_eq, remaining_within]
  by_cases hfits : n ≤ raw.length - position
  · rw [if_pos hfits]
    exact iff_of_true rfl hfits
  · rw [if_neg hfits]
    exact iff_of_false (by simp) hfits

/-- A check for octets is refused exactly when fewer remain. -/
theorem ensure_within_eq_error_iff (raw : Octets) (position n : Nat) {fault : Fault} :
    (within raw position).ensure n = .error fault ↔
      raw.length - position < n ∧ fault = .truncated n (raw.length - position) := by
  rw [ensure_eq, remaining_within]
  by_cases hfits : n ≤ raw.length - position
  · rw [if_pos hfits]
    exact iff_of_false (by simp) (by omega)
  · rw [if_neg hfits, Except.error.injEq, eq_comm]
    exact (and_iff_right (by omega)).symm

namespace Reads

variable {raw : Octets}

/-- Octets are the slice at their start. -/
theorem bytes {n : Nat} (hn : 0 < n) : Reads raw (Cursor.bytes n) fun result start stop =>
    result = raw.slice start n ∧ stop = start + n ∧ stop ≤ raw.length :=
  of_eq_ite fun start => bytes_within raw start n hn

/-- A two octet number is the number at its start. -/
theorem read16 : Reads raw Cursor.read16 fun result start stop =>
    result = .ofNat (raw.number start 2) ∧ stop = start + 2 ∧ stop ≤ raw.length :=
  of_eq_ite fun start => (read16_eq _).trans <|
    bytes_bind_within raw start 2 (by decide) fun octets => UInt16.ofNat (Octets.value octets)

/-- A four octet number is the number at its start. -/
theorem read32 : Reads raw Cursor.read32 fun result start stop =>
    result = .ofNat (raw.number start 4) ∧ stop = start + 4 ∧ stop ≤ raw.length :=
  of_eq_ite fun start => (read32_eq _).trans <|
    bytes_bind_within raw start 4 (by decide) fun octets => UInt32.ofNat (Octets.value octets)

end Reads

/-- The number at a position is read there. -/
theorem read16_of_toNat_eq {raw : Octets} {position : Nat} {number : UInt16}
    (h : number.toNat = raw.number position 2) (hfits : position + 2 ≤ raw.length) :
    (within raw position).read16 = .ok (number, within raw (position + 2)) := by
  apply (Reads.read16 _ _ _).mpr
  refine ⟨position + 2, ⟨?_, rfl, hfits⟩, rfl⟩
  rw [← h, UInt16.ofNat_toNat]

/-- The number at a position is read there. -/
theorem read32_of_toNat_eq {raw : Octets} {position : Nat} {number : UInt32}
    (h : number.toNat = raw.number position 4) (hfits : position + 4 ≤ raw.length) :
    (within raw position).read32 = .ok (number, within raw (position + 4)) := by
  apply (Reads.read32 _ _ _).mpr
  refine ⟨position + 4, ⟨?_, rfl, hfits⟩, rfl⟩
  rw [← h, UInt32.ofNat_toNat]

/-- A number is read where its four octets lie inside the data. -/
theorem read32_of_le {raw : Octets} {position : Nat} (h : position + 4 ≤ raw.length) :
    (within raw position).read32 =
      .ok (.ofNat (raw.number position 4), within raw (position + 4)) :=
  read32_of_toNat_eq (raw.toNat_ofNat_number_four position) h

end Cursor

end DnsTrace
