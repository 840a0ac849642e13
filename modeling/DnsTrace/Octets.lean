/-!
# Octets

Captured messages are lists of octets, and every multi-octet field is written most
significant octet first. Splitting off a front part is exact: it either yields as many
octets as were asked for together with everything behind them, or it yields nothing.
-/

namespace DnsTrace

/-- A string of octets in the order in which they were captured. -/
abbrev Octets := List UInt8

namespace Octets

/-- The number that the octets spell, most significant octet first. -/
def value (octets : Octets) : Nat :=
  octets.foldl (fun total octet => total * 256 + octet.toNat) 0

/-- Split off the first `n` octets, when there are that many. -/
def split? (n : Nat) (octets : Octets) : Option (Octets × Octets) :=
  let front := octets.take n
  if front.length = n then some (front, octets.drop n) else none

/-- The first `n` octets, with zeros in place of those that are missing. -/
def padded (n : Nat) (octets : Octets) : Vector UInt8 n :=
  Vector.ofFn fun i => octets.getD i 0

/-- A split loses nothing, and its front has the length asked for. -/
theorem split?_eq_some_iff {n : Nat} {octets front back : Octets} :
    split? n octets = some (front, back) ↔ octets = front ++ back ∧ front.length = n := by
  constructor
  · intro h
    simp only [split?] at h
    split at h
    · rename_i hlength
      simp only [Option.some.injEq, Prod.mk.injEq] at h
      obtain ⟨rfl, rfl⟩ := h
      exact ⟨(List.take_append_drop n octets).symm, hlength⟩
    · simp at h
  · rintro ⟨rfl, rfl⟩
    simp [split?]

/-- A split fails exactly when too few octets are left. -/
theorem split?_eq_none_iff {n : Nat} {octets : Octets} :
    split? n octets = none ↔ octets.length < n := by
  simp only [split?, List.length_take]
  split <;> simp <;> omega

/-- What stays behind a split is no longer than the whole. -/
theorem length_le_of_split? {n : Nat} {octets front back : Octets}
    (h : split? n octets = some (front, back)) : back.length ≤ octets.length := by
  obtain ⟨rfl, -⟩ := split?_eq_some_iff.mp h
  simp

end Octets

end DnsTrace
