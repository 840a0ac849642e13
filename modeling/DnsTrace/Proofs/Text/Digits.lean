import DnsTrace.Digits
import Mathlib.Logic.Function.Basic

/-!
# The digits of a number

A number is written without leading zeros, most significant digit first, so it can be told from
its digits in every base that has a digit for each remainder.
-/

namespace DnsTrace

/-- What holds of the digits of a base holds of every character of a number. -/
theorem forall_mem_toDigits {base : Nat} (hbase : 1 < base) {P : Char → Prop}
    (h : ∀ digit < base, P digit.digitChar) (n : Nat) : ∀ char ∈ Nat.toDigits base n, P char := by
  induction n using Nat.strongRecOn with
  | ind n ih =>
    rw [Nat.toDigits_eq_if hbase]
    split
    · rename_i hn
      exact List.forall_mem_singleton.mpr (h n hn)
    · rw [List.forall_mem_append, List.forall_mem_singleton]
      have hsmaller : n / base < n := Nat.div_lt_self (by omega) hbase
      exact ⟨ih (n / base) hsmaller, h (n % base) (Nat.mod_lt n (by omega))⟩

/-- The sixteen digits are different characters. -/
theorem digitChar_injective {digit digit' : Nat} (hdigit : digit < 16) (hdigit' : digit' < 16)
    (h : digit.digitChar = digit'.digitChar) : digit = digit' := by
  have hdigits : ∀ digit < 16, ∀ digit' < 16,
      digit.digitChar = digit'.digitChar → digit = digit' := by decide
  exact hdigits digit hdigit digit' hdigit' h

/-- A number can be told from its digits. -/
theorem toDigits_injective {base : Nat} (hbase : 1 < base) (hdigits : base ≤ 16) :
    Function.Injective (Nat.toDigits base) := by
  intro n
  induction n using Nat.strongRecOn with
  | ind n ih =>
    intro n' h
    have hpos (n : Nat) : 0 < (Nat.toDigits base n).length := Nat.length_toDigits_pos
    have hlength := congrArg List.length h
    by_cases hn : n < base <;> by_cases hn' : n' < base
    · rw [Nat.toDigits_of_lt_base hn, Nat.toDigits_of_lt_base hn'] at h
      exact digitChar_injective (by omega) (by omega) (List.singleton_inj.mp h)
    · rw [Nat.toDigits_of_lt_base hn, Nat.toDigits_of_base_le hbase (by omega : base ≤ n'),
        List.length_append, List.length_singleton, List.length_singleton] at hlength
      have hhigh := hpos (n' / base)
      omega
    · rw [Nat.toDigits_of_lt_base hn', Nat.toDigits_of_base_le hbase (by omega : base ≤ n),
        List.length_append, List.length_singleton, List.length_singleton] at hlength
      have hhigh := hpos (n / base)
      omega
    · rw [Nat.toDigits_of_base_le hbase (by omega : base ≤ n),
        Nat.toDigits_of_base_le hbase (by omega : base ≤ n')] at h
      obtain ⟨hhigh, hlow⟩ := List.append_inj' h rfl
      have hquotient : n / base = n' / base := ih _ (Nat.div_lt_self (by omega) hbase) hhigh
      have hmod : n % base < base := Nat.mod_lt n (by omega)
      have hmod' : n' % base < base := Nat.mod_lt n' (by omega)
      have hremainder : n % base = n' % base :=
        digitChar_injective (by omega) (by omega) (List.singleton_inj.mp hlow)
      rw [← Nat.div_add_mod n base, ← Nat.div_add_mod n' base, hquotient, hremainder]

/-- The decimal text of a number is the usual one. -/
theorem decimal_eq_toString (n : Nat) : decimal n = toString n :=
  Nat.toString_eq_ofList_toDigits.symm

/-- No two numbers have the same decimal text. -/
theorem decimal_injective : Function.Injective decimal := by
  intro n n' h
  have hdigits : Nat.toDigits 10 n = Nat.toDigits 10 n' := by
    rw [← toList_decimal, h, toList_decimal]
  exact toDigits_injective (by decide) (by decide) hdigits

/-- No two numbers have the same hexadecimal text. -/
theorem hexadecimal_injective : Function.Injective hexadecimal := by
  intro n n' h
  have hdigits : Nat.toDigits 16 n = Nat.toDigits 16 n' := by
    rw [← toList_hexadecimal, h, toList_hexadecimal]
  exact toDigits_injective (by decide) (by decide) hdigits

end DnsTrace
