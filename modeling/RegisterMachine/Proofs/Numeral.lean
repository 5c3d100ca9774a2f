import RegisterMachine.Numeral
import Mathlib.Data.List.Basic
import Mathlib.Data.List.Induction

/-!
Written numerals have the value that they were written for, and they are the only numerals without
superfluous zeros that do.
-/

namespace RegisterMachine.Numeral

/-- Lower case digits of a base, with a zero in front only when it stands alone. -/
structure Canonical (base : Nat) (digits : List Char) : Prop where
  several : digits ≠ []
  legal : ∀ char ∈ digits, ∃ digit < base, char = Nat.digitChar digit
  leading : digits.head? = some '0' → digits = ['0']

/-- The last digit weighs one. -/
theorem value_concat (base : Nat) (digits : List Char) (last : Char) :
    value base (digits ++ [last]) = value base digits * base + digitValue last := by
  simp only [value, List.foldl_append, List.foldl_cons, List.foldl_nil]

theorem digitValue_digitChar {digit : Nat} (small : digit < 16) :
    digitValue (Nat.digitChar digit) = digit := by
  have table : ∀ digit < 16, digitValue (Nat.digitChar digit) = digit := by decide
  exact table digit small

/-- The digits of a number have its value. -/
theorem value_toDigits {base : Nat} (least : 1 < base) (most : base ≤ 16) (number : Nat) :
    value base (Nat.toDigits base number) = number := by
  induction number using Nat.strongRecOn with
  | ind number ih =>
    rw [Nat.toDigits_eq_if least]
    split
    · rename_i single
      exact (Nat.zero_mul base ▸ Nat.zero_add _).trans (digitValue_digitChar (by omega))
    · rename_i several
      have digit := Nat.mod_lt number (show 0 < base by omega)
      rw [value_concat, ih _ (Nat.div_lt_self (by omega) least),
        digitValue_digitChar (by omega)]
      exact Nat.div_add_mod' number base

section Canonical

variable {base : Nat}

theorem mem_toDigits (least : 1 < base) (number : Nat) :
    ∀ char ∈ Nat.toDigits base number, ∃ digit < base, char = Nat.digitChar digit := by
  induction number using Nat.strongRecOn with
  | ind number ih =>
    rw [Nat.toDigits_eq_if least]
    split
    · rename_i single
      exact List.forall_mem_singleton.mpr ⟨number, single, rfl⟩
    · rename_i several
      rw [List.forall_mem_append, List.forall_mem_singleton]
      exact ⟨ih _ (Nat.div_lt_self (by omega) least),
        number % base, Nat.mod_lt number (by omega), rfl⟩

/-- The first digit of several is not a zero. -/
theorem toDigits_eq_zero (least : 1 < base) (most : base ≤ 16) (number : Nat)
    (zero : (Nat.toDigits base number).head? = some '0') : Nat.toDigits base number = ['0'] := by
  induction number using Nat.strongRecOn with
  | ind number ih =>
    rw [Nat.toDigits_eq_if least] at zero ⊢
    split at zero
    · rename_i single
      rw [if_pos single]
      simpa using zero
    · rename_i several
      rw [List.head?_append_of_ne_nil _ Nat.toDigits_ne_nil] at zero
      have front := ih _ (Nat.div_lt_self (by omega) least) zero
      -- The digits in front of the last one have the value of the quotient, which is not zero.
      have quotient : value base ['0'] = number / base := by
        rw [← front, value_toDigits least most]
      have positive : 0 < number / base := Nat.div_pos (by omega) (by omega)
      have nothing : value base ['0'] = 0 := by simp [value, digitValue]
      omega

theorem canonical_toDigits (least : 1 < base) (most : base ≤ 16) (number : Nat) :
    Canonical base (Nat.toDigits base number) where
  several := Nat.toDigits_ne_nil
  legal := mem_toDigits least number
  leading := toDigits_eq_zero least most number

/-- A canonical numeral is the one that is written for its value. -/
theorem Canonical.eq_toDigits {digits : List Char} (canonical : Canonical base digits)
    (least : 1 < base) (most : base ≤ 16) : digits = Nat.toDigits base (value base digits) := by
  induction digits using List.reverseRecOn with
  | nil => exact absurd rfl canonical.several
  | append_singleton front last ih =>
    obtain ⟨digit, small, rfl⟩ := canonical.legal last (by simp)
    have weight : value base (front ++ [Nat.digitChar digit]) = value base front * base + digit := by
      rw [value_concat, digitValue_digitChar (by omega)]
    rw [weight]
    by_cases single : front = []
    · subst single
      have alone : value base [] * base + digit = digit := by simp [value]
      rw [alone, Nat.toDigits_of_lt_base small, List.nil_append]
    · -- The front is canonical as well, and it does not start with a zero.
      have nonzero : front.head? ≠ some '0' := by
        intro zero
        have whole := canonical.leading (by rw [List.head?_append_of_ne_nil _ single, zero])
        have length := congrArg List.length whole
        have positive := List.length_pos_iff.mpr single
        simp only [List.length_append, List.length_singleton] at length
        omega
      have written := ih ⟨single,
        fun char member => canonical.legal char (List.mem_append_left _ member),
        fun zero => absurd zero nonzero⟩
      have positive : 0 < value base front := by
        rcases Nat.eq_zero_or_pos (value base front) with zero | positive
        · rw [zero, Nat.toDigits_zero] at written
          exact absurd (congrArg List.head? written) nonzero
        · exact positive
      have large : base ≤ value base front * base := Nat.le_mul_of_pos_left base positive
      have quotient : (value base front * base + digit) / base = value base front := by
        rw [Nat.mul_comm, Nat.mul_add_div (by omega), Nat.div_eq_of_lt small, Nat.add_zero]
      have remainder : (value base front * base + digit) % base = digit := by
        rw [Nat.mul_comm, Nat.mul_add_mod, Nat.mod_eq_of_lt small]
      rw [Nat.toDigits_eq_if least, if_neg (by omega), quotient, remainder, ← written]

end Canonical

end RegisterMachine.Numeral
