import RegisterMachine.Arithmetic
import Mathlib.Data.Int.ModEq
import Mathlib.Algebra.Order.Ring.Abs

/-!
The operations of every integer type are exact.

A sum, a difference or a product is the one value of the type with the residue of the exact integer.
A quotient is exact but for its rest, and it is refused only where there is none or where it is the
negative of the smallest value, which is one more than the largest.
-/

namespace RegisterMachine.IntegerType

variable {type : IntegerType} {left right value other : Int}

/-- The answer is the one value of the type with the residue of an integer. -/
def Represents (type : IntegerType) (exact : Int) (answer : Option Int) : Prop :=
  ∃ value, answer = some value ∧ type.Contains value ∧ value ≡ exact [ZMOD modulus type.bits] ∧
    ∀ other, type.Contains other → other ≡ exact [ZMOD modulus type.bits] → other = value

/-- The rest of the division is smaller than the divisor, and it is zero or has the sign of the
dividend. -/
def IsQuotient (left right quotient : Int) : Prop :=
  ∃ rest, left = quotient * right + rest ∧ |rest| < |right| ∧ (rest = 0 ∨ rest.sign = left.sign)

/-- The quotient by minus one of the smallest value is above the largest one. -/
def Overflows (type : IntegerType) (left right : Int) : Prop :=
  type.signed = true ∧ left = type.least ∧ right = -1

/-- What the operations of a type give. -/
structure Exact (type : IntegerType) (left right : Int) : Prop where
  refused_iff : ∀ operation, type.apply operation left right = none ↔
    operation = .div ∧ (right = 0 ∨ type.Overflows left right)
  sum : type.Represents (left + right) (type.apply .add left right)
  difference : type.Represents (left - right) (type.apply .sub left right)
  product : type.Represents (left * right) (type.apply .mul left right)
  quotient : ∀ quotient, type.apply .div left right = some quotient →
    type.Contains quotient ∧ IsQuotient left right quotient ∧
      ∀ other, IsQuotient left right other → other = quotient
  /-- Without a sign, the quotient is rounded down. -/
  floor : type.signed = false → ∀ quotient, type.apply .div left right = some quotient →
    quotient = left.fdiv right

section Range

theorem modulus_eq_double (sized : 0 < type.bits) :
    modulus type.bits = modulus (type.bits - 1) * 2 := by
  rw [← modulus_succ, Nat.sub_add_cancel sized]

/-- A type has as many values as its bits have patterns. -/
theorem bound_sub_least (sized : 0 < type.bits) :
    type.bound - type.least = modulus type.bits := by
  have double := modulus_eq_double sized
  unfold bound least
  split <;> omega

theorem contains_wrap (sized : 0 < type.bits) (value : Int) : type.Contains (type.wrap value) := by
  have positive := modulus_pos type.bits
  have double := modulus_eq_double sized
  unfold Contains least bound wrap
  split
  · have lower : -((modulus type.bits : Int) / 2) ≤ value.bmod (modulus type.bits) :=
      Int.le_bmod positive
    have upper : value.bmod (modulus type.bits) < ((modulus type.bits : Int) + 1) / 2 :=
      Int.bmod_lt positive
    omega
  · have nonzero : (modulus type.bits : Int) ≠ 0 := by omega
    exact ⟨Int.emod_nonneg value nonzero, Int.emod_lt_of_pos value (by omega)⟩

theorem wrap_modEq (type : IntegerType) (value : Int) :
    type.wrap value ≡ value [ZMOD modulus type.bits] := by
  unfold wrap
  split
  · exact Int.bmod_emod
  · exact Int.mod_modEq value _

/-- Two values of a type differ by less than the modulus, so no two have the same residue. -/
theorem Contains.eq_of_modEq (sized : 0 < type.bits) (inside : type.Contains value)
    (inside' : type.Contains other) (same : value ≡ other [ZMOD modulus type.bits]) :
    value = other := by
  have range := bound_sub_least sized
  have small : |other - value| < modulus type.bits := by
    obtain ⟨lower, upper⟩ := inside
    obtain ⟨lower', upper'⟩ := inside'
    rw [abs_lt]
    omega
  have none := Int.eq_zero_of_abs_lt_dvd (Int.modEq_iff_dvd.mp same) small
  omega

theorem represents_wrap (sized : 0 < type.bits) (exact : Int) :
    type.Represents exact (some (type.wrap exact)) := by
  have inside := contains_wrap sized exact
  have congruent := type.wrap_modEq exact
  refine ⟨_, rfl, inside, congruent, fun other inside' congruent' => ?_⟩
  exact inside'.eq_of_modEq sized inside (congruent'.trans congruent.symm)

end Range

section Division

theorem isQuotient_tdiv (nonzero : right ≠ 0) : IsQuotient left right (left.tdiv right) := by
  refine ⟨left.tmod right, (Int.tdiv_mul_add_tmod left right).symm, ?_, ?_⟩
  · rw [Int.abs_eq_natAbs, Int.abs_eq_natAbs, Int.natAbs_tmod, Int.ofNat_lt]
    exact Nat.mod_lt _ (Int.natAbs_pos.mpr nonzero)
  · by_cases divides : right ∣ left
    · exact .inl (Int.tmod_eq_zero_of_dvd divides)
    · exact .inr ((Int.sign_tmod left right).trans (if_neg divides))

/-- Two rests on the same side of zero differ by less than the divisor. -/
theorem IsQuotient.unique {first second : Int} (found : IsQuotient left right first)
    (again : IsQuotient left right second) : first = second := by
  obtain ⟨rest, exact, small, side⟩ := found
  obtain ⟨rest', exact', small', side'⟩ := again
  have product : (second - first) * right = rest - rest' := by
    rw [Int.sub_mul]
    omega
  have near : |rest - rest'| < |right| := by
    rw [abs_lt] at small small' ⊢
    rcases lt_trichotomy left 0 with negative | zero | positive
    · rw [Int.sign_eq_neg_one_of_neg negative, Int.sign_eq_neg_one_iff_neg] at side side'
      omega
    · rw [zero, Int.sign_zero, Int.sign_eq_zero_iff_zero] at side side'
      omega
    · rw [Int.sign_eq_one_of_pos positive, Int.sign_eq_one_iff_pos] at side side'
      omega
  have none : rest - rest' = 0 := by
    refine Int.eq_zero_of_abs_lt_dvd (m := |right|) ?_ near
    exact (abs_dvd right _).mpr (product ▸ Int.dvd_mul_left _ right)
  have nonzero : right ≠ 0 := abs_pos.mp ((abs_nonneg rest).trans_lt small)
  rw [none] at product
  have same := (Int.mul_eq_zero.mp product).resolve_right nonzero
  omega

/-- A quotient is no larger than the dividend, and only the quotients by one and minus one are as
large. -/
theorem contains_tdiv_iff (inside : type.Contains left) (inside' : type.Contains right)
    (nonzero : right ≠ 0) :
    type.Contains (left.tdiv right) ↔ ¬ type.Overflows left right := by
  have positive := modulus_pos (type.bits - 1)
  have shrinks := Int.natAbs_tdiv_le_natAbs left right
  unfold Contains Overflows least bound at *
  cases signs : type.signed with
  | false =>
    simp only [signs, Bool.false_eq_true, if_false, false_and, not_false_iff, iff_true]
      at inside inside' ⊢
    have quotient := Int.tdiv_nonneg inside.1 inside'.1
    omega
  | true =>
    simp only [signs, if_true, true_and] at inside inside' ⊢
    constructor
    · rintro ⟨-, upper⟩ ⟨rfl, rfl⟩
      rw [Int.tdiv_neg, Int.tdiv_one] at upper
      omega
    · intro fits
      by_cases one : right.natAbs = 1
      · obtain rfl | rfl : right = 1 ∨ right = -1 := by omega
        · rwa [Int.tdiv_one]
        · rw [Int.tdiv_neg, Int.tdiv_one]
          omega
      · have halved : (left.tdiv right).natAbs ≤ left.natAbs / 2 := by
          rw [Int.natAbs_tdiv]
          exact Nat.div_le_div_left (by omega) Nat.two_pos
        omega

end Division

/-- The operations of every integer type are exact, for all of its values. -/
theorem apply_exact (sized : 0 < type.bits) (inside : type.Contains left)
    (inside' : type.Contains right) : type.Exact left right where
  refused_iff operation := by
    cases operation with
    | add | sub | mul => simp [apply]
    | div =>
      by_cases zero : right = 0
      · simp [apply, zero]
      · simp [apply, zero, contains_tdiv_iff inside inside' zero]
  sum := represents_wrap sized _
  difference := represents_wrap sized _
  product := represents_wrap sized _
  quotient quotient divided := by
    obtain ⟨⟨nonzero, fits⟩, same⟩ := Option.ite_none_right_eq_some.mp divided
    obtain rfl := Option.some.inj same
    have found : IsQuotient left right (left.tdiv right) := isQuotient_tdiv nonzero
    exact ⟨fits, found, fun other again => again.unique found⟩
  floor unsigned quotient divided := by
    obtain ⟨-, same⟩ := Option.ite_none_right_eq_some.mp divided
    have nonnegative : type.least = 0 := by simp [least, unsigned]
    rw [Contains, nonnegative] at inside inside'
    rw [← Option.some.inj same, Int.fdiv_eq_tdiv_of_nonneg inside.1 inside'.1]

/-- The smallest value of a type of sixty-four bits wraps around in all operations but one: its
quotient by minus one is refused. -/
theorem apply_exact_least :
    let type := twosComplement 64
    type.Exact (-9223372036854775808) (-1) ∧
      type.apply .add (-9223372036854775808) (-1) = some 9223372036854775807 ∧
        type.apply .mul (-9223372036854775808) (-1) = some (-9223372036854775808) ∧
          type.apply .div (-9223372036854775808) (-1) = none := by
  intro type
  have exact : type.Exact (-9223372036854775808) (-1) :=
    apply_exact (by decide) (by decide) (by decide)
  exact ⟨exact, by decide, by decide,
    (exact.refused_iff .div).mpr ⟨rfl, .inr ⟨rfl, by decide, rfl⟩⟩⟩

end RegisterMachine.IntegerType
