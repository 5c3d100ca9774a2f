import RegisterMachine.Proofs.Machine.Verdicts
import Mathlib.Data.Int.ModEq

/-!
Arithmetic on registers is arithmetic on integers, reduced by the width.

The arithmetic unit has sixty-four bits. The sum, the product and the quotient of two registers fit
in them, and a difference below zero comes out with the modulus of the unit added, so the register
that takes a result has the residue of the exact integer.
-/

namespace RegisterMachine

theorem modulus_dvd {fewer bits : Nat} (fewer_le : fewer ≤ bits) : modulus fewer ∣ modulus bits :=
  Nat.pow_dvd_pow 2 fewer_le

theorem modulus_le {fewer bits : Nat} (fewer_le : fewer ≤ bits) : modulus fewer ≤ modulus bits :=
  Nat.pow_le_pow_right Nat.two_pos fewer_le

namespace Operation

/-- The integer that an operation stands for. A quotient is rounded down. -/
def exact (operation : Operation) (rd rs : Int) : Int :=
  match operation with
  | .add => rd + rs
  | .sub => rs - rd
  | .mul => rs * rd
  | .div => rs / rd

variable {operation : Operation} {rd rs : Nat} {value : Int}

/-- The unit gives a value of sixty-four bits, which has the residue of the exact integer. -/
theorem combine_modEq (combined : operation.combine rd rs = some value) :
    (0 ≤ value ∧ value < modulus 64) ∧ value ≡ operation.exact rd rs [ZMOD modulus 64] := by
  have positive : (0 : Int) < modulus 64 := Int.ofNat_lt.mpr (modulus_pos 64)
  have wrapped (exact : Int) : (0 ≤ exact % modulus 64 ∧ exact % modulus 64 < modulus 64) ∧
      exact % modulus 64 ≡ exact [ZMOD modulus 64] :=
    ⟨⟨Int.emod_nonneg exact positive.ne', Int.emod_lt_of_pos exact positive⟩, Int.mod_modEq _ _⟩
  cases operation with
  | add | sub | mul =>
    obtain rfl := Option.some.inj combined
    exact wrapped _
  | div =>
    obtain ⟨⟨-, fits⟩, same⟩ := Option.ite_none_right_eq_some.mp combined
    obtain rfl := Option.some.inj same
    exact ⟨fits, Int.ModEq.refl _⟩

/-- A division is refused only for a divisor of zero. -/
theorem exists_combine (small : rs < modulus 64) (divides : operation = .div → rd ≠ 0) :
    ∃ value, operation.combine rd rs = some value := by
  rw [← Option.ne_none_iff_exists', Ne, operation.combine_eq_none_iff rd small]
  rintro ⟨division, zero⟩
  exact divides division zero

/-- The exact integer of two registers is above the negative modulus of the unit and below the
modulus. -/
theorem exact_bounds (operation : Operation) (small_rd : rd < modulus 32)
    (small_rs : rs < modulus 32) :
    -(modulus 64 : Int) < operation.exact rd rs ∧ operation.exact rd rs < modulus 64 := by
  have size : modulus 32 = 4294967296 := rfl
  have large : modulus 64 = 18446744073709551616 := rfl
  have product : rs * rd < modulus 32 * modulus 32 := Nat.mul_lt_mul'' small_rs small_rd
  have quotient : rs / rd ≤ rs := Nat.div_le_self rs rd
  rw [size] at small_rd small_rs product
  rw [large]
  cases operation with
  | add => simp only [exact]; omega
  | sub => simp only [exact]; omega
  | mul => rw [exact, ← Int.natCast_mul]; omega
  | div =>
    rw [exact, ← Int.natCast_ediv]
    generalize rs / rd = down at quotient
    omega

/-- The unit loses nothing: its value is the exact integer, or the complement of a negative one. -/
theorem combine_eq_exact (small_rd : rd < modulus 32) (small_rs : rs < modulus 32)
    (divides : operation = .div → rd ≠ 0) :
    operation.combine rd rs = some (if operation.exact rd rs < 0
      then operation.exact rd rs + modulus 64 else operation.exact rd rs) := by
  have large : modulus 64 = 18446744073709551616 := rfl
  have bounds := operation.exact_bounds small_rd small_rs
  have wider : modulus 32 ≤ modulus 64 := modulus_le (by decide)
  obtain ⟨value, combined⟩ := exists_combine (Nat.lt_of_lt_of_le small_rs wider) divides
  obtain ⟨range, congruent⟩ := combine_modEq combined
  rw [combined, Option.some.injEq]
  rw [large] at bounds range congruent ⊢
  rw [Int.ModEq] at congruent
  split <;> omega

end Operation

namespace Registers

/-- A register that takes the value of the unit has the residue of the exact integer. -/
theorem wrap_combine {registers : Registers} {operation : Operation} {rd rs : Nat} {value : Int}
    (width : registers.width ≤ 64) (combined : operation.combine rd rs = some value) :
    (registers.wrap value.toNat : Int) =
      operation.exact rd rs % modulus registers.width := by
  obtain ⟨⟨nonnegative, -⟩, congruent⟩ := Operation.combine_modEq combined
  have divides : (modulus registers.width : Int) ∣ modulus 64 :=
    Int.natCast_dvd_natCast.mpr (modulus_dvd width)
  rw [wrap_eq_mod, Int.natCast_emod, Int.toNat_of_nonneg nonnegative]
  exact congruent.of_dvd divides

/-- Writing a value is writing its residue. -/
theorem write_wrap (registers : Registers) (target : Register) (value : Nat) :
    registers.write target (registers.wrap value) = registers.write target value := by
  cases target <;> simp only [write, wrap_wrap]

end Registers

namespace Word

/-- The third bit of the byte says which register an arithmetic word writes. -/
def destination (word : Word) : Register :=
  if word.byte.val.testBit 2 then word.rd else word.rs

theorem select_ofByte (word : Word) :
    (Destination.ofByte word.byte).select word.rd word.rs = word.destination := by
  rw [destination, Nat.testBit_eq_decide_div_mod_eq, Destination.ofByte]
  simp only [decide_eq_true_eq]
  split <;> rfl

end Word

namespace Machine

/-- A word completes, and all that it does is to leave a value in its destination. -/
structure Stores (machine : Machine) (word : Word) (value : Int) : Prop where
  completes : (machine.execute word).outcome = .ok false
  stored : (machine.execute word).machine.registers.read word.destination = value
  rest : (machine.execute word).machine =
    { machine with registers := machine.registers.write word.destination value.toNat }

variable {machine : Machine} {word : Word}

/-- An arithmetic word, with the fields that it uses. -/
theorem execute_arithmetic (machine : Machine) (arithmetic : word.opcode? = some .ath) :
    machine.execute word = machine.perform (.arithmetic word.rd word.rs
      (Operation.ofCode word.byte) (Destination.ofByte word.byte)) := by
  have read : word.instruction? = some (.arithmetic word.rd word.rs
      (Operation.ofCode word.byte) (Destination.ofByte word.byte)) := by
    rw [Word.instruction?, arithmetic]
    rfl
  rw [execute, read]

/-- An arithmetic word only writes the residue of its exact integer. -/
theorem execute_exact (arithmetic : word.opcode? = some .ath)
    (width : machine.registers.width ≤ 32)
    (small : machine.registers.read word.rs < modulus machine.registers.width)
    (divides : Operation.ofCode word.byte = .div → machine.registers.read word.rd ≠ 0) :
    ∃ value : Nat, machine.execute word = .proceed { machine with
        registers := machine.registers.write word.destination value } ∧
      machine.registers.wrap value = value ∧
        value = (Operation.ofCode word.byte).exact (machine.registers.read word.rd)
          (machine.registers.read word.rs) % modulus machine.registers.width := by
  have unit : machine.registers.width ≤ 64 := by omega
  obtain ⟨value, combined⟩ :=
    Operation.exists_combine (Nat.lt_of_lt_of_le small (modulus_le unit)) divides
  refine ⟨machine.registers.wrap value.toNat, ?_, Registers.wrap_wrap _ _,
    Registers.wrap_combine unit combined⟩
  rw [machine.execute_arithmetic arithmetic, Registers.write_wrap]
  simp only [perform, combined, word.select_ofByte]

/-- An operation stores the residue of its exact integer. -/
theorem stores_exact (arithmetic : word.opcode? = some .ath)
    (width : machine.registers.width ≤ 32)
    (small : machine.registers.read word.rs < modulus machine.registers.width)
    (divides : Operation.ofCode word.byte = .div → machine.registers.read word.rd ≠ 0) :
    machine.Stores word ((Operation.ofCode word.byte).exact (machine.registers.read word.rd)
      (machine.registers.read word.rs) % modulus machine.registers.width) := by
  obtain ⟨value, effect, wrapped, exact⟩ := execute_exact arithmetic width small divides
  constructor
  · rw [effect]
    rfl
  · rw [effect, ← exact]
    simp only [Effect.proceed, Registers.read_write, if_true, wrapped]
  · rw [effect, ← exact, Int.toNat_natCast]
    rfl

/-- What an arithmetic word does to registers that hold `rd` and `rs`, by the low bits of its
byte. -/
structure Calculates (machine : Machine) (word : Word) (rd rs size : Nat) : Prop where
  sum : word.byte.val % 4 = 0 → machine.Stores word ((rd + rs : Int) % size)
  difference : word.byte.val % 4 = 1 → machine.Stores word ((rs - rd : Int) % size)
  product : word.byte.val % 4 = 2 → machine.Stores word ((rs * rd : Int) % size)
  quotient : word.byte.val % 4 = 3 → rd ≠ 0 → machine.Stores word (rs / rd : Int)
  refusal : word.byte.val % 4 = 3 → rd = 0 →
    (machine.execute word).outcome = .fault .divisionByZero ∧
      (machine.execute word).machine = machine
  /-- The value of sixty-four bits is the exact integer, or the complement of a negative one. -/
  lossless : ∀ operation : Operation, (operation = .div → rd ≠ 0) →
    operation.combine rd rs = some (if operation.exact rd rs < 0
      then operation.exact rd rs + modulus 64 else operation.exact rd rs)
  /-- The five high bits of the byte have no effect. -/
  low_bits : ∀ other : Word, other.opcode? = some .ath → other.rd = word.rd → other.rs = word.rs →
    other.byte.val % 8 = word.byte.val % 8 → machine.execute other = machine.execute word

/-- Arithmetic is exact modulo the width, whatever the width, the registers and their values, and a
division by zero writes nothing. -/
theorem arithmetic_exact
    (width : 1 ≤ machine.registers.width ∧ machine.registers.width ≤ 32)
    (small_rd : machine.registers.read word.rd < modulus machine.registers.width)
    (small_rs : machine.registers.read word.rs < modulus machine.registers.width)
    (arithmetic : word.opcode? = some .ath) :
    machine.Calculates word (machine.registers.read word.rd) (machine.registers.read word.rs)
      (modulus machine.registers.width) := by
  have wider : modulus machine.registers.width ≤ modulus 32 := modulus_le width.2
  have stores := stores_exact arithmetic width.2 small_rs
  have operation {code : Nat} (low : word.byte.val % 4 = code) :
      Operation.ofCode word.byte = Operation.ofCode code := by
    rw [Operation.ofCode, Operation.ofCode, ← low, Nat.mod_mod]
  constructor
  case sum =>
    intro low
    rw [operation low] at stores
    exact stores Operation.noConfusion
  case difference =>
    intro low
    rw [operation low] at stores
    exact stores Operation.noConfusion
  case product =>
    intro low
    rw [operation low] at stores
    exact stores Operation.noConfusion
  case quotient =>
    intro low nonzero
    rw [operation low] at stores
    have below := Nat.lt_of_le_of_lt
      (Nat.div_le_self (machine.registers.read word.rs) (machine.registers.read word.rd)) small_rs
    have kept := stores fun _ => nonzero
    rwa [show Operation.ofCode 3 = .div from rfl, Operation.exact, ← Int.natCast_ediv,
      ← Int.natCast_emod, Nat.mod_eq_of_lt below] at kept
  case refusal =>
    intro low zero
    have enough : machine.registers.read word.rs < modulus 64 :=
      Nat.lt_of_lt_of_le small_rs (modulus_le (by omega))
    exact execute_of_causes (fun _ => Fault.noConfusion) (fun _ => enough) ⟨arithmetic, low, zero⟩
  case lossless =>
    intro operation divides
    exact Operation.combine_eq_exact (Nat.lt_of_lt_of_le small_rd wider)
      (Nat.lt_of_lt_of_le small_rs wider) divides
  case low_bits =>
    intro other alike same_rd same_rs same_byte
    have code : Operation.ofCode other.byte = Operation.ofCode word.byte := by
      rw [Operation.ofCode, Operation.ofCode, show other.byte.val % 4 = word.byte.val % 4 by omega]
    have chosen : Destination.ofByte other.byte = Destination.ofByte word.byte := by
      rw [Destination.ofByte, Destination.ofByte,
        show other.byte.val / 4 % 2 = word.byte.val / 4 % 2 by omega]
    rw [machine.execute_arithmetic alike, machine.execute_arithmetic arithmetic, same_rd, same_rs,
      code, chosen]

/-- In a machine of four bits, five less nine is twelve. All the bits that do not count are set. -/
theorem arithmetic_exact_negative :
    let machine : Machine := { fresh ⟨4, 0, 1⟩ [] {} with registers := ⟨4, 9, 5, 0, 0, 0, 0⟩ }
    let word : Word := 64838
    machine.Calculates word 9 5 16 ∧ machine.Stores word 12 ∧
      (machine.execute word).machine.registers = ⟨4, 12, 5, 0, 0, 0, 0⟩ := by
  intro machine word
  have arithmetic : word.opcode? = some .ath := by decide
  have nine : machine.registers.read word.rd = 9 := by decide +kernel
  have five : machine.registers.read word.rs = 5 := by decide +kernel
  have calculates : machine.Calculates word (machine.registers.read word.rd)
      (machine.registers.read word.rs) 16 :=
    arithmetic_exact (by decide) (nine ▸ by decide) (five ▸ by decide) arithmetic
  rw [nine, five] at calculates
  exact ⟨calculates, calculates.difference (by decide), by decide +kernel⟩

end Machine

end RegisterMachine
