import RegisterMachine.Proofs.Machine.Narrowing

/-!
Shifts multiply and divide by powers of two.

A shift to the left is a product and a shift to the right is a quotient, both reduced by the width,
and the shifts that move every bit out follow the same law. So two shifts in one direction add up,
a shift does what the arithmetic unit does with a power of two, and a shift to the left and back
keeps the bits that it did not move out.
-/

namespace RegisterMachine

theorem modulus_add (first second : Nat) :
    modulus (first + second) = modulus first * modulus second :=
  Nat.pow_add 2 first second

namespace Direction

/-- The product or the quotient that a shift stands for. -/
def exact (direction : Direction) (value amount : Nat) : Nat :=
  match direction with
  | .left => value * modulus amount
  | .right => value / modulus amount

variable {bits value : Nat}

/-- A quotient is no larger than the value, so a shift to the right fits. -/
theorem right_exact_lt (small : value < modulus bits) (amount : Nat) :
    right.exact value amount < modulus bits :=
  Nat.lt_of_le_of_lt (Nat.div_le_self value _) small

/-- Also where every bit is moved out, the shift has the residue of its exact value. -/
theorem shift_modEq (direction : Direction) (small : value < modulus bits) (amount : Nat) :
    direction.shift bits value amount ≡ direction.exact value amount [MOD modulus bits] := by
  cases direction with
  | left => exact shift_left_modEq (Nat.le_refl bits) value amount
  | right =>
    unfold shift
    split
    · rename_i far
      have below : value < modulus amount := Nat.lt_of_lt_of_le small (modulus_le far)
      rw [exact, Nat.div_eq_of_lt below]
    · exact Nat.ModEq.refl _

/-- Amounts in one direction add up, whatever was moved out in between. -/
theorem exact_exact (direction : Direction) (small : value < modulus bits) (first second : Nat) :
    direction.exact (direction.exact value first % modulus bits) second ≡
      direction.exact value (first + second) [MOD modulus bits] := by
  cases direction with
  | left =>
    calc value * modulus first % modulus bits * modulus second
        ≡ value * modulus first * modulus second [MOD modulus bits] :=
          (Nat.mod_modEq _ _).mul_right _
      _ = value * modulus (first + second) := by rw [modulus_add, Nat.mul_assoc]
  | right =>
    rw [Nat.mod_eq_of_lt (right_exact_lt small first)]
    simp only [exact, Nat.div_div_eq_div_mul, modulus_add]
    exact Nat.ModEq.refl _

/-- To the left and back keeps the low bits, those that were not moved out. -/
theorem right_exact_left_exact (value : Nat) {amount : Nat} (inside : amount ≤ bits) :
    right.exact (left.exact value amount % modulus bits) amount =
      value % modulus (bits - amount) := by
  have parts : modulus bits = modulus (bits - amount) * modulus amount := by
    rw [← modulus_add, Nat.sub_add_cancel inside]
  rw [exact, exact, parts, Nat.mul_mod_mul_right, Nat.mul_div_cancel _ (modulus_pos amount)]

end Direction

/-- The second of two writes to a register is all that counts. -/
theorem Registers.write_write (registers : Registers) (target : Register) (first second : Nat) :
    (registers.write target first).write target second = registers.write target second := by
  cases target <;> rfl

namespace Word

def direction (word : Word) : Direction := Direction.ofRegister word.rd

theorem direction_eq_left_iff (word : Word) : word.direction = .left ↔ word.rd = .a := by
  simp [direction, Direction.ofRegister]

theorem direction_eq_right_iff (word : Word) : word.direction = .right ↔ word.rd ≠ .a := by
  simp [direction, Direction.ofRegister]

/-- Another shift of the same register in the same direction. -/
structure ShiftsAlike (first second : Word) : Prop where
  shifts : second.opcode? = some .sft
  rs_eq : second.rs = first.rs
  left_iff : second.rd = .a ↔ first.rd = .a

theorem ShiftsAlike.direction_eq {first second : Word} (alike : first.ShiftsAlike second) :
    second.direction = first.direction := by
  simp only [direction, Direction.ofRegister, alike.left_iff]

end Word

namespace Machine

/-- A word completes, and all that it does is to leave a value in a register. -/
structure Leaves (machine : Machine) (word : Word) (target : Register) (value : Nat) : Prop where
  effect : machine.execute word =
    .proceed { machine with registers := machine.registers.write target value }
  left : (machine.execute word).machine.registers.read target = value

/-- A word leaves a value in its destination, and where the destination is the register of a shift,
the word does what the shift does. -/
structure DoesAs (machine : Machine) (arithmetic shift : Word) (value : Nat) : Prop where
  leaves : machine.Leaves arithmetic arithmetic.destination value
  same : arithmetic.destination = shift.rs → machine.execute arithmetic = machine.execute shift

variable {machine : Machine} {word other : Word} {target : Register} {value : Nat}

/-- A register that is written has the residue of the value. -/
theorem leaves_of_execute (effect : machine.execute word =
      .proceed { machine with registers := machine.registers.write target value }) :
    machine.Leaves word target (value % modulus machine.registers.width) where
  effect := by
    rw [effect, ← machine.registers.write_wrap target value, Registers.wrap_eq_mod]
  left := by
    rw [effect, ← Registers.wrap_eq_mod]
    exact (Registers.read_write _ _ _ _).trans (if_pos rfl)

theorem Leaves.doesAs (shift : machine.Leaves other other.rs value)
    (leaves : machine.Leaves word word.destination value) : machine.DoesAs word other value where
  leaves := leaves
  same register := by rw [leaves.effect, shift.effect, register]

/-- A shift, with the fields that it uses. -/
theorem execute_shift (machine : Machine) (shifts : word.opcode? = some .sft) :
    machine.execute word = .proceed { machine with
      registers := machine.registers.write word.rs (word.direction.shift machine.registers.width
        (machine.registers.read word.rs) word.byte) } := by
  have read : word.instruction? = some (.shift word.rs word.direction word.byte) := by
    rw [Word.instruction?, shifts]
    rfl
  rw [execute, read]
  rfl

/-- A shift leaves the residue of its exact value. -/
theorem leaves_shift (machine : Machine) (shifts : word.opcode? = some .sft)
    (small : machine.registers.read word.rs < modulus machine.registers.width) :
    machine.Leaves word word.rs
      (word.direction.exact (machine.registers.read word.rs) word.byte %
        modulus machine.registers.width) := by
  have leaves := leaves_of_execute (machine.execute_shift shifts)
  rwa [word.direction.shift_modEq small word.byte] at leaves

/-- A shift after another word that left a value in the same register. -/
theorem Leaves.shift (leaves : machine.Leaves word word.rs value)
    (shifts : other.opcode? = some .sft) (register : other.rs = word.rs)
    (small : value < modulus machine.registers.width) :
    (machine.execute word).machine.Leaves other word.rs
      (other.direction.exact value other.byte % modulus machine.registers.width) := by
  have width : (machine.execute word).machine.registers.width = machine.registers.width := by
    rw [leaves.effect]
    exact Registers.width_write _ _ _
  have held : (machine.execute word).machine.registers.read other.rs = value := by
    rw [register]
    exact leaves.left
  have next := (machine.execute word).machine.leaves_shift shifts (by rwa [held, width])
  rwa [held, width, register] at next

/-- Two values in the same register one after the other leave the second one only. -/
theorem Leaves.execute_execute {last : Nat} (leaves : machine.Leaves word target value)
    (next : (machine.execute word).machine.Leaves other target last) :
    (machine.execute word).machine.execute other =
      .proceed { machine with registers := machine.registers.write target last } := by
  rw [next.effect, leaves.effect]
  simp only [Effect.proceed, Registers.write_write]

/-- An arithmetic word leaves the natural number that its exact integer is. -/
theorem leaves_arithmetic {result : Nat} (arithmetic : word.opcode? = some .ath)
    (width : machine.registers.width ≤ 32)
    (small : machine.registers.read word.rs < modulus machine.registers.width)
    (divides : Operation.ofCode word.byte = .div → machine.registers.read word.rd ≠ 0)
    (exact : (Operation.ofCode word.byte).exact (machine.registers.read word.rd)
      (machine.registers.read word.rs) = result) :
    machine.Leaves word word.destination (result % modulus machine.registers.width) := by
  obtain ⟨value, effect, wrapped, same⟩ := execute_exact arithmetic width small divides
  rw [exact] at same
  obtain rfl : value = result % modulus machine.registers.width := by exact_mod_cast same
  have leaves := leaves_of_execute effect
  rwa [Nat.mod_mod] at leaves

/-- What a shift by an amount does to a register that holds a value. -/
structure Shifts (machine : Machine) (word : Word) (value amount width : Nat) : Prop where
  left : word.rd = .a → machine.Leaves word word.rs (value * modulus amount % modulus width)
  /-- Every field but zero stands for the other direction. -/
  right : word.rd ≠ .a → machine.Leaves word word.rs (value / modulus amount)
  twice : ∀ second whole : Word, word.ShiftsAlike second → word.ShiftsAlike whole →
    whole.byte.val = amount + second.byte →
      (machine.execute word).machine.execute second = machine.execute whole
  product : amount < width → word.rd = .a → ∀ multiply : Word, multiply.opcode? = some .ath →
    multiply.byte.val % 4 = 2 →
      (multiply.rs = word.rs ∧ machine.registers.read multiply.rd = modulus amount ∨
        multiply.rd = word.rs ∧ machine.registers.read multiply.rs = modulus amount) →
          machine.DoesAs multiply word (value * modulus amount % modulus width)
  quotient : amount < width → word.rd ≠ .a → ∀ divide : Word, divide.opcode? = some .ath →
    divide.byte.val % 4 = 3 → divide.rs = word.rs →
      machine.registers.read divide.rd = modulus amount →
        machine.DoesAs divide word (value / modulus amount)
  back : amount < width → word.rd = .a → ∀ right : Word, right.opcode? = some .sft →
    right.rs = word.rs → right.rd ≠ .a → right.byte = word.byte →
      (machine.execute word).machine.Leaves right word.rs (value % modulus (width - amount))

/-- Shifts are products with and quotients by powers of two, for every width, value and amount. -/
theorem shifts_exact (width : 1 ≤ machine.registers.width ∧ machine.registers.width ≤ 32)
    (small : machine.registers.read word.rs < modulus machine.registers.width)
    (shifts : word.opcode? = some .sft) :
    machine.Shifts word (machine.registers.read word.rs) word.byte machine.registers.width := by
  have leaves := machine.leaves_shift shifts small
  have reduced : word.direction.exact (machine.registers.read word.rs) word.byte %
      modulus machine.registers.width < modulus machine.registers.width :=
    Nat.mod_lt _ (modulus_pos _)
  have operation {arithmetic : Word} {code : Nat} (low : arithmetic.byte.val % 4 = code) :
      Operation.ofCode arithmetic.byte = Operation.ofCode code := by
    rw [Operation.ofCode, Operation.ofCode, ← low, Nat.mod_mod]
  have left (zero : word.rd = .a) : machine.Leaves word word.rs
      (machine.registers.read word.rs * modulus word.byte % modulus machine.registers.width) := by
    rwa [word.direction_eq_left_iff.mpr zero] at leaves
  have right (nonzero : word.rd ≠ .a) : machine.Leaves word word.rs
      (machine.registers.read word.rs / modulus word.byte) := by
    rwa [word.direction_eq_right_iff.mpr nonzero,
      Nat.mod_eq_of_lt (Direction.right_exact_lt small _)] at leaves
  constructor
  case left => exact left
  case right => exact right
  case twice =>
    intro second whole alike together sum
    have next := leaves.shift alike.shifts alike.rs_eq reduced
    have once := machine.leaves_shift together.shifts (together.rs_eq ▸ small)
    rw [alike.direction_eq, word.direction.exact_exact small] at next
    rw [together.direction_eq, together.rs_eq, sum] at once
    rw [leaves.execute_execute next, once.effect]
  case product =>
    intro inside zero multiply arithmetic low operands
    have power : modulus word.byte < modulus machine.registers.width :=
      Nat.pow_lt_pow_right (Nat.lt_succ_self 1) inside
    have total : Operation.ofCode multiply.byte = .div → machine.registers.read multiply.rd ≠ 0 := by
      rw [operation low]
      exact Operation.noConfusion
    refine (left zero).doesAs ?_
    obtain ⟨register, factor⟩ | ⟨register, factor⟩ := operands
    · refine leaves_arithmetic arithmetic width.2 (register ▸ small) total ?_
      rw [operation low, register, factor]
      rfl
    · refine leaves_arithmetic arithmetic width.2 (factor ▸ power) total ?_
      rw [operation low, register, factor, Nat.mul_comm]
      rfl
  case quotient =>
    intro _ nonzero divide arithmetic low register power
    have exact : (Operation.ofCode divide.byte).exact (machine.registers.read divide.rd)
        (machine.registers.read divide.rs) = Direction.right.exact (machine.registers.read word.rs)
          word.byte := by
      rw [operation low, register, power]
      rfl
    have quotient := leaves_arithmetic arithmetic width.2 (register ▸ small)
      (fun _ => power ▸ (modulus_pos word.byte).ne') exact
    rw [Nat.mod_eq_of_lt (Direction.right_exact_lt small _)] at quotient
    exact (right nonzero).doesAs quotient
  case back =>
    intro inside zero back shifts' register nonzero same
    have next := leaves.shift shifts' register reduced
    have kept : machine.registers.read word.rs % modulus (machine.registers.width - word.byte) <
        modulus machine.registers.width :=
      Nat.lt_of_lt_of_le (Nat.mod_lt _ (modulus_pos _)) (modulus_le (Nat.sub_le _ _))
    rwa [word.direction_eq_left_iff.mpr zero, back.direction_eq_right_iff.mpr nonzero, same,
      Direction.right_exact_left_exact _ (Nat.le_of_lt inside), Nat.mod_eq_of_lt kept] at next

/-- Of eight bits, three are moved out to the left, and the way back brings the other five: 181 is
10110101, and 21 is 10101. The way back is written with D in its direction. -/
theorem shifts_exact_back :
    let machine : Machine := { fresh ⟨8, 0, 1⟩ [] {} with registers := ⟨8, 0, 181, 8, 0, 0, 0⟩ }
    let left : Word := Word.ofByte .sft .a .b 3
    let right : Word := Word.ofByte .sft .d .b 3
    (1 ≤ machine.registers.width ∧ machine.registers.width ≤ 32) ∧
      machine.registers.read left.rs < modulus machine.registers.width ∧
        left.opcode? = some .sft ∧ machine.Shifts left 181 3 8 ∧
          (machine.execute left).machine.Leaves right left.rs 21 := by
  intro machine left right
  have width : 1 ≤ machine.registers.width ∧ machine.registers.width ≤ 32 := by decide
  have small : machine.registers.read left.rs < modulus machine.registers.width := by decide
  have opcode : left.opcode? = some .sft := Word.opcode?_ofByte _ _ _ _
  have shifts := shifts_exact width small opcode
  rw [Word.rs_ofByte, Word.byte_ofByte] at shifts
  have back := shifts.back (by decide) (Word.rd_ofByte _ _ _ _) right (Word.opcode?_ofByte _ _ _ _)
    (by decide) (by decide) (by decide)
  have kept : machine.registers.read .b % modulus (machine.registers.width - (3 : Byte)) = 21 := by
    decide
  exact ⟨width, small, opcode, shifts, kept ▸ back⟩

end Machine

end RegisterMachine
