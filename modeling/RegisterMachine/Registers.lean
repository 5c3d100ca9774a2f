import RegisterMachine.Register
import RegisterMachine.Width

/-!
The register file: four general registers, the instruction pointer and the stack pointer. Every
write keeps the low bits up to the width, so no register holds more than a cell.
-/

namespace RegisterMachine

structure Registers where
  width : Nat
  a : Nat
  b : Nat
  c : Nat
  d : Nat
  ip : Nat
  sp : Nat
deriving DecidableEq, Repr

namespace Registers

/-- The width of a register file is at least one bit and at most thirty-two. -/
def ofWidth (width : Nat) : Registers := ⟨min (max width 1) 32, 0, 0, 0, 0, 0, 0⟩

/-- The largest value of a register, with all its bits set. -/
def mask (registers : Registers) : Nat := modulus registers.width - 1

/-- Only the low bits of a value are kept. -/
def wrap (registers : Registers) (value : Nat) : Nat := value &&& registers.mask

def read (registers : Registers) : Register → Nat
  | .a => registers.a
  | .b => registers.b
  | .c => registers.c
  | .d => registers.d

def write (registers : Registers) (register : Register) (value : Nat) : Registers :=
  match register with
  | .a => { registers with a := registers.wrap value }
  | .b => { registers with b := registers.wrap value }
  | .c => { registers with c := registers.wrap value }
  | .d => { registers with d := registers.wrap value }

def setIp (registers : Registers) (value : Nat) : Registers :=
  { registers with ip := registers.wrap value }

def setSp (registers : Registers) (value : Nat) : Registers :=
  { registers with sp := registers.wrap value }

variable (registers : Registers) (register other : Register) (value : Nat)

theorem wrap_eq_mod : registers.wrap value = value % modulus registers.width :=
  Nat.and_two_pow_sub_one_eq_mod value registers.width

@[simp] theorem width_write : (registers.write register value).width = registers.width := by
  cases register <;> rfl

@[simp] theorem ip_write : (registers.write register value).ip = registers.ip := by
  cases register <;> rfl

@[simp] theorem sp_write : (registers.write register value).sp = registers.sp := by
  cases register <;> rfl

theorem read_write : (registers.write register value).read other =
    if other = register then registers.wrap value else registers.read other := by
  cases register <;> cases other <;> rfl

@[simp] theorem width_setIp : (registers.setIp value).width = registers.width := rfl

@[simp] theorem width_setSp : (registers.setSp value).width = registers.width := rfl

@[simp] theorem read_setIp : (registers.setIp value).read register = registers.read register := by
  cases register <;> rfl

@[simp] theorem read_setSp : (registers.setSp value).read register = registers.read register := by
  cases register <;> rfl

@[simp] theorem ip_setIp : (registers.setIp value).ip = registers.wrap value := rfl

@[simp] theorem sp_setIp : (registers.setIp value).sp = registers.sp := rfl

@[simp] theorem ip_setSp : (registers.setSp value).ip = registers.ip := rfl

@[simp] theorem sp_setSp : (registers.setSp value).sp = registers.wrap value := rfl

variable {registers value} in
/-- A value that a register can hold is kept. -/
theorem wrap_of_lt (small : value < modulus registers.width) : registers.wrap value = value := by
  rw [wrap_eq_mod, Nat.mod_eq_of_lt small]

theorem wrap_wrap : registers.wrap (registers.wrap value) = registers.wrap value := by
  rw [wrap_eq_mod, wrap_eq_mod, Nat.mod_mod]

theorem wrap_le : registers.wrap value ≤ value := Nat.and_le_left

theorem wrap_lt : registers.wrap value < modulus registers.width := by
  rw [wrap_eq_mod]
  exact Nat.mod_lt value (modulus_pos registers.width)

end Registers

end RegisterMachine
