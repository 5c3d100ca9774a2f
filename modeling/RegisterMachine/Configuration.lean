import RegisterMachine.Width

/-!
The sizes of a machine, and which sizes make sense together.
-/

namespace RegisterMachine

/-- The width is in bits, the memory in cells and the stack in slots. -/
structure Configuration where
  width : Nat := 16
  memory : Nat := 1024
  stack : Nat := 256
deriving DecidableEq, Repr

namespace Configuration

inductive Defect where
  | width (bits : Nat)
  | noStack
  | tallStack (slots bits : Nat)
deriving DecidableEq, Repr

def Defect.message : Defect → String
  | .width bits => s!"Invalid machine config: register width must be in 1..=32, got {bits}"
  | .noStack => "Invalid machine config: stack size must be non zero"
  | .tallStack slots bits =>
    s!"Invalid machine config: stack size {slots} can't be addressed by a {bits} bit SP"

/-- The stack pointer has to count every slot, so the stack is bounded by the width. -/
def defect? (configuration : Configuration) : Option Defect :=
  if configuration.width = 0 ∨ 32 < configuration.width then
    some (.width configuration.width)
  else if configuration.stack = 0 then
    some .noStack
  else if modulus configuration.width < configuration.stack then
    some (.tallStack configuration.stack configuration.width)
  else
    none

/-- A valid configuration has a width of one to thirty-two bits and a stack that SP can count. -/
def Valid (configuration : Configuration) : Prop :=
  (1 ≤ configuration.width ∧ configuration.width ≤ 32) ∧
    1 ≤ configuration.stack ∧ configuration.stack ≤ modulus configuration.width

instance (configuration : Configuration) : Decidable configuration.Valid :=
  inferInstanceAs (Decidable (_ ∧ _))

theorem defect?_eq_none_iff (configuration : Configuration) :
    configuration.defect? = none ↔ configuration.Valid := by
  unfold defect? Valid
  split
  · simp
    omega
  split
  · simp
    omega
  split
  · simp
    omega
  · simp
    omega

end Configuration

end RegisterMachine
