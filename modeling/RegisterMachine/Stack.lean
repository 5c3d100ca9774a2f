import RegisterMachine.Cells
import RegisterMachine.Outcome
import RegisterMachine.Registers

/-!
The stack of a machine. The stack pointer lives in the register file and counts the live slots, and
the last slot is never filled.
-/

namespace RegisterMachine

structure Stack where
  slots : Cells
deriving DecidableEq, Repr

namespace Stack

def ofCapacity (capacity : Nat) : Stack := ⟨.zeros capacity⟩

def capacity (stack : Stack) : Nat := stack.slots.size

/-- A push needs a free slot besides the one it fills. -/
@[inline] def push (stack : Stack) (registers : Registers) (value : Nat) :
    Except Fault (Stack × Registers) :=
  if room : registers.sp + 1 < stack.slots.size then
    .ok (⟨stack.slots.set registers.sp value (Nat.lt_of_succ_lt room)⟩,
      registers.setSp (registers.sp + 1))
  else
    .error .stackOverflow

/-- A pop leaves the slot as it is. -/
def pop (stack : Stack) (registers : Registers) : Outcome (Nat × Registers) :=
  if registers.sp = 0 then
    .fault .stackUnderflow
  else
    match stack.slots.get? (registers.sp - 1) with
    | some value => .ok (value, registers.setSp (registers.sp - 1))
    | none => .missingSlot

/-- The live slots, bottom first, when the stack pointer is within the stack. -/
def live? (stack : Stack) (registers : Registers) : Option (List Nat) :=
  if registers.sp ≤ stack.capacity then some (stack.slots.take registers.sp) else none

@[simp] theorem capacity_ofCapacity (capacity : Nat) :
    (ofCapacity capacity).capacity = capacity := rfl

end Stack

end RegisterMachine
