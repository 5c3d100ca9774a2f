import RegisterMachine.Proofs.Machine.Bounds

/-!
Steps one after the other.

A machine can always be stepped again, whatever the last step answered. The stack pointer never
leaves the stack on the way, and past the end of the program nothing changes any more.
-/

namespace RegisterMachine.Machine

variable {machine : Machine}

/-- The machine after some steps. -/
def after (machine : Machine) : Nat → Machine
  | 0 => machine
  | count + 1 => (machine.after count).step.machine

@[simp] theorem after_zero (machine : Machine) : machine.after 0 = machine := rfl

theorem after_succ (machine : Machine) (count : Nat) :
    machine.after (count + 1) = (machine.after count).step.machine := rfl

/-- Steps may be counted in parts. -/
theorem after_add (machine : Machine) (first second : Nat) :
    machine.after (first + second) = (machine.after first).after second := by
  induction second with
  | zero => rfl
  | succ second ih => rw [← Nat.add_assoc, after_succ, ih, after_succ]

/-- The first of some steps may be made apart. -/
theorem after_step (machine : Machine) (count : Nat) :
    machine.step.machine.after count = machine.after (count + 1) := by
  rw [Nat.add_comm, after_add]
  rfl

/-- Whatever every step keeps holds after any number of them. -/
theorem after_keeps {Property : Machine → Prop} (initially : Property machine)
    (kept : ∀ before : Machine, Property before → Property before.step.machine) (count : Nat) :
    Property (machine.after count) := by
  induction count with
  | zero => exact initially
  | succ count ih => exact kept _ ih

theorem isPastEnd_iff (machine : Machine) :
    machine.isPastEnd ↔ machine.program[machine.registers.ip]? = none := by
  rw [isPastEnd, decide_eq_true_iff, Array.getElem?_eq_none_iff]

/-- Past the end of the program a step changes nothing and halts. -/
theorem step_of_isPastEnd (ended : machine.isPastEnd) :
    machine.step.machine = machine ∧ machine.step.outcome = .ok true := by
  have absent := machine.isPastEnd_iff.mp ended
  simp [step, absent]

/-- The stack pointer counts slots that are there. -/
def Housed (machine : Machine) : Prop := machine.registers.sp ≤ machine.stack.capacity

theorem Housed.afterWrite {after : Machine} (housed : machine.Housed)
    (write : machine.Write after) : after.Housed := by
  unfold Housed at housed ⊢
  cases write with
  | register target value => rwa [Registers.sp_write]
  | push value stack registers held pushed =>
    obtain ⟨room, rfl, rfl⟩ := Stack.push_eq_ok pushed
    exact Nat.le_trans (Registers.wrap_le _ _) (Nat.le_of_lt room)
  | pop value registers popped =>
    obtain ⟨-, -, rfl⟩ := Stack.pop_eq_ok popped
    exact Nat.le_trans (Registers.wrap_le _ _) (Nat.le_trans (Nat.sub_le _ 1) housed)
  | jump | store | print | fetch => exact housed

theorem Housed.after (housed : machine.Housed) (count : Nat) : (machine.after count).Housed :=
  after_keeps housed (fun before kept => before.step_writes.keeps kept fun _ _ write stays =>
    stays.afterWrite write) count

/-- A step of a housed machine finds every slot that it needs. -/
theorem Housed.step_ne_missingSlot (housed : machine.Housed) :
    machine.step.outcome ≠ .missingSlot := by
  unfold Housed at housed
  simp only [step]
  split
  · simp
  · intro missing
    have above := Stack.pop_eq_missingSlot_iff.mp (execute_missingSlot missing)
    simp only [fetched, Registers.sp_setIp] at above
    omega

end RegisterMachine.Machine
