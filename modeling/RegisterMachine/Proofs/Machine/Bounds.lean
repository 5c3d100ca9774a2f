import RegisterMachine.Proofs.Machine.Session

/-!
The invariant of a machine: everything it holds fits in its width, and the stack pointer never
counts the last slot.
-/

namespace RegisterMachine

namespace Registers

/-- All six registers hold values of the width. -/
structure Fit (registers : Registers) : Prop where
  general_lt : ∀ register, registers.read register < modulus registers.width
  ip_lt : registers.ip < modulus registers.width
  sp_lt : registers.sp < modulus registers.width

namespace Fit

variable {registers : Registers} (fit : registers.Fit)

include fit

theorem write (target : Register) (value : Nat) : (registers.write target value).Fit where
  general_lt := by
    intro register
    rw [read_write, width_write]
    split
    · exact registers.wrap_lt value
    · exact fit.general_lt register
  ip_lt := by
    rw [ip_write, width_write]
    exact fit.ip_lt
  sp_lt := by
    rw [sp_write, width_write]
    exact fit.sp_lt

theorem setIp (value : Nat) : (registers.setIp value).Fit where
  general_lt := by
    intro register
    rw [read_setIp]
    exact fit.general_lt register
  ip_lt := registers.wrap_lt value
  sp_lt := fit.sp_lt

theorem setSp (value : Nat) : (registers.setSp value).Fit where
  general_lt := by
    intro register
    rw [read_setSp]
    exact fit.general_lt register
  ip_lt := fit.ip_lt
  sp_lt := registers.wrap_lt value

end Fit

end Registers

namespace Stack

variable {stack pushedStack : Stack} {registers after : Registers} {value : Nat}

/-- A push needs two free slots, fills the lower one and moves the stack pointer. -/
theorem push_eq_ok (pushed : stack.push registers value = .ok (pushedStack, after)) :
    ∃ room : registers.sp + 1 < stack.capacity,
      pushedStack = ⟨stack.slots.set registers.sp value (Nat.lt_of_succ_lt room)⟩ ∧
        after = registers.setSp (registers.sp + 1) := by
  unfold push at pushed
  split at pushed
  · rename_i room
    obtain ⟨rfl, rfl⟩ := Prod.mk.inj (Except.ok.inj pushed)
    exact ⟨room, rfl, rfl⟩
  · contradiction

/-- A push fills the slot at the stack pointer and leaves the others alone. -/
theorem get?_push (index : Nat) (pushed : stack.push registers value = .ok (pushedStack, after)) :
    pushedStack.slots.get? index =
      if index = registers.sp then some value else stack.slots.get? index := by
  obtain ⟨room, rfl, rfl⟩ := push_eq_ok pushed
  exact Cells.get?_set stack.slots registers.sp value index (Nat.lt_of_succ_lt room)

/-- A push overflows where only the last slot is free. -/
theorem push_eq_error_iff (reason : Fault) : stack.push registers value = .error reason ↔
    stack.capacity ≤ registers.sp + 1 ∧ reason = .stackOverflow := by
  unfold push capacity
  split
  · simp only [reduceCtorEq, false_iff]
    omega
  · rename_i full
    constructor
    · intro refused
      exact ⟨Nat.le_of_not_lt full, (Except.error.inj refused).symm⟩
    · rintro ⟨-, rfl⟩
      rfl

/-- A pop only moves the stack pointer. -/
theorem pop_eq_ok (popped : stack.pop registers = .ok (value, after)) :
    registers.sp ≠ 0 ∧ stack.slots.get? (registers.sp - 1) = some value ∧
      after = registers.setSp (registers.sp - 1) := by
  unfold pop at popped
  split at popped
  · contradiction
  · rename_i counted
    split at popped
    · rename_i found present
      obtain ⟨rfl, rfl⟩ := Prod.mk.inj (Outcome.ok.inj popped)
      exact ⟨counted, present, rfl⟩
    · contradiction

/-- A pop underflows where no slot is live. -/
theorem pop_eq_fault_iff (reason : Fault) : stack.pop registers = .fault reason ↔
    registers.sp = 0 ∧ reason = .stackUnderflow := by
  unfold pop
  split
  · rename_i empty
    constructor
    · intro refused
      exact ⟨empty, (Outcome.fault.inj refused).symm⟩
    · rintro ⟨-, rfl⟩
      rfl
  · split <;> simp_all

/-- A slot is missing only where the stack pointer has left the stack. -/
theorem pop_eq_missingSlot_iff :
    stack.pop registers = .missingSlot ↔ stack.capacity < registers.sp := by
  unfold pop capacity
  split
  · simp only [reduceCtorEq, false_iff]
    omega
  · split
    · rename_i value present
      simp only [reduceCtorEq, false_iff]
      intro above
      have absent := (stack.slots.get?_eq_none_iff (registers.sp - 1)).mpr (by omega)
      rw [present] at absent
      contradiction
    · rename_i counted absent
      have outside := (stack.slots.get?_eq_none_iff (registers.sp - 1)).mp absent
      simp only [true_iff]
      omega

theorem live?_isSome_iff : (stack.live? registers).isSome ↔ registers.sp ≤ stack.capacity := by
  unfold live?
  split <;> simp_all

end Stack

namespace Machine

/-- The sizes and the program are those that the machine was built from. -/
structure Shaped (configuration : Configuration) (program : List Word) (machine : Machine) :
    Prop where
  width_eq : machine.registers.width = configuration.width
  size_eq : machine.memory.size = configuration.memory
  capacity_eq : machine.stack.capacity = configuration.stack
  program_eq : machine.program = program.toArray

/-- Registers, cells and slots, the dead ones included, hold values of the width, the stack pointer
leaves out the last slot, and that slot is as it was in the beginning. -/
structure Bounded (machine : Machine) : Prop where
  registers_fit : machine.registers.Fit
  cell_lt : ∀ address value, machine.memory.cells.get? address = some value →
    value < modulus machine.registers.width
  slot_lt : ∀ index value, machine.stack.slots.get? index = some value →
    value < modulus machine.registers.width
  sp_lt : machine.registers.sp < machine.stack.capacity
  capacity_le : machine.stack.capacity ≤ modulus machine.registers.width
  last_zero : machine.stack.slots.get? (machine.stack.capacity - 1) = some 0

theorem Write.shaped {configuration : Configuration} {program : List Word}
    {machine after : Machine} (write : machine.Write after)
    (shaped : machine.Shaped configuration program) : after.Shaped configuration program := by
  cases write with
  | register target value => exact { shaped with width_eq := by simp [shaped.width_eq] }
  | jump address => exact { shaped with width_eq := shaped.width_eq }
  | store source address memory stored =>
    exact { shaped with size_eq := (Memory.size_write stored).trans shaped.size_eq }
  | push value stack registers held pushed =>
    obtain ⟨room, rfl, rfl⟩ := Stack.push_eq_ok pushed
    exact { shaped with width_eq := shaped.width_eq, capacity_eq := shaped.capacity_eq }
  | pop value registers popped =>
    obtain ⟨-, -, rfl⟩ := Stack.pop_eq_ok popped
    exact { shaped with width_eq := shaped.width_eq }
  | print bytes => exact { shaped with }
  | fetch word => exact { shaped with width_eq := shaped.width_eq }

/-- A value loses its high bits on the way into a register, wherever it comes from. -/
theorem Write.fit {machine after : Machine} (write : machine.Write after)
    (fit : machine.registers.Fit) : after.registers.Fit := by
  cases write with
  | register target value => exact fit.write target value
  | jump address => exact fit.setIp address
  | push value stack registers held pushed =>
    obtain ⟨-, -, rfl⟩ := Stack.push_eq_ok pushed
    exact fit.setSp _
  | pop value registers popped =>
    obtain ⟨-, -, rfl⟩ := Stack.pop_eq_ok popped
    exact fit.setSp _
  | fetch word => exact fit.setIp _
  | store | print => exact fit

/-- A fresh machine has the sizes of its configuration, whose width needs no clamping. -/
theorem shaped_fresh {configuration : Configuration} (valid : configuration.Valid)
    (program : List Word) (sink : Sink) :
    (fresh configuration program sink).Shaped configuration program where
  width_eq := by
    have least := valid.1.1
    have most := valid.1.2
    simp only [fresh, Registers.ofWidth]
    omega
  size_eq := rfl
  capacity_eq := rfl
  program_eq := rfl

namespace Bounded

theorem fresh {configuration : Configuration} (valid : configuration.Valid)
    (program : List Word) (sink : Sink) : (fresh configuration program sink).Bounded := by
  have shaped := shaped_fresh valid program sink
  have positive := modulus_pos configuration.width
  have least := valid.2.1
  have zero_of_zeros {size index value : Nat} (found : (Cells.zeros size).get? index = some value) :
      value = 0 := by
    rw [Cells.get?_zeros] at found
    split at found
    · exact (Option.some.inj found).symm
    · contradiction
  constructor
  · constructor
    · intro register
      rw [shaped.width_eq]
      cases register <;> exact positive
    · exact shaped.width_eq ▸ positive
    · exact shaped.width_eq ▸ positive
  · intro address value found
    rw [shaped.width_eq, zero_of_zeros found]
    exact positive
  · intro index value found
    rw [shaped.width_eq, zero_of_zeros found]
    exact positive
  · exact least
  · rw [shaped.width_eq]
    exact valid.2.2
  · exact (Cells.get?_zeros _ _).trans (if_pos (Nat.sub_lt least Nat.one_pos))

variable {machine : Machine} (bounded : machine.Bounded)

include bounded

/-- The bound on the stack keeps the stack pointer from wrapping. -/
theorem push {value : Nat} {stack : Stack} {registers : Registers}
    (pushed : machine.stack.push machine.registers value = .ok (stack, registers)) :
    machine.registers.sp + 1 < machine.stack.capacity ∧
      registers.sp = machine.registers.sp + 1 ∧
        stack.slots.get? (machine.stack.capacity - 1) = some 0 := by
  obtain ⟨room, rfl, rfl⟩ := Stack.push_eq_ok pushed
  have reach := bounded.capacity_le
  refine ⟨room, ?_, ?_⟩
  · rw [Registers.sp_setSp, Registers.wrap_of_lt (by omega)]
  · rw [Cells.get?_set, if_neg (by omega)]
    exact bounded.last_zero

theorem afterPush {value : Nat} {stack : Stack} {registers : Registers}
    (small : value < modulus machine.registers.width)
    (pushed : machine.stack.push machine.registers value = .ok (stack, registers)) :
    Bounded { machine with stack := stack, registers := registers } := by
  have facts := bounded.push pushed
  obtain ⟨room, rfl, rfl⟩ := Stack.push_eq_ok pushed
  constructor
  · exact bounded.registers_fit.setSp _
  · exact bounded.cell_lt
  · intro index other found
    rw [Cells.get?_set] at found
    split at found
    · obtain rfl := Option.some.inj found
      exact small
    · exact bounded.slot_lt index other found
  · rw [facts.2.1]
    exact room
  · exact bounded.capacity_le
  · exact facts.2.2

theorem afterPop {value : Nat} {registers : Registers}
    (popped : machine.stack.pop machine.registers = .ok (value, registers)) :
    Bounded { machine with registers := registers } := by
  obtain ⟨-, -, rfl⟩ := Stack.pop_eq_ok popped
  have below := bounded.registers_fit.sp_lt
  have inside := bounded.sp_lt
  refine ⟨bounded.registers_fit.setSp _, bounded.cell_lt, bounded.slot_lt, ?_,
    bounded.capacity_le, bounded.last_zero⟩
  rw [Registers.sp_setSp, Registers.wrap_of_lt (by omega)]
  exact Nat.lt_of_le_of_lt (Nat.sub_le _ 1) inside

theorem afterStore {value address : Nat} {memory : Memory}
    (small : value < modulus machine.registers.width)
    (stored : machine.memory.write address value = .ok memory) :
    Bounded { machine with memory := memory } := by
  refine { bounded with cell_lt := ?_ }
  intro other found present
  rw [Memory.get?_write other stored] at present
  split at present
  · obtain rfl := Option.some.inj present
    exact small
  · exact bounded.cell_lt other found present

theorem afterWrite {after : Machine} (write : machine.Write after) : after.Bounded := by
  have fit := bounded.registers_fit
  cases write with
  | register target value =>
    refine ⟨fit.write target value, ?_, ?_, ?_, ?_, bounded.last_zero⟩
    · rw [Registers.width_write]
      exact bounded.cell_lt
    · rw [Registers.width_write]
      exact bounded.slot_lt
    · rw [Registers.sp_write]
      exact bounded.sp_lt
    · rw [Registers.width_write]
      exact bounded.capacity_le
  | jump address => exact { bounded with registers_fit := fit.setIp address }
  | store source address memory stored => exact bounded.afterStore (fit.general_lt source) stored
  | push value stack registers held pushed =>
    refine bounded.afterPush ?_ pushed
    obtain rfl | ⟨source, rfl⟩ := held
    · exact fit.ip_lt
    · exact fit.general_lt source
  | pop value registers popped => exact bounded.afterPop popped
  | print bytes => exact { bounded with }
  | fetch word => exact { bounded with registers_fit := fit.setIp _ }

/-- The stack pointer stays within the stack, so a pop finds its slot. -/
theorem pop_ne_missingSlot : machine.stack.pop machine.registers ≠ .missingSlot := by
  intro missing
  have above := Stack.pop_eq_missingSlot_iff.mp missing
  have inside := bounded.sp_lt
  omega

theorem live?_isSome : (machine.stack.live? machine.registers).isSome :=
  Stack.live?_isSome_iff.mpr (Nat.le_of_lt bounded.sp_lt)

end Bounded

/-- Only a pop can need a slot that is not there. -/
theorem perform_missingSlot {machine : Machine} {instruction : Instruction}
    (missing : (machine.perform instruction).outcome = .missingSlot) :
    machine.stack.pop machine.registers = .missingSlot := by
  cases instruction with
  | ret | pop =>
    simp only [perform] at missing
    split at missing
    · contradiction
    · contradiction
    · assumption
  | call | loadMemory | storeMemory | arithmetic | push | jumpIfLess =>
    simp only [perform] at missing
    split at missing <;> contradiction
  | output =>
    simp only [perform] at missing
    split at missing <;> contradiction
  | _ => contradiction

theorem execute_missingSlot {machine : Machine} {word : Word}
    (missing : (machine.execute word).outcome = .missingSlot) :
    machine.stack.pop machine.registers = .missingSlot := by
  unfold execute at missing
  split at missing
  · exact perform_missingSlot missing
  · contradiction

namespace Bounded

variable {machine : Machine} (bounded : machine.Bounded)

include bounded

theorem execute_ne_missingSlot (word : Word) : (machine.execute word).outcome ≠ .missingSlot :=
  fun missing => bounded.pop_ne_missingSlot (execute_missingSlot missing)

theorem step_ne_missingSlot : machine.step.outcome ≠ .missingSlot := by
  simp only [step]
  split
  · intro missing
    contradiction
  · rename_i word present
    exact (bounded.afterWrite (.fetch word)).execute_ne_missingSlot word

end Bounded

end Machine

namespace Run

variable {run : Run} (bounded : run.machine.Bounded)

include bounded

theorem advance_bounded : run.advance.machine.Bounded :=
  run.advance_writes.keeps bounded fun _ _ write kept => kept.afterWrite write

theorem advance_ne_missingSlot : run.advance.stop? ≠ some .missingSlot := by
  simp only [advance]
  split
  · simp [leave]
  · split
    · split <;> simp
    · simp
    · rename_i missing
      exact absurd missing bounded.step_ne_missingSlot

theorem drive_bounded (fuel : Nat) : (run.drive fuel).machine.Bounded :=
  (run.drive_writes fuel).keeps bounded fun _ _ write kept => kept.afterWrite write

/-- A run within the bounds never ends for want of a slot. -/
theorem drive_ne_missingSlot (going : run.stop? ≠ some .missingSlot) (fuel : Nat) :
    (run.drive fuel).stop? ≠ some .missingSlot := by
  induction fuel generalizing run with
  | zero => exact going
  | succ fuel ih =>
    simp only [drive]
    split
    · exact going
    · exact ih (advance_bounded bounded) (advance_ne_missingSlot bounded)

omit bounded in
/-- A run that starts within the bounds has not stopped yet. -/
theorem drive_start_ne_missingSlot {machine : Machine} (bounded : machine.Bounded) (fuel : Nat) :
    ((start machine).drive fuel).stop? ≠ some .missingSlot :=
  drive_ne_missingSlot bounded (by simp [start]) fuel

omit bounded in
theorem settle_ne_missingSlot (going : run.stop? ≠ some .missingSlot) (budget : Nat) :
    (run.settle budget).stop? ≠ some .missingSlot := by
  unfold settle
  split
  · exact going
  · split
    · simp [leave]
    · exact going

omit bounded in
theorem outcome_ne_missingSlot (going : run.stop? ≠ some .missingSlot) :
    run.outcome ≠ .missingSlot := by
  unfold outcome
  split <;> simp_all

end Run

end RegisterMachine
