import RegisterMachine.Proofs.Machine.System

/-!
Slots at and above the stack pointer take no part in what a machine does.

Two machines with the same live slots answer every operation alike, and afterwards the live slots
are the same again. This holds wherever the stack pointer is.
-/

namespace RegisterMachine

namespace Stack

/-- Two stacks of one size that have the same slots below some index. -/
structure SameBelow (count : Nat) (first second : Stack) : Prop where
  capacity_eq : second.capacity = first.capacity
  slot_eq : ∀ index < count, second.slots.get? index = first.slots.get? index

namespace SameBelow

variable {first second : Stack} {registers : Registers}

theorem mono {count fewer : Nat} (same : SameBelow count first second) (fewer_le : fewer ≤ count) :
    SameBelow fewer first second :=
  ⟨same.capacity_eq, fun index below => same.slot_eq index (Nat.lt_of_lt_of_le below fewer_le)⟩

/-- A push fills the same slot on both sides, or overflows on both. -/
theorem push (same : SameBelow registers.sp first second) (value : Nat) :
    (∃ left right moved, first.push registers value = .ok (left, moved) ∧
      second.push registers value = .ok (right, moved) ∧ SameBelow moved.sp left right) ∨
    ∃ reason, first.push registers value = .error reason ∧
      second.push registers value = .error reason := by
  by_cases room : registers.sp + 1 < first.capacity
  · have other_room : registers.sp + 1 < second.capacity := same.capacity_eq ▸ room
    refine .inl ⟨_, _, _, dif_pos room, dif_pos other_room, same.capacity_eq, ?_⟩
    intro index below
    have low : index < registers.sp + 1 := Nat.lt_of_lt_of_le below (Registers.wrap_le _ _)
    rw [Cells.get?_set, Cells.get?_set]
    split
    · rfl
    · exact same.slot_eq index (by omega)
  · have other_full : ¬ registers.sp + 1 < second.capacity := same.capacity_eq ▸ room
    exact .inr ⟨_, dif_neg room, dif_neg other_full⟩

/-- A pop takes the same value on both sides, and leaves fewer live slots. -/
theorem pop (same : SameBelow registers.sp first second) :
    second.pop registers = first.pop registers := by
  unfold Stack.pop
  split
  · rfl
  · rw [same.slot_eq (registers.sp - 1) (by omega)]

theorem afterPop {value : Nat} {moved : Registers} (same : SameBelow registers.sp first second)
    (popped : first.pop registers = .ok (value, moved)) : SameBelow moved.sp first second := by
  obtain ⟨-, -, rfl⟩ := pop_eq_ok popped
  exact same.mono (Nat.le_trans (Registers.wrap_le _ _) (Nat.sub_le _ 1))

end SameBelow

end Stack

namespace Machine

/-- Two machines that differ only in slots at and above the stack pointer. -/
inductive SameLive (machine : Machine) : Machine → Prop where
  | restack {stack : Stack} (same : machine.stack.SameBelow machine.registers.sp stack) :
      SameLive machine { machine with stack := stack }

namespace SameLive

variable {machine other : Machine}

theorem isPastEnd (same : machine.SameLive other) : other.isPastEnd = machine.isPastEnd := by
  cases same
  rfl

/-- An instruction has the same outcome on both machines. -/
theorem perform (same : machine.SameLive other) (instruction : Instruction) :
    (machine.perform instruction).machine.SameLive (other.perform instruction).machine ∧
      (other.perform instruction).outcome = (machine.perform instruction).outcome := by
  cases same with
  | @restack stack same =>
    have written (target : Register) (value : Nat) :
        machine.stack.SameBelow (machine.registers.write target value).sp stack := by
      rwa [Registers.sp_write]
    cases instruction with
    | call target =>
      simp only [Machine.perform]
      obtain ⟨left, right, moved, pushed, also, still⟩ | ⟨reason, pushed, also⟩ :=
        same.push machine.registers.ip
      · rw [pushed, also]
        exact ⟨.restack still, rfl⟩
      · rw [pushed, also]
        exact ⟨.restack same, rfl⟩
    | push rs =>
      simp only [Machine.perform]
      obtain ⟨left, right, moved, pushed, also, still⟩ | ⟨reason, pushed, also⟩ :=
        same.push (machine.registers.read rs)
      · rw [pushed, also]
        exact ⟨.restack still, rfl⟩
      · rw [pushed, also]
        exact ⟨.restack same, rfl⟩
    | ret =>
      simp only [Machine.perform, same.pop]
      split
      · rename_i address moved popped
        have still := same.afterPop popped
        exact ⟨.restack still, rfl⟩
      · exact ⟨.restack same, rfl⟩
      · exact ⟨.restack same, rfl⟩
    | pop rd =>
      simp only [Machine.perform, same.pop]
      split
      · rename_i value moved popped
        have still := same.afterPop popped
        rw [← Registers.sp_write moved rd value] at still
        exact ⟨.restack still, rfl⟩
      · exact ⟨.restack same, rfl⟩
      · exact ⟨.restack same, rfl⟩
    | move | loadValue | shift => exact ⟨.restack (written _ _), rfl⟩
    | loadMemory | arithmetic =>
      simp only [Machine.perform]
      split
      · exact ⟨.restack (written _ _), rfl⟩
      · exact ⟨.restack same, rfl⟩
    | storeMemory | jumpIfLess =>
      simp only [Machine.perform]
      split <;> exact ⟨.restack same, rfl⟩
    | output | halt => exact ⟨.restack same, rfl⟩

theorem execute (same : machine.SameLive other) (word : Word) :
    (machine.execute word).machine.SameLive (other.execute word).machine ∧
      (other.execute word).outcome = (machine.execute word).outcome := by
  unfold Machine.execute
  cases word.instruction? with
  | some instruction => exact same.perform instruction
  | none => exact ⟨same, rfl⟩

theorem step (same : machine.SameLive other) :
    machine.step.machine.SameLive other.step.machine ∧
      other.step.outcome = machine.step.outcome := by
  have fetched (word : Word) : (machine.fetched word).SameLive (other.fetched word) := by
    cases same with
    | restack same => exact .restack same
  have words : other.program[other.registers.ip]? = machine.program[machine.registers.ip]? := by
    cases same
    rfl
  simp only [Machine.step, words]
  cases machine.program[machine.registers.ip]? with
  | none => exact ⟨same, rfl⟩
  | some word => exact (fetched word).execute word

end SameLive

/-- Dead slots cannot be told apart by any operation. -/
theorem alike_sameLive : system.Alike system SameLive where
  isPastEnd same := same.isPastEnd
  step same := same.step
  execute same word := same.execute word
  push same value := by
    cases same with
    | @restack stack same =>
      simp only [system, pushValue]
      obtain ⟨left, right, moved, pushed, also, still⟩ | ⟨reason, pushed, also⟩ := same.push value
      · rw [pushed, also]
        exact ⟨.restack still, rfl⟩
      · rw [pushed, also]
        exact ⟨.restack same, rfl⟩
  pop same := by
    cases same with
    | @restack stack same =>
      simp only [system, popValue, same.pop]
      split
      · rename_i value moved popped
        have still := same.afterPop popped
        exact ⟨.restack still, rfl⟩
      · exact ⟨.restack same, rfl⟩
      · exact ⟨.restack same, rfl⟩

end Machine

end RegisterMachine
