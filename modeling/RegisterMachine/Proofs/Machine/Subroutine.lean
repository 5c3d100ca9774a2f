import RegisterMachine.Proofs.Machine.Steps

/-!
Calls and returns over whole executions.

A step never changes a slot below the stack pointer. While the stack pointer stays above the slot of
a return address, that slot and those below it are therefore as the call left them, and the return
that takes the address goes back behind the call.
-/

namespace RegisterMachine.Machine

variable {machine : Machine} {configuration : Configuration} {program : List Word}

/-- An instruction writes to no slot below the stack pointer. -/
theorem perform_slot_below (instruction : Instruction) {index : Nat}
    (below : index < machine.registers.sp) :
    (machine.perform instruction).machine.stack.slots.get? index =
      machine.stack.slots.get? index := by
  cases instruction with
  | call | push =>
    simp only [perform]
    split
    · rename_i stack registers pushed
      apply (Stack.get?_push index pushed).trans
      exact if_neg (by omega)
    · rfl
  | ret | loadMemory | storeMemory | arithmetic | pop | jumpIfLess =>
    simp only [perform]
    split <;> rfl
  | move | loadValue | shift | output | halt => rfl

theorem step_slot_below {index : Nat} (below : index < machine.registers.sp) :
    machine.step.machine.stack.slots.get? index = machine.stack.slots.get? index := by
  simp only [step]
  split
  · rfl
  · rename_i word present
    simp only [execute]
    split
    · have still : index < (machine.fetched word).registers.sp := below
      exact perform_slot_below _ still
    · rfl

/-- Slots stay as they are while the stack pointer stays above them. -/
theorem after_slot_below {index count : Nat}
    (above : ∀ moment < count, index < (machine.after moment).registers.sp) :
    (machine.after count).stack.slots.get? index = machine.stack.slots.get? index := by
  induction count with
  | zero => rfl
  | succ count ih =>
    rw [after_succ, step_slot_below (above count (Nat.lt_succ_self count))]
    exact ih fun moment earlier => above moment (Nat.lt_succ_of_lt earlier)

theorem Shaped.after (shaped : machine.Shaped configuration program) (count : Nat) :
    (machine.after count).Shaped configuration program :=
  after_keeps shaped (fun before kept => before.step_writes.keeps kept fun _ _ write stays =>
    write.shaped stays) count

/-- A step of an assigned word does what its instruction does after the fetch. -/
theorem step_of_instruction {word : Word} {instruction : Instruction}
    (present : machine.program[machine.registers.ip]? = some word)
    (read : word.instruction? = some instruction) :
    machine.step.machine = ((machine.fetched word).perform instruction).machine ∧
      machine.step.outcome = ((machine.fetched word).perform instruction).outcome := by
  simp [step, present, execute, read]

/-- A call leaves its return address in the slot that it fills. -/
theorem step_call {word : Word} (present : machine.program[machine.registers.ip]? = some word)
    (calls : word.opcode? = some .cal) (room : machine.registers.sp + 1 < machine.stack.capacity) :
    machine.step.outcome = .ok false ∧
      machine.step.machine.stack.slots.get? machine.registers.sp =
        some (machine.registers.wrap (machine.registers.ip + 1)) := by
  have read : word.instruction? = some (.call word.address) := by
    rw [Word.instruction?, calls]
    rfl
  obtain ⟨moved, answered⟩ := step_of_instruction present read
  rw [moved, answered]
  simp only [perform]
  split
  · rename_i stack registers pushed
    exact ⟨rfl, (Stack.get?_push machine.registers.sp pushed).trans (if_pos rfl)⟩
  · rename_i reason refused
    have full : machine.stack.capacity ≤ machine.registers.sp + 1 :=
      ((Stack.push_eq_error_iff reason).mp refused).1
    omega

/-- A return goes to the address in the top slot, which it no longer counts. -/
theorem step_return {word : Word} {address : Nat}
    (present : machine.program[machine.registers.ip]? = some word)
    (returns : word.opcode? = some .ret) (filled : machine.registers.sp ≠ 0)
    (top : machine.stack.slots.get? (machine.registers.sp - 1) = some address) :
    machine.step.outcome = .ok false ∧
      machine.step.machine.registers.ip = machine.registers.wrap address ∧
        machine.step.machine.registers.sp = machine.registers.wrap (machine.registers.sp - 1) := by
  have read : word.instruction? = some .ret := by
    rw [Word.instruction?, returns]
    rfl
  have found : (machine.fetched word).stack.pop (machine.fetched word).registers =
      .ok (address, (machine.fetched word).registers.setSp (machine.registers.sp - 1)) := by
    simp only [Stack.pop, fetched, Registers.sp_setIp, filled, if_false, top]
  obtain ⟨moved, answered⟩ := step_of_instruction present read
  rw [moved, answered]
  simp only [perform, found]
  exact ⟨rfl, rfl, rfl⟩

/-- A machine of a valid configuration, in whatever state it is, steps a call. After any number of
further steps, faulting or not, that keep the stack pointer above the slot of the return address, a
return that finds it just above goes back behind the call, and the stack is as it was before. -/
theorem call_returns (valid : configuration.Valid)
    (shaped : machine.Shaped configuration program) {call back : Word} {count : Nat}
    (present : machine.program[machine.registers.ip]? = some call)
    (calls : call.opcode? = some .cal)
    (room : machine.registers.sp < configuration.stack - 1)
    (above : ∀ moment ≤ count,
      machine.registers.sp + 1 ≤ (machine.after (moment + 1)).registers.sp)
    (level : (machine.after (count + 1)).registers.sp = machine.registers.sp + 1)
    (found : machine.program[(machine.after (count + 1)).registers.ip]? = some back)
    (returns : back.opcode? = some .ret) :
    machine.step.outcome = .ok false ∧ (machine.after (count + 1)).step.outcome = .ok false ∧
      (machine.after (count + 2)).registers.ip =
        (machine.registers.ip + 1) % modulus configuration.width ∧
      (machine.after (count + 2)).registers.sp = machine.registers.sp ∧
        ∀ index < machine.registers.sp,
          (machine.after (count + 2)).stack.slots.get? index =
            machine.stack.slots.get? index := by
  have reach := valid.2.2
  have later := shaped.after (count + 1)
  have stepped : machine.after (count + 1) = (machine.after 1).after count := by
    rw [← after_add, Nat.add_comm]
  obtain ⟨called, kept⟩ := step_call present calls (by rw [shaped.capacity_eq]; omega)
  -- The slot of the return address stays below the stack pointer until the return is stepped.
  have top : (machine.after (count + 1)).stack.slots.get? machine.registers.sp =
      some (machine.registers.wrap (machine.registers.ip + 1)) := by
    rw [stepped, after_slot_below, ← kept]
    · rfl
    · intro moment earlier
      have high := above moment (Nat.le_of_lt earlier)
      rw [← after_add, Nat.add_comm]
      omega
  have same : (machine.after (count + 1)).program = machine.program := by
    rw [later.program_eq, shaped.program_eq]
  obtain ⟨returned, place, lower⟩ := step_return (same ▸ found) returns (by omega)
    (by rw [level]; exact top)
  refine ⟨called, returned, ?_, ?_, ?_⟩
  · rw [after_succ, place, Registers.wrap_eq_mod, Registers.wrap_eq_mod, later.width_eq, shaped.width_eq,
      Nat.mod_mod]
  · rw [after_succ, lower, Registers.wrap_eq_mod, later.width_eq, level, Nat.add_sub_cancel,
      Nat.mod_eq_of_lt (by omega)]
  · intro index below
    apply after_slot_below
    intro moment earlier
    cases moment with
    | zero => exact below
    | succ moment =>
      have high := above moment (by omega)
      omega

/-- A call within a call, with a value on the stack below them, returns twice. -/
theorem call_returns_nested :
    let configuration : Configuration := ⟨8, 0, 4⟩
    let machine := (fresh configuration [8, 192, 12, 320, 1, 1] {}).after 1
    machine.registers.sp = 1 ∧ (machine.after 2).registers.sp = 3 ∧
      machine.step.outcome = .ok false ∧ (machine.after (2 + 1)).step.outcome = .ok false ∧
      (machine.after (2 + 2)).registers.ip =
        (machine.registers.ip + 1) % modulus configuration.width ∧
      (machine.after (2 + 2)).registers.sp = machine.registers.sp ∧
        ∀ index < machine.registers.sp,
          (machine.after (2 + 2)).stack.slots.get? index = machine.stack.slots.get? index := by
  intro configuration machine
  have valid : configuration.Valid := by decide
  have shaped : machine.Shaped configuration [8, 192, 12, 320, 1, 1] :=
    (shaped_fresh valid _ {}).after 1
  have present : machine.program[machine.registers.ip]? = some 192 := by decide +kernel
  have room : machine.registers.sp < configuration.stack - 1 := by decide +kernel
  have above : ∀ moment ≤ 2,
      machine.registers.sp + 1 ≤ (machine.after (moment + 1)).registers.sp := by decide +kernel
  have level : (machine.after (2 + 1)).registers.sp = machine.registers.sp + 1 := by
    decide +kernel
  have found : machine.program[(machine.after (2 + 1)).registers.ip]? = some 1 := by
    decide +kernel
  refine ⟨by decide +kernel, by decide +kernel, ?_⟩
  exact call_returns valid shaped present (by decide) room above level found (by decide)

end RegisterMachine.Machine
