import RegisterMachine.Proofs.Machine.Bounds

/-!
Every machine that a session can come to is within its bounds, and no call of a session needs a
stack slot that is not there.
-/

namespace RegisterMachine.Machine

variable {configuration : Configuration} {program : List Word} {sink : Sink}
  {start machine after : Machine}

theorem create_eq_ok (created : create configuration program sink = .ok start) :
    configuration.Valid ∧ start = fresh configuration program sink := by
  unfold create at created
  split at created
  · contradiction
  · rename_i accepted
    split at created
    · exact ⟨configuration.defect?_eq_none_iff.mp accepted, (Except.ok.inj created).symm⟩
    · contradiction

theorem Bounded.returns_ne_missingSlot (bounded : machine.Bounded) {call : Call} {answer : Answer}
    (returned : machine.Returns call after answer) : ¬ answer.IsMissingSlot := by
  cases returned with
  | step => exact bounded.step_ne_missingSlot
  | execute word => exact bounded.execute_ne_missingSlot word
  | runFor budget =>
    refine Run.outcome_ne_missingSlot (Run.settle_ne_missingSlot ?_ budget)
    exact Run.drive_start_ne_missingSlot bounded budget
  | runFreely fuel run ended =>
    obtain ⟨rfl, -⟩ := (machine.run?_eq_some_iff fuel run).mp ended
    exact Run.outcome_ne_missingSlot (Run.drive_start_ne_missingSlot bounded fuel)

theorem reached_bounded (valid : configuration.Valid)
    (reached : (fresh configuration program sink).Reached machine) :
    machine.Shaped configuration program ∧ machine.Bounded :=
  ⟨reached.keeps (shaped_fresh valid program sink) fun _ _ write kept => write.shaped kept,
    reached.keeps (Bounded.fresh valid program sink) fun _ _ write kept => kept.afterWrite write⟩

/-- What the bounds of a machine mean for its next call: a push moves the stack pointer by one and
leaves the last slot alone, every live slot is there, a run stays within the bounds at every moment,
and whatever a call answers, it needs no slot outside the stack. -/
structure Safe (machine : Machine) : Prop where
  push_exact : ∀ value stack registers,
    machine.stack.push machine.registers value = .ok (stack, registers) →
      machine.registers.sp + 1 < machine.stack.capacity ∧
        registers.sp = machine.registers.sp + 1 ∧
          stack.slots.get? (machine.stack.capacity - 1) = some 0
  pop_present : machine.stack.pop machine.registers ≠ .missingSlot
  live_present : (machine.stack.live? machine.registers).isSome
  run_bounded : ∀ fuel, ((Run.start machine).drive fuel).machine.Bounded
  answers : ∀ call after answer, machine.Returns call after answer → ¬ answer.IsMissingSlot

theorem Bounded.safe (bounded : machine.Bounded) : machine.Safe where
  push_exact := fun _ _ _ pushed => bounded.push pushed
  pop_present := bounded.pop_ne_missingSlot
  live_present := bounded.live?_isSome
  run_bounded := fun fuel => Run.drive_bounded bounded fuel
  answers := fun _ _ _ returned => bounded.returns_ne_missingSlot returned

/-- Whatever a session asks of a machine, the machine keeps its sizes and its program, all it holds
fits in its width, and no call needs a slot outside the stack. -/
theorem reached_safe (created : create configuration program sink = .ok start)
    (reached : start.Reached machine) :
    machine.Shaped configuration program ∧ machine.Bounded ∧ machine.Safe := by
  obtain ⟨valid, rfl⟩ := create_eq_ok created
  obtain ⟨shaped, bounded⟩ := reached_bounded valid reached
  exact ⟨shaped, bounded, bounded.safe⟩

/-- The bounds hold where a machine is tightest: one bit, two slots, no memory, and calls until the
stack overflows. -/
theorem reached_safe_tight :
    let start := fresh ⟨1, 0, 2⟩ [0] {}
    let machine := (start.runFor 3).machine
    (start.runFor 3).outcome = .fault .stackOverflow ∧
      create ⟨1, 0, 2⟩ [0] {} = .ok start ∧ start.Reached machine ∧
        machine.Shaped ⟨1, 0, 2⟩ [0] ∧ machine.Bounded ∧ machine.Safe := by
  intro start machine
  have created : create ⟨1, 0, 2⟩ [0] {} = .ok start := by rfl
  have reached : start.Reached machine := .call .start (.runFor 3)
  exact ⟨by decide, created, reached, reached_safe created reached⟩

end RegisterMachine.Machine
