import RegisterMachine.Proofs.Machine.Growth
import RegisterMachine.Proofs.Machine.Pointer
import RegisterMachine.Proofs.Machine.Refinement
import RegisterMachine.Proofs.Machine.Verdicts

/-!
Programs that only call.

Where every word is a call to an address of the program, no step returns and none leaves the
program, so each step fills one more slot. The last slot is never filled: a fresh machine makes one
call fewer than its stack has slots, and the next one overflows.
-/

namespace RegisterMachine

/-- There are words, all of them are calls, and every call goes to an address of the program. -/
structure Calling (program : List Word) : Prop where
  filled : program ≠ []
  calls : ∀ word ∈ program, word.opcode? = some .cal
  inside : ∀ word ∈ program, word.address < program.length

theorem calling_iff (program : List Word) :
    Calling program ↔ program ≠ [] ∧
      program.all fun word => word.opcode? = some .cal ∧ word.address < program.length := by
  simp only [List.all_eq_true, decide_eq_true_eq]
  constructor
  · intro calling
    exact ⟨calling.filled, fun word member =>
      ⟨calling.calls word member, calling.inside word member⟩⟩
  · rintro ⟨filled, each⟩
    exact ⟨filled, fun word member => (each word member).1, fun word member => (each word member).2⟩

instance (program : List Word) : Decidable (Calling program) :=
  decidable_of_iff _ (calling_iff program).symm

/-- The address of each call of a run, counted from zero: the first one is at the start, and every
other one is where the one before it goes, as far as the width can count. -/
def callSite (width : Nat) (program : List Word) : Nat → Nat
  | 0 => 0
  | count + 1 =>
    match program[callSite width program count]? with
    | some word => word.address % modulus width
    | none => callSite width program count

/-- The return addresses of the first calls of a run, in the order in which they are made. -/
def returnAddresses (width : Nat) (program : List Word) (count : Nat) : List Nat :=
  (List.range count).map fun call => (callSite width program call + 1) % modulus width

namespace Machine

/-- A run that was started here made one call fewer than there are slots and faulted at the next
one. The stack has the return addresses, and nothing but the stack and its pointers has changed. -/
structure Overflows (machine : Machine) (width slots : Nat) (program : List Word) (run : Run) :
    Prop where
  outcome : run.outcome = .fault .stackOverflow
  steps : run.steps = slots - 1
  addresses : run.addresses = (List.range slots).map (callSite width program)
  sp_eq : run.machine.registers.sp = slots - 1
  live_eq : run.machine.stack.live? run.machine.registers =
    some (returnAddresses width program (slots - 1))
  blamed : ∃ word, program[callSite width program (slots - 1)]? = some word ∧
    run.machine.lastFetched = some (callSite width program (slots - 1), word)
  general_eq : ∀ register,
    run.machine.registers.read register = machine.registers.read register
  memory_eq : run.machine.memory = machine.memory
  sink_eq : run.machine.sink = machine.sink

/-- So many calls have been made since a machine was fresh, and nothing else has happened. -/
structure Called (machine : Machine) (configuration : Configuration) (program : List Word)
    (sink : Sink) (count : Nat) : Prop where
  shaped : machine.Shaped configuration program
  ip_eq : machine.registers.ip = callSite configuration.width program count
  sp_eq : machine.registers.sp = count
  take_eq : machine.stack.slots.take count =
    returnAddresses configuration.width program count
  general_eq : ∀ register, machine.registers.read register = 0
  memory_eq : machine.memory = .ofSize configuration.memory
  sink_eq : machine.sink = sink

end Machine

section Calls

variable {program : List Word} {configuration : Configuration} {sink : Sink} {machine : Machine}
  {count : Nat}

/-- No call is at an address outside the program. -/
theorem Calling.callSite_lt (calling : Calling program) (width count : Nat) :
    callSite width program count < program.length := by
  induction count with
  | zero => exact List.length_pos_of_ne_nil calling.filled
  | succ count ih =>
    have inside := calling.inside _ (List.getElem_mem ih)
    rw [callSite, List.getElem?_eq_getElem ih]
    exact Nat.lt_of_le_of_lt (Nat.mod_le _ _) inside

namespace Machine

/-- A step of a call with room pushes the next address, goes to its target, and changes nothing
else. -/
theorem step_of_call {word : Word} (present : machine.program[machine.registers.ip]? = some word)
    (calls : word.opcode? = some .cal) (room : machine.registers.sp + 1 < machine.stack.capacity) :
    ∃ stack, machine.stack.push (machine.fetched word).registers
        (machine.registers.wrap (machine.registers.ip + 1)) =
          .ok (stack, (machine.fetched word).registers.setSp (machine.registers.sp + 1)) ∧
      machine.step.outcome = .ok false ∧
      machine.step.machine =
        { machine.fetched word with
          stack := stack
          registers := ((machine.fetched word).registers.setSp (machine.registers.sp + 1)).setIp
            word.address } := by
  have read : word.instruction? = some (.call word.address) := by
    rw [Word.instruction?, calls]
    rfl
  have pushed : (machine.fetched word).stack.push (machine.fetched word).registers
      (machine.fetched word).registers.ip = .ok (_, _) := dif_pos room
  refine ⟨_, pushed, ?_⟩
  obtain ⟨moved, answered⟩ := step_of_instruction present read
  rw [moved, answered]
  simp only [perform, pushed]
  exact ⟨rfl, rfl⟩

/-- A step of a call without room only fetches it. -/
theorem step_of_call_full {word : Word}
    (present : machine.program[machine.registers.ip]? = some word)
    (calls : word.opcode? = some .cal) (full : machine.stack.capacity ≤ machine.registers.sp + 1) :
    machine.step.outcome = .fault .stackOverflow ∧
      machine.step.machine = machine.fetched word := by
  have causes : (machine.fetched word).Causes word .stackOverflow := ⟨.inl calls, full⟩
  simp only [step, present]
  exact execute_of_causes (fun _ => Fault.noConfusion) (by simp) causes

namespace Called

theorem fresh (valid : configuration.Valid) (program : List Word) (sink : Sink) :
    (fresh configuration program sink).Called configuration program sink 0 where
  shaped := shaped_fresh valid program sink
  ip_eq := rfl
  sp_eq := rfl
  take_eq := rfl
  general_eq := fun register => by cases register <;> rfl
  memory_eq := rfl
  sink_eq := rfl

variable (called : machine.Called configuration program sink count)

include called

/-- The next word is there, and it is a call. -/
theorem present (calling : Calling program) :
    ∃ word, program[callSite configuration.width program count]? = some word ∧
      machine.program[machine.registers.ip]? = some word ∧ word.opcode? = some .cal := by
  have small := calling.callSite_lt configuration.width count
  refine ⟨_, List.getElem?_eq_getElem small, ?_, calling.calls _ (List.getElem_mem small)⟩
  rw [called.ip_eq, getElem?_program called.shaped.program_eq, List.getElem?_eq_getElem small]

/-- One more call is made as long as there is room. -/
theorem succ (valid : configuration.Valid) (calling : Calling program)
    (room : count + 1 < configuration.stack) :
    machine.step.outcome = .ok false ∧
      machine.step.machine.Called configuration program sink (count + 1) := by
  obtain ⟨word, found, present, calls⟩ := called.present calling
  have width := called.shaped.width_eq
  have space : machine.registers.sp + 1 < machine.stack.capacity := by
    rw [called.sp_eq, called.shaped.capacity_eq]
    exact room
  obtain ⟨stack, pushed, completed, moved⟩ := step_of_call present calls space
  refine ⟨completed, ?_⟩
  rw [moved]
  constructor
  case shaped =>
    exact { called.shaped with
      width_eq := width
      capacity_eq := (Stack.capacity_push pushed).trans called.shaped.capacity_eq }
  case ip_eq =>
    rw [callSite, found, ← width]
    exact Registers.wrap_eq_mod _ _
  case sp_eq =>
    have reach := valid.2.2
    rw [Registers.sp_setIp, Registers.sp_setSp, called.sp_eq, fetched, Registers.wrap_eq_mod,
      Registers.width_setIp, width, Nat.mod_eq_of_lt (by omega)]
  case take_eq =>
    have taken := Stack.take_push pushed
    rw [fetched, Registers.sp_setIp, called.sp_eq, called.take_eq, called.ip_eq, Registers.wrap_eq_mod,
      width] at taken
    rw [returnAddresses, List.range_succ, List.map_append]
    exact taken
  case general_eq =>
    intro register
    rw [Registers.read_setIp, Registers.read_setSp, fetched, Registers.read_setIp]
    exact called.general_eq register
  case memory_eq => exact called.memory_eq
  case sink_eq => exact called.sink_eq

/-- The live slots are the return addresses. -/
theorem live?_eq (housed : count ≤ configuration.stack) :
    machine.stack.live? machine.registers =
      some (returnAddresses configuration.width program count) := by
  rw [Stack.live?, called.sp_eq, called.shaped.capacity_eq, if_pos housed, called.take_eq]

end Called

/-- As many calls are made as there are slots but the last. -/
theorem called_after (valid : configuration.Valid) (calling : Calling program) (sink : Sink)
    (room : count + 1 ≤ configuration.stack) :
    (fresh configuration program sink).Completes count ∧
      ((fresh configuration program sink).after count).Called configuration program sink count := by
  induction count with
  | zero => exact ⟨fun index small => absurd small (Nat.not_lt_zero index), .fresh valid _ _⟩
  | succ count ih =>
    obtain ⟨completed, called⟩ := ih (Nat.le_of_lt room)
    obtain ⟨further, next⟩ := called.succ valid calling room
    exact ⟨completed.succ further, next⟩

/-- After the last of these calls the stack is full. -/
theorem Called.overflows (called : machine.Called configuration program sink count)
    (calling : Calling program) (full : configuration.stack = count + 1) :
    ∃ word, program[callSite configuration.width program count]? = some word ∧
      machine.step.outcome = .fault .stackOverflow ∧
        machine.step.machine = machine.fetched word := by
  obtain ⟨word, found, present, calls⟩ := called.present calling
  have housed : machine.stack.capacity ≤ machine.registers.sp + 1 := by
    rw [called.shaped.capacity_eq, called.sp_eq, full]
  exact ⟨word, found, step_of_call_full present calls housed⟩

end Machine

end Calls

section Runs

variable {machine : Machine} {count : Nat} {reason : Fault}

namespace Machine

/-- Steps that go well are those of a run that is not over. -/
theorem Completes.drive (completed : machine.Completes count) :
    ((Run.start machine).drive count).stop? = none ∧
      ((Run.start machine).drive count).machine = machine.after count := by
  induction count with
  | zero => exact ⟨rfl, rfl⟩
  | succ count ih =>
    obtain ⟨unstopped, place⟩ := ih fun index small => completed index (Nat.lt_succ_of_lt small)
    have inside := completed.inside (Nat.lt_succ_self count)
    have further := completed count (Nat.lt_succ_self count)
    rw [Run.drive_add, Run.drive, unstopped]
    dsimp only [Run.drive]
    rw [Run.advance, place, if_neg inside]
    dsimp only
    rw [further]
    exact ⟨rfl, rfl⟩

/-- A budget is spent by as many steps that go well before the end of the program. -/
theorem Completes.spends (completed : machine.Completes count)
    (inside : ¬ (machine.after count).isPastEnd) : machine.Spends count := by
  obtain ⟨unstopped, place⟩ := completed.drive
  exact ⟨unstopped, by rwa [place]⟩

/-- A run is over with the first step that faults. -/
theorem Completes.drive_fault (completed : machine.Completes count)
    (faulted : (machine.after count).step.outcome = .fault reason) :
    ((Run.start machine).drive (count + 1)).stop? = some (.fault reason) ∧
      ((Run.start machine).drive (count + 1)).machine = machine.after (count + 1) ∧
        ((Run.start machine).drive (count + 1)).steps = count := by
  obtain ⟨unstopped, place⟩ := completed.drive
  have counted := Run.steps_drive_of_unstopped unstopped
  have inside : ¬ (machine.after count).isPastEnd :=
    not_isPastEnd_of_outcome (by simp [faulted])
  rw [Run.drive_add, Run.drive, unstopped]
  dsimp only [Run.drive]
  rw [Run.advance, place, if_neg inside]
  dsimp only
  rw [faulted]
  exact ⟨rfl, rfl, counted.trans (Nat.zero_add count)⟩

end Machine

end Runs

namespace Machine

variable {configuration : Configuration} {program : List Word}

/-- The run that overflows is over after as many fetches as there are slots. -/
theorem overflows_drive (valid : configuration.Valid) (calling : Calling program) (sink : Sink) :
    (fresh configuration program sink).Overflows configuration.width configuration.stack program
      ((Run.start (fresh configuration program sink)).drive configuration.stack) := by
  have slots : configuration.stack - 1 + 1 = configuration.stack := Nat.sub_add_cancel valid.2.1
  have start := Called.fresh valid program sink
  obtain ⟨completed, called⟩ := called_after valid calling sink slots.le
  obtain ⟨word, found, faulted, left⟩ := called.overflows calling slots.symm
  obtain ⟨stopped, place, steps⟩ := completed.drive_fault faulted
  have visits := (Run.start_visits (fresh configuration program sink)).drive configuration.stack
  rw [after_succ, left] at place
  rw [slots] at stopped place steps
  generalize (Run.start (fresh configuration program sink)).drive configuration.stack = run
    at stopped place steps visits
  have tried : run.tried = configuration.stack := by simp only [Run.tried, stopped, steps, slots]
  constructor
  case outcome => simp only [Run.outcome, stopped]
  case steps => exact steps
  case addresses =>
    rw [visits.addresses, tried]
    apply List.map_congr_left
    intro index member
    exact (called_after valid calling sink (List.mem_range.mp member)).2.ip_eq
  case sp_eq =>
    rw [place]
    exact called.sp_eq
  case live_eq =>
    rw [place]
    exact called.live?_eq (Nat.sub_le _ 1)
  case blamed =>
    rw [place]
    exact ⟨word, found, by rw [fetched, called.ip_eq]⟩
  case general_eq =>
    intro register
    rw [place, fetched, Registers.read_setIp, called.general_eq, start.general_eq]
  case memory_eq =>
    rw [place, start.memory_eq]
    exact called.memory_eq
  case sink_eq =>
    rw [place, start.sink_eq]
    exact called.sink_eq

/-- A fresh machine whose program only calls makes as many steps as its stack has slots but one, and
the next step overflows the stack. A smaller budget is spent before that, any other run ends there,
and then the stack has the return addresses in the order of the calls. -/
theorem calls_overflow (valid : configuration.Valid) (calling : Calling program) (sink : Sink) :
    let start := fresh configuration program sink
    start.Completes (configuration.stack - 1) ∧
      (start.after (configuration.stack - 1)).step.outcome = .fault .stackOverflow ∧
      (∀ budget < configuration.stack, (start.runFor budget).outcome = .ok (budget, false)) ∧
      ∃ run, start.Overflows configuration.width configuration.stack program run ∧
        (∀ budget, configuration.stack ≤ budget → start.runFor budget = run) ∧
        (∃ fuel, start.run? fuel = some run) ∧
          ∀ fuel other, start.run? fuel = some other → other = run := by
  intro start
  have slots : configuration.stack - 1 + 1 = configuration.stack := Nat.sub_add_cancel valid.2.1
  obtain ⟨completed, called⟩ := called_after valid calling sink slots.le
  obtain ⟨word, -, faulted, -⟩ := called.overflows calling slots.symm
  have overflows := overflows_drive valid calling sink
  have stopped := Run.outcome_eq_fault_iff.mp overflows.outcome
  have ended : start.run? configuration.stack =
      some ((Run.start start).drive configuration.stack) := by
    rw [run?_eq_some_iff, stopped]
    exact ⟨rfl, rfl⟩
  refine ⟨completed, faulted, ?_, _, overflows, ?_, ⟨_, ended⟩, ?_⟩
  · intro budget small
    obtain ⟨made, reached⟩ := called_after valid calling sink small
    obtain ⟨word, -, present, -⟩ := reached.present calling
    have inside : ¬ (start.after budget).isPastEnd := by
      rw [isPastEnd_iff, present]
      exact Option.some_ne_none word
    exact (outcome_runFor_eq_iff _ _ _).mpr ⟨made.spends inside, rfl⟩
  · intro budget enough
    obtain ⟨more, rfl⟩ := Nat.exists_eq_add_of_le enough
    rw [runFor, drive_of_run? ended, Run.settle_of_stop stopped]
  · intro fuel other finished
    exact run?_unique finished ended

/-- Two bits count four addresses: the call at address three returns to zero, and a call of address
four goes to zero. -/
theorem calls_overflow_wrapping :
    let program : List Word := [192, 64, 0, 256, 0]
    let start := fresh ⟨2, 1, 4⟩ program {}
    Configuration.Valid ⟨2, 1, 4⟩ ∧ Calling program ∧
      start.Completes 3 ∧ (start.after 3).step.outcome = .fault .stackOverflow ∧
      (∀ budget < 4, (start.runFor budget).outcome = .ok (budget, false)) ∧
      returnAddresses 2 program 3 = [1, 0, 1] ∧
      ∃ run, start.Overflows 2 4 program run ∧
        (∀ budget, 4 ≤ budget → start.runFor budget = run) ∧
        (∃ fuel, start.run? fuel = some run) ∧
          ∀ fuel other, start.run? fuel = some other → other = run := by
  intro program start
  have valid : Configuration.Valid ⟨2, 1, 4⟩ := by decide
  have calling : Calling program := by decide
  obtain ⟨completed, faulted, spent, overflows⟩ := calls_overflow valid calling {}
  exact ⟨valid, calling, completed, faulted, spent, by decide, overflows⟩

end Machine

end RegisterMachine
