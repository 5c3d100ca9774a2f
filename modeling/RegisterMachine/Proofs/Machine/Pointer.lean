import RegisterMachine.Proofs.Machine.Changes
import RegisterMachine.Proofs.Machine.Trace

/-!
The way of the instruction pointer.

Every step moves the pointer to the next address, or to the address of a call, a return or a jump
that is taken, and either one is reduced by the width. A run fetches at the addresses that the
pointer goes through, one after the other.
-/

namespace RegisterMachine

namespace Machine

/-- The address that a word sends the instruction pointer to. A call without room and a return
without a slot send it nowhere. -/
def goal? (machine : Machine) (word : Word) : Option Nat :=
  match word.opcode? with
  | some .cal =>
    if machine.registers.sp + 1 < machine.stack.capacity then some word.address else none
  | some .ret =>
    if machine.registers.sp = 0 then none
    else machine.stack.slots.get? (machine.registers.sp - 1)
  | some .jlt => if machine.Jumps word then some word.address else none
  | _ => none

variable {machine : Machine} {word : Word}

theorem goal?_of_jumps (jump : word.opcode? = some .jlt) (taken : machine.Jumps word) :
    machine.goal? word = some word.address.val := by
  simp only [goal?, jump, if_pos taken]

theorem goal?_of_call (call : word.opcode? = some .cal)
    (completed : (machine.execute word).outcome = .ok false) :
    machine.goal? word = some word.address.val := by
  simp only [outcome_execute, verdict, call] at completed
  simp only [goal?, call]
  split at completed
  · contradiction
  · rename_i room
    exact if_pos (Nat.lt_of_not_le room)

/-- A word that neither returns nor jumps anywhere goes nowhere. -/
theorem address_of_goal? {target : Nat} (sent : machine.goal? word = some target)
    (stays : word.opcode? ≠ some .ret) :
    (word.opcode? = some .cal ∨ word.opcode? = some .jlt) ∧ target = word.address := by
  unfold goal? at sent
  split at sent
  · rename_i call
    obtain ⟨-, same⟩ := Option.ite_none_right_eq_some.mp sent
    exact ⟨.inl call, (Option.some.inj same).symm⟩
  · rename_i returns
    exact absurd returns stays
  · rename_i jump
    obtain ⟨-, same⟩ := Option.ite_none_right_eq_some.mp sent
    exact ⟨.inr jump, (Option.some.inj same).symm⟩
  · contradiction

/-- A word without a goal leaves the instruction pointer alone. -/
theorem ip_execute (machine : Machine) (word : Word) :
    (machine.execute word).machine.registers.ip =
      ((machine.goal? word).map machine.registers.wrap).getD machine.registers.ip := by
  unfold execute Word.instruction? goal?
  cases word.opcode? with
  | none => rfl
  | some opcode =>
    cases opcode with
    | cal =>
      simp only [Option.map_some, perform]
      split
      · rename_i stack pushed success
        obtain ⟨room, -, rfl⟩ := Stack.push_eq_ok success
        rw [if_pos room]
        rfl
      · rename_i reason refused
        have full := ((Stack.push_eq_error_iff reason).mp refused).1
        rw [if_neg (Nat.not_lt_of_le full)]
        rfl
    | ret =>
      simp only [Option.map_some, perform, Stack.pop]
      by_cases empty : machine.registers.sp = 0
      · simp only [empty, if_true]
        rfl
      · simp only [empty, if_false]
        cases machine.stack.slots.get? (machine.registers.sp - 1) <;> rfl
    | jlt =>
      by_cases below : machine.registers.a < machine.registers.read word.rd
      · simp only [Option.map_some, perform, Jumps, below, if_true]
        rfl
      · simp only [Option.map_some, perform, Jumps, below, if_false]
        rfl
    | psh =>
      simp only [Option.map_some, perform]
      split
      · rename_i stack pushed success
        obtain ⟨-, -, rfl⟩ := Stack.push_eq_ok success
        rfl
      · rfl
    | pop =>
      simp only [Option.map_some, perform]
      split
      · rename_i value popped success
        obtain ⟨-, -, rfl⟩ := Stack.pop_eq_ok success
        exact Registers.ip_write _ _ _
      · rfl
      · rfl
    | ldr | ath =>
      simp only [Option.map_some, perform]
      split
      · exact Registers.ip_write _ _ _
      · rfl
    | ldm =>
      simp only [Option.map_some, perform]
      split <;> rfl
    | mov | ldv | sft => exact Registers.ip_write _ _ _
    | out | hlt => rfl

/-- A goal does not depend on the instruction pointer. -/
theorem goal?_fetched (machine : Machine) (fetched word : Word) :
    (machine.fetched fetched).goal? word = machine.goal? word := by
  have jumps : (machine.fetched fetched).Jumps word ↔ machine.Jumps word := by
    rw [Jumps, Jumps, Machine.fetched, Registers.read_setIp]
    rfl
  simp only [goal?, jumps]
  rfl

/-- After a step the pointer is at the goal of its word, or else at the next address. -/
theorem ip_step (present : machine.program[machine.registers.ip]? = some word) :
    machine.step.machine.registers.ip =
      machine.registers.wrap ((machine.goal? word).getD (machine.registers.ip + 1)) := by
  simp only [step, present]
  rw [ip_execute, goal?_fetched]
  cases machine.goal? word <;> rfl

/-- A step remembers what it has fetched. -/
theorem lastFetched_step (present : machine.program[machine.registers.ip]? = some word) :
    machine.step.machine.lastFetched = some (machine.registers.ip, word) := by
  simp only [step, present]
  exact execute_lastFetched _ word

/-- Registers that hold values of the width hold such values after any steps. -/
theorem fit_after (fit : machine.registers.Fit) (count : Nat) :
    (machine.after count).registers.Fit :=
  after_keeps fit (fun before kept => before.step_writes.keeps kept fun _ _ write stays =>
    write.fit stays) count

/-- A program may be read as a list. -/
theorem getElem?_program {program : List Word} (loaded : machine.program = program.toArray)
    (index : Nat) : machine.program[index]? = program[index]? := by
  rw [loaded, List.getElem?_toArray]

theorem not_isPastEnd_iff (machine : Machine) :
    ¬ machine.isPastEnd ↔ machine.registers.ip < machine.program.size := by
  rw [isPastEnd, decide_eq_true_iff, Nat.not_le]

section Fetches

theorem addresses_perform (machine : Machine) (instruction : Instruction) :
    (machine.perform instruction).events.filterMap Event.address? = [] := by
  cases instruction with
  | call | ret | loadMemory | storeMemory | arithmetic | push | pop | jumpIfLess =>
    simp only [perform]
    split <;> rfl
  | move | loadValue | shift | output | halt => rfl

/-- A step fetches where the instruction pointer is, and nowhere else. -/
theorem addresses_step (inside : ¬ machine.isPastEnd) :
    machine.step.events.filterMap Event.address? = [machine.registers.ip] := by
  rw [isPastEnd_iff] at inside
  obtain ⟨word, present⟩ := Option.ne_none_iff_exists'.mp inside
  have executed : ((machine.fetched word).execute word).events.filterMap Event.address? = [] := by
    unfold execute
    split
    · exact addresses_perform _ _
    · rfl
  simp only [step, present]
  exact congrArg (machine.registers.ip :: ·) executed

end Fetches

end Machine

namespace Run

/-- A run has tried the steps of a machine, each of them inside the program, and has fetched at the
addresses that the pointer had before them. -/
structure Visits (machine : Machine) (run : Run) : Prop where
  place : run.machine = machine.after run.tried
  inside : ∀ index < run.tried, ¬ (machine.after index).isPastEnd
  addresses : run.addresses =
    (List.range run.tried).map fun index => (machine.after index).registers.ip

variable {machine : Machine} {run : Run}

theorem start_visits (machine : Machine) : (start machine).Visits machine :=
  ⟨rfl, fun index small => absurd small (Nat.not_lt_zero index), rfl⟩

theorem tried_of_unstopped (unstopped : run.stop? = none) : run.tried = run.steps := by
  simp only [tried, unstopped]

/-- The look past the end fetches nothing. -/
theorem Visits.leave (unstopped : run.stop? = none) (visits : run.Visits machine) :
    run.leave.Visits machine := by
  have tried : run.leave.tried = run.tried := (tried_of_unstopped unstopped).symm
  have addresses : run.leave.addresses = run.addresses := run.addresses_push rfl
  constructor
  · rw [tried]
    exact visits.place
  · rw [tried]
    exact visits.inside
  · rw [tried, addresses]
    exact visits.addresses

/-- Whatever a step answers, it has been tried and has fetched once. -/
theorem tried_advance (unstopped : run.stop? = none) (inside : ¬ run.machine.isPastEnd) :
    run.advance.tried = run.tried + 1 ∧
      run.advance.addresses = run.addresses ++ [run.machine.registers.ip] := by
  rw [tried_of_unstopped unstopped]
  have fetched : (run.events ++ run.machine.step.events).toList.filterMap Event.address? =
      run.addresses ++ [run.machine.registers.ip] := by
    rw [addresses_append, Machine.addresses_step inside]
  unfold advance
  rw [if_neg inside]
  dsimp only
  split
  · rename_i halted answered
    refine ⟨?_, fetched⟩
    cases halted <;> rfl
  · exact ⟨rfl, fetched⟩
  · exact ⟨rfl, fetched⟩

theorem Visits.advance (unstopped : run.stop? = none) (visits : run.Visits machine) :
    run.advance.Visits machine := by
  by_cases ended : run.machine.isPastEnd
  · rw [Run.advance, if_pos ended]
    exact visits.leave unstopped
  · obtain ⟨tried, addresses⟩ := tried_advance unstopped ended
    rw [visits.place] at ended addresses
    refine ⟨machine_advance unstopped visits.place, ?_, ?_⟩
    · intro index small
      rw [tried] at small
      obtain earlier | rfl := Nat.lt_succ_iff_lt_or_eq.mp small
      · exact visits.inside index earlier
      · exact ended
    · rw [addresses, tried, visits.addresses, List.range_succ, List.map_append]
      rfl

theorem Visits.drive (visits : run.Visits machine) (fuel : Nat) :
    (run.drive fuel).Visits machine := by
  induction fuel generalizing run with
  | zero => exact visits
  | succ fuel ih =>
    rw [Run.drive]
    split
    · exact visits
    · rename_i unstopped
      exact ih (visits.advance unstopped)

theorem Visits.settle (visits : run.Visits machine) (budget : Nat) :
    (run.settle budget).Visits machine := by
  unfold Run.settle
  split
  · exact visits
  · rename_i unstopped
    split
    · exact visits.leave unstopped
    · exact ⟨visits.place, visits.inside, (run.addresses_push rfl).trans visits.addresses⟩

/-- A run fetches inside the program, where the pointer is. -/
theorem Visits.lt_of_mem (visits : run.Visits machine) (fit : machine.registers.Fit)
    {address : Nat} (member : address ∈ run.addresses) :
    address < min machine.program.size (modulus machine.registers.width) := by
  rw [visits.addresses, List.mem_map] at member
  obtain ⟨index, counted, rfl⟩ := member
  have inside := visits.inside index (List.mem_range.mp counted)
  have below := (Machine.fit_after fit index).ip_lt
  obtain ⟨program, width⟩ := machine.shaped_after index
  rw [Machine.not_isPastEnd_iff, program] at inside
  rw [width] at below
  exact Nat.lt_min.mpr ⟨inside, below⟩

end Run

end RegisterMachine
