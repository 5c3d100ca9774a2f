import RegisterMachine.Proofs.Machine.Session
import Mathlib.Data.List.Forall2

/-!
Machines whose programs have words of the same effect run alike.

The two machines always have the same registers, memory, stack and sink. They fetch at the same
addresses, and only the fetched words may differ.
-/

namespace RegisterMachine

/-- Two words are alike when every machine does the same on both. -/
def Word.Alike (first second : Word) : Prop :=
  ∀ machine : Machine, machine.execute first = machine.execute second

/-- The address of a fetch. -/
def Event.address? : Event → Option Nat
  | .record (.fetched address _) => some address
  | _ => none

/-- The addresses that a run has fetched from, in order. -/
def Run.addresses (run : Run) : List Nat := run.events.toList.filterMap Event.address?

namespace Machine

/-- The machine with another sink, another program and another memory of its last fetch. -/
def refit (machine : Machine) (sink : Sink) (program : Array Word)
    (lastFetched : Option (Nat × Word)) : Machine :=
  { machine with sink := sink, program := program, lastFetched := lastFetched }

/-- The machine with another program and another memory of its last fetch. -/
def reload (machine : Machine) (program : Array Word) (lastFetched : Option (Nat × Word)) :
    Machine :=
  { machine with program := program, lastFetched := lastFetched }

/-- Two machines differ only in their programs, whose words are alike, and in their last fetch. -/
structure Twin (first second : Machine) : Prop where
  same : second = first.reload second.program second.lastFetched
  alike : List.Forall₂ Word.Alike first.program.toList second.program.toList

end Machine

/-- The machine of the effect is refitted, and nothing else changes. -/
def Effect.refit (effect : Effect) (sink : Sink) (program : Array Word)
    (lastFetched : Option (Nat × Word)) : Effect :=
  { effect with machine := effect.machine.refit sink program lastFetched }

/-- The machine of the effect is reloaded, and nothing else changes. -/
def Effect.reload (effect : Effect) (program : Array Word) (lastFetched : Option (Nat × Word)) :
    Effect :=
  { effect with machine := effect.machine.reload program lastFetched }

namespace Machine

variable (machine : Machine) (sink : Sink) (program : Array Word)
  (lastFetched : Option (Nat × Word))

/-- An instruction other than an output neither reads nor writes the sink, the program or the last
fetch. -/
theorem perform_refit {instruction : Instruction}
    (silent : ∀ rs selector, instruction ≠ .output rs selector) :
    (machine.refit sink program lastFetched).perform instruction =
      (machine.perform instruction).refit sink program lastFetched := by
  cases instruction with
  | call target =>
    simp only [perform, refit]
    cases machine.stack.push machine.registers machine.registers.ip <;> rfl
  | ret =>
    simp only [perform, refit]
    cases machine.stack.pop machine.registers <;> rfl
  | move rd rs => rfl
  | loadValue rd value => rfl
  | loadMemory rd address =>
    simp only [perform, refit]
    cases machine.memory.read address <;> rfl
  | storeMemory rd address =>
    simp only [perform, refit]
    cases machine.memory.write address (machine.registers.read rd) <;> rfl
  | arithmetic rd rs operation destination =>
    simp only [perform, refit]
    cases operation.combine (machine.registers.read rd) (machine.registers.read rs) <;> rfl
  | shift rs direction amount => rfl
  | push rs =>
    simp only [perform, refit]
    cases machine.stack.push machine.registers (machine.registers.read rs) <;> rfl
  | pop rd =>
    simp only [perform, refit]
    cases machine.stack.pop machine.registers <;> rfl
  | jumpIfLess rd target =>
    by_cases below : machine.registers.a < machine.registers.read rd
    · simp only [perform, refit, below, if_true]
      rfl
    · simp only [perform, refit, below, if_false]
      rfl
  | output rs selector => exact absurd rfl (silent rs selector)
  | halt => rfl

/-- An instruction other than an output leaves the sink, the program and the last fetch alone. -/
theorem perform_eq_refit {instruction : Instruction}
    (silent : ∀ rs selector, instruction ≠ .output rs selector) :
    machine.perform instruction =
      (machine.perform instruction).refit machine.sink machine.program machine.lastFetched :=
  machine.perform_refit machine.sink machine.program machine.lastFetched silent

/-- An instruction neither reads nor writes the program or the last fetch. -/
theorem perform_reload (instruction : Instruction) :
    (machine.reload program lastFetched).perform instruction =
      (machine.perform instruction).reload program lastFetched := by
  by_cases printing : ∃ rs selector, instruction = .output rs selector
  · obtain ⟨rs, selector, rfl⟩ := printing
    rfl
  · have silent : ∀ rs selector, instruction ≠ .output rs selector := fun rs selector same =>
      printing ⟨rs, selector, same⟩
    calc (machine.reload program lastFetched).perform instruction
        = (machine.perform instruction).refit machine.sink program lastFetched :=
          machine.perform_refit machine.sink program lastFetched silent
      _ = ((machine.perform instruction).refit machine.sink machine.program
            machine.lastFetched).reload program lastFetched := rfl
      _ = (machine.perform instruction).reload program lastFetched := by
          rw [← machine.perform_eq_refit silent]

theorem execute_reload (word : Word) :
    (machine.reload program lastFetched).execute word =
      (machine.execute word).reload program lastFetched := by
  unfold execute
  split
  · exact machine.perform_reload program lastFetched _
  · rfl

theorem execute_program (word : Word) :
    (machine.execute word).machine.program = machine.program := by
  have fixed := machine.execute_reload machine.program machine.lastFetched word
  exact congrArg (fun effect => effect.machine.program) fixed

theorem execute_lastFetched (word : Word) :
    (machine.execute word).machine.lastFetched = machine.lastFetched := by
  have fixed := machine.execute_reload machine.program machine.lastFetched word
  exact congrArg (fun effect => effect.machine.lastFetched) fixed

end Machine

/-- Related lists have related elements in the same places. -/
theorem rel_getElem?_of_forall₂ {α β : Type} {Related : α → β → Prop} {first : List α}
    {second : List β} (related : List.Forall₂ Related first second) (index : Nat) :
    Option.Rel Related first[index]? second[index]? := by
  induction related generalizing index with
  | nil => exact .none
  | cons head _ ih =>
    cases index with
    | zero => exact .some head
    | succ index => exact ih index

/-- What a call on one of two machines shows is what it shows on the other. -/
structure Effect.Twin (first second : Effect) : Prop where
  machine : first.machine.Twin second.machine
  outcome : second.outcome = first.outcome
  addresses : second.events.filterMap Event.address? = first.events.filterMap Event.address?

namespace Machine.Twin

variable {first second : Machine} (twin : first.Twin second)

include twin

theorem registers : second.registers = first.registers := by rw [twin.same]; rfl

theorem isPastEnd : second.isPastEnd = first.isPastEnd := by
  have size : second.program.size = first.program.size := twin.alike.length_eq.symm
  rw [Machine.isPastEnd, Machine.isPastEnd, twin.registers, size]

/-- One step keeps two machines alike. -/
theorem step : first.step.Twin second.step := by
  have words := rel_getElem?_of_forall₂ twin.alike first.registers.ip
  rw [Array.getElem?_toList, Array.getElem?_toList] at words
  simp only [Machine.step, twin.registers]
  generalize first.program[first.registers.ip]? = word? at words ⊢
  generalize second.program[first.registers.ip]? = other? at words ⊢
  cases words with
  | none => exact ⟨twin, rfl, rfl⟩
  | @some word other alike =>
    have fetched : second.fetched other = (first.fetched word).reload second.program
        (some (first.registers.ip, other)) := by
      rw [twin.same]
      rfl
    have performed : (second.fetched other).execute other =
        ((first.fetched word).execute word).reload second.program
          (some (first.registers.ip, other)) := by
      rw [← alike, fetched, execute_reload]
    simp only [performed]
    refine ⟨⟨rfl, ?_⟩, rfl, rfl⟩
    show List.Forall₂ Word.Alike ((first.fetched word).execute word).machine.program.toList
      second.program.toList
    rw [execute_program]
    exact twin.alike

end Machine.Twin

namespace Run

/-- Two runs that have gone alike so far. -/
structure Twin (first second : Run) : Prop where
  machine : first.machine.Twin second.machine
  addresses : second.addresses = first.addresses
  steps : second.steps = first.steps
  stop : second.stop? = first.stop?

theorem addresses_append (run : Run) (events : List Event) :
    (run.events ++ events).toList.filterMap Event.address? =
      run.addresses ++ events.filterMap Event.address? := by
  rw [Array.toList_appendList, List.filterMap_append, addresses]

/-- An event that is no fetch adds no address. -/
theorem addresses_push (run : Run) {event : Event} (other : event.address? = none) :
    (run.events.push event).toList.filterMap Event.address? = run.addresses := by
  rw [Array.toList_push, List.filterMap_append, addresses, List.filterMap_cons, other,
    List.filterMap_nil, List.append_nil]

variable {first second : Run}

theorem Twin.leave (twin : first.Twin second) : first.leave.Twin second.leave where
  machine := twin.machine
  addresses := by
    show (second.events.push _).toList.filterMap Event.address? =
      (first.events.push _).toList.filterMap Event.address?
    rw [second.addresses_push rfl, first.addresses_push rfl, twin.addresses]
  steps := twin.steps
  stop := rfl

theorem Twin.advance (twin : first.Twin second) : first.advance.Twin second.advance := by
  have stepped := twin.machine.step
  have addresses : (second.events ++ second.machine.step.events).toList.filterMap
      Event.address? =
        (first.events ++ first.machine.step.events).toList.filterMap Event.address? := by
    rw [addresses_append, addresses_append, twin.addresses, stepped.addresses]
  unfold Run.advance
  rw [twin.machine.isPastEnd]
  split
  · exact twin.leave
  · dsimp only
    rw [stepped.outcome, twin.steps]
    split
    · exact ⟨stepped.machine, addresses, rfl, rfl⟩
    · exact ⟨stepped.machine, addresses, rfl, rfl⟩
    · exact ⟨stepped.machine, addresses, rfl, rfl⟩

/-- Runs from machines that are alike stay alike. -/
theorem Twin.drive (twin : first.Twin second) (fuel : Nat) :
    (first.drive fuel).Twin (second.drive fuel) := by
  induction fuel generalizing first second with
  | zero => exact twin
  | succ fuel ih =>
    rw [Run.drive, Run.drive, twin.stop]
    split
    · exact twin
    · exact ih twin.advance

theorem Twin.settle (twin : first.Twin second) (budget : Nat) :
    (first.settle budget).Twin (second.settle budget) := by
  unfold Run.settle
  rw [twin.stop, twin.machine.isPastEnd]
  split
  · exact twin
  · split
    · exact twin.leave
    · refine ⟨twin.machine, ?_, twin.steps, rfl⟩
      show (second.events.push _).toList.filterMap Event.address? =
        (first.events.push _).toList.filterMap Event.address?
      rw [second.addresses_push rfl, first.addresses_push rfl, twin.addresses]

/-- Two runs end in the same way, with the same registers, memory, stack and output, after fetches
at the same addresses. -/
structure Agrees (first second : Run) : Prop where
  outcome : second.outcome = first.outcome
  registers : second.machine.registers = first.machine.registers
  memory : second.machine.memory = first.machine.memory
  stack : second.machine.stack = first.machine.stack
  sink : second.machine.sink = first.machine.sink
  addresses : second.addresses = first.addresses

theorem Twin.agrees (twin : first.Twin second) : first.Agrees second where
  outcome := by rw [outcome, outcome, twin.stop, twin.steps]
  registers := twin.machine.registers
  memory := by rw [twin.machine.same]; rfl
  stack := by rw [twin.machine.same]; rfl
  sink := by rw [twin.machine.same]; rfl
  addresses := twin.addresses

end Run

namespace Machine

variable {first second : Machine} (twin : first.Twin second)

include twin

theorem Twin.start : (Run.start first).Twin (Run.start second) := ⟨twin, rfl, rfl, rfl⟩

/-- Runs within the same budget agree. -/
theorem Twin.runFor (budget : Nat) : (first.runFor budget).Agrees (second.runFor budget) :=
  ((twin.start.drive budget).settle budget).agrees

/-- Runs without a budget are over within the same fuel, and agree. -/
theorem Twin.run? (fuel : Nat) : Option.Rel Run.Agrees (first.run? fuel) (second.run? fuel) := by
  have driven := twin.start.drive fuel
  unfold Machine.run?
  dsimp only
  rw [driven.stop]
  split
  · exact .some driven.agrees
  · exact .none

end Machine

end RegisterMachine
