import RegisterMachine.Proofs.Machine.Atomicity
import RegisterMachine.Proofs.Machine.Budget
import RegisterMachine.Proofs.Machine.Subroutine

/-!
What a run says in the log, and which instruction its fault belongs to.

A run mentions every instruction that it fetches, in order, and right after that a division that
faults. Its last word says why it goes no further, unless the program halts or faults. A fault
belongs to the instruction that was fetched last, and nothing has moved since that fetch.
-/

namespace RegisterMachine

/-- A line of the log, without the part of the program that it comes from. -/
structure Entry where
  level : Level
  message : String
deriving DecidableEq, Repr

namespace Entry

/-- A fetch shows its address, its word and the text of the word. -/
def fetch (address : Nat) (word : Word) : Entry :=
  ⟨.trace, s!"{Numeral.padded 10 4 address} 0x{Numeral.padded 16 4 word} {word.text}"⟩

/-- A division without a result shows its dividend and then its divisor. -/
def division (word : Word) : Entry := ⟨.debug, s!"DIV {word.rs.name} {word.rd.name} faulted"⟩

def pastEnd (address : Nat) : Entry :=
  ⟨.info, s!"IP {address} is past the end of the program, halting"⟩

def budgetSpent (budget : Nat) : Entry := ⟨.info, s!"Step budget of {budget} exhausted"⟩

end Entry

def Record.entry (record : Record) : Entry := ⟨record.level, record.message⟩

/-- Text that is printed is no part of the log. -/
def Event.entry? : Event → Option Entry
  | .record found => some found.entry
  | .print _ => none

def Run.entries (run : Run) : List Entry := run.events.toList.filterMap Event.entry?

def Outcome.isFault {α : Type} : Outcome α → Bool
  | .fault _ => true
  | _ => false

/-- The word is a division. -/
def Word.Divides (word : Word) : Prop :=
  word.opcode? = some .ath ∧ Operation.ofCode word.byte = .div

instance (word : Word) : Decidable word.Divides := inferInstanceAs (Decidable (_ ∧ _))

namespace Machine

/-- What the log says of the next instruction: its fetch, and then that it is a division that
faults. -/
def mention (machine : Machine) : List Entry :=
  match machine.program[machine.registers.ip]? with
  | none => []
  | some word =>
    .fetch machine.registers.ip word ::
      if word.Divides ∧ machine.step.outcome.isFault then [.division word] else []

/-- What the log says of some instructions in the order in which they are fetched. -/
def mentions (machine : Machine) (count : Nat) : List Entry :=
  (List.range count).flatMap fun index => (machine.after index).mention

/-- So many steps have been made, and nothing has ended. -/
def Completes (machine : Machine) (count : Nat) : Prop :=
  ∀ index < count, (machine.after index).step.outcome = .ok false

/-- How a run ends after so many fetches, what it answers, and what it says last. -/
inductive Ends (machine : Machine) (budget? : Option Nat) :
    Nat → Outcome (Nat × Bool) → List Entry → Prop where
  | pastEnd {count : Nat} (completed : machine.Completes count)
      (ended : (machine.after count).isPastEnd) :
      Ends machine budget? count (.ok (count, true))
        [.pastEnd (machine.after count).registers.ip]
  | spent {count : Nat} (completed : machine.Completes count)
      (inside : ¬ (machine.after count).isPastEnd) (budget : budget? = some count) :
      Ends machine budget? count (.ok (count, false))
        [.budgetSpent count]
  | halt {count : Nat} (completed : machine.Completes count)
      (inside : ¬ (machine.after count).isPastEnd)
      (halted : (machine.after count).step.outcome = .ok true) :
      Ends machine budget? (count + 1) (.ok (count + 1, true)) []
  | fault {count : Nat} {reason : Fault} (completed : machine.Completes count)
      (faulted : (machine.after count).step.outcome = .fault reason) :
      Ends machine budget? (count + 1) (.fault reason) []
  | missingSlot {count : Nat} (completed : machine.Completes count)
      (missing : (machine.after count).step.outcome = .missingSlot) :
      Ends machine budget? (count + 1) .missingSlot []

/-- The instruction that is fetched after some steps of a call is the one at which the call faults:
its address and its word are what the machine remembers, and only the instruction pointer has moved
on from there. -/
structure Blames (machine after : Machine) (reason : Fault) (count : Nat) (word : Word) : Prop where
  completed : machine.Completes count
  present : machine.program[(machine.after count).registers.ip]? = some word
  faulted : (((machine.after count).fetched word).execute word).outcome = .fault reason
  remembered : after.lastFetched = some ((machine.after count).registers.ip, word)
  advanced : after.registers.ip =
    ((machine.after count).registers.ip + 1) % modulus machine.registers.width
  program : after.program = machine.program

/-- A run has fetched so many instructions, it has mentioned each of them and nothing else on the
way, and its fault is that of the last one. -/
structure Logged (machine : Machine) (budget? : Option Nat) (run : Run) (fetches : Nat)
    (closing : List Entry) : Prop where
  place : run.machine = machine.after fetches
  fetched : ∀ index < fetches,
    ∃ word, machine.program[(machine.after index).registers.ip]? = some word
  ends : machine.Ends budget? fetches run.outcome closing
  entries : run.entries = machine.mentions fetches ++ closing
  blames : ∀ reason, run.outcome = .fault reason →
    ∃ count word, fetches = count + 1 ∧ machine.Blames run.machine reason count word

end Machine

namespace Word

variable {word : Word}

theorem instruction?_of_divides (divides : word.Divides) :
    word.instruction? =
      some (.arithmetic word.rd word.rs .div (Destination.ofByte word.byte)) := by
  rw [instruction?, divides.1, Option.map_some, divides.2]

theorem divides_of_instruction? {rd rs : Register} {destination : Destination}
    (read : word.instruction? = some (.arithmetic rd rs .div destination)) : word.Divides := by
  obtain ⟨opcode, known, meaning⟩ := Option.map_eq_some_iff.mp read
  cases opcode with
  | ath => exact ⟨known, (Instruction.arithmetic.inj meaning).2.2.1⟩
  | _ => contradiction

end Word

namespace Machine

section Instructions

variable {machine : Machine} {instruction : Instruction}

/-- Only a division says anything while it is executed. -/
theorem entries_perform
    (other : ∀ rd rs destination, instruction ≠ .arithmetic rd rs .div destination) :
    (machine.perform instruction).events.filterMap Event.entry? = [] := by
  cases instruction with
  | call | ret | loadMemory | storeMemory | push | pop | jumpIfLess =>
    simp only [perform]
    split <;> rfl
  | arithmetic rd rs operation destination =>
    cases operation with
    | div => exact absurd rfl (other rd rs destination)
    | add | sub | mul => rfl
  | move | loadValue | shift | output | halt => rfl

theorem entries_execute (machine : Machine) (word : Word) :
    (machine.execute word).events.filterMap Event.entry? =
      if word.Divides ∧ (machine.execute word).outcome.isFault then [.division word] else [] := by
  by_cases divides : word.Divides
  · simp only [execute, Word.instruction?_of_divides divides, perform, divides, true_and]
    split <;> rfl
  · simp only [divides, false_and, if_false, execute]
    split
    · rename_i instruction read
      refine entries_perform fun rd rs destination same => divides ?_
      exact Word.divides_of_instruction? (same ▸ read)
    · rfl

/-- A step says what the log says of its instruction. -/
theorem entries_step (inside : ¬ machine.isPastEnd) :
    machine.step.events.filterMap Event.entry? = machine.mention := by
  rw [isPastEnd_iff] at inside
  obtain ⟨word, present⟩ := Option.ne_none_iff_exists'.mp inside
  have outcome : machine.step.outcome = ((machine.fetched word).execute word).outcome := by
    simp only [step, present]
  have executed := entries_execute (machine.fetched word) word
  rw [mention, outcome]
  simp only [step, present]
  exact congrArg (_ :: ·) executed

end Instructions

variable {machine : Machine} {count fetches : Nat} {reason : Fault} {budget? : Option Nat}
  {outcome : Outcome (Nat × Bool)} {closing : List Entry}

theorem mentions_succ (machine : Machine) (count : Nat) :
    machine.mentions (count + 1) = machine.mentions count ++ (machine.after count).mention := by
  rw [mentions, List.range_succ, List.flatMap_append, List.flatMap_singleton]
  rfl

/-- Steps change neither the program nor the width. -/
theorem shaped_after (machine : Machine) (count : Nat) :
    (machine.after count).program = machine.program ∧
      (machine.after count).registers.width = machine.registers.width := by
  have start : machine.Shaped
      ⟨machine.registers.width, machine.memory.size, machine.stack.capacity⟩
      machine.program.toList := ⟨rfl, rfl, rfl, rfl⟩
  exact ⟨(start.after count).program_eq, (start.after count).width_eq⟩

theorem Completes.succ (completed : machine.Completes count)
    (further : (machine.after count).step.outcome = .ok false) :
    machine.Completes (count + 1) := by
  intro index small
  by_cases last : index = count
  · rw [last]
    exact further
  · exact completed index (by omega)

/-- A step that does not halt has an instruction to read. -/
theorem not_isPastEnd_of_outcome (other : machine.step.outcome ≠ .ok true) :
    ¬ machine.isPastEnd :=
  fun ended => other (step_of_isPastEnd ended).2

theorem Completes.inside (completed : machine.Completes count) {index : Nat}
    (small : index < count) : ¬ (machine.after index).isPastEnd := by
  apply not_isPastEnd_of_outcome
  rw [completed index small]
  simp

/-- Every step of a run reads an instruction. -/
theorem Ends.inside (ends : machine.Ends budget? fetches outcome closing) {index : Nat}
    (small : index < fetches) : ¬ (machine.after index).isPastEnd := by
  have last {count : Nat} (completed : machine.Completes count)
      (inside : ¬ (machine.after count).isPastEnd) (below : index < count + 1) :
      ¬ (machine.after index).isPastEnd := by
    rcases Nat.lt_succ_iff_lt_or_eq.mp below with earlier | rfl
    · exact completed.inside earlier
    · exact inside
  cases ends with
  | pastEnd completed | spent completed => exact completed.inside small
  | halt completed inside => exact last completed inside small
  | fault completed faulted =>
    exact last completed (not_isPastEnd_of_outcome (by simp [faulted])) small
  | missingSlot completed missing =>
    exact last completed (not_isPastEnd_of_outcome (by simp [missing])) small

/-- A step that faults remembers its instruction and has moved on from it. -/
theorem blames_of_fault (completed : machine.Completes count)
    (faulted : (machine.after count).step.outcome = .fault reason) :
    ∃ word, machine.Blames (machine.after (count + 1)) reason count word := by
  obtain ⟨word, sink, present, -, left⟩ := step_fault faulted
  obtain ⟨program, width⟩ := machine.shaped_after count
  have executed : (((machine.after count).fetched word).execute word).outcome = .fault reason := by
    rw [← faulted]
    simp only [step, present]
  refine ⟨word, completed, program ▸ present, executed, ?_, ?_,
    (machine.shaped_after (count + 1)).1⟩
  · rw [after_succ, left]
    rfl
  · rw [after_succ, left, ← width]
    exact Registers.wrap_eq_mod _ _

theorem Ends.blames (ends : machine.Ends budget? fetches outcome closing)
    (failed : outcome = .fault reason) :
    ∃ count word, fetches = count + 1 ∧
      machine.Blames (machine.after fetches) reason count word := by
  cases ends with
  | fault completed faulted =>
    obtain rfl := Outcome.fault.inj failed
    obtain ⟨word, blames⟩ := blames_of_fault completed faulted
    exact ⟨_, word, rfl, blames⟩
  | pastEnd | spent | halt | missingSlot => contradiction

/-- How a run ends tells which instructions it has fetched and which one it faulted at. -/
theorem Ends.logged {run : Run} (ends : machine.Ends budget? fetches run.outcome closing)
    (place : run.machine = machine.after fetches)
    (entries : run.entries = machine.mentions fetches ++ closing) :
    machine.Logged budget? run fetches closing where
  place := place
  fetched index small := by
    have inside := ends.inside small
    rw [isPastEnd_iff, (machine.shaped_after index).1] at inside
    exact Option.ne_none_iff_exists'.mp inside
  ends := ends
  entries := entries
  blames reason failed := place ▸ ends.blames failed

end Machine

namespace Run

variable {machine : Machine} {run : Run} {budget? : Option Nat}

/-- A run that is not over has mentioned the instructions that it counts, and one that is over has
said all that it says. -/
def Tells (machine : Machine) (budget? : Option Nat) (run : Run) : Prop :=
  match run.stop? with
  | none => run.machine = machine.after run.steps ∧ machine.Completes run.steps ∧
      run.entries = machine.mentions run.steps
  | some _ => ∃ fetches closing, machine.Logged budget? run fetches closing

theorem start_tells (machine : Machine) (budget? : Option Nat) :
    (start machine).Tells machine budget? :=
  ⟨rfl, fun index small => absurd small (Nat.not_lt_zero index), rfl⟩

theorem entries_push (run : Run) (record : Record) :
    (run.events.push (.record record)).toList.filterMap Event.entry? =
      run.entries ++ [record.entry] := by
  rw [Array.toList_push, List.filterMap_append]
  rfl

theorem entries_append (run : Run) (events : List Event) :
    (run.events ++ events).toList.filterMap Event.entry? =
      run.entries ++ events.filterMap Event.entry? := by
  rw [Array.toList_appendList, List.filterMap_append]
  rfl

/-- The end of the program is the last thing that a run speaks of. -/
theorem Tells.leave (unstopped : run.stop? = none) (tells : run.Tells machine budget?)
    (ended : run.machine.isPastEnd) : run.leave.Tells machine budget? := by
  simp only [Tells, unstopped] at tells
  obtain ⟨place, completed, entries⟩ := tells
  have ends : machine.Ends budget? run.steps run.leave.outcome
      [.pastEnd run.machine.registers.ip] := by
    rw [place] at ended ⊢
    exact .pastEnd completed ended
  refine ⟨_, _, ends.logged place ?_⟩
  rw [← entries]
  exact run.entries_push _

/-- One more step adds its mention. -/
theorem Tells.advance (unstopped : run.stop? = none) (tells : run.Tells machine budget?) :
    run.advance.Tells machine budget? := by
  unfold Run.advance
  split
  · rename_i ended
    exact tells.leave unstopped ended
  · rename_i inside
    simp only [Tells, unstopped] at tells
    obtain ⟨place, completed, entries⟩ := tells
    have next : run.machine.step.machine = machine.after (run.steps + 1) := by
      rw [place, Machine.after_succ]
    have said : (run.events ++ run.machine.step.events).toList.filterMap Event.entry? =
        machine.mentions (run.steps + 1) := by
      rw [entries_append, entries, Machine.entries_step inside, Machine.mentions_succ, place]
    have alone : machine.mentions (run.steps + 1) = machine.mentions (run.steps + 1) ++ [] :=
      (List.append_nil _).symm
    rw [place] at inside
    dsimp only
    split
    · rename_i halted answered
      rw [place] at answered
      cases halted with
      | false => exact ⟨next, completed.succ answered, said⟩
      | true =>
        have ends : machine.Ends budget? (run.steps + 1) (.ok (run.steps + 1, true)) [] :=
          .halt completed inside answered
        exact ⟨_, _, ends.logged next (said.trans alone)⟩
    · rename_i reason failed
      rw [place] at failed
      have ends : machine.Ends budget? (run.steps + 1) (.fault reason) [] := .fault completed failed
      exact ⟨_, _, ends.logged next (said.trans alone)⟩
    · rename_i missing
      rw [place] at missing
      have ends : machine.Ends budget? (run.steps + 1) .missingSlot [] :=
        .missingSlot completed missing
      exact ⟨_, _, ends.logged next (said.trans alone)⟩

theorem Tells.drive (tells : run.Tells machine budget?) (fuel : Nat) :
    (run.drive fuel).Tells machine budget? := by
  induction fuel generalizing run with
  | zero => exact tells
  | succ fuel ih =>
    rw [Run.drive]
    split
    · exact tells
    · rename_i unstopped
      exact ih (tells.advance unstopped)

/-- A run that is over has said why. -/
theorem Tells.logged (tells : run.Tells machine budget?) (stopped : run.stop?.isSome) :
    ∃ fetches closing, machine.Logged budget? run fetches closing := by
  obtain ⟨stop, ended⟩ := Option.isSome_iff_exists.mp stopped
  simpa only [Tells, ended] using tells

/-- A run that could go on says that its budget is spent. -/
theorem Tells.settle {budget : Nat} (tells : run.Tells machine (some budget))
    (counted : run.stop? = none → run.steps = budget) :
    ∃ fetches closing, machine.Logged (some budget) (run.settle budget) fetches closing := by
  unfold Run.settle
  split
  · rename_i stop stopped
    exact tells.logged (by simp [stopped])
  · rename_i unstopped
    split
    · rename_i ended
      exact (tells.leave unstopped ended).logged rfl
    · rename_i inside
      simp only [Tells, unstopped] at tells
      obtain ⟨place, completed, entries⟩ := tells
      have spent := counted unstopped
      rw [place] at inside
      have ends : machine.Ends (some budget) run.steps (.ok (run.steps, false))
          [.budgetSpent run.steps] :=
        .spent completed inside (congrArg some spent.symm)
      have same : Run.outcome { run with
          events := run.events.push (.record (.budgetSpent budget)) } = .ok (run.steps, false) := by
        simp only [Run.outcome, unstopped]
      refine ⟨_, _, Machine.Ends.logged (same ▸ ends) place ?_⟩
      rw [← entries, spent]
      exact run.entries_push _

end Run

namespace Machine

/-- A run that divides by the zero in A says so after the fetch, and that is its last word. -/
example :
    ((fresh ⟨8, 0, 2⟩ [0x0113, 0x0346, 0x000C] {}).runFor 5).entries =
      [⟨.trace, "0000 0x0113 LDV B 4"⟩, ⟨.trace, "0001 0x0346 ATH A B DIV RS"⟩,
        ⟨.debug, "DIV B A faulted"⟩] := by
  decide +kernel

end Machine

end RegisterMachine
