import RegisterMachine.Proofs.Machine.Growth
import RegisterMachine.Proofs.Machine.System

/-!
Machines whose host interferes with them between their calls.

A host may put any value into a register, a cell or a slot, and the stack pointer need not stay
within the stack. The registers keep to their width all the same, and what goes wrong is confined to
the pops: they alone look at a slot that the stack pointer has not been checked against.
-/

namespace RegisterMachine

/-- What a host may change in a machine besides its stack. -/
inductive Adjustment where
  | register (target : Register) (value : Nat)
  | ip (value : Nat)
  | sp (value : Nat)
  | cell (address value : Nat)
deriving DecidableEq, Repr

/-- A host calls a machine, uses its stack, or adjusts it. -/
inductive Intervention where
  | query (query : Query)
  | adjust (adjustment : Adjustment)
deriving DecidableEq, Repr

/-- What a host gets back. -/
inductive Result where
  | reply (reply : Reply)
  | adjusted (outcome : Outcome Unit)
deriving DecidableEq, Repr

def Reply.IsMissingSlot : Reply → Prop
  | .answer given => given.IsMissingSlot
  | .pushed outcome => outcome = .missingSlot
  | .popped outcome => outcome = .missingSlot

/-- The intervention needed a slot outside the stack, and had nothing to give back. -/
def Result.IsMissingSlot : Result → Prop
  | .reply given => given.IsMissingSlot
  | .adjusted outcome => outcome = .missingSlot

namespace Machine

/-- An adjustment of a cell outside the memory changes nothing. -/
def adjust (machine : Machine) : Adjustment → Machine × Outcome Unit
  | .register target value =>
    ({ machine with registers := machine.registers.write target value }, .ok ())
  | .ip value => ({ machine with registers := machine.registers.setIp value }, .ok ())
  | .sp value => ({ machine with registers := machine.registers.setSp value }, .ok ())
  | .cell address value =>
    match machine.memory.write address value with
    | .ok memory => ({ machine with memory := memory }, .ok ())
    | .error reason => (machine, .fault reason)

/-- The replies of a machine together with the results of its adjustments. -/
inductive Undergoes (machine : Machine) : Intervention → Machine → Result → Prop where
  | query {query : Query} {after : Machine} {reply : Reply}
      (responded : machine.Responds query after reply) :
      Undergoes machine (.query query) after (.reply reply)
  | adjust (adjustment : Adjustment) :
      Undergoes machine (.adjust adjustment) (machine.adjust adjustment).1
        (.adjusted (machine.adjust adjustment).2)

/-- The machines that interventions can lead to. An intervention that needs a missing slot is the
last one. -/
inductive Tampered (start : Machine) : Machine → Prop where
  | start : Tampered start start
  | undergo {before after : Machine} {intervention : Intervention} {result : Result}
      (tampered : Tampered start before) (undergone : before.Undergoes intervention after result)
      (returned : ¬ result.IsMissingSlot) : Tampered start after

/-- The stack pointer counts slots that are not there. -/
def Strays (machine : Machine) : Prop := machine.stack.capacity < machine.registers.sp

/-- A run makes this many steps, and neither a halt nor a fault ends it before. -/
def Goes (machine : Machine) (count : Nat) : Prop :=
  ∀ earlier < count, (machine.after earlier).step.outcome = .ok false

/-- The next step pops while the stack pointer strays. -/
def StepsAstray (machine : Machine) : Prop :=
  ∃ word, machine.program[machine.registers.ip]? = some word ∧ word.Pops ∧ machine.Strays

/-- The intervention comes to a pop while the stack pointer strays. -/
def Misses (machine : Machine) : Intervention → Prop
  | .query .pop => machine.Strays
  | .query (.call (.execute word)) => word.Pops ∧ machine.Strays
  | .query (.call .step) => machine.StepsAstray
  | .query (.call (.run (some budget))) =>
    ∃ count < budget, machine.Goes count ∧ (machine.after count).StepsAstray
  | .query (.call (.run none)) => ∃ count, machine.Goes count ∧ (machine.after count).StepsAstray
  | .query (.push _) | .adjust _ => False

/-- The machine with another stack and another stack pointer. -/
def restack (machine : Machine) (stack : Stack) (sp : Nat) : Machine :=
  machine.rehouse machine.memory stack sp

end Machine

theorem Outcome.map_eq_missingSlot_iff {α β : Type} {change : α → β} {outcome : Outcome α} :
    outcome.map change = .missingSlot ↔ outcome = .missingSlot := by
  cases outcome <;> simp [Outcome.map]

/-- The machine of the effect has another stack, and nothing else changes. -/
def Effect.restack (effect : Effect) (stack : Stack) (sp : Nat) : Effect :=
  effect.rehouse effect.machine.memory stack sp

/-- A word that neither pushes nor pops does not use the stack. -/
theorem Word.not_usesStack {word : Word} {instruction : Instruction}
    (read : word.instruction? = some instruction) (pushless : ¬ word.Pushes)
    (popless : ¬ word.Pops) : ¬ instruction.UsesStack := by
  have known := opcode?_of_instruction? read
  cases instruction with
  | call | push => exact absurd (by simp [Pushes, known, Instruction.opcode]) pushless
  | ret | pop => exact absurd (by simp [Pops, known, Instruction.opcode]) popless
  | move | loadValue | loadMemory | storeMemory | arithmetic | shift | jumpIfLess | output | halt =>
    exact id

namespace Machine

variable {machine start after : Machine} {word : Word} {deed : Deed} {intervention : Intervention}
  {result : Result} {configuration : Configuration} {program : List Word} {sink : Sink}

section Registers

/-- The sizes are those that the machine was built with, and the registers hold values of their
width. Cells and slots may hold anything. -/
structure Regular (configuration : Configuration) (program : List Word) (machine : Machine) :
    Prop where
  shaped : machine.Shaped configuration program
  fit : machine.registers.Fit

namespace Regular

theorem fresh (valid : configuration.Valid) (program : List Word) (sink : Sink) :
    (fresh configuration program sink).Regular configuration program :=
  ⟨shaped_fresh valid program sink, (Bounded.fresh valid program sink).registers_fit⟩

variable (regular : machine.Regular configuration program)

include regular

/-- Any value may be pushed, whatever the stack pointer is. -/
theorem afterPush {value : Nat} {stack : Stack} {registers : Registers}
    (pushed : machine.stack.push machine.registers value = .ok (stack, registers)) :
    Regular configuration program { machine with stack := stack, registers := registers } := by
  obtain ⟨shaped, fit⟩ := regular
  obtain ⟨room, rfl, rfl⟩ := Stack.push_eq_ok pushed
  exact ⟨{ shaped with width_eq := shaped.width_eq, capacity_eq := shaped.capacity_eq },
    fit.setSp _⟩

theorem afterWrite (write : machine.Write after) : after.Regular configuration program :=
  ⟨write.shaped regular.shaped, write.fit regular.fit⟩

theorem afterResponds {query : Query} {reply : Reply}
    (responded : machine.Responds query after reply) : after.Regular configuration program := by
  cases responded with
  | call returned =>
    exact returned.writes.keeps regular fun _ _ write stays => stays.afterWrite write
  | push value =>
    unfold pushValue
    split
    · rename_i pushed
      exact regular.afterPush pushed
    · exact regular
  | pop =>
    unfold popValue
    split
    · rename_i popped
      exact regular.afterWrite (.pop _ _ popped)
    · exact regular
    · exact regular

theorem adjust (adjustment : Adjustment) :
    (machine.adjust adjustment).1.Regular configuration program := by
  cases adjustment with
  | register target value => exact regular.afterWrite (.register target value)
  | ip value => exact regular.afterWrite (.jump value)
  | sp value =>
    exact ⟨{ regular.shaped with width_eq := regular.shaped.width_eq }, regular.fit.setSp value⟩
  | cell address value =>
    simp only [Machine.adjust]
    split
    · rename_i memory stored
      have size := (Memory.size_write stored).trans regular.shaped.size_eq
      exact ⟨{ regular.shaped with size_eq := size }, regular.fit⟩
    · exact regular

theorem tampered (tampered : machine.Tampered after) : after.Regular configuration program := by
  induction tampered with
  | start => exact regular
  | undergo _ undergone _ ih =>
    cases undergone with
    | query responded => exact ih.afterResponds responded
    | adjust adjustment => exact ih.adjust adjustment

end Regular

end Registers

section Pops

theorem step_eq_missingSlot_iff (machine : Machine) :
    machine.step.outcome = .missingSlot ↔ machine.StepsAstray := by
  unfold StepsAstray step
  dsimp only
  split
  · rename_i absent
    simp [absent]
  · rename_i word present
    simp only [outcome_eq_missingSlot_iff, present, Option.some.injEq, exists_eq_left']
    rfl

theorem goes_succ_iff (machine : Machine) (count : Nat) :
    machine.Goes (count + 1) ↔
      machine.step.outcome = .ok false ∧ machine.step.machine.Goes count := by
  constructor
  · intro goes
    refine ⟨goes 0 (Nat.succ_pos count), fun earlier low => ?_⟩
    rw [after_step]
    exact goes (earlier + 1) (Nat.succ_lt_succ low)
  · rintro ⟨first, rest⟩ earlier low
    cases earlier with
    | zero => exact first
    | succ earlier =>
      rw [← after_step]
      exact rest earlier (Nat.lt_of_succ_lt_succ low)

/-- A pop outside the stack comes at once, or after a step that goes on. -/
theorem exists_astray_succ_iff (machine : Machine) (budget : Nat) :
    (∃ count < budget + 1, machine.Goes count ∧ (machine.after count).StepsAstray) ↔
      machine.StepsAstray ∨ machine.step.outcome = .ok false ∧
        ∃ count < budget, machine.step.machine.Goes count ∧
          (machine.step.machine.after count).StepsAstray := by
  constructor
  · rintro ⟨count, low, goes, astray⟩
    cases count with
    | zero => exact .inl astray
    | succ count =>
      obtain ⟨going, rest⟩ := (machine.goes_succ_iff count).mp goes
      rw [← after_step] at astray
      exact .inr ⟨going, count, Nat.lt_of_succ_lt_succ low, rest, astray⟩
  · rintro (astray | ⟨going, count, low, rest, astray⟩)
    · have nothing : machine.Goes 0 := fun earlier low => absurd low (Nat.not_lt_zero earlier)
      exact ⟨0, Nat.succ_pos budget, nothing, astray⟩
    · rw [after_step] at astray
      have goes := (machine.goes_succ_iff count).mpr ⟨going, rest⟩
      exact ⟨count + 1, Nat.succ_lt_succ low, goes, astray⟩

/-- A run pops outside the stack where its steps come to such a pop before anything else ends it. -/
theorem outcome_runFor_eq_missingSlot_iff (machine : Machine) (budget : Nat) :
    (machine.runFor budget).outcome = .missingSlot ↔
      ∃ count < budget, machine.Goes count ∧ (machine.after count).StepsAstray := by
  induction budget generalizing machine with
  | zero =>
    have ends : (Run.settle 0 (Run.start machine)).stop? ≠ some .missingSlot :=
      Run.settle_ne_missingSlot (by simp [Run.start]) 0
    have other : (machine.runFor 0).outcome ≠ .missingSlot := Run.outcome_ne_missingSlot ends
    simp [other]
  | succ budget ih =>
    rw [exists_astray_succ_iff, ← ih, ← step_eq_missingSlot_iff]
    by_cases ended : machine.isPastEnd
    · obtain ⟨-, halted⟩ := step_of_isPastEnd ended
      obtain ⟨-, -, answered⟩ := runFor_of_isPastEnd ended (budget + 1)
      simp [halted, answered]
    · by_cases going : machine.step.outcome = .ok false
      · rw [(runFor_of_step ended going budget).2, Outcome.map_eq_missingSlot_iff]
        simp [going]
      · rw [(runFor_of_last_step ended going budget).2, Outcome.map_eq_missingSlot_iff]
        simp [going]

/-- A run without a budget answers what a run answers that came to a pop outside the stack. -/
theorem returns_freely_astray {count : Nat} (goes : machine.Goes count)
    (astray : (machine.after count).StepsAstray) (after : Machine) (answer : Answer) :
    machine.Returns (.run none) after answer ↔
      after = (machine.runFor (count + 1)).machine ∧ answer = .summary .missingSlot := by
  have missing : (machine.runFor (count + 1)).outcome = .missingSlot :=
    (machine.outcome_runFor_eq_missingSlot_iff (count + 1)).mpr
      ⟨count, Nat.lt_succ_self count, goes, astray⟩
  have finished : ¬ machine.Spends (count + 1) := by
    intro spends
    have spent := (machine.outcome_runFor_eq_iff (count + 1) (count + 1)).mpr ⟨spends, rfl⟩
    rw [missing] at spent
    contradiction
  rw [returns_freely_iff finished, missing]

theorem returns_missingSlot_iff {call : Call} {answer : Answer}
    (returned : machine.Returns call after answer) :
    answer.IsMissingSlot ↔ machine.Misses (.query (.call call)) := by
  cases returned with
  | step => exact machine.step_eq_missingSlot_iff
  | execute word => exact outcome_eq_missingSlot_iff
  | runFor budget => exact machine.outcome_runFor_eq_missingSlot_iff budget
  | runFreely fuel run ended =>
    constructor
    · intro missing
      obtain ⟨rfl, stopped⟩ := (machine.run?_eq_some_iff fuel run).mp ended
      obtain ⟨stop, stopped⟩ := Option.isSome_iff_exists.mp stopped
      have settled : machine.runFor fuel = (Run.start machine).drive fuel :=
        Run.settle_of_stop stopped fuel
      have within := (machine.outcome_runFor_eq_missingSlot_iff fuel).mp (settled ▸ missing)
      obtain ⟨count, -, astray⟩ := within
      exact ⟨count, astray⟩
    · rintro ⟨count, goes, astray⟩
      have free : machine.Returns (.run none) _ _ := .runFreely fuel run ended
      obtain ⟨-, same⟩ := (returns_freely_astray goes astray _ _).mp free
      rw [same]
      rfl

theorem popValue_eq_missingSlot_iff (machine : Machine) :
    machine.popValue.2 = .missingSlot ↔ machine.Strays := by
  rw [Strays, ← Stack.pop_eq_missingSlot_iff]
  unfold popValue
  split <;> simp_all

theorem pushValue_ne_missingSlot (machine : Machine) (value : Nat) :
    (machine.pushValue value).2 ≠ .missingSlot := by
  unfold pushValue
  split <;> simp

theorem adjust_ne_missingSlot (machine : Machine) (adjustment : Adjustment) :
    (machine.adjust adjustment).2 ≠ .missingSlot := by
  unfold adjust
  split
  case h_4 => split <;> simp
  all_goals simp

/-- A slot is missing exactly where an intervention comes to a pop outside the stack. -/
theorem Undergoes.missingSlot_iff (undergone : machine.Undergoes intervention after result) :
    result.IsMissingSlot ↔ machine.Misses intervention := by
  cases undergone with
  | query responded =>
    cases responded with
    | call returned => exact returns_missingSlot_iff returned
    | push value => exact iff_of_false (machine.pushValue_ne_missingSlot value) id
    | pop => exact machine.popValue_eq_missingSlot_iff
  | adjust adjustment => exact iff_of_false (machine.adjust_ne_missingSlot adjustment) id

/-- A pop outside the stack is the end of the intervention, also of a run without a budget. -/
theorem Misses.ends (misses : machine.Misses intervention) :
    ∃ after result, machine.Undergoes intervention after result := by
  cases intervention with
  | adjust adjustment => exact ⟨_, _, .adjust adjustment⟩
  | query query =>
    cases query with
    | push value => exact ⟨_, _, .query (.push value)⟩
    | pop => exact ⟨_, _, .query .pop⟩
    | call call =>
      cases call with
      | step => exact ⟨_, _, .query (.call .step)⟩
      | execute word => exact ⟨_, _, .query (.call (.execute word))⟩
      | run budget? =>
        cases budget? with
        | some budget => exact ⟨_, _, .query (.call (.runFor budget))⟩
        | none =>
          obtain ⟨count, goes, astray⟩ := misses
          have ended := (returns_freely_astray goes astray _ _).mpr ⟨rfl, rfl⟩
          exact ⟨_, _, .query (.call ended)⟩

end Pops

section Others

/-- A push onto a full stack, or onto one that the stack pointer has left, changes nothing. -/
theorem pushValue_of_full (full : machine.stack.capacity ≤ machine.registers.sp + 1) (value : Nat) :
    machine.pushValue value = (machine, .fault .stackOverflow) := by
  rw [pushValue, (Stack.push_eq_error_iff _).mpr ⟨full, rfl⟩]

/-- The same goes for a word that pushes. -/
theorem does_of_full (full : machine.stack.capacity ≤ machine.registers.sp + 1)
    (read : machine.word? deed = some word) (pushes : word.Pushes) :
    (machine.does deed).outcome = .fault .stackOverflow ∧
      (machine.does deed).machine.stack = machine.stack ∧
        (machine.does deed).machine.registers = machine.advanced deed := by
  have causes : (machine.ready word deed).Causes word .stackOverflow := by
    cases deed <;> exact ⟨pushes, full⟩
  have stack : (machine.ready word deed).stack = machine.stack := by
    cases deed <;> rfl
  obtain ⟨faulted, same⟩ := does_of_causes read (fun _ => Fault.noConfusion) Fault.noConfusion causes
  rw [same]
  exact ⟨faulted, stack, registers_ready machine word deed⟩

/-- An instruction that does not use the stack does not see it. -/
theorem perform_restack (machine : Machine) (stack : Stack) (sp : Nat) {instruction : Instruction}
    (stackless : ¬ instruction.UsesStack) :
    (machine.restack stack sp).perform instruction =
      (machine.perform instruction).restack stack sp := by
  by_cases memoryless : ¬ instruction.UsesMemory
  · have kept : (machine.perform instruction).machine.memory = machine.memory :=
      perform_memory fun rd address same => memoryless (same ▸ trivial)
    rw [restack, perform_rehouse machine machine.memory stack sp stackless memoryless,
      Effect.restack, kept]
  · cases instruction with
    | loadMemory rd address =>
      simp only [perform, restack, rehouse, Registers.write_withSp]
      cases machine.memory.read address <;> rfl
    | storeMemory rd address =>
      simp only [perform, restack, rehouse, Registers.read_withSp]
      cases machine.memory.write address (machine.registers.read rd) <;> rfl
    | _ => exact absurd id memoryless

theorem execute_restack (machine : Machine) (stack : Stack) (sp : Nat) (pushless : ¬ word.Pushes)
    (popless : ¬ word.Pops) :
    (machine.restack stack sp).execute word = (machine.execute word).restack stack sp := by
  unfold execute
  split
  · rename_i instruction read
    exact machine.perform_restack stack sp (Word.not_usesStack read pushless popless)
  · rfl

theorem does_restack (machine : Machine) (stack : Stack) (sp : Nat)
    (read : machine.word? deed = some word) (pushless : ¬ word.Pushes) (popless : ¬ word.Pops) :
    (machine.restack stack sp).does deed = (machine.does deed).restack stack sp := by
  cases deed with
  | execute other =>
    obtain rfl : other = word := Option.some.inj read
    exact machine.execute_restack stack sp pushless popless
  | step =>
    have present : machine.program[machine.registers.ip]? = some word := read
    have also : (machine.restack stack sp).program[(machine.restack stack sp).registers.ip]? =
      some word := present
    have executed := (machine.fetched word).execute_restack stack sp pushless popless
    have fetched : (machine.restack stack sp).fetched word =
      (machine.fetched word).restack stack sp := rfl
    simp only [does, step, also, present, fetched, executed]
    rfl

end Others

/-- Where the stack pointer of a machine may be anything, a slot is missing exactly where an
intervention comes to a pop with the stack pointer outside the stack. A push that finds no room only
faults, and any other word does not see the stack. -/
structure Confined (machine : Machine) : Prop where
  missing : ∀ intervention after result, machine.Undergoes intervention after result →
    (result.IsMissingSlot ↔ machine.Misses intervention)
  ends : ∀ intervention, machine.Misses intervention →
    ∃ after result, machine.Undergoes intervention after result
  push_full : machine.stack.capacity ≤ machine.registers.sp + 1 →
    ∀ value, machine.pushValue value = (machine, .fault .stackOverflow)
  pushes_full : machine.stack.capacity ≤ machine.registers.sp + 1 →
    ∀ deed word, machine.word? deed = some word → word.Pushes →
      (machine.does deed).outcome = .fault .stackOverflow ∧
        (machine.does deed).machine.stack = machine.stack ∧
          (machine.does deed).machine.registers = machine.advanced deed
  others : ∀ deed word, machine.word? deed = some word → ¬ word.Pushes → ¬ word.Pops →
    ∀ stack sp, (machine.restack stack sp).does deed = (machine.does deed).restack stack sp

theorem confined (machine : Machine) : machine.Confined where
  missing := fun _ _ _ undergone => undergone.missingSlot_iff
  ends := fun _ misses => misses.ends
  push_full := pushValue_of_full
  pushes_full := fun full _ _ => does_of_full full
  others := fun _ _ read pushless popless stack sp =>
    machine.does_restack stack sp read pushless popless

/-- Whatever a host does to a machine, the machine keeps its sizes and its program, its registers
hold values of its width, and it misses a slot only where it pops outside the stack. -/
theorem tampering_confined (created : create configuration program sink = .ok start)
    (tampered : start.Tampered machine) :
    machine.Shaped configuration program ∧ machine.registers.Fit ∧ machine.Confined := by
  obtain ⟨valid, rfl⟩ := create_eq_ok created
  obtain ⟨shaped, fit⟩ := (Regular.fresh valid program sink).tampered tampered
  exact ⟨shaped, fit, machine.confined⟩

/-- In a machine of four bits, the host stores a hundred and points the stack pointer at a slot that
is not there. The load keeps the low bits of the hundred, a push overflows, and the run comes to a
pop after one step. -/
theorem tampering_confined_astray :
    let configuration : Configuration := ⟨4, 1, 2⟩
    let start := fresh configuration [4, 25] {}
    let stored := (start.adjust (.cell 0 100)).1
    let machine := (stored.adjust (.sp 25)).1
    create configuration [4, 25] {} = .ok start ∧ start.Tampered machine ∧
      machine.registers.sp = 9 ∧ machine.step.machine.registers.a = 4 ∧
        (machine.runFor 2).outcome = .missingSlot ∧
          machine.Misses (.query (.call (.run (some 2)))) ∧
            (machine.execute 8).outcome = .fault .stackOverflow ∧
              machine.Shaped configuration [4, 25] ∧ machine.registers.Fit ∧ machine.Confined := by
  intro configuration start stored machine
  have created : create configuration [4, 25] {} = .ok start := by rfl
  have tampered : start.Tampered machine :=
    (Tampered.start.undergo (.adjust (.cell 0 100)) (start.adjust_ne_missingSlot _)).undergo
      (.adjust (.sp 25)) (stored.adjust_ne_missingSlot _)
  obtain ⟨shaped, fit, confined⟩ := tampering_confined created tampered
  have missing : (machine.runFor 2).outcome = .missingSlot := by decide +kernel
  have misses : machine.Misses (.query (.call (.run (some 2)))) :=
    (confined.missing _ _ _ (.query (.call (.runFor 2)))).mp missing
  have overflow : (machine.execute 8).outcome = .fault .stackOverflow :=
    (confined.pushes_full (by decide) (.execute 8) 8 rfl (by decide)).1
  exact ⟨created, tampered, by decide +kernel, by decide +kernel, missing, misses, overflow, shaped,
    fit, confined⟩

end Machine

end RegisterMachine
