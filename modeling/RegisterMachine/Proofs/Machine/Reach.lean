import RegisterMachine.Proofs.Machine.Pointer
import RegisterMachine.Proofs.Machine.Safety
import RegisterMachine.Proofs.Source.Targets

/-!
How far the instruction pointer gets.

The pointer is reduced by the width, but the length of a program is not. A program that is shorter
than the pointer can count has an end, and running off its last word leaves the pointer there. In
any other program the pointer goes around, and no step or run ever gets to an end. A jump to a label
that the pointer can count goes on with the word after the label.
-/

namespace RegisterMachine

/-- The machine of a run that is over shows why: it is past the end, or it fetched a halt last. -/
def Run.Justified (run : Run) : Prop :=
  match run.stop? with
  | some .pastEnd => run.machine.isPastEnd
  | some .halt =>
    ∃ address word, run.machine.lastFetched = some (address, word) ∧ word.opcode? = some .hlt
  | _ => True

/-- A run has stopped at a halt that it fetched, at a fault, or with its budget spent. -/
inductive Run.StopsInside (budget? : Option Nat) (run : Run) : Prop where
  | halt {address : Nat} {word : Word} (stopped : run.stop? = some .halt)
      (fetched : run.machine.lastFetched = some (address, word))
      (halts : word.opcode? = some .hlt)
  | fault {reason : Fault} (stopped : run.stop? = some (.fault reason))
  | spent (unstopped : run.stop? = none) (budget : budget? = some run.steps)

namespace Machine

/-- The addresses at which a call fetches. A run without a budget need not end. -/
inductive Fetches (machine : Machine) : Call → Nat → Prop where
  | step {address : Nat} (member : address ∈ machine.step.events.filterMap Event.address?) :
      Fetches machine .step address
  | runFor {address : Nat} (budget : Nat) (member : address ∈ (machine.runFor budget).addresses) :
      Fetches machine (.run (some budget)) address
  | runFreely {address : Nat} (fuel : Nat)
      (member : address ∈ ((Run.start machine).drive fuel).addresses) :
      Fetches machine (.run none) address

/-- A machine that never comes to the end of its program. -/
structure Endless (machine : Machine) (width : Nat) : Prop where
  /-- Also in the middle of a run, which is after some steps. -/
  inside : ∀ count, ¬ (machine.after count).isPastEnd
  around : machine.registers.ip + 1 = modulus width →
    ∀ word, machine.program[machine.registers.ip]? = some word → machine.goal? word = none →
      machine.step.machine.registers.ip = 0
  within : ∀ budget, (machine.runFor budget).StopsInside (some budget)
  freely : ∀ fuel run, machine.run? fuel = some run → run.StopsInside none

/-- A machine whose pointer is at an address of its program, or at the end. -/
structure Lands (machine : Machine) (program : List Word) (target : Nat) : Prop where
  ip_eq : machine.registers.ip = target
  target_le : target ≤ program.length
  fetches : ∀ word, program[target]? = some word →
    machine.step.events.head? = some (.record (.fetched target word))
  halts_iff : machine.step = ⟨machine, .ok true, [.record (.pastEnd target)]⟩ ↔
    target = program.length

/-- A call that completes, or a jump that is taken. -/
def Transfers (machine : Machine) (opcode : Opcode) (word : Word) : Prop :=
  opcode = .cal ∧ machine.step.outcome = .ok false ∨ opcode = .jlt ∧ machine.Jumps word

/-- Where a machine with a program can get. -/
structure Reaches (machine : Machine) (program : List Word) (width : Nat) : Prop where
  fetches : ∀ call address, machine.Fetches call address →
    address < min program.length (modulus width)
  moves : ∀ word, program[machine.registers.ip]? = some word →
    machine.step.machine.registers.ip =
      (machine.goal? word).getD (machine.registers.ip + 1) % modulus width
  endless : modulus width ≤ program.length → machine.Endless width
  ends : program.length < modulus width → machine.registers.ip + 1 = program.length →
    ∀ word, program[machine.registers.ip]? = some word → machine.goal? word = none →
      machine.step.machine.registers.ip = program.length ∧ machine.step.machine.isPastEnd
  lands : ∀ text name target, (Source.assemble text).program? = some program →
    (Source.labelTable text).lookup name = some target → target < modulus width →
      ∀ statement word, (Source.statementsOf text)[machine.registers.ip]? = some statement →
        statement.label? = some name → program[machine.registers.ip]? = some word →
          machine.Transfers statement.opcode word → machine.step.machine.Lands program target

end Machine

namespace Run

variable {run : Run}

/-- A step that halts has fetched a halt. -/
theorem justified_advance (run : Run) : run.advance.Justified := by
  by_cases ended : run.machine.isPastEnd
  · rw [advance, if_pos ended]
    exact ended
  · obtain ⟨word, present⟩ :=
      Option.ne_none_iff_exists'.mp (mt run.machine.isPastEnd_iff.mpr ended)
    have remembered := Machine.lastFetched_step present
    have answer : run.machine.step.outcome =
        ((run.machine.fetched word).execute word).outcome := by
      simp only [Machine.step, present]
    unfold advance
    rw [if_neg ended]
    dsimp only
    split
    · rename_i halted answered
      cases halted with
      | false => exact trivial
      | true => exact ⟨_, word, remembered, Machine.outcome_eq_ok_true_iff.mp (answer ▸ answered)⟩
    · exact trivial
    · exact trivial

theorem Justified.drive (justified : run.Justified) (fuel : Nat) : (run.drive fuel).Justified := by
  induction fuel generalizing run with
  | zero => exact justified
  | succ fuel ih =>
    rw [Run.drive]
    split
    · exact justified
    · exact ih run.justified_advance

theorem Justified.settle (justified : run.Justified) (budget : Nat) :
    (run.settle budget).Justified := by
  unfold Run.settle
  split
  · exact justified
  · rename_i unstopped
    split
    · rename_i ended
      exact ended
    · simp only [Justified, unstopped]

/-- Without an end to get to, there are no other ways to stop. -/
theorem Justified.stopsInside {budget? : Option Nat} (justified : run.Justified)
    (inside : ¬ run.machine.isPastEnd) (present : run.stop? ≠ some .missingSlot)
    (counted : run.stop? = none → budget? = some run.steps) : run.StopsInside budget? := by
  cases stopped : run.stop? with
  | none => exact .spent stopped (counted stopped)
  | some stop =>
    simp only [Justified, stopped] at justified
    cases stop with
    | pastEnd => exact absurd justified inside
    | halt =>
      obtain ⟨address, word, fetched, halts⟩ := justified
      exact .halt stopped fetched halts
    | fault reason => exact .fault stopped
    | missingSlot => exact absurd stopped present

end Run

namespace Machine

variable {machine : Machine} {word : Word} {configuration : Configuration} {program : List Word}

/-- A run that could go on has spent its budget. -/
theorem steps_runFor_of_unstopped {budget : Nat}
    (unstopped : (machine.runFor budget).stop? = none) :
    (machine.runFor budget).steps = budget := by
  have going : ((Run.start machine).drive budget).stop? = none := by
    by_contra finished
    obtain ⟨stop, stopped⟩ := Option.ne_none_iff_exists'.mp finished
    rw [runFor, Run.settle_of_stop stopped, stopped] at unstopped
    contradiction
  rw [runFor, Run.steps_settle, Run.steps_drive_of_unstopped going]
  exact Nat.zero_add budget

theorem Fetches.lt {call : Call} {address : Nat} (fetches : machine.Fetches call address)
    (fit : machine.registers.Fit) :
    address < min machine.program.size (modulus machine.registers.width) := by
  cases fetches with
  | step member =>
    by_cases ended : machine.isPastEnd
    · simp only [Machine.step, machine.isPastEnd_iff.mp ended] at member
      contradiction
    · rw [addresses_step ended, List.mem_singleton] at member
      subst member
      exact Nat.lt_min.mpr ⟨machine.not_isPastEnd_iff.mp ended, fit.ip_lt⟩
  | runFor budget member =>
    exact (((Run.start_visits machine).drive budget).settle budget).lt_of_mem fit member
  | runFreely fuel member => exact ((Run.start_visits machine).drive fuel).lt_of_mem fit member

/-- A step without a goal goes to the next address. -/
theorem ip_step_of_stays (present : machine.program[machine.registers.ip]? = some word)
    (stays : machine.goal? word = none) :
    machine.step.machine.registers.ip = machine.registers.wrap (machine.registers.ip + 1) := by
  rw [ip_step present, stays]
  rfl

/-- A step with a goal that the pointer can count goes there. -/
theorem ip_step_of_goal {target : Nat}
    (present : machine.program[machine.registers.ip]? = some word)
    (sent : machine.goal? word = some target) (near : target < modulus machine.registers.width) :
    machine.step.machine.registers.ip = target := by
  rw [ip_step present, sent]
  exact Registers.wrap_of_lt near

theorem Bounded.endless (bounded : machine.Bounded)
    (full : modulus machine.registers.width ≤ machine.program.size) :
    machine.Endless machine.registers.width := by
  have inside (count : Nat) : ¬ (machine.after count).isPastEnd := by
    have below := (fit_after bounded.registers_fit count).ip_lt
    obtain ⟨same, width⟩ := machine.shaped_after count
    rw [not_isPastEnd_iff, same]
    exact Nat.lt_of_lt_of_le (width ▸ below) full
  have start : (Run.start machine).Justified := trivial
  have visits := Run.start_visits machine
  constructor
  case inside => exact inside
  case around =>
    intro last word present stays
    rw [ip_step_of_stays present stays, last, Registers.wrap_eq_mod, Nat.mod_self]
  case within =>
    intro budget
    have place := ((visits.drive budget).settle budget).place
    exact ((start.drive budget).settle budget).stopsInside (place ▸ inside _)
      (Run.settle_ne_missingSlot (Run.drive_start_ne_missingSlot bounded budget) budget)
      fun unstopped => congrArg some (steps_runFor_of_unstopped unstopped).symm
  case freely =>
    intro fuel run ended
    obtain ⟨rfl, stopped⟩ := (machine.run?_eq_some_iff fuel run).mp ended
    refine (start.drive fuel).stopsInside ((visits.drive fuel).place ▸ inside _)
      (Run.drive_start_ne_missingSlot bounded fuel) ?_
    intro unstopped
    rw [unstopped] at stopped
    contradiction

/-- What a machine does next depends on whether its pointer is at a word or at the end. -/
theorem lands_of_ip {target : Nat} (loaded : machine.program = program.toArray)
    (ip : machine.registers.ip = target) (most : target ≤ program.length) :
    machine.Lands program target := by
  subst ip
  have read := getElem?_program loaded machine.registers.ip
  constructor
  case ip_eq => rfl
  case target_le => exact most
  case fetches =>
    intro word present
    simp only [step, read, present]
    rfl
  case halts_iff =>
    constructor
    · intro halted
      by_contra short
      obtain ⟨word, present⟩ : ∃ word, program[machine.registers.ip]? = some word :=
        ⟨_, List.getElem?_eq_getElem (Nat.lt_of_le_of_ne most short)⟩
      have events := congrArg (fun effect => effect.events.head?) halted
      simp only [step, read, present] at events
      simp at events
    · intro last
      have absent : program[machine.registers.ip]? = none := by
        rw [last]
        exact List.getElem?_eq_none (Nat.le_refl _)
      simp only [step, read, absent]

/-- A call that completes and a jump that is taken have the goal of their word. -/
theorem Transfers.goal? {opcode : Opcode} (transfers : machine.Transfers opcode word)
    (known : word.opcode? = some opcode)
    (present : machine.program[machine.registers.ip]? = some word) :
    machine.goal? word = some word.address.val := by
  obtain ⟨rfl, completed⟩ | ⟨rfl, taken⟩ := transfers
  · simp only [step, present] at completed
    rw [← goal?_fetched machine word]
    exact goal?_of_call known completed
  · exact goal?_of_jumps known taken

theorem Bounded.reaches (bounded : machine.Bounded)
    (shaped : machine.Shaped configuration program) :
    machine.Reaches program configuration.width := by
  have width := shaped.width_eq
  have size : machine.program.size = program.length := by
    rw [shaped.program_eq, List.size_toArray]
  have read := getElem?_program shaped.program_eq
  have kept : machine.step.machine.Shaped configuration program := shaped.after 1
  constructor
  case fetches =>
    intro call address fetches
    rw [← size, ← width]
    exact fetches.lt bounded.registers_fit
  case moves =>
    intro word present
    rw [← width, ← Registers.wrap_eq_mod]
    exact ip_step ((read _).trans present)
  case endless =>
    intro full
    rw [← width, ← size] at full
    exact width ▸ bounded.endless full
  case ends =>
    intro short last word present stays
    have moved : machine.step.machine.registers.ip = program.length := by
      rw [ip_step_of_stays ((read _).trans present) stays, last]
      exact Registers.wrap_of_lt (width.symm ▸ short)
    refine ⟨moved, ?_⟩
    rw [isPastEnd, decide_eq_true_iff, moved, kept.program_eq, List.size_toArray]
  case lands =>
    intro text name target assembled known near statement word found labelled present transfers
    obtain ⟨most, other, same, opcode, value⟩ :=
      Source.exists_value assembled found labelled known
    obtain rfl : word = other := Option.some.inj (present.symm.trans same)
    have wide : word.opcode? ≠ some .sft := by
      rw [opcode]
      obtain ⟨jump, -⟩ | ⟨jump, -⟩ := transfers <;> rw [jump] <;> decide
    have address : word.address.val = target := by
      rw [← value, Word.value, if_neg wide]
    have sent := transfers.goal? opcode ((read _).trans present)
    rw [address] at sent
    exact lands_of_ip kept.program_eq
      (ip_step_of_goal ((read _).trans present) sent (width.symm ▸ near)) most

/-- Whatever a session asks of a machine, its pointer stays within the program and the width. Only a
program that is shorter than the pointer can count has an end, which is where its last word leads,
and a jump to a label leads to the word after the label or to that end. -/
theorem pointer_reaches {sink : Sink} {start : Machine}
    (created : create configuration program sink = .ok start) (reached : start.Reached machine) :
    machine.Reaches program configuration.width := by
  obtain ⟨valid, rfl⟩ := create_eq_ok created
  obtain ⟨shaped, bounded⟩ := reached_bounded valid reached
  exact bounded.reaches shaped

/-- With two bits, three words have an end, and a jump that is taken leads there. With one bit, the
same words have none. -/
theorem pointer_reaches_label :
    let text := "LDV B, 1\nJLT B, end\nHLT\nend:"
    let program : List Word := [83, 218, 12]
    let start := fresh ⟨2, 0, 1⟩ program {}
    let narrow := fresh ⟨1, 0, 1⟩ program {}
    (Source.assemble text).program? = some program ∧
      create ⟨2, 0, 1⟩ program {} = .ok start ∧ start.Reached start.step.machine ∧
        start.step.machine.Reaches program 2 ∧
          start.step.machine.step.machine.Lands program 3 ∧
            create ⟨1, 0, 1⟩ program {} = .ok narrow ∧ narrow.Endless 1 := by
  intro text program start narrow
  have assembled : (Source.assemble text).program? = some program := by decide +kernel
  have created : create ⟨2, 0, 1⟩ program {} = .ok start := by rfl
  have created' : create ⟨1, 0, 1⟩ program {} = .ok narrow := by rfl
  have reached : start.Reached start.step.machine := .call .start .step
  have reaches := pointer_reaches created reached
  have endless := (pointer_reaches created' .start).endless (by decide)
  have known : (Source.labelTable text).lookup "end" = some 3 := by decide +kernel
  have taken : start.step.machine.Transfers .jlt 218 := .inr ⟨rfl, by decide⟩
  have second : ((Source.statementsOf text)[start.step.machine.registers.ip]?.map fun statement =>
      (statement.opcode, statement.label?)) = some (.jlt, some "end") := by
    decide +kernel
  obtain ⟨statement, found, same⟩ := Option.map_eq_some_iff.mp second
  obtain ⟨opcode, labelled⟩ := Prod.mk.inj same
  have lands := reaches.lands text "end" 3 assembled known (by decide) statement 218 found labelled
    (by decide) (opcode ▸ taken)
  exact ⟨assembled, created, reached, reaches, lands, created', endless⟩

end Machine

end RegisterMachine
