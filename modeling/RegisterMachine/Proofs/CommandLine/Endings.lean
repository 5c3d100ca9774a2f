import RegisterMachine.Proofs.CommandLine.Numbers
import RegisterMachine.Proofs.CommandLine.Reloading
import RegisterMachine.Proofs.Machine.Printing
import RegisterMachine.Proofs.Machine.Safety
import RegisterMachine.Proofs.Machine.Trace
import RegisterMachine.Proofs.Source.Loading

/-!
How the command that runs a program ends.

Numbers that cannot be read end it first, then a file without a program, then sizes that do not make
sense together. Otherwise the command is the run of a fresh machine: what the machine prints is
shown, a fault is reported with the instruction that caused it, and the state that is shown
afterwards is the one in which the run has left the machine. The host and the findings of the
argument parser are arbitrary.
-/

namespace RegisterMachine

namespace Machine

/-- The run of a machine within a budget. Without a budget there is one only if it is over at some
time. -/
def Runs (machine : Machine) (budget? : Option Nat) (run : Run) : Prop :=
  match budget? with
  | some budget => machine.runFor budget = run
  | none => ∃ fuel, machine.run? fuel = some run

variable {machine : Machine} {budget? : Option Nat} {run : Run}

theorem Runs.unique {other : Run} (ran : machine.Runs budget? run)
    (again : machine.Runs budget? other) : run = other := by
  cases budget? with
  | none =>
    obtain ⟨fuel, ended⟩ := ran
    obtain ⟨amount, endedToo⟩ := again
    exact run?_unique ended endedToo
  | some budget => exact ran.symm.trans again

theorem Runs.returns (ran : machine.Runs budget? run) :
    machine.Returns (.run budget?) run.machine (.summary run.outcome) := by
  cases budget? with
  | none =>
    obtain ⟨fuel, ended⟩ := ran
    exact .runFreely fuel run ended
  | some budget =>
    obtain rfl := ran
    exact .runFor budget

theorem Runs.relays (ran : machine.Runs budget? run) : run.Relays machine := by
  have driven (fuel : Nat) := (Run.start_relays machine).drive fuel
  cases budget? with
  | none =>
    obtain ⟨fuel, ended⟩ := ran
    obtain ⟨rfl, -⟩ := (machine.run?_eq_some_iff fuel run).mp ended
    exact driven fuel
  | some budget =>
    obtain rfl := ran
    exact (driven budget).settle budget

/-- A run says how it has ended. -/
theorem Runs.logged (ran : machine.Runs budget? run) :
    ∃ fetches closing, machine.Logged budget? run fetches closing := by
  cases budget? with
  | none =>
    obtain ⟨fuel, ended⟩ := ran
    obtain ⟨rfl, stopped⟩ := (machine.run?_eq_some_iff fuel run).mp ended
    exact ((Run.start_tells machine none).drive fuel).logged stopped
  | some budget =>
    obtain rfl := ran
    refine ((Run.start_tells machine (some budget)).drive budget).settle fun unstopped => ?_
    rw [Run.steps_drive_of_unstopped unstopped]
    exact Nat.zero_add budget

end Machine

namespace CommandLine

/-- The lines of some records, whatever the log is open to. -/
def lines (log : Log) (records : List Record) : String := String.join (records.map log.entry)

/-- What is shown of a machine that was built from a configuration, with its live stack slots. -/
def stateText (configuration : Configuration) (program : List Word) (registers : Registers)
    (live : List Nat) : String :=
  listing
    ["", "== Machine State ==",
      s!"A={registers.a} B={registers.b} C={registers.c} D={registers.d} " ++
        s!"IP={registers.ip} SP={registers.sp}",
      s!"Stack ({configuration.stack} slots): [" ++ ", ".intercalate (live.map toString) ++ "]",
      s!"Program: {program.length} words, memory: {configuration.memory} cells"]

/-- The state of a machine is shown only if it was asked for. -/
inductive Dumped (configuration : Configuration) (program : List Word) (machine : Machine) :
    Bool → String → Prop where
  | unasked : Dumped configuration program machine false ""
  | asked {live : List Nat} (present : machine.stack.live? machine.registers = some live) :
      Dumped configuration program machine true
        (stateText configuration program machine.registers live)

/-- Everything is ready for a machine to run: the numbers can be read, the file holds a program, and
the sizes make sense together. The records are those of loading the program. -/
structure Prepared (options : RunOptions) (file? : Option String) (configuration : Configuration)
    (budget? : Option Nat) (program : List Word) (records : List Record) : Prop where
  reads : options.Reads configuration budget?
  loads : ∃ text, file? = some text ∧ Source.Loads options.format text program records
  valid : configuration.Valid

/-- The answers of the command, in the order in which it looks for what is wrong. -/
inductive Yields (options : RunOptions) (log : Log) (file? : Option String) : Response → Prop where
  | badSizes (bad : options.badSizes ≠ []) :
      Yields options log file? ⟨2, lines log (options.badSizes.map NumberText.report)⟩
  | badBudget (good : options.badSizes = []) (bad : options.badBudget ≠ []) :
      Yields options log file? ⟨2, lines log (options.badBudget.map NumberText.report)⟩
  | noFile {configuration : Configuration} {budget? : Option Nat}
      (reads : options.Reads configuration budget?) (missing : file? = none) :
      Yields options log file? ⟨1, ""⟩
  | noProgram {configuration : Configuration} {budget? : Option Nat} {text : String}
      {records : List Record} (reads : options.Reads configuration budget?)
      (present : file? = some text) (rejects : Source.Rejects options.format text records) :
      Yields options log file? ⟨1, shownRecords log records⟩
  | badConfiguration {configuration : Configuration} {budget? : Option Nat} {text : String}
      {program : List Word} {records : List Record} {defect : Configuration.Defect}
      (reads : options.Reads configuration budget?) (present : file? = some text)
      (loads : Source.Loads options.format text program records)
      (defective : configuration.defect? = some defect) :
      Yields options log file?
        ⟨2, shownRecords log records ++ lines log [.badConfiguration defect]⟩
  /-- The report names the instruction at which the run has faulted, and its address. -/
  | faulted {configuration : Configuration} {budget? : Option Nat} {program : List Word}
      {records : List Record} {run : Run} {reason : Fault} {count : Nat} {word : Word}
      {state : String} (prepared : Prepared options file? configuration budget? program records)
      (ran : (Machine.fresh configuration program {}).Runs budget? run)
      (failed : run.outcome = .fault reason)
      (blames : (Machine.fresh configuration program {}).Blames run.machine reason count word)
      (dumped : Dumped configuration program run.machine options.dump state) :
      Yields options log file?
        ⟨1, shownRecords log records ++ shownAll log run.events.toList ++
          lines log [.faulted reason
            ((Machine.fresh configuration program {}).after count).registers.ip word] ++ state⟩
  | finished {configuration : Configuration} {budget? : Option Nat} {program : List Word}
      {records : List Record} {run : Run} {steps : Nat} {halted : Bool} {state : String}
      (prepared : Prepared options file? configuration budget? program records)
      (ran : (Machine.fresh configuration program {}).Runs budget? run)
      (done : run.outcome = .ok (steps, halted))
      (dumped : Dumped configuration program run.machine options.dump state) :
      Yields options log file?
        ⟨0, shownRecords log records ++ shownAll log run.events.toList ++
          shownRecords log [.ran steps halted] ++ state⟩

/-- What a plan comes to. A job is answered when its run is over. -/
inductive Plan.Answers : Plan → Response → Prop where
  | answer (response : Response) : Answers (.answer response) response
  | job {job : Job} {fuel : Nat} {run : Run} (ended : job.run? fuel = some run) :
      Answers (.job job) (job.response run)

/-- What the run of a fresh machine leaves behind. -/
structure FreshRun (configuration : Configuration) (program : List Word) (run : Run) : Prop where
  /-- The sink has taken what the run has printed, and nothing else. -/
  written : run.machine.sink.written = utf8 (printedText run.events.toList)
  /-- Nothing that the run has said is as urgent as a warning. -/
  calm : ∀ event ∈ run.events.toList, event.Calm
  shaped : run.machine.Shaped configuration program
  live : ∃ live, run.machine.stack.live? run.machine.registers = some live
  present : run.outcome ≠ .missingSlot

/-- Every machine that gets to run has a memory that can be addressed, and the host has room for
it. -/
def Roomy (hasRoom : Configuration → Bool) (options : RunOptions) (file? : Option String) : Prop :=
  ∀ configuration budget? program records,
    Prepared options file? configuration budget? program records →
      configuration.memory < Memory.limit ∧ hasRoom configuration = true

section Texts

variable {log : Log}

/-- Errors are shown whatever the log is open to. -/
theorem shownRecords_errors {records : List Record}
    (errors : ∀ record ∈ records, record.level = .error) :
    shownRecords log records = lines log records := by
  have open_log : log.limit.admits .error := decide_eq_true (Nat.zero_le log.limit.rank)
  rw [shownRecords, shownAll, lines, List.map_map]
  congr 1
  refine List.map_congr_left fun record member => ?_
  simp only [Function.comp_apply, shown, errors record member, open_log, if_true]

theorem shownRecords_error {record : Record} (error : record.level = .error) :
    shownRecords log [record] = lines log [record] :=
  shownRecords_errors (List.forall_mem_singleton.mpr error)

/-- The state that is shown is that of a machine with the sizes of its configuration. -/
theorem dumped_eq {configuration : Configuration} {program : List Word} {machine : Machine}
    {live : List Nat} (shaped : machine.Shaped configuration program)
    (present : machine.stack.live? machine.registers = some live) (code : Nat) :
    dumped machine code = ⟨code, stateText configuration program machine.registers live⟩ := by
  obtain ⟨-, memory, capacity, loaded⟩ := shaped
  simp only [dumped, stateText, present, memory, capacity, loaded, List.size_toArray,
    List.cons_append, List.nil_append]

end Texts

section Plans

variable {options : RunOptions} {log : Log} {hasRoom : Configuration → Bool}
  {file? : Option String} {configuration : Configuration} {budget? : Option Nat}
  {program : List Word} {records : List Record} {text : String}

theorem RunOptions.Reads.configuration_eq (reads : options.Reads configuration budget?) :
    options.configuration = .ok configuration :=
  RunOptions.configuration_eq_ok_iff.mpr ⟨reads.width, reads.memory, reads.stack⟩

theorem RunOptions.Reads.budget?_eq (reads : options.Reads configuration budget?) :
    options.budget? = .ok budget? :=
  RunOptions.budget?_eq_ok_iff.mpr reads.budget

theorem exists_configuration (good : options.badSizes = []) :
    ∃ configuration, options.configuration = .ok configuration := by
  cases read : options.configuration with
  | error records => exact absurd good (RunOptions.configuration_eq_error_iff.mp read).1
  | ok configuration => exact ⟨configuration, rfl⟩

/-- Reports of bad numbers are errors. -/
theorem shownRecords_report (log : Log) (given : List NumberText) :
    shownRecords log (given.map NumberText.report) = lines log (given.map NumberText.report) :=
  shownRecords_errors fun _ member => by
    obtain ⟨number, -, rfl⟩ := List.mem_map.mp member
    rfl

theorem plan_of_badSizes (bad : options.badSizes ≠ []) :
    options.plan log hasRoom file? =
      .answer ⟨2, lines log (options.badSizes.map NumberText.report)⟩ := by
  have failed := RunOptions.configuration_eq_error_iff.mpr ⟨bad, rfl⟩
  simp only [RunOptions.plan, failed, shownRecords_report]

theorem plan_of_badBudget (good : options.badSizes = []) (bad : options.badBudget ≠ []) :
    options.plan log hasRoom file? =
      .answer ⟨2, lines log (options.badBudget.map NumberText.report)⟩ := by
  obtain ⟨record, report⟩ := RunOptions.exists_report_badBudget bad
  obtain ⟨configuration, read⟩ := exists_configuration good
  have failed := RunOptions.budget?_eq_error_iff.mpr report
  have shown := shownRecords_report log options.badBudget
  rw [report] at shown ⊢
  simp only [RunOptions.plan, read, failed, shown]

theorem plan_of_noFile (reads : options.Reads configuration budget?) :
    options.plan log hasRoom none = .answer ⟨1, ""⟩ := by
  simp only [RunOptions.plan, reads.configuration_eq, reads.budget?_eq]
  rfl

theorem plan_of_noProgram (reads : options.Reads configuration budget?)
    (rejects : Source.Rejects options.format text records) :
    options.plan log hasRoom (some text) = .answer ⟨1, shownRecords log records⟩ := by
  have refused := Source.load_eq_none_iff.mpr rejects
  simp only [RunOptions.plan, reads.configuration_eq, reads.budget?_eq, refused]

theorem plan_of_badConfiguration {defect : Configuration.Defect}
    (reads : options.Reads configuration budget?)
    (loads : Source.Loads options.format text program records)
    (defective : configuration.defect? = some defect) :
    options.plan log hasRoom (some text) =
      .answer ⟨2, shownRecords log records ++ lines log [.badConfiguration defect]⟩ := by
  have loaded := Source.load_eq_some_iff.mpr loads
  have refused : Machine.create configuration program {} = .error (.defect defect) := by
    simp only [Machine.create, defective]
  have report : shownRecords log [.badConfiguration defect] = lines log [.badConfiguration defect] :=
    shownRecords_error rfl
  simp only [RunOptions.plan, reads.configuration_eq, reads.budget?_eq, loaded, refused,
    shownRecords_append, report]

/-- The job of a command whose machine is ready. -/
def preparedJob (options : RunOptions) (log : Log) (configuration : Configuration)
    (budget? : Option Nat) (program : List Word) (records : List Record) : Job :=
  ⟨log, shownRecords log records, Machine.fresh configuration program {}, budget?, options.dump⟩

theorem plan_of_prepared (prepared : Prepared options file? configuration budget? program records)
    (roomy : Roomy hasRoom options file?) :
    options.plan log hasRoom file? =
      .job (preparedJob options log configuration budget? program records) := by
  obtain ⟨below, room⟩ := roomy _ _ _ _ prepared
  obtain ⟨reads, ⟨text, rfl, loads⟩, valid⟩ := prepared
  have loaded := Source.load_eq_some_iff.mpr loads
  have sound : configuration.defect? = none := configuration.defect?_eq_none_iff.mpr valid
  have built : Machine.create configuration program {} = .ok (.fresh configuration program {}) := by
    simp only [Machine.create, sound, below, if_true]
  simp only [RunOptions.plan, reads.configuration_eq, reads.budget?_eq, loaded, built, room,
    if_true, preparedJob]

end Plans

section Jobs

variable {options : RunOptions} {log : Log} {hasRoom : Configuration → Bool}
  {file? : Option String} {configuration : Configuration} {budget? : Option Nat}
  {program : List Word} {records : List Record} {run : Run} {job : Job} {response : Response}
  {state : String}

theorem exists_run?_iff :
    (∃ fuel, job.run? fuel = some run) ↔ job.machine.Runs job.budget? run := by
  unfold Job.run? Machine.Runs
  cases job.budget? with
  | none => rfl
  | some budget => simp

theorem answers_job_iff :
    (Plan.job job).Answers response ↔
      ∃ run, job.machine.Runs job.budget? run ∧ job.response run = response := by
  constructor
  · intro answered
    cases answered with
    | @job _ fuel run ended => exact ⟨run, exists_run?_iff.mp ⟨fuel, ended⟩, rfl⟩
  · rintro ⟨run, ran, rfl⟩
    obtain ⟨fuel, ended⟩ := exists_run?_iff.mpr ran
    exact .job ended

/-- With everything ready the answers are those to the runs of a fresh machine. -/
theorem Prepared.answers_iff
    (prepared : Prepared options file? configuration budget? program records)
    (roomy : Roomy hasRoom options file?) :
    (options.plan log hasRoom file?).Answers response ↔
      ∃ run, (Machine.fresh configuration program {}).Runs budget? run ∧
        (preparedJob options log configuration budget? program records).response run =
          response := by
  rw [plan_of_prepared prepared roomy, answers_job_iff]
  exact Iff.rfl

/-- A fresh machine starts with an empty sink that takes everything. -/
theorem freshRun (valid : configuration.Valid)
    (ran : (Machine.fresh configuration program {}).Runs budget? run) :
    FreshRun configuration program run := by
  obtain ⟨sent, calm⟩ := ran.relays
  have start : (Machine.fresh configuration program {}).Bounded :=
    (Machine.reached_bounded valid .start).2
  have reached := Machine.reached_bounded valid (.call .start ran.returns)
  constructor
  case written =>
    -- No limit was set, so the most that is taken is all of it.
    have unlimited : ({} : Sink).Keeps {} := Sink.keeps_limit {}
    rw [sent]
    refine (unlimited.receive _).2.trans ?_
    rw [flatten_sentTexts]
    exact List.take_length
  case calm => exact calm
  case shaped => exact reached.1
  case live => exact Option.isSome_iff_exists.mp reached.2.live?_isSome
  case present => exact start.returns_ne_missingSlot ran.returns

/-- The state is shown, so a command is closed without a crash. -/
theorem Dumped.close_eq (dumped : Dumped configuration program run.machine job.dump state)
    (shaped : run.machine.Shaped configuration program) (code : Nat) (record : Record) :
    job.close run.machine code record = ⟨code, shownRecords job.log [record] ++ state⟩ := by
  unfold Job.close
  generalize job.dump = dump at dumped ⊢
  cases dumped with
  | unasked => rfl
  | asked present =>
    rw [if_pos rfl, dumped_eq shaped present]
    rfl

section Responses

variable (dumped : Dumped configuration program run.machine job.dump state)
  (shaped : run.machine.Shaped configuration program)

include dumped shaped

/-- A run that does not fault is only mentioned. -/
theorem response_of_ok {steps : Nat} {halted : Bool} (done : run.outcome = .ok (steps, halted)) :
    job.response run = ⟨0, job.shownBefore ++ shownAll job.log run.events.toList ++
      shownRecords job.log [.ran steps halted] ++ state⟩ := by
  simp only [Job.response, Job.closing, done, dumped.close_eq shaped, Response.after,
    String.append_assoc]

/-- A fault of an instruction that the machine remembers is reported with it. -/
theorem response_of_fault {reason : Fault} {address : Nat} {word : Word}
    (failed : run.outcome = .fault reason)
    (remembered : run.machine.lastFetched = some (address, word)) :
    job.response run = ⟨1, job.shownBefore ++ shownAll job.log run.events.toList ++
      lines job.log [.faulted reason address word] ++ state⟩ := by
  have stopped := Run.outcome_eq_fault_iff.mp failed
  have blamed : run.faultRecord? = some (.faulted reason address word) := by
    simp only [Run.faultRecord?, stopped, remembered]
  have report : shownRecords job.log [.faulted reason address word] =
      lines job.log [.faulted reason address word] := shownRecords_error rfl
  simp only [Job.response, Job.closing, failed, blamed, Option.getD_some, dumped.close_eq shaped,
    report, Response.after, String.append_assoc]

end Responses

end Jobs

section Endings

variable {options : RunOptions} {log : Log} {hasRoom : Configuration → Bool}
  {file? : Option String} {response : Response}

/-- Each of the ways is an answer of the plan. -/
theorem Yields.answers (roomy : Roomy hasRoom options file?)
    (yields : Yields options log file? response) :
    (options.plan log hasRoom file?).Answers response := by
  cases yields with
  | badSizes bad =>
    rw [plan_of_badSizes bad]
    exact .answer _
  | badBudget good bad =>
    rw [plan_of_badBudget good bad]
    exact .answer _
  | noFile reads missing =>
    rw [missing, plan_of_noFile reads]
    exact .answer _
  | noProgram reads present rejects =>
    rw [present, plan_of_noProgram reads rejects]
    exact .answer _
  | badConfiguration reads present loads defective =>
    rw [present, plan_of_badConfiguration reads loads defective]
    exact .answer _
  | faulted prepared ran failed blames dumped =>
    have shaped := (freshRun prepared.valid ran).shaped
    exact (prepared.answers_iff roomy).mpr
      ⟨_, ran, response_of_fault dumped shaped failed blames.remembered⟩
  | finished prepared ran done dumped =>
    have shaped := (freshRun prepared.valid ran).shaped
    exact (prepared.answers_iff roomy).mpr ⟨_, ran, response_of_ok dumped shaped done⟩

theorem Plan.Answers.unique {plan : Plan} {first second : Response} (answered : plan.Answers first)
    (again : plan.Answers second) : first = second := by
  cases plan with
  | answer response =>
    cases answered
    cases again
    rfl
  | starved shownBefore => cases answered
  | job job =>
    obtain ⟨run, ran, rfl⟩ := answers_job_iff.mp answered
    obtain ⟨other, ranToo, rfl⟩ := answers_job_iff.mp again
    rw [ran.unique ranToo]

end Endings

end CommandLine

end RegisterMachine
