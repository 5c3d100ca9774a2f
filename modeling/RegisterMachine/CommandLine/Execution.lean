import RegisterMachine.CommandLine.Request
import RegisterMachine.CommandLine.Response
import RegisterMachine.Machine.Run

/-!
The command that runs a program.

The sizes are read first, then the budget, then the program, and a machine is built last. The
first of these that fails ends the command. A machine that makes sense still needs a host that has
room for it.
-/

namespace RegisterMachine.CommandLine

/-- Four bytes hold a width. -/
def widthLimit : Nat := 4294967296

/-- Eight bytes hold a size or a budget. -/
def sizeLimit : Nat := 18446744073709551616

/-- The exit code of a command that ends without a word on what went wrong. -/
def crashCode : Nat := 101

/-- An option that is not given has its default value. -/
def number (name : String) (limit default : Nat) (text? : Option String) : Except Record Nat :=
  match text? with
  | none => .ok default
  | some text =>
    match Numeral.unsigned? 10 limit text.toList with
    | some value => .ok value
    | none => .error (.badNumber name text)

def failure? {α : Type} : Except Record α → Option Record
  | .ok _ => none
  | .error record => some record

namespace RunOptions

/-- Every size that cannot be read is reported. -/
def configuration (options : RunOptions) : Except (List Record) Configuration :=
  let defaults : Configuration := {}
  let width := number "width" widthLimit defaults.width options.width?
  let memory := number "memory" sizeLimit defaults.memory options.memory?
  let stack := number "stack" sizeLimit defaults.stack options.stack?
  match width, memory, stack with
  | .ok width, .ok memory, .ok stack => .ok ⟨width, memory, stack⟩
  | width, memory, stack => .error ([width, memory, stack].filterMap failure?)

def budget? (options : RunOptions) : Except Record (Option Nat) :=
  match options.maxSteps? with
  | none => .ok none
  | some _ => some <$> number "max-steps" sizeLimit 0 options.maxSteps?

end RunOptions

/-- A machine that is ready to run, and what was shown before. -/
structure Job where
  log : Log
  shownBefore : String
  machine : Machine
  budget? : Option Nat
  dump : Bool

/-- A command is over before anything runs, or it has a job to do. A host without room for the machine
ends the command in a way of its own. -/
inductive Plan where
  | answer (response : Response)
  | starved (shownBefore : String)
  | job (job : Job)

/-- A file that cannot be read ends the command without a word. -/
def RunOptions.plan (options : RunOptions) (log : Log) (hasRoom : Configuration → Bool)
    (file? : Option String) : Plan :=
  let answer (code : Nat) (records : List Record) : Plan :=
    .answer ⟨code, shownRecords log records⟩
  match options.configuration with
  | .error records => answer 2 records
  | .ok configuration =>
    match options.budget? with
    | .error record => answer 2 [record]
    | .ok budget? =>
      match file? with
      | none => answer 1 []
      | some text =>
        let loading := Source.load options.format text
        match loading.program? with
        | none => answer 1 loading.records
        | some program =>
          match Machine.create configuration program {} with
          | .error (.defect defect) => answer 2 (loading.records ++ [.badConfiguration defect])
          | .error .hugeMemory => answer crashCode loading.records
          | .ok machine =>
            let shownBefore := shownRecords log loading.records
            if hasRoom configuration then
              .job ⟨log, shownBefore, machine, budget?, options.dump⟩
            else
              .starved shownBefore

/-- The registers, the live stack and the sizes of a machine. A stack pointer that is not in the stack
crashes the program before the stack is shown. -/
def dumped (machine : Machine) (code : Nat) : Response :=
  let registers := machine.registers
  let pointers := s!"IP={registers.ip} SP={registers.sp}"
  let head := ["", "== Machine State ==",
    s!"A={registers.a} B={registers.b} C={registers.c} D={registers.d} " ++ pointers]
  match machine.stack.live? registers with
  | none => ⟨crashCode, listing head⟩
  | some live =>
    let slots := ", ".intercalate (live.map toString)
    ⟨code, listing (head ++
      [s!"Stack ({machine.stack.capacity} slots): [" ++ slots ++ "]",
        s!"Program: {machine.program.size} words, memory: {machine.memory.size} cells"])⟩

namespace Job

/-- A run without a budget is known only when it is over within the fuel. -/
def run? (job : Job) (fuel : Nat) : Option Run :=
  match job.budget? with
  | some budget => some (job.machine.runFor budget)
  | none => job.machine.run? fuel

/-- The last record is shown, and the state of the machine if it was asked for. -/
def close (job : Job) (machine : Machine) (code : Nat) (record : Record) : Response :=
  let state := if job.dump then dumped machine code else ⟨code, ""⟩
  state.after (shownRecords job.log [record])

/-- What is shown after a run, and the exit code. -/
def closing (job : Job) (run : Run) : Response :=
  match run.outcome with
  | .ok (steps, halted) => job.close run.machine 0 (.ran steps halted)
  | .fault reason => job.close run.machine 1 (run.faultRecord?.getD (.failed reason))
  | .missingSlot => ⟨crashCode, ""⟩

def response (job : Job) (run : Run) : Response :=
  (job.closing run).after (job.shownBefore ++ shownAll job.log run.events.toList)

end Job

end RegisterMachine.CommandLine
