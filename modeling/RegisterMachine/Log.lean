import RegisterMachine.Configuration
import RegisterMachine.Fault
import RegisterMachine.Instruction
import RegisterMachine.Source.Complaint

/-!
The records that assembling, running and the command line leave in the log.
-/

namespace RegisterMachine

/-- The levels are listed from the most to the least urgent. -/
inductive Level where
  | error
  | warn
  | info
  | debug
  | trace
deriving DecidableEq, Repr

namespace Level

def rank : Level → Nat
  | .error => 0
  | .warn => 1
  | .info => 2
  | .debug => 3
  | .trace => 4

/-- A log that is open up to a level holds the records of that level and of more urgent ones. -/
def admits (limit level : Level) : Bool := decide (level.rank ≤ limit.rank)

end Level

inductive Record where
  | complaint (cause : Source.Complaint)
  | assembled (instructions labels : Nat)
  | fetched (address : Nat) (word : Word)
  /-- The dividend is named first. -/
  | divisionFailed (dividend divisor : Register)
  | pastEnd (address : Nat)
  | budgetSpent (budget : Nat)
  /-- A fault is reported with the place and the word of the instruction that caused it. -/
  | faulted (fault : Fault) (address : Nat) (word : Word)
  /-- A fault before any instruction has no place. -/
  | failed (fault : Fault)
  | ran (steps : Nat) (halted : Bool)
  | badNumber (option text : String)
  | badConfiguration (defect : Configuration.Defect)
deriving DecidableEq, Repr

namespace Record

def level : Record → Level
  | .complaint _ => .warn
  | .assembled _ _ => .info
  | .fetched _ _ => .trace
  | .divisionFailed _ _ => .debug
  | .pastEnd _ => .info
  | .budgetSpent _ => .info
  | .faulted _ _ _ => .error
  | .failed _ => .error
  | .ran _ _ => .info
  | .badNumber _ _ => .error
  | .badConfiguration _ => .error

/-- The part of the program that a record comes from. -/
def target : Record → String
  | .complaint cause =>
    match cause with
    | .gluedNumber => "regvm_lib::assembler::lexer"
    | .noKeyword _ _ => "regvm_lib::assembler"
    | _ => "regvm_lib::logger"
  | .assembled _ _ => "regvm_lib::assembler"
  | .fetched _ _ => "regvm_lib::interpreter::machine"
  | .divisionFailed _ _ => "regvm_lib::interpreter::execute"
  | .pastEnd _ => "regvm_lib::interpreter::machine"
  | .budgetSpent _ => "regvm_lib::interpreter::machine"
  | .faulted _ _ _ => "regvm_lib::logger"
  | .failed _ => "regvm"
  | .ran _ _ => "regvm"
  | .badNumber _ _ => "regvm"
  | .badConfiguration _ => "regvm"

/-- An address is written in at least four digits. -/
def place (address : Nat) : String := Numeral.padded 10 4 address

def message : Record → String
  | .complaint cause => cause.message
  | .assembled instructions labels =>
    s!"Assembled {instructions} instructions ({labels} labels)"
  | .fetched address word => s!"{place address} 0x{word.hex} {word.text}"
  | .divisionFailed dividend divisor => s!"DIV {dividend.name} {divisor.name} faulted"
  | .pastEnd address => s!"IP {address} is past the end of the program, halting"
  | .budgetSpent budget => s!"Step budget of {budget} exhausted"
  | .faulted fault address word =>
    s!"[Error] {fault.message} at {place address} ({word.text}). Exiting..."
  | .failed fault => fault.message
  | .ran steps halted => s!"Ran {steps} instructions (halted: {halted})"
  | .badNumber option text => s!"--{option} expects a number, got '{text}'"
  | .badConfiguration defect => defect.message

end Record

/-- A log is open up to a level. Whoever writes it decides what the line of a record looks like, given
its level, the part of the program it comes from, and its message. -/
structure Log where
  limit : Level
  line : Level → String → String → String

/-- The line of a record. -/
def Log.entry (log : Log) (record : Record) : String :=
  log.line record.level record.target record.message

end RegisterMachine
