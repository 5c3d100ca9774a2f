import RegisterMachine.Log
import RegisterMachine.Source.Loading

/-!
The commands of the program and the arguments that ask for them. What was typed is taken apart by an
argument parser, and here is what becomes of its findings.
-/

namespace RegisterMachine.CommandLine

open Source (Format)

/-- What the argument parser has found for a command: the flags that are there, and the texts that
were given for the options and the input. -/
structure Matches where
  isPresent : String → Bool
  value? : String → Option String

/-- What the argument parser has found: how often the verbose flag was given, the command with its
arguments, and the text that tells how the program is called. -/
structure Request where
  verbosity : Nat
  command? : Option (String × Matches)
  usage : String

/-- The sizes are kept as text until the command is carried out. -/
structure RunOptions where
  format : Format
  width? : Option String
  memory? : Option String
  stack? : Option String
  maxSteps? : Option String
  dump : Bool
deriving DecidableEq, Repr

structure InspectOptions where
  format : Format
  tokens : Bool
  words : Bool
  disassembly : Bool
deriving DecidableEq, Repr

namespace Matches

def format (given : Matches) : Format :=
  if given.isPresent "raw" then .hexWords else .assembly

/-- The name of the file. -/
def input (given : Matches) : String := (given.value? "INPUT").getD ""

def runOptions (given : Matches) : RunOptions where
  format := given.format
  width? := given.value? "width"
  memory? := given.value? "memory"
  stack? := given.value? "stack"
  maxSteps? := given.value? "max-steps"
  dump := given.isPresent "dump"

def inspectOptions (given : Matches) : InspectOptions where
  format := given.format
  tokens := given.isPresent "tokens"
  words := given.isPresent "words"
  disassembly := given.isPresent "disasm"

end Matches

/-- The log shows warnings, and each repetition of the verbose flag opens one more level. -/
def limitOf : Nat → Level
  | 0 => .warn
  | 1 => .info
  | 2 => .debug
  | _ => .trace

end RegisterMachine.CommandLine
