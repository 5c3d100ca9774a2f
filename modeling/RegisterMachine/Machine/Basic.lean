import RegisterMachine.Configuration
import RegisterMachine.Memory
import RegisterMachine.Sink
import RegisterMachine.Stack
import RegisterMachine.Word

/-!
A machine: its registers, memory, stack and program, and the sink of its output.
-/

namespace RegisterMachine

structure Machine where
  registers : Registers
  memory : Memory
  stack : Stack
  sink : Sink
  program : Array Word
  /-- The last instruction that a step read, with the address it was read from. -/
  lastFetched : Option (Nat × Word)

namespace Machine

/-- A fresh machine holds zeros and has fetched nothing. -/
def fresh (configuration : Configuration) (program : List Word) (sink : Sink) : Machine where
  registers := Registers.ofWidth configuration.width
  memory := Memory.ofSize configuration.memory
  stack := Stack.ofCapacity configuration.stack
  sink := sink
  program := program.toArray
  lastFetched := none

/-- Why a machine cannot be built. -/
inductive BuildError where
  | defect (defect : Configuration.Defect)
  | hugeMemory
deriving DecidableEq, Repr

/-- A machine is built only from sizes that make sense together, and that leave room for memory. -/
def create (configuration : Configuration) (program : List Word) (sink : Sink) :
    Except BuildError Machine :=
  match configuration.defect? with
  | some defect => .error (.defect defect)
  | none =>
    if configuration.memory < Memory.limit then
      .ok (fresh configuration program sink)
    else
      .error .hugeMemory

/-- There is no instruction to read at or after the end of the program. -/
def isPastEnd (machine : Machine) : Bool :=
  decide (machine.program.size ≤ machine.registers.ip)

end Machine

end RegisterMachine
