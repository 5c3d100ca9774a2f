import RegisterMachine.Numeral

/-!
What stops a machine abnormally.
-/

namespace RegisterMachine

/-- The kind of an error of the receiver of the output, by its name. There are many kinds, and a
receiver may have any of them. -/
structure OutputError where
  name : String
deriving DecidableEq, Repr

namespace OutputError

/-- The receiver takes no more bytes. -/
def writeZero : OutputError := ⟨"WriteZero"⟩

/-- Nothing was written, and it is worth another try. -/
def interrupted : OutputError := ⟨"Interrupted"⟩

end OutputError

inductive Fault where
  | stackOverflow
  | stackUnderflow
  | unknownOpcode (number : Nat)
  | divisionByZero
  | memoryOutOfBounds (address : Nat)
  | output (error : OutputError)
deriving DecidableEq, Repr

def Fault.message : Fault → String
  | .stackOverflow => "Stack overflow"
  | .stackUnderflow => "Stack underflow"
  | .unknownOpcode number => s!"Unknown opcode {number}"
  | .divisionByZero => "Division by zero"
  | .memoryOutOfBounds address => s!"Memory address {address} out of bounds"
  | .output error => s!"Output failed: {error.name}"

end RegisterMachine
