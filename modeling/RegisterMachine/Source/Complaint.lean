import RegisterMachine.Opcode
import RegisterMachine.Source.Token

/-!
What can be wrong with source text, and the wording of each complaint.
-/

namespace RegisterMachine.Source

/-- A kind of token that a statement asks for. -/
inductive Wanted where
  | mnemonic
  | register
  | value
deriving DecidableEq, Repr

inductive Complaint where
  | gluedNumber
  | invalidToken (position : Position) (text : String)
  | unknownMnemonic (position : Position) (name : String)
  | duplicateLabel (position : Position) (name : String)
  | distantLabel (position : Position) (name : String) (address : Nat)
  | operandCount (position : Position) (opcode : Opcode) (found : Nat)
  | unknownRegister (position : Position) (name : String)
  | unknownLabel (position : Position) (name : String)
  | tooLarge (position : Position) (value limit : Nat)
  | unexpected (wanted : Wanted) (found : Symbol)
  | noKeyword (keywords : List String) (found : Symbol)
  /-- The loader of hexadecimal words knows lines only. -/
  | invalidWord (line : Nat) (text : String)
deriving DecidableEq, Repr

def Wanted.name : Wanted → String
  | .mnemonic => "mnemonic"
  | .register => "register"
  | .value => "number or label"

/-- A complaint about a place names it first. -/
def Position.report (position : Position) (message : String) : String :=
  s!"Error {position.line}:{position.column}  " ++ message

def Complaint.message : Complaint → String
  | .gluedNumber => "Invalid Number ... can't have identifier tokens"
  | .invalidToken position text => position.report s!"Invalid token '{text}'"
  | .unknownMnemonic position name => position.report s!"Unknown mnemonic '{name}'"
  | .duplicateLabel position name => position.report s!"Duplicate label '{name}'"
  | .distantLabel position name address =>
    position.report s!"Label '{name}' at {address} is past the addressable range"
  | .operandCount position opcode found =>
    position.report s!"{opcode.mnemonic} takes {opcode.arity} operands, found {found}"
  | .unknownRegister position name => position.report s!"Unknown register '{name}'"
  | .unknownLabel position name => position.report s!"Unknown label '{name}'"
  | .tooLarge position value limit => position.report s!"{value} doesn't fit, max is {limit}"
  | .unexpected wanted found =>
    s!"Was expecting token of type {wanted.name} found {found.text}"
  | .noKeyword keywords found =>
    s!"Was expecting one of {Text.quotedList keywords} found {found.text}"
  | .invalidWord line text => Position.report ⟨line, 0⟩ s!"Invalid instruction word '{text}'"

end RegisterMachine.Source
