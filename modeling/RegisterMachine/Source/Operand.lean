import RegisterMachine.Instruction
import RegisterMachine.Source.Line

/-!
The operands of a statement, and the instruction that it stands for.

Each statement is read from left to right except that keywords come before the operands they
govern, and reading stops at the first complaint.
-/

namespace RegisterMachine.Source

/-- The addresses of the labels of a program. -/
abbrev Labels := List (String × Nat)

/-- The name of a register may be written in either case. -/
def Token.register (token : Token) : Except Complaint Register :=
  match token.symbol with
  | .name name =>
    match Register.ofName? name.toUpper with
    | some register => .ok register
    | none => .error (.unknownRegister token.start name)
  | symbol => .error (.unexpected .register symbol)

/-- A value stands below the size of its field. -/
def Token.fit (token : Token) (size value : Nat) : Except Complaint (Fin size) :=
  if small : value < size then
    .ok ⟨value, small⟩
  else
    .error (.tooLarge token.start value (size - 1))

/-- A value is a number, or a label in the case in which it was defined. -/
def Token.value (token : Token) (labels : Labels) (size : Nat) : Except Complaint (Fin size) :=
  match token.symbol with
  | .number value => token.fit size value
  | .name name =>
    match labels.lookup name with
    | some address => token.fit size address
    | none => .error (.unknownLabel token.start name)
  | symbol => .error (.unexpected .value symbol)

/-- A keyword may be written in either case. -/
def Token.keyword {α : Type} (token : Token) (choices : List (String × α)) : Except Complaint α :=
  let complaint := Complaint.noKeyword (choices.map Prod.fst) token.symbol
  match token.symbol with
  | .name name =>
    match choices.lookup name.toUpper with
    | some choice => .ok choice
    | none => .error complaint
  | _ => .error complaint

def operationKeywords : List (String × Operation) :=
  [.add, .sub, .mul, .div].map fun operation => (operation.name, operation)

def destinationKeywords : List (String × Destination) :=
  [.rs, .rd].map fun destination => (destination.name, destination)

def directionKeywords : List (String × Direction) :=
  [.left, .right].map fun direction => (direction.name, direction)

def formatKeywords : List (String × OutputFormat) :=
  [.decimal, .binary, .hexadecimal, .character].map fun format => (format.name, format)

/-- An output format is a keyword or the selector byte itself. -/
def Token.selector (token : Token) (labels : Labels) : Except Complaint Byte :=
  match token.symbol with
  | .number _ => token.value labels 256
  | _ => do
    let format ← token.keyword formatKeywords
    return ⟨format.selector, format.selector_lt⟩

namespace Statement

/-- A statement with the wrong number of operands is not read any further. -/
def miscounted (statement : Statement) : Complaint :=
  .operandCount statement.position statement.opcode statement.operands.length

def instruction (statement : Statement) (labels : Labels) : Except Complaint Instruction :=
  match statement.opcode, statement.operands with
  | .cal, [target] => do
    let target ← target.value labels 1024
    return .call target
  | .ret, [] => .ok .ret
  | .mov, [rd, rs] => do
    let rd ← rd.register
    let rs ← rs.register
    return .move rd rs
  | .ldv, [rd, value] => do
    let rd ← rd.register
    let value ← value.value labels 1024
    return .loadValue rd value
  | .ldr, [rd, address] => do
    let rd ← rd.register
    let address ← address.value labels 1024
    return .loadMemory rd address
  | .ldm, [rd, address] => do
    let rd ← rd.register
    let address ← address.value labels 1024
    return .storeMemory rd address
  | .ath, [rd, rs, operation, destination] => do
    let operation ← operation.keyword operationKeywords
    let destination ← destination.keyword destinationKeywords
    let rd ← rd.register
    let rs ← rs.register
    return .arithmetic rd rs operation destination
  | .sft, [rs, direction, amount] => do
    let direction ← direction.keyword directionKeywords
    let amount ← amount.value labels 256
    let rs ← rs.register
    return .shift rs direction amount
  | .psh, [rs] => do
    let rs ← rs.register
    return .push rs
  | .pop, [rd] => do
    let rd ← rd.register
    return .pop rd
  | .jlt, [rd, target] => do
    let rd ← rd.register
    let target ← target.value labels 1024
    return .jumpIfLess rd target
  | .out, [rs, format] => do
    let selector ← format.selector labels
    let rs ← rs.register
    return .output rs selector
  | .hlt, [] => .ok .halt
  | _, _ => .error statement.miscounted

end Statement

end RegisterMachine.Source
