import RegisterMachine.Source.Complaint

/-!
The lines of a program: labels, then at most one statement.
-/

namespace RegisterMachine.Source

/-- A statement is a mnemonic and the tokens after it, commas left out. -/
structure Statement where
  opcode : Opcode
  position : Position
  operands : List Token
deriving DecidableEq, Repr

/-- The part of a line after its labels. -/
inductive Body where
  | empty
  | statement (statement : Statement)
  | unreadable (complaint : Complaint)
deriving DecidableEq, Repr

/-- A label names the address of the statement after it. -/
structure Label where
  name : String
  position : Position
deriving DecidableEq, Repr

structure Line where
  misfits : List Misfit
  labels : List Label
  body : Body
deriving DecidableEq, Repr

namespace Item

def misfit? : Item → Option Misfit
  | .token _ => none
  | .misfit found => some found

def token? : Item → Option Token
  | .token found => some found
  | .misfit _ => none

def isNewline : Item → Bool
  | .token found => found.symbol == .newline
  | .misfit _ => false

/-- Newlines cut the items into lines, so there is always at least one line. -/
def lines (items : List Item) : List (List Item) :=
  items.splitOnP isNewline

end Item

/-- A mnemonic may be written in either case. -/
def Body.ofTokens : List Token → Body
  | [] => .empty
  | head :: operands =>
    match head.symbol with
    | .name name =>
      match Opcode.ofMnemonic? name.toUpper with
      | some opcode =>
        .statement ⟨opcode, head.start, operands.filter fun token => token.symbol != .comma⟩
      | none => .unreadable (.unknownMnemonic head.start name)
    | symbol => .unreadable (.unexpected .mnemonic symbol)

/-- A name with a colon after it is a label, and a line may start with any number of them. -/
def splitLabels : List Token → List Label × List Token
  | first :: second :: rest =>
    match first.symbol, second.symbol with
    | .name name, .colon =>
      let (labels, tokens) := splitLabels rest
      (⟨name, first.start⟩ :: labels, tokens)
    | _, _ => ([], first :: second :: rest)
  | tokens => ([], tokens)

/-- Misfits take no part in the statement of their line. -/
def Line.ofItems (items : List Item) : Line :=
  let (labels, tokens) := splitLabels (items.filterMap Item.token?)
  ⟨items.filterMap Item.misfit?, labels, Body.ofTokens tokens⟩

end RegisterMachine.Source
