import RegisterMachine.Log
import RegisterMachine.Source.Lexer
import RegisterMachine.Source.Operand

/-!
Source text becomes a program in two passes. The first pass reads every line and gives each label
the number of statements before it. The second pass turns each statement into a word. Both passes
go on after a complaint, and a text with any complaint has no program.
-/

namespace RegisterMachine.Source

/-- What the first pass knows after some lines. What it has said is one thing, and whether it has
failed is another. -/
structure Draft where
  statements : Array Statement
  labels : Labels
  complaints : Array Complaint
  failed : Bool

namespace Draft

def empty : Draft := ⟨#[], [], #[], false⟩

/-- A warning by itself is no failure. -/
def warn (draft : Draft) (complaint : Complaint) : Draft :=
  { draft with complaints := draft.complaints.push complaint }

/-- An error is a warning, and there will be no program. -/
def fail (draft : Draft) (complaint : Complaint) : Draft :=
  { draft.warn complaint with failed := true }

/-- A number with letters in it is warned of as soon as it is read. -/
def scan (draft : Draft) (misfit : Misfit) : Draft :=
  let draft := if misfit.glued then draft.warn .gluedNumber else draft
  draft.fail (.invalidToken misfit.stop misfit.text)

/-- A label has to be new and its address has to fit in an address field. -/
def define (draft : Draft) (label : Label) : Draft :=
  let address := draft.statements.size
  if (draft.labels.lookup label.name).isSome then
    draft.fail (.duplicateLabel label.position label.name)
  else if address < 1024 then
    { draft with labels := (label.name, address) :: draft.labels }
  else
    draft.fail (.distantLabel label.position label.name address)

/-- Misfits come before labels, and labels before the rest of the line. -/
def add (draft : Draft) (line : Line) : Draft :=
  let draft := line.labels.foldl define (line.misfits.foldl scan draft)
  match line.body with
  | .empty => draft
  | .statement statement => { draft with statements := draft.statements.push statement }
  | .unreadable complaint => draft.fail complaint

def ofItems (items : List Item) : Draft :=
  ((Item.lines items).map Line.ofItems).foldl add empty

/-- A statement has one word or one complaint. -/
def words (draft : Draft) : List (Except Complaint Word) :=
  draft.statements.toList.map fun statement =>
    Instruction.word <$> statement.instruction draft.labels

end Draft

/-- The outcome of assembling a text. -/
@[ext]
structure Assembly where
  complaints : List Complaint
  labelCount : Nat
  program? : Option (List Word)
deriving Repr

/-- A program is reported by its size; a text without a program is reported by its complaints. -/
def Assembly.records (assembly : Assembly) : List Record :=
  assembly.complaints.map .complaint ++
    (assembly.program?.map fun program => .assembled program.length assembly.labelCount).toList

def complaint? {α : Type} : Except Complaint α → Option Complaint
  | .ok _ => none
  | .error complaint => some complaint

/-- The complaints of the second pass follow those of the first. A statement without a word is
missing from the program, and then there is none. -/
def assemble (text : String) : Assembly :=
  let draft := Draft.ofItems (read text.toList).items
  let words := draft.words
  let program := words.filterMap Except.toOption
  { complaints := draft.complaints.toList ++ words.filterMap complaint?
    labelCount := draft.labels.length
    program? :=
      if draft.failed || program.length != draft.statements.size then none else some program }

end RegisterMachine.Source
