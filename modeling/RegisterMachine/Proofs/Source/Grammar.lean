import RegisterMachine.Source.Token
import RegisterMachine.Instruction
import Mathlib.Data.List.Forall2

/-!
The grammar of source text, as rules.

A text is a row of symbols that newlines cut into lines. The rules say which lines there are, which
number each statement stands for, and where the labels of a text are; they know nothing of passes,
tables or complaints.
-/

namespace RegisterMachine.Source.Grammar

/-- A name is spelled in either case of its letters. -/
def Spells (written name : String) : Prop := written.toLower = name.toLower

/-- A symbol that spells the name of something stands for it. -/
inductive Keyword {α : Type} (name : α → String) : Symbol → α → Prop where
  | spelled {written : String} {meaning : α} (spells : Spells written (name meaning)) :
      Keyword name (.name written) meaning

/-- A value is a number, or a label in the case in which it is defined, and it is below a bound. -/
inductive Value (defined : String → Nat → Prop) (bound : Nat) : Symbol → Nat → Prop where
  | number {value : Nat} (small : value < bound) : Value defined bound (.number value) value
  | label {name : String} {address : Nat} (known : defined name address) (small : address < bound) :
      Value defined bound (.name name) address

/-- An output format is a number of one byte or the name of a format. -/
inductive Selector : Symbol → Nat → Prop where
  | number {value : Nat} (small : value < 256) : Selector (.number value) value
  | format {symbol : Symbol} {format : OutputFormat}
      (keyword : Keyword OutputFormat.name symbol format) : Selector symbol format.selector

/-- The number with an opcode, two register fields and a byte. -/
def narrow (opcode : Opcode) (rd rs byte : Nat) : Nat :=
  opcode.number + 16 * rd + 64 * rs + 256 * byte

/-- The number with an opcode, one register field and an address. -/
def wide (opcode : Opcode) (rd address : Nat) : Nat :=
  opcode.number + 16 * rd + 64 * address

/-- What may follow a mnemonic, commas left out, and the number that the statement stands for. -/
inductive Encodes (defined : String → Nat → Prop) : Opcode → List Symbol → Nat → Prop where
  | bare {opcode : Opcode} (alone : opcode = .ret ∨ opcode = .hlt) :
      Encodes defined opcode [] (narrow opcode 0 0 0)
  | call {target : Symbol} {address : Nat} (value : Value defined 1024 target address) :
      Encodes defined .cal [target] (wide .cal 0 address)
  | push {source : Symbol} {rs : Register} (first : Keyword Register.name source rs) :
      Encodes defined .psh [source] (narrow .psh 0 rs.index 0)
  | pop {target : Symbol} {rd : Register} (first : Keyword Register.name target rd) :
      Encodes defined .pop [target] (narrow .pop rd.index 0 0)
  | move {target source : Symbol} {rd rs : Register} (first : Keyword Register.name target rd)
      (second : Keyword Register.name source rs) :
      Encodes defined .mov [target, source] (narrow .mov rd.index rs.index 0)
  | addressed {opcode : Opcode} {target place : Symbol} {rd : Register} {address : Nat}
      (alike : opcode = .ldv ∨ opcode = .ldr ∨ opcode = .ldm ∨ opcode = .jlt)
      (first : Keyword Register.name target rd) (second : Value defined 1024 place address) :
      Encodes defined opcode [target, place] (wide opcode rd.index address)
  | arithmetic {target source kind chosen : Symbol} {rd rs : Register} {operation : Operation}
      {destination : Destination} (first : Keyword Register.name target rd)
      (second : Keyword Register.name source rs) (third : Keyword Operation.name kind operation)
      (fourth : Keyword Destination.name chosen destination) :
      Encodes defined .ath [target, source, kind, chosen]
        (narrow .ath rd.index rs.index (operation.code + 4 * destination.bit))
  | shift {source way count : Symbol} {rs : Register} {direction : Direction} {amount : Nat}
      (first : Keyword Register.name source rs) (second : Keyword Direction.name way direction)
      (third : Value defined 256 count amount) :
      Encodes defined .sft [source, way, count]
        (narrow .sft (if direction = .left then 0 else 1) rs.index amount)
  | output {source format : Symbol} {rs : Register} {selector : Nat}
      (first : Keyword Register.name source rs) (second : Selector format selector) :
      Encodes defined .out [source, format] (narrow .out 0 rs.index selector)

/-- What a line says: the labels in front, and the word of its statement if it has one. -/
structure Row where
  labels : List String
  word? : Option Word
deriving DecidableEq, Repr

/-- A line is any number of labels with their colons, and then nothing or a statement. -/
inductive Row.Of (defined : String → Nat → Prop) : List Symbol → Row → Prop where
  | empty : Row.Of defined [] ⟨[], none⟩
  | statement {written : String} {opcode : Opcode} {rest : List Symbol} {word : Word}
      (spells : Spells written opcode.mnemonic)
      (encodes : Encodes defined opcode (rest.filter (· ≠ .comma)) word.val) :
      Row.Of defined (.name written :: rest) ⟨[], some word⟩
  | label {name : String} {rest : List Symbol} {row : Row} (tail : Row.Of defined rest row) :
      Row.Of defined (.name name :: .colon :: rest) ⟨name :: row.labels, row.word?⟩

/-- A label is at the number of statements on the lines before its own. -/
def Defines (rows : List Row) (name : String) (address : Nat) : Prop :=
  ∃ before row after, rows = before ++ row :: after ∧ name ∈ row.labels ∧
    address = (before.filterMap Row.word?).length

/-- The symbols of a program: every line follows the rules, no label is defined twice, every label
has at most 1023 statements before it, and the words are those of the statements in order. -/
def Derives (symbols : List Symbol) (program : List Word) : Prop :=
  ∃ rows : List Row,
    List.Forall₂ (Row.Of (Defines rows)) (symbols.splitOn .newline) rows ∧
      (rows.flatMap Row.labels).Nodup ∧
        (∀ name address, Defines rows name address → address ≤ 1023) ∧
          rows.filterMap Row.word? = program

end RegisterMachine.Source.Grammar
