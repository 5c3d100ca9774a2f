import RegisterMachine.OutputFormat
import RegisterMachine.Word

/-!
Instructions by meaning, the words that hold them and their text.

Reading a word drops the fields that its opcode does not use, so several words can hold one
instruction. Writing an instruction sets those fields to zero, and reading it back gives the same
instruction.
-/

namespace RegisterMachine

inductive Direction where
  | left
  | right
deriving DecidableEq, Repr

inductive Instruction where
  /-- The return address goes on the stack. -/
  | call (target : Address)
  | ret
  | move (rd rs : Register)
  | loadValue (rd : Register) (value : Address)
  | loadMemory (rd : Register) (address : Address)
  | storeMemory (rd : Register) (address : Address)
  | arithmetic (rd rs : Register) (operation : Operation) (destination : Destination)
  | shift (rs : Register) (direction : Direction) (amount : Byte)
  | push (rs : Register)
  | pop (rd : Register)
  /-- The jump is taken when register A is below `rd`. -/
  | jumpIfLess (rd : Register) (target : Address)
  /-- A selector byte without a format of its own is kept and prints as decimal. -/
  | output (rs : Register) (selector : Byte)
  | halt
deriving DecidableEq, Repr

def Direction.name : Direction → String
  | .left => "LEFT"
  | .right => "RIGHT"

/-- A shift goes left only when its `rd` field is zero. -/
def Direction.ofRegister (rd : Register) : Direction :=
  if rd = .a then .left else .right

/-- The direction is kept in the `rd` field. -/
def Direction.register : Direction → Register
  | .left => .a
  | .right => .b

/-- A word whose opcode is not assigned holds no instruction. -/
def Word.instruction? (word : Word) : Option Instruction :=
  word.opcode?.map fun
    | .cal => .call word.address
    | .ret => .ret
    | .mov => .move word.rd word.rs
    | .ldv => .loadValue word.rd word.address
    | .ldr => .loadMemory word.rd word.address
    | .ldm => .storeMemory word.rd word.address
    | .ath =>
      .arithmetic word.rd word.rs (Operation.ofCode word.byte) (Destination.ofByte word.byte)
    | .sft => .shift word.rs (Direction.ofRegister word.rd) word.byte
    | .psh => .push word.rs
    | .pop => .pop word.rd
    | .jlt => .jumpIfLess word.rd word.address
    | .out => .output word.rs word.byte
    | .hlt => .halt

namespace Instruction

def opcode : Instruction → Opcode
  | .call _ => .cal
  | .ret => .ret
  | .move _ _ => .mov
  | .loadValue _ _ => .ldv
  | .loadMemory _ _ => .ldr
  | .storeMemory _ _ => .ldm
  | .arithmetic _ _ _ _ => .ath
  | .shift _ _ _ => .sft
  | .push _ => .psh
  | .pop _ => .pop
  | .jumpIfLess _ _ => .jlt
  | .output _ _ => .out
  | .halt => .hlt

/-- Fields that the opcode does not use are zero. -/
def word : Instruction → Word
  | .call target => Word.ofAddress .cal .a target
  | .ret => Word.ofRegisters .ret .a .a
  | .move rd rs => Word.ofRegisters .mov rd rs
  | .loadValue rd value => Word.ofAddress .ldv rd value
  | .loadMemory rd address => Word.ofAddress .ldr rd address
  | .storeMemory rd address => Word.ofAddress .ldm rd address
  | .arithmetic rd rs operation destination =>
    Word.ofOperation operation rd rs destination
  | .shift rs direction amount => Word.ofByte .sft direction.register rs amount
  | .push rs => Word.ofRegisters .psh .a rs
  | .pop rd => Word.ofRegisters .pop rd .a
  | .jumpIfLess rd target => Word.ofAddress .jlt rd target
  | .output rs selector => Word.ofByte .out .a rs selector
  | .halt => Word.ofRegisters .hlt .a .a

/-- The operands of an instruction as they are written in source text. -/
def operands : Instruction → List String
  | .call target => [Numeral.render 10 target]
  | .ret => []
  | .move rd rs => [rd.name, rs.name]
  | .loadValue rd value => [rd.name, Numeral.render 10 value]
  | .loadMemory rd address => [rd.name, Numeral.render 10 address]
  | .storeMemory rd address => [rd.name, Numeral.render 10 address]
  | .arithmetic rd rs operation destination =>
    [rd.name, rs.name, operation.name, destination.name]
  | .shift rs direction amount => [rs.name, direction.name, Numeral.render 10 amount]
  | .push rs => [rs.name]
  | .pop rd => [rd.name]
  | .jumpIfLess rd target => [rd.name, Numeral.render 10 target]
  | .output rs selector => [rs.name, (OutputFormat.ofSelector selector).name]
  | .halt => []

/-- The text is a source line that assembles to the instruction. -/
def text (instruction : Instruction) : String :=
  " ".intercalate (instruction.opcode.mnemonic :: instruction.operands)

/-- Reading the word of an instruction gives the instruction. -/
@[simp] theorem instruction?_word (instruction : Instruction) :
    instruction.word.instruction? = some instruction := by
  cases instruction with
  | arithmetic rd rs operation destination =>
    simp only [word, Word.instruction?, Word.ofOperation, Word.opcode?_ofByte, Option.map_some,
      Word.rd_ofByte, Word.rs_ofByte, Word.byte_ofByte]
    cases operation <;> cases destination <;> rfl
  | shift rs direction amount =>
    cases direction <;> simp [word, Word.instruction?, Direction.register, Direction.ofRegister]
  | _ => simp [word, Word.instruction?, Word.ofRegisters]

end Instruction

/-- A word is written in four hexadecimal digits. -/
def Word.hex (word : Word) : String := Numeral.padded 16 4 word

/-- A word that holds no instruction is shown as a number. -/
def Word.text (word : Word) : String :=
  match word.instruction? with
  | some instruction => instruction.text
  | none => "??? 0x" ++ word.hex

end RegisterMachine
