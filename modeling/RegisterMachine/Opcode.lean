/-!
The thirteen opcodes, their numbers and their mnemonics.
-/

namespace RegisterMachine

/-- The constructors are in the order of their numbers. -/
inductive Opcode where
  | cal
  | ret
  | mov
  | ldv
  | ldr
  | ldm
  | ath
  | sft
  | psh
  | pop
  | jlt
  | out
  | hlt
deriving DecidableEq, Repr

namespace Opcode

/-- Every opcode once, in the order of the numbers. -/
def all : List Opcode :=
  [.cal, .ret, .mov, .ldv, .ldr, .ldm, .ath, .sft, .psh, .pop, .jlt, .out, .hlt]

/-- Four bits of a word hold the number. -/
def number : Opcode → Nat
  | .cal => 0
  | .ret => 1
  | .mov => 2
  | .ldv => 3
  | .ldr => 4
  | .ldm => 5
  | .ath => 6
  | .sft => 7
  | .psh => 8
  | .pop => 9
  | .jlt => 10
  | .out => 11
  | .hlt => 12

/-- Numbers from thirteen up are not assigned. -/
def ofNumber? : Nat → Option Opcode
  | 0 => some .cal
  | 1 => some .ret
  | 2 => some .mov
  | 3 => some .ldv
  | 4 => some .ldr
  | 5 => some .ldm
  | 6 => some .ath
  | 7 => some .sft
  | 8 => some .psh
  | 9 => some .pop
  | 10 => some .jlt
  | 11 => some .out
  | 12 => some .hlt
  | _ => none

def mnemonic : Opcode → String
  | .cal => "CAL"
  | .ret => "RET"
  | .mov => "MOV"
  | .ldv => "LDV"
  | .ldr => "LDR"
  | .ldm => "LDM"
  | .ath => "ATH"
  | .sft => "SFT"
  | .psh => "PSH"
  | .pop => "POP"
  | .jlt => "JLT"
  | .out => "OUT"
  | .hlt => "HLT"

/-- A mnemonic is matched letter by letter, case included. -/
def ofMnemonic? (name : String) : Option Opcode :=
  all.find? fun opcode => opcode.mnemonic == name

/-- An instruction takes this many operands in source text. -/
def arity : Opcode → Nat
  | .ret | .hlt => 0
  | .cal | .psh | .pop => 1
  | .mov | .ldv | .ldr | .ldm | .jlt | .out => 2
  | .sft => 3
  | .ath => 4

theorem number_lt (opcode : Opcode) : opcode.number < 16 := by
  cases opcode <;> decide

@[simp] theorem ofNumber?_number (opcode : Opcode) : ofNumber? opcode.number = some opcode := by
  cases opcode <;> rfl

theorem number_eq_of_ofNumber? {number : Nat} {opcode : Opcode}
    (known : ofNumber? number = some opcode) : opcode.number = number := by
  unfold ofNumber? at known
  split at known <;> simp_all
  all_goals subst known; rfl

@[simp] theorem ofMnemonic?_mnemonic (opcode : Opcode) :
    ofMnemonic? opcode.mnemonic = some opcode := by
  cases opcode <;> decide

end Opcode

end RegisterMachine
