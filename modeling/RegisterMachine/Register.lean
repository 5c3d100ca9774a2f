/-!
The four registers that an instruction can name.
-/

namespace RegisterMachine

/-- A general register has a one letter name. -/
inductive Register where
  | a
  | b
  | c
  | d
deriving DecidableEq, Repr

namespace Register

/-- Two bits of a word hold a register's index. -/
def index : Register → Nat
  | .a => 0
  | .b => 1
  | .c => 2
  | .d => 3

/-- Only the low two bits of an index count. -/
def ofIndex (index : Nat) : Register :=
  match index % 4 with
  | 0 => .a
  | 1 => .b
  | 2 => .c
  | _ => .d

def name : Register → String
  | .a => "A"
  | .b => "B"
  | .c => "C"
  | .d => "D"

/-- A name is matched letter by letter, case included. -/
def ofName? : String → Option Register
  | "A" => some .a
  | "B" => some .b
  | "C" => some .c
  | "D" => some .d
  | _ => none

@[simp] theorem ofIndex_index (register : Register) : ofIndex register.index = register := by
  cases register <;> rfl

theorem index_lt (register : Register) : register.index < 4 := by
  cases register <;> decide

theorem index_ofIndex (index : Nat) : (ofIndex index).index = index % 4 := by
  have cases : index % 4 = 0 ∨ index % 4 = 1 ∨ index % 4 = 2 ∨ index % 4 = 3 := by omega
  rcases cases with low | low | low | low <;> simp only [ofIndex, low] <;> rfl

@[simp] theorem ofName?_name (register : Register) : ofName? register.name = some register := by
  cases register <;> rfl

end Register

end RegisterMachine
