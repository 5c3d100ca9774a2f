import RegisterMachine.Numeral

/-!
The four ways in which a register is printed.
-/

namespace RegisterMachine

inductive OutputFormat where
  | decimal
  | binary
  | hexadecimal
  | character
deriving DecidableEq, Repr

namespace OutputFormat

/-- The selector byte of a format. -/
def selector : OutputFormat → Nat
  | .decimal => 0
  | .binary => 1
  | .hexadecimal => 2
  | .character => 3

/-- Every selector without a format of its own means decimal. -/
def ofSelector : Nat → OutputFormat
  | 1 => .binary
  | 2 => .hexadecimal
  | 3 => .character
  | _ => .decimal

def name : OutputFormat → String
  | .decimal => "DEC"
  | .binary => "BIN"
  | .hexadecimal => "HEX"
  | .character => "CHR"

/-- A code point that is no scalar value prints as the replacement character. -/
def scalar (value : Nat) : Char :=
  if value.isValidChar then Char.ofNat value else '\uFFFD'

def render (value : Nat) : OutputFormat → String
  | .decimal => Numeral.render 10 value
  | .binary => Numeral.render 2 value
  | .hexadecimal => Numeral.render 16 value
  | .character => String.singleton (scalar value)

theorem selector_lt (format : OutputFormat) : format.selector < 256 := by
  cases format <;> decide

@[simp] theorem ofSelector_selector (format : OutputFormat) :
    ofSelector format.selector = format := by
  cases format <;> rfl

end OutputFormat

end RegisterMachine
