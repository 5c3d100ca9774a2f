import RegisterMachine.Width

/-!
Integer types of a fixed number of bits and the four operations on them. Addition, subtraction and
multiplication wrap around; division goes toward zero and is undefined where no value of the type
is the quotient.
-/

namespace RegisterMachine

/-- An operation of the arithmetic unit. -/
inductive Operation where
  | add
  | sub
  | mul
  | div
deriving DecidableEq, Repr

namespace Operation

/-- Two bits select the operation. -/
def code : Operation → Nat
  | .add => 0
  | .sub => 1
  | .mul => 2
  | .div => 3

/-- Only the low two bits of a selector count. -/
def ofCode (code : Nat) : Operation :=
  match code % 4 with
  | 0 => .add
  | 1 => .sub
  | 2 => .mul
  | _ => .div

def name : Operation → String
  | .add => "ADD"
  | .sub => "SUB"
  | .mul => "MUL"
  | .div => "DIV"

@[simp] theorem ofCode_code (operation : Operation) : ofCode operation.code = operation := by
  cases operation <;> rfl

theorem code_lt (operation : Operation) : operation.code < 4 := by
  cases operation <;> decide

theorem code_ofCode (code : Nat) : (ofCode code).code = code % 4 := by
  have cases : code % 4 = 0 ∨ code % 4 = 1 ∨ code % 4 = 2 ∨ code % 4 = 3 := by omega
  rcases cases with low | low | low | low <;> simp only [ofCode, low] <;> rfl

end Operation

/-- A signed type uses two's complement. -/
structure IntegerType where
  bits : Nat
  signed : Bool
deriving DecidableEq, Repr

namespace IntegerType

def unsigned (bits : Nat) : IntegerType := ⟨bits, false⟩

def twosComplement (bits : Nat) : IntegerType := ⟨bits, true⟩

/-- The smallest value of a signed type is half the range below zero. -/
def least (type : IntegerType) : Int :=
  if type.signed then -(modulus (type.bits - 1) : Int) else 0

/-- The values of a type start at the smallest one and end below this bound. -/
def bound (type : IntegerType) : Int :=
  modulus (if type.signed then type.bits - 1 else type.bits)

/-- A type has every integer between its ends. -/
def Contains (type : IntegerType) (value : Int) : Prop :=
  type.least ≤ value ∧ value < type.bound

instance (type : IntegerType) (value : Int) : Decidable (type.Contains value) :=
  inferInstanceAs (Decidable (_ ∧ _))

/-- An integer wraps to the value of the type with the same low bits. -/
def wrap (type : IntegerType) (value : Int) : Int :=
  if type.signed then value.bmod (modulus type.bits) else value % modulus type.bits

/-- A division has no result when the divisor is zero or the quotient does not fit. -/
def apply (type : IntegerType) (operation : Operation) (left right : Int) : Option Int :=
  match operation with
  | .add => some (type.wrap (left + right))
  | .sub => some (type.wrap (left - right))
  | .mul => some (type.wrap (left * right))
  | .div =>
    if right ≠ 0 ∧ type.Contains (left.tdiv right) then some (left.tdiv right) else none

end IntegerType

end RegisterMachine
