/-!
Places in a text: lines and columns count from one, and a column counts code points.
-/

namespace RegisterMachine.Source

structure Position where
  line : Nat
  column : Nat
deriving DecidableEq, Repr

namespace Position

/-- The first character of a text has this position. -/
def first : Position := ⟨1, 1⟩

/-- A newline ends its line. -/
def next (position : Position) (char : Char) : Position :=
  if char = '\n' then ⟨position.line + 1, 1⟩ else ⟨position.line, position.column + 1⟩

/-- The position after a run of characters that starts here. -/
def advance (position : Position) (chars : List Char) : Position :=
  chars.foldl next position

@[simp] theorem advance_nil (position : Position) : position.advance [] = position := rfl

@[simp] theorem advance_cons (position : Position) (char : Char) (chars : List Char) :
    position.advance (char :: chars) = (position.next char).advance chars := rfl

theorem advance_append (position : Position) (first second : List Char) :
    position.advance (first ++ second) = (position.advance first).advance second :=
  List.foldl_append

end Position

end RegisterMachine.Source
