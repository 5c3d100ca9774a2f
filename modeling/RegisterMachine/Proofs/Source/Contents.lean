import RegisterMachine.Source.Lexer

/-!
What a text holds, without the places where it holds it.

The contents of a text are its symbols, with a mark for each misfit. They are those of its lines,
one after the other, so what stands on one line never changes how another one is read.
-/

namespace RegisterMachine.Source

/-- Blanks and comments hold nothing, and a misfit holds no symbol. -/
def Lexeme.contents : Lexeme → List (Option Symbol)
  | .blank => []
  | .comment => []
  | .symbol found => [some found]
  | .misfit _ _ => [none]

/-- The symbols of a text in order, with a gap for each misfit. -/
def contents (text : List Char) : List (Option Symbol) :=
  (pieces text).flatMap fun piece => piece.lexeme.contents

def Item.symbol? : Item → Option Symbol
  | .token found => some found.symbol
  | .misfit _ => none

theorem itemsFrom_symbol? (start : Position) (pieces : List Piece) :
    (itemsFrom start pieces).map Item.symbol? =
      pieces.flatMap fun piece => piece.lexeme.contents := by
  induction pieces generalizing start with
  | nil => rfl
  | cons piece rest ih =>
    rw [itemsFrom, List.map_append, ih, List.flatMap_cons]
    congr 1
    unfold Piece.item?
    split <;> rename_i found <;> rw [found] <;> rfl

/-- Reading a text only adds positions to its contents. -/
theorem read_symbol? (text : List Char) : (read text).items.map Item.symbol? = contents text :=
  itemsFrom_symbol? .first (pieces text)

section Runs

variable {keep : Char → Bool} {stop : Char} (stops : keep stop = false) (first second : List Char)

include stops

theorem takeWhile_append_stop :
    (first ++ stop :: second).takeWhile keep = first.takeWhile keep := by
  induction first with
  | nil => simp [stops]
  | cons char first ih =>
    simp only [List.cons_append, List.takeWhile_cons, ih]

theorem dropWhile_append_stop :
    (first ++ stop :: second).dropWhile keep = first.dropWhile keep ++ stop :: second := by
  induction first with
  | nil => simp [stops]
  | cons char first ih =>
    simp only [List.cons_append, List.dropWhile_cons, ih]
    split <;> rfl

end Runs

/-- A base is announced by a character of the same line. -/
theorem markedBase?_append_newline (head : Char) (rest second : List Char) :
    markedBase? head (rest ++ '\n' :: second) = markedBase? head rest := by
  cases rest with
  | nil => unfold markedBase?; split <;> simp_all
  | cons mark rest => unfold markedBase?; split <;> simp_all

theorem numberLexeme_append_newline (base : Nat) (digits rest second : List Char) :
    numberLexeme base digits (rest ++ '\n' :: second) = numberLexeme base digits rest := by
  cases rest with
  | nil =>
    have other : isNameChar '\n' = false := by decide
    simp [numberLexeme, other]
  | cons char rest => rfl

theorem numberPiece_append_newline (head : Char) (rest second : List Char) :
    numberPiece head (rest ++ '\n' :: second) = numberPiece head rest := by
  have stops (base : Nat) : isNumeralChar base '\n' = false := by
    simp [isNumeralChar, Numeral.isDigitOf]
  unfold numberPiece
  rw [markedBase?_append_newline]
  split
  · rename_i base marked
    cases rest with
    | nil => simp [markedBase?] at marked
    | cons mark digits =>
      simp only [List.cons_append, List.tail_cons, List.take_succ_cons, List.take_zero,
        takeWhile_append_stop (stops base), dropWhile_append_stop (stops base),
        numberLexeme_append_newline]
  · simp only [takeWhile_append_stop (stops 10), dropWhile_append_stop (stops 10),
      numberLexeme_append_newline]

/-- A piece other than a newline ends before the next one. -/
theorem firstPiece_append_newline (head : Char) (rest second : List Char) :
    firstPiece head (rest ++ '\n' :: second) = firstPiece head rest := by
  have gap : isGap '\n' = false := by decide
  have comment := @takeWhile_append_stop (· != '\n') '\n' (by decide)
  have name : isNameChar '\n' = false := by decide
  simp only [firstPiece, takeWhile_append_stop gap, comment,
    takeWhile_append_stop name, numberPiece_append_newline]

theorem length_tail_firstPiece_le (head : Char) (rest : List Char) :
    (firstPiece head rest).tail.length ≤ rest.length :=
  (tail_firstPiece_isPrefix head rest).length_le

theorem pieces_newline (rest : List Char) :
    pieces ('\n' :: rest) = ⟨'\n', [], .symbol .newline⟩ :: pieces rest := by
  rw [pieces]
  simp [firstPiece]

/-- A newline cuts the pieces of a text. -/
theorem pieces_append_newline (first second : List Char) :
    pieces (first ++ '\n' :: second) =
      pieces first ++ ⟨'\n', [], .symbol .newline⟩ :: pieces second := by
  fun_induction pieces first with
  | case1 => exact pieces_newline second
  | case2 head rest piece ih =>
    rw [List.cons_append, pieces, firstPiece_append_newline,
      List.drop_append_of_le_length (length_tail_firstPiece_le head rest), ih]
    rfl

/-- The contents of a text are those of its lines. -/
theorem contents_append_newline (first second : List Char) :
    contents (first ++ '\n' :: second) = contents first ++ some .newline :: contents second := by
  rw [contents, pieces_append_newline, List.flatMap_append, List.flatMap_cons]
  rfl

end RegisterMachine.Source
