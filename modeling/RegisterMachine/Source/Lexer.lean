import RegisterMachine.Source.Token
import RegisterMachine.Text.Blank

/-!
Reading a text as tokens.

A text is first cut into pieces that follow each other without gaps: blanks, comments, symbols and
misfits. The items of the text are then the pieces that mean something, with their positions.
-/

namespace RegisterMachine.Source

/-- What a piece of text is. -/
inductive Lexeme where
  | blank
  | comment
  | symbol (symbol : Symbol)
  | misfit (text : String) (glued : Bool)
deriving DecidableEq, Repr

/-- A piece has at least one character. -/
structure Piece where
  head : Char
  tail : List Char
  lexeme : Lexeme
deriving DecidableEq, Repr

/-- A name starts with a letter, an underscore or a dot. -/
def isNameStart (char : Char) : Bool :=
  char.isAlpha || char == '_' || char == '.'

/-- Later characters of a name may also be digits. -/
def isNameChar (char : Char) : Bool :=
  char.isDigit || isNameStart char

/-- Blanks within a line. -/
def isGap (char : Char) : Bool :=
  char != '\n' && Text.isBlank char

/-- Underscores may stand anywhere among the digits of a number. -/
def isNumeralChar (base : Nat) (char : Char) : Bool :=
  Numeral.isDigitOf base char || char == '_'

/-- A zero and a letter announce a base other than ten. -/
def markedBase? : Char → List Char → Option Nat
  | '0', 'x' :: _ => some 16
  | '0', 'X' :: _ => some 16
  | '0', 'b' :: _ => some 2
  | '0', 'B' :: _ => some 2
  | _, _ => none

/-- Numbers have to fit in thirty-two bits. -/
def numberLimit : Nat := 4294967296

/-- A run of digits is a number unless a name character follows it. -/
def numberLexeme (base : Nat) (digits rest : List Char) : Lexeme :=
  if rest.head?.any isNameChar then
    .misfit (String.ofList digits) true
  else
    match Numeral.ofDigits? base numberLimit digits with
    | some value => .symbol (.number value)
    | none => .misfit (String.ofList digits) false

/-- The letter that announces a base is not a digit, and underscores are dropped. -/
def numberPiece (head : Char) (rest : List Char) : Piece :=
  match markedBase? head rest with
  | some base =>
    let body := rest.tail.takeWhile (isNumeralChar base)
    ⟨head, rest.take 1 ++ body,
      numberLexeme base (body.filter (· != '_')) (rest.tail.dropWhile (isNumeralChar base))⟩
  | none =>
    let body := rest.takeWhile (isNumeralChar 10)
    ⟨head, body,
      numberLexeme 10 (head :: body.filter (· != '_')) (rest.dropWhile (isNumeralChar 10))⟩

/-- The first character decides what a piece is, and each run is as long as possible. -/
def firstPiece (head : Char) (rest : List Char) : Piece :=
  if head = '\n' then ⟨head, [], .symbol .newline⟩
  else if Text.isBlank head then ⟨head, rest.takeWhile isGap, .blank⟩
  else if head = ';' ∨ head = '#' then ⟨head, rest.takeWhile (· != '\n'), .comment⟩
  else if head = ':' then ⟨head, [], .symbol .colon⟩
  else if head = ',' then ⟨head, [], .symbol .comma⟩
  else if head.isDigit then numberPiece head rest
  else if isNameStart head then
    let name := rest.takeWhile isNameChar
    ⟨head, name, .symbol (.name (String.ofList (head :: name)))⟩
  else ⟨head, [], .misfit (String.singleton head) false⟩

/-- Each piece starts where the one before it ends. -/
def pieces : List Char → List Piece
  | [] => []
  | head :: rest =>
    let piece := firstPiece head rest
    piece :: pieces (rest.drop piece.tail.length)
termination_by chars => chars.length
decreasing_by
  simp only [List.length_drop, List.length_cons]
  omega

/-- A piece starts with the character that it was read from. -/
theorem head_firstPiece (head : Char) (rest : List Char) :
    (firstPiece head rest).head = head := by
  unfold firstPiece numberPiece
  repeat' split
  all_goals rfl

theorem takeWhile_isPrefix (keep : Char → Bool) (chars : List Char) :
    chars.takeWhile keep <+: chars :=
  ⟨chars.dropWhile keep, List.takeWhile_append_dropWhile⟩

/-- The characters of a marked number are those that come first. -/
theorem marked_isPrefix (keep : Char → Bool) (rest : List Char) :
    rest.take 1 ++ rest.tail.takeWhile keep <+: rest := by
  cases rest with
  | nil => exact List.prefix_rfl
  | cons mark digits =>
    obtain ⟨after, split⟩ := takeWhile_isPrefix keep digits
    exact ⟨after, by simp only [List.take_succ_cons, List.take_zero, List.tail_cons,
      List.cons_append, List.nil_append, split]⟩

/-- A piece takes the characters that come first in the rest of the text. -/
theorem tail_firstPiece_isPrefix (head : Char) (rest : List Char) :
    (firstPiece head rest).tail <+: rest := by
  unfold firstPiece numberPiece
  repeat' split
  all_goals
    first
      | exact List.nil_prefix
      | exact takeWhile_isPrefix _ rest
      | exact marked_isPrefix _ rest

namespace Piece

def chars (piece : Piece) : List Char := piece.head :: piece.tail

/-- The position after a piece that starts here. -/
def stop (start : Position) (piece : Piece) : Position := start.advance piece.chars

/-- Blanks and comments mean nothing. -/
def item? (start : Position) (piece : Piece) : Option Item :=
  match piece.lexeme with
  | .blank => none
  | .comment => none
  | .symbol symbol => some (.token ⟨start, piece.stop start, symbol⟩)
  | .misfit text glued => some (.misfit ⟨text, piece.stop start, glued⟩)

end Piece

/-- The items of pieces that follow each other from a position on. -/
def itemsFrom (start : Position) : List Piece → List Item
  | [] => []
  | piece :: rest => (piece.item? start).toList ++ itemsFrom (piece.stop start) rest

/-- What a text holds, and the position at which reading it ends. -/
structure Reading where
  items : List Item
  stop : Position
deriving DecidableEq, Repr

/-- Reading goes on after a misfit. -/
def read (text : List Char) : Reading :=
  let pieces := pieces text
  ⟨itemsFrom .first pieces, pieces.foldl Piece.stop .first⟩

/-- A piece and what it leaves make up the text. -/
theorem chars_firstPiece_append (head : Char) (rest : List Char) :
    (firstPiece head rest).chars ++ rest.drop (firstPiece head rest).tail.length = head :: rest := by
  have rejoined := List.prefix_iff_eq_append.mp (tail_firstPiece_isPrefix head rest)
  rw [Piece.chars, List.cons_append, rejoined, head_firstPiece]

/-- The pieces of a text follow each other without gaps. -/
theorem flatMap_chars_pieces (text : List Char) : (pieces text).flatMap Piece.chars = text := by
  fun_induction pieces text with
  | case1 => rfl
  | case2 head rest piece after => rw [List.flatMap_cons, after, chars_firstPiece_append]

theorem foldl_stop (start : Position) (pieces : List Piece) :
    pieces.foldl Piece.stop start = start.advance (pieces.flatMap Piece.chars) := by
  induction pieces generalizing start with
  | nil => rfl
  | cons piece rest after =>
    rw [List.foldl_cons, after, List.flatMap_cons, Position.advance_append]
    rfl

/-- Reading ends where the text ends. -/
theorem stop_read (text : List Char) : (read text).stop = Position.first.advance text := by
  simp only [read, foldl_stop, flatMap_chars_pieces]

end RegisterMachine.Source
