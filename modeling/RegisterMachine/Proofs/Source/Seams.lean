import RegisterMachine.Proofs.Source.Literals
import Mathlib.Data.List.Forall2
import Mathlib.Data.List.TakeWhile

/-!
Pieces of a line that are put side by side.

A piece may be moved to another place, as long as no name character follows a name or a number there
and nothing follows a comment. The line that the pieces make then holds what the pieces hold.
-/

namespace RegisterMachine.Source

namespace Piece

/-- Names and numbers go on until a character comes that is none of theirs. -/
def isWord (piece : Piece) : Bool :=
  match piece.lexeme with
  | .symbol (.name _) => true
  | .symbol (.number _) => true
  | _ => false

/-- The piece may stand in front of this text. -/
structure Allows (piece : Piece) (rest : List Char) : Prop where
  ends : piece.isWord → Ends rest
  last : piece.lexeme = .comment → rest = []

/-- The piece is read as itself wherever it may stand. -/
structure Whole (piece : Piece) : Prop where
  read : ∀ rest, piece.Allows rest →
    contents (piece.chars ++ rest) = piece.lexeme.contents ++ contents rest
  opens_word : piece.isWord → isNameChar piece.head

end Piece

section Reading

variable {head : Char} {rest other : List Char}

/-- A piece that is the first one of its text is read as itself. -/
theorem contents_of_firstPiece {piece : Piece}
    (first : firstPiece piece.head (piece.tail ++ rest) = piece) :
    contents (piece.chars ++ rest) = piece.lexeme.contents ++ contents rest := by
  rw [Piece.chars, List.cons_append, contents_cons, first, List.drop_left]

theorem contents_gaps {gaps : List Char} (blank : ∀ gap ∈ gaps, isGap gap) (rest : List Char) :
    contents (gaps ++ rest) = contents rest := by
  induction gaps with
  | nil => rfl
  | cons gap gaps ih =>
    obtain ⟨first, others⟩ := List.forall_mem_cons.mp blank
    rw [List.cons_append, contents_gap first, ih others]

/-- Name characters end where the run of them ends. -/
theorem ends_dropWhile (chars : List Char) : Ends (chars.dropWhile isNameChar) :=
  stops_dropWhile isNameChar chars

end Reading

/-- The kinds of characters that may open a piece. -/
inductive Opening (head : Char) : Prop where
  | newline (same : head = '\n')
  | gap (gap : isGap head)
  | comment (mark : head = ';' ∨ head = '#')
  | colon (same : head = ':')
  | comma (same : head = ',')
  | number (digit : head.isDigit)
  | name (start : isNameStart head)
  | misfit (stray : Stray head)

theorem opening (head : Char) : Opening head := by
  by_cases newline : head = '\n'
  · exact .newline newline
  by_cases blank : Text.isBlank head
  · exact .gap (by simp [isGap, newline, blank])
  by_cases mark : head = ';' ∨ head = '#'
  · exact .comment mark
  by_cases colon : head = ':'
  · exact .colon colon
  by_cases comma : head = ','
  · exact .comma comma
  by_cases digit : head.isDigit
  · exact .number digit
  by_cases start : isNameStart head
  · exact .name start
  · exact .misfit {
      not_newline := newline
      not_blank := Bool.eq_false_iff.mpr blank
      not_comment := mark
      not_colon := colon
      not_comma := comma
      not_digit := Bool.eq_false_iff.mpr digit
      not_start := Bool.eq_false_iff.mpr start }

section Whole

variable {head : Char} {rest : List Char}

theorem firstPiece_of_comment (mark : head = ';' ∨ head = '#') (rest : List Char) :
    firstPiece head rest = ⟨head, rest.takeWhile (· != '\n'), .comment⟩ := by
  rcases mark with rfl | rfl <;> rfl

/-- A newline, a colon or a comma is read as itself. -/
theorem whole_mark {symbol : Symbol} (mark : Piece.isWord ⟨head, [], .symbol symbol⟩ = false)
    (read : ∀ rest, firstPiece head rest = ⟨head, [], .symbol symbol⟩) :
    (firstPiece head rest).Whole ∧
      (firstPiece head rest).Allows (rest.drop (firstPiece head rest).tail.length) := by
  rw [read rest]
  have other (word : Piece.isWord ⟨head, [], .symbol symbol⟩) : False := by
    rw [mark] at word
    contradiction
  refine ⟨⟨fun after _ => contents_of_firstPiece (read after), fun word => (other word).elim⟩, ?_⟩
  exact ⟨fun word => (other word).elim, Lexeme.noConfusion⟩

theorem whole_gap (gap : isGap head) :
    (firstPiece head rest).Whole ∧
      (firstPiece head rest).Allows (rest.drop (firstPiece head rest).tail.length) := by
  rw [firstPiece_of_gap gap]
  constructor
  · constructor
    · intro after _
      exact contents_gaps (List.forall_mem_cons.mpr ⟨gap, fun _ => List.mem_takeWhile_imp⟩) after
    · intro word
      contradiction
  · constructor
    · intro word
      contradiction
    · exact Lexeme.noConfusion

/-- A comment takes the rest of its line. -/
theorem whole_comment (single : '\n' ∉ rest) (mark : head = ';' ∨ head = '#') :
    (firstPiece head rest).Whole ∧
      (firstPiece head rest).Allows (rest.drop (firstPiece head rest).tail.length) := by
  rw [firstPiece_of_comment mark]
  constructor
  · constructor
    · intro after allows
      obtain rfl := allows.last rfl
      apply contents_of_firstPiece
      rw [firstPiece_of_comment mark, List.append_nil, List.takeWhile_idem]
    · intro word
      contradiction
  · constructor
    · intro word
      contradiction
    · intro _
      rw [drop_length_takeWhile, List.dropWhile_eq_nil_iff]
      intro char member
      rw [bne_iff_ne]
      intro newline
      exact single (newline ▸ member)

theorem whole_number (digit : head.isDigit)
    (readable : none ∉ (firstPiece head rest).lexeme.contents) :
    (firstPiece head rest).Whole ∧
      (firstPiece head rest).Allows (rest.drop (firstPiece head rest).tail.length) := by
  have start : isNameChar (firstPiece head rest).head := by
    rw [head_firstPiece, isNameChar, digit, Bool.true_or]
  rw [firstPiece_of_digit digit] at readable start ⊢
  obtain ⟨base, digits, literal, -, reads⟩ := exists_literal digit rest
  generalize found : (numberPiece head rest).lexeme = lexeme at readable reads
  cases reads with
  | number several small ends =>
    refine ⟨⟨fun after allows => contents_of_firstPiece ?_, fun _ => start⟩, fun _ => ends, ?_⟩
    · have endsToo := allows.ends (by rw [Piece.isWord, found])
      rw [firstPiece_of_literal literal (longest_of_ends endsToo _) (.number several small endsToo),
        ← found]
    · rw [found]
      exact Lexeme.noConfusion
  | glued | worthless => exact absurd List.mem_cons_self readable

theorem whole_name (start : isNameStart head) :
    (firstPiece head rest).Whole ∧
      (firstPiece head rest).Allows (rest.drop (firstPiece head rest).tail.length) := by
  rw [firstPiece_of_nameStart start]
  have name := isName_takeWhile start rest
  constructor
  · constructor
    · intro after allows
      exact contents_name name (allows.ends rfl)
    · intro _
      show isNameChar head
      rw [isNameChar, start, Bool.or_true]
  · constructor
    · intro _
      rw [drop_length_takeWhile]
      exact ends_dropWhile rest
    · exact Lexeme.noConfusion

/-- Every piece but a misfit is read as itself wherever it may stand, and it may stand where it is. -/
theorem whole_firstPiece (single : '\n' ∉ rest)
    (readable : none ∉ (firstPiece head rest).lexeme.contents) :
    (firstPiece head rest).Whole ∧
      (firstPiece head rest).Allows (rest.drop (firstPiece head rest).tail.length) := by
  cases opening head with
  | newline same =>
    subst same
    exact whole_mark rfl fun _ => rfl
  | gap gap => exact whole_gap gap
  | comment mark => exact whole_comment single mark
  | colon same =>
    subst same
    exact whole_mark rfl fun _ => rfl
  | comma same =>
    subst same
    exact whole_mark rfl fun _ => rfl
  | number digit => exact whole_number digit readable
  | name start => exact whole_name start
  | misfit stray =>
    rw [firstPiece_of_stray stray] at readable
    exact absurd List.mem_cons_self readable

end Whole

/-- Pieces that may stand one after the other. -/
inductive Cut : List Piece → Prop where
  | nil : Cut []
  | cons {piece : Piece} {rest : List Piece} (whole : piece.Whole)
      (allows : piece.Allows (rest.flatMap Piece.chars)) (others : Cut rest) : Cut (piece :: rest)

/-- What some pieces hold. -/
def held (pieces : List Piece) : List (Option Symbol) :=
  pieces.flatMap fun piece => piece.lexeme.contents

theorem held_cons (piece : Piece) (rest : List Piece) :
    held (piece :: rest) = piece.lexeme.contents ++ held rest := List.flatMap_cons

theorem held_cons_symbol {piece : Piece} {symbol : Symbol} (found : piece.lexeme = .symbol symbol)
    (rest : List Piece) : held (piece :: rest) = some symbol :: held rest := by
  rw [held_cons, found]
  rfl

namespace Cut

variable {piece : Piece} {rest before after : List Piece}

/-- The text of pieces that may stand together holds what they hold. -/
theorem contents_chars (cut : Cut rest) : contents (rest.flatMap Piece.chars) = held rest := by
  induction cut with
  | nil => exact contents_nil
  | cons whole allows _ ih => rw [List.flatMap_cons, whole.read _ allows, ih, held_cons]

theorem tail (cut : Cut (piece :: rest)) : Cut rest := by
  cases cut with
  | cons _ _ others => exact others

theorem of_append (cut : Cut (before ++ after)) : Cut after := by
  induction before with
  | nil => exact cut
  | cons piece before ih => exact ih cut.tail

/-- A comment is the last piece. -/
theorem eq_nil_of_comment (cut : Cut (piece :: rest)) (comment : piece.lexeme = .comment) :
    rest = [] := by
  cases cut with
  | cons _ allows _ =>
    cases rest with
    | nil => rfl
    | cons next rest => exact absurd (allows.last comment) (List.cons_ne_nil _ _)

/-- Blanks may stand in front of anything. -/
theorem blanks {other : List Piece} (cut : Cut (before ++ after))
    (blank : ∀ piece ∈ before, piece.lexeme = .blank) (others : Cut other) :
    Cut (before ++ other) := by
  induction before with
  | nil => exact others
  | cons piece before ih =>
    obtain ⟨first, later⟩ := List.forall_mem_cons.mp blank
    cases cut with
    | cons whole _ following =>
      refine .cons whole ⟨fun word => ?_, fun comment => ?_⟩ (ih following later)
      · rw [Piece.isWord, first] at word
        contradiction
      · rw [first] at comment
        contradiction

end Cut

/-- The pieces of a line that can be read may stand as they do. -/
theorem cut_pieces {line : List Char} (single : '\n' ∉ line) (readable : none ∉ contents line) :
    Cut (pieces line) := by
  unfold contents at readable
  fun_induction pieces line with
  | case1 => exact .nil
  | case2 head rest piece ih =>
    rw [List.flatMap_cons, List.mem_append, not_or] at readable
    have inside : '\n' ∉ rest := fun member => single (List.mem_cons_of_mem head member)
    obtain ⟨whole, allows⟩ := whole_firstPiece inside readable.1
    have later : '\n' ∉ rest.drop piece.tail.length := fun member =>
      inside (List.mem_of_mem_drop member)
    refine .cons whole ?_ (ih later readable.2)
    rw [flatMap_chars_pieces]
    exact allows

/-- A word in the place of a word. -/
inductive Swapped (piece : Piece) : Piece → Prop where
  | same : Swapped piece piece
  | word {other : Piece} (before : piece.isWord) (after : other.isWord) (whole : other.Whole) :
      Swapped piece other

/-- Words may take the places of words. -/
theorem Cut.swap {before after : List Piece} (cut : Cut before)
    (swapped : List.Forall₂ Swapped before after) : Cut after := by
  induction swapped with
  | nil => exact .nil
  | @cons piece other rest others first later ih =>
    cases cut with
    | cons whole allows following =>
      -- The next piece opens as before, or it is a word and was one.
      have ends (open_before : Ends (rest.flatMap Piece.chars)) :
          Ends (others.flatMap Piece.chars) := by
        cases later with
        | nil => exact ends_nil
        | @cons next another _ _ second _ =>
          cases second with
          | same => exact open_before
          | word before after _ =>
            cases following with
            | cons word _ _ =>
              have outside := open_before next.head rfl
              rw [word.opens_word before] at outside
              contradiction
      have last (nothing : rest.flatMap Piece.chars = []) : others.flatMap Piece.chars = [] := by
        cases later with
        | nil => rfl
        | cons _ _ => exact absurd nothing (List.cons_ne_nil _ _)
      cases first with
      | same =>
        exact .cons whole ⟨fun word => ends (allows.ends word), fun comment =>
          last (allows.last comment)⟩ (ih following)
      | word before after sound =>
        refine .cons sound ⟨fun _ => ends (allows.ends before), fun comment => ?_⟩ (ih following)
        rw [Piece.isWord, comment] at after
        contradiction

end RegisterMachine.Source
