import RegisterMachine.Proofs.Source.Seams
import RegisterMachine.Source.Line
import Mathlib.Data.Prod.Lex

/-!
The items of a text tile it.

Every character of a text belongs to a token, a misfit, a blank or a comment. The place of a token is
that of its characters, counted from the start of the text, and the tokens stand in the order of
their places.
-/

namespace RegisterMachine.Source

namespace Position

/-- The position of the character that comes after some text. -/
def after (before : List Char) : Position :=
  ⟨1 + before.count '\n', 1 + (before.reverse.takeWhile (· != '\n')).length⟩

theorem after_concat (before : List Char) (char : Char) :
    after (before ++ [char]) = (after before).next char := by
  by_cases newline : char = '\n'
  · subst newline
    simp [after, next, Nat.add_assoc]
  · simp [after, next, newline, Nat.add_assoc]

/-- Counting on from a position is counting from the start of the text. -/
theorem advance_after (before slice : List Char) :
    (after before).advance slice = after (before ++ slice) := by
  induction slice generalizing before with
  | nil => rw [advance_nil, List.append_nil]
  | cons char slice ih =>
    rw [advance_cons, ← after_concat, ih, List.append_assoc, List.singleton_append]

/-- A place in reading order: the line decides, and then the column. -/
def place (position : Position) : ℕ ×ₗ ℕ := toLex (position.line, position.column)

theorem place_injective : Function.Injective place := by
  intro first second same
  have parts : (first.line, first.column) = (second.line, second.column) := toLex.injective same
  obtain ⟨line, column⟩ := Prod.mk.inj parts
  cases first
  cases second
  simp_all

instance : PartialOrder Position := PartialOrder.lift place place_injective

theorem lt_iff (first second : Position) :
    first < second ↔
      first.line < second.line ∨ first.line = second.line ∧ first.column < second.column :=
  Prod.Lex.toLex_lt_toLex

theorem lt_next (position : Position) (char : Char) : position < position.next char := by
  rw [lt_iff, next]
  split
  · exact .inl (Nat.lt_succ_self _)
  · exact .inr ⟨rfl, Nat.lt_succ_self _⟩

theorem le_advance (position : Position) (slice : List Char) : position ≤ position.advance slice := by
  induction slice generalizing position with
  | nil => exact le_refl _
  | cons char slice ih => exact (position.lt_next char).le.trans (ih _)

theorem le_after (before slice : List Char) : after before ≤ after (before ++ slice) := by
  rw [← advance_after]
  exact le_advance _ slice

theorem lt_after (before : List Char) {slice : List Char} (some : slice ≠ []) :
    after before < after (before ++ slice) := by
  obtain ⟨char, rest, rfl⟩ := List.exists_cons_of_ne_nil some
  rw [← advance_after, advance_cons]
  exact ((after before).lt_next char).trans_le (le_advance _ rest)

end Position

/-- What some characters stand for when this text follows them. -/
inductive Written : List Char → List Char → Symbol → Prop where
  | newline (rest : List Char) : Written ['\n'] rest .newline
  | colon (rest : List Char) : Written [':'] rest .colon
  | comma (rest : List Char) : Written [','] rest .comma
  | name {name rest : List Char} (valid : isName name) (ends : Ends rest) :
      Written name rest (.name (String.ofList name))
  | number {slice digits rest : List Char} {base : Nat} (literal : Literal slice base digits)
      (several : digits ≠ []) (small : Numeral.value base digits < numberLimit)
      (ends : Ends rest) : Written slice rest (.number (Numeral.value base digits))

/-- Characters that stand for nothing: a stray one, or the longest literal if it is no number. -/
inductive Misread : List Char → List Char → String → Bool → Prop where
  | stray {char : Char} (stray : Stray char) (rest : List Char) :
      Misread [char] rest (String.singleton char) false
  | literal {slice digits rest : List Char} {base : Nat} {text : String} {glued : Bool}
      (literal : Literal slice base digits) (longest : Longest slice rest)
      (unread : Literal.Reads base digits rest (.misfit text glued)) :
      Misread slice rest text glued

/-- The rest of a text is tiled by its items. Between them are only blanks and comments, and every
place is counted from the start of the text. -/
inductive Tiles : List Char → List Char → List Item → Prop where
  | done (before : List Char) : Tiles before [] []
  | blank {before blanks rest : List Char} {items : List Item}
      (blank : ∀ char ∈ blanks, isGap char) (others : Tiles (before ++ blanks) rest items) :
      Tiles before (blanks ++ rest) items
  | comment {before body rest : List Char} {mark : Char} {items : List Item}
      (marks : mark = ';' ∨ mark = '#') (single : '\n' ∉ body)
      (ends : ∀ next ∈ rest.head?, next = '\n')
      (others : Tiles (before ++ mark :: body) rest items) :
      Tiles before (mark :: body ++ rest) items
  | token {before slice rest : List Char} {symbol : Symbol} {items : List Item}
      (written : Written slice rest symbol) (others : Tiles (before ++ slice) rest items) :
      Tiles before (slice ++ rest)
        (.token ⟨.after before, .after (before ++ slice), symbol⟩ :: items)
  | misfit {before slice rest : List Char} {text : String} {glued : Bool} {items : List Item}
      (misread : Misread slice rest text glued) (others : Tiles (before ++ slice) rest items) :
      Tiles before (slice ++ rest) (.misfit ⟨text, .after (before ++ slice), glued⟩ :: items)

section Reading

variable {before left : List Char} {piece : Piece} {items : List Item}

theorem Tiles.of_symbol {symbol : Symbol} (found : piece.lexeme = .symbol symbol)
    (written : Written piece.chars left symbol) (others : Tiles (before ++ piece.chars) left items) :
    Tiles before (piece.chars ++ left) ((piece.item? (.after before)).toList ++ items) := by
  simp only [Piece.item?, found, Piece.stop, Position.advance_after]
  exact .token written others

theorem Tiles.of_misfit {text : String} {glued : Bool} (found : piece.lexeme = .misfit text glued)
    (misread : Misread piece.chars left text glued)
    (others : Tiles (before ++ piece.chars) left items) :
    Tiles before (piece.chars ++ left) ((piece.item? (.after before)).toList ++ items) := by
  simp only [Piece.item?, found, Piece.stop, Position.advance_after]
  exact .misfit misread others

/-- The first piece of a text tiles its characters. -/
theorem Tiles.of_firstPiece (head : Char) (rest : List Char)
    (others : Tiles (before ++ (firstPiece head rest).chars)
      (rest.drop (firstPiece head rest).tail.length) items) :
    Tiles before ((firstPiece head rest).chars ++ rest.drop (firstPiece head rest).tail.length)
      (((firstPiece head rest).item? (.after before)).toList ++ items) := by
  cases opening head with
  | newline same =>
    subst same
    exact .of_symbol rfl (.newline _) others
  | gap gap =>
    rw [firstPiece_of_gap gap] at others ⊢
    exact .blank (List.forall_mem_cons.mpr ⟨gap, fun _ => List.mem_takeWhile_imp⟩) others
  | comment mark =>
    rw [firstPiece_of_comment mark] at others ⊢
    refine .comment mark (fun member => ?_) (fun next first => ?_) others
    · have kept := List.mem_takeWhile_imp member
      simp at kept
    · rw [drop_length_takeWhile] at first
      simpa using stops_dropWhile (· != '\n') rest next first
  | colon same =>
    subst same
    exact .of_symbol rfl (.colon _) others
  | comma same =>
    subst same
    exact .of_symbol rfl (.comma _) others
  | number digit =>
    rw [firstPiece_of_digit digit] at others ⊢
    obtain ⟨base, digits, literal, longest, reads⟩ := exists_literal digit rest
    generalize found : (numberPiece head rest).lexeme = lexeme at reads
    cases reads with
    | number several small ends => exact .of_symbol found (.number literal several small ends) others
    | glued runs_on => exact .of_misfit found (.literal literal longest (.glued runs_on)) others
    | worthless unfit ends =>
      exact .of_misfit found (.literal literal longest (.worthless unfit ends)) others
  | name start =>
    rw [firstPiece_of_nameStart start] at others ⊢
    refine .of_symbol rfl (.name (isName_takeWhile start rest) ?_) others
    rw [drop_length_takeWhile]
    exact ends_dropWhile rest
  | misfit stray =>
    rw [firstPiece_of_stray stray] at others ⊢
    exact .of_misfit rfl (.stray stray _) others

theorem tiles_pieces (before text : List Char) :
    Tiles before text (itemsFrom (.after before) (pieces text)) := by
  fun_induction pieces text generalizing before with
  | case1 => exact .done before
  | case2 head rest piece ih =>
    have tiled := Tiles.of_firstPiece head rest (ih (before ++ piece.chars))
    rw [chars_firstPiece_append] at tiled
    rwa [itemsFrom, Piece.stop, Position.advance_after]

end Reading

section Uniqueness

variable {before rest slice : List Char} {items : List Item} {symbol : Symbol}

/-- The first piece of a text gives the first item. -/
theorem itemsFrom_of_firstPiece {head : Char} {tail : List Char} {lexeme : Lexeme}
    (first : firstPiece head (tail ++ rest) = ⟨head, tail, lexeme⟩) (start : Position) :
    itemsFrom start (pieces (head :: tail ++ rest)) =
      (Piece.item? start ⟨head, tail, lexeme⟩).toList ++
        itemsFrom (start.advance (head :: tail)) (pieces rest) := by
  rw [List.cons_append, pieces]
  simp only [first, List.drop_left, itemsFrom, Piece.stop, Piece.chars]

theorem itemsFrom_dropWhile_gap (start : Position) (rest : List Char) :
    itemsFrom start (pieces rest) =
      itemsFrom (start.advance (rest.takeWhile isGap)) (pieces (rest.dropWhile isGap)) := by
  cases rest with
  | nil => rfl
  | cons head rest =>
    by_cases gap : isGap head
    · rw [List.takeWhile_cons_of_pos gap, List.dropWhile_cons_of_pos gap, pieces,
        firstPiece_of_gap gap, ← drop_length_takeWhile]
      rfl
    · rw [List.takeWhile_cons_of_neg gap, List.dropWhile_cons_of_neg gap, Position.advance_nil]

/-- Blanks give no items. -/
theorem itemsFrom_gaps {gaps : List Char} (blank : ∀ char ∈ gaps, isGap char) (start : Position)
    (rest : List Char) :
    itemsFrom start (pieces (gaps ++ rest)) = itemsFrom (start.advance gaps) (pieces rest) := by
  rw [itemsFrom_dropWhile_gap, List.takeWhile_append_of_pos blank,
    List.dropWhile_append_of_pos blank, Position.advance_append, ← itemsFrom_dropWhile_gap]

/-- Only the items of a text tile it. -/
theorem Tiles.eq_itemsFrom (tiles : Tiles before rest items) :
    items = itemsFrom (.after before) (pieces rest) := by
  induction tiles with
  | done => rw [pieces, itemsFrom]
  | blank blank _ ih => rw [itemsFrom_gaps blank, Position.advance_after, ih]
  | @comment before body rest mark items marks single ends _ ih =>
    have stops : Stops (· != '\n') rest := fun next first => by simp [ends next first]
    have kept : ∀ char ∈ body, (char != '\n') = true := fun char member =>
      bne_iff_ne.mpr fun newline => single (newline ▸ member)
    have first : firstPiece mark (body ++ rest) = ⟨mark, body, .comment⟩ := by
      rw [firstPiece_of_comment marks, takeWhile_of_stops kept stops]
    rw [itemsFrom_of_firstPiece first, Position.advance_after, ← ih]
    rfl
  | @token before slice rest symbol items written _ ih =>
    obtain ⟨head, tail, rfl, first⟩ : ∃ head tail, slice = head :: tail ∧
        firstPiece head (tail ++ rest) = ⟨head, tail, .symbol symbol⟩ := by
      cases written with
      | newline | colon | comma => exact ⟨_, _, rfl, rfl⟩
      | name valid ends =>
        cases slice with
        | nil => contradiction
        | cons head tail => exact ⟨head, tail, rfl, firstPiece_of_name valid ends⟩
      | number literal several small ends =>
        obtain ⟨head, tail, rfl⟩ := List.exists_cons_of_ne_nil literal.ne_nil
        exact ⟨head, tail, rfl, firstPiece_of_literal literal (longest_of_ends ends _)
          (.number several small ends)⟩
    rw [itemsFrom_of_firstPiece first, Position.advance_after, ← ih, ← Position.advance_after]
    rfl
  | @misfit before slice rest text glued items misread _ ih =>
    obtain ⟨head, tail, rfl, first⟩ : ∃ head tail, slice = head :: tail ∧
        firstPiece head (tail ++ rest) = ⟨head, tail, .misfit text glued⟩ := by
      cases misread with
      | stray stray => exact ⟨_, _, rfl, firstPiece_of_stray stray _⟩
      | literal literal longest unread =>
        obtain ⟨head, tail, rfl⟩ := List.exists_cons_of_ne_nil literal.ne_nil
        exact ⟨head, tail, rfl, firstPiece_of_literal literal longest unread⟩
    rw [itemsFrom_of_firstPiece first, Position.advance_after, ← ih, ← Position.advance_after]
    rfl

end Uniqueness

section Order

variable {before rest slice : List Char} {items : List Item} {symbol : Symbol}

theorem Written.ne_nil (written : Written slice rest symbol) : slice ≠ [] := by
  cases written with
  | newline | colon | comma => exact List.cons_ne_nil _ _
  | name valid => exact fun empty => by rw [empty] at valid; contradiction
  | number literal => exact literal.ne_nil

/-- Every token has a place of its own, after all that stands before it. -/
theorem Tiles.token_place (tiles : Tiles before rest items) {token : Token}
    (member : token ∈ items.filterMap Item.token?) :
    .after before ≤ token.start ∧ token.start < token.stop := by
  induction tiles with
  | done => contradiction
  | @blank before blanks _ _ _ _ ih =>
    obtain ⟨later, spans⟩ := ih member
    exact ⟨(Position.le_after before blanks).trans later, spans⟩
  | @comment before body _ mark _ _ _ _ _ ih =>
    obtain ⟨later, spans⟩ := ih member
    exact ⟨(Position.le_after before (mark :: body)).trans later, spans⟩
  | @token before slice _ _ _ written _ ih =>
    rcases List.mem_cons.mp member with rfl | others
    · exact ⟨le_refl _, Position.lt_after before written.ne_nil⟩
    · obtain ⟨later, spans⟩ := ih others
      exact ⟨(Position.le_after before slice).trans later, spans⟩
  | @misfit before slice _ _ _ _ _ _ ih =>
    obtain ⟨later, spans⟩ := ih member
    exact ⟨(Position.le_after before slice).trans later, spans⟩

/-- The places of tokens do not overlap and follow each other. -/
theorem Tiles.in_order (tiles : Tiles before rest items) :
    (items.filterMap Item.token?).Pairwise fun earlier later => earlier.stop ≤ later.start := by
  induction tiles with
  | done => exact .nil
  | blank _ _ ih => exact ih
  | comment _ _ _ _ ih => exact ih
  | token _ others ih => exact .cons (fun _ member => (others.token_place member).1) ih
  | misfit _ _ ih => exact ih

end Order

section Newlines

variable {before rest slice : List Char} {items : List Item} {symbol : Symbol}

/-- Neither a name nor a number has a newline. -/
theorem count_newline_of_isNameChar {chars : List Char}
    (inName : ∀ char ∈ chars, isNameChar char) : chars.count '\n' = 0 := by
  rw [List.count_eq_zero]
  intro member
  exact absurd (inName '\n' member) (by decide)

theorem Written.count_newline (written : Written slice rest symbol) :
    slice.count '\n' = if symbol = .newline then 1 else 0 := by
  cases written with
  | newline | colon | comma => rfl
  | name valid => exact count_newline_of_isNameChar (isNameChar_of_isName valid)
  | number literal => exact count_newline_of_isNameChar literal.isNameChar

theorem Misread.count_newline {text : String} {glued : Bool}
    (misread : Misread slice rest text glued) : slice.count '\n' = 0 := by
  cases misread with
  | stray stray =>
    rw [List.count_eq_zero, List.mem_singleton]
    exact fun same => stray.not_newline same.symm
  | literal literal => exact count_newline_of_isNameChar literal.isNameChar

/-- Each newline is a token of its own. -/
theorem Tiles.countP_isNewline (tiles : Tiles before rest items) :
    items.countP Item.isNewline = rest.count '\n' := by
  induction tiles with
  | done => rfl
  | @blank _ blanks _ _ blank _ ih =>
    have none : blanks.count '\n' = 0 := by
      rw [List.count_eq_zero]
      exact fun member => absurd (blank '\n' member) (by decide)
    rw [ih, List.count_append, none, Nat.zero_add]
  | @comment _ body _ mark _ marks single _ _ ih =>
    have none : (mark :: body).count '\n' = 0 := by
      rw [List.count_eq_zero, List.mem_cons, not_or]
      exact ⟨by rcases marks with rfl | rfl <;> decide, single⟩
    rw [ih, List.count_append, none, Nat.zero_add]
  | @token _ slice _ symbol _ written _ ih =>
    rw [List.countP_cons, ih, List.count_append, written.count_newline, Nat.add_comm]
    simp [Item.isNewline]
  | misfit misread _ ih =>
    rw [List.countP_cons, ih, List.count_append, misread.count_newline, Nat.zero_add]
    rfl

end Newlines

/-- How the items of a text lie in it. -/
structure Tiled (text : List Char) : Prop where
  tiles_iff : ∀ items, Tiles [] text items ↔ items = (read text).items
  spans : ∀ token, .token token ∈ (read text).items → token.start < token.stop
  in_order : ((read text).items.filterMap Item.token?).Pairwise
    fun earlier later => earlier.stop ≤ later.start
  newlines : (read text).items.countP Item.isNewline = text.count '\n'
  stop : (read text).stop = .after text

/-- Reading a text tiles it, in the only way there is: each token and each misfit has its own
characters at its own place, only blanks and comments lie between them, and reading ends where the
text ends. -/
theorem tokens_tile (text : List Char) : Tiled text := by
  have tiles : Tiles [] text (read text).items := tiles_pieces [] text
  refine ⟨fun items => ⟨Tiles.eq_itemsFrom, fun same => same ▸ tiles⟩, fun token member => ?_,
    tiles.in_order, tiles.countP_isNewline, ?_⟩
  · exact (tiles.token_place (List.mem_filterMap.mpr ⟨_, member, rfl⟩)).2
  · rw [stop_read]
    exact Position.advance_after [] text

/-- A comment takes no newline, and a misfit ends where the name starts that it ran into. -/
example : (read "a;b\n 1c".toList).items =
    [.token ⟨⟨1, 1⟩, ⟨1, 2⟩, .name "a"⟩, .token ⟨⟨1, 4⟩, ⟨2, 1⟩, .newline⟩,
      .misfit ⟨"1", ⟨2, 3⟩, true⟩, .token ⟨⟨2, 3⟩, ⟨2, 4⟩, .name "c"⟩] := by
  decide +kernel

end RegisterMachine.Source
