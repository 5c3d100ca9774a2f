import RegisterMachine.Proofs.Source.Tiling

/-!
The grammar of numbers.

A word that starts with a digit is read as one number when it is a literal with a digit in it and
its value fits. Otherwise reading stops somewhere in the word, and what it has taken is a misfit.
-/

namespace RegisterMachine.Source

/-- A literal that means a number: it has a digit, and it is not too large. -/
inductive NumberLiteral (number : Nat) : List Char → Prop where
  | literal {slice digits : List Char} {base : Nat} (literal : Literal slice base digits)
      (several : digits ≠ []) (same : Numeral.value base digits = number)
      (small : number < numberLimit) : NumberLiteral number slice

/-- The items that come of a word in front of some text. -/
inductive Itemized (start : Position) (word rest : List Char) : List Item → Prop where
  | number {number : Nat} (written : NumberLiteral number word) :
      Itemized start word rest (.token ⟨start, start.advance word, .number number⟩ ::
        itemsFrom (start.advance word) (pieces rest))
  /-- A misfit takes at least one character, and none after the word. -/
  | misfit {taken left : List Char} {text : String} {glued : Bool}
      (unread : ∀ number, ¬ NumberLiteral number word) (some : taken ≠ [])
      (cut : word = taken ++ left) :
      Itemized start word rest (.misfit ⟨text, start.advance taken, glued⟩ ::
        itemsFrom (start.advance taken) (pieces (left ++ rest)))

section Words

variable {head : Char} {tail word rest digits : List Char} {base number : Nat}

/-- A literal means one number at most. -/
theorem NumberLiteral.number_eq (written : NumberLiteral number word)
    (literal : Literal word base digits) :
    digits ≠ [] ∧ Numeral.value base digits = number ∧ number < numberLimit := by
  cases written with
  | literal other several same small =>
    obtain ⟨rfl, rfl⟩ := literal.unique other
    exact ⟨several, same, small⟩

/-- What is read of a word does not reach past its end. -/
theorem exists_left {taken after : List Char} (ends : Ends rest)
    (inside : ∀ char ∈ taken, isNameChar char) (cut : taken ++ after = word ++ rest) :
    ∃ left, word = taken ++ left ∧ after = left ++ rest := by
  rcases List.append_eq_append_iff.mp cut with ⟨left, same, following⟩ | ⟨more, same, following⟩
  · exact ⟨left, same, following⟩
  · -- What is taken beyond the word comes first in the text after it.
    have nothing : more = [] := by
      apply eq_nil_of_stops ends ⟨after, following.symm⟩
      intro char member
      exact inside char (same ▸ List.mem_append_right word member)
    subst nothing
    exact ⟨[], by simpa using same.symm, by simpa using following.symm⟩

/-- Part of a word is left when its first piece runs into a name, and otherwise nothing is. -/
theorem ends_left_iff {left : List Char} (inside : ∀ char ∈ left, isNameChar char)
    (ends : Ends rest) : Ends (left ++ rest) ↔ left = [] := by
  constructor
  · intro stops
    exact eq_nil_of_stops stops (List.prefix_append left rest) inside
  · rintro rfl
    exact ends

/-- The first piece of a word that starts with a digit is the longest literal in it. -/
theorem exists_taken (digit : head.isDigit) (inner : ∀ char ∈ tail, isNameChar char)
    (ends : Ends rest) :
    ∃ piece left base digits, firstPiece head (tail ++ rest) = piece ∧
      head :: tail = piece.chars ++ left ∧
      (tail ++ rest).drop piece.tail.length = left ++ rest ∧ (∀ char ∈ left, isNameChar char) ∧
      Literal piece.chars base digits ∧ Longest piece.chars (left ++ rest) ∧
      Literal.Reads base digits (left ++ rest) piece.lexeme := by
  obtain ⟨base, digits, literal, longest, reads⟩ := exists_literal digit (tail ++ rest)
  have whole := chars_firstPiece_append head (tail ++ rest)
  rw [firstPiece_of_digit digit, ← List.cons_append] at whole
  obtain ⟨left, cut, following⟩ := exists_left ends literal.isNameChar whole
  rw [following] at longest reads
  refine ⟨_, left, base, digits, firstPiece_of_digit digit _, cut, following, ?_, literal, longest,
    reads⟩
  intro char member
  have within : char ∈ head :: tail := cut ▸ List.mem_append_right _ member
  rcases List.mem_cons.mp within with rfl | later
  · rw [isNameChar, digit, Bool.true_or]
  · exact inner char later

/-- Every word that starts with a digit is a number or a misfit at its front. -/
theorem itemized_of_digit (digit : head.isDigit) (inner : ∀ char ∈ tail, isNameChar char)
    (ends : Ends rest) (start : Position) :
    Itemized start (head :: tail) rest (itemsFrom start (pieces (head :: tail ++ rest))) := by
  obtain ⟨piece, left, base, digits, first, cut, following, inside, literal, longest, reads⟩ :=
    exists_taken digit inner ends
  have items : itemsFrom start (pieces (head :: tail ++ rest)) =
      (piece.item? start).toList ++
        itemsFrom (start.advance piece.chars) (pieces (left ++ rest)) := by
    rw [List.cons_append, pieces]
    simp only [first, following, itemsFrom]
    rfl
  rw [items]
  generalize found : piece.lexeme = lexeme at reads
  cases reads with
  | number several small stops =>
    obtain rfl := (ends_left_iff inside ends).mp stops
    rw [List.append_nil] at cut
    rw [← cut] at literal ⊢
    simp only [Piece.item?, found, Piece.stop, ← cut]
    exact .number (.literal literal several rfl small)
  | glued runs_on =>
    simp only [Piece.item?, found, Piece.stop]
    refine .misfit (fun number written => runs_on ?_) literal.ne_nil cut
    -- A word that is a literal as a whole is the longest one.
    cases written with
    | literal longer =>
      rw [cut] at longer
      exact (ends_left_iff inside ends).mpr (longest left _ _ (List.prefix_append left rest) longer)
  | worthless unfit stops =>
    simp only [Piece.item?, found, Piece.stop]
    refine .misfit (fun number written => ?_) literal.ne_nil cut
    obtain rfl := (ends_left_iff inside ends).mp stops
    rw [List.append_nil] at cut
    rw [← cut] at literal
    obtain ⟨several, same, small⟩ := written.number_eq literal
    rcases unfit with empty | large
    · exact several empty
    · omega

end Words

/-- A word that starts with a digit gives a number with all of the word exactly when it is a literal
for that number, and otherwise it gives a misfit and reading goes on within the word. -/
theorem first_item_of_digit {head : Char} {tail rest : List Char} (digit : head.isDigit)
    (inner : ∀ char ∈ tail, isNameChar char) (ends : Ends rest) (start : Position) :
    (∀ number, (itemsFrom start (pieces (head :: tail ++ rest))).head? =
        some (.token ⟨start, start.advance (head :: tail), .number number⟩) ↔
      NumberLiteral number (head :: tail)) ∧
    Itemized start (head :: tail) rest (itemsFrom start (pieces (head :: tail ++ rest))) := by
  have itemized := itemized_of_digit digit inner ends start
  refine ⟨fun number => ?_, itemized⟩
  generalize itemsFrom start (pieces (head :: tail ++ rest)) = items at itemized
  cases itemized with
  | @number read written =>
    rw [List.head?_cons, Option.some.injEq, Item.token.injEq]
    constructor
    · intro same
      obtain rfl : read = number := by simpa using same
      exact written
    · intro again
      cases again with
      | literal literal several same small =>
        obtain ⟨-, rfl, -⟩ := written.number_eq literal
        rw [same]
  | misfit unread =>
    refine iff_of_false ?_ (unread number)
    rw [List.head?_cons, Option.some.injEq]
    exact Item.noConfusion

/-- Underscores may stand right after the letter of a base. A digit of another base is not read: the
misfit ends before it, and it is left to the next item. -/
theorem first_item_of_digit_binary :
    (itemsFrom ⟨2, 5⟩ (pieces ['0', 'b', '_', '1', '0', '1', ','])).head? =
        some (.token ⟨⟨2, 5⟩, ⟨2, 11⟩, .number 5⟩) ∧
      (itemsFrom ⟨2, 5⟩ (pieces ['0', 'b', '1', '2', ','])).head? =
        some (.misfit ⟨"1", ⟨2, 8⟩, true⟩) ∧
      (∀ number, ¬ NumberLiteral number ['0', 'b', '1', '2']) ∧
      Itemized ⟨2, 5⟩ ['0', 'b', '1', '2'] [',']
        (itemsFrom ⟨2, 5⟩ (pieces ['0', 'b', '1', '2', ','])) := by
  have comma : Ends [','] := ends_cons (by decide) []
  have inside {tail : List Char} (kept : tail.all isNameChar) : ∀ char ∈ tail, isNameChar char :=
    List.all_eq_true.mp kept
  have five : NumberLiteral 5 ['0', 'b', '_', '1', '0', '1'] :=
    .literal (.marked .binary (List.all_eq_true.mp (by decide))) (by decide) (by decide) (by decide)
  have good := @first_item_of_digit '0' ['b', '_', '1', '0', '1'] [','] (by decide)
    (inside (by decide)) comma ⟨2, 5⟩
  have bad := @first_item_of_digit '0' ['b', '1', '2'] [','] (by decide) (inside (by decide)) comma
    ⟨2, 5⟩
  have stopped : (itemsFrom ⟨2, 5⟩ (pieces ['0', 'b', '1', '2', ','])).head? =
      some (.misfit ⟨"1", ⟨2, 8⟩, true⟩) := by decide +kernel
  refine ⟨(good.1 5).mpr five, stopped, fun number literal => ?_, bad.2⟩
  have read := stopped.symm.trans ((bad.1 number).mpr literal)
  exact Item.noConfusion (Option.some.inj read)

end RegisterMachine.Source
