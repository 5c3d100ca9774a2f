import RegisterMachine.Proofs.Source.NumberGrammar

/-!
Texts that are put one after the other.

Two texts hold what each of them holds when no name or number reaches from one into the other and
the first one does not end within a comment. After a comment only the lines below it matter.
-/

namespace RegisterMachine.Source

/-- A name or a number after this text starts there. -/
def Begins (before : List Char) : Prop := ∀ last ∈ before.getLast?, isNameChar last = false

/-- No name or number reaches from one text into the next. -/
def Apart (before after : List Char) : Prop := Begins before ∨ Ends after

/-- No comment starts here. -/
def Uncommented (text : List Char) : Prop := ∀ char ∈ text, ¬ (char = ';' ∨ char = '#')

/-- The text after this one starts a line. -/
def EndsLine (above : List Char) : Prop := ∀ last ∈ above.getLast?, last = '\n'

theorem uncommented_nil : Uncommented [] := List.forall_mem_nil _

theorem endsLine_nil : EndsLine [] := by
  intro last member
  simp at member

section Characters

variable {char : Char}

theorem opens_of_nameChar (inside : isNameChar char) : Opens char := by
  rw [isNameChar, Bool.or_eq_true] at inside
  rcases inside with digit | start
  · exact opens_of_digit digit
  · exact opens_of_nameStart start

theorem isNameChar_of_gap (gap : isGap char) : isNameChar char = false := by
  rw [Bool.eq_false_iff]
  intro inside
  have parts : char ≠ '\n' ∧ Text.isBlank char := by simpa [isGap] using gap
  rw [(opens_of_nameChar inside).not_blank] at parts
  exact Bool.false_ne_true parts.2

theorem isNameChar_of_mark (mark : char = ';' ∨ char = '#') : isNameChar char = false := by
  rcases mark with rfl | rfl <;> decide

theorem newline_not_mem_gaps {gaps : List Char} (blank : ∀ gap ∈ gaps, isGap gap) : '\n' ∉ gaps :=
  fun member => absurd (blank '\n' member) (by decide)

theorem newline_not_mem_word {word : List Char} (inside : ∀ char ∈ word, isNameChar char) :
    '\n' ∉ word :=
  fun member => absurd (inside '\n' member) (by decide)

theorem newline_not_mem_comment {mark : Char} {body : List Char} (opens : mark = ';' ∨ mark = '#')
    (single : '\n' ∉ body) : '\n' ∉ mark :: body := by
  apply List.not_mem_cons_of_ne_of_not_mem _ single
  rcases opens with rfl | rfl <;> decide

end Characters

/-- Only the lines below are left of a text that goes on after a comment. -/
def below (text : List Char) : List Char := text.dropWhile (· != '\n')

theorem below_append {line : List Char} (single : '\n' ∉ line) (rest : List Char) :
    below (line ++ rest) = below rest := by
  apply List.dropWhile_append_of_pos
  intro char member
  exact bne_iff_ne.mpr fun newline => single (newline ▸ member)

theorem below_of_stops {text : List Char} (stops : Stops (· != '\n') text) : below text = text := by
  cases text with
  | nil => rfl
  | cons next text => exact List.dropWhile_cons_of_neg (Bool.eq_false_iff.mp (stops next rfl))

/-- A comment holds nothing. -/
theorem contents_comment {mark : Char} {body : List Char} (opens : mark = ';' ∨ mark = '#')
    (single : '\n' ∉ body) (rest : List Char) :
    contents (mark :: body ++ rest) = contents (below rest) := by
  rw [List.cons_append, contents_cons, firstPiece_of_comment opens, drop_length_takeWhile]
  exact congrArg contents (below_append single rest)

section Words

variable {rest digits : List Char} {base : Nat} {lexeme : Lexeme}

/-- Only the end of a literal matters for what is read of it. -/
theorem Literal.Reads.before {other : List Char} (reads : Literal.Reads base digits rest lexeme)
    (alike : Ends rest ↔ Ends other) : Literal.Reads base digits other lexeme := by
  cases reads with
  | number several small ends => exact .number several small (alike.mp ends)
  | glued runs_on => exact .glued fun ends => runs_on (alike.mpr ends)
  | worthless unfit ends => exact .worthless unfit (alike.mp ends)

end Words

/-- A run of name characters is read in the same way whatever follows its end. -/
theorem contents_run {word rest : List Char} (inside : ∀ char ∈ word, isNameChar char)
    (ends : Ends rest) : contents (word ++ rest) = contents word ++ contents rest := by
  cases word with
  | nil => rw [contents_nil, List.nil_append, List.nil_append]
  | cons head tail =>
    obtain ⟨first, inner⟩ := List.forall_mem_cons.mp inside
    by_cases digit : head.isDigit
    · -- A literal comes first, and what is left of the word is shorter.
      obtain ⟨piece, left, base, digits, -, cut, -, later, literal, longest, reads⟩ :=
        exists_taken digit inner ends
      have alone : Literal.Reads base digits left piece.lexeme := by
        apply reads.before
        rw [ends_left_iff later ends, ← List.append_nil left, ends_left_iff later ends_nil,
          List.append_nil]
      have longestAlone : Longest piece.chars left := fun more base digits before =>
        longest more base digits (before.trans (List.prefix_append left rest))
      have shorter : left.length < (head :: tail).length := by
        rw [cut, List.length_append]
        exact Nat.lt_add_of_pos_left (Nat.succ_pos _)
      have here (after : List Char) (longest : Longest piece.chars after)
          (reads : Literal.Reads base digits after piece.lexeme) :
          contents (piece.chars ++ after) = piece.lexeme.contents ++ contents after :=
        contents_of_firstPiece (firstPiece_of_literal literal longest reads)
      rw [cut, List.append_assoc, here _ longest reads, here _ longestAlone alone,
        contents_run later ends, List.append_assoc]
    · have start : isNameStart head := by simpa [isNameChar, digit] using first
      have valid : isName (head :: tail) := by
        rw [isName, start, Bool.true_and, List.all_eq_true]
        exact inner
      have alone := contents_name valid ends_nil
      rw [List.append_nil, contents_nil] at alone
      rw [contents_name valid ends, alone, List.singleton_append]
termination_by word.length

/-- A character outside of names and comments is read alone. -/
theorem contents_char {char : Char} (outside : isNameChar char = false)
    (plain : ¬ (char = ';' ∨ char = '#')) (rest : List Char) :
    contents (char :: rest) = contents [char] ++ contents rest := by
  have alone (lexeme : Lexeme) (first : ∀ rest, firstPiece char rest = ⟨char, [], lexeme⟩) :
      contents (char :: rest) = contents [char] ++ contents rest := by
    simp [contents_cons, first, contents_nil]
  cases opening char with
  | newline same =>
    subst same
    exact alone _ fun _ => rfl
  | gap gap => rw [contents_gap gap, contents_gap gap, contents_nil, List.nil_append]
  | comment mark => exact absurd mark plain
  | colon same =>
    subst same
    exact alone _ fun _ => rfl
  | comma same =>
    subst same
    exact alone _ fun _ => rfl
  | number digit =>
    rw [isNameChar, digit] at outside
    contradiction
  | name start =>
    rw [isNameChar, start, Bool.or_true] at outside
    contradiction
  | misfit stray => exact alone _ (firstPiece_of_stray stray)

theorem Apart.of_append {first second after : List Char} (apart : Apart (first ++ second) after) :
    Apart second after := by
  rcases apart with outside | ends
  · refine .inl fun last member => outside last ?_
    rw [List.getLast?_append, Option.mem_def.mp member]
    rfl
  · exact .inr ends

/-- A name or a number at the end of a text ends there. -/
theorem Apart.ends {word after : List Char} (apart : Apart word after) (filled : word ≠ [])
    (inside : ∀ char ∈ word, isNameChar char) : Ends after := by
  rcases apart with outside | ends
  · have last := outside (word.getLast filled) (List.getLast?_eq_some_getLast filled)
    rw [inside _ (List.getLast_mem filled)] at last
    contradiction
  · exact ends

/-- Every token of a text may be moved away from what follows it. -/
theorem Written.apart {slice rest : List Char} {symbol : Symbol}
    (written : Written slice rest symbol) : Apart slice rest := by
  cases written with
  | newline | colon | comma => exact .inl (by simp [Begins, isNameChar, isNameStart])
  | name valid ends => exact .inr ends
  | number literal several small ends => exact .inr ends

/-- A text that starts with a name character starts with a run of them. -/
theorem exists_run {head : Char} (inside : isNameChar head) (tail : List Char) :
    ∃ word left, head :: tail = word ++ left ∧ word ≠ [] ∧ (∀ char ∈ word, isNameChar char) ∧
      Ends left := by
  refine ⟨head :: tail.takeWhile isNameChar, tail.dropWhile isNameChar, ?_, List.cons_ne_nil _ _,
    List.forall_mem_cons.mpr ⟨inside, fun _ => List.mem_takeWhile_imp⟩, ends_dropWhile tail⟩
  rw [List.cons_append, List.takeWhile_append_dropWhile]

/-- Two texts hold what each of them holds. -/
theorem contents_append {before after : List Char} (plain : Uncommented before)
    (apart : Apart before after) :
    contents (before ++ after) = contents before ++ contents after := by
  cases before with
  | nil => rw [contents_nil, List.nil_append, List.nil_append]
  | cons head tail =>
    obtain ⟨first, others⟩ := List.forall_mem_cons.mp plain
    by_cases inside : isNameChar head
    · -- The run of name characters at the front is read first.
      obtain ⟨word, left, whole, filled, run, stops⟩ := exists_run inside tail
      have shorter : left.length < (head :: tail).length := by
        rw [whole, List.length_append]
        exact Nat.lt_add_of_pos_left (List.length_pos_of_ne_nil filled)
      rw [whole] at plain apart
      have ends : Ends (left ++ after) := by
        cases left with
        | nil =>
          rw [List.append_nil] at apart
          exact apart.ends filled run
        | cons next left => exact stops
      have later : Uncommented left := fun char member => plain char (List.mem_append_right _ member)
      rw [whole, List.append_assoc, contents_run run ends, contents_run run stops,
        contents_append later apart.of_append, List.append_assoc]
    · have later : Apart tail after := @Apart.of_append [head] tail after apart
      rw [List.cons_append, contents_char (Bool.eq_false_iff.mpr inside) first,
        contents_append others later, ← List.append_assoc,
        ← contents_char (Bool.eq_false_iff.mpr inside) first]
termination_by before.length

section Lines

variable {above before old new : List Char}

/-- Every text is some lines and what stands on the last one. -/
theorem exists_lastLine (text : List Char) :
    ∃ above line, text = above ++ line ∧ EndsLine above ∧ '\n' ∉ line := by
  induction text with
  | nil => exact ⟨[], [], rfl, endsLine_nil, List.not_mem_nil⟩
  | cons char text ih =>
    obtain ⟨above, line, rfl, starts, single⟩ := ih
    by_cases newline : above = [] ∧ char ≠ '\n'
    · refine ⟨[], char :: line, by rw [newline.1]; rfl, endsLine_nil, ?_⟩
      exact List.not_mem_cons_of_ne_of_not_mem newline.2.symm single
    · refine ⟨char :: above, line, rfl, fun last member => ?_, single⟩
      cases above with
      | nil =>
        obtain rfl := Option.some.inj member
        simpa using newline
      | cons next above =>
        rw [List.getLast?_cons_cons] at member
        exact starts last member

/-- Every line is what is read of it and a comment or nothing. -/
theorem exists_comment (line : List Char) :
    ∃ plain comment, line = plain ++ comment ∧ Uncommented plain ∧
      (comment = [] ∨ ∃ mark body, comment = mark :: body ∧ (mark = ';' ∨ mark = '#')) := by
  induction line with
  | nil => exact ⟨[], [], rfl, uncommented_nil, .inl rfl⟩
  | cons char line ih =>
    by_cases mark : char = ';' ∨ char = '#'
    · exact ⟨[], char :: line, rfl, uncommented_nil, .inr ⟨char, line, rfl, mark⟩⟩
    · obtain ⟨plain, comment, rfl, clear, opens⟩ := ih
      exact ⟨char :: plain, comment, rfl, List.forall_mem_cons.mpr ⟨mark, clear⟩, opens⟩

/-- The text after some lines is read as if it stood alone. -/
theorem contents_above (starts : EndsLine above) (rest : List Char) :
    contents (above ++ rest) = contents above ++ contents rest := by
  rcases List.eq_nil_or_concat above with rfl | ⟨lines, last, rfl⟩
  · rw [contents_nil, List.nil_append, List.nil_append]
  · obtain rfl := starts last (by simp)
    rw [List.concat_append, contents_append_newline, List.concat_eq_append, contents_append_newline,
      contents_nil, List.append_assoc]
    rfl

/-- The end of a text may be replaced by one that holds the same, also where a comment goes on into
it. -/
theorem contents_replace (apart : Apart before old) (again : Apart before new)
    (same : contents old = contents new) (under : contents (below old) = contents (below new)) :
    contents (before ++ old) = contents (before ++ new) := by
  obtain ⟨above, line, rfl, starts, single⟩ := exists_lastLine before
  obtain ⟨plain, comment, rfl, clear, opens⟩ := exists_comment line
  rw [List.append_assoc above, List.append_assoc above, contents_above starts,
    contents_above starts]
  congr 1
  -- A comment on the last line takes what follows up to the next newline.
  rcases opens with rfl | ⟨mark, body, rfl, mark_eq⟩
  · rw [List.append_nil] at apart again ⊢
    rw [contents_append clear apart.of_append, contents_append clear again.of_append, same]
  · have apart (rest : List Char) : Apart plain (mark :: body ++ rest) :=
      .inr (ends_cons (isNameChar_of_mark mark_eq) _)
    have inside : '\n' ∉ body := fun member =>
      single (List.mem_append_right plain (List.mem_cons_of_mem mark member))
    rw [List.append_assoc, List.append_assoc, contents_append clear (apart old),
      contents_append clear (apart new), contents_comment mark_eq inside,
      contents_comment mark_eq inside, under]

end Lines

end RegisterMachine.Source
