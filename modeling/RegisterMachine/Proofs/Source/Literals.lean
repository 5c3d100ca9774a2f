import RegisterMachine.Proofs.Numeral
import RegisterMachine.Proofs.Source.Tokens
import Mathlib.Data.List.TakeWhile

/-!
Number literals.

A literal is a run of digits of its base, with underscores anywhere among them. A decimal literal
starts with a digit, and the other two start with a zero and a letter. Whatever starts with a digit
is read as one literal, which is then a number, too long, without a digit, or glued to a name.
-/

namespace RegisterMachine.Source

theorem isNameChar_of_isNumeralChar (base : Nat) {char : Char} (inside : isNumeralChar base char) :
    isNameChar char := by
  simp only [isNumeralChar, Numeral.isDigitOf, Char.isAlphanum, Bool.or_eq_true,
    Bool.and_eq_true] at inside
  simp only [isNameChar, isNameStart, Bool.or_eq_true]
  rcases inside with ⟨letter | digit, -⟩ | underscore
  · exact .inr (.inl (.inl letter))
  · exact .inl digit
  · exact .inr (.inl (.inr underscore))

theorem isDigitOf_ten {char : Char} (digit : char.isDigit) : Numeral.isDigitOf 10 char := by
  have range := Char.isDigit_iff_toNat.mp digit
  simp only [Char.reduceToNat] at range
  simp only [Numeral.isDigitOf, Char.isAlphanum, digit, Bool.or_true, Bool.true_and,
    Numeral.digitValue, if_true, decide_eq_true_eq]
  omega

/-- A letter weighs ten or more, so it is no decimal digit. -/
theorem isDigitOf_ten_iff (char : Char) : Numeral.isDigitOf 10 char ↔ char.isDigit := by
  refine ⟨fun legal => ?_, isDigitOf_ten⟩
  have letter : char.isAlpha = (char.isUpper || char.isLower) := rfl
  simp only [Numeral.isDigitOf, Char.isAlphanum, letter, Bool.and_eq_true, Bool.or_eq_true,
    decide_eq_true_eq, Text.isUpper_iff, Text.isLower_iff] at legal
  by_contra other
  have weight := legal.2
  simp only [Numeral.digitValue, other, if_false] at weight
  split at weight
  · rename_i upper
    have range := (Text.isUpper_iff char).mp upper
    omega
  · rename_i notUpper
    rw [Text.isUpper_iff] at notUpper
    have lower := legal.1.resolve_right other
    omega

/-- The letters that announce a base. -/
inductive Marks : Nat → Char → Prop where
  | hexadecimal : Marks 16 'x'
  | upperHexadecimal : Marks 16 'X'
  | binary : Marks 2 'b'
  | upperBinary : Marks 2 'B'

/-- The characters of a literal, its base, and the digits that are left without the underscores. -/
inductive Literal : List Char → Nat → List Char → Prop where
  | decimal {head : Char} {tail : List Char} (digit : head.isDigit)
      (run : ∀ char ∈ tail, isNumeralChar 10 char) :
      Literal (head :: tail) 10 ((head :: tail).filter (· != '_'))
  | marked {base : Nat} {mark : Char} {body : List Char} (marks : Marks base mark)
      (run : ∀ char ∈ body, isNumeralChar base char) :
      Literal ('0' :: mark :: body) base (body.filter (· != '_'))

/-- Without its underscores a run of a literal has only digits. -/
theorem isDigitOf_of_run {base : Nat} {run : List Char}
    (kept : ∀ char ∈ run, isNumeralChar base char) :
    ∀ char ∈ run.filter (· != '_'), Numeral.isDigitOf base char := by
  intro char member
  obtain ⟨inside, other⟩ := List.mem_filter.mp member
  have either := kept char inside
  rw [isNumeralChar, Bool.or_eq_true] at either
  rcases either with digit | underscore
  · exact digit
  · rw [bne_iff_ne] at other
    exact absurd (beq_iff_eq.mp underscore) other

section Slices

variable {slice digits : List Char} {base : Nat}

theorem Literal.digits_legal (literal : Literal slice base digits) :
    ∀ char ∈ digits, Numeral.isDigitOf base char := by
  cases literal with
  | decimal digit run =>
    refine isDigitOf_of_run (List.forall_mem_cons.mpr ⟨?_, run⟩)
    rw [isNumeralChar, isDigitOf_ten digit, Bool.true_or]
  | marked _ run => exact isDigitOf_of_run run

/-- A literal has only characters that may also stand in a name. -/
theorem Literal.isNameChar (literal : Literal slice base digits) :
    ∀ char ∈ slice, isNameChar char := by
  cases literal with
  | decimal digit run =>
    refine List.forall_mem_cons.mpr ⟨?_, fun char member =>
      isNameChar_of_isNumeralChar 10 (run char member)⟩
    rw [Source.isNameChar, digit, Bool.true_or]
  | marked marks run =>
    refine List.forall_mem_cons.mpr ⟨by decide, List.forall_mem_cons.mpr ⟨?_, fun char member =>
      isNameChar_of_isNumeralChar _ (run char member)⟩⟩
    cases marks <;> decide

theorem Literal.ne_nil (literal : Literal slice base digits) : slice ≠ [] := by
  cases literal <;> exact List.cons_ne_nil _ _

/-- What is read for a literal in front of some text. -/
inductive Literal.Reads (base : Nat) (digits rest : List Char) : Lexeme → Prop where
  | number (several : digits ≠ []) (small : Numeral.value base digits < numberLimit)
      (ends : Ends rest) : Reads base digits rest (.symbol (.number (Numeral.value base digits)))
  | glued (runs_on : ¬ Ends rest) : Reads base digits rest (.misfit (String.ofList digits) true)
  | worthless (unfit : digits = [] ∨ numberLimit ≤ Numeral.value base digits)
      (ends : Ends rest) : Reads base digits rest (.misfit (String.ofList digits) false)

theorem Literal.reads (literal : Literal slice base digits) (rest : List Char) :
    Literal.Reads base digits rest (numberLexeme base digits rest) := by
  unfold numberLexeme
  split
  · rename_i glued
    refine .glued fun ends => ?_
    rw [(ends_iff rest).mp ends] at glued
    contradiction
  · rename_i unglued
    have ends : Ends rest := (ends_iff rest).mpr (Bool.eq_false_iff.mpr unglued)
    split
    · rename_i number read
      obtain ⟨⟨several, -⟩, value⟩ := (Numeral.ofDigits?_eq_some_iff _ _ _ _).mp read
      rw [← value]
      exact .number several (value ▸ number.isLt) ends
    · rename_i unread
      refine .worthless ?_ ends
      by_contra fit
      rw [not_or, Nat.not_le] at fit
      have found := (Numeral.ofDigits?_eq_some_iff base numberLimit digits ⟨_, fit.2⟩).mpr
        ⟨⟨fit.1, List.all_eq_true.mpr literal.digits_legal⟩, rfl⟩
      rw [unread] at found
      contradiction

/-- A literal is read in one way. -/
theorem Literal.Reads.unique {rest : List Char} {first second : Lexeme}
    (once : Literal.Reads base digits rest first) (again : Literal.Reads base digits rest second) :
    first = second := by
  cases once with
  | number several small ends =>
    cases again with
    | number => rfl
    | glued runs_on => exact absurd ends runs_on
    | worthless unfit => exact absurd unfit (not_or.mpr ⟨several, Nat.not_le.mpr small⟩)
  | glued runs_on =>
    cases again with
    | number _ _ ends => exact absurd ends runs_on
    | glued => rfl
    | worthless _ ends => exact absurd ends runs_on
  | worthless unfit ends =>
    cases again with
    | number several small => exact absurd unfit (not_or.mpr ⟨several, Nat.not_le.mpr small⟩)
    | glued runs_on => exact absurd ends runs_on
    | worthless => rfl

end Slices

section Length

variable {base other : Nat} {mark head : Char} {tail slice rest more digits : List Char}

/-- The letter after the zero of a marked literal is no decimal digit. -/
theorem Marks.not_decimal (marks : Marks base mark) : isNumeralChar 10 mark = false := by
  cases marks <;> decide

theorem Marks.announces (marks : Marks base mark) (rest : List Char) :
    markedBase? '0' (mark :: rest) = some base := by
  cases marks <;> rfl

theorem Marks.base_eq (marks : Marks base mark) (again : Marks other mark) : other = base := by
  cases marks <;> cases again <;> rfl

/-- The characters of a literal say what its base and its digits are. -/
theorem Literal.unique {others : List Char} (literal : Literal slice base digits)
    (again : Literal slice other others) : other = base ∧ others = digits := by
  cases literal with
  | decimal _ run =>
    cases again with
    | decimal => exact ⟨rfl, rfl⟩
    | marked marks =>
      have inside := run _ List.mem_cons_self
      rw [marks.not_decimal] at inside
      contradiction
  | marked marks _ =>
    cases again with
    | decimal _ run =>
      have inside := run _ List.mem_cons_self
      rw [marks.not_decimal] at inside
      contradiction
    | marked further _ => exact ⟨marks.base_eq further, rfl⟩

/-- No longer literal starts where the slice does. -/
def Longest (slice rest : List Char) : Prop :=
  ∀ more base digits, more <+: rest → Literal (slice ++ more) base digits → more = []

/-- Where a run stops, it cannot be made longer. -/
theorem eq_nil_of_stops {keep : Char → Bool} (stops : Stops keep rest) (first : more <+: rest)
    (kept : ∀ char ∈ more, keep char) : more = [] := by
  cases more with
  | nil => rfl
  | cons next more =>
    obtain ⟨left, rfl⟩ := first
    have inside := kept next List.mem_cons_self
    rw [stops next rfl] at inside
    contradiction

/-- A literal that ends where a name would end is the longest one. -/
theorem longest_of_ends (ends : Ends rest) (slice : List Char) : Longest slice rest :=
  fun _ _ _ first longer => eq_nil_of_stops ends first fun char member =>
    longer.isNameChar char (List.mem_append_right slice member)

theorem longest_decimal (run : ∀ char ∈ tail, isNumeralChar 10 char)
    (stops : Stops (isNumeralChar 10) rest) (unmarked : markedBase? head (tail ++ rest) = none) :
    Longest (head :: tail) rest := by
  intro more base digits first longer
  generalize whole : head :: tail ++ more = slice at longer
  cases longer with
  | decimal _ inside =>
    obtain ⟨rfl, rfl⟩ := List.cons.inj whole
    exact eq_nil_of_stops stops first fun char member =>
      inside char (List.mem_append_right tail member)
  | marked marks _ =>
    obtain ⟨rfl, later⟩ := List.cons.inj whole
    -- The letter stands among the digits, which have none, or right after the zero.
    cases tail with
    | nil =>
      obtain ⟨left, rfl⟩ := first
      obtain rfl : more = _ :: _ := later
      exact nomatch unmarked.symm.trans (marks.announces _)
    | cons char tail =>
      obtain ⟨rfl, -⟩ := List.cons.inj later
      have inside := run _ List.mem_cons_self
      rw [marks.not_decimal] at inside
      contradiction

theorem longest_marked (marks : Marks base mark) (run : List Char)
    (stops : Stops (isNumeralChar base) rest) : Longest ('0' :: mark :: run) rest := by
  intro more base digits first longer
  generalize whole : '0' :: mark :: run ++ more = slice at longer
  cases longer with
  | decimal _ inside =>
    obtain ⟨rfl, rfl⟩ := List.cons.inj whole
    have decimal := inside _ List.mem_cons_self
    rw [marks.not_decimal] at decimal
    contradiction
  | marked further inside =>
    obtain ⟨-, later⟩ := List.cons.inj whole
    obtain ⟨rfl, rfl⟩ := List.cons.inj later
    obtain rfl := marks.base_eq further
    exact eq_nil_of_stops stops first fun char member =>
      inside char (List.mem_append_right run member)

/-- A text starts with one longest literal at most. -/
theorem Longest.unique {second left others : List Char} (literal : Literal slice base digits)
    (longest : Longest slice rest) (further : Literal second other others)
    (longestToo : Longest second left) (same : slice ++ rest = second ++ left) :
    second = slice ∧ left = rest := by
  have start : slice <+: slice ++ rest := List.prefix_append slice rest
  have startToo : second <+: slice ++ rest := same ▸ List.prefix_append second left
  rcases List.prefix_or_prefix_of_prefix start startToo with ⟨more, rfl⟩ | ⟨more, rfl⟩
  · rw [List.append_assoc, List.append_cancel_left_eq] at same
    obtain rfl := longest more _ _ ⟨left, same.symm⟩ further
    exact ⟨List.append_nil slice, same.symm⟩
  · rw [List.append_assoc, List.append_cancel_left_eq] at same
    obtain rfl := longestToo more _ _ ⟨rest, same⟩ literal
    exact ⟨(List.append_nil second).symm, same.symm⟩

end Length

/-- A base is announced by a zero and one of its letters. -/
theorem marks_of_markedBase? {head : Char} {rest : List Char} {base : Nat}
    (marked : markedBase? head rest = some base) :
    head = '0' ∧ ∃ mark body, rest = mark :: body ∧ Marks base mark := by
  unfold markedBase? at marked
  split at marked
  · obtain rfl := Option.some.inj marked
    exact ⟨rfl, _, _, rfl, .hexadecimal⟩
  · obtain rfl := Option.some.inj marked
    exact ⟨rfl, _, _, rfl, .upperHexadecimal⟩
  · obtain rfl := Option.some.inj marked
    exact ⟨rfl, _, _, rfl, .binary⟩
  · obtain rfl := Option.some.inj marked
    exact ⟨rfl, _, _, rfl, .upperBinary⟩
  · contradiction

/-- A piece that starts with a digit is the longest literal, and it is read as that. -/
theorem exists_literal {head : Char} (digit : head.isDigit) (rest : List Char) :
    ∃ base digits, Literal (numberPiece head rest).chars base digits ∧
      Longest (numberPiece head rest).chars (rest.drop (numberPiece head rest).tail.length) ∧
        Literal.Reads base digits (rest.drop (numberPiece head rest).tail.length)
          (numberPiece head rest).lexeme := by
  have run (base : Nat) (chars : List Char) :
      ∀ char ∈ chars.takeWhile (isNumeralChar base), isNumeralChar base char :=
    fun _ => List.mem_takeWhile_imp
  unfold numberPiece
  cases marked : markedBase? head rest with
  | some base =>
    obtain ⟨rfl, mark, body, rfl, marks⟩ := marks_of_markedBase? marked
    have literal := Literal.marked marks (run base body)
    refine ⟨base, _, literal, ?_⟩
    simp only [List.take_succ_cons, List.take_zero, List.tail_cons, List.cons_append,
      List.nil_append, List.length_cons, List.drop_succ_cons, drop_length_takeWhile]
    exact ⟨longest_marked marks _ (stops_dropWhile _ body), literal.reads _⟩
  | none =>
    have literal := Literal.decimal digit (run 10 rest)
    have plain : (head :: rest.takeWhile (isNumeralChar 10)).filter (· != '_') =
        head :: (rest.takeWhile (isNumeralChar 10)).filter (· != '_') := by
      refine List.filter_cons_of_pos (bne_iff_ne.mpr fun same => ?_)
      rw [same] at digit
      exact absurd digit (by decide)
    rw [plain] at literal
    refine ⟨10, _, literal, ?_⟩
    simp only [drop_length_takeWhile]
    refine ⟨longest_decimal (run 10 rest) (stops_dropWhile _ rest) ?_, literal.reads _⟩
    rw [List.takeWhile_append_dropWhile, marked]

/-- The longest literal is the first piece of its text. -/
theorem firstPiece_of_literal {head : Char} {tail rest digits : List Char} {base : Nat}
    {lexeme : Lexeme} (literal : Literal (head :: tail) base digits)
    (longest : Longest (head :: tail) rest) (reads : Literal.Reads base digits rest lexeme) :
    firstPiece head (tail ++ rest) = ⟨head, tail, lexeme⟩ := by
  have digit : head.isDigit := by
    cases literal with
    | decimal digit => exact digit
    | marked => rfl
  have whole := chars_firstPiece_append head (tail ++ rest)
  rw [firstPiece_of_digit digit] at whole ⊢
  obtain ⟨_, _, found, longestToo, readsToo⟩ := exists_literal digit (tail ++ rest)
  obtain ⟨chars, left⟩ := longest.unique literal found longestToo whole.symm
  rw [chars] at found
  obtain ⟨rfl, rfl⟩ := literal.unique found
  rw [left] at readsToo
  obtain ⟨sameHead, sameTail⟩ := List.cons.inj chars
  calc numberPiece head (tail ++ rest)
      = ⟨(numberPiece head (tail ++ rest)).head, (numberPiece head (tail ++ rest)).tail,
          (numberPiece head (tail ++ rest)).lexeme⟩ := rfl
    _ = ⟨head, tail, lexeme⟩ := by rw [sameHead, sameTail, readsToo.unique reads]

/-- A numeral in base ten is read whole. -/
theorem contents_digits {head : Char} {tail rest : List Char}
    (digits : ∀ char ∈ head :: tail, char.isDigit) (ends : Ends rest)
    (small : Numeral.value 10 (head :: tail) < numberLimit) :
    contents (head :: tail ++ rest) =
      some (.number (Numeral.value 10 (head :: tail))) :: contents rest := by
  obtain ⟨first, later⟩ := List.forall_mem_cons.mp digits
  have plain : (head :: tail).filter (· != '_') = head :: tail := by
    refine List.filter_eq_self.mpr fun char member => bne_iff_ne.mpr fun same => ?_
    have digit := digits char member
    rw [same] at digit
    exact absurd digit (by decide)
  have literal : Literal (head :: tail) 10 (head :: tail) := by
    have written := Literal.decimal first fun char member => by
      rw [isNumeralChar, isDigitOf_ten (later char member), Bool.true_or]
    rwa [plain] at written
  have whole := firstPiece_of_literal literal (longest_of_ends ends _)
    (.number (List.cons_ne_nil head tail) small ends)
  rw [List.cons_append, contents_cons, whole, List.drop_left]
  rfl

/-- What is printed in base ten reads back as the number. -/
theorem contents_render {number : Nat} (small : number < numberLimit) {rest : List Char}
    (ends : Ends rest) :
    contents ((Numeral.render 10 number).toList ++ rest) =
      some (.number number) :: contents rest := by
  rw [Numeral.render, String.toList_ofList]
  have weight : Numeral.value 10 (Nat.toDigits 10 number) = number :=
    Numeral.value_toDigits (by decide) (by decide) number
  have digits : ∀ char ∈ Nat.toDigits 10 number, char.isDigit := fun char member =>
    Nat.isDigit_of_mem_toDigits (by decide) (by decide) member
  cases written : Nat.toDigits 10 number with
  | nil => exact absurd written Nat.toDigits_ne_nil
  | cons head tail =>
    rw [written] at weight digits
    rw [contents_digits digits ends (weight ▸ small), weight]

end RegisterMachine.Source
