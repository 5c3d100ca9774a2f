import RegisterMachine.Proofs.Source.Contents
import RegisterMachine.Proofs.Text.LetterCase

/-!
How the pieces of a text are read: gaps mean nothing, and a name is read whole where no name
character follows it.
-/

namespace RegisterMachine.Source

/-- No character of a name comes next, so a name or a numeral before this text ends there. -/
def Ends (rest : List Char) : Prop := ∀ char ∈ rest.head?, isNameChar char = false

theorem ends_iff (rest : List Char) : Ends rest ↔ rest.head?.any isNameChar = false := by
  rw [Option.any_eq_false]
  exact Iff.rfl

theorem ends_nil : Ends [] := fun _ member => nomatch member

theorem ends_cons {char : Char} (other : isNameChar char = false) (rest : List Char) :
    Ends (char :: rest) := by
  intro first member
  obtain rfl := Option.mem_some.mp member
  exact other

/-- The next character is not one that is kept, so a run of kept characters ends here. -/
def Stops (keep : Char → Bool) (rest : List Char) : Prop := ∀ next ∈ rest.head?, keep next = false

theorem stops_dropWhile (keep : Char → Bool) (chars : List Char) :
    Stops keep (chars.dropWhile keep) := by
  intro next first
  have stopped := List.head?_dropWhile_not keep chars
  rw [Option.mem_def.mp first] at stopped
  exact stopped

/-- A run of kept characters is as long as it looks where it stops. -/
theorem takeWhile_of_stops {keep : Char → Bool} {chars rest : List Char}
    (kept : ∀ char ∈ chars, keep char) (stops : Stops keep rest) :
    (chars ++ rest).takeWhile keep = chars := by
  rw [List.takeWhile_append_of_pos kept]
  have nothing : rest.takeWhile keep = [] := by
    cases rest with
    | nil => rfl
    | cons next rest => exact List.takeWhile_cons_of_neg (Bool.eq_false_iff.mp (stops next rfl))
  rw [nothing, List.append_nil]

theorem drop_length_takeWhile (keep : Char → Bool) (chars : List Char) :
    chars.drop (chars.takeWhile keep).length = chars.dropWhile keep := by
  have split : chars.takeWhile keep ++ chars.dropWhile keep = chars :=
    List.takeWhile_append_dropWhile
  calc chars.drop (chars.takeWhile keep).length
      = (chars.takeWhile keep ++ chars.dropWhile keep).drop (chars.takeWhile keep).length := by
        rw [split]
    _ = chars.dropWhile keep := List.drop_left

theorem contents_nil : contents [] = [] := by
  rw [contents, pieces]
  rfl

theorem contents_cons (head : Char) (rest : List Char) :
    contents (head :: rest) =
      (firstPiece head rest).lexeme.contents ++
        contents (rest.drop (firstPiece head rest).tail.length) := by
  rw [contents, pieces]
  rfl

theorem firstPiece_of_gap {head : Char} (gap : isGap head) (rest : List Char) :
    firstPiece head rest = ⟨head, rest.takeWhile isGap, .blank⟩ := by
  have parts : head ≠ '\n' ∧ Text.isBlank head := by simpa [isGap] using gap
  simp only [firstPiece, parts.1, parts.2, if_true, if_false]

theorem contents_dropWhile_gap (rest : List Char) :
    contents (rest.dropWhile isGap) = contents rest := by
  cases rest with
  | nil => rfl
  | cons head rest =>
    by_cases gap : isGap head
    · rw [List.dropWhile_cons_of_pos gap, contents_cons, firstPiece_of_gap gap,
        drop_length_takeWhile]
      rfl
    · rw [List.dropWhile_cons_of_neg gap]

/-- A gap holds nothing. -/
theorem contents_gap {gap : Char} (blank : isGap gap) (rest : List Char) :
    contents (gap :: rest) = contents rest := by
  rw [← contents_dropWhile_gap, List.dropWhile_cons_of_pos blank, contents_dropWhile_gap]

/-- Printable ASCII characters are not blank. -/
theorem isBlank_of_printable {char : Char} (least : 33 ≤ char.toNat) (most : char.toNat ≤ 126) :
    Text.isBlank char = false := by
  simp only [Text.isBlank, Text.blankRanges, List.any_cons, List.any_nil, Bool.or_false,
    Bool.or_eq_false_iff, decide_eq_false_iff_not]
  omega

/-- A character that opens a name or a number opens nothing else. -/
structure Opens (char : Char) : Prop where
  not_newline : char ≠ '\n'
  not_blank : Text.isBlank char = false
  not_comment : ¬ (char = ';' ∨ char = '#')
  not_colon : char ≠ ':'
  not_comma : char ≠ ','

/-- A printable character opens a name or a number unless it is punctuation. -/
theorem opens_of_printable {char : Char} (least : 33 ≤ char.toNat) (most : char.toNat ≤ 126)
    (plain : char ∉ [';', '#', ':', ',']) : Opens char where
  not_newline := by
    intro same
    rw [same] at least
    exact absurd least (by decide)
  not_blank := isBlank_of_printable least most
  not_comment := by
    intro mark
    rcases mark with same | same
    · exact plain (by rw [same]; decide)
    · exact plain (by rw [same]; decide)
  not_colon same := plain (by rw [same]; decide)
  not_comma same := plain (by rw [same]; decide)

/-- Neither a digit nor the start of a name is punctuation. -/
theorem not_mem_of_kind {kind : Char → Bool} {char : Char} {marks : List Char}
    (other : marks.all fun mark => !kind mark) (kept : kind char) : char ∉ marks := by
  intro member
  have excluded := List.all_eq_true.mp other char member
  rw [kept] at excluded
  exact absurd excluded (by decide)

theorem opens_of_digit {char : Char} (digit : char.isDigit) : Opens char := by
  have range := Char.isDigit_iff_toNat.mp digit
  simp only [Char.reduceToNat] at range
  apply opens_of_printable
  · omega
  · omega
  · exact not_mem_of_kind (by decide) digit

/-- Names start with a letter, an underscore or a dot. -/
theorem range_of_nameStart {char : Char} (start : isNameStart char) :
    ((65 ≤ char.toNat ∧ char.toNat ≤ 90) ∨ (97 ≤ char.toNat ∧ char.toNat ≤ 122)) ∨
      char.toNat = 95 ∨ char.toNat = 46 := by
  have letter : char.isAlpha = (char.isUpper || char.isLower) := rfl
  simp only [isNameStart, letter, Bool.or_eq_true, Text.isUpper_iff, Text.isLower_iff,
    beq_iff_eq] at start
  rcases start with ((upper | lower) | rfl) | rfl
  · exact .inl (.inl upper)
  · exact .inl (.inr lower)
  · exact .inr (.inl rfl)
  · exact .inr (.inr rfl)

theorem opens_of_nameStart {char : Char} (start : isNameStart char) : Opens char := by
  have range := range_of_nameStart start
  apply opens_of_printable
  · omega
  · omega
  · exact not_mem_of_kind (by decide) start

theorem isDigit_of_nameStart {char : Char} (start : isNameStart char) : char.isDigit = false := by
  have range := range_of_nameStart start
  rw [Bool.eq_false_iff]
  intro digit
  have small := Char.isDigit_iff_toNat.mp digit
  simp only [Char.reduceToNat] at small
  omega

theorem firstPiece_of_digit {head : Char} (digit : head.isDigit) (rest : List Char) :
    firstPiece head rest = numberPiece head rest := by
  have opens := opens_of_digit digit
  simp only [firstPiece, opens.not_newline, opens.not_blank, opens.not_comment, opens.not_colon,
    opens.not_comma, digit, if_true, if_false, Bool.false_eq_true]

theorem firstPiece_of_nameStart {head : Char} (start : isNameStart head) (rest : List Char) :
    firstPiece head rest = ⟨head, rest.takeWhile isNameChar,
      .symbol (.name (String.ofList (head :: rest.takeWhile isNameChar)))⟩ := by
  have opens := opens_of_nameStart start
  simp only [firstPiece, opens.not_newline, opens.not_blank, opens.not_comment, opens.not_colon,
    opens.not_comma, isDigit_of_nameStart start, start, if_true, if_false, Bool.false_eq_true]

/-- A character that opens nothing. -/
structure Stray (char : Char) : Prop extends Opens char where
  not_digit : char.isDigit = false
  not_start : isNameStart char = false

theorem firstPiece_of_stray {head : Char} (stray : Stray head) (rest : List Char) :
    firstPiece head rest = ⟨head, [], .misfit (String.singleton head) false⟩ := by
  simp only [firstPiece, stray.not_newline, stray.not_blank, stray.not_comment, stray.not_colon,
    stray.not_comma, stray.not_digit, stray.not_start, if_false, Bool.false_eq_true]

/-- The characters of a name. -/
def isName : List Char → Bool
  | [] => false
  | head :: tail => isNameStart head && tail.all isNameChar

theorem isName_takeWhile {head : Char} (start : isNameStart head) (rest : List Char) :
    isName (head :: rest.takeWhile isNameChar) := by
  simp only [isName, start, List.all_takeWhile, Bool.and_self]

/-- The later characters of a name may be digits, and the first one may not. -/
theorem isNameChar_of_isName {name : List Char} (valid : isName name) :
    ∀ char ∈ name, isNameChar char := by
  cases name with
  | nil => contradiction
  | cons head tail =>
    simp only [isName, Bool.and_eq_true, List.all_eq_true] at valid
    refine List.forall_mem_cons.mpr ⟨?_, valid.2⟩
    rw [isNameChar, valid.1, Bool.or_true]

/-- A name is one piece. -/
theorem firstPiece_of_name {head : Char} {tail rest : List Char} (valid : isName (head :: tail))
    (ends : Ends rest) :
    firstPiece head (tail ++ rest) =
      ⟨head, tail, .symbol (.name (String.ofList (head :: tail)))⟩ := by
  simp only [isName, Bool.and_eq_true, List.all_eq_true] at valid
  obtain ⟨start, inner⟩ := valid
  rw [firstPiece_of_nameStart start, takeWhile_of_stops inner ends]

/-- A name is read whole. -/
theorem contents_name {name rest : List Char} (valid : isName name) (ends : Ends rest) :
    contents (name ++ rest) = some (.name (String.ofList name)) :: contents rest := by
  cases name with
  | nil => contradiction
  | cons head tail =>
    rw [List.cons_append, contents_cons, firstPiece_of_name valid ends, List.drop_left]
    rfl

end RegisterMachine.Source
