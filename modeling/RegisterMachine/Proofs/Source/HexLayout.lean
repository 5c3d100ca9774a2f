import RegisterMachine.Proofs.Source.HexWords
import RegisterMachine.Proofs.Source.Literals
import RegisterMachine.Source.Loading

/-!
The layouts in which the loader of hexadecimal words reads a program.

A word may be written with any number of leading zeros, in either case, with or without a base
marker. Blanks, line ends and comments stand between the words. Each text of this kind is read as
the words that it was made of.
-/

namespace RegisterMachine.Source.HexWords

/-- A word is written in digits of either case, with at most one base marker before them. -/
inductive Spells (word : Word) : List Char → Prop where
  | plain {digits : List Char} (filled : digits ≠ [])
      (legal : ∀ digit ∈ digits, Numeral.isDigitOf 16 digit)
      (same : Numeral.value 16 digits = word.val) : Spells word digits
  | marked {mark : Char} {digits : List Char} (marks : Marks 16 mark) (filled : digits ≠ [])
      (legal : ∀ digit ∈ digits, Numeral.isDigitOf 16 digit)
      (same : Numeral.value 16 digits = word.val) : Spells word ('0' :: mark :: digits)

/-- The ways to lay out a program: each word ends where a blank, a comment or the end of the text
follows, and each comment ends with its line. -/
inductive Lays : List Word → List Char → Prop where
  | done : Lays [] []
  | blank {program : List Word} {char : Char} {rest : List Char} (blank : Text.isBlank char)
      (after : Lays program rest) : Lays program (char :: rest)
  | comment {program : List Word} {mark : Char} {body rest : List Char}
      (opens : mark = ';' ∨ mark = '#') (single : '\n' ∉ body)
      (ends : Stops (· != '\n') rest) (after : Lays program rest) :
      Lays program (mark :: body ++ rest)
  | word {word : Word} {program : List Word} {slice rest : List Char} (spells : Spells word slice)
      (ends : Stops isWordChar rest) (after : Lays program rest) :
      Lays (word :: program) (slice ++ rest)

section Words

variable {word : Word} {slice digits : List Char}

theorem isWordChar_of_digit {digit : Char} (legal : Numeral.isDigitOf 16 digit) :
    isWordChar digit := by
  simp only [Numeral.isDigitOf, Char.isAlphanum, Bool.and_eq_true, Bool.or_eq_true] at legal
  have opens : Opens digit := by
    rcases legal.1 with letter | numeral
    · apply opens_of_nameStart
      rw [isNameStart, letter]
      rfl
    · exact opens_of_digit numeral
  have plain := not_or.mp opens.not_comment
  simp [isWordChar, opens.not_blank, plain.1, plain.2]

theorem Spells.isWordChar (spells : Spells word slice) : ∀ char ∈ slice, isWordChar char := by
  cases spells with
  | plain filled legal same => exact fun digit member => isWordChar_of_digit (legal digit member)
  | marked marks filled legal same =>
    rw [List.forall_mem_cons, List.forall_mem_cons]
    refine ⟨by decide, ?_, fun digit member => isWordChar_of_digit (legal digit member)⟩
    cases marks <;> decide

theorem Spells.ne_nil (spells : Spells word slice) : slice ≠ [] := by
  cases spells with
  | plain filled => exact filled
  | marked => exact List.cons_ne_nil _ _

/-- Digits have no marker in front of them. -/
theorem dropMarkers_digits {letter : Char} (other : Numeral.isDigitOf 16 letter = false)
    (legal : ∀ digit ∈ digits, Numeral.isDigitOf 16 digit) :
    dropMarkers letter digits = digits := by
  unfold dropMarkers
  split
  · rename_i mark rest
    have digit := legal mark (by simp)
    have apart : mark ≠ letter := by
      rintro rfl
      rw [other] at digit
      contradiction
    rw [if_neg apart]
  · rfl

end Words

section Loading

/-- The words of a layout stand in it, one by one. -/
theorem Lays.scans {program : List Word} {text : List Char} (lays : Lays program text)
    (start : Nat) :
    ∃ found, Scans start text found ∧
      List.Forall₂ (fun word element => Spells word element.1) program found := by
  induction lays generalizing start with
  | done => exact ⟨[], .done, .nil⟩
  | @blank program char rest blank after ih =>
    by_cases newline : char = '\n'
    · obtain ⟨found, scans, spelled⟩ := ih (start + 1)
      exact ⟨found, newline ▸ .newline scans, spelled⟩
    · obtain ⟨found, scans, spelled⟩ := ih start
      exact ⟨found, .blank blank newline scans, spelled⟩
  | comment opens single ends after ih =>
    obtain ⟨found, scans, spelled⟩ := ih start
    exact ⟨found, .comment opens single ends scans, spelled⟩
  | word spells ends after ih =>
    obtain ⟨found, scans, spelled⟩ := ih start
    exact ⟨_, .word spells.ne_nil spells.isWordChar ends scans, .cons spells spelled⟩

end Loading

end RegisterMachine.Source.HexWords
