import RegisterMachine.Proofs.Source.HexLayout

/-!
The grammar of hexadecimal words.

A text is loaded when each of its words is one, and then nothing is logged. Otherwise the first word
that is none is reported, with its line.
-/

namespace RegisterMachine.Source.HexWords

/-- A base marker, any number of times. -/
def markers (letter : Char) (count : Nat) : List Char := (List.replicate count ['0', letter]).flatten

/-- Markers with a small letter come first, then markers with a capital one, then a plus sign or
none, and then the digits of the word. -/
inductive Denotes (word : Word) : List Char → Prop where
  | number (small capital : Nat) {sign digits : List Char} (signs : sign = [] ∨ sign = ['+'])
      (filled : digits ≠ []) (legal : ∀ digit ∈ digits, Numeral.isDigitOf 16 digit)
      (same : Numeral.value 16 digits = word.val) :
      Denotes word (markers 'x' small ++ (markers 'X' capital ++ (sign ++ digits)))

/-- What loading a text comes to. -/
inductive Loaded (text : List Char) : Loading → Prop where
  | program {program : List Word} {found : List (List Char × Nat)} (scans : Scans 1 text found)
      (words : List.Forall₂ Denotes program (found.map Prod.fst)) : Loaded text ⟨some program, []⟩
  /-- The words before the bad one are good, and those after it are not looked at. -/
  | refused {before after : List (List Char × Nat)} {bad : List Char} {line : Nat}
      (scans : Scans 1 text (before ++ (bad, line) :: after))
      (good : ∀ found ∈ before, ∃ word, Denotes word found.1) (unknown : ∀ word, ¬ Denotes word bad) :
      Loaded text ⟨none, [.complaint (.invalidWord line (String.ofList bad))]⟩

section Markers

variable {letter : Char} {text : List Char}

theorem markers_succ (letter : Char) (count : Nat) :
    markers letter (count + 1) = '0' :: letter :: markers letter count := rfl

/-- Every marker at the front is dropped. -/
theorem dropMarkers_markers (count : Nat) (rest : List Char) :
    dropMarkers letter (markers letter count ++ rest) = dropMarkers letter rest := by
  induction count with
  | zero => rfl
  | succ count ih => rw [markers_succ, List.cons_append, List.cons_append, dropMarkers, if_pos rfl, ih]

/-- Nothing but markers is dropped. -/
theorem exists_markers (letter : Char) (text : List Char) :
    ∃ count, text = markers letter count ++ dropMarkers letter text := by
  fun_induction dropMarkers letter text with
  | case1 rest ih =>
    obtain ⟨count, same⟩ := ih
    refine ⟨count + 1, ?_⟩
    rw [markers_succ, List.cons_append, List.cons_append, ← same]
  | case2 mark rest other => exact ⟨0, rfl⟩
  | case3 digits plain => exact ⟨0, rfl⟩

/-- A sign stops the markers. -/
theorem dropMarkers_sign {sign digits : List Char} (signs : sign = [] ∨ sign = ['+'])
    (other : Numeral.isDigitOf 16 letter = false)
    (legal : ∀ digit ∈ digits, Numeral.isDigitOf 16 digit) :
    dropMarkers letter (sign ++ digits) = sign ++ digits := by
  rcases signs with rfl | rfl
  · exact dropMarkers_digits other legal
  · simp [dropMarkers]

/-- A capital marker stops the small ones. -/
theorem dropMarkers_other {mark : Char} (apart : mark ≠ letter) (count : Nat)
    (stops : dropMarkers letter text = text) :
    dropMarkers letter (markers mark count ++ text) = markers mark count ++ text := by
  cases count with
  | zero => exact stops
  | succ count => rw [markers_succ, List.cons_append, List.cons_append, dropMarkers, if_neg apart]

end Markers

/-- An unsigned number is a run of digits, with a plus sign in front of it or none. -/
theorem unsigned?_eq_some_iff (base limit : Nat) (text : List Char) (number : Fin limit) :
    Numeral.unsigned? base limit text = some number ↔
      ∃ sign digits, (sign = [] ∨ sign = ['+']) ∧ text = sign ++ digits ∧
        Numeral.ofDigits? base limit digits = some number := by
  constructor
  · intro read
    unfold Numeral.unsigned? at read
    split at read
    · rename_i digits
      exact ⟨['+'], digits, .inr rfl, rfl, read⟩
    · exact ⟨[], text, .inl rfl, rfl, read⟩
  · rintro ⟨sign, digits, signs, rfl, read⟩
    rcases signs with rfl | rfl
    · rw [List.nil_append, Numeral.unsigned?]
      · exact read
      · -- A plus sign is no digit.
        rintro rest rfl
        obtain ⟨⟨-, legal⟩, -⟩ := (Numeral.ofDigits?_eq_some_iff _ _ _ _).mp read
        exact absurd legal (by simp [Numeral.isDigitOf])
    · exact read

/-- A word is read when it follows the grammar, as the number of its digits. -/
theorem word?_eq_some_iff (text : List Char) (word : Word) :
    word? text = some word ↔ Denotes word text := by
  have small : Numeral.isDigitOf 16 'x' = false := by decide
  have capital : Numeral.isDigitOf 16 'X' = false := by decide
  rw [word?, unsigned?_eq_some_iff]
  simp only [Numeral.ofDigits?_eq_some_iff, List.all_eq_true]
  constructor
  · rintro ⟨sign, digits, signs, rest, ⟨filled, legal⟩, same⟩
    obtain ⟨few, first⟩ := exists_markers 'x' text
    obtain ⟨many, second⟩ := exists_markers 'X' (dropMarkers 'x' text)
    rw [rest] at second
    rw [first, second]
    exact .number few many signs filled legal same
  · intro denotes
    cases denotes with
    | @number few many sign digits signs filled legal same =>
      have others := dropMarkers_other (show 'X' ≠ 'x' by decide) many
        (dropMarkers_sign signs small legal)
      refine ⟨sign, digits, signs, ?_, ⟨filled, legal⟩, same⟩
      rw [dropMarkers_markers, others, dropMarkers_markers, dropMarkers_sign signs capital legal]

/-- The order of the markers matters. -/
example : (word? "0x0X1".toList).isSome ∧ (word? "0X0x1".toList).isNone := by decide

section Loading

variable {text : List Char} {word : List Char} {line : Nat}

theorem readWord_eq_ok_iff (line : Nat) (text : List Char) (word : Word) :
    readWord line text = .ok word ↔ Denotes word text := by
  rw [readWord, ← word?_eq_some_iff]
  cases word? text <;> simp

theorem readWord_eq_error_iff (line : Nat) (text : List Char) (complaint : Complaint) :
    readWord line text = .error complaint ↔
      (∀ word, ¬ Denotes word text) ∧ complaint = .invalidWord line (String.ofList text) := by
  simp only [readWord, ← word?_eq_some_iff]
  cases word? text <;> simp [eq_comm]

theorem load_eq_ok_iff (text : String) (program : List Word) :
    HexWords.load text = .ok program ↔
      List.Forall₂ Denotes program (wordTexts text.toList) := by
  rw [load_eq_mapM, mapM_eq_ok_iff, ← map_fst_numberedWords 1, List.forall₂_map_right_iff]
  simp only [readWord_eq_ok_iff]

/-- What loading comes to is what the grammar says of the words of the text. -/
theorem load_iff_loaded (text : String) (loading : Loading) :
    Source.load .hexWords text = loading ↔ Loaded text.toList loading := by
  have refused (complaint : Complaint) : HexWords.load text = .error complaint ↔
      ∃ before found after, Scans 1 text.toList (before ++ found :: after) ∧
        (∀ earlier ∈ before, ∃ word, Denotes word earlier.1) ∧
          (∀ word, ¬ Denotes word found.1) ∧
            complaint = .invalidWord found.2 (String.ofList found.1) := by
    rw [load_eq_mapM, mapM_eq_error_iff]
    simp only [readWord_eq_ok_iff, readWord_eq_error_iff, scans_iff]
  constructor
  · rintro rfl
    unfold Source.load
    cases read : HexWords.load text with
    | ok program =>
      have words := (load_eq_ok_iff text program).mp read
      rw [← map_fst_numberedWords 1] at words
      exact .program (scans_iff.mpr rfl) words
    | error complaint =>
      obtain ⟨before, found, after, scans, good, unknown, rfl⟩ := (refused complaint).mp read
      exact .refused scans good unknown
  · intro loaded
    unfold Source.load
    cases loaded with
    | program scans words =>
      rw [← scans.eq, map_fst_numberedWords] at words
      rw [(load_eq_ok_iff text _).mpr words]
    | refused scans good unknown => rw [(refused _).mpr ⟨_, _, _, scans, good, unknown, rfl⟩]

/-- A text is loaded as a program when each of its words is one. -/
theorem program?_eq_some_iff (text : String) (program : List Word) :
    (Source.load .hexWords text).program? = some program ↔
      List.Forall₂ Denotes program (wordTexts text.toList) := by
  rw [← load_eq_ok_iff, Source.load]
  cases HexWords.load text <;> simp

/-- The words of two texts are those of the first and then those of the second. -/
theorem program?_append_newline (first second : String) (program : List Word) :
    (Source.load .hexWords (first ++ "\n" ++ second)).program? = some program ↔
      ∃ before after, (Source.load .hexWords first).program? = some before ∧
        (Source.load .hexWords second).program? = some after ∧ program = before ++ after := by
  have joined : (first ++ "\n" ++ second).toList = first.toList ++ '\n' :: second.toList := by
    simp [String.toList_append]
  simp only [program?_eq_some_iff, joined, wordTexts_append_newline]
  constructor
  · intro words
    refine ⟨_, _, List.forall₂_take_append program _ _ words,
      List.forall₂_drop_append program _ _ words, ?_⟩
    exact (List.take_append_drop _ program).symm
  · rintro ⟨before, after, former, latter, rfl⟩
    exact List.rel_append former latter

/-- A bad word is reported as a warning that names its line. -/
theorem report_invalidWord (line : Nat) (word : String) :
    (Record.complaint (.invalidWord line word)).level = .warn ∧
      (Record.complaint (.invalidWord line word)).message =
        s!"Error {line}:0  Invalid instruction word '{word}'" := by
  -- The column of the place is zero, and its text joins the constant texts around it.
  have column : ":" ++ toString 0 ++ "  " ++ "Invalid instruction word '" =
      ":0  Invalid instruction word '" := by decide
  refine ⟨rfl, ?_⟩
  calc (Record.complaint (.invalidWord line word)).message
    _ = "Error " ++ toString line ++ ":" ++ toString 0 ++ "  " ++
          ("Invalid instruction word '" ++ word ++ "'") := rfl
    _ = "Error " ++ toString line ++
          (":" ++ toString 0 ++ "  " ++ "Invalid instruction word '") ++ word ++ "'" := by
      simp only [String.append_assoc]
    _ = "Error " ++ toString line ++ ":0  Invalid instruction word '" ++ word ++ "'" := by
      rw [column]

end Loading

/-- A text is loaded as the words that it is made of, or its first bad word is reported and nothing
else. Two texts with a line end between them are loaded when both are, one after the other. -/
theorem load_by_word (text second : String) (loading : Loading) (program : List Word)
    (line : Nat) (word : String) :
    (Source.load .hexWords text = loading ↔ Loaded text.toList loading) ∧
      ((Record.complaint (.invalidWord line word)).level = .warn ∧
        (Record.complaint (.invalidWord line word)).message =
          s!"Error {line}:0  Invalid instruction word '{word}'") ∧
      ((Source.load .hexWords (text ++ "\n" ++ second)).program? = some program ↔
        ∃ before after, (Source.load .hexWords text).program? = some before ∧
          (Source.load .hexWords second).program? = some after ∧ program = before ++ after) :=
  ⟨load_iff_loaded text loading, report_invalidWord line word,
    program?_append_newline text second program⟩

end RegisterMachine.Source.HexWords
