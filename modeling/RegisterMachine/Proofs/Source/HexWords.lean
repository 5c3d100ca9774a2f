import RegisterMachine.Proofs.Source.Operands
import RegisterMachine.Proofs.Source.Tokens
import RegisterMachine.Source.HexWords
import Mathlib.Data.List.Forall2
import Mathlib.Data.List.TakeWhile

/-!
The words in a text of hexadecimal words, with the lines on which they stand.

The loader cuts a text into lines, each line at its comment, and what is left at its blanks. The
words that it finds are those that a reader finds from left to right: a word ends where a blank, a
comment or the end of the text follows, and a comment ends with its line.
-/

namespace RegisterMachine.Source.HexWords

/-- Neither blank nor the start of a comment. -/
def isWordChar (char : Char) : Bool :=
  !Text.isBlank char && char != ';' && char != '#'

/-- The words from a line on, each with its own line. -/
inductive Scans : Nat → List Char → List (List Char × Nat) → Prop where
  | done {line : Nat} : Scans line [] []
  | newline {line : Nat} {rest : List Char} {found : List (List Char × Nat)}
      (after : Scans (line + 1) rest found) : Scans line ('\n' :: rest) found
  | blank {line : Nat} {char : Char} {rest : List Char} {found : List (List Char × Nat)}
      (blank : Text.isBlank char) (here : char ≠ '\n') (after : Scans line rest found) :
      Scans line (char :: rest) found
  | comment {line : Nat} {mark : Char} {body rest : List Char} {found : List (List Char × Nat)}
      (opens : mark = ';' ∨ mark = '#') (single : '\n' ∉ body) (ends : Stops (· != '\n') rest)
      (after : Scans line rest found) : Scans line (mark :: body ++ rest) found
  | word {line : Nat} {word rest : List Char} {found : List (List Char × Nat)} (filled : word ≠ [])
      (solid : ∀ char ∈ word, isWordChar char) (ends : Stops isWordChar rest)
      (after : Scans line rest found) : Scans line (word ++ rest) ((word, line) :: found)

/-- The words from a line on, as the loader finds them. -/
def numberedWords (start : Nat) (text : List Char) : List (List Char × Nat) :=
  ((text.splitOn '\n').zipIdx start).flatMap fun (line, number) =>
    (split (uncommented line)).map fun word => (word, number)

/-- The texts of the words, line by line. -/
def wordTexts (text : List Char) : List (List Char) :=
  (text.splitOn '\n').flatMap fun line => split (uncommented line)

section Lines

/-- Blanks separate the words of a line. -/
theorem split_append_blank (first second : List Char) {char : Char} (blank : Text.isBlank char) :
    split (first ++ char :: second) = split first ++ split second := by
  unfold split
  rw [List.splitOnP_append_cons first second blank, List.filter_append]

theorem split_blank {char : Char} (blank : Text.isBlank char) (line : List Char) :
    split (char :: line) = split line :=
  split_append_blank [] line blank

theorem split_of_solid {word : List Char} (filled : word ≠ [])
    (solid : ∀ char ∈ word, Text.isBlank char = false) : split word = [word] := by
  unfold split
  rw [List.splitOnP_eq_singleton solid]
  exact List.filter_cons_of_pos (decide_eq_true filled)

theorem uncommented_blank {char : Char} (blank : Text.isBlank char) (line : List Char) :
    uncommented (char :: line) = char :: uncommented line := by
  have apart {mark : Char} (solid : Text.isBlank mark = false) : (char != mark) = true := by
    rw [bne_iff_ne]
    rintro rfl
    exact absurd blank (Bool.eq_false_iff.mp solid)
  apply List.takeWhile_cons_of_pos
  rw [apart (by decide), apart (by decide)]
  rfl

theorem uncommented_mark {mark : Char} (opens : mark = ';' ∨ mark = '#') (line : List Char) :
    uncommented (mark :: line) = [] := by
  apply List.takeWhile_cons_of_neg
  rcases opens with rfl | rfl <;> decide

/-- The first word of a line reaches up to a blank, a comment or the end of the line. -/
theorem split_word {word line : List Char} (filled : word ≠ [])
    (solid : ∀ char ∈ word, isWordChar char) (ends : Stops isWordChar line) :
    split (uncommented (word ++ line)) = word :: split (uncommented line) := by
  have parts (char : Char) (member : char ∈ word) :
      Text.isBlank char = false ∧ (char != ';' && char != '#') = true := by
    simpa [isWordChar, and_assoc] using solid char member
  have kept : uncommented (word ++ line) = word ++ uncommented line :=
    List.takeWhile_append_of_pos fun char member => (parts char member).2
  have alone : split word = [word] := split_of_solid filled fun char member => (parts char member).1
  rw [kept]
  cases line with
  | nil =>
    rw [uncommented, List.takeWhile_nil, List.append_nil, alone]
    rfl
  | cons next line =>
    by_cases blank : Text.isBlank next
    · rw [uncommented_blank blank, split_append_blank _ _ blank, alone, split_blank blank]
      rfl
    · have opens : next = ';' ∨ next = '#' := by
        have stopped := ends next rfl
        rw [isWordChar] at stopped
        simpa [blank, Classical.or_iff_not_imp_left] using stopped
      rw [uncommented_mark opens, List.append_nil, alone]
      rfl

end Lines

section Texts

variable (start : Nat)

/-- A line end leads to the next line. -/
theorem numberedWords_newline (rest : List Char) :
    numberedWords start ('\n' :: rest) = numberedWords (start + 1) rest := by
  have lines : ('\n' :: rest).splitOn '\n' = [] :: rest.splitOn '\n' :=
    List.splitOn_append_cons_self [] rest
  rw [numberedWords, lines, List.zipIdx_cons, List.flatMap_cons]
  rfl

/-- The words of a text are those of its first line and those of the rest. -/
theorem numberedWords_line {line rest : List Char} (single : '\n' ∉ line)
    (ends : Stops (· != '\n') rest) :
    numberedWords start (line ++ rest) =
      (split (uncommented line)).map (fun word => (word, start)) ++ numberedWords start rest := by
  cases rest with
  | nil =>
    rw [List.append_nil, numberedWords, List.splitOn_eq_singleton single]
    rfl
  | cons next rest =>
    obtain rfl : next = '\n' := by simpa using ends next rfl
    rw [numberedWords_newline, numberedWords, List.splitOn_append_cons_self,
      List.splitOn_eq_singleton single, List.singleton_append, List.zipIdx_cons, List.flatMap_cons]
    rfl

/-- Every text starts with a line. -/
theorem exists_line (text : List Char) :
    ∃ line rest, text = line ++ rest ∧ '\n' ∉ line ∧ Stops (· != '\n') rest := by
  refine ⟨text.takeWhile (· != '\n'), text.dropWhile (· != '\n'),
    List.takeWhile_append_dropWhile.symm, ?_, stops_dropWhile _ text⟩
  intro member
  exact absurd (List.mem_takeWhile_imp member) (by decide)

theorem numberedWords_blank {char : Char} (blank : Text.isBlank char) (here : char ≠ '\n')
    (text : List Char) : numberedWords start (char :: text) = numberedWords start text := by
  obtain ⟨line, rest, rfl, single, ends⟩ := exists_line text
  have inside : '\n' ∉ char :: line := List.not_mem_cons_of_ne_of_not_mem here.symm single
  rw [← List.cons_append, numberedWords_line start inside ends, numberedWords_line start single ends,
    uncommented_blank blank, split_blank blank]

theorem numberedWords_comment {mark : Char} {body rest : List Char}
    (opens : mark = ';' ∨ mark = '#') (single : '\n' ∉ body) (ends : Stops (· != '\n') rest) :
    numberedWords start (mark :: body ++ rest) = numberedWords start rest := by
  have inside : '\n' ∉ mark :: body := by
    apply List.not_mem_cons_of_ne_of_not_mem _ single
    rcases opens with rfl | rfl <;> decide
  rw [numberedWords_line start inside ends, uncommented_mark opens]
  rfl

theorem numberedWords_word {word text : List Char} (filled : word ≠ [])
    (solid : ∀ char ∈ word, isWordChar char) (ends : Stops isWordChar text) :
    numberedWords start (word ++ text) = (word, start) :: numberedWords start text := by
  obtain ⟨line, rest, rfl, single, below⟩ := exists_line text
  have inside : '\n' ∉ word ++ line := by
    rw [List.mem_append, not_or]
    exact ⟨fun member => absurd (solid _ member) (by decide), single⟩
  have here : Stops isWordChar line := by
    cases line with
    | nil => exact fun _ member => nomatch member
    | cons next line => exact ends
  rw [← List.append_assoc, numberedWords_line start inside below,
    numberedWords_line start single below, split_word filled solid here, List.map_cons,
    List.cons_append]

end Texts

section Scanning

variable {start : Nat} {text : List Char} {found : List (List Char × Nat)}

/-- The loader finds the words that stand in the text. -/
theorem Scans.eq (scans : Scans start text found) : numberedWords start text = found := by
  induction scans with
  | done => rfl
  | newline after ih => rw [numberedWords_newline, ih]
  | blank blank here after ih => rw [numberedWords_blank _ blank here, ih]
  | comment opens single ends after ih => rw [numberedWords_comment _ opens single ends, ih]
  | word filled solid ends after ih => rw [numberedWords_word _ filled solid ends, ih]

/-- Every text has its words. -/
theorem exists_scans (start : Nat) (text : List Char) : ∃ found, Scans start text found := by
  induction size : text.length using Nat.strongRecOn generalizing start text with
  | ind length ih =>
    subst size
    cases text with
    | nil => exact ⟨[], .done⟩
    | cons char rest =>
      have next (line : Nat) := ih rest.length (Nat.lt_succ_self _) line rest rfl
      by_cases newline : char = '\n'
      · obtain ⟨found, after⟩ := next (start + 1)
        exact ⟨found, newline ▸ .newline after⟩
      by_cases blank : Text.isBlank char
      · obtain ⟨found, after⟩ := next start
        exact ⟨found, .blank blank newline after⟩
      by_cases opens : char = ';' ∨ char = '#'
      · obtain ⟨body, below, rfl, single, ends⟩ := exists_line rest
        have shorter : below.length < (char :: (body ++ below)).length := by
          simp only [List.length_cons, List.length_append]
          omega
        obtain ⟨found, after⟩ := ih _ shorter start below rfl
        exact ⟨found, .comment opens single ends after⟩
      · -- The word goes on as long as its characters allow.
        have solid : isWordChar char = true := by
          have plain := not_or.mp opens
          simp [isWordChar, blank, plain.1, plain.2]
        have cut := List.takeWhile_append_dropWhile (p := isWordChar) (l := rest)
        have shorter : (rest.dropWhile isWordChar).length < (char :: rest).length :=
          Nat.lt_succ_of_le (List.dropWhile_suffix _).length_le
        obtain ⟨found, after⟩ := ih _ shorter start _ rfl
        have inside : ∀ later ∈ char :: rest.takeWhile isWordChar, isWordChar later :=
          List.forall_mem_cons.mpr ⟨solid, fun later => List.mem_takeWhile_imp⟩
        have whole := Scans.word (List.cons_ne_nil char _) inside (stops_dropWhile _ rest) after
        rw [List.cons_append, cut] at whole
        exact ⟨_, whole⟩

/-- The words of a text are found by the loader, and the loader finds nothing else. -/
theorem scans_iff : Scans start text found ↔ numberedWords start text = found := by
  refine ⟨Scans.eq, ?_⟩
  rintro rfl
  obtain ⟨found, scans⟩ := exists_scans start text
  rwa [scans.eq]

theorem map_fst_numberedWords (start : Nat) (text : List Char) :
    (numberedWords start text).map Prod.fst = wordTexts text := by
  unfold numberedWords wordTexts
  induction text.splitOn '\n' generalizing start with
  | nil => rfl
  | cons line lines ih =>
    rw [List.zipIdx_cons, List.flatMap_cons, List.flatMap_cons, List.map_append, ih, List.map_map]
    congr 1
    exact List.map_id _

/-- Line ends separate the words of a text. -/
theorem wordTexts_append_newline (first second : List Char) :
    wordTexts (first ++ '\n' :: second) = wordTexts first ++ wordTexts second := by
  unfold wordTexts
  rw [List.splitOn_append_cons_self, List.flatMap_append]

end Scanning

section Traversal

variable {α β ε : Type} {step : α → Except ε β}

/-- A list is mapped well when each of its elements is. -/
theorem mapM_eq_ok_iff (list : List α) (results : List β) :
    list.mapM step = .ok results ↔
      List.Forall₂ (fun result element => step element = .ok result) results list := by
  induction list generalizing results with
  | nil =>
    rw [List.mapM_nil, List.forall₂_nil_right_iff]
    exact ⟨fun same => (Except.ok.inj same).symm, fun same => congrArg Except.ok same.symm⟩
  | cons element list ih =>
    simp only [List.mapM_cons, bind_eq_ok_iff, ih]
    constructor
    · rintro ⟨result, first, others, following, same⟩
      obtain rfl := Except.ok.inj same
      exact .cons first following
    · intro following
      cases following with
      | cons first following => exact ⟨_, first, _, following, rfl⟩

/-- The first element that fails decides. -/
theorem mapM_eq_error_iff (list : List α) (error : ε) :
    list.mapM step = .error error ↔
      ∃ before bad after, list = before ++ bad :: after ∧
        (∀ element ∈ before, ∃ result, step element = .ok result) ∧ step bad = .error error := by
  induction list with
  | nil =>
    rw [List.mapM_nil]
    constructor
    · intro same
      contradiction
    · rintro ⟨before, bad, after, cut, -⟩
      exact absurd cut.symm (by simp)
  | cons element list ih =>
    have here : (element :: list).mapM step = .error error ↔ step element = .error error ∨
        (∃ result, step element = .ok result) ∧ list.mapM step = .error error := by
      rw [List.mapM_cons]
      cases step element with
      | error other => simp [bind, Except.bind]
      | ok result => cases list.mapM step <;> simp [bind, Except.bind, pure, Except.pure]
    rw [here, ih]
    constructor
    · rintro (failed | ⟨first, before, bad, after, rfl, good, failed⟩)
      · exact ⟨[], element, list, rfl, by simp, failed⟩
      · exact ⟨element :: before, bad, after, rfl, List.forall_mem_cons.mpr ⟨first, good⟩, failed⟩
    · rintro ⟨before, bad, after, cut, good, failed⟩
      cases before with
      | nil =>
        obtain ⟨rfl, rfl⟩ := List.cons.inj cut
        exact .inl failed
      | cons first before =>
        obtain ⟨rfl, rfl⟩ := List.cons.inj cut
        obtain ⟨here, later⟩ := List.forall_mem_cons.mp good
        exact .inr ⟨here, before, bad, after, rfl, later, failed⟩

/-- Lists that are mapped one after the other are mapped as one list. -/
theorem flatten_mapM {γ : Type} {whole : γ → Except ε (List β)} {parts : γ → List α}
    (each : ∀ line, whole line = (parts line).mapM step) (lines : List γ) :
    List.flatten <$> lines.mapM whole = (lines.flatMap parts).mapM step := by
  induction lines with
  | nil => rfl
  | cons line lines ih =>
    rw [List.mapM_cons, List.flatMap_cons, List.mapM_append, ← ih, each]
    cases (parts line).mapM step with
    | error error => rfl
    | ok results => cases lines.mapM whole <;> rfl

end Traversal

/-- Loading reads the words of a text one after the other. -/
theorem load_eq_mapM (text : String) :
    HexWords.load text =
      (numberedWords 1 text.toList).mapM fun found => readWord found.2 found.1 := by
  apply flatten_mapM
  intro numbered
  rw [readLine, List.mapM_map]
  rfl

/-- Two words with a comment that reads like one between them. -/
example : Scans 1 " 7 # 8\n;9\n0x1".toList [(['7'], 1), (['0', 'x', '1'], 3)] := by
  rw [scans_iff]
  decide

end RegisterMachine.Source.HexWords
