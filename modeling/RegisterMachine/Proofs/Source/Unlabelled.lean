import RegisterMachine.Proofs.Source.Disassembly
import RegisterMachine.Proofs.Source.Resolution

/-!
Texts without labels.

Every label of a text can be deleted, and every reference to it can be replaced by the number of
statements before it, and the program stays the same. A label is therefore a name for the index of
the instruction after it.
-/

namespace RegisterMachine.Source

open Grammar

/-- Every label of a text, with the number of statements before it. -/
def labelTable (text : String) : Labels := definitions 0 (linesOf (read text.toList).items)

/-- The text with its labels deleted and the references to them replaced by decimal numbers. -/
def unlabelled (text : String) : String :=
  let lines := text.toList.splitOn '\n'
  String.ofList (['\n'].intercalate (lines.map (resolveLine (labelTable text))))

section Lines

/-- Only a newline is read as one. -/
theorem head_of_newline {head : Char} {rest : List Char}
    (member : some .newline ∈ (firstPiece head rest).lexeme.contents) : head = '\n' := by
  have number {base : Nat} {digits after : List Char} :
      some .newline ∉ (numberLexeme base digits after).contents := by
    unfold numberLexeme
    split
    · simp [Lexeme.contents]
    · split <;> simp [Lexeme.contents]
  cases opening head with
  | newline same => exact same
  | gap gap =>
    rw [firstPiece_of_gap gap] at member
    exact absurd member List.not_mem_nil
  | comment mark =>
    rw [firstPiece_of_comment mark] at member
    exact absurd member List.not_mem_nil
  | colon same =>
    subst same
    have colon : some .newline ∈ [some Symbol.colon] := member
    simp at colon
  | comma same =>
    subst same
    have comma : some .newline ∈ [some Symbol.comma] := member
    simp at comma
  | number digit =>
    rw [firstPiece_of_digit digit] at member
    unfold numberPiece at member
    split at member <;> exact absurd member number
  | name start =>
    rw [firstPiece_of_nameStart start] at member
    simp [Lexeme.contents] at member
  | misfit stray =>
    rw [firstPiece_of_stray stray] at member
    simp [Lexeme.contents] at member

/-- A line has no newline among its symbols. -/
theorem newline_not_mem_contents {line : List Char} (single : '\n' ∉ line) :
    some .newline ∉ contents line := by
  unfold contents
  fun_induction pieces line with
  | case1 => exact List.not_mem_nil
  | case2 head rest piece ih =>
    rw [List.flatMap_cons, List.mem_append]
    have inside : '\n' ∉ rest.drop piece.tail.length := fun member =>
      single (List.mem_cons_of_mem head (List.mem_of_mem_drop member))
    intro found
    rcases found with here | later
    · exact single (head_of_newline here ▸ List.mem_cons_self)
    · exact ih inside later

/-- Newlines cut the contents of a text where they cut the text. -/
theorem splitOn_contents (text : List Char) :
    (contents text).splitOn (some .newline) = (text.splitOn '\n').map contents := by
  by_cases several : '\n' ∈ text
  · obtain ⟨first, second, cut⟩ := List.append_of_mem several
    rw [cut, contents_append_newline, List.splitOn_append_cons_self, List.splitOn_append_cons_self,
      List.map_append, splitOn_contents first, splitOn_contents second]
  · rw [List.splitOn_eq_singleton several,
      List.splitOn_eq_singleton (newline_not_mem_contents several)]
    rfl
termination_by text.length
decreasing_by
  all_goals
    rw [cut, List.length_append, List.length_cons]
    omega

/-- The lines of a text have no newlines. -/
theorem newline_not_mem_lines (text : List Char) : ∀ line ∈ text.splitOn '\n', '\n' ∉ line := by
  by_cases several : '\n' ∈ text
  · obtain ⟨first, second, cut⟩ := List.append_of_mem several
    rw [cut, List.splitOn_append_cons_self, List.forall_mem_append]
    exact ⟨newline_not_mem_lines first, newline_not_mem_lines second⟩
  · rw [List.splitOn_eq_singleton several, List.forall_mem_singleton]
    exact several
termination_by text.length
decreasing_by
  all_goals
    rw [cut, List.length_append, List.length_cons]
    omega

/-- The symbols of a text are those of its lines. -/
theorem lines_hold {text : List Char} {symbols : List Symbol}
    (holds : contents text = symbols.map some) :
    List.Forall₂ (fun line found => contents line = found.map some) (text.splitOn '\n')
      (symbols.splitOn .newline) := by
  have cut : (text.splitOn '\n').map contents =
      (symbols.splitOn .newline).map (List.map some) := by
    rw [← splitOn_contents, holds, List.splitOn_eq_splitOnP, List.splitOn_eq_splitOnP, splitOnP_map]
    rfl
  rw [← List.forall₂_eq_eq_eq, List.forall₂_map_left_iff, List.forall₂_map_right_iff] at cut
  exact cut

/-- Lines in which labels are resolved hold the rows without their labels, whatever is defined. -/
theorem exists_resolved {defined : String → Nat → Prop} {table : Labels}
    (knows : Labels.Knows table defined) (small : Labels.Small table) {lines : List (List Char)}
    {found : List (List Symbol)} {rows : List Row} (single : ∀ line ∈ lines, '\n' ∉ line)
    (hold : List.Forall₂ (fun line found => contents line = found.map some) lines found)
    (follows : List.Forall₂ (Row.Of defined) found rows) :
    ∃ changed : List (List Symbol),
      List.Forall₂ (fun line found => contents line = found.map some)
        (lines.map (resolveLine table)) changed ∧
      ∀ other, List.Forall₂ (Row.Of other) changed (rows.map fun row => ⟨[], row.word?⟩) := by
  induction hold generalizing rows with
  | nil =>
    obtain rfl := List.forall₂_nil_left_iff.mp follows
    exact ⟨[], .nil, fun _ => .nil⟩
  | @cons line symbols lines found first _ ih =>
    obtain ⟨alone, others⟩ := List.forall_mem_cons.mp single
    cases follows with
    | @cons _ row _ rows here later =>
      obtain ⟨changed, holds, bare⟩ := contents_resolveLine knows small alone first here
      obtain ⟨following, hold_others, bare_others⟩ := ih others later
      exact ⟨changed :: following, .cons holds hold_others, fun other =>
        .cons (bare other) (bare_others other)⟩

end Lines

section Table

variable {text : String} {program : List Word}

/-- What the assembler accepts has clean lines, and each label once and near enough. -/
theorem clean_of_program? (assembled : (assemble text).program? = some program) :
    ((labelTable text).map Prod.fst).Nodup ∧ ∀ entry ∈ labelTable text, entry.2 < 1024 := by
  have clean := ((program?_eq_some_iff_passes text program).mp assembled).1
  exact ((Draft.ofItems_tells _).clean_iff.mp clean).2

theorem lookup_labelTable (assembled : (assemble text).program? = some program) (name : String)
    (address : Nat) :
    (labelTable text).lookup name = some address ↔ (name, address) ∈ labelTable text :=
  lookup_eq_some_iff_mem (clean_of_program? assembled).1 name address

theorem labelCount_of_program? (assembled : (assemble text).program? = some program) :
    (assemble text).labelCount = (labelTable text).length := by
  have clean := ((program?_eq_some_iff_passes text program).mp assembled).1
  have table := (Draft.ofItems_tells (read text.toList).items).table clean
  show (Draft.ofItems (read text.toList).items).labels.length = _
  rw [table, List.length_reverse]
  rfl

/-- The program has a word for each statement. -/
theorem length_of_program? (assembled : (assemble text).program? = some program) :
    ((linesOf (read text.toList).items).filterMap Line.statement?).length = program.length := by
  have words := ((program?_eq_some_iff_passes text program).mp assembled).2
  rw [mapM_eq_some_iff_forall₂] at words
  have same := words.length_eq
  rw [Draft.words, List.length_map, Draft.statements_ofItems] at same
  exact same

/-- The labels of a line are defined with the number of statements before the line. -/
theorem mem_definitions_of_split {before after : List Line} {line : Line} {label : Label}
    (member : label ∈ line.labels) (count : Nat) :
    (label.name, count + (before.filterMap Line.statement?).length) ∈
      definitions count (before ++ line :: after) := by
  induction before generalizing count with
  | nil => exact List.mem_append_left _ (List.mem_map.mpr ⟨label, member, rfl⟩)
  | cons first before ih =>
    rw [List.cons_append, definitions]
    apply List.mem_append_right
    have later := ih (count + first.statement?.toList.length)
    rw [Nat.add_assoc] at later
    convert later using 3
    rw [List.filterMap_cons]
    cases first.statement? with
    | none => exact (Nat.zero_add _).symm
    | some statement => exact Nat.add_comm _ _

/-- Lines without labels define nothing. -/
theorem labelTable_eq_nil {symbols : List Symbol} {rows : List Row}
    (holds : contents text.toList = symbols.map some)
    (follows : ∀ defined, List.Forall₂ (Row.Of defined) (symbols.splitOn .newline) rows)
    (bare : ∀ row ∈ rows, row.labels = []) : labelTable text = [] := by
  rw [← read_symbol?, ← exists_tokens_iff] at holds
  obtain ⟨tokens, scanned, rfl⟩ := holds
  have reads := (forall₂_row_of_iff tokens rows).mp (follows fun _ _ => False)
  have names := map_fst_definitions reads 0
  rw [List.flatMap_eq_nil_iff.mpr bare, List.map_eq_nil_iff, ← scanned] at names
  exact names

/-- What the assembler accepts follows the rules, and its table has what is defined. -/
theorem exists_rows (assembled : (assemble text).program? = some program) :
    ∃ (symbols : List Symbol) (rows : List Row), contents text.toList = symbols.map some ∧
      List.Forall₂ (Row.Of (Defines rows)) (symbols.splitOn .newline) rows ∧
        Labels.Knows (labelTable text) (Defines rows) ∧ rows.filterMap Row.word? = program ∧
          (labelTable text).map Prod.fst = rows.flatMap Row.labels := by
  obtain ⟨tokens, scanned, rows, follows, -, -, words⟩ :=
    (program?_eq_some_iff_derives text program).mp assembled
  have reads := (forall₂_row_of_iff tokens rows).mp follows
  refine ⟨tokens.map Token.symbol, rows, ?_, follows, ?_, words, ?_⟩
  · rw [← read_symbol?, scanned, List.map_map, List.map_map]
    rfl
  · intro label address defines
    rw [lookup_labelTable assembled, labelTable, scanned, mem_definitions_iff reads]
    exact ⟨address, defines, (Nat.zero_add address).symm⟩
  · rw [labelTable, scanned]
    exact map_fst_definitions reads 0

/-- The text without labels holds rows without labels, which have the same words whatever is
defined. -/
theorem exists_bare_rows (assembled : (assemble text).program? = some program) :
    ∃ (symbols : List Symbol) (rows : List Row),
      contents (unlabelled text).toList = symbols.map some ∧
        (∀ defined, List.Forall₂ (Row.Of defined) (symbols.splitOn .newline) rows) ∧
          (∀ row ∈ rows, row.labels = []) ∧ rows.filterMap Row.word? = program := by
  obtain ⟨symbols, rows, holds, follows, knows, words, -⟩ := exists_rows assembled
  have small : Labels.Small (labelTable text) := by
    intro label address known
    have member := (lookup_labelTable assembled label address).mp known
    exact Nat.lt_trans ((clean_of_program? assembled).2 _ member) (by decide)
  obtain ⟨changed, hold_changed, bare⟩ :=
    exists_resolved knows small (newline_not_mem_lines _) (lines_hold holds) follows
  have filled : changed ≠ [] := by
    intro empty
    rw [empty, List.forall₂_nil_right_iff, List.map_eq_nil_iff] at hold_changed
    exact List.splitOn_ne_nil _ _ hold_changed
  refine ⟨[Symbol.newline].intercalate changed, rows.map fun row => ⟨[], row.word?⟩, ?_, ?_, ?_, ?_⟩
  · rw [unlabelled, String.toList_ofList]
    exact contents_lines hold_changed
  · intro defined
    rw [splitOn_rows (bare defined) filled]
    exact bare defined
  · intro row member
    obtain ⟨whole, -, rfl⟩ := List.mem_map.mp member
    rfl
  · rw [List.filterMap_map]
    exact words

end Table

/-- The program of a text stays the same when its labels are deleted and every reference to a label
is replaced by the number of statements before the label. That number is below the size of an
address field, and the program has one word for each statement, so a label is the index of the
instruction after it, or the length of the program. -/
theorem unlabelled_assembles {text : String} {program : List Word}
    (assembled : (assemble text).program? = some program) :
    (assemble (unlabelled text)).program? = some program ∧
      (assemble (unlabelled text)).labelCount = 0 ∧
      ((linesOf (read text.toList).items).filterMap Line.statement?).length = program.length ∧
      ∀ before line after label, linesOf (read text.toList).items = before ++ line :: after →
        label ∈ line.labels →
          (labelTable text).lookup label.name = some (before.filterMap Line.statement?).length ∧
            (before.filterMap Line.statement?).length < 1024 := by
  obtain ⟨symbols, rows, holds, follows, bare, words⟩ := exists_bare_rows assembled
  have again : (assemble (unlabelled text)).program? = some program := by
    rw [program?_eq_some_iff_contents, ← words]
    exact ⟨symbols, holds, derives_of_unlabelled follows bare⟩
  refine ⟨again, ?_, length_of_program? assembled, ?_⟩
  · rw [labelCount_of_program? again, labelTable_eq_nil holds follows bare]
    rfl
  · intro before line after label lines member
    have entered : (label.name, 0 + (before.filterMap Line.statement?).length) ∈
        labelTable text := by
      rw [labelTable, lines]
      exact mem_definitions_of_split member 0
    rw [Nat.zero_add] at entered
    exact ⟨(lookup_labelTable assembled _ _).mpr entered,
      (clean_of_program? assembled).2 _ entered⟩

/-- Labels may be spelled like registers and mnemonics, stand on a line of their own or at the end,
and share an instruction. -/
theorem unlabelled_assembles_mixed :
    let text := "A: LDV A, end ; out\nHLT: LDV :\n sub:JLT A A\n CAL sub, # LDV\nend:"
    (assemble text).program? = some [195, 10, 64] ∧
      unlabelled text = " LDV A, 3 ; out\n \n JLT A 0\n CAL 1, # LDV\n" ∧
      (assemble (unlabelled text)).program? = some [195, 10, 64] ∧
      (assemble (unlabelled text)).labelCount = 0 := by
  intro text
  have assembled : (assemble text).program? = some [195, 10, 64] := by decide +kernel
  obtain ⟨again, bare, -, -⟩ := unlabelled_assembles assembled
  exact ⟨assembled, by decide +kernel, again, bare⟩

end RegisterMachine.Source
