import RegisterMachine.Proofs.Source.Unlabelled

/-!
What an assembly reports.

A text is refused with a warning and never without one. A program is announced once, with its number
of instructions and its number of labels, and nothing else is said about it. The warnings of the
first pass come before those of the second, which has one for each statement without a word.
-/

namespace RegisterMachine.Source

open Grammar

/-- The draft that the first pass makes of some lines. -/
def draftOf (lines : List Line) : Draft := lines.foldl Draft.add .empty

/-- What the first pass says about some lines. -/
def remarks (lines : List Line) : List Record := (draftOf lines).complaints.toList.map .complaint

/-- The first pass has entered a label with this address. -/
def Located (lines : List Line) (name : String) (address : Nat) : Prop :=
  (draftOf lines).labels.lookup name = some address

/-- What the second pass says about a statement: nothing if the rules give it a word, and otherwise
one warning. -/
inductive Judged (defined : String → Nat → Prop) (statement : Statement) : List Record → Prop where
  | encoded {word : Word} (encodes : Encodes defined statement.opcode
      (statement.operands.map Token.symbol) word.val) : Judged defined statement []
  | refused {warning : Record} (urgent : warning.level = .warn)
      (unencoded : ∀ number, ¬ Encodes defined statement.opcode
        (statement.operands.map Token.symbol) number) : Judged defined statement [warning]

section FirstPass

variable (draft : Draft)

/-- A definition adds to what has been said. -/
theorem Draft.complaints_define (label : Label) :
    draft.complaints.toList <+: (draft.define label).complaints.toList := by
  simp only [Draft.define]
  split
  · exact ⟨_, Array.toList_push.symm⟩
  · split
    · exact List.prefix_rfl
    · exact ⟨_, Array.toList_push.symm⟩

/-- Steps that add to what has been said add to it together. -/
theorem Draft.complaints_foldl {α : Type} {step : Draft → α → Draft}
    (adds : ∀ draft element, draft.complaints.toList <+: (step draft element).complaints.toList)
    (list : List α) : draft.complaints.toList <+: (list.foldl step draft).complaints.toList :=
  List.foldlRecOn (motive := fun later : Draft => draft.complaints.toList <+: later.complaints.toList)
    list step List.prefix_rfl fun before said element _ => said.trans (adds before element)

/-- A line adds to what has been said about the lines before it. -/
theorem Draft.complaints_add (line : Line) :
    draft.complaints.toList <+: (draft.add line).complaints.toList := by
  have scanned : draft.complaints.toList <+: (line.misfits.foldl Draft.scan draft).complaints.toList := by
    rw [Draft.foldl_scan_eq]
    exact ⟨_, Array.toList_appendList.symm⟩
  have defined := scanned.trans (Draft.complaints_foldl _ Draft.complaints_define line.labels)
  unfold Draft.add
  cases line.body with
  | empty => exact defined
  | statement found => exact defined
  | unreadable complaint => exact defined.trans ⟨_, Array.toList_push.symm⟩

/-- What is said about some lines comes before what is said about the lines after them. -/
theorem remarks_isPrefix (before after : List Line) :
    remarks before <+: remarks (before ++ after) := by
  unfold remarks draftOf
  rw [List.foldl_append]
  exact (Draft.complaints_foldl _ Draft.complaints_add after).map _

end FirstPass

section SecondPass

/-- What the second pass says about a statement. -/
def Statement.remarks (statement : Statement) (labels : Labels) : List Record :=
  (complaint? (Instruction.word <$> statement.instruction labels)).toList.map .complaint

theorem Statement.judged (statement : Statement) (labels : Labels) :
    Judged (fun name address => labels.lookup name = some address) statement
      (statement.remarks labels) := by
  unfold Statement.remarks
  cases read : statement.instruction labels with
  | ok instruction =>
    exact .encoded (statement.encodes_of_instruction (fun _ _ => Iff.rfl) read)
  | error complaint =>
    refine .refused rfl fun number encodes => ?_
    obtain ⟨instruction, found, -⟩ := Statement.instruction_of_encodes (fun _ _ => Iff.rfl) encodes
    rw [read] at found
    contradiction

/-- The complaints of the second pass are those about its statements, in order. -/
theorem map_filterMap_words (draft : Draft) :
    (draft.words.filterMap complaint?).map .complaint =
      (draft.statements.toList.map fun statement => statement.remarks draft.labels).flatten := by
  unfold Draft.words
  induction draft.statements.toList with
  | nil => rfl
  | cons statement statements ih =>
    rw [List.map_cons, List.map_cons, List.flatten_cons, ← ih, List.filterMap_cons,
      Statement.remarks]
    cases complaint? (Instruction.word <$> statement.instruction draft.labels) <;> rfl

/-- All statements have words when there is nothing to say about any of them. -/
theorem isSome_mapM_toOption_iff {α : Type} (words : List (Except Complaint α)) :
    (words.mapM Except.toOption).isSome ↔ words.filterMap complaint? = [] := by
  induction words with
  | nil => simp
  | cons word words ih =>
    cases word with
    | error complaint => simp [complaint?, Except.toOption]
    | ok value =>
      have step : ((Except.ok value :: words).mapM Except.toOption).isSome =
          (words.mapM Except.toOption).isSome := by
        rw [List.mapM_cons]
        cases words.mapM Except.toOption <;> rfl
      rw [step, ih, List.filterMap_cons_none rfl]

end SecondPass

section Outcome

variable (assembly : Assembly) (text : String)

/-- A text has a program when neither pass complains about it. -/
theorem program?_isSome_iff : (assemble text).program?.isSome ↔ (assemble text).complaints = [] := by
  have silent := Draft.ofItems_clean_iff (read text.toList).items
  have spoken : (assemble text).complaints =
      (Draft.ofItems (read text.toList).items).complaints.toList ++
        (Draft.ofItems (read text.toList).items).words.filterMap complaint? := rfl
  rw [spoken, List.append_eq_nil_iff, Array.toList_eq_nil_iff, ← silent, ← isSome_mapM_toOption_iff]
  simp only [Option.isSome_iff_exists, program?_eq_some_iff_passes, exists_and_left]

/-- A program is announced, and nothing else is. -/
def Assembly.announcement : List Record :=
  (assembly.program?.map fun program => .assembled program.length assembly.labelCount).toList

theorem level_of_announcement {record : Record} (member : record ∈ assembly.announcement) :
    record.level = .info := by
  rw [Assembly.announcement, Option.mem_toList, Option.map_eq_some_iff] at member
  obtain ⟨program, -, rfl⟩ := member
  rfl

/-- Complaints are warnings, and nothing else is. -/
theorem warns_iff :
    (∃ record ∈ assembly.records, record.level = .warn) ↔ assembly.complaints ≠ [] := by
  constructor
  · rintro ⟨record, member, warning⟩ silent
    rw [Assembly.records, silent, List.map_nil, List.nil_append] at member
    have level := level_of_announcement assembly member
    rw [warning] at level
    contradiction
  · intro complaining
    obtain ⟨complaint, member⟩ := List.exists_mem_of_ne_nil _ complaining
    exact ⟨.complaint complaint, List.mem_append_left _ (List.mem_map_of_mem member), rfl⟩

/-- The second pass speaks after the first, and the announcement is last. -/
theorem records_assemble :
    (assemble text).records =
      remarks (linesOf (read text.toList).items) ++
          (((linesOf (read text.toList).items).filterMap Line.statement?).map fun statement =>
            statement.remarks (draftOf (linesOf (read text.toList).items)).labels).flatten ++
        (assemble text).announcement := by
  have statements : (draftOf (linesOf (read text.toList).items)).statements.toList =
      (linesOf (read text.toList).items).filterMap Line.statement? :=
    Draft.statements_ofItems _
  rw [← statements, ← map_filterMap_words]
  exact congrArg (· ++ (assemble text).announcement) List.map_append

theorem records_of_program? {program : List Word}
    (assembled : (assemble text).program? = some program) :
    (assemble text).records = [.assembled program.length (assemble text).labelCount] := by
  have silent := (program?_isSome_iff text).mp (assembled ▸ rfl)
  rw [Assembly.records, silent, assembled]
  rfl

end Outcome

/-- What is reported about a text tells whether it has a program, and why not. -/
structure Reported (text : String) (assembly : Assembly) : Prop where
  refused_iff : assembly.program? = none ↔ ∃ record ∈ assembly.records, record.level = .warn
  unannounced : assembly.program? = none → ∀ record ∈ assembly.records, record.level ≠ .info
  /-- A program is announced with the number of its words and of the labels in front of them. -/
  announced : ∀ program, assembly.program? = some program →
    ∃ (symbols : List Symbol) (rows : List Row) (record : Record),
      contents text.toList = symbols.map some ∧
        List.Forall₂ (Row.Of (Defines rows)) (symbols.splitOn .newline) rows ∧
        rows.filterMap Row.word? = program ∧ assembly.records = [record] ∧ record.level = .info ∧
        record.message =
          s!"Assembled {program.length} instructions ({(rows.flatMap Row.labels).length} labels)"
  /-- The first pass goes over the lines in order. -/
  in_order : ∀ before after, linesOf (read text.toList).items = before ++ after →
    remarks before <+: assembly.records
  /-- The second pass follows it and goes over the statements in order. -/
  passes : ∃ verdicts announcement,
    List.Forall₂ (Judged (Located (linesOf (read text.toList).items)))
        ((linesOf (read text.toList).items).filterMap Line.statement?) verdicts ∧
      assembly.records =
        remarks (linesOf (read text.toList).items) ++ verdicts.flatten ++ announcement ∧
      ∀ record ∈ announcement, record.level = .info

/-- Whatever the text, the assembler warns exactly when it refuses. -/
theorem assembly_reported (text : String) : Reported text (assemble text) where
  refused_iff := by
    rw [warns_iff, Ne, ← program?_isSome_iff, Option.not_isSome_iff_eq_none]
  unannounced := by
    intro refused record member
    rw [Assembly.records, refused, Option.map_none, Option.toList_none, List.append_nil] at member
    obtain ⟨complaint, -, rfl⟩ := List.mem_map.mp member
    exact Level.noConfusion
  announced := by
    intro program assembled
    obtain ⟨symbols, rows, holds, follows, -, words, names⟩ := exists_rows assembled
    have count : (assemble text).labelCount = (rows.flatMap Row.labels).length := by
      rw [labelCount_of_program? assembled, ← names, List.length_map]
    refine ⟨symbols, rows, _, holds, follows, words, records_of_program? text assembled, rfl, ?_⟩
    rw [count]
    rfl
  in_order := by
    intro before after lines
    rw [records_assemble, List.append_assoc, lines]
    exact (remarks_isPrefix before after).trans (List.prefix_append _ _)
  passes := by
    refine ⟨_, _, ?_, records_assemble text, fun _ => level_of_announcement _⟩
    rw [List.forall₂_map_right_iff, List.forall₂_same]
    exact fun statement _ => statement.judged _

end RegisterMachine.Source
