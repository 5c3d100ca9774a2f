import RegisterMachine.Proofs.Source.Drafting
import RegisterMachine.Proofs.Source.Operands

/-!
A line of tokens is read as the row that the grammar gives it, and the definitions of the lines are
those of the rows.
-/

namespace RegisterMachine.Source

open Grammar

variable {defined : String → Nat → Prop}

namespace Grammar

/-- Operands are names and numbers only. -/
theorem Encodes.not_mem {opcode : Opcode} {symbols : List Symbol} {number : Nat} {mark : Symbol}
    (notName : ∀ text, mark ≠ .name text) (notNumber : ∀ value, mark ≠ .number value)
    (encodes : Encodes defined opcode symbols number) : mark ∉ symbols := by
  have notKeyword {α : Type} {name : α → String} {symbol : Symbol} {meaning : α}
      (keyword : Keyword name symbol meaning) : mark ≠ symbol := by
    cases keyword
    exact notName _
  have notValue {bound value : Nat} {symbol : Symbol} (reading : Value defined bound symbol value) :
      mark ≠ symbol := by
    cases reading with
    | number => exact notNumber _
    | label => exact notName _
  have notSelector {symbol : Symbol} {value : Nat} (reading : Selector symbol value) :
      mark ≠ symbol := by
    cases reading with
    | number => exact notNumber _
    | format keyword => exact notKeyword keyword
  cases encodes with
  | bare => simp
  | call value => simp [notValue value]
  | push first => simp [notKeyword first]
  | pop first => simp [notKeyword first]
  | move first second => simp [notKeyword first, notKeyword second]
  | addressed _ first second => simp [notKeyword first, notValue second]
  | arithmetic first second third fourth =>
    simp [notKeyword first, notKeyword second, notKeyword third, notKeyword fourth]
  | shift first second third => simp [notKeyword first, notKeyword second, notValue third]
  | output first second => simp [notKeyword first, notSelector second]

/-- No operand is a colon, so a statement is never taken for a label. -/
theorem Encodes.colon_not_mem {opcode : Opcode} {symbols : List Symbol} {number : Nat}
    (encodes : Encodes defined opcode symbols number) : Symbol.colon ∉ symbols :=
  encodes.not_mem (fun _ => Symbol.noConfusion) fun _ => Symbol.noConfusion

/-- A row is on one line. -/
theorem Row.Of.newline_not_mem {symbols : List Symbol} {row : Row}
    (follows : Row.Of defined symbols row) : Symbol.newline ∉ symbols := by
  induction follows with
  | empty => exact List.not_mem_nil
  | @statement written opcode rest word spells encodes =>
    rintro (_ | ⟨_, later⟩)
    have kept : Symbol.newline ∈ rest.filter (· ≠ .comma) :=
      List.mem_filter.mpr ⟨later, by decide⟩
    exact encodes.not_mem (fun _ => Symbol.noConfusion) (fun _ => Symbol.noConfusion) kept
  | label _ ih =>
    rintro (_ | ⟨_, _ | ⟨_, later⟩⟩)
    exact ih later

/-- A label in front of a line is a label in front of its row. -/
theorem Row.of_label_iff (name : String) (rest : List Symbol) (row : Row) :
    Row.Of defined (.name name :: .colon :: rest) row ↔
      ∃ tail, Row.Of defined rest tail ∧ row = ⟨name :: tail.labels, tail.word?⟩ := by
  constructor
  · intro reading
    cases reading with
    | statement spells encodes =>
      have present : Symbol.colon ∈ (Symbol.colon :: rest).filter (· ≠ .comma) := by simp
      exact absurd present encodes.colon_not_mem
    | label tail => exact ⟨_, tail, rfl⟩
  · intro reading
    obtain ⟨tail, following, same⟩ := reading
    rw [same]
    exact .label following

end Grammar

/-- A line reads as a row when it has the labels of the row and a statement for the word of the row. -/
inductive Line.Reads (defined : String → Nat → Prop) : Line → Row → Prop where
  | empty {labels : List Label} :
      Reads defined ⟨[], labels, .empty⟩ ⟨labels.map Label.name, none⟩
  | statement {labels : List Label} {statement : Statement} {word : Word}
      (encodes : Encodes defined statement.opcode (statement.operands.map Token.symbol) word.val) :
      Reads defined ⟨[], labels, .statement statement⟩ ⟨labels.map Label.name, some word⟩

/-- One more label on a line is one more label on its row. -/
theorem Line.reads_label_iff (label : Label) (labels : List Label) (body : Body) (row : Row) :
    Line.Reads defined ⟨[], label :: labels, body⟩ row ↔
      ∃ tail, Line.Reads defined ⟨[], labels, body⟩ tail ∧
        row = ⟨label.name :: tail.labels, tail.word?⟩ := by
  constructor
  · intro reads
    cases reads with
    | empty => exact ⟨_, .empty, rfl⟩
    | statement encodes => exact ⟨_, .statement encodes, rfl⟩
  · intro found
    rcases found with ⟨tail, reads, same⟩
    rw [same]
    cases reads with
    | empty => exact .empty
    | statement encodes => exact .statement encodes

/-- The line of some tokens. -/
def Line.ofTokens (tokens : List Token) : Line :=
  ⟨[], (splitLabels tokens).1, Body.ofTokens (splitLabels tokens).2⟩

theorem Line.ofItems_map_token (tokens : List Token) :
    Line.ofItems (tokens.map .token) = Line.ofTokens tokens := by
  have kept : (tokens.map Item.token).filterMap Item.token? = tokens := by
    rw [List.filterMap_map]
    exact List.filterMap_some
  have clear : (tokens.map Item.token).filterMap Item.misfit? = [] := by
    rw [List.filterMap_map]
    exact List.filterMap_eq_nil_iff.mpr fun _ _ => rfl
  rw [Line.ofItems, kept, clear]
  rfl

theorem map_symbol_filter_comma (operands : List Token) :
    (operands.filter fun token => token.symbol != .comma).map Token.symbol =
      (operands.map Token.symbol).filter (· ≠ .comma) := by
  rw [List.filter_map]
  congr 1
  refine List.filter_congr fun token _ => ?_
  rw [Function.comp_apply, Bool.eq_iff_iff, bne_iff_ne, decide_eq_true_iff]

/-- Without labels a line is empty, or it is a statement that the rules allow. -/
theorem reads_body_iff (tokens : List Token) (row : Row)
    (plain : ∀ name rest, tokens.map Token.symbol ≠ .name name :: .colon :: rest) :
    Row.Of defined (tokens.map Token.symbol) row ↔
      Line.Reads defined ⟨[], [], Body.ofTokens tokens⟩ row := by
  constructor
  · intro reading
    generalize listed : tokens.map Token.symbol = symbols at reading
    cases reading with
    | empty =>
      obtain rfl := List.map_eq_nil_iff.mp listed
      exact .empty
    | statement spells encodes =>
      obtain ⟨head, operands, rfl, named, rfl⟩ := List.map_eq_cons_iff.mp listed
      rw [← map_symbol_filter_comma] at encodes
      rw [Body.ofTokens, named]
      simp only [(ofMnemonic?_toUpper_eq_some_iff _ _).mpr spells]
      exact .statement encodes
    | label => exact absurd listed (plain _ _)
  · intro reads
    generalize parsed : Body.ofTokens tokens = body at reads
    cases reads with
    | empty =>
      unfold Body.ofTokens at parsed
      split at parsed
      · exact .empty
      · split at parsed
        · split at parsed <;> contradiction
        · contradiction
    | @statement _ statement word encodes =>
      unfold Body.ofTokens at parsed
      split at parsed
      · contradiction
      · rename_i head operands
        split at parsed
        · rename_i name named
          split at parsed
          · rename_i opcode found
            obtain rfl := Body.statement.inj parsed
            rw [map_symbol_filter_comma] at encodes
            rw [List.map_cons, named]
            exact .statement ((ofMnemonic?_toUpper_eq_some_iff _ _).mp found) encodes
          · contradiction
        · contradiction

/-- Reading a line is following the rules for lines. -/
theorem row_of_iff_reads (tokens : List Token) (row : Row) :
    Row.Of defined (tokens.map Token.symbol) row ↔ (Line.ofTokens tokens).Reads defined row := by
  induction tokens using splitLabels.induct generalizing row with
  | case1 first second rest name colon named labels tokens split ih =>
    have labelled : splitLabels (first :: second :: rest) =
        (⟨name, first.start⟩ :: (splitLabels rest).1, (splitLabels rest).2) := by
      rw [splitLabels, named, colon]
    rw [List.map_cons, List.map_cons, named, colon, Row.of_label_iff, Line.ofTokens, labelled,
      Line.reads_label_iff]
    exact exists_congr fun tail => and_congr_left' (ih tail)
  | case2 first second rest other =>
    have plain : splitLabels (first :: second :: rest) = ([], first :: second :: rest) := by
      rw [splitLabels]
      split
      · rename_i name named colon
        exact absurd colon (other name named)
      · rfl
    rw [Line.ofTokens, plain]
    apply reads_body_iff
    intro name rest same
    rw [List.map_cons, List.map_cons] at same
    obtain ⟨named, others⟩ := List.cons.inj same
    exact other name named (List.cons.inj others).1
  | case3 tokens short =>
    have plain : splitLabels tokens = ([], tokens) := by
      rw [splitLabels]
      exact short
    rw [Line.ofTokens, plain]
    apply reads_body_iff
    intro name rest same
    obtain ⟨first, others, rfl, -, following⟩ := List.map_eq_cons_iff.mp same
    obtain ⟨second, remaining, rfl, -, -⟩ := List.map_eq_cons_iff.mp following
    exact short first second remaining rfl

section Definitions

variable {line : Line} {row : Row} {lines : List Line} {rows : List Row}

theorem Line.Reads.readable (reads : line.Reads defined row) : line.Readable := by
  cases reads with
  | empty => exact ⟨rfl, fun _ => Body.noConfusion⟩
  | statement => exact ⟨rfl, fun _ => Body.noConfusion⟩

theorem Line.Reads.labels (reads : line.Reads defined row) :
    row.labels = line.labels.map Label.name := by
  cases reads <;> rfl

theorem Line.Reads.length (reads : line.Reads defined row) :
    line.statement?.toList.length = row.word?.toList.length := by
  cases reads <;> rfl

/-- The lines define the names that are labels of their rows. -/
theorem map_fst_definitions (reads : List.Forall₂ (Line.Reads defined) lines rows) (count : Nat) :
    (definitions count lines).map Prod.fst = rows.flatMap Row.labels := by
  induction reads generalizing count with
  | nil => rfl
  | cons first _ ih =>
    rw [definitions, List.map_append, ih, List.flatMap_cons, first.labels, Line.definitions,
      List.map_map]
    rfl

theorem length_words_cons (row : Row) (before : List Row) :
    ((row :: before).filterMap Row.word?).length =
      row.word?.toList.length + (before.filterMap Row.word?).length := by
  rw [List.filterMap_cons]
  cases row.word? with
  | none => exact (Nat.zero_add _).symm
  | some word => exact Nat.add_comm _ _

/-- A label is on the first row, at once, or on a later one, after the word of the first. -/
theorem defines_cons_iff (name : String) (address : Nat) (row : Row) (rows : List Row) :
    Defines (row :: rows) name address ↔
      (name ∈ row.labels ∧ address = 0) ∨
        ∃ later, Defines rows name later ∧ address = row.word?.toList.length + later := by
  constructor
  · intro found
    rcases found with ⟨before, chosen, after, split, member, same⟩
    cases before with
    | nil =>
      obtain ⟨rfl, rfl⟩ := List.cons.inj split
      exact .inl ⟨member, same⟩
    | cons first before =>
      obtain ⟨rfl, rfl⟩ := List.cons.inj split
      refine .inr ⟨_, ⟨before, chosen, after, rfl, member, rfl⟩, ?_⟩
      rw [same, length_words_cons]
  · intro found
    rcases found with ⟨member, same⟩ | ⟨later, ⟨before, chosen, after, split, member, same⟩, sum⟩
    · exact ⟨[], row, rows, rfl, member, same⟩
    · refine ⟨row :: before, chosen, after, by rw [split, List.cons_append], member, ?_⟩
      rw [sum, same, length_words_cons]

/-- The lines define a name where the rules say that it is. -/
theorem mem_definitions_iff (reads : List.Forall₂ (Line.Reads defined) lines rows) (count : Nat)
    (name : String) (address : Nat) :
    (name, address) ∈ definitions count lines ↔
      ∃ later, Defines rows name later ∧ address = count + later := by
  induction reads generalizing count with
  | nil => simp [definitions, Defines]
  | @cons line row lines rows first _ ih =>
    have here : (name, address) ∈ line.definitions count ↔
        name ∈ row.labels ∧ address = count := by
      simp only [Line.definitions, first.labels, List.mem_map, Prod.mk.injEq, ← and_assoc,
        exists_and_right]
      exact and_congr_right' eq_comm
    rw [definitions, List.mem_append, here, ih, first.length]
    simp only [defines_cons_iff]
    constructor
    · intro found
      rcases found with ⟨member, same⟩ | ⟨later, known, same⟩
      · exact ⟨0, .inl ⟨member, rfl⟩, same⟩
      · exact ⟨_, .inr ⟨later, known, rfl⟩, by omega⟩
    · intro found
      rcases found with ⟨_, ⟨member, rfl⟩ | ⟨later, known, rfl⟩, same⟩
      · exact .inl ⟨member, same⟩
      · exact .inr ⟨later, known, by omega⟩

end Definitions

/-- Some lines are rows with some words when each is readable and the statements have the words. -/
theorem exists_rows_iff (lines : List Line) (program : List Word) :
    (∃ rows, List.Forall₂ (Line.Reads defined) lines rows ∧ rows.filterMap Row.word? = program) ↔
      (∀ line ∈ lines, line.Readable) ∧
        List.Forall₂ (fun statement word =>
          Encodes defined statement.opcode (statement.operands.map Token.symbol) word.val)
          (lines.filterMap Line.statement?) program := by
  constructor
  · intro found
    rcases found with ⟨rows, reads, same⟩
    subst same
    induction reads with
    | nil => simp
    | cons first _ ih =>
      refine ⟨List.forall_mem_cons.mpr ⟨first.readable, ih.1⟩, ?_⟩
      cases first with
      | empty => exact ih.2
      | statement encodes => exact .cons encodes ih.2
  · intro both
    rcases both with ⟨readable, encoded⟩
    induction lines generalizing program with
    | nil =>
      obtain rfl := List.forall₂_nil_left_iff.mp encoded
      exact ⟨[], .nil, rfl⟩
    | cons line lines ih =>
      obtain ⟨able, others⟩ := List.forall_mem_cons.mp readable
      obtain ⟨misfits, labels, body⟩ := line
      obtain rfl : misfits = [] := able.no_misfit
      cases body with
      | empty =>
        obtain ⟨rows, reads, same⟩ := ih program others encoded
        exact ⟨_, .cons .empty reads, same⟩
      | statement statement =>
        cases encoded with
        | @cons _ word _ program first rest =>
          obtain ⟨rows, reads, same⟩ := ih program others rest
          exact ⟨_, .cons (.statement first) reads, congrArg (word :: ·) same⟩
      | unreadable complaint => exact absurd rfl (able.no_complaint complaint)

end RegisterMachine.Source
