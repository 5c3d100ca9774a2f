import RegisterMachine.Proofs.Source.Contents
import RegisterMachine.Proofs.Source.Rows

/-!
The assembler accepts what the grammar derives, and nothing else.

A clean first pass leaves a table that agrees with the definitions of the rows, and then the second
pass gives each statement the word that the rules give it.
-/

namespace RegisterMachine.Source

open Grammar

/-- Cutting a list cuts its images in the same places. -/
theorem splitOnP_map {α β : Type} (image : α → β) (stop : β → Bool) (list : List α) :
    (list.map image).splitOnP stop =
      (list.splitOnP fun element => stop (image element)).map (List.map image) := by
  induction list with
  | nil => rfl
  | cons head list ih =>
    rw [List.map_cons, List.splitOnP_cons_eq_if_modifyHead,
      List.splitOnP_cons_eq_if_modifyHead, ih]
    split
    · rfl
    · have filled := List.splitOnP_ne_nil (fun element => stop (image element)) list
      cases cut : list.splitOnP fun element => stop (image element) with
      | nil => exact absurd cut filled
      | cons first others => rfl

/-- The lines of a program, each with its labels and its statement. -/
def linesOf (items : List Item) : List Line := (Item.lines items).map Line.ofItems

/-- Reading the lines of some tokens is following the rules for their symbols. -/
theorem forall₂_row_of_iff {defined : String → Nat → Prop} (tokens : List Token)
    (rows : List Row) :
    List.Forall₂ (Row.Of defined) ((tokens.map Token.symbol).splitOn .newline) rows ↔
      List.Forall₂ (Line.Reads defined) (linesOf (tokens.map .token)) rows := by
  rw [linesOf, Item.lines, List.splitOn_eq_splitOnP, splitOnP_map, splitOnP_map, List.map_map,
    List.forall₂_map_left_iff, List.forall₂_map_left_iff]
  simp only [Function.comp_apply, row_of_iff_reads, Line.ofItems_map_token, Item.isNewline]

/-- The misfits of a text are those of its lines, since a newline is a token. -/
theorem filterMap_misfit?_lines (items : List Item) :
    (Item.lines items).flatMap (List.filterMap Item.misfit?) = items.filterMap Item.misfit? := by
  unfold Item.lines
  induction items with
  | nil => rfl
  | cons item items ih =>
    rw [List.splitOnP_cons_eq_if_modifyHead, List.filterMap_cons, ← ih]
    split
    · rename_i newline
      cases item with
      | token => rfl
      | misfit => exact absurd newline Bool.false_ne_true
    · have filled := List.splitOnP_ne_nil Item.isNewline items
      cases cut : items.splitOnP Item.isNewline with
      | nil => exact absurd cut filled
      | cons first others =>
        rw [List.modifyHead_cons, List.flatMap_cons, List.flatMap_cons, List.filterMap_cons]
        cases item <;> rfl

/-- Items are tokens when none of their lines has a misfit. -/
theorem exists_tokens {items : List Item} (readable : ∀ line ∈ linesOf items, line.Readable) :
    ∃ tokens : List Token, items = tokens.map .token := by
  have clear : items.filterMap Item.misfit? = [] := by
    rw [← filterMap_misfit?_lines, List.flatMap_eq_nil_iff]
    intro line member
    exact (readable _ (List.mem_map_of_mem member)).no_misfit
  clear readable
  induction items with
  | nil => exact ⟨[], rfl⟩
  | cons item items ih =>
    cases item with
    | token token =>
      obtain ⟨tokens, rfl⟩ := ih clear
      exact ⟨token :: tokens, rfl⟩
    | misfit misfit => exact absurd clear (List.cons_ne_nil _ _)

/-- A list is mapped to a list when each of its elements is mapped to the one in its place. -/
theorem mapM_eq_some_iff_forall₂ {α β : Type} (step : α → Option β) (list : List α)
    (results : List β) :
    list.mapM step = some results ↔
      List.Forall₂ (fun element result => step element = some result) list results := by
  induction list generalizing results with
  | nil => simp [eq_comm]
  | cons element list ih =>
    simp only [List.mapM_cons, Option.bind_eq_bind, Option.bind_eq_some_iff, ih]
    constructor
    · intro found
      obtain ⟨result, first, others, following, same⟩ := found
      obtain rfl := Option.some.inj same
      exact .cons first following
    · intro following
      cases following with
      | cons first following => exact ⟨_, first, _, following, rfl⟩

/-- All steps succeed when none of their results is missing. -/
theorem mapM_eq_some_iff_filterMap {α β : Type} (step : α → Option β) (list : List α)
    (results : List β) :
    list.mapM step = some results ↔
      list.filterMap step = results ∧ results.length = list.length := by
  induction list generalizing results with
  | nil => simp [eq_comm]
  | cons element list ih =>
    cases first : step element with
    | none =>
      have fewer := List.length_filterMap_le step list
      refine iff_of_false (by simp [first]) ?_
      rintro ⟨rfl, complete⟩
      rw [List.filterMap_cons_none first, List.length_cons] at complete
      omega
    | some result =>
      simp only [List.mapM_cons, first, List.filterMap_cons_some first, Option.bind_eq_bind,
        Option.bind_some, Option.bind_eq_some_iff, ih]
      constructor
      · rintro ⟨others, ⟨rfl, complete⟩, same⟩
        obtain rfl := Option.some.inj same
        exact ⟨rfl, congrArg (· + 1) complete⟩
      · rintro ⟨rfl, complete⟩
        exact ⟨_, ⟨rfl, Nat.succ.inj complete⟩, rfl⟩

namespace Draft

theorem ofItems_tells (items : List Item) :
    (ofItems items).Tells (definitions 0 (linesOf items))
      (∀ line ∈ linesOf items, line.Readable) := by
  have told := empty_tells.foldl_add (linesOf items)
  rwa [true_and] at told

theorem statements_ofItems (items : List Item) :
    (ofItems items).statements.toList = (linesOf items).filterMap Line.statement? :=
  statements_foldl_add (linesOf items) empty

/-- The second pass succeeds when every statement has the word that the rules give it. -/
theorem words_eq_some_iff {defined : String → Nat → Prop} {draft : Draft}
    (agrees : ∀ name address, draft.labels.lookup name = some address ↔ defined name address)
    (program : List Word) :
    draft.words.mapM Except.toOption = some program ↔
      List.Forall₂ (fun statement word =>
        Encodes defined statement.opcode (statement.operands.map Token.symbol) word.val)
        draft.statements.toList program := by
  have one (statement : Statement) (word : Word) :
      (Instruction.word <$> statement.instruction draft.labels).toOption = some word ↔
        Encodes defined statement.opcode (statement.operands.map Token.symbol) word.val := by
    constructor
    · intro read
      cases found : statement.instruction draft.labels with
      | error complaint =>
        rw [found] at read
        contradiction
      | ok instruction =>
        rw [found] at read
        have same : instruction.word = word := Option.some.inj read
        rw [← same]
        exact statement.encodes_of_instruction agrees found
    · intro encodes
      obtain ⟨instruction, found, same⟩ := Statement.instruction_of_encodes agrees encodes
      rw [found]
      exact congrArg some (Fin.ext same)
  rw [words, mapM_eq_some_iff_forall₂, List.forall₂_map_left_iff]
  simp only [one]

/-- After a clean pass the table has the definitions of the lines. -/
theorem lookup_of_clean {items : List Item} (clean : (ofItems items).Clean) (name : String)
    (address : Nat) :
    (ofItems items).labels.lookup name = some address ↔
      (name, address) ∈ definitions 0 (linesOf items) := by
  have tells := ofItems_tells items
  rw [lookup_eq_some_iff_mem tells.distinct, tells.table clean, List.mem_reverse]

/-- The two passes over some tokens are the rules for their symbols. -/
theorem derives_iff (tokens : List Token) (program : List Word) :
    Derives (tokens.map Token.symbol) program ↔
      (ofItems (tokens.map .token)).Clean ∧
        (ofItems (tokens.map .token)).words.mapM Except.toOption = some program := by
  have tells := ofItems_tells (tokens.map .token)
  have agreement {defined : String → Nat → Prop} {rows : List Row}
      (reads : List.Forall₂ (Line.Reads defined) (linesOf (tokens.map .token)) rows)
      (name : String) (address : Nat) :
      (name, address) ∈ definitions 0 (linesOf (tokens.map .token)) ↔
        Defines rows name address := by
    simp [mem_definitions_iff reads]
  constructor
  · intro derives
    rcases derives with ⟨rows, follows, once, near, same⟩
    rw [forall₂_row_of_iff] at follows
    obtain ⟨readable, encoded⟩ := (exists_rows_iff _ program).mp ⟨rows, follows, same⟩
    have clean : (ofItems (tokens.map .token)).Clean := by
      rw [tells.clean_iff, map_fst_definitions follows]
      refine ⟨readable, once, ?_⟩
      intro entry member
      have defines := (agreement follows entry.1 entry.2).mp member
      have limit := near _ _ defines
      omega
    have agrees (name : String) (address : Nat) :
        (ofItems (tokens.map .token)).labels.lookup name = some address ↔
          Defines rows name address := by
      rw [lookup_of_clean clean, agreement follows]
    rw [words_eq_some_iff agrees, statements_ofItems]
    exact ⟨clean, encoded⟩
  · intro both
    rcases both with ⟨clean, assembled⟩
    obtain ⟨readable, once, near⟩ := tells.clean_iff.mp clean
    rw [words_eq_some_iff (lookup_of_clean clean), statements_ofItems] at assembled
    obtain ⟨rows, reads, same⟩ := (exists_rows_iff _ program).mpr ⟨readable, assembled⟩
    have defined := agreement reads
    have rules : (fun name address =>
        (name, address) ∈ definitions 0 (linesOf (tokens.map .token))) = Defines rows := by
      funext name address
      exact propext (defined name address)
    rw [map_fst_definitions reads] at once
    rw [rules] at reads
    refine ⟨rows, (forall₂_row_of_iff tokens rows).mpr reads, once, ?_, same⟩
    intro name address defines
    have small : address < 1024 := near (name, address) ((defined name address).mpr defines)
    omega

/-- The two passes go well over tokens whose symbols follow the rules. -/
theorem passes_iff (items : List Item) (program : List Word) :
    (ofItems items).Clean ∧ (ofItems items).words.mapM Except.toOption = some program ↔
      ∃ tokens : List Token, items = tokens.map .token ∧
        Derives (tokens.map Token.symbol) program := by
  constructor
  · intro both
    have readable := ((ofItems_tells items).clean_iff.mp both.1).1
    obtain ⟨tokens, rfl⟩ := exists_tokens readable
    exact ⟨tokens, rfl, (derives_iff tokens program).mpr both⟩
  · intro found
    obtain ⟨tokens, rfl, derives⟩ := found
    exact (derives_iff tokens program).mp derives

end Draft

theorem program?_eq_some_iff_passes (text : String) (program : List Word) :
    (assemble text).program? = some program ↔
      (Draft.ofItems (read text.toList).items).Clean ∧
        (Draft.ofItems (read text.toList).items).words.mapM Except.toOption = some program := by
  have count : (Draft.ofItems (read text.toList).items).statements.size =
      (Draft.ofItems (read text.toList).items).words.length := by
    rw [Draft.words, List.length_map, Array.length_toList]
  rw [mapM_eq_some_iff_filterMap, ← count]
  simp only [assemble, Draft.Clean]
  constructor
  · intro found
    split at found
    · contradiction
    · rename_i passed
      obtain rfl := Option.some.inj found
      simpa using passed
  · rintro ⟨clean, rfl, complete⟩
    simp [clean, complete]

/-- The assembler accepts the texts that have no misfit and follow the rules of the grammar, and its
words are those that the rules give. -/
theorem program?_eq_some_iff_derives (text : String) (program : List Word) :
    (assemble text).program? = some program ↔
      ∃ tokens : List Token, (read text.toList).items = tokens.map .token ∧
        Derives (tokens.map Token.symbol) program := by
  rw [program?_eq_some_iff_passes, Draft.passes_iff]

theorem exists_tokens_iff (items : List Item) (symbols : List Symbol) :
    (∃ tokens : List Token, items = tokens.map .token ∧ tokens.map Token.symbol = symbols) ↔
      items.map Item.symbol? = symbols.map some := by
  constructor
  · intro found
    obtain ⟨tokens, rfl, rfl⟩ := found
    rw [List.map_map, List.map_map]
    rfl
  · intro same
    induction items generalizing symbols with
    | nil =>
      obtain rfl := List.map_eq_nil_iff.mp same.symm
      exact ⟨[], rfl, rfl⟩
    | cons item items ih =>
      obtain ⟨symbol, symbols, rfl, first, others⟩ := List.map_eq_cons_iff.mp same.symm
      obtain ⟨tokens, rfl, rfl⟩ := ih symbols others.symm
      cases item with
      | token token =>
        obtain rfl := Option.some.inj first
        exact ⟨token :: tokens, rfl, rfl⟩
      | misfit misfit => contradiction

/-- Only the contents of a text decide which program it has. -/
theorem program?_eq_some_iff_contents (text : String) (program : List Word) :
    (assemble text).program? = some program ↔
      ∃ symbols : List Symbol, contents text.toList = symbols.map some ∧
        Derives symbols program := by
  rw [program?_eq_some_iff_passes, Draft.passes_iff, ← read_symbol?]
  simp only [← exists_tokens_iff]
  constructor
  · intro found
    obtain ⟨tokens, scanned, derives⟩ := found
    exact ⟨_, ⟨tokens, scanned, rfl⟩, derives⟩
  · intro found
    obtain ⟨_, ⟨tokens, scanned, rfl⟩, derives⟩ := found
    exact ⟨tokens, scanned, derives⟩

end RegisterMachine.Source
