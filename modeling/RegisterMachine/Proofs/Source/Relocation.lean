import RegisterMachine.Proofs.Source.Concatenation
import RegisterMachine.Proofs.Source.Unlabelled

/-!
A text below another one, whose labels move with it.

Below a text without labels, every label of a text has the number of statements above it added to
its address. The words of the text stay the same but for the values that were written as labels,
which grow by that number, and the text is refused where one of them does not fit any longer.
-/

namespace RegisterMachine

namespace Word

/-- The value of a shift is in the byte, and any other value is in the address. -/
def value (word : Word) : Nat := if word.opcode? = some .sft then word.byte else word.address

/-- Nothing but the value of a word has grown, by a count. -/
structure Raised (count : Nat) (before after : Word) : Prop where
  opcodeNumber_eq : after.opcodeNumber = before.opcodeNumber
  rdIndex_eq : after.rdIndex = before.rdIndex
  rsIndex_eq : before.opcode? = some .sft → after.rsIndex = before.rsIndex
  value_eq : after.value = before.value + count

variable {opcode : Opcode} {count : Nat}

theorem value_ofAddress (other : opcode ≠ .sft) (rd : Register) (address : Address) :
    (ofAddress opcode rd address).value = address := by
  have different : some opcode ≠ some .sft := fun same => other (Option.some.inj same)
  rw [value, opcode?_ofAddress, if_neg different, address_ofAddress]

theorem value_ofByte (rd rs : Register) (byte : Byte) : (ofByte .sft rd rs byte).value = byte := by
  rw [value, opcode?_ofByte, if_pos rfl, byte_ofByte]

theorem raised_ofAddress (other : opcode ≠ .sft) (rd : Register) {old new : Address}
    (grown : new.val = old.val + count) :
    (ofAddress opcode rd old).Raised count (ofAddress opcode rd new) where
  opcodeNumber_eq := by rw [opcodeNumber_ofAddress, opcodeNumber_ofAddress]
  rdIndex_eq := by rw [rdIndex_ofAddress, rdIndex_ofAddress]
  rsIndex_eq shift := by
    rw [opcode?_ofAddress] at shift
    exact absurd (Option.some.inj shift) other
  value_eq := by
    rw [value_ofAddress other, value_ofAddress other]
    exact grown

theorem raised_ofByte (rd rs : Register) {old new : Byte} (grown : new.val = old.val + count) :
    (ofByte .sft rd rs old).Raised count (ofByte .sft rd rs new) where
  opcodeNumber_eq := by rw [opcodeNumber_ofByte, opcodeNumber_ofByte]
  rdIndex_eq := by rw [rdIndex_ofByte, rdIndex_ofByte]
  rsIndex_eq _ := by rw [rsIndex_ofByte, rsIndex_ofByte]
  value_eq := by
    rw [value_ofByte, value_ofByte]
    exact grown

end Word

namespace Source

open Grammar

/-- The label that is written as a value among the operands of an opcode. -/
def labelAmong? (opcode : Opcode) (operands : List Symbol) : Option String :=
  match opcode.valuePlace?.bind (operands[·]?) with
  | some (.name name) => some name
  | _ => none

/-- The label that a statement has as its value. -/
def Statement.label? (statement : Statement) : Option String :=
  labelAmong? statement.opcode (statement.operands.map Token.symbol)

/-- The statements of a text, in order. -/
def statementsOf (text : String) : List Statement :=
  (linesOf (read text.toList).items).filterMap Line.statement?

/-- The words of statements whose labels have moved: the values that are labels have grown by a
count, and all other words are the same. -/
inductive Moved (count : Nat) : List Statement → List Word → List Word → Prop where
  | nil : Moved count [] [] []
  | fixed {statement : Statement} {statements : List Statement} {word : Word}
      {before after : List Word} (unlabelled : statement.label? = none)
      (rest : Moved count statements before after) :
      Moved count (statement :: statements) (word :: before) (word :: after)
  | raised {statement : Statement} {statements : List Statement} {name : String}
      {old new : Word} {before after : List Word} (labelled : statement.label? = some name)
      (raised : old.Raised count new) (rest : Moved count statements before after) :
      Moved count (statement :: statements) (old :: before) (new :: after)

section Definitions

/-- The same entry with a larger address. -/
def raiseEntry (count : Nat) (entry : String × Nat) : String × Nat := (entry.1, entry.2 + count)

theorem definitions_append (first second : List Line) (count : Nat) :
    definitions count (first ++ second) = definitions count first ++
      definitions (count + (first.filterMap Line.statement?).length) second := by
  induction first generalizing count with
  | nil => rfl
  | cons line first ih =>
    rw [List.cons_append, definitions, ih, definitions, List.append_assoc, List.filterMap_cons]
    cases line.statement? with
    | none => rfl
    | some statement =>
      simp only [Option.toList_some, List.length_cons, List.length_nil]
      rw [Nat.add_assoc, Nat.add_comm (0 + 1)]

theorem definitions_eq_nil {lines : List Line} (unlabelled : ∀ line ∈ lines, line.labels = [])
    (count : Nat) : definitions count lines = [] := by
  induction lines generalizing count with
  | nil => rfl
  | cons line lines ih =>
    rw [List.forall_mem_cons] at unlabelled
    rw [definitions, ih unlabelled.2, Line.definitions, unlabelled.1]
    rfl

theorem definitions_add (lines : List Line) (start count : Nat) :
    definitions (start + count) lines = (definitions start lines).map (raiseEntry count) := by
  induction lines generalizing start with
  | nil => rfl
  | cons line lines ih =>
    rw [definitions, definitions, List.map_append, ← ih, Nat.add_right_comm, Line.definitions,
      Line.definitions, List.map_map]
    rfl

theorem definitions_down (further : Nat) (lines : List Line) (count : Nat) :
    definitions count (lines.map (Line.down further)) = definitions count lines := by
  induction lines generalizing count with
  | nil => rfl
  | cons line lines ih =>
    have length : (line.down further).statement?.toList.length =
        line.statement?.toList.length := by
      rw [Line.statement?_down, Option.toList_map, List.length_map]
    rw [List.map_cons, definitions, definitions, ih, length, Line.definitions, Line.definitions,
      Line.down, List.map_map]
    rfl

theorem Line.Readable.down {line : Line} (readable : line.Readable) (further : Nat) :
    (line.down further).Readable where
  no_misfit := List.map_eq_nil_iff.mpr readable.no_misfit
  no_complaint complaint same := by
    have fine := readable.no_complaint
    unfold Line.down at same
    cases body : line.body with
    | empty =>
      rw [body] at same
      contradiction
    | statement found =>
      rw [body] at same
      contradiction
    | unreadable complaint => exact fine complaint body

end Definitions

/-- A label is in the table with an address. -/
def Labels.Has (table : Labels) (name : String) (address : Nat) : Prop := (name, address) ∈ table

/-- The lines go through both passes, and have the words of a program. -/
structure Assembles (lines : List Line) (program : List Word) : Prop where
  readable : ∀ line ∈ lines, line.Readable
  once : ((definitions 0 lines).map Prod.fst).Nodup
  near : ∀ entry ∈ definitions 0 lines, entry.2 < 1024
  encoded : List.Forall₂ (fun statement word =>
    Encodes (Labels.Has (definitions 0 lines)) statement.opcode
      (statement.operands.map Token.symbol) word.val) (lines.filterMap Line.statement?) program

theorem program?_eq_some_iff_assembles (text : String) (program : List Word) :
    (assemble text).program? = some program ↔
      Assembles (linesOf (read text.toList).items) program := by
  have tells := Draft.ofItems_tells (read text.toList).items
  rw [program?_eq_some_iff_passes]
  constructor
  · rintro ⟨clean, words⟩
    rw [Draft.words_eq_some_iff (Draft.lookup_of_clean clean), Draft.statements_ofItems] at words
    obtain ⟨readable, once, near⟩ := tells.clean_iff.mp clean
    exact ⟨readable, once, near, words⟩
  · rintro ⟨readable, once, near, words⟩
    have clean := tells.clean_iff.mpr ⟨readable, once, near⟩
    rw [Draft.words_eq_some_iff (Draft.lookup_of_clean clean), Draft.statements_ofItems]
    exact ⟨clean, words⟩

/-- Each statement has a word. -/
theorem Assembles.exists_encodes {lines : List Line} {program : List Word}
    (assembles : Assembles lines program) {statement : Statement}
    (member : statement ∈ lines.filterMap Line.statement?) :
    ∃ word : Word, Encodes (Labels.Has (definitions 0 lines)) statement.opcode
      (statement.operands.map Token.symbol) word.val := by
  obtain ⟨index, rfl⟩ := List.get_of_mem member
  have reached : index.val < program.length := assembles.encoded.length_eq ▸ index.isLt
  exact ⟨_, assembles.encoded.get index.isLt reached⟩

section Words

variable {defined other : String → Nat → Prop} {opcode : Opcode} {operands : List Symbol}

theorem Grammar.Value.mono (more : ∀ name address, defined name address → other name address)
    {bound value : Nat} {symbol : Symbol} (reading : Value defined bound symbol value) :
    Value other bound symbol value := by
  cases reading with
  | number small => exact .number small
  | label known small => exact .label (more _ _ known) small

/-- More definitions leave a number as it is. -/
theorem Grammar.Encodes.mono (more : ∀ name address, defined name address → other name address)
    {number : Nat} (encodes : Encodes defined opcode operands number) :
    Encodes other opcode operands number := by
  cases encodes with
  | bare alone => exact .bare alone
  | call value => exact .call (value.mono more)
  | push first => exact .push first
  | pop first => exact .pop first
  | move first second => exact .move first second
  | addressed alike first second => exact .addressed alike first (second.mono more)
  | arithmetic first second third fourth => exact .arithmetic first second third fourth
  | shift first second third => exact .shift first second (third.mono more)
  | output first second => exact .output first second

/-- A label that is written as an amount is below the size of a byte. -/
theorem Grammar.Encodes.amount_lt {number : Nat} {name : String}
    (encodes : Encodes defined .sft operands number)
    (labelled : labelAmong? .sft operands = some name) :
    ∃ address, defined name address ∧ address < 256 := by
  cases encodes with
  | bare alone => simp at alone
  | addressed alike => simp at alike
  | shift first second third =>
    cases third with
    | number => contradiction
    | label known small =>
      obtain rfl := Option.some.inj labelled
      exact ⟨_, known, small⟩

theorem Statement.label?_down (statement : Statement) (further : Nat) :
    (statement.down further).label? = statement.label? := by
  rw [label?, Statement.down, List.map_map]
  rfl

variable {count : Nat} (moves : ∀ name address, defined name address → other name (address + count))

include moves

/-- A statement keeps its word when its labels move, unless its value is a label: then the value
moves as well. -/
theorem Grammar.Encodes.raise
    (near : ∀ name address, defined name address → address + count < 1024)
    (amounts : opcode = .sft → ∀ name, labelAmong? opcode operands = some name →
      ∀ address, defined name address → address + count < 256) {old : Word}
    (encodes : Encodes defined opcode operands old.val) :
    ∃ new : Word, Encodes other opcode operands new.val ∧
      (labelAmong? opcode operands = none ∧ new = old ∨
        ∃ name, labelAmong? opcode operands = some name ∧ old.Raised count new) := by
  generalize held : old.val = number at encodes
  cases encodes with
  | bare alone =>
    refine ⟨old, held ▸ .bare alone, .inl ⟨?_, rfl⟩⟩
    obtain rfl | rfl := alone <;> rfl
  | push first => exact ⟨old, held ▸ .push first, .inl ⟨rfl, rfl⟩⟩
  | pop first => exact ⟨old, held ▸ .pop first, .inl ⟨rfl, rfl⟩⟩
  | move first second => exact ⟨old, held ▸ .move first second, .inl ⟨rfl, rfl⟩⟩
  | arithmetic first second third fourth =>
    exact ⟨old, held ▸ .arithmetic first second third fourth, .inl ⟨rfl, rfl⟩⟩
  | output first second => exact ⟨old, held ▸ .output first second, .inl ⟨rfl, rfl⟩⟩
  | @call _ address value =>
    cases value with
    | number small => exact ⟨old, held ▸ .call (.number small), .inl ⟨rfl, rfl⟩⟩
    | label known small =>
      have fits := near _ _ known
      obtain rfl : old = Word.ofAddress .cal .a ⟨address, small⟩ := Fin.ext held
      exact ⟨Word.ofAddress .cal .a ⟨address + count, fits⟩, .call (.label (moves _ _ known) fits),
        .inr ⟨_, rfl, Word.raised_ofAddress (by decide) .a rfl⟩⟩
  | @addressed _ _ _ rd address alike first second =>
    have wide : opcode ≠ .sft := by
      obtain rfl | rfl | rfl | rfl := alike <;> decide
    cases second with
    | number small =>
      refine ⟨old, held ▸ .addressed alike first (.number small), .inl ⟨?_, rfl⟩⟩
      obtain rfl | rfl | rfl | rfl := alike <;> rfl
    | @label name _ known small =>
      have fits := near _ _ known
      obtain rfl : old = Word.ofAddress opcode rd ⟨address, small⟩ := Fin.ext held
      refine ⟨Word.ofAddress opcode rd ⟨address + count, fits⟩,
        .addressed alike first (.label (moves _ _ known) fits),
        .inr ⟨name, ?_, Word.raised_ofAddress wide rd rfl⟩⟩
      obtain rfl | rfl | rfl | rfl := alike <;> rfl
  | @shift _ _ _ rs direction amount first second third =>
    have register : (if direction = .left then 0 else 1) = direction.register.index := by
      cases direction <;> rfl
    cases third with
    | number small => exact ⟨old, held ▸ .shift first second (.number small), .inl ⟨rfl, rfl⟩⟩
    | label known small =>
      have fits := amounts rfl _ rfl _ known
      rw [register] at held
      obtain rfl : old = Word.ofByte .sft direction.register rs ⟨amount, small⟩ := Fin.ext held
      refine ⟨Word.ofByte .sft direction.register rs ⟨amount + count, fits⟩, ?_,
        .inr ⟨_, rfl, Word.raised_ofByte direction.register rs rfl⟩⟩
      have encodes := Encodes.shift first second (.label (moves _ _ known) fits)
      rwa [register] at encodes

/-- Statements whose labels move have the moved words. -/
theorem exists_moved {statements : List Statement} {below : List Word}
    (near : ∀ name address, defined name address → address + count < 1024)
    (amounts : ∀ statement ∈ statements, statement.opcode = .sft → ∀ name,
      statement.label? = some name → ∀ address, defined name address → address + count < 256)
    (encoded : List.Forall₂ (fun statement word => Encodes defined statement.opcode
      (statement.operands.map Token.symbol) word.val) statements below) :
    ∃ moved, Moved count statements below moved ∧
      List.Forall₂ (fun statement word => Encodes other statement.opcode
        (statement.operands.map Token.symbol) word.val) statements moved := by
  induction encoded with
  | nil => exact ⟨[], .nil, .nil⟩
  | @cons statement word statements below first _ ih =>
    rw [List.forall_mem_cons] at amounts
    obtain ⟨moved, relates, encoded⟩ := ih amounts.2
    obtain ⟨new, encodes, ⟨unlabelled, rfl⟩ | ⟨name, labelled, raised⟩⟩ :=
      first.raise moves near amounts.1
    · exact ⟨_, .fixed unlabelled relates, .cons encodes encoded⟩
    · exact ⟨_, .raised labelled raised relates, .cons encodes encoded⟩

end Words

section Texts

variable {first second : String} {above below program : List Word}

/-- The lines of two texts with a newline between them. -/
theorem linesOf_texts (first second : String) :
    linesOf (read (first ++ "\n" ++ second).toList).items =
      linesOf (read first.toList).items ++
        (linesOf (read second.toList).items).map (Line.down (first.toList.count '\n' + 1)) := by
  rw [String.toList_append, String.toList_append, List.append_assoc]
  exact linesOf_append_newline first.toList second.toList

/-- How the program of two texts, one below the other, comes from the programs of each. -/
structure Relocates (first second : String) (above below : List Word) : Prop where
  /-- A label has to be within reach of an address, and of a byte where it is an amount. -/
  accepted_iff : (assemble (first ++ "\n" ++ second)).program?.isSome ↔
    (∀ entry ∈ labelTable second, entry.2 + above.length ≤ 1023) ∧
      ∀ statement ∈ statementsOf second, statement.opcode = .sft →
        ∀ name, statement.label? = some name →
          ∀ address, (labelTable second).lookup name = some address →
            address + above.length ≤ 255
  program : ∀ program, (assemble (first ++ "\n" ++ second)).program? = some program →
    ∃ moved, program = above ++ moved ∧
      Moved above.length (statementsOf second) below moved

section Below

variable (free : LabelFree first) (assembled : (assemble first).program? = some above)

include free assembled

/-- Below a text without labels, every label is further down by the number of its words. -/
theorem labelTable_texts (second : String) : labelTable (first ++ "\n" ++ second) =
    (labelTable second).map (raiseEntry above.length) := by
  rw [labelTable, linesOf_texts, definitions_append, definitions_eq_nil free.no_labels,
    length_of_program? assembled, definitions_down, definitions_add]
  rfl

theorem has_labelTable_texts {name : String} {address : Nat}
    (known : (labelTable second).Has name address) :
    (labelTable (first ++ "\n" ++ second)).Has name (address + above.length) := by
  rw [Labels.Has, labelTable_texts free assembled]
  exact List.mem_map_of_mem known

/-- Where the labels stay within reach, the words of the second text are moved. -/
theorem exists_relocated (assembledBelow : (assemble second).program? = some below)
    (near : ∀ entry ∈ labelTable second, entry.2 + above.length < 1024)
    (amounts : ∀ statement ∈ statementsOf second, statement.opcode = .sft →
      ∀ name, statement.label? = some name →
        ∀ address, (labelTable second).Has name address → address + above.length < 256) :
    ∃ moved, Moved above.length (statementsOf second) below moved ∧
      (assemble (first ++ "\n" ++ second)).program? = some (above ++ moved) := by
  have table := labelTable_texts free assembled second
  have start := (program?_eq_some_iff_assembles first above).mp assembled
  have rest := (program?_eq_some_iff_assembles second below).mp assembledBelow
  have moves (name : String) (address : Nat) (known : (labelTable second).Has name address) :=
    has_labelTable_texts free assembled known
  obtain ⟨moved, relates, encoded⟩ := exists_moved moves
    (fun name address known => near (name, address) known) amounts rest.encoded
  refine ⟨moved, relates, ?_⟩
  rw [program?_eq_some_iff_assembles]
  constructor
  case readable =>
    rw [linesOf_texts, List.forall_mem_append, List.forall_mem_map]
    exact ⟨start.readable, fun line member => (rest.readable line member).down _⟩
  case once =>
    rw [← labelTable, table, List.map_map]
    exact rest.once
  case near =>
    rw [← labelTable, table, List.forall_mem_map]
    exact near
  case encoded =>
    have nothing (name : String) (address : Nat)
        (known : Labels.Has (definitions 0 (linesOf (read first.toList).items)) name address) :
        (labelTable (first ++ "\n" ++ second)).Has name address := by
      rw [definitions_eq_nil free.no_labels] at known
      contradiction
    rw [← labelTable, linesOf_texts, List.filterMap_append,
      filterMap_map_of_commutes (Line.statement?_down _)]
    refine List.rel_append (start.encoded.imp fun _ _ encodes => encodes.mono nothing) ?_
    rw [List.forall₂_map_left_iff]
    simp only [Statement.down, List.map_map]
    exact encoded

variable (relocated : (assemble (first ++ "\n" ++ second)).program? = some program)

include relocated

/-- In a program of both texts, the labels are near enough. -/
theorem near_of_relocated : ∀ entry ∈ labelTable second, entry.2 + above.length < 1024 := by
  have near := (clean_of_program? relocated).2
  rwa [labelTable_texts free assembled, List.forall_mem_map] at near

/-- In a program of both texts, the labels that are written as amounts are near enough. -/
theorem amounts_of_relocated :
    ∀ statement ∈ statementsOf second, statement.opcode = .sft →
      ∀ name, statement.label? = some name →
        ∀ address, (labelTable second).Has name address → address + above.length < 256 := by
  intro statement member shift name labelled address known
  have below : statement.down (first.toList.count '\n' + 1) ∈
      statementsOf (first ++ "\n" ++ second) := by
    rw [statementsOf, linesOf_texts, List.filterMap_append,
      filterMap_map_of_commutes (Line.statement?_down _)]
    exact List.mem_append_right _ (List.mem_map_of_mem member)
  obtain ⟨word, encodes⟩ :=
    ((program?_eq_some_iff_assembles _ _).mp relocated).exists_encodes below
  rw [show (statement.down _).opcode = .sft from shift] at encodes
  rw [← Statement.label?_down, Statement.label?,
    show (statement.down _).opcode = .sft from shift] at labelled
  obtain ⟨found, defined, small⟩ := encodes.amount_lt labelled
  -- The table has one address for each label.
  have moved := (lookup_labelTable relocated _ _).mpr (has_labelTable_texts free assembled known)
  have same := (lookup_labelTable relocated _ _).mpr defined
  rw [Option.some.inj (moved.symm.trans same)]
  exact small

end Below

/-- Below a text without labels, a text has a program where its labels stay within reach, and then
it has its old words, but for the values that are labels: they have moved. -/
theorem relocation (free : LabelFree first) (assembled : (assemble first).program? = some above)
    (assembledBelow : (assemble second).program? = some below) :
    Relocates first second above below where
  accepted_iff := by
    have known_iff := lookup_labelTable assembledBelow
    constructor
    · intro accepted
      obtain ⟨program, relocated⟩ := Option.isSome_iff_exists.mp accepted
      have near := near_of_relocated free assembled relocated
      have amounts := amounts_of_relocated free assembled relocated
      refine ⟨fun entry member => Nat.le_of_lt_succ (near entry member), ?_⟩
      intro statement member shift name labelled address known
      have member' := (known_iff name address).mp known
      exact Nat.le_of_lt_succ (amounts statement member shift name labelled address member')
    · rintro ⟨near, amounts⟩
      obtain ⟨moved, -, relocated⟩ := exists_relocated free assembled assembledBelow
        (fun entry member => Nat.lt_succ_of_le (near entry member))
        fun statement member shift name labelled address known =>
          Nat.lt_succ_of_le (amounts statement member shift name labelled address
            ((known_iff name address).mpr known))
      rw [relocated]
      rfl
  program := by
    intro program relocated
    obtain ⟨moved, relates, same⟩ := exists_relocated free assembled assembledBelow
      (near_of_relocated free assembled relocated) (amounts_of_relocated free assembled relocated)
    rw [same] at relocated
    exact ⟨moved, (Option.some.inj relocated).symm, relates⟩

/-- An amount, a target and nothing else move by two. -/
theorem relocation_by_two :
    let first := "LDV A, 5\nPSH A"
    let second := "SFT B, LEFT, end\nback: JLT B, back\nLDV C, 1\nend:"
    LabelFree first ∧ Relocates first second [323, 8] [839, 90, 99] ∧
      Moved 2 (statementsOf second) [839, 90, 99] [1351, 218, 99] ∧
        (assemble (first ++ "\n" ++ second)).program? = some [323, 8, 1351, 218, 99] := by
  intro first second
  have free : LabelFree first := by decide +kernel
  have assembled : (assemble first).program? = some [323, 8] := by decide +kernel
  have assembledBelow : (assemble second).program? = some [839, 90, 99] := by decide +kernel
  have together : (assemble (first ++ "\n" ++ second)).program? =
      some [323, 8, 1351, 218, 99] := by decide +kernel
  have relocates := relocation free assembled assembledBelow
  obtain ⟨moved, same, relates⟩ := relocates.program _ together
  have rest : [1351, 218, 99] = moved := congrArg (List.drop 2) same
  subst rest
  exact ⟨free, relocates, relates, together⟩

end Texts

end Source

end RegisterMachine
