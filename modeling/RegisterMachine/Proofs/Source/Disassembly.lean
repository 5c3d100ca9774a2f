import RegisterMachine.Proofs.Source.Acceptance
import RegisterMachine.Proofs.Source.Literals

/-!
The text of a program is source text again.

Every instruction is written as a line that follows the rules, and the word of that line is the word
of the instruction with the fields it does not use set to zero. A word that holds no instruction is
written as a line that cannot be read.
-/

namespace RegisterMachine

open Source (Symbol)

namespace Instruction

/-- The symbols of the operands as the text of the instruction has them. -/
def operandSymbols : Instruction → List Symbol
  | .call target => [.number target]
  | .ret => []
  | .move rd rs => [.name rd.name, .name rs.name]
  | .loadValue rd value => [.name rd.name, .number value]
  | .loadMemory rd address => [.name rd.name, .number address]
  | .storeMemory rd address => [.name rd.name, .number address]
  | .arithmetic rd rs operation destination =>
    [.name rd.name, .name rs.name, .name operation.name, .name destination.name]
  | .shift rs direction amount => [.name rs.name, .name direction.name, .number amount]
  | .push rs => [.name rs.name]
  | .pop rd => [.name rd.name]
  | .jumpIfLess rd target => [.name rd.name, .number target]
  | .output rs selector => [.name rs.name, .name (OutputFormat.ofSelector selector).name]
  | .halt => []

def symbols (instruction : Instruction) : List Symbol :=
  .name instruction.opcode.mnemonic :: instruction.operandSymbols

/-- The text of an instruction tells the format of an output but not its selector. -/
def written : Instruction → Instruction
  | .output rs selector =>
    .output rs ⟨(OutputFormat.ofSelector selector).selector, OutputFormat.selector_lt _⟩
  | instruction => instruction

@[simp] theorem text_written (instruction : Instruction) :
    instruction.written.text = instruction.text := by
  cases instruction with
  | output rs selector =>
    simp only [text, written, opcode, operands, OutputFormat.ofSelector_selector]
  | _ => rfl

end Instruction

/-- The word that the text of a word stands for. -/
def Word.rewritten (word : Word) : Word :=
  match word.instruction? with
  | some instruction => instruction.written.word
  | none => word

/-- The symbols of the text of a word, if the word holds an instruction. -/
def Word.symbols (word : Word) : List Symbol :=
  match word.instruction? with
  | some instruction => instruction.symbols
  | none => []

theorem Word.text_rewritten (word : Word) : word.rewritten.text = word.text := by
  unfold Word.rewritten
  split
  · rename_i instruction held
    rw [Word.text, Word.text, held, Instruction.instruction?_word]
    exact instruction.text_written
  · rfl

/-- An output with junk in its `rd` field and a selector without a format is written plainly. -/
example : Word.rewritten 0xFF7B = 0x004B := by decide

/-- Thirteen of the sixteen opcode numbers are assigned. -/
theorem Word.instruction?_isSome_iff (word : Word) :
    word.instruction?.isSome ↔ word.opcodeNumber < 13 := by
  have bound : word.opcodeNumber < 16 := Nat.mod_lt _ (by decide)
  have assigned : ∀ number : Fin 16, (Opcode.ofNumber? number).isSome ↔ number < 13 := by decide
  rw [Word.instruction?, Option.isSome_map, Word.opcode?]
  exact assigned ⟨word.opcodeNumber, bound⟩

/-- The text of a program has one line for each word. -/
def listing (program : List Word) : String := "\n".intercalate (program.map Word.text)

namespace Source

open Grammar

section Lines

/-- The text before a place where nothing can go on is read as one symbol. -/
def ReadsWhole (chars : List Char) (symbol : Symbol) : Prop :=
  ∀ rest, Ends rest → contents (chars ++ rest) = some symbol :: contents rest

theorem readsWhole_name {name : String} (valid : isName name.toList) :
    ReadsWhole name.toList (.name name) := by
  intro rest ends
  rw [contents_name valid ends, String.ofList_toList]

theorem readsWhole_render {number : Nat} (small : number < numberLimit) :
    ReadsWhole (Numeral.render 10 number).toList (.number number) :=
  fun _ ends => contents_render small ends

/-- Pieces with a space between them are read one by one. -/
theorem contents_spaced {pieces : List (List Char)} {symbols : List Symbol}
    (whole : List.Forall₂ ReadsWhole pieces symbols) :
    contents ([' '].intercalate pieces) = symbols.map some := by
  induction whole with
  | nil => exact contents_nil
  | @cons piece symbol pieces symbols first others ih =>
    cases others with
    | nil =>
      have alone := first [] ends_nil
      rw [List.append_nil, contents_nil] at alone
      rw [List.intercalate_singleton]
      exact alone
    | @cons second _ pieces _ _ _ =>
      rw [List.intercalate_cons_cons, List.append_assoc, List.singleton_append,
        first _ (ends_cons (by decide) _), contents_gap (by decide), ih]
      rfl

/-- Lines with a newline between them are read one by one. -/
theorem contents_lines {lines : List (List Char)} {symbols : List (List Symbol)}
    (read : List.Forall₂ (fun line found => contents line = found.map some) lines symbols) :
    contents (['\n'].intercalate lines) = ([Symbol.newline].intercalate symbols).map some := by
  induction read with
  | nil => exact contents_nil
  | cons first others ih =>
    cases others with
    | nil =>
      rw [List.intercalate_singleton, List.intercalate_singleton]
      exact first
    | cons second others =>
      rw [List.intercalate_cons_cons, List.append_assoc, List.singleton_append,
        contents_append_newline, first, ih, List.intercalate_cons_cons, List.append_assoc,
        List.singleton_append, List.map_append, List.map_cons]

/-- What cannot be read on one line cannot be read in the whole text. -/
theorem none_mem_contents_lines {line : List Char} {lines : List (List Char)}
    (member : line ∈ lines) (unread : none ∈ contents line) :
    none ∈ contents (['\n'].intercalate lines) := by
  induction lines with
  | nil => exact absurd member List.not_mem_nil
  | cons first lines ih =>
    cases lines with
    | nil =>
      obtain rfl := List.mem_singleton.mp member
      rwa [List.intercalate_singleton]
    | cons second lines =>
      rw [List.intercalate_cons_cons, List.append_assoc, List.singleton_append,
        contents_append_newline, List.mem_append, List.mem_cons]
      rcases List.mem_cons.mp member with same | later
      · exact .inl (same ▸ unread)
      · exact .inr (.inr (ih later))

end Lines

/-- The operands of an instruction are read whole. -/
theorem readsWhole_operands (instruction : Instruction) :
    List.Forall₂ ReadsWhole (instruction.operands.map String.toList)
      instruction.operandSymbols := by
  have register (register : Register) : ReadsWhole register.name.toList (.name register.name) :=
    readsWhole_name (by cases register <;> decide)
  have operation (operation : Operation) :
      ReadsWhole operation.name.toList (.name operation.name) :=
    readsWhole_name (by cases operation <;> decide)
  have destination (destination : Destination) :
      ReadsWhole destination.name.toList (.name destination.name) :=
    readsWhole_name (by cases destination <;> decide)
  have direction (direction : Direction) :
      ReadsWhole direction.name.toList (.name direction.name) :=
    readsWhole_name (by cases direction <;> decide)
  have format (format : OutputFormat) : ReadsWhole format.name.toList (.name format.name) :=
    readsWhole_name (by cases format <;> decide)
  have number {bound : Nat} (value : Fin bound) (small : bound ≤ numberLimit) :
      ReadsWhole (Numeral.render 10 value).toList (.number value) :=
    readsWhole_render (Nat.lt_of_lt_of_le value.isLt small)
  cases instruction with
  | call target => exact .cons (number target (by decide)) .nil
  | ret => exact .nil
  | move rd rs => exact .cons (register rd) (.cons (register rs) .nil)
  | loadValue rd value => exact .cons (register rd) (.cons (number value (by decide)) .nil)
  | loadMemory rd address => exact .cons (register rd) (.cons (number address (by decide)) .nil)
  | storeMemory rd address => exact .cons (register rd) (.cons (number address (by decide)) .nil)
  | arithmetic rd rs kind chosen =>
    exact .cons (register rd) (.cons (register rs)
      (.cons (operation kind) (.cons (destination chosen) .nil)))
  | shift rs way amount =>
    exact .cons (register rs) (.cons (direction way) (.cons (number amount (by decide)) .nil))
  | push rs => exact .cons (register rs) .nil
  | pop rd => exact .cons (register rd) .nil
  | jumpIfLess rd target => exact .cons (register rd) (.cons (number target (by decide)) .nil)
  | output rs selector => exact .cons (register rs) (.cons (format _) .nil)
  | halt => exact .nil

/-- The text of an instruction holds its symbols. -/
theorem contents_text (instruction : Instruction) :
    contents instruction.text.toList = instruction.symbols.map some := by
  rw [Instruction.text, String.toList_intercalate]
  apply contents_spaced
  refine .cons (readsWhole_name ?_) (readsWhole_operands instruction)
  generalize instruction.opcode = opcode
  cases opcode <;> decide

/-- The operands of an instruction follow the rules for its word. -/
theorem encodes_operandSymbols (defined : String → Nat → Prop) (instruction : Instruction) :
    Encodes defined instruction.opcode instruction.operandSymbols
      instruction.written.word.val := by
  have keyword {α : Type} (name : α → String) (meaning : α) :
      Keyword name (.name (name meaning)) meaning := .spelled rfl
  have number {bound : Nat} (value : Fin bound) : Value defined bound (.number value) value :=
    .number value.isLt
  cases instruction with
  | call target => exact .call (number target)
  | ret => exact .bare (.inl rfl)
  | move rd rs => exact .move (keyword _ rd) (keyword _ rs)
  | loadValue rd value => exact .addressed (.inl rfl) (keyword _ rd) (number value)
  | loadMemory rd address => exact .addressed (.inr (.inl rfl)) (keyword _ rd) (number address)
  | storeMemory rd address =>
    exact .addressed (.inr (.inr (.inl rfl))) (keyword _ rd) (number address)
  | arithmetic rd rs operation destination =>
    exact .arithmetic (keyword _ rd) (keyword _ rs) (keyword _ operation) (keyword _ destination)
  | shift rs direction amount =>
    have shape := Encodes.shift (keyword Register.name rs) (keyword Direction.name direction)
      (number amount)
    cases direction <;> exact shape
  | push rs => exact .push (keyword _ rs)
  | pop rd => exact .pop (keyword _ rd)
  | jumpIfLess rd target =>
    exact .addressed (.inr (.inr (.inr rfl))) (keyword _ rd) (number target)
  | output rs selector => exact .output (keyword _ rs) (.format (keyword _ _))
  | halt => exact .bare (.inr rfl)

/-- The line of an instruction follows the rules for the word that it stands for. -/
theorem row_of_symbols (defined : String → Nat → Prop) (instruction : Instruction) :
    Row.Of defined instruction.symbols ⟨[], some instruction.written.word⟩ := by
  have plain : instruction.operandSymbols.filter (· ≠ .comma) = instruction.operandSymbols := by
    cases instruction <;> rfl
  have encodes := encodes_operandSymbols defined instruction
  rw [← plain] at encodes
  exact .statement rfl encodes

/-- The question marks of a word without an instruction start no token. -/
theorem none_mem_contents_text {word : Word} (empty : word.instruction? = none) :
    none ∈ contents word.text.toList := by
  have marked : word.text.toList = '?' :: "?? 0x".toList ++ word.hex.toList := by
    rw [Word.text, empty, String.toList_append]
    rfl
  have opened (rest : List Char) : (firstPiece '?' rest).lexeme = .misfit "?" false := by
    have opens : Opens '?' := opens_of_printable (by decide) (by decide) (by decide)
    have digit : Char.isDigit '?' = false := by decide
    have name : isNameStart '?' = false := by decide
    simp only [firstPiece, opens.not_newline, opens.not_blank, opens.not_comment, opens.not_colon,
      opens.not_comma, digit, name, if_false, Bool.false_eq_true]
    rfl
  rw [marked, List.cons_append, contents_cons, opened]
  exact List.mem_append_left _ List.mem_cons_self

/-- Rows without labels need no table. -/
theorem derives_of_unlabelled {symbols : List Symbol} {rows : List Row}
    (follows : ∀ defined, List.Forall₂ (Row.Of defined) (symbols.splitOn .newline) rows)
    (unlabelled : ∀ row ∈ rows, row.labels = []) :
    Derives symbols (rows.filterMap Row.word?) := by
  have nothing (name : String) (address : Nat) : ¬ Defines rows name address := by
    intro defines
    obtain ⟨before, row, after, split, member, -⟩ := defines
    have inside : row ∈ rows := split ▸ List.mem_append_right before List.mem_cons_self
    rw [unlabelled row inside] at member
    contradiction
  refine ⟨rows, follows _, ?_, fun name address defines => absurd defines (nothing name address),
    rfl⟩
  rw [List.flatMap_eq_nil_iff.mpr unlabelled]
  exact List.nodup_nil

theorem toList_listing (program : List Word) :
    (listing program).toList = ['\n'].intercalate (program.map fun word => word.text.toList) := by
  rw [listing, String.toList_intercalate, List.map_map]
  rfl

/-- A word with an instruction is read back from its line. -/
theorem contents_word {word : Word} (held : word.instruction?.isSome) :
    contents word.text.toList = word.symbols.map some := by
  obtain ⟨instruction, found⟩ := Option.isSome_iff_exists.mp held
  rw [Word.text, Word.symbols, found]
  exact contents_text instruction

theorem row_of_word (defined : String → Nat → Prop) {word : Word}
    (held : word.instruction?.isSome) :
    Row.Of defined word.symbols ⟨[], some word.rewritten⟩ := by
  obtain ⟨instruction, found⟩ := Option.isSome_iff_exists.mp held
  rw [Word.symbols, Word.rewritten, found]
  exact row_of_symbols defined instruction

/-- Lines that are rows are the lines of the text that they make. -/
theorem splitOn_rows {defined : String → Nat → Prop} {lines : List (List Symbol)}
    {rows : List Row} (follows : List.Forall₂ (Row.Of defined) lines rows) (filled : lines ≠ []) :
    ([Symbol.newline].intercalate lines).splitOn .newline = lines := by
  apply List.splitOn_intercalate _ _ filled
  clear filled
  induction follows with
  | nil => exact List.forall_mem_nil _
  | cons first _ ih => exact List.forall_mem_cons.mpr ⟨first.newline_not_mem, ih⟩

section Assembling

variable {Entry : Type} {symbols : Entry → List Symbol} {word : Entry → Word} {entries : List Entry}
  (rows : ∀ entry ∈ entries, ∀ defined, Row.Of defined (symbols entry) ⟨[], some (word entry)⟩)

include rows

/-- Lines without labels that follow the rules for some words follow the rules for a program. -/
theorem derives_lines :
    Derives ([Symbol.newline].intercalate (entries.map symbols)) (entries.map word) := by
  cases entries with
  | nil =>
    -- A text without words still has one line, which is empty.
    exact @derives_of_unlabelled [] [⟨[], none⟩] (fun _ => .cons .empty .nil) (by simp)
  | cons entry entries =>
    have words : (entry :: entries).map word =
        ((entry :: entries).map fun entry => (⟨[], some (word entry)⟩ : Row)).filterMap
          Row.word? := by
      rw [List.filterMap_map]
      exact (congrFun List.filterMap_eq_map (entry :: entries)).symm
    have follows (defined : String → Nat → Prop) : List.Forall₂ (Row.Of defined)
        ((entry :: entries).map symbols)
        ((entry :: entries).map fun entry => ⟨[], some (word entry)⟩) := by
      rw [List.forall₂_map_left_iff, List.forall₂_map_right_iff, List.forall₂_same]
      exact fun entry member => rows entry member defined
    rw [words]
    apply derives_of_unlabelled
    · intro defined
      rw [splitOn_rows (follows defined) (List.cons_ne_nil _ _)]
      exact follows defined
    · intro row member
      obtain ⟨entry, -, rfl⟩ := List.mem_map.mp member
      rfl

/-- A text of such lines has these words as its program. -/
theorem assemble_lines {text : Entry → String}
    (reads : ∀ entry ∈ entries, contents (text entry).toList = (symbols entry).map some) :
    (assemble ("\n".intercalate (entries.map text))).program? = some (entries.map word) := by
  rw [program?_eq_some_iff_contents, String.toList_intercalate, List.map_map]
  refine ⟨_, contents_lines ?_, derives_lines rows⟩
  rw [List.forall₂_map_left_iff, List.forall₂_map_right_iff, List.forall₂_same]
  exact reads

end Assembling

/-- A program without unassigned opcodes is read back from its text, word by word. -/
theorem assemble_listing {program : List Word}
    (held : ∀ word ∈ program, word.instruction?.isSome) :
    (assemble (listing program)).program? = some (program.map Word.rewritten) := by
  apply assemble_lines
  · exact fun word member defined => row_of_word defined (held word member)
  · exact fun word member => contents_word (held word member)

/-- A text of a program that is read back has no unassigned opcode. -/
theorem held_of_assemble_listing {program again : List Word}
    (read : (assemble (listing program)).program? = some again) :
    ∀ word ∈ program, word.instruction?.isSome := by
  rw [program?_eq_some_iff_contents, toList_listing] at read
  obtain ⟨symbols, whole, -⟩ := read
  intro word member
  rw [Option.isSome_iff_ne_none]
  intro empty
  have line : word.text.toList ∈ program.map fun word => word.text.toList :=
    List.mem_map.mpr ⟨word, member, rfl⟩
  have unread := none_mem_contents_lines line (none_mem_contents_text empty)
  rw [whole] at unread
  obtain ⟨symbol, -, same⟩ := List.mem_map.mp unread
  contradiction

end Source

end RegisterMachine
