import RegisterMachine.Proofs.Source.Disassembly

/-!
The programs that the assembler can make.

A word is canonical when the fields that its opcode does not use are zero. The canonical words are
those of instructions, every list of them is the program of some text, and no other list is. The text
of a program is read back as the program itself when, in addition, every output has the selector of
a format.
-/

namespace RegisterMachine

open Source (Symbol assemble)

namespace Word

/-- The fields of the word that an opcode does not use are zero. Of the byte field an arithmetic
word uses three bits, and of the `rd` field a shift uses one. -/
def Spares (word : Word) : Opcode → Prop
  | .cal => word.rdIndex = 0
  | .ret => word.val = 1
  | .mov => word.byte.val = 0
  | .ldv | .ldr | .ldm | .jlt => True
  | .ath => word.byte.val < 8
  | .sft => word.rdIndex ≤ 1
  | .psh => word.rdIndex = 0 ∧ word.byte.val = 0
  | .pop => word.rsIndex = 0 ∧ word.byte.val = 0
  | .out => word.rdIndex = 0
  | .hlt => word.val = 12

/-- A canonical word has an assigned opcode and zeros in the fields that the opcode does not use. -/
def Canonical (word : Word) : Prop := ∃ opcode, word.opcode? = some opcode ∧ word.Spares opcode

instance (word : Word) (opcode : Opcode) : Decidable (word.Spares opcode) :=
  match opcode with
  | .cal | .ret | .mov | .out | .hlt => inferInstanceAs (Decidable (_ = _))
  | .ldv | .ldr | .ldm | .jlt => inferInstanceAs (Decidable True)
  | .ath => inferInstanceAs (Decidable (_ < _))
  | .sft => inferInstanceAs (Decidable (_ ≤ _))
  | .psh | .pop => inferInstanceAs (Decidable (_ ∧ _))

instance (word : Word) : Decidable word.Canonical :=
  match known : word.opcode? with
  | some opcode => decidable_of_iff (word.Spares opcode) (by simp [Canonical, known])
  | none => isFalse (by simp [Canonical, known])

/-- A word is made of its fields. -/
theorem ofByte_fields {word : Word} {opcode : Opcode} (known : word.opcode? = some opcode) :
    ofByte opcode word.rd word.rs word.byte = word := by
  have number := Opcode.number_eq_of_ofNumber? known
  apply Fin.ext
  simp only [ofByte, rd, rs, Register.index_ofIndex, number, opcodeNumber, rdIndex, rsIndex, byte]
  omega

/-- A word is made of its fields, with the address in the place of `rs` and the byte. -/
theorem ofAddress_fields {word : Word} {opcode : Opcode} (known : word.opcode? = some opcode) :
    ofAddress opcode word.rd word.address = word := by
  have number := Opcode.number_eq_of_ofNumber? known
  apply Fin.ext
  simp only [ofAddress, rd, Register.index_ofIndex, number, opcodeNumber, rdIndex, address]
  omega

/-- Words with two registers and nothing else have a zero byte. -/
theorem ofRegisters_fields {word : Word} {opcode : Opcode} (known : word.opcode? = some opcode)
    (zero : word.byte.val = 0) : ofRegisters opcode word.rd word.rs = word := by
  have nothing : word.byte = ⟨0, by decide⟩ := Fin.ext zero
  rw [ofRegisters, ← nothing, ofByte_fields known]

theorem rd_eq_a {word : Word} (zero : word.rdIndex = 0) : word.rd = .a := by
  rw [rd, zero]
  rfl

theorem rs_eq_a {word : Word} (zero : word.rsIndex = 0) : word.rs = .a := by
  rw [rs, zero]
  rfl

/-- Three bits are an operation and a destination. -/
theorem ofOperation_fields {word : Word} (known : word.opcode? = some .ath)
    (small : word.byte.val < 8) :
    ofOperation (Operation.ofCode word.byte) word.rd word.rs (Destination.ofByte word.byte) =
      word := by
  have bit : (Destination.ofByte word.byte).bit = word.byte.val / 4 := by
    unfold Destination.ofByte
    split <;> simp only [Destination.bit] <;> omega
  have byte : (⟨(Operation.ofCode word.byte).code + 4 * (Destination.ofByte word.byte).bit, by
      rw [Operation.code_ofCode, bit]
      omega⟩ : Byte) = word.byte := by
    apply Fin.ext
    simp only [Operation.code_ofCode, bit]
    omega
  rw [ofOperation, byte, ofByte_fields known]

/-- One bit is a direction. -/
theorem register_ofRegister {word : Word} (small : word.rdIndex ≤ 1) :
    (Direction.ofRegister word.rd).register = word.rd := by
  have cases : word.rdIndex = 0 ∨ word.rdIndex = 1 := by omega
  rcases cases with zero | one
  · rw [rd, zero]
    rfl
  · rw [rd, one]
    rfl

end Word

/-- The word of an instruction is canonical. -/
theorem Instruction.canonical_word (instruction : Instruction) : instruction.word.Canonical := by
  cases instruction with
  | call target => exact ⟨.cal, Word.opcode?_ofAddress _ _ _, Word.rdIndex_ofAddress _ _ _⟩
  | ret => exact ⟨.ret, rfl, rfl⟩
  | move rd rs =>
    exact ⟨.mov, Word.opcode?_ofByte _ _ _ _, congrArg Fin.val (Word.byte_ofByte _ _ _ _)⟩
  | loadValue rd value => exact ⟨.ldv, Word.opcode?_ofAddress _ _ _, trivial⟩
  | loadMemory rd address => exact ⟨.ldr, Word.opcode?_ofAddress _ _ _, trivial⟩
  | storeMemory rd address => exact ⟨.ldm, Word.opcode?_ofAddress _ _ _, trivial⟩
  | arithmetic rd rs operation destination =>
    refine ⟨.ath, Word.opcode?_ofByte _ _ _ _, ?_⟩
    have operationBits := operation.code_lt
    have destinationBit := destination.bit_lt
    simp only [Word.Spares, word, Word.ofOperation, Word.byte_ofByte]
    omega
  | shift rs direction amount =>
    refine ⟨.sft, Word.opcode?_ofByte _ _ _ _, ?_⟩
    simp only [Word.Spares, word, Word.rdIndex_ofByte]
    cases direction <;> decide
  | push rs =>
    exact ⟨.psh, Word.opcode?_ofByte _ _ _ _, Word.rdIndex_ofByte _ _ _ _,
      congrArg Fin.val (Word.byte_ofByte _ _ _ _)⟩
  | pop rd =>
    exact ⟨.pop, Word.opcode?_ofByte _ _ _ _, Word.rsIndex_ofByte _ _ _ _,
      congrArg Fin.val (Word.byte_ofByte _ _ _ _)⟩
  | jumpIfLess rd target => exact ⟨.jlt, Word.opcode?_ofAddress _ _ _, trivial⟩
  | output rs selector =>
    exact ⟨.out, Word.opcode?_ofByte _ _ _ _, Word.rdIndex_ofByte _ _ _ _⟩
  | halt => exact ⟨.hlt, rfl, rfl⟩

/-- A canonical word is the word of the instruction that it holds. -/
theorem Word.Canonical.word_eq {word : Word} (canonical : word.Canonical) :
    ∃ instruction, word.instruction? = some instruction ∧ instruction.word = word := by
  obtain ⟨opcode, known, spares⟩ := canonical
  rw [Word.instruction?, known]
  refine ⟨_, rfl, ?_⟩
  cases opcode with
  | cal =>
    have fields := Word.ofAddress_fields known
    rwa [Word.rd_eq_a spares] at fields
  | ret | hlt => exact Fin.ext spares.symm
  | mov => exact Word.ofRegisters_fields known spares
  | ldv | ldr | ldm | jlt => exact Word.ofAddress_fields known
  | ath => exact Word.ofOperation_fields known spares
  | sft =>
    have fields := Word.ofByte_fields known
    rwa [← Word.register_ofRegister spares] at fields
  | psh =>
    have fields := Word.ofRegisters_fields known spares.2
    rwa [Word.rd_eq_a spares.1] at fields
  | pop =>
    have fields := Word.ofRegisters_fields known spares.2
    rwa [Word.rs_eq_a spares.1] at fields
  | out =>
    have fields := Word.ofByte_fields known
    rwa [Word.rd_eq_a spares] at fields

/-- The text of an instruction with every selector written as a number. -/
def Instruction.source : Instruction → String
  | .output rs selector =>
    " ".intercalate [Opcode.out.mnemonic, rs.name, Numeral.render 10 selector]
  | instruction => instruction.text

def Instruction.sourceSymbols : Instruction → List Symbol
  | .output rs selector => [.name Opcode.out.mnemonic, .name rs.name, .number selector]
  | instruction => instruction.symbols

namespace Source

open Grammar

theorem contents_source (instruction : Instruction) :
    contents instruction.source.toList = instruction.sourceSymbols.map some := by
  cases instruction with
  | output rs selector =>
    rw [Instruction.source, String.toList_intercalate]
    apply contents_spaced
    refine .cons (readsWhole_name (by decide)) (.cons (readsWhole_name ?_) (.cons ?_ .nil))
    · cases rs <;> decide
    · exact readsWhole_render (Nat.lt_trans selector.isLt (by decide))
  | _ => exact contents_text _

/-- A selector that is written as a number is kept. -/
theorem row_of_source (defined : String → Nat → Prop) (instruction : Instruction) :
    Row.Of defined instruction.sourceSymbols ⟨[], some instruction.word⟩ := by
  cases instruction with
  | output rs selector =>
    exact .statement rfl (.output (.spelled rfl) (.number selector.isLt))
  | _ => exact row_of_symbols defined _

/-- Every list of instructions has a text. -/
theorem assemble_source (instructions : List Instruction) :
    (assemble ("\n".intercalate (instructions.map Instruction.source))).program? =
      some (instructions.map Instruction.word) := by
  apply assemble_lines
  · exact fun instruction _ defined => row_of_source defined instruction
  · exact fun instruction _ => contents_source instruction

/-- The assembler makes words of instructions only. -/
theorem exists_instruction {text : String} {program : List Word} {word : Word}
    (assembled : (assemble text).program? = some program) (member : word ∈ program) :
    ∃ instruction : Instruction, instruction.word = word := by
  have words := ((program?_eq_some_iff_passes text program).mp assembled).2
  have images : (Draft.ofItems (read text.toList).items).words.map Except.toOption =
      program.map some := by
    rw [← List.forall₂_eq_eq_eq, List.forall₂_map_left_iff, List.forall₂_map_right_iff]
    exact (mapM_eq_some_iff_forall₂ _ _ _).mp words
  have found : some word ∈ program.map some := List.mem_map_of_mem member
  rw [← images, Draft.words, List.map_map] at found
  obtain ⟨statement, -, found⟩ := List.mem_map.mp found
  rw [Function.comp_apply] at found
  generalize statement.instruction _ = outcome at found
  cases outcome with
  | error complaint => contradiction
  | ok instruction => exact ⟨instruction, Option.some.inj found⟩

/-- The canonical words are those of instructions. -/
theorem canonical_iff (word : Word) :
    word.Canonical ↔ ∃ instruction : Instruction, instruction.word = word := by
  constructor
  · intro canonical
    obtain ⟨instruction, -, same⟩ := canonical.word_eq
    exact ⟨instruction, same⟩
  · rintro ⟨instruction, rfl⟩
    exact instruction.canonical_word

/-- A list of canonical words is a program. -/
theorem exists_text {program : List Word} (canonical : ∀ word ∈ program, word.Canonical) :
    ∃ text, (assemble text).program? = some program := by
  have listed : ∃ instructions : List Instruction, instructions.map Instruction.word = program := by
    induction program with
    | nil => exact ⟨[], rfl⟩
    | cons word program ih =>
      obtain ⟨first, others⟩ := List.forall_mem_cons.mp canonical
      obtain ⟨instruction, rfl⟩ := (canonical_iff word).mp first
      obtain ⟨instructions, rfl⟩ := ih others
      exact ⟨instruction :: instructions, rfl⟩
  obtain ⟨instructions, rfl⟩ := listed
  exact ⟨_, assemble_source instructions⟩

end Source

namespace Word

theorem selector_le (format : OutputFormat) : format.selector ≤ 3 := by
  cases format <;> decide

/-- A selector with a format of its own is the selector of that format. -/
theorem selector_ofSelector {selector : Nat} (assigned : selector ≤ 3) :
    (OutputFormat.ofSelector selector).selector = selector := by
  have table : ∀ selector ≤ 3, (OutputFormat.ofSelector selector).selector = selector := by decide
  exact table selector assigned

/-- A word is written again as itself when it is canonical and its output has a format. -/
theorem rewritten_eq_iff (word : Word) :
    word.instruction?.isSome ∧ word.rewritten = word ↔
      word.Canonical ∧ (word.opcode? = some .out → word.byte.val ≤ 3) := by
  constructor
  · intro both
    obtain ⟨instruction, held⟩ := Option.isSome_iff_exists.mp both.1
    have same : instruction.written.word = word := by
      have again := both.2
      rwa [rewritten, held] at again
    refine ⟨same ▸ instruction.written.canonical_word, fun printing => ?_⟩
    rw [instruction?, printing] at held
    obtain rfl := Option.some.inj held
    have byte : word.byte.val = (OutputFormat.ofSelector word.byte).selector := by
      conv_lhs => rw [← same]
      exact congrArg Fin.val (byte_ofByte _ _ _ _)
    rw [byte]
    exact selector_le _
  · intro both
    obtain ⟨instruction, held, same⟩ := both.1.word_eq
    have kept : instruction.written = instruction := by
      cases instruction with
      | output rs selector =>
        have assigned : selector.val ≤ 3 := by
          have small := both.2 (same ▸ opcode?_ofByte _ _ _ _)
          rwa [← same, show (Instruction.output rs selector).word.byte = selector from
            byte_ofByte _ _ _ _] at small
        exact congrArg (Instruction.output rs) (Fin.ext (selector_ofSelector assigned))
      | _ => rfl
    refine ⟨held ▸ rfl, ?_⟩
    rw [rewritten, held]
    exact (congrArg Instruction.word kept).trans same

end Word

namespace Source

/-- A program is read back from its text unchanged when each of its words is. -/
theorem assemble_listing_eq_iff (program : List Word) :
    (assemble (listing program)).program? = some program ↔
      ∀ word ∈ program, word.instruction?.isSome ∧ word.rewritten = word := by
  constructor
  · intro read word member
    have held := held_of_assemble_listing read
    have again := assemble_listing held
    rw [read, Option.some.injEq] at again
    have same : program.map Word.rewritten = program.map id := by rw [← again, List.map_id]
    exact ⟨held word member, List.map_inj_left.mp same word member⟩
  · intro kept
    rw [assemble_listing fun word member => (kept word member).1]
    refine congrArg some ((List.map_congr_left fun word member => (kept word member).2).trans ?_)
    exact List.map_id program

/-- The programs of texts are the lists of canonical words, and the programs that are read back from
their own text are those whose outputs, in addition, have the selector of a format. -/
theorem programs_canonical (program : List Word) :
    ((∃ text, (assemble text).program? = some program) ↔ ∀ word ∈ program, word.Canonical) ∧
      ((assemble (listing program)).program? = some program ↔
        ∀ word ∈ program,
          word.Canonical ∧ (word.opcode? = some .out → word.byte.val ≤ 3)) := by
  constructor
  · constructor
    · rintro ⟨text, assembled⟩ word member
      exact (canonical_iff word).mpr (exists_instruction assembled member)
    · exact exists_text
  · rw [assemble_listing_eq_iff]
    exact forall₂_congr fun word _ => word.rewritten_eq_iff

/-- An output may have any selector, but nothing may stand in its `rd` field. -/
example : Word.Canonical 0xFF4B ∧ ¬ Word.Canonical 0xFF5B := by decide

end Source

end RegisterMachine
