import RegisterMachine.Proofs.Source.Relocation

/-!
The values that are written as labels.

A statement that has a label as its value has a word with the address of the label, and that is the
index of a word of the program or the end of the program.
-/

namespace RegisterMachine.Source

open Grammar

/-- No label has more statements before it than there are. -/
theorem address_le_of_mem {lines : List Line} {name : String} {address : Nat} (count : Nat)
    (member : (name, address) ∈ definitions count lines) :
    address ≤ count + (lines.filterMap Line.statement?).length := by
  induction lines generalizing count with
  | nil => contradiction
  | cons line lines ih =>
    have counted : (List.filterMap Line.statement? (line :: lines)).length =
        line.statement?.toList.length + (lines.filterMap Line.statement?).length := by
      rw [List.filterMap_cons]
      cases line.statement? with
      | none => exact (Nat.zero_add _).symm
      | some statement => exact Nat.add_comm _ _
    rw [definitions, List.mem_append] at member
    obtain here | later := member
    · obtain ⟨label, -, same⟩ := List.mem_map.mp here
      obtain ⟨-, rfl⟩ := Prod.mk.inj same
      exact Nat.le_add_right _ _
    · have rest := ih _ later
      omega

/-- The value of a word is the address of the label that stands for it. -/
theorem Grammar.Encodes.defined_value {defined : String → Nat → Prop} {opcode : Opcode}
    {operands : List Symbol} {name : String} {word : Word}
    (encodes : Encodes defined opcode operands word.val)
    (labelled : labelAmong? opcode operands = some name) :
    word.opcode? = some opcode ∧ defined name word.value := by
  generalize held : word.val = number at encodes
  cases encodes with
  | bare alone =>
    obtain rfl | rfl := alone <;> contradiction
  | push | pop | move | arithmetic | output => contradiction
  | @call _ address value =>
    cases value with
    | number small => contradiction
    | label known small =>
      obtain rfl : word = Word.ofAddress .cal .a ⟨address, small⟩ := Fin.ext held
      obtain rfl := Option.some.inj labelled
      rw [Word.value_ofAddress (by decide)]
      exact ⟨Word.opcode?_ofAddress _ _ _, known⟩
  | @addressed _ _ _ rd address alike first second =>
    have wide : opcode ≠ .sft := by
      obtain rfl | rfl | rfl | rfl := alike <;> decide
    cases second with
    | number small =>
      obtain rfl | rfl | rfl | rfl := alike <;> contradiction
    | @label found _ known small =>
      obtain rfl : word = Word.ofAddress opcode rd ⟨address, small⟩ := Fin.ext held
      have same : found = name := by
        obtain rfl | rfl | rfl | rfl := alike <;> exact Option.some.inj labelled
      rw [Word.value_ofAddress wide]
      exact ⟨Word.opcode?_ofAddress _ _ _, same ▸ known⟩
  | @shift _ _ _ rs direction amount first second third =>
    cases third with
    | number small => contradiction
    | label known small =>
      have register : (if direction = .left then 0 else 1) = direction.register.index := by
        cases direction <;> rfl
      rw [register] at held
      obtain rfl : word = Word.ofByte .sft direction.register rs ⟨amount, small⟩ := Fin.ext held
      obtain rfl := Option.some.inj labelled
      rw [Word.value_ofByte]
      exact ⟨Word.opcode?_ofByte _ _ _ _, known⟩

/-- A statement with a label as its value has a word with the address of the label, which is at most
the length of the program. -/
theorem exists_value {text name : String} {program : List Word} {index target : Nat}
    {statement : Statement} (assembled : (assemble text).program? = some program)
    (found : (statementsOf text)[index]? = some statement)
    (labelled : statement.label? = some name)
    (known : (labelTable text).lookup name = some target) :
    target ≤ program.length ∧ ∃ word, program[index]? = some word ∧
      word.opcode? = some statement.opcode ∧ word.value = target := by
  have assembles := (program?_eq_some_iff_assembles text program).mp assembled
  obtain ⟨inside, rfl⟩ := List.getElem?_eq_some_iff.mp found
  have reached : index < program.length := assembles.encoded.length_eq ▸ inside
  have encodes : Encodes _ (statementsOf text)[index].opcode _ program[index].val :=
    assembles.encoded.get inside reached
  obtain ⟨opcode, defined⟩ := encodes.defined_value labelled
  have same := (lookup_labelTable assembled name _).mpr defined
  have below := address_le_of_mem 0 ((lookup_labelTable assembled name target).mp known)
  rw [length_of_program? assembled, Nat.zero_add] at below
  exact ⟨below, _, List.getElem?_eq_getElem reached, opcode,
    Option.some.inj (same.symm.trans known)⟩

end RegisterMachine.Source
