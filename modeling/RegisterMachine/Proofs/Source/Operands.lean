import RegisterMachine.Proofs.Source.Grammar
import RegisterMachine.Proofs.Text.LetterCase
import RegisterMachine.Source.Operand
import Mathlib.Data.List.Nodup

/-!
Reading the operands of a statement is what the rules of the grammar say, operand by operand, and so
is reading the whole statement.
-/

namespace RegisterMachine.Source

open Grammar

/-- Names that are written in capitals are found by their capitals. -/
theorem spells_iff {written name : String} (capital : name.toUpper = name) :
    Spells written name ↔ written.toUpper = name := by
  rw [Spells, Text.toLower_eq_iff, capital]

theorem ofMnemonic?_toUpper_eq_some_iff (written : String) (opcode : Opcode) :
    Opcode.ofMnemonic? written.toUpper = some opcode ↔ Spells written opcode.mnemonic := by
  rw [spells_iff (by cases opcode <;> decide +kernel)]
  constructor
  · intro found
    unfold Opcode.ofMnemonic? at found
    have spelled := List.find?_some found
    exact (beq_iff_eq.mp spelled).symm
  · intro same
    rw [same, Opcode.ofMnemonic?_mnemonic]

theorem ofName?_toUpper_eq_some_iff (written : String) (register : Register) :
    Register.ofName? written.toUpper = some register ↔ Spells written register.name := by
  rw [spells_iff (by cases register <;> decide +kernel)]
  constructor
  · intro found
    unfold Register.ofName? at found
    split at found
    case h_5 => contradiction
    all_goals
      rename_i same
      rw [same, ← Option.some.inj found]
      rfl
  · intro same
    rw [same, Register.ofName?_name]

/-- A table of names has each of its entries under its name. -/
theorem lookup_map_name {α : Type} {name : α → String} (apart : Function.Injective name)
    (all : List α) (key : String) (choice : α) :
    (all.map fun choice => (name choice, choice)).lookup key = some choice ↔
      choice ∈ all ∧ key = name choice := by
  induction all with
  | nil => simp
  | cons first rest ih =>
    rw [List.map_cons, List.lookup_cons]
    by_cases same : key = name first
    · simp only [beq_iff_eq.mpr same, Option.some.injEq, List.mem_cons]
      constructor
      · rintro rfl
        exact ⟨.inl rfl, same⟩
      · rintro ⟨-, found⟩
        exact apart (same.symm.trans found)
    · simp only [beq_eq_false_iff_ne.mpr same, ih, List.mem_cons]
      constructor
      · rintro ⟨member, found⟩
        exact ⟨.inr member, found⟩
      · rintro ⟨rfl | member, found⟩
        · exact absurd found same
        · exact ⟨member, found⟩

namespace Grammar

variable {α : Type} {name : α → String} {meaning : α} {defined : String → Nat → Prop}

theorem keyword_name_iff (written : String) :
    Keyword name (.name written) meaning ↔ Spells written (name meaning) := by
  constructor
  · rintro ⟨spells⟩
    exact spells
  · exact .spelled

/-- Only a name can be a keyword. -/
theorem not_keyword {symbol : Symbol} (other : ∀ written, symbol = .name written → False) :
    ¬ Keyword name symbol meaning := by
  rintro ⟨spells⟩
  exact other _ rfl

theorem value_number_iff (bound number value : Nat) :
    Value defined bound (.number number) value ↔ number = value ∧ value < bound := by
  constructor
  · intro reading
    cases reading with
    | number small => exact ⟨rfl, small⟩
  · rintro ⟨rfl, small⟩
    exact .number small

theorem value_name_iff (bound : Nat) (label : String) (value : Nat) :
    Value defined bound (.name label) value ↔ defined label value ∧ value < bound := by
  constructor
  · intro reading
    cases reading with
    | label known small => exact ⟨known, small⟩
  · rintro ⟨known, small⟩
    exact .label known small

/-- Only a number or a name can be a value. -/
theorem not_value {bound value : Nat} {symbol : Symbol}
    (notNumber : ∀ number, symbol = .number number → False)
    (notName : ∀ label, symbol = .name label → False) : ¬ Value defined bound symbol value := by
  intro reading
  cases reading with
  | number => exact notNumber _ rfl
  | label => exact notName _ rfl

theorem selector_number_iff (number value : Nat) :
    Selector (.number number) value ↔ number = value ∧ value < 256 := by
  constructor
  · intro reading
    cases reading with
    | number small => exact ⟨rfl, small⟩
    | format keyword => exact absurd keyword (not_keyword fun _ => Symbol.noConfusion)
  · rintro ⟨rfl, small⟩
    exact .number small

/-- A selector that is not a number is the name of a format. -/
theorem selector_iff_keyword {symbol : Symbol} {value : Nat}
    (other : ∀ number, symbol = .number number → False) :
    Selector symbol value ↔
      ∃ format, Keyword OutputFormat.name symbol format ∧ format.selector = value := by
  constructor
  · intro reading
    cases reading with
    | number => exact absurd rfl (other _)
    | format keyword => exact ⟨_, keyword, rfl⟩
  · rintro ⟨format, keyword, rfl⟩
    exact .format keyword

theorem Value.lt {bound value : Nat} {symbol : Symbol} (reading : Value defined bound symbol value) :
    value < bound := by
  cases reading with
  | number small => exact small
  | label known small => exact small

theorem Selector.lt {value : Nat} {symbol : Symbol} (reading : Selector symbol value) :
    value < 256 := by
  cases reading with
  | number small => exact small
  | format keyword => exact OutputFormat.selector_lt _

end Grammar

/-- Every choice has a name of its own, written in capitals, and is listed. -/
structure Lexicon {α : Type} (name : α → String) (all : List α) : Prop where
  apart : Function.Injective name
  capital : ∀ choice, (name choice).toUpper = name choice
  complete : ∀ choice, choice ∈ all

/-- A list of everything is a lexicon when its names are capitals and differ. -/
theorem lexicon_of_names {α : Type} {name : α → String} {all : List α}
    (complete : ∀ choice, choice ∈ all) (apart : (all.map name).Nodup)
    (capital : (all.map name).all fun written => written.toUpper == written) :
    Lexicon name all where
  apart := by
    intro first second same
    exact List.inj_on_of_nodup_map apart (complete first) (complete second) same
  capital := by
    intro choice
    have listed : name choice ∈ all.map name := List.mem_map.mpr ⟨choice, complete choice, rfl⟩
    exact beq_iff_eq.mp (List.all_eq_true.mp capital (name choice) listed)
  complete := complete

theorem lexicon_operation : Lexicon Operation.name [.add, .sub, .mul, .div] := by
  apply lexicon_of_names
  · intro operation
    cases operation <;> decide
  · decide
  · decide +kernel

theorem lexicon_destination : Lexicon Destination.name [.rs, .rd] := by
  apply lexicon_of_names
  · intro destination
    cases destination <;> decide
  · decide
  · decide +kernel

theorem lexicon_direction : Lexicon Direction.name [.left, .right] := by
  apply lexicon_of_names
  · intro direction
    cases direction <;> decide
  · decide
  · decide +kernel

theorem lexicon_format :
    Lexicon OutputFormat.name [.decimal, .binary, .hexadecimal, .character] := by
  apply lexicon_of_names
  · intro format
    cases format <;> decide
  · decide
  · decide +kernel

namespace Token

theorem register_eq_ok_iff (token : Token) (register : Register) :
    token.register = .ok register ↔ Keyword Register.name token.symbol register := by
  unfold Token.register
  split
  · rename_i written named
    rw [named, keyword_name_iff, ← ofName?_toUpper_eq_some_iff]
    cases Register.ofName? written.toUpper <;> simp
  · rename_i other
    simp only [not_keyword other, reduceCtorEq]

/-- A keyword is found in a table that has every choice under its capitals. -/
theorem keyword_eq_ok_iff {α : Type} {name : α → String} {all : List α}
    (lexicon : Lexicon name all) (token : Token) (choice : α) :
    token.keyword (all.map fun choice => (name choice, choice)) = .ok choice ↔
      Keyword name token.symbol choice := by
  unfold Token.keyword
  split
  · rename_i written named
    have listed := lookup_map_name lexicon.apart all written.toUpper choice
    rw [and_iff_right (lexicon.complete choice), ← spells_iff (lexicon.capital choice)] at listed
    rw [named, keyword_name_iff, ← listed]
    cases (all.map fun choice => (name choice, choice)).lookup written.toUpper <;> simp
  · rename_i other
    simp only [not_keyword other, reduceCtorEq]

theorem fit_eq_ok_iff (token : Token) (size value : Nat) (fitted : Fin size) :
    token.fit size value = .ok fitted ↔ value = fitted.val := by
  unfold Token.fit
  split
  · rw [Except.ok.injEq, Fin.ext_iff]
  · rename_i large
    have below := fitted.isLt
    simp only [reduceCtorEq, false_iff]
    omega

/-- A value has the meaning that the definitions of the labels give it. -/
theorem value_eq_ok_iff {labels : Labels} {defined : String → Nat → Prop}
    (agrees : ∀ name address, labels.lookup name = some address ↔ defined name address)
    (token : Token) (size : Nat) (fitted : Fin size) :
    token.value labels size = .ok fitted ↔ Value defined size token.symbol fitted.val := by
  unfold Token.value
  split
  · rename_i number numbered
    rw [numbered, fit_eq_ok_iff, value_number_iff, and_iff_left fitted.isLt]
  · rename_i name named
    rw [named, value_name_iff, and_iff_left fitted.isLt, ← agrees]
    split
    · rename_i address known
      rw [fit_eq_ok_iff, known, Option.some.injEq]
    · rename_i unknown
      simp only [unknown, reduceCtorEq]
  · rename_i notNumber notName
    simp only [not_value notNumber notName, reduceCtorEq]

end Token

/-- A step that succeeds hands its value to the next one. -/
theorem bind_eq_ok_iff {ε α β : Type} (first : Except ε α) (next : α → Except ε β) (result : β) :
    (first >>= next) = .ok result ↔ ∃ value, first = .ok value ∧ next value = .ok result := by
  cases first with
  | error reason =>
    constructor
    · intro same
      contradiction
    · rintro ⟨value, same, -⟩
      contradiction
  | ok value =>
    constructor
    · exact fun same => ⟨value, rfl, same⟩
    · rintro ⟨_, same, following⟩
      obtain rfl := Except.ok.inj same
      exact following

theorem Token.selector_eq_ok_iff (token : Token) (labels : Labels) (byte : Byte) :
    token.selector labels = .ok byte ↔ Selector token.symbol byte.val := by
  unfold Token.selector
  split
  · rename_i number numbered
    simp only [Token.value, numbered, Token.fit_eq_ok_iff, selector_number_iff, byte.isLt,
      and_true]
  · rename_i other
    simp only [bind_eq_ok_iff, formatKeywords, Token.keyword_eq_ok_iff lexicon_format,
      selector_iff_keyword other, pure, Except.pure, Except.ok.injEq, Fin.ext_iff]

namespace Statement

variable {labels : Labels} {defined : String → Nat → Prop}
  (agrees : ∀ name address, labels.lookup name = some address ↔ defined name address)

include agrees

/-- The instruction of a statement is held by the number that the rules give it. -/
theorem encodes_of_instruction {statement : Statement} {instruction : Instruction}
    (read : statement.instruction labels = .ok instruction) :
    Encodes defined statement.opcode (statement.operands.map Token.symbol)
      instruction.word.val := by
  unfold Statement.instruction at read
  split at read
  case h_1 target mnemonic operands =>
    simp only [bind_eq_ok_iff, Token.value_eq_ok_iff agrees] at read
    obtain ⟨address, value, same⟩ := read
    obtain rfl := Except.ok.inj same
    rw [mnemonic, operands]
    exact .call value
  case h_2 mnemonic operands =>
    obtain rfl := Except.ok.inj read
    rw [mnemonic, operands]
    exact .bare (.inl rfl)
  case h_3 target source mnemonic operands =>
    simp only [bind_eq_ok_iff, Token.register_eq_ok_iff] at read
    obtain ⟨rd, first, rs, second, same⟩ := read
    obtain rfl := Except.ok.inj same
    rw [mnemonic, operands]
    exact .move first second
  case h_4 target place mnemonic operands | h_5 target place mnemonic operands
      | h_6 target place mnemonic operands | h_11 target place mnemonic operands =>
    simp only [bind_eq_ok_iff, Token.register_eq_ok_iff, Token.value_eq_ok_iff agrees] at read
    obtain ⟨rd, first, address, second, same⟩ := read
    obtain rfl := Except.ok.inj same
    rw [mnemonic, operands]
    exact .addressed (by decide) first second
  case h_7 target source kind chosen mnemonic operands =>
    simp only [bind_eq_ok_iff, Token.register_eq_ok_iff, operationKeywords, destinationKeywords,
      Token.keyword_eq_ok_iff lexicon_operation, Token.keyword_eq_ok_iff lexicon_destination]
      at read
    obtain ⟨operation, third, destination, fourth, rd, first, rs, second, same⟩ := read
    obtain rfl := Except.ok.inj same
    rw [mnemonic, operands]
    exact .arithmetic first second third fourth
  case h_8 source way count mnemonic operands =>
    simp only [bind_eq_ok_iff, Token.register_eq_ok_iff, Token.value_eq_ok_iff agrees,
      directionKeywords, Token.keyword_eq_ok_iff lexicon_direction] at read
    obtain ⟨direction, second, amount, third, rs, first, same⟩ := read
    obtain rfl := Except.ok.inj same
    rw [mnemonic, operands]
    have shape := Encodes.shift first second third
    cases direction <;> exact shape
  case h_9 source mnemonic operands =>
    simp only [bind_eq_ok_iff, Token.register_eq_ok_iff] at read
    obtain ⟨rs, first, same⟩ := read
    obtain rfl := Except.ok.inj same
    rw [mnemonic, operands]
    exact .push first
  case h_10 target mnemonic operands =>
    simp only [bind_eq_ok_iff, Token.register_eq_ok_iff] at read
    obtain ⟨rd, first, same⟩ := read
    obtain rfl := Except.ok.inj same
    rw [mnemonic, operands]
    exact .pop first
  case h_12 source format mnemonic operands =>
    simp only [bind_eq_ok_iff, Token.register_eq_ok_iff, Token.selector_eq_ok_iff] at read
    obtain ⟨selector, second, rs, first, same⟩ := read
    obtain rfl := Except.ok.inj same
    rw [mnemonic, operands]
    exact .output first second
  case h_13 mnemonic operands =>
    obtain rfl := Except.ok.inj read
    rw [mnemonic, operands]
    exact .bare (.inr rfl)
  case h_14 => contradiction

/-- A statement that follows the rules has the instruction of its number. -/
theorem instruction_of_encodes {statement : Statement} {number : Nat}
    (encodes : Encodes defined statement.opcode (statement.operands.map Token.symbol) number) :
    ∃ instruction, statement.instruction labels = .ok instruction ∧
      instruction.word.val = number := by
  obtain ⟨opcode, position, operands⟩ := statement
  dsimp only at encodes
  generalize listed : operands.map Token.symbol = symbols at encodes
  cases encodes with
  | bare alone =>
    obtain rfl := List.map_eq_nil_iff.mp listed
    obtain rfl | rfl := alone
    · exact ⟨.ret, rfl, rfl⟩
    · exact ⟨.halt, rfl, rfl⟩
  | call value =>
    obtain ⟨target, rfl, rfl⟩ := List.map_eq_singleton_iff.mp listed
    refine ⟨.call ⟨_, value.lt⟩, ?_, rfl⟩
    simp only [Statement.instruction, bind_eq_ok_iff, Token.value_eq_ok_iff agrees]
    exact ⟨⟨_, value.lt⟩, value, rfl⟩
  | push first =>
    obtain ⟨source, rfl, rfl⟩ := List.map_eq_singleton_iff.mp listed
    refine ⟨.push _, ?_, rfl⟩
    simp only [Statement.instruction, bind_eq_ok_iff, Token.register_eq_ok_iff]
    exact ⟨_, first, rfl⟩
  | pop first =>
    obtain ⟨target, rfl, rfl⟩ := List.map_eq_singleton_iff.mp listed
    refine ⟨.pop _, ?_, rfl⟩
    simp only [Statement.instruction, bind_eq_ok_iff, Token.register_eq_ok_iff]
    exact ⟨_, first, rfl⟩
  | move first second =>
    obtain ⟨target, _, rfl, rfl, others⟩ := List.map_eq_cons_iff.mp listed
    obtain ⟨source, rfl, rfl⟩ := List.map_eq_singleton_iff.mp others
    refine ⟨.move _ _, ?_, rfl⟩
    simp only [Statement.instruction, bind_eq_ok_iff, Token.register_eq_ok_iff]
    exact ⟨_, first, _, second, rfl⟩
  | addressed alike first second =>
    obtain ⟨target, _, rfl, rfl, others⟩ := List.map_eq_cons_iff.mp listed
    obtain ⟨place, rfl, rfl⟩ := List.map_eq_singleton_iff.mp others
    obtain rfl | rfl | rfl | rfl := alike
    all_goals
      simp only [Statement.instruction, bind_eq_ok_iff, Token.register_eq_ok_iff,
        Token.value_eq_ok_iff agrees]
      exact ⟨_, ⟨_, first, ⟨_, second.lt⟩, second, rfl⟩, rfl⟩
  | arithmetic first second third fourth =>
    obtain ⟨target, _, rfl, rfl, others⟩ := List.map_eq_cons_iff.mp listed
    obtain ⟨source, _, rfl, rfl, more⟩ := List.map_eq_cons_iff.mp others
    obtain ⟨kind, _, rfl, rfl, last⟩ := List.map_eq_cons_iff.mp more
    obtain ⟨chosen, rfl, rfl⟩ := List.map_eq_singleton_iff.mp last
    refine ⟨.arithmetic _ _ _ _, ?_, rfl⟩
    simp only [Statement.instruction, bind_eq_ok_iff, Token.register_eq_ok_iff, operationKeywords,
      destinationKeywords, Token.keyword_eq_ok_iff lexicon_operation,
      Token.keyword_eq_ok_iff lexicon_destination]
    exact ⟨_, third, _, fourth, _, first, _, second, rfl⟩
  | @shift _ _ _ rs direction amount first second third =>
    obtain ⟨source, _, rfl, rfl, others⟩ := List.map_eq_cons_iff.mp listed
    obtain ⟨way, _, rfl, rfl, more⟩ := List.map_eq_cons_iff.mp others
    obtain ⟨count, rfl, rfl⟩ := List.map_eq_singleton_iff.mp more
    refine ⟨.shift rs direction ⟨amount, third.lt⟩, ?_, by cases direction <;> rfl⟩
    simp only [Statement.instruction, bind_eq_ok_iff, Token.register_eq_ok_iff,
      Token.value_eq_ok_iff agrees, directionKeywords, Token.keyword_eq_ok_iff lexicon_direction]
    exact ⟨_, second, ⟨_, third.lt⟩, third, _, first, rfl⟩
  | output first second =>
    obtain ⟨source, _, rfl, rfl, others⟩ := List.map_eq_cons_iff.mp listed
    obtain ⟨format, rfl, rfl⟩ := List.map_eq_singleton_iff.mp others
    refine ⟨.output _ ⟨_, second.lt⟩, ?_, rfl⟩
    simp only [Statement.instruction, bind_eq_ok_iff, Token.register_eq_ok_iff,
      Token.selector_eq_ok_iff]
    exact ⟨⟨_, second.lt⟩, second, _, first, rfl⟩

end Statement

end RegisterMachine.Source
