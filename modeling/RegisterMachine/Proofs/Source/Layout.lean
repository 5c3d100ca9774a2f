import RegisterMachine.Proofs.Source.Junctions
import RegisterMachine.Proofs.Source.Replacement
import RegisterMachine.Proofs.Source.Unlabelled
import Mathlib.Logic.Relation

/-!
The layout of a text.

Blanks, comments and empty lines, commas among the operands, the case of mnemonics, registers and
keywords, the way in which a number is written and the line on which a label stands can be changed.
No number of such changes changes the program.
-/

namespace RegisterMachine.Source

open Grammar

/-- The same letters, some of them in the other case. -/
def Recased (written other : List Char) : Prop := written.map Char.toLower = other.map Char.toLower

/-- Labels with their colons, and blanks around them. -/
inductive Prefixes : List String → List Char → Prop where
  | done : Prefixes [] []
  | blank {names : List String} {gap : Char} {text : List Char} (blank : isGap gap)
      (others : Prefixes names text) : Prefixes names (gap :: text)
  | label {names : List String} {name gaps text : List Char} (valid : isName name)
      (blank : ∀ gap ∈ gaps, isGap gap) (others : Prefixes names text) :
      Prefixes (String.ofList name :: names) (name ++ (gaps ++ ':' :: text))

/-- A line of blanks, with a comment after them or without one. -/
inductive Vacant : List Char → Prop where
  | blank {gaps : List Char} (blank : ∀ gap ∈ gaps, isGap gap) : Vacant gaps
  | comment {gaps body : List Char} {mark : Char} (blank : ∀ gap ∈ gaps, isGap gap)
      (opens : mark = ';' ∨ mark = '#') (single : '\n' ∉ body) : Vacant (gaps ++ mark :: body)

/-- The number of operands in a part of a line, which commas do not count as. -/
def operandCount (part : List Char) : Nat := ((contents part).filter (· ≠ some .comma)).length

/-- Changes of a statement, in a text that starts with its mnemonic. -/
inductive StatementEdit : List Char → List Char → Prop where
  | mnemonic {written other rest : List Char} (valid : isName written) (ends : Ends rest)
      (same : Recased written other) : StatementEdit (written ++ rest) (other ++ rest)
  /-- A comma comes after the mnemonic on the same line, and neither within a word nor within a
  comment. -/
  | comma {mnemonic before after : List Char} (valid : isName mnemonic)
      (ends : Ends (before ++ after)) (single : '\n' ∉ before) (plain : Uncommented before)
      (apart : Apart before after) :
      StatementEdit (mnemonic ++ (before ++ after)) (mnemonic ++ (before ++ ',' :: after))
  /-- The name of a register or a keyword is an operand in a place where no value stands. -/
  | operand {mnemonic before written other after : List Char} {opcode : Opcode}
      (valid : isName mnemonic) (spells : Spells (String.ofList mnemonic) opcode.mnemonic)
      (filled : before ≠ []) (ends : Ends before) (single : '\n' ∉ before)
      (plain : Uncommented before) (begins : Begins before) (validToo : isName written)
      (endsToo : Ends after) (place : opcode.valuePlace? ≠ some (operandCount before))
      (same : Recased written other) :
      StatementEdit (mnemonic ++ (before ++ (written ++ after)))
        (mnemonic ++ (before ++ (other ++ after)))

/-- Changes of a text from the start of a line on. -/
inductive LineEdit : List Char → List Char → Prop where
  /-- A name with a colon after it is no mnemonic. -/
  | statement {names : List String} {front old new : List Char} (labels : Prefixes names front)
      (bare : (contents old)[1]? ≠ some (some .colon)) (edit : StatementEdit old new) :
      LineEdit (front ++ old) (front ++ new)
  /-- One of the labels of the line is moved to a line of its own above it. -/
  | label {before after : List String} {name : String} {front own others : List Char}
      (labels : Prefixes (before ++ name :: after) front) (moved : Prefixes [name] own)
      (left : Prefixes (before ++ after) others) (rest : List Char) :
      LineEdit (front ++ rest) (own ++ '\n' :: (others ++ rest))
  | vacant {line : List Char} (vacant : Vacant line) (rest : List Char) :
      LineEdit rest (line ++ '\n' :: rest)

/-- Changes of a text that leave its program as it is. -/
inductive Edit : List Char → List Char → Prop where
  /-- A blank comes anywhere but within a word. -/
  | blank {before after : List Char} {gap : Char} (blank : isGap gap) (apart : Apart before after) :
      Edit (before ++ after) (before ++ gap :: after)
  /-- A comment comes where only blanks are left of a line. -/
  | comment {before gaps body rest : List Char} {mark : Char} (opens : mark = ';' ∨ mark = '#')
      (single : '\n' ∉ body) (blank : ∀ gap ∈ gaps, isGap gap) (stops : Stops (· != '\n') rest) :
      Edit (before ++ (gaps ++ rest)) (before ++ (mark :: body ++ (gaps ++ rest)))
  /-- A number is written in another way. -/
  | number {before written other after digits others : List Char} {base otherBase : Nat}
      (begins : Begins before) (literal : Literal written base digits) (several : digits ≠ [])
      (again : Literal other otherBase others) (severalToo : others ≠ []) (ends : Ends after)
      (same : Numeral.value base digits = Numeral.value otherBase others) :
      Edit (before ++ (written ++ after)) (before ++ (other ++ after))
  | line {above old new : List Char} (starts : EndsLine above) (edit : LineEdit old new) :
      Edit (above ++ old) (above ++ new)
  /-- An empty line comes below the last one. -/
  | last {line : List Char} (text : List Char) (vacant : Vacant line) :
      Edit text (text ++ '\n' :: line)

section Recasing

variable {written other : List Char}

theorem isNameStart_toLower (char : Char) : isNameStart char.toLower = isNameStart char := by
  have alpha (char : Char) : char.isAlpha = (char.isUpper || char.isLower) := rfl
  rw [Bool.eq_iff_iff]
  simp only [isNameStart, alpha, Bool.or_eq_true, Text.isUpper_iff, Text.isLower_iff, beq_iff_eq,
    ← Char.toNat_inj, Text.toNat_toLower, Char.reduceToNat]
  split <;> omega

theorem isNameChar_toLower (char : Char) : isNameChar char.toLower = isNameChar char := by
  have digit : char.toLower.isDigit = char.isDigit := by
    rw [Bool.eq_iff_iff]
    simp only [Char.isDigit_iff_toNat, Text.toNat_toLower, Char.reduceToNat]
    split <;> omega
  rw [isNameChar, isNameChar, digit, isNameStart_toLower]

theorem isName_map_toLower (chars : List Char) : isName (chars.map Char.toLower) = isName chars := by
  cases chars with
  | nil => rfl
  | cons head tail =>
    simp only [List.map_cons, isName, List.all_map, isNameStart_toLower, Function.comp_def,
      isNameChar_toLower]

/-- A name in another case is a name. -/
theorem Recased.isName (same : Recased written other) (valid : isName written) : isName other := by
  rw [← isName_map_toLower, ← same, isName_map_toLower]
  exact valid

theorem Recased.toLower (same : Recased written other) :
    (String.ofList written).toLower = (String.ofList other).toLower := by
  have lower (chars : List Char) :
      (String.ofList chars).toLower = String.ofList (chars.map Char.toLower) := by
    apply String.toList_inj.mp
    rw [String.toList_ofList]
    exact String.toList_map.trans (by rw [String.toList_ofList])
  rw [lower, lower, same]

end Recasing

section Contents

variable {names : List String} {front gaps rest line : List Char}

theorem Ends.append (ends : Ends line) (filled : line ≠ []) (rest : List Char) :
    Ends (line ++ rest) := by
  cases line with
  | nil => contradiction
  | cons next line => exact ends

/-- Blanks end a name where the text after them does. -/
theorem ends_gaps (blank : ∀ gap ∈ gaps, isGap gap) (ends : Ends rest) : Ends (gaps ++ rest) := by
  cases gaps with
  | nil => exact ends
  | cons gap gaps => exact ends_cons (isNameChar_of_gap (blank gap List.mem_cons_self)) _

theorem contents_colon (rest : List Char) : contents (':' :: rest) = some .colon :: contents rest := by
  rw [contents_cons]
  rfl

theorem contents_comma (rest : List Char) : contents (',' :: rest) = some .comma :: contents rest := by
  rw [contents_cons]
  rfl

/-- Labels are read as labels. -/
theorem contents_prefixes (labels : Prefixes names front) (rest : List Char) :
    contents (front ++ rest) = (labelled names).map some ++ contents rest := by
  induction labels with
  | done => rfl
  | blank blank _ ih => rw [List.cons_append, contents_gap blank, ih]
  | @label names name gaps text valid blank _ ih =>
    have ends : Ends (gaps ++ (':' :: text ++ rest)) := ends_gaps blank (ends_cons (by decide) _)
    rw [List.append_assoc, List.append_assoc, contents_name valid ends, contents_gaps blank,
      List.cons_append, contents_colon, ih]
    rfl

theorem contents_vacant (vacant : Vacant line) : contents line = [] := by
  cases vacant with
  | @blank gaps blank =>
    have gone := contents_gaps blank []
    rwa [List.append_nil, contents_nil] at gone
  | @comment gaps body mark blank opens single =>
    have gone := contents_comment opens single []
    rw [List.append_nil] at gone
    rw [contents_gaps blank, gone]
    exact contents_nil

end Contents

section Holding

variable {before after name rest : List Char} {symbols : List Symbol}

theorem holds_append (plain : Uncommented before) (apart : Apart before after)
    (holds : contents (before ++ after) = symbols.map some) :
    ∃ first second, symbols = first ++ second ∧ contents before = first.map some ∧
      contents after = second.map some := by
  rw [contents_append plain apart] at holds
  obtain ⟨first, second, rfl, former, latter⟩ := List.map_eq_append_iff.mp holds.symm
  exact ⟨first, second, rfl, former.symm, latter.symm⟩

theorem holds_name (valid : isName name) (ends : Ends rest)
    (holds : contents (name ++ rest) = symbols.map some) :
    ∃ tail, symbols = .name (String.ofList name) :: tail ∧ contents rest = tail.map some := by
  rw [contents_name valid ends] at holds
  obtain ⟨_, tail, rfl, named, later⟩ := List.map_eq_cons_iff.mp holds.symm
  obtain rfl := Option.some.inj named
  exact ⟨tail, rfl, later.symm⟩

theorem holds_prefixes {names : List String} {front : List Char} (labels : Prefixes names front)
    (holds : contents (front ++ rest) = symbols.map some) :
    ∃ tail, symbols = labelled names ++ tail ∧ contents rest = tail.map some := by
  rw [contents_prefixes labels] at holds
  obtain ⟨first, tail, rfl, former, latter⟩ := List.map_eq_append_iff.mp holds.symm
  obtain rfl := (List.map_inj_right fun _ _ same => Option.some.inj same).mp former
  exact ⟨tail, rfl, latter.symm⟩

/-- A part of a line holds no newline. -/
theorem newline_not_mem_of_holds (single : '\n' ∉ before)
    (holds : contents before = symbols.map some) : .newline ∉ symbols := by
  intro member
  have found : some .newline ∈ contents before := holds ▸ List.mem_map_of_mem member
  exact newline_not_mem_contents single found

end Holding

/-- A statement that is changed has the row that it had. -/
theorem StatementEdit.amends {old new : List Char} {symbols : List Symbol}
    (edit : StatementEdit old new) (holds : contents old = symbols.map some)
    (bare : (contents old)[1]? ≠ some (some .colon)) :
    ∃ others, contents new = others.map some ∧ Amends symbols others := by
  have unlabelled {name : String} {tail : List Symbol} (named : symbols = .name name :: tail)
      (after : List Symbol) : tail ≠ .colon :: after := by
    rintro rfl
    rw [holds, named] at bare
    exact bare rfl
  cases edit with
  | @mnemonic written other rest valid ends same =>
    obtain ⟨tail, rfl, later⟩ := holds_name valid ends holds
    refine ⟨_, ?_, amends_mnemonic same.toLower (unlabelled rfl)⟩
    rw [contents_name (same.isName valid) ends, later]
    rfl
  | @comma mnemonic before after valid ends single plain apart =>
    obtain ⟨tail, rfl, later⟩ := holds_name valid ends holds
    obtain ⟨operands, rest, rfl, first, second⟩ := holds_append plain apart later
    refine ⟨_, ?_, amends_comma (newline_not_mem_of_holds single first) (unlabelled rfl)⟩
    have comma : Ends (',' :: after) := ends_cons (by decide) after
    have endsToo : Ends (before ++ ',' :: after) := by
      cases before with
      | nil => exact comma
      | cons next before => exact ends
    rw [contents_name valid endsToo, contents_append plain (.inr comma), contents_comma, first,
      second]
    simp
  | @operand mnemonic before written other after opcode valid spells filled ends single plain
      begins validToo endsToo place same =>
    have ends (rest : List Char) : Ends (before ++ rest) := ends.append filled rest
    obtain ⟨tail, rfl, later⟩ := holds_name valid (ends _) holds
    obtain ⟨operands, rest, rfl, first, second⟩ := holds_append plain (.inl begins) later
    obtain ⟨rest, rfl, third⟩ := holds_name validToo endsToo second
    refine ⟨_, ?_, amends_operand same.toLower (newline_not_mem_of_holds single first) spells ?_
      (unlabelled rfl)⟩
    · rw [contents_name valid (ends _), contents_append plain (.inl begins),
        contents_name (same.isName validToo) endsToo, first, third]
      simp
    · have count : operandCount before = (operands.filter (· ≠ .comma)).length := by
        simp [operandCount, first, List.filter_map, Function.comp_def]
      rwa [← count]

/-- What the new text holds may stand for what the old one holds. -/
def Keeps (old new : List Char) : Prop :=
  ∀ symbols, contents old = symbols.map some →
    ∃ others, contents new = others.map some ∧ Replaces symbols others

theorem Keeps.of_contents {old new : List Char} (same : contents old = contents new) :
    Keeps old new :=
  fun symbols holds => ⟨symbols, same ▸ holds, .refl symbols⟩

theorem Keeps.above {above old new : List Char} (keeps : Keeps old new) (starts : EndsLine above) :
    Keeps (above ++ old) (above ++ new) := by
  rcases List.eq_nil_or_concat above with rfl | ⟨lines, last, rfl⟩
  · exact keeps
  · obtain rfl := starts last (by simp)
    intro symbols holds
    rw [List.concat_append, contents_append_newline] at holds ⊢
    obtain ⟨upper, lower, rfl, higher, here⟩ := List.map_eq_append_iff.mp holds.symm
    obtain ⟨_, following, rfl, named, later⟩ := List.map_eq_cons_iff.mp here
    obtain rfl := Option.some.inj named
    obtain ⟨others, again, replaces⟩ := keeps following later.symm
    refine ⟨upper ++ .newline :: others, ?_, replaces.append_left upper⟩
    rw [again, ← higher, List.map_append]
    rfl

theorem LineEdit.keeps {old new : List Char} (edit : LineEdit old new) : Keeps old new := by
  intro symbols holds
  cases edit with
  | @statement names front old new labels bare edit =>
    obtain ⟨tail, rfl, later⟩ := holds_prefixes labels holds
    obtain ⟨others, again, amends⟩ := edit.amends later bare
    refine ⟨labelled names ++ others, ?_, (amends.labelled names).replaces⟩
    rw [contents_prefixes labels, again, List.map_append]
  | @label before after name front own others labels moved left rest =>
    obtain ⟨tail, rfl, later⟩ := holds_prefixes labels holds
    have alone := contents_prefixes moved []
    rw [List.append_nil, contents_nil, List.append_nil] at alone
    refine ⟨_, ?_, .moved before after name tail⟩
    rw [contents_append_newline, alone, contents_prefixes left, later]
    simp
  | @vacant line vacant rest =>
    refine ⟨.newline :: symbols, ?_, .newline_cons symbols⟩
    rw [contents_append_newline, contents_vacant vacant, holds]
    rfl

/-- A literal is read as its value, or not at all, whatever its base is. -/
theorem contents_literal {slice digits rest : List Char} {base : Nat}
    (literal : Literal slice base digits) (several : digits ≠ []) (ends : Ends rest) :
    contents (slice ++ rest) =
      (if Numeral.value base digits < numberLimit then some (.number (Numeral.value base digits))
        else none) :: contents rest := by
  obtain ⟨head, tail, rfl⟩ := List.exists_cons_of_ne_nil literal.ne_nil
  have first {lexeme : Lexeme} (reads : Literal.Reads base digits rest lexeme) :
      contents (head :: tail ++ rest) = lexeme.contents ++ contents rest := by
    have piece := firstPiece_of_literal literal (longest_of_ends ends _) reads
    rw [List.cons_append, contents_cons, piece, List.drop_left]
  by_cases small : Numeral.value base digits < numberLimit
  · rw [first (.number several small ends), if_pos small]
    rfl
  · rw [first (.worthless (.inr (Nat.le_of_not_lt small)) ends), if_neg small]
    rfl

theorem Edit.keeps {old new : List Char} (edit : Edit old new) : Keeps old new := by
  cases edit with
  | @blank before after gap blank apart =>
    refine .of_contents (contents_replace apart ?_ ?_ ?_)
    · exact .inr (ends_cons (isNameChar_of_gap blank) after)
    · exact (contents_gap blank after).symm
    · have single : '\n' ∉ [gap] := newline_not_mem_gaps (List.forall_mem_singleton.mpr blank)
      exact congrArg contents (below_append single after).symm
  | @comment before gaps body rest mark opens single blank stops =>
    have ends : Ends rest := fun next member => by
      obtain rfl : next = '\n' := by simpa using stops next member
      decide
    have under : below (gaps ++ rest) = rest := by
      rw [below_append (newline_not_mem_gaps blank), below_of_stops stops]
    refine .of_contents (contents_replace (.inr (ends_gaps blank ends)) ?_ ?_ ?_)
    · exact .inr (ends_cons (isNameChar_of_mark opens) _)
    · rw [contents_comment opens single, under, contents_gaps blank]
    · rw [below_append (newline_not_mem_comment opens single)]
  | @number before written other after digits others base otherBase begins literal several again
      severalToo ends same =>
    have single {slice digits : List Char} {base : Nat} (literal : Literal slice base digits) :
        '\n' ∉ slice := newline_not_mem_word literal.isNameChar
    refine .of_contents (contents_replace (.inl begins) (.inl begins) ?_ ?_)
    · rw [contents_literal literal several ends, contents_literal again severalToo ends, same]
    · rw [below_append (single literal), below_append (single again)]
  | line starts edit => exact edit.keeps.above starts
  | @last line text vacant =>
    intro symbols holds
    refine ⟨symbols ++ [.newline], ?_, .concat_newline symbols⟩
    rw [contents_append_newline, contents_vacant vacant, holds, List.map_append]
    rfl

/-- Any number of changes to the layout of a text leave its program as it is. -/
theorem layout_irrelevant {text other : String} {program : List Word}
    (assembled : (assemble text).program? = some program)
    (edited : Relation.ReflTransGen Edit text.toList other.toList) :
    (assemble other).program? = some program := by
  rw [program?_eq_some_iff_contents] at assembled ⊢
  generalize other.toList = changed at edited ⊢
  induction edited with
  | refl => exact assembled
  | tail _ edit ih =>
    obtain ⟨symbols, holds, derives⟩ := ih
    obtain ⟨others, again, replaces⟩ := edit.keeps symbols holds
    exact ⟨others, again, replaces.derives derives⟩

/-- A label is moved, a mnemonic and a register are written in small letters, and a comma, another
base and a comment are added. -/
theorem layout_irrelevant_tidied :
    (assemble "g:LDV A 1").program? = some [67] ∧
      (assemble "g:\nldv a, 0X_1;h").program? = some [67] := by
  have assembled : (assemble "g:LDV A 1").program? = some [67] := by decide +kernel
  refine ⟨assembled, layout_irrelevant assembled ?_⟩
  show Relation.ReflTransGen Edit ['g', ':', 'L', 'D', 'V', ' ', 'A', ' ', '1']
    ['g', ':', '\n', 'l', 'd', 'v', ' ', 'a', ',', ' ', '0', 'X', '_', '1', ';', 'h']
  have start : EndsLine ['g', ':', '\n'] := by simp [EndsLine]
  have space : Begins [' '] := by simp [Begins, isNameChar, isNameStart]
  have ends (rest : List Char) : Ends (' ' :: rest) := ends_cons (by decide) rest
  have label : Prefixes [String.ofList ['g']] ['g', ':'] :=
    @Prefixes.label [] ['g'] [] [] (by decide) (List.forall_mem_nil _) .done
  have moved := @Edit.line [] _ _ endsLine_nil
    (@LineEdit.label [] [] _ _ _ [] label label .done ['L', 'D', 'V', ' ', 'A', ' ', '1'])
  have mnemonic := @StatementEdit.mnemonic ['L', 'D', 'V'] ['l', 'd', 'v'] [' ', 'A', ' ', '1']
    (by decide) (ends _) rfl
  have operand := @StatementEdit.operand ['l', 'd', 'v'] [' '] ['A'] ['a'] [' ', '1'] .ldv
    (by decide) (@Recased.toLower ['l', 'd', 'v'] ['L', 'D', 'V'] rfl) (by decide) (ends _)
    (by decide) (by simp [Uncommented]) space (by decide) (ends _) (by decide +kernel) rfl
  have comma := @StatementEdit.comma ['l', 'd', 'v'] [' ', 'a'] [' ', '1'] (by decide) (ends _)
    (by decide) (by simp [Uncommented]) (.inr (ends _))
  have number := @Edit.number ['g', ':', '\n', 'l', 'd', 'v', ' ', 'a', ',', ' '] ['1']
    ['0', 'X', '_', '1'] [] ['1'] ['1'] 10 16 space (.decimal (by decide) (List.forall_mem_nil _))
    (by decide) (.marked .upperHexadecimal (List.all_eq_true.mp (by decide))) (by decide) ends_nil rfl
  have comment := @Edit.comment ['g', ':', '\n', 'l', 'd', 'v', ' ', 'a', ',', ' ', '0', 'X', '_', '1']
    [] ['h'] [] ';' (.inl rfl) (by decide) (List.forall_mem_nil _) (by simp [Stops])
  have within {old new : List Char} (bare : (contents old)[1]? ≠ some (some .colon))
      (edit : StatementEdit old new) : Edit ('g' :: ':' :: '\n' :: old) ('g' :: ':' :: '\n' :: new) :=
    @Edit.line ['g', ':', '\n'] _ _ start (@LineEdit.statement [] [] _ _ .done bare edit)
  exact .tail (.tail (.tail (.tail (.tail (.single moved)
    (within (by decide +kernel) mnemonic)) (within (by decide +kernel) operand))
      (within (by decide +kernel) comma)) number) comment

end RegisterMachine.Source
