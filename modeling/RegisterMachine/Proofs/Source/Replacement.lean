import RegisterMachine.Proofs.Source.Resolution

/-!
Lines that may stand for other lines.

A program does not depend on which lines its rows are on: rows without labels and words may be
added, and a label may be moved to a row of its own right above. Within a line it does not depend on
the commas, nor on the case of any name that is no label.
-/

namespace RegisterMachine.Source.Grammar

/-- Rows with the same words, and with the same labels at the same addresses. -/
structure Alike (rows others : List Row) : Prop where
  words : others.filterMap Row.word? = rows.filterMap Row.word?
  labels : (others.flatMap Row.labels).Perm (rows.flatMap Row.labels)
  defines : ∀ name address, Defines others name address ↔ Defines rows name address

namespace Alike

variable {rows others : List Row}

theorem refl (rows : List Row) : Alike rows rows where
  words := rfl
  labels := .refl _
  defines := fun _ _ => Iff.rfl

/-- Alike rows may have the same row above them. -/
theorem cons (alike : Alike rows others) (row : Row) : Alike (row :: rows) (row :: others) where
  words := by rw [List.filterMap_cons, List.filterMap_cons, alike.words]
  labels := alike.labels.append_left row.labels
  defines := fun name address => by simp only [defines_cons_iff, alike.defines]

theorem append_left (alike : Alike rows others) (above : List Row) :
    Alike (above ++ rows) (above ++ others) := by
  induction above with
  | nil => exact alike
  | cons row above ih => exact ih.cons row

/-- An empty row may stand above others. -/
theorem empty (rows : List Row) : Alike rows (⟨[], none⟩ :: rows) where
  words := rfl
  labels := .refl _
  defines := fun name address => by simp [defines_cons_iff]

/-- A label may have a row of its own. -/
theorem moved (before after : List String) (name : String) (word? : Option Word)
    (rows : List Row) :
    Alike (⟨before ++ name :: after, word?⟩ :: rows)
      (⟨[name], none⟩ :: ⟨before ++ after, word?⟩ :: rows) where
  words := rfl
  labels := List.perm_middle.symm.append_right _
  defines := fun label address => by
    have within : label ∈ before ++ name :: after ↔ label ∈ [name] ∨ label ∈ before ++ after := by
      rw [List.perm_middle.mem_iff, List.mem_cons, List.mem_singleton]
    have same : Defines (⟨[name], none⟩ :: ⟨before ++ after, word?⟩ :: rows) label address ↔
        (label ∈ [name] ∧ address = 0) ∨ Defines (⟨before ++ after, word?⟩ :: rows) label address := by
      rw [defines_cons_iff]
      simp
    rw [same, defines_cons_iff, defines_cons_iff, within, or_and_right, or_assoc]

end Alike

/-- A list that goes with two lists is one list for each of them. -/
theorem exists_append_of_forall₂ {α β : Type} {related : α → β → Prop} {first second : List α}
    {results : List β} (follows : List.Forall₂ related (first ++ second) results) :
    ∃ upper lower, results = upper ++ lower ∧ List.Forall₂ related first upper ∧
      List.Forall₂ related second lower := by
  have flipped := follows.flip
  exact ⟨_, _, (List.take_append_drop first.length results).symm,
    (List.forall₂_take_append _ _ _ flipped).flip, (List.forall₂_drop_append _ _ _ flipped).flip⟩

/-- Symbols that may stand for others: whatever is defined, they have rows when the others do, and
the rows are alike. -/
def Replaces (old new : List Symbol) : Prop :=
  ∀ defined rows, List.Forall₂ (Row.Of defined) (old.splitOn .newline) rows →
    ∃ others, List.Forall₂ (Row.Of defined) (new.splitOn .newline) others ∧ Alike rows others

namespace Replaces

variable {old new : List Symbol}

theorem refl (symbols : List Symbol) : Replaces symbols symbols :=
  fun _ rows follows => ⟨rows, follows, .refl rows⟩

/-- A program is one of any symbols that may stand for its own. -/
theorem derives {program : List Word} (replaces : Replaces old new)
    (derives : Derives old program) : Derives new program := by
  obtain ⟨rows, follows, once, near, words⟩ := derives
  obtain ⟨others, again, alike⟩ := replaces (Defines rows) rows follows
  have defines : Defines rows = Defines others := by
    funext name address
    exact propext (alike.defines name address).symm
  rw [defines] at again near
  exact ⟨others, again, alike.labels.nodup_iff.mpr once, near, alike.words.trans words⟩

/-- The lines above stay as they are. -/
theorem append_left (replaces : Replaces old new) (above : List Symbol) :
    Replaces (above ++ .newline :: old) (above ++ .newline :: new) := by
  intro defined rows follows
  rw [List.splitOn_append_cons_self] at follows ⊢
  obtain ⟨upper, lower, rfl, higher, here⟩ := exists_append_of_forall₂ follows
  obtain ⟨others, again, alike⟩ := replaces defined lower here
  exact ⟨upper ++ others, List.rel_append higher again, alike.append_left upper⟩

/-- An empty line may stand above. -/
theorem newline_cons (symbols : List Symbol) : Replaces symbols (.newline :: symbols) := by
  intro defined rows follows
  rw [← List.nil_append (.newline :: symbols), List.splitOn_append_cons_self]
  exact ⟨⟨[], none⟩ :: rows, .cons .empty follows, .empty rows⟩

/-- An empty line may stand below. -/
theorem concat_newline (symbols : List Symbol) : Replaces symbols (symbols ++ [.newline]) := by
  intro defined rows follows
  rw [List.splitOn_append_cons_self]
  have alike := (Alike.empty []).append_left rows
  rw [List.append_nil] at alike
  exact ⟨rows ++ [⟨[], none⟩], List.rel_append follows (.cons .empty .nil), alike⟩

end Replaces

/-- The labels in front of a line, with their colons. -/
def labelled (names : List String) : List Symbol := names.flatMap fun name => [.name name, .colon]

section Lines

variable {defined : String → Nat → Prop} {line rest old new : List Symbol}

/-- A text starts with its first line. -/
theorem exists_firstLine (symbols : List Symbol) :
    ∃ first lines, symbols.splitOn .newline = first :: lines ∧ first <+: symbols := by
  induction symbols with
  | nil => exact ⟨[], [], rfl, List.prefix_rfl⟩
  | cons symbol symbols ih =>
    obtain ⟨first, lines, cut, start⟩ := ih
    rw [List.splitOn_eq_splitOnP] at cut ⊢
    rw [List.splitOnP_cons_eq_if_modifyHead, cut]
    split
    · exact ⟨[], _, rfl, List.nil_prefix⟩
    · exact ⟨symbol :: first, lines, rfl, (List.prefix_cons_inj symbol).mpr start⟩

/-- What stands in front of a text without a newline is on its first line. -/
theorem splitOn_line_append (single : .newline ∉ line) {first : List Symbol}
    {lines : List (List Symbol)} (cut : rest.splitOn .newline = first :: lines) :
    (line ++ rest).splitOn .newline = (line ++ first) :: lines := by
  induction line with
  | nil => exact cut
  | cons symbol line ih =>
    obtain ⟨other, inside⟩ := not_or.mp (mt List.mem_cons.mpr single)
    have later := ih inside
    rw [List.splitOn_eq_splitOnP] at later ⊢
    rw [List.cons_append, List.splitOnP_cons_eq_if_modifyHead, later,
      if_neg (by simpa using Ne.symm other)]
    rfl

theorem newline_not_mem_labelled (names : List String) : .newline ∉ labelled names := by
  simp [labelled]

/-- Labels in front of a line are labels in front of its row. -/
theorem Row.of_labelled_iff (names : List String) (rest : List Symbol) (row : Row) :
    Row.Of defined (labelled names ++ rest) row ↔
      ∃ tail, Row.Of defined rest tail ∧ row = ⟨names ++ tail.labels, tail.word?⟩ := by
  induction names generalizing row with
  | nil => exact ⟨fun follows => ⟨row, follows, rfl⟩, fun ⟨tail, follows, same⟩ => same ▸ follows⟩
  | cons name names ih =>
    have front : labelled (name :: names) ++ rest =
        .name name :: .colon :: (labelled names ++ rest) := rfl
    rw [front, Row.of_label_iff]
    constructor
    · rintro ⟨middle, follows, rfl⟩
      obtain ⟨tail, further, rfl⟩ := (ih middle).mp follows
      exact ⟨tail, further, rfl⟩
    · rintro ⟨tail, follows, rfl⟩
      exact ⟨_, (ih _).mpr ⟨tail, follows, rfl⟩, rfl⟩

/-- One of the labels in front of a line may have a line of its own. -/
theorem Replaces.moved (before after : List String) (name : String) (rest : List Symbol) :
    Replaces (labelled (before ++ name :: after) ++ rest)
      (labelled [name] ++ .newline :: (labelled (before ++ after) ++ rest)) := by
  intro defined rows follows
  obtain ⟨first, lines, cut, -⟩ := exists_firstLine rest
  rw [splitOn_line_append (newline_not_mem_labelled _) cut] at follows
  rw [List.splitOn_append_cons_self, List.splitOn_eq_singleton (newline_not_mem_labelled _),
    splitOn_line_append (newline_not_mem_labelled _) cut]
  cases follows with
  | @cons _ row _ rows here below =>
    obtain ⟨tail, further, rfl⟩ := (Row.of_labelled_iff _ _ _).mp here
    have alike := Alike.moved before (after ++ tail.labels) name tail.word? rows
    rw [← List.cons_append, ← List.append_assoc, ← List.append_assoc] at alike
    refine ⟨_, .cons (.label .empty) (.cons ?_ below), alike⟩
    exact (Row.of_labelled_iff _ _ _).mpr ⟨tail, further, rfl⟩

/-- The first line may be exchanged for one that has the same row. -/
def Amends (old new : List Symbol) : Prop :=
  ∃ line other lines, old.splitOn .newline = line :: lines ∧
    new.splitOn .newline = other :: lines ∧
      ∀ defined row, Row.Of defined line row → Row.Of defined other row

theorem Amends.replaces (amends : Amends old new) : Replaces old new := by
  obtain ⟨line, other, lines, cut, cutToo, same⟩ := amends
  intro defined rows follows
  rw [cut] at follows
  rw [cutToo]
  refine ⟨rows, ?_, .refl rows⟩
  cases follows with
  | cons here below => exact .cons (same _ _ here) below

theorem Amends.labelled (amends : Amends old new) (names : List String) :
    Amends (labelled names ++ old) (labelled names ++ new) := by
  obtain ⟨line, other, lines, cut, cutToo, same⟩ := amends
  refine ⟨_, _, lines, splitOn_line_append (newline_not_mem_labelled names) cut,
    splitOn_line_append (newline_not_mem_labelled names) cutToo, fun defined row => ?_⟩
  rw [Row.of_labelled_iff, Row.of_labelled_iff]
  rintro ⟨tail, follows, rfl⟩
  exact ⟨tail, same _ _ follows, rfl⟩

end Lines

section Statements

variable {defined : String → Nat → Prop} {written other : String} {rest : List Symbol}

/-- A statement may be exchanged for another one when that has every word that the first can have. -/
theorem amends_statement {operands others : List Symbol} (inside : .newline ∉ operands)
    (insideToo : .newline ∉ others) (bare : ∀ after, operands ++ rest ≠ .colon :: after)
    (each : ∀ defined opcode following number, Spells written opcode.mnemonic →
      Encodes defined opcode ((operands ++ following).filter (· ≠ .comma)) number →
        Spells other opcode.mnemonic ∧
          Encodes defined opcode ((others ++ following).filter (· ≠ .comma)) number) :
    Amends (.name written :: (operands ++ rest)) (.name other :: (others ++ rest)) := by
  obtain ⟨first, lines, cut, start⟩ := exists_firstLine rest
  have single {written : String} {operands : List Symbol} (inside : .newline ∉ operands) :
      .newline ∉ .name written :: operands :=
    List.not_mem_cons_of_ne_of_not_mem Symbol.noConfusion inside
  refine ⟨_, _, lines, splitOn_line_append (single inside) cut,
    splitOn_line_append (single insideToo) cut, fun defined row follows => ?_⟩
  rw [List.cons_append] at follows
  generalize listed : operands ++ first = symbols at follows
  cases follows with
  | statement spells encodes =>
    rw [← listed] at encodes
    obtain ⟨spellsToo, encodesToo⟩ := each _ _ _ _ spells encodes
    exact .statement spellsToo encodesToo
  | @label _ after _ tail =>
    -- A colon after the name would make it a label.
    have colon : .colon :: after <+: operands ++ rest := by
      rw [← listed]
      exact (List.prefix_append_right_inj operands).mpr start
    obtain ⟨left, same⟩ := colon
    exact absurd same.symm (bare _)

/-- A comma may follow a mnemonic or any operand. -/
theorem amends_comma {operands : List Symbol} (inside : .newline ∉ operands)
    (bare : ∀ after, operands ++ rest ≠ .colon :: after) :
    Amends (.name written :: (operands ++ rest)) (.name written :: (operands ++ .comma :: rest)) := by
  have insideToo : .newline ∉ operands ++ [.comma] := by simp [inside]
  have amends := @amends_statement written written rest operands (operands ++ [.comma]) inside
    insideToo bare
  rw [List.append_assoc] at amends
  apply amends
  intro defined opcode following number spells encodes
  rw [List.filter_append] at encodes
  refine ⟨spells, ?_⟩
  rw [List.append_assoc, List.filter_append, List.singleton_append, List.filter_cons_of_neg (by simp)]
  exact encodes

/-- A mnemonic may be written in either case. -/
theorem amends_mnemonic (same : written.toLower = other.toLower)
    (bare : ∀ after, rest ≠ .colon :: after) :
    Amends (.name written :: rest) (.name other :: rest) := by
  apply amends_statement List.not_mem_nil List.not_mem_nil bare
  intro defined opcode following number spells encodes
  exact ⟨same.symm.trans spells, encodes⟩

theorem Keyword.recase {α : Type} {name : α → String} {meaning : α}
    (same : written.toLower = other.toLower) (keyword : Keyword name (.name written) meaning) :
    Keyword name (.name other) meaning := by
  rw [keyword_name_iff] at keyword ⊢
  exact same.symm.trans keyword

theorem Selector.recase {value : Nat} (same : written.toLower = other.toLower)
    (selector : Selector (.name written) value) : Selector (.name other) value := by
  rw [selector_iff_keyword (fun _ => Symbol.noConfusion)] at selector ⊢
  obtain ⟨format, keyword, rfl⟩ := selector
  exact ⟨format, keyword.recase same, rfl⟩

/-- Where no value stands, a name may be written in either case. -/
theorem Encodes.recase {opcode : Opcode} {front back : List Symbol} {number : Nat}
    (same : written.toLower = other.toLower) (place : opcode.valuePlace? ≠ some front.length)
    (encodes : Encodes defined opcode (front ++ .name written :: back) number) :
    Encodes defined opcode (front ++ .name other :: back) number := by
  rcases front with _ | ⟨_, _ | ⟨_, _ | ⟨_, _ | ⟨_, front⟩⟩⟩⟩
  · -- The first operand is changed.
    cases encodes with
    | call => exact absurd rfl place
    | push first => exact .push (first.recase same)
    | pop first => exact .pop (first.recase same)
    | move first second => exact .move (first.recase same) second
    | addressed alike first second => exact .addressed alike (first.recase same) second
    | arithmetic first second third fourth =>
      exact .arithmetic (first.recase same) second third fourth
    | shift first second third => exact .shift (first.recase same) second third
    | output first second => exact .output (first.recase same) second
  · -- The second operand is changed.
    cases encodes with
    | move first second => exact .move first (second.recase same)
    | addressed alike => rcases alike with rfl | rfl | rfl | rfl <;> exact absurd rfl place
    | arithmetic first second third fourth =>
      exact .arithmetic first (second.recase same) third fourth
    | shift first second third => exact .shift first (second.recase same) third
    | output first second => exact .output first (second.recase same)
  · -- The third operand is changed.
    cases encodes with
    | arithmetic first second third fourth =>
      exact .arithmetic first second (third.recase same) fourth
    | shift => exact absurd rfl place
  · -- The fourth operand is changed.
    cases encodes with
    | arithmetic first second third fourth =>
      exact .arithmetic first second third (fourth.recase same)
  · -- No statement has a fifth operand.
    simp only [List.cons_append] at encodes
    generalize listed : front ++ .name written :: back = operands at encodes
    cases encodes
    simp at listed

/-- The name of a register and a keyword may be written in either case. -/
theorem amends_operand {operands : List Symbol} {opcode : Opcode} {mnemonic : String}
    (same : written.toLower = other.toLower) (inside : .newline ∉ operands)
    (spelled : Spells mnemonic opcode.mnemonic)
    (place : opcode.valuePlace? ≠ some (operands.filter (· ≠ .comma)).length)
    (bare : ∀ after, operands ++ .name written :: rest ≠ .colon :: after) :
    Amends (.name mnemonic :: (operands ++ .name written :: rest))
      (.name mnemonic :: (operands ++ .name other :: rest)) := by
  have single (name : String) : .newline ∉ operands ++ [.name name] := by simp [inside]
  have amends := @amends_statement mnemonic mnemonic rest _ _ (single written) (single other)
  simp only [List.append_assoc, List.singleton_append] at amends
  apply amends bare
  intro defined chosen following number spells encodes
  obtain rfl : opcode = chosen := by
    rw [← ofMnemonic?_toUpper_eq_some_iff] at spelled spells
    exact Option.some.inj (spelled.symm.trans spells)
  refine ⟨spells, ?_⟩
  rw [List.filter_append, List.filter_cons_of_pos (by simp)] at encodes ⊢
  exact encodes.recase same place

end Statements

end RegisterMachine.Source.Grammar
