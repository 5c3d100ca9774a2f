import RegisterMachine.Proofs.Source.Acceptance
import RegisterMachine.Proofs.Source.Seams

/-!
Lines without labels.

The labels in front of a line are deleted, and a label that stands for a value is replaced by its
address in decimal digits. What the line held is then a row without labels that has the same word.
-/

namespace RegisterMachine

/-- The place among the operands that may hold a label, counted from zero. -/
def Opcode.valuePlace? : Opcode → Option Nat
  | .cal => some 0
  | .ldv | .ldr | .ldm | .jlt => some 1
  | .sft => some 2
  | .ret | .mov | .ath | .psh | .pop | .out | .hlt => none

namespace Source

open Grammar

namespace Symbol

/-- A label that is in the table becomes its address. -/
def resolve (table : Labels) : Symbol → Symbol
  | .name label =>
    match table.lookup label with
    | some address => .number address
    | none => .name label
  | symbol => symbol

end Symbol

namespace Piece

def isBlank (piece : Piece) : Bool := piece.lexeme == .blank

/-- Commas do not count as operands. -/
def isOperand (piece : Piece) : Bool :=
  match piece.lexeme with
  | .symbol symbol => symbol != .comma
  | _ => false

def numeral (value : Nat) : Piece :=
  let digits := Nat.toDigits 10 value
  ⟨digits.headD '0', digits.tail, .symbol (.number value)⟩

def resolve (table : Labels) (piece : Piece) : Piece :=
  match piece.lexeme with
  | .symbol (.name label) =>
    match table.lookup label with
    | some address => numeral address
    | none => piece
  | _ => piece

/-- The place of the value after a mnemonic, which may be written in either case. -/
def valuePlace? (piece : Piece) : Option Nat :=
  match piece.lexeme with
  | .symbol (.name written) => (Opcode.ofMnemonic? written.toUpper).bind Opcode.valuePlace?
  | _ => none

end Piece

/-- What follows a name and a colon, which may have blanks between them. -/
def afterLabel? : List Piece → Option (List Piece)
  | [] => none
  | name :: rest =>
    match name.lexeme, rest.dropWhile Piece.isBlank with
    | .symbol (.name _), colon :: after =>
      if colon.lexeme = .symbol .colon then some after else none
    | _, _ => none

theorem length_afterLabel? {pieces after : List Piece} (labelled : afterLabel? pieces = some after) :
    after.length < pieces.length := by
  unfold afterLabel? at labelled
  split at labelled
  · contradiction
  · rename_i name rest
    split at labelled
    · rename_i colon others _ following
      split at labelled
      · obtain rfl := Option.some.inj labelled
        have shorter := List.length_dropWhile_le Piece.isBlank rest
        rw [following, List.length_cons] at shorter
        rw [List.length_cons]
        omega
      · contradiction
    · contradiction

/-- The labels in front of a line are deleted, and its blanks stay. -/
def withoutLabels (pieces : List Piece) : List Piece :=
  pieces.takeWhile Piece.isBlank ++
    match _ : afterLabel? (pieces.dropWhile Piece.isBlank) with
    | some after => withoutLabels after
    | none => pieces.dropWhile Piece.isBlank
termination_by pieces.length
decreasing_by
  rename_i labelled
  have shorter := List.length_dropWhile_le Piece.isBlank pieces
  have following := length_afterLabel? labelled
  omega

/-- The operand in some place is resolved. -/
def resolveOperand (table : Labels) : Nat → List Piece → List Piece
  | _, [] => []
  | place, piece :: rest =>
    if piece.isOperand then
      match place with
      | 0 => piece.resolve table :: rest
      | place + 1 => piece :: resolveOperand table place rest
    else
      piece :: resolveOperand table place rest

/-- Operands without a place for a value stay as they are. -/
def resolveOperands (table : Labels) (place? : Option Nat) (operands : List Piece) : List Piece :=
  match place? with
  | some place => resolveOperand table place operands
  | none => operands

/-- The mnemonic is the first piece of a statement that is not blank. -/
def resolveStatement (table : Labels) (pieces : List Piece) : List Piece :=
  pieces.takeWhile Piece.isBlank ++
    match pieces.dropWhile Piece.isBlank with
    | [] => []
    | mnemonic :: operands => mnemonic :: resolveOperands table mnemonic.valuePlace? operands

def resolveLine (table : Labels) (line : List Char) : List Char :=
  (resolveStatement table (withoutLabels (pieces line))).flatMap Piece.chars

section Blanks

variable {pieces : List Piece} {symbol : Symbol} {later : List (Option Symbol)}

theorem blank_of_takeWhile (pieces : List Piece) :
    ∀ piece ∈ pieces.takeWhile Piece.isBlank, piece.lexeme = .blank := by
  intro piece member
  have blank : piece.isBlank := List.mem_takeWhile_imp member
  exact beq_iff_eq.mp blank

/-- Blanks hold nothing. -/
theorem held_blanks (blanks rest : List Piece) :
    held (blanks.takeWhile Piece.isBlank ++ rest) = held rest := by
  have nothing : held (blanks.takeWhile Piece.isBlank) = [] := by
    rw [held, List.flatMap_eq_nil_iff]
    intro piece member
    rw [blank_of_takeWhile blanks piece member]
    rfl
  rw [held, List.flatMap_append]
  exact congrArg (· ++ held rest) nothing

theorem held_dropWhile (pieces : List Piece) : held (pieces.dropWhile Piece.isBlank) = held pieces := by
  rw [← held_blanks pieces, List.takeWhile_append_dropWhile]

theorem Cut.dropWhile (cut : Cut pieces) : Cut (pieces.dropWhile Piece.isBlank) := by
  rw [← List.takeWhile_append_dropWhile (p := Piece.isBlank) (l := pieces)] at cut
  exact cut.of_append

/-- What stands after the first blanks of a line may be exchanged. -/
theorem Cut.exchange {others : List Piece} (cut : Cut pieces) (other : Cut others) :
    Cut (pieces.takeWhile Piece.isBlank ++ others) := by
  rw [← List.takeWhile_append_dropWhile (p := Piece.isBlank) (l := pieces)] at cut
  exact cut.blanks (blank_of_takeWhile pieces) other

/-- The first symbol of a line is its first piece that is not blank. -/
theorem Cut.first_symbol (cut : Cut pieces) (holds : held pieces = some symbol :: later) :
    ∃ piece rest, pieces.dropWhile Piece.isBlank = piece :: rest ∧
      piece.lexeme = .symbol symbol ∧ held rest = later := by
  rw [← held_dropWhile] at holds
  have following := cut.dropWhile
  cases solid : pieces.dropWhile Piece.isBlank with
  | nil =>
    rw [solid] at holds
    contradiction
  | cons piece rest =>
    rw [solid] at holds following
    rw [held_cons] at holds
    refine ⟨piece, rest, rfl, ?_⟩
    cases lexeme : piece.lexeme with
    | blank =>
      have stopped := List.head?_dropWhile_not Piece.isBlank pieces
      rw [solid] at stopped
      exact absurd (beq_iff_eq.mpr lexeme) (Bool.eq_false_iff.mp stopped)
    | comment =>
      -- Nothing follows a comment, so there is no symbol left.
      rw [following.eq_nil_of_comment lexeme, lexeme] at holds
      contradiction
    | symbol found =>
      rw [lexeme] at holds
      obtain ⟨same, others⟩ := List.cons.inj holds
      exact ⟨congrArg Lexeme.symbol (Option.some.inj same), others⟩
    | misfit text glued =>
      rw [lexeme] at holds
      obtain ⟨same, -⟩ := List.cons.inj holds
      contradiction

end Blanks

section Labels

variable {pieces after : List Piece} {defined : String → Nat → Prop}

/-- A label holds its name and its colon. -/
theorem held_of_afterLabel? (labelled : afterLabel? pieces = some after) :
    ∃ name, held pieces = some (.name name) :: some .colon :: held after := by
  unfold afterLabel? at labelled
  split at labelled
  · contradiction
  · rename_i first rest
    split at labelled
    · rename_i name colon others named following
      split at labelled
      · rename_i marked
        obtain rfl := Option.some.inj labelled
        refine ⟨name, ?_⟩
        rw [held_cons_symbol named, ← held_dropWhile rest, following, held_cons_symbol marked]
      · contradiction
    · contradiction

/-- What holds a name and a colon starts with a label. -/
theorem afterLabel?_of_held {name : String} {later : List (Option Symbol)} (cut : Cut pieces)
    (holds : held pieces = some (.name name) :: some .colon :: later) :
    ∃ after, afterLabel? (pieces.dropWhile Piece.isBlank) = some after ∧ Cut after ∧
      held after = later := by
  obtain ⟨first, rest, opened, named, others⟩ := cut.first_symbol holds
  have cut_first := cut.dropWhile
  rw [opened] at cut_first
  obtain ⟨colon, after, found, marked, remaining⟩ := cut_first.tail.first_symbol others
  have cut_colon := cut_first.tail.dropWhile
  rw [found] at cut_colon
  refine ⟨after, ?_, cut_colon.tail, remaining⟩
  rw [opened, afterLabel?, named, found]
  exact if_pos marked

/-- A line without a label in front stays as it is. -/
theorem withoutLabels_of_plain {symbols : List Symbol} (holds : held pieces = symbols.map some)
    (plain : ∀ name rest, symbols ≠ .name name :: .colon :: rest) :
    withoutLabels pieces = pieces := by
  rw [withoutLabels]
  split
  · rename_i labelled
    obtain ⟨name, opened⟩ := held_of_afterLabel? labelled
    rw [held_dropWhile, holds] at opened
    obtain ⟨first, later, rfl, named, others⟩ := List.map_eq_cons_iff.mp opened
    obtain ⟨second, rest, rfl, marked, -⟩ := List.map_eq_cons_iff.mp others
    rw [Option.some.inj named, Option.some.inj marked] at plain
    exact absurd rfl (plain name rest)
  · exact List.takeWhile_append_dropWhile

theorem withoutLabels_of_some
    (labelled : afterLabel? (pieces.dropWhile Piece.isBlank) = some after) :
    withoutLabels pieces = pieces.takeWhile Piece.isBlank ++ withoutLabels after := by
  rw [withoutLabels]
  congr 1
  split
  · rename_i found
    rw [labelled] at found
    rw [Option.some.inj found]
  · rename_i found
    rw [labelled] at found
    contradiction

/-- A line without its labels holds the row without its labels. -/
theorem held_withoutLabels {symbols : List Symbol} {row : Row}
    (follows : Row.Of defined symbols row) (cut : Cut pieces)
    (holds : held pieces = symbols.map some) :
    Cut (withoutLabels pieces) ∧ ∃ body, held (withoutLabels pieces) = body.map some ∧
      Row.Of defined body ⟨[], row.word?⟩ := by
  induction follows generalizing pieces with
  | empty =>
    rw [withoutLabels_of_plain holds fun _ _ => (List.cons_ne_nil _ _).symm]
    exact ⟨cut, [], holds, .empty⟩
  | @statement written opcode rest word spells encodes =>
    -- No operand is a colon, so the mnemonic is not taken for a label.
    have plain (name : String) (after : List Symbol) :
        Symbol.name written :: rest ≠ .name name :: .colon :: after := by
      intro same
      have colon : Symbol.colon ∈ rest := (List.cons.inj same).2 ▸ List.mem_cons_self
      exact encodes.colon_not_mem (List.mem_filter.mpr ⟨colon, by decide⟩)
    rw [withoutLabels_of_plain holds plain]
    exact ⟨cut, _, holds, .statement spells encodes⟩
  | label tail ih =>
    obtain ⟨after, labelled, cut_after, remaining⟩ := afterLabel?_of_held cut holds
    obtain ⟨cut_later, body, holds_later, follows_later⟩ := ih cut_after remaining
    rw [withoutLabels_of_some labelled]
    refine ⟨?_, body, ?_, follows_later⟩
    · exact cut.exchange cut_later
    · rw [held_blanks]
      exact holds_later

end Labels

section Values

variable {table : Labels}

/-- Every address in the table fits in a numeral. -/
def Labels.Small (table : Labels) : Prop :=
  ∀ label address, table.lookup label = some address → address < numberLimit

theorem chars_numeral (value : Nat) :
    (Piece.numeral value).chars = (Numeral.render 10 value).toList := by
  rw [Numeral.render, String.toList_ofList, Piece.chars, Piece.numeral]
  cases written : Nat.toDigits 10 value with
  | nil => exact absurd written Nat.toDigits_ne_nil
  | cons head tail => rfl

theorem whole_numeral {value : Nat} (small : value < numberLimit) : (Piece.numeral value).Whole where
  read rest allows := by
    rw [chars_numeral]
    exact contents_render small (allows.ends rfl)
  opens_word _ := by
    have digit : (Piece.numeral value).head.isDigit := by
      apply Nat.isDigit_of_mem_toDigits (b := 10) (n := value) (by decide) (by decide)
      cases written : Nat.toDigits 10 value with
      | nil => exact absurd written Nat.toDigits_ne_nil
      | cons head tail => simp [Piece.numeral, written]
    rw [isNameChar, digit]
    rfl

theorem swapped_resolve (small : Labels.Small table) (piece : Piece) :
    Swapped piece (piece.resolve table) := by
  unfold Piece.resolve
  split
  · rename_i label named
    split
    · rename_i address found
      exact .word (by rw [Piece.isWord, named]) rfl (whole_numeral (small label address found))
    · exact .same
  · exact .same

theorem lexeme_resolve {piece : Piece} {symbol : Symbol} (found : piece.lexeme = .symbol symbol) :
    (piece.resolve table).lexeme = .symbol (symbol.resolve table) := by
  unfold Piece.resolve Symbol.resolve
  split
  · rename_i label named
    obtain rfl := Lexeme.symbol.inj (found.symm.trans named)
    dsimp only
    split
    · rfl
    · exact named
  · rename_i other
    split
    · rename_i label
      exact absurd found (other label)
    · exact found

/-- Only a comma is resolved to a comma. -/
theorem Symbol.resolve_ne_comma {symbol : Symbol} (other : symbol ≠ .comma) :
    symbol.resolve table ≠ .comma := by
  unfold Symbol.resolve
  split
  · split <;> exact Symbol.noConfusion
  · exact other

theorem swapped_refl (pieces : List Piece) : List.Forall₂ Swapped pieces pieces :=
  List.forall₂_same.mpr fun _ _ => .same

theorem swapped_resolveOperand (small : Labels.Small table) (place : Nat) (pieces : List Piece) :
    List.Forall₂ Swapped pieces (resolveOperand table place pieces) := by
  induction pieces generalizing place with
  | nil => exact .nil
  | cons piece rest ih =>
    unfold resolveOperand
    split
    · cases place with
      | zero => exact .cons (swapped_resolve small piece) (swapped_refl rest)
      | succ place => exact .cons .same (ih place)
    · exact .cons .same (ih place)

/-- Commas do not move, and the operand in the given place is resolved. -/
theorem held_resolveOperand {pieces : List Piece} {symbols : List Symbol}
    (holds : held pieces = symbols.map some) (place : Nat) :
    ∃ changed : List Symbol, held (resolveOperand table place pieces) = changed.map some ∧
      changed.filter (· ≠ .comma) =
        (symbols.filter (· ≠ .comma)).modify place (Symbol.resolve table) := by
  induction pieces generalizing place symbols with
  | nil =>
    obtain rfl := List.map_eq_nil_iff.mp holds.symm
    exact ⟨[], rfl, (List.modify_nil _ _).symm⟩
  | cons piece rest ih =>
    rw [held_cons] at holds
    unfold resolveOperand
    cases lexeme : piece.lexeme with
    | blank | comment =>
      rw [lexeme] at holds
      obtain ⟨changed, holds_changed, same⟩ := ih holds place
      refine ⟨changed, ?_, same⟩
      rw [if_neg (by simp [Piece.isOperand, lexeme]), held_cons, lexeme, holds_changed]
      rfl
    | symbol symbol =>
      rw [lexeme] at holds
      obtain ⟨first, later, rfl, same, others⟩ := List.map_eq_cons_iff.mp holds.symm
      obtain rfl := Option.some.inj same
      have following : held rest = later.map some := others.symm
      by_cases comma : first = .comma
      · obtain ⟨changed, holds_changed, same⟩ := ih following place
        refine ⟨first :: changed, ?_, ?_⟩
        · rw [if_neg (by simp [Piece.isOperand, lexeme, comma]), held_cons_symbol lexeme,
            holds_changed, List.map_cons]
        · rw [List.filter_cons_of_neg (by simp [comma]), List.filter_cons_of_neg (by simp [comma]),
            same]
      · rw [if_pos (by simp [Piece.isOperand, lexeme, comma]),
          List.filter_cons_of_pos (by simp [comma])]
        cases place with
        | zero =>
          refine ⟨first.resolve table :: later, ?_, ?_⟩
          · rw [held_cons_symbol (lexeme_resolve lexeme), following, List.map_cons]
          · have other : first.resolve table ≠ .comma := Symbol.resolve_ne_comma comma
            rw [List.filter_cons_of_pos (by simp [other])]
            rfl
        | succ place =>
          obtain ⟨changed, holds_changed, same⟩ := ih following place
          refine ⟨first :: changed, ?_, ?_⟩
          · rw [held_cons_symbol lexeme, holds_changed, List.map_cons]
          · rw [List.filter_cons_of_pos (by simp [comma]), same, List.modify_succ_cons]
    | misfit text glued =>
      rw [lexeme] at holds
      obtain ⟨first, later, rfl, same, others⟩ := List.map_eq_cons_iff.mp holds.symm
      contradiction

/-- The operands of an opcode with the label among them resolved. -/
def Symbol.resolveAmong (table : Labels) (place? : Option Nat) (operands : List Symbol) :
    List Symbol :=
  match place? with
  | some place => operands.modify place (Symbol.resolve table)
  | none => operands

theorem held_resolveOperands {pieces : List Piece} {symbols : List Symbol}
    (holds : held pieces = symbols.map some) (place? : Option Nat) :
    ∃ changed : List Symbol, held (resolveOperands table place? pieces) = changed.map some ∧
      changed.filter (· ≠ .comma) =
        Symbol.resolveAmong table place? (symbols.filter (· ≠ .comma)) := by
  cases place? with
  | some place => exact held_resolveOperand holds place
  | none => exact ⟨symbols, holds, rfl⟩

theorem swapped_resolveOperands (small : Labels.Small table) (place? : Option Nat)
    (pieces : List Piece) : List.Forall₂ Swapped pieces (resolveOperands table place? pieces) := by
  cases place? with
  | some place => exact swapped_resolveOperand small place pieces
  | none => exact swapped_refl pieces

/-- A resolved statement may stand as the statement did. -/
theorem Cut.resolveStatement (small : Labels.Small table) {pieces : List Piece}
    (cut : Cut pieces) : Cut (resolveStatement table pieces) := by
  have following := cut.dropWhile
  apply cut.exchange
  cases solid : pieces.dropWhile Piece.isBlank with
  | nil => exact .nil
  | cons mnemonic operands =>
    rw [solid] at following
    exact following.swap (.cons .same (swapped_resolveOperands small _ operands))

/-- The table has the addresses that are defined. -/
def Labels.Knows (table : Labels) (defined : String → Nat → Prop) : Prop :=
  ∀ label address, defined label address → table.lookup label = some address

variable {defined : String → Nat → Prop} (knows : Labels.Knows table defined)

include knows

/-- A value does not depend on the definitions any more once it is resolved. -/
theorem value_resolve {bound value : Nat} {symbol : Symbol}
    (reading : Value defined bound symbol value) (other : String → Nat → Prop) :
    Value other bound (symbol.resolve table) value := by
  cases reading with
  | number small => exact .number small
  | label known small =>
    rw [Symbol.resolve, knows _ _ known]
    exact .number small

/-- Resolved operands stand for the same number, whatever is defined. -/
theorem encodes_resolveAmong {opcode : Opcode} {operands : List Symbol} {number : Nat}
    (encodes : Encodes defined opcode operands number) (other : String → Nat → Prop) :
    Encodes other opcode (Symbol.resolveAmong table opcode.valuePlace? operands) number := by
  cases encodes with
  | bare alone => rcases alone with rfl | rfl <;> exact .bare (by simp)
  | call value => exact .call (value_resolve knows value other)
  | push first => exact .push first
  | pop first => exact .pop first
  | move first second => exact .move first second
  | addressed alike first second =>
    have resolved := value_resolve knows second other
    rcases alike with rfl | rfl | rfl | rfl <;> exact .addressed (by simp) first resolved
  | arithmetic first second third fourth => exact .arithmetic first second third fourth
  | shift first second third => exact .shift first second (value_resolve knows third other)
  | output first second => exact .output first second

/-- A resolved statement holds the same row, whatever is defined. -/
theorem held_resolveStatement {pieces : List Piece} {body : List Symbol} {word? : Option Word}
    (follows : Row.Of defined body ⟨[], word?⟩) (cut : Cut pieces)
    (holds : held pieces = body.map some) :
    ∃ changed : List Symbol, held (resolveStatement table pieces) = changed.map some ∧
      ∀ other, Row.Of other changed ⟨[], word?⟩ := by
  cases follows with
  | empty =>
    refine ⟨[], ?_, fun _ => .empty⟩
    rw [← held_dropWhile] at holds
    rw [resolveStatement, held_blanks]
    cases solid : pieces.dropWhile Piece.isBlank with
    | nil => rfl
    | cons mnemonic operands =>
      -- What is left of a line without symbols is a comment, and it has no place for a value.
      rw [solid, held_cons] at holds
      obtain ⟨silent, nothing⟩ := List.append_eq_nil_iff.mp holds
      have other : mnemonic.valuePlace? = none := by
        unfold Piece.valuePlace?
        split
        · rename_i written named
          rw [named] at silent
          contradiction
        · rfl
      dsimp only
      rw [other, held_cons, silent]
      exact nothing
  | @statement written opcode rest word spells encodes =>
    obtain ⟨mnemonic, operands, opened, named, others⟩ := cut.first_symbol holds
    have found := (ofMnemonic?_toUpper_eq_some_iff written opcode).mpr spells
    have place : mnemonic.valuePlace? = opcode.valuePlace? := by
      rw [Piece.valuePlace?, named]
      exact congrArg (Option.bind · Opcode.valuePlace?) found
    obtain ⟨changed, following, same⟩ := held_resolveOperands others opcode.valuePlace?
    refine ⟨.name written :: changed, ?_, fun other => .statement spells ?_⟩
    · rw [resolveStatement, held_blanks, opened]
      dsimp only
      rw [place, held_cons_symbol named, following, List.map_cons]
    · rw [same]
      exact encodes_resolveAmong knows encodes other

/-- A line in which labels are resolved holds the row without its labels, whatever is defined. -/
theorem contents_resolveLine (small : Labels.Small table) {line : List Char}
    {symbols : List Symbol} {row : Row} (single : '\n' ∉ line)
    (holds : contents line = symbols.map some) (follows : Row.Of defined symbols row) :
    ∃ changed : List Symbol, contents (resolveLine table line) = changed.map some ∧
      ∀ other, Row.Of other changed ⟨[], row.word?⟩ := by
  have readable : none ∉ contents line := by
    rw [holds]
    simp
  have cut := cut_pieces single readable
  obtain ⟨cut_body, body, holds_body, follows_body⟩ := held_withoutLabels follows cut holds
  obtain ⟨changed, holds_changed, follows_changed⟩ :=
    held_resolveStatement knows follows_body cut_body holds_body
  refine ⟨changed, ?_, follows_changed⟩
  rw [resolveLine, (cut_body.resolveStatement small).contents_chars, holds_changed]

end Values

end Source

end RegisterMachine
