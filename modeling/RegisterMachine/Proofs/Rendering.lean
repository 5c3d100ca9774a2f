import RegisterMachine.Proofs.Machine.Printing
import RegisterMachine.Proofs.Source.NumberGrammar

/-!
What an output prints can be read back.

The digits of a value, after the mark of their base, are source text for that value and nothing
else. They have no superfluous zeros, so no other value has the same digits. A character tells its
value as well, as long as the value is that of a character.
-/

namespace RegisterMachine

open Source

namespace OutputFormat

/-- The formats that print digits, with their base and with the mark that announces it in a source
text. -/
inductive Digital : OutputFormat → Nat → String → Prop where
  | decimal : Digital .decimal 10 ""
  | binary : Digital .binary 2 "0b"
  | hexadecimal : Digital .hexadecimal 16 "0x"

/-- Characters have the values up to the last code point, without the surrogates. -/
def IsScalar (value : Nat) : Prop := value < 0xD800 ∨ 0xDFFF < value ∧ value ≤ 0x10FFFF

/-- What the text of a value tells about the value. -/
structure ReadsBack (value : Nat) : Prop where
  /-- An output shows its register in the format that its selector means. -/
  printed : ∀ (machine : Machine) (word : Word), word.opcode? = some .out →
    machine.registers.read word.rs = value →
      (machine.execute word).events = [.print ((ofSelector word.byte).render value)]
  /-- The digits are read as one number, up to their end. -/
  read : value < numberLimit → ∀ format base mark, Digital format base mark →
    let text := (mark ++ format.render value).toList
    Source.read text =
      ⟨[.token ⟨.first, Position.first.advance text, .number value⟩], Position.first.advance text⟩
  canonical : ∀ format base mark, Digital format base mark →
    Numeral.Canonical base (format.render value).toList ∧
      Numeral.value base (format.render value).toList = value
  /-- No other numeral without superfluous zeros has the value. -/
  unique : ∀ format base mark, Digital format base mark → ∀ digits,
    Numeral.Canonical base digits → Numeral.value base digits = value →
      digits = (format.render value).toList
  injective : ∀ format base mark, Digital format base mark → ∀ other : Nat,
    format.render other = format.render value → other = value
  scalar : IsScalar value → (character.render value).toList.map Char.toNat = [value]
  replaced : ¬ IsScalar value → character.render value = "\uFFFD"
  scalar_injective : IsScalar value → ∀ other, IsScalar other →
    character.render other = character.render value → other = value
  selected : ∀ format : OutputFormat,
    (ofSelector format.selector).render value = format.render value
  /-- Every other selector prints decimal digits. -/
  unassigned : ∀ selector, (∀ format : OutputFormat, selector ≠ format.selector) →
    (ofSelector selector).render value = decimal.render value

section Digits

variable {format : OutputFormat} {base : Nat} {mark : String}

theorem Digital.base_le (digital : Digital format base mark) : 1 < base ∧ base ≤ 16 := by
  cases digital <;> decide

/-- The three formats differ in their base only. -/
theorem Digital.toList_render (digital : Digital format base mark) (value : Nat) :
    (format.render value).toList = Nat.toDigits base value := by
  cases digital <;> exact String.toList_ofList

/-- A digit of a base may stand in a number, and it is no underscore. -/
theorem isNumeralChar_digitChar {digit : Nat} (small : digit < base) (most : base ≤ 16) :
    isNumeralChar base (Nat.digitChar digit) ∧ Nat.digitChar digit ≠ '_' := by
  have table : ∀ digit < 16,
      (Nat.digitChar digit).isAlphanum ∧ Nat.digitChar digit ≠ '_' := by decide
  obtain ⟨legal, other⟩ := table digit (by omega)
  have weight : Numeral.digitValue (Nat.digitChar digit) < base := by
    rwa [Numeral.digitValue_digitChar (by omega)]
  refine ⟨?_, other⟩
  rw [isNumeralChar, Numeral.isDigitOf, legal, decide_eq_true weight]
  rfl

/-- A canonical numeral after the mark of its base is a literal for its value. -/
theorem Digital.numberLiteral (digital : Digital format base mark) {digits : List Char}
    (canonical : Numeral.Canonical base digits) (small : Numeral.value base digits < numberLimit) :
    NumberLiteral (Numeral.value base digits) (mark.toList ++ digits) := by
  obtain ⟨-, most⟩ := digital.base_le
  have legal : ∀ char ∈ digits, isNumeralChar base char ∧ char ≠ '_' := by
    intro char member
    obtain ⟨digit, below, rfl⟩ := canonical.legal char member
    exact isNumeralChar_digitChar below most
  have run : ∀ char ∈ digits, isNumeralChar base char := fun char member => (legal char member).1
  have plain : digits.filter (· != '_') = digits :=
    List.filter_eq_self.mpr fun char member => bne_iff_ne.mpr (legal char member).2
  have marked {letter : Char} (marks : Marks base letter) :
      NumberLiteral (Numeral.value base digits) ('0' :: letter :: digits) := by
    have literal := Literal.marked marks run
    rw [plain] at literal
    exact .literal literal canonical.several rfl small
  cases digital with
  | decimal =>
    cases digits with
    | nil => exact absurd rfl canonical.several
    | cons head tail =>
      obtain ⟨digit, below, first⟩ := canonical.legal head List.mem_cons_self
      have table : ∀ digit < 10, (Nat.digitChar digit).isDigit := by decide
      have leads : head.isDigit := first ▸ table digit below
      have literal := Literal.decimal leads (List.forall_mem_cons.mp run).2
      rw [plain] at literal
      exact .literal literal canonical.several rfl small
  | binary => exact marked .binary
  | hexadecimal => exact marked .hexadecimal

end Digits

end OutputFormat

namespace Source

/-- A literal for a number is read as that number, and nothing is left. -/
theorem NumberLiteral.read {number : Nat} {word : List Char} (written : NumberLiteral number word) :
    read word =
      ⟨[.token ⟨.first, Position.first.advance word, .number number⟩],
        Position.first.advance word⟩ := by
  have items : (Source.read word).items =
      [.token ⟨.first, Position.first.advance word, .number number⟩] := by
    cases written with
    | literal literal several same small =>
      cases word with
      | nil => exact absurd rfl literal.ne_nil
      | cons head tail =>
        have digit : head.isDigit := by
          cases literal with
          | decimal digit => exact digit
          | marked => rfl
        have inner := (List.forall_mem_cons.mp literal.isNameChar).2
        have itemized := itemized_of_digit digit inner ends_nil .first
        rw [List.append_nil] at itemized
        change itemsFrom .first (pieces (head :: tail)) = _
        generalize itemsFrom .first (pieces (head :: tail)) = items at itemized
        cases itemized with
        | number again =>
          obtain ⟨-, rfl, -⟩ := again.number_eq literal
          rw [same, pieces]
          rfl
        | misfit unread => exact absurd (.literal literal several same small) (unread number)
  have whole : Source.read word = ⟨(Source.read word).items, (Source.read word).stop⟩ := rfl
  rw [whole, items, stop_read]

end Source

namespace OutputFormat

section Characters

variable {value : Nat}

theorem toNat_scalar (valid : IsScalar value) : (scalar value).toNat = value := by
  have inside : value.isValidChar := by
    unfold IsScalar at valid
    unfold Nat.isValidChar
    omega
  rw [scalar, if_pos inside, Char.ofNat, dif_pos inside]
  rfl

theorem scalar_of_not (invalid : ¬ IsScalar value) : scalar value = '\uFFFD' := by
  have outside : ¬ value.isValidChar := by
    unfold IsScalar at invalid
    unfold Nat.isValidChar
    omega
  rw [scalar, if_neg outside]

theorem toList_render_character (value : Nat) :
    (character.render value).toList = [scalar value] :=
  String.toList_singleton (scalar value)

end Characters

/-- Every value can be told from the digits that are printed for it, and every value of a character
from the character. -/
theorem outputs_read_back (value : Nat) : ReadsBack value where
  printed machine word printing held := by
    rw [machine.events_output printing, Machine.printed, held]
  read small format base mark digital := by
    obtain ⟨least, most⟩ := digital.base_le
    have weight := Numeral.value_toDigits least most value
    have written := digital.numberLiteral (Numeral.canonical_toDigits least most value)
      (weight.symm ▸ small)
    rw [weight] at written
    rw [String.toList_append, digital.toList_render]
    exact written.read
  canonical format base mark digital := by
    obtain ⟨least, most⟩ := digital.base_le
    rw [digital.toList_render]
    exact ⟨Numeral.canonical_toDigits least most value, Numeral.value_toDigits least most value⟩
  unique format base mark digital digits canonical same := by
    obtain ⟨least, most⟩ := digital.base_le
    rw [digital.toList_render, ← same]
    exact canonical.eq_toDigits least most
  injective format base mark digital other same := by
    obtain ⟨least, most⟩ := digital.base_le
    have digits : Nat.toDigits base other = Nat.toDigits base value := by
      rw [← digital.toList_render, ← digital.toList_render, same]
    rw [← Numeral.value_toDigits least most other, digits, Numeral.value_toDigits least most]
  scalar valid := by
    rw [toList_render_character, List.map_singleton, toNat_scalar valid]
  replaced invalid := by
    rw [render, scalar_of_not invalid]
    rfl
  scalar_injective valid other validToo same := by
    have chars := congrArg String.toList same
    rw [toList_render_character, toList_render_character, List.singleton_inj] at chars
    rw [← toNat_scalar validToo, chars, toNat_scalar valid]
  selected format := by
    rw [ofSelector_selector]
  unassigned selector other := by
    have plain : ofSelector selector = .decimal := by
      unfold ofSelector
      split
      · exact absurd rfl (other .binary)
      · exact absurd rfl (other .hexadecimal)
      · exact absurd rfl (other .character)
      · rfl
    rw [plain]

/-- The largest value is read back from its bits, and a surrogate is not told from another one. -/
example : binary.render 4294967295 = "11111111111111111111111111111111" ∧
    hexadecimal.render 4294967295 = "ffffffff" ∧
      character.render 0xD800 = character.render 0xDFFF := by
  decide +kernel

end OutputFormat

end RegisterMachine
