import RegisterMachine.CommandLine.Execution
import RegisterMachine.Proofs.Source.HexGrammar

/-!
The numbers among the options of a run.

A size or a budget is written in decimal digits, with a plus sign in front of them or none, and it
has to fit in its type. The sizes are all looked at, and each one that is no number is reported.
-/

namespace RegisterMachine.CommandLine

/-- The text is a number below the limit. -/
inductive Numbered (limit : Nat) (text : String) (number : Nat) : Prop where
  | digits {sign digits : List Char} (signs : sign = [] ∨ sign = ['+'])
      (spelled : text.toList = sign ++ digits) (several : digits ≠ [])
      (legal : ∀ char ∈ digits, char.isDigit) (same : Numeral.value 10 digits = number)
      (small : number < limit)

/-- The number of an option, which has a default. -/
inductive Given (limit default : Nat) : Option String → Nat → Prop where
  | absent : Given limit default none default
  | present {text : String} {number : Nat} (numbered : Numbered limit text number) :
      Given limit default (some text) number

/-- The text that was given for the number of an option. -/
structure NumberText where
  name : String
  limit : Nat
  text : String

namespace NumberText

def Unreadable (given : NumberText) : Prop :=
  ∀ number, ¬ Numbered given.limit given.text number

def report (given : NumberText) : Record := .badNumber given.name given.text

end NumberText

section Reading

variable {limit number : Nat} {text : String}

/-- A number is read exactly when the text is one. -/
theorem unsigned?_iff_numbered (limit : Nat) (text : String) (number : Nat) :
    (∃ value : Fin limit, Numeral.unsigned? 10 limit text.toList = some value ∧
      value.val = number) ↔ Numbered limit text number := by
  simp only [Source.HexWords.unsigned?_eq_some_iff, Numeral.ofDigits?_eq_some_iff,
    List.all_eq_true, Source.isDigitOf_ten_iff]
  constructor
  · rintro ⟨value, ⟨sign, digits, signs, spelled, ⟨several, legal⟩, same⟩, rfl⟩
    exact .digits signs spelled several legal same value.isLt
  · rintro ⟨signs, spelled, several, legal, same, small⟩
    exact ⟨⟨number, small⟩, ⟨_, _, signs, spelled, ⟨several, legal⟩, same⟩, rfl⟩

theorem unsigned?_eq_none_iff (limit : Nat) (text : String) :
    Numeral.unsigned? 10 limit text.toList = none ↔ ∀ number, ¬ Numbered limit text number := by
  simp only [← unsigned?_iff_numbered, not_exists, not_and]
  constructor
  · intro unread number value read
    rw [unread] at read
    contradiction
  · intro unread
    cases read : Numeral.unsigned? 10 limit text.toList with
    | none => rfl
    | some value => exact absurd rfl (unread value value read)

end Reading

instance (given : NumberText) : Decidable given.Unreadable :=
  decidable_of_iff _ (unsigned?_eq_none_iff given.limit given.text)

/-- The texts that are no numbers, in order. -/
def unreadable (given : List NumberText) : List NumberText :=
  given.filter fun number => number.Unreadable

/-- The text of a number, if the option was given. -/
def numberText (name : String) (limit : Nat) (text? : Option String) : List NumberText :=
  (text?.map (⟨name, limit, ·⟩)).toList

namespace RunOptions

/-- The sizes that are no numbers. -/
def badSizes (options : RunOptions) : List NumberText :=
  unreadable (numberText "width" widthLimit options.width? ++
    numberText "memory" sizeLimit options.memory? ++ numberText "stack" sizeLimit options.stack?)

/-- The budget, if it is no number. -/
def badBudget (options : RunOptions) : List NumberText :=
  unreadable (numberText "max-steps" sizeLimit options.maxSteps?)

/-- All numbers can be read: the sizes of the configuration, and the budget if there is one. -/
structure Reads (options : RunOptions) (configuration : Configuration) (budget? : Option Nat) :
    Prop where
  width : Given widthLimit 16 options.width? configuration.width
  memory : Given sizeLimit 1024 options.memory? configuration.memory
  stack : Given sizeLimit 256 options.stack? configuration.stack
  budget : Option.Rel (Numbered sizeLimit) options.maxSteps? budget?

end RunOptions

section Options

variable {limit default value : Nat} {text? : Option String} {options : RunOptions}
  {configuration : Configuration} {budget? : Option Nat} {records : List Record} {record : Record}

theorem number_eq_ok_iff (name : String) :
    number name limit default text? = .ok value ↔ Given limit default text? value := by
  unfold number
  constructor
  · intro read
    split at read
    · obtain rfl := Except.ok.inj read
      exact .absent
    · split at read
      · rename_i number found
        obtain rfl := Except.ok.inj read
        exact .present ((unsigned?_iff_numbered limit _ _).mp ⟨number, found, rfl⟩)
      · contradiction
  · intro given
    cases given with
    | absent => rfl
    | present numbered =>
      obtain ⟨number, found, rfl⟩ := (unsigned?_iff_numbered _ _ _).mpr numbered
      simp only [found]

/-- An option fails when its text is no number, and it is reported with that text. -/
theorem failure?_number (name : String) :
    (failure? (number name limit default text?)).toList =
      (unreadable (numberText name limit text?)).map NumberText.report := by
  cases text? with
  | none => rfl
  | some text =>
    have bad := unsigned?_eq_none_iff limit text
    simp only [number, numberText, unreadable, Option.map_some, Option.toList_some,
      List.filter_singleton, NumberText.Unreadable, ← bad]
    cases Numeral.unsigned? 10 limit text.toList <;> rfl

theorem failure?_eq_none_iff {α : Type} (result : Except Record α) :
    failure? result = none ↔ ∃ value, result = .ok value := by
  cases result <;> simp [failure?]

namespace RunOptions

theorem configuration_eq_ok_iff :
    options.configuration = .ok configuration ↔
      Given widthLimit 16 options.width? configuration.width ∧
        Given sizeLimit 1024 options.memory? configuration.memory ∧
          Given sizeLimit 256 options.stack? configuration.stack := by
  constructor
  · intro read
    simp only [RunOptions.configuration] at read
    split at read
    · rename_i width memory stack widthRead memoryRead stackRead
      obtain rfl := Except.ok.inj read
      exact ⟨(number_eq_ok_iff "width").mp widthRead, (number_eq_ok_iff "memory").mp memoryRead,
        (number_eq_ok_iff "stack").mp stackRead⟩
    · contradiction
  · rintro ⟨width, memory, stack⟩
    simp only [RunOptions.configuration, (number_eq_ok_iff "width").mpr width,
      (number_eq_ok_iff "memory").mpr memory, (number_eq_ok_iff "stack").mpr stack]

/-- The reports of the bad sizes, as the command collects them. -/
theorem map_report_badSizes (options : RunOptions) :
    [number "width" widthLimit 16 options.width?, number "memory" sizeLimit 1024 options.memory?,
        number "stack" sizeLimit 256 options.stack?].filterMap failure? =
      options.badSizes.map NumberText.report := by
  have parts (width memory stack : Except Record Nat) :
      [width, memory, stack].filterMap failure? =
        (failure? width).toList ++ (failure? memory).toList ++ (failure? stack).toList := by
    cases width <;> cases memory <;> cases stack <;> rfl
  simp only [parts, failure?_number, badSizes, unreadable, List.filter_append, List.map_append]

/-- Some size cannot be read, and the bad ones are all reported. -/
theorem configuration_eq_error_iff :
    options.configuration = .error records ↔
      options.badSizes ≠ [] ∧ records = options.badSizes.map NumberText.report := by
  have bad := options.map_report_badSizes
  have empty_iff : options.badSizes = [] ↔ options.badSizes.map NumberText.report = [] :=
    List.map_eq_nil_iff.symm
  rw [Ne, empty_iff, ← bad]
  simp only [RunOptions.configuration]
  split
  · rename_i width memory stack
    simp only [width, memory, stack]
    exact iff_of_false nofun fun found => found.1 rfl
  · rename_i other
    rw [Except.error.injEq, eq_comm]
    refine (and_iff_right fun nothing => ?_).symm
    simp only [List.filterMap_eq_nil_iff, List.forall_mem_cons, failure?_eq_none_iff] at nothing
    obtain ⟨⟨width, widthRead⟩, ⟨memory, memoryRead⟩, ⟨stack, stackRead⟩, -⟩ := nothing
    exact other width memory stack widthRead memoryRead stackRead

theorem budget?_eq_ok_iff :
    options.budget? = .ok budget? ↔ Option.Rel (Numbered sizeLimit) options.maxSteps? budget? := by
  cases given : options.maxSteps? with
  | none =>
    simp only [RunOptions.budget?, given, Except.ok.injEq]
    constructor
    · rintro rfl
      exact .none
    · rintro ⟨⟩
      rfl
  | some text =>
    simp only [RunOptions.budget?, given]
    constructor
    · intro read
      cases found : number "max-steps" sizeLimit 0 (some text) with
      | error failed => simp [found] at read
      | ok value =>
        rw [found] at read
        obtain rfl := Except.ok.inj read
        cases (number_eq_ok_iff "max-steps").mp found with
        | present numbered => exact .some numbered
    · rintro (numbered | _)
      rw [(number_eq_ok_iff "max-steps").mpr (.present numbered)]
      rfl

theorem map_report_badBudget (options : RunOptions) :
    (failure? (number "max-steps" sizeLimit 0 options.maxSteps?)).toList =
      options.badBudget.map NumberText.report :=
  failure?_number "max-steps"

/-- There is one budget at most. -/
theorem exists_report_badBudget (bad : options.badBudget ≠ []) :
    ∃ record, options.badBudget.map NumberText.report = [record] := by
  have report := options.map_report_badBudget
  cases failed : failure? (number "max-steps" sizeLimit 0 options.maxSteps?) with
  | none =>
    rw [failed, Option.toList_none, eq_comm, List.map_eq_nil_iff] at report
    exact absurd report bad
  | some record =>
    rw [failed] at report
    exact ⟨record, report.symm⟩

/-- The budget is no number, and it is reported. -/
theorem budget?_eq_error_iff :
    options.budget? = .error record ↔ options.badBudget.map NumberText.report = [record] := by
  rw [← options.map_report_badBudget]
  cases given : options.maxSteps? with
  | none => simp [RunOptions.budget?, given, number, failure?]
  | some text =>
    simp only [RunOptions.budget?, given]
    cases number "max-steps" sizeLimit 0 (some text) <;> simp [failure?]

end RunOptions

end Options

end RegisterMachine.CommandLine
