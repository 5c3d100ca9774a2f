/-!
Unsigned numbers in bases up to sixteen: the text of a value and the value of a run of digits.
-/

namespace RegisterMachine.Numeral

/-- A letter counts on from ten, in either case. -/
def digitValue (char : Char) : Nat :=
  if char.isDigit then char.toNat - 48
  else if char.isUpper then char.toNat - 55
  else char.toNat - 87

/-- A digit of a base is an ASCII digit or letter whose value is below the base. -/
def isDigitOf (base : Nat) (char : Char) : Bool :=
  char.isAlphanum && decide (digitValue char < base)

/-- The first digit weighs most. -/
def value (base : Nat) (digits : List Char) : Nat :=
  digits.foldl (fun total digit => total * base + digitValue digit) 0

/-- A value that reaches the limit stays there, so long runs of digits stay cheap. -/
def valueUpTo (base limit : Nat) (digits : List Char) : Nat :=
  digits.foldl (fun total digit => min limit (total * base + digitValue digit)) 0

theorem min_step (base limit total digit : Nat) :
    min limit (min limit total * base + digit) = min limit (total * base + digit) := by
  rcases Nat.lt_or_ge total limit with small | large
  · rw [Nat.min_eq_right (Nat.le_of_lt small)]
  · rw [Nat.min_eq_left large]
    cases base with
    | zero => rfl
    | succ base =>
      have kept : limit ≤ limit * (base + 1) := Nat.le_mul_of_pos_right limit (Nat.succ_pos base)
      have grown : total ≤ total * (base + 1) := Nat.le_mul_of_pos_right total (Nat.succ_pos base)
      rw [Nat.min_eq_left (by omega), Nat.min_eq_left (by omega)]

theorem valueUpTo_eq_min (base limit : Nat) (digits : List Char) :
    valueUpTo base limit digits = min limit (value base digits) := by
  have fromTotal : ∀ total : Nat,
      digits.foldl (fun total digit => min limit (total * base + digitValue digit))
          (min limit total) =
        min limit (digits.foldl (fun total digit => total * base + digitValue digit) total) := by
    induction digits with
    | nil => intro total; rfl
    | cons digit digits after =>
      intro total
      simp only [List.foldl_cons, min_step]
      exact after (total * base + digitValue digit)
  have start := fromTotal 0
  rw [Nat.min_eq_right (Nat.zero_le limit)] at start
  exact start

/-- A run of digits is read only when it is not empty and its value is below the limit. -/
def ofDigits? (base limit : Nat) (digits : List Char) : Option (Fin limit) :=
  if legal : (digits ≠ [] ∧ digits.all (isDigitOf base)) ∧ valueUpTo base limit digits < limit then
    some ⟨valueUpTo base limit digits, legal.2⟩
  else
    none

theorem ofDigits?_eq_some_iff (base limit : Nat) (digits : List Char) (number : Fin limit) :
    ofDigits? base limit digits = some number ↔
      (digits ≠ [] ∧ digits.all (isDigitOf base)) ∧ value base digits = number.val := by
  have below := number.isLt
  have same := valueUpTo_eq_min base limit digits
  unfold ofDigits?
  split
  · rename_i legal
    have whole : valueUpTo base limit digits = value base digits := by omega
    simp only [Option.some.injEq, Fin.ext_iff, whole]
    exact ⟨fun equal => ⟨legal.1, equal⟩, fun found => found.2⟩
  · rename_i illegal
    simp only [reduceCtorEq, false_iff]
    intro found
    exact illegal ⟨found.1, by omega⟩

/-- An unsigned number may start with one plus sign. -/
def unsigned? (base limit : Nat) : List Char → Option (Fin limit)
  | '+' :: digits => ofDigits? base limit digits
  | digits => ofDigits? base limit digits

/-- A value is written with lower case digits and no leading zero. -/
def render (base value : Nat) : String :=
  String.ofList (Nat.toDigits base value)

/-- A padded numeral has leading zeros up to its width. -/
def padded (base width value : Nat) : String :=
  String.ofList ((Nat.toDigits base value).leftpad width '0')

end RegisterMachine.Numeral
