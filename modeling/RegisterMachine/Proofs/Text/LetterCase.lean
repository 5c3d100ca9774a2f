/-!
The case of ASCII letters. Two texts that differ in case only have the same capitals, and no other
characters are touched.
-/

namespace RegisterMachine.Text

theorem isUpper_iff (char : Char) : char.isUpper ↔ 65 ≤ char.toNat ∧ char.toNat ≤ 90 := by
  show decide ('A'.val ≤ char.val ∧ char.val ≤ 'Z'.val) = true ↔ _
  rw [decide_eq_true_iff]
  rfl

theorem isLower_iff (char : Char) : char.isLower ↔ 97 ≤ char.toNat ∧ char.toNat ≤ 122 := by
  show (decide ('a'.val ≤ char.val) && decide (char.val ≤ 'z'.val)) = true ↔ _
  rw [Bool.and_eq_true, decide_eq_true_iff, decide_eq_true_iff]
  rfl

theorem toNat_toUpper (char : Char) :
    char.toUpper.toNat =
      if 97 ≤ char.toNat ∧ char.toNat ≤ 122 then char.toNat - 32 else char.toNat := by
  have same : char.val.toNat = char.toNat := rfl
  unfold Char.toUpper
  simp only [UInt32.le_iff_toNat_le, same, Char.reduceVal, UInt32.reduceToNat]
  split
  · change (char.val + (65 - 97)).toNat = _
    rw [UInt32.toNat_add, same, show (65 - 97 : UInt32).toNat = 4294967264 by decide]
    omega
  · rfl

theorem toNat_toLower (char : Char) :
    char.toLower.toNat =
      if 65 ≤ char.toNat ∧ char.toNat ≤ 90 then char.toNat + 32 else char.toNat := by
  have same : char.val.toNat = char.toNat := rfl
  unfold Char.toLower
  simp only [ge_iff_le, UInt32.le_iff_toNat_le, same, Char.reduceVal, UInt32.reduceToNat]
  split
  · change (char.val + (97 - 65)).toNat = _
    rw [UInt32.toNat_add, same, show (97 - 65 : UInt32).toNat = 32 by decide]
    omega
  · rfl

theorem char_toLower_eq_iff (first second : Char) :
    first.toLower = second.toLower ↔ first.toUpper = second.toUpper := by
  simp only [← Char.toNat_inj, toNat_toLower, toNat_toUpper]
  grind

/-- It does not matter in which case two texts are compared. -/
theorem toLower_eq_iff (first second : String) :
    first.toLower = second.toLower ↔ first.toUpper = second.toUpper := by
  have lower (text : String) : text.toLower.toList = text.toList.map Char.toLower :=
    String.toList_map
  have upper (text : String) : text.toUpper.toList = text.toList.map Char.toUpper :=
    String.toList_map
  rw [← String.toList_inj, ← String.toList_inj, lower, lower, upper, upper]
  generalize first.toList = chars
  generalize second.toList = others
  induction chars generalizing others with
  | nil => cases others <;> simp
  | cons char chars ih =>
    cases others with
    | nil => simp
    | cons other others =>
      simp only [List.map_cons, List.cons.injEq, char_toLower_eq_iff, ih]

end RegisterMachine.Text
