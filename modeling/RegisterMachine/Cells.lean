/-!
A row of cells with addresses from zero. Every cell is zero until it is written, so the cells after
the last written one are not stored, and a large row that is hardly used is small.
-/

namespace RegisterMachine

structure Cells where
  size : Nat
  stored : Array Nat
  stored_le : stored.size ≤ size
deriving DecidableEq, Repr

namespace Cells

def zeros (size : Nat) : Cells := ⟨size, #[], Nat.zero_le size⟩

/-- A cell that is not stored is zero. -/
def get? (cells : Cells) (address : Nat) : Option Nat :=
  if address < cells.size then some (cells.stored.getD address 0) else none

/-- A value that is stored after the end brings the zeros before it along. -/
def place (stored : Array Nat) (address value : Nat) : Array Nat :=
  if inside : address < stored.size then
    stored.set address value inside
  else
    (stored ++ Array.replicate (address - stored.size) 0).push value

theorem size_place (stored : Array Nat) (address value : Nat) :
    (place stored address value).size = max stored.size (address + 1) := by
  unfold place
  split
  · simp only [Array.size_set]
    omega
  · simp only [Array.size_push, Array.size_append, Array.size_replicate]
    omega

theorem getD_place (stored : Array Nat) (address value other : Nat) :
    (place stored address value).getD other 0 =
      if other = address then value else stored.getD other 0 := by
  simp only [Array.getD_eq_getD_getElem?]
  unfold place
  split
  · rename_i inside
    by_cases same : other = address
    · simp [same, inside]
    · simp [same, Ne.symm same]
  · rename_i outside
    simp only [Array.getElem?_push, Array.getElem?_append, Array.getElem?_replicate,
      Array.size_append, Array.size_replicate]
    have reached : stored.size + (address - stored.size) = address := by omega
    rw [reached]
    by_cases same : other = address
    · simp [same]
    · simp only [same, if_false]
      by_cases before : other < stored.size
      · simp only [before, if_true]
      · have absent : stored[other]? = none := Array.getElem?_eq_none (by omega)
        simp only [before, if_false, absent]
        split <;> rfl

@[inline] def set (cells : Cells) (address value : Nat) (inside : address < cells.size) : Cells where
  size := cells.size
  stored := place cells.stored address value
  stored_le := by
    have bound := cells.stored_le
    rw [size_place]
    omega

/-- The first cells of a row. -/
def take (cells : Cells) (count : Nat) : List Nat :=
  (List.range (min count cells.size)).map fun address => cells.stored.getD address 0

/-- The cells that are not zero, with their addresses in ascending order. -/
def used (cells : Cells) : List (Nat × Nat) :=
  cells.stored.toList.zipIdx.filterMap fun (value, address) =>
    if value = 0 then none else some (address, value)

@[simp] theorem size_zeros (size : Nat) : (zeros size).size = size := rfl

theorem get?_zeros (size address : Nat) :
    (zeros size).get? address = if address < size then some 0 else none := rfl

theorem get?_eq_none_iff (cells : Cells) (address : Nat) :
    cells.get? address = none ↔ cells.size ≤ address := by
  unfold get?
  split
  · simp only [reduceCtorEq, false_iff]
    omega
  · simp only [true_iff]
    omega

@[simp] theorem size_set (cells : Cells) (address value : Nat) (inside : address < cells.size) :
    (cells.set address value inside).size = cells.size := rfl

/-- Setting changes one cell. -/
theorem get?_set (cells : Cells) (address value other : Nat) (inside : address < cells.size) :
    (cells.set address value inside).get? other =
      if other = address then some value else cells.get? other := by
  unfold get?
  simp only [set, getD_place]
  by_cases same : other = address
  · simp only [same, inside, if_true]
  · simp only [same, if_false]

end Cells

end RegisterMachine
