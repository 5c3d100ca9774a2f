import RegisterMachine.Cells
import RegisterMachine.Fault

/-!
Memory cells with addresses from zero. Cells keep what they are given; a machine stores only
values that its registers hold.
-/

namespace RegisterMachine

structure Memory where
  cells : Cells
deriving DecidableEq, Repr

namespace Memory

/-- So many cells of four bytes fill the half of an address space that one block may take. -/
def limit : Nat := 2305843009213693952

def ofSize (size : Nat) : Memory := ⟨.zeros size⟩

def size (memory : Memory) : Nat := memory.cells.size

def read (memory : Memory) (address : Nat) : Except Fault Nat :=
  match memory.cells.get? address with
  | some value => .ok value
  | none => .error (.memoryOutOfBounds address)

@[inline] def write (memory : Memory) (address value : Nat) : Except Fault Memory :=
  if inside : address < memory.cells.size then
    .ok ⟨memory.cells.set address value inside⟩
  else
    .error (.memoryOutOfBounds address)

/-- The cells that are not zero, with their addresses in ascending order. -/
def used (memory : Memory) : List (Nat × Nat) := memory.cells.used

@[simp] theorem size_ofSize (size : Nat) : (ofSize size).size = size := rfl

theorem size_write {memory after : Memory} {address value : Nat}
    (written : memory.write address value = .ok after) : after.size = memory.size := by
  unfold write at written
  split at written
  · obtain rfl := Except.ok.inj written
    rfl
  · contradiction

/-- A write changes one cell. -/
theorem get?_write {memory after : Memory} {address value : Nat} (other : Nat)
    (written : memory.write address value = .ok after) :
    after.cells.get? other = if other = address then some value else memory.cells.get? other := by
  unfold write at written
  split at written
  · rename_i inside
    obtain rfl := Except.ok.inj written
    exact Cells.get?_set memory.cells address value other inside
  · contradiction

end Memory

end RegisterMachine
