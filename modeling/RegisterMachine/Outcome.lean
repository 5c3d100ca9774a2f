import RegisterMachine.Fault

/-!
The outcome of an operation on a machine.
-/

namespace RegisterMachine

/-- An operation has a value, or it faults, or it needs a stack slot that is not there. -/
inductive Outcome (α : Type) where
  | ok (value : α)
  | fault (reason : Fault)
  | missingSlot
deriving DecidableEq, Repr

end RegisterMachine
