import RegisterMachine.Machine.Run
import Mathlib.Logic.Relation

/-!
The work of a machine as a chain of single writes.

Instructions, steps and runs change a machine through seven kinds of writes only. A property that
every write keeps is therefore kept by all of them, with nothing left to prove about opcodes.
-/

namespace RegisterMachine

namespace Machine

/-- One write. A push and a store only move what the registers hold. -/
inductive Write (machine : Machine) : Machine → Prop where
  | register (target : Register) (value : Nat) :
      Write machine { machine with registers := machine.registers.write target value }
  | jump (address : Nat) :
      Write machine { machine with registers := machine.registers.setIp address }
  | store (source : Register) (address : Nat) (memory : Memory)
      (stored : machine.memory.write address (machine.registers.read source) = .ok memory) :
      Write machine { machine with memory := memory }
  | push (value : Nat) (stack : Stack) (registers : Registers)
      (held : value = machine.registers.ip ∨ ∃ source, value = machine.registers.read source)
      (pushed : machine.stack.push machine.registers value = .ok (stack, registers)) :
      Write machine { machine with stack := stack, registers := registers }
  | pop (value : Nat) (registers : Registers)
      (popped : machine.stack.pop machine.registers = .ok (value, registers)) :
      Write machine { machine with registers := registers }
  | print (bytes : List UInt8) :
      Write machine { machine with sink := (machine.sink.write bytes).1 }
  | fetch (word : Word) : Write machine (machine.fetched word)

/-- Any number of writes, one after the other. -/
abbrev Writes : Machine → Machine → Prop := Relation.ReflTransGen Write

/-- A property that one write keeps is kept by any number of them. -/
theorem Writes.keeps {Property : Machine → Prop} {machine after : Machine}
    (writes : machine.Writes after) (initially : Property machine)
    (kept : ∀ before after, before.Write after → Property before → Property after) :
    Property after := by
  induction writes with
  | refl => exact initially
  | tail _ write ih => exact kept _ _ write ih

/-- No instruction makes more than two writes. -/
theorem perform_writes (machine : Machine) (instruction : Instruction) :
    machine.Writes (machine.perform instruction).machine := by
  cases instruction with
  | call target =>
    simp only [perform]
    split
    · rename_i stack pushed success
      exact .tail (.single (.push _ stack pushed (.inl rfl) success)) (.jump target)
    · exact .refl
  | ret =>
    simp only [perform]
    split
    · rename_i address popped success
      exact .tail (.single (.pop address popped success)) (.jump address)
    · exact .refl
    · exact .refl
  | move rd rs => exact .single (.register rd _)
  | loadValue rd value => exact .single (.register rd _)
  | loadMemory rd address =>
    simp only [perform]
    split
    · exact .single (.register rd _)
    · exact .refl
  | storeMemory rd address =>
    simp only [perform]
    split
    · rename_i memory success
      exact .single (.store rd address memory success)
    · exact .refl
  | arithmetic rd rs operation destination =>
    simp only [perform]
    split
    · exact .single (.register _ _)
    · exact .refl
  | shift rs direction amount => exact .single (.register rs _)
  | push rs =>
    simp only [perform]
    split
    · rename_i stack pushed success
      exact .single (.push _ stack pushed (.inr ⟨rs, rfl⟩) success)
    · exact .refl
  | pop rd =>
    simp only [perform]
    split
    · rename_i value popped success
      exact .tail (.single (.pop value popped success)) (.register rd value)
    · exact .refl
    · exact .refl
  | jumpIfLess rd target =>
    simp only [perform]
    split
    · exact .single (.jump target)
    · exact .refl
  | output rs selector => exact .single (.print _)
  | halt => exact .refl

theorem execute_writes (machine : Machine) (word : Word) :
    machine.Writes (machine.execute word).machine := by
  unfold execute
  split
  · exact machine.perform_writes _
  · exact .refl

/-- A step fetches before it executes. -/
theorem step_writes (machine : Machine) : machine.Writes machine.step.machine := by
  simp only [step]
  split
  · exact .refl
  · rename_i word present
    exact .head (.fetch word) ((machine.fetched word).execute_writes word)

end Machine

namespace Run

theorem advance_writes (run : Run) : run.machine.Writes run.advance.machine := by
  simp only [advance]
  split
  · exact .refl
  · split <;> exact run.machine.step_writes

/-- The writes of a run are those of its steps. -/
theorem drive_writes (run : Run) (fuel : Nat) : run.machine.Writes (run.drive fuel).machine := by
  induction fuel generalizing run with
  | zero => exact .refl
  | succ fuel ih =>
    simp only [drive]
    split
    · exact .refl
    · exact run.advance_writes.trans (ih run.advance)

/-- Settling a run only adds records. -/
@[simp] theorem machine_settle (budget : Nat) (run : Run) :
    (run.settle budget).machine = run.machine := by
  unfold settle
  split
  · rfl
  · split <;> rfl

end Run

end RegisterMachine
