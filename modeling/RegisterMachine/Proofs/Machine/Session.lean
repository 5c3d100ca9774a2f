import RegisterMachine.Proofs.Machine.Writes

/-!
Sessions: calls on one machine, each of which may leave it halted, faulted or ready.

A machine stays usable whatever a call answers, so a session is any sequence of calls.
-/

namespace RegisterMachine

/-- What can be asked of a machine. A run without a budget goes on until it is over. -/
inductive Call where
  | step
  | run (budget? : Option Nat)
  | execute (word : Word)
deriving DecidableEq, Repr

/-- A step tells whether the machine halted, and a run also counts its instructions. -/
inductive Answer where
  | flag (outcome : Outcome Bool)
  | summary (outcome : Outcome (Nat × Bool))
deriving DecidableEq, Repr

namespace Answer

/-- A call that needs a stack slot outside the stack has no answer to give. -/
def IsMissingSlot : Answer → Prop
  | .flag outcome => outcome = .missingSlot
  | .summary outcome => outcome = .missingSlot

end Answer

namespace Machine

/-- A run without a budget returns only when some fuel is enough for it. -/
inductive Returns (machine : Machine) : Call → Machine → Answer → Prop where
  | step : Returns machine .step machine.step.machine (.flag machine.step.outcome)
  | execute (word : Word) :
      Returns machine (.execute word) (machine.execute word).machine
        (.flag (machine.execute word).outcome)
  | runFor (budget : Nat) :
      Returns machine (.run (some budget)) (machine.runFor budget).machine
        (.summary (machine.runFor budget).outcome)
  | runFreely (fuel : Nat) (run : Run) (ended : machine.run? fuel = some run) :
      Returns machine (.run none) run.machine (.summary run.outcome)

/-- The machines that a session can come to. -/
inductive Reached (start : Machine) : Machine → Prop where
  | start : Reached start start
  | call {before after : Machine} {call : Call} {answer : Answer}
      (reached : Reached start before) (returned : before.Returns call after answer) :
      Reached start after

/-- A run that is over within its fuel is the driven run itself. -/
theorem run?_eq_some_iff (machine : Machine) (fuel : Nat) (run : Run) :
    machine.run? fuel = some run ↔
      (Run.start machine).drive fuel = run ∧ run.stop?.isSome := by
  simp only [run?]
  constructor
  · intro ended
    split at ended
    · rename_i stopped
      obtain rfl := Option.some.inj ended
      exact ⟨rfl, stopped⟩
    · contradiction
  · rintro ⟨rfl, stopped⟩
    rw [if_pos stopped]

/-- Every call is a chain of writes. -/
theorem Returns.writes {machine after : Machine} {call : Call} {answer : Answer}
    (returned : machine.Returns call after answer) : machine.Writes after := by
  cases returned with
  | step => exact machine.step_writes
  | execute word => exact machine.execute_writes word
  | runFor budget =>
    rw [Machine.runFor, Run.machine_settle]
    exact (Run.start machine).drive_writes budget
  | runFreely fuel run ended =>
    obtain ⟨rfl, -⟩ := (machine.run?_eq_some_iff fuel run).mp ended
    exact (Run.start machine).drive_writes fuel

/-- A property that every write keeps holds throughout a session. -/
theorem Reached.keeps {Property : Machine → Prop} {start machine : Machine}
    (reached : start.Reached machine) (initially : Property start)
    (kept : ∀ before after, before.Write after → Property before → Property after) :
    Property machine := by
  induction reached with
  | start => exact initially
  | call _ returned ih => exact returned.writes.keeps ih kept

end Machine

end RegisterMachine
