import RegisterMachine.Proofs.Machine.Steps

/-!
How the runs of a machine fit together.

A run whose budget is spent can be continued by another one, and the two are one longer run. A run
that is over stays the same with a larger budget, and it is also the run without a budget. Every run
ends where the steps that it counts lead to.
-/

namespace RegisterMachine

namespace Run

variable {run : Run}

/-- Another instruction can be read: neither the run nor the program is over. -/
def Going (run : Run) : Prop := run.stop? = none ∧ ¬ run.machine.isPastEnd

theorem settle_of_stop {stop : Stop} (stopped : run.stop? = some stop) (budget : Nat) :
    run.settle budget = run := by
  simp only [settle, stopped]

/-- A run that is not going is over already, or the next look at the program ends it. -/
theorem settle_of_not_going (finished : ¬ run.Going) (budget : Nat) :
    run.settle budget = run.drive 1 ∧ (run.drive 1).stop?.isSome := by
  cases stopped : run.stop? with
  | some stop =>
    rw [settle_of_stop stopped, drive_of_stop stopped, stopped]
    exact ⟨rfl, rfl⟩
  | none =>
    by_cases ended : run.machine.isPastEnd
    · simp [settle, drive, advance, leave, stopped, ended]
    · exact absurd ⟨stopped, ended⟩ finished

/-- Settling completes no instruction. -/
theorem steps_settle (run : Run) (budget : Nat) : (run.settle budget).steps = run.steps := by
  unfold settle
  split
  · rfl
  · split <;> rfl

/-- Only a run that could go on has spent its budget. -/
theorem outcome_settle_eq_iff (run : Run) (budget steps : Nat) :
    (run.settle budget).outcome = .ok (steps, false) ↔ run.Going ∧ steps = run.steps := by
  unfold Going settle
  split
  · rename_i stop stopped
    cases stop <;> simp [outcome, stopped]
  · rename_i stopped
    split
    · rename_i ended
      simp [outcome, leave, ended]
    · rename_i inside
      simp [outcome, stopped, inside, eq_comm]

/-- A run faults where it has stopped with a fault. -/
theorem outcome_eq_fault_iff {reason : Fault} :
    run.outcome = .fault reason ↔ run.stop? = some (.fault reason) := by
  unfold outcome
  split <;> simp_all

section Resumption

/-- The run goes on as another one does from its machine. -/
def resume (run later : Run) : Run :=
  ⟨later.machine, run.events ++ later.events, run.steps + later.steps, later.stop?⟩

theorem resume_start (unstopped : run.stop? = none) : run.resume (start run.machine) = run := by
  simp only [resume, start, Array.append_empty, Nat.add_zero, ← unstopped]

theorem advance_resume (run later : Run) :
    (run.resume later).advance = run.resume later.advance := by
  have events (more : List Event) :
      run.events ++ later.events ++ more = run.events ++ (later.events ++ more) := by
    simp [← Array.toList_inj]
  unfold advance
  simp only [resume, events]
  split
  · simp only [leave, Array.append_push]
  · cases later.machine.step.outcome <;> rfl

theorem drive_resume (run later : Run) (fuel : Nat) :
    (run.resume later).drive fuel = run.resume (later.drive fuel) := by
  induction fuel generalizing later with
  | zero => rfl
  | succ fuel ih =>
    have same : (run.resume later).stop? = later.stop? := rfl
    rw [drive, drive, same]
    split
    · rfl
    · rw [advance_resume, ih]

/-- How a run settles depends only on its machine and on whether it is over. -/
theorem stop_settle_resume (run later : Run) (first second : Nat) :
    ((run.resume later).settle first).stop? = (later.settle second).stop? := by
  have same : (run.resume later).stop? = later.stop? := rfl
  have place : (run.resume later).machine = later.machine := rfl
  unfold settle
  rw [same, place]
  split
  · rfl
  · split <;> rfl

end Resumption

section Counting

/-- A look at the next instruction counts it, unless the run is over without it. -/
theorem steps_advance (run : Run) :
    run.advance.steps = run.steps + 1 ∨
      run.advance.steps = run.steps ∧ run.advance.stop?.isSome := by
  unfold advance
  split
  · exact .inr ⟨rfl, rfl⟩
  · dsimp only
    split
    · exact .inl rfl
    · exact .inr ⟨rfl, rfl⟩
    · exact .inr ⟨rfl, rfl⟩

/-- While a run is not over, it counts one instruction for each unit of fuel. -/
theorem steps_drive_of_unstopped {fuel : Nat} (unstopped : (run.drive fuel).stop? = none) :
    (run.drive fuel).steps = run.steps + fuel := by
  induction fuel generalizing run with
  | zero => rfl
  | succ fuel ih =>
    cases stopped : run.stop? with
    | some stop =>
      rw [drive_of_stop stopped, stopped] at unstopped
      contradiction
    | none =>
      have one := run.steps_advance
      simp only [drive, stopped] at unstopped ⊢
      cases first : run.advance.stop? with
      | some stop =>
        rw [drive_of_stop first, first] at unstopped
        contradiction
      | none =>
        rw [first] at one
        simp only [Option.isSome_none, Bool.false_eq_true, and_false, or_false] at one
        rw [ih unstopped, one]
        omega

end Counting

section Places

variable {machine : Machine}

/-- The run is where the steps from a machine lead that it counts. An instruction that ends the run
by a fault was stepped as well. -/
def Follows (machine : Machine) (run : Run) : Prop :=
  match run.stop? with
  | some (.fault reason) =>
    run.machine = machine.after (run.steps + 1) ∧
      (machine.after run.steps).step.outcome = .fault reason
  | some .missingSlot => (machine.after run.steps).step.outcome = .missingSlot
  | _ => run.machine = machine.after run.steps

theorem start_follows (machine : Machine) : (start machine).Follows machine := rfl

theorem Follows.leave (place : run.machine = machine.after run.steps) :
    run.leave.Follows machine := place

theorem Follows.advance (unstopped : run.stop? = none) (follows : run.Follows machine) :
    run.advance.Follows machine := by
  have place : run.machine = machine.after run.steps := by
    simpa only [Follows, unstopped] using follows
  have next : run.machine.step.machine = machine.after (run.steps + 1) := by
    rw [place, Machine.after_succ]
  unfold Run.advance
  split
  · exact .leave place
  · dsimp only
    -- The step moves the machine whether or not the run counts it.
    split
    · rename_i halted answered
      cases halted <;> exact next
    · rename_i reason failed
      exact ⟨next, place ▸ failed⟩
    · rename_i missing
      exact place ▸ missing

theorem Follows.drive (follows : run.Follows machine) (fuel : Nat) :
    (run.drive fuel).Follows machine := by
  induction fuel generalizing run with
  | zero => exact follows
  | succ fuel ih =>
    rw [Run.drive]
    split
    · exact follows
    · rename_i unstopped
      exact ih (follows.advance unstopped)

theorem Follows.settle (follows : run.Follows machine) (budget : Nat) :
    (run.settle budget).Follows machine := by
  unfold Run.settle
  split
  · exact follows
  · rename_i unstopped
    have place : run.machine = machine.after run.steps := by
      simpa only [Follows, unstopped] using follows
    split
    · exact .leave place
    · simpa only [Follows, unstopped] using place

end Places

end Run

namespace Machine

variable {machine : Machine} {run : Run} {fuel budget steps : Nat}

/-- The budget is spent before a run is over. -/
def Spends (machine : Machine) (budget : Nat) : Prop := ((Run.start machine).drive budget).Going

theorem outcome_runFor_eq_iff (machine : Machine) (budget steps : Nat) :
    (machine.runFor budget).outcome = .ok (steps, false) ↔
      machine.Spends budget ∧ steps = budget := by
  rw [runFor, Run.outcome_settle_eq_iff]
  apply and_congr_right
  intro going
  have counted : ((Run.start machine).drive budget).steps = 0 + budget :=
    Run.steps_drive_of_unstopped going.1
  rw [counted, Nat.zero_add]

/-- A run that is over within a budget is the run without one. -/
theorem run?_of_not_spends (finished : ¬ machine.Spends budget) :
    machine.run? (budget + 1) = some (machine.runFor budget) := by
  obtain ⟨settled, stopped⟩ := Run.settle_of_not_going finished budget
  rw [run?_eq_some_iff, runFor, settled, Run.drive_add]
  exact ⟨rfl, stopped⟩

/-- Fuel that is not needed makes no difference. -/
theorem drive_of_run? (ended : machine.run? fuel = some run) (more : Nat) :
    (Run.start machine).drive (fuel + more) = run := by
  obtain ⟨driven, finished⟩ := (machine.run?_eq_some_iff fuel run).mp ended
  obtain ⟨stop, stopped⟩ := Option.isSome_iff_exists.mp finished
  rw [Run.drive_add, driven, Run.drive_of_stop stopped]

/-- A run without a budget ends in one way. -/
theorem run?_unique {other : Run} {amount : Nat} (ended : machine.run? fuel = some run)
    (finished : machine.run? amount = some other) : run = other := by
  rw [← drive_of_run? ended amount, Nat.add_comm, drive_of_run? finished fuel]

/-- A larger budget is spent later. -/
theorem Spends.of_add {more : Nat} (spends : machine.Spends (budget + more)) :
    machine.Spends budget := by
  by_cases spent : machine.Spends budget
  · exact spent
  · cases more with
    | zero => exact spends
    | succ more =>
      have ended := run?_of_not_spends spent
      have stopped := ((machine.run?_eq_some_iff _ _).mp ended).2
      have same := drive_of_run? ended more
      rw [Nat.add_assoc, Nat.add_comm 1] at same
      rw [Spends, same] at spends
      rw [spends.1] at stopped
      contradiction

/-- A larger budget changes nothing in a run that is over. -/
theorem runFor_add_of_not_spends (finished : ¬ machine.Spends budget) (more : Nat) :
    machine.runFor (budget + more) = machine.runFor budget :=
  run?_unique (run?_of_not_spends fun spends => finished spends.of_add) (run?_of_not_spends finished)

/-- A run that is over within a budget is all that a run without one can answer. -/
theorem returns_freely_iff (finished : ¬ machine.Spends budget) (after : Machine) (answer : Answer) :
    machine.Returns (.run none) after answer ↔
      after = (machine.runFor budget).machine ∧
        answer = .summary (machine.runFor budget).outcome := by
  have ended := run?_of_not_spends finished
  constructor
  · intro returned
    cases returned with
    | runFreely fuel run finished =>
      rw [run?_unique ended finished]
      exact ⟨rfl, rfl⟩
  · rintro ⟨rfl, rfl⟩
    exact .runFreely (budget + 1) _ ended

/-- A machine past the end is over with any budget, and it has not moved. -/
theorem runFor_of_isPastEnd (ended : machine.isPastEnd) (budget : Nat) :
    ¬ machine.Spends budget ∧ (machine.runFor budget).machine = machine ∧
      (machine.runFor budget).outcome = .ok (0, true) := by
  have finished : ¬ machine.Spends 0 := fun spends => spends.2 ended
  have none : machine.runFor 0 = (Run.start machine).leave := by
    simp only [runFor, Run.drive, Run.settle, Run.start, ended, if_true]
  have same := runFor_add_of_not_spends finished budget
  rw [Nat.zero_add] at same
  rw [same, none]
  exact ⟨fun spends => finished (Spends.of_add (Nat.zero_add budget ▸ spends)), rfl, rfl⟩

end Machine

end RegisterMachine
