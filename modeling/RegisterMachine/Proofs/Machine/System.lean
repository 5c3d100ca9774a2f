import RegisterMachine.Proofs.Machine.Budget

/-!
Machines from the outside: what can be asked of them, and what they answer.

Anything that makes steps, executes words and has a stack is a system. Two systems that match call
by call cannot be told apart by any session, however long its runs are.
-/

namespace RegisterMachine

/-- A value that comes of an operation may be changed afterwards. -/
def Outcome.map {α β : Type} (change : α → β) : Outcome α → Outcome β
  | .ok value => .ok (change value)
  | .fault reason => .fault reason
  | .missingSlot => .missingSlot

/-- What can be asked of a machine and of its stack. -/
inductive Query where
  | call (call : Call)
  | push (value : Nat)
  | pop
deriving DecidableEq, Repr

inductive Reply where
  | answer (answer : Answer)
  | pushed (outcome : Outcome Unit)
  | popped (outcome : Outcome Nat)
deriving DecidableEq, Repr

/-- A system answers each operation from its state and goes on to another state. -/
structure System (State : Type) where
  isPastEnd : State → Bool
  step : State → State × Outcome Bool
  execute : Word → State → State × Outcome Bool
  push : Nat → State → State × Outcome Unit
  pop : State → State × Outcome Nat

namespace System

variable {State Other : Type}

/-- A run makes one step after the other, until the program is over, the budget is spent, or a step
halts or faults. -/
def run (system : System State) : Nat → State → State × Outcome (Nat × Bool)
  | 0, state => (state, .ok (0, system.isPastEnd state))
  | budget + 1, state =>
    if system.isPastEnd state then (state, .ok (0, true))
    else
      let after := (system.step state).1
      match (system.step state).2 with
      | .ok true => (after, .ok (1, true))
      | .ok false =>
        let rest := system.run budget after
        (rest.1, rest.2.map fun answer => (answer.1 + 1, answer.2))
      | .fault reason => (after, .fault reason)
      | .missingSlot => (after, .missingSlot)

/-- A run without a budget answers when some budget is enough for it. -/
inductive Responds (system : System State) (state : State) : Query → State → Reply → Prop where
  | step : Responds system state (.call .step) (system.step state).1
      (.answer (.flag (system.step state).2))
  | execute (word : Word) : Responds system state (.call (.execute word))
      (system.execute word state).1 (.answer (.flag (system.execute word state).2))
  | runFor (budget : Nat) : Responds system state (.call (.run (some budget)))
      (system.run budget state).1 (.answer (.summary (system.run budget state).2))
  | runFreely (budget : Nat) (finished : ∀ steps, (system.run budget state).2 ≠ .ok (steps, false)) :
      Responds system state (.call (.run none)) (system.run budget state).1
        (.answer (.summary (system.run budget state).2))
  | push (value : Nat) : Responds system state (.push value) (system.push value state).1
      (.pushed (system.push value state).2)
  | pop : Responds system state .pop (system.pop state).1 (.popped (system.pop state).2)

end System

/-- A session is a list of queries, each with its reply, that leads from one state to another. -/
inductive Session {State : Type} (Responds : State → Query → State → Reply → Prop) :
    State → List (Query × Reply) → State → Prop where
  | done (state : State) : Session Responds state [] state
  | ask {before after last : State} {query : Query} {reply : Reply}
      {history : List (Query × Reply)} (responded : Responds before query after reply)
      (rest : Session Responds after history last) :
      Session Responds before ((query, reply) :: history) last

/-- Where every reply can be had from a related state, every session can. -/
theorem Session.transfer {State Other : Type}
    {Responds : State → Query → State → Reply → Prop}
    {Also : Other → Query → Other → Reply → Prop} {Related : State → Other → Prop}
    (transfers : ∀ {before other query after reply}, Related before other →
      Responds before query after reply → ∃ next, Also other query next reply ∧ Related after next)
    {state last : State} {other : Other} {history : List (Query × Reply)}
    (related : Related state other) (session : Session Responds state history last) :
    ∃ final, Session Also other history final ∧ Related last final := by
  induction session generalizing other with
  | done => exact ⟨other, .done other, related⟩
  | ask responded _ ih =>
    obtain ⟨next, also, still⟩ := transfers related responded
    obtain ⟨final, rest, reached⟩ := ih still
    exact ⟨final, .ask also rest, reached⟩

/-- Whatever one session gets from one side, a session gets from the other, and both end in related
states. -/
def SameSessions {State Other : Type} (Responds : State → Query → State → Reply → Prop)
    (Also : Other → Query → Other → Reply → Prop) (Related : State → Other → Prop) (state : State)
    (other : Other) : Prop :=
  (∀ history last, Session Responds state history last →
    ∃ final, Session Also other history final ∧ Related last final) ∧
  ∀ history final, Session Also other history final →
    ∃ last, Session Responds state history last ∧ Related last final

theorem SameSessions.mono {State Other : Type} {Responds : State → Query → State → Reply → Prop}
    {Also : Other → Query → Other → Reply → Prop} {Related Shown : State → Other → Prop}
    {state : State} {other : Other} (same : SameSessions Responds Also Related state other)
    (shown : ∀ last final, Related last final → Shown last final) :
    SameSessions Responds Also Shown state other := by
  constructor
  · intro history last session
    obtain ⟨final, also, related⟩ := same.1 history last session
    exact ⟨final, also, shown last final related⟩
  · intro history final session
    obtain ⟨last, also, related⟩ := same.2 history final session
    exact ⟨last, also, shown last final related⟩

namespace System

variable {State Other : Type} {first : System State} {second : System Other}
  {Related : State → Other → Prop}

/-- Both sides answer the same and go on to related states. -/
def Matches {Value : Type} (Related : State → Other → Prop) (left : State × Value)
    (right : Other × Value) : Prop :=
  Related left.1 right.1 ∧ right.2 = left.2

/-- Two systems match when each operation does from related states. -/
structure Alike (first : System State) (second : System Other) (Related : State → Other → Prop) :
    Prop where
  isPastEnd : ∀ {state other}, Related state other →
    second.isPastEnd other = first.isPastEnd state
  step : ∀ {state other}, Related state other →
    Matches Related (first.step state) (second.step other)
  execute : ∀ {state other}, Related state other → ∀ word,
    Matches Related (first.execute word state) (second.execute word other)
  push : ∀ {state other}, Related state other → ∀ value,
    Matches Related (first.push value state) (second.push value other)
  pop : ∀ {state other}, Related state other →
    Matches Related (first.pop state) (second.pop other)

namespace Alike

theorem symm (alike : first.Alike second Related) :
    second.Alike first (flip Related) where
  isPastEnd related := (alike.isPastEnd related).symm
  step related := ⟨(alike.step related).1, (alike.step related).2.symm⟩
  execute related word := ⟨(alike.execute related word).1, (alike.execute related word).2.symm⟩
  push related value := ⟨(alike.push related value).1, (alike.push related value).2.symm⟩
  pop related := ⟨(alike.pop related).1, (alike.pop related).2.symm⟩

/-- Runs match when steps do. -/
theorem run (alike : first.Alike second Related) {state : State} {other : Other}
    (related : Related state other) (budget : Nat) :
    Matches Related (first.run budget state) (second.run budget other) := by
  induction budget generalizing state other with
  | zero => exact ⟨related, by rw [System.run, System.run, alike.isPastEnd related]⟩
  | succ budget ih =>
    rw [System.run, System.run, alike.isPastEnd related]
    split
    · exact ⟨related, rfl⟩
    · obtain ⟨after, same⟩ := alike.step related
      dsimp only
      rw [same]
      -- The answer of the step is the same, so both runs end here or both go on.
      split
      · exact ⟨after, rfl⟩
      · obtain ⟨last, answer⟩ := ih after
        exact ⟨last, congrArg (Outcome.map _) answer⟩
      · exact ⟨after, rfl⟩
      · exact ⟨after, rfl⟩

theorem responds (alike : first.Alike second Related) {state after : State} {other : Other}
    {query : Query} {reply : Reply} (related : Related state other)
    (responded : first.Responds state query after reply) :
    ∃ next, second.Responds other query next reply ∧ Related after next := by
  cases responded with
  | step =>
    obtain ⟨next, same⟩ := alike.step related
    exact ⟨_, same ▸ .step, next⟩
  | execute word =>
    obtain ⟨next, same⟩ := alike.execute related word
    exact ⟨_, same ▸ .execute word, next⟩
  | runFor budget =>
    obtain ⟨next, same⟩ := alike.run related budget
    exact ⟨_, same ▸ .runFor budget, next⟩
  | runFreely budget finished =>
    obtain ⟨next, same⟩ := alike.run related budget
    exact ⟨_, same ▸ .runFreely budget (same ▸ finished), next⟩
  | push value =>
    obtain ⟨next, same⟩ := alike.push related value
    exact ⟨_, same ▸ .push value, next⟩
  | pop =>
    obtain ⟨next, same⟩ := alike.pop related
    exact ⟨_, same ▸ .pop, next⟩

/-- Systems that match cannot be told apart from related states. -/
theorem sameSessions (alike : first.Alike second Related) {state : State} {other : Other}
    (related : Related state other) :
    SameSessions first.Responds second.Responds Related state other := by
  constructor
  · intro history last session
    exact session.transfer alike.responds related
  · intro history final session
    have flipped : flip Related other state := related
    exact session.transfer alike.symm.responds flipped

end Alike

end System

namespace Machine

/-- A push on the stack of a machine. One that overflows changes nothing. -/
def pushValue (value : Nat) (machine : Machine) : Machine × Outcome Unit :=
  match machine.stack.push machine.registers value with
  | .ok (stack, registers) => ({ machine with stack := stack, registers := registers }, .ok ())
  | .error reason => (machine, .fault reason)

/-- A pop off the stack of a machine. One that underflows changes nothing. -/
def popValue (machine : Machine) : Machine × Outcome Nat :=
  match machine.stack.pop machine.registers with
  | .ok (value, registers) => ({ machine with registers := registers }, .ok value)
  | .fault reason => (machine, .fault reason)
  | .missingSlot => (machine, .missingSlot)

/-- The replies of a machine and of its stack. -/
inductive Responds (machine : Machine) : Query → Machine → Reply → Prop where
  | call {call : Call} {after : Machine} {answer : Answer}
      (returned : machine.Returns call after answer) :
      Responds machine (.call call) after (.answer answer)
  | push (value : Nat) : Responds machine (.push value) (machine.pushValue value).1
      (.pushed (machine.pushValue value).2)
  | pop : Responds machine .pop machine.popValue.1 (.popped machine.popValue.2)

def system : System Machine where
  isPastEnd := isPastEnd
  step machine := (machine.step.machine, machine.step.outcome)
  execute word machine := ((machine.execute word).machine, (machine.execute word).outcome)
  push := pushValue
  pop := popValue

/-- One more step before a run shows only in the count. -/
theorem outcome_of_later {whole rest : Run} (stop : whole.stop? = rest.stop?)
    (steps : whole.steps = rest.steps + 1) :
    whole.outcome = rest.outcome.map fun answer => (answer.1 + 1, answer.2) := by
  unfold Run.outcome
  rw [stop, steps]
  split <;> rfl

/-- After a step that went on, a run goes on from there. -/
theorem runFor_of_step {machine : Machine} (inside : ¬ machine.isPastEnd)
    (going : machine.step.outcome = .ok false) (budget : Nat) :
    (machine.runFor (budget + 1)).machine = (machine.step.machine.runFor budget).machine ∧
      (machine.runFor (budget + 1)).outcome =
        (machine.step.machine.runFor budget).outcome.map fun answer =>
          (answer.1 + 1, answer.2) := by
  let one : Run := ⟨machine.step.machine, (#[] : Array Event) ++ machine.step.events, 1, none⟩
  have first : (Run.start machine).advance = one := by
    simp only [Run.advance, Run.start, inside, if_false, Bool.false_eq_true, going]
    rfl
  have driven : (Run.start machine).drive (budget + 1) =
      one.resume ((Run.start machine.step.machine).drive budget) := by
    rw [← Run.drive_resume, show one.resume (Run.start machine.step.machine) = one from
      Run.resume_start rfl, ← first]
    rfl
  constructor
  · rw [runFor, runFor, Run.machine_settle, Run.machine_settle, driven]
    rfl
  · rw [runFor, runFor, driven]
    apply outcome_of_later (Run.stop_settle_resume _ _ _ _)
    rw [Run.steps_settle, Run.steps_settle]
    exact Nat.add_comm _ _

/-- A step that halts or faults is the whole run. -/
theorem runFor_of_last_step {machine : Machine} (inside : ¬ machine.isPastEnd)
    (last : machine.step.outcome ≠ .ok false) (budget : Nat) :
    (machine.runFor (budget + 1)).machine = machine.step.machine ∧
      (machine.runFor (budget + 1)).outcome =
        machine.step.outcome.map fun halted => (1, halted) := by
  have driven : (Run.start machine).drive (budget + 1) = (Run.start machine).advance.drive budget :=
    rfl
  rw [runFor, driven]
  simp only [Run.advance, Run.start, inside, if_false, Bool.false_eq_true]
  cases answered : machine.step.outcome with
  | ok halted =>
    cases halted with
    | true => rw [Run.drive_of_stop rfl, Run.settle_of_stop rfl]; exact ⟨rfl, rfl⟩
    | false => exact absurd answered last
  | fault reason => rw [Run.drive_of_stop rfl, Run.settle_of_stop rfl]; exact ⟨rfl, rfl⟩
  | missingSlot => rw [Run.drive_of_stop rfl, Run.settle_of_stop rfl]; exact ⟨rfl, rfl⟩

/-- The runs of a machine are those of its system. -/
theorem run_system (machine : Machine) (budget : Nat) :
    system.run budget machine =
      ((machine.runFor budget).machine, (machine.runFor budget).outcome) := by
  induction budget generalizing machine with
  | zero =>
    by_cases ended : machine.isPastEnd
    · simp [System.run, system, runFor, Run.drive, Run.settle, Run.start, Run.leave, Run.outcome,
        ended]
    · simp [System.run, system, runFor, Run.drive, Run.settle, Run.start, Run.outcome, ended]
  | succ budget ih =>
    rw [System.run]
    by_cases ended : machine.isPastEnd
    · obtain ⟨-, same, answered⟩ := runFor_of_isPastEnd ended (budget + 1)
      rw [same, answered, show system.isPastEnd machine = true from ended, if_pos rfl]
    · rw [show system.isPastEnd machine = false from Bool.eq_false_iff.mpr ended,
        if_neg Bool.false_ne_true]
      have stepped : (system.step machine).2 = machine.step.outcome := rfl
      by_cases going : machine.step.outcome = .ok false
      · obtain ⟨moved, later⟩ := runFor_of_step ended going budget
        rw [moved, later, stepped, going]
        dsimp only
        rw [ih]
        rfl
      · obtain ⟨moved, later⟩ := runFor_of_last_step ended going budget
        rw [moved, later, stepped]
        cases answered : machine.step.outcome with
        | ok halted =>
          cases halted with
          | true => rfl
          | false => exact absurd answered going
        | fault | missingSlot => rfl

/-- The replies of a machine are those of its system. -/
theorem responds_iff (machine after : Machine) (query : Query) (reply : Reply) :
    machine.Responds query after reply ↔ system.Responds machine query after reply := by
  constructor
  · intro responded
    cases responded with
    | call returned =>
      cases returned with
      | step => exact .step
      | execute word => exact .execute word
      | runFor budget =>
        have run : system.Responds machine _ _ _ := .runFor budget
        rwa [run_system] at run
      | runFreely fuel run ended =>
        have finished : ¬ machine.Spends fuel := by
          obtain ⟨driven, stopped⟩ := (machine.run?_eq_some_iff fuel run).mp ended
          intro spends
          rw [← driven, spends.1] at stopped
          contradiction
        have same := run?_unique ended (run?_of_not_spends finished)
        have unspent : ∀ steps, (system.run fuel machine).2 ≠ .ok (steps, false) := by
          intro steps spent
          rw [run_system] at spent
          exact finished ((machine.outcome_runFor_eq_iff fuel steps).mp spent).1
        have free : system.Responds machine _ _ _ := .runFreely fuel unspent
        rw [run_system] at free
        rwa [same]
    | push value => exact .push value
    | pop => exact .pop
  · intro responded
    cases responded with
    | step => exact .call .step
    | execute word => exact .call (.execute word)
    | runFor budget =>
      rw [run_system]
      exact .call (.runFor budget)
    | runFreely budget finished =>
      rw [run_system] at finished ⊢
      have unspent : ¬ machine.Spends budget := fun spends =>
        finished budget ((machine.outcome_runFor_eq_iff budget budget).mpr ⟨spends, rfl⟩)
      exact .call ((returns_freely_iff unspent _ _).mpr ⟨rfl, rfl⟩)
    | push value => exact .push value
    | pop => exact .pop

theorem responds_eq : Responds = system.Responds := by
  funext machine query after reply
  exact propext (responds_iff machine after query reply)

end Machine

end RegisterMachine
