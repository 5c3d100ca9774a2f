import RegisterMachine.Proofs.Machine.Atomicity
import RegisterMachine.Proofs.Machine.Budget
import RegisterMachine.Proofs.Machine.Likeness

/-!
The output of a session is the first part of what the session asked for.

Every output of a session sends its text to the sink, one after the other, whatever the sink
answers. A sink with a limit takes them until its room is used up, so what it holds is always a
prefix of all the texts together, cut where the room ends. No other part of a machine depends on the
sink.
-/

namespace RegisterMachine

/-- A call that executes at most one instruction. -/
inductive Deed where
  | step
  | execute (word : Word)
deriving DecidableEq, Repr

/-- How many instructions a run has executed, one that ended it by a fault included. -/
def Run.tried (run : Run) : Nat :=
  match run.stop? with
  | some (.fault _) => run.steps + 1
  | some .missingSlot => run.steps + 1
  | _ => run.steps

namespace Machine

def does (machine : Machine) : Deed → Effect
  | .step => machine.step
  | .execute word => machine.execute word

/-- The word that a deed executes. There is none past the end of the program. -/
def word? (machine : Machine) : Deed → Option Word
  | .step => machine.program[machine.registers.ip]?
  | .execute word => some word

/-- The text that a deed asks the sink to take. Only an output asks for any. -/
def text? (machine : Machine) (deed : Deed) : Option String :=
  match machine.word? deed with
  | some word => if word.opcode? = some .out then some (machine.printed word) else none
  | none => none

/-- The text that a deed sends to the sink, if there is one. -/
def sends (machine : Machine) (deed : Deed) : List (List UInt8) :=
  ((machine.text? deed).map utf8).toList

/-- The machine after some deeds, whether or not they faulted. -/
def follow (machine : Machine) : List Deed → Machine
  | [] => machine
  | deed :: deeds => (machine.does deed).machine.follow deeds

/-- All the texts that some deeds ask the sink to take, in order. -/
def asked (machine : Machine) : List Deed → List (List UInt8)
  | [] => []
  | deed :: deeds => machine.sends deed ++ (machine.does deed).machine.asked deeds

/-- A session has come to a machine by executing the deeds. A run may be looked at after any number
of its instructions. -/
inductive ReachedBy (start : Machine) : List Deed → Machine → Prop where
  | start : ReachedBy start [] start
  | step {deeds : List Deed} {machine : Machine} (reached : ReachedBy start deeds machine) :
      ReachedBy start (deeds ++ [.step]) machine.step.machine
  | execute {deeds : List Deed} {machine : Machine} (word : Word)
      (reached : ReachedBy start deeds machine) :
      ReachedBy start (deeds ++ [.execute word]) (machine.execute word).machine
  | run {deeds : List Deed} {machine : Machine} (fuel : Nat)
      (reached : ReachedBy start deeds machine) :
      ReachedBy start (deeds ++ .replicate ((Run.start machine).drive fuel).tried .step)
        ((Run.start machine).drive fuel).machine

variable {machine start : Machine} {word : Word} {deed : Deed} {deeds : List Deed} {text : String}

section Writing

/-- An executed output sends its text to the sink and answers as the sink does. -/
theorem execute_output (machine : Machine) (printing : word.opcode? = some .out) :
    (machine.execute word).machine.sink = (machine.sink.write (utf8 (machine.printed word))).1 ∧
      (machine.execute word).outcome =
        ((machine.sink.write (utf8 (machine.printed word))).2.elim (.ok false)
          fun error => .fault (.output error)) := by
  have read : word.instruction? = some (.output word.rs word.byte) := by
    simp [Word.instruction?, printing]
  simp only [execute, read, perform, printed]
  refine ⟨trivial, ?_⟩
  cases (machine.sink.write
    (utf8 ((OutputFormat.ofSelector word.byte).render (machine.registers.read word.rs)))).2 <;> rfl

/-- Any other word leaves the sink alone. -/
theorem execute_silent (machine : Machine) (silent : word.opcode? ≠ some .out) :
    (machine.execute word).machine.sink = machine.sink := by
  unfold execute
  split
  · rename_i instruction read
    rw [machine.perform_eq_refit fun rs selector same =>
      silent (Word.instruction?_eq_output (same ▸ read)).1]
    rfl
  · rfl

/-- A deed with a word executes it, on a machine that may have fetched it before. -/
theorem exists_executed (read : machine.word? deed = some word) :
    ∃ before : Machine, (machine.does deed).machine = (before.execute word).machine ∧
      (machine.does deed).outcome = (before.execute word).outcome ∧
        before.sink = machine.sink ∧ before.printed word = machine.printed word := by
  cases deed with
  | step =>
    have present : machine.program[machine.registers.ip]? = some word := read
    refine ⟨machine.fetched word, ?_, ?_, rfl, printed_fetched machine word⟩
    · simp only [does, step, present]
    · simp only [does, step, present]
  | execute other =>
    obtain rfl : other = word := Option.some.inj read
    exact ⟨machine, rfl, rfl, rfl, rfl⟩

theorem does_of_text? (asking : machine.text? deed = some text) :
    (machine.does deed).machine.sink = (machine.sink.write (utf8 text)).1 ∧
      (machine.does deed).outcome =
        ((machine.sink.write (utf8 text)).2.elim (.ok false) fun error => .fault (.output error)) := by
  unfold text? at asking
  split at asking
  · rename_i word read
    obtain ⟨printing, same⟩ := Option.ite_none_right_eq_some.mp asking
    obtain rfl := Option.some.inj same
    obtain ⟨before, after, outcome, sink, printed⟩ := exists_executed read
    rw [after, outcome, ← sink, ← printed]
    exact before.execute_output printing
  · contradiction

theorem does_of_silent (silent : machine.text? deed = none) :
    (machine.does deed).machine.sink = machine.sink := by
  unfold text? at silent
  split at silent
  · rename_i word read
    obtain ⟨before, after, -, sink, -⟩ := exists_executed read
    rw [after, ← sink]
    exact before.execute_silent (by simpa using silent)
  · rename_i absent
    cases deed with
    | step =>
      have ended : machine.isPastEnd := machine.isPastEnd_iff.mpr absent
      rw [does, (step_of_isPastEnd ended).1]
    | execute word => contradiction

/-- A sink receives what a deed sends. -/
theorem sink_does (machine : Machine) (deed : Deed) :
    (machine.does deed).machine.sink = machine.sink.receive (machine.sends deed) := by
  unfold sends
  cases asking : machine.text? deed with
  | none => exact does_of_silent asking
  | some text => exact (does_of_text? asking).1

/-- A sink receives all that some deeds ask for. -/
theorem sink_follow (machine : Machine) (deeds : List Deed) :
    (machine.follow deeds).sink = machine.sink.receive (machine.asked deeds) := by
  induction deeds generalizing machine with
  | nil => rfl
  | cons deed deeds ih => rw [follow, ih, sink_does, asked, Sink.receive_append]

end Writing

section Sessions

theorem follow_append (machine : Machine) (first second : List Deed) :
    machine.follow (first ++ second) = (machine.follow first).follow second := by
  induction first generalizing machine with
  | nil => rfl
  | cons deed first ih => exact ih _

theorem follow_steps (machine : Machine) (count : Nat) :
    machine.follow (.replicate count .step) = machine.after count := by
  induction count with
  | zero => rfl
  | succ count ih => rw [List.replicate_succ', follow_append, ih, after_succ]; rfl

end Sessions

end Machine

namespace Run

variable {run : Run} {machine : Machine}

/-- A run tries one instruction after the other. -/
theorem machine_advance (unstopped : run.stop? = none) (place : run.machine = machine.after run.tried) :
    run.advance.machine = machine.after run.advance.tried := by
  have counted : run.tried = run.steps := by simp only [tried, unstopped]
  have next : run.machine.step.machine = machine.after (run.steps + 1) := by
    rw [place, counted, Machine.after_succ]
  unfold advance
  split
  · show run.machine = machine.after run.steps
    rw [← counted]
    exact place
  · dsimp only
    split
    · rename_i halted answered
      cases halted <;> exact next
    · exact next
    · exact next

theorem machine_drive (place : run.machine = machine.after run.tried) (fuel : Nat) :
    (run.drive fuel).machine = machine.after (run.drive fuel).tried := by
  induction fuel generalizing run with
  | zero => exact place
  | succ fuel ih =>
    rw [drive]
    split
    · exact place
    · rename_i unstopped
      exact ih (machine_advance unstopped place)

end Run

namespace Machine

variable {start machine other : Machine} {deed : Deed} {deeds : List Deed} {text : String}

theorem ReachedBy.follow (reached : start.ReachedBy deeds machine) :
    machine = start.follow deeds := by
  induction reached with
  | start => rfl
  | step _ ih => rw [follow_append, ← ih]; rfl
  | execute word _ ih => rw [follow_append, ← ih]; rfl
  | run fuel _ ih =>
    rw [follow_append, ← ih, follow_steps]
    exact Run.machine_drive rfl fuel

theorem ReachedBy.after (reached : start.ReachedBy deeds machine) (count : Nat) :
    start.ReachedBy (deeds ++ .replicate count .step) (machine.after count) := by
  induction count with
  | zero => rwa [List.replicate_zero, List.append_nil]
  | succ count ih => rw [List.replicate_succ', ← List.append_assoc, after_succ]; exact ih.step

/-- Every session is made of deeds. -/
theorem Reached.exists_deeds (reached : start.Reached machine) :
    ∃ deeds, start.ReachedBy deeds machine := by
  induction reached with
  | start => exact ⟨[], .start⟩
  | call _ returned ih =>
    obtain ⟨deeds, before⟩ := ih
    cases returned with
    | step => exact ⟨_, before.step⟩
    | execute word => exact ⟨_, before.execute word⟩
    | runFor budget =>
      rw [runFor, Run.machine_settle]
      exact ⟨_, before.run budget⟩
    | runFreely fuel run ended =>
      obtain ⟨rfl, -⟩ := (run?_eq_some_iff _ fuel run).mp ended
      exact ⟨_, before.run fuel⟩

/-- How an output of some bytes ends on a sink with a limit. A refusal for want of room is the last
change that the sink sees. -/
structure Answers (limit : Limit) (bytes : List UInt8) (effect : Effect) : Prop where
  refused : ¬ limit.Fits bytes.length → effect.outcome = .fault (.output limit.refusal)
  final : ¬ limit.Fits bytes.length → ∀ deeds after,
    effect.machine.ReachedBy deeds after → after.sink.written = effect.machine.sink.written
  unflushed : limit.Fits bytes.length → ∀ error, limit.flushError = some error →
    effect.outcome = .fault (.output error)
  printed : limit.Fits bytes.length → limit.flushError = none → effect.outcome = .ok false

theorem ReachedBy.sink (reached : start.ReachedBy deeds machine) :
    machine.sink = start.sink.receive (start.asked deeds) := by
  rw [reached.follow, sink_follow]

theorem does_answers {limit : Limit} (keeps : machine.sink.Keeps limit)
    (asking : machine.text? deed = some text) :
    Answers limit (utf8 text) (machine.does deed) := by
  obtain ⟨sink, outcome⟩ := does_of_text? asking
  constructor
  · intro full
    rw [outcome, keeps.write_of_not_fits full]
    rfl
  · intro full deeds after reached
    obtain ⟨-, written⟩ := (keeps.write (utf8 text)).receive ((machine.does deed).machine.asked deeds)
    rw [reached.sink, sink, written, limit.most_after_of_not_fits full, List.take_zero,
      List.append_nil]
  · intro fits error failing
    rw [outcome, keeps.write_of_fits fits, failing]
    rfl
  · intro fits working
    rw [outcome, keeps.write_of_fits fits, working]
    rfl

/-- The room left for an output is that of the start less all the bytes that were asked for. -/
theorem ReachedBy.answers {limit : Limit} (keeps : start.sink.Keeps limit)
    (reached : start.ReachedBy deeds machine) (asking : machine.text? deed = some text) :
    Answers (limit.after (start.asked deeds).flatten.length) (utf8 text) (machine.does deed) := by
  refine does_answers ?_ asking
  rw [reached.sink]
  exact (keeps.receive _).1

section Independence

/-- Two machines differ at most in their sinks. -/
def SameButSink (first second : Machine) : Prop := ∃ sink, second = { first with sink := sink }

variable {first second : Machine}

theorem SameButSink.execute (same : first.SameButSink second) (word : Word) :
    (first.execute word).machine.SameButSink (second.execute word).machine := by
  obtain ⟨sink, rfl⟩ := same
  unfold Machine.execute
  split
  · rename_i instruction read
    by_cases printing : ∃ rs selector, instruction = .output rs selector
    · obtain ⟨rs, selector, rfl⟩ := printing
      exact ⟨_, rfl⟩
    · have silent : ∀ rs selector, instruction ≠ .output rs selector := fun rs selector same =>
        printing ⟨rs, selector, same⟩
      have kept := congrArg Effect.machine (first.perform_eq_refit silent)
      refine ⟨sink, ?_⟩
      calc ({ first with sink := sink }.perform instruction).machine
          = (first.perform instruction).machine.refit sink first.program first.lastFetched :=
            congrArg Effect.machine (first.perform_refit sink first.program first.lastFetched silent)
        _ = { (first.perform instruction).machine with sink := sink } := by rw [kept]; rfl
  · exact ⟨sink, rfl⟩

theorem SameButSink.does (same : first.SameButSink second) (deed : Deed) :
    (first.does deed).machine.SameButSink (second.does deed).machine := by
  cases deed with
  | step =>
    obtain ⟨sink, rfl⟩ := same
    simp only [Machine.does, Machine.step]
    cases first.program[first.registers.ip]? with
    | none => exact ⟨sink, rfl⟩
    | some word =>
      have fetched : (first.fetched word).SameButSink ({ first with sink := sink }.fetched word) :=
        ⟨sink, rfl⟩
      exact fetched.execute word
  | execute word => exact same.execute word

/-- What a deed sends is not read from the sink. -/
theorem SameButSink.sends (same : first.SameButSink second) (deed : Deed) :
    second.sends deed = first.sends deed := by
  obtain ⟨sink, rfl⟩ := same
  cases deed <;> rfl

theorem SameButSink.follow (same : first.SameButSink second) (deeds : List Deed) :
    (first.follow deeds).SameButSink (second.follow deeds) ∧
      second.asked deeds = first.asked deeds := by
  induction deeds generalizing first second with
  | nil => exact ⟨same, rfl⟩
  | cons deed deeds ih =>
    obtain ⟨later, asked⟩ := ih (same.does deed)
    refine ⟨later, ?_⟩
    rw [Machine.asked, Machine.asked, same.sends, asked]

end Independence

/-- What the output of all sessions from a machine is. -/
structure Prints (start : Machine) (limit : Limit) : Prop where
  sessions : ∀ machine, start.Reached machine → ∃ deeds, start.ReachedBy deeds machine
  deeds_lead : ∀ deeds machine, start.ReachedBy deeds machine → machine = start.follow deeds
  runs : ∀ deeds machine fuel reason, start.ReachedBy deeds machine →
    ((Run.start machine).drive fuel).stop? = some (.fault reason) →
      ∃ steps before, start.ReachedBy (deeds ++ .replicate steps .step) before ∧
        (before.does .step).outcome = .fault reason ∧
          (before.does .step).machine = ((Run.start machine).drive fuel).machine
  received : ∀ deeds machine, start.ReachedBy deeds machine →
    machine.sink = start.sink.receive (start.asked deeds)
  first_part : ∀ deeds machine, start.ReachedBy deeds machine →
    machine.sink.written = start.sink.written ++
      (start.asked deeds).flatten.take (limit.most (start.asked deeds).flatten.length)
  answers : ∀ deeds machine deed text, start.ReachedBy deeds machine →
    machine.text? deed = some text →
      Answers (limit.after (start.asked deeds).flatten.length) (utf8 text) (machine.does deed)
  independent : ∀ sink deeds machine other, start.ReachedBy deeds machine →
    { start with sink := sink }.ReachedBy deeds other →
      machine.SameButSink other ∧ { start with sink := sink }.asked deeds = start.asked deeds
  steps_independent : ∀ sink count,
    (start.after count).SameButSink ({ start with sink := sink }.after count)

end Machine

end RegisterMachine
