import RegisterMachine.Proofs.Machine.Output

/-!
The text that a run prints is what its sink is asked to take.

A step prints the text of its output, if it is one, and everything else that it shows are records of
little urgency. The sink of a run has therefore been sent the printed text of all its events, one
after the other.
-/

namespace RegisterMachine

/-- The text that an event sends to the sink. -/
def Event.text? : Event → Option String
  | .record _ => none
  | .print text => some text

/-- Printed text, or a record that is not even as urgent as a warning. -/
def Event.Calm : Event → Prop
  | .record said => Level.warn.rank < said.level.rank
  | .print _ => True

/-- The texts of some events, one after the other. -/
def printedText (events : List Event) : String := String.join (events.filterMap Event.text?)

/-- What some events send to the sink. -/
def sentTexts (events : List Event) : List (List UInt8) := (events.filterMap Event.text?).map utf8

section Texts

theorem utf8_append (first second : String) : utf8 (first ++ second) = utf8 first ++ utf8 second := by
  simp only [utf8, String.toUTF8, String.toByteArray_append, ByteArray.data_append,
    Array.toList_append]

theorem sentTexts_append (first second : List Event) :
    sentTexts (first ++ second) = sentTexts first ++ sentTexts second := by
  rw [sentTexts, List.filterMap_append, List.map_append]
  rfl

/-- The texts together are sent as they are printed. -/
theorem flatten_sentTexts (events : List Event) :
    (sentTexts events).flatten = utf8 (printedText events) := by
  unfold sentTexts printedText
  induction events.filterMap Event.text? with
  | nil => rfl
  | cons text texts ih => rw [List.map_cons, List.flatten_cons, ih, ← utf8_append, String.join_cons]

theorem warn_rank_lt {level : Level}
    (calm : level = .info ∨ level = .debug ∨ level = .trace) : Level.warn.rank < level.rank := by
  rcases calm with rfl | rfl | rfl <;> decide

end Texts

namespace Machine

section Instructions

variable {machine : Machine} {word : Word}

/-- An output shows its text and nothing else. -/
theorem events_output (machine : Machine) (printing : word.opcode? = some .out) :
    (machine.execute word).events = [.print (machine.printed word)] := by
  have read : word.instruction? = some (.output word.rs word.byte) := by
    simp [Word.instruction?, printing]
  simp only [execute, read, perform, printed]

/-- Any other instruction prints nothing. -/
theorem texts_perform {instruction : Instruction}
    (silent : ∀ rs selector, instruction ≠ .output rs selector) :
    (machine.perform instruction).events.filterMap Event.text? = [] := by
  cases instruction with
  | call | ret | loadMemory | storeMemory | arithmetic | push | pop | jumpIfLess =>
    simp only [perform]
    split <;> rfl
  | output rs selector => exact absurd rfl (silent rs selector)
  | move | loadValue | shift | halt => rfl

/-- An executed word prints its text if it is an output. -/
theorem texts_execute (machine : Machine) (word : Word) :
    (machine.execute word).events.filterMap Event.text? =
      if word.opcode? = some .out then [machine.printed word] else [] := by
  split
  · rename_i printing
    rw [machine.events_output printing]
    rfl
  · rename_i silent
    unfold execute
    split
    · rename_i instruction read
      exact texts_perform fun rs selector same =>
        silent (Word.instruction?_eq_output (same ▸ read)).1
    · rfl

/-- What a step prints is what it asks its sink to take. -/
theorem texts_step (machine : Machine) :
    machine.step.events.filterMap Event.text? = (machine.text? .step).toList := by
  cases present : machine.program[machine.registers.ip]? with
  | none =>
    have nothing : machine.text? .step = none := by simp only [text?, word?, present]
    rw [nothing]
    simp only [step, present]
    rfl
  | some word =>
    have asked : machine.text? .step =
        if word.opcode? = some .out then some (machine.printed word) else none := by
      simp only [text?, word?, present]
    have executed := texts_execute (machine.fetched word) word
    rw [printed_fetched] at executed
    rw [asked]
    simp only [step, present]
    refine executed.trans ?_
    split <;> rfl

/-- The sink is sent what a step prints. -/
theorem sink_step (machine : Machine) :
    machine.step.machine.sink = machine.sink.receive (sentTexts machine.step.events) := by
  have sent : sentTexts machine.step.events = machine.sends .step := by
    rw [sentTexts, texts_step, sends, Option.toList_map]
  rw [sent]
  exact machine.sink_does .step

theorem calm_perform (machine : Machine) (instruction : Instruction) :
    ∀ event ∈ (machine.perform instruction).events, event.Calm := by
  cases instruction with
  | call | ret | loadMemory | storeMemory | push | pop | jumpIfLess =>
    simp only [perform]
    split <;> exact List.forall_mem_nil _
  | arithmetic rd rs operation destination =>
    simp only [perform]
    split
    · exact List.forall_mem_nil _
    · exact List.forall_mem_singleton.mpr (warn_rank_lt (.inr (.inl rfl)))
  | output rs selector => exact List.forall_mem_singleton.mpr True.intro
  | move | loadValue | shift | halt => exact List.forall_mem_nil _

/-- A step has nothing urgent to say, not even when it faults. -/
theorem calm_step (machine : Machine) : ∀ event ∈ machine.step.events, event.Calm := by
  simp only [step]
  split
  · exact List.forall_mem_singleton.mpr (warn_rank_lt (.inl rfl))
  · rename_i word present
    refine List.forall_mem_cons.mpr ⟨warn_rank_lt (.inr (.inr rfl)), ?_⟩
    unfold execute
    split
    · exact calm_perform _ _
    · exact List.forall_mem_nil _

end Instructions

end Machine

namespace Run

/-- The sink was sent what the run has printed, and the run has said nothing urgent. -/
structure Relays (machine : Machine) (run : Run) : Prop where
  sent : run.machine.sink = machine.sink.receive (sentTexts run.events.toList)
  calm : ∀ event ∈ run.events.toList, event.Calm

variable {machine : Machine} {run : Run}

theorem start_relays (machine : Machine) : (start machine).Relays machine where
  sent := rfl
  calm := List.forall_mem_nil _

/-- A record at the end prints nothing. -/
theorem Relays.push (relays : run.Relays machine) (record : Record)
    (calm : Level.warn.rank < record.level.rank) (stop? : Option Stop) :
    Relays machine { run with events := run.events.push (.record record), stop? := stop? } where
  sent := by
    have nothing : sentTexts [.record record] = [] := rfl
    rw [Array.toList_push, sentTexts_append, nothing, List.append_nil]
    exact relays.sent
  calm := by
    rw [Array.toList_push, List.forall_mem_append, List.forall_mem_singleton]
    exact ⟨relays.calm, calm⟩

theorem Relays.step (relays : run.Relays machine) (steps : Nat) (stop? : Option Stop) :
    Relays machine ⟨run.machine.step.machine, run.events ++ run.machine.step.events, steps, stop?⟩ where
  sent := by
    rw [Array.toList_appendList, sentTexts_append, Sink.receive_append, ← relays.sent]
    exact run.machine.sink_step
  calm := by
    rw [Array.toList_appendList, List.forall_mem_append]
    exact ⟨relays.calm, run.machine.calm_step⟩

theorem Relays.advance (relays : run.Relays machine) : run.advance.Relays machine := by
  unfold Run.advance
  split
  · exact relays.push (.pastEnd _) (warn_rank_lt (.inl rfl)) _
  · dsimp only
    split <;> exact relays.step _ _

/-- Whatever a run has done, its sink was sent what it printed. -/
theorem Relays.drive (relays : run.Relays machine) (fuel : Nat) :
    (run.drive fuel).Relays machine := by
  induction fuel generalizing run with
  | zero => exact relays
  | succ fuel ih =>
    rw [Run.drive]
    split
    · exact relays
    · exact ih relays.advance

theorem Relays.settle (relays : run.Relays machine) (budget : Nat) :
    (run.settle budget).Relays machine := by
  unfold Run.settle
  split
  · exact relays
  · split
    · exact relays.push (.pastEnd _) (warn_rank_lt (.inl rfl)) _
    · exact relays.push (.budgetSpent budget) (warn_rank_lt (.inl rfl)) run.stop?

end Run

end RegisterMachine
