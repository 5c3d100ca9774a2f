import RegisterMachine.Proofs.Machine.Bounds
import RegisterMachine.Proofs.Sink

/-!
Faults are atomic. An instruction that faults changes nothing, except that a sink which refuses an
output keeps the part that it took. A step that faults has also fetched, and nothing else.
-/

namespace RegisterMachine

theorem Memory.read_eq_error_iff {memory : Memory} {address : Nat} {reason : Fault} :
    memory.read address = .error reason ↔
      memory.size ≤ address ∧ reason = .memoryOutOfBounds address := by
  have absent := memory.cells.get?_eq_none_iff address
  unfold read size
  split
  · rename_i value present
    rw [present] at absent
    simp only [reduceCtorEq, false_iff, Nat.not_le] at absent ⊢
    omega
  · rename_i missing
    simp only [absent.mp missing, true_and, Except.error.injEq, eq_comm]

theorem Memory.write_eq_error_iff {memory : Memory} {address value : Nat} {reason : Fault} :
    memory.write address value = .error reason ↔
      memory.size ≤ address ∧ reason = .memoryOutOfBounds address := by
  unfold write size
  split
  · simp only [reduceCtorEq, false_iff]
    omega
  · rename_i outside
    simp only [Nat.le_of_not_lt outside, true_and, Except.error.injEq, eq_comm]

/-- Only the opcode of an output reads as one, and its fields say what is printed. -/
theorem Word.instruction?_eq_output {word : Word} {rs : Register} {selector : Byte}
    (read : word.instruction? = some (.output rs selector)) :
    word.opcode? = some .out ∧ rs = word.rs ∧ selector = word.byte := by
  obtain ⟨opcode, known, meaning⟩ := Option.map_eq_some_iff.mp read
  cases opcode with
  | out =>
    obtain ⟨rfl, rfl⟩ := Instruction.output.inj meaning
    exact ⟨known, rfl, rfl⟩
  | _ => contradiction

namespace Machine

variable {machine : Machine} {instruction : Instruction} {word : Word} {reason : Fault}

/-- The text that a word sends to the sink if it is an output. -/
def printed (machine : Machine) (word : Word) : String :=
  (OutputFormat.ofSelector word.byte).render (machine.registers.read word.rs)

/-- The sink that a faulting word leaves behind. It is the old one, unless the fault is that of an
output: then it has refused the printed text, and it has gained the first bytes of that text and
nothing more. -/
structure Refused (machine : Machine) (word : Word) (reason : Fault) (sink : Sink) : Prop where
  untouched : (∀ error, reason ≠ .output error) → sink = machine.sink
  partly_taken : ∀ error, reason = .output error →
    word.opcode? = some .out ∧ machine.sink.Refuses (utf8 (machine.printed word)) error ∧
      sink = (machine.sink.write (utf8 (machine.printed word))).1 ∧
        ∃ taken, taken <+: utf8 (machine.printed word) ∧
          sink.written = machine.sink.written ++ taken

/-- An instruction that stops with a fault of its own has written nothing. -/
theorem stop_fault {cause : Fault} (inner : ∀ error, cause ≠ .output error)
    (failed : (Effect.stop machine cause).outcome = .fault reason) :
    (Effect.stop machine cause).machine = machine ∧ ∀ error, reason ≠ .output error := by
  have same : cause = reason := Outcome.fault.inj failed
  rw [← same]
  exact ⟨rfl, inner⟩

/-- An instruction other than an output faults before its first write. -/
theorem perform_fault (silent : ∀ rs selector, instruction ≠ .output rs selector)
    (failed : (machine.perform instruction).outcome = .fault reason) :
    (machine.perform instruction).machine = machine ∧ ∀ error, reason ≠ .output error := by
  cases instruction with
  | call target | push rs =>
    simp only [perform] at failed ⊢
    split at failed
    · contradiction
    · rename_i refused
      obtain ⟨-, rfl⟩ := (Stack.push_eq_error_iff _).mp refused
      exact stop_fault (fun _ => Fault.noConfusion) failed
  | ret | pop rd =>
    simp only [perform] at failed ⊢
    split at failed
    · contradiction
    · rename_i refused
      obtain ⟨-, rfl⟩ := (Stack.pop_eq_fault_iff _).mp refused
      exact stop_fault (fun _ => Fault.noConfusion) failed
    · contradiction
  | loadMemory rd address =>
    simp only [perform] at failed ⊢
    split at failed
    · contradiction
    · rename_i refused
      obtain ⟨-, rfl⟩ := Memory.read_eq_error_iff.mp refused
      exact stop_fault (fun _ => Fault.noConfusion) failed
  | storeMemory rd address =>
    simp only [perform] at failed ⊢
    split at failed
    · contradiction
    · rename_i refused
      obtain ⟨-, rfl⟩ := Memory.write_eq_error_iff.mp refused
      exact stop_fault (fun _ => Fault.noConfusion) failed
  | arithmetic rd rs operation destination =>
    simp only [perform] at failed ⊢
    split at failed
    · contradiction
    · obtain rfl := Outcome.fault.inj failed
      exact ⟨rfl, fun error => Fault.noConfusion⟩
  | jumpIfLess rd target =>
    simp only [perform] at failed
    split at failed <;> contradiction
  | output rs selector => exact absurd rfl (silent rs selector)
  | move | loadValue | shift | halt => contradiction

/-- An output faults only where the sink refuses the text. -/
theorem perform_output_fault {rs : Register} {selector : Byte}
    (failed : (machine.perform (.output rs selector)).outcome = .fault reason) :
    let text := utf8 ((OutputFormat.ofSelector selector).render (machine.registers.read rs))
    (∃ error, reason = .output error ∧ machine.sink.Refuses text error) ∧
      (machine.perform (.output rs selector)).machine =
        { machine with sink := (machine.sink.write text).1 } := by
  refine ⟨?_, rfl⟩
  simp only [perform] at failed
  split at failed
  · contradiction
  · rename_i error refused
    exact ⟨error, (Outcome.fault.inj failed).symm, (Sink.write_snd_eq_some_iff _ _ _).mp refused⟩

theorem execute_fault (failed : (machine.execute word).outcome = .fault reason) :
    ∃ sink, machine.Refused word reason sink ∧
      (machine.execute word).machine = { machine with sink := sink } := by
  unfold execute at failed ⊢
  split at failed
  · rename_i instruction read
    by_cases printing : ∃ rs selector, instruction = .output rs selector
    · obtain ⟨rs, selector, rfl⟩ := printing
      obtain ⟨⟨error, rfl, refuses⟩, left⟩ := perform_output_fault failed
      obtain ⟨known, rfl, rfl⟩ := Word.instruction?_eq_output read
      obtain ⟨taken, first, written⟩ := machine.sink.written_write (utf8 (machine.printed word))
      refine ⟨_, ?_, left⟩
      constructor
      · intro other
        exact absurd rfl (other error)
      · intro _ same
        obtain rfl := Fault.output.inj same
        exact ⟨known, refuses, rfl, taken, first, written⟩
    · obtain ⟨left, other⟩ := perform_fault (fun rs selector same =>
        printing ⟨rs, selector, same⟩) failed
      refine ⟨machine.sink, ⟨fun _ => rfl, fun error same => absurd same (other error)⟩, left⟩
  · obtain rfl := Outcome.fault.inj failed
    exact ⟨machine.sink, ⟨fun _ => rfl, fun _ same => Fault.noConfusion same⟩, rfl⟩

/-- Fetching does not change the general registers. -/
theorem printed_fetched (machine : Machine) (word : Word) :
    (machine.fetched word).printed word = machine.printed word := by
  simp only [printed, fetched, Registers.read_setIp]

/-- Fetching does not change the sink either. -/
theorem Refused.of_fetched {sink : Sink} (refused : (machine.fetched word).Refused word reason sink) :
    machine.Refused word reason sink := by
  refine ⟨refused.untouched, ?_⟩
  rw [← machine.printed_fetched word]
  exact refused.partly_taken

theorem step_fault (failed : machine.step.outcome = .fault reason) :
    ∃ word sink, machine.program[machine.registers.ip]? = some word ∧
      machine.Refused word reason sink ∧
        machine.step.machine = { machine.fetched word with sink := sink } := by
  simp only [step] at failed ⊢
  split at failed
  · contradiction
  · rename_i word present
    obtain ⟨sink, refused, left⟩ := execute_fault failed
    exact ⟨word, sink, present, refused.of_fetched, left⟩

/-- An instruction that faults leaves the machine as it was but for the sink of an output, and a
step that faults has in addition moved the instruction pointer on and noted what it fetched. -/
theorem fault_leaves_rest (machine : Machine) (word : Word) (reason : Fault) :
    ((machine.execute word).outcome = .fault reason →
      ∃ sink, machine.Refused word reason sink ∧
        (machine.execute word).machine = { machine with sink := sink }) ∧
    (machine.step.outcome = .fault reason →
      ∃ read sink, machine.program[machine.registers.ip]? = some read ∧
        machine.Refused read reason sink ∧
          machine.step.machine = { machine with
            registers := { machine.registers with
              ip := (machine.registers.ip + 1) % modulus machine.registers.width }
            lastFetched := some (machine.registers.ip, read)
            sink := sink }) := by
  rw [← Registers.wrap_eq_mod]
  exact ⟨execute_fault, step_fault⟩

/-- A sink with room for one byte takes the first digit of ten and refuses the second. -/
theorem fault_leaves_rest_half_printed :
    let machine := { fresh ⟨8, 0, 1⟩ [11] (Limit.sink { room := some 1 }) with
      registers := ⟨8, 10, 0, 0, 0, 0, 0⟩ }
    machine.step.outcome = .fault (.output .writeZero) ∧
      machine.step.machine.sink.written = [49] ∧
        ∃ read sink, machine.program[machine.registers.ip]? = some read ∧
          machine.Refused read (.output .writeZero) sink ∧
            machine.step.machine = { machine with
              registers := { machine.registers with
                ip := (machine.registers.ip + 1) % modulus machine.registers.width }
              lastFetched := some (machine.registers.ip, read)
              sink := sink } := by
  intro machine
  have failed : machine.step.outcome = .fault (.output .writeZero) := by decide +kernel
  have shown : machine.step.machine.sink.written = [49] := by decide +kernel
  exact ⟨failed, shown, (fault_leaves_rest machine 11 (.output .writeZero)).2 failed⟩

end Machine

end RegisterMachine
