import RegisterMachine.Proofs.Machine.Safety
import RegisterMachine.Proofs.Machine.Verdicts

/-!
What the memory cells of a machine hold.

Only a store that succeeds writes to memory, and it writes what its register holds. A cell therefore
holds the value of the latest store to it, or zero, and a load brings back exactly that value.
-/

namespace RegisterMachine

theorem Memory.read_eq_ok_iff {memory : Memory} {address value : Nat} :
    memory.read address = .ok value ↔ memory.cells.get? address = some value := by
  unfold read
  split <;> simp_all

namespace Machine

section Deeds

/-- The machine that executes the word of a deed. A step has fetched the word before. -/
def ready (machine : Machine) (word : Word) : Deed → Machine
  | .step => machine.fetched word
  | .execute _ => machine

/-- The registers of a machine when it executes the word of a deed. -/
def advanced (machine : Machine) : Deed → Registers
  | .step => machine.registers.setIp (machine.registers.ip + 1)
  | .execute _ => machine.registers

/-- The address and the value of the store that a deed makes. One that fails makes none. -/
def store? (machine : Machine) (deed : Deed) : Option (Nat × Nat) :=
  match machine.word? deed with
  | some word =>
    if word.opcode? = some .ldm ∧ (machine.does deed).outcome = .ok false then
      some (word.address, machine.registers.read word.rd)
    else
      none
  | none => none

/-- The stores of some deeds, the earliest one first. -/
def stores (machine : Machine) : List Deed → List (Nat × Nat)
  | [] => []
  | deed :: deeds => (machine.store? deed).toList ++ (machine.does deed).machine.stores deeds

/-- The value of the latest store to an address, or zero if there was none. -/
def latest (stores : List (Nat × Nat)) (address : Nat) : Nat :=
  (stores.reverse.lookup address).getD 0

end Deeds

variable {machine start : Machine} {word : Word} {deed : Deed} {deeds : List Deed}

section Execution

/-- Only a store writes to memory. -/
theorem perform_memory {instruction : Instruction}
    (other : ∀ rd address, instruction ≠ .storeMemory rd address) :
    (machine.perform instruction).machine.memory = machine.memory := by
  cases instruction with
  | storeMemory rd address => exact absurd rfl (other rd address)
  | call | ret | loadMemory | arithmetic | push | pop | jumpIfLess =>
    simp only [perform]
    split <;> rfl
  | move | loadValue | shift | output | halt => rfl

/-- A store that succeeds writes the value of its register to its cell. -/
theorem execute_store (stores : word.opcode? = some .ldm)
    (well : (machine.execute word).outcome = .ok false) :
    machine.memory.write word.address (machine.registers.read word.rd) =
      .ok (machine.execute word).machine.memory := by
  have read : word.instruction? = some (.storeMemory word.rd word.address) := by
    rw [Word.instruction?, stores]
    rfl
  simp only [execute, read, perform] at well ⊢
  split
  · rename_i memory written
    exact written
  · rename_i reason refused
    simp [refused, Effect.stop] at well

/-- A word that is no store, or a store that fails, leaves the memory alone. -/
theorem execute_memory (silent : ¬ (word.opcode? = some .ldm ∧
    (machine.execute word).outcome = .ok false)) :
    (machine.execute word).machine.memory = machine.memory := by
  by_cases storing : ∃ rd address, word.instruction? = some (.storeMemory rd address)
  · obtain ⟨rd, address, read⟩ := storing
    have known : word.opcode? = some .ldm := Word.opcode?_of_instruction? read
    simp only [execute, read, perform] at silent ⊢
    split
    · rename_i memory written
      simp [written, known, Effect.proceed] at silent
    · rfl
  · unfold execute
    split
    · rename_i instruction read
      exact perform_memory fun rd address same => storing ⟨rd, address, same ▸ read⟩
    · rfl

/-- A load inside the memory puts the value of the cell into its register. -/
theorem execute_load (machine : Machine) {value : Nat} (loads : word.opcode? = some .ldr)
    (found : machine.memory.read word.address = .ok value) :
    machine.execute word =
      .proceed { machine with registers := machine.registers.write word.rd value } := by
  have read : word.instruction? = some (.loadMemory word.rd word.address) := by
    rw [Word.instruction?, loads]
    rfl
  simp only [execute, read, perform, found]

end Execution

section History

theorem does_of_word? (read : machine.word? deed = some word) :
    (machine.does deed).machine = ((machine.ready word deed).execute word).machine ∧
      (machine.does deed).outcome = ((machine.ready word deed).execute word).outcome := by
  cases deed with
  | step =>
    have present : machine.program[machine.registers.ip]? = some word := read
    simp only [does, step, present, ready, and_self]
  | execute other =>
    obtain rfl : other = word := Option.some.inj read
    exact ⟨rfl, rfl⟩

/-- Getting ready moves the instruction pointer at most. -/
theorem registers_ready (machine : Machine) (word : Word) (deed : Deed) :
    (machine.ready word deed).registers = machine.advanced deed := by
  cases deed <;> rfl

theorem memory_ready (machine : Machine) (word : Word) (deed : Deed) :
    (machine.ready word deed).memory = machine.memory := by
  cases deed <;> rfl

/-- A deed that faults for any cause but the sink does no more than get ready. -/
theorem does_of_causes {reason : Fault} (read : machine.word? deed = some word)
    (silent : ∀ error, reason ≠ .output error)
    (small : reason = .divisionByZero →
      (machine.ready word deed).registers.read word.rs < modulus 64)
    (causes : (machine.ready word deed).Causes word reason) :
    (machine.does deed).outcome = .fault reason ∧
      (machine.does deed).machine = machine.ready word deed := by
  obtain ⟨after, outcome⟩ := does_of_word? read
  rw [after, outcome]
  exact execute_of_causes silent small causes

theorem read_advanced (machine : Machine) (deed : Deed) (register : Register) :
    (machine.advanced deed).read register = machine.registers.read register := by
  cases deed with
  | step => exact machine.registers.read_setIp register _
  | execute word => rfl

/-- A deed that stores changes one cell. -/
theorem get?_does_of_store {place value : Nat} (stored : machine.store? deed = some (place, value))
    (address : Nat) : (machine.does deed).machine.memory.cells.get? address =
      if address = place then some value else machine.memory.cells.get? address := by
  unfold store? at stored
  split at stored
  · rename_i word read
    obtain ⟨⟨stores, well⟩, same⟩ := Option.ite_none_right_eq_some.mp stored
    obtain ⟨rfl, rfl⟩ := Prod.mk.inj (Option.some.inj same)
    obtain ⟨after, outcome⟩ := does_of_word? read
    have written := execute_store stores (outcome ▸ well)
    rw [← after, memory_ready, registers_ready, read_advanced] at written
    exact Memory.get?_write address written
  · contradiction

/-- Any other deed leaves the memory alone. -/
theorem memory_does_of_silent (silent : machine.store? deed = none) :
    (machine.does deed).machine.memory = machine.memory := by
  unfold store? at silent
  split at silent
  · rename_i word read
    obtain ⟨after, outcome⟩ := does_of_word? read
    have quiet := (ite_eq_right_iff.mp silent)
    rw [after, execute_memory, memory_ready]
    rw [← outcome]
    exact fun stored => Option.some_ne_none _ (quiet stored)
  · rename_i absent
    cases deed with
    | step => rw [does, (step_of_isPastEnd (machine.isPastEnd_iff.mpr absent)).1]
    | execute word => contradiction

theorem get?_does (machine : Machine) (deed : Deed) (address : Nat) :
    (machine.does deed).machine.memory.cells.get? address =
      ((machine.store? deed).toList.lookup address).or (machine.memory.cells.get? address) := by
  cases stored : machine.store? deed with
  | none => rw [memory_does_of_silent stored]; rfl
  | some store =>
    obtain ⟨place, value⟩ := store
    rw [get?_does_of_store stored, Option.toList_some]
    by_cases same : address = place
    · rw [same, if_pos rfl, List.lookup_cons_self, Option.some_or]
    · have apart : (address == place) = false := beq_false_of_ne same
      rw [if_neg same, List.lookup_cons, apart, List.lookup_nil, Option.none_or]

/-- A cell holds the value of the latest store to it, or what it held before all of them. -/
theorem get?_follow (machine : Machine) (deeds : List Deed) (address : Nat) :
    (machine.follow deeds).memory.cells.get? address =
      ((machine.stores deeds).reverse.lookup address).or (machine.memory.cells.get? address) := by
  induction deeds generalizing machine with
  | nil => rfl
  | cons deed deeds ih =>
    have one : (machine.store? deed).toList.reverse = (machine.store? deed).toList := by
      cases machine.store? deed <;> rfl
    rw [follow, ih, get?_does, stores, List.reverse_append, List.lookup_append, one,
      Option.or_assoc]

/-- The deeds of a session are calls. -/
theorem ReachedBy.reached (reached : start.ReachedBy deeds machine) : start.Reached machine := by
  induction reached with
  | start => exact .start
  | step _ ih => exact .call ih .step
  | execute word _ ih => exact .call ih (.execute word)
  | run fuel _ ih =>
    rw [← Run.machine_settle fuel]
    exact .call ih (.runFor fuel)

end History

section Coherence

variable {configuration : Configuration} {program : List Word} {sink : Sink}

/-- What the stores of some deeds mean for the machine that the deeds led to. Each cell holds the
value of the latest store to it, a load puts that value into its register, and an access outside
the memory does nothing but fault. -/
structure Coherent (configuration : Configuration) (start : Machine) (deeds : List Deed)
    (machine : Machine) : Prop where
  deeds_lead : machine = start.follow deeds
  cell_latest : ∀ address < configuration.memory,
    machine.memory.read address = .ok (latest (start.stores deeds) address)
  load : ∀ deed word, machine.word? deed = some word → word.opcode? = some .ldr →
    word.address < configuration.memory →
      (machine.does deed).outcome = .ok false ∧
        (machine.does deed).machine.registers.read word.rd =
          latest (start.stores deeds) word.address
  store : ∀ deed word, machine.word? deed = some word → word.opcode? = some .ldm →
    word.address < configuration.memory →
      machine.store? deed = some (word.address.val, machine.registers.read word.rd)
  outside : ∀ deed word, machine.word? deed = some word → word.Accesses →
    configuration.memory ≤ word.address →
      (machine.does deed).outcome = .fault (.memoryOutOfBounds word.address) ∧
        (machine.does deed).machine.memory = machine.memory ∧
          (machine.does deed).machine.registers = machine.advanced deed

/-- The cells of a fresh machine are zero, so its stores alone say what they hold. -/
theorem read_follow_fresh (configuration : Configuration) (program : List Word) (sink : Sink)
    (deeds : List Deed) {address : Nat} (inside : address < configuration.memory) :
    ((fresh configuration program sink).follow deeds).memory.read address =
      .ok (latest ((fresh configuration program sink).stores deeds) address) := by
  have zero : (fresh configuration program sink).memory.cells.get? address = some 0 :=
    (Cells.get?_zeros configuration.memory address).trans (if_pos inside)
  rw [Memory.read_eq_ok_iff, get?_follow, zero, latest]
  cases (((fresh configuration program sink).stores deeds).reverse.lookup address) <;> rfl

/-- A load keeps a value of the width of the machine as it is. -/
theorem does_load {value : Nat} (read : machine.word? deed = some word)
    (loads : word.opcode? = some .ldr) (found : machine.memory.read word.address = .ok value)
    (small : value < modulus machine.registers.width) :
    (machine.does deed).outcome = .ok false ∧
      (machine.does deed).machine.registers.read word.rd = value := by
  obtain ⟨after, outcome⟩ := does_of_word? read
  have width : (machine.ready word deed).registers.width = machine.registers.width := by
    cases deed <;> rfl
  have present := memory_ready machine word deed ▸ found
  have loaded := (machine.ready word deed).execute_load loads present
  rw [after, outcome, loaded]
  refine ⟨rfl, ?_⟩
  calc ((machine.ready word deed).registers.write word.rd value).read word.rd
      = (machine.ready word deed).registers.wrap value := by
        rw [Registers.read_write, if_pos rfl]
    _ = value := by rw [Registers.wrap_eq_mod, width, Nat.mod_eq_of_lt small]

/-- A store inside the memory succeeds, and is the latest one. -/
theorem store?_of_inside (read : machine.word? deed = some word)
    (stores : word.opcode? = some .ldm) (inside : word.address < machine.memory.size) :
    machine.store? deed = some (word.address.val, machine.registers.read word.rd) := by
  obtain ⟨-, outcome⟩ := does_of_word? read
  have well : (machine.does deed).outcome = .ok false := by
    have stays : ¬ (machine.ready word deed).memory.size ≤ word.address := by
      rw [memory_ready]
      exact Nat.not_le_of_lt inside
    rw [outcome, outcome_execute, verdict, stores]
    exact if_neg stays
  simp only [store?, read, stores, well, and_self, if_true]

theorem does_outside (read : machine.word? deed = some word) (accesses : word.Accesses)
    (outside : machine.memory.size ≤ word.address) :
    (machine.does deed).outcome = .fault (.memoryOutOfBounds word.address) ∧
      (machine.does deed).machine.memory = machine.memory ∧
        (machine.does deed).machine.registers = machine.advanced deed := by
  have causes : (machine.ready word deed).Causes word (.memoryOutOfBounds word.address) :=
    ⟨accesses, memory_ready machine word deed ▸ outside, rfl⟩
  obtain ⟨faulted, same⟩ := does_of_causes read (fun _ => Fault.noConfusion) Fault.noConfusion causes
  rw [same]
  exact ⟨faulted, memory_ready machine word deed, registers_ready machine word deed⟩

/-- Every session of a machine is made of deeds, and whatever they are, its memory is coherent. -/
theorem memory_coherent {start : Machine}
    (created : create configuration program sink = .ok start) :
    (∀ machine, start.Reached machine → ∃ deeds, start.ReachedBy deeds machine) ∧
      ∀ deeds machine, start.ReachedBy deeds machine →
        Coherent configuration start deeds machine := by
  obtain ⟨valid, rfl⟩ := create_eq_ok created
  refine ⟨fun machine reached => reached.exists_deeds, fun deeds machine reached => ?_⟩
  obtain ⟨shaped, bounded⟩ := reached_bounded valid reached.reached
  obtain rfl := reached.follow
  have cells {address : Nat} (inside : address < configuration.memory) :=
    read_follow_fresh configuration program sink deeds inside
  constructor
  · rfl
  · exact fun address inside => cells inside
  · intro deed word read loads inside
    have small := bounded.cell_lt _ _ (Memory.read_eq_ok_iff.mp (cells inside))
    exact does_load read loads (cells inside) small
  · intro deed word read stores inside
    exact store?_of_inside read stores (shaped.size_eq ▸ inside)
  · intro deed word read accesses outside
    exact does_outside read accesses (shaped.size_eq ▸ outside)

/-- In a machine of four bits and one cell, twenty-five is stored as nine over a three. A store
outside faults, and a load brings the nine back. -/
theorem memory_coherent_overwritten :
    let configuration : Configuration := ⟨4, 1, 1⟩
    let start := fresh configuration [195, 5, 1603, 5, 69, 20] {}
    create configuration [195, 5, 1603, 5, 69, 20] {} = .ok start ∧
      start.stores (.replicate 5 .step) = [(0, 3), (0, 9)] ∧
        Coherent configuration start (.replicate 5 .step) (start.after 5) ∧
          (start.after 6).registers.b = 9 := by
  intro configuration start
  have created : create configuration [195, 5, 1603, 5, 69, 20] {} = .ok start := by rfl
  have reached : start.ReachedBy (.replicate 5 .step) (start.after 5) := ReachedBy.start.after 5
  exact ⟨created, by decide +kernel, (memory_coherent created).2 _ _ reached, by decide +kernel⟩

end Coherence

end Machine

end RegisterMachine
