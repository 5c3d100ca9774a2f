import RegisterMachine.Proofs.Machine.Coherence
import RegisterMachine.Proofs.Machine.Subroutine

/-!
Machines with more room.

An instruction looks at the size of the memory only when it accesses a cell, and at the capacity of
the stack only when it pushes. A machine that never lacks room therefore goes on in the same way
with more of it, and the additional cells stay zero.
-/

namespace RegisterMachine

/-- A fault for want of a cell or of a slot. -/
def Outcome.LacksRoom {α : Type} (outcome : Outcome α) : Prop :=
  outcome = .fault .stackOverflow ∨ ∃ address, outcome = .fault (.memoryOutOfBounds address)

/-- The instruction uses the stack. -/
def Instruction.UsesStack : Instruction → Prop
  | .call _ | .ret | .push _ | .pop _ => True
  | _ => False

/-- The instruction uses the memory. -/
def Instruction.UsesMemory : Instruction → Prop
  | .loadMemory _ _ | .storeMemory _ _ => True
  | _ => False

namespace Memory

/-- The larger memory starts with the cells of the smaller one, and the others are zero. -/
structure Extends (small large : Memory) : Prop where
  size_le : small.size ≤ large.size
  cell_eq : ∀ address < small.size, large.cells.get? address = small.cells.get? address
  further_zero : ∀ address, small.size ≤ address → address < large.size →
    large.cells.get? address = some 0

namespace Extends

variable {small large after : Memory} {address value : Nat}

theorem read (larger : small.Extends large) (found : small.read address = .ok value) :
    large.read address = .ok value := by
  rw [read_eq_ok_iff] at found ⊢
  have inside : address < small.size := by
    by_contra outside
    rw [(small.cells.get?_eq_none_iff address).mpr (Nat.le_of_not_lt outside)] at found
    contradiction
  rw [larger.cell_eq address inside, found]

theorem write (larger : small.Extends large) (written : small.write address value = .ok after) :
    ∃ later, large.write address value = .ok later ∧ after.Extends later := by
  have inside : address < small.size := by
    by_contra outside
    rw [write_eq_error_iff.mpr ⟨Nat.le_of_not_lt outside, rfl⟩] at written
    contradiction
  have reach := larger.size_le
  have more : large.write address value = .ok _ := dif_pos (Nat.lt_of_lt_of_le inside reach)
  refine ⟨_, more, ?_, ?_, ?_⟩
  · rw [size_write written, size_write more]
    exact reach
  · intro other low
    rw [size_write written] at low
    rw [get?_write other written, get?_write other more, larger.cell_eq other low]
  · intro other high low
    rw [size_write written] at high
    rw [size_write more] at low
    rw [get?_write other more, if_neg (by omega), larger.further_zero other high low]

end Extends

end Memory

namespace Stack

/-- The taller stack has all the live slots of the other one. -/
structure Extends (count : Nat) (small large : Stack) : Prop where
  capacity_le : small.capacity ≤ large.capacity
  within : count ≤ small.capacity
  slot_eq : ∀ index < count, large.slots.get? index = small.slots.get? index

namespace Extends

variable {small large after : Stack} {registers moved : Registers} {value : Nat}

theorem push (taller : Extends registers.sp small large)
    (pushed : small.push registers value = .ok (after, moved)) :
    ∃ later, large.push registers value = .ok (later, moved) ∧ Extends moved.sp after later := by
  obtain ⟨room, rfl, rfl⟩ := push_eq_ok pushed
  have more : registers.sp + 1 < large.capacity := Nat.lt_of_lt_of_le room taller.capacity_le
  have low : (registers.setSp (registers.sp + 1)).sp ≤ registers.sp + 1 := Registers.wrap_le _ _
  refine ⟨_, dif_pos more, taller.capacity_le, Nat.le_trans low (Nat.le_of_lt room), ?_⟩
  intro index below
  rw [Cells.get?_set, Cells.get?_set]
  split
  · rfl
  · exact taller.slot_eq index (by omega)

theorem pop (taller : Extends registers.sp small large) :
    large.pop registers = small.pop registers := by
  unfold Stack.pop
  split
  · rfl
  · rw [taller.slot_eq (registers.sp - 1) (by omega)]

theorem afterPop (taller : Extends registers.sp small large)
    (popped : small.pop registers = .ok (value, moved)) : Extends moved.sp small large := by
  obtain ⟨-, -, rfl⟩ := pop_eq_ok popped
  have low : (registers.setSp (registers.sp - 1)).sp ≤ registers.sp :=
    Nat.le_trans (Registers.wrap_le _ _) (Nat.sub_le _ 1)
  exact ⟨taller.capacity_le, Nat.le_trans low taller.within, fun index below =>
    taller.slot_eq index (Nat.lt_of_lt_of_le below low)⟩

end Extends

end Stack

namespace Registers

/-- The registers with another stack pointer. -/
def withSp (registers : Registers) (sp : Nat) : Registers := { registers with sp := sp }

variable (registers : Registers) (sp : Nat)

@[simp] theorem read_withSp (register : Register) :
    (registers.withSp sp).read register = registers.read register := by
  cases register <;> rfl

@[simp] theorem write_withSp (register : Register) (value : Nat) :
    (registers.withSp sp).write register value = (registers.write register value).withSp sp := by
  cases register <;> rfl

@[simp] theorem setIp_withSp (address : Nat) :
    (registers.withSp sp).setIp address = (registers.setIp address).withSp sp := rfl

end Registers

namespace Machine

/-- The machine with another memory, another stack and another stack pointer. -/
def rehouse (machine : Machine) (memory : Memory) (stack : Stack) (sp : Nat) : Machine :=
  { machine with memory := memory, stack := stack, registers := machine.registers.withSp sp }

end Machine

/-- The machine of the effect is rehoused, and nothing else changes. -/
def Effect.rehouse (effect : Effect) (memory : Memory) (stack : Stack) (sp : Nat) : Effect :=
  { effect with machine := effect.machine.rehouse memory stack sp }

namespace Machine

/-- An instruction that uses neither the memory nor the stack does not see them. -/
theorem perform_rehouse (machine : Machine) (memory : Memory) (stack : Stack) (sp : Nat)
    {instruction : Instruction} (stackless : ¬ instruction.UsesStack)
    (memoryless : ¬ instruction.UsesMemory) :
    (machine.rehouse memory stack sp).perform instruction =
      (machine.perform instruction).rehouse memory stack sp := by
  cases instruction with
  | call | ret | push | pop => exact absurd trivial stackless
  | loadMemory | storeMemory => exact absurd trivial memoryless
  | move rd rs | loadValue rd value | shift rs direction amount =>
    simp only [perform, rehouse, Registers.read_withSp, Registers.write_withSp]
    rfl
  | arithmetic rd rs operation destination =>
    simp only [perform, rehouse, Registers.read_withSp, Registers.write_withSp]
    cases operation.combine (machine.registers.read rd) (machine.registers.read rs) <;> rfl
  | jumpIfLess rd target =>
    simp only [perform, rehouse, Registers.read_withSp, Registers.setIp_withSp]
    change (if machine.registers.a < machine.registers.read rd then _ else _) = _
    split <;> rfl
  | output rs selector =>
    simp only [perform, rehouse, Registers.read_withSp]
    rfl
  | halt => rfl

/-- Two machines that differ only in their sizes, and of which the larger one has more room. -/
inductive Enlarges (machine : Machine) : Machine → Prop where
  | resize {memory : Memory} {stack : Stack} (cells : machine.memory.Extends memory)
      (slots : machine.stack.Extends machine.registers.sp stack) :
      Enlarges machine { machine with memory := memory, stack := stack }

end Machine

/-- What a call on the larger of two machines shows is what it shows on the other. -/
structure Effect.Enlarges (small large : Effect) : Prop where
  machine : small.machine.Enlarges large.machine
  outcome : large.outcome = small.outcome
  events : large.events = small.events

namespace Machine.Enlarges

variable {small large : Machine}

/-- A machine that is housed in more room has more room. -/
theorem rehouse {memory more : Memory} {stack taller : Stack} {sp : Nat}
    (cells : memory.Extends more) (slots : stack.Extends sp taller) (machine : Machine) :
    (machine.rehouse memory stack sp).Enlarges (machine.rehouse more taller sp) :=
  .resize cells slots

/-- An instruction that does not lack room has the same effect with more of it. -/
theorem perform (larger : small.Enlarges large) {instruction : Instruction}
    (room : ¬ (small.perform instruction).outcome.LacksRoom) :
    (small.perform instruction).Enlarges (large.perform instruction) := by
  cases larger with
  | @resize memory stack cells slots =>
    have plain (stackless : ¬ instruction.UsesStack) (memoryless : ¬ instruction.UsesMemory) :
        (small.perform instruction).Enlarges
          ((small.rehouse memory stack small.registers.sp).perform instruction) := by
      have kept := congrArg Effect.machine (small.perform_rehouse small.memory small.stack
        small.registers.sp stackless memoryless)
      have grown := rehouse cells slots (small.perform instruction).machine
      rw [small.perform_rehouse memory stack small.registers.sp stackless memoryless]
      exact ⟨kept ▸ grown, rfl, rfl⟩
    cases instruction with
    | call | push =>
      simp only [Machine.perform] at room ⊢
      split at room
      · rename_i after moved pushed
        obtain ⟨later, also, still⟩ := slots.push pushed
        simp only [also]
        exact ⟨.resize cells still, rfl, rfl⟩
      · rename_i reason refused
        obtain ⟨-, rfl⟩ := (Stack.push_eq_error_iff reason).mp refused
        exact absurd (.inl rfl) room
    | ret =>
      simp only [Machine.perform, slots.pop]
      split
      · rename_i address moved popped
        have still := slots.afterPop popped
        exact ⟨.resize cells still, rfl, rfl⟩
      · exact ⟨.resize cells slots, rfl, rfl⟩
      · exact ⟨.resize cells slots, rfl, rfl⟩
    | pop rd =>
      simp only [Machine.perform, slots.pop]
      split
      · rename_i value moved popped
        have still := slots.afterPop popped
        rw [← Registers.sp_write moved rd value] at still
        exact ⟨.resize cells still, rfl, rfl⟩
      · exact ⟨.resize cells slots, rfl, rfl⟩
      · exact ⟨.resize cells slots, rfl, rfl⟩
    | loadMemory rd address =>
      simp only [Machine.perform] at room ⊢
      split at room
      · rename_i value found
        have still := slots
        rw [← Registers.sp_write small.registers rd value] at still
        simp only [cells.read found]
        exact ⟨.resize cells still, rfl, rfl⟩
      · rename_i reason refused
        obtain ⟨-, rfl⟩ := Memory.read_eq_error_iff.mp refused
        exact absurd (.inr ⟨address, rfl⟩) room
    | storeMemory rd address =>
      simp only [Machine.perform] at room ⊢
      split at room
      · rename_i after written
        obtain ⟨later, also, still⟩ := cells.write written
        simp only [also]
        exact ⟨.resize still slots, rfl, rfl⟩
      · rename_i reason refused
        obtain ⟨-, rfl⟩ := Memory.write_eq_error_iff.mp refused
        exact absurd (.inr ⟨address, rfl⟩) room
    | move | loadValue | arithmetic | shift | jumpIfLess | output | halt => exact plain id id

theorem execute (larger : small.Enlarges large) {word : Word}
    (room : ¬ (small.execute word).outcome.LacksRoom) :
    (small.execute word).Enlarges (large.execute word) := by
  unfold Machine.execute at room ⊢
  cases read : word.instruction? with
  | some instruction =>
    rw [read] at room
    exact larger.perform room
  | none => exact ⟨larger, rfl, rfl⟩

theorem step (larger : small.Enlarges large) (room : ¬ small.step.outcome.LacksRoom) :
    small.step.Enlarges large.step := by
  cases larger with
  | @resize memory stack cells slots =>
    have larger := Enlarges.resize cells slots
    simp only [Machine.step] at room ⊢
    cases present : small.program[small.registers.ip]? with
    | none => exact ⟨larger, rfl, rfl⟩
    | some word =>
      rw [present] at room
      have fetched : (small.fetched word).Enlarges
          ({ small with memory := memory, stack := stack }.fetched word) := .resize cells slots
      obtain ⟨machine, outcome, events⟩ := fetched.execute room
      exact ⟨machine, outcome, congrArg (.record (.fetched small.registers.ip word) :: ·) events⟩

/-- As long as the smaller machine does not lack room, the larger one makes the same steps. -/
theorem after (larger : small.Enlarges large) {count : Nat}
    (room : ∀ moment < count, ¬ (small.after moment).step.outcome.LacksRoom) :
    (small.after count).Enlarges (large.after count) := by
  induction count with
  | zero => exact larger
  | succ count ih =>
    have before := ih fun moment earlier => room moment (Nat.lt_succ_of_lt earlier)
    exact (before.step (room count (Nat.lt_succ_self count))).machine

end Machine.Enlarges

/-- Rows that agree on their first cells start alike, whatever their sizes are. -/
theorem Cells.take_eq_of_le {cells other : Cells} {count : Nat} (inside : count ≤ cells.size)
    (also : count ≤ other.size)
    (same : ∀ address < count, other.get? address = cells.get? address) :
    other.take count = cells.take count := by
  rw [take, take, Nat.min_eq_left inside, Nat.min_eq_left also]
  apply List.map_congr_left
  intro address low
  have below := List.mem_range.mp low
  have here := same address below
  rw [get?, get?, if_pos (by omega), if_pos (by omega)] at here
  exact Option.some.inj here

/-- The fault that a call answers with. -/
def Answer.Faults (reason : Fault) : Answer → Prop
  | .flag outcome => outcome = .fault reason
  | .summary outcome => outcome = .fault reason

namespace Machine

variable {configuration : Configuration} {program : List Word} {sink : Sink}
  {machine after : Machine} {call : Call} {answer : Answer} {address : Nat}

section Addresses

/-- Words have addresses below 1024. -/
theorem execute_inside (enough : 1024 ≤ machine.memory.size) (word : Word) :
    (machine.execute word).outcome ≠ .fault (.memoryOutOfBounds address) := by
  rw [Ne, outcome_eq_fault_iff Fault.noConfusion]
  rintro ⟨-, outside, -⟩
  have low := word.address.isLt
  omega

theorem step_inside (enough : 1024 ≤ machine.memory.size) :
    machine.step.outcome ≠ .fault (.memoryOutOfBounds address) := by
  simp only [step]
  split
  · exact fun halted => by simp at halted
  · rename_i word present
    have same : 1024 ≤ (machine.fetched word).memory.size := enough
    exact execute_inside same word

/-- A run that faults has stepped to the fault. -/
theorem follows_inside {run : Run} (shaped : machine.Shaped configuration program)
    (enough : 1024 ≤ configuration.memory) (follows : run.Follows machine) :
    run.outcome ≠ .fault (.memoryOutOfBounds address) := by
  intro faulted
  have stopped := Run.outcome_eq_fault_iff.mp faulted
  simp only [Run.Follows, stopped] at follows
  have size := (shaped.after run.steps).size_eq
  exact step_inside (size ▸ enough) follows.2

theorem returns_inside (shaped : machine.Shaped configuration program)
    (enough : 1024 ≤ configuration.memory) (returned : machine.Returns call after answer) :
    ¬ answer.Faults (.memoryOutOfBounds address) := by
  have size : 1024 ≤ machine.memory.size := shaped.size_eq ▸ enough
  have driven (fuel : Nat) : ((Run.start machine).drive fuel).Follows machine :=
    (Run.start_follows machine).drive fuel
  cases returned with
  | step => exact step_inside size
  | execute word => exact execute_inside size word
  | runFor budget => exact follows_inside shaped enough ((driven budget).settle budget)
  | runFreely fuel run ended =>
    obtain ⟨rfl, -⟩ := (machine.run?_eq_some_iff fuel run).mp ended
    exact follows_inside shaped enough (driven fuel)

theorem lt_of_mem_stores {deeds : List Deed} {store : Nat × Nat}
    (stored : store ∈ machine.stores deeds) : store.1 < 1024 := by
  induction deeds generalizing machine with
  | nil => contradiction
  | cons deed deeds ih =>
    rw [stores, List.mem_append, Option.mem_toList] at stored
    obtain here | later := stored
    · have found : machine.store? deed = some store := here
      unfold store? at found
      split at found
      · rename_i word read
        obtain ⟨-, same⟩ := Option.ite_none_right_eq_some.mp found
        rw [← Option.some.inj same]
        exact word.address.isLt
      · contradiction
    · exact ih later

/-- No store reaches the cells from 1024 on. -/
theorem latest_of_far (far : 1024 ≤ address) (deeds : List Deed) :
    latest (machine.stores deeds) address = 0 := by
  have none : (machine.stores deeds).reverse.lookup address = none := by
    rw [List.lookup_eq_none_iff]
    intro store stored
    have low := lt_of_mem_stores (List.mem_reverse.mp stored)
    simp only [bne_iff_ne]
    omega
  rw [latest, none]
  rfl

end Addresses

/-- What two machines show that differ in their sizes only. The further cells of the larger one are
zero. -/
structure Resembles (memory more : Nat) (small large : Machine) : Prop where
  registers_eq : large.registers = small.registers
  live_eq : large.stack.live? large.registers = small.stack.live? small.registers
  sink_eq : large.sink = small.sink
  lastFetched_eq : large.lastFetched = small.lastFetched
  cell_eq : ∀ address < memory, large.memory.read address = small.memory.read address
  further_zero : ∀ address, memory ≤ address → address < more →
    large.memory.read address = .ok 0

theorem Enlarges.resembles {small large : Machine} (larger : small.Enlarges large) :
    Resembles small.memory.size large.memory.size small large := by
  cases larger with
  | @resize memory stack cells slots =>
    have low := slots.within
    have high := slots.capacity_le
    refine ⟨rfl, ?_, rfl, rfl, ?_, ?_⟩
    · have live := Cells.take_eq_of_le low (Nat.le_trans low high) slots.slot_eq
      simp only [Stack.live?, low, Nat.le_trans low high, if_true, live]
    · intro address inside
      simp only [Memory.read, cells.cell_eq address inside]
    · intro address outside inside
      exact Memory.read_eq_ok_iff.mpr (cells.further_zero address outside inside)

theorem enlarges_fresh {small large : Configuration} (width : large.width = small.width)
    (memory : small.memory ≤ large.memory) (stack : small.stack ≤ large.stack)
    (program : List Word) (sink : Sink) :
    (fresh small program sink).Enlarges (fresh large program sink) := by
  have cells : (Memory.ofSize small.memory).Extends (.ofSize large.memory) := by
    refine ⟨memory, ?_, ?_⟩
    · intro address inside
      have low : address < small.memory := inside
      exact ((Cells.get?_zeros _ _).trans (if_pos (Nat.lt_of_lt_of_le low memory))).trans
        ((Cells.get?_zeros _ _).trans (if_pos low)).symm
    · intro address outside inside
      exact (Cells.get?_zeros _ _).trans (if_pos inside)
  have slots : Stack.Extends 0 (.ofCapacity small.stack) (.ofCapacity large.stack) :=
    ⟨stack, Nat.zero_le _, fun index below => absurd below (Nat.not_lt_zero index)⟩
  rw [show fresh large program sink = { fresh small program sink with
    memory := .ofSize large.memory, stack := .ofCapacity large.stack } by simp only [fresh, width]]
  exact .resize cells slots

/-- A machine that never lacks room in some steps makes the same steps with more room, and the
further cells stay zero. No machine needs more than 1024 cells: with so many no call lacks a cell,
and the further ones stay zero in every session. -/
theorem enough_room {small large : Configuration} (valid : small.Valid) (also : large.Valid)
    (width : large.width = small.width) (memory : small.memory ≤ large.memory)
    (stack : small.stack ≤ large.stack) (program : List Word) (sink : Sink) :
    (∀ count, (∀ moment < count,
        ¬ ((fresh small program sink).after moment).step.outcome.LacksRoom) →
      (∀ moment < count, ((fresh large program sink).after moment).step.outcome =
        ((fresh small program sink).after moment).step.outcome) ∧
      Resembles small.memory large.memory ((fresh small program sink).after count)
        ((fresh large program sink).after count)) ∧
    (1024 ≤ small.memory → ∀ machine, (fresh small program sink).Reached machine →
      (∀ call after answer address, machine.Returns call after answer →
        ¬ answer.Faults (.memoryOutOfBounds address)) ∧
      ∀ address, 1024 ≤ address → address < small.memory →
        machine.memory.read address = .ok 0) := by
  constructor
  · intro count room
    have larger := enlarges_fresh width memory stack program sink
    constructor
    · intro moment earlier
      have before := larger.after fun sooner low => room sooner (Nat.lt_trans low earlier)
      exact (before.step (room moment earlier)).outcome
    · have alike := (larger.after room).resembles
      rwa [((shaped_fresh valid program sink).after count).size_eq,
        ((shaped_fresh also program sink).after count).size_eq] at alike
  · intro enough machine reached
    constructor
    · intro call after answer address returned
      exact returns_inside (reached_bounded valid reached).1 enough returned
    · intro address far inside
      obtain ⟨deeds, session⟩ := reached.exists_deeds
      rw [session.follow, read_follow_fresh small program sink deeds inside, latest_of_far far]

/-- A division by zero is no want of room, and a push and a store find theirs. The second push does
not, so the two machines go on alike until then. -/
theorem enough_room_until_overflow :
    let small : Configuration := ⟨8, 2000, 2⟩
    let large : Configuration := ⟨8, 3000, 4⟩
    let program : List Word := [323, 790, 8, 5, 8]
    ((fresh small program {}).after 1).step.outcome = .fault .divisionByZero ∧
      ((fresh small program {}).after 4).step.outcome = .fault .stackOverflow ∧
      ((fresh large program {}).after 4).step.outcome = .ok false ∧
      Resembles 2000 3000 ((fresh small program {}).after 4) ((fresh large program {}).after 4) ∧
      ∀ machine, (fresh small program {}).Reached machine →
        machine.memory.read 1024 = .ok 0 := by
  intro small large program
  have valid : small.Valid := by decide
  have also : large.Valid := by decide
  have divided : ((fresh small program {}).after 1).step.outcome = .fault .divisionByZero := by
    decide +kernel
  have well : ∀ moment < 4, moment ≠ 1 →
      ((fresh small program {}).after moment).step.outcome = .ok false := by decide +kernel
  have room : ∀ moment < 4, ¬ ((fresh small program {}).after moment).step.outcome.LacksRoom := by
    intro moment early
    by_cases second : moment = 1
    · rw [second, divided]
      simp [Outcome.LacksRoom]
    · rw [well moment early second]
      simp [Outcome.LacksRoom]
  obtain ⟨steps, sessions⟩ :=
    enough_room valid also rfl (by decide) (by decide) program {}
  refine ⟨divided, by decide +kernel, by decide +kernel, (steps 4 room).2, ?_⟩
  intro machine reached
  exact (sessions (by decide) machine reached).2 1024 (by decide) (by decide)

end Machine

end RegisterMachine
