import RegisterMachine.Proofs.Machine.Coherence
import RegisterMachine.Proofs.Machine.Residues

/-!
The work of a word as a list of changes.

A word that completes makes a few changes, each at one place of the machine. A change leaves all
other places alone, what it leaves at its own place does not depend on them, and changes at
different places can be made in any order.
-/

namespace RegisterMachine

/-- A part of a machine that a word can read or write on its own. -/
inductive Place where
  | general (register : Register)
  | ip
  | sp
  | cell (address : Nat)
  | slot (index : Nat)
  | sink
deriving DecidableEq, Repr

/-- Two machines hold the same at a place. -/
def Place.Same (first second : Machine) : Place → Prop
  | .general register => second.registers.read register = first.registers.read register
  | .ip => second.registers.ip = first.registers.ip
  | .sp => second.registers.sp = first.registers.sp
  | .cell address => second.memory.cells.get? address = first.memory.cells.get? address
  | .slot index => second.stack.slots.get? index = first.stack.slots.get? index
  | .sink => second.sink = first.sink

namespace Place.Same

variable {place : Place} {first second third : Machine}

theorem refl : place.Same first first := by
  cases place <;> rfl

theorem symm (same : place.Same first second) : place.Same second first := by
  cases place <;> exact Eq.symm same

theorem trans (same : place.Same first second) (then_same : place.Same second third) :
    place.Same first third := by
  cases place <;> exact Eq.trans then_same same

end Place.Same

/-- One change of a machine, with the value that is left. -/
inductive Change where
  | general (register : Register) (value : Nat)
  | ip (value : Nat)
  | sp (value : Nat)
  | cell (address value : Nat)
  | slot (index value : Nat)
  | print (text : String)
deriving DecidableEq, Repr

def Change.place : Change → Place
  | .general register _ => .general register
  | .ip _ => .ip
  | .sp _ => .sp
  | .cell address _ => .cell address
  | .slot index _ => .slot index
  | .print _ => .sink

namespace Registers

/-- Writes to two registers can be made in any order. -/
theorem write_comm (registers : Registers) {first second : Register} (apart : first ≠ second)
    (left right : Nat) : (registers.write first left).write second right =
      (registers.write second right).write first left := by
  cases first <;> cases second <;> first | rfl | exact absurd rfl apart

end Registers

namespace Cells

/-- A cell is set if there is one. -/
def update (cells : Cells) (address value : Nat) : Cells :=
  if inside : address < cells.size then cells.set address value inside else cells

@[simp] theorem size_update (cells : Cells) (address value : Nat) :
    (cells.update address value).size = cells.size := by
  unfold update
  split <;> rfl

/-- A place of a row is updated when it is inside. -/
theorem get?_update (cells : Cells) (address value other : Nat) :
    (cells.update address value).get? other =
      if other = address ∧ address < cells.size then some value else cells.get? other := by
  unfold update
  split
  · rename_i inside
    rw [get?_set]
    simp only [inside, and_true]
  · rename_i outside
    simp only [outside, and_false, if_false]

theorem get?_update_self (cells : Cells) (address value : Nat) :
    (cells.update address value).get? address =
      if address < cells.size then some value else none := by
  rw [get?_update]
  by_cases inside : address < cells.size
  · simp only [inside, and_self, if_true]
  · simp only [inside, and_false, if_false]
    exact (cells.get?_eq_none_iff address).mpr (Nat.le_of_not_lt inside)

/-- What is stored does not depend on the order in which two cells are set. -/
theorem place_comm (stored : Array Nat) {first second : Nat} (apart : first ≠ second)
    (left right : Nat) :
    place (place stored first left) second right = place (place stored second right) first left := by
  have sizes : (place (place stored first left) second right).size =
      (place (place stored second right) first left).size := by
    simp only [size_place]
    omega
  apply Array.ext sizes
  intro index inside inside'
  have values (array : Array Nat) (within : index < array.size) :
      array[index] = array.getD index 0 := by
    simp only [Array.getD, within, dif_pos]
    rfl
  rw [values _ inside, values _ inside']
  simp only [getD_place]
  grind

theorem update_comm (cells : Cells) {first second : Nat} (apart : first ≠ second)
    (left right : Nat) : (cells.update first left).update second right =
      (cells.update second right).update first left := by
  unfold update
  by_cases inside : first < cells.size
  · by_cases inside' : second < cells.size
    · simp only [inside, inside', dif_pos, size_set]
      simp only [set, place_comm cells.stored apart]
    · simp only [inside, inside', dif_pos, dif_neg, not_false_iff, size_set]
  · by_cases inside' : second < cells.size
    · simp only [inside, inside', dif_pos, dif_neg, not_false_iff, size_set]
    · simp only [inside, inside', dif_neg, not_false_iff]

end Cells

/-- A store updates its cell. -/
theorem Memory.write_eq_ok {memory after : Memory} {address value : Nat}
    (written : memory.write address value = .ok after) :
    after = ⟨memory.cells.update address value⟩ := by
  unfold write at written
  split at written
  · rename_i inside
    obtain rfl := Except.ok.inj written
    rw [Cells.update, dif_pos inside]
  · contradiction

/-- A push updates the slot at the stack pointer. -/
theorem Stack.push_eq_update {stack after : Stack} {registers moved : Registers} {value : Nat}
    (pushed : stack.push registers value = .ok (after, moved)) :
    after = ⟨stack.slots.update registers.sp value⟩ ∧
      moved = registers.setSp (registers.sp + 1) := by
  obtain ⟨room, rfl, rfl⟩ := push_eq_ok pushed
  have inside : registers.sp < stack.slots.size := Nat.lt_of_succ_lt room
  rw [Cells.update, dif_pos inside]
  exact ⟨rfl, rfl⟩

namespace Machine

/-- The sizes of the machines are the same. -/
structure Peers (first second : Machine) : Prop where
  width_eq : second.registers.width = first.registers.width
  size_eq : second.memory.size = first.memory.size
  capacity_eq : second.stack.capacity = first.stack.capacity

/-- The parts of a machine that are no places: its sizes, its program and its last fetch. -/
structure Rests (first second : Machine) : Prop extends first.Peers second where
  program_eq : second.program = first.program
  lastFetched_eq : second.lastFetched = first.lastFetched

/-- The branch that a jump decides on. -/
def Jumps (machine : Machine) (word : Word) : Prop :=
  machine.registers.a < machine.registers.read word.rd

instance (machine : Machine) (word : Word) : Decidable (machine.Jumps word) :=
  inferInstanceAs (Decidable (_ < _))

theorem Rests.trans {first second third : Machine} (rests : first.Rests second)
    (more : second.Rests third) : first.Rests third where
  width_eq := more.width_eq.trans rests.width_eq
  size_eq := more.size_eq.trans rests.size_eq
  capacity_eq := more.capacity_eq.trans rests.capacity_eq
  program_eq := more.program_eq.trans rests.program_eq
  lastFetched_eq := more.lastFetched_eq.trans rests.lastFetched_eq

def make (machine : Machine) : Change → Machine
  | .general register value =>
    { machine with registers := machine.registers.write register value }
  | .ip value => { machine with registers := machine.registers.setIp value }
  | .sp value => { machine with registers := machine.registers.setSp value }
  | .cell address value => { machine with memory := ⟨machine.memory.cells.update address value⟩ }
  | .slot index value => { machine with stack := ⟨machine.stack.slots.update index value⟩ }
  | .print text => { machine with sink := (machine.sink.write (utf8 text)).1 }

/-- The changes are made one after the other. -/
def makeAll (machine : Machine) : List Change → Machine
  | [] => machine
  | change :: changes => (machine.make change).makeAll changes

/-- The changes that a word makes if it completes. -/
def changes (machine : Machine) (word : Word) : List Change :=
  let registers := machine.registers
  let popped := (machine.stack.slots.get? (registers.sp - 1)).getD 0
  match word.opcode? with
  | some .cal => [.slot registers.sp registers.ip, .sp (registers.sp + 1), .ip word.address]
  | some .ret => [.sp (registers.sp - 1), .ip popped]
  | some .mov => [.general word.rd (registers.read word.rs)]
  | some .ldv => [.general word.rd word.address]
  | some .ldr => [.general word.rd ((machine.memory.cells.get? word.address).getD 0)]
  | some .ldm => [.cell word.address (registers.read word.rd)]
  | some .ath =>
    let value? := (Operation.ofCode word.byte).combine (registers.read word.rd)
      (registers.read word.rs)
    [.general word.destination (value?.getD 0).toNat]
  | some .sft =>
    let direction := Direction.ofRegister word.rd
    [.general word.rs (direction.shift registers.width (registers.read word.rs) word.byte)]
  | some .psh => [.slot registers.sp (registers.read word.rs), .sp (registers.sp + 1)]
  | some .pop => [.sp (registers.sp - 1), .general word.rd popped]
  | some .jlt => if machine.Jumps word then [.ip word.address] else []
  | some .out => [.print (machine.printed word)]
  | some .hlt => []
  | none => []

variable {machine first second : Machine} {word : Word} {halted : Bool}

/-- A word that completes makes its changes and nothing else. -/
theorem execute_eq_makeAll (completes : (machine.execute word).outcome = .ok halted) :
    (machine.execute word).machine = machine.makeAll (machine.changes word) := by
  unfold execute Word.instruction? at completes ⊢
  unfold changes
  cases known : word.opcode? with
  | none =>
    rw [known] at completes
    contradiction
  | some opcode =>
    rw [known] at completes
    cases opcode with
    | cal | psh =>
      simp only [Option.map_some, perform] at completes ⊢
      split at completes
      · rename_i stack pushed success
        obtain ⟨rfl, rfl⟩ := Stack.push_eq_update success
        rfl
      · contradiction
    | ret | pop =>
      simp only [Option.map_some, perform] at completes ⊢
      split at completes
      · rename_i value popped success
        obtain ⟨-, found, rfl⟩ := Stack.pop_eq_ok success
        rw [found]
        rfl
      · contradiction
      · contradiction
    | ldr =>
      simp only [Option.map_some, perform] at completes ⊢
      split at completes
      · rename_i value success
        rw [Memory.read_eq_ok_iff.mp success]
        rfl
      · contradiction
    | ldm =>
      simp only [Option.map_some, perform] at completes ⊢
      split at completes
      · rename_i memory success
        obtain rfl := Memory.write_eq_ok success
        rfl
      · contradiction
    | ath =>
      simp only [Option.map_some, perform] at completes ⊢
      split at completes
      · rename_i value combined
        rw [combined, word.select_ofByte]
        rfl
      · contradiction
    | jlt =>
      by_cases below : machine.registers.a < machine.registers.read word.rd
      · simp only [Option.map_some, perform, Jumps, below, if_true]
        rfl
      · simp only [Option.map_some, perform, Jumps, below, if_false]
        rfl
    | out | mov | ldv | sft | hlt => rfl

theorem changes_of_not_jumps (jump : word.opcode? = some .jlt) (stays : ¬ machine.Jumps word) :
    machine.changes word = [] := by
  simp only [changes, jump, if_neg stays]

/-- A change leaves all other places alone. -/
theorem make_same {place : Place} {change : Change} (apart : place ≠ change.place) :
    place.Same machine (machine.make change) := by
  cases change with
  | general register value =>
    cases place with
    | general other =>
      have different : other ≠ register := fun same => apart (congrArg Place.general same)
      exact (Registers.read_write _ _ _ _).trans (if_neg different)
    | ip => exact Registers.ip_write _ _ _
    | sp => exact Registers.sp_write _ _ _
    | cell | slot | sink => rfl
  | ip value =>
    cases place with
    | general other => exact Registers.read_setIp _ _ _
    | ip => exact absurd rfl apart
    | sp | cell | slot | sink => rfl
  | sp value =>
    cases place with
    | general other => exact Registers.read_setSp _ _ _
    | sp => exact absurd rfl apart
    | ip | cell | slot | sink => rfl
  | cell address value =>
    cases place with
    | cell other =>
      have different : other ≠ address := fun same => apart (congrArg Place.cell same)
      exact (Cells.get?_update _ _ _ _).trans (if_neg fun both => different both.1)
    | general | ip | sp | slot | sink => rfl
  | slot index value =>
    cases place with
    | slot other =>
      have different : other ≠ index := fun same => apart (congrArg Place.slot same)
      exact (Cells.get?_update _ _ _ _).trans (if_neg fun both => different both.1)
    | general | ip | sp | cell | sink => rfl
  | print text =>
    cases place with
    | sink => exact absurd rfl apart
    | general | ip | sp | cell | slot => rfl

/-- A change leaves the same at its place in machines of the same sizes. Only a print adds to what is
there. -/
theorem Peers.same_make (peers : first.Peers second) {change : Change}
    (silent : change.place ≠ .sink) :
    change.place.Same (first.make change) (second.make change) := by
  have wrapped (value : Nat) : second.registers.wrap value = first.registers.wrap value := by
    rw [Registers.wrap_eq_mod, Registers.wrap_eq_mod, peers.width_eq]
  cases change with
  | general register value =>
    simp only [Place.Same, Change.place, make, Registers.read_write, if_true]
    exact wrapped value
  | ip value => exact wrapped value
  | sp value => exact wrapped value
  | cell address value =>
    have size : second.memory.cells.size = first.memory.cells.size := peers.size_eq
    simp only [Place.Same, Change.place, make, Cells.get?_update_self, size]
  | slot index value =>
    have size : second.stack.slots.size = first.stack.slots.size := peers.capacity_eq
    simp only [Place.Same, Change.place, make, Cells.get?_update_self, size]
  | print text => exact absurd rfl silent

/-- A change leaves alone what is no place. -/
theorem make_rests (change : Change) : machine.Rests (machine.make change) := by
  cases change with
  | general register value => exact ⟨⟨Registers.width_write _ _ _, rfl, rfl⟩, rfl, rfl⟩
  | cell address value => exact ⟨⟨rfl, Cells.size_update _ _ _, rfl⟩, rfl, rfl⟩
  | slot index value => exact ⟨⟨rfl, rfl, Cells.size_update _ _ _⟩, rfl, rfl⟩
  | ip | sp | print => exact ⟨⟨rfl, rfl, rfl⟩, rfl, rfl⟩

theorem Peers.make (peers : first.Peers second) (change : Change) :
    (first.make change).Peers (second.make change) := by
  have left := (first.make_rests change).toPeers
  have right := (second.make_rests change).toPeers
  constructor
  · rw [left.width_eq, right.width_eq, peers.width_eq]
  · rw [left.size_eq, right.size_eq, peers.size_eq]
  · rw [left.capacity_eq, right.capacity_eq, peers.capacity_eq]

/-- Changes at different places can be made in any order. -/
theorem make_comm {change other : Change} (apart : change.place ≠ other.place) :
    (machine.make change).make other = (machine.make other).make change := by
  cases change with
  | general register value =>
    cases other with
    | general register' value' =>
      have different : register ≠ register' := fun same => apart (congrArg Place.general same)
      simp only [make, Registers.write_comm _ different]
    | ip | sp => cases register <;> rfl
    | cell | slot | print => rfl
  | ip value =>
    cases other with
    | general register => cases register <;> rfl
    | ip => exact absurd rfl apart
    | sp | cell | slot | print => rfl
  | sp value =>
    cases other with
    | general register => cases register <;> rfl
    | sp => exact absurd rfl apart
    | ip | cell | slot | print => rfl
  | cell address value =>
    cases other with
    | cell address' value' =>
      have different : address ≠ address' := fun same => apart (congrArg Place.cell same)
      simp only [make, Cells.update_comm _ different]
    | general | ip | sp | slot | print => rfl
  | slot index value =>
    cases other with
    | slot index' value' =>
      have different : index ≠ index' := fun same => apart (congrArg Place.slot same)
      simp only [make, Cells.update_comm _ different]
    | general | ip | sp | cell | print => rfl
  | print text =>
    cases other with
    | print => exact absurd rfl apart
    | general | ip | sp | cell | slot => rfl

section Changes

variable {changes others : List Change} {place : Place}

theorem makeAll_rests (changes : List Change) : machine.Rests (machine.makeAll changes) := by
  induction changes generalizing machine with
  | nil => exact ⟨⟨rfl, rfl, rfl⟩, rfl, rfl⟩
  | cons change changes ih => exact (machine.make_rests change).trans ih

theorem makeAll_same (apart : ∀ change ∈ changes, place ≠ change.place) :
    place.Same machine (machine.makeAll changes) := by
  induction changes generalizing machine with
  | nil => exact .refl
  | cons change changes ih =>
    rw [List.forall_mem_cons] at apart
    exact (make_same apart.1).trans (ih apart.2)

/-- The same changes of two machines keep what is the same, and leave the same where they are
made. -/
theorem Peers.same_makeAll (peers : first.Peers second) (silent : place ≠ .sink)
    (reached : place.Same first second ∨ ∃ change ∈ changes, change.place = place) :
    place.Same (first.makeAll changes) (second.makeAll changes) := by
  induction changes generalizing first second with
  | nil =>
    obtain same | ⟨change, made, -⟩ := reached
    · exact same
    · contradiction
  | cons change changes ih =>
    refine ih (peers.make change) ?_
    by_cases here : place = change.place
    · subst here
      exact .inl (peers.same_make silent)
    · obtain same | ⟨made, member, there⟩ := reached
      · exact .inl ((make_same here).symm.trans (same.trans (make_same here)))
      · obtain rfl | later := List.mem_cons.mp member
        · exact absurd there.symm here
        · exact .inr ⟨made, later, there⟩

theorem make_makeAll_comm {change : Change}
    (apart : ∀ other ∈ changes, change.place ≠ other.place) :
    (machine.make change).makeAll changes = (machine.makeAll changes).make change := by
  induction changes generalizing machine with
  | nil => rfl
  | cons other changes ih =>
    rw [List.forall_mem_cons] at apart
    rw [makeAll, makeAll, make_comm apart.1, ih apart.2]

/-- Lists of changes at different places can be made in any order. -/
theorem makeAll_comm
    (apart : ∀ change ∈ changes, ∀ other ∈ others, change.place ≠ other.place) :
    (machine.makeAll changes).makeAll others = (machine.makeAll others).makeAll changes := by
  induction changes generalizing machine with
  | nil => rfl
  | cons change changes ih =>
    rw [List.forall_mem_cons] at apart
    rw [makeAll, makeAll, ih apart.2, make_makeAll_comm apart.1]

end Changes

end Machine

end RegisterMachine
