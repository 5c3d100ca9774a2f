import RegisterMachine.Proofs.Machine.DeadSlots
import RegisterMachine.Proofs.Machine.ListMachine
import RegisterMachine.Proofs.Machine.Safety

/-!
The slots of a stack and its pointer are a list.

The live slots of a machine make up the stack of a list machine, and every operation does the same on
both, so no session can tell them apart.
-/

namespace RegisterMachine

namespace Cells

variable {cells : Cells} {count : Nat}

theorem length_take (cells : Cells) (count : Nat) : (cells.take count).length = min count cells.size := by
  rw [take, List.length_map, List.length_range]

theorem take_succ {value : Nat} (present : cells.get? count = some value) :
    cells.take (count + 1) = cells.take count ++ [value] := by
  unfold get? at present
  split at present
  · rename_i inside
    rw [take, take, Nat.min_eq_left inside, Nat.min_eq_left (Nat.le_of_lt inside), List.range_succ,
      List.map_append, List.map_singleton, Option.some.inj present]
  · contradiction

/-- Rows with the same first cells start alike. -/
theorem take_congr {other : Cells} (size : other.size = cells.size)
    (same : ∀ address < count, other.get? address = cells.get? address) :
    other.take count = cells.take count := by
  induction count with
  | zero => rfl
  | succ count ih =>
    have before := ih fun address below => same address (Nat.lt_succ_of_lt below)
    have here := same count (Nat.lt_succ_self count)
    cases present : cells.get? count with
    | some value => rw [take_succ present, take_succ (here.trans present), before]
    | none =>
      have outside := (cells.get?_eq_none_iff count).mp present
      simp only [take, size, Nat.min_eq_right outside,
        Nat.min_eq_right (Nat.le_succ_of_le outside)] at before ⊢
      exact before

end Cells

namespace Stack

variable {stack after : Stack} {registers moved : Registers} {value : Nat}

theorem capacity_push (pushed : stack.push registers value = .ok (after, moved)) :
    after.capacity = stack.capacity := by
  obtain ⟨-, rfl, -⟩ := push_eq_ok pushed
  rfl

/-- A push puts its value on top of the live slots. -/
theorem take_push (pushed : stack.push registers value = .ok (after, moved)) :
    after.slots.take (registers.sp + 1) = stack.slots.take registers.sp ++ [value] := by
  have filled := get?_push registers.sp pushed
  rw [if_pos rfl] at filled
  rw [Cells.take_succ filled]
  congr 1
  apply Cells.take_congr (capacity_push pushed)
  intro index below
  rw [get?_push index pushed, if_neg (Nat.ne_of_lt below)]

/-- A pop finds its value on top of the live slots. -/
theorem take_pop (popped : stack.pop registers = .ok (value, moved)) :
    stack.slots.take registers.sp = stack.slots.take (registers.sp - 1) ++ [value] := by
  obtain ⟨counted, present, -⟩ := pop_eq_ok popped
  rw [← Cells.take_succ present, Nat.sub_add_cancel (Nat.pos_of_ne_zero counted)]

end Stack

namespace Machine

/-- The stack pointer counts the slots without wrapping, and not the last one. -/
structure Sized (machine : Machine) : Prop where
  sp_lt : machine.registers.sp < machine.stack.capacity
  capacity_le : machine.stack.capacity ≤ modulus machine.registers.width

/-- The live slots as a list. -/
def listed (machine : Machine) : ListMachine where
  width := machine.registers.width
  general := machine.registers.read
  ip := machine.registers.ip
  memory := machine.memory
  stack := machine.stack.slots.take machine.registers.sp
  capacity := machine.stack.capacity
  sink := machine.sink
  program := machine.program
  lastFetched := machine.lastFetched

variable {machine : Machine}

theorem listed_write (machine : Machine) (register : Register) (value : Nat) :
    ({ machine with registers := machine.registers.write register value } : Machine).listed =
      machine.listed.write register value := by
  have general : (machine.registers.write register value).read = fun other =>
      if other = register then machine.registers.wrap value else machine.registers.read other := by
    funext other
    exact machine.registers.read_write register other value
  simp only [listed, ListMachine.write, general, Registers.width_write, Registers.ip_write,
    Registers.sp_write, Registers.wrap_eq_mod]
  rfl

theorem listed_setIp (machine : Machine) (address : Nat) :
    ({ machine with registers := machine.registers.setIp address } : Machine).listed =
      machine.listed.jump address := by
  have general : (machine.registers.setIp address).read = machine.registers.read := by
    funext register
    exact machine.registers.read_setIp register address
  have moved : (machine.registers.setIp address).ip = machine.listed.wrap address :=
    machine.registers.wrap_eq_mod address
  simp only [listed, ListMachine.jump, general, moved]
  rfl

namespace Sized

theorem afterPush (sized : machine.Sized) {value : Nat} {stack : Stack} {registers : Registers}
    (pushed : machine.stack.push machine.registers value = .ok (stack, registers)) :
    Sized { machine with stack := stack, registers := registers } := by
  obtain ⟨room, rfl, rfl⟩ := Stack.push_eq_ok pushed
  exact ⟨Nat.lt_of_le_of_lt (Registers.wrap_le _ _) room, sized.capacity_le⟩

theorem afterPop (sized : machine.Sized) {value : Nat} {registers : Registers}
    (popped : machine.stack.pop machine.registers = .ok (value, registers)) :
    Sized { machine with registers := registers } := by
  obtain ⟨-, -, rfl⟩ := Stack.pop_eq_ok popped
  have low := machine.registers.wrap_le (machine.registers.sp - 1)
  have high := sized.sp_lt
  constructor
  · show machine.registers.wrap (machine.registers.sp - 1) < machine.stack.capacity
    omega
  · exact sized.capacity_le

theorem afterWrite (sized : machine.Sized) {after : Machine} (write : machine.Write after) :
    after.Sized := by
  cases write with
  | register target value =>
    constructor
    · rw [Registers.sp_write]
      exact sized.sp_lt
    · rw [Registers.width_write]
      exact sized.capacity_le
  | push value stack registers held pushed => exact sized.afterPush pushed
  | pop value registers popped => exact sized.afterPop popped
  | jump | store | print | fetch => exact ⟨sized.sp_lt, sized.capacity_le⟩

theorem execute (sized : machine.Sized) (word : Word) : (machine.execute word).machine.Sized :=
  (machine.execute_writes word).keeps sized fun _ _ write kept => kept.afterWrite write

theorem step (sized : machine.Sized) : machine.step.machine.Sized :=
  machine.step_writes.keeps sized fun _ _ write kept => kept.afterWrite write

/-- The list is as long as the stack pointer says. -/
theorem length_listed (sized : machine.Sized) :
    machine.listed.stack.length = machine.registers.sp := by
  have inside : machine.registers.sp ≤ machine.stack.slots.size := Nat.le_of_lt sized.sp_lt
  exact (Cells.length_take _ _).trans (Nat.min_eq_left inside)

/-- A push appends to the list, or both overflow. -/
theorem push_cases (sized : machine.Sized) (value : Nat) :
    (∃ stack registers, machine.stack.push machine.registers value = .ok (stack, registers) ∧
      machine.listed.push value =
        .ok ({ machine with stack := stack, registers := registers } : Machine).listed) ∨
    (machine.stack.push machine.registers value = .error .stackOverflow ∧
      machine.listed.push value = .error .stackOverflow) := by
  have inside := sized.sp_lt
  have reach := sized.capacity_le
  have full_iff : machine.listed.stack.length = machine.listed.capacity - 1 ↔
      machine.stack.capacity ≤ machine.registers.sp + 1 := by
    rw [sized.length_listed]
    show machine.registers.sp = machine.stack.capacity - 1 ↔ _
    omega
  cases pushed : machine.stack.push machine.registers value with
  | ok result =>
    obtain ⟨stack, registers⟩ := result
    obtain ⟨room, -, moved⟩ := Stack.push_eq_ok pushed
    -- The stack pointer does not wrap, so it counts one more slot.
    have next : registers.sp = machine.registers.sp + 1 := by
      rw [moved, Registers.sp_setSp, Registers.wrap_of_lt (by omega)]
    have pushed_listed : ({ machine with stack := stack, registers := registers } : Machine).listed =
        { machine.listed with stack := machine.listed.stack ++ [value] } := by
      have general : registers.read = machine.registers.read := by
        funext register
        rw [moved, Registers.read_setSp]
      simp only [listed, general, next, Stack.take_push pushed, Stack.capacity_push pushed]
      rw [moved]
      rfl
    refine .inl ⟨stack, registers, rfl, ?_⟩
    rw [ListMachine.push, if_neg (by rw [full_iff]; omega), pushed_listed]
  | error reason =>
    obtain ⟨full, rfl⟩ := (Stack.push_eq_error_iff reason).mp pushed
    exact .inr ⟨rfl, if_pos (full_iff.mpr full)⟩

/-- A pop removes the last element of the list, or both underflow. -/
theorem pop_cases (sized : machine.Sized) :
    (∃ value registers, machine.stack.pop machine.registers = .ok (value, registers) ∧
      machine.listed.pop =
        .ok (value, ({ machine with registers := registers } : Machine).listed)) ∨
    (machine.stack.pop machine.registers = .fault .stackUnderflow ∧
      machine.listed.pop = .error .stackUnderflow) := by
  have inside := sized.sp_lt
  have reach := sized.capacity_le
  cases popped : machine.stack.pop machine.registers with
  | ok result =>
    obtain ⟨value, registers⟩ := result
    obtain ⟨-, -, moved⟩ := Stack.pop_eq_ok popped
    have next : registers.sp = machine.registers.sp - 1 := by
      rw [moved, Registers.sp_setSp, Registers.wrap_of_lt (by omega)]
    have top : machine.listed.stack =
        ({ machine with registers := registers } : Machine).listed.stack ++ [value] := by
      show machine.stack.slots.take machine.registers.sp =
        machine.stack.slots.take registers.sp ++ [value]
      rw [Stack.take_pop popped, next]
    refine .inl ⟨value, registers, rfl, ?_⟩
    have general : registers.read = machine.registers.read := by
      funext register
      rw [moved, Registers.read_setSp]
    rw [ListMachine.pop, top, List.getLast?_concat]
    simp only [List.dropLast_concat, listed, general]
    rw [moved]
    rfl
  | fault reason =>
    obtain ⟨empty, rfl⟩ := (Stack.pop_eq_fault_iff reason).mp popped
    have none_left : machine.listed.stack = [] :=
      List.length_eq_zero_iff.mp (sized.length_listed.trans empty)
    exact .inr ⟨rfl, by rw [ListMachine.pop, none_left]; rfl⟩
  | missingSlot =>
    have above := Stack.pop_eq_missingSlot_iff.mp popped
    omega

end Sized

namespace Sized

variable (sized : machine.Sized)

include sized

/-- The list machine does what the machine does. -/
theorem perform_listed (instruction : Instruction) :
    machine.listed.perform instruction =
      ((machine.perform instruction).machine.listed, (machine.perform instruction).outcome) := by
  cases instruction with
  | call target =>
    obtain ⟨stack, registers, pushed, appended⟩ | ⟨pushed, refused⟩ :=
      sized.push_cases machine.registers.ip
    · have jumped := listed_setIp { machine with stack := stack, registers := registers } target
      simp only [perform, pushed, Effect.proceed, jumped]
      show machine.listed.attempt false ((machine.listed.push machine.registers.ip).map _) = _
      rw [appended]
      rfl
    · simp only [perform, pushed]
      show machine.listed.attempt false ((machine.listed.push machine.registers.ip).map _) = _
      rw [refused]
      rfl
  | ret =>
    obtain ⟨address, registers, popped, removed⟩ | ⟨popped, refused⟩ := sized.pop_cases
    · have jumped := listed_setIp { machine with registers := registers } address
      simp only [perform, popped, Effect.proceed, jumped, ListMachine.perform, removed]
      rfl
    · simp only [perform, popped, ListMachine.perform, refused]
      rfl
  | move rd rs => simp only [perform, Effect.proceed, listed_write]; rfl
  | loadValue rd value => simp only [perform, Effect.proceed, listed_write]; rfl
  | loadMemory rd address =>
    show machine.listed.attempt false ((machine.memory.read address).map _) = _
    simp only [perform]
    split
    · rename_i value found
      simp only [found, Effect.proceed, listed_write]
      rfl
    · rename_i reason refused
      rw [refused]
      rfl
  | storeMemory rd address =>
    show machine.listed.attempt false
      ((machine.memory.write address (machine.registers.read rd)).map _) = _
    simp only [perform]
    split
    · rename_i memory stored
      rw [stored]
      rfl
    · rename_i reason refused
      rw [refused]
      rfl
  | arithmetic rd rs operation destination =>
    have general : machine.listed.general = machine.registers.read := rfl
    simp only [perform, ListMachine.perform, general]
    cases operation.combine (machine.registers.read rd) (machine.registers.read rs) with
    | some value => simp only [Effect.proceed, listed_write]
    | none => rfl
  | shift rs direction amount => simp only [perform, Effect.proceed, listed_write]; rfl
  | push rs =>
    obtain ⟨stack, registers, pushed, appended⟩ | ⟨pushed, refused⟩ :=
      sized.push_cases (machine.registers.read rs)
    · simp only [perform, pushed, Effect.proceed]
      show machine.listed.attempt false (machine.listed.push (machine.registers.read rs)) = _
      rw [appended]
      rfl
    · simp only [perform, pushed]
      show machine.listed.attempt false (machine.listed.push (machine.registers.read rs)) = _
      rw [refused]
      rfl
  | pop rd =>
    obtain ⟨value, registers, popped, removed⟩ | ⟨popped, refused⟩ := sized.pop_cases
    · have written := listed_write { machine with registers := registers } rd value
      simp only [perform, popped, Effect.proceed, written, ListMachine.perform, removed]
      rfl
    · simp only [perform, popped, ListMachine.perform, refused]
      rfl
  | jumpIfLess rd target =>
    simp only [perform, ListMachine.perform]
    show (if machine.registers.a < machine.registers.read rd then _ else _) = _
    split
    · simp only [Effect.proceed, listed_setIp]
    · rfl
  | output rs selector => rfl
  | halt => rfl

theorem execute_listed (word : Word) :
    machine.listed.execute word =
      ((machine.execute word).machine.listed, (machine.execute word).outcome) := by
  unfold ListMachine.execute Machine.execute
  cases word.instruction? with
  | some instruction => exact sized.perform_listed instruction
  | none => rfl

theorem step_listed :
    machine.listed.step = (machine.step.machine.listed, machine.step.outcome) := by
  have words : machine.listed.program[machine.listed.ip]? =
      machine.program[machine.registers.ip]? := rfl
  simp only [ListMachine.step, Machine.step, words]
  cases machine.program[machine.registers.ip]? with
  | none => rfl
  | some word =>
    have kept : (machine.fetched word).Sized := sized.afterWrite (.fetch word)
    have general : (machine.fetched word).registers.read = machine.registers.read := by
      funext register
      exact machine.registers.read_setIp register (machine.registers.ip + 1)
    have moved : (machine.fetched word).registers.ip =
        machine.listed.wrap (machine.registers.ip + 1) := machine.registers.wrap_eq_mod _
    have fetched : machine.listed.fetched word = (machine.fetched word).listed := by
      simp only [listed, general, moved]
      rfl
    dsimp only
    rw [fetched, kept.execute_listed]

theorem push_listed (value : Nat) :
    ListMachine.system.push value machine.listed =
      ((machine.pushValue value).1.listed, (machine.pushValue value).2) := by
  show machine.listed.attempt () (machine.listed.push value) = _
  unfold pushValue
  obtain ⟨stack, registers, pushed, appended⟩ | ⟨pushed, refused⟩ := sized.push_cases value
  · rw [pushed, appended]
    rfl
  · rw [pushed, refused]
    rfl

theorem pop_listed :
    ListMachine.system.pop machine.listed = (machine.popValue.1.listed, machine.popValue.2) := by
  simp only [ListMachine.system, popValue]
  obtain ⟨value, registers, popped, removed⟩ | ⟨popped, refused⟩ := sized.pop_cases
  · rw [popped, removed]
  · rw [popped, refused]

end Sized

/-- A machine and its list match call by call. -/
theorem alike_listed :
    system.Alike ListMachine.system fun machine list => machine.Sized ∧ machine.listed = list where
  isPastEnd := by
    intro machine list related
    obtain ⟨sized, rfl⟩ := related
    rfl
  step := by
    intro machine list related
    obtain ⟨sized, rfl⟩ := related
    have stepped : ListMachine.system.step machine.listed = _ := sized.step_listed
    rw [stepped]
    exact ⟨⟨sized.step, rfl⟩, rfl⟩
  execute := by
    intro machine list related word
    obtain ⟨sized, rfl⟩ := related
    have executed : ListMachine.system.execute word machine.listed = _ := sized.execute_listed word
    rw [executed]
    exact ⟨⟨sized.execute word, rfl⟩, rfl⟩
  push := by
    intro machine list related value
    obtain ⟨sized, rfl⟩ := related
    rw [sized.push_listed]
    refine ⟨⟨?_, rfl⟩, rfl⟩
    simp only [system, pushValue]
    split
    · rename_i stack registers pushed
      exact sized.afterPush pushed
    · exact sized
  pop := by
    intro machine list related
    obtain ⟨sized, rfl⟩ := related
    rw [sized.pop_listed]
    refine ⟨⟨?_, rfl⟩, rfl⟩
    simp only [system, popValue]
    split
    · rename_i value registers popped
      exact sized.afterPop popped
    · exact sized
    · exact sized

variable {configuration : Configuration} {program : List Word} {sink : Sink} {start : Machine}

theorem sized_fresh (valid : configuration.Valid) : (fresh configuration program sink).Sized where
  sp_lt := valid.2.1
  capacity_le := by
    rw [(shaped_fresh valid program sink).width_eq]
    exact valid.2.2

theorem listed_fresh (valid : configuration.Valid) :
    (fresh configuration program sink).listed = .fresh configuration program sink := by
  have width := (shaped_fresh valid program sink).width_eq
  have general : (fresh configuration program sink).registers.read = fun _ => 0 := by
    funext register
    cases register <;> rfl
  simp only [listed, width, general]
  rfl

/-- A list machine with the same registers, memory and output, whose stack is the live slots. -/
structure Represents (machine : Machine) (list : ListMachine) : Prop where
  width_eq : list.width = machine.registers.width
  general_eq : ∀ register, list.general register = machine.registers.read register
  ip_eq : list.ip = machine.registers.ip
  memory_eq : list.memory = machine.memory
  sink_eq : list.sink = machine.sink
  program_eq : list.program = machine.program
  lastFetched_eq : list.lastFetched = machine.lastFetched
  capacity_eq : list.capacity = machine.stack.capacity
  sp_eq : machine.registers.sp = list.stack.length
  live_eq : machine.stack.live? machine.registers = some list.stack

theorem Sized.represents {machine : Machine} (sized : machine.Sized) :
    machine.Represents machine.listed where
  width_eq := rfl
  general_eq _ := rfl
  ip_eq := rfl
  memory_eq := rfl
  sink_eq := rfl
  program_eq := rfl
  lastFetched_eq := rfl
  capacity_eq := rfl
  sp_eq := sized.length_listed.symm
  live_eq := if_pos (Nat.le_of_lt sized.sp_lt)

/-- Whatever is asked of a fresh machine and of its stack, it answers as a machine with a list for a
stack does, and its registers, memory, output and live slots are always those of that machine. Two
machines that differ in dead slots only answer alike for ever. -/
theorem stack_is_list (created : create configuration program sink = .ok start) :
    SameSessions Responds ListMachine.system.Responds Represents start
      (.fresh configuration program sink) ∧
    ∀ first second, SameLive first second →
      SameSessions Responds Responds SameLive first second := by
  obtain ⟨valid, rfl⟩ := create_eq_ok created
  rw [responds_eq]
  refine ⟨?_, fun first second same => alike_sameLive.sameSessions same⟩
  apply (alike_listed.sameSessions ⟨sized_fresh valid, listed_fresh valid⟩).mono
  intro machine list related
  obtain ⟨sized, rfl⟩ := related
  exact sized.represents

/-- A stack of two slots overflows at the second push. The popped value stays in its slot, and
nothing shows that it is there. -/
theorem stack_is_list_stale :
    let start := fresh ⟨1, 0, 2⟩ [] {}
    let used := (start.pushValue 1).1.popValue.1
    create ⟨1, 0, 2⟩ [] {} = .ok start ∧ used.stack.slots.get? 0 = some 1 ∧
      (∃ list, Session ListMachine.system.Responds (.fresh ⟨1, 0, 2⟩ [] {})
        [(.push 1, .pushed (.ok ())), (.push 0, .pushed (.fault .stackOverflow)),
          (.pop, .popped (.ok 1)), (.pop, .popped (.fault .stackUnderflow))] list ∧
        used.Represents list) ∧
      SameSessions Responds Responds SameLive start used := by
  have session : Session Responds (fresh ⟨1, 0, 2⟩ [] {})
      [(.push 1, .pushed (.ok ())), (.push 0, .pushed (.fault .stackOverflow)),
        (.pop, .popped (.ok 1)), (.pop, .popped (.fault .stackUnderflow))]
      ((fresh ⟨1, 0, 2⟩ [] {}).pushValue 1).1.popValue.1 :=
    .ask (.push 1) (.ask (.push 0) (.ask .pop (.ask .pop (.done _))))
  have same : SameLive (fresh ⟨1, 0, 2⟩ [] {})
      ((fresh ⟨1, 0, 2⟩ [] {}).pushValue 1).1.popValue.1 :=
    .restack ⟨rfl, fun index below => absurd below (Nat.not_lt_zero index)⟩
  intro start used
  have created : create ⟨1, 0, 2⟩ [] {} = .ok start := by rfl
  obtain ⟨listed, dead⟩ := stack_is_list created
  have stale : used.stack.slots.get? 0 = some 1 := by decide
  exact ⟨created, stale, listed.1 _ used session, dead start used same⟩

end Machine

end RegisterMachine
