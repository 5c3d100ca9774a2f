import RegisterMachine.Proofs.Machine.Residues
import RegisterMachine.Proofs.Machine.Safety

/-!
A machine of few bits is a wide machine with the high bits left out.

Two machines of the same sizes but different widths start out alike when each value of the narrow
one is the residue of the value of the wide one. Copies, sums, differences, products and shifts to
the left keep residues, so the two stay alike and answer alike until a word compares, divides,
shifts to the right or prints.
-/

namespace RegisterMachine

namespace Operation

/-- Without a division, the residue of the result depends on the residues of the operands only. -/
theorem exact_modEq {operation : Operation} (undivided : operation ≠ .div) {rd rs rd' rs' size : Int}
    (same_rd : rd' ≡ rd [ZMOD size]) (same_rs : rs' ≡ rs [ZMOD size]) :
    operation.exact rd' rs' ≡ operation.exact rd rs [ZMOD size] := by
  cases operation with
  | add => exact same_rd.add same_rs
  | sub => exact same_rs.sub same_rd
  | mul => exact same_rs.mul same_rd
  | div => exact absurd rfl undivided

/-- The unit keeps residues as the exact operations do. -/
theorem combine_reduces {operation : Operation} (undivided : operation ≠ .div) {bits : Nat}
    (fits : bits ≤ 64) {rd rs rd' rs' : Nat} (same_rd : rd' ≡ rd [MOD modulus bits])
    (same_rs : rs' ≡ rs [MOD modulus bits]) :
    ∃ value value', operation.combine rd rs = some value ∧
      operation.combine rd' rs' = some value' ∧
        value'.toNat ≡ value.toNat [MOD modulus bits] := by
  have total (left right : Nat) : ∃ value, operation.combine left right = some value := by
    cases operation with
    | add | sub | mul => exact ⟨_, rfl⟩
    | div => exact absurd rfl undivided
  have divides : (modulus bits : Int) ∣ modulus 64 := Int.natCast_dvd_natCast.mpr (modulus_dvd fits)
  obtain ⟨value, combined⟩ := total rd rs
  obtain ⟨value', combined'⟩ := total rd' rs'
  obtain ⟨⟨nonnegative, -⟩, congruent⟩ := combine_modEq combined
  obtain ⟨⟨nonnegative', -⟩, congruent'⟩ := combine_modEq combined'
  refine ⟨value, value', combined, combined', ?_⟩
  rw [← Int.natCast_modEq_iff, Int.toNat_of_nonneg nonnegative, Int.toNat_of_nonneg nonnegative']
  calc value' ≡ operation.exact rd' rs' [ZMOD modulus bits] := congruent'.of_dvd divides
    _ ≡ operation.exact rd rs [ZMOD modulus bits] := exact_modEq undivided
        (Int.natCast_modEq_iff.mpr same_rd) (Int.natCast_modEq_iff.mpr same_rs)
    _ ≡ value [ZMOD modulus bits] := (congruent.of_dvd divides).symm

end Operation

/-- A shift to the left multiplies, also where it moves every bit out. -/
theorem Direction.shift_left_modEq {bits width : Nat} (bits_le : bits ≤ width)
    (value amount : Nat) :
    Direction.left.shift width value amount ≡ value * modulus amount [MOD modulus bits] := by
  unfold shift
  split
  · rename_i far
    have divides : modulus bits ∣ value * modulus amount :=
      (modulus_dvd (bits_le.trans far)).mul_left value
    exact (Nat.modEq_zero_iff_dvd.mpr divides).symm
  · exact Nat.ModEq.refl _

/-- Whether the residue of the result depends on the residues of the operands only. -/
def Instruction.Reducible : Instruction → Prop
  | .arithmetic _ _ operation _ => operation ≠ .div
  | .shift _ direction _ => direction = .left
  | .jumpIfLess _ _ | .output _ _ => False
  | _ => True

instance : (instruction : Instruction) → Decidable instruction.Reducible
  | .arithmetic _ _ operation _ => inferInstanceAs (Decidable (operation ≠ .div))
  | .shift _ direction _ => inferInstanceAs (Decidable (direction = .left))
  | .jumpIfLess _ _ | .output _ _ => inferInstanceAs (Decidable False)
  | .call _ | .ret | .move _ _ | .loadValue _ _ | .loadMemory _ _ | .storeMemory _ _ | .push _
  | .pop _ | .halt => inferInstanceAs (Decidable True)

namespace Registers

/-- The values of the narrow registers are the residues of the wide ones. The stack pointers are the
same. -/
structure Reduces (wide narrow : Registers) : Prop where
  width_le : narrow.width ≤ wide.width
  general_eq : ∀ register, narrow.read register = wide.read register % modulus narrow.width
  ip_eq : narrow.ip = wide.ip % modulus narrow.width
  sp_eq : narrow.sp = wide.sp

namespace Reduces

variable {wide narrow : Registers} {value value' : Nat} (reduces : wide.Reduces narrow)

include reduces

theorem read_modEq (register : Register) :
    narrow.read register ≡ wide.read register [MOD modulus narrow.width] := by
  rw [reduces.general_eq register]
  exact Nat.mod_modEq _ _

/-- Wrapping twice is wrapping to the smaller width. -/
theorem wrap_eq (same : value' ≡ value [MOD modulus narrow.width]) :
    narrow.wrap value' = wide.wrap value % modulus narrow.width := by
  rw [wrap_eq_mod, wrap_eq_mod, Nat.mod_mod_of_dvd _ (modulus_dvd reduces.width_le)]
  exact same

theorem write (target : Register) (same : value' ≡ value [MOD modulus narrow.width]) :
    (wide.write target value).Reduces (narrow.write target value') where
  width_le := by
    rw [width_write, width_write]
    exact reduces.width_le
  general_eq register := by
    rw [read_write, read_write, width_write]
    split
    · exact reduces.wrap_eq same
    · exact reduces.general_eq register
  ip_eq := by
    rw [ip_write, ip_write, width_write]
    exact reduces.ip_eq
  sp_eq := by
    rw [sp_write, sp_write]
    exact reduces.sp_eq

theorem setIp (same : value' ≡ value [MOD modulus narrow.width]) :
    (wide.setIp value).Reduces (narrow.setIp value') where
  width_le := reduces.width_le
  general_eq register := by
    rw [read_setIp, read_setIp]
    exact reduces.general_eq register
  ip_eq := reduces.wrap_eq same
  sp_eq := reduces.sp_eq

/-- A stack pointer that fits in the smaller width is kept by both. -/
theorem setSp {count : Nat} (small : count < modulus narrow.width) :
    (wide.setSp count).Reduces (narrow.setSp count) where
  width_le := reduces.width_le
  general_eq register := by
    rw [read_setSp, read_setSp]
    exact reduces.general_eq register
  ip_eq := reduces.ip_eq
  sp_eq := by
    have smaller := Nat.lt_of_lt_of_le small (modulus_le reduces.width_le)
    rw [sp_setSp, sp_setSp, wrap_of_lt small, wrap_of_lt smaller]

end Reduces

end Registers

/-- Two rows of the same size, of which the narrow one has the residues of the wide one. -/
structure Cells.Reduces (bits : Nat) (wide narrow : Cells) : Prop where
  size_eq : narrow.size = wide.size
  cell_eq : ∀ address, narrow.get? address = (wide.get? address).map (· % modulus bits)

theorem Cells.Reduces.set {bits address address' value : Nat} {wide narrow : Cells}
    (reduces : wide.Reduces bits narrow) (same : address' = address)
    (inside : address < wide.size) (inside' : address' < narrow.size) :
    (wide.set address value inside).Reduces bits
      (narrow.set address' (value % modulus bits) inside') where
  size_eq := reduces.size_eq
  cell_eq other := by
    rw [get?_set, get?_set, same]
    split
    · rfl
    · exact reduces.cell_eq other

namespace Memory

variable {bits : Nat} {wide narrow : Memory} (reduces : wide.cells.Reduces bits narrow.cells)

include reduces

/-- A load finds the residue of what the wide memory has, or no cell in both. -/
theorem read_reduces (address : Nat) :
    (∃ value, wide.read address = .ok value ∧ narrow.read address = .ok (value % modulus bits)) ∨
      ∃ reason, wide.read address = .error reason ∧ narrow.read address = .error reason := by
  have same := reduces.cell_eq address
  unfold read
  cases found : wide.cells.get? address with
  | none =>
    rw [found] at same
    rw [same]
    exact .inr ⟨_, rfl, rfl⟩
  | some value =>
    rw [found] at same
    rw [same]
    exact .inl ⟨value, rfl, rfl⟩

theorem write_reduces (address value : Nat) :
    (∃ after after', wide.write address value = .ok after ∧
      narrow.write address (value % modulus bits) = .ok after' ∧
        after.cells.Reduces bits after'.cells) ∨
      ∃ reason, wide.write address value = .error reason ∧
        narrow.write address (value % modulus bits) = .error reason := by
  by_cases inside : address < wide.cells.size
  · have inside' : address < narrow.cells.size := reduces.size_eq ▸ inside
    exact .inl ⟨_, _, dif_pos inside, dif_pos inside', reduces.set rfl inside inside'⟩
  · have outside : ¬ address < narrow.cells.size := reduces.size_eq ▸ inside
    exact .inr ⟨_, dif_neg inside, dif_neg outside⟩

end Memory

namespace Stack

variable {wide narrow : Stack} {registers registers' : Registers}
  (reduces : registers.Reduces registers')
  (slots : wide.slots.Reduces registers'.width narrow.slots)
  (within : narrow.capacity ≤ modulus registers'.width)

include reduces slots within

/-- Both stacks take the value, or both are full. The smaller width can count every slot. -/
theorem push_reduces (value : Nat) :
    (∃ after after' moved moved', wide.push registers value = .ok (after, moved) ∧
      narrow.push registers' (value % modulus registers'.width) = .ok (after', moved') ∧
        moved.Reduces moved' ∧ moved'.width = registers'.width ∧
          after.slots.Reduces registers'.width after'.slots) ∨
      ∃ reason, wide.push registers value = .error reason ∧
        narrow.push registers' (value % modulus registers'.width) = .error reason := by
  have iff : registers'.sp + 1 < narrow.slots.size ↔ registers.sp + 1 < wide.slots.size := by
    rw [reduces.sp_eq, slots.size_eq]
  by_cases room : registers.sp + 1 < wide.slots.size
  · have room' := iff.mpr room
    refine .inl ⟨_, _, _, _, dif_pos room, dif_pos room', ?_, rfl,
      slots.set reduces.sp_eq (Nat.lt_of_succ_lt room) (Nat.lt_of_succ_lt room')⟩
    rw [reduces.sp_eq] at room' ⊢
    exact reduces.setSp (Nat.lt_of_lt_of_le room' within)
  · exact .inr ⟨_, dif_neg room, dif_neg (iff.not.mpr room)⟩

/-- Both stacks give a value with the same residue, or both answer alike that there is none. -/
theorem pop_reduces :
    (∃ value moved moved', wide.pop registers = .ok (value, moved) ∧
      narrow.pop registers' = .ok (value % modulus registers'.width, moved') ∧
        moved.Reduces moved' ∧ moved'.width = registers'.width) ∨
      (∃ reason, wide.pop registers = .fault reason ∧ narrow.pop registers' = .fault reason) ∨
        wide.pop registers = .missingSlot ∧ narrow.pop registers' = .missingSlot := by
  unfold pop
  rw [reduces.sp_eq, slots.cell_eq]
  by_cases empty : registers.sp = 0
  · exact .inr (.inl ⟨_, if_pos empty, if_pos empty⟩)
  · rw [if_neg empty, if_neg empty]
    cases found : wide.slots.get? (registers.sp - 1) with
    | none => exact .inr (.inr ⟨rfl, rfl⟩)
    | some value =>
      have inside : registers.sp - 1 < narrow.slots.size := by
        by_contra outside
        rw [slots.size_eq] at outside
        rw [(wide.slots.get?_eq_none_iff _).mpr (Nat.le_of_not_lt outside)] at found
        contradiction
      exact .inl ⟨_, _, _, rfl, rfl, reduces.setSp (Nat.lt_of_lt_of_le inside within), rfl⟩

end Stack

namespace Machine

/-- Registers, cells and slots of the narrow machine, the dead slots included, have the residues of
those of the wide one. -/
structure Reduces (wide narrow : Machine) : Prop where
  registers : wide.registers.Reduces narrow.registers
  cells : wide.memory.cells.Reduces narrow.registers.width narrow.memory.cells
  slots : wide.stack.slots.Reduces narrow.registers.width narrow.stack.slots

/-- The answers to some words, executed one after the other whatever they answer. -/
def answers (machine : Machine) : List Word → List (Outcome Bool)
  | [] => []
  | word :: words => (machine.execute word).outcome :: (machine.execute word).machine.answers words

namespace Reduces

variable {wide narrow : Machine}

/-- Registers that are reduced to the same width replace those of the machines. -/
theorem withRegisters (reduces : wide.Reduces narrow) {moved moved' : Registers}
    (registers : moved.Reduces moved') (width : moved'.width = narrow.registers.width) :
    Reduces { wide with registers := moved } { narrow with registers := moved' } where
  registers := registers
  cells := by
    rw [width]
    exact reduces.cells
  slots := by
    rw [width]
    exact reduces.slots

/-- Writing values with the same residue keeps the machines alike. -/
theorem write (reduces : wide.Reduces narrow) (target : Register) {value value' : Nat}
    (same : value' ≡ value [MOD modulus narrow.registers.width]) :
    Reduces { wide with registers := wide.registers.write target value }
      { narrow with registers := narrow.registers.write target value' } :=
  reduces.withRegisters (reduces.registers.write target same)
    (Registers.width_write narrow.registers target value')

/-- A reducible instruction has the same answer on both machines, and keeps them alike. -/
theorem perform (reduces : wide.Reduces narrow)
    (within : narrow.stack.capacity ≤ modulus narrow.registers.width)
    (unit : narrow.registers.width ≤ 64) {instruction : Instruction}
    (reducible : instruction.Reducible) :
    (wide.perform instruction).machine.Reduces (narrow.perform instruction).machine ∧
      (narrow.perform instruction).outcome = (wide.perform instruction).outcome := by
  cases instruction with
  | call target =>
    simp only [Machine.perform, reduces.registers.ip_eq]
    obtain ⟨after, after', moved, moved', pushed, pushed', registers, width, slots⟩ |
      ⟨reason, refused, refused'⟩ :=
        Stack.push_reduces reduces.registers reduces.slots within wide.registers.ip
    · rw [pushed, pushed']
      have placed : Reduces { wide with stack := after } { narrow with stack := after' } :=
        { reduces with slots := slots }
      exact ⟨placed.withRegisters (registers.setIp (Nat.ModEq.refl _)) width, rfl⟩
    · rw [refused, refused']
      exact ⟨reduces, rfl⟩
  | ret =>
    simp only [Machine.perform]
    obtain ⟨value, moved, moved', popped, popped', registers, width⟩ |
      ⟨reason, refused, refused'⟩ | ⟨missing, missing'⟩ :=
        Stack.pop_reduces reduces.registers reduces.slots within
    · rw [popped, popped', ← width]
      exact ⟨reduces.withRegisters (registers.setIp (Nat.mod_modEq _ _)) width, rfl⟩
    · rw [refused, refused']
      exact ⟨reduces, rfl⟩
    · rw [missing, missing']
      exact ⟨reduces, rfl⟩
  | move rd rs => exact ⟨reduces.write rd (reduces.registers.read_modEq rs), rfl⟩
  | loadValue rd value => exact ⟨reduces.write rd (Nat.ModEq.refl _), rfl⟩
  | loadMemory rd address =>
    simp only [Machine.perform]
    obtain ⟨value, found, found'⟩ | ⟨reason, refused, refused'⟩ :=
      Memory.read_reduces reduces.cells address
    · rw [found, found']
      exact ⟨reduces.write rd (Nat.mod_modEq _ _), rfl⟩
    · rw [refused, refused']
      exact ⟨reduces, rfl⟩
  | storeMemory rd address =>
    simp only [Machine.perform, reduces.registers.general_eq]
    obtain ⟨after, after', written, written', cells⟩ | ⟨reason, refused, refused'⟩ :=
      Memory.write_reduces reduces.cells address (wide.registers.read rd)
    · rw [written, written']
      exact ⟨{ reduces with cells := cells }, rfl⟩
    · rw [refused, refused']
      exact ⟨reduces, rfl⟩
  | arithmetic rd rs operation destination =>
    obtain ⟨value, value', combined, combined', same⟩ := Operation.combine_reduces reducible unit
      (reduces.registers.read_modEq rd) (reduces.registers.read_modEq rs)
    simp only [Machine.perform, combined, combined']
    exact ⟨reduces.write _ same, rfl⟩
  | shift rs direction amount =>
    obtain rfl : direction = .left := reducible
    have same : Direction.left.shift narrow.registers.width (narrow.registers.read rs) amount ≡
        Direction.left.shift wide.registers.width (wide.registers.read rs) amount
          [MOD modulus narrow.registers.width] :=
      calc _ ≡ narrow.registers.read rs * modulus amount [MOD modulus narrow.registers.width] :=
            Direction.shift_left_modEq (Nat.le_refl _) _ _
        _ ≡ wide.registers.read rs * modulus amount [MOD modulus narrow.registers.width] :=
            (reduces.registers.read_modEq rs).mul_right _
        _ ≡ _ [MOD modulus narrow.registers.width] :=
            (Direction.shift_left_modEq reduces.registers.width_le _ _).symm
    exact ⟨reduces.write rs same, rfl⟩
  | push rs =>
    simp only [Machine.perform, reduces.registers.general_eq]
    obtain ⟨after, after', moved, moved', pushed, pushed', registers, width, slots⟩ |
      ⟨reason, refused, refused'⟩ :=
        Stack.push_reduces reduces.registers reduces.slots within (wide.registers.read rs)
    · rw [pushed, pushed']
      have placed : Reduces { wide with stack := after } { narrow with stack := after' } :=
        { reduces with slots := slots }
      exact ⟨placed.withRegisters registers width, rfl⟩
    · rw [refused, refused']
      exact ⟨reduces, rfl⟩
  | pop rd =>
    simp only [Machine.perform]
    obtain ⟨value, moved, moved', popped, popped', registers, width⟩ |
      ⟨reason, refused, refused'⟩ | ⟨missing, missing'⟩ :=
        Stack.pop_reduces reduces.registers reduces.slots within
    · rw [popped, popped', ← width]
      exact ⟨(reduces.withRegisters registers width).write rd (Nat.mod_modEq _ _), rfl⟩
    · rw [refused, refused']
      exact ⟨reduces, rfl⟩
    · rw [missing, missing']
      exact ⟨reduces, rfl⟩
  | jumpIfLess | output => exact absurd reducible not_false
  | halt => exact ⟨reduces, rfl⟩

theorem execute (reduces : wide.Reduces narrow)
    (within : narrow.stack.capacity ≤ modulus narrow.registers.width)
    (unit : narrow.registers.width ≤ 64) {word : Word}
    (reducible : ∀ instruction ∈ word.instruction?, instruction.Reducible) :
    (wide.execute word).machine.Reduces (narrow.execute word).machine ∧
      (narrow.execute word).outcome = (wide.execute word).outcome := by
  unfold Machine.execute
  cases read : word.instruction? with
  | none => exact ⟨reduces, rfl⟩
  | some instruction => exact reduces.perform within unit (reducible instruction read)

/-- Reducible words have the same answers on both machines, one after the other, and keep them
alike. -/
theorem executes {configuration : Configuration} {program : List Word}
    (valid : configuration.Valid) (reduces : wide.Reduces narrow)
    (shaped : narrow.Shaped configuration program) (bounded : narrow.Bounded) {words : List Word}
    (reducible : ∀ word ∈ words, ∀ instruction ∈ word.instruction?, instruction.Reducible) :
    narrow.answers words = wide.answers words ∧
      (wide.follow (words.map .execute)).Reduces (narrow.follow (words.map .execute)) := by
  induction words generalizing wide narrow with
  | nil => exact ⟨rfl, reduces⟩
  | cons word words ih =>
    rw [List.forall_mem_cons] at reducible
    have unit : narrow.registers.width ≤ 64 := by
      rw [shaped.width_eq]
      exact valid.1.2.trans (by decide)
    have writes := narrow.execute_writes word
    obtain ⟨alike, answered⟩ := reduces.execute bounded.capacity_le unit reducible.1
    obtain ⟨answers, final⟩ := ih alike
      (writes.keeps shaped fun _ _ write kept => write.shaped kept)
      (writes.keeps bounded fun _ _ write kept => kept.afterWrite write) reducible.2
    exact ⟨congrArg₂ List.cons answered answers, final⟩

end Reduces

variable {bits fewer memory stack : Nat} {program program' : List Word} {sink sink' : Sink}

/-- Fresh machines hold zeros only. -/
theorem reduces_fresh (fewer_le : fewer ≤ bits) (valid : Configuration.Valid ⟨fewer, memory, stack⟩)
    (program program' : List Word) (sink sink' : Sink) :
    (fresh ⟨bits, memory, stack⟩ program sink).Reduces
      (fresh ⟨fewer, memory, stack⟩ program' sink') := by
  have zeros (size address : Nat) : (Cells.zeros size).get? address =
      ((Cells.zeros size).get? address).map (· % modulus fewer) := by
    rw [Cells.get?_zeros]
    split
    · exact congrArg some (Nat.zero_mod _).symm
    · rfl
  have width : (fresh ⟨fewer, memory, stack⟩ program' sink').registers.width = fewer :=
    (shaped_fresh valid program' sink').width_eq
  refine ⟨⟨?_, ?_, ?_, rfl⟩, ?_, ?_⟩
  · show min (max fewer 1) 32 ≤ min (max bits 1) 32
    omega
  · intro register
    cases register <;> exact (Nat.zero_mod _).symm
  · exact (Nat.zero_mod _).symm
  · rw [width]
    exact ⟨rfl, zeros memory⟩
  · rw [width]
    exact ⟨rfl, zeros stack⟩

/-- A machine that a session has come to does what a wider machine of the same sizes does, modulo its
own width, whatever reducible words they execute. -/
theorem narrow_follows_wide {start wide narrow : Machine}
    (created : create ⟨fewer, memory, stack⟩ program sink = .ok start)
    (reached : start.Reached narrow) (reduces : wide.Reduces narrow) (words : List Word)
    (reducible : ∀ word ∈ words, ∀ instruction ∈ word.instruction?, instruction.Reducible) :
    narrow.answers words = wide.answers words ∧
      (wide.follow (words.map .execute)).Reduces (narrow.follow (words.map .execute)) := by
  obtain ⟨valid, rfl⟩ := create_eq_ok created
  obtain ⟨shaped, bounded⟩ := reached_bounded valid reached
  exact reduces.executes valid shaped bounded reducible

/-- A machine of four bits counts down from a number that it cannot hold, shifts by more bits than it
has and returns to what was not an address. -/
theorem narrow_follows_wide_truncated :
    let wide := fresh ⟨16, 4, 3⟩ [] {}
    let narrow := fresh ⟨4, 4, 3⟩ [] {}
    let words := [(Instruction.loadValue .a 1000).word, (Instruction.loadValue .b 3).word,
      (Instruction.arithmetic .a .b .sub .rd).word, (Instruction.push .a).word,
      (Instruction.shift .a .left 9).word, 15, (Instruction.storeMemory .a 4).word,
      Instruction.ret.word]
    narrow.answers words = wide.answers words ∧
      (wide.follow (words.map .execute)).Reduces (narrow.follow (words.map .execute)) ∧
        (wide.follow (words.map .execute)).registers = ⟨16, 13824, 3, 0, 0, 64539, 0⟩ ∧
          (narrow.follow (words.map .execute)).registers = ⟨4, 0, 3, 0, 0, 11, 0⟩ := by
  intro wide narrow words
  have created : create ⟨4, 4, 3⟩ [] {} = .ok narrow := by rfl
  have reduces : wide.Reduces narrow :=
    reduces_fresh (by decide) ⟨by decide, by decide, by decide⟩ [] [] {} {}
  have reducible : ∀ word ∈ words, ∀ instruction ∈ word.instruction?, instruction.Reducible := by
    simp only [words, List.forall_mem_cons, List.not_mem_nil, IsEmpty.forall_iff, implies_true,
      and_true]
    decide +kernel
  obtain ⟨answers, final⟩ := narrow_follows_wide created .start reduces words reducible
  exact ⟨answers, final, by decide +kernel, by decide +kernel⟩

end Machine

end RegisterMachine
