import RegisterMachine.Proofs.Machine.Output

/-!
What a word answers when it is executed.

Every fault has one cause, which shows in the fields of the word, the registers it reads, the sizes
of the machine or its sink. A word without any of these causes completes.
-/

namespace RegisterMachine

namespace Operation

theorem ofCode_eq_div_iff (code : Nat) : ofCode code = .div ↔ code % 4 = 3 := by
  have same := code_ofCode code
  constructor
  · intro divides
    rw [← same, divides]
    rfl
  · intro three
    cases operation : ofCode code <;> simp_all [Operation.code]

/-- A quotient of values of sixty-four bits fits, so only a divisor of zero has no result. -/
theorem combine_eq_none_iff (operation : Operation) (rd : Nat) {rs : Nat}
    (small : rs < modulus 64) : operation.combine rd rs = none ↔ operation = .div ∧ rd = 0 := by
  cases operation with
  | add | sub | mul => simp [combine, IntegerType.apply]
  | div =>
    have below : rs / rd < modulus 64 := Nat.lt_of_le_of_lt (Nat.div_le_self rs rd) small
    have fits : (IntegerType.unsigned 64).Contains ((rs : Int).tdiv rd) :=
      ⟨Int.natCast_nonneg (rs / rd), Int.ofNat_lt.mpr below⟩
    simp only [combine, IntegerType.apply, fits, and_true, ite_eq_right_iff, reduceCtorEq,
      imp_false, not_not, Int.natCast_eq_zero, true_and]

end Operation

/-- The numbers of the opcodes are those below thirteen. -/
theorem Opcode.ofNumber?_eq_none_iff (number : Nat) : ofNumber? number = none ↔ 13 ≤ number := by
  unfold ofNumber?
  split
  case h_14 => grind
  all_goals simp

namespace Word

/-- The word puts a value on the stack. -/
def Pushes (word : Word) : Prop := word.opcode? = some .cal ∨ word.opcode? = some .psh

/-- The word takes a value from the stack. -/
def Pops (word : Word) : Prop := word.opcode? = some .ret ∨ word.opcode? = some .pop

/-- The word reads or writes a memory cell. -/
def Accesses (word : Word) : Prop := word.opcode? = some .ldr ∨ word.opcode? = some .ldm

/-- The opcode of a word is that of its instruction. -/
theorem opcode?_of_instruction? {word : Word} {instruction : Instruction}
    (read : word.instruction? = some instruction) : word.opcode? = some instruction.opcode := by
  obtain ⟨opcode, known, rfl⟩ := Option.map_eq_some_iff.mp read
  rw [known]
  cases opcode <;> rfl

instance (word : Word) : Decidable word.Pushes := inferInstanceAs (Decidable (_ ∨ _))

instance (word : Word) : Decidable word.Pops := inferInstanceAs (Decidable (_ ∨ _))

instance (word : Word) : Decidable word.Accesses := inferInstanceAs (Decidable (_ ∨ _))

end Word

namespace Machine

variable (machine : Machine) (word : Word)

/-- What a word answers, by its opcode. -/
def verdict : Outcome Bool :=
  match word.opcode? with
  | none => .fault (.unknownOpcode word.opcodeNumber)
  | some .cal | some .psh =>
    if machine.stack.capacity ≤ machine.registers.sp + 1 then .fault .stackOverflow else .ok false
  | some .ret | some .pop =>
    if machine.registers.sp = 0 then .fault .stackUnderflow
    else if machine.stack.capacity < machine.registers.sp then .missingSlot
    else .ok false
  | some .ldr | some .ldm =>
    if machine.memory.size ≤ word.address then .fault (.memoryOutOfBounds word.address)
    else .ok false
  | some .ath =>
    if (Operation.ofCode word.byte).combine (machine.registers.read word.rd)
        (machine.registers.read word.rs) = none then .fault .divisionByZero
    else .ok false
  | some .out =>
    match (machine.sink.write (utf8 (machine.printed word))).2 with
    | some error => .fault (.output error)
    | none => .ok false
  | some .hlt => .ok true
  | some .mov | some .ldv | some .sft | some .jlt => .ok false

theorem outcome_execute : (machine.execute word).outcome = machine.verdict word := by
  unfold execute verdict Word.instruction?
  cases word.opcode? with
  | none => rfl
  | some opcode =>
    cases opcode with
    | cal | psh =>
      simp only [Option.map_some, perform]
      split
      · rename_i stack pushed success
        obtain ⟨room, -, -⟩ := Stack.push_eq_ok success
        rw [if_neg (Nat.not_le_of_lt room)]
        rfl
      · rename_i reason refused
        obtain ⟨full, rfl⟩ := (Stack.push_eq_error_iff reason).mp refused
        rw [if_pos full]
        rfl
    | ret | pop =>
      simp only [Option.map_some, perform]
      split
      · rename_i value popped success
        have inside : ¬ machine.stack.capacity < machine.registers.sp := by
          rw [← Stack.pop_eq_missingSlot_iff, success]
          simp
        rw [if_neg (Stack.pop_eq_ok success).1, if_neg inside]
        rfl
      · rename_i reason refused
        obtain ⟨empty, rfl⟩ := (Stack.pop_eq_fault_iff reason).mp refused
        rw [if_pos empty]
        rfl
      · rename_i missing
        have above := Stack.pop_eq_missingSlot_iff.mp missing
        rw [if_neg (by omega), if_pos above]
    | ldr =>
      simp only [Option.map_some, perform]
      split
      · rename_i value success
        have inside : ¬ machine.memory.size ≤ word.address := fun outside => by
          rw [Memory.read_eq_error_iff.mpr ⟨outside, rfl⟩] at success
          contradiction
        rw [if_neg inside]
        rfl
      · rename_i reason refused
        obtain ⟨outside, rfl⟩ := Memory.read_eq_error_iff.mp refused
        rw [if_pos outside]
        rfl
    | ldm =>
      simp only [Option.map_some, perform]
      split
      · rename_i memory success
        have inside : ¬ machine.memory.size ≤ word.address := fun outside => by
          rw [Memory.write_eq_error_iff.mpr ⟨outside, rfl⟩] at success
          contradiction
        rw [if_neg inside]
        rfl
      · rename_i reason refused
        obtain ⟨outside, rfl⟩ := Memory.write_eq_error_iff.mp refused
        rw [if_pos outside]
        rfl
    | ath =>
      simp only [Option.map_some, perform]
      cases (Operation.ofCode word.byte).combine (machine.registers.read word.rd)
        (machine.registers.read word.rs) <;> rfl
    | out =>
      simp only [Option.map_some, perform, printed]
      cases (machine.sink.write (utf8
        ((OutputFormat.ofSelector word.byte).render (machine.registers.read word.rs)))).2 <;> rfl
    | jlt =>
      simp only [Option.map_some, perform]
      split <;> rfl
    | mov | ldv | sft | hlt => rfl

/-- The cause of each fault. -/
def Causes : Fault → Prop
  | .unknownOpcode number => 13 ≤ word.opcodeNumber ∧ number = word.opcodeNumber
  | .stackOverflow => word.Pushes ∧ machine.stack.capacity ≤ machine.registers.sp + 1
  | .stackUnderflow => word.Pops ∧ machine.registers.sp = 0
  | .divisionByZero =>
    word.opcode? = some .ath ∧ word.byte.val % 4 = 3 ∧ machine.registers.read word.rd = 0
  | .memoryOutOfBounds address =>
    word.Accesses ∧ machine.memory.size ≤ word.address ∧ address = word.address
  | .output error =>
    word.opcode? = some .out ∧ machine.sink.Refuses (utf8 (machine.printed word)) error

variable {machine : Machine} {word : Word}

/-- A word faults with the faults that have a cause. Only a division looks at the size of a
register's value. -/
theorem outcome_eq_fault_iff {reason : Fault}
    (small : reason = .divisionByZero → machine.registers.read word.rs < modulus 64) :
    (machine.execute word).outcome = .fault reason ↔ machine.Causes word reason := by
  rw [outcome_execute]
  unfold verdict
  cases reason with
  | unknownOpcode number =>
    rw [Causes, ← Opcode.ofNumber?_eq_none_iff, ← Word.opcode?]
    cases word.opcode? with
    | none => simp [eq_comm]
    | some opcode => cases opcode <;> grind
  | stackOverflow =>
    rw [Causes, Word.Pushes]
    cases word.opcode? with
    | none => simp
    | some opcode => cases opcode <;> grind
  | stackUnderflow =>
    rw [Causes, Word.Pops]
    cases word.opcode? with
    | none => simp
    | some opcode => cases opcode <;> grind
  | divisionByZero =>
    rw [Causes, ← Operation.ofCode_eq_div_iff, ← Operation.combine_eq_none_iff _ _ (small rfl)]
    cases word.opcode? with
    | none => simp
    | some opcode => cases opcode <;> grind
  | memoryOutOfBounds address =>
    rw [Causes, Word.Accesses]
    cases word.opcode? with
    | none => simp
    | some opcode => cases opcode <;> grind
  | output error =>
    rw [Causes, ← Sink.write_snd_eq_some_iff]
    cases word.opcode? with
    | none => simp
    | some opcode => cases opcode <;> grind

/-- A word that faults for any cause but the sink changes nothing. -/
theorem execute_of_causes {reason : Fault} (silent : ∀ error, reason ≠ .output error)
    (small : reason = .divisionByZero → machine.registers.read word.rs < modulus 64)
    (causes : machine.Causes word reason) :
    (machine.execute word).outcome = .fault reason ∧ (machine.execute word).machine = machine := by
  have faulted := (outcome_eq_fault_iff small).mpr causes
  obtain ⟨sink, refused, left⟩ := execute_fault faulted
  rw [refused.untouched silent] at left
  exact ⟨faulted, left⟩

/-- A slot is missing where a word pops while the stack pointer is outside the stack. -/
theorem outcome_eq_missingSlot_iff : (machine.execute word).outcome = .missingSlot ↔
    word.Pops ∧ machine.stack.capacity < machine.registers.sp := by
  rw [outcome_execute]
  unfold verdict Word.Pops
  cases word.opcode? with
  | none => simp
  | some opcode => cases opcode <;> grind

theorem outcome_eq_ok_true_iff : (machine.execute word).outcome = .ok true ↔
    word.opcode? = some .hlt := by
  rw [outcome_execute]
  unfold verdict
  cases word.opcode? with
  | none => simp
  | some opcode => cases opcode <;> grind

/-- The answers of a word, each with the condition under which it is given. -/
structure Classified (machine : Machine) (word : Word) : Prop where
  faults : ∀ reason, (machine.execute word).outcome = .fault reason ↔ machine.Causes word reason
  halts : (machine.execute word).outcome = .ok true ↔ word.opcode? = some .hlt
  completes : (machine.execute word).outcome = .ok false ↔
    word.opcode? ≠ some .hlt ∧ ∀ reason, ¬ machine.Causes word reason
  present : (machine.execute word).outcome ≠ .missingSlot

/-- A machine whose stack pointer is within the stack and whose registers have thirty-two bits
answers every word with its verdict. -/
theorem execute_classified (housed : machine.Housed)
    (small : ∀ register, machine.registers.read register < modulus 32) (word : Word) :
    machine.Classified word := by
  have wider : modulus 32 ≤ modulus 64 := by decide
  have faults (reason : Fault) :
      (machine.execute word).outcome = .fault reason ↔ machine.Causes word reason :=
    outcome_eq_fault_iff fun _ => Nat.lt_of_lt_of_le (small word.rs) wider
  have present : (machine.execute word).outcome ≠ .missingSlot := by
    rw [Ne, outcome_eq_missingSlot_iff]
    exact fun missing => Nat.not_lt_of_le housed missing.2
  have halts : (machine.execute word).outcome = .ok true ↔ word.opcode? = some .hlt :=
    outcome_eq_ok_true_iff
  refine ⟨faults, halts, ?_, present⟩
  -- What is neither a fault nor a halt is the completion.
  simp only [Ne, ← faults, ← halts]
  cases answered : (machine.execute word).outcome with
  | ok halted => cases halted <;> simp
  | fault reason => simp
  | missingSlot => exact absurd answered present

/-- With a full stack and a sink without room, a division by zero is still only that. -/
theorem execute_classified_division :
    let machine : Machine := { fresh ⟨8, 0, 1⟩ [] (Limit.sink { room := some 0 }) with
      registers := ⟨8, 5, 0, 0, 0, 0, 0⟩ }
    let word : Word := 1814
    (machine.execute word).outcome = .fault .divisionByZero ∧ machine.Housed ∧
      machine.Classified word := by
  intro machine word
  have housed : machine.Housed := Nat.zero_le 1
  have small : ∀ register, machine.registers.read register < modulus 32 := by
    intro register
    cases register <;> decide
  exact ⟨by decide +kernel, housed, execute_classified housed small word⟩

end Machine

end RegisterMachine
