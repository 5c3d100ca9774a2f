import RegisterMachine.Proofs.Machine.Changes

/-!
What a word reads and what it writes.

The places and the values of the changes of a word depend only on what the word reads. So two words
of which neither writes what the other reads or writes can be executed in any order.
-/

namespace RegisterMachine

namespace Word

variable (word : Word) (sp : Nat)

/-- The places that a word reads when the stack pointer is `sp`. -/
def reads : List Place :=
  match word.opcode? with
  | some .cal => [.ip, .sp]
  | some .ret => [.sp, .slot (sp - 1)]
  | some .mov => [.general word.rs]
  | some .ldv => []
  | some .ldr => [.cell word.address]
  | some .ldm => [.general word.rd]
  | some .ath => [.general word.rd, .general word.rs]
  | some .sft => [.general word.rs]
  | some .psh => [.general word.rs, .sp]
  | some .pop => [.sp, .slot (sp - 1)]
  | some .jlt => [.general .a, .general word.rd]
  | some .out => [.general word.rs]
  | some .hlt => []
  | none => []

/-- The places that a word writes when the stack pointer is `sp`, in the order of writing. -/
def writes : List Place :=
  match word.opcode? with
  | some .cal => [.slot sp, .sp, .ip]
  | some .ret => [.sp, .ip]
  | some .mov => [.general word.rd]
  | some .ldv => [.general word.rd]
  | some .ldr => [.general word.rd]
  | some .ldm => [.cell word.address]
  | some .ath => [.general word.destination]
  | some .sft => [.general word.rs]
  | some .psh => [.slot sp, .sp]
  | some .pop => [.sp, .general word.rd]
  | some .jlt => [.ip]
  | some .out => [.sink]
  | some .hlt => []
  | none => []

/-- The first word writes nothing that the second one reads or writes. -/
def Avoids (first second : Word) (sp : Nat) : Prop :=
  ∀ place ∈ first.writes sp, place ∉ second.reads sp ∧ place ∉ second.writes sp

instance (first second : Word) : Decidable (first.Avoids second sp) :=
  inferInstanceAs (Decidable (∀ place ∈ first.writes sp, _))

end Word

namespace Sink

/-- A sink that takes and flushes every text. -/
def Unlimited (sink : Sink) : Prop := ∀ bytes error, ¬ sink.Refuses bytes error

theorem Unlimited.write {sink : Sink} (unlimited : sink.Unlimited) (bytes : List UInt8) :
    (sink.write bytes).2 = none := by
  cases refused : (sink.write bytes).2 with
  | none => rfl
  | some error =>
    exact absurd ((sink.write_snd_eq_some_iff bytes error).mp refused) (unlimited bytes error)

/-- A sink without end that flushes is one of them. -/
theorem Keeps.unlimited {sink : Sink} (keeps : sink.Keeps {}) : sink.Unlimited := by
  intro bytes error refuses
  have fits : Limit.Fits {} bytes.length := fun room limited =>
    absurd limited.symm (Option.some_ne_none room)
  have accepted := keeps.write_of_fits fits
  rw [(sink.write_snd_eq_some_iff bytes error).mpr refuses] at accepted
  contradiction

end Sink

namespace Machine

/-- Two machines of the same sizes hold the same at some places. -/
structure Agrees (places : List Place) (first second : Machine) : Prop extends
    first.Peers second where
  same : ∀ place ∈ places, place.Same first second

variable {machine first second : Machine} {word : Word} {halted : Bool}

/-- A word changes what it writes, unless it is a jump that is not taken. -/
theorem map_place_changes (taken : word.opcode? = some .jlt → machine.Jumps word) :
    (machine.changes word).map Change.place = word.writes machine.registers.sp := by
  unfold changes Word.writes
  cases known : word.opcode? with
  | none => rfl
  | some opcode =>
    cases opcode with
    | jlt =>
      simp only [if_pos (taken known)]
      rfl
    | cal | ret | mov | ldv | ldr | ldm | ath | sft | psh | pop | out | hlt => rfl

theorem place_mem_writes {change : Change} (made : change ∈ machine.changes word) :
    change.place ∈ word.writes machine.registers.sp := by
  have taken : word.opcode? = some .jlt → machine.Jumps word := fun jump => by
    by_contra stays
    rw [changes_of_not_jumps jump stays] at made
    contradiction
  rw [← map_place_changes taken]
  exact List.mem_map_of_mem made

section Agreement

variable (agrees : first.Agrees (word.reads first.registers.sp) second)

include agrees

/-- Machines that agree on the registers of a jump take the same branch. -/
theorem Agrees.jumps_iff (jump : word.opcode? = some .jlt) :
    second.Jumps word ↔ first.Jumps word := by
  have reads : word.reads first.registers.sp = [.general .a, .general word.rd] := by
    rw [Word.reads, jump]
  have low : second.registers.a = first.registers.a :=
    agrees.same (.general .a) (by simp [reads])
  have high : second.registers.read word.rd = first.registers.read word.rd :=
    agrees.same (.general word.rd) (by simp [reads])
  rw [Jumps, Jumps, low, high]

theorem Agrees.printed_eq (printing : word.opcode? = some .out) :
    second.printed word = first.printed word := by
  have reads : word.reads first.registers.sp = [.general word.rs] := by
    rw [Word.reads, printing]
  have value : second.registers.read word.rs = first.registers.read word.rs :=
    agrees.same (.general word.rs) (by simp [reads])
  rw [printed, printed, value]

/-- The changes of a word depend only on what it reads. -/
theorem Agrees.changes_eq : second.changes word = first.changes word := by
  have same := agrees.same
  unfold Word.reads at same
  unfold changes
  cases known : word.opcode? with
  | none => rfl
  | some opcode =>
    rw [known] at same
    cases opcode with
    | jlt => simp only [agrees.jumps_iff known]
    | out => simp only [agrees.printed_eq known]
    | ldv | hlt => rfl
    | cal | ret | mov | ldr | ldm | ath | sft | psh | pop =>
      simp only [List.forall_mem_cons, List.not_mem_nil, IsEmpty.forall_iff, implies_true, and_true,
        Place.Same] at same
      simp only [same, agrees.width_eq]

/-- The answer of a word depends only on what it reads, and that of an output on the sink. -/
theorem Agrees.outcome_eq (sink : word.opcode? = some .out → second.sink = first.sink) :
    (second.execute word).outcome = (first.execute word).outcome := by
  have same := agrees.same
  unfold Word.reads at same
  rw [outcome_execute, outcome_execute]
  unfold verdict
  cases known : word.opcode? with
  | none => rfl
  | some opcode =>
    rw [known] at same
    cases opcode with
    | mov | ldv | sft | jlt | hlt => rfl
    | ldr | ldm => simp only [agrees.size_eq]
    | out => simp only [agrees.printed_eq known, sink known]
    | cal | ret | ath | psh | pop =>
      simp only [List.forall_mem_cons, List.not_mem_nil, IsEmpty.forall_iff, implies_true, and_true,
        Place.Same] at same
      simp only [same, agrees.capacity_eq]

end Agreement

/-- An output completes where the sink accepts its text. -/
theorem accepted_of_output (printing : word.opcode? = some .out)
    (completes : (machine.execute word).outcome = .ok halted) :
    (machine.sink.write (utf8 (machine.printed word))).2 = none ∧ halted = false := by
  rw [(machine.execute_output printing).2] at completes
  cases refused : (machine.sink.write (utf8 (machine.printed word))).2 with
  | none =>
    rw [refused] at completes
    exact ⟨rfl, (Outcome.ok.inj completes).symm⟩
  | some error =>
    rw [refused] at completes
    contradiction

/-- An output that completes appends the bytes of its text. -/
theorem written_of_output (printing : word.opcode? = some .out)
    (completes : (machine.execute word).outcome = .ok halted) :
    (machine.execute word).machine.sink.written =
      machine.sink.written ++ utf8 (machine.printed word) := by
  rw [(machine.execute_output printing).1]
  exact Sink.written_of_accepted (accepted_of_output printing completes).1

theorem execute_frame {place : Place} (completes : (machine.execute word).outcome = .ok halted)
    (outside : place ∉ word.writes machine.registers.sp) :
    place.Same machine (machine.execute word).machine := by
  rw [execute_eq_makeAll completes]
  refine makeAll_same fun change made same => outside ?_
  rw [same]
  exact place_mem_writes made

theorem execute_rests (completes : (machine.execute word).outcome = .ok halted) :
    machine.Rests (machine.execute word).machine := by
  rw [execute_eq_makeAll completes]
  exact makeAll_rests _

/-- What a word does on two machines that agree on what it reads. -/
structure DoesAlike (first second : Machine) (word : Word) : Prop where
  /-- Only an output looks at the sink. -/
  answers : (word.opcode? = some .out → second.sink.Unlimited) →
    (second.execute word).outcome = (first.execute word).outcome
  leaves : (word.opcode? = some .jlt → first.Jumps word) →
    ∀ place ∈ word.writes first.registers.sp, place ≠ .sink →
      place.Same (first.execute word).machine (second.execute word).machine
  decides : word.opcode? = some .jlt → (second.Jumps word ↔ first.Jumps word)
  /-- The target loses the bits that the width leaves out. -/
  jumps : word.opcode? = some .jlt → first.Jumps word →
    (first.execute word).machine.registers.ip = word.address % modulus first.registers.width ∧
      (second.execute word).machine.registers.ip = word.address % modulus first.registers.width
  stays : word.opcode? = some .jlt → ¬ first.Jumps word →
    (first.execute word).machine.registers.ip = first.registers.ip ∧
      (second.execute word).machine.registers.ip = second.registers.ip
  prints : word.opcode? = some .out → ∀ halted, (second.execute word).outcome = .ok halted →
    let text := utf8 (first.printed word)
    (first.execute word).machine.sink.written = first.sink.written ++ text ∧
      (second.execute word).machine.sink.written = second.sink.written ++ text

theorem Agrees.doesAlike (agrees : first.Agrees (word.reads first.registers.sp) second)
    (completes : (first.execute word).outcome = .ok halted) : first.DoesAlike second word := by
  have answered (silent : word.opcode? ≠ some .out) :
      (second.execute word).outcome = .ok halted := by
    rw [← completes]
    exact agrees.outcome_eq fun printing => absurd printing silent
  have made := execute_eq_makeAll completes
  have made' (silent : word.opcode? ≠ some .out) :
      (second.execute word).machine = second.makeAll (first.changes word) := by
    rw [execute_eq_makeAll (answered silent), agrees.changes_eq]
  have silent_of_jump (jump : word.opcode? = some .jlt) : word.opcode? ≠ some .out := by
    rw [jump]
    decide
  constructor
  case answers =>
    intro unlimited
    by_cases printing : word.opcode? = some .out
    · obtain ⟨-, rfl⟩ := accepted_of_output printing completes
      rw [completes, (second.execute_output printing).2, (unlimited printing).write]
      rfl
    · rw [answered printing, completes]
  case leaves =>
    intro taken place written other
    have silent : word.opcode? ≠ some .out := fun printing => by
      rw [Word.writes, printing] at written
      exact other (List.mem_singleton.mp written)
    rw [made, made' silent]
    rw [← map_place_changes taken, List.mem_map] at written
    exact agrees.toPeers.same_makeAll other (.inr written)
  case decides => exact fun jump => agrees.jumps_iff jump
  case jumps =>
    intro jump below
    rw [made, made' (silent_of_jump jump)]
    simp only [changes, jump, if_pos below]
    refine ⟨Registers.wrap_eq_mod _ _, ?_⟩
    rw [← agrees.width_eq]
    exact Registers.wrap_eq_mod _ _
  case stays =>
    intro jump above
    rw [made, made' (silent_of_jump jump), changes_of_not_jumps jump above]
    exact ⟨rfl, rfl⟩
  case prints =>
    intro printing halted' completes' text
    refine ⟨written_of_output printing completes, ?_⟩
    rw [written_of_output printing completes', agrees.printed_eq printing]

/-- What a word that completes leaves alone, what its effect depends on, and which words can change
places with it. -/
structure Footprint (machine : Machine) (word : Word) : Prop where
  frame : ∀ place, place ∉ word.writes machine.registers.sp →
    place.Same machine (machine.execute word).machine
  rests : machine.Rests (machine.execute word).machine
  alike : ∀ other, machine.Agrees (word.reads machine.registers.sp) other →
    machine.DoesAlike other word
  /-- A word that is avoided answers as before. -/
  unmoved : ∀ next, word.Avoids next machine.registers.sp →
    ((machine.execute word).machine.execute next).outcome = (machine.execute next).outcome
  commutes : ∀ next halted, word.Avoids next machine.registers.sp →
    next.Avoids word machine.registers.sp → (machine.execute next).outcome = .ok halted →
      ((machine.execute next).machine.execute word).outcome = (machine.execute word).outcome ∧
        ((machine.execute next).machine.execute word).machine =
          ((machine.execute word).machine.execute next).machine

section Order

variable {next : Word} (completes : (machine.execute word).outcome = .ok halted)
  (avoids : word.Avoids next machine.registers.sp)

include completes avoids

/-- A word that is avoided finds what it reads as it was. -/
theorem agrees_of_avoids :
    machine.Agrees (next.reads machine.registers.sp) (machine.execute word).machine where
  toPeers := (execute_rests completes).toPeers
  same place read := execute_frame completes fun written => (avoids place written).1 read

theorem outcome_of_avoids :
    ((machine.execute word).machine.execute next).outcome = (machine.execute next).outcome := by
  refine (agrees_of_avoids completes avoids).outcome_eq fun printing => ?_
  have sink : Place.sink ∈ next.writes machine.registers.sp := by
    rw [Word.writes, printing]
    exact List.mem_singleton.mpr rfl
  exact execute_frame completes fun written => (avoids _ written).2 sink

theorem execute_execute {halted' : Bool} (follows : (machine.execute next).outcome = .ok halted') :
    ((machine.execute word).machine.execute next).machine =
      (machine.makeAll (machine.changes word)).makeAll (machine.changes next) := by
  have answer := (outcome_of_avoids completes avoids).trans follows
  rw [execute_eq_makeAll answer, (agrees_of_avoids completes avoids).changes_eq,
    execute_eq_makeAll completes]

end Order

/-- A word that completes reads and writes no more than its footprint. -/
theorem execute_footprint (completes : (machine.execute word).outcome = .ok halted) :
    machine.Footprint word where
  frame _ outside := execute_frame completes outside
  rests := execute_rests completes
  alike _ agrees := agrees.doesAlike completes
  unmoved _ avoids := outcome_of_avoids completes avoids
  commutes next _ avoids avoids' follows := by
    refine ⟨outcome_of_avoids follows avoids', ?_⟩
    rw [execute_execute follows avoids' completes, execute_execute completes avoids follows]
    refine makeAll_comm fun change made other made' same => ?_
    have written := place_mem_writes made
    rw [same] at written
    exact (avoids' _ written).2 (place_mem_writes made')

/-- A push and a store can change places. -/
theorem execute_footprint_push :
    let machine : Machine := { fresh ⟨8, 4, 4⟩ [] {} with registers := ⟨8, 5, 7, 0, 0, 0, 1⟩ }
    let push := (Instruction.push .b).word
    let store := (Instruction.storeMemory .a 2).word
    (machine.execute push).outcome = .ok false ∧ machine.Footprint push ∧
      ((machine.execute store).machine.execute push).machine =
        ((machine.execute push).machine.execute store).machine := by
  intro machine push store
  have completes : (machine.execute push).outcome = .ok false := by decide +kernel
  have stored : (machine.execute store).outcome = .ok false := by decide +kernel
  have avoids : push.Avoids store machine.registers.sp := by decide +kernel
  have avoids' : store.Avoids push machine.registers.sp := by decide +kernel
  have footprint := execute_footprint completes
  exact ⟨completes, footprint, (footprint.commutes store false avoids avoids' stored).2⟩

/-- A machine of four bits jumps to the low bits of a target that it cannot hold. -/
theorem jump_truncated :
    let machine : Machine := { fresh ⟨4, 0, 1⟩ [] {} with registers := ⟨4, 0, 1, 0, 0, 0, 0⟩ }
    let word := (Instruction.jumpIfLess .b 700).word
    machine.Housed ∧ word.opcode? = some .jlt ∧ machine.Jumps word ∧
      (machine.execute word).outcome = .ok false ∧ word.address = 700 ∧
        (machine.execute word).machine.registers.ip = 12 ∧
          (machine.execute word).machine.registers.ip ≠ word.address := by
  intro machine word
  exact ⟨Nat.zero_le 1, by decide +kernel⟩

end Machine

end RegisterMachine
