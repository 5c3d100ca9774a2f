import RegisterMachine.Proofs.Machine.Pointer
import RegisterMachine.Proofs.Machine.Safety

/-!
Programs that only go forward.

Where no word returns, and every call and every jump goes further down to an address that the
pointer can count, each step raises the instruction pointer. A run of such a program ends within as
many fetches as the program has words, and all of them are at different addresses.
-/

namespace RegisterMachine

/-- There are no returns, all calls and jumps go down, and the pointer can count every address. -/
structure Forward (width : Nat) (program : List Word) : Prop where
  short : program.length < modulus width
  no_return : ∀ index, ∀ inside : index < program.length, program[index].opcode? ≠ some .ret
  ahead : ∀ index, ∀ inside : index < program.length,
    program[index].opcode? = some .cal ∨ program[index].opcode? = some .jlt →
      index < program[index].address ∧ program[index].address < modulus width

instance (width : Nat) (program : List Word) : Decidable (Forward width program) :=
  decidable_of_iff
    (program.length < modulus width ∧
      (∀ index, ∀ inside : index < program.length, program[index].opcode? ≠ some .ret) ∧
      ∀ index, ∀ inside : index < program.length,
        program[index].opcode? = some .cal ∨ program[index].opcode? = some .jlt →
          index < program[index].address ∧ program[index].address < modulus width)
    ⟨fun ⟨short, no_return, ahead⟩ => ⟨short, no_return, ahead⟩,
      fun forward => ⟨forward.short, forward.no_return, forward.ahead⟩⟩

/-- A run without a budget returns, after a halt or a fault and at most so many fetches, each of
them further down than the one before. -/
structure Machine.Finishes (machine : Machine) (length : Nat) (run : Run) : Prop where
  ended : machine.run? (length + 1) = some run
  only : ∀ fuel other, machine.run? fuel = some other → other = run
  answered : (∃ steps, run.outcome = .ok (steps, true)) ∨ ∃ reason, run.outcome = .fault reason
  fetches_le : run.addresses.length ≤ length
  ascending : run.addresses.Pairwise (· < ·)
  once : run.addresses.Nodup
  /-- A budget of that length is enough. -/
  budget : ∀ steps, (machine.runFor length).outcome ≠ .ok (steps, false)

namespace Forward

variable {machine : Machine} {program : List Word} {run : Run}

/-- One step goes further down. -/
theorem ip_lt_step (forward : Forward machine.registers.width program)
    (loaded : machine.program = program.toArray) (inside : ¬ machine.isPastEnd) :
    machine.registers.ip < machine.step.machine.registers.ip := by
  have small : machine.registers.ip < program.length := by
    rwa [Machine.not_isPastEnd_iff, loaded, List.size_toArray] at inside
  have present : machine.program[machine.registers.ip]? =
      some program[machine.registers.ip] := by
    rw [Machine.getElem?_program loaded, List.getElem?_eq_getElem small]
  rw [Machine.ip_step present]
  cases sent : machine.goal? program[machine.registers.ip] with
  | none =>
    have next : machine.registers.ip + 1 < modulus machine.registers.width :=
      Nat.lt_of_le_of_lt small forward.short
    rw [Option.getD_none, Registers.wrap_of_lt next]
    exact Nat.lt_succ_self _
  | some target =>
    obtain ⟨jumps, rfl⟩ := Machine.address_of_goal? sent (forward.no_return _ small)
    obtain ⟨below, near⟩ := forward.ahead _ small jumps
    rw [Option.getD_some, Registers.wrap_of_lt near]
    exact below

variable (forward : Forward machine.registers.width program)
  (loaded : machine.program = program.toArray)

include forward loaded

/-- As long as there are words to fetch, every step raises the pointer by one at least. -/
theorem add_le_ip_after (first more : Nat)
    (inside : ∀ index < first + more, ¬ (machine.after index).isPastEnd) :
    (machine.after first).registers.ip + more ≤ (machine.after (first + more)).registers.ip := by
  induction more with
  | zero => exact Nat.le_refl _
  | succ more ih =>
    obtain ⟨same, width⟩ := machine.shaped_after (first + more)
    have so_far := ih fun index small => inside index (Nat.lt_succ_of_lt small)
    have raised : (machine.after (first + more)).registers.ip <
        (machine.after (first + more)).step.machine.registers.ip :=
      ip_lt_step (width ▸ forward) (same.trans loaded) (inside _ (Nat.lt_succ_self _))
    rw [← Nat.add_assoc, ← Nat.add_assoc, Machine.after_succ]
    exact Nat.lt_of_le_of_lt so_far raised

theorem le_ip_after (count : Nat)
    (inside : ∀ index < count, ¬ (machine.after index).isPastEnd) :
    count ≤ (machine.after count).registers.ip := by
  have raised := forward.add_le_ip_after loaded 0 count (by rwa [Nat.zero_add])
  rw [Nat.zero_add] at raised
  exact Nat.le_trans (Nat.le_add_left _ _) raised

/-- A machine that can still fetch has made fewer steps than there are words. -/
theorem lt_length {count : Nat} (inside : ∀ index ≤ count, ¬ (machine.after index).isPastEnd) :
    count < program.length := by
  have reached := forward.le_ip_after loaded count fun index small =>
    inside index (Nat.le_of_lt small)
  have last := inside count (Nat.le_refl _)
  rw [Machine.not_isPastEnd_iff, (machine.shaped_after count).1, loaded, List.size_toArray] at last
  exact Nat.lt_of_le_of_lt reached last

theorem tried_le (visits : run.Visits machine) : run.tried ≤ program.length := by
  cases counted : run.tried with
  | zero => exact Nat.zero_le _
  | succ count =>
    exact forward.lt_length loaded fun index most =>
      visits.inside index (counted ▸ Nat.lt_succ_of_le most)

theorem addresses_ascending (visits : run.Visits machine) : run.addresses.Pairwise (· < ·) := by
  rw [visits.addresses, List.pairwise_map]
  refine List.pairwise_lt_range.imp_of_mem ?_
  intro first second _ member earlier
  obtain ⟨more, rfl⟩ := Nat.exists_eq_add_of_lt earlier
  have raised := forward.add_le_ip_after loaded first (more + 1) fun index small =>
    visits.inside index (Nat.lt_trans small (List.mem_range.mp member))
  exact Nat.lt_of_lt_of_le (Nat.lt_add_of_pos_right (Nat.succ_pos more)) raised

theorem not_spends : ¬ machine.Spends program.length := by
  intro spends
  have visits := (Run.start_visits machine).drive program.length
  have tried : ((Run.start machine).drive program.length).tried = program.length := by
    rw [Run.tried_of_unstopped spends.1, Run.steps_drive_of_unstopped spends.1]
    exact Nat.zero_add _
  have inside : ∀ index ≤ program.length, ¬ (machine.after index).isPastEnd := by
    intro index most
    obtain earlier | rfl := Nat.lt_or_eq_of_le most
    · exact visits.inside index (tried.symm ▸ earlier)
    · have going := spends.2
      rwa [visits.place, tried] at going
  exact Nat.lt_irrefl _ (forward.lt_length loaded inside)

theorem finishes (bounded : machine.Bounded) :
    machine.Finishes program.length (machine.runFor program.length) := by
  have finished := forward.not_spends loaded
  have ended := Machine.run?_of_not_spends finished
  have visits := ((Run.start_visits machine).drive program.length).settle program.length
  have ascending := forward.addresses_ascending loaded visits
  constructor
  case ended => exact ended
  case only => exact fun fuel other finished => Machine.run?_unique finished ended
  case answered =>
    have present := Run.settle_ne_missingSlot
      (Run.drive_start_ne_missingSlot bounded program.length) program.length
    have stopped := ((machine.run?_eq_some_iff _ _).mp ended).2
    unfold Run.outcome
    split
    · rename_i unstopped
      rw [unstopped] at stopped
      contradiction
    · exact .inl ⟨_, rfl⟩
    · exact .inl ⟨_, rfl⟩
    · exact .inr ⟨_, rfl⟩
    · rename_i missing
      exact absurd missing present
  case fetches_le =>
    have counted := congrArg List.length visits.addresses
    rw [List.length_map, List.length_range] at counted
    exact counted.trans_le (forward.tried_le loaded visits)
  case ascending => exact ascending
  case once => exact ascending.imp fun below => Nat.ne_of_lt below
  case budget =>
    intro steps spent
    exact finished ((machine.outcome_runFor_eq_iff _ _).mp spent).1

end Forward

/-- A run of a program that only goes forward ends, from wherever a session has come to, by a halt
or a fault, within as many fetches as there are words and without fetching any of them twice. -/
theorem Machine.forward_finishes {configuration : Configuration} {program : List Word} {sink : Sink}
    {start machine : Machine} (created : create configuration program sink = .ok start)
    (reached : start.Reached machine) (forward : Forward configuration.width program) :
    ∃ run, machine.Finishes program.length run := by
  obtain ⟨valid, rfl⟩ := create_eq_ok created
  obtain ⟨shaped, bounded⟩ := reached_bounded valid reached
  rw [← shaped.width_eq] at forward
  exact ⟨_, forward.finishes shaped.program_eq bounded⟩

/-- A jump that is taken and a call leave out a word each. -/
theorem Machine.forward_finishes_skipping :
    let program : List Word := [83, 218, 99, 320, 99, 12]
    let start := fresh ⟨3, 0, 2⟩ program {}
    create ⟨3, 0, 2⟩ program {} = .ok start ∧ start.Reached start ∧ Forward 3 program ∧
      ∃ run, start.Finishes 6 run ∧ run.addresses = [0, 1, 3, 5] ∧ run.outcome = .ok (4, true) := by
  intro program start
  have created : create ⟨3, 0, 2⟩ program {} = .ok start := by rfl
  have forward : Forward 3 program := by decide
  obtain ⟨run, finishes⟩ := forward_finishes created .start forward
  have shown : (start.run? 7).map (fun run => (run.addresses, run.outcome)) =
      some ([0, 1, 3, 5], .ok (4, true)) := by
    decide +kernel
  have ended : start.run? 7 = some run := finishes.ended
  rw [ended] at shown
  obtain ⟨addresses, outcome⟩ := Prod.mk.inj (Option.some.inj shown)
  exact ⟨created, .start, forward, run, finishes, addresses, outcome⟩

end RegisterMachine
