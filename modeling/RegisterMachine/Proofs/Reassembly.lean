import RegisterMachine.Proofs.Machine.Likeness
import RegisterMachine.Proofs.Source.Disassembly

/-!
Reassembling the text of a program restores what the program does.

Fields that an opcode does not use have no effect, and neither has the choice between two selectors
of one format. The text leaves out nothing else, so every run of the restored program agrees with
the same run of the program.
-/

namespace RegisterMachine

open Source (assemble)

namespace Machine

/-- The text of an instruction has all that its effect depends on. -/
theorem perform_written (machine : Machine) (instruction : Instruction) :
    machine.perform instruction.written = machine.perform instruction := by
  cases instruction with
  | output rs selector =>
    simp only [Instruction.written, perform, OutputFormat.ofSelector_selector]
  | _ => rfl

/-- The machine with another program in it. -/
def load (machine : Machine) (program : List Word) : Machine :=
  { machine with program := program.toArray }

end Machine

theorem Word.alike_rewritten (word : Word) : word.Alike word.rewritten := by
  intro machine
  unfold Word.rewritten
  split
  · rename_i instruction held
    rw [Machine.execute, Machine.execute, held, Instruction.instruction?_word]
    exact (machine.perform_written instruction).symm
  · rfl

theorem Machine.twin_rewritten (machine : Machine) (program : List Word) :
    (machine.load program).Twin (machine.load (program.map Word.rewritten)) where
  same := rfl
  alike := by
    show List.Forall₂ Word.Alike program (program.map Word.rewritten)
    rw [List.forall₂_map_right_iff, List.forall₂_same]
    exact fun word _ => word.alike_rewritten

/-- Another program restores a program when it has the same length and text, and when all its runs
agree with those of the program, whatever machine it is loaded into and whatever the budget. -/
structure Restores (program again : List Word) : Prop where
  length : again.length = program.length
  text : listing again = listing program
  runFor : ∀ (machine : Machine) (budget : Nat),
    ((machine.load program).runFor budget).Agrees ((machine.load again).runFor budget)
  run? : ∀ (machine : Machine) (fuel : Nat),
    Option.Rel Run.Agrees ((machine.load program).run? fuel) ((machine.load again).run? fuel)

theorem restores_rewritten (program : List Word) :
    Restores program (program.map Word.rewritten) where
  length := List.length_map Word.rewritten
  text := by
    rw [listing, listing, List.map_map]
    exact congrArg _ (List.map_congr_left fun word _ => word.text_rewritten)
  runFor machine budget := (machine.twin_rewritten program).runFor budget
  run? machine fuel := (machine.twin_rewritten program).run? fuel

/-- The text of a program can be assembled again when every opcode in it is assigned, and what comes
back restores the program. -/
theorem reassembly (program : List Word) :
    ((∃ again, (assemble (listing program)).program? = some again) ↔
        ∀ word ∈ program, word.opcodeNumber < 13) ∧
      ∀ again, (assemble (listing program)).program? = some again → Restores program again := by
  have held_iff : (∀ word ∈ program, word.instruction?.isSome) ↔
      ∀ word ∈ program, word.opcodeNumber < 13 :=
    forall₂_congr fun word _ => word.instruction?_isSome_iff
  rw [← held_iff]
  constructor
  · constructor
    · intro found
      obtain ⟨again, read⟩ := found
      exact Source.held_of_assemble_listing read
    · intro held
      exact ⟨_, Source.assemble_listing held⟩
  · intro again read
    have written := Source.assemble_listing (Source.held_of_assemble_listing read)
    rw [read] at written
    obtain rfl := Option.some.inj written
    exact restores_rewritten program

end RegisterMachine
