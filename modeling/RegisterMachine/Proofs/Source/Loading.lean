import RegisterMachine.Proofs.Source.Reports
import RegisterMachine.Source.Loading

/-!
What a program file holds, in each of its formats.
-/

namespace RegisterMachine.Source

/-- A text is a program in its format. An assembled program is announced, and words are read in
silence. -/
inductive Loads : Format → String → List Word → List Record → Prop where
  | assembled {text : String} {program : List Word}
      (accepted : (assemble text).program? = some program) :
      Loads .assembly text program [.assembled program.length (assemble text).labelCount]
  | read {text : String} {program : List Word} (accepted : HexWords.load text = .ok program) :
      Loads .hexWords text program []

/-- A text is no program in its format. The assembler has made its complaints, and the words end at
the first one that is wrong. -/
inductive Rejects : Format → String → List Record → Prop where
  | assembled {text : String} (refused : (assemble text).program? = none) :
      Rejects .assembly text ((assemble text).complaints.map .complaint)
  | read {text : String} {complaint : Complaint} (refused : HexWords.load text = .error complaint) :
      Rejects .hexWords text [.complaint complaint]

section Loading

variable {format : Format} {text : String} {program : List Word} {records : List Record}

theorem load_eq_some_iff :
    load format text = ⟨some program, records⟩ ↔ Loads format text program records := by
  constructor
  · intro loaded
    cases format with
    | assembly =>
      obtain ⟨accepted, rfl⟩ := Loading.mk.inj loaded
      rw [records_of_program? text accepted]
      exact .assembled accepted
    | hexWords =>
      unfold load at loaded
      cases read : HexWords.load text with
      | ok words =>
        simp only [read, Loading.mk.injEq, Option.some.injEq] at loaded
        obtain ⟨rfl, rfl⟩ := loaded
        exact .read read
      | error complaint => simp [read] at loaded
  · intro loads
    cases loads with
    | assembled accepted => rw [load, accepted, records_of_program? text accepted]
    | read accepted => rw [load, accepted]

theorem load_eq_none_iff :
    load format text = ⟨none, records⟩ ↔ Rejects format text records := by
  have complained (refused : (assemble text).program? = none) :
      (assemble text).records = (assemble text).complaints.map .complaint := by
    rw [Assembly.records, refused, Option.map_none, Option.toList_none, List.append_nil]
  constructor
  · intro loaded
    cases format with
    | assembly =>
      obtain ⟨refused, rfl⟩ := Loading.mk.inj loaded
      rw [complained refused]
      exact .assembled refused
    | hexWords =>
      unfold load at loaded
      cases read : HexWords.load text with
      | ok words => simp [read] at loaded
      | error complaint =>
        simp only [read, Loading.mk.injEq, true_and] at loaded
        obtain rfl := loaded
        exact .read read
  · intro rejects
    cases rejects with
    | assembled refused => rw [load, refused, complained refused]
    | read refused => rw [load, refused]

/-- A program is at most announced. -/
theorem Loads.level (loads : Loads format text program records) :
    ∀ record ∈ records, record.level = .info := by
  cases loads with
  | assembled accepted => exact List.forall_mem_singleton.mpr rfl
  | read accepted => exact List.forall_mem_nil _

end Loading

end RegisterMachine.Source
