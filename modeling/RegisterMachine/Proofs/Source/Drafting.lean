import RegisterMachine.Source.Assembly
import Mathlib.Data.List.Nodup

/-!
The first pass over the lines of a program. Its statements are those of the lines, it does not fail
exactly when every line is readable and the labels are new and near enough, and then its table has
each label with the number of statements before it. It never fails without a complaint, and it never
complains without failing.
-/

namespace RegisterMachine.Source

/-- A table with every name once gives each name the value beside it. -/
theorem lookup_eq_some_iff_mem {table : List (String × Nat)} (once : (table.map Prod.fst).Nodup)
    (name : String) (address : Nat) :
    table.lookup name = some address ↔ (name, address) ∈ table := by
  induction table with
  | nil => simp
  | cons entry table ih =>
    obtain ⟨first, value⟩ := entry
    rw [List.map_cons, List.nodup_cons] at once
    rw [List.lookup_cons, List.mem_cons, Prod.mk.injEq]
    by_cases same : name = first
    · subst same
      have absent : (name, address) ∉ table := fun member =>
        once.1 (List.mem_map.mpr ⟨(name, address), member, rfl⟩)
      simp only [beq_self_eq_true, Option.some.injEq, true_and, absent, or_false, eq_comm]
    · simp only [beq_eq_false_iff_ne.mpr same, ih once.2, same, false_and, false_or]

namespace Line

def statement? (line : Line) : Option Statement :=
  match line.body with
  | .statement found => some found
  | _ => none

/-- Every character of the line takes part in a token, and its head is a mnemonic. -/
structure Readable (line : Line) : Prop where
  no_misfit : line.misfits = []
  no_complaint : ∀ complaint, line.body ≠ .unreadable complaint

/-- The labels of a line have the same address. -/
def definitions (address : Nat) (line : Line) : List (String × Nat) :=
  line.labels.map fun label => (label.name, address)

end Line

/-- A misfit is complained about with its text quoted as it was read. -/
def Misfit.complaints (misfit : Misfit) : List Complaint :=
  if misfit.glued then
    [.gluedNumber, .invalidToken misfit.stop misfit.text]
  else
    [.invalidToken misfit.stop misfit.text]

/-- The labels of some lines in order, each with the number of statements before it. -/
def definitions (count : Nat) : List Line → List (String × Nat)
  | [] => []
  | line :: rest =>
    line.definitions count ++ definitions (count + line.statement?.toList.length) rest

namespace Draft

variable (draft : Draft)

/-- No name has been entered twice. -/
def Distinct : Prop := (draft.labels.map Prod.fst).Nodup

/-- Nothing that was read so far rules out a program. -/
def Clean : Prop := draft.failed = false

@[simp] theorem statements_fail (complaint : Complaint) :
    (draft.fail complaint).statements = draft.statements := rfl

@[simp] theorem labels_fail (complaint : Complaint) :
    (draft.fail complaint).labels = draft.labels := rfl

@[simp] theorem complaints_fail (complaint : Complaint) :
    (draft.fail complaint).complaints = draft.complaints.push complaint := rfl

theorem not_clean_fail (complaint : Complaint) : ¬ (draft.fail complaint).Clean :=
  Bool.noConfusion

section Misfits

variable (misfits : List Misfit)

theorem scan_eq (misfit : Misfit) : draft.scan misfit =
    { draft with complaints := draft.complaints ++ misfit.complaints, failed := true } := by
  unfold scan Misfit.complaints
  split
  · simp [warn, fail]
  · simp [warn, fail]

/-- Misfits leave the table and the statements alone. They are complained about in order, and the
first of them is a failure. -/
theorem foldl_scan_eq : misfits.foldl scan draft =
    { draft with
      complaints := draft.complaints ++ misfits.flatMap Misfit.complaints
      failed := draft.failed || !misfits.isEmpty } := by
  induction misfits generalizing draft with
  | nil => simp
  | cons misfit misfits ih =>
    rw [List.foldl_cons, ih, scan_eq]
    simp [← Array.toList_inj]

theorem clean_foldl_scan_iff : (misfits.foldl scan draft).Clean ↔ draft.Clean ∧ misfits = [] := by
  simp [foldl_scan_eq, Clean]

end Misfits

@[simp] theorem statements_define (label : Label) :
    (draft.define label).statements = draft.statements := by
  simp only [define]
  split
  · rfl
  · split <;> rfl

theorem define_distinct {draft : Draft} (distinct : draft.Distinct) (label : Label) :
    (draft.define label).Distinct := by
  simp only [define]
  split
  · exact distinct
  · rename_i absent
    split
    · refine List.nodup_cons.mpr ⟨?_, distinct⟩
      intro member
      obtain ⟨⟨name, address⟩, entered, alike⟩ := List.mem_map.mp member
      have same : name = label.name := alike
      have found := (lookup_eq_some_iff_mem distinct name address).mpr entered
      rw [← same, found] at absent
      exact absent rfl
    · exact distinct

/-- A label is entered without failure when its name is new and its address is small. -/
theorem define_clean_iff {draft : Draft} (distinct : draft.Distinct) (label : Label) :
    (draft.define label).Clean ↔
      draft.Clean ∧ label.name ∉ draft.labels.map Prod.fst ∧ draft.statements.size < 1024 := by
  have entered : (draft.labels.lookup label.name).isSome ↔
      label.name ∈ draft.labels.map Prod.fst := by
    simp only [Option.isSome_iff_exists, lookup_eq_some_iff_mem distinct, List.mem_map,
      Prod.exists, exists_and_right, exists_eq_right]
  simp only [define]
  split
  · rename_i found
    simp [not_clean_fail, entered.mp found]
  · rename_i absent
    rw [entered] at absent
    split
    · rename_i near
      simp [Clean, absent, near]
    · rename_i far
      simp [not_clean_fail, far]

theorem labels_define_of_clean {draft : Draft} {label : Label}
    (clean : (draft.define label).Clean) :
    (draft.define label).labels = (label.name, draft.statements.size) :: draft.labels := by
  simp only [define] at clean ⊢
  split at clean
  · exact absurd clean (draft.not_clean_fail _)
  · rename_i absent
    rw [if_neg absent]
    split at clean
    · rename_i near
      rw [if_pos near]
    · exact absurd clean (draft.not_clean_fail _)

/-- A draft tells of the definitions so far: it is clean when they went well and all that was read
can be read, and then they are its table. -/
structure Tells (draft : Draft) (entries : List (String × Nat)) (readable : Prop) : Prop where
  distinct : draft.Distinct
  clean_iff : draft.Clean ↔
    readable ∧ (entries.map Prod.fst).Nodup ∧ ∀ entry ∈ entries, entry.2 < 1024
  table : draft.Clean → draft.labels = entries.reverse

theorem empty_tells : empty.Tells [] True where
  distinct := List.nodup_nil
  clean_iff := by simp [Clean, empty]
  table _ := rfl

variable {draft : Draft} {entries : List (String × Nat)} {readable : Prop}

/-- One definition adds one entry. -/
theorem Tells.define (tells : draft.Tells entries readable) (label : Label) :
    (draft.define label).Tells (entries ++ [(label.name, draft.statements.size)]) readable where
  distinct := define_distinct tells.distinct label
  clean_iff := by
    rw [define_clean_iff tells.distinct]
    have names (clean : draft.Clean) :
        label.name ∈ draft.labels.map Prod.fst ↔ label.name ∈ entries.map Prod.fst := by
      rw [tells.table clean, List.map_reverse, List.mem_reverse]
    have once : ((entries ++ [(label.name, draft.statements.size)]).map Prod.fst).Nodup ↔
        label.name ∉ entries.map Prod.fst ∧ (entries.map Prod.fst).Nodup := by
      rw [List.map_append, List.map_singleton, ← List.concat_eq_append, List.nodup_concat]
    rw [once, List.forall_mem_append, List.forall_mem_singleton]
    constructor
    · rintro ⟨clean, absent, near⟩
      obtain ⟨able, distinct, small⟩ := tells.clean_iff.mp clean
      exact ⟨able, ⟨(names clean).not.mp absent, distinct⟩, small, near⟩
    · rintro ⟨able, ⟨absent, distinct⟩, small, near⟩
      have clean := tells.clean_iff.mpr ⟨able, distinct, small⟩
      exact ⟨clean, (names clean).not.mpr absent, near⟩
  table := by
    intro clean
    have before := ((define_clean_iff tells.distinct label).mp clean).1
    rw [labels_define_of_clean clean, tells.table before, List.reverse_append]
    rfl

theorem statements_foldl_define (labels : List Label) (draft : Draft) :
    (labels.foldl Draft.define draft).statements = draft.statements := by
  induction labels generalizing draft with
  | nil => rfl
  | cons label labels ih => rw [List.foldl_cons, ih, statements_define]

/-- The labels of a line are defined at the same address. -/
theorem Tells.foldl_define (tells : draft.Tells entries readable) (labels : List Label) :
    (labels.foldl Draft.define draft).Tells
      (entries ++ labels.map fun label => (label.name, draft.statements.size)) readable := by
  induction labels generalizing draft entries with
  | nil => rwa [List.map_nil, List.append_nil]
  | cons label labels ih =>
    have rest := ih (tells.define label)
    rwa [statements_define, List.append_assoc] at rest

theorem statements_add (draft : Draft) (line : Line) :
    (draft.add line).statements.toList = draft.statements.toList ++ line.statement?.toList := by
  unfold add Line.statement?
  cases line.body with
  | empty => simp [statements_foldl_define, foldl_scan_eq]
  | statement found => simp [statements_foldl_define, foldl_scan_eq]
  | unreadable complaint => simp [statements_foldl_define, foldl_scan_eq]

/-- A draft with the same table and one more condition tells of the same definitions. -/
theorem Tells.extend {later : Draft} {ready : Prop} (tells : draft.Tells entries readable)
    (same : later.labels = draft.labels) (clean_iff : later.Clean ↔ draft.Clean ∧ ready) :
    later.Tells entries (readable ∧ ready) where
  distinct := by
    rw [Distinct, same]
    exact tells.distinct
  clean_iff := by
    rw [clean_iff, tells.clean_iff, and_right_comm]
  table clean := by
    rw [same]
    exact tells.table (clean_iff.mp clean).1

/-- A line adds its definitions, and a line that cannot be read is a failure. -/
theorem Tells.add (tells : draft.Tells entries readable) (line : Line) :
    (draft.add line).Tells (entries ++ line.definitions draft.statements.size)
      (readable ∧ line.Readable) := by
  have scanned : (line.misfits.foldl scan draft).Tells entries (readable ∧ line.misfits = []) := by
    refine tells.extend ?_ (draft.clean_foldl_scan_iff line.misfits)
    rw [foldl_scan_eq]
  have size : (line.misfits.foldl scan draft).statements = draft.statements := by
    rw [foldl_scan_eq]
  have defined := scanned.foldl_define line.labels
  rw [size] at defined
  have able : readable ∧ line.Readable ↔
      (readable ∧ line.misfits = []) ∧ ∀ complaint, line.body ≠ .unreadable complaint := by
    rw [and_assoc]
    refine and_congr_right' ⟨?_, ?_⟩
    · rintro ⟨misfits, complaints⟩
      exact ⟨misfits, complaints⟩
    · rintro ⟨misfits, complaints⟩
      exact ⟨misfits, complaints⟩
  rw [able]
  unfold Draft.add
  cases line.body with
  | empty => exact defined.extend rfl (by simp)
  | statement found => exact defined.extend rfl (by simp [Clean])
  | unreadable complaint => exact defined.extend rfl (by simp [not_clean_fail])

/-- The lines of a program add their definitions in order. -/
theorem Tells.foldl_add (tells : draft.Tells entries readable) (lines : List Line) :
    (lines.foldl Draft.add draft).Tells
      (entries ++ Source.definitions draft.statements.size lines)
      (readable ∧ ∀ line ∈ lines, line.Readable) := by
  induction lines generalizing draft entries readable with
  | nil =>
    simpa [Source.definitions] using tells
  | cons line lines ih =>
    have size : (draft.add line).statements.size =
        draft.statements.size + line.statement?.toList.length := by
      rw [← Array.length_toList, statements_add, List.length_append, Array.length_toList]
    have rest := ih (tells.add line)
    rw [size, List.append_assoc, and_assoc] at rest
    rwa [Source.definitions, List.forall_mem_cons, List.foldl_cons]

theorem statements_foldl_add (lines : List Line) (draft : Draft) :
    (lines.foldl Draft.add draft).statements.toList =
      draft.statements.toList ++ lines.filterMap Line.statement? := by
  induction lines generalizing draft with
  | nil => rw [List.foldl_nil, List.filterMap_nil, List.append_nil]
  | cons line lines ih =>
    rw [List.foldl_cons, ih, statements_add, List.append_assoc, List.filterMap_cons]
    cases line.statement? <;> rfl

/-- The first pass has failed, and said so, or it has done neither. -/
def Warned (draft : Draft) : Prop := draft.failed = true ↔ draft.complaints ≠ #[]

section Warnings

variable {draft : Draft}

theorem fail_warned (draft : Draft) (complaint : Complaint) : (draft.fail complaint).Warned :=
  iff_of_true rfl Array.push_ne_empty

/-- Between the warning about a number and the error about it there is a draft that is not warned, so
the whole misfit is looked at. -/
theorem scan_warned (draft : Draft) (misfit : Misfit) : (draft.scan misfit).Warned :=
  fail_warned _ _

theorem Warned.define (warned : draft.Warned) (label : Label) : (draft.define label).Warned := by
  simp only [Draft.define]
  split
  · exact fail_warned _ _
  · split
    · exact warned
    · exact fail_warned _ _

theorem Warned.add (warned : draft.Warned) (line : Line) : (draft.add line).Warned := by
  have scanned : (line.misfits.foldl scan draft).Warned :=
    List.foldlRecOn _ _ warned fun before _ misfit _ => before.scan_warned misfit
  have defined : (line.labels.foldl Draft.define (line.misfits.foldl scan draft)).Warned :=
    List.foldlRecOn _ _ scanned fun _ kept label _ => kept.define label
  unfold Draft.add
  cases line.body with
  | empty => exact defined
  | statement found => exact defined
  | unreadable complaint => exact fail_warned _ _

/-- Whatever was read, there is a failure exactly when there is a complaint. -/
theorem ofItems_warned (items : List Item) : (ofItems items).Warned := by
  have silent : empty.Warned := iff_of_false Bool.noConfusion (not_not.mpr rfl)
  exact List.foldlRecOn _ _ silent fun _ kept line _ => kept.add line

theorem ofItems_clean_iff (items : List Item) :
    (ofItems items).Clean ↔ (ofItems items).complaints = #[] := by
  have warned : (ofItems items).failed = true ↔ (ofItems items).complaints ≠ #[] :=
    ofItems_warned items
  rw [Clean, ← Bool.not_eq_true, warned, not_not]

end Warnings

end Draft

end RegisterMachine.Source
