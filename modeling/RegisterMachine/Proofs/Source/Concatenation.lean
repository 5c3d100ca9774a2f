import Mathlib.Algebra.Order.Group.Multiset
import Mathlib.Data.Option.NAry
import RegisterMachine.Proofs.Source.Locality
import RegisterMachine.Proofs.Source.Reports

/-!
One text below another.

A statement without labels means the same wherever it stands, and a complaint about one line does
not depend on the lines around it. So the program of two texts without labels is the program of the
first and then that of the second, and their warnings are those of each.
-/

namespace RegisterMachine

/-- The same complaint some lines below. A complaint that names no place stays as it is. -/
def Source.Complaint.down (lines : Nat) : Source.Complaint → Source.Complaint
  | .gluedNumber => .gluedNumber
  | .invalidToken position text => .invalidToken (position.down lines) text
  | .unknownMnemonic position name => .unknownMnemonic (position.down lines) name
  | .duplicateLabel position name => .duplicateLabel (position.down lines) name
  | .distantLabel position name address => .distantLabel (position.down lines) name address
  | .operandCount position opcode found => .operandCount (position.down lines) opcode found
  | .unknownRegister position name => .unknownRegister (position.down lines) name
  | .unknownLabel position name => .unknownLabel (position.down lines) name
  | .tooLarge position value limit => .tooLarge (position.down lines) value limit
  | .unexpected wanted found => .unexpected wanted found
  | .noKeyword keywords found => .noKeyword keywords found
  | .invalidWord line text => .invalidWord (line + lines) text

/-- The place that a complaint names. -/
def Source.Complaint.place? : Source.Complaint → Option Source.Position
  | .gluedNumber => none
  | .invalidToken position _ => some position
  | .unknownMnemonic position _ => some position
  | .duplicateLabel position _ => some position
  | .distantLabel position _ _ => some position
  | .operandCount position _ _ => some position
  | .unknownRegister position _ => some position
  | .unknownLabel position _ => some position
  | .tooLarge position _ _ => some position
  | .unexpected _ _ => none
  | .noKeyword _ _ => none
  | .invalidWord line _ => some ⟨line, 0⟩

/-- A message with a place in front of it, if there is one. -/
def Source.Complaint.located (place? : Option Source.Position) (detail : String) : String :=
  match place? with
  | some position => position.report detail
  | none => detail

def Record.down (lines : Nat) : Record → Record
  | .complaint cause => .complaint (cause.down lines)
  | record => record

namespace Source

def Label.down (lines : Nat) (label : Label) : Label :=
  { label with position := label.position.down lines }

def Statement.down (lines : Nat) (statement : Statement) : Statement :=
  ⟨statement.opcode, statement.position.down lines, statement.operands.map (Token.down lines)⟩

def Body.down (lines : Nat) : Body → Body
  | .empty => .empty
  | .statement found => .statement (found.down lines)
  | .unreadable complaint => .unreadable (complaint.down lines)

def Line.down (lines : Nat) (line : Line) : Line :=
  ⟨line.misfits.map (Misfit.down lines), line.labels.map (Label.down lines), line.body.down lines⟩

/-- A line of these symbols starts with a label. -/
def opensLabel : List Symbol → Bool
  | .name _ :: .colon :: _ => true
  | _ => false

/-- The tokens of a line, as symbols. Misfits are left out. -/
def lineSymbols (line : List Item) : List Symbol := (line.filterMap Item.token?).map Token.symbol

/-- No line of a text defines a label. -/
def LabelFree (text : String) : Prop :=
  ∀ line ∈ Item.lines (read text.toList).items, opensLabel (lineSymbols line) = false

instance (text : String) : Decidable (LabelFree text) := inferInstanceAs (Decidable (∀ _ ∈ _, _))

section Lines

/-- What is picked from the images of a list are the images of what is picked from it. -/
theorem filterMap_map_of_commutes {α α' β β' : Type} {move : α → α'} {moved : β → β'}
    {pick : α → Option β} {pick' : α' → Option β'}
    (commutes : ∀ element, pick' (move element) = (pick element).map moved) (list : List α) :
    (list.map move).filterMap pick' = (list.filterMap pick).map moved := by
  rw [List.filterMap_map, List.map_filterMap]
  congr 1
  funext element
  exact commutes element

variable (lines : Nat)

theorem splitLabels_down (tokens : List Token) :
    splitLabels (tokens.map (Token.down lines)) =
      ((splitLabels tokens).1.map (Label.down lines),
        (splitLabels tokens).2.map (Token.down lines)) := by
  fun_induction splitLabels tokens with
  | case1 first second rest name named colon labels others split ih =>
    rw [split] at ih
    simp only [List.map_cons, splitLabels, Token.down, named, colon]
    rw [ih]
    rfl
  | case2 first second rest other =>
    simp only [List.map_cons, splitLabels]
    split
    · rename_i name named colon
      exact absurd colon (other name named)
    · rfl
  | case3 tokens short =>
    cases tokens with
    | nil => rfl
    | cons first others =>
      cases others with
      | nil => rfl
      | cons second rest => exact absurd rfl (short first second rest)

theorem Body.ofTokens_down (tokens : List Token) :
    Body.ofTokens (tokens.map (Token.down lines)) = (Body.ofTokens tokens).down lines := by
  cases tokens with
  | nil => rfl
  | cons head operands =>
    obtain ⟨start, stop, symbol⟩ := head
    cases symbol with
    | name name =>
      simp only [List.map_cons, Body.ofTokens, Token.down]
      cases Opcode.ofMnemonic? name.toUpper with
      | none => rfl
      | some opcode =>
        simp only [Body.down, Statement.down, List.filter_map]
        rfl
    | colon | comma | newline | number => rfl

theorem Item.token?_down (item : Item) :
    (item.down lines).token? = item.token?.map (Token.down lines) := by
  cases item <;> rfl

theorem Item.misfit?_down (item : Item) :
    (item.down lines).misfit? = item.misfit?.map (Misfit.down lines) := by
  cases item <;> rfl

theorem Line.ofItems_down (items : List Item) :
    Line.ofItems (items.map (Item.down lines)) = (Line.ofItems items).down lines := by
  simp only [Line.ofItems, filterMap_map_of_commutes (Item.token?_down lines),
    filterMap_map_of_commutes (Item.misfit?_down lines), splitLabels_down, Body.ofTokens_down]
  rfl

theorem linesOf_down (items : List Item) :
    linesOf (items.map (Item.down lines)) = (linesOf items).map (Line.down lines) := by
  have newlines : (fun item => Item.isNewline (item.down lines)) = Item.isNewline := by
    funext item
    cases item <;> rfl
  rw [linesOf, Item.lines, splitOnP_map, newlines, linesOf, List.map_map, List.map_map]
  exact List.map_congr_left fun line _ => Line.ofItems_down lines line

/-- The lines of two texts are those of the first and then those of the second. -/
theorem linesOf_append_newline (first second : List Char) :
    linesOf (read (first ++ '\n' :: second)).items =
      linesOf (read first).items ++
        (linesOf (read second).items).map (Line.down (first.count '\n' + 1)) := by
  have newline : (newlineAfter first).isNewline := rfl
  rw [items_append_newline, ← linesOf_down, linesOf, Item.lines,
    List.splitOnP_append_cons _ _ newline, List.map_append]
  rfl

end Lines

section FirstPass

/-- What the first pass says about the rest of a line. -/
def Body.complaint? : Body → Option Complaint
  | .empty => none
  | .statement _ => none
  | .unreadable complaint => some complaint

/-- What the first pass says about a line that has no labels. -/
def Line.complaints (line : Line) : List Complaint :=
  line.misfits.flatMap Misfit.complaints ++ line.body.complaint?.toList

theorem Line.complaints_down (lines : Nat) (line : Line) :
    (line.down lines).complaints = line.complaints.map (Complaint.down lines) := by
  have misfit (found : Misfit) :
      (found.down lines).complaints = found.complaints.map (Complaint.down lines) := by
    unfold Misfit.complaints Misfit.down
    split <;> rfl
  have body : (line.body.down lines).complaint? =
      line.body.complaint?.map (Complaint.down lines) := by
    cases line.body <;> rfl
  simp only [Line.complaints, Line.down, List.flatMap_map, misfit, body, List.map_append,
    List.map_flatMap, Option.toList_map]

theorem Line.statement?_down (lines : Nat) (line : Line) :
    (line.down lines).statement? = line.statement?.map (Statement.down lines) := by
  unfold Line.statement? Line.down
  cases line.body <;> rfl

/-- A line without labels leaves the table alone. -/
theorem Draft.add_of_no_labels (draft : Draft) {line : Line} (unlabelled : line.labels = []) :
    (draft.add line).labels = draft.labels ∧
      (draft.add line).complaints.toList = draft.complaints.toList ++ line.complaints := by
  unfold Draft.add Line.complaints
  rw [unlabelled]
  cases line.body with
  | empty => simp [Body.complaint?, Draft.foldl_scan_eq]
  | statement found => simp [Body.complaint?, Draft.foldl_scan_eq]
  | unreadable complaint => simp [Body.complaint?, Draft.foldl_scan_eq]

theorem Draft.foldl_add_of_no_labels (draft : Draft) {lines : List Line}
    (unlabelled : ∀ line ∈ lines, line.labels = []) :
    (lines.foldl Draft.add draft).labels = draft.labels ∧
      (lines.foldl Draft.add draft).complaints.toList =
        draft.complaints.toList ++ lines.flatMap Line.complaints := by
  induction lines generalizing draft with
  | nil => exact ⟨rfl, (List.append_nil _).symm⟩
  | cons line lines ih =>
    rw [List.forall_mem_cons] at unlabelled
    obtain ⟨same, said⟩ := draft.add_of_no_labels unlabelled.1
    obtain ⟨kept, saidLater⟩ := ih (draft.add line) unlabelled.2
    rw [List.foldl_cons, List.flatMap_cons, kept, saidLater, same, said, List.append_assoc]
    exact ⟨rfl, rfl⟩

end FirstPass

section SecondPass

variable (lines : Nat)

theorem mapError_bind {ε ε' α β : Type} (image : ε → ε') (first : Except ε α)
    (next : α → Except ε β) :
    (first >>= next).mapError image =
      first.mapError image >>= fun value => (next value).mapError image := by
  cases first <;> rfl

theorem Token.register_down (token : Token) :
    (token.down lines).register = token.register.mapError (Complaint.down lines) := by
  obtain ⟨start, stop, symbol⟩ := token
  cases symbol with
  | name name =>
    simp only [Token.register, Token.down]
    cases Register.ofName? name.toUpper <;> rfl
  | colon | comma | newline | number => rfl

theorem Token.fit_down (token : Token) (size value : Nat) :
    (token.down lines).fit size value =
      (token.fit size value).mapError (Complaint.down lines) := by
  unfold Token.fit
  split <;> rfl

theorem Token.value_down (token : Token) (labels : Labels) (size : Nat) :
    (token.down lines).value labels size =
      (token.value labels size).mapError (Complaint.down lines) := by
  obtain ⟨start, stop, symbol⟩ := token
  cases symbol with
  | number value => exact Token.fit_down lines ⟨start, stop, .number value⟩ size value
  | name name =>
    simp only [Token.value, Token.down]
    cases labels.lookup name with
    | none => rfl
    | some address => exact Token.fit_down lines ⟨start, stop, .name name⟩ size address
  | colon | comma | newline => rfl

theorem Token.keyword_down {α : Type} (token : Token) (choices : List (String × α)) :
    (token.down lines).keyword choices =
      (token.keyword choices).mapError (Complaint.down lines) := by
  obtain ⟨start, stop, symbol⟩ := token
  cases symbol with
  | name name =>
    simp only [Token.keyword, Token.down]
    cases choices.lookup name.toUpper <;> rfl
  | colon | comma | newline | number => rfl

theorem Token.selector_down (token : Token) (labels : Labels) :
    (token.down lines).selector labels =
      (token.selector labels).mapError (Complaint.down lines) := by
  have keyword := token.keyword_down lines formatKeywords
  have value := token.value_down lines labels 256
  obtain ⟨start, stop, symbol⟩ := token
  cases symbol with
  | number number => exact value
  | name | colon | comma | newline =>
    simp only [Token.selector, Token.down, mapError_bind] at keyword ⊢
    rw [keyword]
    rfl

theorem Statement.instruction_of_miscounted {statement : Statement}
    (miscounted : statement.operands.length ≠ statement.opcode.arity) (labels : Labels) :
    statement.instruction labels = .error statement.miscounted := by
  unfold Statement.instruction
  split
  case h_14 => rfl
  all_goals
    rename_i mnemonic operands
    rw [mnemonic, operands] at miscounted
    exact absurd rfl miscounted

/-- The complaint about a statement names a place further down, and its instruction is the same. -/
theorem Statement.instruction_down (statement : Statement) (labels : Labels) :
    (statement.down lines).instruction labels =
      (statement.instruction labels).mapError (Complaint.down lines) := by
  -- A statement with the wrong number of operands is not read, whatever they are.
  by_cases counted : statement.operands.length = statement.opcode.arity
  · obtain ⟨opcode, position, operands⟩ := statement
    cases opcode with
    | ret | hlt =>
      obtain rfl := List.length_eq_zero_iff.mp counted
      rfl
    | cal | psh | pop =>
      obtain ⟨operand, rfl⟩ := List.length_eq_one_iff.mp counted
      simp only [Statement.instruction, Statement.down, List.map_cons, List.map_nil, mapError_bind,
        Token.register_down, Token.value_down]
      rfl
    | mov | ldv | ldr | ldm | jlt | out =>
      obtain ⟨first, second, rfl⟩ := List.length_eq_two.mp counted
      simp only [Statement.instruction, Statement.down, List.map_cons, List.map_nil, mapError_bind,
        Token.register_down, Token.value_down, Token.selector_down]
      rfl
    | sft =>
      obtain ⟨first, second, third, rfl⟩ := List.length_eq_three.mp counted
      simp only [Statement.instruction, Statement.down, List.map_cons, List.map_nil, mapError_bind,
        Token.register_down, Token.value_down, Token.keyword_down]
      rfl
    | ath =>
      obtain ⟨first, others, rfl⟩ := List.exists_cons_of_length_eq_add_one counted
      obtain ⟨second, third, fourth, rfl⟩ := List.length_eq_three.mp (Nat.succ.inj counted)
      simp only [Statement.instruction, Statement.down, List.map_cons, List.map_nil, mapError_bind,
        Token.register_down, Token.keyword_down]
      rfl
  · have below : (statement.down lines).operands.length ≠ (statement.down lines).opcode.arity := by
      rwa [Statement.down, List.length_map]
    rw [instruction_of_miscounted below, instruction_of_miscounted counted, Statement.miscounted,
      Statement.down, List.length_map]
    rfl

end SecondPass

section Unlabelled

/-- What the second pass makes of the statements of some lines without any label. -/
def plainWords (lines : List Line) : List (Except Complaint Word) :=
  (lines.filterMap Line.statement?).map fun statement =>
    Instruction.word <$> statement.instruction []

/-- The outcome of assembling some lines that have no labels. -/
def assembleLines (lines : List Line) : Assembly where
  complaints := lines.flatMap Line.complaints ++ (plainWords lines).filterMap complaint?
  labelCount := 0
  program? :=
    if lines.flatMap Line.complaints = [] then (plainWords lines).mapM Except.toOption else none

theorem assemble_of_no_labels {text : String}
    (unlabelled : ∀ line ∈ linesOf (read text.toList).items, line.labels = []) :
    assemble text = assembleLines (linesOf (read text.toList).items) := by
  obtain ⟨labels, complaints⟩ := Draft.empty.foldl_add_of_no_labels unlabelled
  have statements := Draft.statements_ofItems (read text.toList).items
  change (Draft.ofItems (read text.toList).items).labels = [] at labels
  change (Draft.ofItems (read text.toList).items).complaints.toList = _ at complaints
  have clean : (Draft.ofItems (read text.toList).items).Clean ↔
      (linesOf (read text.toList).items).flatMap Line.complaints = [] := by
    rw [Draft.ofItems_clean_iff, ← Array.toList_eq_nil_iff, complaints]
    rfl
  have words : (Draft.ofItems (read text.toList).items).words =
      plainWords (linesOf (read text.toList).items) := by
    rw [Draft.words, labels, statements, plainWords]
  have program : (assemble text).program? =
      (assembleLines (linesOf (read text.toList).items)).program? := by
    ext program
    rw [program?_eq_some_iff_passes, clean, words, assembleLines, Option.ite_none_right_eq_some]
  have spoken : (assemble text).complaints =
      (assembleLines (linesOf (read text.toList).items)).complaints := by
    rw [assemble, words, complaints]
    rfl
  have count : (assemble text).labelCount = 0 := congrArg List.length labels
  exact Assembly.ext spoken count program

variable (first second lines : List Line) (further : Nat)

theorem plainWords_append : plainWords (first ++ second) = plainWords first ++ plainWords second := by
  rw [plainWords, List.filterMap_append, List.map_append]
  rfl

theorem plainWords_down : plainWords (lines.map (Line.down further)) =
    (plainWords lines).map (Except.mapError (Complaint.down further)) := by
  have word (read : Except Complaint Instruction) :
      Instruction.word <$> read.mapError (Complaint.down further) =
        (Instruction.word <$> read).mapError (Complaint.down further) := by
    cases read <;> rfl
  rw [plainWords, filterMap_map_of_commutes (Line.statement?_down further), List.map_map, plainWords,
    List.map_map]
  apply List.map_congr_left
  intro statement _
  rw [Function.comp_apply, Function.comp_apply, statement.instruction_down, word]

/-- Lines have a program together when each part has one. -/
theorem program?_assembleLines_append :
    (assembleLines (first ++ second)).program? =
      Option.map₂ (· ++ ·) (assembleLines first).program? (assembleLines second).program? := by
  have together : (plainWords (first ++ second)).mapM Except.toOption =
      Option.map₂ (· ++ ·) ((plainWords first).mapM Except.toOption)
        ((plainWords second).mapM Except.toOption) := by
    rw [plainWords_append, List.mapM_append]
    cases (plainWords first).mapM Except.toOption with
    | none => rfl
    | some before => cases (plainWords second).mapM Except.toOption <;> rfl
  unfold assembleLines
  simp only [List.flatMap_append, List.append_eq_nil_iff, together]
  by_cases clean : first.flatMap Line.complaints = []
  · by_cases cleanBelow : second.flatMap Line.complaints = []
    · rw [if_pos ⟨clean, cleanBelow⟩, if_pos clean, if_pos cleanBelow]
    · rw [if_neg fun both => cleanBelow both.2, if_neg cleanBelow, Option.map₂_none_right]
  · rw [if_neg fun both => clean both.1, if_neg clean, Option.map₂_none_left]

/-- Each pass says about some lines what it says about each part. -/
theorem complaints_assembleLines_append :
    ((assembleLines (first ++ second)).complaints : Multiset Complaint) =
      (assembleLines first).complaints + (assembleLines second).complaints := by
  unfold assembleLines
  simp only [List.flatMap_append, plainWords_append, List.filterMap_append, ← Multiset.coe_add]
  exact add_add_add_comm _ _ _ _

/-- What the first pass says about some lines, it says about the same lines further down. -/
theorem flatMap_complaints_down :
    (lines.map (Line.down further)).flatMap Line.complaints =
      (lines.flatMap Line.complaints).map (Complaint.down further) := by
  rw [List.flatMap_map, List.map_flatMap]
  simp only [Line.complaints_down]

theorem program?_assembleLines_down :
    (assembleLines (lines.map (Line.down further))).program? = (assembleLines lines).program? := by
  have same : (Except.toOption ∘ Except.mapError (Complaint.down further) :
      Except Complaint Word → Option Word) = Except.toOption := by
    funext word
    cases word <;> rfl
  unfold assembleLines
  simp only [flatMap_complaints_down, List.map_eq_nil_iff, plainWords_down, List.mapM_map, same]

theorem complaints_assembleLines_down :
    (assembleLines (lines.map (Line.down further))).complaints =
      (assembleLines lines).complaints.map (Complaint.down further) := by
  have said (word : Except Complaint Word) :
      complaint? (word.mapError (Complaint.down further)) =
        (complaint? word).map (Complaint.down further) := by
    cases word <;> rfl
  unfold assembleLines
  rw [flatMap_complaints_down, plainWords_down, filterMap_map_of_commutes said, List.map_append]

end Unlabelled

section Texts

theorem splitLabels_of_plain {tokens : List Token}
    (plain : opensLabel (tokens.map Token.symbol) = false) : (splitLabels tokens).1 = [] := by
  fun_cases splitLabels tokens with
  | case1 first second rest name named colon =>
    rw [List.map_cons, List.map_cons, named, colon] at plain
    contradiction
  | case2 => rfl
  | case3 => rfl

theorem LabelFree.no_labels {text : String} (free : LabelFree text) :
    ∀ line ∈ linesOf (read text.toList).items, line.labels = [] := by
  rw [linesOf, List.forall_mem_map]
  intro line member
  exact splitLabels_of_plain (free line member)

/-- The warnings of an assembly, each as often as it is given. -/
def warnings (text : String) : Multiset Record :=
  (assemble text).records.filter fun record => record.level = .warn

theorem warnings_eq (text : String) :
    warnings text = ((assemble text).complaints : Multiset Complaint).map .complaint := by
  have announced : (assemble text).announcement.filter (fun record => record.level = .warn) = [] := by
    rw [List.filter_eq_nil_iff]
    intro record member
    rw [level_of_announcement _ member]
    decide
  have complaining : ((assemble text).complaints.map Record.complaint).filter
      (fun record => record.level = .warn) = (assemble text).complaints.map .complaint := by
    rw [List.filter_eq_self, List.forall_mem_map]
    intro complaint _
    rfl
  have records : (assemble text).records =
      (assemble text).complaints.map .complaint ++ (assemble text).announcement := rfl
  rw [warnings, records, List.filter_append, complaining, announced, List.append_nil,
    Multiset.map_coe]

/-- How the assembly of two texts, one below the other, comes from the assembly of each. -/
structure Concatenates (first second : String) : Prop where
  /-- The two have a program together when each has one. -/
  program : (assemble (first ++ "\n" ++ second)).program? =
    Option.map₂ (· ++ ·) (assemble first).program? (assemble second).program?
  warned : warnings (first ++ "\n" ++ second) =
    warnings first + (warnings second).map (Record.down (first.toList.count '\n' + 1))
  /-- Only the line in front of a message is another one. -/
  reworded : ∀ (lines : Nat) (complaint : Complaint), ∃ detail,
    complaint.message = Complaint.located complaint.place? detail ∧
      (complaint.down lines).message =
        Complaint.located (complaint.place?.map (Position.down lines)) detail

/-- Without labels, no line has a part in the words of another line or in the warnings about it. -/
theorem assembly_by_line (first second : String) (plain : LabelFree first)
    (plainBelow : LabelFree second) : Concatenates first second := by
  let further := first.toList.count '\n' + 1
  let above := linesOf (read first.toList).items
  let below := linesOf (read second.toList).items
  have lines : linesOf (read (first ++ "\n" ++ second).toList).items =
      above ++ below.map (Line.down further) := by
    rw [String.toList_append, String.toList_append, List.append_assoc]
    exact linesOf_append_newline first.toList second.toList
  have unlabelled : ∀ line ∈ above ++ below.map (Line.down further), line.labels = [] := by
    rw [List.forall_mem_append, List.forall_mem_map]
    refine ⟨plain.no_labels, fun line member => ?_⟩
    exact List.map_eq_nil_iff.mpr (plainBelow.no_labels line member)
  have together : assemble (first ++ "\n" ++ second) =
      assembleLines (above ++ below.map (Line.down further)) := by
    rw [← lines] at unlabelled ⊢
    exact assemble_of_no_labels unlabelled
  have one : assemble first = assembleLines above := assemble_of_no_labels plain.no_labels
  have other : assemble second = assembleLines below := assemble_of_no_labels plainBelow.no_labels
  constructor
  case program =>
    rw [together, one, other, program?_assembleLines_append, program?_assembleLines_down]
  case warned =>
    rw [warnings_eq, warnings_eq, warnings_eq, together, one, other,
      complaints_assembleLines_append, complaints_assembleLines_down, Multiset.map_add,
      ← Multiset.map_coe, Multiset.map_map, Multiset.map_map]
    rfl
  case reworded =>
    intro lines complaint
    cases complaint <;> exact ⟨_, rfl, rfl⟩

/-- Both passes refuse both texts, and each pass warns in the order of the lines. -/
theorem assembly_by_line_refused :
    LabelFree "PSH Z\n@" ∧ LabelFree "FOO ,\nPSH Q" ∧
      Concatenates "PSH Z\n@" "FOO ,\nPSH Q" ∧
      (assemble "PSH Z\n@\nFOO ,\nPSH Q").records.map Record.message =
        ["Error 2:2  Invalid token '@'", "Error 3:1  Unknown mnemonic 'FOO'",
          "Error 1:5  Unknown register 'Z'", "Error 4:5  Unknown register 'Q'"] := by
  have above : LabelFree "PSH Z\n@" := by decide +kernel
  have below : LabelFree "FOO ,\nPSH Q" := by decide +kernel
  exact ⟨above, below, assembly_by_line _ _ above below, by decide +kernel⟩

end Texts

end Source

end RegisterMachine
