import RegisterMachine.CommandLine.Inspection
import RegisterMachine.Proofs.Source.Drafting
import RegisterMachine.Proofs.Source.Tiling

/-!
Each line of a text is read by itself.

A newline ends whatever stands before it, so the items of two texts with a newline between them are
those of the first text, the newline, and those of the second text further down.
-/

namespace RegisterMachine.Source

/-- The same column, some lines below. -/
def Position.down (lines : Nat) (position : Position) : Position :=
  ⟨position.line + lines, position.column⟩

def Token.down (lines : Nat) (token : Token) : Token :=
  ⟨token.start.down lines, token.stop.down lines, token.symbol⟩

def Misfit.down (lines : Nat) (misfit : Misfit) : Misfit :=
  { misfit with stop := misfit.stop.down lines }

def Item.down (lines : Nat) : Item → Item
  | .token found => .token (found.down lines)
  | .misfit found => .misfit (found.down lines)

/-- The records that reading an item leaves. Assembling adds complaints of its own to them. -/
def Item.records (item : Item) : List Record :=
  ((item.misfit?.toList.flatMap Misfit.complaints).map .complaint).filter
    fun record => record.target = "regvm_lib::assembler::lexer"

/-- The records that reading a text leaves. -/
def readingRecords (text : List Char) : List Record := (read text).items.flatMap Item.records

section Positions

variable (lines : Nat) (position : Position)

theorem Position.advance_down (chars : List Char) :
    (position.down lines).advance chars = (position.advance chars).down lines := by
  induction chars generalizing position with
  | nil => rfl
  | cons char chars ih =>
    have one : (position.down lines).next char = (position.next char).down lines := by
      unfold Position.next
      split
      · exact congrArg (Position.mk · 1) (Nat.add_right_comm position.line lines 1)
      · rfl
    rw [advance_cons, advance_cons, one, ih]

/-- A newline leads to the start of the text after it, below the lines before it. -/
theorem next_newline (first : List Char) :
    (read first).stop.next '\n' = Position.first.down (first.count '\n' + 1) := by
  have stop : (read first).stop = .after first := by
    rw [stop_read]
    exact Position.advance_after [] first
  rw [stop, Position.next, if_pos rfl, Position.down]
  exact congrArg (Position.mk · 1) (Nat.add_assoc 1 _ 1)

theorem Piece.item?_down (piece : Piece) :
    piece.item? (position.down lines) = (piece.item? position).map (Item.down lines) := by
  unfold Piece.item? Piece.stop
  rw [Position.advance_down]
  cases piece.lexeme <;> rfl

/-- Pieces that start further down give the same items further down. -/
theorem itemsFrom_down (pieces : List Piece) :
    itemsFrom (position.down lines) pieces = (itemsFrom position pieces).map (Item.down lines) := by
  induction pieces generalizing position with
  | nil => rfl
  | cons piece rest ih =>
    have stop : piece.stop (position.down lines) = (piece.stop position).down lines :=
      Position.advance_down lines position piece.chars
    rw [itemsFrom, itemsFrom, stop, ih, piece.item?_down, List.map_append, Option.toList_map]

theorem itemsFrom_append (first second : List Piece) :
    itemsFrom position (first ++ second) =
      itemsFrom position first ++ itemsFrom (first.foldl Piece.stop position) second := by
  induction first generalizing position with
  | nil => rfl
  | cons piece rest ih =>
    rw [List.cons_append, itemsFrom, itemsFrom, ih, List.append_assoc, List.foldl_cons]

end Positions

/-- The newline after a text. -/
def newlineAfter (text : List Char) : Item :=
  .token ⟨(read text).stop, (read text).stop.next '\n', .newline⟩

theorem items_append_newline (first second : List Char) :
    (read (first ++ '\n' :: second)).items =
      (read first).items ++ newlineAfter first ::
        (read second).items.map (Item.down (first.count '\n' + 1)) := by
  have below := next_newline first
  simp only [read, newlineAfter, pieces_append_newline, itemsFrom_append] at below ⊢
  rw [← itemsFrom_down, ← below]
  rfl

/-- How far down an item stands makes no difference to what reading it leaves. -/
theorem Item.records_down (lines : Nat) (item : Item) : (item.down lines).records = item.records := by
  cases item with
  | token found => rfl
  | misfit found =>
    obtain ⟨text, stop, glued⟩ := found
    cases glued <;> rfl

/-- The listing of the items of a text shows the records of each item in front of it. -/
theorem itemLines_eq (log : Log) (item : Item) :
    CommandLine.itemLines log item =
      CommandLine.shownRecords log item.records ++ CommandLine.itemText item ++ "\n" := by
  cases item with
  | token found => rfl
  | misfit found =>
    obtain ⟨text, stop, glued⟩ := found
    cases glued <;> rfl

/-- How the items of two texts with a newline between them come from the items of each. -/
structure ReadByLine (first second : List Char) : Prop where
  items : (read (first ++ '\n' :: second)).items =
    (read first).items ++ newlineAfter first ::
      (read second).items.map (Item.down (first.count '\n' + 1))
  records : readingRecords (first ++ '\n' :: second) =
    readingRecords first ++ readingRecords second
  shown : ∀ log item, CommandLine.itemLines log item =
    CommandLine.shownRecords log item.records ++ CommandLine.itemText item ++ "\n"
  /-- Whatever stands on a line between the two texts changes nothing before or after it. -/
  between : ∃ before after : List Item, ∀ line, '\n' ∉ line →
    ∃ newline : Token, newline.symbol = .newline ∧
      (read (first ++ '\n' :: (line ++ '\n' :: second))).items =
        before ++ (read line).items.map (Item.down (first.count '\n' + 1)) ++ .token newline :: after

/-- A text is read line by line: what stands on one line moves the later lines down and has no other
effect on them. -/
theorem reading_by_line (first second : List Char) : ReadByLine first second where
  items := items_append_newline first second
  records := by
    have below : ((read second).items.map (Item.down (first.count '\n' + 1))).flatMap Item.records =
        readingRecords second := by
      rw [List.flatMap_map]
      simp only [Item.records_down]
      rfl
    rw [readingRecords, items_append_newline, List.flatMap_append, List.flatMap_cons, below]
    rfl
  shown := itemLines_eq
  between := by
    let further := first.count '\n' + 1
    refine ⟨(read first).items ++ [newlineAfter first],
      ((read second).items.map (Item.down 1)).map (Item.down further), fun line single => ?_⟩
    have one : line.count '\n' + 1 = 1 := by rw [List.count_eq_zero.mpr single]
    refine ⟨Token.down further ⟨(read line).stop, (read line).stop.next '\n', .newline⟩, rfl, ?_⟩
    rw [items_append_newline first, items_append_newline line, one, List.map_append, List.map_cons]
    simp only [List.append_assoc, List.cons_append]
    rfl

/-- A binary literal that runs into a two is warned of, and the lines after it are read. -/
example : (read "0b12\n;x\n7".toList).items =
      [.misfit ⟨"1", ⟨1, 4⟩, true⟩, .token ⟨⟨1, 4⟩, ⟨1, 5⟩, .number 2⟩,
        .token ⟨⟨1, 5⟩, ⟨2, 1⟩, .newline⟩, .token ⟨⟨2, 3⟩, ⟨3, 1⟩, .newline⟩,
        .token ⟨⟨3, 1⟩, ⟨3, 2⟩, .number 7⟩] ∧
    readingRecords "0b12\n;x\n7".toList = [.complaint .gluedNumber] := by
  decide +kernel

end RegisterMachine.Source
