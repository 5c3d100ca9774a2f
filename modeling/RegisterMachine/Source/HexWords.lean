import RegisterMachine.Source.Complaint
import RegisterMachine.Text.Blank
import RegisterMachine.Word

/-!
A program written as hexadecimal words with blanks between them.
-/

namespace RegisterMachine.Source.HexWords

/-- A comment reaches to the end of its line. -/
def uncommented (line : List Char) : List Char :=
  line.takeWhile fun char => char != ';' && char != '#'

/-- The words of a line are its longest runs without blanks. -/
def split (line : List Char) : List (List Char) :=
  (line.splitOnP Text.isBlank).filter (· ≠ [])

/-- A base marker may be repeated. -/
def dropMarkers (letter : Char) : List Char → List Char
  | '0' :: mark :: rest => if mark = letter then dropMarkers letter rest else '0' :: mark :: rest
  | digits => digits

/-- Markers with a small letter come before those with a capital one. -/
def word? (text : List Char) : Option Word :=
  Numeral.unsigned? 16 65536 (dropMarkers 'X' (dropMarkers 'x' text))

def readWord (line : Nat) (text : List Char) : Except Complaint Word :=
  match word? text with
  | some word => .ok word
  | none => .error (.invalidWord line (String.ofList text))

def readLine (numbered : List Char × Nat) : Except Complaint (List Word) :=
  (split (uncommented numbered.1)).mapM (readWord numbered.2)

/-- Loading stops at the first word that cannot be read. -/
def load (text : String) : Except Complaint (List Word) :=
  List.flatten <$> ((text.toList.splitOn '\n').zipIdx 1).mapM readLine

end RegisterMachine.Source.HexWords
