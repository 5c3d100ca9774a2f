import RegisterMachine.CommandLine.Request
import RegisterMachine.CommandLine.Response

/-!
The command that shows how a program is read: its tokens, its words and its disassembly.
-/

namespace RegisterMachine.CommandLine

open Source (Item Position)

def positionText (position : Position) : String :=
  s!"({position.line}, {position.column})"

/-- Tokens and misfits are shown as records with named fields. -/
def itemText : Item → String
  | .token token =>
    "Ok(Token \x7b start: " ++ positionText token.start ++ ", end: " ++ positionText token.stop ++
      ", kind: " ++ token.symbol.text ++ " \x7d)"
  | .misfit misfit =>
    "Err(ErrorToken \x7b text: " ++ Text.quoted misfit.text ++
      s!", line: {misfit.stop.line}, col: {misfit.stop.column} \x7d)"

/-- The warning about a glued number comes just before its misfit. -/
def itemLines (log : Log) (item : Item) : String :=
  let warning := match item with
    | .misfit misfit =>
      if misfit.glued then shownRecords log [.complaint .gluedNumber] else ""
    | .token _ => ""
  warning ++ itemText item ++ "\n"

def tokenListing (log : Log) (text : String) : String :=
  let items := (Source.read text.toList).items
  "== Tokenizer Output Started ==\n" ++ String.join (items.map (itemLines log)) ++
    "== Tokenizer Output Finished ==\n"

def wordListing (program : List Word) : String :=
  titled "Instruction Words" (program.map Word.hex)

/-- A line has the address, the word and the text of an instruction. -/
def disassemblyListing (program : List Word) : String :=
  titled "Disassembly" (program.zipIdx.map fun (word, address) =>
    s!"{Record.place address}  0x{word.hex}  {word.text}")

namespace InspectOptions

/-- The tokens are shown even when the program cannot be loaded. -/
def response (options : InspectOptions) (log : Log) (file? : Option String) : Response :=
  match file? with
  | none => ⟨1, ""⟩
  | some text =>
    let loading := Source.load options.format text
    let before := (if options.tokens then tokenListing log text else "") ++
      shownRecords log loading.records
    match loading.program? with
    | none => ⟨1, before⟩
    | some program =>
      ⟨0, before ++ (if options.words then wordListing program else "") ++
        if options.disassembly then disassemblyListing program else ""⟩

end InspectOptions

end RegisterMachine.CommandLine
