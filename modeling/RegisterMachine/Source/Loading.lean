import RegisterMachine.Source.Assembly
import RegisterMachine.Source.HexWords

/-!
The two formats of a program file.
-/

namespace RegisterMachine.Source

inductive Format where
  | assembly
  | hexWords
deriving DecidableEq, Repr

/-- A file that cannot be loaded leaves only the records. -/
structure Loading where
  program? : Option (List Word)
  records : List Record
deriving Repr

def load (format : Format) (text : String) : Loading :=
  match format with
  | .assembly =>
    let assembly := assemble text
    ⟨assembly.program?, assembly.records⟩
  | .hexWords =>
    match HexWords.load text with
    | .ok program => ⟨some program, []⟩
    | .error complaint => ⟨none, [.complaint complaint]⟩

end RegisterMachine.Source
