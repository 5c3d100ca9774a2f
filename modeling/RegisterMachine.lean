import RegisterMachine.Main
import RegisterMachine.Proofs.Machine.Session
import RegisterMachine.Proofs.Machine.Bounds
import RegisterMachine.Proofs.Machine.Safety
import RegisterMachine.Proofs.Machine.Atomicity
import RegisterMachine.Proofs.Numeral
import RegisterMachine.Proofs.Source.Contents
import RegisterMachine.Proofs.Source.Tokens
import RegisterMachine.Proofs.Source.Grammar
import RegisterMachine.Proofs.Text.LetterCase
import RegisterMachine.Proofs.Source.Drafting
import RegisterMachine.Proofs.Source.Operands
import RegisterMachine.Proofs.Source.Acceptance
import RegisterMachine.Proofs.Source.Disassembly
import RegisterMachine.Proofs.Machine.Likeness
import RegisterMachine.Proofs.Reassembly
import RegisterMachine.Proofs.Machine.Steps
import RegisterMachine.Proofs.Machine.Budget
import RegisterMachine.Proofs.Machine.Subroutine
import RegisterMachine.Proofs.Machine.System
import RegisterMachine.Proofs.Machine.DeadSlots
import RegisterMachine.Proofs.Machine.ListMachine
import RegisterMachine.Proofs.Machine.Refinement
import RegisterMachine.Proofs.Source.Resolution
import RegisterMachine.Proofs.Source.Unlabelled
import RegisterMachine.Proofs.Source.Seams
import RegisterMachine.Proofs.Source.Canonical
import RegisterMachine.Proofs.Source.Reports
import RegisterMachine.Proofs.Machine.Output
import RegisterMachine.Proofs.Source.Literals
import RegisterMachine.Proofs.Source.Tiling
import RegisterMachine.Proofs.Machine.Verdicts
import RegisterMachine.Proofs.Machine.Coherence
import RegisterMachine.Proofs.Machine.Growth
import RegisterMachine.Proofs.Machine.Tampering
import RegisterMachine.Proofs.Machine.Trace
import RegisterMachine.Proofs.Source.Locality
import RegisterMachine.Proofs.Source.Concatenation
import RegisterMachine.Proofs.Source.HexWords
import RegisterMachine.Proofs.Source.HexLayout
import RegisterMachine.Proofs.CommandLine.Reloading
import RegisterMachine.Proofs.Machine.Residues
import RegisterMachine.Proofs.Machine.Narrowing
import RegisterMachine.Proofs.Machine.Footprint
import RegisterMachine.Proofs.Source.Relocation
import RegisterMachine.Proofs.Arithmetic
import RegisterMachine.Proofs.Machine.Shifts
import RegisterMachine.Proofs.Machine.Pointer
import RegisterMachine.Proofs.Source.Targets
import RegisterMachine.Proofs.Machine.Reach
import RegisterMachine.Proofs.Machine.Forward
import RegisterMachine.Proofs.Machine.Runaway
import RegisterMachine.Proofs.Source.HexGrammar
import RegisterMachine.Proofs.Source.NumberGrammar
import RegisterMachine.Proofs.Source.Junctions
import RegisterMachine.Proofs.Source.Replacement
import RegisterMachine.Proofs.Source.Layout
import RegisterMachine.Proofs.Machine.Printing
import RegisterMachine.Proofs.Rendering
import RegisterMachine.Proofs.CommandLine.Numbers
import RegisterMachine.Proofs.CommandLine.Endings
