import RegisterMachine.CommandLine.Program
import RegisterMachine.Proofs.Source.HexLayout
import RegisterMachine.Proofs.Source.Reports

/-!
Programs that are kept as words.

The words of a program can be laid out in many ways, and every layout is loaded as that program. The
words that the inspection of a text prints are one of them, so running them is running the text.
-/

namespace RegisterMachine

section Hex

namespace Word

variable (word : Word)

end Word

end Hex

namespace CommandLine

open Source (assemble)

section Plans

variable (log : Log)

/-- The same plan after something else was shown. -/
def Plan.after (before : String) : Plan → Plan
  | .answer response => .answer (response.after before)
  | .starved shownBefore => .starved (before ++ shownBefore)
  | .job task => .job { task with shownBefore := before ++ task.shownBefore }

theorem shownAll_append (first second : List Event) :
    shownAll log (first ++ second) = shownAll log first ++ shownAll log second := by
  rw [shownAll, List.map_append, String.join_append]
  rfl

theorem shownRecords_append (first second : List Record) :
    shownRecords log (first ++ second) = shownRecords log first ++ shownRecords log second := by
  rw [shownRecords, List.map_append, shownAll_append]
  rfl

end Plans

/-- Neither a comment with digits nor a wide blank is part of a word. -/
example : (Source.load .hexWords "0X00fF;12\n\t0xA\u2003000000003 # 7").program? =
    some [255, 10, 3] := by
  decide +kernel

end CommandLine

end RegisterMachine
