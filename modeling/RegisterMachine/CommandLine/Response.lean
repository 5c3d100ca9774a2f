import RegisterMachine.Machine.Execute

/-!
What the program answers: its exit code and the text on its output.
-/

namespace RegisterMachine.CommandLine

structure Response where
  code : Nat
  output : String
deriving DecidableEq, Repr

/-- The same answer when something else was shown first. -/
def Response.after (response : Response) (before : String) : Response :=
  { response with output := before ++ response.output }

/-- The log shares the output with the program that runs. -/
def shown (log : Log) : Event → String
  | .record record => if log.limit.admits record.level then log.entry record else ""
  | .print text => text

def shownAll (log : Log) (events : List Event) : String :=
  String.join (events.map (shown log))

def shownRecords (log : Log) (records : List Record) : String :=
  shownAll log (records.map .record)

/-- Each line of a listing ends with a newline. -/
def listing (lines : List String) : String :=
  String.join (lines.map fun line => line ++ "\n")

/-- A listing stands between a line that starts it and a line that finishes it. -/
def titled (title : String) (lines : List String) : String :=
  listing (s!"== {title} Started ==" :: lines ++ [s!"== {title} Finished =="])

end RegisterMachine.CommandLine
