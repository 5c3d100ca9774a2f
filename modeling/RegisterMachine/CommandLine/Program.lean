import RegisterMachine.CommandLine.Execution
import RegisterMachine.CommandLine.Inspection

/-!
The whole command line: from what was asked and the files to the answer.
-/

namespace RegisterMachine.CommandLine

/-- The surroundings of the program: the files that can be read, the form of a line in the log, and
the machines for which there is memory. -/
structure Host where
  read? : String → Option String
  line : Level → String → String → String
  hasRoom : Configuration → Bool

namespace Request

def log (host : Host) (request : Request) : Log := ⟨limitOf request.verbosity, host.line⟩

/-- A request without a command is answered with the usage, and it has failed. -/
def plan (host : Host) (request : Request) : Plan :=
  let log := request.log host
  match request.command? with
  | some ("run", given) => given.runOptions.plan log host.hasRoom (host.read? given.input)
  | some ("dev", given) => .answer (given.inspectOptions.response log (host.read? given.input))
  | _ => .answer ⟨2, listing [request.usage]⟩

end Request

/-- The answer is known when the run is over within the fuel. -/
def Plan.response? (fuel : Nat) : Plan → Option Response
  | .answer response => some response
  | .starved _ => none
  | .job task => task.response <$> task.run? fuel

end RegisterMachine.CommandLine
