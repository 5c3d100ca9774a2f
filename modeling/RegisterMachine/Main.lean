import RegisterMachine.CommandLine.Program

/-!
The program itself. Output is shown while a machine runs, a slice of steps at a time.
-/

namespace RegisterMachine

open CommandLine

/-- A machine runs this many steps before its output is shown. -/
def slice : Nat := 4096

/-- The steps that a run may still take, up to a slice. -/
def sliceOf (budget? : Option Nat) (run : Run) : Nat :=
  match budget? with
  | some budget => min slice (budget - run.steps)
  | none => slice

def emit (text : String) : IO Unit := do
  let stdout ← IO.getStdout
  stdout.putStr text
  stdout.flush

/-- The events of a run are dropped once they are shown. -/
partial def play (job : Job) (run : Run) : IO Run := do
  let run := run.drive (sliceOf job.budget? run)
  emit (shownAll job.log run.events.toList)
  let run := { run with events := #[] }
  if run.stop?.isSome then
    return run
  match job.budget? with
  | none => play job run
  | some budget =>
    if run.steps < budget then
      play job run
    else
      let run := run.settle budget
      emit (shownAll job.log run.events.toList)
      return run

/-- A file that is not there, or is not text, has no content. -/
def contentOf (path : String) : IO (Option String) := do
  try
    let content ← IO.FS.readFile path
    return some content
  catch _ =>
    return none

/-- The status that a shell shows for an abort. -/
def abortStatus : UInt32 := 134

/-- A request that the parser has not turned down is carried out. The file it names is read first. -/
def perform (line : Level → String → String → String) (hasRoom : Configuration → Bool)
    (request : Request) : IO UInt32 := do
  let content? ← match request.command? with
    | some (_, given) => contentOf given.input
    | none => pure none
  match request.plan ⟨fun _ => content?, line, hasRoom⟩ with
  | .answer response =>
    emit response.output
    return response.code.toUInt32
  | .starved shownBefore =>
    emit shownBefore
    return abortStatus
  | .job job =>
    emit job.shownBefore
    let run ← play job (Run.start job.machine)
    let closing := job.closing run
    emit closing.output
    return closing.code.toUInt32

end RegisterMachine
