import RegisterMachine.Machine.Execute

/-!
Running a machine step by step until it stops or its budget is spent.
-/

namespace RegisterMachine

/-- Why a run is over. -/
inductive Stop where
  | pastEnd
  | halt
  | fault (reason : Fault)
  | missingSlot
deriving DecidableEq, Repr

/-- A run that is not over can go on from its machine. Only completed instructions are counted. -/
structure Run where
  machine : Machine
  events : Array Event
  steps : Nat
  stop? : Option Stop

namespace Run

def start (machine : Machine) : Run := ⟨machine, #[], 0, none⟩

/-- The end of the program is reported when it is reached. -/
def leave (run : Run) : Run :=
  { run with
    events := run.events.push (.record (.pastEnd run.machine.registers.ip))
    stop? := some .pastEnd }

/-- An instruction that faults is not counted. -/
def advance (run : Run) : Run :=
  if run.machine.isPastEnd then
    run.leave
  else
    let effect := run.machine.step
    let events := run.events ++ effect.events
    match effect.outcome with
    | .ok halted => ⟨effect.machine, events, run.steps + 1, if halted then some .halt else none⟩
    | .fault reason => ⟨effect.machine, events, run.steps, some (.fault reason)⟩
    | .missingSlot => ⟨effect.machine, events, run.steps, some .missingSlot⟩

/-- A run that is over stays as it is. -/
def drive (run : Run) : Nat → Run
  | 0 => run
  | fuel + 1 =>
    match run.stop? with
    | some _ => run
    | none => run.advance.drive fuel

theorem drive_of_stop {run : Run} {stop : Stop} (stopped : run.stop? = some stop) (fuel : Nat) :
    run.drive fuel = run := by
  cases fuel with
  | zero => rfl
  | succ fuel => simp only [drive, stopped]

/-- Fuel may be spent in parts. -/
theorem drive_add (first second : Nat) (run : Run) :
    run.drive (first + second) = (run.drive first).drive second := by
  induction first generalizing run with
  | zero => simp only [Nat.zero_add, drive]
  | succ first after =>
    rw [Nat.succ_add]
    cases stopped : run.stop? with
    | some stop => simp only [drive_of_stop stopped]
    | none => simp only [drive, stopped, after]

/-- A run with a spent budget is over only at the end of the program. -/
def settle (budget : Nat) (run : Run) : Run :=
  match run.stop? with
  | some _ => run
  | none =>
    if run.machine.isPastEnd then run.leave
    else { run with events := run.events.push (.record (.budgetSpent budget)) }

/-- The number of completed instructions, and whether the machine halted. -/
def outcome (run : Run) : Outcome (Nat × Bool) :=
  match run.stop? with
  | none => .ok (run.steps, false)
  | some .pastEnd => .ok (run.steps, true)
  | some .halt => .ok (run.steps, true)
  | some (.fault reason) => .fault reason
  | some .missingSlot => .missingSlot

/-- A fault belongs to the instruction that was fetched last. -/
def faultRecord? (run : Run) : Option Record :=
  match run.stop? with
  | some (.fault reason) =>
    match run.machine.lastFetched with
    | some (address, word) => some (.faulted reason address word)
    | none => none
  | _ => none

end Run

namespace Machine

/-- A run within a budget. -/
def runFor (machine : Machine) (budget : Nat) : Run :=
  ((Run.start machine).drive budget).settle budget

/-- A run without a budget is known only when it is over within the fuel. -/
def run? (machine : Machine) (fuel : Nat) : Option Run :=
  let run := (Run.start machine).drive fuel
  if run.stop?.isSome then some run else none

end Machine

end RegisterMachine
