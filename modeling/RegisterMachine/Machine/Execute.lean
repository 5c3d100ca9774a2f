import RegisterMachine.Log
import RegisterMachine.Machine.Basic

/-!
The effect of one instruction.

A fault leaves the machine as it was, except that a sink keeps the part of the output that it took.
-/

namespace RegisterMachine

/-- What an instruction shows to the outside, in order. -/
inductive Event where
  | record (record : Record)
  /-- The text was sent to the sink, whether or not all of it was taken. -/
  | print (text : String)
deriving DecidableEq, Repr

/-- The outcome says whether the machine halted. -/
structure Effect where
  machine : Machine
  outcome : Outcome Bool
  events : List Event

namespace Effect

def proceed (machine : Machine) : Effect := ⟨machine, .ok false, []⟩

def stop (machine : Machine) (fault : Fault) : Effect := ⟨machine, .fault fault, []⟩

end Effect

/-- A shift by the width or more moves every bit out. -/
def Direction.shift (direction : Direction) (width value amount : Nat) : Nat :=
  if width ≤ amount then 0
  else
    match direction with
    | .left => value * modulus amount
    | .right => value / modulus amount

/-- The arithmetic unit has sixty-four bits, and only an addition has `rd` on its left side. -/
def Operation.combine (operation : Operation) (rd rs : Nat) : Option Int :=
  match operation with
  | .add => (IntegerType.unsigned 64).apply .add rd rs
  | operation => (IntegerType.unsigned 64).apply operation rs rd

namespace Machine

def perform (machine : Machine) (instruction : Instruction) : Effect :=
  let registers := machine.registers
  match instruction with
  | .call target =>
    match machine.stack.push registers registers.ip with
    | .ok (stack, pushed) =>
      .proceed { machine with stack := stack, registers := pushed.setIp target }
    | .error fault => .stop machine fault
  | .ret =>
    match machine.stack.pop registers with
    | .ok (address, popped) => .proceed { machine with registers := popped.setIp address }
    | .fault fault => .stop machine fault
    | .missingSlot => ⟨machine, .missingSlot, []⟩
  | .move rd rs => .proceed { machine with registers := registers.write rd (registers.read rs) }
  | .loadValue rd value => .proceed { machine with registers := registers.write rd value }
  | .loadMemory rd address =>
    match machine.memory.read address with
    | .ok value => .proceed { machine with registers := registers.write rd value }
    | .error fault => .stop machine fault
  | .storeMemory rd address =>
    match machine.memory.write address (registers.read rd) with
    | .ok memory => .proceed { machine with memory := memory }
    | .error fault => .stop machine fault
  | .arithmetic rd rs operation destination =>
    match operation.combine (registers.read rd) (registers.read rs) with
    | some value =>
      let target := destination.select rd rs
      .proceed { machine with registers := registers.write target value.toNat }
    | none => ⟨machine, .fault .divisionByZero, [.record (.divisionFailed rs rd)]⟩
  | .shift rs direction amount =>
    let value := direction.shift registers.width (registers.read rs) amount
    .proceed { machine with registers := registers.write rs value }
  | .push rs =>
    match machine.stack.push registers (registers.read rs) with
    | .ok (stack, pushed) => .proceed { machine with stack := stack, registers := pushed }
    | .error fault => .stop machine fault
  | .pop rd =>
    match machine.stack.pop registers with
    | .ok (value, popped) => .proceed { machine with registers := popped.write rd value }
    | .fault fault => .stop machine fault
    | .missingSlot => ⟨machine, .missingSlot, []⟩
  | .jumpIfLess rd target =>
    if registers.a < registers.read rd then
      .proceed { machine with registers := registers.setIp target }
    else
      .proceed machine
  | .output rs selector =>
    let text := (OutputFormat.ofSelector selector).render (registers.read rs)
    let (sink, refused) := machine.sink.write (utf8 text)
    let outcome := match refused with
      | none => .ok false
      | some error => .fault (.output error)
    ⟨{ machine with sink := sink }, outcome, [.print text]⟩
  | .halt => ⟨machine, .ok true, []⟩

/-- A word is executed without being fetched, so the instruction pointer stays. -/
def execute (machine : Machine) (word : Word) : Effect :=
  match word.instruction? with
  | some instruction => machine.perform instruction
  | none => .stop machine (.unknownOpcode word.opcodeNumber)

/-- The instruction pointer moves on before the instruction is executed. -/
def fetched (machine : Machine) (word : Word) : Machine :=
  { machine with
    registers := machine.registers.setIp (machine.registers.ip + 1)
    lastFetched := some (machine.registers.ip, word) }

/-- A step past the end of the program halts and changes nothing. -/
def step (machine : Machine) : Effect :=
  let address := machine.registers.ip
  match machine.program[address]? with
  | none => ⟨machine, .ok true, [.record (.pastEnd address)]⟩
  | some word =>
    let effect := (machine.fetched word).execute word
    { effect with events := .record (.fetched address word) :: effect.events }

end Machine

end RegisterMachine
