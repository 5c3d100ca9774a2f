import RegisterMachine.Proofs.Machine.System

/-!
A machine whose stack is a list.

It has no stack pointer and no slots: a push appends to the list, a pop removes its last element,
and the length of the list alone decides whether they fault.
-/

namespace RegisterMachine

/-- The list has the bottom of the stack first. -/
structure ListMachine where
  width : Nat
  general : Register → Nat
  ip : Nat
  memory : Memory
  stack : List Nat
  capacity : Nat
  sink : Sink
  program : Array Word
  lastFetched : Option (Nat × Word)

namespace ListMachine

def fresh (configuration : Configuration) (program : List Word) (sink : Sink) : ListMachine where
  width := configuration.width
  general _ := 0
  ip := 0
  memory := .ofSize configuration.memory
  stack := []
  capacity := configuration.stack
  sink := sink
  program := program.toArray
  lastFetched := none

variable (machine : ListMachine)

def wrap (value : Nat) : Nat := value % modulus machine.width

def write (register : Register) (value : Nat) : ListMachine :=
  { machine with
    general := fun other => if other = register then machine.wrap value else machine.general other }

def jump (address : Nat) : ListMachine := { machine with ip := machine.wrap address }

/-- One place of the capacity is never filled. -/
def push (value : Nat) : Except Fault ListMachine :=
  if machine.stack.length = machine.capacity - 1 then
    .error .stackOverflow
  else
    .ok { machine with stack := machine.stack ++ [value] }

def pop : Except Fault (Nat × ListMachine) :=
  match machine.stack.getLast? with
  | some value => .ok (value, { machine with stack := machine.stack.dropLast })
  | none => .error .stackUnderflow

/-- An operation that is refused leaves the machine as it was. -/
def attempt {Value : Type} (value : Value) : Except Fault ListMachine → ListMachine × Outcome Value
  | .ok after => (after, .ok value)
  | .error reason => (machine, .fault reason)

def perform : Instruction → ListMachine × Outcome Bool
  | .call target => machine.attempt false ((machine.push machine.ip).map (·.jump target))
  | .ret => machine.attempt false (machine.pop.map fun popped => popped.2.jump popped.1)
  | .move rd rs => (machine.write rd (machine.general rs), .ok false)
  | .loadValue rd value => (machine.write rd value, .ok false)
  | .loadMemory rd address =>
    machine.attempt false ((machine.memory.read address).map (machine.write rd))
  | .storeMemory rd address =>
    machine.attempt false
      ((machine.memory.write address (machine.general rd)).map fun memory =>
        { machine with memory := memory })
  | .arithmetic rd rs operation destination =>
    match operation.combine (machine.general rd) (machine.general rs) with
    | some value => (machine.write (destination.select rd rs) value.toNat, .ok false)
    | none => (machine, .fault .divisionByZero)
  | .shift rs direction amount =>
    (machine.write rs (direction.shift machine.width (machine.general rs) amount), .ok false)
  | .push rs => machine.attempt false (machine.push (machine.general rs))
  | .pop rd => machine.attempt false (machine.pop.map fun popped => popped.2.write rd popped.1)
  | .jumpIfLess rd target =>
    if machine.general .a < machine.general rd then
      (machine.jump target, .ok false)
    else
      (machine, .ok false)
  | .output rs selector =>
    let text := (OutputFormat.ofSelector selector).render (machine.general rs)
    let (sink, refused) := machine.sink.write (utf8 text)
    ({ machine with sink := sink },
      match refused with
      | none => .ok false
      | some error => .fault (.output error))
  | .halt => (machine, .ok true)

def execute (word : Word) : ListMachine × Outcome Bool :=
  match word.instruction? with
  | some instruction => machine.perform instruction
  | none => (machine, .fault (.unknownOpcode word.opcodeNumber))

def fetched (word : Word) : ListMachine :=
  { machine with ip := machine.wrap (machine.ip + 1), lastFetched := some (machine.ip, word) }

def step : ListMachine × Outcome Bool :=
  match machine.program[machine.ip]? with
  | none => (machine, .ok true)
  | some word => (machine.fetched word).execute word

/-- Pushes and pops from outside have the list to themselves. -/
def system : System ListMachine where
  isPastEnd machine := decide (machine.program.size ≤ machine.ip)
  step := step
  execute word machine := machine.execute word
  push value machine := machine.attempt () (machine.push value)
  pop machine :=
    match machine.pop with
    | .ok (value, popped) => (popped, .ok value)
    | .error reason => (machine, .fault reason)

end ListMachine

end RegisterMachine
