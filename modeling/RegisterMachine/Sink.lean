import RegisterMachine.Fault

/-!
The receiver of a machine's output.

A sink is offered the bytes of a text. It takes some of them, and is offered the rest, or it fails.
A text that was taken whole is flushed. Each answer may depend on all that was offered before. An
interrupted offer is made once more, so a reply is always the first one that is no interruption.
-/

namespace RegisterMachine

/-- How a sink answers an offer. -/
inductive Sink.Reply where
  | takes (count : Nat)
  | fails (error : OutputError) (final : error ≠ .interrupted)

/-- A sink without answers of its own takes everything. -/
structure Sink where
  /-- The bytes taken so far, the latest one first. -/
  taken : List UInt8 := []
  /-- All that was offered so far, the latest offer first. -/
  offers : List (List UInt8) := []
  reply : List (List UInt8) → List UInt8 → Sink.Reply := fun _ bytes => .takes bytes.length
  flush : List (List UInt8) → Option OutputError := fun _ => none

namespace Sink

/-- The bytes in the order in which they arrived. -/
def written (sink : Sink) : List UInt8 := sink.taken.reverse

/-- The sink was offered some bytes and has taken the first ones. -/
def take (sink : Sink) (bytes : List UInt8) (count : Nat) : Sink :=
  { sink with
    taken := (bytes.take count).reverseAux sink.taken
    offers := bytes :: sink.offers }

/-- Bytes are offered until all of them are taken. To take none of them is an error as well. -/
def writeAll (sink : Sink) : List UInt8 → Sink × Option OutputError
  | [] => (sink, none)
  | byte :: rest =>
    match sink.reply sink.offers (byte :: rest) with
    | .fails error _ => (sink.take (byte :: rest) 0, some error)
    | .takes 0 => (sink.take (byte :: rest) 0, some .writeZero)
    | .takes (count + 1) => (sink.take (byte :: rest) (count + 1)).writeAll (rest.drop count)
termination_by bytes => bytes.length
decreasing_by
  simp only [List.length_drop, List.length_cons]
  omega

/-- Only a complete write is flushed. -/
def write (sink : Sink) (bytes : List UInt8) : Sink × Option OutputError :=
  match sink.writeAll bytes with
  | (after, some error) => (after, some error)
  | (after, none) => (after, after.flush after.offers)

@[simp] theorem written_take (sink : Sink) (bytes : List UInt8) (count : Nat) :
    (sink.take bytes count).written = sink.written ++ bytes.take count := by
  simp [take, written, List.reverseAux_eq]

theorem write_fst (sink : Sink) (bytes : List UInt8) :
    (sink.write bytes).1 = (sink.writeAll bytes).1 := by
  unfold write
  split <;> simp only [*]

end Sink

/-- A sink that has room for some bytes, and that refuses all others in one way. -/
structure Limit where
  /-- Without a number there is no end to the room. -/
  room : Option Nat := none
  /-- Without an error the sink takes no more bytes. -/
  writeError : Option OutputError := none
  flushError : Option OutputError := none
  /-- An interruption is no refusal, since the offer is made again. -/
  final : writeError ≠ some .interrupted := by decide

namespace Limit

/-- The room that is left after so many bytes were offered. -/
def left (limit : Limit) (offered : Nat) : Option Nat := limit.room.map (· - offered)

/-- The part of an offer that fits. -/
def reply (limit : Limit) (offered : Nat) (bytes : List UInt8) : Sink.Reply :=
  match limit.left offered, limit.writeError, limit.final with
  | none, _, _ => .takes bytes.length
  | some 0, some error, final => .fails error (mt (congrArg some) final)
  | some room, _, _ => .takes (min room bytes.length)

/-- The sink before anything is offered to it. -/
def sink (limit : Limit) : Sink where
  reply offers := limit.reply offers.flatten.length
  flush _ := limit.flushError

end Limit

/-- Text is sent as UTF-8. -/
def utf8 (text : String) : List UInt8 := text.toUTF8.data.toList

end RegisterMachine
