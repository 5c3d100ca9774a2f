import RegisterMachine.Sink
import Mathlib.Data.List.Basic

/-!
What a sink has taken.

Whatever a sink answers, it takes the first bytes of each text, and all of them unless it fails. A
sink with a limit takes what fits into its room. It fails where something does not fit, and
otherwise where it does not flush.
-/

namespace RegisterMachine

namespace Sink

/-- The ways in which a write is refused: an offer fails, or nothing of it is taken, or what is left
of it is refused, or a complete write is not flushed. -/
inductive Refuses : Sink → List UInt8 → OutputError → Prop where
  | fails {sink : Sink} {bytes : List UInt8} {error : OutputError} {final : error ≠ .interrupted}
      (filled : bytes ≠ []) (reply : sink.reply sink.offers bytes = .fails error final) :
      Refuses sink bytes error
  | takesNone {sink : Sink} {bytes : List UInt8} (filled : bytes ≠ [])
      (reply : sink.reply sink.offers bytes = .takes 0) : Refuses sink bytes .writeZero
  | later {sink : Sink} {bytes : List UInt8} {error : OutputError} {count : Nat}
      (filled : bytes ≠ []) (reply : sink.reply sink.offers bytes = .takes (count + 1))
      (refuses : Refuses (sink.take bytes (count + 1)) (bytes.drop (count + 1)) error) :
      Refuses sink bytes error
  | unflushed {sink : Sink} {error : OutputError} (failing : sink.flush sink.offers = some error) :
      Refuses sink [] error

/-- Texts are written one after the other, whether or not they were refused. -/
def receive (sink : Sink) (texts : List (List UInt8)) : Sink :=
  texts.foldl (fun sink text => (sink.write text).1) sink

/-- From now on the sink answers as one with this limit. -/
structure Keeps (sink : Sink) (limit : Limit) : Prop where
  reply : ∀ later bytes, sink.reply (later ++ sink.offers) bytes =
    limit.reply later.flatten.length bytes
  flush : ∀ later, sink.flush (later ++ sink.offers) = limit.flushError

end Sink

namespace Limit

variable (limit : Limit) (count : Nat)

/-- There is room for so many bytes. -/
def Fits : Prop := ∀ room, limit.room = some room → count ≤ room

instance : Decidable (limit.Fits count) :=
  decidable_of_iff (∀ room ∈ limit.room, count ≤ room) Iff.rfl

/-- How many of so many bytes are taken. -/
def most : Nat :=
  match limit.room with
  | none => count
  | some room => min room count

/-- The error of a write that does not fit. -/
def refusal : OutputError := limit.writeError.getD .writeZero

/-- The limit after so many bytes were offered. -/
def after : Limit := { limit with room := limit.left count }

theorem after_zero : limit.after 0 = limit := by
  rw [after, left]
  simp

theorem after_after (first second : Nat) :
    (limit.after first).after second = limit.after (first + second) := by
  simp only [after, left, Option.map_map, mk.injEq, and_true]
  exact congrArg (limit.room.map ·) (funext fun room => Nat.sub_sub room first second)

/-- What does not fit uses up the room, so to offer it again makes no difference. -/
theorem after_rest : (limit.after count).after (count - limit.most count) = limit.after count := by
  have spent : limit.left (count + (count - limit.most count)) = limit.left count := by
    unfold left most
    cases limit.room with
    | none => rfl
    | some room =>
      simp only [Option.map_some, Option.some.injEq]
      omega
  rw [after_after, after, spent, after]

theorem most_rest : (limit.after count).most (count - limit.most count) = 0 := by
  unfold most after left
  cases limit.room with
  | none => exact Nat.sub_self count
  | some room =>
    simp only [Option.map_some]
    omega

theorem fits_rest_iff : (limit.after count).Fits (count - limit.most count) ↔ limit.Fits count := by
  unfold Fits most after left
  cases limit.room with
  | none => simp
  | some room =>
    simp only [Option.map_some, Option.some.injEq, forall_eq']
    omega

theorem most_eq_zero_iff : limit.most (count + 1) = 0 ↔ limit.room = some 0 := by
  unfold most
  cases limit.room with
  | none => simp
  | some room => cases room <;> simp

/-- A text that does not fit leaves no room. -/
theorem most_after_of_not_fits {count : Nat} (full : ¬ limit.Fits count) (more : Nat) :
    (limit.after count).most more = 0 := by
  unfold Fits at full
  unfold most after left
  cases room : limit.room with
  | none => simp [room] at full
  | some free =>
    simp only [room, Option.some.injEq, forall_eq'] at full
    simp only [Option.map_some]
    omega

/-- The second of two texts is taken as far as the first one leaves room. -/
theorem take_most_append (first second : List UInt8) :
    (first ++ second).take (limit.most (first ++ second).length) =
      first.take (limit.most first.length) ++
        second.take ((limit.after first.length).most second.length) := by
  have whole (bytes : List UInt8) : bytes.take (limit.most bytes.length) =
      (limit.room.map bytes.take).getD bytes := by
    unfold most
    cases limit.room with
    | none => exact List.take_length
    | some room => exact List.take_eq_take_min.symm
  have rest (bytes : List UInt8) : bytes.take ((limit.after first.length).most bytes.length) =
      (limit.room.map fun room => bytes.take (room - first.length)).getD bytes := by
    unfold most after left
    cases limit.room with
    | none => exact List.take_length
    | some room => exact List.take_eq_take_min.symm
  rw [whole, whole, rest]
  cases limit.room with
  | none => rfl
  | some room => exact List.take_append

/-- What a sink with a limit says to an offer, and why. -/
inductive Replies (limit : Limit) (bytes : List UInt8) : Sink.Reply → Prop where
  | fails {error : OutputError} {final : error ≠ .interrupted} (full : limit.room = some 0)
      (failing : limit.writeError = some error) : Replies limit bytes (.fails error final)
  | takesNone (full : limit.room = some 0) (closed : limit.writeError = none) :
      Replies limit bytes (.takes 0)
  | takesMost {taken : Nat} (free : limit.room ≠ some 0) (part : taken = limit.most bytes.length) :
      Replies limit bytes (.takes taken)

theorem replies_reply (bytes : List UInt8) : limit.Replies bytes (limit.reply 0 bytes) := by
  obtain ⟨room, writeError, flushError, final⟩ := limit
  cases room with
  | none => exact .takesMost (Option.some_ne_none 0).symm rfl
  | some free =>
    cases free with
    | zero =>
      cases writeError with
      | none =>
        have nothing : min (0 - 0) bytes.length = 0 := Nat.zero_min bytes.length
        simp only [reply, left, Option.map_some, nothing]
        exact .takesNone rfl rfl
      | some error => exact .fails rfl rfl
    | succ free => exact .takesMost (by simp) rfl

end Limit

namespace Sink

variable {sink : Sink} {limit : Limit} {bytes : List UInt8} {error : OutputError}

section Writing

/-- A sink takes the first bytes of what it is offered, and it takes them all if there is no error. -/
theorem exists_taken (sink : Sink) (bytes : List UInt8) :
    ∃ taken, taken <+: bytes ∧ (sink.writeAll bytes).1.written = sink.written ++ taken ∧
      ((sink.writeAll bytes).2 = none → taken = bytes) := by
  fun_induction writeAll sink bytes with
  | case1 sink => exact ⟨[], List.prefix_rfl, by simp, fun _ => rfl⟩
  | case2 sink byte rest error final reply =>
    exact ⟨[], List.nil_prefix, by simp, fun complete => absurd complete (Option.some_ne_none _)⟩
  | case3 sink byte rest =>
    exact ⟨[], List.nil_prefix, by simp, fun complete => absurd complete (Option.some_ne_none _)⟩
  | case4 sink byte rest count reply ih =>
    obtain ⟨taken, first, after, all⟩ := ih
    refine ⟨byte :: rest.take count ++ taken, ?_, ?_, ?_⟩
    · have joined := (List.prefix_append_right_inj (byte :: rest.take count)).mpr first
      rwa [List.cons_append, List.cons_append, List.take_append_drop] at joined
    · rw [after, written_take, List.append_assoc, List.take_succ_cons]
    · intro complete
      rw [all complete, List.cons_append, List.take_append_drop]

/-- A write fails as its offers do, or else as the flush does. -/
theorem write_snd (sink : Sink) (bytes : List UInt8) :
    (sink.write bytes).2 = (sink.writeAll bytes).2.or
      ((sink.writeAll bytes).1.flush (sink.writeAll bytes).1.offers) := by
  unfold write
  split <;> simp [*]

/-- A write takes the first bytes of a text. -/
theorem written_write (sink : Sink) (bytes : List UInt8) :
    ∃ taken, taken <+: bytes ∧ (sink.write bytes).1.written = sink.written ++ taken := by
  obtain ⟨taken, first, written, -⟩ := sink.exists_taken bytes
  rw [write_fst]
  exact ⟨taken, first, written⟩

/-- A write that succeeds takes all of it. -/
theorem written_of_accepted (accepted : (sink.write bytes).2 = none) :
    (sink.write bytes).1.written = sink.written ++ bytes := by
  obtain ⟨taken, -, written, all⟩ := sink.exists_taken bytes
  rw [write_snd, Option.or_eq_none_iff] at accepted
  rw [write_fst, written, all accepted.1]

/-- A write is refused in one of the ways above. -/
theorem write_snd_eq_some_iff (sink : Sink) (bytes : List UInt8) (error : OutputError) :
    (sink.write bytes).2 = some error ↔ sink.Refuses bytes error := by
  rw [write_snd]
  fun_induction writeAll sink bytes with
  | case1 sink =>
    refine ⟨fun failing => .unflushed failing, fun refuses => ?_⟩
    cases refuses with
    | unflushed failing => exact failing
    | fails filled | takesNone filled | later filled => exact absurd rfl filled
  | case2 sink byte rest other final reply =>
    rw [Option.some_or, Option.some_inj]
    constructor
    · rintro rfl
      exact .fails (List.cons_ne_nil _ _) reply
    · intro refuses
      cases refuses <;> simp_all
  | case3 sink byte rest reply =>
    rw [Option.some_or, Option.some_inj]
    constructor
    · rintro rfl
      exact .takesNone (List.cons_ne_nil _ _) reply
    · intro refuses
      cases refuses <;> simp_all
  | case4 sink byte rest count reply ih =>
    rw [ih]
    refine ⟨fun refuses => .later (List.cons_ne_nil _ _) reply refuses, fun refuses => ?_⟩
    cases refuses with
    | later filled again refuses =>
      obtain rfl : count = _ := by simpa [reply] using again
      exact refuses
    | fails filled again | takesNone filled again => simp [reply] at again

end Writing

section Limits

/-- A sink that was offered nothing yet keeps the limit that it was made for. -/
theorem keeps_limit (limit : Limit) : limit.sink.Keeps limit where
  reply later bytes := by
    rw [show limit.sink.offers = [] from rfl, List.append_nil]
    rfl
  flush _ := rfl

theorem Keeps.reply_eq (keeps : sink.Keeps limit) (bytes : List UInt8) :
    sink.reply sink.offers bytes = limit.reply 0 bytes :=
  keeps.reply [] bytes

theorem Keeps.take (keeps : sink.Keeps limit) (bytes : List UInt8) (count : Nat) :
    (sink.take bytes count).Keeps (limit.after bytes.length) where
  reply later offer := by
    have earlier := keeps.reply (later ++ [bytes]) offer
    rw [List.append_assoc] at earlier
    refine earlier.trans ?_
    have total : (later ++ [bytes]).flatten.length = bytes.length + later.flatten.length := by
      rw [List.flatten_append, List.flatten_singleton, List.length_append, Nat.add_comm]
    simp only [Limit.reply, Limit.after, Limit.left, total, Option.map_map, Function.comp_def,
      Nat.sub_sub]
  flush later := by
    have earlier := keeps.flush (later ++ [bytes])
    rwa [List.append_assoc] at earlier

/-- A sink takes what fits into its room, and it fails if something does not fit. -/
theorem Keeps.writeAll (keeps : sink.Keeps limit) (bytes : List UInt8) :
    (sink.writeAll bytes).1.Keeps (limit.after bytes.length) ∧
      (sink.writeAll bytes).1.written = sink.written ++ bytes.take (limit.most bytes.length) ∧
      (sink.writeAll bytes).2 = if limit.Fits bytes.length then none else some limit.refusal := by
  fun_induction Sink.writeAll sink bytes generalizing limit with
  | case1 sink =>
    refine ⟨?_, by simp, by simp [Limit.Fits]⟩
    rwa [List.length_nil, Limit.after_zero]
  | case2 sink byte rest error final reply =>
    have replies := limit.replies_reply (byte :: rest)
    rw [← keeps.reply_eq, reply] at replies
    cases replies with
    | fails full failing =>
      refine ⟨keeps.take _ 0, ?_, ?_⟩
      · simp [Limit.most, full]
      · simp [Limit.Fits, Limit.refusal, full, failing]
  | case3 sink byte rest reply =>
    have replies := limit.replies_reply (byte :: rest)
    rw [← keeps.reply_eq, reply] at replies
    cases replies with
    | takesNone full closed =>
      refine ⟨keeps.take _ 0, ?_, ?_⟩
      · simp [Limit.most, full]
      · simp [Limit.Fits, Limit.refusal, full, closed]
    | takesMost free part =>
      -- There is room for at least one byte.
      rw [List.length_cons, eq_comm, Limit.most_eq_zero_iff] at part
      exact absurd part free
  | case4 sink byte rest count reply ih =>
    have replies := limit.replies_reply (byte :: rest)
    rw [← keeps.reply_eq, reply] at replies
    cases replies with
    | takesMost free part =>
      obtain ⟨kept, written, error⟩ := ih (keeps.take (byte :: rest) (count + 1))
      have length : (rest.drop count).length =
          (byte :: rest).length - limit.most (byte :: rest).length := by
        rw [← part, List.length_drop, List.length_cons, Nat.add_sub_add_right]
      rw [length, Limit.after_rest] at kept
      rw [length, Limit.most_rest, List.take_zero, List.append_nil, written_take] at written
      simp only [length, Limit.fits_rest_iff] at error
      refine ⟨kept, ?_, error⟩
      rw [← part]
      exact written

theorem Keeps.write (keeps : sink.Keeps limit) (bytes : List UInt8) :
    (sink.write bytes).1.Keeps (limit.after bytes.length) := by
  rw [write_fst]
  exact (keeps.writeAll bytes).1

theorem Keeps.written_write (keeps : sink.Keeps limit) (bytes : List UInt8) :
    (sink.write bytes).1.written = sink.written ++ bytes.take (limit.most bytes.length) := by
  rw [write_fst]
  exact (keeps.writeAll bytes).2.1

/-- A write that fits is flushed. -/
theorem Keeps.write_of_fits (keeps : sink.Keeps limit) (fits : limit.Fits bytes.length) :
    (sink.write bytes).2 = limit.flushError := by
  obtain ⟨kept, -, complete⟩ := keeps.writeAll bytes
  rw [if_pos fits] at complete
  rw [write_snd, complete, Option.none_or]
  exact kept.flush []

theorem Keeps.write_of_not_fits (keeps : sink.Keeps limit) (full : ¬ limit.Fits bytes.length) :
    (sink.write bytes).2 = some limit.refusal := by
  obtain ⟨-, -, refused⟩ := keeps.writeAll bytes
  rw [if_neg full] at refused
  rw [write_snd, refused, Option.some_or]

theorem receive_cons (sink : Sink) (text : List UInt8) (texts : List (List UInt8)) :
    sink.receive (text :: texts) = (sink.write text).1.receive texts := rfl

theorem receive_append (sink : Sink) (first second : List (List UInt8)) :
    sink.receive (first ++ second) = (sink.receive first).receive second :=
  List.foldl_append

/-- Texts are taken as one text would be. -/
theorem Keeps.receive (keeps : sink.Keeps limit) (texts : List (List UInt8)) :
    (sink.receive texts).Keeps (limit.after texts.flatten.length) ∧
      (sink.receive texts).written =
        sink.written ++ texts.flatten.take (limit.most texts.flatten.length) := by
  induction texts generalizing sink limit with
  | nil =>
    refine ⟨?_, by simp [Sink.receive]⟩
    rw [List.flatten_nil, List.length_nil, Limit.after_zero]
    exact keeps
  | cons text texts ih =>
    obtain ⟨kept, written⟩ := ih (keeps.write text)
    rw [Limit.after_after, ← List.length_append] at kept
    refine ⟨kept, ?_⟩
    rw [receive_cons, written, keeps.written_write, List.flatten_cons, limit.take_most_append,
      List.append_assoc]

end Limits

end Sink

end RegisterMachine
