import Relavium.Verifier.Reader

/-!
# Feeding a parser in chunks

Model of `ParserReader` of `packages/shared/src/media-verifier-reader.ts`.  Bytes
arrive in chunks of any sizes and are kept until they answer the step that waits.
How they are cut into chunks makes no difference to what the parser reads.
-/

namespace Relavium.Verifier

open Library
open Shared

/-- `MediaParser`. -/
abbrev MediaParser (α : Type) :=
  Generator ReadStep Bytes MediaAdmissionErrorCode α

variable
  {α : Type}

/-- `#parser.next`, after the parser has been resumed. -/
def nextStep : MediaParser α → Except MediaAdmissionErrorCode (MediaParser α)
  | .throws code => .error code
  | step => .ok step

/-- `ParserReader`, with the filled part of its arena. -/
structure ParserReader (α : Type) where
  step : MediaParser α
  arena : Bytes
  filled : Nat

namespace ParserReader

/-- The reader whose step nothing has been read for. -/
def waiting (step : MediaParser α) : ParserReader α :=
  { step, arena := [], filled := 0 }

/-- `constructor`. -/
def create (parser : MediaParser α) : Except MediaAdmissionErrorCode (ParserReader α) :=
  waiting <$> nextStep parser

/-- `push`. -/
def push (reader : ParserReader α)
    (chunk : Bytes) : Except MediaAdmissionErrorCode (ParserReader α) :=
  if chunk = [] then .ok reader
  else
    match reader.step with
    | .yields request resume =>
      let take := min (request.size - reader.filled) chunk.length
      if take = 0 then .error .invalidFormat
      else
        let arena := if request.skip then [] else reader.arena ++ chunk.take take
        if reader.filled + take = request.size then
          match nextStep (resume arena) with
          | .ok step => (waiting step).push (chunk.drop take)
          | .error code => .error code
        else
          push { reader with arena, filled := reader.filled + take } (chunk.drop take)
    | _ => .error .invalidFormat
termination_by chunk.length
decreasing_by all_goals simp only [List.length_drop]; omega

/-- The step at the end of the input, where an optional read finds nothing. -/
def lastStep (reader : ParserReader α) : Except MediaAdmissionErrorCode (MediaParser α) :=
  match reader.step with
  | .yields request resume =>
    if request.isOptional = true ∧ reader.filled = 0 then nextStep (resume [])
    else .ok reader.step
  | step => .ok step

/-- `finish`. -/
def finish (reader : ParserReader α) : Except MediaAdmissionErrorCode α :=
  match reader.lastStep with
  | .ok (.returns value) => if reader.filled = 0 then .ok value else .error .invalidFormat
  | .ok _ => .error .invalidFormat
  | .error code => .error code

end ParserReader

/-- A parser over a whole byte string, of which it must leave nothing. -/
def readWhole (parser : MediaParser α)
    (bytes : Bytes) : Except MediaAdmissionErrorCode α :=
  match Generator.run supply parser { rest := bytes, ended := false } with
  | .ok (value, unread) => if unread.rest = [] then .ok value else .error .invalidFormat
  | .error code => .error code

/-! ## Chunks -/

namespace ParserReader


@[simp] theorem push_nil (reader : ParserReader α) :
    reader.push [] = .ok reader := by
  rw [push, if_pos rfl]

/-- Two chunks are pushed like the one that they make up. -/
theorem push_append (reader : ParserReader α) (first second : Bytes) :
    reader.push (first ++ second) = reader.push first >>= fun later => later.push second := by
  induction lengthOf : first.length using Nat.strong_induction_on
    generalizing reader first with
  | _ length ih =>
    by_cases isEmpty : first = []
    · subst isEmpty
      simp [bind, Except.bind]
    obtain ⟨step, arena, filled⟩ := reader
    have isPositive : 0 < first.length := List.length_pos_iff.mpr isEmpty
    cases step with
    | returns value | throws code => simp [push, isEmpty, bind, Except.bind]
    | yields request resume =>
      by_cases fills : request.size - filled ≤ first.length
      · -- Both chunks end the step at the same byte of the first one.
        rw [push, push]
        simp only [List.append_eq_nil_iff, isEmpty, false_and, if_false, List.length_append,
          min_eq_left fills, min_eq_left (fills.trans (Nat.le_add_right _ second.length)),
          List.take_append_of_le_length fills, List.drop_append_of_le_length fills]
        by_cases isFull : request.size - filled = 0
        · simp [isFull, bind, Except.bind]
        simp only [isFull, if_false, show filled + (request.size - filled) = request.size by omega,
          if_true]
        cases nextStep (resume (if request.skip then [] else
            arena ++ first.take (request.size - filled))) with
        | error code => rfl
        | ok later =>
          exact ih _ (by simp only [List.length_drop]; omega) (waiting later) _ rfl
      · -- The first chunk runs out, and the second one goes on where it stopped.
        have isShort : min (request.size - filled) first.length = first.length := by omega
        conv_rhs => rw [push]
        simp only [isEmpty, if_false, isShort, isPositive.ne', List.take_length,
          List.drop_length, show filled + first.length ≠ request.size by omega, push_nil,
          bind, Except.bind]
        by_cases isLast : second = []
        · subst isLast
          rw [List.append_nil, push_nil, push]
          simp only [isEmpty, if_false, isShort, isPositive.ne', List.take_length,
            List.drop_length, show filled + first.length ≠ request.size by omega, push_nil]
        have joint :
            min (request.size - filled) (first.length + second.length) =
              first.length + min (request.size - (filled + first.length)) second.length := by
          omega
        have goesOn : min (request.size - (filled + first.length)) second.length ≠ 0 := by
          have := List.length_pos_iff.mpr isLast
          omega
        rw [push, push]
        simp only [List.append_eq_nil_iff, isEmpty, isLast, if_false,
          List.length_append, joint, goesOn, Nat.add_eq_zero_iff, and_false,
          List.take_length_add_append, List.drop_length_add_append, ← Nat.add_assoc]
        cases request.skip with
        | true => simp only [if_true]
        | false => simp only [Bool.false_eq_true, if_false, List.append_assoc]

/-- So are any number of chunks. -/
theorem push_flatten (reader : ParserReader α) (chunks : List Bytes) :
    chunks.foldlM push reader = reader.push chunks.flatten := by
  induction chunks generalizing reader with
  | nil => exact reader.push_nil.symm
  | cons chunk chunks ih =>
    rw [List.foldlM_cons, List.flatten_cons, push_append]
    exact congrArg (reader.push chunk >>= ·) (funext ih)

/-- Only one optional read is answered at the end of the input. -/
theorem supply_end (request : ReadStep) (ended : Bool) :
    supply request { rest := [], ended } =
      if request.isOptional = true ∧ ended = false then .ok ([], { rest := [], ended := true })
      else .error .invalidFormat := by
  rw [supply, if_neg (by simp only [List.length_nil]; omega)]
  simp only [true_and]

/-- A reader that gets all the bytes in one chunk reads what the parser reads of
them as a whole. -/
theorem readWhole_eq (parser : MediaParser α) (bytes : Bytes) :
    (do finish (← push (← create parser) bytes)) = readWhole parser bytes := by
  induction parser generalizing bytes with
  | throws code => rfl
  | returns value =>
    by_cases isEmpty : bytes = []
    · subst isEmpty
      simp [create, nextStep, waiting, finish, lastStep, readWhole, Generator.run, bind, Except.bind]
    · simp [create, nextStep, waiting, push, isEmpty, readWhole, Generator.run, bind, Except.bind]
  | yields request resume ih =>
    have starts : create (.yields request resume) = .ok (waiting (.yields request resume)) := rfl
    by_cases isEmpty : bytes = []
    · subst isEmpty
      by_cases isOptional : request.isOptional = true
      · cases answered : resume [] <;>
          simp [starts, nextStep, waiting, finish, lastStep, readWhole, Generator.run,
            supply_end, isOptional, answered, bind, Except.bind]
      · simp [starts, waiting, finish, lastStep, readWhole, Generator.run,
          supply_end, isOptional, bind, Except.bind]
    have isPositive := List.length_pos_iff.mpr isEmpty
    simp only [starts, bind, Except.bind]
    rw [push]
    simp only [waiting, isEmpty, if_false, Nat.sub_zero, Nat.zero_add, List.nil_append,
      readWhole, Generator.run, supply, and_false, false_and]
    by_cases fits : 0 < request.size ∧ request.size ≤ bytes.length
    · simp only [min_eq_left fits.2, fits.1.ne', if_false, if_true, if_pos fits]
      refine Eq.trans ?_ (ih _ (bytes.drop request.size))
      cases resumed : nextStep (resume (if request.skip then [] else bytes.take request.size)) with
      | error code | ok step => simp only [create, resumed]; rfl
    · simp only [if_neg fits]
      by_cases isZero : request.size = 0
      · simp only [isZero, Nat.zero_min, if_true]
      · have isShort : min request.size bytes.length = bytes.length := by omega
        simp only [isShort, isPositive.ne', if_false, List.drop_length, push_nil,
          show bytes.length ≠ request.size by omega, finish, lastStep, and_false]

end ParserReader

/-- A reader that gets the chunks one by one. -/
def readChunks (parser : MediaParser α)
    (chunks : List Bytes) : Except MediaAdmissionErrorCode α := do
  let reader ← ParserReader.create parser
  (← chunks.foldlM ParserReader.push reader).finish

/-- However the bytes are cut into chunks, a reader accepts what the parser accepts
as a whole. -/
theorem readChunks_accepts (parser : MediaScript Unit α) (chunks : List Bytes) :
    (readChunks (parser ()) chunks).toOption.map Prod.fst = accepts parser chunks.flatten := by
  have whole : readChunks (parser ()) chunks = readWhole (parser ()) chunks.flatten := by
    simp only [readChunks, ParserReader.push_flatten, ParserReader.readWhole_eq]
  rw [whole, readWhole, accepts]
  cases Generator.run supply (parser ()) { rest := chunks.flatten, ended := false } with
  | error code => rfl
  | ok outcome =>
      dsimp only
      split <;> rfl

end Relavium.Verifier
