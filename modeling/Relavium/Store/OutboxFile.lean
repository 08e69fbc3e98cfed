import Relavium.Library.JsonLines
import Relavium.Shared.TerminalEventSchema

/-!
# The terminal outbox file

Model of `apps/cli/src/engine/terminal-outbox.ts`.  A file holds the terminal events
that the store would not take, one JSON text to a line.  Both operations only append;
`remove` appends a tombstone.  A line feed goes in front of every text and one after
it, and a reader takes the lines in order, leaving out those it cannot read.
-/

namespace Relavium.Store

open Library
open Shared
open JsValue (reading ExoticJson)

/-- What the outbox relies on: what `JSON.stringify` makes of objects of other classes,
and the union of run events. -/
structure OutboxHost where
  exotic : Option JsValue
  exoticJson : ExoticJson exotic
  union : RunEventUnion

/-- `JSON_DISPLAY_UNSAFE`. -/
def jsonDisplayUnsafe (unit : UInt16) : Bool :=
  decide (0x7F ≤ unit.toNat ∧ unit.toNat ≤ 0x9F) || decide (unit.toNat = 0x61C) ||
    decide (unit.toNat = 0x200E) || decide (unit.toNat = 0x200F) ||
    decide (0x202A ≤ unit.toNat ∧ unit.toNat ≤ 0x202E) ||
    decide (0x2066 ≤ unit.toNat ∧ unit.toNat ≤ 0x2069)

/-- `stringifyJsonLine`; `none` where `JSON.stringify` throws. -/
def stringifyJsonLine (host : OutboxHost)
    (value : JsValue) : Option JsString :=
  if value.isUndefined then some (jsText "undefined")
  else
    (JsonText.write (host.exotic.bind (JsonText.write none)) value).map
      (JsonParse.escapeUnits jsonDisplayUnsafe)

/-- `TOMBSTONE_KEY`. -/
def tombstoneKey : JsString := jsText "__relaviumOutboxRemoved"

/-- `tombstoneRunId`. -/
def tombstoneRunId (raw : JsValue) : Option JsString :=
  match raw.field tombstoneKey with
  | .string runId => some runId
  | _ => none

/-! ## Reading -/

/-- One turn of the loop of `readEntries`. -/
def readEntry (host : OutboxHost) (held : OrderedMap JsString JsValue)
    (line : JsString) : OrderedMap JsString JsValue :=
  if JsText.trim line = [] then held
  else
    match JsonParse.parse line with
    | none => held
    | some raw =>
      match tombstoneRunId raw with
      | some runId => held.delete runId
      | none =>
        match runEventSchema host.union raw with
        | none => held
        | some parsed =>
          match runIdOf parsed with
          | some runId => held.set runId parsed
          | none => held

/-- `readEntries`, of a file that can be read or is absent. -/
def readEntries (host : OutboxHost)
    (file : Option (List UInt8)) : OrderedMap JsString JsValue :=
  match file with
  | none => .empty
  | some bytes => (linesOf bytes).foldl (readEntry host) .empty

/-- `list`. -/
def listOutbox (host : OutboxHost)
    (file : Option (List UInt8)) : List JsValue :=
  (readEntries host file).values

/-! ## Writing -/

/-- An event that ends a run, with what its schema takes it for.  `TOMBSTONE_KEY` is no
field of an event, so its text is no tombstone. -/
structure TerminalEvent (host : OutboxHost) where
  value : JsValue
  parsed : JsValue
  isTerminal : IsTerminal host.union value parsed
  notTombstone : tombstoneRunId (reading host.exotic value) = none

/-- A call that writes. -/
inductive OutboxCall (host : OutboxHost)
  | put (event : TerminalEvent host)
  | remove (runId : JsString)

/-- How much of an append reached the file. -/
inductive Reach
  | whole
  /-- A crash after so many bytes. -/
  | cut (count : Nat)
  /-- The call died, or was turned away, before it opened the file. -/
  | never

/-- A call of some process, with what became of its append. -/
structure OutboxAppend (host : OutboxHost) where
  call : OutboxCall host
  reach : Reach

/-- The value that a call appends the text of. -/
def OutboxCall.value : OutboxCall host → JsValue
  | .put event => event.value
  | .remove runId => .object [(tombstoneKey, .string runId)]

/-- The JSON text that a call appends, unless it throws. -/
def OutboxCall.line (call : OutboxCall host) : Option JsString :=
  stringifyJsonLine host call.value

/-- The bytes around and of a line. -/
def lineBytes (line : JsString) : List UInt8 :=
  0x0A :: (encodeUtf8 line ++ [0x0A])

/-- The file after some of the bytes reached it. -/
def appendFile (file : Option (List UInt8)) (bytes : List UInt8) : Reach → Option (List UInt8)
  | .whole => some (file.getD [] ++ bytes)
  | .cut count => some (file.getD [] ++ bytes.take count)
  | .never => file

/-- `put` and `remove`: the latter does nothing where there is no file. -/
def OutboxAppend.perform (file : Option (List UInt8))
    (append : OutboxAppend host) : Option (List UInt8) :=
  match append.call, file with
  | .remove _, none => none
  | call, file =>
    match call.line with
    | none => file
    | some line => appendFile file (lineBytes line) append.reach

/-- The file after the calls of all processes, in the order of their appends. -/
def fileAfter (history : List (OutboxAppend host)) : Option (List UInt8) :=
  history.foldl OutboxAppend.perform none

@[simp] theorem fileAfter_nil : fileAfter ([] : List (OutboxAppend host)) = none := rfl

theorem fileAfter_snoc (history : List (OutboxAppend host)) (append : OutboxAppend host) :
    fileAfter (history ++ [append]) = append.perform (fileAfter history) := by
  simp [fileAfter]

end Relavium.Store
