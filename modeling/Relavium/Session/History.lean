import Mathlib.Data.List.Sort
import Relavium.Library.JsText

/-!
# Session history

Model of `packages/shared/src/session-history.ts`: the projection of the rows of a
transcript to its completed turns, and to the rows that a resumed session carries on.
-/

namespace Relavium.Session

open Library

variable {β : Type}

inductive SessionMessageRole
  | system
  | user
  | assistant
  | tool
  deriving DecidableEq

/-- `SessionContentPart`.  What the parts other than text carry is a parameter. -/
inductive SessionContentPart (β : Type)
  | text (text : JsString)
  | reasoning (payload : β)
  | media (payload : β)
  | toolCall (payload : β)
  | toolResult (payload : β)
  deriving DecidableEq

namespace SessionContentPart

def text? : SessionContentPart β → Option JsString
  | .text given => some given
  | _ => none

def isToolCall : SessionContentPart β → Bool
  | .toolCall _ => true
  | _ => false

def isToolResult : SessionContentPart β → Bool
  | .toolResult _ => true
  | _ => false

end SessionContentPart

/-- `SessionMessage`, as its schema accepts it. -/
structure SessionMessage (β : Type) where
  id : JsString
  sequenceNumber : Nat
  role : SessionMessageRole
  content : List (SessionContentPart β)
  /-- The `droppedThroughSequence` of a boundary marker. -/
  compaction : Option Nat
  marker_system : compaction.isSome = true → role = .system
  results_tool : ∀ part ∈ content, part.isToolResult = true ↔ role = .tool
  calls_assistant : ∀ part ∈ content, part.isToolCall = true → role = .assistant
  deriving DecidableEq

/-- The texts of a row, with a blank line between them. -/
def textOf (content : List (SessionContentPart β)) : JsString :=
  (jsText "\n\n").intercalate (content.filterMap SessionContentPart.text?)

/-- `dropBoundaryOf`. -/
def dropBoundaryOf (ordered : List (SessionMessage β)) : Int :=
  ordered.foldl
    (fun boundary message =>
      match message.compaction with
      | none => boundary
      | some droppedThroughSequence => max boundary droppedThroughSequence)
    (-1)

/-- `CompletedSessionTurn`. -/
structure CompletedSessionTurn (β : Type) where
  user : SessionMessage β
  terminal : SessionMessage β
  messages : List (SessionMessage β)
  legacyUserPrefix : List (SessionMessage β)

/-- The variables of the loop of `projectSessionHistory`. -/
structure HistoryScan (β : Type) where
  turns : List (CompletedSessionTurn β)
  user : Option (SessionMessage β)
  rows : List (SessionMessage β)
  legacyUsers : List (SessionMessage β)

namespace SessionMessage

/-- Rows that the projection passes over. -/
def skipped (message : SessionMessage β) : Bool :=
  message.compaction.isSome || message.role = .system

/-- A row with an explicit final text. -/
def isTerminal (message : SessionMessage β) : Bool :=
  message.role = .assistant && message.content.any (·.text?.isSome) &&
    !message.content.any (·.isToolCall)

def above (message : SessionMessage β) (boundary : Int) : Bool :=
  boundary < message.sequenceNumber

end SessionMessage

namespace HistoryScan

def start : HistoryScan β where
  turns := []
  user := none
  rows := []
  legacyUsers := []

/-- The user row that another one turns into legacy context. -/
def bareUser (scan : HistoryScan β) : List (SessionMessage β) :=
  scan.user.toList.filter fun user =>
    scan.rows.length = 1 && (textOf user.content).length > 0

/-- The loop's body. -/
def next (boundary : Int) (scan : HistoryScan β)
    (message : SessionMessage β) : HistoryScan β :=
  if message.skipped then scan
  else if message.role = .user then
    { scan with
      legacyUsers := scan.legacyUsers ++ scan.bareUser
      user := some message
      rows := [message] }
  else
    match scan.user with
    | none => scan
    | some user =>
      let rows := scan.rows ++ [message]
      if !message.isTerminal then { scan with rows }
      else
        { turns :=
            if user.above boundary then
              scan.turns ++
                [{ user
                   terminal := message
                   messages := rows
                   legacyUserPrefix := scan.legacyUsers.filter (·.above boundary) }]
            else scan.turns
          user := none
          rows := []
          legacyUsers := [] }

end HistoryScan

/-- The rows by their sequence numbers; the sort is stable. -/
def orderedRows (messages : List (SessionMessage β)) : List (SessionMessage β) :=
  messages.insertionSort fun left right => left.sequenceNumber ≤ right.sequenceNumber

/-- The drop boundary, if it is honoured. -/
def boundaryOf (messages : List (SessionMessage β))
    (honorBoundary : Bool) : Int :=
  if honorBoundary then dropBoundaryOf (orderedRows messages) else -1

/-- What `projectSessionHistory` returns. -/
structure HistoryProjection (β : Type) where
  turns : List (CompletedSessionTurn β)
  trailingLegacyUsers : List (SessionMessage β)

def projectSessionHistory (messages : List (SessionMessage β))
    (honorBoundary : Bool) : HistoryProjection β :=
  let boundary := boundaryOf messages honorBoundary
  let scan := (orderedRows messages).foldl (HistoryScan.next boundary) .start
  { turns := scan.turns
    trailingLegacyUsers := scan.legacyUsers.filter (·.above boundary) }

def completedSessionTurns (messages : List (SessionMessage β))
    (honorBoundary : Bool) : List (CompletedSessionTurn β) :=
  (projectSessionHistory messages honorBoundary).turns

/-- The rows of a turn that a resumed session carries on. -/
def CompletedSessionTurn.resumable
    (turn : CompletedSessionTurn β) : List (SessionMessage β) :=
  turn.legacyUserPrefix ++ turn.user ::
    (if (textOf turn.terminal.content).length = 0 then [] else [turn.terminal])

def resumableSessionMessages
    (messages : List (SessionMessage β)) : List (SessionMessage β) :=
  let projection := projectSessionHistory messages true
  projection.turns.flatMap CompletedSessionTurn.resumable ++ projection.trailingLegacyUsers

/-! ## Completed exchanges -/

/-- A completed exchange, in the order of its sequence numbers. -/
structure CompletedExchange (β : Type) where
  user : SessionMessage β
  /-- Tool calls and tool results. -/
  steps : List (SessionMessage β)
  terminal : SessionMessage β
  user_role : user.role = .user
  steps_role : ∀ row ∈ steps,
    row.role = .tool ∨ row.role = .assistant ∧ row.content.any (·.isToolCall) = true
  terminal_text : terminal.isTerminal = true
  ordered : (user :: (steps ++ [terminal])).Pairwise fun left right =>
    left.sequenceNumber < right.sequenceNumber

def CompletedExchange.rows (exchange : CompletedExchange β) : List (SessionMessage β) :=
  exchange.user :: (exchange.steps ++ [exchange.terminal])

/-- The last row of a transcript besides the system rows, if it is that of a user and
has text: what a writer that stored an empty answer as nothing left of an exchange, and
what is left of an exchange that was interrupted before any other row. -/
def danglingUser (messages : List (SessionMessage β)) : List (SessionMessage β) :=
  ((orderedRows messages).filter fun row => !row.skipped).getLast?.toList.filter fun row =>
    row.role = .user && (textOf row.content).length > 0

/-- The turn of an exchange after some legacy context. -/
def CompletedExchange.turn (exchange : CompletedExchange β)
    (legacyUserPrefix : List (SessionMessage β)) : CompletedSessionTurn β where
  user := exchange.user
  terminal := exchange.terminal
  messages := exchange.rows
  legacyUserPrefix

/-! ## A transcript that goes on -/

section Rows

variable {rows later : List (SessionMessage β)}

theorem orderedInsert_append
    (row : SessionMessage β) (before : ∀ other ∈ later, row.sequenceNumber ≤ other.sequenceNumber)
    (sorted : List (SessionMessage β)) :
    (sorted ++ later).orderedInsert
        (fun left right => left.sequenceNumber ≤ right.sequenceNumber) row =
      sorted.orderedInsert
        (fun left right => left.sequenceNumber ≤ right.sequenceNumber) row ++ later := by
  induction sorted with
  | nil =>
    cases later with
    | nil => rfl
    | cons first rest =>
      simp only [List.nil_append, List.orderedInsert]
      rw [if_pos (before first List.mem_cons_self)]
      rfl
  | cons first rest ih =>
    simp only [List.cons_append, List.orderedInsert]
    split
    · rfl
    · rw [ih, List.cons_append]

theorem orderedRows_append
    (isLater : ∀ row ∈ rows, ∀ other ∈ later, row.sequenceNumber < other.sequenceNumber)
    (ordered : later.Pairwise fun left right => left.sequenceNumber < right.sequenceNumber) :
    orderedRows (rows ++ later) = orderedRows rows ++ later := by
  induction rows with
  | nil =>
    exact List.Pairwise.insertionSort_eq (ordered.imp Nat.le_of_lt)
  | cons row rows ih =>
    have rest := ih fun other member =>
      isLater other (List.mem_cons_of_mem _ member)
    unfold orderedRows at rest ⊢
    rw [List.cons_append, List.insertionSort_cons, List.insertionSort_cons, rest]
    exact orderedInsert_append row
      (fun other member => (isLater row List.mem_cons_self other member).le) _

theorem mem_orderedRows (row : SessionMessage β) :
    row ∈ orderedRows rows ↔ row ∈ rows :=
  List.mem_insertionSort _

theorem dropBoundaryOf_append (noMarker : ∀ row ∈ later, row.compaction = none) :
    dropBoundaryOf (rows ++ later) = dropBoundaryOf rows := by
  rw [dropBoundaryOf, List.foldl_append, ← dropBoundaryOf]
  generalize dropBoundaryOf rows = boundary
  induction later with
  | nil => rfl
  | cons row later ih =>
    rw [List.foldl_cons, noMarker row List.mem_cons_self]
    exact ih fun other member =>
      noMarker other (List.mem_cons_of_mem _ member)

end Rows

namespace SessionMessage

/-- Only system rows are passed over. -/
theorem skipped_iff (message : SessionMessage β) :
    message.skipped = true ↔ message.role = .system := by
  simp only [skipped, Bool.or_eq_true, decide_eq_true_eq]
  exact ⟨fun either => either.elim message.marker_system (fun isSystem => isSystem), .inr⟩

theorem compaction_eq_none {message : SessionMessage β} (notSystem : message.role ≠ .system) :
    message.compaction = none := by
  cases isMarker : message.compaction with
  | none => rfl
  | some boundary => exact absurd (message.marker_system (by simp [isMarker])) notSystem

end SessionMessage

namespace HistoryScan

variable {boundary : Int}

section Steps

variable
  {scan : HistoryScan β}
  {message : SessionMessage β}

theorem next_system (isSystem : message.role = .system) :
    scan.next boundary message = scan := by
  rw [next, if_pos ((message.skipped_iff).mpr isSystem)]

theorem next_user (isUser : message.role = .user) :
    scan.next boundary message =
      { scan with
        legacyUsers := scan.legacyUsers ++ scan.bareUser
        user := some message
        rows := [message] } := by
  have notSystem : ¬message.skipped = true := by
    rw [message.skipped_iff, isUser]
    simp
  rw [next, if_neg notSystem, if_pos isUser]

theorem next_idle
    (isOther : message.role ≠ .system ∧ message.role ≠ .user) (isIdle : scan.user = none) :
    scan.next boundary message = scan := by
  rw [next, if_neg (mt message.skipped_iff.mp isOther.1), if_neg isOther.2, isIdle]

theorem next_step
    (isOther : message.role ≠ .system ∧ message.role ≠ .user) {user : SessionMessage β}
    (isUser : scan.user = some user) (isStep : message.isTerminal = false) :
    scan.next boundary message = { scan with rows := scan.rows ++ [message] } := by
  rw [next, if_neg (mt message.skipped_iff.mp isOther.1), if_neg isOther.2, isUser]
  simp [isStep]

theorem next_terminal
    (isOther : message.role ≠ .system ∧ message.role ≠ .user) {user : SessionMessage β}
    (isUser : scan.user = some user) (isTerminal : message.isTerminal = true) :
    scan.next boundary message =
      { turns :=
          if user.above boundary then
            scan.turns ++
              [{ user
                 terminal := message
                 messages := scan.rows ++ [message]
                 legacyUserPrefix := scan.legacyUsers.filter (·.above boundary) }]
          else scan.turns
        user := none
        rows := []
        legacyUsers := [] } := by
  rw [next, if_neg (mt message.skipped_iff.mp isOther.1), if_neg isOther.2, isUser]
  simp [isTerminal]

end Steps

/-- What the scan remembers of the last row that is not passed over. -/
def Follows (last : Option (SessionMessage β))
    (scan : HistoryScan β) : Prop :=
  match last with
  | none => scan.user = none
  | some row =>
    if row.role = .user then scan.user = some row ∧ scan.rows = [row]
    else scan.user = none ∨ 2 ≤ scan.rows.length

variable {last : Option (SessionMessage β)} {scan : HistoryScan β}

theorem Follows.rows_pos
    (follows : scan.Follows last) {user : SessionMessage β} (isUser : scan.user = some user) :
    1 ≤ scan.rows.length := by
  cases last with
  | none => exact absurd (isUser.symm.trans follows) (by simp)
  | some row =>
    rw [Follows] at follows
    split at follows
    · rw [follows.2]
      exact Nat.le_refl 1
    · obtain isIdle | longer := follows
      · exact absurd (isUser.symm.trans isIdle) (by simp)
      · omega

theorem follows_next (follows : scan.Follows last) (message : SessionMessage β) :
    (scan.next boundary message).Follows (if message.skipped then last else some message) := by
  by_cases isSystem : message.role = .system
  · rw [if_pos (message.skipped_iff.mpr isSystem), next_system isSystem]
    exact follows
  · rw [if_neg (mt message.skipped_iff.mp isSystem)]
    by_cases isUser : message.role = .user
    · rw [next_user isUser, Follows]
      simp [isUser]
    · rw [Follows]
      simp only [isUser, if_false]
      cases isPending : scan.user with
      | none =>
        rw [next_idle ⟨isSystem, isUser⟩ isPending]
        exact .inl isPending
      | some user =>
        cases isTerminal : message.isTerminal with
        | true =>
          rw [next_terminal ⟨isSystem, isUser⟩ isPending isTerminal]
          exact .inl rfl
        | false =>
          rw [next_step ⟨isSystem, isUser⟩ isPending isTerminal]
          have := follows.rows_pos isPending
          right
          simp only [List.length_append, List.length_singleton]
          omega

theorem bareUser_of_follows (follows : scan.Follows last) :
    scan.bareUser = last.toList.filter fun row =>
      row.role = .user && (textOf row.content).length > 0 := by
  cases last with
  | none =>
    rw [bareUser, show scan.user = none from follows]
    rfl
  | some row =>
    rw [Follows] at follows
    split at follows
    · rename_i isUser
      rw [bareUser, follows.1, follows.2]
      exact List.filter_congr fun other member => by
        rw [Option.mem_toList.mp member |> Option.some.inj |>.symm]
        simp [isUser]
    · rename_i notUser
      obtain isIdle | longer := follows
      · simp [bareUser, isIdle, notUser]
      · have notOne : ¬scan.rows.length = 1 := by omega
        simp [bareUser, notOne, notUser]

theorem follows_foldl (rows : List (SessionMessage β)) :
    (rows.foldl (next boundary) start).Follows
      (rows.filter fun row => !row.skipped).getLast? := by
  induction rows using List.reverseRecOn with
  | nil => rfl
  | append_singleton rows row ih =>
    rw [List.foldl_append, List.foldl_cons, List.foldl_nil, List.filter_append]
    have follows := @follows_next _ boundary _ _ ih row
    by_cases isSkipped : row.skipped = true
    · simpa [isSkipped] using follows
    · simpa [isSkipped] using follows

theorem foldl_steps
    {steps : List (SessionMessage β)}
    (steps_role : ∀ row ∈ steps,
      row.role = .tool ∨ row.role = .assistant ∧ row.content.any (·.isToolCall) = true)
    {user : SessionMessage β} (isUser : scan.user = some user) :
    steps.foldl (next boundary) scan = { scan with rows := scan.rows ++ steps } := by
  induction steps generalizing scan with
  | nil => simp
  | cons row steps ih =>
    have isOther : row.role ≠ .system ∧ row.role ≠ .user := by
      obtain isTool | ⟨isAssistant, -⟩ := steps_role row List.mem_cons_self
      · simp [isTool]
      · simp [isAssistant]
    have isStep : row.isTerminal = false := by
      obtain isTool | ⟨-, calls⟩ := steps_role row List.mem_cons_self
      · simp [SessionMessage.isTerminal, isTool]
      · simp [SessionMessage.isTerminal, calls]
    have rest := ih (fun other member => steps_role other (List.mem_cons_of_mem _ member))
      (show ({ scan with rows := scan.rows ++ [row] } : HistoryScan β).user = some user
        from isUser)
    rw [List.foldl_cons, next_step isOther isUser isStep, rest]
    simp

theorem foldl_exchange (exchange : CompletedExchange β) (scan : HistoryScan β) :
    exchange.rows.foldl (next boundary) scan =
      { turns :=
          if exchange.user.above boundary then
            scan.turns ++ [exchange.turn
              ((scan.legacyUsers ++ scan.bareUser).filter (·.above boundary))]
          else scan.turns
        user := none
        rows := []
        legacyUsers := [] } := by
  have isOther : exchange.terminal.role ≠ .system ∧ exchange.terminal.role ≠ .user := by
    have isTerminal := exchange.terminal_text
    simp only [SessionMessage.isTerminal, Bool.and_eq_true, decide_eq_true_eq] at isTerminal
    simp [isTerminal.1.1]
  rw [CompletedExchange.rows, List.foldl_cons, next_user exchange.user_role, List.foldl_append,
    foldl_steps exchange.steps_role rfl, List.foldl_cons, List.foldl_nil,
    next_terminal isOther rfl exchange.terminal_text]
  rfl

end HistoryScan

/-! ## A completed turn goes at the end -/

/-- What a resumed session carries on of an exchange. -/
def CompletedExchange.resumable (exchange : CompletedExchange β) : List (SessionMessage β) :=
  exchange.user ::
    (if (textOf exchange.terminal.content).length = 0 then [] else [exchange.terminal])

namespace CompletedExchange

theorem role_ne_system
    (exchange : CompletedExchange β) {row : SessionMessage β} (member : row ∈ exchange.rows) :
    row.role ≠ .system := by
  simp only [rows, List.mem_cons, List.mem_append, List.not_mem_nil, or_false] at member
  obtain rfl | isStep | rfl := member
  · simp [exchange.user_role]
  · obtain isTool | ⟨isAssistant, -⟩ := exchange.steps_role row isStep
    · simp [isTool]
    · simp [isAssistant]
  · have isTerminal := exchange.terminal_text
    simp only [SessionMessage.isTerminal, Bool.and_eq_true, decide_eq_true_eq] at isTerminal
    simp [isTerminal.1.1]

/-- The rows of an exchange come after those of a transcript. -/
def After (exchange : CompletedExchange β)
    (messages : List (SessionMessage β)) : Prop :=
  ∀ row ∈ messages, ∀ other ∈ exchange.rows, row.sequenceNumber < other.sequenceNumber

end CompletedExchange

section Append

variable
  {messages : List (SessionMessage β)}
  {exchange : CompletedExchange β}

theorem orderedRows_exchange (isAfter : exchange.After messages) :
    orderedRows (messages ++ exchange.rows) = orderedRows messages ++ exchange.rows :=
  orderedRows_append isAfter exchange.ordered

theorem boundaryOf_append (isAfter : exchange.After messages) (honorBoundary : Bool) :
    boundaryOf (messages ++ exchange.rows) honorBoundary =
      boundaryOf messages honorBoundary := by
  rw [boundaryOf, boundaryOf, orderedRows_exchange isAfter, dropBoundaryOf_append]
  exact fun row member => SessionMessage.compaction_eq_none (exchange.role_ne_system member)

/-- The projection of a transcript that goes on with an exchange. -/
theorem projectSessionHistory_append (isAfter : exchange.After messages) (honorBoundary : Bool) :
    projectSessionHistory (messages ++ exchange.rows) honorBoundary =
      { turns :=
          if exchange.user.above (boundaryOf messages honorBoundary) then
            (projectSessionHistory messages honorBoundary).turns ++
              [exchange.turn
                ((projectSessionHistory messages honorBoundary).trailingLegacyUsers ++
                  (danglingUser messages).filter (·.above (boundaryOf messages honorBoundary)))]
          else (projectSessionHistory messages honorBoundary).turns
        trailingLegacyUsers := [] } := by
  simp only [projectSessionHistory]
  rw [boundaryOf_append isAfter, orderedRows_exchange isAfter, List.foldl_append,
    HistoryScan.foldl_exchange,
    HistoryScan.bareUser_of_follows (HistoryScan.follows_foldl (orderedRows messages)),
    ← danglingUser, List.filter_append]
  rfl

end Append

/-! ## What a boundary drops -/

namespace HistoryScan

/-- The rows that a scan holds are among those it has read, and its turns are above the
boundary. -/
structure Within (boundary : Int) (read : List (SessionMessage β))
    (scan : HistoryScan β) : Prop where
  user : ∀ user ∈ scan.user, user ∈ read
  legacyUsers : ∀ row ∈ scan.legacyUsers, row ∈ read
  turns : ∀ turn ∈ scan.turns, turn.user ∈ read ∧ turn.user.above boundary = true

theorem within_foldl (boundary : Int) (read : List (SessionMessage β)) :
    Within boundary read (read.foldl (next boundary) start) := by
  induction read using List.reverseRecOn with
  | nil => exact ⟨by simp [start], by simp [start], by simp [start]⟩
  | append_singleton read row ih =>
    rw [List.foldl_append, List.foldl_cons, List.foldl_nil]
    generalize read.foldl (next boundary) start = scan at ih
    obtain ⟨user, legacyUsers, turns⟩ := ih
    have kept : ∀ {other}, other ∈ read → other ∈ read ++ [row] :=
      fun member => List.mem_append_left _ member
    have isRow : row ∈ read ++ [row] := List.mem_append_right _ (List.mem_singleton_self row)
    have same : Within boundary (read ++ [row]) scan :=
      ⟨fun other member => kept (user other member),
        fun other member => kept (legacyUsers other member),
        fun turn member => ⟨kept (turns turn member).1, (turns turn member).2⟩⟩
    by_cases isSystem : row.role = .system
    · rw [next_system isSystem]
      exact same
    · by_cases isUser : row.role = .user
      · rw [next_user isUser]
        refine ⟨by simp, fun other member => ?_, same.turns⟩
        obtain old | bare := List.mem_append.mp member
        · exact kept (legacyUsers other old)
        · exact kept (user other (by simpa using (List.mem_filter.mp bare).1))
      · cases isPending : scan.user with
        | none =>
          rw [next_idle ⟨isSystem, isUser⟩ isPending]
          exact same
        | some pending =>
          have isRead := kept (user pending isPending)
          cases isTerminal : row.isTerminal with
          | false =>
            rw [next_step ⟨isSystem, isUser⟩ isPending isTerminal]
            exact ⟨same.user, same.legacyUsers, same.turns⟩
          | true =>
            rw [next_terminal ⟨isSystem, isUser⟩ isPending isTerminal]
            refine ⟨by simp, by simp, fun turn member => ?_⟩
            simp only at member
            split at member
            · rename_i isAbove
              obtain old | new := List.mem_append.mp member
              · exact same.turns turn old
              · obtain rfl := List.mem_singleton.mp new
                exact ⟨isRead, isAbove⟩
            · exact same.turns turn member

end HistoryScan

/-- Where every row is at the boundary or below, nothing is left. -/
theorem projectSessionHistory_eq_nil
    {messages : List (SessionMessage β)} {honorBoundary : Bool}
    (dropped : ∀ row ∈ messages, row.above (boundaryOf messages honorBoundary) = false) :
    projectSessionHistory messages honorBoundary =
      { turns := [], trailingLegacyUsers := [] } := by
  have within := HistoryScan.within_foldl (boundaryOf messages honorBoundary)
    (orderedRows messages)
  have isDropped : ∀ row ∈ orderedRows messages,
      row.above (boundaryOf messages honorBoundary) = false :=
    fun row member => dropped row ((mem_orderedRows row).mp member)
  have noTurns := List.eq_nil_iff_forall_not_mem.mpr fun turn member => by
    obtain ⟨isRead, isAbove⟩ := within.turns turn member
    rw [isDropped _ isRead] at isAbove
    cases isAbove
  have noLegacy : ((orderedRows messages).foldl
      (HistoryScan.next (boundaryOf messages honorBoundary)) .start).legacyUsers.filter
        (·.above (boundaryOf messages honorBoundary)) = [] := by
    refine List.filter_eq_nil_iff.mpr fun row member => ?_
    rw [isDropped row (within.legacyUsers row member)]
    simp
  simp only [projectSessionHistory]
  rw [noTurns, noLegacy]

/-! ## A completed turn in the resumed history -/

/-- The legacy context that an exchange after these rows comes to stand behind. -/
def legacyContext (messages : List (SessionMessage β))
    (honorBoundary : Bool) : List (SessionMessage β) :=
  (projectSessionHistory messages honorBoundary).trailingLegacyUsers ++
    (danglingUser messages).filter (·.above (boundaryOf messages honorBoundary))

/-- A completed exchange at the end of a transcript is a turn more, above the boundary. -/
theorem completedSessionTurns_append
    {messages : List (SessionMessage β)} {exchange : CompletedExchange β}
    (isAfter : exchange.After messages) {honorBoundary : Bool}
    (isAbove : boundaryOf messages honorBoundary < exchange.user.sequenceNumber) :
    completedSessionTurns (messages ++ exchange.rows) honorBoundary =
      completedSessionTurns messages honorBoundary ++
        [exchange.turn (legacyContext messages honorBoundary)] := by
  rw [completedSessionTurns, projectSessionHistory_append isAfter]
  simp only [SessionMessage.above, isAbove, decide_true, if_true]
  rfl

/-- A completed turn in the history that a session resumes.

Above the boundary the exchange is appended: its user row and, unless it has no text, its
final row.  A user row with text that the transcript ended in comes before it as legacy
context, where without the exchange it was left out.  A boundary at the exchange or above
it leaves nothing, with or without the exchange.  The exchange is one completed turn
more, and it is so whatever the boundary where the boundary is not honoured. -/
theorem resumableSessionMessages_append
    (messages : List (SessionMessage β)) (exchange : CompletedExchange β)
    (isAfter : exchange.After messages) :
    (boundaryOf messages true < exchange.user.sequenceNumber →
      resumableSessionMessages (messages ++ exchange.rows) =
        resumableSessionMessages messages ++
          (danglingUser messages).filter (·.above (boundaryOf messages true)) ++
            exchange.resumable ∧
      completedSessionTurns (messages ++ exchange.rows) true =
        completedSessionTurns messages true ++
          [exchange.turn (legacyContext messages true)]) ∧
    (exchange.user.sequenceNumber ≤ boundaryOf messages true →
      resumableSessionMessages (messages ++ exchange.rows) = [] ∧
      resumableSessionMessages messages = [] ∧
      completedSessionTurns (messages ++ exchange.rows) true = [] ∧
      completedSessionTurns messages true = []) ∧
    completedSessionTurns (messages ++ exchange.rows) false =
      completedSessionTurns messages false ++
        [exchange.turn (legacyContext messages false)] := by
  refine ⟨fun isAbove => ⟨?_, completedSessionTurns_append isAfter isAbove⟩, fun isBelow => ?_,
    completedSessionTurns_append isAfter ?_⟩
  · simp only [resumableSessionMessages, projectSessionHistory_append isAfter,
      SessionMessage.above, isAbove, decide_true, if_true]
    simp [CompletedSessionTurn.resumable, CompletedExchange.resumable, CompletedExchange.turn]
  · have isNil := @projectSessionHistory_eq_nil _ messages true
      fun row member => by
        have isEarlier := isAfter row member exchange.user List.mem_cons_self
        simp only [SessionMessage.above, decide_eq_false_iff_not]
        omega
    have notAbove : exchange.user.above (boundaryOf messages true) = false := by
      simp only [SessionMessage.above, decide_eq_false_iff_not]
      omega
    simp [resumableSessionMessages, completedSessionTurns, projectSessionHistory_append isAfter,
      notAbove, isNil]
  · have isOpen : boundaryOf messages false = -1 := rfl
    omega

/-- A row without a boundary marker. -/
def plainRow (sequenceNumber : Nat) (role : SessionMessageRole) (text : String)
    (isPlain : role ≠ .tool) : SessionMessage Unit where
  id := jsText "row"
  sequenceNumber
  role
  content := [.text (jsText text)]
  compaction := none
  marker_system := nofun
  results_tool := by simp [SessionContentPart.isToolResult, isPlain]
  calls_assistant := by simp [SessionContentPart.isToolCall]

/-- A question and its answer. -/
def answeredQuestion : CompletedExchange Unit where
  user := plainRow 1 .user "and now?" (by decide)
  steps := []
  terminal := plainRow 2 .assistant "yes" (by decide)
  user_role := rfl
  steps_role := by simp
  terminal_text := by decide
  ordered := by decide

/-- A transcript that ends with the question of an unfinished exchange. -/
def unansweredQuestion : List (SessionMessage Unit) :=
  [plainRow 0 .user "hello?" (by decide)]

/-- A transcript with a marker that drops more than there is. -/
def droppedAhead : List (SessionMessage Unit) :=
  [{ plainRow 0 .system "" (by decide) with
     compaction := some 5
     marker_system := fun _ => rfl }]

/-- The question comes back before the next turn. -/
theorem resumableSessionMessages_append_unanswered :
    boundaryOf unansweredQuestion true < answeredQuestion.user.sequenceNumber ∧
    resumableSessionMessages (unansweredQuestion ++ answeredQuestion.rows) =
      resumableSessionMessages unansweredQuestion ++
        (danglingUser unansweredQuestion).filter (·.above (boundaryOf unansweredQuestion true)) ++
          answeredQuestion.resumable :=
  ⟨by decide, ((resumableSessionMessages_append unansweredQuestion answeredQuestion
    (by unfold CompletedExchange.After; decide)).1 (by decide)).1⟩

/-- A row that the transcript ended in does not stay dropped, and a marker may drop rows
that are yet to come. -/
theorem resumableSessionMessages_not_append :
    (answeredQuestion.After unansweredQuestion ∧
      resumableSessionMessages (unansweredQuestion ++ answeredQuestion.rows) ≠
        resumableSessionMessages unansweredQuestion ++ answeredQuestion.resumable) ∧
    answeredQuestion.After droppedAhead ∧
      resumableSessionMessages (droppedAhead ++ answeredQuestion.rows) ≠
        resumableSessionMessages droppedAhead ++ answeredQuestion.resumable := by
  refine ⟨⟨?_, by decide⟩, ?_, by decide⟩
  · unfold CompletedExchange.After
    decide
  · unfold CompletedExchange.After
    decide

end Relavium.Session
