import Mathlib.Data.Prod.Basic

/-!
# Transactions

Statements that run one after another against tables.  A statement may refuse,
which ends the sequence and leaves behind what the earlier statements wrote; a
transaction around them keeps the writes only when none of them refused.
-/

namespace Relavium.Library

/-- A sequence of statements: what it answers or why it refused, with the tables
as it left them. -/
def Statements (tables refusal answer : Type)
    : Type :=
  tables → Except refusal answer × tables

/-- A fault of the store during a write: the write is lost, or only its
acknowledgement is. -/
inductive WriteFault
  | none
  | beforeCommit
  | afterCommit
  deriving DecidableEq

namespace Statements

/-- Runs one sequence and then the one that its answer selects. -/
def andThen (first : Statements τ ε α)
    (next : α → Statements τ ε β) : Statements τ ε β :=
  fun tables =>
    match first tables with
    | (.ok answer, written) => next answer written
    | (.error refusal, written) => (.error refusal, written)

instance : Monad (Statements τ ε) where
  pure answer := fun tables => (.ok answer, tables)
  bind := andThen

instance : LawfulMonad (Statements τ ε) :=
  LawfulMonad.mk' _
    (fun statements => by
      funext tables
      change andThen statements _ tables = statements tables
      unfold andThen
      cases ran : statements tables with
      | mk outcome written => cases outcome <;> rfl)
    (fun _ _ => rfl)
    (fun first next last => by
      funext tables
      change andThen (andThen first next) last tables =
        andThen first (fun answer => andThen (next answer) last) tables
      unfold andThen
      cases ran : first tables with
      | mk outcome written => cases outcome <;> rfl)

/-- Reads from the tables. -/
def select (read : τ → α) : Statements τ ε α :=
  fun tables => (.ok (read tables), tables)

/-- Writes to the tables. -/
def update (write : τ → τ) : Statements τ ε Unit :=
  fun tables => (.ok (), write tables)

/-- Writes to the tables, and answers what was written. -/
def modifyGet (write : τ → α × τ) : Statements τ ε α :=
  fun tables => (.ok (write tables).1, (write tables).2)

/-- Refuses. -/
def refuse (refusal : ε) : Statements τ ε α :=
  fun tables => (.error refusal, tables)

/-- Refuses unless the condition holds. -/
def require (condition : Prop) [Decidable condition]
    (refusal : ε) : Statements τ ε Unit :=
  if condition then pure () else refuse refusal

/-- Answers or refuses as a check did. -/
def ofExcept (checked : Except ε α) : Statements τ ε α :=
  fun tables => (checked, tables)

/-- Runs one sequence, and another in place of a refusal.  What the first one
wrote stays. -/
def tryCatch (statements : Statements τ ε α)
    (handle : ε → Statements τ ε α) : Statements τ ε α :=
  fun tables =>
    match statements tables with
    | (.ok answer, written) => (.ok answer, written)
    | (.error refusal, written) => handle refusal written

/-- Runs a sequence, and writes once more however it ended. -/
def ensuring (statements : Statements τ ε α)
    (write : τ → τ) : Statements τ ε α :=
  fun tables => ((statements tables).1, write (statements tables).2)

/-- The sequence answered and left the tables as given. -/
def Commits (statements : Statements τ ε α) (before : τ) (answer : α)
    (after : τ) : Prop :=
  statements before = (.ok answer, after)

@[simp] theorem commits_pure {answer given : α} {before after : τ} :
    Commits (pure given : Statements τ ε α) before answer after ↔
      given = answer ∧ before = after := by
  simp [Commits, pure]

variable
  {answer : α}

@[simp] theorem commits_select {read : τ → α} {before after : τ} :
    Commits (select read : Statements τ ε α) before answer after ↔
      read before = answer ∧ before = after := by
  simp [Commits, select]

@[simp] theorem commits_update {write : τ → τ} {answer : Unit} {before after : τ} :
    Commits (update write : Statements τ ε Unit) before answer after ↔
      write before = after := by
  simp [Commits, update]

@[simp] theorem commits_modifyGet {write : τ → α × τ} {before after : τ} :
    Commits (modifyGet write : Statements τ ε α) before answer after ↔
      write before = (answer, after) := by
  simp [Commits, modifyGet, Prod.ext_iff]

variable
  {refusal : ε}

@[simp] theorem commits_refuse {before after : τ} :
    ¬Commits (refuse refusal : Statements τ ε α) before answer after := by
  simp [Commits, refuse]

@[simp] theorem commits_require
    {condition : Prop} [Decidable condition] {answer : Unit} {before after : τ} :
    Commits (require condition refusal : Statements τ ε Unit)
        before answer after ↔
      condition ∧ before = after := by
  unfold require
  split
  · next holds => simp [holds]
  · next fails => simp [fails]

@[simp] theorem commits_ofExcept {checked : Except ε α} {before after : τ} :
    Commits (ofExcept checked : Statements τ ε α) before answer after ↔
      checked = .ok answer ∧ before = after := by
  simp [Commits, ofExcept]

variable
  {statements : Statements τ ε α}
  {before after : τ}

@[simp] theorem commits_tryCatch {handle : ε → Statements τ ε α} {answer : α} :
    Commits (tryCatch statements handle) before answer after ↔
      Commits statements before answer after ∨
        ∃ refusal middle,
          statements before = (.error refusal, middle) ∧
            Commits (handle refusal) middle answer after := by
  unfold Commits tryCatch
  cases ran : statements before with
  | mk outcome written =>
    cases outcome with
    | error refusal =>
      constructor
      · intro handled
        exact .inr ⟨refusal, written, rfl, handled⟩
      · rintro (answered | ⟨_, _, refused, handled⟩)
        · exact absurd (Prod.mk.inj answered).1 (by simp)
        · cases refused
          exact handled
    | ok given => simp

/-- A sequence commits when its parts do, one after another. -/
@[simp] theorem commits_bind
    {first : Statements τ ε α} {next : α → Statements τ ε β} {answer : β} :
    Commits (first >>= next) before answer after ↔
      ∃ given middle, Commits first before given middle ∧
        Commits (next given) middle answer after := by
  constructor
  · intro commits
    unfold Commits at commits ⊢
    rw [show (first >>= next) before = andThen first next before from rfl, andThen] at commits
    cases ran : first before with
    | mk outcome written =>
      rw [ran] at commits
      cases outcome with
      | error refusal => simp at commits
      | ok given => exact ⟨given, written, rfl, commits⟩
  · rintro ⟨given, middle, firstCommits, nextCommits⟩
    unfold Commits at *
    rw [show (first >>= next) before = andThen first next before from rfl, andThen, firstCommits]
    exact nextCommits

/-! ## What a sequence leaves alone -/

/-- A sequence that commits leaves a view of the tables as it was. -/
def Keeps (view : τ → β)
    (statements : Statements τ ε α) : Prop :=
  ∀ before answer after, Commits statements before answer after →
    view after = view before

namespace Keeps

variable
  {view : τ → β}

theorem pure {answer : α} :
    Keeps view (Pure.pure answer : Statements τ ε α) := by
  intro before given after commits
  rw [(commits_pure.mp commits).2]

theorem select {read : τ → α} :
    Keeps view (Statements.select read : Statements τ ε α) := by
  intro before answer after commits
  rw [(commits_select.mp commits).2]

theorem require {condition : Prop} [Decidable condition] {refusal : ε} :
    Keeps view (Statements.require condition refusal : Statements τ ε Unit) := by
  intro before answer after commits
  rw [(commits_require.mp commits).2]

theorem update {write : τ → τ} (keeps : ∀ tables, view (write tables) = view tables) :
    Keeps view (Statements.update write : Statements τ ε Unit) := by
  intro before answer after commits
  rw [← commits_update.mp commits]
  exact keeps before

theorem bind
    {view : τ → γ} {first : Statements τ ε α} {next : α → Statements τ ε β}
    (firstKeeps : Keeps view first) (nextKeeps : ∀ answer, Keeps view (next answer)) :
    Keeps view (first >>= next) := by
  intro before answer after commits
  obtain ⟨given, middle, firstCommits, nextCommits⟩ := commits_bind.mp commits
  exact (nextKeeps given _ _ _ nextCommits).trans (firstKeeps _ _ _ firstCommits)

theorem ofExcept {checked : Except ε α} :
    Keeps view (Statements.ofExcept checked : Statements τ ε α) := by
  intro before answer after commits
  rw [(commits_ofExcept.mp commits).2]

end Keeps

/-- A refusal comes before every write. -/
def RefusesCleanly (statements : Statements τ ε α) : Prop :=
  ∀ before refusal after,
    statements before = (.error refusal, after) → after = before

namespace RefusesCleanly

theorem select {read : τ → α} :
    RefusesCleanly (Statements.select read : Statements τ ε α) :=
  fun _ _ _ refused => absurd (Prod.mk.inj refused).1 (by simp)

theorem refuse {refusal : ε} :
    RefusesCleanly (Statements.refuse refusal : Statements τ ε α) :=
  fun _ _ _ refused => (Prod.mk.inj refused).2.symm

theorem ofExcept {checked : Except ε α} :
    RefusesCleanly (Statements.ofExcept checked : Statements τ ε α) :=
  fun _ _ _ refused => (Prod.mk.inj refused).2.symm

/-- After statements that only read, the rest may refuse. -/
theorem bind
    {first : Statements τ ε α} {next : α → Statements τ ε β} (firstReads : Keeps id first)
    (firstCleanly : RefusesCleanly first) (nextCleanly : ∀ answer, RefusesCleanly (next answer)) :
    RefusesCleanly (first >>= next) := by
  intro before refusal after refused
  rw [show (first >>= next) before = andThen first next before from rfl, andThen] at refused
  cases ran : first before with
  | mk outcome written =>
    rw [ran] at refused
    cases outcome with
    | error stopped =>
      obtain rfl := (Prod.mk.inj refused).2
      exact firstCleanly before stopped _ ran
    | ok answer =>
      obtain rfl : written = before := firstReads before answer written ran
      exact nextCleanly answer _ refusal after refused

/-- Answering after a sequence refuses when the sequence does. -/
theorem bind_pure
    {first : Statements τ ε α} {given : α → β} (firstCleanly : RefusesCleanly first) :
    RefusesCleanly (first >>= fun answer => Pure.pure (given answer)) := by
  intro before refusal after refused
  rw [show (first >>= fun answer => Pure.pure (given answer)) before =
    andThen first (fun answer => Pure.pure (given answer)) before from rfl,
    andThen] at refused
  cases ran : first before with
  | mk outcome written =>
    rw [ran] at refused
    cases outcome with
    | error stopped =>
      obtain rfl := (Prod.mk.inj refused).2
      exact firstCleanly before stopped _ ran
    | ok answer => exact absurd (Prod.mk.inj refused).1 (by simp)

end RefusesCleanly

/-! ## Transactions -/

/-- The transaction around a sequence: a refusal undoes everything it wrote. -/
def transaction (statements : Statements τ ε α)
    (tables : τ) : Except ε α × τ :=
  match statements tables with
  | (.ok answer, written) => (.ok answer, written)
  | (.error refusal, _) => (.error refusal, tables)

/-- A transaction under a fault, with the answer that reaches its caller. -/
def transactionUnder (fault : WriteFault) (statements : Statements τ ε α)
    (tables : τ) : Option (Except ε α) × τ :=
  match fault with
  | .none =>
    (some (transaction statements tables).1, (transaction statements tables).2)
  | .beforeCommit => (none, tables)
  | .afterCommit => (none, (transaction statements tables).2)

/-- A transaction answers when its statements commit. -/
theorem transaction_ok_iff {answer : α} :
    transaction statements before = (.ok answer, after) ↔
      Commits statements before answer after := by
  unfold transaction Commits
  cases ran : statements before with
  | mk outcome written =>
    cases outcome with
    | error refusal | ok given => simp

/-- A refused transaction leaves the tables as they were. -/
theorem tables_of_transaction_error
    (refused : transaction statements before = (.error refusal, after)) :
    after = before := by
  unfold transaction at refused
  cases ran : statements before with
  | mk outcome written =>
    rw [ran] at refused
    cases outcome with
    | error given => exact (Prod.mk.inj refused).2.symm
    | ok given => simp at refused

theorem tables_transaction (statements : Statements τ ε α) (tables : τ) :
    (transaction statements tables).2 = tables ∨
      ∃ answer, Commits statements tables answer (transaction statements tables).2 := by
  cases ran : transaction statements tables with
  | mk outcome written =>
    cases outcome with
    | error refusal => exact .inl (tables_of_transaction_error ran)
    | ok answer => exact .inr ⟨answer, transaction_ok_iff.mp ran⟩

/-- A faulty transaction leaves the tables alone or as its statements committed
them. -/
theorem tables_transactionUnder
    (fault : WriteFault) (statements : Statements τ ε α) (tables : τ) :
    (transactionUnder fault statements tables).2 = tables ∨
      ∃ answer,
        Commits statements tables answer (transactionUnder fault statements tables).2 := by
  cases fault with
  | none => exact tables_transaction statements tables
  | beforeCommit => exact .inl rfl
  | afterCommit => exact tables_transaction statements tables

/-- An answer that reaches the caller is that of a committed transaction. -/
theorem commits_of_transactionUnder
    {fault : WriteFault} {tables : τ}
    (answered : (transactionUnder fault statements tables).1 = some (.ok answer)) :
    Commits statements tables answer (transactionUnder fault statements tables).2 := by
  cases fault with
  | none =>
    exact transaction_ok_iff.mp (Prod.ext (Option.some.inj answered) rfl)
  | beforeCommit | afterCommit => exact absurd answered (by simp [transactionUnder])

end Statements
end Relavium.Library
