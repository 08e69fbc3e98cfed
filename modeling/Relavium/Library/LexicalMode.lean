import Relavium.Library.Json

/-!
# Lexical modes of an ECMAScript text

Where a text stands after some of its code units: in code, in a comment, in a
string, in a template or in a regular expression.  Whether a solidus may begin a
regular expression is up to the syntactic grammar and given as a predicate of
the text before it.
-/

namespace Relavium.Library

inductive LexMode
  | code
  /-- A solidus was read: a comment may follow, or it divides, or it begins a
  regular expression. -/
  | solidus (regex : Bool)
  | lineComment
  | blockComment
  /-- In a block comment, behind an asterisk. -/
  | blockCommentStar
  | string (quote : UInt16)
  | stringEscape (quote : UInt16)
  /-- Behind an escaped carriage return, whose line feed belongs to it. -/
  | stringReturn (quote : UInt16)
  | template
  | templateEscape
  /-- In a template, behind a dollar sign. -/
  | templateDollar
  | regex
  | regexEscape
  | regexClass
  | regexClassEscape
  deriving DecidableEq

/-- The mode, and for each template that is open around it the number of braces
open in its substitution. -/
structure LexState where
  mode : LexMode
  substitutions : List Nat
  deriving DecidableEq

namespace LexState

/-- LF, CR, LS and PS. -/
def isLineTerminator (unit : UInt16) : Bool :=
  decide (unit.toNat ∈ [0x0A, 0x0D, 0x2028, 0x2029])

/-- The beginning of a text. -/
def initial : LexState where
  mode := .code
  substitutions := []

/-- The same substitutions in another mode. -/
def enter (state : LexState)
    (mode : LexMode) : LexState :=
  { state with mode }

/-- In code; a brace that closes a substitution leads back into its template. -/
def codeStep (regexAllowed : Bool) (state : LexState)
    (unit : UInt16) : LexState :=
  if unit = 0x2F then state.enter (.solidus regexAllowed)
  else if unit = 0x22 ∨ unit = 0x27 then state.enter (.string unit)
  else if unit = 0x60 then state.enter .template
  else
    match state.substitutions with
    | [] => state.enter .code
    | depth :: around =>
      if unit = 0x7B then
        { mode := .code, substitutions := (depth + 1) :: around }
      else if unit = 0x7D then
        match depth with
        | 0 => { mode := .template, substitutions := around }
        | depth + 1 => { mode := .code, substitutions := depth :: around }
      else state.enter .code

/-- In a string, which must end on its line. -/
def stringStep (state : LexState)
    (quote unit : UInt16) : Option LexState :=
  if unit = quote then some (state.enter .code)
  else if unit = 0x5C then some (state.enter (.stringEscape quote))
  else if unit = 0x0A ∨ unit = 0x0D then none
  else some (state.enter (.string quote))

/-- In a template. -/
def templateStep (state : LexState)
    (unit : UInt16) : LexState :=
  if unit = 0x60 then state.enter .code
  else if unit = 0x5C then state.enter .templateEscape
  else if unit = 0x24 then state.enter .templateDollar
  else state.enter .template

/-- In a regular expression, which must end on its line. -/
def regexStep (state : LexState)
    (unit : UInt16) : Option LexState :=
  if isLineTerminator unit then none
  else if unit = 0x2F then some (state.enter .code)
  else if unit = 0x5C then some (state.enter .regexEscape)
  else if unit = 0x5B then some (state.enter .regexClass)
  else some (state.enter .regex)

/-- One more code unit; `none` where no token can go on. -/
def step (regexAllowed : Bool) (state : LexState)
    (unit : UInt16) : Option LexState :=
  match state.mode with
  | .code => some (codeStep regexAllowed state unit)
  | .solidus regex =>
    if unit = 0x2F then some (state.enter .lineComment)
    else if unit = 0x2A then some (state.enter .blockComment)
    else if regex then regexStep state unit
    else some (codeStep regexAllowed state unit)
  | .lineComment =>
    if isLineTerminator unit then some (state.enter .code)
    else some (state.enter .lineComment)
  | .blockComment =>
    if unit = 0x2A then some (state.enter .blockCommentStar)
    else some (state.enter .blockComment)
  | .blockCommentStar =>
    if unit = 0x2F then some (state.enter .code)
    else if unit = 0x2A then some (state.enter .blockCommentStar)
    else some (state.enter .blockComment)
  | .string quote => stringStep state quote unit
  | .stringEscape quote =>
    if unit = 0x0D then some (state.enter (.stringReturn quote))
    else some (state.enter (.string quote))
  | .stringReturn quote =>
    if unit = 0x0A then some (state.enter (.string quote))
    else stringStep state quote unit
  | .template => some (templateStep state unit)
  | .templateEscape => some (state.enter .template)
  | .templateDollar =>
    if unit = 0x7B then
      some { mode := .code, substitutions := 0 :: state.substitutions }
    else some (templateStep state unit)
  | .regex => regexStep state unit
  | .regexEscape =>
    if isLineTerminator unit then none else some (state.enter .regex)
  | .regexClass =>
    if isLineTerminator unit then none
    else if unit = 0x5D then some (state.enter .regex)
    else if unit = 0x5C then some (state.enter .regexClassEscape)
    else some (state.enter .regexClass)
  | .regexClassEscape =>
    if isLineTerminator unit then none else some (state.enter .regexClass)

/-- The state behind `text`, which stands behind `before`. -/
def lexFrom (regexAllowed : JsString → Bool) :
    JsString → LexState → JsString → Option LexState
  | _, state, [] => some state
  | before, state, unit :: text =>
    (state.step (regexAllowed before) unit).bind fun state =>
      lexFrom regexAllowed (before ++ [unit]) state text

/-- The state behind a text; `none` where it is not made of tokens. -/
def lex (regexAllowed : JsString → Bool)
    (text : JsString) : Option LexState :=
  lexFrom regexAllowed [] initial text

/-- The unit is outside of every comment, string and template, or begins one.  A
single-line comment ends before its line terminator. -/
def IsCode (state : LexState)
    (unit : UInt16) : Prop :=
  state.substitutions = [] ∧
    (state.mode = .code ∨
      state.mode = .solidus false ∧ unit ≠ 0x2F ∧ unit ≠ 0x2A ∨
      state.mode = .lineComment ∧ isLineTerminator unit = true)

instance decidableIsCode (state : LexState)
    (unit : UInt16) : Decidable (state.IsCode unit) :=
  inferInstanceAs (Decidable (_ ∧ _))

variable
  {regexAllowed : JsString → Bool}

/-- A text is lexed part by part. -/
theorem lexFrom_append (before : JsString) (state : LexState) (first second : JsString) :
    lexFrom regexAllowed before state (first ++ second) =
      (lexFrom regexAllowed before state first).bind fun state =>
        lexFrom regexAllowed (before ++ first) state second := by
  induction first generalizing before state with
  | nil =>
    rw [List.nil_append, List.append_nil]
    rfl
  | cons unit first ih =>
    rw [List.cons_append, lexFrom, lexFrom, Option.bind_assoc]
    congr 1
    funext next
    rw [ih, List.append_assoc]
    rfl

theorem lex_append (first second : JsString) :
    lex regexAllowed (first ++ second) =
      (lex regexAllowed first).bind fun state =>
        lexFrom regexAllowed first state second :=
  lexFrom_append [] initial first second

variable {state : LexState} {unit : UInt16}

/-- Behind a code unit that begins nothing stands code. -/
theorem IsCode.step_plain
    (code : state.IsCode unit) (noSolidus : unit ≠ 0x2F)
    (noQuote : unit ≠ 0x22 ∧ unit ≠ 0x27 ∧ unit ≠ 0x60) (allowed : Bool) :
    state.step allowed unit = some initial := by
  obtain ⟨noQuote, noApostrophe, noBackquote⟩ := noQuote
  obtain ⟨mode, substitutions⟩ := state
  obtain ⟨rfl, rfl | ⟨rfl, _, noAsterisk⟩ | ⟨rfl, ends⟩⟩ := code
  · simp [step, codeStep, noSolidus, noQuote, noApostrophe, noBackquote, enter, initial]
  · simp [step, codeStep, noSolidus, noAsterisk, noQuote, noApostrophe,
      noBackquote, enter, initial]
  · exact if_pos ends

/-- What begins a comment, a string or a template begins it in code. -/
theorem IsCode.step_eq_codeStep
    (code : state.IsCode unit) (inLine : isLineTerminator unit = false) (allowed : Bool) :
    ∃ regex, state.step allowed unit = some (initial.codeStep regex unit) := by
  obtain ⟨mode, substitutions⟩ := state
  obtain ⟨rfl, rfl | ⟨rfl, noSolidus, noAsterisk⟩ | ⟨rfl, ends⟩⟩ := code
  · exact ⟨allowed, rfl⟩
  · refine ⟨allowed, ?_⟩
    simp only [step, noSolidus, noAsterisk, if_false]
    rfl
  · exact absurd ends (by simp [inLine])

theorem IsCode.step_quote
    (code : state.IsCode unit) (quote : unit = 0x22 ∨ unit = 0x27) (allowed : Bool) :
    state.step allowed unit =
      some { mode := .string unit, substitutions := [] } := by
  have inLine : isLineTerminator unit = false := by
    rcases quote with rfl | rfl <;> rfl
  obtain ⟨regex, stepped⟩ := code.step_eq_codeStep inLine allowed
  rw [stepped]
  rcases quote with rfl | rfl <;> rfl

/-- A template begins at its back quote. -/
theorem IsCode.step_backquote (code : state.IsCode 0x60) (allowed : Bool) :
    state.step allowed 0x60 =
      some { mode := .template, substitutions := [] } := by
  obtain ⟨regex, stepped⟩ := code.step_eq_codeStep rfl allowed
  rw [stepped]
  rfl

/-- A block comment begins at a solidus and an asterisk. -/
theorem IsCode.lexFrom_blockComment (code : state.IsCode 0x2F) (before text : JsString) :
    lexFrom regexAllowed before state (0x2F :: 0x2A :: text) =
      lexFrom regexAllowed (before ++ [0x2F] ++ [0x2A])
        { mode := .blockComment, substitutions := [] } text := by
  obtain ⟨regex, stepped⟩ := code.step_eq_codeStep rfl (regexAllowed before)
  rw [lexFrom, stepped]
  rfl

end LexState
end Relavium.Library
