import Relavium.Expression.LiteralOutputReads
import Relavium.Library.LexicalMode

/-!
# Where literal reads begin

The scan and the lexical grammar go through a text side by side.  They agree
behind every construct but one: the scan lets a single-line comment run up to
the line feed, while the grammar ends it at any line terminator.
-/

namespace Relavium.Expression

open Library
open Library.JsText

/-! ## Literals and block comments -/

section Constructs

variable
  {regexAllowed : JsString → Bool}

variable
  {mode : LexMode}
  {text body rest : JsString}

/-- The grammar comes out of a block comment where the scan does. -/
theorem lexFrom_splitBlockClose
    (split : splitBlockClose text = some (body, rest)) (before : JsString)
    (inside : mode = .blockComment ∨
      mode = .blockCommentStar ∧ text.head? ≠ some solidus) :
    LexState.lexFrom regexAllowed before { mode, substitutions := [] }
        (body ++ [asterisk, solidus]) =
      some .initial := by
  fun_induction splitBlockClose text generalizing body rest before mode with
  | case1 | case2 => cases split
  | case3 unit next others closes =>
    cases split
    rcases inside with rfl | ⟨rfl, _⟩ <;> rfl
  | case4 unit next others noClose ih =>
    obtain ⟨⟨body, rest⟩, deeper, same⟩ := Option.map_eq_some_iff.mp split
    cases same
    obtain ⟨stepped, step, stays⟩ : ∃ stepped,
        LexState.step (regexAllowed before) { mode, substitutions := [] } unit =
          some { mode := stepped, substitutions := [] } ∧
        (stepped = .blockComment ∨ stepped = .blockCommentStar ∧
          (next :: others).head? ≠ some solidus) := by
      by_cases star : unit = asterisk
      · subst star
        refine ⟨.blockCommentStar, ?_, .inr ⟨rfl, ?_⟩⟩
        · rcases inside with rfl | ⟨rfl, _⟩ <;> rfl
        · rintro follows
          exact noClose ⟨rfl, Option.some.inj follows⟩
      · refine ⟨.blockComment, ?_, .inl rfl⟩
        have noStar : unit ≠ 0x2A := star
        rcases inside with rfl | ⟨rfl, noSolidus⟩
        · simp [LexState.step, noStar, LexState.enter]
        · have noSolidus : unit ≠ 0x2F := fun same =>
            noSolidus (congrArg some same)
          simp [LexState.step, noStar, noSolidus, LexState.enter]
    change (LexState.step _ _ unit).bind _ = _
    rw [step]
    exact ih deeper _ stays

variable
  {quote : UInt16}

theorem lexFrom_close
    (isQuote : quote = doubleQuote ∨ quote = singleQuote) (before tail : JsString)
    (inside : mode = .string quote ∨ mode = .stringReturn quote) :
    LexState.lexFrom regexAllowed before { mode, substitutions := [] }
        (quote :: tail) =
      LexState.lexFrom regexAllowed (before ++ [quote]) .initial tail := by
  have closes : LexState.step (regexAllowed before)
      { mode, substitutions := [] } quote = some .initial := by
    rcases isQuote with rfl | rfl <;> rcases inside with rfl | rfl <;> rfl
  rw [LexState.lexFrom, closes, Option.bind_some]

/-- The grammar comes out of a string where the scan does, unless the string
runs over the end of its line. -/
theorem lexFrom_splitLiteral_string
    (isQuote : quote = doubleQuote ∨ quote = singleQuote)
    (split : splitLiteral quote text = some (body, rest)) (before : JsString)
    (inside : mode = .string quote ∨ mode = .stringReturn quote) {state : LexState}
    (lexed : LexState.lexFrom regexAllowed before { mode, substitutions := [] }
      body = some state) :
    state = .initial := by
  fun_induction splitLiteral quote text generalizing body rest before mode with
  | case1 => cases split
  | case2 unit closes =>
    obtain ⟨_, rfl⟩ := closes
    cases split
    rw [lexFrom_close isQuote before [] inside] at lexed
    exact (Option.some.inj lexed).symm
  | case3 => cases split
  | case4 next others ih =>
    obtain ⟨⟨body, rest⟩, deeper, same⟩ := Option.map_eq_some_iff.mp split
    cases same
    have escapes : LexState.step (regexAllowed before)
        { mode, substitutions := [] } backslash =
          some { mode := .stringEscape quote, substitutions := [] } := by
      rcases isQuote with rfl | rfl <;> rcases inside with rfl | rfl <;> rfl
    change (LexState.step _ _ backslash).bind _ = _ at lexed
    rw [escapes, Option.bind_some] at lexed
    change (ite _ _ _ : Option LexState).bind _ = _ at lexed
    split at lexed
    · exact ih deeper _ (.inr rfl) lexed
    · exact ih deeper _ (.inl rfl) lexed
  | case5 => cases split
  | case6 next others noEscape noSubstitution =>
    cases split
    rw [lexFrom_close isQuote before [] inside] at lexed
    exact (Option.some.inj lexed).symm
  | case7 unit next others noEscape noSubstitution noClose ih =>
    obtain ⟨⟨body, rest⟩, deeper, same⟩ := Option.map_eq_some_iff.mp split
    cases same
    change (LexState.step _ _ unit).bind _ = _ at lexed
    obtain ⟨stepped, step, lexed⟩ := Option.bind_eq_some_iff.mp lexed
    have stays : stepped = { mode := .string quote, substitutions := [] } := by
      have noEscape : unit ≠ 0x5C := noEscape
      rcases inside with rfl | rfl
      · simp only [LexState.step, LexState.stringStep, noClose, noEscape, if_false] at step
        split at step
        · cases step
        · exact (Option.some.inj step).symm
      · simp only [LexState.step, LexState.stringStep, noClose, noEscape, if_false] at step
        split at step
        · exact (Option.some.inj step).symm
        split at step
        · cases step
        · exact (Option.some.inj step).symm
    subst stays
    exact ih deeper _ (.inl rfl) lexed

/-- The grammar comes out of a template where the scan does. -/
theorem lexFrom_splitLiteral_template
    (isBackquote : quote = backquote) (split : splitLiteral quote text = some (body, rest))
    (before : JsString)
    (inside : mode = .template ∨
      mode = .templateDollar ∧ text.head? ≠ some openBrace) :
    LexState.lexFrom regexAllowed before { mode, substitutions := [] } body =
      some .initial := by
  fun_induction splitLiteral quote text generalizing body rest before mode with
  | case1 => cases split
  | case2 unit closes =>
    obtain ⟨_, rfl⟩ := closes
    cases split
    subst isBackquote
    rcases inside with rfl | ⟨rfl, _⟩ <;> rfl
  | case3 => cases split
  | case4 next others ih =>
    obtain ⟨⟨body, rest⟩, deeper, same⟩ := Option.map_eq_some_iff.mp split
    cases same
    rcases inside with rfl | ⟨rfl, _⟩
    · exact ih deeper _ (.inl rfl)
    · exact ih deeper _ (.inl rfl)
  | case5 => cases split
  | case6 next others noEscape noSubstitution =>
    cases split
    subst isBackquote
    rcases inside with rfl | ⟨rfl, _⟩ <;> rfl
  | case7 unit next others noEscape noSubstitution noClose ih =>
    obtain ⟨⟨body, rest⟩, deeper, same⟩ := Option.map_eq_some_iff.mp split
    cases same
    subst isBackquote
    obtain ⟨stepped, step, stays⟩ : ∃ stepped,
        LexState.templateStep { mode, substitutions := [] } unit =
          { mode := stepped, substitutions := [] } ∧
        (stepped = .template ∨ stepped = .templateDollar ∧
          (next :: others).head? ≠ some openBrace) := by
      have noEscape : unit ≠ 0x5C := noEscape
      have noClose : unit ≠ 0x60 := noClose
      by_cases isDollar : unit = dollar
      · subst isDollar
        refine ⟨.templateDollar, rfl, .inr ⟨rfl, ?_⟩⟩
        exact fun opens => noSubstitution ⟨rfl, rfl, Option.some.inj opens⟩
      · refine ⟨.template, ?_, .inl rfl⟩
        have isDollar : unit ≠ 0x24 := isDollar
        simp [LexState.templateStep, noClose, noEscape, isDollar, LexState.enter]
    have steps : LexState.step (regexAllowed before)
        { mode, substitutions := [] } unit =
          some { mode := stepped, substitutions := [] } := by
      rcases inside with rfl | ⟨rfl, noBrace⟩
      · exact congrArg some step
      · have noBrace : unit ≠ 0x7B := fun same => noBrace (congrArg some same)
        rw [← step]
        simp [LexState.step, noBrace, LexState.templateStep, LexState.enter]
    rw [LexState.lexFrom, steps, Option.bind_some]
    exact ih deeper _ stays

end Constructs

/-! ## The steps of the scan -/

/-- What one step of the scan passes. -/
inductive MaskEffect (ch : UInt16) (tail : JsString)
    (step : MaskStep) : JsString → Prop
  | lineComment (line : ch = solidus ∧ tail.head? = some solidus) (body : JsString)
      (passed : tail = body ++ step.rest)
      (masked : step.masked = List.replicate (body.length + 1) nul)
      (ends : ∀ unit, step.rest.head? = some unit → unit = lineFeed) :
      MaskEffect ch tail step (ch :: body)
  | blockComment (opens : ch = solidus) (body : JsString)
      (passed : tail = asterisk :: (body ++ [asterisk, solidus]) ++ step.rest)
      (masked : step.masked = List.replicate (body.length + 4) nul)
      (split : splitBlockClose (tail.drop 1) = some (body, step.rest)) :
      MaskEffect ch tail step (ch :: asterisk :: (body ++ [asterisk, solidus]))
  | literal (quote : ch = singleQuote ∨ ch = doubleQuote ∨ ch = backquote) (body : JsString)
      (passed : tail = body ++ step.rest)
      (masked : step.masked = List.replicate (body.length + 1) nul)
      (split : splitLiteral ch tail = some (body, step.rest)) :
      MaskEffect ch tail step (ch :: body)
  | plain (noSolidus : ch ≠ solidus)
      (noQuote : ch ≠ doubleQuote ∧ ch ≠ singleQuote ∧ ch ≠ backquote)
      (passed : step = { masked := [ch], rest := tail }) :
      MaskEffect ch tail step [ch]

theorem eq_of_splitBlockClose
    {text body rest : JsString} (split : splitBlockClose text = some (body, rest)) :
    text = body ++ [asterisk, solidus] ++ rest := by
  fun_induction splitBlockClose text generalizing body rest with
  | case1 | case2 => cases split
  | case3 unit next others closes =>
    obtain ⟨rfl, rfl⟩ := closes
    cases split
    rfl
  | case4 unit next others _ ih =>
    obtain ⟨⟨body, rest⟩, deeper, same⟩ := Option.map_eq_some_iff.mp split
    cases same
    rw [ih deeper]
    rfl

theorem eq_of_splitLiteral
    {quote : UInt16} {text body rest : JsString}
    (split : splitLiteral quote text = some (body, rest)) :
    text = body ++ rest := by
  fun_induction splitLiteral quote text generalizing body rest with
  | case1 => cases split
  | case2 unit closes =>
    cases split
    rfl
  | case3 => cases split
  | case4 next others ih =>
    obtain ⟨⟨body, rest⟩, deeper, same⟩ := Option.map_eq_some_iff.mp split
    cases same
    rw [ih deeper]
    rfl
  | case5 => cases split
  | case6 next others =>
    cases split
    rfl
  | case7 unit next others _ _ _ ih =>
    obtain ⟨⟨body, rest⟩, deeper, same⟩ := Option.map_eq_some_iff.mp split
    cases same
    rw [ih deeper]
    rfl

theorem eq_lineFeed_of_head?_dropWhile
    {text : JsString} {unit : UInt16}
    (first : (text.dropWhile fun unit => unit ≠ lineFeed).head? = some unit) :
    unit = lineFeed := by
  have stopped := List.head?_dropWhile_not (fun unit : UInt16 =>
    decide (unit ≠ lineFeed)) text
  rw [first] at stopped
  simpa using stopped

theorem effect_maskStep
    {ch : UInt16} {tail : JsString} {step : MaskStep} (stepped : maskStep ch tail = some step) :
    ∃ consumed, MaskEffect ch tail step consumed := by
  unfold maskStep at stepped
  dsimp only at stepped
  split at stepped
  next line =>
    cases stepped
    have inLine : ch ≠ lineFeed := by
      rw [line.1]
      decide
    refine ⟨_, .lineComment line (tail.takeWhile fun unit => unit ≠ lineFeed) ?_
      ?_ fun unit => eq_lineFeed_of_head?_dropWhile⟩
    · rw [blank, List.dropWhile_cons_of_pos (by simp [inLine]),
        List.takeWhile_append_dropWhile]
    · rw [blank, List.takeWhile_cons_of_pos (by simp [inLine]), List.length_cons]
  split at stepped
  next line block =>
    obtain ⟨⟨body, rest⟩, found, rfl⟩ := Option.map_eq_some_iff.mp stepped
    obtain ⟨rfl, follows⟩ := block
    obtain ⟨behind, rfl⟩ := List.head?_eq_some_iff.mp follows
    refine ⟨_, .blockComment rfl body ?_ ?_ found⟩
    · rw [List.drop_one, List.tail_cons] at found
      rw [eq_of_splitBlockClose found]
      simp [blank]
    · simp [blank]
  split at stepped
  next => cases stepped
  next noSolidus =>
    split at stepped
    next => cases stepped
    split at stepped
    next quote =>
      obtain ⟨⟨body, rest⟩, found, rfl⟩ := Option.map_eq_some_iff.mp stepped
      exact ⟨_, .literal quote body (eq_of_splitLiteral found) (by simp [blank])
        found⟩
    next noQuote =>
      cases stepped
      obtain ⟨noApostrophe, noDouble, noBackquote⟩ :
          ch ≠ singleQuote ∧ ch ≠ doubleQuote ∧ ch ≠ backquote := by
        simpa [not_or] using noQuote
      exact ⟨_, .plain noSolidus ⟨noDouble, noApostrophe, noBackquote⟩ rfl⟩

namespace MaskEffect

variable
  {regexAllowed : JsString → Bool}
  {ch : UInt16}
  {tail consumed : JsString}
  {step : MaskStep}

theorem passed (effect : MaskEffect ch tail step consumed) :
    ch :: tail = consumed ++ step.rest := by
  cases effect with
  | lineComment _ _ passed _ _ | blockComment _ _ passed _ _ | literal _ _ passed _ _ =>
    exact congrArg (ch :: ·) passed
  | plain _ _ passed =>
    rw [passed]
    rfl

/-- What is passed is blank in the mask, or a single code unit. -/
theorem masked (effect : MaskEffect ch tail step consumed) :
    step.masked = List.replicate consumed.length nul ∨
      consumed = [ch] ∧ step.masked = [ch] := by
  cases effect with
  | lineComment _ _ _ masked _ => exact .inl masked
  | blockComment _ body _ masked _ =>
    refine .inl (masked.trans (congrArg (List.replicate · nul) ?_))
    simp
  | literal _ _ _ masked _ => exact .inl masked
  | plain _ _ passed =>
    rw [passed]
    exact .inr ⟨rfl, rfl⟩

theorem length_masked (effect : MaskEffect ch tail step consumed) :
    step.masked.length = consumed.length := by
  rcases effect.masked with blank | ⟨rfl, single⟩
  · rw [blank, List.length_replicate]
  · rw [single]

/-- Behind a construct that is not a single-line comment stands code, where the
text is made of tokens. -/
theorem lexFrom_consumed
    (effect : MaskEffect ch tail step consumed)
    (noLine : ¬(ch = solidus ∧ tail.head? = some solidus)) {before : JsString}
    {state reached : LexState} (code : state.IsCode ch)
    (lexed : LexState.lexFrom regexAllowed before state consumed = some reached) :
    reached = .initial := by
  cases effect with
  | lineComment line _ _ _ _ => exact absurd line noLine
  | blockComment opens body passed _ split =>
    subst opens
    rw [passed, List.cons_append, List.drop_one, List.tail_cons] at split
    rw [show solidus :: asterisk :: (body ++ [asterisk, solidus]) =
        0x2F :: 0x2A :: (body ++ [asterisk, solidus]) from rfl,
      code.lexFrom_blockComment,
      lexFrom_splitBlockClose split _ (.inl rfl)] at lexed
    exact (Option.some.inj lexed).symm
  | literal quote body _ _ split =>
    rw [LexState.lexFrom] at lexed
    rcases quote with single | double | back
    · rw [code.step_quote (.inr single), Option.bind_some] at lexed
      exact lexFrom_splitLiteral_string (.inr single) split _ (.inl rfl) lexed
    · rw [code.step_quote (.inl double), Option.bind_some] at lexed
      exact lexFrom_splitLiteral_string (.inl double) split _ (.inl rfl) lexed
    · subst back
      rw [show backquote = 0x60 from rfl, LexState.IsCode.step_backquote code,
        Option.bind_some] at lexed
      rw [lexFrom_splitLiteral_template rfl split _ (.inl rfl)] at lexed
      exact (Option.some.inj lexed).symm
  | plain noSolidus noQuote _ =>
    rw [LexState.lexFrom, code.step_plain noSolidus noQuote, Option.bind_some] at lexed
    exact (Option.some.inj lexed).symm

end MaskEffect

/-- Behind a single-line comment the scan resumes at these positions, if there
is something left. -/
def lineCommentEnds : Nat → Nat → JsString → List Nat
  | _, _, [] => []
  | 0, _, _ :: _ => []
  | fuel + 1, index, ch :: tail =>
    match maskStep ch tail with
    | none => []
    | some step =>
      let next := index + step.masked.length
      if ch = solidus ∧ tail.head? = some solidus ∧ step.rest ≠ [] then
        next :: lineCommentEnds fuel next step.rest
      else lineCommentEnds fuel next step.rest

/-! ## Positions -/

section Positions

variable
  (regexAllowed : JsString → Bool)

/-- Behind each single-line comment, where the scan resumes at a line feed, the
grammar stands in code; or the scan is abandoned. -/
def Rejoins (text : JsString) : Prop :=
  (maskLiterals text).isSome →
    ∀ index ∈ lineCommentEnds text.length 0 text,
      ∀ state, LexState.lex regexAllowed (text.take index) = some state →
        state.IsCode lineFeed

/-- What the mask leaves as code is code. -/
def MasksLiterals (text : JsString) : Prop :=
  ∀ mask, maskLiterals text = some mask →
    ∀ index unit, text[index]? = some unit → mask[index]? ≠ some nul →
      ∀ state, LexState.lex regexAllowed (text.take index) = some state →
        state.IsCode unit

variable {regexAllowed}

/-- The scan resumes behind a single-line comment at a line feed. -/
theorem MaskEffect.lineFeed_behind
    {ch : UInt16} {tail consumed : JsString} {step : MaskStep}
    (effect : MaskEffect ch tail step consumed) (line : ch = solidus ∧ tail.head? = some solidus)
    {unit : UInt16} (follows : step.rest.head? = some unit) :
    unit = lineFeed := by
  cases effect with
  | lineComment _ _ _ _ ends => exact ends unit follows
  | blockComment _ _ passed _ _ =>
    rw [passed] at line
    exact absurd (Option.some.inj line.2) (by decide)
  | literal quote _ _ _ _ =>
    rw [line.1] at quote
    exact absurd quote (by decide)
  | plain noSolidus _ _ => exact absurd line.1 noSolidus

/-- The scan goes on where the grammar stands in code, too, unless a
single-line comment came to its end before. -/
theorem MaskEffect.code_behind
    {before tail consumed : JsString} {ch : UInt16} {step : MaskStep}
    (effect : MaskEffect ch tail step consumed)
    (entry : ∀ state, LexState.lex regexAllowed before = some state →
      state.IsCode ch)
    (rejoins : ch = solidus ∧ tail.head? = some solidus → step.rest ≠ [] →
      ∀ state, LexState.lex regexAllowed (before ++ consumed) = some state →
        state.IsCode lineFeed)
    (unit : UInt16)
    (follows : step.rest.head? = some unit)
    (state : LexState)
    (lexed : LexState.lex regexAllowed (before ++ consumed) = some state) :
    state.IsCode unit := by
  by_cases line : ch = solidus ∧ tail.head? = some solidus
  · have left : step.rest ≠ [] := by
      rintro empty
      rw [empty] at follows
      cases follows
    obtain rfl := effect.lineFeed_behind line follows
    exact rejoins line left state lexed
  · rw [LexState.lex_append] at lexed
    obtain ⟨earlier, begins, lexed⟩ := Option.bind_eq_some_iff.mp lexed
    rw [effect.lexFrom_consumed line (entry earlier begins) lexed]
    exact ⟨rfl, .inl rfl⟩

/-- Where the scan stands in code with the grammar, the rest of its mask is
right if the comments that are left rejoin. -/
theorem masked_code
    {fuel : Nat} {before rest mask : JsString} (masked : maskFrom fuel rest = some mask)
    (entry : ∀ unit, rest.head? = some unit →
      ∀ state, LexState.lex regexAllowed before = some state →
        state.IsCode unit)
    (rejoins : ∀ index ∈ lineCommentEnds fuel before.length rest,
      ∀ state, LexState.lex regexAllowed ((before ++ rest).take index) =
        some state → state.IsCode lineFeed)
    {index : Nat}
    {unit : UInt16}
    (present : rest[index]? = some unit)
    (unmasked : mask[index]? ≠ some nul)
    {state : LexState}
    (lexed : LexState.lex regexAllowed (before ++ rest.take index) = some state) :
    state.IsCode unit := by
  induction fuel generalizing before rest mask index with
  | zero =>
    cases rest with
    | nil => cases present
    | cons => cases masked
  | succ fuel ih =>
    cases rest with
    | nil => cases present
    | cons ch tail =>
      rw [maskFrom] at masked
      obtain ⟨step, stepped, continued⟩ := Option.bind_eq_some_iff.mp masked
      obtain ⟨others, deeper, rfl⟩ := Option.map_eq_some_iff.mp continued
      obtain ⟨consumed, effect⟩ := effect_maskStep stepped
      have passed := effect.passed
      have length := effect.length_masked
      rw [passed] at present lexed
      by_cases within : index < consumed.length
      · rcases effect.masked with blank | ⟨rfl, single⟩
        · refine absurd ?_ unmasked
          rw [List.getElem?_append_left (length ▸ within), blank,
            List.getElem?_replicate, if_pos within]
        · obtain rfl : index = 0 := Nat.lt_one_iff.mp within
          obtain rfl : ch = unit := Option.some.inj present
          rw [List.take_zero, List.append_nil] at lexed
          exact entry ch rfl state lexed
      · obtain ⟨later, rfl⟩ := Nat.exists_eq_add_of_le (Nat.le_of_not_lt within)
        have next : before.length + step.masked.length =
            (before ++ consumed).length := by
          rw [List.length_append, length]
        have whole : before ++ ch :: tail =
            before ++ consumed ++ step.rest := by
          rw [passed, List.append_assoc]
        rw [lineCommentEnds, stepped] at rejoins
        dsimp only at rejoins
        rw [next, whole] at rejoins
        have entryBehind := effect.code_behind (entry ch rfl) <| by
          intro line left
          have atEnd := rejoins (before ++ consumed).length (by
            rw [if_pos ⟨line.1, line.2, left⟩]
            exact List.mem_cons_self)
          rwa [List.take_left] at atEnd
        have rejoinsBehind := fun index listed => rejoins index (by
          split
          · exact List.mem_cons_of_mem _ listed
          · exact listed)
        rw [List.getElem?_append_right (Nat.le_add_right _ _), Nat.add_sub_cancel_left] at present
        rw [← length, List.getElem?_append_right (Nat.le_add_right _ _),
          Nat.add_sub_cancel_left] at unmasked
        rw [List.take_length_add_append, ← List.append_assoc] at lexed
        exact ih deeper entryBehind rejoinsBehind present unmasked lexed

theorem maskFrom_lineFeed
    {fuel : Nat} {tail mask : JsString} (masked : maskFrom fuel (lineFeed :: tail) = some mask) :
    mask[0]? = some lineFeed := by
  cases fuel with
  | zero => cases masked
  | succ fuel =>
    rw [maskFrom] at masked
    obtain ⟨step, stepped, continued⟩ := Option.bind_eq_some_iff.mp masked
    obtain ⟨others, _, rfl⟩ := Option.map_eq_some_iff.mp continued
    obtain ⟨consumed, effect⟩ := effect_maskStep stepped
    cases effect with
    | lineComment line _ _ _ _ => exact absurd line.1 (by decide)
    | blockComment opens _ _ _ _ => exact absurd opens (by decide)
    | literal quote _ _ _ _ => exact absurd quote (by decide)
    | plain _ _ passed =>
      rw [passed]
      rfl

/-- Where the scan resumes behind a single-line comment, the text and the mask
have a line feed. -/
theorem lineFeed_of_mem_lineCommentEnds
    {fuel start : Nat} {rest mask : JsString} (masked : maskFrom fuel rest = some mask)
    {index : Nat} (listed : index ∈ lineCommentEnds fuel start rest) :
    ∃ later, index = start + later ∧ rest[later]? = some lineFeed ∧
      mask[later]? = some lineFeed := by
  induction fuel generalizing start rest mask with
  | zero =>
    cases rest with
    | nil => cases listed
    | cons => cases masked
  | succ fuel ih =>
    cases rest with
    | nil => cases listed
    | cons ch tail =>
      rw [maskFrom] at masked
      obtain ⟨step, stepped, continued⟩ := Option.bind_eq_some_iff.mp masked
      obtain ⟨others, deeper, rfl⟩ := Option.map_eq_some_iff.mp continued
      obtain ⟨consumed, effect⟩ := effect_maskStep stepped
      have passed := effect.passed
      have length := effect.length_masked
      have shifted : ∀ later, (ch :: tail)[step.masked.length + later]? =
            step.rest[later]? ∧
          (step.masked ++ others)[step.masked.length + later]? =
            others[later]? := by
        intro later
        constructor
        · rw [passed, length, List.getElem?_append_right (Nat.le_add_right _ _),
            Nat.add_sub_cancel_left]
        · rw [List.getElem?_append_right (Nat.le_add_right _ _), Nat.add_sub_cancel_left]
      have behind : index ∈ lineCommentEnds fuel
            (start + step.masked.length) step.rest →
          ∃ later, index = start + later ∧
            (ch :: tail)[later]? = some lineFeed ∧
            (step.masked ++ others)[later]? = some lineFeed := by
        intro listed
        obtain ⟨later, rfl, present, marked⟩ :=
          ih deeper listed
        exact ⟨step.masked.length + later, Nat.add_assoc .., (shifted
          later).1.trans present, (shifted later).2.trans marked⟩
      rw [lineCommentEnds, stepped] at listed
      dsimp only at listed
      split at listed
      next ended =>
        rcases List.mem_cons.mp listed with rfl | listed
        · obtain ⟨solidi, follows, left⟩ := ended
          obtain ⟨unit, behind, split⟩ := List.exists_cons_of_ne_nil left
          obtain rfl := effect.lineFeed_behind ⟨solidi, follows⟩ (congrArg List.head? split)
          have here := shifted 0
          rw [Nat.add_zero, split] at here
          rw [split] at deeper
          exact ⟨step.masked.length, rfl, here.1, here.2.trans (maskFrom_lineFeed deeper)⟩
        · exact behind listed
      next => exact behind listed

/-- The mask is right exactly where the comments rejoin. -/
theorem rejoins_iff_masksLiterals (text : JsString) :
    Rejoins regexAllowed text ↔ MasksLiterals regexAllowed text := by
  constructor
  · intro rejoins mask masked index unit present unmasked state lexed
    refine @masked_code regexAllowed _ [] _ _ masked ?_ ?_ _ _ present unmasked _ lexed
    · intro first _ state begins
      cases begins
      exact ⟨rfl, .inl rfl⟩
    · exact rejoins (masked ▸ rfl)
  · intro masks abandoned index listed state lexed
    obtain ⟨mask, masked⟩ := Option.isSome_iff_exists.mp abandoned
    obtain ⟨later, rfl, present, marked⟩ :=
      lineFeed_of_mem_lineCommentEnds masked listed
    rw [Nat.zero_add] at lexed
    refine masks mask masked later lineFeed present ?_ state lexed
    rw [marked]
    decide

end Positions

/-! ## Reads -/

section Reads

variable
  {idContinue : Nat → Bool}
  {mask : JsString}

theorem unmasked_foldl_collectAccess
    {form : ReadForm} (accesses : List (Nat × JsString)) {found : List FoundRead}
    (unmasked : ∀ read ∈ found, mask[read.index]? ≠ some nul) :
    ∀ read ∈ accesses.foldl (collectAccess idContinue mask form) found,
      mask[read.index]? ≠ some nul := by
  induction accesses generalizing found with
  | nil => exact unmasked
  | cons access rest ih =>
    refine ih fun read listed => ?_
    unfold collectAccess at listed
    split at listed
    next accepted =>
      rcases List.mem_append.mp listed with earlier | added
      · exact unmasked read earlier
      · obtain rfl := List.mem_singleton.mp added
        exact accepted.2.1
    next => exact unmasked read listed

theorem unmasked_of_mem_foundReads
    {expression : JsString} {found : FoundRead}
    (listed : found ∈ foundReads idContinue expression) :
    ∃ mask, maskLiterals expression = some mask ∧
      mask[found.index]? ≠ some nul := by
  unfold foundReads at listed
  split at listed
  next => cases listed
  next mask masked =>
    split at listed
    · cases listed
    · exact ⟨mask, masked, unmasked_foldl_collectAccess _
        (unmasked_foldl_collectAccess _ (by simp)) found listed⟩

end Reads

/-- Every read that is reported begins in code, where the text before it is made
of tokens. -/
def ReadsInCode (idContinue : Nat → Bool) (regexAllowed : JsString → Bool)
    (expression : JsString) : Prop :=
  ∀ found ∈ foundReads idContinue expression,
    ∀ unit, expression[found.index]? = some unit →
      ∀ state,
        LexState.lex regexAllowed (expression.take found.index) = some state →
          state.IsCode unit

/-- The mask is right exactly where the scan resumes in code behind every
single-line comment; every read then begins in code. -/
theorem literal_reads_begin_in_code
    (idContinue : Nat → Bool) (regexAllowed : JsString → Bool) (expression : JsString) :
    (Rejoins regexAllowed expression ↔ MasksLiterals regexAllowed expression) ∧
      (Rejoins regexAllowed expression →
        ReadsInCode idContinue regexAllowed expression) := by
  refine ⟨rejoins_iff_masksLiterals expression, ?_⟩
  intro rejoins found listed unit present state lexed
  obtain ⟨mask, masked, unmasked⟩ := unmasked_of_mem_foundReads listed
  exact (rejoins_iff_masksLiterals expression).mp rejoins mask masked found.index
    unit present unmasked state lexed

/-- The comment of the first line ends at its carriage return, and the read
stands in the template that begins behind it. -/
theorem literal_read_in_template :
    ¬∀ expression, ReadsInCode asciiContinue (fun _ => false) expression := by
  intro readsInCode
  have found := readsInCode (jsText "//\r`\nrun.outputs.gate//`")
    { read := { id := jsText "gate", form := .dot }, index := 5 }
    (by decide) 0x72 (by decide)
    { mode := .template, substitutions := [] } (by decide)
  exact absurd found (by decide)

/-- A comment that ends with its line rejoins. -/
theorem literal_reads_begin_in_code_comment :
    let expression := jsText "'a' // b\nrun.outputs.gate"
    ReadsInCode asciiContinue (fun _ => false) expression ∧
      (foundReads asciiContinue expression).map FoundRead.index = [9] := by
  refine ⟨(literal_reads_begin_in_code asciiContinue (fun _ => false) _).2 ?_, by decide⟩
  intro _ index listed state lexed
  have ends : lineCommentEnds (jsText "'a' // b\nrun.outputs.gate").length 0
      (jsText "'a' // b\nrun.outputs.gate") = [8] := by
    decide
  rw [ends, List.mem_singleton] at listed
  subst listed
  have reached : LexState.lex (fun _ => false)
      ((jsText "'a' // b\nrun.outputs.gate").take 8) =
        some { mode := .lineComment, substitutions := [] } := by
    decide
  rw [reached] at lexed
  cases lexed
  decide

end Relavium.Expression
