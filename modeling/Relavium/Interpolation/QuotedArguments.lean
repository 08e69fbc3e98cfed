import Relavium.Interpolation.References

/-!
# Quoted arguments

What is quoted in a filter argument passes the scanners unread: within the
quotes neither a close, nor a pipe, nor a comma ends anything.  Decoding then
takes the escapes off again.
-/

namespace Relavium.Interpolation

open Library
open Library.JsText

/-! ## The scanners -/

namespace ScanState

/-- The scanner passes the text without meeting the delimiter at the top level. -/
def Passes
    (delim : UInt16) : ScanState → JsString → Prop
  | _, [] => True
  | state, unit :: rest =>
    (state.topLevel = true → unit ≠ delim) ∧ Passes delim (state.step unit) rest

instance decidablePasses (delim : UInt16) : ∀ state text, Decidable (Passes delim state text)
  | _, [] => .isTrue trivial
  | state, unit :: rest =>
    have := decidablePasses delim (state.step unit) rest
    inferInstanceAs (Decidable (_ ∧ _))

/-- The state after a text. -/
def after (state : ScanState)
    (text : JsString) : ScanState :=
  text.foldl step state

@[simp] theorem after_append (state : ScanState) (first second : JsString) :
    state.after (first ++ second) = (state.after first).after second :=
  List.foldl_append

theorem passes_append
    {delim : UInt16} {state : ScanState} {first second : JsString}
    (passesFirst : Passes delim state first)
    (passesSecond : Passes delim (state.after first) second) :
    Passes delim state (first ++ second) := by
  induction first generalizing state with
  | nil => exact passesSecond
  | cons unit rest ih =>
    exact ⟨passesFirst.1, ih passesFirst.2 passesSecond⟩

end ScanState

open ScanState

/-- A text that the scanner passes stands before the first close. -/
theorem findClose_append
    {state : ScanState} {text : JsString} (passes : Passes closeBrace state text)
    (rest : JsString) :
    findClose state (text ++ rest) =
      (findClose (state.after text) rest).map fun found =>
        (text ++ found.1, found.2) := by
  induction text generalizing state with
  | nil =>
    change findClose state rest = (findClose state rest).map id
    rw [Option.map_id_apply]
  | cons unit text ih =>
    have follows := ih passes.2
    cases behind : text ++ rest with
    | nil =>
      obtain ⟨rfl, rfl⟩ := List.append_eq_nil_iff.mp behind
      rfl
    | cons next others =>
      rw [List.cons_append, behind, findClose, if_neg, ← behind, follows, Option.map_map]
      · rfl
      · rintro ⟨top, close, _⟩
        exact passes.1 top close

/-- A text that the scanner passes joins the current piece. -/
theorem splitFrom_append
    {delim : UInt16} {state : ScanState} {text : JsString} (passes : Passes delim state text)
    (buf rest : JsString) :
    splitFrom delim state buf (text ++ rest) =
      splitFrom delim (state.after text) (buf ++ text) rest := by
  induction text generalizing state buf with
  | nil =>
    rw [List.append_nil]
    rfl
  | cons unit text ih =>
    rw [List.cons_append, splitFrom, if_neg, ih passes.2, List.append_assoc]
    · rfl
    · rintro ⟨top, delimits⟩
      exact passes.1 top delimits

/-! ## Escapes -/

/-- The text with every backslash doubled and every quote preceded by one. -/
def escapeArg (quote : UInt16)
    (text : JsString) : JsString :=
  text.flatMap fun unit =>
    if unit = backslash ∨ unit = quote then [backslash, unit] else [unit]

/-- The argument between its quotes. -/
def quotedArg (quote : UInt16)
    (text : JsString) : JsString :=
  quote :: (escapeArg quote text ++ [quote])

section Escapes

variable {quote : UInt16}

theorem escapeArg_cons (unit : UInt16) (text : JsString) :
    escapeArg quote (unit :: text) =
      (if unit = backslash ∨ unit = quote then [backslash, unit] else [unit]) ++
        escapeArg quote text :=
  List.flatMap_cons

theorem decodeQuotedArg_cons {unit : UInt16} (plain : unit ≠ backslash) (rest : JsString) :
    decodeQuotedArg quote (unit :: rest) = unit :: decodeQuotedArg quote rest := by
  cases rest with
  | nil => rfl
  | cons next rest =>
    rw [decodeQuotedArg, if_neg]
    exact fun escape => plain escape.1

/-- Decoding takes the escapes off. -/
theorem decodeQuotedArg_escapeArg (text : JsString) :
    decodeQuotedArg quote (escapeArg quote text) = text := by
  induction text with
  | nil => rfl
  | cons unit text ih =>
    rw [escapeArg_cons]
    split
    next special =>
      rw [List.cons_append, List.singleton_append, decodeQuotedArg,
        if_pos ⟨rfl, special.symm⟩, ih]
    next plain =>
      rw [List.singleton_append, decodeQuotedArg_cons (fun same => plain (.inl same)), ih]

/-- A quoted scanner comes out of an escaped text as it went in, and nothing in
the text ends anything. -/
theorem passes_escapeArg (delim : UInt16) (depth : Nat) (text : JsString) :
    let state : ScanState := { quote := some quote, depth, escaped := false }
    Passes delim state (escapeArg quote text) ∧
      state.after (escapeArg quote text) = state := by
  intro state
  have quoted : ∀ {state : ScanState} {unit : UInt16},
      state.quote = some quote → state.topLevel = true → unit ≠ delim := by
    intro state unit inside top
    simp [ScanState.topLevel, inside] at top
  induction text with
  | nil => exact ⟨trivial, rfl⟩
  | cons unit text ih =>
    rw [escapeArg_cons]
    split
    next special =>
      -- The backslash opens an escape, which the unit closes.
      have back : (state.step backslash).step unit = state := rfl
      refine ⟨⟨quoted rfl, quoted rfl, ?_⟩, ?_⟩
      · rw [back]
        exact ih.1
      · rw [ScanState.after_append]
        exact ih.2
    next plain =>
      have stays : state.step unit = state := by
        obtain ⟨noBackslash, noQuote⟩ := not_or.mp plain
        simp [ScanState.step, state, noBackslash, noQuote]
      refine ⟨⟨quoted rfl, ?_⟩, ?_⟩
      · rw [stays]
        exact ih.1
      · rw [ScanState.after_append]
        change (state.step unit).after _ = state
        rw [stays]
        exact ih.2

theorem passes_quotedArg
    (isQuote : isQuoteChar quote = true) {delim : UInt16} (notDelim : quote ≠ delim) (depth : Nat)
    (text : JsString) :
    let state : ScanState := { quote := none, depth, escaped := false }
    Passes delim state (quotedArg quote text) ∧
      state.after (quotedArg quote text) = state := by
  intro state
  have opened : state.step quote =
      { quote := some quote, depth, escaped := false } := by
    simp [ScanState.step, state, isQuote]
  have closed : ScanState.step { quote := some quote, depth, escaped := false }
      quote = state := by
    have notBackslash : quote ≠ backslash := by
      rintro rfl
      exact absurd isQuote (by decide)
    simp [ScanState.step, state, notBackslash]
  obtain ⟨passes, stays⟩ := @passes_escapeArg quote delim depth text
  refine ⟨⟨fun _ => notDelim, ?_⟩, ?_⟩
  · rw [opened]
    refine passes_append passes ?_
    rw [stays]
    exact ⟨by simp [ScanState.topLevel], trivial⟩
  · change (state.step quote).after (escapeArg quote text ++ [quote]) = state
    rw [opened, ScanState.after_append, stays]
    exact closed

end Escapes

/-! ## The filter -/

/-- Trimming takes off exactly the white space around a text. -/
theorem trim_padded
    {before body after : JsString} (spaceBefore : ∀ unit ∈ before, isWhiteSpace unit = true)
    (spaceAfter : ∀ unit ∈ after, isWhiteSpace unit = true)
    (first : ∃ unit rest, body = unit :: rest ∧ isWhiteSpace unit = false)
    (last : ∃ rest unit, body = rest ++ [unit] ∧ isWhiteSpace unit = false) :
    trim (before ++ (body ++ after)) = body := by
  unfold trim
  rw [List.dropWhile_append_of_pos spaceBefore]
  obtain ⟨unit, rest, begins, visible⟩ := first
  have kept : (body ++ after).dropWhile isWhiteSpace = body ++ after := by
    rw [begins, List.cons_append, List.dropWhile_cons_of_neg (by simp [visible])]
  rw [kept]
  obtain ⟨rest, unit, ends, visible⟩ := last
  rw [List.rdropWhile, List.reverse_append,
    List.dropWhile_append_of_pos fun unit inside =>
      spaceAfter unit (List.mem_reverse.mp inside)]
  rw [ends, List.reverse_append, List.reverse_singleton, List.singleton_append,
    List.dropWhile_cons_of_neg (by simp [visible]), List.reverse_cons,
    List.reverse_reverse]

/-- The filter of an argument. -/
def defaultFilter (quote : UInt16)
    (text : JsString) : JsString :=
  jsText "default(" ++ (quotedArg quote text ++ jsText ")")

section Filter

variable
  {quote : UInt16}
  (isQuote : isQuoteChar quote = true)

include isQuote

theorem not_whiteSpace_of_isQuote : isWhiteSpace quote = false := by
  unfold isQuoteChar at isQuote
  rw [Bool.or_eq_true, decide_eq_true_eq, decide_eq_true_eq] at isQuote
  rcases isQuote with rfl | rfl <;> decide

theorem trim_quotedArg (text : JsString) :
    trim (quotedArg quote text) = quotedArg quote text := by
  have visible := not_whiteSpace_of_isQuote isQuote
  have trimmed := @trim_padded [] (quotedArg quote text) [] (by simp) (by simp)
    ⟨quote, _, rfl, visible⟩ ⟨quote :: escapeArg quote text, quote, rfl, visible⟩
  rwa [List.nil_append, List.append_nil] at trimmed

theorem parseArg_quotedArg (text : JsString) :
    parseArg (quotedArg quote text) = some (.string text) := by
  have body : quotedBody (quotedArg quote text) =
      some (quote, escapeArg quote text) := by
    unfold quotedArg quotedBody
    dsimp only
    rw [List.getLast?_concat, List.dropLast_concat]
    exact if_pos ⟨isQuote, rfl⟩
  have present : quotedArg quote text ≠ [] := List.cons_ne_nil _ _
  unfold parseArg
  dsimp only
  rw [trim_quotedArg isQuote, if_neg present, body]
  dsimp only
  rw [decodeQuotedArg_escapeArg]

theorem splitTopLevel_quotedArg (text : JsString) :
    splitTopLevel (quotedArg quote text) comma = [quotedArg quote text] := by
  have notComma : quote ≠ comma := by
    rintro rfl
    exact absurd isQuote (by decide)
  have passes := (passes_quotedArg isQuote notComma 0 text).1
  have split := splitFrom_append passes [] []
  rw [List.append_nil] at split
  exact split

omit isQuote in
theorem filterParts_defaultFilter (quote : UInt16) (text : JsString) :
    filterParts (defaultFilter quote text) =
      some (jsText "default", some (quotedArg quote text)) := by
  have word : ∀ unit ∈ jsText "default", isWord unit = true := by decide
  have split : defaultFilter quote text =
      jsText "default" ++ openParen :: (quotedArg quote text ++ [closeParen]) :=
    rfl
  have name : (defaultFilter quote text).takeWhile isWord = jsText "default" := by
    rw [split, List.takeWhile_append_of_pos word,
      List.takeWhile_cons_of_neg (by decide), List.append_nil]
  have rest : ((defaultFilter quote text).dropWhile isWord).dropWhile
      isWhiteSpace = openParen :: (quotedArg quote text ++ [closeParen]) := by
    rw [split, List.dropWhile_append_of_pos word, List.dropWhile_cons_of_neg (by decide),
      List.dropWhile_cons_of_neg (by decide)]
  unfold filterParts
  rw [name, rest]
  dsimp only
  rw [List.getLast?_concat, List.dropLast_concat]
  exact (if_pos (.inl (by decide))).trans (if_pos ⟨rfl, rfl⟩)

theorem parseFilter_defaultFilter (text : JsString) :
    parseFilter (jsText " " ++ (defaultFilter quote text ++ jsText " ")) =
      { name := jsText "default", args := [.string text] } := by
  have trimmed : trim (jsText " " ++ (defaultFilter quote text ++ jsText " ")) =
      defaultFilter quote text := by
    refine trim_padded (by decide) (by decide)
      ⟨0x64, jsText "efault(" ++ (quotedArg quote text ++ jsText ")"), rfl, by decide⟩
      ⟨jsText "default(" ++ quotedArg quote text, closeParen, ?_, by decide⟩
    rw [List.append_assoc]
    rfl
  have visible : trim (quotedArg quote text) ≠ [] := by
    rw [trim_quotedArg isQuote]
    exact List.cons_ne_nil _ _
  unfold parseFilter
  dsimp only
  rw [trimmed, filterParts_defaultFilter]
  dsimp only
  rw [if_neg visible, splitTopLevel_quotedArg isQuote, List.filterMap_cons,
    parseArg_quotedArg isQuote]
  rfl

end Filter

/-! ## The reference -/

/-- What stands between the braces. -/
def defaultInner (quote : UInt16)
    (text : JsString) : JsString :=
  jsText " inputs.a | default(" ++ (quotedArg quote text ++ jsText ") ")

section Reference

variable
  {quote : UInt16}
  (isQuote : isQuoteChar quote = true)

include isQuote

/-- The close is found behind the argument. -/
theorem findClose_defaultInner (text after : JsString) :
    findClose .initial (defaultInner quote text ++ closeBrace :: closeBrace :: after) =
      some (defaultInner quote text, after) := by
  have notClose : quote ≠ closeBrace := by
    rintro rfl
    exact absurd isQuote (by decide)
  obtain ⟨passes, stays⟩ := passes_quotedArg isQuote notClose 1 text
  have begins : ScanState.initial.after (jsText " inputs.a | default(") =
      { quote := none, depth := 1, escaped := false } := by decide
  have ends : ScanState.after { quote := none, depth := 1, escaped := false }
      (jsText ") ") = .initial := by decide
  have passesInner : Passes closeBrace .initial (defaultInner quote text) := by
    refine passes_append (by decide) ?_
    rw [begins]
    refine passes_append passes ?_
    rw [stays]
    decide
  have afterInner : ScanState.initial.after (defaultInner quote text) =
      .initial := by
    rw [defaultInner, ScanState.after_append, begins, ScanState.after_append, stays, ends]
  rw [findClose_append passesInner, afterInner]
  change some (defaultInner quote text ++ [], after) = _
  rw [List.append_nil]

/-- The pipe parts the head from the filter, and nothing else does. -/
theorem splitTopLevel_defaultInner (text : JsString) :
    splitTopLevel (defaultInner quote text) pipe =
      [jsText " inputs.a ",
        jsText " " ++ (defaultFilter quote text ++ jsText " ")] := by
  have notPipe : quote ≠ pipe := by
    rintro rfl
    exact absurd isQuote (by decide)
  obtain ⟨passes, stays⟩ := passes_quotedArg isQuote notPipe 1 text
  have inner : defaultInner quote text =
      jsText " inputs.a " ++ (pipe ::
        (jsText " default(" ++ (quotedArg quote text ++ jsText ") "))) := rfl
  have tail : jsText " " ++ (defaultFilter quote text ++ jsText " ") =
      jsText " default(" ++ (quotedArg quote text ++ jsText ") ") := by
    unfold defaultFilter
    rw [List.append_assoc, List.append_assoc]
    rfl
  have head : ScanState.initial.after (jsText " inputs.a ") = .initial := by
    decide
  have begins : ScanState.initial.after (jsText " default(") =
      { quote := none, depth := 1, escaped := false } := by decide
  have passesTail : Passes pipe .initial
      (jsText " default(" ++ (quotedArg quote text ++ jsText ") ")) := by
    refine passes_append (by decide) ?_
    rw [begins]
    refine passes_append passes ?_
    rw [stays]
    decide
  have joined := splitFrom_append passesTail [] []
  rw [List.append_nil] at joined
  rw [tail, inner, splitTopLevel, splitFrom_append (by decide), head, splitFrom,
    if_pos ⟨rfl, rfl⟩, joined]
  rfl

theorem parseReference_defaultInner (text raw : JsString) :
    parseReference (defaultInner quote text) raw = {
      kind := .inputs
      identifier := jsText "a"
      path := []
      filters := [{ name := jsText "default", args := [.string text] }]
      raw } := by
  have head : parseHead (trim (jsText " inputs.a ")) = (.inputs, jsText "a", []) := by decide
  unfold parseReference
  dsimp only
  rw [splitTopLevel_defaultInner isQuote, List.headD_cons, head, List.tail_cons,
    List.map_cons, parseFilter_defaultFilter isQuote]
  rfl

end Reference

/-! ## Templates -/

/-- The open of a reference. -/
def openMark : JsString :=
  [openBrace, openBrace]

theorem eq_of_findOpen
    {text before after : JsString} (found : findOpen text = some (before, after)) :
    text = before ++ (openMark ++ after) := by
  fun_induction findOpen text generalizing before after with
  | case1 | case2 => cases found
  | case3 unit next rest opens =>
    obtain ⟨rfl, rfl⟩ := opens
    cases found
    rfl
  | case4 unit next rest _ ih =>
    obtain ⟨⟨inner, tail⟩, deeper, same⟩ := Option.map_eq_some_iff.mp found
    cases same
    rw [ih deeper]
    rfl

theorem eq_of_findClose
    {state : ScanState} {text inner rest : JsString}
    (found : findClose state text = some (inner, rest)) :
    text = inner ++ ([closeBrace, closeBrace] ++ rest) := by
  fun_induction findClose state text generalizing inner rest with
  | case1 | case2 => cases found
  | case3 state unit next rest closes =>
    obtain ⟨_, rfl, rfl⟩ := closes
    cases found
    rfl
  | case4 state unit next rest _ ih =>
    obtain ⟨⟨inner, tail⟩, deeper, same⟩ := Option.map_eq_some_iff.mp found
    cases same
    rw [ih deeper]
    rfl

theorem findOpen_eq_none {text : JsString} (noOpen : ¬openMark <:+: text) :
    findOpen text = none := by
  cases found : findOpen text with
  | none => rfl
  | some parts =>
    exact absurd ⟨parts.1, parts.2, by rw [eq_of_findOpen found, List.append_assoc]⟩
      noOpen

/-- The first open of a text is behind what holds none and does not end in a
brace. -/
theorem findOpen_append
    {before : JsString} (noOpen : ¬openMark <:+: before)
    (noBrace : before.getLast? ≠ some openBrace) (after : JsString) :
    findOpen (before ++ (openMark ++ after)) = some (before, after) := by
  induction before with
  | nil => rfl
  | cons unit rest ih =>
    cases rest with
    | nil =>
      have noOpening : unit ≠ openBrace := fun same => noBrace (same ▸ rfl)
      change findOpen (unit :: openBrace :: openBrace :: after) = _
      rw [findOpen, if_neg fun opens => noOpening opens.1]
      rfl
    | cons next others =>
      have noDeeper : ¬openMark <:+: next :: others := fun deeper =>
        noOpen (List.infix_cons deeper)
      rw [List.getLast?_cons_cons] at noBrace
      have found := ih noDeeper noBrace
      rw [List.cons_append] at found
      rw [List.cons_append, List.cons_append, findOpen, if_neg, found]
      · rfl
      · rintro ⟨rfl, rfl⟩
        exact noOpen ⟨[], others, rfl⟩

/-- The text that a segment was read from. -/
def TemplateSegment.text : TemplateSegment → JsString
  | .literal text => text
  | .reference found => found.raw

theorem text_literalSegments (text : JsString) :
    (literalSegments text).flatMap TemplateSegment.text = text := by
  unfold literalSegments
  split
  next empty =>
    rw [empty]
    rfl
  next => exact List.flatMap_singleton ..

theorem text_parseSegments {fuel : Nat} {text : JsString} (enough : text.length < fuel) :
    (parseSegments fuel text).flatMap TemplateSegment.text = text := by
  induction fuel generalizing text with
  | zero => exact absurd enough (Nat.not_lt_zero _)
  | succ fuel ih =>
    rw [parseSegments]
    cases opened : findOpen text with
    | none => exact text_literalSegments text
    | some parts =>
      dsimp only
      cases closed : findClose .initial parts.2 with
      | none => exact text_literalSegments text
      | some inside =>
        dsimp only
        have whole := eq_of_findOpen opened
        have occurrence := eq_of_findClose closed
        have shorter : inside.2.length < fuel := by
          rw [whole, occurrence] at enough
          simp only [List.length_append, openMark, List.length_cons, List.length_nil] at enough
          omega
        rw [List.flatMap_append, text_literalSegments, List.flatMap_cons, ih shorter]
        conv_rhs => rw [whole, occurrence]
        simp [TemplateSegment.text, parseReference, rawOccurrence, openMark]

/-- A template whose only reference has a quoted argument. -/
def quotedTemplate (quote : UInt16)
    (text before after : JsString) : JsString :=
  before ++ jsText "\x7b\x7b inputs.a | default(" ++ quotedArg quote text ++
    jsText ") \x7d\x7d" ++ after

/-- The segments are the text before, the reference with the argument, and the
text after. -/
def Yields (text before after : JsString)
    (segments : List TemplateSegment) : Prop :=
  ∃ path raw, segments = literalSegments before ++
    .reference {
        kind := .inputs
        identifier := jsText "a"
        path
        filters := [{ name := jsText "default", args := [.string text] }]
        raw } ::
      literalSegments after

theorem quotedTemplate_eq (quote : UInt16) (text before after : JsString) :
    quotedTemplate quote text before after =
      before ++ (openMark ++
        (defaultInner quote text ++ closeBrace :: closeBrace :: after)) := by
  unfold quotedTemplate defaultInner
  simp only [List.append_assoc]
  rfl

theorem parseTemplate_eq (text : JsString) :
    parseTemplate text =
      match findOpen text with
      | none => literalSegments text
      | some (before, afterOpen) =>
        match findClose .initial afterOpen with
        | none => literalSegments text
        | some (inner, rest) =>
          literalSegments before ++
            .reference (parseReference inner (rawOccurrence inner)) ::
              parseSegments text.length rest := by
  exact parseSegments.eq_2 text text.length

theorem parseSegments_literal
    {text : JsString} (noOpen : ¬openMark <:+: text) {fuel : Nat} (enough : 0 < fuel) :
    parseSegments fuel text = literalSegments text := by
  cases fuel with
  | zero => exact absurd enough (Nat.lt_irrefl 0)
  | succ fuel => rw [parseSegments, findOpen_eq_none noOpen]

section RoundTrip

variable
  {quote : UInt16}
  {text before after : JsString}
  (noOpen : ¬openMark <:+: before)

include noOpen

/-- The argument is read back where the open is found. -/
theorem yields_of_getLast
    (isQuote : isQuoteChar quote = true) (noOpenAfter : ¬openMark <:+: after)
    (noBrace : before.getLast? ≠ some openBrace) :
    Yields text before after
      (parseTemplate (quotedTemplate quote text before after)) := by
  refine ⟨[], rawOccurrence (defaultInner quote text), ?_⟩
  have fuel : 0 < (before ++ (openMark ++ (defaultInner quote text ++
      closeBrace :: closeBrace :: after))).length := by
    simp [openMark]
  rw [parseTemplate_eq, quotedTemplate_eq, findOpen_append noOpen noBrace]
  dsimp only
  rw [findClose_defaultInner isQuote]
  dsimp only
  rw [parseReference_defaultInner isQuote, parseSegments_literal noOpenAfter fuel]

/-- A brace at the end of the text before joins the open: the reference begins
one character early, and the literal loses it. -/
theorem not_yields_of_getLast (brace : before.getLast? = some openBrace) :
    ¬Yields text before after
      (parseTemplate (quotedTemplate quote text before after)) := by
  rintro ⟨path, raw, parsed⟩
  obtain ⟨start, rfl⟩ : ∃ start, before = start ++ [openBrace] :=
    ⟨_, (List.dropLast_append_getLast? openBrace brace).symm⟩
  have noOpenStart : ¬openMark <:+: start := fun inside =>
    noOpen (inside.trans (List.infix_append' [] start [openBrace]))
  have noBraceStart : start.getLast? ≠ some openBrace := by
    intro ends
    refine noOpen ⟨start.dropLast, [], ?_⟩
    have again := List.dropLast_append_getLast? openBrace ends
    rw [List.append_nil, openMark, ← again]
    simp
  have shifted : quotedTemplate quote text (start ++ [openBrace]) after =
      start ++ (openMark ++ (openBrace ::
        (defaultInner quote text ++ closeBrace :: closeBrace :: after))) := by
    rw [quotedTemplate_eq, List.append_assoc]
    rfl
  have whole : literalSegments (start ++ [openBrace]) =
      [.literal (start ++ [openBrace])] := if_neg (by simp)
  rw [whole, parseTemplate_eq, shifted, findOpen_append noOpenStart noBraceStart] at parsed
  dsimp only at parsed
  split at parsed
  next =>
    unfold literalSegments at parsed
    split at parsed
    · cases parsed
    · simp at parsed
  next =>
    by_cases empty : start = []
    · simp [literalSegments, empty] at parsed
    · simp [literalSegments, empty] at parsed

end RoundTrip

/-- Every quoted argument is read back, unless the text before runs into the
open, and the segments of every text are the text again. -/
theorem quoted_argument_round_trip :
    (∀ (quote : UInt16) (text before after : JsString),
      isQuoteChar quote = true →
      ¬openMark <:+: before →
      ¬openMark <:+: after →
      (Yields text before after
          (parseTemplate (quotedTemplate quote text before after)) ↔
        before.getLast? ≠ some openBrace)) ∧
    ∀ text : JsString,
      (parseTemplate text).flatMap TemplateSegment.text = text := by
  refine ⟨?_, fun text => text_parseSegments (Nat.lt_succ_self _)⟩
  intro quote text before after isQuote noOpen noOpenAfter
  refine ⟨?_, yields_of_getLast noOpen isQuote noOpenAfter⟩
  exact fun yields brace => not_yields_of_getLast noOpen brace yields

/-- What holds of quoted arguments after any text without an open. -/
def ReadsBack : Prop :=
  ∀ (quote : UInt16) (text before after : JsString),
    isQuoteChar quote = true →
    ¬openMark <:+: before →
    ¬openMark <:+: after →
    Yields text before after (parseTemplate (quotedTemplate quote text before after))

/-- After a single brace the argument is not read back. -/
theorem quoted_argument_after_brace : ¬ReadsBack := by
  intro readsBack
  have yields := readsBack singleQuote [] [openBrace] [] (by decide) (by decide)
    (by decide)
  obtain ⟨path, raw, parsed⟩ := yields
  have begins : (parseTemplate (quotedTemplate singleQuote [] [openBrace]
      [])).head? = some (.literal [openBrace]) := congrArg List.head? parsed
  exact absurd begins (by decide)

/-- Text that closes, parts and quotes is read back from an argument. -/
theorem quoted_argument_round_trip_delimiters :
    let text := jsText "\x7d\x7d | ', ) \\"
    let before := jsText "a \x7d "
    let after := jsText " \x7d"
    Yields text before after
      (parseTemplate (quotedTemplate singleQuote text before after)) :=
  (quoted_argument_round_trip.1 singleQuote _ _ _ (by decide) (by decide)
    (by decide)).mpr (by decide)

end Relavium.Interpolation
