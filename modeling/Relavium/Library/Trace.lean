import Mathlib.Data.List.Induction
import Relavium.Library.Checks

/-!
# Finite runs of labelled transition systems

A run is recorded with the list of labels it took, newest last.  Labels carry
whatever an observer sees of a step, so a property of a run may speak both
about the state it reached and about everything observed on the way.

The module gives the induction rule for invariants that may mention the
history, and the decomposition of a run at any point of its history.
-/

namespace Relavium.Library

/-- `Run step start history finish`: from `start` the labels of `history`,
taken in order, lead to `finish`. -/
inductive Run (step : σ → α → σ → Prop)
    (start : σ) : List α → σ → Prop
  | nil : Run step start [] start
  | snoc {history : List α} {middle finish : σ} {label : α} :
      Run step start history middle →
      step middle label finish →
      Run step start (history ++ [label]) finish

namespace Run

variable
  {step : σ → α → σ → Prop}

variable {history : List α} {start finish : σ}

/-- A property of history and state that holds at the start and is preserved
by every step holds of every run. -/
theorem invariant
    {start : σ} (property : List α → σ → Prop) (initial : property [] start)
    (preserved : ∀ history state label next,
      Run step start history state →
      property history state →
      step state label next →
      property (history ++ [label]) next)
    {finish : σ} (run : Run step start history finish) :
    property history finish := by
  induction run with
  | nil => exact initial
  | snoc run taken ih =>
    exact preserved _ _ _ _ run ih taken

/-- Runs compose. -/
theorem append
    {start middle finish : σ} {first second : List α} (firstRun : Run step start first middle)
    (secondRun : Run step middle second finish) :
    Run step start (first ++ second) finish := by
  induction secondRun with
  | nil => simpa using firstRun
  | snoc _ taken ih =>
    rw [← List.append_assoc]
    exact .snoc ih taken

/-- A run splits at every point of its history. -/
theorem split {first second : List α} (run : Run step start (first ++ second) finish) :
    ∃ middle, Run step start first middle ∧ Run step middle second finish := by
  induction second using List.reverseRecOn generalizing finish with
  | nil => exact ⟨finish, by simpa using run, .nil⟩
  | append_singleton second label ih =>
    rw [← List.append_assoc] at run
    generalize whole : first ++ second ++ [label] = history at run
    cases run with
    | nil => simp at whole
    | snoc earlier taken =>
      obtain ⟨rfl, equal⟩ := List.append_inj' whole rfl
      obtain rfl : label = _ := by simpa using equal
      obtain ⟨middle, firstRun, secondRun⟩ := ih earlier
      exact ⟨middle, firstRun, .snoc secondRun taken⟩

/-- The single step that a one-label run takes. -/
theorem step_of_singleton {label : α} (run : Run step start [label] finish) :
    step start label finish := by
  generalize single : [label] = history at run
  cases run with
  | nil => simp at single
  | snoc earlier taken =>
    obtain ⟨empty, equal⟩ :=
      List.append_inj' ((List.nil_append [label]).trans single) rfl
    obtain rfl : label = _ := by simpa using equal
    subst empty
    generalize none : ([] : List _) = history at earlier
    cases earlier with
    | nil => exact taken
    | snoc => simp at none

/-- Where a label leads to one state at most, so does a history. -/
theorem unique
    {start first second : σ} (firstRun : Run step start history first)
    (secondRun : Run step start history second)
    (functional : ∀ state label next other,
      step state label next → step state label other → next = other) :
    first = second := by
  induction firstRun generalizing second with
  | nil =>
    generalize none : ([] : List α) = history at secondRun
    cases secondRun with
    | nil => rfl
    | snoc => simp at none
  | @snoc history middle finish label _ taken ih =>
    generalize whole : history ++ [label] = longer at secondRun
    cases secondRun with
    | nil => simp at whole
    | snoc earlier last =>
      obtain ⟨rfl, equal⟩ := List.append_inj' whole rfl
      obtain rfl : label = _ := by simpa using equal
      obtain rfl := ih earlier
      exact functional _ _ _ _ taken last

/-- A run of a step relation is a run of every weaker one. -/
theorem imp
    {step weaker : σ → α → σ → Prop}
    (weakens : ∀ state label next, step state label next →
      weaker state label next)
    (run : Run step start history finish) :
    Run weaker start history finish := by
  induction run with
  | nil => exact .nil
  | snoc _ taken ih =>
    exact .snoc ih (weakens _ _ _ taken)

/-- Labels that an executable step takes one after the other form a run. -/
theorem of_foldlM {apply : σ → α → Option σ} (taken : history.foldlM apply start = some finish) :
    Run (fun state label next => apply state label = some next) start history
      finish := by
  induction history using List.reverseRecOn generalizing finish with
  | nil =>
    cases taken
    exact .nil
  | append_singleton history label ih =>
    rw [List.foldlM_append] at taken
    obtain ⟨middle, earlier, last⟩ := Option.bind_eq_some_iff.mp taken
    exact .snoc (ih earlier) (by simpa using last)

/-- So do labels that it takes where they are allowed. -/
theorem of_guarded
    {apply : σ → α → Option σ} {Allowed : σ → α → Prop}
    [∀ state label, Decidable (Allowed state label)]
    (taken : history.foldlM
      (fun state label => if Allowed state label then apply state label else none) start =
        some finish) :
    Run (fun state label next => Allowed state label ∧ apply state label = some next) start
      history finish := by
  refine (of_foldlM taken).imp fun state label next step => ?_
  split at step
  · exact ⟨‹_›, step⟩
  · cases step

end Run

/-- The step that is seen, if any. -/
def StepOrStay (step : σ → α → σ → Prop) (seen : Option α)
    (state next : σ) : Prop :=
  match seen with
  | none => next = state
  | some label => step state label next

/-- Where every step is a step of a view of the state, or is not seen in the
view, a run is a run of the view. -/
theorem Run.project
    {step : σ → α → σ → Prop} {viewStep : τ → β → τ → Prop} (view : σ → τ) (event : α → Option β)
    (simulates : ∀ state label next, step state label next →
      StepOrStay viewStep (event label) (view state) (view next))
    {start finish : σ}
    {history : List α}
    (run : Run step start history finish) :
    Run viewStep (view start) (history.filterMap event) (view finish) := by
  induction run with
  | nil => exact .nil
  | @snoc history middle next label _ taken ih =>
    have seen := simulates _ _ _ taken
    rw [List.filterMap_append]
    cases isSeen : event label with
    | none =>
      rw [isSeen] at seen
      rw [List.filterMap_cons_none isSeen, List.filterMap_nil,
        List.append_nil, show view next = view middle from seen]
      exact ih
    | some given =>
      rw [isSeen] at seen
      rw [List.filterMap_cons_some isSeen, List.filterMap_nil]
      exact .snoc ih seen

/-! ## Deterministic machines -/

/-- A machine that answers every input takes the step labelled with the input
and its answer. -/
def Answers (machine : σ → ι → ω × σ) (state : σ) (call : ι × ω)
    (next : σ) : Prop :=
  machine state call.1 = (call.2, next)

/-- The calls, with their answers, and the state after a list of inputs. -/
def replay (machine : σ → ι → ω × σ) (start : σ)
    (inputs : List ι) : List (ι × ω) × σ :=
  inputs.foldl
    (fun reached input =>
      (reached.1 ++ [(input, (machine reached.2 input).1)], (machine reached.2 input).2))
    ([], start)

/-- Every list of inputs has a run. -/
theorem run_replay (machine : σ → ι → ω × σ) (start : σ) (inputs : List ι) :
    Run (Answers machine) start (replay machine start inputs).1
      (replay machine start inputs).2 := by
  induction inputs using List.reverseRecOn with
  | nil => exact .nil
  | append_singleton inputs input ih =>
    rw [replay, List.foldl_append]
    exact .snoc ih rfl

theorem replay_snoc (machine : σ → ι → ω × σ) (start : σ) (inputs : List ι) (input : ι) :
    replay machine start (inputs ++ [input]) =
      ((replay machine start inputs).1 ++
          [(input, (machine (replay machine start inputs).2 input).1)],
        (machine (replay machine start inputs).2 input).2) := by
  unfold replay
  rw [List.foldl_append]
  rfl

/-- A replay keeps its inputs. -/
theorem map_replay (machine : σ → ι → ω × σ) (start : σ) (inputs : List ι) :
    (replay machine start inputs).1.map Prod.fst = inputs := by
  induction inputs using List.reverseRecOn with
  | nil => rfl
  | append_singleton inputs input ih =>
    rw [replay_snoc, List.map_append, ih]
    rfl

/-- The later inputs are replayed from where the earlier ones lead to. -/
theorem replay_append (machine : σ → ι → ω × σ) (start : σ) (first second : List ι) :
    replay machine start (first ++ second) =
      ((replay machine start first).1 ++ (replay machine (replay machine start first).2 second).1,
        (replay machine (replay machine start first).2 second).2) := by
  induction second using List.reverseRecOn with
  | nil => simp [replay]
  | append_singleton second input ih =>
    rw [← List.append_assoc, replay_snoc, ih, replay_snoc, List.append_assoc]

variable
  {machine : σ → ι → ω × σ}
  {start finish : σ}
  {history : List (ι × ω)}

/-- A run is the replay of its inputs. -/
theorem replay_of_run (run : Run (Answers machine) start history finish) :
    replay machine start (history.map Prod.fst) = (history, finish) := by
  induction run with
  | nil => rfl
  | @snoc history middle next label _ taken ih =>
    rw [List.map_append, List.map_cons, List.map_nil, replay_snoc, ih]
    unfold Answers at taken
    simp only [taken]

/-- How often something happens when the inputs are given one after another. -/
def countAlong (machine : σ → ι → ω × σ) (happens : σ → ι → Bool)
    (start : σ) : List ι → Nat
  | [] => 0
  | input :: rest =>
    (happens start input).toNat + countAlong machine happens (machine start input).2 rest

theorem countAlong_append_singleton
    (machine : σ → ι → ω × σ) (happens : σ → ι → Bool) (start : σ) (inputs : List ι) (input : ι) :
    countAlong machine happens start (inputs ++ [input]) =
      countAlong machine happens start inputs +
        (happens (inputs.foldl (fun state given => (machine state given).2) start)
          input).toNat := by
  induction inputs generalizing start with
  | nil => simp [countAlong]
  | cons head tail ih =>
    simp only [List.cons_append, countAlong, List.foldl_cons]
    rw [ih, Nat.add_assoc]

/-- The inputs of a run lead to its last state. -/
theorem foldl_of_run (run : Run (Answers machine) start history finish) :
    (history.map Prod.fst).foldl (fun state given => (machine state given).2) start =
      finish := by
  induction run with
  | nil => rfl
  | snoc _ taken ih =>
    rw [List.map_append, List.foldl_append, ih]
    exact congrArg Prod.snd taken

/-- One more input happens in the state that the earlier ones lead to. -/
theorem countAlong_snoc
    (happens : σ → ι → Bool) (run : Run (Answers machine) start history finish) (call : ι × ω) :
    countAlong machine happens start ((history ++ [call]).map Prod.fst) =
      countAlong machine happens start (history.map Prod.fst) +
        (happens finish call.1).toNat := by
  rw [List.map_append, List.map_singleton, countAlong_append_singleton, foldl_of_run run]

/-- Whether a check of history, state and next input holds before every input. -/
def always (machine : σ → ι → ω × σ) (start : σ) (check : List (ι × ω) → σ → ι → Bool)
    (inputs : List ι) : Bool :=
  (inputs.foldl
    (fun reached input =>
      (reached.1 && check reached.2.1 reached.2.2 input,
        reached.2.1 ++ [(input, (machine reached.2.2 input).1)],
        (machine reached.2.2 input).2))
    (true, [], start)).1

/-- The check holds along a longer run if it held before and holds at its end. -/
theorem always_of_run
    {start middle : σ} {check : List (ι × ω) → σ → ι → Bool} {input : ι}
    (run : Run (Answers machine) start history middle)
    (holds : always machine start check (history.map Prod.fst ++ [input]) = true) :
    always machine start check (history.map Prod.fst) = true ∧
      check history middle input = true := by
  have carried : ∀ inputs : List ι,
      (inputs.foldl
        (fun reached input =>
          (reached.1 && check reached.2.1 reached.2.2 input,
            reached.2.1 ++ [(input, (machine reached.2.2 input).1)],
            (machine reached.2.2 input).2))
        (true, [], start)).2 = replay machine start inputs := by
    intro inputs
    induction inputs using List.reverseRecOn with
    | nil => rfl
    | append_singleton inputs input ih =>
      rw [List.foldl_append, replay_snoc, ← ih]
      rfl
  unfold always at holds ⊢
  rw [List.foldl_append] at holds
  simp only [List.foldl_cons, List.foldl_nil, Bool.and_eq_true, carried,
    replay_of_run run] at holds
  exact holds

/-- A run along which a check holds takes checked steps. -/
theorem run_of_always
    {check : σ → ι → Bool} (run : Run (Answers machine) start history finish)
    (holds : always machine start (fun _ => check) (history.map Prod.fst) = true) :
    Run (fun state call next => Answers machine state call next ∧ check state call.1 = true)
      start history finish := by
  induction run with
  | nil => exact .nil
  | snoc earlier taken ih =>
    rw [List.map_append] at holds
    obtain ⟨before, now⟩ := always_of_run earlier holds
    exact .snoc (ih before) ⟨taken, now⟩

/-! ## Machines that may refuse an input -/

/-- A machine that refuses some inputs takes a step for each input it accepts. -/
def Accepts (machine : σ → ι → Except ε (ω × σ)) (state : σ) (call : ι × ω)
    (next : σ) : Prop :=
  machine state call.1 = .ok (call.2, next)

/-- The accepted ones of a list of inputs, with their outputs, and the state
they lead to. -/
def acceptedRun (machine : σ → ι → Except ε (ω × σ)) (start : σ)
    (inputs : List ι) : List (ι × ω) × σ :=
  inputs.foldl
    (fun reached input =>
      match machine reached.2 input with
      | .ok (output, next) => (reached.1 ++ [(input, output)], next)
      | .error _ => reached)
    ([], start)

/-- The accepted inputs of a machine are a run of it. -/
theorem run_acceptedRun (machine : σ → ι → Except ε (ω × σ)) (start : σ) (inputs : List ι) :
    Run (Accepts machine) start (acceptedRun machine start inputs).1
      (acceptedRun machine start inputs).2 := by
  induction inputs using List.reverseRecOn with
  | nil => exact .nil
  | append_singleton inputs input ih =>
    rw [acceptedRun, List.foldl_append]
    simp only [List.foldl_cons, List.foldl_nil]
    split
    · next output next accepted => exact .snoc ih accepted
    · exact ih

/-- A fold that refuses no input is a run. -/
theorem run_of_foldlM
    {machine : σ → ι → Except ε σ} {inputs : List ι}
    (folded : inputs.foldlM machine start = .ok finish) :
    Run (fun state input next => machine state input = .ok next)
      start inputs finish := by
  induction inputs using List.reverseRecOn generalizing finish with
  | nil =>
    obtain rfl : start = finish := by simpa using folded
    exact .nil
  | append_singleton inputs input ih =>
    rw [List.foldlM_append, bind_eq_ok] at folded
    obtain ⟨middle, earlier, last⟩ := folded
    rw [List.foldlM_cons, bind_eq_ok] at last
    obtain ⟨next, taken, same⟩ := last
    obtain rfl : next = finish := by simpa using same
    exact .snoc (ih earlier) taken

/-! ## What may happen once -/

/-- A property that excludes itself from what follows holds at most once. -/
theorem length_filter_le_one {property : α → Bool} {history : List α}
    (once : ∀ before element after, history = before ++ element :: after →
      property element = true →
      ∀ later ∈ after, property later = false) :
    (history.filter property).length ≤ 1 := by
  induction history with
  | nil => simp
  | cons element rest ih =>
    have restOnce := ih fun before other after equal =>
      once (element :: before) other after (by rw [equal]; rfl)
    by_cases holds : property element = true
    · have none : rest.filter property = [] := by
        rw [List.filter_eq_nil_iff]
        intro later member
        simpa using once [] element rest rfl holds later member
      rw [List.filter_cons_of_pos holds, none]
      simp
    · rw [List.filter_cons_of_neg holds]
      exact restOnce

end Relavium.Library
