import Relavium.Library.JsonString

/-!
# Code points of UTF-16 texts

Two texts meet at a seam when no surrogate pair is split between them.  Cutting a
text at seams keeps its code points whole.
-/

namespace Relavium.Library

/-- A surrogate pair stands at a position. -/
def PairAt (text : JsString) (position : Nat) : Prop :=
  text[position]?.any isLeadSurrogate = true ∧
    text[position + 1]?.any isTrailSurrogate = true

instance (text : JsString) (position : Nat) : Decidable (PairAt text position) :=
  inferInstanceAs (Decidable (_ ∧ _))

/-- Cutting the text at a position splits no surrogate pair. -/
def WholeAt (text : JsString) (position : Nat) : Prop :=
  ∀ index, index + 1 = position → ¬PairAt text index

/-- No surrogate pair is split between two texts. -/
def Seam (left right : JsString) : Prop :=
  WholeAt (left ++ right) left.length

theorem isTrailSurrogate_of_lead {unit : UInt16} (leads : isLeadSurrogate unit = true) :
    isTrailSurrogate unit = false := by
  simp only [isLeadSurrogate, isTrailSurrogate, decide_eq_true_eq, decide_eq_false_iff_not]
    at leads ⊢
  omega

variable
  {position : Nat}
  {text : JsString}

theorem PairAt.next (pair : PairAt text position) :
    ¬PairAt text (position + 1) := by
  rintro ⟨leads, -⟩
  obtain ⟨unit, isUnit, trails⟩ := (Option.any_eq_true _ _).mp pair.2
  rw [isUnit, Option.any_some] at leads
  rw [isTrailSurrogate_of_lead leads] at trails
  cases trails

theorem wholeAt_zero (text : JsString) : WholeAt text 0 :=
  fun index impossible => absurd impossible (Nat.succ_ne_zero index)

theorem wholeAt_of_length_le (le : text.length ≤ position) :
    WholeAt text position := by
  rintro index rfl ⟨-, trails⟩
  rw [List.getElem?_eq_none le] at trails
  cases trails

theorem wholeAt_of_trail_false
    (noTrail : ∀ unit, text[position]? = some unit → isTrailSurrogate unit = false) :
    WholeAt text position := by
  rintro index rfl ⟨-, trails⟩
  obtain ⟨unit, isUnit, isTrail⟩ := (Option.any_eq_true _ _).mp trails
  rw [noTrail unit isUnit] at isTrail
  cases isTrail

theorem wholeAt_succ_of_lead_false
    (noLead : ∀ unit, text[position]? = some unit → isLeadSurrogate unit = false) :
    WholeAt text (position + 1) := by
  rintro index same ⟨leads, -⟩
  obtain rfl : index = position := Nat.succ.inj same
  obtain ⟨unit, isUnit, isLead⟩ := (Option.any_eq_true _ _).mp leads
  rw [noLead unit isUnit] at isLead
  cases isLead

/-- A cut within the front part of a text is whole there as in the whole text. -/
theorem wholeAt_take_iff {position stop : Nat} (less : position < stop) :
    WholeAt (text.take stop) position ↔ WholeAt text position := by
  refine forall_congr' fun index => imp_congr_right fun isBefore => not_congr ?_
  rw [PairAt, PairAt, List.getElem?_take_of_lt (by omega), List.getElem?_take_of_lt (by omega)]

variable
  {left right : JsString}

theorem wholeAt_append_right (seam : Seam left right) (whole : WholeAt right position) :
    WholeAt (left ++ right) (left.length + position) := by
  rintro index same pair
  cases position with
  | zero => exact seam index same pair
  | succ position =>
    obtain rfl : index = left.length + position := by omega
    refine whole position rfl ?_
    rw [PairAt, Nat.add_assoc, List.getElem?_append_right (by omega),
      List.getElem?_append_right (by omega), Nat.add_sub_cancel_left,
      Nat.add_sub_cancel_left] at pair
    exact pair

theorem wholeAt_append_left (less : position < left.length) (whole : WholeAt left position) :
    WholeAt (left ++ right) position := by
  rintro index rfl pair
  refine whole index rfl ?_
  rw [PairAt, List.getElem?_append_left less, List.getElem?_append_left (by omega)] at pair
  exact pair

/-- A seam stays one when the texts go on behind another seam. -/
theorem Seam.append_right
    {left middle right : JsString} (seam : Seam left middle)
    (next : Seam (left ++ middle) right) :
    Seam left (middle ++ right) := by
  cases middle with
  | nil => rwa [List.append_nil] at next
  | cons unit rest =>
    rw [Seam, ← List.append_assoc]
    exact wholeAt_append_left (by rw [List.length_append, List.length_cons]; omega) seam

/-- A seam stays one when the texts begin in front of another seam. -/
theorem Seam.append_left
    {left middle right : JsString} (seam : Seam middle right)
    (earlier : Seam left (middle ++ right)) :
    Seam (left ++ middle) right := by
  rw [Seam, List.append_assoc, List.length_append]
  exact wholeAt_append_right earlier seam

/-- A cut between code points is a seam. -/
theorem seam_take_drop (within : position ≤ text.length) (whole : WholeAt text position) :
    Seam (text.take position) (text.drop position) := by
  rw [Seam, List.take_append_drop, List.length_take, Nat.min_eq_left within]
  exact whole

/-- The seam of a text whose first unit is taken off. -/
theorem Seam.tail {unit : UInt16} (seam : Seam (unit :: left) right) :
    Seam left right := by
  intro index same pair
  refine seam (index + 1) (congrArg (· + 1) same) ?_
  rw [PairAt, List.cons_append, List.getElem?_cons_succ, List.getElem?_cons_succ]
  exact pair

theorem Seam.not_pair
    {lead trail : UInt16} {right : JsString} (seam : Seam [lead] (trail :: right))
    (leads : isLeadSurrogate lead = true) :
    isTrailSurrogate trail = false := by
  have noPair := seam 0 rfl
  rw [PairAt] at noPair
  simpa [leads] using noPair

/-- Across a seam a text is well formed when both parts are. -/
theorem Seam.wellFormed_iff (seam : Seam left right) :
    WellFormedUtf16 (left ++ right) ↔ WellFormedUtf16 left ∧ WellFormedUtf16 right := by
  constructor
  · intro wellFormed
    generalize isWhole : left ++ right = whole at wellFormed
    induction wellFormed generalizing left with
    | nil =>
      obtain ⟨rfl, rfl⟩ := List.append_eq_nil_iff.mp isWhole
      exact ⟨.nil, .nil⟩
    | unit plain later ih =>
      cases left with
      | nil =>
        rw [List.nil_append] at isWhole
        exact ⟨.nil, isWhole ▸ .unit plain later⟩
      | cons first others =>
        obtain ⟨rfl, isRest⟩ := List.cons.inj isWhole
        obtain ⟨othersFormed, rightFormed⟩ := ih seam.tail isRest
        exact ⟨.unit plain othersFormed, rightFormed⟩
    | pair leads trails later ih =>
      cases left with
      | nil =>
        rw [List.nil_append] at isWhole
        exact ⟨.nil, isWhole ▸ .pair leads trails later⟩
      | cons first others =>
        obtain ⟨rfl, isRest⟩ := List.cons.inj isWhole
        cases others with
        | nil =>
          obtain rfl : right = _ := isRest
          rw [seam.not_pair leads] at trails
          cases trails
        | cons second remaining =>
          obtain ⟨rfl, isRemaining⟩ := List.cons.inj isRest
          obtain ⟨remainingFormed, rightFormed⟩ :=
            ih seam.tail.tail isRemaining
          exact ⟨.pair leads trails remainingFormed, rightFormed⟩
  · rintro ⟨leftFormed, rightFormed⟩
    clear seam
    induction leftFormed with
    | nil => exact rightFormed
    | unit plain _ ih => exact .unit plain ih
    | pair leads trails _ ih => exact .pair leads trails ih

end Relavium.Library
