import Mathlib.Tactic.Tauto
import Relavium.Shared.MediaDescriptor

/-!
# Reconciling a batch of descriptors

`reconcileMediaDescriptors` keeps one representative for each handle of a batch
and compares every later descriptor with that one only.  A representative gives
way to the first descriptor that states a duration and to none after it.  So it
states what any descriptor of the handle states, and agreement with it is
agreement of the whole batch.
-/

namespace Relavium.Shared

open Library

/-- Two descriptors can be descriptors of one object. -/
structure Agree (first second : DurableMediaMeta) : Prop where
  mimeType : first.mimeType = second.mimeType
  modality : first.modality = second.modality
  byteLength : first.byteLength = second.byteLength
  durationMs : ¬durationsDisagree first.durationMs second.durationMs

/-- The descriptors of each handle agree with one another. -/
def PairwiseAgree (given : List DurableMediaMeta) : Prop :=
  ∀ first ∈ given, ∀ second ∈ given,
    first.handle = second.handle → Agree first second

theorem durationsDisagree_comm (known given : Option SafeAmount) :
    durationsDisagree known given ↔ durationsDisagree given known := by
  unfold durationsDisagree
  tauto

@[simp] theorem not_durationsDisagree_none_left (given : Option SafeAmount) :
    ¬durationsDisagree none given :=
  fun disagree => disagree.1 rfl

@[simp] theorem not_durationsDisagree_none_right (known : Option SafeAmount) :
    ¬durationsDisagree known none :=
  fun disagree => disagree.2.1 rfl

@[simp] theorem not_durationsDisagree_self (known : Option SafeAmount) :
    ¬durationsDisagree known known :=
  fun disagree => disagree.2.2 rfl

@[simp] theorem durationsDisagree_some {known given : SafeAmount} :
    durationsDisagree (some known) (some given) ↔ known ≠ given := by
  simp [durationsDisagree]

namespace Agree

theorem symm {first second : DurableMediaMeta}
    (agree : Agree first second) : Agree second first where
  mimeType := agree.mimeType.symm
  modality := agree.modality.symm
  byteLength := agree.byteLength.symm
  durationMs := by
    rw [durationsDisagree_comm]
    exact agree.durationMs

theorem trans
    {first middle second : DurableMediaMeta} (earlier : Agree first middle)
    (later : Agree middle second)
    (stated : first.durationMs ≠ none → middle.durationMs = first.durationMs) :
    Agree first second where
  mimeType := earlier.mimeType.trans later.mimeType
  modality := earlier.modality.trans later.modality
  byteLength := earlier.byteLength.trans later.byteLength
  durationMs := by
    intro disagree
    have same := stated disagree.1
    rw [← same] at disagree
    exact later.durationMs disagree

theorem durationMs_eq
    {first second : DurableMediaMeta} (agree : Agree first second)
    (firstStates : first.durationMs ≠ none) (secondStates : second.durationMs ≠ none) :
    first.durationMs = second.durationMs := by
  by_contra different
  exact agree.durationMs ⟨firstStates, secondStates, different⟩

end Agree

/-- The comparison that reconciliation makes. -/
theorem agree_iff {first second : DurableMediaMeta} :
    Agree first second ↔
      ¬(first.mimeType ≠ second.mimeType ∨
        first.modality ≠ second.modality ∨
        first.byteLength ≠ second.byteLength ∨
        durationsDisagree first.durationMs second.durationMs) := by
  simp only [not_or, not_not]
  constructor
  · intro agree
    exact ⟨agree.mimeType, agree.modality, agree.byteLength, agree.durationMs⟩
  · rintro ⟨mimeType, modality, byteLength, durationMs⟩
    exact ⟨mimeType, modality, byteLength, durationMs⟩

/-- What one more descriptor does to the representatives. -/
theorem reconcileOne_eq_ok
    {result after : OrderedMap JsString DurableMediaMeta} {next : DurableMediaMeta} :
    reconcileOne result next = .ok after ↔
      (result.get next.handle = none ∧ result.set next.handle next = after) ∨
        ∃ previous, result.get next.handle = some previous ∧
          Agree previous next ∧
          (if previous.durationMs ≠ none then result
            else result.set next.handle next) = after := by
  unfold reconcileOne
  cases found : result.get next.handle with
  | none => simp
  | some previous =>
    dsimp only
    by_cases agree : Agree previous next
    · rw [if_neg (agree_iff.mp agree)]
      by_cases stated : previous.durationMs ≠ none
      · simp [stated, agree]
      · simp [not_not.mp stated, agree]
    · rw [if_pos (by_contra fun same => agree (agree_iff.mpr same))]
      simp [agree]

/-- The representatives of the descriptors seen so far. -/
structure Represents (given : List DurableMediaMeta)
    (result : OrderedMap JsString DurableMediaMeta) : Prop where
  origin : ∀ handle item, result.get handle = some item →
    item ∈ given ∧ item.handle = handle
  represented : ∀ item ∈ given, ∃ representative,
    result.get item.handle = some representative ∧
      Agree item representative ∧
      (item.durationMs ≠ none → representative.durationMs = item.durationMs)

namespace Represents

theorem empty : Represents [] .empty where
  origin _ _ found := by simp at found
  represented _ isGiven := by simp at isGiven

variable
  {given : List DurableMediaMeta}
  {result : OrderedMap JsString DurableMediaMeta}

theorem pairwiseAgree (represents : Represents given result) :
    PairwiseAgree given := by
  intro first isFirst second isSecond sameHandle
  obtain ⟨representative, found, firstAgrees, firstStated⟩ :=
    represents.represented first isFirst
  obtain ⟨other, foundOther, secondAgrees, -⟩ :=
    represents.represented second isSecond
  rw [← sameHandle, found] at foundOther
  cases foundOther
  exact firstAgrees.trans secondAgrees.symm firstStated

variable
  {next : DurableMediaMeta}

theorem insert (represents : Represents given result)
    (isNew : ∀ item ∈ given, item.handle = next.handle →
      Agree item next ∧ item.durationMs = none) :
    Represents (given ++ [next]) (result.set next.handle next) where
  origin handle item found := by
    rw [OrderedMap.get_set] at found
    split at found
    · rename_i sameHandle
      cases found
      exact ⟨by simp, sameHandle.symm⟩
    · obtain ⟨isGiven, isHandle⟩ := represents.origin handle item found
      exact ⟨by simp [isGiven], isHandle⟩
  represented item isGiven := by
    rw [OrderedMap.get_set]
    obtain isGiven | rfl := by simpa using isGiven
    · by_cases sameHandle : item.handle = next.handle
      · obtain ⟨agree, unstated⟩ := isNew item isGiven sameHandle
        exact ⟨next, if_pos sameHandle, agree, fun stated => absurd unstated stated⟩
      · rw [if_neg sameHandle]
        exact represents.represented item isGiven
    · exact ⟨item, if_pos rfl, ⟨rfl, rfl, rfl, by simp⟩, fun _ => rfl⟩

theorem keep
    {next previous : DurableMediaMeta} (represents : Represents given result)
    (found : result.get next.handle = some previous) (agree : Agree previous next)
    (stated : previous.durationMs ≠ none) :
    Represents (given ++ [next]) result where
  origin handle item isResult := by
    obtain ⟨isGiven, isHandle⟩ := represents.origin handle item isResult
    exact ⟨by simp [isGiven], isHandle⟩
  represented item isGiven := by
    obtain isGiven | rfl := by simpa using isGiven
    · exact represents.represented item isGiven
    · exact ⟨previous, found, agree.symm, agree.durationMs_eq stated⟩

/-- One more descriptor has a representative too. -/
theorem step
    {result after : OrderedMap JsString DurableMediaMeta} (represents : Represents given result)
    (gives : reconcileOne result next = .ok after) :
    Represents (given ++ [next]) after := by
  obtain ⟨isNew, rfl⟩ | ⟨previous, found, agree, rfl⟩ := reconcileOne_eq_ok.mp gives
  · refine represents.insert fun item isGiven sameHandle => ?_
    obtain ⟨representative, found, -⟩ := represents.represented item isGiven
    rw [sameHandle, isNew] at found
    cases found
  · split
    · next stated => exact represents.keep found agree stated
    · rename_i unstated
      rw [not_not] at unstated
      refine represents.insert fun item isGiven sameHandle => ?_
      obtain ⟨representative, isResult, agrees, itemStated⟩ :=
        represents.represented item isGiven
      rw [sameHandle, found] at isResult
      cases isResult
      -- The representative states no duration, so no descriptor before did.
      have itemUnstated : item.durationMs = none := by
        by_contra stated
        exact stated ((itemStated stated).symm.trans unstated)
      exact ⟨agrees.trans agree itemStated, itemUnstated⟩

/-- A descriptor that agrees with all before it is accepted. -/
theorem exists_step
    (represents : Represents given result)
    (agrees : ∀ item ∈ given, item.handle = next.handle → Agree item next) :
    ∃ after, reconcileOne result next = .ok after := by
  cases found : result.get next.handle with
  | none => exact ⟨_, reconcileOne_eq_ok.mpr (.inl ⟨found, rfl⟩)⟩
  | some previous =>
    obtain ⟨isGiven, isHandle⟩ := represents.origin _ _ found
    exact ⟨_, reconcileOne_eq_ok.mpr
      (.inr ⟨previous, found, agrees previous isGiven isHandle, rfl⟩)⟩

/-- The rest of a batch has representatives when the fold ends well. -/
theorem run
    {given rest : List DurableMediaMeta} {result after : OrderedMap JsString DurableMediaMeta}
    (represents : Represents given result) (gives : rest.foldlM reconcileOne result = .ok after) :
    Represents (given ++ rest) after := by
  induction rest generalizing given result with
  | nil =>
    obtain rfl : result = after := Except.ok.inj gives
    simpa using represents
  | cons next rest ih =>
    rw [List.foldlM_cons] at gives
    cases stepped : reconcileOne result next with
    | error code => simp [stepped, bind, Except.bind] at gives
    | ok middle =>
      simpa using ih (represents.step stepped) (by simpa [stepped, bind, Except.bind] using gives)

/-- The fold ends well when the descriptors agree. -/
theorem exists_run
    {given rest : List DurableMediaMeta} (represents : Represents given result)
    (agree : PairwiseAgree (given ++ rest)) :
    ∃ after, rest.foldlM reconcileOne result = .ok after := by
  induction rest generalizing given result with
  | nil => exact ⟨result, rfl⟩
  | cons next rest ih =>
    obtain ⟨middle, stepped⟩ := represents.exists_step fun item isGiven =>
      agree item (by simp [isGiven]) next (by simp)
    obtain ⟨after, ran⟩ := ih (represents.step stepped) (by simpa using agree)
    exact ⟨after, by simpa [List.foldlM_cons, stepped, bind, Except.bind] using ran⟩

/-- Representatives stand for the descriptors of a batch. -/
theorem stated
    (represents : Represents given result) {item : DurableMediaMeta} (isItem : item ∈ given) :
    ∃ representative ∈ result.values, representative.handle = item.handle ∧
      Agree item representative ∧
      (item.durationMs ≠ none → representative.durationMs = item.durationMs) := by
  obtain ⟨representative, found, agree, stated⟩ := represents.represented item isItem
  exact ⟨representative, (OrderedMap.mem_values_iff _ _).mpr ⟨_, found⟩,
    (represents.origin _ _ found).2, agree, stated⟩

/-- Representatives are descriptors of the batch. -/
theorem mem_of_mem_values
    (represents : Represents given result) {item : DurableMediaMeta}
    (isItem : item ∈ result.values) :
    item ∈ given := by
  obtain ⟨handle, found⟩ := (OrderedMap.mem_values_iff _ _).mp isItem
  exact (represents.origin handle item found).1

end Represents

/-- A batch in which each descriptor was admitted reconciles when it has
representatives. -/
theorem exists_representatives_iff {given : List DurableMediaMeta} :
    (∃ result, given.foldlM reconcileOne .empty = .ok result) ↔
      PairwiseAgree given := by
  constructor
  · rintro ⟨result, gives⟩
    exact (Represents.empty.run gives).pairwiseAgree
  · intro agree
    exact Represents.empty.exists_run (by simpa using agree)

end Relavium.Shared
