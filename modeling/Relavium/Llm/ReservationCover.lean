import Relavium.Library.Checks
import Relavium.Llm.Pricing
import Mathlib.Algebra.Order.BigOperators.Group.List
import Mathlib.Data.List.Forall2
import Mathlib.Tactic.Linarith

/-!
# A reservation covers its charge

The estimate bills the whole input at the highest tier, and the charge bills three
input classes at the tier of the prompt.  Where rates rise with the context, a usage
within the estimate costs no more than the estimate and the rounding of the two
extra classes.
-/

namespace Relavium.Llm

open Library

/-! ## Rounding -/

theorem mathRound_mono {less more : ℚ} (ordered : less ≤ more) :
    mathRound less ≤ mathRound more :=
  Int.floor_le_floor (by linarith)

theorem mathRound_nonneg {value : ℚ} (nonneg : 0 ≤ value) :
    0 ≤ mathRound value :=
  Int.floor_nonneg.mpr (by linarith)

/-- Three rounded parts exceed the rounded whole by the rounding of two parts at most. -/
theorem mathRound_add_add
    {first second third whole : ℚ} (within : first + second + third ≤ whole) :
    mathRound first + mathRound second + mathRound third ≤ mathRound whole + 2 := by
  have firstLe : (mathRound first : ℚ) ≤ first + 1 / 2 := Int.floor_le _
  have secondLe : (mathRound second : ℚ) ≤ second + 1 / 2 := Int.floor_le _
  have thirdLe : (mathRound third : ℚ) ≤ third + 1 / 2 := Int.floor_le _
  have wholeLt : whole + 1 / 2 < mathRound whole + 1 := Int.lt_floor_add_one _
  have sum : ((mathRound first + mathRound second + mathRound third : Int) : ℚ) <
      (mathRound whole + 2 : Int) := by
    push_cast
    linarith
  exact (Int.cast_lt.mp sum).le

/-! ## Tiers -/

/-- The tiers of a price. -/
def ModelPricing.tiers (pricing : ModelPricing) : List CatalogPriceTier :=
  pricing.contextTiers.getD []

/-- The tier with the highest threshold, the first one listed if there are several. -/
def ModelPricing.topTier (pricing : ModelPricing) : Option CatalogPriceTier :=
  pricing.tiers.find? fun tier =>
    pricing.tiers.all fun other => other.aboveContextTokens ≤ tier.aboveContextTokens

/-- The input rate at the highest threshold. -/
def ModelPricing.topInputRate (pricing : ModelPricing) : ℚ :=
  match pricing.topTier with
  | some tier => tier.inputPerMtokMicrocents
  | none => pricing.inputPerMtokMicrocents

/-- Rates do not fall as the threshold rises, the base rates are the lowest, and cached
input costs no more than input at the highest threshold. -/
structure RisingRates (pricing : ModelPricing) : Prop where
  rising : ∀ lower ∈ pricing.tiers, ∀ higher ∈ pricing.tiers,
    lower.aboveContextTokens < higher.aboveContextTokens →
      lower.inputPerMtokMicrocents ≤ higher.inputPerMtokMicrocents ∧
        lower.outputPerMtokMicrocents ≤ higher.outputPerMtokMicrocents
  base : ∀ tier ∈ pricing.tiers,
    pricing.inputPerMtokMicrocents ≤ tier.inputPerMtokMicrocents ∧
      pricing.outputPerMtokMicrocents ≤ tier.outputPerMtokMicrocents
  cached : ∀ rates ∈ pricing.flat :: pricing.tiers.map CatalogPriceTier.rates,
    rates.cachedInput ≤ pricing.topInputRate
  cacheWrite : ∀ rate ∈ pricing.cacheWritePerMtokMicrocents, rate ≤ pricing.topInputRate

/-- The tier that a fold over some tiers finds: the first one listed with the highest
threshold among those that the context reaches. -/
structure FindsTier (flat : Rates) (contextTokens : WithTop ℚ) (tiers : List CatalogPriceTier)
    (best : Rates × ℚ) : Prop where
  above : ∀ tier ∈ tiers, (tier.aboveContextTokens : WithTop ℚ) < contextTokens →
    tier.aboveContextTokens ≤ best.2
  found : best = (flat, -1) ∨
    ∃ tier, tiers.find? (·.aboveContextTokens = best.2) = some tier ∧ best.1 = tier.rates ∧
      -1 < best.2

theorem findsTier_foldl
    (flat : Rates) (contextTokens : WithTop ℚ) (tiers : List CatalogPriceTier) :
    FindsTier flat contextTokens tiers
      (tiers.foldl (considerTier contextTokens) (flat, -1)) := by
  induction tiers using List.reverseRecOn with
  | nil => exact ⟨by simp, .inl rfl⟩
  | append_singleton front tier ih =>
    rw [List.foldl_append, List.foldl_cons, List.foldl_nil]
    obtain ⟨above, found⟩ := ih
    generalize front.foldl (considerTier contextTokens) (flat, -1) = best at above found
    have atLeast : -1 ≤ best.2 := by
      obtain rfl | ⟨_, _, _, more⟩ := found
      · exact le_refl _
      · exact more.le
    unfold considerTier
    split
    · rename_i better
      obtain ⟨reached, exceeds⟩ := better
      refine ⟨fun other isOther isReached => ?_, .inr ⟨tier, ?_, rfl, by linarith⟩⟩
      · obtain isFront | rfl : other ∈ front ∨ other = tier := by simpa using isOther
        · exact (above other isFront isReached).trans exceeds.le
        · exact le_refl _
      · have notFront : front.find? (·.aboveContextTokens = tier.aboveContextTokens) = none := by
          rw [List.find?_eq_none]
          intro other isOther same
          have same : other.aboveContextTokens = tier.aboveContextTokens := by simpa using same
          have := above other isOther (same ▸ reached)
          linarith
        simp [List.find?_append, notFront]
    · rename_i notBetter
      refine ⟨fun other isOther isReached => ?_, ?_⟩
      · obtain isFront | rfl : other ∈ front ∨ other = tier := by simpa using isOther
        · exact above other isFront isReached
        · exact le_of_not_gt fun exceeds => notBetter ⟨isReached, exceeds⟩
      · obtain isFlat | ⟨first, isFirst, isRates, more⟩ := found
        · exact .inl isFlat
        · exact .inr ⟨first, by simp [List.find?_append, isFirst], isRates, more⟩

theorem rateBasisFor_rates (pricing : ModelPricing) (contextTokens : WithTop ℚ) :
    (rateBasisFor pricing contextTokens).rates =
      (pricing.tiers.foldl (considerTier contextTokens) (pricing.flat, -1)).1 := by
  unfold rateBasisFor ModelPricing.tiers
  split <;> simp_all

/-- Rates that are bounded by those of the worst case. -/
structure BoundedRates (worst rates : Rates) : Prop where
  input : rates.input ≤ worst.input
  output : rates.output ≤ worst.output
  cachedInput : rates.cachedInput ≤ worst.input

theorem find?_congr_mem
    {first second : α → Bool} {list : List α}
    (agree : ∀ element ∈ list, first element = second element) :
    list.find? first = list.find? second := by
  induction list with
  | nil => rfl
  | cons head tail ih =>
    obtain ⟨same, rest⟩ := List.forall_mem_cons.mp agree
    rw [List.find?_cons, List.find?_cons, same, ih rest]

/-- The worst case is the first listed tier with the highest threshold. -/
theorem findsTop
    {pricing : ModelPricing} {top : CatalogPriceTier} {threshold : ℚ}
    (highest : ∀ tier ∈ pricing.tiers, tier.aboveContextTokens ≤ threshold)
    (found : pricing.tiers.find? (·.aboveContextTokens = threshold) = some top) :
    pricing.topTier = some top := by
  have isTop : top ∈ pricing.tiers := List.mem_of_find?_eq_some found
  have isThreshold : top.aboveContextTokens = threshold := by
    simpa using List.find?_some found
  rw [ModelPricing.topTier, ← found]
  refine find?_congr_mem fun tier isTier => ?_
  rw [Bool.eq_iff_iff]
  simp only [List.all_eq_true, decide_eq_true_eq]
  constructor
  · intro above
    exact le_antisymm (highest tier isTier) (isThreshold ▸ above top isTop)
  · rintro rfl
    exact highest

theorem worstCase_and_bounded
    {pricing : ModelPricing} (rising : RisingRates pricing)
    (thresholds : ∀ tier ∈ pricing.tiers, 0 ≤ tier.aboveContextTokens)
    (contextTokens : WithTop ℚ) :
    (worstCaseRateBasis pricing).rates.input = pricing.topInputRate ∧
      BoundedRates (worstCaseRateBasis pricing).rates (rateBasisFor pricing contextTokens).rates := by
  have worst := findsTier_foldl pricing.flat ⊤ pricing.tiers
  have actual := findsTier_foldl pricing.flat contextTokens pricing.tiers
  unfold worstCaseRateBasis
  rw [rateBasisFor_rates, rateBasisFor_rates]
  have cachedFlat := rising.cached _ List.mem_cons_self
  obtain ⟨highest, isFlat | ⟨top, isTop, isRates, -⟩⟩ := worst
  · -- Without a tier there are only the base rates.
    have noTiers : pricing.tiers = [] := by
      refine List.eq_nil_iff_forall_not_mem.mpr fun tier isTier => ?_
      have below := highest tier isTier (WithTop.coe_lt_top _)
      rw [isFlat] at below
      have := thresholds tier isTier
      linarith
    simp only [noTiers, List.foldl_nil]
    have isTop : pricing.topInputRate = pricing.inputPerMtokMicrocents := by
      simp [ModelPricing.topInputRate, ModelPricing.topTier, noTiers]
    exact ⟨isTop.symm, le_refl _, le_refl _, cachedFlat.trans isTop.le⟩
  · generalize pricing.tiers.foldl (considerTier ⊤) (pricing.flat, -1) = best
      at highest isTop isRates
    have highest : ∀ tier ∈ pricing.tiers, tier.aboveContextTokens ≤ best.2 :=
      fun tier isTier => highest tier isTier (WithTop.coe_lt_top _)
    have topRate : pricing.topInputRate = top.inputPerMtokMicrocents := by
      rw [ModelPricing.topInputRate, findsTop highest isTop]
    have isMember := List.mem_of_find?_eq_some isTop
    rw [topRate] at cachedFlat ⊢
    rw [isRates]
    refine ⟨rfl, ?_⟩
    obtain ⟨-, isFlat | ⟨tier, isTier, tierRates, -⟩⟩ := actual
    · rw [isFlat]
      have base := rising.base top isMember
      exact ⟨base.1, base.2, cachedFlat⟩
    · generalize pricing.tiers.foldl (considerTier contextTokens) (pricing.flat, -1) = reached
        at isTier tierRates
      have isTierMember := List.mem_of_find?_eq_some isTier
      have cachedTier := rising.cached _
        (List.mem_cons_of_mem _ (List.mem_map_of_mem isTierMember))
      rw [topRate] at cachedTier
      rw [tierRates]
      have isReached : tier.aboveContextTokens = reached.2 := by
        simpa using List.find?_some isTier
      have isBest : top.aboveContextTokens = best.2 := by
        simpa using List.find?_some isTop
      obtain lower | same := (highest tier isTierMember).lt_or_eq
      · have rates := rising.rising tier isTierMember top isMember (isBest ▸ lower)
        exact ⟨rates.1, rates.2, cachedTier⟩
      · have isSame : tier = top := by
          rw [← isReached, same, isTop] at isTier
          exact (Option.some.inj isTier).symm
        subst isSame
        exact ⟨le_refl _, le_refl _, cachedTier⟩

/-! ## Media -/

variable
  {pricing : ModelPricing}

/-- The charge of one entry. -/
def mediaCharge (pricing : ModelPricing)
    (entry : AccountableMediaUnits) : Int :=
  (chargeMedia pricing nothingToCharge entry).microcents

/-- The estimate of one entry. -/
def mediaEstimate (pricing : ModelPricing)
    (entry : MediaUnitsEstimate) : Int :=
  ((usableRate pricing entry.modality).map fun rate => mathRound (entry.units * rate)).getD 0

/-- An entry of a usage is covered by an entry of the estimate in the billed unit. -/
structure Covers (entry : AccountableMediaUnits)
    (estimate : MediaUnitsEstimate) : Prop where
  modality : estimate.modality = entry.modality
  billed : unitMatchesBilledModality entry.modality entry.unit = true
  units : (entry.units.value : ℚ) ≤ estimate.units

theorem usableRate_nonneg
    {modality : MediaBilledModality} {rate : ℚ}
    (isUsable : usableRate pricing modality = some rate) :
    0 ≤ rate := by
  simpa using (Option.filter_eq_some_iff.mp isUsable).2

theorem mediaEstimate_nonneg {estimate : MediaUnitsEstimate} (nonneg : 0 ≤ estimate.units) :
    0 ≤ mediaEstimate pricing estimate := by
  unfold mediaEstimate
  cases isRate : usableRate pricing estimate.modality with
  | none => simp
  | some rate => exact mathRound_nonneg (mul_nonneg nonneg (usableRate_nonneg isRate))

variable {entry : AccountableMediaUnits} {inputTokensEstimate outputTokensReservation : ℚ}
  {mediaUnitsEstimate : List MediaUnitsEstimate}

theorem mediaCharge_le {estimate : MediaUnitsEstimate} (covers : Covers entry estimate) :
    mediaCharge pricing entry ≤ mediaEstimate pricing estimate := by
  have nonneg : (0 : ℚ) ≤ entry.units.value := by exact_mod_cast entry.units.nonneg
  have least : 0 ≤ mediaEstimate pricing estimate :=
    mediaEstimate_nonneg (nonneg.trans covers.units)
  unfold mediaCharge chargeMedia
  split
  · exact least
  split
  · exact least
  rw [covers.billed]
  cases isRate : usableRate pricing entry.modality with
  | none => exact least
  | some rate =>
    have ordered := mul_le_mul_of_nonneg_right covers.units (usableRate_nonneg isRate)
    simpa [nothingToCharge, mediaEstimate, covers.modality, isRate] using mathRound_mono ordered

theorem chargeMedia_microcents (charged : MediaCost) (entry : AccountableMediaUnits) :
    (chargeMedia pricing charged entry).microcents =
      charged.microcents + mediaCharge pricing entry := by
  unfold mediaCharge chargeMedia
  split
  · simp [nothingToCharge]
  split
  · simp [nothingToCharge]
  split <;> simp [nothingToCharge]

theorem chargeMedia_input (notOutput : entry.direction ≠ .output) (charged : MediaCost) :
    chargeMedia pricing charged entry = charged :=
  if_pos notOutput

theorem mem_chargeMedia
    {charged : MediaCost} {modality : MediaBilledModality}
    (billed : unitMatchesBilledModality entry.modality entry.unit = true)
    (isReported : modality ∈ (chargeMedia pricing charged entry).unpricedModalities) :
    modality ∈ charged.unpricedModalities ∨
      entry.modality = modality ∧ usableRate pricing modality = none := by
  unfold chargeMedia at isReported
  split at isReported
  · exact .inl isReported
  split at isReported
  · exact .inl isReported
  rw [billed] at isReported
  cases isRate : usableRate pricing entry.modality with
  | none =>
    simp only [isRate, OrderedSet.mem_add] at isReported
    obtain rfl | isReported := isReported
    · exact .inr ⟨rfl, isRate⟩
    · exact .inl isReported
  | some rate =>
    simp only [isRate] at isReported
    exact .inl isReported

/-- The loop adds the charges of the output, and reports modalities without a rate. -/
theorem foldl_chargeMedia {entries : List AccountableMediaUnits}
    (billed : ∀ entry ∈ entries.filter (·.direction = .output),
      unitMatchesBilledModality entry.modality entry.unit = true)
    (start : MediaCost) :
    (entries.foldl (chargeMedia pricing) start).microcents =
        start.microcents + ((entries.filter (·.direction = .output)).map
          (mediaCharge pricing)).sum ∧
      ∀ modality ∈ (entries.foldl (chargeMedia pricing) start).unpricedModalities,
        modality ∈ start.unpricedModalities ∨
          ∃ entry ∈ entries.filter (·.direction = .output), entry.modality = modality ∧
            usableRate pricing modality = none := by
  induction entries generalizing start with
  | nil => exact ⟨by simp, fun modality isReported => .inl isReported⟩
  | cons entry rest ih =>
    rw [List.foldl_cons]
    by_cases isOutput : entry.direction = .output
    · rw [List.filter_cons_of_pos (by simpa using isOutput)] at billed ⊢
      obtain ⟨isBilled, billed⟩ := List.forall_mem_cons.mp billed
      obtain ⟨microcents, reported⟩ := ih billed (chargeMedia pricing start entry)
      refine ⟨?_, fun modality isReported => ?_⟩
      · rw [microcents, chargeMedia_microcents, List.map_cons, List.sum_cons, add_assoc]
      · obtain isNow | ⟨other, isOther, noRate⟩ := reported modality isReported
        · obtain isStart | noRate := mem_chargeMedia isBilled isNow
          · exact .inl isStart
          · exact .inr ⟨entry, List.mem_cons_self, noRate⟩
        · exact .inr ⟨other, List.mem_cons_of_mem _ isOther, noRate⟩
    · rw [List.filter_cons_of_neg (by simpa using isOutput)] at billed ⊢
      rw [chargeMedia_input isOutput]
      exact ih billed start

theorem estimateMedia_amount (estimated : MediaEstimate) (entry : MediaUnitsEstimate) :
    (estimateMedia pricing estimated entry).amount =
      estimated.amount + mediaEstimate pricing entry := by
  unfold estimateMedia mediaEstimate
  split <;> simp [*]

theorem mem_estimateMedia
    (estimated : MediaEstimate) (entry : MediaUnitsEstimate) (modality : MediaBilledModality) :
    modality ∈ (estimateMedia pricing estimated entry).gaps ↔
      modality ∈ estimated.gaps ∨
        entry.modality = modality ∧ usableRate pricing modality = none := by
  unfold estimateMedia
  cases isRate : usableRate pricing entry.modality with
  | none =>
    rw [OrderedSet.mem_add]
    constructor
    · rintro (rfl | isStart)
      · exact .inr ⟨rfl, isRate⟩
      · exact .inl isStart
    · rintro (isStart | ⟨rfl, -⟩)
      · exact .inr isStart
      · exact .inl rfl
  | some rate =>
    refine (or_iff_left ?_).symm
    rintro ⟨rfl, noRate⟩
    exact absurd (isRate.symm.trans noRate) (by simp)

/-- The loop adds the estimates, and reports the modalities without a rate. -/
theorem foldl_estimateMedia
    (pricing : ModelPricing) (entries : List MediaUnitsEstimate) (start : MediaEstimate) :
    (entries.foldl (estimateMedia pricing) start).amount =
        start.amount + (entries.map (mediaEstimate pricing)).sum ∧
      ∀ modality, modality ∈ (entries.foldl (estimateMedia pricing) start).gaps ↔
        modality ∈ start.gaps ∨
          ∃ entry ∈ entries, entry.modality = modality ∧ usableRate pricing modality = none := by
  induction entries generalizing start with
  | nil => simp
  | cons entry rest ih =>
    obtain ⟨amount, gaps⟩ := ih (estimateMedia pricing start entry)
    rw [List.foldl_cons, amount, estimateMedia_amount, List.map_cons, List.sum_cons, add_assoc]
    refine ⟨rfl, fun modality => ?_⟩
    rw [gaps, mem_estimateMedia, List.exists_mem_cons_iff, or_assoc]

/-! ## The cover -/

/-- The output units of a usage. -/
def AccountableUsage.outputUnits (usage : AccountableUsage) : List AccountableMediaUnits :=
  (usage.mediaUnits.getD []).filter (·.direction = .output)

/-- An estimate reserves a usage: its tokens are within the estimate, and its output units
are covered one by one. -/
structure Reserves (usage : AccountableUsage) (inputTokensEstimate outputTokensReservation : ℚ)
    (mediaUnitsEstimate : List MediaUnitsEstimate) : Prop where
  input : (usage.contextTokens : ℚ) ≤ inputTokensEstimate
  output : (usage.outputTokens.value : ℚ) ≤ outputTokensReservation
  media : ∃ matched, List.Forall₂ Covers usage.outputUnits matched ∧
    matched.Subperm mediaUnitsEstimate

theorem assertEstimate_eq_ok {value : ℚ} (passed : assertEstimate value = .ok ()) :
    0 ≤ value := by
  unfold assertEstimate at passed
  split at passed
  · cases passed
  · next notNegative => exact not_lt.mp notNegative

theorem forM_assertEstimate
    {list : List α} {amount : α → ℚ}
    (passed : (list.forM fun element => assertEstimate (amount element)) = .ok ()) :
    ∀ element ∈ list, 0 ≤ amount element := by
  induction list with
  | nil => simp
  | cons head tail ih =>
    rw [List.forM_eq_forM, List.forM_cons] at passed
    obtain ⟨⟨⟩, isHead, isTail⟩ := bind_eq_ok.mp passed
    exact List.forall_mem_cons.mpr ⟨assertEstimate_eq_ok isHead, ih isTail⟩

theorem exists_covered
    {outputs : List AccountableMediaUnits} {matched : List MediaUnitsEstimate}
    (covers : List.Forall₂ Covers outputs matched) (isEntry : entry ∈ outputs) :
    ∃ estimate ∈ matched, Covers entry estimate := by
  induction covers with
  | nil => exact absurd isEntry List.not_mem_nil
  | cons first _ ih =>
    obtain rfl | isLater := List.mem_cons.mp isEntry
    · exact ⟨_, List.mem_cons_self, first⟩
    · obtain ⟨estimate, isEstimate, covered⟩ := ih isLater
      exact ⟨estimate, List.mem_cons_of_mem _ isEstimate, covered⟩

/-- What a priced estimate has checked and added up. -/
theorem priced_of_estimate
    {tables : PriceTables} {modelId : String} {microcents : Int} {basis : RequestEstimateBasis}
    {unpriced : OrderedSet MediaBilledModality}
    (isPriced : priceModel tables modelId = .ok pricing)
    (estimated : estimateResolvedRequestCost tables modelId inputTokensEstimate
      outputTokensReservation mediaUnitsEstimate = .ok (.priced microcents basis unpriced)) :
    ((∀ entry ∈ mediaUnitsEstimate, 0 ≤ entry.units) ∧
      (∀ tier ∈ pricing.tiers, 0 ≤ tier.aboveContextTokens) ∧
        0 ≤ (worstCaseRateBasis pricing).rates.input ∧
          0 ≤ (worstCaseRateBasis pricing).rates.output) ∧
      microcents =
        mathRound (inputTokensEstimate * (worstCaseRateBasis pricing).rates.input /
            tokensPerMtok) +
          mathRound (outputTokensReservation * (worstCaseRateBasis pricing).rates.output /
            tokensPerMtok) +
          (mediaUnitsEstimate.map (mediaEstimate pricing)).sum ∧
      ∀ modality, modality ∈ unpriced ↔
        ∃ entry ∈ mediaUnitsEstimate,
          entry.modality = modality ∧ usableRate pricing modality = none := by
  unfold estimateResolvedRequestCost at estimated
  obtain ⟨⟨⟩, -, estimated⟩ := bind_eq_ok.mp estimated
  obtain ⟨⟨⟩, -, estimated⟩ := bind_eq_ok.mp estimated
  obtain ⟨⟨⟩, volumes, estimated⟩ := bind_eq_ok.mp estimated
  obtain ⟨_, isPricing, estimated⟩ := bind_eq_ok.mp estimated
  cases isPriced.symm.trans isPricing
  obtain ⟨⟨⟩, thresholds, estimated⟩ := bind_eq_ok.mp estimated
  obtain ⟨⟨⟩, inputRate, estimated⟩ := bind_eq_ok.mp estimated
  obtain ⟨⟨⟩, outputRate, estimated⟩ := bind_eq_ok.mp estimated
  have sums := foldl_estimateMedia pricing mediaUnitsEstimate
    { media := []
      gaps := .empty
      amount :=
        mathRound (inputTokensEstimate * (worstCaseRateBasis pricing).rates.input /
            tokensPerMtok) +
          mathRound (outputTokensReservation * (worstCaseRateBasis pricing).rates.output /
            tokensPerMtok) }
  have isEstimate := pure_eq_ok.mp estimated
  split at isEstimate
  · obtain ⟨rfl, -, rfl⟩ := ResolvedRequestEstimate.priced.inj isEstimate
    refine ⟨⟨forM_assertEstimate volumes, forM_assertEstimate thresholds,
      assertEstimate_eq_ok inputRate, assertEstimate_eq_ok outputRate⟩, sums.1, fun modality => ?_⟩
    rw [sums.2]
    exact or_iff_right (OrderedSet.not_mem_empty modality)
  · cases isEstimate

theorem tokensOf_nonneg (tokens : Option SafeAmount) : 0 ≤ tokensOf tokens := by
  cases tokens with
  | none => exact le_refl 0
  | some amount => exact amount.nonneg

/-- The tokens of a reserved usage cost no more than the estimate and the rounding of two
classes. -/
theorem tokens_le
    {usage : AccountableUsage} {rates worst : Rates} (bounded : BoundedRates worst rates)
    (cacheWrite : pricing.cacheWritePerMtokMicrocents.getD 0 ≤ worst.input)
    (reserves : Reserves usage inputTokensEstimate outputTokensReservation mediaUnitsEstimate)
    (inputRate : 0 ≤ worst.input) (outputRate : 0 ≤ worst.output) :
    perClass usage.inputTokens.value rates.input +
        perClass usage.outputTokens.value rates.output +
        perClass (tokensOf usage.cacheReadTokens) rates.cachedInput +
        perClass (tokensOf usage.cacheWriteTokens) (pricing.cacheWritePerMtokMicrocents.getD 0) ≤
      mathRound (inputTokensEstimate * worst.input / tokensPerMtok) +
        mathRound (outputTokensReservation * worst.output / tokensPerMtok) + 2 := by
  have positive : 0 < tokensPerMtok := by norm_num [tokensPerMtok]
  have inputTokens : (0 : ℚ) ≤ usage.inputTokens.value := by
    exact_mod_cast usage.inputTokens.nonneg
  have outputTokens : (0 : ℚ) ≤ usage.outputTokens.value := by
    exact_mod_cast usage.outputTokens.nonneg
  have cacheRead : (0 : ℚ) ≤ tokensOf usage.cacheReadTokens := by
    exact_mod_cast tokensOf_nonneg usage.cacheReadTokens
  have cacheWritten : (0 : ℚ) ≤ tokensOf usage.cacheWriteTokens := by
    exact_mod_cast tokensOf_nonneg usage.cacheWriteTokens
  have total : (usage.inputTokens.value : ℚ) + tokensOf usage.cacheReadTokens +
      tokensOf usage.cacheWriteTokens ≤ inputTokensEstimate := by
    have within := reserves.input
    unfold AccountableUsage.contextTokens at within
    exact_mod_cast within
  have output : perClass usage.outputTokens.value rates.output ≤
      mathRound (outputTokensReservation * worst.output / tokensPerMtok) := by
    refine mathRound_mono (div_le_div_of_nonneg_right ?_ positive.le)
    calc
      usage.outputTokens.value * rates.output ≤ usage.outputTokens.value * worst.output :=
        mul_le_mul_of_nonneg_left bounded.output outputTokens
      _ ≤ outputTokensReservation * worst.output :=
        mul_le_mul_of_nonneg_right reserves.output outputRate
  have input : perClass usage.inputTokens.value rates.input +
      perClass (tokensOf usage.cacheReadTokens) rates.cachedInput +
      perClass (tokensOf usage.cacheWriteTokens) (pricing.cacheWritePerMtokMicrocents.getD 0) ≤
        mathRound (inputTokensEstimate * worst.input / tokensPerMtok) + 2 := by
    refine mathRound_add_add ?_
    rw [← add_div, ← add_div]
    refine div_le_div_of_nonneg_right ?_ positive.le
    calc
      usage.inputTokens.value * rates.input + tokensOf usage.cacheReadTokens * rates.cachedInput +
          tokensOf usage.cacheWriteTokens * pricing.cacheWritePerMtokMicrocents.getD 0 ≤
          usage.inputTokens.value * worst.input + tokensOf usage.cacheReadTokens * worst.input +
            tokensOf usage.cacheWriteTokens * worst.input := by
        gcongr
        · exact bounded.input
        · exact bounded.cachedInput
      _ = (usage.inputTokens.value + tokensOf usage.cacheReadTokens +
          tokensOf usage.cacheWriteTokens) * worst.input := by ring
      _ ≤ inputTokensEstimate * worst.input := mul_le_mul_of_nonneg_right total inputRate
  omega

theorem mediaCost_spec
    (pricing : ModelPricing) (usage : AccountableUsage) {matched : List MediaUnitsEstimate}
    (covers : List.Forall₂ Covers usage.outputUnits matched) :
    (mediaCost pricing usage.mediaUnits).microcents =
        (usage.outputUnits.map (mediaCharge pricing)).sum ∧
      ∀ modality ∈ (mediaCost pricing usage.mediaUnits).unpricedModalities,
        ∃ entry ∈ usage.outputUnits, entry.modality = modality ∧
          usableRate pricing modality = none := by
  have billed : ∀ entry ∈ usage.outputUnits,
      unitMatchesBilledModality entry.modality entry.unit = true := by
    intro entry isEntry
    obtain ⟨estimate, -, isCovered⟩ := exists_covered covers isEntry
    exact isCovered.billed
  unfold mediaCost
  unfold AccountableUsage.outputUnits at billed ⊢
  cases isUnits : usage.mediaUnits with
  | none => exact ⟨rfl, fun modality isReported =>
    absurd isReported (OrderedSet.not_mem_empty modality)⟩
  | some entries =>
    rw [isUnits, Option.getD_some] at billed
    obtain ⟨microcents, reported⟩ := foldl_chargeMedia billed nothingToCharge
    refine ⟨microcents.trans (zero_add _), fun modality isReported => ?_⟩
    exact (reported modality isReported).resolve_left (OrderedSet.not_mem_empty modality)

/-- The output of a reserved usage costs no more than the estimate of its media. -/
theorem media_le
    (pricing : ModelPricing) {mediaUnitsEstimate matched : List MediaUnitsEstimate}
    {outputs : List AccountableMediaUnits}
    (volumes : ∀ entry ∈ mediaUnitsEstimate, 0 ≤ entry.units)
    (covers : List.Forall₂ Covers outputs matched)
    (isMatched : matched.Subperm mediaUnitsEstimate) :
    (outputs.map (mediaCharge pricing)).sum ≤
      (mediaUnitsEstimate.map (mediaEstimate pricing)).sum := by
  obtain ⟨listed, isPerm, isSublist⟩ := isMatched
  calc
    (outputs.map (mediaCharge pricing)).sum ≤ (matched.map (mediaEstimate pricing)).sum := by
      refine List.Forall₂.sum_le_sum ?_
      rw [List.forall₂_map_left_iff, List.forall₂_map_right_iff]
      exact covers.imp fun _ _ covered => mediaCharge_le covered
    _ = (listed.map (mediaEstimate pricing)).sum := (isPerm.map _).sum_eq.symm
    _ ≤ (mediaUnitsEstimate.map (mediaEstimate pricing)).sum := by
      refine (isSublist.map _).sum_le_sum ?_
      exact List.forall_mem_map.mpr fun entry isEntry => mediaEstimate_nonneg (volumes entry isEntry)

/-- A reserved usage costs no more than the priced estimate and the rounding of the two
extra input classes, and the estimate reports every modality that the cost reports. -/
theorem cost_le_estimate
    {tables : PriceTables} {modelId : String} {usage : Usage} {snapshot : AccountableUsage}
    {microcents : Int} {basis : RequestEstimateBasis} {unpriced : OrderedSet MediaBilledModality}
    (isPriced : priceModel tables modelId = .ok pricing) (rising : RisingRates pricing)
    (accountable : snapshotAccountableUsage usage = .ok snapshot)
    (reserves : Reserves snapshot inputTokensEstimate outputTokensReservation mediaUnitsEstimate)
    (estimated : estimateResolvedRequestCost tables modelId inputTokensEstimate
      outputTokensReservation mediaUnitsEstimate = .ok (.priced microcents basis unpriced)) :
    ∃ charge, cost tables modelId usage = .ok charge ∧
      charge.microcents ≤ microcents + 2 ∧
        ∀ modality ∈ charge.unpricedModalities, modality ∈ unpriced := by
  obtain ⟨⟨volumes, thresholds, inputRate, outputRate⟩, isAmount, isUnpriced⟩ :=
    priced_of_estimate isPriced estimated
  obtain ⟨isTop, bounded⟩ := worstCase_and_bounded rising thresholds
    ((snapshot.contextTokens : ℚ) : WithTop ℚ)
  obtain ⟨matched, covers, isMatched⟩ := reserves.media
  have cacheWrite : pricing.cacheWritePerMtokMicrocents.getD 0 ≤
      (worstCaseRateBasis pricing).rates.input := by
    cases isRate : pricing.cacheWritePerMtokMicrocents with
    | none => exact inputRate
    | some rate => exact isTop ▸ rising.cacheWrite rate isRate
  refine ⟨costSnapshot pricing snapshot, ?_, ?_, ?_⟩
  · simp only [cost, accountable, isPriced]
    rfl
  · have tokens := tokens_le bounded cacheWrite reserves inputRate outputRate
    have media := media_le pricing volumes covers isMatched
    have isMedia := (mediaCost_spec pricing snapshot covers).1
    simp only [costSnapshot, ratesFor, isAmount, isMedia]
    omega
  · intro modality isReported
    obtain ⟨entry, isEntry, rfl, noRate⟩ := (mediaCost_spec pricing snapshot covers).2 modality isReported
    obtain ⟨estimate, isEstimate, isCovered⟩ := exists_covered covers isEntry
    exact (isUnpriced _).mpr ⟨estimate, isMatched.subset isEstimate, isCovered.modality, noRate⟩

/-- A price with one tier and a rate for images. -/
def tieredPricing : ModelPricing where
  inputPerMtokMicrocents := 100000
  outputPerMtokMicrocents := 200000
  cachedInputPerMtokMicrocents := 10000
  cacheWritePerMtokMicrocents := some 120000
  contextTiers := some
    [{ aboveContextTokens := 200000
       inputPerMtokMicrocents := 200000
       outputPerMtokMicrocents := 300000
       cachedInputPerMtokMicrocents := none }]
  mediaOutputRates := some fun modality => if modality = .image then some 500 else none

/-- A usage of all three input classes with two images. -/
def mixedUsage : Usage where
  inputTokens := .integer 1000
  outputTokens := .integer 500
  cacheReadTokens := some (.integer 100)
  cacheWriteTokens := some (.integer 50)
  reasoningTokens := none
  mediaUnits := some [{ modality := .image, direction := .output, units := .integer 2, unit := .count }]
  costMicrocents := none

theorem two_lt : 2 < 2 ^ 53 := by
  decide

def mixedSnapshot : AccountableUsage where
  inputTokens := .ofNat 1000 (by decide)
  outputTokens := .ofNat 500 (by decide)
  cacheReadTokens := some (.ofNat 100 (by decide))
  cacheWriteTokens := some (.ofNat 50 (by decide))
  mediaUnits := some [⟨.image, .output, .ofNat 2 two_lt, .count⟩]

/-- A usage within its estimate. -/
theorem cost_le_estimate_mixed :
    ∃ charge, cost ⟨none, fun _ => some tieredPricing⟩ "model" mixedUsage = .ok charge ∧
      charge.microcents ≤ 2200 + 2 ∧
        ∀ modality ∈ charge.unpricedModalities,
          modality ∈ (OrderedSet.empty : OrderedSet MediaBilledModality) := by
  have rising : RisingRates tieredPricing := by
    refine ⟨?_, ?_, ?_, ?_⟩ <;>
      simp [tieredPricing, ModelPricing.tiers, ModelPricing.flat, CatalogPriceTier.rates,
        ModelPricing.topInputRate, ModelPricing.topTier] <;> norm_num
  have accountable : snapshotAccountableUsage mixedUsage = .ok mixedSnapshot := by
    decide
  have reserves : Reserves mixedSnapshot 2000 1000 [⟨.image, 3⟩] := by
    refine ⟨?_, ?_, [⟨.image, 3⟩], .cons ⟨rfl, rfl, ?_⟩ .nil, .refl _⟩ <;>
      norm_num [mixedSnapshot, AccountableUsage.contextTokens, tokensOf, SafeAmount.ofNat]
  have estimated : estimateResolvedRequestCost ⟨none, fun _ => some tieredPricing⟩ "model" 2000
      1000 [⟨.image, 3⟩] = .ok (.priced 2200
        { inputTokensEstimate := 2000
          outputTokensReservation := 1000
          inputPerMtokMicrocents := 200000
          outputPerMtokMicrocents := 300000
          contextTierAboveTokens := some 200000
          media := [⟨.image, 3, some 500⟩] } .empty) := by
    decide +kernel
  exact cost_le_estimate rfl rising accountable reserves estimated

end Relavium.Llm
