import Relavium.Library.OrderedSet
import Relavium.Llm.UsageEvidence
import Mathlib.Algebra.Order.Floor.Ring
import Mathlib.Algebra.Order.Monoid.Unbundled.WithTop
import Mathlib.Data.Rat.Floor

/-!
# Prices

Model of the rates in `packages/llm/src/cost-tracker.ts` and of the estimate in
`packages/llm/src/budget-estimator.ts`.  Amounts are rational numbers, so every one
is finite and the arithmetic is exact.
-/

namespace Relavium.Llm

open Library

/-! ## Rates -/

structure CatalogPriceTier where
  aboveContextTokens : ℚ
  inputPerMtokMicrocents : ℚ
  outputPerMtokMicrocents : ℚ
  cachedInputPerMtokMicrocents : Option ℚ

structure ModelPricing where
  inputPerMtokMicrocents : ℚ
  outputPerMtokMicrocents : ℚ
  cachedInputPerMtokMicrocents : ℚ
  cacheWritePerMtokMicrocents : Option ℚ
  contextTiers : Option (List CatalogPriceTier)
  mediaOutputRates : Option (MediaBilledModality → Option ℚ)

def ModelPricing.mediaOutputRate (pricing : ModelPricing)
    (modality : MediaBilledModality) : Option ℚ :=
  pricing.mediaOutputRates.bind (· modality)

inductive PricingError
  | unknownModel (modelId : String)
  | invalidTokenEstimate
  | nonAccountableUsage
  deriving DecidableEq

/-- Where prices are looked up: what the user states, and the catalog. -/
structure PriceTables where
  overlay : Option (String → Option ModelPricing)
  catalogPricing : String → Option ModelPricing

/-- `priceModel`: the user's price comes before the catalog's. -/
def priceModel (tables : PriceTables)
    (modelId : String) : Except PricingError ModelPricing :=
  match tables.overlay.bind (· modelId) with
  | some fromUser => .ok fromUser
  | none =>
    match tables.catalogPricing modelId with
    | some fromCatalog => .ok fromCatalog
    | none => .error (.unknownModel modelId)

structure Rates where
  input : ℚ
  output : ℚ
  cachedInput : ℚ

structure RateBasis where
  rates : Rates
  aboveContextTokens : Option ℚ

/-- The base rates. -/
def ModelPricing.flat (pricing : ModelPricing) : Rates where
  input := pricing.inputPerMtokMicrocents
  output := pricing.outputPerMtokMicrocents
  cachedInput := pricing.cachedInputPerMtokMicrocents

/-- The rates of a tier.  Without a rate for cached input it is the input rate. -/
def CatalogPriceTier.rates (tier : CatalogPriceTier) : Rates where
  input := tier.inputPerMtokMicrocents
  output := tier.outputPerMtokMicrocents
  cachedInput := tier.cachedInputPerMtokMicrocents.getD tier.inputPerMtokMicrocents

/-- One turn of `rateBasisFor`: a tier that the context reaches and that is above the
best threshold so far. -/
def considerTier (contextTokens : WithTop ℚ) (best : Rates × ℚ)
    (tier : CatalogPriceTier) : Rates × ℚ :=
  if (tier.aboveContextTokens : WithTop ℚ) < contextTokens ∧ best.2 < tier.aboveContextTokens then
    (tier.rates, tier.aboveContextTokens)
  else best

/-- `rateBasisFor`. -/
def rateBasisFor (pricing : ModelPricing)
    (contextTokens : WithTop ℚ) : RateBasis :=
  match pricing.contextTiers with
  | none | some [] => { rates := pricing.flat, aboveContextTokens := none }
  | some tiers =>
    let (best, bestThreshold) := tiers.foldl (considerTier contextTokens) (pricing.flat, -1)
    { rates := best
      aboveContextTokens := if bestThreshold < 0 then none else some bestThreshold }

/-- `ratesFor`. -/
def ratesFor (pricing : ModelPricing)
    (contextTokens : ℚ) : Rates :=
  (rateBasisFor pricing contextTokens).rates

/-- `worstCaseRateBasis`. -/
def worstCaseRateBasis (pricing : ModelPricing) : RateBasis :=
  rateBasisFor pricing ⊤

/-- `Math.round`. -/
def mathRound (value : ℚ) : Int :=
  ⌊value + 1 / 2⌋

/-- `TOKENS_PER_MTOK`. -/
def tokensPerMtok : ℚ := 1000000

/-! ## The realised charge -/

structure AccountableMediaUnits where
  modality : MediaBilledModality
  direction : MediaDirection
  units : SafeAmount
  unit : MediaUnit
  deriving DecidableEq

/-- A usage with safe counts, of which the charge is made. -/
structure AccountableUsage where
  inputTokens : SafeAmount
  outputTokens : SafeAmount
  cacheReadTokens : Option SafeAmount
  cacheWriteTokens : Option SafeAmount
  mediaUnits : Option (List AccountableMediaUnits)
  deriving DecidableEq

/-- `nonNegativeInt`. -/
def isCount : Quantity → Bool
  | .integer value => 0 ≤ value
  | .nonInteger => false

/-- `UsageSchema`: the counts of a usage, and its reasoning within its output. -/
def usageSchemaAccepts (usage : Usage) : Bool :=
  isCount usage.inputTokens && isCount usage.outputTokens &&
    usage.cacheReadTokens.all isCount && usage.cacheWriteTokens.all isCount &&
    usage.reasoningTokens.all isCount && usage.costMicrocents.all isCount &&
    usage.mediaUnits.all (fun entries => entries.all fun entry => isCount entry.units) &&
    reasoningIsSubset usage.reasoningTokens (some usage.outputTokens)

/-- A count that `assertAccountableUsage` lets pass. -/
def accountable (quantity : Quantity) : Except PricingError SafeAmount :=
  match quantity.safeAmount with
  | some amount => .ok amount
  | none => .error .nonAccountableUsage

def accountableMedia (entry : MediaUnitsEntry) : Except PricingError AccountableMediaUnits := do
  let units ← accountable entry.units
  pure { modality := entry.modality, direction := entry.direction, units, unit := entry.unit }

/-- `snapshotAccountableUsage`. -/
def snapshotAccountableUsage (usage : Usage) : Except PricingError AccountableUsage := do
  unless usageSchemaAccepts usage do throw .nonAccountableUsage
  pure
    { inputTokens := ← accountable usage.inputTokens
      outputTokens := ← accountable usage.outputTokens
      cacheReadTokens := ← usage.cacheReadTokens.mapM accountable
      cacheWriteTokens := ← usage.cacheWriteTokens.mapM accountable
      mediaUnits := ← usage.mediaUnits.mapM fun entries => entries.mapM accountableMedia }

structure MediaCost where
  microcents : Int
  unpricedModalities : OrderedSet MediaBilledModality

/-- `unitMatchesBilledModality`. -/
def unitMatchesBilledModality (modality : MediaBilledModality)
    (unit : MediaUnit) : Bool :=
  if modality = .image then unit = .count else unit = .second

/-- A media rate that is there and not negative. -/
def usableRate (pricing : ModelPricing)
    (modality : MediaBilledModality) : Option ℚ :=
  (pricing.mediaOutputRate modality).filter (0 ≤ ·)

/-- One turn of `mediaCost`. -/
def chargeMedia (pricing : ModelPricing) (charged : MediaCost)
    (entry : AccountableMediaUnits) : MediaCost :=
  if entry.direction ≠ .output then charged
  else if entry.units.value = 0 then charged
  else
    match usableRate pricing entry.modality,
        unitMatchesBilledModality entry.modality entry.unit with
    | some rate, true =>
      { charged with microcents := charged.microcents + mathRound (entry.units.value * rate) }
    | _, _ =>
      { charged with unpricedModalities := charged.unpricedModalities.add entry.modality }

/-- `NOTHING_TO_CHARGE`. -/
def nothingToCharge : MediaCost where
  microcents := 0
  unpricedModalities := .empty

/-- `mediaCost`. -/
def mediaCost (pricing : ModelPricing)
    (mediaUnits : Option (List AccountableMediaUnits)) : MediaCost :=
  match mediaUnits with
  | none => nothingToCharge
  | some entries => entries.foldl (chargeMedia pricing) nothingToCharge

/-- The charge of one class of tokens. -/
def perClass (tokens : ℚ)
    (ratePerMtok : ℚ) : Int :=
  mathRound (tokens * ratePerMtok / tokensPerMtok)

/-- The tokens of a class that may be absent. -/
def tokensOf (tokens : Option SafeAmount) : Int :=
  (tokens.map SafeAmount.value).getD 0

/-- The tokens of the input side, cached or not. -/
def AccountableUsage.contextTokens (usage : AccountableUsage) : Int :=
  usage.inputTokens.value + tokensOf usage.cacheReadTokens + tokensOf usage.cacheWriteTokens

/-- `costSnapshot`, at the price of the model. -/
def costSnapshot (pricing : ModelPricing)
    (usage : AccountableUsage) : MediaCost :=
  let rates := ratesFor pricing usage.contextTokens
  let media := mediaCost pricing usage.mediaUnits
  { microcents :=
      perClass usage.inputTokens.value rates.input +
        perClass usage.outputTokens.value rates.output +
        perClass (tokensOf usage.cacheReadTokens) rates.cachedInput +
        perClass (tokensOf usage.cacheWriteTokens) (pricing.cacheWritePerMtokMicrocents.getD 0) +
        media.microcents
    unpricedModalities := media.unpricedModalities }

/-- `cost`. -/
def cost (tables : PriceTables) (modelId : String)
    (usage : Usage) : Except PricingError MediaCost := do
  let snapshot ← snapshotAccountableUsage usage
  let pricing ← priceModel tables modelId
  pure (costSnapshot pricing snapshot)

/-! ## The estimate -/

structure MediaUnitsEstimate where
  modality : MediaBilledModality
  units : ℚ

structure MediaEstimateBasis where
  modality : MediaBilledModality
  units : ℚ
  rateMicrocents : Option ℚ
  deriving DecidableEq

structure RequestEstimateBasis where
  inputTokensEstimate : ℚ
  outputTokensReservation : ℚ
  inputPerMtokMicrocents : ℚ
  outputPerMtokMicrocents : ℚ
  contextTierAboveTokens : Option ℚ
  media : List MediaEstimateBasis
  deriving DecidableEq

inductive ResolvedRequestEstimate
  | priced (microcents : Int) (basis : RequestEstimateBasis)
      (unpricedModalities : OrderedSet MediaBilledModality)
  | unrepresentable (basis : RequestEstimateBasis)
      (unpricedModalities : OrderedSet MediaBilledModality)
  deriving DecidableEq

/-- `assertEstimate`. -/
def assertEstimate (value : ℚ) : Except PricingError Unit :=
  if value < 0 then .error .invalidTokenEstimate else .ok ()

/-- What the loop over the volumes has collected. -/
structure MediaEstimate where
  media : List MediaEstimateBasis
  gaps : OrderedSet MediaBilledModality
  amount : Int

/-- One turn of the loop over the volumes. -/
def estimateMedia (pricing : ModelPricing) (estimated : MediaEstimate)
    (entry : MediaUnitsEstimate) : MediaEstimate :=
  match usableRate pricing entry.modality with
  | none =>
    { estimated with
      gaps := estimated.gaps.add entry.modality
      media := estimated.media ++
        [{ modality := entry.modality, units := entry.units, rateMicrocents := none }] }
  | some rate =>
    { estimated with
      media := estimated.media ++
        [{ modality := entry.modality, units := entry.units, rateMicrocents := some rate }]
      amount := estimated.amount + mathRound (entry.units * rate) }

/-- `estimateResolvedRequestCost`. -/
def estimateResolvedRequestCost
    (tables : PriceTables) (modelId : String) (inputTokensEstimate outputTokensReservation : ℚ)
    (mediaUnitsEstimate : List MediaUnitsEstimate) :
    Except PricingError ResolvedRequestEstimate := do
  assertEstimate inputTokensEstimate
  assertEstimate outputTokensReservation
  mediaUnitsEstimate.forM fun entry => assertEstimate entry.units
  let pricing ← priceModel tables modelId
  (pricing.contextTiers.getD []).forM fun tier => assertEstimate tier.aboveContextTokens
  let selected := worstCaseRateBasis pricing
  assertEstimate selected.rates.input
  assertEstimate selected.rates.output
  let estimated := mediaUnitsEstimate.foldl (estimateMedia pricing)
    { media := []
      gaps := .empty
      amount :=
        mathRound (inputTokensEstimate * selected.rates.input / tokensPerMtok) +
          mathRound (outputTokensReservation * selected.rates.output / tokensPerMtok) }
  let basis : RequestEstimateBasis :=
    { inputTokensEstimate
      outputTokensReservation
      inputPerMtokMicrocents := selected.rates.input
      outputPerMtokMicrocents := selected.rates.output
      contextTierAboveTokens := selected.aboveContextTokens
      media := estimated.media }
  pure
    (if 0 ≤ estimated.amount ∧ estimated.amount ≤ maxSafeInteger then
      .priced estimated.amount basis estimated.gaps
    else .unrepresentable basis estimated.gaps)

end Relavium.Llm
