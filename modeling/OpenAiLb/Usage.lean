import OpenAiLb.Headers
import Mathlib.Order.Lattice
import Mathlib.Order.Defs.LinearOrder

/-!
# Usage and its price

The token counters that an upstream reports, read from a JSON body or from the lines of
an event stream, and the price of them. The price is computed with saturating 64-bit
arithmetic and with `clamp`, which panics when its bounds are the wrong way round: that
happens exactly for a negative input count of a model that charges for cache writes.
-/

namespace OpenAiLb

/-- The panics that a call can run into. -/
inductive Panic where
  /-- `assertion failed: min <= max` of `Ord::clamp`. -/
  | clampBounds
  /-- The message of `expect`: audit queue capacity is reserved once. -/
  | reservedOnce
  /-- A panic in a call that is awaited. -/
  | elsewhere
  deriving DecidableEq

/-- An exact result brought into the range of an `i64`. -/
def saturate (n : Int) : Int := max i64Min (min n i64Max)

/-- `i64::saturating_add`. -/
def saturatingAdd (a b : Int) : Int := saturate (a + b)

/-- `i64::saturating_sub`. -/
def saturatingSub (a b : Int) : Int := saturate (a - b)

/-- `i64::saturating_mul`. -/
def saturatingMul (a b : Int) : Int := saturate (a * b)

/-- `Ord::clamp`. -/
def clamp (n low high : Int) : Except Panic Int :=
  if low ≤ high then .ok (max low (min n high)) else .error .clampBounds

/-- `Usage`. -/
structure Usage where
  inputTokens : Int
  outputTokens : Int
  cachedTokens : Int
  cacheWriteTokens : Int
  deriving DecidableEq

namespace Usage

/-- `Usage::default`. -/
def zero : Usage := ⟨0, 0, 0, 0⟩

/-- `Usage::merge`. -/
def merge (usage other : Usage) : Usage where
  inputTokens := max usage.inputTokens other.inputTokens
  outputTokens := max usage.outputTokens other.outputTokens
  cachedTokens := max usage.cachedTokens other.cachedTokens
  cacheWriteTokens := max usage.cacheWriteTokens other.cacheWriteTokens

/-- Merging never takes the input count down. -/
theorem le_inputTokens_merge (usage other : Usage) :
    usage.inputTokens ≤ (usage.merge other).inputTokens := le_max_left _ _

/-- The counter at a path below the usage object. -/
def counter (usage : Option Value) (path : List String) : Int :=
  ((usage.bind fun v => v.pointer path).bind Value.asI64).getD 0

/-- `usage_from_value`. -/
def fromValue (value : Value) : Usage :=
  let usage := (value.get "usage").or (value.pointer ["response", "usage"])
  { inputTokens := counter usage ["input_tokens"]
    outputTokens := counter usage ["output_tokens"]
    cachedTokens := counter usage ["input_tokens_details", "cached_tokens"]
    cacheWriteTokens := counter usage ["input_tokens_details", "cache_write_tokens"] }

/-- `usage_from_bytes`. -/
def fromBytes (serde : SerdeJson) (bytes : List UInt8) : Usage :=
  ((serde.fromSlice bytes).map fromValue).getD zero

/-- The object that `Serialize` makes of a usage, with its keys in order. -/
def toValue (usage : Usage) : Value :=
  .object [("cache_write_tokens", .number (.integer usage.cacheWriteTokens)),
    ("cached_tokens", .number (.integer usage.cachedTokens)),
    ("input_tokens", .number (.integer usage.inputTokens)),
    ("output_tokens", .number (.integer usage.outputTokens))]

end Usage

section EventStream

/-- The byte of a line feed. -/
def lineFeed : UInt8 := 10

/-- The lines of a buffer with their line feeds, and what follows the last line feed. -/
def drainLines : List UInt8 → List UInt8 → List (List UInt8) × List UInt8
  | line, [] => ([], line)
  | line, byte :: rest =>
    if byte = lineFeed then
      let (lines, pending) := drainLines [] rest
      ((line ++ [byte]) :: lines, pending)
    else drainLines (line ++ [byte]) rest

/-- `strip_prefix(b"data: ").unwrap_or_default()`. -/
def eventData (line : List UInt8) : List UInt8 :=
  if (asBytes "data: ").isPrefixOf line then line.drop 6 else []

/-- One line of an event stream. -/
def mergeLine (serde : SerdeJson) (usage : Usage) (line : List UInt8) : Usage :=
  (serde.fromSlice (eventData line)).elim usage fun value => usage.merge (Usage.fromValue value)

/-- `update_sse_usage`: the new `pending` and the new usage. -/
def updateSseUsage (serde : SerdeJson) (pending bytes : List UInt8) (usage : Usage) :
    List UInt8 × Usage :=
  let (lines, pending) := drainLines [] (pending ++ bytes)
  (if 2 * 1024 * 1024 < pending.length then [] else pending,
    lines.foldl (mergeLine serde) usage)

/-- **Streamed usage only grows.** -/
theorem le_inputTokens_updateSseUsage (serde : SerdeJson) (pending bytes : List UInt8)
    (usage : Usage) :
    usage.inputTokens ≤ (updateSseUsage serde pending bytes usage).2.inputTokens := by
  have hfold : ∀ (lines : List (List UInt8)) (usage : Usage),
      usage.inputTokens ≤ (lines.foldl (mergeLine serde) usage).inputTokens := by
    intro lines
    induction lines with
    | nil => exact fun usage => le_refl _
    | cons line rest ih =>
      intro usage
      have hline : usage.inputTokens ≤ (mergeLine serde usage line).inputTokens := by
        unfold mergeLine
        cases serde.fromSlice (eventData line) with
        | none => exact le_refl _
        | some value => exact usage.le_inputTokens_merge _
      exact le_trans hline (ih _)
  exact hfold _ usage

end EventStream

section Pricing

/-- `LONG_CONTEXT_THRESHOLD_TOKENS`. -/
def longContextThresholdTokens : Int := 272000

/-- `TokenRates`. -/
structure TokenRates where
  inputUsdNanos : Int
  cachedInputUsdNanos : Int
  cacheWriteUsdNanos : Int
  outputUsdNanos : Int

/-- `TokenPricing`. -/
structure TokenPricing where
  model : String
  short : TokenRates
  long : Option TokenRates

/-- `TokenPricing::rates`. -/
def TokenPricing.rates (pricing : TokenPricing) (inputTokens : Int) : TokenRates :=
  if longContextThresholdTokens ≤ inputTokens then pricing.long.getD pricing.short
  else pricing.short

/-- `TOKEN_PRICING`. -/
def tokenPricing : List TokenPricing :=
  [⟨"gpt-5.6-sol", ⟨5000, 500, 6250, 30000⟩, some ⟨10000, 1000, 12500, 45000⟩⟩,
   ⟨"gpt-5.6-terra", ⟨2000, 200, 2500, 12000⟩, some ⟨4000, 400, 5000, 18000⟩⟩,
   ⟨"gpt-5.6-luna", ⟨200, 20, 250, 1200⟩, some ⟨400, 40, 500, 1800⟩⟩,
   ⟨"gpt-5.5", ⟨5000, 500, 0, 30000⟩, some ⟨10000, 1000, 0, 45000⟩⟩,
   ⟨"gpt-5.5-pro", ⟨30000, 0, 0, 180000⟩, some ⟨60000, 0, 0, 270000⟩⟩,
   ⟨"gpt-5.4", ⟨2500, 250, 0, 15000⟩, some ⟨5000, 500, 0, 22500⟩⟩,
   ⟨"gpt-5.4-mini", ⟨750, 75, 0, 4500⟩, none⟩,
   ⟨"gpt-5.4-nano", ⟨200, 20, 0, 1250⟩, none⟩,
   ⟨"gpt-5.4-pro", ⟨30000, 0, 0, 180000⟩, some ⟨60000, 0, 0, 270000⟩⟩,
   ⟨"gpt-5.3-codex", ⟨1750, 175, 0, 14000⟩, none⟩,
   ⟨"gpt-5.2", ⟨1750, 175, 0, 14000⟩, none⟩,
   ⟨"gpt-5.2-pro", ⟨21000, 0, 0, 168000⟩, none⟩,
   ⟨"gpt-5.1", ⟨1250, 125, 0, 10000⟩, none⟩,
   ⟨"gpt-5", ⟨1250, 125, 0, 10000⟩, none⟩,
   ⟨"gpt-5-mini", ⟨250, 25, 0, 2000⟩, none⟩,
   ⟨"gpt-5-nano", ⟨50, 5, 0, 400⟩, none⟩,
   ⟨"gpt-5-pro", ⟨15000, 0, 0, 120000⟩, none⟩,
   ⟨"gpt-4.1", ⟨2000, 500, 0, 8000⟩, none⟩,
   ⟨"gpt-4.1-mini", ⟨400, 100, 0, 1600⟩, none⟩,
   ⟨"gpt-4.1-nano", ⟨100, 25, 0, 400⟩, none⟩,
   ⟨"gpt-4o", ⟨2500, 1250, 0, 10000⟩, none⟩,
   ⟨"gpt-4o-mini", ⟨150, 75, 0, 600⟩, none⟩,
   ⟨"o1", ⟨15000, 7500, 0, 60000⟩, none⟩,
   ⟨"o1-pro", ⟨150000, 0, 0, 600000⟩, none⟩,
   ⟨"o3", ⟨2000, 500, 0, 8000⟩, none⟩,
   ⟨"o3-pro", ⟨20000, 0, 0, 80000⟩, none⟩,
   ⟨"o4-mini", ⟨1100, 275, 0, 4400⟩, none⟩,
   ⟨"o3-mini", ⟨1100, 550, 0, 4400⟩, none⟩,
   ⟨"gpt-4o-transcribe", ⟨2500, 0, 0, 10000⟩, none⟩,
   ⟨"gpt-4o-mini-transcribe", ⟨1250, 0, 0, 5000⟩, none⟩]

/-- The entry of a model. -/
def pricingOf (model : String) : Option TokenPricing :=
  tokenPricing.find? fun pricing => pricing.model = model

/-- The tokens that are billed as cache writes. -/
def cacheWriteTokens (rates : TokenRates) (usage : Usage) (uncachedTokens : Int) :
    Except Panic Int :=
  if rates.cacheWriteUsdNanos = 0 then .ok 0 else clamp usage.cacheWriteTokens 0 uncachedTokens

/-- The saturated sum of the four kinds of tokens times their rates. -/
def billed (rates : TokenRates) (uncachedTokens cachedTokens cacheWriteTokens outputTokens : Int) :
    Int :=
  saturatingAdd
    (saturatingAdd
      (saturatingAdd
        (saturatingMul (saturatingSub uncachedTokens cacheWriteTokens) rates.inputUsdNanos)
        (saturatingMul cachedTokens rates.cachedInputUsdNanos))
      (saturatingMul cacheWriteTokens rates.cacheWriteUsdNanos))
    (saturatingMul (max outputTokens 0) rates.outputUsdNanos)

/-- `cost_usd_nanos`. -/
def costUsdNanos (model : String) (usage : Usage) : Except Panic (Option Int) :=
  match pricingOf model with
  | none => .ok none
  | some pricing =>
    let rates := pricing.rates usage.inputTokens
    (clamp usage.cachedTokens 0 (max usage.inputTokens 0)).bind fun cachedTokens =>
      let uncachedTokens := saturatingSub usage.inputTokens cachedTokens
      (cacheWriteTokens rates usage uncachedTokens).map fun cacheWriteTokens =>
        some (billed rates uncachedTokens cachedTokens cacheWriteTokens usage.outputTokens)

/-- The model has a price for cache writes in a short context. -/
def chargesCacheWrites (model : String) : Bool :=
  (pricingOf model).any fun pricing => pricing.short.cacheWriteUsdNanos ≠ 0

variable {model : String} {usage : Usage}

/-- Between bounds that are in order, a number is clamped. -/
theorem clamp_of_le {n low high : Int} (h : low ≤ high) :
    clamp n low high = .ok (max low (min n high)) := if_pos h

/-- A saturated difference has the sign of the exact one. -/
theorem saturatingSub_nonneg_iff {a b : Int} : 0 ≤ saturatingSub a b ↔ b ≤ a := by
  unfold saturatingSub saturate i64Min i64Max
  omega

/-- A negative count is priced at the short rates. -/
theorem TokenPricing.rates_of_negative (pricing : TokenPricing) {inputTokens : Int}
    (h : inputTokens < 0) : pricing.rates inputTokens = pricing.short := by
  refine if_neg ?_
  unfold longContextThresholdTokens
  omega

/-- **When the price panics**: a negative input count leaves no room for cache writes. -/
theorem costUsdNanos_of_negative (hmodel : chargesCacheWrites model = true)
    (hinput : usage.inputTokens < 0) : costUsdNanos model usage = .error .clampBounds := by
  obtain ⟨pricing, hpricing, hrate⟩ : ∃ pricing, pricingOf model = some pricing ∧
      pricing.short.cacheWriteUsdNanos ≠ 0 := by
    simpa [chargesCacheWrites, Option.any_eq_true] using hmodel
  have hcached : clamp usage.cachedTokens 0 (max usage.inputTokens 0) = .ok 0 := by
    rw [clamp_of_le (by omega)]
    congr 1
    omega
  have huncached : ¬ 0 ≤ saturatingSub usage.inputTokens 0 := by
    rw [saturatingSub_nonneg_iff]
    omega
  have hwritten : cacheWriteTokens pricing.short usage (saturatingSub usage.inputTokens 0) =
      .error .clampBounds := by
    rw [cacheWriteTokens, if_neg hrate, clamp, if_neg huncached]
  unfold costUsdNanos
  rw [hpricing]
  dsimp only
  rw [pricing.rates_of_negative hinput, hcached, Except.bind, hwritten]
  rfl

/-- **When it does not**: otherwise both clamps have their bounds in order. -/
theorem costUsdNanos_isOk (h : chargesCacheWrites model = true → 0 ≤ usage.inputTokens) :
    ∃ cost, costUsdNanos model usage = .ok cost := by
  unfold costUsdNanos
  cases hpricing : pricingOf model with
  | none => exact ⟨none, rfl⟩
  | some pricing =>
    dsimp only
    obtain ⟨written, hwritten⟩ : ∃ written, cacheWriteTokens (pricing.rates usage.inputTokens)
        usage (saturatingSub usage.inputTokens
          (max 0 (min usage.cachedTokens (max usage.inputTokens 0)))) = .ok written := by
      unfold cacheWriteTokens
      split
      · exact ⟨0, rfl⟩
      · next hwrites =>
        have hinput : 0 ≤ usage.inputTokens := by
          by_contra hnegative
          rw [pricing.rates_of_negative (by omega)] at hwrites
          have hcharges : chargesCacheWrites model = true := by
            rw [chargesCacheWrites, hpricing]
            simpa using hwrites
          exact hnegative (h hcharges)
        have hroom : 0 ≤ saturatingSub usage.inputTokens
            (max 0 (min usage.cachedTokens (max usage.inputTokens 0))) := by
          rw [saturatingSub_nonneg_iff]
          omega
        exact ⟨_, clamp_of_le hroom⟩
    rw [clamp_of_le (by omega), Except.bind, hwritten]
    exact ⟨_, rfl⟩

end Pricing

end OpenAiLb
