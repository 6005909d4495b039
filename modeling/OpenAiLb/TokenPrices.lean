import OpenAiLb.TokenCosts

/-!
# The price of a usage

The counters that an upstream reports need not fit together: it can report more cached tokens
than there are input tokens, and more cache writes than are left. The clamps cut them back to a
partition of the input, so each input token is billed once. The partition grows with the input in
each of its parts, and no rate of the table falls when the context gets long, so a usage with
more tokens never costs less.
-/

namespace OpenAiLb

/-- The counters are those of an `i64`, and none of them is negative. -/
structure Usage.Counted (usage : Usage) : Prop where
  input : 0 ≤ usage.inputTokens ∧ usage.inputTokens ≤ i64Max
  output : 0 ≤ usage.outputTokens ∧ usage.outputTokens ≤ i64Max
  cached : 0 ≤ usage.cachedTokens ∧ usage.cachedTokens ≤ i64Max
  cacheWrite : 0 ≤ usage.cacheWriteTokens ∧ usage.cacheWriteTokens ≤ i64Max

instance (usage : Usage) : Decidable usage.Counted :=
  decidable_of_iff ((0 ≤ usage.inputTokens ∧ usage.inputTokens ≤ i64Max) ∧
      (0 ≤ usage.outputTokens ∧ usage.outputTokens ≤ i64Max) ∧
      (0 ≤ usage.cachedTokens ∧ usage.cachedTokens ≤ i64Max) ∧
      (0 ≤ usage.cacheWriteTokens ∧ usage.cacheWriteTokens ≤ i64Max))
    ⟨fun h => ⟨h.1, h.2.1, h.2.2.1, h.2.2.2⟩,
      fun h => ⟨h.input, h.output, h.cached, h.cacheWrite⟩⟩

/-- Each input token is billed at one of the three input rates, and no count is above what was
reported. -/
structure Partitions (usage : Usage) (freshTokens cachedTokens writtenTokens : Int) : Prop where
  fresh : 0 ≤ freshTokens ∧ freshTokens ≤ usage.inputTokens
  cached : 0 ≤ cachedTokens ∧ cachedTokens ≤ usage.cachedTokens
  written : 0 ≤ writtenTokens ∧ writtenTokens ≤ usage.cacheWriteTokens
  total : freshTokens + cachedTokens + writtenTokens = usage.inputTokens

/-- The cached tokens that a usage can have. -/
def Usage.billedCached (usage : Usage) : Int := min usage.cachedTokens usage.inputTokens

/-- The cache writes that a usage can have at the rates of a tier. -/
def Usage.billedWritten (usage : Usage) (rates : TokenRates) : Int :=
  if rates.cacheWriteUsdNanos = 0 then 0
  else min usage.cacheWriteTokens (usage.inputTokens - usage.billedCached)

/-- The input tokens that are left for the full rate. -/
def Usage.billedFresh (usage : Usage) (rates : TokenRates) : Int :=
  usage.inputTokens - usage.billedCached - usage.billedWritten rates

/-- The exact price of a usage at the rates of a tier. -/
def Usage.exactPrice (usage : Usage) (rates : TokenRates) : Int :=
  usage.billedFresh rates * rates.inputUsdNanos +
    usage.billedCached * rates.cachedInputUsdNanos +
    usage.billedWritten rates * rates.cacheWriteUsdNanos +
    usage.outputTokens * rates.outputUsdNanos

section Price

variable {model : String} {pricing : TokenPricing} {usage : Usage}

/-- The counts of a usage partition its input. -/
theorem Usage.Counted.partitions (h : usage.Counted) (rates : TokenRates) :
    Partitions usage (usage.billedFresh rates) usage.billedCached (usage.billedWritten rates) := by
  rcases h with ⟨hinput, -, hcached, hwrite⟩
  have hbilled : 0 ≤ usage.billedCached ∧ usage.billedCached ≤ usage.cachedTokens ∧
      usage.billedCached ≤ usage.inputTokens := by
    unfold Usage.billedCached
    omega
  have hwritten : 0 ≤ usage.billedWritten rates ∧
      usage.billedWritten rates ≤ usage.cacheWriteTokens ∧
      usage.billedWritten rates ≤ usage.inputTokens - usage.billedCached := by
    unfold Usage.billedWritten
    split <;> omega
  unfold Usage.billedFresh
  constructor <;> omega

/-- The first clamp computes the cached tokens. -/
theorem Usage.Counted.clamp_cached (h : usage.Counted) :
    clamp usage.cachedTokens 0 (max usage.inputTokens 0) = .ok usage.billedCached := by
  have hinput := h.input
  have hcached := h.cached
  rw [clamp_of_le (by omega)]
  congr 1
  unfold Usage.billedCached
  omega

/-- The difference of the two counters does not saturate. -/
theorem Usage.Counted.uncached (h : usage.Counted) :
    saturatingSub usage.inputTokens usage.billedCached =
      usage.inputTokens - usage.billedCached := by
  have hinput := h.input
  have hcached := h.cached
  unfold saturatingSub saturate i64Min Usage.billedCached
  unfold i64Max at *
  omega

/-- The second clamp computes the cache writes. -/
theorem cacheWriteTokens_of_counted (h : usage.Counted) (rates : TokenRates) :
    cacheWriteTokens rates usage (usage.inputTokens - usage.billedCached) =
      .ok (usage.billedWritten rates) := by
  unfold cacheWriteTokens Usage.billedWritten
  split
  · rfl
  · have hinput := h.input
    have hwrite := h.cacheWrite
    have hle : usage.billedCached ≤ usage.inputTokens := by
      unfold Usage.billedCached
      omega
    rw [clamp_of_le (by omega)]
    congr 1
    omega

/-- The cost of a usage is its exact price at the rates of its tier, cut off at the greatest
`i64`. -/
theorem costUsdNanos_eq (hpricing : pricingOf model = some pricing) (h : usage.Counted) :
    costUsdNanos model usage =
      .ok (some (min i64Max (usage.exactPrice (pricing.rates usage.inputTokens)))) := by
  have hrates := positive_rates hpricing usage.inputTokens
  generalize hr : pricing.rates usage.inputTokens = rates at hrates ⊢
  have hparts := h.partitions rates
  have hfresh := hparts.fresh
  have hcached := hparts.cached
  have hroom := h.input
  have houtput : max usage.outputTokens 0 = usage.outputTokens := max_eq_left h.output.1
  have huncached : usage.inputTokens - usage.billedCached ≤ i64Max := by omega
  have hle : usage.billedWritten rates ≤ usage.inputTokens - usage.billedCached := by
    unfold Usage.billedFresh at hfresh
    omega
  have hbilled := billed_eq hrates usage.outputTokens
    huncached hcached.1 hparts.written.1 hle
  unfold costUsdNanos
  rw [hpricing]
  dsimp only
  rw [hr, h.clamp_cached, Except.bind, h.uncached, cacheWriteTokens_of_counted h, Except.map,
    hbilled, min_comm, exactPrice, houtput]
  rfl

/-- **The cost is the exact price**: for a model that has a price and counters that are not
negative, the two clamps of `cost_usd_nanos` split the input tokens into counts that are not
negative, not above what was reported, and add up to the input; none are cache writes when the
tier has no rate for them; and the cost is the exact sum of the four counts times the rates of
the tier, or the greatest `i64` when that is less. -/
theorem cost_is_exact_price (hpricing : pricingOf model = some pricing) (h : usage.Counted) :
    ∃ uncachedTokens cachedTokens writtenTokens,
      clamp usage.cachedTokens 0 (max usage.inputTokens 0) = .ok cachedTokens ∧
      saturatingSub usage.inputTokens cachedTokens = uncachedTokens ∧
      cacheWriteTokens (pricing.rates usage.inputTokens) usage uncachedTokens =
        .ok writtenTokens ∧
      Partitions usage (uncachedTokens - writtenTokens) cachedTokens writtenTokens ∧
      ((pricing.rates usage.inputTokens).cacheWriteUsdNanos = 0 → writtenTokens = 0) ∧
      costUsdNanos model usage = .ok (some (min i64Max
        ((uncachedTokens - writtenTokens) * (pricing.rates usage.inputTokens).inputUsdNanos +
          cachedTokens * (pricing.rates usage.inputTokens).cachedInputUsdNanos +
          writtenTokens * (pricing.rates usage.inputTokens).cacheWriteUsdNanos +
          usage.outputTokens * (pricing.rates usage.inputTokens).outputUsdNanos))) := by
  refine ⟨_, _, _, h.clamp_cached, h.uncached, cacheWriteTokens_of_counted h _, h.partitions _, ?_,
    costUsdNanos_eq hpricing h⟩
  intro hrate
  exact if_pos hrate

/-- Over-reported counters of a long context, in each of the two kinds of tier. -/
theorem cost_is_exact_price_of_long_context :
    (costUsdNanos "gpt-5.6-sol" ⟨300000, 1000, 250000, 90000⟩ = .ok (some 920000000) ∧
      costUsdNanos "gpt-5.4" ⟨300000, 1000, 350000, 90000⟩ = .ok (some 172500000)) ∧
    (∃ uncachedTokens cachedTokens writtenTokens,
      Partitions ⟨300000, 1000, 250000, 90000⟩ (uncachedTokens - writtenTokens) cachedTokens
        writtenTokens) := by
  refine ⟨by decide, ?_⟩
  have hpricing : pricingOf "gpt-5.6-sol" = some (tokenPricing.get ⟨0, by decide⟩) := rfl
  have hcounted : Usage.Counted ⟨300000, 1000, 250000, 90000⟩ := by decide
  obtain ⟨uncachedTokens, cachedTokens, writtenTokens, -, -, -, hparts, -⟩ :=
    cost_is_exact_price hpricing hcounted
  exact ⟨uncachedTokens, cachedTokens, writtenTokens, hparts⟩

end Price

section Monotone

/-- No rate of the second tier is below that of the first, and both charge for cache writes or
neither does. -/
structure TokenRates.Below (short long : TokenRates) : Prop where
  input : short.inputUsdNanos ≤ long.inputUsdNanos
  cachedInput : short.cachedInputUsdNanos ≤ long.cachedInputUsdNanos
  cacheWrite : short.cacheWriteUsdNanos ≤ long.cacheWriteUsdNanos
  output : short.outputUsdNanos ≤ long.outputUsdNanos
  uncharged : short.cacheWriteUsdNanos = 0 ↔ long.cacheWriteUsdNanos = 0

instance (short long : TokenRates) : Decidable (short.Below long) :=
  decidable_of_iff (short.inputUsdNanos ≤ long.inputUsdNanos ∧
      short.cachedInputUsdNanos ≤ long.cachedInputUsdNanos ∧
      short.cacheWriteUsdNanos ≤ long.cacheWriteUsdNanos ∧
      short.outputUsdNanos ≤ long.outputUsdNanos ∧
      (short.cacheWriteUsdNanos = 0 ↔ long.cacheWriteUsdNanos = 0))
    ⟨fun h => ⟨h.1, h.2.1, h.2.2.1, h.2.2.2.1, h.2.2.2.2⟩,
      fun h => ⟨h.input, h.cachedInput, h.cacheWrite, h.output, h.uncharged⟩⟩

/-- Rates are not above themselves. -/
theorem TokenRates.Below.refl (rates : TokenRates) : rates.Below rates :=
  ⟨le_refl _, le_refl _, le_refl _, le_refl _, Iff.rfl⟩

/-- In the table a long context never has a lower rate. -/
theorem below_of_mem_tokenPricing : ∀ pricing ∈ tokenPricing,
    ∀ rates ∈ pricing.long, pricing.short.Below rates := by decide

/-- Every entry of the table is found under its model. -/
theorem pricingOf_isSome : ∀ pricing ∈ tokenPricing, (pricingOf pricing.model).isSome := by
  decide

/-- The rates do not fall when the input grows. -/
theorem rates_below {pricing : TokenPricing} (hmem : pricing ∈ tokenPricing)
    {inputTokens inputTokens' : Int} (hle : inputTokens ≤ inputTokens') :
    (pricing.rates inputTokens).Below (pricing.rates inputTokens') := by
  have hbelow : pricing.short.Below (pricing.long.getD pricing.short) := by
    cases hlong : pricing.long with
    | none => exact .refl _
    | some rates => exact below_of_mem_tokenPricing pricing hmem rates hlong
  unfold TokenPricing.rates
  split
  · rw [if_pos (by omega)]
    exact .refl _
  · split
    · exact hbelow
    · exact .refl _

/-- The second usage has at least the input and the output of the first, and the other counters
are the same. -/
structure Usage.Within (usage usage' : Usage) : Prop where
  input : usage.inputTokens ≤ usage'.inputTokens
  output : usage.outputTokens ≤ usage'.outputTokens
  cached : usage.cachedTokens = usage'.cachedTokens
  cacheWrite : usage.cacheWriteTokens = usage'.cacheWriteTokens

variable {model : String} {usage usage' : Usage} {rates rates' : TokenRates}

/-- **With more input no part of the partition gets smaller.** -/
theorem Usage.Within.parts_le (h : usage.Within usage') (hrates : rates.Below rates') :
    usage.billedFresh rates ≤ usage'.billedFresh rates' ∧
      usage.billedCached ≤ usage'.billedCached ∧
      usage.billedWritten rates ≤ usage'.billedWritten rates' := by
  rcases h with ⟨hinput, -, hcached, hwrite⟩
  have hbilled : usage.billedCached ≤ usage'.billedCached ∧
      usage.inputTokens - usage.billedCached ≤ usage'.inputTokens - usage'.billedCached := by
    unfold Usage.billedCached
    omega
  have huncharged := hrates.uncharged
  unfold Usage.billedFresh Usage.billedWritten
  split <;> rename_i hzero
  · rw [if_pos (huncharged.mp hzero)]
    omega
  · rw [if_neg (fun hzero' => hzero (huncharged.mpr hzero'))]
    omega

/-- Larger counts at higher rates have a higher exact price. -/
theorem Usage.Within.exactPrice_le (h : usage.Within usage') (hcounted : usage.Counted)
    (hrates : rates.Below rates') (hpositive : rates.Positive) :
    usage.exactPrice rates ≤ usage'.exactPrice rates' := by
  have hparts := hcounted.partitions rates
  obtain ⟨hfresh, hcached, hwritten⟩ := h.parts_le hrates
  have hinputPrice : usage.billedFresh rates * rates.inputUsdNanos ≤
      usage'.billedFresh rates' * rates'.inputUsdNanos :=
    Int.mul_le_mul hfresh hrates.input hpositive.input.le (hparts.fresh.1.trans hfresh)
  have hcachedPrice : usage.billedCached * rates.cachedInputUsdNanos ≤
      usage'.billedCached * rates'.cachedInputUsdNanos :=
    Int.mul_le_mul hcached hrates.cachedInput hpositive.cachedInput
      (hparts.cached.1.trans hcached)
  have hwrittenPrice : usage.billedWritten rates * rates.cacheWriteUsdNanos ≤
      usage'.billedWritten rates' * rates'.cacheWriteUsdNanos :=
    Int.mul_le_mul hwritten hrates.cacheWrite hpositive.cacheWrite
      (hparts.written.1.trans hwritten)
  have houtputPrice : usage.outputTokens * rates.outputUsdNanos ≤
      usage'.outputTokens * rates'.outputUsdNanos :=
    Int.mul_le_mul h.output hrates.output hpositive.output (hcounted.output.1.trans h.output)
  unfold Usage.exactPrice
  omega

/-- **More tokens never cost less**: for every model of the table and counters that are not
negative, raising the input or the output and keeping the other counters does not lower the
cost, whichever of the clamps, the tiers and the saturations the raise runs into. -/
theorem more_tokens_never_cost_less {pricing : TokenPricing} (hmem : pricing ∈ tokenPricing)
    (hmodel : model = pricing.model) (hcounted : usage.Counted) (hcounted' : usage'.Counted)
    (hwithin : usage.Within usage') :
    ∃ cost cost', costUsdNanos model usage = .ok (some cost) ∧
      costUsdNanos model usage' = .ok (some cost') ∧ cost ≤ cost' := by
  obtain ⟨priced, hpriced⟩ := Option.isSome_iff_exists.mp (pricingOf_isSome pricing hmem)
  rw [← hmodel] at hpriced
  have hrates := rates_below (List.mem_of_find?_eq_some hpriced) hwithin.input
  have hexact := hwithin.exactPrice_le hcounted hrates (positive_rates hpriced _)
  refine ⟨_, _, costUsdNanos_eq hpriced hcounted, costUsdNanos_eq hpriced hcounted', ?_⟩
  omega

/-- One more input token takes a usage into the long context. -/
theorem more_tokens_never_cost_less_at_threshold :
    ∃ cost cost', costUsdNanos "gpt-5.6-sol" ⟨271999, 0, 100, 50⟩ = .ok (some cost) ∧
      costUsdNanos "gpt-5.6-sol" ⟨272000, 0, 100, 50⟩ = .ok (some cost') ∧ cost ≤ cost' :=
  more_tokens_never_cost_less (List.mem_cons_self ..) rfl (by decide) (by decide)
    ⟨by decide, by decide, rfl, rfl⟩

end Monotone

end OpenAiLb
