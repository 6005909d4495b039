import OpenAiLb.AuditTracker

/-!
# What a usage costs

Terms that are not negative saturate at the top alone, so for counters that are not negative
the cost is the exact price, cut off at the greatest `i64`. An upstream can also report a
negative input count: then the price of a model that charges for cache writes panics, and that
of another model can be a negative amount.
-/

namespace OpenAiLb

section Saturation

/-- Saturating a count that is not negative cuts it at the maximum. -/
theorem saturate_of_nonneg {n : Int} (h : 0 ≤ n) : saturate n = min n i64Max := by
  unfold saturate i64Min i64Max
  omega

/-- Saturation keeps the sign. -/
theorem saturate_nonneg_iff {n : Int} : 0 ≤ saturate n ↔ 0 ≤ n := by
  unfold saturate i64Min i64Max
  omega

/-- Nothing exceeds the maximum afterwards. -/
theorem saturate_le (n : Int) : saturate n ≤ i64Max := by
  unfold saturate i64Min i64Max
  omega

/-- A count is saturated once. -/
theorem saturate_saturate (n : Int) : saturate (saturate n) = saturate n := by
  unfold saturate i64Min i64Max
  omega

/-- Terms that are not negative may be saturated before they are added. -/
theorem saturatingAdd_saturate {a b : Int} (ha : 0 ≤ a) (hb : 0 ≤ b) :
    saturatingAdd (saturate a) (saturate b) = saturate (a + b) := by
  unfold saturatingAdd saturate i64Min i64Max
  omega

end Saturation

/-- The exact price of the four kinds of tokens. -/
def exactPrice (rates : TokenRates)
    (uncachedTokens cachedTokens cacheWriteTokens outputTokens : Int) : Int :=
  (uncachedTokens - cacheWriteTokens) * rates.inputUsdNanos +
    cachedTokens * rates.cachedInputUsdNanos + cacheWriteTokens * rates.cacheWriteUsdNanos +
    max outputTokens 0 * rates.outputUsdNanos

/-- No rate is negative, and input has its price. -/
structure TokenRates.Positive (rates : TokenRates) : Prop where
  input : 0 < rates.inputUsdNanos
  cachedInput : 0 ≤ rates.cachedInputUsdNanos
  cacheWrite : 0 ≤ rates.cacheWriteUsdNanos
  output : 0 ≤ rates.outputUsdNanos

instance (rates : TokenRates) : Decidable rates.Positive :=
  decidable_of_iff (0 < rates.inputUsdNanos ∧ 0 ≤ rates.cachedInputUsdNanos ∧
      0 ≤ rates.cacheWriteUsdNanos ∧ 0 ≤ rates.outputUsdNanos)
    ⟨fun h => ⟨h.1, h.2.1, h.2.2.1, h.2.2.2⟩,
      fun h => ⟨h.input, h.cachedInput, h.cacheWrite, h.output⟩⟩

/-- The table has positive rates only. -/
theorem positive_of_mem_tokenPricing : ∀ pricing ∈ tokenPricing,
    pricing.short.Positive ∧ ∀ rates ∈ pricing.long, rates.Positive := by decide

/-- A priced model is billed at positive rates. -/
theorem positive_rates {model : String} {pricing : TokenPricing}
    (h : pricingOf model = some pricing) (inputTokens : Int) :
    (pricing.rates inputTokens).Positive := by
  obtain ⟨hshort, hlong⟩ := positive_of_mem_tokenPricing pricing (List.mem_of_find?_eq_some h)
  unfold TokenPricing.rates
  split
  · cases hrates : pricing.long with
    | none => exact hshort
    | some rates => exact hlong rates hrates
  · exact hshort

section Amounts

variable {rates : TokenRates} {uncachedTokens cachedTokens cacheWriteTokens : Int}

/-- The four amounts of counts that are not negative are not negative. -/
theorem amounts_nonneg (hrates : rates.Positive) (outputTokens : Int) (hcached : 0 ≤ cachedTokens)
    (hwritten : 0 ≤ cacheWriteTokens) (hle : cacheWriteTokens ≤ uncachedTokens) :
    0 ≤ (uncachedTokens - cacheWriteTokens) * rates.inputUsdNanos ∧
      0 ≤ cachedTokens * rates.cachedInputUsdNanos ∧
      0 ≤ cacheWriteTokens * rates.cacheWriteUsdNanos ∧
      0 ≤ max outputTokens 0 * rates.outputUsdNanos := by
  refine ⟨?_, ?_, ?_, ?_⟩
  · exact Int.mul_nonneg (by omega) hrates.input.le
  · exact Int.mul_nonneg hcached hrates.cachedInput
  · exact Int.mul_nonneg hwritten hrates.cacheWrite
  · exact Int.mul_nonneg (by omega) hrates.output

/-- The exact price of counts that are not negative is not negative. -/
theorem exactPrice_nonneg (hrates : rates.Positive) (outputTokens : Int)
    (hcached : 0 ≤ cachedTokens) (hwritten : 0 ≤ cacheWriteTokens)
    (hle : cacheWriteTokens ≤ uncachedTokens) :
    0 ≤ exactPrice rates uncachedTokens cachedTokens cacheWriteTokens outputTokens := by
  obtain ⟨hinput, hcachedInput, hcacheWrite, houtput⟩ :=
    amounts_nonneg hrates outputTokens hcached hwritten hle
  unfold exactPrice
  omega

/-- **The billed amount is the exact price**, cut off at the greatest `i64`. -/
theorem billed_eq (hrates : rates.Positive) (outputTokens : Int) (hroom : uncachedTokens ≤ i64Max)
    (hcached : 0 ≤ cachedTokens) (hwritten : 0 ≤ cacheWriteTokens)
    (hle : cacheWriteTokens ≤ uncachedTokens) :
    billed rates uncachedTokens cachedTokens cacheWriteTokens outputTokens =
      min (exactPrice rates uncachedTokens cachedTokens cacheWriteTokens outputTokens) i64Max := by
  have hsub : saturatingSub uncachedTokens cacheWriteTokens =
      uncachedTokens - cacheWriteTokens := by
    unfold saturatingSub saturate i64Min
    unfold i64Max at hroom ⊢
    omega
  obtain ⟨hinput, hcachedInput, hcacheWrite, houtput⟩ :=
    amounts_nonneg hrates outputTokens hcached hwritten hle
  unfold billed exactPrice saturatingMul
  rw [hsub, saturatingAdd_saturate hinput hcachedInput,
    saturatingAdd_saturate (by omega) hcacheWrite, saturatingAdd_saturate (by omega) houtput,
    saturate_of_nonneg (by omega)]

end Amounts

section Soundness

/-- The cost of a usage is computed: there is none for a model without a price, and there is an
amount that is not below zero for any other. -/
def CostIsSound (model : String) (usage : Usage) : Prop :=
  ∃ cost, costUsdNanos model usage = .ok cost ∧ (cost = none ↔ pricingOf model = none) ∧
    ∀ amount ∈ cost, 0 ≤ amount ∧ amount ≤ i64Max

/-- `settle` returns, whatever else is recorded, and records no cost below zero. -/
def SettlesSoundly (model : String) (usage : Usage) : Prop :=
  ∀ (event : AuditEvent) (status : Int) (error : Option String) (elapsed : Int),
    ∃ settled, settle event status (some model) usage error elapsed = .ok settled ∧
      ∀ amount ∈ settled.costUsdNanos, 0 ≤ amount ∧ amount ≤ i64Max

/-- The input count is not negative, or the model charges for no cache writes and the output
makes up for what a negative input takes off. -/
def CoversInput (pricing : TokenPricing) (usage : Usage) : Prop :=
  0 ≤ usage.inputTokens ∨
    (pricing.short.cacheWriteUsdNanos = 0 ∧
      -usage.inputTokens * pricing.short.inputUsdNanos ≤
        min (max usage.outputTokens 0 * pricing.short.outputUsdNanos) i64Max)

variable {model : String} {pricing : TokenPricing} {usage : Usage}

/-- The three counts that a usage without a negative input count is billed for. -/
theorem billedCounts_of_nonneg (pricing : TokenPricing) (hinput : 0 ≤ usage.inputTokens) :
    ∃ uncachedTokens cachedTokens written,
      clamp usage.cachedTokens 0 (max usage.inputTokens 0) = .ok cachedTokens ∧
      saturatingSub usage.inputTokens cachedTokens = uncachedTokens ∧
      cacheWriteTokens (pricing.rates usage.inputTokens) usage uncachedTokens = .ok written ∧
      0 ≤ cachedTokens ∧ 0 ≤ written ∧ written ≤ uncachedTokens := by
  have hroom : 0 ≤ max usage.inputTokens 0 := by omega
  have hcached := @clamp_of_le usage.cachedTokens _ _ hroom
  have huncached : 0 ≤ saturatingSub usage.inputTokens
      (max 0 (min usage.cachedTokens (max usage.inputTokens 0))) :=
    saturatingSub_nonneg_iff.mpr (by omega)
  unfold cacheWriteTokens
  split
  · exact ⟨_, _, 0, hcached, rfl, rfl, by omega, le_refl 0, huncached⟩
  · exact ⟨_, _, _, hcached, rfl, clamp_of_le huncached, by omega, by omega, by omega⟩

/-- **Without a negative input count** the cost is an exact price, cut off at the greatest
`i64`. -/
theorem costUsdNanos_of_nonneg (hpricing : pricingOf model = some pricing)
    (hinput : 0 ≤ usage.inputTokens) :
    ∃ uncachedTokens cachedTokens written,
      costUsdNanos model usage = .ok (some (min (exactPrice (pricing.rates usage.inputTokens)
        uncachedTokens cachedTokens written usage.outputTokens) i64Max)) ∧
      0 ≤ cachedTokens ∧ 0 ≤ written ∧ written ≤ uncachedTokens := by
  obtain ⟨uncachedTokens, cachedTokens, written, hcached, huncached, hwritten, hbounds⟩ :=
    billedCounts_of_nonneg pricing hinput
  have hroom : uncachedTokens ≤ i64Max := huncached ▸ saturate_le _
  have hbilled := billed_eq (positive_rates hpricing usage.inputTokens) usage.outputTokens
    hroom hbounds.1 hbounds.2.1 hbounds.2.2
  refine ⟨uncachedTokens, cachedTokens, written, ?_, hbounds⟩
  unfold costUsdNanos
  rw [hpricing]
  dsimp only
  rw [hcached, Except.bind]
  rw [huncached, hwritten, Except.map, hbilled]

/-- A negative input count of a model that does not charge for cache writes takes its price off
that of the output. -/
theorem costUsdNanos_of_negative_uncharged (hpricing : pricingOf model = some pricing)
    (hrate : pricing.short.cacheWriteUsdNanos = 0) (hinput : usage.inputTokens < 0) :
    costUsdNanos model usage = .ok (some (saturatingAdd
      (saturatingMul (saturate usage.inputTokens) pricing.short.inputUsdNanos)
      (saturatingMul (max usage.outputTokens 0) pricing.short.outputUsdNanos))) := by
  have hcached : clamp usage.cachedTokens 0 (max usage.inputTokens 0) = .ok 0 := by
    rw [clamp_of_le (by omega)]
    congr 1
    omega
  have hsum : billed pricing.short (saturatingSub usage.inputTokens 0) 0 0 usage.outputTokens =
      saturatingAdd (saturatingMul (saturate usage.inputTokens) pricing.short.inputUsdNanos)
        (saturatingMul (max usage.outputTokens 0) pricing.short.outputUsdNanos) := by
    simp [billed, saturatingAdd, saturatingSub, saturatingMul, saturate_saturate,
      show saturate 0 = 0 from rfl]
  unfold costUsdNanos
  rw [hpricing]
  dsimp only
  rw [pricing.rates_of_negative hinput, hcached, Except.bind, cacheWriteTokens, if_pos hrate,
    Except.map, hsum]

/-- What is left of the price is not negative when the output covers the input. -/
theorem saturatingAdd_saturatingMul_nonneg_iff {input rate output : Int} (hinput : input < 0)
    (hrate : 0 < rate) (houtput : 0 ≤ output) :
    0 ≤ saturatingAdd (saturatingMul (saturate input) rate) (saturate output) ↔
      -input * rate ≤ min output i64Max := by
  have hneg : input * rate ≤ input * 1 := Int.mul_le_mul_of_nonpos_left hinput.le hrate
  have hflip : -input * rate = -(input * rate) := Int.neg_mul input rate
  rw [hflip, saturatingAdd, saturate_nonneg_iff, saturate_of_nonneg houtput]
  rcases lt_or_ge input i64Min with hlow | hlow
  · have hsaturated : saturate input = i64Min := by
      unfold saturate
      unfold i64Min i64Max at *
      omega
    have hproduct : i64Min * rate ≤ i64Min := by
      unfold i64Min
      omega
    rw [hsaturated, saturatingMul]
    unfold saturate
    unfold i64Min i64Max at *
    omega
  · have hexact : saturate input = input := by
      unfold saturate
      unfold i64Min i64Max at *
      omega
    rw [hexact, saturatingMul]
    unfold saturate
    unfold i64Min i64Max at *
    omega

/-- **The cost is sound** exactly for usages that cover their input. -/
theorem costIsSound_iff (hpricing : pricingOf model = some pricing) :
    CostIsSound model usage ↔ CoversInput pricing usage := by
  have hpositive := (positive_of_mem_tokenPricing pricing
    (List.mem_of_find?_eq_some hpricing)).1
  rcases lt_or_ge usage.inputTokens 0 with hinput | hinput
  · unfold CoversInput
    rw [or_iff_right (by omega)]
    by_cases hrate : pricing.short.cacheWriteUsdNanos = 0
    · have houtput : 0 ≤ max usage.outputTokens 0 * pricing.short.outputUsdNanos :=
        Int.mul_nonneg (by omega) hpositive.output
      have hiff := saturatingAdd_saturatingMul_nonneg_iff hinput hpositive.input houtput
      have hcost := costUsdNanos_of_negative_uncharged hpricing hrate hinput
      rw [← hiff]
      constructor
      · rintro ⟨cost, hsome, -, hamount⟩
        obtain rfl := Except.ok.inj (hcost.symm.trans hsome)
        exact ⟨hrate, (hamount _ rfl).1⟩
      · rintro ⟨-, hamount⟩
        refine ⟨_, hcost, by simp [hpricing], ?_⟩
        rintro amount hsome
        obtain rfl := Option.some.inj hsome
        exact ⟨hamount, saturate_le _⟩
    · have hcharges : chargesCacheWrites model = true := by
        simp [chargesCacheWrites, hpricing, hrate]
      constructor
      · rintro ⟨cost, hsome, -⟩
        rw [costUsdNanos_of_negative hcharges hinput] at hsome
        cases hsome
      · exact fun h => absurd h.1 hrate
  · obtain ⟨uncachedTokens, cachedTokens, written, hcost, hcached, hwritten, hle⟩ :=
      costUsdNanos_of_nonneg hpricing hinput
    have hprice := exactPrice_nonneg (positive_rates hpricing usage.inputTokens)
      usage.outputTokens hcached hwritten hle
    have hsound : CostIsSound model usage := by
      refine ⟨_, hcost, by simp [hpricing], ?_⟩
      rintro amount hsome
      obtain rfl := Option.some.inj hsome
      unfold i64Max
      omega
    exact iff_of_true hsound (.inl hinput)

/-- `settle` adds nothing to the risk: it is sound when the cost is. -/
theorem CostIsSound.settles (h : CostIsSound model usage) : SettlesSoundly model usage := by
  obtain ⟨cost, hcost, -, hamount⟩ := h
  intro event status error elapsed
  have hsettled : settle event status (some model) usage error elapsed = .ok
      { event with
        status := status
        model := some model
        latencyMs := elapsed
        inputTokens := usage.inputTokens
        outputTokens := usage.outputTokens
        cachedTokens := usage.cachedTokens
        costUsdNanos := cost
        error := error } := by
    rw [settle, Option.elim_some, hcost, Except.map]
  exact ⟨_, hsettled, hamount⟩

/-- **The cost is sound for usages that cover their input**, and for no others: for a model that
has a price, `cost_usd_nanos` returns an amount that is not below zero, and `settle` records it,
exactly when the input count is not negative, or is made up for by the output of a model without
a price for cache writes. -/
theorem cost_sound_iff (model : String) (usage : Usage) :
    CostIsSound model usage ∧ SettlesSoundly model usage ↔
      ∀ pricing, pricingOf model = some pricing → CoversInput pricing usage := by
  rw [and_iff_left_of_imp CostIsSound.settles]
  cases hpricing : pricingOf model with
  | none =>
    have hsound : CostIsSound model usage := by
      refine ⟨none, ?_, by simp [hpricing], by simp⟩
      rw [costUsdNanos, hpricing]
    exact iff_of_true hsound nofun
  | some pricing =>
    rw [costIsSound_iff hpricing]
    constructor
    · rintro hcovers pricing' hsame
      obtain rfl := Option.some.inj hsame
      exact hcovers
    · exact fun h => h pricing rfl

/-- The usage that a body reports with a negative input count and nothing else. -/
def negativeInput : Usage :=
  .fromValue (.object [("usage", .object [("input_tokens", .number (.integer (-1)))])])

/-- A negative input count panics for one model, and costs less than nothing for another. -/
theorem negative_input_is_unsound :
    costUsdNanos "gpt-5.6-sol" negativeInput = .error .clampBounds ∧
      costUsdNanos "gpt-5" negativeInput = .ok (some (-1250)) ∧
      ¬ CostIsSound "gpt-5.6-sol" negativeInput ∧ ¬ CostIsSound "gpt-5" negativeInput := by
  have hpanic : costUsdNanos "gpt-5.6-sol" negativeInput = .error .clampBounds := by decide
  have hnegative : costUsdNanos "gpt-5" negativeInput = .ok (some (-1250)) := by decide
  refine ⟨hpanic, hnegative, ?_, ?_⟩
  · rintro ⟨cost, hcost, -⟩
    cases hpanic.symm.trans hcost
  · rintro ⟨cost, hcost, -, hamount⟩
    obtain rfl := Except.ok.inj (hnegative.symm.trans hcost)
    exact absurd (hamount _ rfl).1 (by decide)

end Soundness

end OpenAiLb
