import OpenAiLb.Maintenance

/-!
# The standing of a provider

What an upstream response can change about a provider: its status, its deadline,
its last error, its rate-limit text and the time of its last use. The code applies
an observation to these five fields in three encodings: the edit of the snapshot, the
merge of pending entries and the `UPDATE` of the flush loop. All three agree with the
one definition of this file.
-/

namespace OpenAiLb

/-- The five fields. -/
structure Standing where
  status : ProviderStatus
  cooldownUntil : Option Int
  lastError : Option String
  rateLimitJson : Option String
  lastUsedAt : Option Int
  deriving DecidableEq

/-- The standing in a provider row. -/
def Provider.standing (row : Provider) : Standing where
  status := row.status
  cooldownUntil := row.cooldownUntil
  lastError := row.lastError
  rateLimitJson := row.rateLimitJson
  lastUsedAt := row.lastUsedAt

namespace Standing

/-- One observation: a status replaces what belongs to the status, the rest is always taken. -/
def observe (standing : Standing) (update : ProviderUpdate) : Standing :=
  let known := { standing with
    rateLimitJson := some update.rateLimitJson
    lastUsedAt := update.lastUsedAt.or standing.lastUsedAt }
  match update.status with
  | none => known
  | some status => { known with
      status := status
      cooldownUntil := update.cooldownUntil
      lastError := update.lastError }

/-- Expiry recovery at `now`. -/
def recover (now : Int) (standing : Standing) : Standing :=
  if standing.status = .cooldown ∧ standing.cooldownUntil.any (· ≤ now) = true then
    { standing with status := .active, cooldownUntil := none, lastError := none }
  else standing

/-- The recovery leaves the last use alone. -/
@[simp] theorem lastUsedAt_recover (now : Int) (standing : Standing) :
    (standing.recover now).lastUsedAt = standing.lastUsedAt := by
  unfold recover
  split <;> rfl

/-- Merging two updates is observing one after the other. -/
theorem observe_merge (standing : Standing) (update next : ProviderUpdate) :
    standing.observe (update.merge next) = (standing.observe update).observe next := by
  cases hnext : next.status <;> cases hstatus : update.status <;>
    simp [observe, ProviderUpdate.merge, hnext, hstatus, Option.or_assoc]

/-- Two recoveries are one recovery at the later moment. -/
theorem recover_recover (now later : Int) (standing : Standing) :
    (standing.recover now).recover later = standing.recover (max now later) := by
  unfold recover
  cases huntil : standing.cooldownUntil with
  | none => simp [huntil]
  | some deadline =>
    by_cases hcooldown : standing.status = .cooldown
    · by_cases hdue : deadline ≤ now
      · simp [hcooldown, hdue]
      · by_cases hlater : deadline ≤ later
        · simp [hcooldown, hdue, huntil, hlater]
        · simp [hcooldown, hdue, huntil, hlater]
    · simp [hcooldown]

/-- A recovery before every deadline changes nothing. -/
theorem exists_recover_eq (clock : Int) (standing : Standing) :
    ∃ now ≤ clock, standing.recover now = standing := by
  cases huntil : standing.cooldownUntil with
  | none => exact ⟨clock, le_rfl, by simp [recover, huntil]⟩
  | some deadline =>
    refine ⟨min clock (deadline - 1), by omega, if_neg fun hdue => ?_⟩
    have hle : deadline ≤ min clock (deadline - 1) := by simpa [huntil] using hdue.2
    omega

/-- An observation after a recovery: a status overwrites what the recovery did, and without a
status the recovery may as well come later. -/
theorem observe_recover (now : Int) (standing : Standing) (update : ProviderUpdate) :
    (standing.recover now).observe update =
      if update.status.isSome then standing.observe update
      else (standing.observe update).recover now := by
  cases hstatus : update.status with
  | none =>
    unfold recover observe
    by_cases h : standing.status = .cooldown ∧ standing.cooldownUntil.any (· ≤ now) = true <;>
      simp [hstatus, h]
  | some status =>
    unfold recover observe
    by_cases h : standing.status = .cooldown ∧ standing.cooldownUntil.any (· ≤ now) = true <;>
      simp [hstatus, h]

/-- The same observation twice is one observation. -/
theorem observe_observe (standing : Standing) (update : ProviderUpdate) :
    (standing.observe update).observe update = standing.observe update := by
  cases hstatus : update.status <;> cases hused : update.lastUsedAt <;>
    simp [observe, hstatus, hused]

end Standing

/-- The snapshot edit of `observe` on an enabled row. -/
theorem standing_observeRow {row : Provider} (henabled : row.manualDisabled = false)
    (update : ProviderUpdate) : (observeRow update row).standing = row.standing.observe update := by
  cases hstatus : update.status <;>
    simp [Provider.standing, observeRow, Standing.observe, henabled, hstatus]

/-- The `UPDATE` of the flush loop on an enabled row. -/
theorem standing_flushRow {row : Provider} (henabled : row.manualDisabled = false)
    (update : ProviderUpdate) : (flushRow update row).standing = row.standing.observe update := by
  cases hstatus : update.status <;>
    simp [Provider.standing, flushRow, Standing.observe, henabled, hstatus]

/-- The recovery of an enabled row, in the snapshot and in the table. -/
theorem standing_recoverRow {row : Provider} (henabled : row.manualDisabled = false) (now : Int) :
    (recoverRow now row).standing = row.standing.recover now := by
  by_cases h : row.status = .cooldown ∧ row.cooldownUntil.any (· ≤ now) = true <;>
    simp [Provider.standing, recoverRow, isExpiredCooldown, releaseCooldown, Standing.recover,
      henabled, h]

/-- A flush neither enables nor disables a provider. -/
@[simp] theorem flushPending_manualDisabled (pending : Option ProviderUpdate) (row : Provider) :
    (flushPending pending row).manualDisabled = row.manualDisabled := by
  cases pending <;> rfl

/-- The row that a flush leaves of an enabled row. -/
theorem standing_flushPending {row : Provider} (henabled : row.manualDisabled = false)
    (pending : Option ProviderUpdate) :
    (flushPending pending row).standing = pending.elim row.standing row.standing.observe := by
  cases pending with
  | none => rfl
  | some update => exact standing_flushRow henabled update

/-- Recording an observation in the pending map and flushing it later is observing it now. -/
theorem standing_flushPending_record {row : Provider} (henabled : row.manualDisabled = false)
    (pending : Option ProviderUpdate) (update : ProviderUpdate) :
    (flushRow (pending.elim update fun current => current.merge update) row).standing =
      (flushPending pending row).standing.observe update := by
  rw [standing_flushRow henabled, standing_flushPending henabled]
  cases pending with
  | none => rfl
  | some current => exact Standing.observe_merge _ current update

end OpenAiLb
