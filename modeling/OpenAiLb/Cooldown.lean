import OpenAiLb.System

/-!
# Cooldowns across observations, flushes and reloads

A usage-limit response with deadline `T` puts a provider on cooldown in two places:
in the snapshot, where `select` reads it, and in the pending map, from where the
next maintenance run writes it. A reload rebuilds the snapshot from the table alone.
The invariant of this file therefore speaks of the cached row and of the row that the
next flush would leave; it survives every operation but a reload that reads the table
while only the pending entry knows about the cooldown.
-/

namespace OpenAiLb

/-- The row cannot become available before `deadline` by the passing of time. -/
def unavailableBefore (deadline : Int) (row : Provider) : Bool :=
  row.manualDisabled || (row.status ≠ .active &&
    (row.status ≠ .cooldown || row.cooldownUntil.all (deadline ≤ ·)))

/-- The row stays unavailable until the deadline. -/
theorem unavailableBefore_iff {deadline : Int} {row : Provider} :
    unavailableBefore deadline row = true ↔
      ∀ now < deadline, providerIsAvailable row now = false := by
  cases hdisabled : row.manualDisabled <;> cases hstatus : row.status <;>
    cases huntil : row.cooldownUntil <;>
    simp [unavailableBefore, providerIsAvailable, hdisabled, hstatus, huntil]
  · exact ⟨deadline - 1, by omega⟩
  · exact ⟨deadline - 1, by omega⟩
  · next moment =>
    exact ⟨fun h now hnow => by omega, fun h => by have := h (deadline - 1); omega⟩

/-- Only the switch, the status and the deadline of a row matter. -/
theorem unavailableBefore_congr {deadline : Int} {row row' : Provider}
    (h : unavailableBefore deadline row = true)
    (hdisabled : row'.manualDisabled = row.manualDisabled)
    (hstatus : row'.status = row.status) (huntil : row'.cooldownUntil = row.cooldownUntil) :
    unavailableBefore deadline row' = true := by
  simpa only [unavailableBefore, hdisabled, hstatus, huntil] using h

/-- The recovery at a moment before the deadline leaves the row alone. -/
theorem recoverRow_of_unavailableBefore {deadline now : Int} {row : Provider}
    (h : unavailableBefore deadline row = true) (hnow : now < deadline) :
    recoverRow now row = row := by
  refine if_neg fun hexpired => ?_
  have havailable : providerIsAvailable row now = true := by
    simp only [isExpiredCooldown, Bool.and_eq_true] at hexpired
    simp [providerIsAvailable, hexpired]
  rw [unavailableBefore_iff.mp h now hnow] at havailable
  cases havailable

/-- A flush without a status does not make a row less available. -/
theorem unavailableBefore_of_flushRow {deadline : Int} {update : ProviderUpdate} {row : Provider}
    (hstatus : update.status = none) (h : unavailableBefore deadline (flushRow update row) = true) :
    unavailableBefore deadline row = true := by
  cases hdisabled : row.manualDisabled with
  | true => simp [unavailableBefore, hdisabled]
  | false => simpa [unavailableBefore, flushRow, hstatus, hdisabled] using h

section Observation

variable {deadline : Int} {update : ProviderUpdate} {row : Provider}

/-- The update keeps a cooldown up: it carries no status, or a cooldown that is as long. -/
def keepsCooldown (deadline : Int) (update : ProviderUpdate) : Bool :=
  update.status.isNone ||
    (update.status = some .cooldown && update.cooldownUntil.all (deadline ≤ ·))

/-- An update with a cooldown that is as long puts every row on cooldown. -/
theorem unavailableBefore_flushRow_of_cooldown (hstatus : update.status = some .cooldown)
    (huntil : update.cooldownUntil.all (deadline ≤ ·) = true) :
    unavailableBefore deadline (flushRow update row) = true := by
  cases hdisabled : row.manualDisabled <;>
    simp [unavailableBefore, flushRow, hdisabled, hstatus, huntil]

/-- Observing a cooldown makes the row unavailable until its deadline. -/
theorem unavailableBefore_observeRow_of_cooldown (hstatus : update.status = some .cooldown)
    (huntil : update.cooldownUntil.all (deadline ≤ ·) = true) :
    unavailableBefore deadline (observeRow update row) = true := by
  cases hdisabled : row.manualDisabled <;>
    simp [unavailableBefore, observeRow, hdisabled, hstatus, huntil]

/-- The cached row after an observation that keeps the cooldown up. -/
theorem unavailableBefore_observeRow (hkeep : keepsCooldown deadline update = true)
    (h : unavailableBefore deadline row = true) :
    unavailableBefore deadline (observeRow update row) = true := by
  obtain hnone | hcooldown := Bool.or_eq_true_iff.mp hkeep
  · rw [Option.isNone_iff_eq_none] at hnone
    simpa [unavailableBefore, observeRow, hnone] using h
  · simp only [Bool.and_eq_true, decide_eq_true_eq] at hcooldown
    exact unavailableBefore_observeRow_of_cooldown hcooldown.1 hcooldown.2

/-- The row that the next flush leaves, after an observation that keeps the cooldown up. -/
theorem unavailableBefore_flushPending_observe {pending : Option ProviderUpdate}
    (hkeep : keepsCooldown deadline update = true)
    (h : unavailableBefore deadline (flushPending pending row) = true) :
    unavailableBefore deadline
      (flushRow (pending.elim update fun current => current.merge update) row) = true := by
  obtain hnone | hcooldown := Bool.or_eq_true_iff.mp hkeep
  · rw [Option.isNone_iff_eq_none] at hnone
    cases pending with
    | none =>
      cases hdisabled : row.manualDisabled with
      | true => simp [unavailableBefore, hdisabled]
      | false =>
        refine unavailableBefore_congr h rfl ?_ ?_ <;> simp [flushRow, hnone, hdisabled]
    | some current =>
      obtain ⟨hs, hc, -, -⟩ := ProviderUpdate.merge_of_status_none (u := current) hnone
      refine unavailableBefore_congr h rfl ?_ ?_ <;> simp [flushRow, hs, hc]
  · simp only [Bool.and_eq_true, decide_eq_true_eq] at hcooldown
    cases pending with
    | none => exact unavailableBefore_flushRow_of_cooldown hcooldown.1 hcooldown.2
    | some current =>
      obtain ⟨hs, hc, -, -⟩ := ProviderUpdate.merge_of_status_some (u := current) hcooldown.1
      exact unavailableBefore_flushRow_of_cooldown hs (hc ▸ hcooldown.2)

end Observation

section Statements

variable {deadline : Int} {pending : Option ProviderUpdate} {row : Provider}

/-- The statements that make a provider available again on purpose: an operator enables it, or
its credentials are refreshed, replaced or created. -/
def Statement.lifts (p : String) : Statement → Bool
  | setEnabled id enabled _ => id = p && enabled
  | refreshProvider id .. | refreshIfNeeded id .. | replaceTokens id .. | createProvider id .. =>
    id = p
  | _ => false

/-- Every other update of the row keeps the provider on cooldown. -/
theorem unavailableBefore_flushPending_update {stmt : Statement}
    (hlifts : stmt.lifts row.id = false)
    (h : unavailableBefore deadline (flushPending pending row) = true) :
    unavailableBefore deadline (flushPending pending (stmt.update row)) = true := by
  unfold Statement.update
  split
  · next happlies =>
    cases stmt with
    | rename => cases pending <;> exact h
    | setEnabled id enabled =>
      obtain rfl : enabled = false := by simp_all [Statement.applies, Statement.lifts]
      cases pending <;> simp [Statement.set, Provider.setEnabled, unavailableBefore, flushRow]
    | refreshFailed id refresh =>
      cases pending with
      | none => simp [Statement.set, Provider.refreshFailed, unavailableBefore]
      | some update =>
        cases hstatus : update.status with
        | none =>
          cases hdisabled : row.manualDisabled <;>
            simp [Statement.set, Provider.refreshFailed, unavailableBefore, flushRow, hstatus,
              hdisabled]
        | some st =>
          simpa [Statement.set, Provider.refreshFailed, unavailableBefore, flushRow, hstatus]
            using h
    | refreshProvider | refreshIfNeeded | replaceTokens =>
      simp_all [Statement.applies, Statement.lifts]
    | createProvider | deleteProvider | createGrant | deleteGrant =>
      simp [Statement.applies] at happlies
  · exact h

end Statements

namespace Node

variable {env : Environment} {p : String} {deadline : Int}

/-- Until its deadline a cooldown shows in the cached row of the provider and in the row that
the next flush would leave. -/
structure CoolsDown (p : String) (deadline : Int) (s : Node) : Prop where
  cached : s.clock < deadline → ∀ row, s.balancer.providers.find? p = some row →
    unavailableBefore deadline row = true
  flushed : s.clock < deadline → ∀ row, s.db.provider? p = some row →
    unavailableBefore deadline (flushPending (s.balancer.providerUpdates.lookup p) row) = true

/-- The operations after which the provider may be chosen again before the deadline: it was
enabled, its credentials changed, or an observation carried another status. -/
def lifts (env : Environment) (p : String) : Operation → Bool
  | .execute stmt => stmt.lifts p
  | .trackResponse now providerId circuitId status body =>
    providerId = p &&
      (trackResponse env.serde now circuitId status body).status.any (· ≠ .cooldown)
  | _ => false

/-- The operation does not drop the cooldown: a reload happens only when the pending entry of the
provider carries no status or its table row is unavailable until the deadline as well, and a
later usage-limit response for the provider names a deadline that is no earlier. -/
def keepsCooldown (env : Environment) (p : String) (deadline : Int) (s : Node) :
    Operation → Bool
  | .reloadProviders =>
    (s.balancer.providerUpdates.lookup p).all (fun update => update.status.isNone) ||
      (s.db.provider? p).all (unavailableBefore deadline)
  | .trackResponse now providerId circuitId status body =>
    let update := trackResponse env.serde now circuitId status body
    providerId ≠ p || update.status ≠ some .cooldown || update.cooldownUntil.all (deadline ≤ ·)
  | _ => true

/-- A usage-limit response puts its provider on cooldown, whatever was known before. -/
theorem coolsDown_of_usageLimit {s t : Node} {now : Int} {circuitId : String} {body : List UInt8}
    (hlimit : usageLimitCooldown ((env.serde.fromSlice body).bind fun response =>
      response.get "error") now = some deadline)
    (hstep : s.step env (.trackResponse now p circuitId 429 body) = some t) :
    t.CoolsDown p deadline := by
  obtain ⟨-, rfl⟩ : s.clock ≤ now ∧ _ = t := by simpa only [step, Option.ite_none_right_eq_some,
    Option.some.injEq] using hstep
  obtain ⟨rateJson, hupdate⟩ := trackResponse_usageLimit circuitId hlimit
  have hstatus : (trackResponse env.serde now circuitId 429 body).status = some .cooldown := by
    rw [hupdate]
    rfl
  have huntil : (trackResponse env.serde now circuitId 429 body).cooldownUntil.all
      (deadline ≤ ·) = true := by
    rw [hupdate]
    simp [usageLimitUpdate]
  refine ⟨fun _ row hrow => ?_, fun _ row _ => ?_⟩
  · simp only [Balancer.observe, Snapshot.find?_observe, Option.map_eq_some_iff] at hrow
    obtain ⟨old, -, rfl⟩ := hrow
    simpa using unavailableBefore_observeRow_of_cooldown hstatus huntil
  · simp only [Balancer.observe, Balancer.lookup_recordUpdate, flushPending_some]
    cases s.balancer.providerUpdates.lookup p with
    | none => exact unavailableBefore_flushRow_of_cooldown hstatus huntil
    | some current =>
      obtain ⟨hs, hc, -, -⟩ := ProviderUpdate.merge_of_status_some (u := current) hstatus
      exact unavailableBefore_flushRow_of_cooldown hs (hc ▸ huntil)

/-- Observing another provider, or an observation that keeps the cooldown up, keeps it. -/
theorem coolsDown_observe {s : Node} {now : Int} {providerId : String} {update : ProviderUpdate}
    (hclock : s.clock ≤ now)
    (hkeep : providerId = p → OpenAiLb.keepsCooldown deadline update = true)
    (hs : s.CoolsDown p deadline) :
    CoolsDown p deadline
      { s with clock := now, balancer := s.balancer.observe providerId update } := by
  refine ⟨fun hnow row hrow => ?_, fun hnow row hrow => ?_⟩
  · simp only [Balancer.observe, Snapshot.find?_observe, Option.map_eq_some_iff] at hrow
    obtain ⟨old, hold, rfl⟩ := hrow
    have hbefore := hs.cached (by simp only at hnow; omega) old hold
    split
    · next heq => exact unavailableBefore_observeRow (hkeep heq.symm) hbefore
    · exact hbefore
  · have hbefore := hs.flushed (by simp only at hnow; omega) row hrow
    by_cases heq : p = providerId
    · subst heq
      simp only [Balancer.observe, Balancer.lookup_recordUpdate, flushPending_some]
      exact unavailableBefore_flushPending_observe (hkeep rfl) hbefore
    · simpa only [Balancer.observe, Balancer.lookup_recordUpdate_ne _ _ heq] using hbefore

/-- A reload that meets the condition shows the cooldown in the new snapshot. -/
theorem coolsDown_reload {s : Node}
    (hkeep : keepsCooldown env p deadline s .reloadProviders = true)
    (hs : s.CoolsDown p deadline) :
    CoolsDown p deadline { s with balancer := s.balancer.reloadProviders s.db } := by
  refine ⟨fun hnow row hrow => ?_, hs.flushed⟩
  simp only [Balancer.reloadProviders, Database.find?_selectProviders] at hrow
  have hflushed := hs.flushed hnow row hrow
  simp only [keepsCooldown, Bool.or_eq_true] at hkeep
  obtain hnone | hrowSafe := hkeep
  · cases hpending : s.balancer.providerUpdates.lookup p with
    | none => simpa [hpending] using hflushed
    | some update =>
      rw [hpending] at hnone hflushed
      exact unavailableBefore_of_flushRow (by simpa using hnone) hflushed
  · simpa [hrow] using hrowSafe

/-- A maintenance run before the deadline writes the cooldown and does not release it. -/
theorem coolsDown_maintain {s : Node} {now : Int} {updates : List (String × ProviderUpdate)}
    {affinities : List (String × AffinityEntry)} (hclock : s.clock ≤ now)
    (hperm : updates.Perm s.balancer.pendingUpdates) (hs : s.CoolsDown p deadline) :
    (s.maintain now updates affinities).CoolsDown p deadline := by
  unfold maintain
  split
  · next db persisted hcommit =>
    refine ⟨fun hnow row hrow => ?_, fun hnow row hrow => ?_⟩
    · simp only [Balancer.providers_afterCommit, Snapshot.find?_recover,
        Option.map_eq_some_iff] at hrow
      obtain ⟨old, hold, rfl⟩ := hrow
      have hbefore := hs.cached (by simp only at hnow; omega) old hold
      rwa [recoverRow_of_unavailableBefore hbefore hnow]
    · rw [Database.provider?_of_maintainTransaction hcommit
        (Balancer.nodup_of_perm_pendingUpdates hperm),
        Balancer.lookup_of_perm_pendingUpdates hperm] at hrow
      obtain ⟨old, hold, rfl⟩ := Option.map_eq_some_iff.mp hrow
      have hbefore := hs.flushed (by simp only at hnow; omega) old hold
      rw [Balancer.lookup_afterCommit hperm, flushPending_none,
        recoverRow_of_unavailableBefore hbefore hnow]
      exact hbefore
  · exact ⟨fun hnow => hs.cached (by simp only at hnow; omega),
      fun hnow => hs.flushed (by simp only at hnow; omega)⟩

/-- A committed statement that does not lift the cooldown keeps it. -/
theorem coolsDown_execute {s : Node} {stmt : Statement} {db : Database} {n : ℕ}
    (hexec : stmt.exec s.db = .ok (db, n)) (hlifts : stmt.lifts p = false)
    (hs : s.CoolsDown p deadline) : CoolsDown p deadline { s with db := db } := by
  refine ⟨hs.cached, fun hnow row hrow => ?_⟩
  rw [Statement.provider?_of_exec hexec] at hrow
  have hupdate : ∀ old, s.db.provider? p = some old → unavailableBefore deadline
      (flushPending (s.balancer.providerUpdates.lookup p) (stmt.update old)) = true := by
    intro old hold
    have hid : old.id = p := Table.key_of_find? hold
    exact unavailableBefore_flushPending_update (hid ▸ hlifts) (hs.flushed hnow old hold)
  cases stmt with
  | createProvider newId =>
    have hne : p ≠ newId := by
      rintro rfl
      simp [Statement.lifts] at hlifts
    simp only [Statement.rowAfter, if_neg hne] at hrow
    exact hs.flushed hnow row hrow
  | deleteProvider gone =>
    simp only [Statement.rowAfter, Option.ite_none_left_eq_some] at hrow
    exact hs.flushed hnow row hrow.2
  | rename | setEnabled | refreshProvider | refreshIfNeeded | refreshFailed | replaceTokens
  | createGrant | deleteGrant =>
    obtain ⟨old, hold, rfl⟩ := Option.map_eq_some_iff.mp hrow
    exact hupdate old hold

/-- **Step lemma**: every operation that neither lifts nor drops the cooldown keeps it. -/
theorem coolsDown_step {s t : Node} {op : Operation} (hs : s.CoolsDown p deadline)
    (hlifts : lifts env p op = false) (hkeep : keepsCooldown env p deadline s op = true)
    (hstep : s.step env op = some t) : t.CoolsDown p deadline := by
  have hlater : ∀ {now : Int} {balancer : Balancer}, s.clock ≤ now →
      balancer.providers = s.balancer.providers →
      balancer.providerUpdates = s.balancer.providerUpdates →
      CoolsDown p deadline ⟨s.db, balancer, now⟩ := by
    intro now balancer hclock hproviders hupdates
    refine ⟨fun hnow row hrow => ?_, fun hnow row hrow => ?_⟩
    · exact hs.cached (Int.lt_of_le_of_lt hclock hnow) row (hproviders ▸ hrow)
    · simpa only [hupdates] using hs.flushed (Int.lt_of_le_of_lt hclock hnow) row hrow
  cases op with
  | trackResponse now providerId circuitId status body =>
    simp only [step, Option.ite_none_right_eq_some, Option.some.injEq] at hstep
    obtain ⟨hclock, rfl⟩ := hstep
    refine coolsDown_observe hclock ?_ hs
    rintro rfl
    simp only [lifts, keepsCooldown] at hlifts hkeep
    cases hstatus : (trackResponse env.serde now circuitId status body).status with
    | none => simp [OpenAiLb.keepsCooldown, hstatus]
    | some st => simp_all [OpenAiLb.keepsCooldown]
  | reloadProviders =>
    cases hstep
    exact coolsDown_reload hkeep hs
  | maintain now updates affinities =>
    simp only [step, Option.ite_none_right_eq_some, Option.some.injEq] at hstep
    obtain ⟨⟨hclock, hperm, -⟩, rfl⟩ := hstep
    exact coolsDown_maintain hclock hperm hs
  | maintainFailed now =>
    simp only [step, Option.ite_none_right_eq_some, Option.some.injEq] at hstep
    obtain ⟨hclock, rfl⟩ := hstep
    exact hlater hclock rfl rfl
  | select now userId allProviders affinity excluded =>
    simp only [step, Option.ite_none_right_eq_some] at hstep
    obtain ⟨hclock, hstep⟩ := hstep
    split at hstep
    · next hselect =>
      cases hstep
      obtain ⟨hproviders, -, hupdates⟩ := Balancer.select_frame hselect
      exact hlater hclock hproviders hupdates
    · cases hstep
      exact hlater hclock rfl rfl
  | dropLease providerId =>
    cases hstep
    unfold Balancer.dropLease
    split <;> exact hlater le_rfl rfl rfl
  | execute stmt =>
    simp only [step] at hstep
    split at hstep
    · next hexec =>
      cases hstep
      exact coolsDown_execute hexec hlifts hs
    · cases hstep
      exact hs
  | forgetProvider providerId =>
    simp only [step, Option.ite_none_right_eq_some, Option.some.injEq] at hstep
    obtain ⟨hgone, rfl⟩ := hstep
    refine ⟨fun hnow row hrow => ?_, fun hnow row hrow => ?_⟩
    · simp only [Balancer.forgetProvider, Snapshot.forget, Table.find?_filter,
        Option.filter_eq_some_iff] at hrow
      exact hs.cached hnow row hrow.1
    · have hne : p ≠ providerId := by
        rintro rfl
        simp [hgone] at hrow
      simpa only [Balancer.forgetProvider, AList.lookup_erase_ne hne] using hs.flushed hnow row hrow

/-- No selection at a moment before the deadline returns the provider. -/
def Withholds (env : Environment) (p : String) (deadline : Int) (s : Node) : Prop :=
  ∀ (now : Int) (userId : String) (allProviders : Bool) (affinity excluded : Option String)
    (lease : Lease) (balancer : Balancer), s.clock ≤ now → now < deadline →
    s.balancer.select env.affinityHash env.affinityTtl now userId allProviders affinity excluded =
      .ok (lease, balancer) → lease.provider.id ≠ p

/-- A provider that cools down is withheld. -/
theorem CoolsDown.withholds {s : Node} (hs : s.CoolsDown p deadline) :
    s.Withholds env p deadline := by
  rintro now userId allProviders affinity excluded lease balancer hclock hnow hselect rfl
  obtain ⟨hmem, -, -⟩ := Balancer.select_mem_eligible hselect
  obtain ⟨hrow, havailable, -⟩ := Balancer.mem_eligible.mp hmem
  have hunavailable := unavailableBefore_iff.mp
    (hs.cached (Int.lt_of_le_of_lt hclock hnow) lease.provider (Table.find?_of_mem hrow)) now hnow
  rw [hunavailable] at havailable
  cases havailable

/-- **A cooldown is respected** in every run whose operations do not drop it: from the usage-limit
response on, and until something lifts the cooldown, no selection before the deadline returns the
provider. -/
theorem withholds_until_deadline {s₀ s t : Node} {now : Int} {circuitId : String}
    {body : List UInt8} {operations : List Operation}
    (hlimit : usageLimitCooldown ((env.serde.fromSlice body).bind fun response =>
      response.get "error") now = some deadline)
    (hobserve : s₀.step env (.trackResponse now p circuitId 429 body) = some s)
    (hlifts : ∀ op ∈ operations, lifts env p op = false)
    (hkeep : Transition.Guarded (step env)
      (fun s op => keepsCooldown env p deadline s op = true) s operations)
    (hrun : s.run env operations = some t) :
    t.Withholds env p deadline := by
  have hs : s.CoolsDown p deadline := coolsDown_of_usageLimit hlimit hobserve
  have hinv : t.CoolsDown p deadline :=
    Transition.invariant_of_guarded (fun hs hok hstep => coolsDown_step hs hok.1 hok.2 hstep)
      (hkeep.and_of_mem hlifts) hrun hs
  exact hinv.withholds

/-- A cooldown that was flushed survives a reload. -/
theorem withholds_after_flush_and_reload :
    (limited.after usageLimitEnvironment
      [.maintain 101 limited.balancer.pendingUpdates [], .reloadProviders]).Withholds
        usageLimitEnvironment "p" 200 := by
  have hlimit : usageLimitCooldown ((usageLimitEnvironment.serde.fromSlice
      (usageLimitBody 200)).bind fun response => response.get "error") 100 = some 200 := by decide
  have hobserve : loaded.step usageLimitEnvironment
      (.trackResponse 100 "p" "c" 429 (usageLimitBody 200)) = some limited := rfl
  exact withholds_until_deadline hlimit hobserve (by decide) (by decide)
    (Transition.run_eq_some_after (by decide))

/-- A reload between the observation and its flush drops the cooldown: one second after the
usage-limit response the provider is chosen again. -/
theorem reload_drops_pending_cooldown :
    ∃ t, limited.run usageLimitEnvironment [.reloadProviders] = some t ∧
      ¬ t.Withholds usageLimitEnvironment "p" 200 := by
  refine ⟨limited.after usageLimitEnvironment [.reloadProviders], rfl, fun h => ?_⟩
  exact h 101 "owner" false none none _ _ (by decide) (by decide) rfl rfl

end Node

end OpenAiLb
