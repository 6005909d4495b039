import OpenAiLb.MaintenancePhases
import OpenAiLb.Standing

/-!
# What the flush knows about the observations

The row, the pending entry and the copy that a running maintenance holds together
account for every observation of a provider. The invariant compares values: an entry
that equals the written one may be removed, since observing the same update again
changes nothing. It breaks at one point only, when an observation merges between the
comparison and the removal of the entry.
-/

namespace OpenAiLb

/-- The standing is the given one up to an expiry recovery at some moment so far. -/
def RecoveredFrom (clock : Int) (standing sequential : Standing) : Prop :=
  ∃ moment ≤ clock, standing = sequential.recover moment

namespace RecoveredFrom

variable {clock moment : Int} {standing sequential : Standing}

/-- A standing is recovered from itself. -/
theorem refl (clock : Int) (standing : Standing) : RecoveredFrom clock standing standing := by
  obtain ⟨moment, hle, heq⟩ := standing.exists_recover_eq clock
  exact ⟨moment, hle, heq.symm⟩

/-- It stays so at a later second. -/
theorem mono {later : Int} (h : RecoveredFrom clock standing sequential) (hle : clock ≤ later) :
    RecoveredFrom later standing sequential := by
  obtain ⟨moment, hmoment, heq⟩ := h
  exact ⟨moment, Int.le_trans hmoment hle, heq⟩

/-- One more recovery. -/
theorem recover (h : RecoveredFrom clock standing sequential) (hle : moment ≤ clock) :
    RecoveredFrom clock (standing.recover moment) sequential := by
  obtain ⟨earlier, hearlier, rfl⟩ := h
  exact ⟨max earlier moment, by omega, sequential.recover_recover earlier moment⟩

/-- One more observation, on both sides. -/
theorem observe (h : RecoveredFrom clock standing sequential) (update : ProviderUpdate) :
    RecoveredFrom clock (standing.observe update) (sequential.observe update) := by
  obtain ⟨moment, hle, rfl⟩ := h
  rw [Standing.observe_recover]
  split
  · exact refl clock _
  · exact ⟨moment, hle, rfl⟩

/-- Writing an update, recovering, and writing the same update again. -/
theorem observe_recover_observe {update : ProviderUpdate}
    (h : RecoveredFrom clock (standing.observe update) sequential) (hle : moment ≤ clock) :
    RecoveredFrom clock (((standing.observe update).recover moment).observe update)
      sequential := by
  rw [Standing.observe_recover, Standing.observe_observe]
  split
  · exact h
  · exact h.recover hle

end RecoveredFrom

namespace Standing

/-- The standing once a pending entry is flushed. -/
def observePending (standing : Standing) (pending : Option ProviderUpdate) : Standing :=
  pending.elim standing standing.observe

@[simp] theorem observePending_none (standing : Standing) :
    standing.observePending none = standing := rfl

@[simp] theorem observePending_some (standing : Standing) (update : ProviderUpdate) :
    standing.observePending (some update) = standing.observe update := rfl

/-- Recording an observation in the pending entry is observing it after the entry. -/
theorem observePending_record (standing : Standing) (pending : Option ProviderUpdate)
    (update : ProviderUpdate) :
    standing.observe (pending.elim update fun current => current.merge update) =
      (standing.observePending pending).observe update := by
  cases pending with
  | none => rfl
  | some current => exact standing.observe_merge current update

/-- A row that was written with `update` and recovered at `moment`: writing the same update again
and recovering again leads back to it. -/
def WrittenWith (standing : Standing) (update : ProviderUpdate) (moment : Int) : Prop :=
  (standing.observe update).recover moment = standing

/-- Writing an update and recovering leaves what was written. -/
theorem writtenWith_of_write (standing : Standing) (update : ProviderUpdate) (moment : Int) :
    ((standing.observe update).recover moment).WrittenWith update moment := by
  unfold WrittenWith
  rw [observe_recover, observe_observe]
  split
  · rfl
  · rw [recover_recover, max_self]

end Standing

namespace PhasedStep

/-- The observation that a step makes of a provider. -/
def observationOf (serde : SerdeJson) (p : String) : PhasedStep → Option ProviderUpdate
  | .trackResponse now providerId circuitId status body =>
    if providerId = p then some (OpenAiLb.trackResponse serde now circuitId status body) else none
  | _ => none

/-- Sequential application: the step's observation, if it makes one, is applied to the standing. -/
def apply (serde : SerdeJson) (p : String) (standing : Standing) (step : PhasedStep) : Standing :=
  (step.observationOf serde p).elim standing standing.observe

/-- The step belongs to maintenance or is an observation. -/
def isMaintenance : PhasedStep → Bool
  | .execute _ | .forgetProvider _ => false
  | _ => true

end PhasedStep

namespace PhasedNode

variable {serde : SerdeJson} {p : String}

/-- What the copy of the running maintenance adds to the account: before the transaction, the row
that it will leave with the pending entry on top; after it, that the row was written with the
copied entry; and at the point of removal, that nothing is pending beyond the row. -/
def PhaseAccounts (p : String) (standing : Standing) (pending : Option ProviderUpdate)
    (clock : Int) (sequential : Standing) : MaintenancePhase → Prop
  | .idle => True
  | .snapshotted now updates _ =>
    now ≤ clock ∧ (updates.map Prod.fst).Nodup ∧
      RecoveredFrom clock
        (((standing.observePending (updates.lookup p)).recover now).observePending pending)
        sequential
  | .cleaning now remaining _ =>
    now ≤ clock ∧ ∀ update, (p, update) ∈ remaining → standing.WrittenWith update now
  | .compared now id remaining _ =>
    now ≤ clock ∧ (∀ update, (p, update) ∈ remaining → standing.WrittenWith update now) ∧
      (id = p → RecoveredFrom clock standing sequential)

/-- **The invariant.** The provider exists and is enabled, its row with the pending entry on top is
the sequential outcome up to recovery, and so is what the running maintenance makes of it. -/
structure Accounts (p : String) (s : PhasedNode) (sequential : Standing) : Prop where
  row : ∃ row, s.db.provider? p = some row ∧ row.manualDisabled = false ∧
    RecoveredFrom s.clock
      (row.standing.observePending (s.balancer.providerUpdates.lookup p)) sequential ∧
    PhaseAccounts p row.standing (s.balancer.providerUpdates.lookup p) s.clock sequential s.phase

/-- The step makes no observation of a provider between the comparison and the removal of its
entry. -/
def sparesComparedEntry (p : String) (s : PhasedNode) : PhasedStep → Bool
  | .trackResponse _ providerId _ _ _ =>
    match s.phase with
    | .compared _ id _ _ => !(providerId = p && id = p)
    | _ => true
  | _ => true

/-- The invariant at the start. -/
theorem Started.accounts {s : PhasedNode} {row : Provider} (h : s.Started)
    (hrow : s.db.provider? p = some row) (henabled : row.manualDisabled = false) :
    s.Accounts p row.standing := by
  refine ⟨row, hrow, henabled, ?_, ?_⟩
  · rw [h.pending p]
    exact RecoveredFrom.refl _ _
  · rw [h.phase]
    trivial

/-- A later clock keeps what the phase accounts for. -/
theorem PhaseAccounts.mono {standing sequential : Standing} {pending : Option ProviderUpdate}
    {clock later : Int} {phase : MaintenancePhase}
    (h : PhaseAccounts p standing pending clock sequential phase) (hle : clock ≤ later) :
    PhaseAccounts p standing pending later sequential phase := by
  cases phase with
  | idle => trivial
  | snapshotted => exact ⟨Int.le_trans h.1 hle, h.2.1, h.2.2.mono hle⟩
  | cleaning => exact ⟨Int.le_trans h.1 hle, h.2⟩
  | compared => exact ⟨Int.le_trans h.1 hle, h.2.1, fun heq => (h.2.2 heq).mono hle⟩

/-- An observation of the provider is accounted for in every phase but the one at the point of
removal. -/
theorem PhaseAccounts.observe {standing sequential : Standing} {pending : Option ProviderUpdate}
    {clock : Int} {phase : MaintenancePhase} (update : ProviderUpdate)
    (h : PhaseAccounts p standing pending clock sequential phase)
    (hspares : ∀ now id remaining persisted,
      phase = .compared now id remaining persisted → id ≠ p) :
    PhaseAccounts p standing (some (pending.elim update fun current => current.merge update)) clock
      (sequential.observe update) phase := by
  cases phase with
  | idle => trivial
  | snapshotted now updates =>
    refine ⟨h.1, h.2.1, ?_⟩
    rw [Standing.observePending_some, Standing.observePending_record]
    exact h.2.2.observe update
  | cleaning => exact h
  | compared now id remaining persisted =>
    exact ⟨h.1, h.2.1, fun heq => absurd heq (hspares now id remaining persisted rfl)⟩

/-- Observations keep the account. -/
theorem accounts_trackResponse {s t : PhasedNode} {sequential : Standing} {now : Int}
    {providerId circuitId : String} {status : ℕ} {body : List UInt8} (h : s.Accounts p sequential)
    (hspares : s.sparesComparedEntry p (.trackResponse now providerId circuitId status body) = true)
    (hstep : s.step serde (.trackResponse now providerId circuitId status body) = some t) :
    t.Accounts p ((PhasedStep.trackResponse now providerId circuitId status body).apply serde p
      sequential) := by
  simp only [step, Option.ite_none_right_eq_some, Option.some.injEq] at hstep
  obtain ⟨⟨hclock, -⟩, rfl⟩ := hstep
  obtain ⟨row, hrow, henabled, hmain, hphase⟩ := h
  refine ⟨row, hrow, henabled, ?_⟩
  by_cases heq : providerId = p
  · subst heq
    have hmerged : ∀ now id remaining persisted,
        s.phase = .compared now id remaining persisted → id ≠ providerId := by
      intro now id remaining persisted hcompared
      simpa [sparesComparedEntry, hcompared] using hspares
    simp only [PhasedStep.apply, PhasedStep.observationOf, if_true, Option.elim_some,
      Balancer.observe,
      Balancer.lookup_recordUpdate, Standing.observePending_some, Standing.observePending_record]
    exact ⟨(hmain.mono hclock).observe _, (hphase.mono hclock).observe _ hmerged⟩
  · simp only [PhasedStep.apply, PhasedStep.observationOf, if_neg heq, Option.elim_none,
      Balancer.observe,
      Balancer.lookup_recordUpdate_ne _ _ (Ne.symm heq)]
    exact ⟨hmain.mono hclock, hphase.mono hclock⟩

/-- The transaction leaves the row that the phase before it accounts for. -/
theorem accounts_transaction {s t : PhasedNode} {sequential : Standing}
    (h : s.Accounts p sequential) (hstep : s.step serde .transaction = some t) :
    t.Accounts p sequential := by
  obtain ⟨row, hrow, henabled, hmain, hphase⟩ := h
  simp only [step] at hstep
  split at hstep
  · next now updates affinities hsnapshotted =>
    rw [hsnapshotted] at hphase
    obtain ⟨hclock, hnodup, haccount⟩ := hphase
    split at hstep
    · next db persisted hcommit =>
      cases hstep
      have hstanding : (recoverRow now (flushPending (updates.lookup p) row)).standing =
          (row.standing.observePending (updates.lookup p)).recover now := by
        rw [standing_recoverRow (by simpa using henabled), standing_flushPending henabled]
        rfl
      refine ⟨recoverRow now (flushPending (updates.lookup p) row), ?_, by simpa using henabled, ?_⟩
      · rw [Database.provider?_of_maintainTransaction hcommit hnodup, hrow, Option.map_some]
      · rw [hstanding]
        refine ⟨haccount, hclock, fun update hmem => ?_⟩
        rw [Assoc.lookup_of_mem hnodup hmem]
        exact Standing.writtenWith_of_write _ _ _
    · cases hstep
      exact ⟨row, hrow, henabled, hmain, trivial⟩
  · cases hstep

/-- The comparison finds out that nothing is pending beyond the row. -/
theorem accounts_compare {s t : PhasedNode} {sequential : Standing} (h : s.Accounts p sequential)
    (hstep : s.step serde .compare = some t) : t.Accounts p sequential := by
  obtain ⟨row, hrow, henabled, hmain, hphase⟩ := h
  simp only [step] at hstep
  split at hstep
  · next now id update remaining persisted hcleaning =>
    cases hstep
    rw [hcleaning] at hphase
    obtain ⟨hclock, hwritten⟩ := hphase
    refine ⟨row, hrow, henabled, hmain, ?_⟩
    have hrest : ∀ update, (p, update) ∈ remaining → row.standing.WrittenWith update now :=
      fun update hmem => hwritten update (List.mem_cons_of_mem _ hmem)
    dsimp only
    split
    · next hequal =>
      refine ⟨hclock, hrest, ?_⟩
      rintro rfl
      rw [hequal, Standing.observePending_some] at hmain
      have hrow : row.standing.WrittenWith update now := hwritten update List.mem_cons_self
      rw [← hrow]
      exact hmain.recover hclock
    · exact ⟨hclock, hrest⟩
  · cases hstep

/-- The removal drops an entry that the row accounts for. -/
theorem accounts_remove {s t : PhasedNode} {sequential : Standing} (h : s.Accounts p sequential)
    (hstep : s.step serde .remove = some t) : t.Accounts p sequential := by
  obtain ⟨row, hrow, henabled, hmain, hphase⟩ := h
  simp only [step] at hstep
  split at hstep
  · next now id remaining persisted hcompared =>
    cases hstep
    rw [hcompared] at hphase
    obtain ⟨hclock, hwritten, hdone⟩ := hphase
    refine ⟨row, hrow, henabled, ?_, hclock, hwritten⟩
    by_cases heq : id = p
    · subst heq
      simpa only [AList.lookup_erase, Standing.observePending_none] using hdone rfl
    · simpa only [AList.lookup_erase_ne (Ne.symm heq)] using hmain
  · cases hstep

/-- The copy that maintenance takes is the pending entry itself. -/
theorem accounts_snapshot {s t : PhasedNode} {sequential : Standing} {now : Int}
    {updates : List (String × ProviderUpdate)} {affinities : List (String × AffinityEntry)}
    (h : s.Accounts p sequential)
    (hstep : s.step serde (.snapshot now updates affinities) = some t) :
    t.Accounts p sequential := by
  obtain ⟨row, hrow, henabled, hmain, -⟩ := h
  simp only [step] at hstep
  split at hstep
  · simp only [Option.ite_none_right_eq_some, Option.some.injEq] at hstep
    obtain ⟨⟨hclock, hperm, -⟩, rfl⟩ := hstep
    have hmain := hmain.mono hclock
    refine ⟨row, hrow, henabled, hmain, le_rfl, Balancer.nodup_of_perm_pendingUpdates hperm, ?_⟩
    rw [Balancer.lookup_of_perm_pendingUpdates hperm]
    cases hpending : s.balancer.providerUpdates.lookup p with
    | none =>
      rw [hpending] at hmain
      exact hmain.recover le_rfl
    | some update =>
      rw [hpending] at hmain
      exact hmain.observe_recover_observe le_rfl
  · cases hstep

/-- **Step lemma**: every step of maintenance and every observation keeps the account, if no
observation of the provider merges between the comparison and the removal of its entry. -/
theorem accounts_step {s t : PhasedNode} {sequential : Standing} {step : PhasedStep}
    (h : s.Accounts p sequential) (hmaintenance : step.isMaintenance = true)
    (hspares : s.sparesComparedEntry p step = true) (hstep : s.step serde step = some t) :
    t.Accounts p (step.apply serde p sequential) := by
  cases step with
  | trackResponse now providerId circuitId status body =>
    exact accounts_trackResponse h hspares hstep
  | snapshot now updates affinities => exact accounts_snapshot h hstep
  | transaction => exact accounts_transaction h hstep
  | compare => exact accounts_compare h hstep
  | remove => exact accounts_remove h hstep
  | unavailable =>
    obtain ⟨row, hrow, henabled, hmain, -⟩ := h
    simp only [PhasedNode.step] at hstep
    split at hstep
    · cases hstep
      exact ⟨row, hrow, henabled, hmain, trivial⟩
    · cases hstep
  | finish =>
    obtain ⟨row, hrow, henabled, hmain, -⟩ := h
    simp only [PhasedNode.step] at hstep
    split at hstep
    · cases hstep
      refine ⟨row, hrow, henabled, ?_, trivial⟩
      rw [providerUpdates_finish]
      exact hmain
    · cases hstep
  | execute | forgetProvider => cases hmaintenance

/-- The outcome of applying all observations of a run one after the other. -/
def sequentialOutcome (serde : SerdeJson) (p : String) (standing : Standing)
    (steps : List PhasedStep) : Standing :=
  steps.foldl (PhasedStep.apply serde p) standing

/-- The account over a whole run. -/
theorem accounts_run {s t : PhasedNode} {sequential : Standing} {steps : List PhasedStep}
    (h : s.Accounts p sequential) (hmaintenance : ∀ step ∈ steps, step.isMaintenance = true)
    (hspares : Transition.Guarded (step serde)
      (fun s step => s.sparesComparedEntry p step = true) s steps)
    (hrun : s.run serde steps = some t) :
    t.Accounts p (sequentialOutcome serde p sequential steps) := by
  have hfollow : t.Accounts p (Transition.follow (step serde)
      (fun _ => PhasedStep.apply serde p) s sequential steps) := by
    refine Transition.simulation_of_guarded ?_ (hspares.and_of_mem hmaintenance) hrun h
    exact fun h hok hstep => accounts_step h hok.1 hok.2 hstep
  rwa [Transition.follow_eq_foldl _ _ hrun] at hfollow

/-- If the provider has no pending entry, its row holds the effect of all observations, followed
only by expiry recovery. -/
def HoldsAll (p : String) (sequential : Standing) (s : PhasedNode) : Prop :=
  s.balancer.providerUpdates.lookup p = none →
    ∃ row, s.db.provider? p = some row ∧ RecoveredFrom s.clock row.standing sequential

/-- **Maintenance loses no observation** in a run in which none of them merges between the
comparison and the removal of its provider's entry: whenever the provider has no pending entry, its
row holds the effect of all observations so far. -/
theorem row_holds_every_observation {s t : PhasedNode} {row : Provider} {steps : List PhasedStep}
    (hstarted : s.Started) (hrow : s.db.provider? p = some row)
    (henabled : row.manualDisabled = false)
    (hmaintenance : ∀ step ∈ steps, step.isMaintenance = true)
    (hspares : Transition.Guarded (step serde)
      (fun s step => s.sparesComparedEntry p step = true) s steps)
    (hrun : s.run serde steps = some t) :
    t.HoldsAll p (sequentialOutcome serde p row.standing steps) := by
  intro hnone
  obtain ⟨last, hlast, -, hmain, -⟩ :=
    accounts_run (hstarted.accounts hrow henabled) hmaintenance hspares hrun
  rw [hnone, Standing.observePending_none] at hmain
  exact ⟨last, hlast, hmain⟩

/-- A response is observed, copied, written and removed; another one is observed after the copy was
taken. -/
def interleavedSteps : List PhasedStep :=
  [.trackResponse 100 "p" "c" 200 [],
    .snapshot 101 [("p", statuslessUpdate "\x7b\x7d" 100)] [],
    .trackResponse 102 "p" "d" 429 (usageLimitBody 200), .transaction, .compare, .finish]

/-- The account on a run in which an observation merges before the comparison. -/
theorem row_holds_interleavedSteps :
    (loaded.after (usageLimitSerde [200]) interleavedSteps).HoldsAll "p"
      (sequentialOutcome (usageLimitSerde [200]) "p"
        (Provider.created "p" "name" "account" "access" "refresh" none 10 "owner").standing
        interleavedSteps) :=
  row_holds_every_observation loaded_started rfl rfl (by decide) (by decide)
    (Transition.run_eq_some_after (by decide))

/-- The same with the second response between the comparison and the removal. -/
def losingSteps : List PhasedStep :=
  [.trackResponse 100 "p" "c" 200 [],
    .snapshot 101 [("p", statuslessUpdate "\x7b\x7d" 100)] [], .transaction, .compare,
    .trackResponse 102 "p" "d" 429 (usageLimitBody 200), .remove, .finish]

/-- The removal takes the second response with it: maintenance is idle, nothing is pending for the
enabled provider, and its row does not know about the response. -/
theorem remove_loses_observation :
    ∃ t, loaded.run (usageLimitSerde [200]) losingSteps = some t ∧ t.phase = .idle ∧
      ¬ t.HoldsAll "p" (sequentialOutcome (usageLimitSerde [200]) "p"
        (Provider.created "p" "name" "account" "access" "refresh" none 10 "owner").standing
        losingSteps) := by
  refine ⟨loaded.after (usageLimitSerde [200]) losingSteps, rfl, rfl, fun h => ?_⟩
  obtain ⟨row, hrow, moment, -, heq⟩ := h rfl
  have hused := congrArg Standing.lastUsedAt heq
  cases hrow
  rw [Standing.lastUsedAt_recover] at hused
  revert hused
  decide

end PhasedNode

end OpenAiLb
