import OpenAiLb.Cooldown
import OpenAiLb.WriteBehind

/-!
# Credential changes and earlier observations

A credential change or an enable writes the provider row and leaves the write-behind map alone.
A status that was observed before the change and not flushed yet is therefore written over the
change by the next maintenance run. This file proves that nothing else can do that: a provider
whose pending entry sets no status at the time of the change is set back by later observations
only.
-/

namespace OpenAiLb

/-- The statuses that take a provider out of the rotation. -/
def ProviderStatus.isSetback : ProviderStatus → Bool
  | authError | cooldown => true
  | _ => false

namespace Node

variable {env : Environment} {p : String} {s t m : Node}

/-- The entry of a provider in the write-behind map. -/
def pending (s : Node) (p : String) : Option ProviderUpdate :=
  s.balancer.providerUpdates.lookup p

/-- An operation observes a response of the provider. -/
def observedUpdate (env : Environment) (p : String) : Operation → Option ProviderUpdate
  | .trackResponse now providerId circuitId status body =>
    if providerId = p then some (trackResponse env.serde now circuitId status body) else none
  | _ => none

/-- **What an operation can do to the pending entry of a provider.** -/
theorem pending_of_step {op : Operation} (h : s.step env op = some t) :
    s.clock ≤ t.clock ∧
      (t.pending p = s.pending p ∨ t.pending p = none ∨
        ∃ update, observedUpdate env p op = some update ∧
          t.pending p = some ((s.pending p).elim update fun current => current.merge update)) := by
  cases op with
  | trackResponse now providerId circuitId status body =>
    simp only [step, Option.ite_none_right_eq_some, Option.some.injEq] at h
    obtain ⟨hclock, rfl⟩ := h
    refine ⟨hclock, ?_⟩
    by_cases heq : providerId = p
    · subst heq
      refine .inr (.inr ⟨_, if_pos rfl, ?_⟩)
      exact Balancer.lookup_recordUpdate ..
    · exact .inl (Balancer.lookup_recordUpdate_ne _ _ (Ne.symm heq))
  | maintain now updates affinities =>
    simp only [step, Option.ite_none_right_eq_some, Option.some.injEq] at h
    obtain ⟨⟨hclock, hperm, -⟩, rfl⟩ := h
    unfold maintain
    split
    · exact ⟨hclock, .inr (.inl (Balancer.lookup_afterCommit hperm ..))⟩
    · exact ⟨hclock, .inl rfl⟩
  | maintainFailed now =>
    simp only [step, Option.ite_none_right_eq_some, Option.some.injEq] at h
    obtain ⟨hclock, rfl⟩ := h
    exact ⟨hclock, .inl rfl⟩
  | select now userId allProviders affinity excluded =>
    simp only [step, Option.ite_none_right_eq_some] at h
    obtain ⟨hclock, h⟩ := h
    split at h
    · next hselect =>
      cases h
      have hupdates := (Balancer.select_frame hselect).2.2
      exact ⟨hclock, .inl (by rw [pending, hupdates, pending])⟩
    · cases h
      exact ⟨hclock, .inl rfl⟩
  | dropLease providerId =>
    cases h
    unfold Balancer.dropLease
    split <;> exact ⟨le_rfl, .inl rfl⟩
  | reloadProviders =>
    cases h
    exact ⟨le_rfl, .inl rfl⟩
  | execute stmt =>
    simp only [step] at h
    split at h <;> cases h <;> exact ⟨le_rfl, .inl rfl⟩
  | forgetProvider providerId =>
    simp only [step, Option.ite_none_right_eq_some, Option.some.injEq] at h
    obtain ⟨-, rfl⟩ := h
    refine ⟨le_rfl, ?_⟩
    by_cases heq : p = providerId
    · subst heq
      exact .inr (.inl (AList.lookup_erase _ _))
    · exact .inl (AList.lookup_erase_ne heq)

/-- The pending entry of the provider would set it back: it carries an authentication error, or a
cooldown whose deadline still lies ahead. -/
def owesSetback (s : Node) (p : String) : Bool :=
  (s.pending p).any fun update =>
    update.status = some .authError ||
      (update.status = some .cooldown && update.cooldownUntil.all (s.clock < ·))

/-- A status of the pending entry that would set the provider back stems from one of these
operations. -/
def OwesOnly (env : Environment) (p : String) (operations : List Operation) (s : Node) : Prop :=
  ∀ update status, s.pending p = some update → update.status = some status →
    status.isSetback = true →
    (status = .cooldown ∧ update.cooldownUntil.any (· ≤ s.clock) = true) ∨
      ∃ op ∈ operations, ∃ seen, observedUpdate env p op = some seen ∧
        seen.status = some status ∧ seen.cooldownUntil = update.cooldownUntil

/-- Before any operation, a provider to which no setback is owed. -/
theorem owesOnly_of_not_owesSetback (h : s.owesSetback p = false)
    (operations : List Operation) : OwesOnly env p operations s := by
  intro update status hpending hstatus hsetback
  rw [owesSetback, hpending, Option.any_some, Bool.or_eq_false_iff] at h
  cases status with
  | active | disabled => cases hsetback
  | authError =>
    have hno := h.1
    simp [hstatus] at hno
  | cooldown =>
    refine .inl ⟨rfl, ?_⟩
    have hno := h.2
    cases huntil : update.cooldownUntil with
    | none => simp [hstatus, huntil] at hno
    | some deadline =>
      simpa [hstatus, huntil] using hno

/-- A deadline that has passed stays passed. -/
theorem any_le_mono {deadline : Option Int} {now later : Int} (hle : now ≤ later)
    (h : deadline.any (· ≤ now) = true) : deadline.any (· ≤ later) = true := by
  cases deadline with
  | none => cases h
  | some moment =>
    have hdue : moment ≤ now := by simpa using h
    simpa using hdue.trans hle

/-- What the pending entry says about the status may be kept while time passes. -/
theorem OwesOnly.mono {operations : List Operation} (h : OwesOnly env p operations s)
    (hclock : s.clock ≤ t.clock)
    (hkeep : ∀ update status, t.pending p = some update → update.status = some status →
      ∃ current, s.pending p = some current ∧ current.status = some status ∧
        current.cooldownUntil = update.cooldownUntil) : OwesOnly env p operations t := by
  intro update status hpending hstatus hsetback
  obtain ⟨current, hcurrent, hsame, huntil⟩ := hkeep update status hpending hstatus
  rw [← huntil]
  rcases h current status hcurrent hsame hsetback with ⟨hcooldown, hexpired⟩ | hobserved
  · exact .inl ⟨hcooldown, any_le_mono hclock hexpired⟩
  · exact .inr hobserved

/-- **An operation adds only what it observes.** -/
theorem OwesOnly.step {operations : List Operation} {op : Operation}
    (h : OwesOnly env p operations s) (hmem : op ∈ operations)
    (hstep : s.step env op = some t) : OwesOnly env p operations t := by
  obtain ⟨hclock, hsame | hnone | ⟨seen, hseen, hmerged⟩⟩ := pending_of_step (p := p) hstep
  · refine h.mono hclock fun update status hpending hstatus => ?_
    exact ⟨update, hsame ▸ hpending, hstatus, rfl⟩
  · intro update status hpending
    rw [hnone] at hpending
    cases hpending
  · cases hnew : seen.status with
    | none =>
      refine h.mono hclock fun update status hpending hstatus => ?_
      rw [hmerged, Option.some.injEq] at hpending
      subst hpending
      cases hcurrent : s.pending p with
      | none =>
        simp only [hcurrent, Option.elim_none, hnew] at hstatus
        cases hstatus
      | some current =>
        obtain ⟨hs, hc, -, -⟩ := ProviderUpdate.merge_of_status_none (u := current) hnew
        simp only [hcurrent, Option.elim_some] at hstatus ⊢
        exact ⟨current, rfl, hs ▸ hstatus, hc.symm⟩
    | some st =>
      intro update status hpending hstatus _
      rw [hmerged, Option.some.injEq] at hpending
      subst hpending
      refine .inr ⟨op, hmem, seen, hseen, ?_⟩
      cases hcurrent : s.pending p with
      | none =>
        simp only [hcurrent, Option.elim_none] at hstatus ⊢
        exact ⟨hstatus, trivial⟩
      | some current =>
        obtain ⟨hs, hc, -, -⟩ := ProviderUpdate.merge_of_status_some (u := current) hnew
        simp only [hcurrent, Option.elim_some] at hstatus ⊢
        rw [hs] at hstatus
        exact ⟨hnew.trans hstatus, hc.symm⟩

/-- The invariant along a run. -/
theorem OwesOnly.run {operations : List Operation} (h : OwesOnly env p operations s)
    (hrun : s.run env operations = some t) : OwesOnly env p operations t := by
  have hok : Transition.Guarded (Node.step env) (fun _ op => op ∈ operations ∧ True) s operations :=
    (Transition.guarded_of_forall (fun _ _ => trivial) s operations).and_of_mem fun _ hop => hop
  exact Transition.invariant_of_guarded (fun hs hop hstep => OwesOnly.step hs hop.1 hstep) hok
    hrun h

/-- **What a maintenance run can write to a row that it sets back**: the status of the pending
entry, whose deadline has not passed. -/
theorem setback_of_flush {old : Provider} {entry : Option ProviderUpdate} {now : Int}
    (hmoved : (recoverRow now (flushPending entry old)).status ≠ old.status ∨
      (recoverRow now (flushPending entry old)).cooldownUntil ≠ old.cooldownUntil)
    (hsetback : (recoverRow now (flushPending entry old)).status.isSetback = true) :
    ∃ update, entry = some update ∧
      update.status = some (recoverRow now (flushPending entry old)).status ∧
      update.cooldownUntil = (recoverRow now (flushPending entry old)).cooldownUntil ∧
      ¬(update.status = some .cooldown ∧ update.cooldownUntil.any (· ≤ now) = true) := by
  have hkept : isExpiredCooldown now (flushPending entry old) = false := by
    by_contra hexpired
    rw [recoverRow, if_pos (by simpa using hexpired)] at hsetback
    cases hsetback
  have hrow : recoverRow now (flushPending entry old) = flushPending entry old := by
    rw [recoverRow, hkept]
    rfl
  rw [hrow] at hmoved hsetback ⊢
  cases entry with
  | none =>
    rw [flushPending_none] at hmoved
    rcases hmoved with hne | hne <;> exact absurd rfl hne
  | some update =>
    simp only [flushPending_some] at hmoved hsetback hkept ⊢
    cases hdisabled : old.manualDisabled with
    | true =>
      simp [flushRow, hdisabled, ProviderStatus.isSetback] at hsetback
    | false =>
      cases hstatus : update.status with
      | none => simp [flushRow, hdisabled, hstatus] at hmoved
      | some status =>
        refine ⟨update, rfl, ?_, ?_, ?_⟩
        · simp [flushRow, hdisabled, hstatus]
        · simp [flushRow, hdisabled, hstatus]
        · rintro ⟨hcooldown, hexpired⟩
          obtain rfl : status = .cooldown := Option.some.inj (hstatus.symm.trans hcooldown)
          simp [isExpiredCooldown, flushRow, hdisabled, hstatus, hexpired] at hkept

/-- A credential change or an enable of the provider commits, and leaves the provider active. -/
structure Restores (env : Environment) (p : String) (s m : Node) : Prop where
  committed : ∃ stmt n, stmt.lifts p = true ∧ stmt.exec s.db = .ok (m.db, n + 1) ∧
    s.step env (.execute stmt) = some m
  active : ∃ row, m.db.provider? p = some row ∧ row.manualDisabled = false ∧ row.status = .active

/-- A change of the database leaves the balancer and the clock alone. -/
theorem Restores.frame (h : Restores env p s m) : m.balancer = s.balancer ∧ m.clock = s.clock := by
  obtain ⟨stmt, n, -, hexec, hstep⟩ := h.committed
  simp only [step, hexec, Option.some.injEq] at hstep
  exact ⟨(congrArg Node.balancer hstep).symm, (congrArg Node.clock hstep).symm⟩

/-- After this state, a maintenance run moves the row of the provider to `auth_error` or `cooldown`
only with a status and a deadline that were observed after this state. -/
def KeepsRestored (env : Environment) (p : String) (m : Node) : Prop :=
  ∀ (later : List Operation) {u v : Node} {now : Int} {updates : List (String × ProviderUpdate)}
    {affinities : List (String × AffinityEntry)} {old new : Provider},
    m.run env later = some u → u.step env (.maintain now updates affinities) = some v →
    u.db.provider? p = some old → v.db.provider? p = some new →
    (new.status ≠ old.status ∨ new.cooldownUntil ≠ old.cooldownUntil) →
    new.status.isSetback = true →
    ∃ op ∈ later, ∃ seen, observedUpdate env p op = some seen ∧ seen.status = some new.status ∧
      seen.cooldownUntil = new.cooldownUntil

/-- A provider to which no setback is owed is set back by later observations only. -/
theorem keepsRestored_of_not_owesSetback (h : m.owesSetback p = false) :
    KeepsRestored env p m := by
  intro later u v now updates affinities old new hrun hmaintain hold hnew hmoved hsetback
  have howes : OwesOnly env p later u := (owesOnly_of_not_owesSetback h later).run hrun
  simp only [step, Option.ite_none_right_eq_some, Option.some.injEq] at hmaintain
  obtain ⟨⟨hclock, hperm, -⟩, rfl⟩ := hmaintain
  unfold maintain at hnew
  split at hnew
  · next db persisted hcommit =>
    rw [Database.provider?_of_maintainTransaction hcommit
      (Balancer.nodup_of_perm_pendingUpdates hperm), Balancer.lookup_of_perm_pendingUpdates hperm,
      hold, Option.map_some, Option.some.injEq] at hnew
    subst hnew
    obtain ⟨update, hpending, hstatus, huntil, hahead⟩ := setback_of_flush hmoved hsetback
    rcases howes update _ hpending hstatus hsetback with ⟨hcooldown, hexpired⟩ |
      ⟨op, hop, seen, hseen, hsame, hdeadline⟩
    · exact absurd ⟨hcooldown ▸ hstatus, any_le_mono hclock hexpired⟩ hahead
    · exact ⟨op, hop, seen, hseen, hsame, hdeadline.trans huntil⟩
  · rw [hold, Option.some.injEq] at hnew
    subst hnew
    rcases hmoved with hne | hne <;> exact absurd rfl hne

/-- A pending setback takes effect in the next maintenance run. -/
theorem setback_of_owesSetback {row : Provider} {update : ProviderUpdate} {now : Int}
    (henabled : row.manualDisabled = false)
    (howes : (update.status = some .authError ||
      (update.status = some .cooldown && update.cooldownUntil.all (now < ·))) = true) :
    (recoverRow now (flushPending (some update) row)).status.isSetback = true := by
  rw [Bool.or_eq_true] at howes
  have hkept : isExpiredCooldown now (flushRow update row) = false := by
    rcases howes with hauth | hcooldown
    · simp only [decide_eq_true_eq] at hauth
      simp [isExpiredCooldown, flushRow, henabled, hauth]
    · simp only [Bool.and_eq_true, decide_eq_true_eq] at hcooldown
      cases huntil : update.cooldownUntil with
      | none => simp [isExpiredCooldown, flushRow, henabled, hcooldown.1, huntil]
      | some deadline =>
        have hahead : now < deadline := by simpa [huntil] using hcooldown.2
        simp [isExpiredCooldown, flushRow, henabled, hcooldown.1, huntil, hahead]
  rw [flushPending_some, recoverRow, hkept]
  rcases howes with hauth | hcooldown
  · simp only [decide_eq_true_eq] at hauth
    simp [flushRow, henabled, hauth, ProviderStatus.isSetback]
  · simp only [Bool.and_eq_true, decide_eq_true_eq] at hcooldown
    simp [flushRow, henabled, hcooldown.1, ProviderStatus.isSetback]

/-- **Credential changes and enables win over earlier observations exactly if no setback is
pending when they commit.** If the pending entry of the provider carries no authentication error
and no cooldown whose deadline lies ahead, then whatever happens later, a maintenance run sets the
provider back only because of an observation that was made after the change. If it carries one, the
next maintenance run that commits sets the provider back because of it. -/
theorem keepsRestored_iff (h : Restores env p s m) :
    (s.owesSetback p = false → KeepsRestored env p m) ∧
      (m.commits m.clock m.balancer.pendingUpdates m.balancer.pendingAffinities = true →
        KeepsRestored env p m → s.owesSetback p = false) := by
  obtain ⟨hbalancer, hclock⟩ := h.frame
  have hsame : m.owesSetback p = s.owesSetback p := by
    rw [owesSetback, owesSetback, pending, pending, hbalancer, hclock]
  rw [← hsame]
  refine ⟨keepsRestored_of_not_owesSetback, fun hcommits hkeeps => ?_⟩
  by_contra howes
  rw [Bool.not_eq_false] at howes
  obtain ⟨row, hrow, henabled, hactive⟩ := h.active
  obtain ⟨⟨db, persisted⟩, htransaction⟩ :
      ∃ result, m.db.maintainTransaction m.clock m.balancer.pendingUpdates
        m.balancer.pendingAffinities = .ok result := by
    unfold commits at hcommits
    cases hresult : m.db.maintainTransaction m.clock m.balancer.pendingUpdates
        m.balancer.pendingAffinities with
    | ok result => exact ⟨result, rfl⟩
    | error error => simp [hresult, Except.isOk, Except.toBool] at hcommits
  have hstep : m.step env (.maintain m.clock m.balancer.pendingUpdates
      m.balancer.pendingAffinities) = some (m.maintain m.clock m.balancer.pendingUpdates
        m.balancer.pendingAffinities) :=
    if_pos ⟨le_rfl, List.Perm.refl _, List.Perm.refl _⟩
  have hperm := List.Perm.refl m.balancer.pendingUpdates
  have hnew : (m.maintain m.clock m.balancer.pendingUpdates
      m.balancer.pendingAffinities).db.provider? p =
      some (recoverRow m.clock (flushPending (m.pending p) row)) := by
    simp only [maintain, htransaction]
    rw [Database.provider?_of_maintainTransaction htransaction
      (Balancer.nodup_of_perm_pendingUpdates hperm), Balancer.lookup_of_perm_pendingUpdates hperm,
      hrow]
    rfl
  cases hpending : m.pending p with
  | none => simp [owesSetback, hpending] at howes
  | some update =>
    rw [hpending] at hnew
    have hsetback : (recoverRow m.clock
        (flushPending (some update) row)).status.isSetback = true := by
      apply setback_of_owesSetback henabled
      simpa [owesSetback, hpending] using howes
    have hmoved : (recoverRow m.clock (flushPending (some update) row)).status ≠ row.status := by
      intro heq
      rw [heq, hactive] at hsetback
      cases hsetback
    obtain ⟨op, hop, -⟩ := hkeeps [] rfl hstep hrow hnew (.inl hmoved) hsetback
    cases hop

/-- An operator replaces the tokens of the provider. -/
def replacement (now : Int) : Statement :=
  .replaceTokens "p" "name" "access2" "refresh2" "account" none now

/-- The provider has answered 401 before the replacement. -/
def rejected : Node := loaded.after usageLimitEnvironment [.trackResponse 100 "p" "c" 401 []]

/-- The provider at the replacement, when the 401 is still pending. -/
def replacedLate : Node := rejected.after usageLimitEnvironment [.execute (replacement 101)]

/-- The next maintenance run. -/
def flushLate : Operation := .maintain 102 replacedLate.balancer.pendingUpdates []

/-- The node after the next maintenance run. -/
def setBack : Node := replacedLate.after usageLimitEnvironment [flushLate]

/-- The provider has reached its usage limit, and maintenance has failed until its deadline is
over: the cooldown is still pending. -/
def lapsed : Node := limited.after usageLimitEnvironment [.maintainFailed 250]

/-- The provider at a replacement of its tokens after the deadline. -/
def replaced : Node := lapsed.after usageLimitEnvironment [.execute (replacement 251)]

/-- The replacement commits with the provider active. -/
theorem replaced_restores : Restores usageLimitEnvironment "p" lapsed replaced :=
  ⟨⟨replacement 251, 0, rfl, rfl, rfl⟩, _, rfl, rfl, rfl⟩

/-- A pending cooldown that is over at the replacement does not set the provider back. -/
theorem keepsRestored_iff_replaced :
    (replaced.pending "p").map ProviderUpdate.status = some (some .cooldown) ∧
      KeepsRestored usageLimitEnvironment "p" replaced :=
  ⟨rfl, (keepsRestored_iff replaced_restores).1 rfl⟩

/-- **A 401 from before the replacement is written over it.** The replacement has committed with
the provider active, no response is observed afterwards, and the next maintenance run moves the
row to `auth_error`. -/
theorem pending_rejection_undoes_replacement :
    Restores usageLimitEnvironment "p" rejected replacedLate ∧
      replacedLate.step usageLimitEnvironment flushLate = some setBack ∧
      (setBack.db.provider? "p").map Provider.status = some .authError ∧
      ¬KeepsRestored usageLimitEnvironment "p" replacedLate := by
  refine ⟨⟨⟨replacement 101, 0, rfl, rfl, rfl⟩, _, rfl, rfl, rfl⟩, rfl, rfl, fun hkeeps => ?_⟩
  obtain ⟨op, hop, -⟩ := hkeeps [] (u := replacedLate) (v := setBack) rfl
    (show replacedLate.step usageLimitEnvironment flushLate = some setBack from rfl) rfl rfl
    (.inl (by decide)) rfl
  cases hop

end Node

end OpenAiLb
