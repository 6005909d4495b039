import OpenAiLb.Standing
import OpenAiLb.System

/-!
# Write-behind refines write-through

Between two maintenance runs the table is stale: an observation is in the snapshot
and in the pending map only. Measured against a store that applies every observation
to the row at once, the snapshot is always up to date, and the table is up to date
after every committed maintenance run.
-/

namespace OpenAiLb

/-- The write-through store: the standing of every provider. -/
abbrev WriteThrough := String → Option Standing

namespace WriteThrough

/-- An observation is applied to the row at once. -/
def observe (store : WriteThrough) (providerId : String) (update : ProviderUpdate) :
    WriteThrough :=
  fun id => (store id).map fun standing =>
    if id = providerId then standing.observe update else standing

/-- A maintenance run only recovers expired cooldowns. -/
def recover (store : WriteThrough) (now : Int) : WriteThrough :=
  fun id => (store id).map (Standing.recover now)

end WriteThrough

namespace Node

variable {env : Environment} {p : String}

/-- The maintenance run commits. -/
def commits (s : Node) (now : Int) (updates : List (String × ProviderUpdate))
    (affinities : List (String × AffinityEntry)) : Bool :=
  (s.db.maintainTransaction now updates affinities).isOk

/-- What an operation of the node does to the write-through store. -/
def writeThrough (env : Environment) (s : Node) (store : WriteThrough) : Operation → WriteThrough
  | .trackResponse now providerId circuitId status body =>
    store.observe providerId (trackResponse env.serde now circuitId status body)
  | .maintain now updates affinities =>
    if s.commits now updates affinities then store.recover now else store
  | _ => store

/-- The operations between two changes from outside: no reload and no statement of a handler. -/
def isTraffic : Operation → Bool
  | .trackResponse .. | .maintain .. | .maintainFailed _ | .select .. | .dropLease _ => true
  | .reloadProviders | .execute _ | .forgetProvider _ => false

/-- The provider is enabled and just loaded: nothing is pending, and the cached row and the table
row have the same standing. -/
structure InSync (p : String) (s : Node) : Prop where
  pending : s.balancer.providerUpdates.lookup p = none
  enabled : ∀ row, s.db.provider? p = some row → row.manualDisabled = false
  cachedEnabled : ∀ row, s.balancer.providers.find? p = some row → row.manualDisabled = false
  standing : (s.balancer.providers.find? p).map Provider.standing =
    (s.db.provider? p).map Provider.standing

/-- A reload brings an enabled provider without pending entry into sync. -/
theorem inSync_of_reload {s t : Node} (hstep : s.step env .reloadProviders = some t)
    (hpending : s.balancer.providerUpdates.lookup p = none)
    (henabled : ∀ row, s.db.provider? p = some row → row.manualDisabled = false) : t.InSync p := by
  cases hstep
  have hcached : (s.balancer.reloadProviders s.db).providers.find? p = s.db.provider? p :=
    Database.find?_selectProviders s.db p
  exact ⟨hpending, henabled, fun row hrow => henabled row (hcached ▸ hrow), by rw [hcached]⟩

/-- **The refinement relation**: the cached row, and the table row once its pending entry is
flushed, both have the standing that the write-through store holds. -/
structure Refines (p : String) (s : Node) (store : WriteThrough) : Prop where
  enabled : ∀ row, s.db.provider? p = some row → row.manualDisabled = false
  cachedEnabled : ∀ row, s.balancer.providers.find? p = some row → row.manualDisabled = false
  cached : (s.balancer.providers.find? p).map Provider.standing = store p
  flushed : (s.db.provider? p).map (fun row =>
    (flushPending (s.balancer.providerUpdates.lookup p) row).standing) = store p

/-- A provider in sync refines the store that begins with its standing. -/
theorem InSync.refines {s : Node} {store : WriteThrough} (h : s.InSync p)
    (hstore : store p = (s.db.provider? p).map Provider.standing) : s.Refines p store := by
  refine ⟨h.enabled, h.cachedEnabled, h.standing.trans hstore.symm, ?_⟩
  rw [h.pending, hstore]
  rfl

/-- An observation keeps the relation. -/
theorem refines_observe {s : Node} {store : WriteThrough} {now : Int} {providerId : String}
    {update : ProviderUpdate} (h : s.Refines p store) :
    Refines p { s with clock := now, balancer := s.balancer.observe providerId update }
      (store.observe providerId update) := by
  by_cases heq : p = providerId
  · subst heq
    refine ⟨h.enabled, fun row hrow => ?_, ?_, ?_⟩
    · simp only [Balancer.observe, Snapshot.find?_observe, Option.map_eq_some_iff] at hrow
      obtain ⟨old, hold, rfl⟩ := hrow
      simpa using h.cachedEnabled old hold
    · have hcached := h.cached
      simp only [Balancer.observe, Snapshot.find?_observe, WriteThrough.observe, ← hcached]
      cases hrow : s.balancer.providers.find? p with
      | none => rfl
      | some row => simp [standing_observeRow (h.cachedEnabled row hrow)]
    · have hflushed := h.flushed
      simp only [Balancer.observe, Balancer.lookup_recordUpdate, WriteThrough.observe, ← hflushed]
      cases hrow : s.db.provider? p with
      | none => rfl
      | some row => simp [standing_flushPending_record (h.enabled row hrow)]
  · have hstore : store.observe providerId update p = store p := by
      simp [WriteThrough.observe, heq]
    have hcached : (s.balancer.observe providerId update).providers.find? p =
        s.balancer.providers.find? p := by
      simp [Balancer.observe, heq]
    have hpending : (s.balancer.observe providerId update).providerUpdates.lookup p =
        s.balancer.providerUpdates.lookup p := Balancer.lookup_recordUpdate_ne _ _ heq
    exact ⟨h.enabled, fun row hrow => h.cachedEnabled row (hcached ▸ hrow),
      by rw [hcached, hstore, h.cached], by simp only [hpending, hstore, h.flushed]⟩

/-- After a committed maintenance run the table row is the row of the write-through store. -/
theorem standing_of_commit {s : Node} {store : WriteThrough} {db : Database} {now : Int}
    {updates : List (String × ProviderUpdate)} {affinities : List (String × AffinityEntry)}
    {persisted : List (String × AffinityEntry × Bool)}
    (hcommit : s.db.maintainTransaction now updates affinities = .ok (db, persisted))
    (hperm : updates.Perm s.balancer.pendingUpdates) (h : s.Refines p store) :
    (db.provider? p).map Provider.standing = store.recover now p := by
  have hflushed := h.flushed
  rw [Database.provider?_of_maintainTransaction hcommit
    (Balancer.nodup_of_perm_pendingUpdates hperm), Balancer.lookup_of_perm_pendingUpdates hperm]
  simp only [WriteThrough.recover, ← hflushed]
  cases hrow : s.db.provider? p with
  | none => rfl
  | some row =>
    have henabled := h.enabled row hrow
    simp [standing_recoverRow, henabled]

/-- A maintenance run keeps the relation. -/
theorem refines_maintain {s : Node} {store : WriteThrough} {now : Int}
    {updates : List (String × ProviderUpdate)} {affinities : List (String × AffinityEntry)}
    (hperm : updates.Perm s.balancer.pendingUpdates) (h : s.Refines p store) :
    (s.maintain now updates affinities).Refines p
      (if s.commits now updates affinities then store.recover now else store) := by
  unfold maintain commits
  split
  · next db persisted hcommit =>
    have hdb := Database.provider?_of_maintainTransaction hcommit
      (Balancer.nodup_of_perm_pendingUpdates hperm) p
    rw [hcommit]
    change Refines p _ (store.recover now)
    refine ⟨fun row hrow => ?_, fun row hrow => ?_, ?_, ?_⟩
    · obtain ⟨old, hold, rfl⟩ := Option.map_eq_some_iff.mp (hdb ▸ hrow)
      simpa using h.enabled old hold
    · simp only [Balancer.providers_afterCommit, Snapshot.find?_recover,
        Option.map_eq_some_iff] at hrow
      obtain ⟨old, hold, rfl⟩ := hrow
      simpa using h.cachedEnabled old hold
    · have hcached := h.cached
      simp only [Balancer.providers_afterCommit, Snapshot.find?_recover, WriteThrough.recover,
        ← hcached]
      cases hrow : s.balancer.providers.find? p with
      | none => rfl
      | some row => simp [standing_recoverRow (h.cachedEnabled row hrow)]
    · simp only [Balancer.lookup_afterCommit hperm, flushPending_none]
      exact standing_of_commit hcommit hperm h
  · next error herror =>
    rw [herror, if_neg (by simp [Except.isOk, Except.toBool])]
    exact ⟨h.enabled, h.cachedEnabled, h.cached, h.flushed⟩

/-- **Step lemma**: every operation of the traffic keeps the relation. -/
theorem refines_step {s t : Node} {store : WriteThrough} {op : Operation} (h : s.Refines p store)
    (htraffic : isTraffic op = true) (hstep : s.step env op = some t) :
    t.Refines p (s.writeThrough env store op) := by
  cases op with
  | trackResponse now providerId circuitId status body =>
    simp only [step, Option.ite_none_right_eq_some, Option.some.injEq] at hstep
    obtain ⟨-, rfl⟩ := hstep
    exact refines_observe h
  | maintain now updates affinities =>
    simp only [step, Option.ite_none_right_eq_some, Option.some.injEq] at hstep
    obtain ⟨⟨-, hperm, -⟩, rfl⟩ := hstep
    exact refines_maintain hperm h
  | maintainFailed now =>
    simp only [step, Option.ite_none_right_eq_some, Option.some.injEq] at hstep
    obtain ⟨-, rfl⟩ := hstep
    exact ⟨h.enabled, h.cachedEnabled, h.cached, h.flushed⟩
  | select now userId allProviders affinity excluded =>
    simp only [step, Option.ite_none_right_eq_some] at hstep
    obtain ⟨-, hstep⟩ := hstep
    split at hstep
    · next hselect =>
      cases hstep
      obtain ⟨hproviders, -, hupdates⟩ := Balancer.select_frame hselect
      exact ⟨h.enabled, fun row hrow => h.cachedEnabled row (hproviders ▸ hrow),
        by rw [hproviders]; exact h.cached, by simp only [hupdates]; exact h.flushed⟩
    · cases hstep
      exact ⟨h.enabled, h.cachedEnabled, h.cached, h.flushed⟩
  | dropLease providerId =>
    cases hstep
    unfold Balancer.dropLease
    split <;> exact ⟨h.enabled, h.cachedEnabled, h.cached, h.flushed⟩
  | reloadProviders | execute | forgetProvider => cases htraffic

/-- **Write-behind refines write-through.** From a provider in sync, after any traffic, the cached
row has the standing of the write-through store; and whenever the next operation is a maintenance
run that commits, the table row has it afterwards. -/
theorem write_behind_refines_write_through {s t : Node} {store : WriteThrough}
    {operations : List Operation} (hsync : s.InSync p)
    (hstore : store p = (s.db.provider? p).map Provider.standing)
    (htraffic : ∀ op ∈ operations, isTraffic op = true)
    (hrun : s.run env operations = some t) :
    let written := Transition.follow (step env) (writeThrough env) s store operations
    (t.balancer.providers.find? p).map Provider.standing = written p ∧
      ∀ now updates affinities u, t.step env (.maintain now updates affinities) = some u →
        t.commits now updates affinities = true →
        (u.db.provider? p).map Provider.standing = written.recover now p := by
  have hok : Transition.Guarded (step env) (fun _ op => isTraffic op = true ∧ True) s operations :=
    (Transition.guarded_of_forall (fun _ _ => trivial) s operations).and_of_mem htraffic
  have hrefines : t.Refines p
      (Transition.follow (step env) (writeThrough env) s store operations) := by
    refine Transition.simulation_of_guarded ?_ hok hrun (hsync.refines hstore)
    exact fun h hok hstep => refines_step h hok.1 hstep
  refine ⟨hrefines.cached, fun now updates affinities u hstep hcommits => ?_⟩
  simp only [step, Option.ite_none_right_eq_some, Option.some.injEq] at hstep
  obtain ⟨⟨-, hperm, -⟩, rfl⟩ := hstep
  unfold commits at hcommits
  unfold maintain
  split
  · next hcommit => exact standing_of_commit hcommit hperm hrefines
  · next herror => simp [herror, Except.isOk, Except.toBool] at hcommits

/-- A usage-limit response, a maintenance run and a response that says nothing. -/
def mixedTraffic : List Operation :=
  [.trackResponse 100 "p" "c" 429 (usageLimitBody 200),
    .maintain 101 limited.balancer.pendingUpdates [], .trackResponse 102 "p" "d" 200 []]

/-- The refinement on a run that ends with a pending observation. -/
theorem write_behind_on_mixedTraffic :
    let store : WriteThrough := fun id => (loaded.db.provider? id).map Provider.standing
    let reached := loaded.after usageLimitEnvironment mixedTraffic
    let written := Transition.follow (step usageLimitEnvironment)
      (writeThrough usageLimitEnvironment) loaded store mixedTraffic
    (reached.balancer.providers.find? "p").map Provider.standing = written "p" ∧
      ∀ now updates affinities u,
        reached.step usageLimitEnvironment (.maintain now updates affinities) = some u →
        reached.commits now updates affinities = true →
        (u.db.provider? "p").map Provider.standing = written.recover now "p" := by
  have hreload : (initial.after usageLimitEnvironment
      [.execute (.createProvider "p" "name" "account" "access" "refresh" none 10 "owner")]).step
        usageLimitEnvironment .reloadProviders = some loaded := rfl
  have hsync : loaded.InSync "p" := by
    refine inSync_of_reload hreload rfl fun row hrow => ?_
    cases hrow
    rfl
  exact write_behind_refines_write_through hsync rfl (by decide)
    (Transition.run_eq_some_after (by decide))

end Node

end OpenAiLb
