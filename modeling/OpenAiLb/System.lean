import OpenAiLb.Library.Transition
import OpenAiLb.Maintenance
import OpenAiLb.Observation
import OpenAiLb.Statements

/-!
# The node with atomic operations

The database and the balancer together, with every operation of the balancer as
one step: observations, reloads, maintenance runs, selections, lease drops and the
statements of the handlers, in any order, under a clock that does not run
backwards. The files on races use finer steps instead.
-/

namespace OpenAiLb

/-- What the operations take from libraries and from the configuration. -/
structure Environment where
  serde : SerdeJson
  /-- `affinity_hash`. -/
  affinityHash : String → String
  /-- `Config::affinity_ttl_seconds`. -/
  affinityTtl : Int

/-- An environment that reads the usage-limit answers with reset moments 200 and 300. -/
def usageLimitEnvironment : Environment := ⟨usageLimitSerde [200, 300], id, 3600⟩

/-- The state of the node. -/
structure Node where
  db : Database
  balancer : Balancer
  clock : Int

/-- One operation. The `maintain` label names the order in which the maps were iterated. -/
inductive Operation where
  | trackResponse (now : Int) (providerId circuitId : String) (status : ℕ) (body : List UInt8)
  | reloadProviders
  | maintain (now : Int) (updates : List (String × ProviderUpdate))
    (affinities : List (String × AffinityEntry))
  /-- `maintain` when SQLite does not commit; the error is logged. -/
  | maintainFailed (now : Int)
  | select (now : Int) (userId : String) (allProviders : Bool) (affinity excluded : Option String)
  | dropLease (providerId : String)
  | execute (stmt : Statement)
  /-- `forget_provider`, which `delete_provider` calls once the row is deleted. -/
  | forgetProvider (providerId : String)

namespace Node

/-- The node after the migrations. -/
def initial : Node := ⟨Database.empty, Balancer.default, 0⟩

variable (env : Environment)

/-- `maintain` as one step, with the iteration order of the maps. -/
def maintain (s : Node) (now : Int) (updates : List (String × ProviderUpdate))
    (affinities : List (String × AffinityEntry)) : Node :=
  match s.db.maintainTransaction now updates affinities with
  | .ok (db, persisted) => ⟨db, s.balancer.afterCommit now updates persisted, now⟩
  | .error _ => { s with clock := now }

/-- One step of the node. -/
def step (s : Node) : Operation → Option Node
  | .trackResponse now providerId circuitId status body =>
    if s.clock ≤ now then some
      { s with
        clock := now
        balancer := s.balancer.observe providerId
          (trackResponse env.serde now circuitId status body) }
    else none
  | .reloadProviders => some { s with balancer := s.balancer.reloadProviders s.db }
  | .maintain now updates affinities =>
    if s.clock ≤ now ∧ updates.Perm s.balancer.pendingUpdates ∧
        affinities.Perm s.balancer.pendingAffinities then
      some (s.maintain now updates affinities)
    else none
  | .maintainFailed now => if s.clock ≤ now then some { s with clock := now } else none
  | .select now userId allProviders affinity excluded =>
    if s.clock ≤ now then
      match s.balancer.select env.affinityHash env.affinityTtl now userId allProviders affinity
          excluded with
      | .ok (_, balancer) => some { s with clock := now, balancer := balancer }
      | .error _ => some { s with clock := now }
    else none
  | .dropLease providerId => some { s with balancer := s.balancer.dropLease providerId }
  | .execute stmt =>
    match stmt.exec s.db with
    | .ok (db, _) => some { s with db := db }
    | .error _ => some s
  | .forgetProvider providerId =>
    if s.db.provider? providerId = none then
      some { s with balancer := s.balancer.forgetProvider providerId }
    else none

/-- A run of the node. -/
abbrev run (s : Node) (operations : List Operation) : Option Node :=
  Transition.run (step env) s operations

/-- The state of the node after a run. -/
abbrev after (s : Node) (operations : List Operation) : Node :=
  Transition.after (step env) s operations

/-- A node on which one provider was created and loaded into the snapshot. -/
def loaded : Node := initial.after usageLimitEnvironment
  [.execute (.createProvider "p" "name" "account" "access" "refresh" none 10 "owner"),
    .reloadProviders]

/-- The same node after a usage-limit response at second 100 whose deadline is second 200. -/
def limited : Node := loaded.after usageLimitEnvironment
  [.trackResponse 100 "p" "c" 429 (usageLimitBody 200)]

end Node

namespace Balancer

/-- Comparing and removing changes only the entries it was given. -/
theorem lookup_removeFlushed (m : AList fun _ : String => ProviderUpdate)
    (flushed : String × ProviderUpdate) (id : String) :
    (removeFlushed m flushed).lookup id =
      if id = flushed.1 ∧ m.lookup id = some flushed.2 then none else m.lookup id := by
  unfold removeFlushed
  by_cases heq : id = flushed.1
  · subst heq
    by_cases hval : m.lookup flushed.1 = some flushed.2
    · simp [hval]
    · simp [hval]
  · split
    · rw [AList.lookup_erase_ne heq, if_neg (fun h => heq h.1)]
    · rw [if_neg (fun h => heq h.1)]

/-- The cleanup loop drops an entry exactly when its current value was written. -/
theorem lookup_foldl_removeFlushed (updates : List (String × ProviderUpdate))
    (m : AList fun _ : String => ProviderUpdate) (id : String) :
    (updates.foldl removeFlushed m).lookup id =
      (m.lookup id).filter fun update => (id, update) ∉ updates := by
  induction updates generalizing m with
  | nil => cases h : m.lookup id <;> simp [Option.filter, h]
  | cons flushed rest ih =>
    obtain ⟨key, written⟩ := flushed
    rw [List.foldl_cons, ih, lookup_removeFlushed]
    cases h : m.lookup id with
    | none => simp
    | some update =>
      by_cases hhead : id = key ∧ update = written
      · simp [Option.filter, hhead]
      · have hne : (id, update) ≠ (key, written) := fun heq => hhead (Prod.mk.inj heq)
        simp only [Option.some.injEq, if_neg hhead, Option.filter, List.mem_cons, hne, false_or]

/-- The balancers differ in their affinities at most. -/
structure SameBeyondAffinities (b after : Balancer) : Prop where
  providers : after.providers = b.providers
  providerGrants : after.providerGrants = b.providerGrants
  providerUpdates : after.providerUpdates = b.providerUpdates
  cursor : after.cursor = b.cursor
  inflight : after.inflight = b.inflight

/-- Cleaning an affinity changes the affinities only. -/
theorem frame_cleanAffinity (b : Balancer) (entry : String × AffinityEntry × Bool) :
    b.SameBeyondAffinities (cleanAffinity b entry) := by
  unfold cleanAffinity
  dsimp only
  split <;> exact ⟨rfl, rfl, rfl, rfl, rfl⟩

/-- The affinity cleanup does not touch the other fields. -/
theorem frame_cleanAffinities (persisted : List (String × AffinityEntry × Bool)) (b : Balancer) :
    b.SameBeyondAffinities (persisted.foldl cleanAffinity b) := by
  induction persisted generalizing b with
  | nil => exact ⟨rfl, rfl, rfl, rfl, rfl⟩
  | cons entry rest ih =>
    have hone := frame_cleanAffinity b entry
    have hrest := ih (cleanAffinity b entry)
    exact ⟨hrest.providers.trans hone.providers, hrest.providerGrants.trans hone.providerGrants,
      hrest.providerUpdates.trans hone.providerUpdates, hrest.cursor.trans hone.cursor,
      hrest.inflight.trans hone.inflight⟩

/-- The snapshot after a committed maintenance run. -/
theorem providers_afterCommit (b : Balancer) (now : Int)
    (updates : List (String × ProviderUpdate))
    (persisted : List (String × AffinityEntry × Bool)) :
    (b.afterCommit now updates persisted).providers = b.providers.recover now := by
  unfold afterCommit recoverCachedProviders
  dsimp only
  rw [(frame_cleanAffinities persisted _).providers]

/-- After an atomic maintenance run the write-behind map is empty. -/
theorem lookup_afterCommit {b : Balancer} {updates : List (String × ProviderUpdate)}
    (hperm : updates.Perm b.pendingUpdates) (now : Int)
    (persisted : List (String × AffinityEntry × Bool)) (id : String) :
    (b.afterCommit now updates persisted).providerUpdates.lookup id = none := by
  have hfields : (b.afterCommit now updates persisted).providerUpdates =
      updates.foldl removeFlushed b.providerUpdates := by
    unfold afterCommit recoverCachedProviders
    dsimp only
    rw [(frame_cleanAffinities persisted _).providerUpdates]
  rw [hfields, lookup_foldl_removeFlushed]
  cases hval : b.providerUpdates.lookup id with
  | none => rfl
  | some update =>
    have hmem : (id, update) ∈ updates := hperm.mem_iff.mpr (Assoc.mem_pairs.mpr hval)
    simp [Option.filter, hmem]

/-- What one maintenance run sees of a provider's pending update. -/
theorem lookup_of_perm_pendingUpdates {b : Balancer} {updates : List (String × ProviderUpdate)}
    (hperm : updates.Perm b.pendingUpdates) (id : String) :
    updates.lookup id = b.providerUpdates.lookup id :=
  Assoc.lookup_of_perm_pairs hperm id

/-- The pending updates are of different providers, in whichever order. -/
theorem nodup_of_perm_pendingUpdates {b : Balancer} {updates : List (String × ProviderUpdate)}
    (hperm : updates.Perm b.pendingUpdates) : (updates.map Prod.fst).Nodup :=
  (hperm.map Prod.fst).nodup_iff.mpr (Assoc.nodup_pairs b.providerUpdates)

end Balancer

end OpenAiLb
