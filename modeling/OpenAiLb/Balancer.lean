import OpenAiLb.Database
import OpenAiLb.Oauth
import Mathlib.Data.List.AList
import Mathlib.Data.List.Sort
import Mathlib.Data.String.Basic

/-!
# The balancer

The in-memory half of the system: the snapshot of the provider rows and of the
grants, the in-flight counters, the affinities and the write-behind map, with the
selection of a provider for a request. A `DashMap` is an association list with
unique keys; its iteration order is not relied on.
-/

namespace OpenAiLb

/-- `AffinityEntry`. -/
structure AffinityEntry where
  providerId : String
  expiresAt : Int
  updatedAt : Int
  deriving DecidableEq

/-- The snapshot of the provider rows: `Arc<Vec<Provider>>`, as read from the table. -/
abbrev Snapshot := Table Provider.id

/-- The snapshot of the grants: the pairs of a provider and a user. -/
abbrev GrantSnapshot := List (String × String)

/-- Grants are compared by both of their ids. -/
instance lawfulBEqGrant : LawfulBEq (String × String) := inferInstance

/-- `Balancer`. -/
structure Balancer where
  inflight : AList fun _ : String => ℕ
  cursor : ℕ
  providers : Snapshot
  providerGrants : GrantSnapshot
  affinities : AList fun _ : String => AffinityEntry
  dirtyAffinities : List String
  providerUpdates : AList fun _ : String => ProviderUpdate

/-- `Lease`; dropping it is `Balancer.dropLease`. -/
structure Lease where
  provider : Provider
  accessToken : String
  refreshToken : String
  deriving DecidableEq

/-- The order of `ORDER BY created_at,id`. -/
def createdBefore (a b : Provider) : Prop :=
  a.createdAt < b.createdAt ∨ (a.createdAt = b.createdAt ∧ a.id ≤ b.id)

instance : DecidableRel createdBefore := fun _ _ => inferInstanceAs (Decidable (_ ∨ _))

namespace Database

/-- `SELECT * FROM providers ORDER BY created_at,id`. -/
def selectProviders (db : Database) : Snapshot where
  rows := db.providers.rows.insertionSort createdBefore
  nodup := ((List.perm_insertionSort createdBefore _).map Provider.id).nodup_iff.mpr
    db.providers.nodup

/-- The snapshot loads all providers. -/
@[simp] theorem mem_selectProviders {db : Database} {row : Provider} :
    row ∈ db.selectProviders ↔ row ∈ db.providers :=
  List.mem_insertionSort createdBefore

/-- A provider is found in the snapshot that is loaded as it is found in the table. -/
@[simp] theorem find?_selectProviders (db : Database) (id : String) :
    db.selectProviders.find? id = db.provider? id := by
  ext row
  simp only [provider?, Table.find?_eq_some_iff, mem_selectProviders]

/-- `SELECT provider_id,user_id FROM provider_grants`. -/
def selectGrants (db : Database) : GrantSnapshot := db.providerGrants.rows.map ProviderGrant.key

/-- The snapshot loads all grants. -/
theorem mem_selectGrants {db : Database} {pair : String × String} :
    pair ∈ db.selectGrants ↔ pair ∈ db.providerGrants.keys := Iff.rfl

end Database

/-- What `observe` does to the cached row of the observed provider. -/
def observeRow (update : ProviderUpdate) (row : Provider) : Provider :=
  let status := if row.manualDisabled then none else update.status
  { row with
    status := status.getD row.status
    cooldownUntil := if status.isSome then update.cooldownUntil else row.cooldownUntil
    lastError := if status.isSome then update.lastError else row.lastError
    rateLimitJson := some update.rateLimitJson
    lastUsedAt := update.lastUsedAt.or row.lastUsedAt
    updatedAt := update.updatedAt }

@[simp] theorem observeRow_id (update : ProviderUpdate) (row : Provider) :
    (observeRow update row).id = row.id := rfl

@[simp] theorem observeRow_manualDisabled (update : ProviderUpdate) (row : Provider) :
    (observeRow update row).manualDisabled = row.manualDisabled := rfl

@[simp] theorem observeRow_ownerId (update : ProviderUpdate) (row : Provider) :
    (observeRow update row).ownerId = row.ownerId := rfl

/-- The row is one that the recovery at `now` releases. -/
def isExpiredCooldown (now : Int) (row : Provider) : Bool :=
  !row.manualDisabled && row.status = .cooldown && row.cooldownUntil.any (· ≤ now)

/-- The fields that the recovery at `now` writes. -/
def releaseCooldown (now : Int) (row : Provider) : Provider :=
  { row with
    status := .active
    cooldownUntil := none
    lastError := none
    updatedAt := now }

@[simp] theorem releaseCooldown_id (now : Int) (row : Provider) :
    (releaseCooldown now row).id = row.id := rfl

/-- What `recover_cached_providers` does to one cached row. -/
def recoverRow (now : Int) (row : Provider) : Provider :=
  if isExpiredCooldown now row then releaseCooldown now row else row

/-- The recovery keeps the ids. -/
@[simp] theorem recoverRow_id (now : Int) (row : Provider) :
    (recoverRow now row).id = row.id := by
  unfold recoverRow
  split <;> rfl

/-- The recovery neither enables nor disables a row. -/
@[simp] theorem recoverRow_manualDisabled (now : Int) (row : Provider) :
    (recoverRow now row).manualDisabled = row.manualDisabled := by
  unfold recoverRow
  split <;> rfl

/-- The recovery keeps the owners. -/
@[simp] theorem recoverRow_ownerId (now : Int) (row : Provider) :
    (recoverRow now row).ownerId = row.ownerId := by
  unfold recoverRow
  split <;> rfl

namespace Snapshot

/-- The snapshot edit of `observe`. -/
def observe (snapshot : Snapshot) (providerId : String) (update : ProviderUpdate) : Snapshot :=
  snapshot.updateWhere (fun row => row.id = providerId) (observeRow update) (observeRow_id update)

/-- The snapshot edit of `recover_cached_providers`. -/
def recover (snapshot : Snapshot) (now : Int) : Snapshot :=
  snapshot.map (recoverRow now) (recoverRow_id now)

/-- The snapshot edit of `forget_provider`. -/
def forget (snapshot : Snapshot) (providerId : String) : Snapshot :=
  snapshot.filter fun row => row.id ≠ providerId

/-- A row of the snapshot after an observation. -/
@[simp] theorem find?_observe (snapshot : Snapshot) (providerId : String)
    (update : ProviderUpdate) (id : String) :
    (snapshot.observe providerId update).find? id =
      (snapshot.find? id).map fun row =>
        if id = providerId then observeRow update row else row := by
  rw [observe, Table.find?_updateWhere]
  cases h : snapshot.find? id with
  | none => rfl
  | some row => simp [Table.key_of_find? h]

/-- A row of the snapshot after the recovery. -/
@[simp] theorem find?_recover (snapshot : Snapshot) (now : Int) (id : String) :
    (snapshot.recover now).find? id = (snapshot.find? id).map (recoverRow now) :=
  Table.find?_map ..

end Snapshot

/-- The first element at which `f` is least, as `Iterator::min_by_key` finds it. -/
def minByKey {α : Type*} (f : α → ℕ) : List α → Option α
  | [] => none
  | a :: rest =>
    match minByKey f rest with
    | none => some a
    | some b => if f a ≤ f b then some a else some b

/-- What is found at the minimum is an element. -/
theorem mem_of_minByKey {α : Type*} {f : α → ℕ} {l : List α} {a : α}
    (h : minByKey f l = some a) : a ∈ l := by
  induction l generalizing a with
  | nil => cases h
  | cons x rest ih =>
    simp only [minByKey] at h
    split at h
    · cases h
      exact List.mem_cons_self
    · next b hb =>
      split at h
      · cases h
        exact List.mem_cons_self
      · cases h
        exact List.mem_cons_of_mem _ (ih hb)

/-- A list with an element has one at which `f` is least. -/
theorem minByKey_isSome {α : Type*} {f : α → ℕ} {l : List α} (h : l ≠ []) :
    (minByKey f l).isSome := by
  cases l with
  | nil => exact absurd rfl h
  | cons x rest =>
    simp only [minByKey]
    split
    · rfl
    · split <;> rfl

namespace Balancer

/-- `Balancer::default`. -/
def default : Balancer where
  inflight := ∅
  cursor := 0
  providers := Table.empty
  providerGrants := []
  affinities := ∅
  dirtyAffinities := []
  providerUpdates := ∅

/-- The filter of `select`: available, allowed for the user, and not excluded. -/
def isEligible (grants : GrantSnapshot) (now : Int) (userId : String) (allProviders : Bool)
    (excluded : Option String) (provider : Provider) : Bool :=
  providerIsAvailable provider now &&
    (allProviders || provider.ownerId = some userId || (provider.id, userId) ∈ grants) &&
    excluded ≠ some provider.id

/-- The providers that `select` may choose from, in snapshot order. -/
def eligible (b : Balancer) (now : Int) (userId : String) (allProviders : Bool)
    (excluded : Option String) : List Provider :=
  b.providers.rows.filter (isEligible b.providerGrants now userId allProviders excluded)

/-- `affinity_provider`, on a hashed key. -/
def affinityProvider (b : Balancer) (hash : String) (eligible : List Provider) (now : Int) :
    Option Provider :=
  (b.affinities.lookup hash).bind fun entry =>
    if now < entry.expiresAt then
      eligible.find? fun provider => provider.id = entry.providerId
    else none

/-- `inflight`: the counter of a provider. -/
def inflightOf (b : Balancer) (providerId : String) : ℕ := (b.inflight.lookup providerId).getD 0

/-- `least_inflight`: the cyclic order from the cursor, and the cursor moves on. -/
def leastInflight (b : Balancer) (eligible : List Provider) : Option Provider × Balancer :=
  let start := b.cursor % eligible.length
  (minByKey (fun provider => b.inflightOf provider.id) (eligible.drop start ++ eligible.take start),
    { b with cursor := (b.cursor + 1) % 2 ^ 64 })

/-- `remember_affinity`, on a hashed key. -/
def rememberAffinity (b : Balancer) (hash providerId : String) (now ttl : Int) : Balancer :=
  { b with
    affinities := b.affinities.insert hash ⟨providerId, now + ttl, now⟩
    dirtyAffinities := b.dirtyAffinities.insert hash }

/-- The error of `select`. -/
def noAvailableProvider : AppError := .unavailable "no available CodeX provider"

/-- `select`. `affinityHash` is `affinity_hash`, `ttl` the configured affinity lifetime. -/
def select (affinityHash : String → String) (ttl : Int) (b : Balancer) (now : Int)
    (userId : String) (allProviders : Bool) (affinity excluded : Option String) :
    Except AppError (Lease × Balancer) :=
  let eligible := b.eligible now userId allProviders excluded
  if eligible = [] then .error noAvailableProvider
  else
    let hash := affinity.map affinityHash
    let (chosen, b) :=
      match hash.bind fun hash => b.affinityProvider hash eligible now with
      | some provider => (some provider, b)
      | none => b.leastInflight eligible
    match chosen with
    -- `expect("non-empty provider list")`: the list is not empty here.
    | none => .error noAvailableProvider
    | some chosen =>
      let b := hash.elim b fun hash => b.rememberAffinity hash chosen.id now ttl
      .ok (⟨chosen, chosen.accessToken, chosen.refreshToken⟩,
        { b with inflight := b.inflight.insert chosen.id ((b.inflightOf chosen.id + 1) % 2 ^ 64) })

/-- `Lease::drop`. -/
def dropLease (b : Balancer) (providerId : String) : Balancer :=
  match b.inflight.lookup providerId with
  | some count =>
    { b with inflight := b.inflight.insert providerId ((count + (2 ^ 64 - 1)) % 2 ^ 64) }
  | none => b

/-- **A lease is on an eligible provider of the snapshot**, with that provider's tokens. -/
theorem select_mem_eligible {affinityHash : String → String} {ttl : Int} {b b' : Balancer}
    {now : Int} {userId : String} {allProviders : Bool} {affinity excluded : Option String}
    {lease : Lease}
    (h : b.select affinityHash ttl now userId allProviders affinity excluded = .ok (lease, b')) :
    lease.provider ∈ b.eligible now userId allProviders excluded ∧
      lease.accessToken = lease.provider.accessToken ∧
      lease.refreshToken = lease.provider.refreshToken := by
  unfold select at h
  dsimp only at h
  split at h
  · cases h
  split at h
  · cases h
  · next chosen hchosen =>
    cases h
    refine ⟨?_, rfl, rfl⟩
    split at hchosen
    · next provider hprovider =>
      cases hchosen
      obtain ⟨hash, -, hfound⟩ := Option.bind_eq_some_iff.mp hprovider
      obtain ⟨entry, -, hentry⟩ := Option.bind_eq_some_iff.mp hfound
      split at hentry
      · exact List.mem_of_find?_eq_some hentry
      · cases hentry
    · obtain hmem | hmem := List.mem_append.mp (mem_of_minByKey hchosen)
      · exact List.mem_of_mem_drop hmem
      · exact List.mem_of_mem_take hmem

/-- What it means for a provider to be eligible. -/
theorem mem_eligible {b : Balancer} {now : Int} {userId : String} {allProviders : Bool}
    {excluded : Option String} {provider : Provider} :
    provider ∈ b.eligible now userId allProviders excluded ↔
      provider ∈ b.providers ∧ providerIsAvailable provider now = true ∧
        (allProviders = true ∨ provider.ownerId = some userId ∨
          (provider.id, userId) ∈ b.providerGrants) ∧ excluded ≠ some provider.id := by
  simp [eligible, isEligible, List.mem_filter, and_assoc, or_assoc]

/-- Selection leaves the snapshot, the grants and the write-behind map alone. -/
theorem select_frame {affinityHash : String → String} {ttl : Int} {b b' : Balancer}
    {now : Int} {userId : String} {allProviders : Bool} {affinity excluded : Option String}
    {lease : Lease}
    (h : b.select affinityHash ttl now userId allProviders affinity excluded = .ok (lease, b')) :
    b'.providers = b.providers ∧ b'.providerGrants = b.providerGrants ∧
      b'.providerUpdates = b.providerUpdates := by
  unfold select at h
  dsimp only at h
  split at h
  · cases h
  split at h
  · cases h
  · cases h
    cases affinity <;> (dsimp only [Option.map, Option.elim, rememberAffinity]; split) <;>
      exact ⟨rfl, rfl, rfl⟩

/-- `reload_providers`, as one step. -/
def reloadProviders (b : Balancer) (db : Database) : Balancer :=
  { b with providers := db.selectProviders, providerGrants := db.selectGrants }

/-- The map update of `observe`. -/
def recordUpdate (updates : AList fun _ : String => ProviderUpdate) (providerId : String)
    (update : ProviderUpdate) : AList fun _ : String => ProviderUpdate :=
  match updates.lookup providerId with
  | some current => updates.insert providerId (current.merge update)
  | none => updates.insert providerId update

/-- Recording merges the update into the one that is pending for the provider. -/
theorem lookup_recordUpdate (updates : AList fun _ : String => ProviderUpdate)
    (providerId : String) (update : ProviderUpdate) :
    (recordUpdate updates providerId update).lookup providerId =
      some ((updates.lookup providerId).elim update fun current => current.merge update) := by
  unfold recordUpdate
  split <;> simp [*]

/-- Recording keeps the updates of other providers. -/
theorem lookup_recordUpdate_ne (updates : AList fun _ : String => ProviderUpdate)
    {providerId id : String} (update : ProviderUpdate) (h : id ≠ providerId) :
    (recordUpdate updates providerId update).lookup id = updates.lookup id := by
  unfold recordUpdate
  split <;> simp [AList.lookup_insert_ne h]

/-- `observe`, as one step. -/
def observe (b : Balancer) (providerId : String) (update : ProviderUpdate) : Balancer :=
  { b with
    providers := b.providers.observe providerId update
    providerUpdates := recordUpdate b.providerUpdates providerId update }

/-- `recover_cached_providers`, as one step. -/
def recoverCachedProviders (b : Balancer) (now : Int) : Balancer :=
  { b with providers := b.providers.recover now }

/-- The affinity entries that name a provider. -/
def hashesOf (b : Balancer) (providerId : String) : List String :=
  (b.affinities.entries.filter fun entry => entry.2.providerId = providerId).map Sigma.fst

/-- `forget_provider`, as one step. -/
def forgetProvider (b : Balancer) (providerId : String) : Balancer :=
  { b with
    providers := b.providers.forget providerId
    inflight := b.inflight.erase providerId
    providerUpdates := b.providerUpdates.erase providerId
    providerGrants := b.providerGrants.filter fun pair => pair.1 ≠ providerId
    affinities := (b.hashesOf providerId).foldl (fun affinities hash => affinities.erase hash)
      b.affinities
    dirtyAffinities := b.dirtyAffinities.filter fun hash => hash ∉ b.hashesOf providerId }

end Balancer

end OpenAiLb
