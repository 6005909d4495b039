import OpenAiLb.Balancer
import OpenAiLb.Library.Assoc

/-!
# The maintenance run

`maintain` writes the pending provider updates and the dirty affinities in one
transaction, releases the expired cooldowns in the same transaction, and then
removes from memory what it has written. This file models the transaction, the
cleanup and the whole run as one step, and says what the transaction does to one
provider: the other providers do not matter for it.
-/

namespace OpenAiLb

/-- The row written by the `UPDATE providers` of the flush loop. -/
def flushRow (update : ProviderUpdate) (row : Provider) : Provider :=
  { row with
    status := if row.manualDisabled then .disabled else update.status.getD row.status
    cooldownUntil :=
      if row.manualDisabled then none
      else if update.status.isSome then update.cooldownUntil else row.cooldownUntil
    rateLimitJson := some update.rateLimitJson
    lastError := if update.status.isSome then update.lastError else row.lastError
    lastUsedAt := update.lastUsedAt.or row.lastUsedAt
    updatedAt := update.updatedAt }

@[simp] theorem flushRow_id (update : ProviderUpdate) (row : Provider) :
    (flushRow update row).id = row.id := rfl

@[simp] theorem flushRow_manualDisabled (update : ProviderUpdate) (row : Provider) :
    (flushRow update row).manualDisabled = row.manualDisabled := rfl

namespace Database

/-- One turn of the flush loop: the circuit upsert, then the row update. -/
def flushUpdate (db : Database) (id : String) (update : ProviderUpdate) :
    Except SqliteError Database :=
  match update.circuit.elim (.ok db) (db.insertCircuit id) with
  | .ok db => .ok (db.updateProviders (fun row => row.id = id) (flushRow update)
      (flushRow_id update))
  | .error error => .error error

/-- The flush loop. -/
def flushUpdates (db : Database) : List (String × ProviderUpdate) → Except SqliteError Database
  | [] => .ok db
  | (id, update) :: rest =>
    match db.flushUpdate id update with
    | .ok db => db.flushUpdates rest
    | .error error => .error error

/-- The affinity loop: each entry with whether its row was written. -/
def persistAffinities (db : Database) :
    List (String × AffinityEntry) → Database × List (String × AffinityEntry × Bool)
  | [] => (db, [])
  | (hash, entry) :: rest =>
    let (db, written) :=
      db.upsertAffinity ⟨hash, entry.providerId, entry.expiresAt, entry.updatedAt⟩
    let (db, persisted) := db.persistAffinities rest
    (db, (hash, entry, written) :: persisted)

/-- The recovery `UPDATE` of the transaction. -/
def recoverExpired (db : Database) (now : Int) : Database :=
  db.updateProviders (isExpiredCooldown now) (releaseCooldown now) (releaseCooldown_id now)

/-- The transaction of `maintain`, from `begin` to `commit`. An error rolls it back. -/
def maintainTransaction (db : Database) (now : Int) (updates : List (String × ProviderUpdate))
    (affinities : List (String × AffinityEntry)) :
    Except SqliteError (Database × List (String × AffinityEntry × Bool)) :=
  match db.flushUpdates updates with
  | .ok db =>
    let (db, persisted) := db.persistAffinities affinities
    .ok ((db.recoverExpired now).deleteExpiredAffinities now, persisted)
  | .error error => .error error

end Database

/-- The row of a provider after the flush loop, given its pending update. -/
def flushPending (update : Option ProviderUpdate) (row : Provider) : Provider :=
  update.elim row fun update => flushRow update row

@[simp] theorem flushPending_none (row : Provider) : flushPending none row = row := rfl

@[simp] theorem flushPending_some (update : ProviderUpdate) (row : Provider) :
    flushPending (some update) row = flushRow update row := rfl

/-- The circuit events of a provider after one turn of the flush loop. -/
def flushEvents (id : String) (update : ProviderUpdate) (row : Option Provider)
    (events : List ProviderCircuitEvent) : List ProviderCircuitEvent :=
  let events := update.circuit.elim events fun circuit =>
    Database.upsertCircuit id circuit row events
  row.elim events fun old => events.map (·.closeOnStatusChange old (flushRow update old))

/-- The circuit events of a provider after the recovery at `now`. -/
def recoverEvents (now : Int) (row : Option Provider) (events : List ProviderCircuitEvent) :
    List ProviderCircuitEvent :=
  row.elim events fun old => events.map (·.closeOnStatusChange old (recoverRow now old))

namespace Database

section Flush

variable {db db' : Database} {id : String} {update : ProviderUpdate}

/-- A successful turn of the flush loop: the circuit upsert succeeds, then the row is written. -/
theorem flushUpdate_eq_ok (h : db.flushUpdate id update = .ok db') :
    ∃ mid : Database, update.circuit.elim (.ok db) (db.insertCircuit id) = .ok mid ∧
      db' = mid.updateProviders (fun row => row.id = id) (flushRow update)
        (flushRow_id update) := by
  unfold flushUpdate at h
  split at h
  · next mid hmid =>
    cases h
    exact ⟨mid, hmid, rfl⟩
  · cases h

/-- The circuit part of a turn does not touch the provider rows. -/
theorem provider?_of_circuit {mid : Database} (other : String)
    (h : update.circuit.elim (.ok db) (db.insertCircuit id) = .ok mid) :
    mid.provider? other = db.provider? other := by
  cases hc : update.circuit with
  | none =>
    rw [hc] at h
    cases h
    rfl
  | some circuit =>
    rw [hc] at h
    exact provider?_of_insertCircuit h other

/-- A flushed update changes the row of its provider only. -/
theorem provider?_of_flushUpdate (h : db.flushUpdate id update = .ok db') (other : String) :
    db'.provider? other =
      (db.provider? other).map fun row => if other = id then flushRow update row else row := by
  obtain ⟨mid, hmid, rfl⟩ := flushUpdate_eq_ok h
  rw [provider?_updateProviders, provider?_of_circuit other hmid]
  cases hrow : db.provider? other with
  | none => rfl
  | some row => simp [show row.id = other from Table.key_of_find? hrow]

/-- A flushed update changes the circuit events of its provider only. -/
theorem eventsOf_of_flushUpdate (h : db.flushUpdate id update = .ok db') (other : String) :
    db'.eventsOf other =
      if other = id then flushEvents id update (db.provider? id) (db.eventsOf id)
      else db.eventsOf other := by
  obtain ⟨mid, hmid, rfl⟩ := flushUpdate_eq_ok h
  have hevents : mid.eventsOf other =
      if other = id then update.circuit.elim (db.eventsOf id) fun circuit =>
        upsertCircuit id circuit (db.provider? id) (db.eventsOf id)
      else db.eventsOf other := by
    cases hc : update.circuit with
    | none =>
      rw [hc] at hmid
      cases hmid
      split
      · next heq => simp [heq]
      · rfl
    | some circuit =>
      rw [hc] at hmid
      exact eventsOf_of_insertCircuit hmid other
  rw [eventsOf_updateProviders, provider?_of_circuit other hmid, hevents]
  split
  · next heq =>
    subst heq
    cases hrow : db.provider? other with
    | none => simp [flushEvents]
    | some row => simp [flushEvents, show row.id = other from Table.key_of_find? hrow]
  · next hne =>
    cases hrow : db.provider? other with
    | none => rfl
    | some row => simp [show row.id = other from Table.key_of_find? hrow, hne]

/-- The updates are flushed one after the other. -/
theorem flushUpdates_cons_eq_ok {rest : List (String × ProviderUpdate)}
    (h : db.flushUpdates ((id, update) :: rest) = .ok db') :
    ∃ mid, db.flushUpdate id update = .ok mid ∧ mid.flushUpdates rest = .ok db' := by
  simp only [flushUpdates] at h
  split at h
  · next mid hmid => exact ⟨mid, hmid, h⟩
  · cases h

/-- **The flush loop, one provider at a time**: with one entry per provider, the row of a
provider depends on its own entry alone. -/
theorem provider?_of_flushUpdates {updates : List (String × ProviderUpdate)}
    (h : db.flushUpdates updates = .ok db') (hnodup : (updates.map Prod.fst).Nodup)
    (other : String) :
    db'.provider? other = (db.provider? other).map (flushPending (updates.lookup other)) := by
  induction updates generalizing db with
  | nil =>
    cases h
    simp [show flushPending none = id from rfl]
  | cons entry rest ih =>
    obtain ⟨id, update⟩ := entry
    obtain ⟨mid, hmid, hrest⟩ := flushUpdates_cons_eq_ok h
    rw [List.map_cons, List.nodup_cons] at hnodup
    rw [ih hrest hnodup.2, provider?_of_flushUpdate hmid, Option.map_map]
    congr 1
    funext row
    by_cases heq : other = id
    · subst heq
      simp [Assoc.lookup_eq_none_of_not_mem hnodup.1]
    · simp [Assoc.lookup_cons_ne heq, heq]

/-- Flushing writes the update of each provider to its circuit events once. -/
theorem eventsOf_of_flushUpdates {updates : List (String × ProviderUpdate)}
    (h : db.flushUpdates updates = .ok db') (hnodup : (updates.map Prod.fst).Nodup)
    (other : String) :
    db'.eventsOf other = (updates.lookup other).elim (db.eventsOf other) fun update =>
      flushEvents other update (db.provider? other) (db.eventsOf other) := by
  induction updates generalizing db with
  | nil =>
    cases h
    rfl
  | cons entry rest ih =>
    obtain ⟨id, update⟩ := entry
    obtain ⟨mid, hmid, hrest⟩ := flushUpdates_cons_eq_ok h
    rw [List.map_cons, List.nodup_cons] at hnodup
    rw [ih hrest hnodup.2, provider?_of_flushUpdate hmid, eventsOf_of_flushUpdate hmid]
    by_cases heq : other = id
    · subst heq
      simp [Assoc.lookup_eq_none_of_not_mem hnodup.1]
    · simp [Assoc.lookup_cons_ne heq, heq]

end Flush

section Transaction

variable {db db' : Database} {now : Int} {updates : List (String × ProviderUpdate)}
  {affinities : List (String × AffinityEntry)} {persisted : List (String × AffinityEntry × Bool)}

/-- The affinities leave the providers, their circuit events and the grants alone. -/
theorem frame_persistAffinities (db : Database) (affinities : List (String × AffinityEntry)) :
    (db.persistAffinities affinities).1.providers = db.providers ∧
      (db.persistAffinities affinities).1.providerCircuitEvents = db.providerCircuitEvents ∧
      (db.persistAffinities affinities).1.providerGrants = db.providerGrants := by
  induction affinities generalizing db with
  | nil => exact ⟨rfl, rfl, rfl⟩
  | cons entry rest ih =>
    obtain ⟨hash, entry⟩ := entry
    obtain ⟨h1, h2, h3⟩ :=
      db.frame_upsertAffinity ⟨hash, entry.providerId, entry.expiresAt, entry.updatedAt⟩
    obtain ⟨i1, i2, i3⟩ :=
      ih (db.upsertAffinity ⟨hash, entry.providerId, entry.expiresAt, entry.updatedAt⟩).1
    exact ⟨i1.trans h1, i2.trans h2, i3.trans h3⟩

/-- A committed transaction: the flush loop succeeds, and nothing after it can fail. -/
theorem maintainTransaction_eq_ok
    (h : db.maintainTransaction now updates affinities = .ok (db', persisted)) :
    ∃ mid : Database, db.flushUpdates updates = .ok mid ∧
      db' = ((mid.persistAffinities affinities).1.recoverExpired now).deleteExpiredAffinities now ∧
      persisted = (mid.persistAffinities affinities).2 := by
  unfold maintainTransaction at h
  split at h
  · next mid hmid =>
    cases h
    exact ⟨mid, hmid, rfl, rfl⟩
  · cases h

/-- The transaction fails exactly if an update cannot be written. -/
theorem maintainTransaction_error_iff {error : SqliteError} :
    db.maintainTransaction now updates affinities = .error error ↔
      db.flushUpdates updates = .error error := by
  unfold maintainTransaction
  split
  · next mid hmid => simp [hmid]
  · next error' herror => simp [herror]

/-- **The transaction on one provider row**: its pending update, then the recovery. -/
theorem provider?_of_maintainTransaction
    (h : db.maintainTransaction now updates affinities = .ok (db', persisted))
    (hnodup : (updates.map Prod.fst).Nodup) (id : String) :
    db'.provider? id =
      (db.provider? id).map fun row => recoverRow now (flushPending (updates.lookup id) row) := by
  obtain ⟨mid, hmid, rfl, -⟩ := maintainTransaction_eq_ok h
  have hrecover : (((mid.persistAffinities affinities).1.recoverExpired now).deleteExpiredAffinities
      now).provider? id = (mid.provider? id).map (recoverRow now) := by
    have hframe := (frame_persistAffinities mid affinities).1
    change ((mid.persistAffinities affinities).1.recoverExpired now).provider? id = _
    rw [recoverExpired, provider?_updateProviders, provider?, hframe]
    rfl
  rw [hrecover, provider?_of_flushUpdates hmid hnodup, Option.map_map]
  rfl

/-- **The transaction on the circuit events of one provider.** -/
theorem eventsOf_of_maintainTransaction
    (h : db.maintainTransaction now updates affinities = .ok (db', persisted))
    (hnodup : (updates.map Prod.fst).Nodup) (id : String) :
    db'.eventsOf id =
      recoverEvents now ((db.provider? id).map (flushPending (updates.lookup id)))
        ((updates.lookup id).elim (db.eventsOf id) fun update =>
          flushEvents id update (db.provider? id) (db.eventsOf id)) := by
  obtain ⟨mid, hmid, rfl, -⟩ := maintainTransaction_eq_ok h
  have hframe := frame_persistAffinities mid affinities
  have hrow : (mid.persistAffinities affinities).1.provider? id = mid.provider? id := by
    rw [provider?, hframe.1, provider?]
  have hevents : (mid.persistAffinities affinities).1.eventsOf id = mid.eventsOf id := by
    rw [eventsOf, hframe.2.1, eventsOf]
  change ((mid.persistAffinities affinities).1.recoverExpired now).eventsOf id = _
  rw [recoverExpired, eventsOf_updateProviders, hrow, hevents,
    provider?_of_flushUpdates hmid hnodup, eventsOf_of_flushUpdates hmid hnodup]
  rfl

end Transaction

end Database

namespace Balancer

/-- The snapshot of the write-behind map that `maintain` takes. -/
def pendingUpdates (b : Balancer) : List (String × ProviderUpdate) :=
  Assoc.pairs b.providerUpdates

/-- The snapshot of the dirty affinities that `maintain` takes. -/
def pendingAffinities (b : Balancer) : List (String × AffinityEntry) :=
  b.dirtyAffinities.filterMap fun hash => (b.affinities.lookup hash).map fun entry => (hash, entry)

/-- Compare-and-remove of one written update. -/
def removeFlushed (updates : AList fun _ : String => ProviderUpdate)
    (flushed : String × ProviderUpdate) : AList fun _ : String => ProviderUpdate :=
  if updates.lookup flushed.1 = some flushed.2 then updates.erase flushed.1 else updates

/-- The cleanup of one persisted affinity. -/
def cleanAffinity (b : Balancer) (persisted : String × AffinityEntry × Bool) : Balancer :=
  let (hash, entry, written) := persisted
  if b.affinities.lookup hash = some entry then
    let affinities := if written then b.affinities else b.affinities.erase hash
    let dirty := b.dirtyAffinities.filter fun other => other ≠ hash
    { b with
      affinities := affinities
      dirtyAffinities :=
        if hash ∈ affinities ∧ written = false then dirty.insert hash else dirty }
  else b

/-- What `maintain` does in memory after the commit. -/
def afterCommit (b : Balancer) (now : Int) (updates : List (String × ProviderUpdate))
    (persisted : List (String × AffinityEntry × Bool)) : Balancer :=
  let b := { b with providerUpdates := updates.foldl removeFlushed b.providerUpdates }
  let b := persisted.foldl cleanAffinity b
  let b := { b with affinities := Assoc.retain (fun entry => now < entry.expiresAt) b.affinities }
  b.recoverCachedProviders now

/-- `maintain` as one step; an aborted transaction leaves everything as it was. -/
def maintain (b : Balancer) (db : Database) (now : Int) :
    Except SqliteError (Balancer × Database) :=
  match db.maintainTransaction now b.pendingUpdates b.pendingAffinities with
  | .ok (db, persisted) => .ok (b.afterCommit now b.pendingUpdates persisted, db)
  | .error error => .error error

end Balancer

end OpenAiLb
