import OpenAiLb.Maintenance
import OpenAiLb.Statements

/-!
# The affinity rows

The table `affinities` seen as a map from a hash to an entry: what `hydrate` reads from
it, what a handler statement does to it, and what the transaction of `maintain` leaves
under one hash.
-/

namespace OpenAiLb

/-- The entry that `hydrate` makes of a row. -/
def AffinityRow.entry (row : AffinityRow) : AffinityEntry :=
  ⟨row.providerId, row.expiresAt, row.updatedAt⟩

namespace Database

/-- The entry stored under a hash. -/
def affinity? (db : Database) (hash : String) : Option AffinityEntry :=
  (db.affinities.find? hash).map AffinityRow.entry

variable {db db' : Database} {hash : String} {entry : AffinityEntry} {now : Int}

/-- The affinity table alone determines the entries. -/
theorem affinity?_congr (h : db'.affinities = db.affinities) (hash : String) :
    db'.affinity? hash = db.affinity? hash := by
  rw [affinity?, h, affinity?]

/-- Deleting a provider deletes the rows that reference it. -/
theorem affinity?_deleteProvider (db : Database) (id hash : String) :
    (db.deleteProvider id).affinity? hash =
      (db.affinity? hash).filter fun entry => entry.providerId ≠ id := by
  change ((db.affinities.filter fun row => row.providerId ≠ id).find? hash).map _ = _
  rw [Table.find?_filter, affinity?]
  cases db.affinities.find? hash with
  | none => rfl
  | some row => by_cases h : row.providerId = id <;> simp [Option.filter, AffinityRow.entry, h]

/-- Deleting the expired rows. -/
theorem affinity?_deleteExpiredAffinities (db : Database) (now : Int) (hash : String) :
    (db.deleteExpiredAffinities now).affinity? hash =
      (db.affinity? hash).filter fun entry => now < entry.expiresAt := by
  change ((db.affinities.filter fun row => now < row.expiresAt).find? hash).map _ = _
  rw [Table.find?_filter, affinity?]
  cases db.affinities.find? hash with
  | none => rfl
  | some row => by_cases h : now < row.expiresAt <;> simp [Option.filter, AffinityRow.entry, h]

/-- The upsert writes its hash when the provider exists, and nothing else. -/
theorem affinity?_upsertAffinity (db : Database) (hash : String) (entry : AffinityEntry)
    (other : String) :
    (db.upsertAffinity
      ⟨hash, entry.providerId, entry.expiresAt, entry.updatedAt⟩).1.affinity? other =
      if other = hash ∧ entry.providerId ∈ db.providers.keys then some entry
      else db.affinity? other := by
  unfold upsertAffinity
  split
  · next hmem =>
    change ((db.affinities.upsert _).find? other).map _ = _
    rw [Table.find?_upsert]
    by_cases heq : other = hash
    · simp [heq, hmem, AffinityRow.entry]
    · simp [heq, affinity?]
  · next hmem => simp [hmem]

/-- An affinity is written exactly if its provider is in the table. -/
theorem written_of_upsertAffinity (db : Database) (row : AffinityRow) :
    (db.upsertAffinity row).2 = decide (row.providerId ∈ db.providers.keys) := by
  unfold upsertAffinity
  split <;> simp [*]

/-- The affinity loop, one entry at a time. -/
theorem persistAffinities_cons (db : Database) (hash : String) (entry : AffinityEntry)
    (rest : List (String × AffinityEntry)) :
    (db.persistAffinities ((hash, entry) :: rest)).2 =
      (hash, entry, decide (entry.providerId ∈ db.providers.keys)) ::
        ((db.upsertAffinity ⟨hash, entry.providerId, entry.expiresAt,
          entry.updatedAt⟩).1.persistAffinities rest).2 := by
  rw [← written_of_upsertAffinity db ⟨hash, entry.providerId, entry.expiresAt, entry.updatedAt⟩]
  rfl

/-- The affinity loop writes every entry whose provider is in the table. -/
theorem written_of_persistAffinities {affinities : List (String × AffinityEntry)} {db : Database}
    {hash : String} {entry : AffinityEntry} {written : Bool}
    (h : (hash, entry, written) ∈ (db.persistAffinities affinities).2) :
    written = decide (entry.providerId ∈ db.providers.keys) := by
  induction affinities generalizing db with
  | nil => cases h
  | cons first rest ih =>
    obtain ⟨key, value⟩ := first
    have hframe := db.frame_upsertAffinity ⟨key, value.providerId, value.expiresAt, value.updatedAt⟩
    rw [persistAffinities_cons] at h
    rcases List.mem_cons.mp h with heq | hrest
    · cases heq
      rfl
    · rw [ih hrest, hframe.1]

/-- The affinity loop reports on the entries it was given. -/
theorem mem_of_persistAffinities {affinities : List (String × AffinityEntry)} {written : Bool}
    (h : (hash, entry, written) ∈ (db.persistAffinities affinities).2) :
    (hash, entry) ∈ affinities := by
  induction affinities generalizing db with
  | nil => cases h
  | cons first rest ih =>
    obtain ⟨key, value⟩ := first
    rw [persistAffinities_cons] at h
    rcases List.mem_cons.mp h with heq | hrest
    · cases heq
      exact List.mem_cons_self
    · exact List.mem_cons_of_mem _ (ih hrest)

/-- **The affinity loop under one hash**, for a batch with one entry for the hash: the entry is
written when its provider exists. -/
theorem affinity?_persistAffinities {affinities : List (String × AffinityEntry)} (db : Database)
    (hone : ∀ other, (hash, other) ∈ affinities → other = entry) :
    (db.persistAffinities affinities).1.affinity? hash =
      if (hash, entry) ∈ affinities ∧ entry.providerId ∈ db.providers.keys then some entry
      else db.affinity? hash := by
  induction affinities generalizing db with
  | nil => simp [persistAffinities]
  | cons first rest ih =>
    obtain ⟨key, value⟩ := first
    have hframe := db.frame_upsertAffinity ⟨key, value.providerId, value.expiresAt, value.updatedAt⟩
    have hrest := ih (db.upsertAffinity ⟨key, value.providerId, value.expiresAt,
      value.updatedAt⟩).1 fun other hmem => hone other (List.mem_cons_of_mem _ hmem)
    rw [hframe.1, affinity?_upsertAffinity] at hrest
    refine hrest.trans ?_
    by_cases hkey : hash = key
    · subst hkey
      obtain rfl : value = entry := hone value List.mem_cons_self
      by_cases hprovider : value.providerId ∈ db.providers.keys <;> simp [hprovider]
    · simp [hkey]

/-- The flush loop leaves the affinities and the keys of the providers alone. -/
theorem frame_of_flushUpdates {updates : List (String × ProviderUpdate)}
    (h : db.flushUpdates updates = .ok db') :
    db'.affinities = db.affinities ∧ db'.providers.keys = db.providers.keys := by
  induction updates generalizing db with
  | nil =>
    cases h
    exact ⟨rfl, rfl⟩
  | cons first rest ih =>
    obtain ⟨id, update⟩ := first
    obtain ⟨mid, hmid, hrest⟩ := flushUpdates_cons_eq_ok h
    obtain ⟨inner, hcircuit, rfl⟩ := flushUpdate_eq_ok hmid
    have hinner : inner.affinities = db.affinities ∧ inner.providers = db.providers := by
      cases hc : update.circuit with
      | none =>
        rw [hc] at hcircuit
        cases hcircuit
        exact ⟨rfl, rfl⟩
      | some circuit =>
        rw [hc] at hcircuit
        obtain ⟨hproviders, -, haffinities, -⟩ := frame_of_insertCircuit hcircuit
        exact ⟨haffinities, hproviders⟩
    obtain ⟨haffinities, hkeys⟩ := ih hrest
    constructor
    · exact haffinities.trans hinner.1
    · rw [hkeys, keys_providers_updateProviders, hinner.2]

section Transaction

variable {updates : List (String × ProviderUpdate)} {affinities : List (String × AffinityEntry)}
  {persisted : List (String × AffinityEntry × Bool)} {written : Bool}

/-- **The transaction of `maintain` under one hash**, for a batch with one entry for the hash. -/
theorem affinity?_of_maintainTransaction
    (h : db.maintainTransaction now updates affinities = .ok (db', persisted))
    (hone : ∀ other, (hash, other) ∈ affinities → other = entry) :
    db'.affinity? hash =
      (if (hash, entry) ∈ affinities ∧ entry.providerId ∈ db.providers.keys then some entry
        else db.affinity? hash).filter fun entry => now < entry.expiresAt := by
  obtain ⟨mid, hmid, rfl, -⟩ := maintainTransaction_eq_ok h
  obtain ⟨haffinities, hkeys⟩ := frame_of_flushUpdates hmid
  have hrecover : ((mid.persistAffinities affinities).1.recoverExpired now).affinity? hash =
      (mid.persistAffinities affinities).1.affinity? hash := affinity?_congr rfl hash
  rw [affinity?_deleteExpiredAffinities, hrecover, affinity?_persistAffinities mid hone, hkeys,
    affinity?_congr haffinities]

/-- What the transaction reports as written is of its batch, and the provider existed. -/
theorem mem_of_maintainTransaction
    (h : db.maintainTransaction now updates affinities = .ok (db', persisted))
    (hmem : (hash, entry, written) ∈ persisted) :
    (hash, entry) ∈ affinities ∧ written = decide (entry.providerId ∈ db.providers.keys) := by
  obtain ⟨mid, hmid, -, rfl⟩ := maintainTransaction_eq_ok h
  obtain ⟨-, hkeys⟩ := frame_of_flushUpdates hmid
  exact ⟨mem_of_persistAffinities hmem, hkeys ▸ written_of_persistAffinities hmem⟩

end Transaction

/-- **What a handler statement does to the affinities**: only the deletion of a provider touches
them, through the rows that reference it. -/
theorem affinity?_of_exec {stmt : Statement} {n : ℕ} (h : stmt.exec db = .ok (db', n))
    (hash : String) :
    db'.affinity? hash = (db.affinity? hash).filter fun entry =>
      stmt ≠ .deleteProvider entry.providerId := by
  have hkeep {a : Database} (hsame : a.affinities = db.affinities)
      (hother : ∀ id, stmt ≠ .deleteProvider id) :
      a.affinity? hash = (db.affinity? hash).filter fun entry =>
        stmt ≠ .deleteProvider entry.providerId := by
    rw [affinity?_congr hsame]
    cases db.affinity? hash <;> simp [Option.filter, hother]
  cases stmt with
  | createProvider newId =>
    simp only [Statement.exec] at h
    split at h
    · next hins =>
      cases h
      exact hkeep (frame_of_insertProvider hins).2.2.1 (by simp)
    · cases h
  | deleteProvider id =>
    cases h
    rw [affinity?_deleteProvider]
    simp [eq_comm]
  | createGrant => exact hkeep (frame_of_insertGrant h).2.2.1 (by simp)
  | deleteGrant =>
    cases h
    exact hkeep rfl (by simp)
  | rename | setEnabled | refreshProvider | refreshIfNeeded | refreshFailed | replaceTokens =>
    cases h
    exact hkeep rfl (by simp)

end Database

end OpenAiLb
