import OpenAiLb.Library.Table
import OpenAiLb.Provider

/-!
# The routing tables of the database

The tables `providers`, `provider_grants`, `provider_circuit_events` and
`affinities`. The primary keys, the foreign keys into `providers` and the partial
unique index on open circuit events are fields of the database, so a statement
cannot build a database that SQLite would refuse. The trigger that closes circuit
events belongs to `updateProviders`, through which every `UPDATE providers` goes.
-/

namespace OpenAiLb

/-- A statement that SQLite aborts. -/
inductive SqliteError where
  | uniqueConstraint
  | foreignKeyConstraint
  deriving DecidableEq

/-- A row of `provider_circuit_events`. -/
structure ProviderCircuitEvent where
  id : String
  providerId : String
  cause : String
  rateLimitJson : String
  openedAt : Int
  cooldownUntil : Int
  closedAt : Option Int
  resolution : Option String
  deriving DecidableEq

/-- A row of `provider_grants`. -/
structure ProviderGrant where
  providerId : String
  userId : String
  createdAt : Int
  deriving DecidableEq

/-- The primary key of `provider_grants`. -/
def ProviderGrant.key (grant : ProviderGrant) : String × String := (grant.providerId, grant.userId)

/-- A row of `affinities`. -/
structure AffinityRow where
  affinityHash : String
  providerId : String
  expiresAt : Int
  updatedAt : Int
  deriving DecidableEq

/-- The event is the open event of its provider. -/
def ProviderCircuitEvent.isOpen (event : ProviderCircuitEvent) : Bool := event.closedAt.isNone

/-- The tables with their constraints. -/
structure Database where
  /-- The ids of the `users` table. -/
  users : List String
  providers : Table Provider.id
  providerGrants : Table ProviderGrant.key
  providerCircuitEvents : Table ProviderCircuitEvent.id
  affinities : Table AffinityRow.affinityHash
  /-- `provider_grants.provider_id REFERENCES providers(id)`. -/
  grantsReference : ∀ grant ∈ providerGrants, grant.providerId ∈ providers.keys
  /-- `provider_circuit_events.provider_id REFERENCES providers(id)`. -/
  eventsReference : ∀ event ∈ providerCircuitEvents, event.providerId ∈ providers.keys
  /-- `affinities.provider_id REFERENCES providers(id)`. -/
  affinitiesReference : ∀ row ∈ affinities, row.providerId ∈ providers.keys
  /-- `provider_circuit_events_open_provider_idx`: one open event per provider. -/
  openUnique : ∀ event ∈ providerCircuitEvents, ∀ other ∈ providerCircuitEvents,
    event.isOpen → other.isOpen → event.providerId = other.providerId → event = other

namespace Database

/-- The database after the migrations. -/
def empty : Database where
  users := []
  providers := Table.empty
  providerGrants := Table.empty
  providerCircuitEvents := Table.empty
  affinities := Table.empty
  grantsReference := fun _ h => absurd h (Table.not_mem_empty _)
  eventsReference := fun _ h => absurd h (Table.not_mem_empty _)
  affinitiesReference := fun _ h => absurd h (Table.not_mem_empty _)
  openUnique := fun _ h => absurd h (Table.not_mem_empty _)

/-- The row of a provider. -/
def provider? (db : Database) (id : String) : Option Provider := db.providers.find? id

/-- The circuit events of a provider in insertion order. -/
def eventsOf (db : Database) (id : String) : List ProviderCircuitEvent :=
  db.providerCircuitEvents.rows.filter fun event => event.providerId = id

/-- The open circuit events of a provider; `openUnique` allows at most one. -/
def openEventsOf (db : Database) (id : String) : List ProviderCircuitEvent :=
  (db.eventsOf id).filter ProviderCircuitEvent.isOpen

end Database

/-- The `WHEN` clause of `provider_circuit_events_close_on_status_change`. -/
def closesCircuit (old new : Provider) : Bool :=
  old.status = .cooldown && new.status ≠ .cooldown

/-- The body of `provider_circuit_events_close_on_status_change` on one event of the
updated provider. -/
def ProviderCircuitEvent.closeOnStatusChange (old new : Provider) (event : ProviderCircuitEvent) :
    ProviderCircuitEvent :=
  if closesCircuit old new && event.isOpen then
    { event with
      closedAt := some new.updatedAt
      resolution := some <|
        if new.status = .active then "provider became active"
        else "provider status changed to " ++ new.status.text }
  else event

namespace ProviderCircuitEvent

/-- The trigger keeps the id of an event. -/
@[simp] theorem closeOnStatusChange_id (old new : Provider) (event : ProviderCircuitEvent) :
    (event.closeOnStatusChange old new).id = event.id := by
  unfold closeOnStatusChange
  split <;> rfl

/-- The trigger keeps the provider of an event. -/
@[simp] theorem closeOnStatusChange_providerId (old new : Provider)
    (event : ProviderCircuitEvent) :
    (event.closeOnStatusChange old new).providerId = event.providerId := by
  unfold closeOnStatusChange
  split <;> rfl

/-- The trigger does not fire for a row that keeps its status. -/
@[simp] theorem closeOnStatusChange_self (row : Provider) (event : ProviderCircuitEvent) :
    event.closeOnStatusChange row row = event := by
  simp [closeOnStatusChange, closesCircuit]

/-- The trigger leaves an event open only when it does not touch it. -/
theorem closeOnStatusChange_isOpen {old new : Provider} {event : ProviderCircuitEvent} :
    (event.closeOnStatusChange old new).isOpen = (event.isOpen && !closesCircuit old new) := by
  unfold closeOnStatusChange
  cases hc : closesCircuit old new <;> cases ho : event.isOpen <;> simp [ho]
  simp [isOpen]

end ProviderCircuitEvent

namespace Database

/-- What the trigger does to one event when the rows matching `p` are rewritten by `set`. -/
def afterStatusChange (db : Database) (p : Provider → Bool) (set : Provider → Provider)
    (event : ProviderCircuitEvent) : ProviderCircuitEvent :=
  match db.provider? event.providerId with
  | some old => if p old then event.closeOnStatusChange old (set old) else event
  | none => event

/-- An event keeps its id when a status changes. -/
@[simp] theorem afterStatusChange_id (db : Database) (p : Provider → Bool)
    (set : Provider → Provider) (event : ProviderCircuitEvent) :
    (db.afterStatusChange p set event).id = event.id := by
  unfold afterStatusChange
  split
  · split <;> simp
  · rfl

/-- An event keeps its provider when a status changes. -/
@[simp] theorem afterStatusChange_providerId (db : Database) (p : Provider → Bool)
    (set : Provider → Provider) (event : ProviderCircuitEvent) :
    (db.afterStatusChange p set event).providerId = event.providerId := by
  unfold afterStatusChange
  split
  · split <;> simp
  · rfl

/-- A status change of a provider opens no circuit event. -/
theorem isOpen_of_afterStatusChange {db : Database} {p : Provider → Bool}
    {set : Provider → Provider} {event : ProviderCircuitEvent}
    (h : (db.afterStatusChange p set event).isOpen = true) : event.isOpen = true := by
  unfold afterStatusChange at h
  split at h
  · split at h
    · rw [ProviderCircuitEvent.closeOnStatusChange_isOpen, Bool.and_eq_true] at h
      exact h.1
    · exact h
  · exact h

/-- `UPDATE providers SET set WHERE p`, with the trigger on `status`. A statement that does
not assign `status` leaves it unchanged, and then the trigger does not fire. -/
def updateProviders (db : Database) (p : Provider → Bool) (set : Provider → Provider)
    (hset : ∀ row, (set row).id = row.id) : Database :=
  { db with
    providers := db.providers.updateWhere p set hset
    providerCircuitEvents :=
      db.providerCircuitEvents.map (db.afterStatusChange p set) (db.afterStatusChange_id p set)
    grantsReference := fun grant h => by
      simpa using db.grantsReference grant h
    affinitiesReference := fun row h => by
      simpa using db.affinitiesReference row h
    eventsReference := fun event h => by
      obtain ⟨event, hmem, rfl⟩ := Table.mem_map.mp h
      simpa using db.eventsReference event hmem
    openUnique := fun event h other h' ho ho' heq => by
      obtain ⟨event, hmem, rfl⟩ := Table.mem_map.mp h
      obtain ⟨other, hmem', rfl⟩ := Table.mem_map.mp h'
      have hsame := db.openUnique event hmem other hmem' (isOpen_of_afterStatusChange ho)
        (isOpen_of_afterStatusChange ho') (by simpa using heq)
      rw [hsame] }

section UpdateProviders

variable (db : Database) (p : Provider → Bool) (set : Provider → Provider)
  (hset : ∀ row, (set row).id = row.id)

/-- The provider of an id after an update. -/
@[simp] theorem provider?_updateProviders (id : String) :
    (db.updateProviders p set hset).provider? id =
      (db.provider? id).map fun row => if p row then set row else row :=
  Table.find?_updateWhere db.providers p set hset id

@[simp] theorem providerGrants_updateProviders :
    (db.updateProviders p set hset).providerGrants = db.providerGrants := rfl

@[simp] theorem affinities_updateProviders :
    (db.updateProviders p set hset).affinities = db.affinities := rfl

@[simp] theorem users_updateProviders : (db.updateProviders p set hset).users = db.users := rfl

/-- An update keeps the ids of the providers. -/
@[simp] theorem keys_providers_updateProviders :
    (db.updateProviders p set hset).providers.keys = db.providers.keys :=
  Table.keys_updateWhere db.providers p set hset

/-- An update keeps the ids of the circuit events. -/
@[simp] theorem keys_events_updateProviders :
    (db.updateProviders p set hset).providerCircuitEvents.keys = db.providerCircuitEvents.keys :=
  Table.keys_map db.providerCircuitEvents _ (db.afterStatusChange_id p set)

/-- The events of a provider after an update: the trigger runs for its row alone. -/
theorem eventsOf_updateProviders (id : String) :
    (db.updateProviders p set hset).eventsOf id =
      (db.provider? id).elim (db.eventsOf id) fun old =>
        (db.eventsOf id).map
          (·.closeOnStatusChange old (if p old then set old else old)) := by
  have hmap : (db.updateProviders p set hset).eventsOf id =
      (db.eventsOf id).map (db.afterStatusChange p set) := by
    simp only [eventsOf, updateProviders, Table.rows_map, List.filter_map]
    congr 2
    funext event
    simp
  have hevent : ∀ event ∈ db.eventsOf id, db.provider? event.providerId = db.provider? id := by
    intro event hmem
    rw [show event.providerId = id by simpa using (List.mem_filter.mp hmem).2]
  rw [hmap]
  cases hrow : db.provider? id with
  | none =>
    refine (List.map_congr_left fun event hmem => ?_).trans (List.map_id _)
    simp [afterStatusChange, hevent event hmem, hrow]
  | some old =>
    refine List.map_congr_left fun event hmem => ?_
    cases hp : p old <;> simp [afterStatusChange, hevent event hmem, hrow, hp]

variable {db p set hset} in
/-- An update that matches no row changes nothing. -/
theorem updateProviders_of_forall (h : ∀ row ∈ db.providers, p row = false) :
    db.updateProviders p set hset = db := by
  have hproviders : db.providers.updateWhere p set hset = db.providers :=
    Table.updateWhere_of_forall h
  have hevents : db.providerCircuitEvents.map (db.afterStatusChange p set)
      (db.afterStatusChange_id p set) = db.providerCircuitEvents := by
    apply Table.map_eq_self
    intro event _
    unfold afterStatusChange
    split
    · next old hold => rw [if_neg (by simp [h old (Table.mem_of_find? hold)])]
    · rfl
  unfold updateProviders
  cases db
  congr

end UpdateProviders

/-- `INSERT INTO providers`. -/
def insertProvider (db : Database) (row : Provider) : Except SqliteError Database :=
  match h : db.providers.insert? row with
  | none => .error .uniqueConstraint
  | some providers => .ok
      { db with
        providers := providers
        grantsReference := fun grant hg => by
          rw [Table.keys_of_insert? h]
          exact List.mem_append_left _ (db.grantsReference grant hg)
        eventsReference := fun event he => by
          rw [Table.keys_of_insert? h]
          exact List.mem_append_left _ (db.eventsReference event he)
        affinitiesReference := fun aff ha => by
          rw [Table.keys_of_insert? h]
          exact List.mem_append_left _ (db.affinitiesReference aff ha) }

/-- `DELETE FROM providers WHERE id=?`; grants, circuit events and affinities cascade. -/
def deleteProvider (db : Database) (id : String) : Database :=
  have hkeys : ∀ {k : String}, k ∈ db.providers.keys → k ≠ id →
      k ∈ (db.providers.filter fun row => row.id ≠ id).keys := by
    intro k hk hne
    obtain ⟨row, hrow, rfl⟩ := Table.mem_keys.mp hk
    exact Table.key_mem_keys (Table.mem_filter.mpr ⟨hrow, by simpa using hne⟩)
  { db with
    providers := db.providers.filter fun row => row.id ≠ id
    providerGrants := db.providerGrants.filter fun grant => grant.providerId ≠ id
    providerCircuitEvents := db.providerCircuitEvents.filter fun event => event.providerId ≠ id
    affinities := db.affinities.filter fun row => row.providerId ≠ id
    grantsReference := fun grant h => by
      obtain ⟨hmem, hne⟩ := Table.mem_filter.mp h
      exact hkeys (db.grantsReference grant hmem) (by simpa using hne)
    eventsReference := fun event h => by
      obtain ⟨hmem, hne⟩ := Table.mem_filter.mp h
      exact hkeys (db.eventsReference event hmem) (by simpa using hne)
    affinitiesReference := fun row h => by
      obtain ⟨hmem, hne⟩ := Table.mem_filter.mp h
      exact hkeys (db.affinitiesReference row hmem) (by simpa using hne)
    openUnique := fun event h other h' =>
      db.openUnique event (Table.mem_filter.mp h).1 other (Table.mem_filter.mp h').1 }

section InsertDelete

variable {db db' : Database}

/-- A provider is found under its id after it was created. -/
theorem provider?_of_insertProvider {row : Provider} (h : db.insertProvider row = .ok db')
    (id : String) : db'.provider? id = if id = row.id then some row else db.provider? id := by
  unfold insertProvider at h
  split at h
  · cases h
  · next hins =>
    cases h
    exact Table.find?_of_insert? hins id

/-- A new provider has an id of its own. -/
theorem provider?_eq_none_of_insertProvider {row : Provider}
    (h : db.insertProvider row = .ok db') : db.provider? row.id = none := by
  unfold insertProvider at h
  split at h
  · cases h
  · next hins => exact Table.find?_eq_none_iff.mpr (Table.key_not_mem_of_insert? hins)

/-- Inserting a provider leaves every other table alone. -/
theorem frame_of_insertProvider {row : Provider} (h : db.insertProvider row = .ok db') :
    db'.providerGrants = db.providerGrants ∧
      db'.providerCircuitEvents = db.providerCircuitEvents ∧
      db'.affinities = db.affinities ∧ db'.users = db.users := by
  unfold insertProvider at h
  split at h
  · cases h
  · cases h
    exact ⟨rfl, rfl, rfl, rfl⟩

/-- A deleted provider is not found, and every other one is. -/
@[simp] theorem provider?_deleteProvider (id other : String) :
    (db.deleteProvider id).provider? other = if other = id then none else db.provider? other := by
  rw [provider?, deleteProvider, Table.find?_filter]
  split
  · next h =>
    subst h
    cases hrow : db.providers.find? other with
    | none => rfl
    | some row => simp [Table.key_of_find? hrow]
  · next h =>
    cases hrow : db.providers.find? other with
    | none => simp [provider?, hrow]
    | some row => simp [provider?, hrow, Table.key_of_find? hrow, h]

/-- The circuit events of a deleted provider are gone, and those of the others stay. -/
@[simp] theorem eventsOf_deleteProvider (id other : String) :
    (db.deleteProvider id).eventsOf other = if other = id then [] else db.eventsOf other := by
  simp only [eventsOf, deleteProvider, Table.filter, List.filter_filter]
  split
  · next h =>
    subst h
    refine List.filter_eq_nil_iff.mpr fun event _ => ?_
    simp
  · next h =>
    refine List.filter_congr fun event _ => ?_
    by_cases hid : event.providerId = other <;> simp [hid, h]

end InsertDelete

/-- `INSERT INTO provider_grants ... SELECT FROM users ... ON CONFLICT DO NOTHING`, with the
number of rows it inserts. -/
def insertGrant (db : Database) (grant : ProviderGrant) : Except SqliteError (Database × ℕ) :=
  if grant.userId ∈ db.users then
    match hins : db.providerGrants.insert? grant with
    | none => .ok (db, 0)
    | some grants =>
      if href : grant.providerId ∈ db.providers.keys then .ok
        ({ db with
            providerGrants := grants
            grantsReference := fun g hg => by
              obtain hg | rfl := (Table.mem_of_insert? hins).mp hg
              · exact db.grantsReference g hg
              · exact href }, 1)
      else .error .foreignKeyConstraint
  else .ok (db, 0)

/-- Inserting a grant leaves every other table alone. -/
theorem frame_of_insertGrant {db db' : Database} {grant : ProviderGrant} {n : ℕ}
    (h : db.insertGrant grant = .ok (db', n)) :
    db'.providers = db.providers ∧ db'.providerCircuitEvents = db.providerCircuitEvents ∧
      db'.affinities = db.affinities ∧ db'.users = db.users := by
  unfold insertGrant at h
  split at h
  · split at h
    · cases h
      exact ⟨rfl, rfl, rfl, rfl⟩
    · split at h
      · cases h
        exact ⟨rfl, rfl, rfl, rfl⟩
      · cases h
  · cases h
    exact ⟨rfl, rfl, rfl, rfl⟩

/-- The grants after an insertion. -/
theorem keys_of_insertGrant {db db' : Database} {grant : ProviderGrant} {n : ℕ}
    (h : db.insertGrant grant = .ok (db', n)) :
    db'.providerGrants.keys = db.providerGrants.keys ∨
      db'.providerGrants.keys = db.providerGrants.keys ++ [grant.key] := by
  unfold insertGrant at h
  split at h
  · split at h
    · cases h
      exact .inl rfl
    · next hins =>
      split at h
      · cases h
        exact .inr (Table.keys_of_insert? hins)
      · cases h
  · cases h
    exact .inl rfl

/-- `DELETE FROM provider_grants WHERE provider_id=? AND user_id=?`. -/
def deleteGrant (db : Database) (providerId userId : String) : Database :=
  { db with
    providerGrants := db.providerGrants.filter fun grant => grant.key ≠ (providerId, userId)
    grantsReference := fun grant h => db.grantsReference grant (Table.mem_filter.mp h).1 }

/-- A provider row that satisfies a test exists. -/
theorem mem_keys_of_any {db : Database} {id : String} {p : Provider → Bool}
    (h : (db.provider? id).any p = true) : id ∈ db.providers.keys := by
  cases hrow : db.provider? id with
  | none => simp [hrow] at h
  | some row => exact Table.find?_isSome_iff.mp (by rw [← provider?, hrow]; rfl)

/-- The `DO UPDATE` part of the circuit upsert on the open event of the provider. -/
def mergeCircuit (id : String) (circuit : CircuitOpen) (event : ProviderCircuitEvent) :
    ProviderCircuitEvent :=
  if event.providerId = id && event.isOpen then
    { event with
      cause := circuit.cause
      rateLimitJson := circuit.rateLimitJson
      cooldownUntil := max event.cooldownUntil circuit.cooldownUntil }
  else event

/-- Merging a circuit keeps the id of the event. -/
@[simp] theorem mergeCircuit_id (id : String) (circuit : CircuitOpen)
    (event : ProviderCircuitEvent) : (mergeCircuit id circuit event).id = event.id := by
  unfold mergeCircuit
  split <;> rfl

/-- Merging a circuit keeps the provider of the event. -/
@[simp] theorem mergeCircuit_providerId (id : String) (circuit : CircuitOpen)
    (event : ProviderCircuitEvent) :
    (mergeCircuit id circuit event).providerId = event.providerId := by
  unfold mergeCircuit
  split <;> rfl

/-- Merging a circuit neither opens nor closes the event. -/
@[simp] theorem mergeCircuit_isOpen (id : String) (circuit : CircuitOpen)
    (event : ProviderCircuitEvent) : (mergeCircuit id circuit event).isOpen = event.isOpen := by
  unfold mergeCircuit
  split <;> rfl

/-- The event that the circuit upsert inserts. -/
def openEvent (id : String) (circuit : CircuitOpen) : ProviderCircuitEvent where
  id := circuit.id
  providerId := id
  cause := circuit.cause
  rateLimitJson := circuit.rateLimitJson
  openedAt := circuit.openedAt
  cooldownUntil := circuit.cooldownUntil
  closedAt := none
  resolution := none

/-- `INSERT INTO provider_circuit_events ... SELECT ... WHERE EXISTS(enabled provider) ON
CONFLICT(provider_id) WHERE closed_at IS NULL DO UPDATE ...`. The conflict target is checked
before the primary key; a primary key that is taken aborts the statement. -/
def insertCircuit (db : Database) (id : String) (circuit : CircuitOpen) :
    Except SqliteError Database :=
  if henabled : (db.provider? id).any (fun row => !row.manualDisabled) then
    if hopen : db.openEventsOf id = [] then
      match hins : db.providerCircuitEvents.insert? (openEvent id circuit) with
      | none => .error .uniqueConstraint
      | some events => .ok
          { db with
            providerCircuitEvents := events
            eventsReference := fun event he => by
              obtain he | rfl := (Table.mem_of_insert? hins).mp he
              · exact db.eventsReference event he
              · exact mem_keys_of_any henabled
            openUnique := fun event he other ho heopen hoopen heq => by
              have hno : ∀ e ∈ db.providerCircuitEvents, e.isOpen → e.providerId ≠ id := by
                intro e hmem hop hid
                have hin : e ∈ db.openEventsOf id := by
                  simpa [openEventsOf, eventsOf, hid, hop] using hmem
                simp [hopen] at hin
              obtain he | rfl := (Table.mem_of_insert? hins).mp he <;>
                obtain ho | rfl := (Table.mem_of_insert? hins).mp ho
              · exact db.openUnique event he other ho heopen hoopen heq
              · exact absurd heq (hno event he heopen)
              · exact absurd heq.symm (hno other ho hoopen)
              · rfl }
    else .ok
      { db with
        providerCircuitEvents :=
          db.providerCircuitEvents.map (mergeCircuit id circuit) (mergeCircuit_id id circuit)
        eventsReference := fun event he => by
          obtain ⟨event, hmem, rfl⟩ := Table.mem_map.mp he
          simpa using db.eventsReference event hmem
        openUnique := fun event he other ho heopen hoopen heq => by
          obtain ⟨event, hmem, rfl⟩ := Table.mem_map.mp he
          obtain ⟨other, hmem', rfl⟩ := Table.mem_map.mp ho
          rw [db.openUnique event hmem other hmem' (by simpa using heopen) (by simpa using hoopen)
            (by simpa using heq)] }
  else .ok db

/-- What the circuit upsert does to the circuit events of its provider, whose row is `row`. -/
def upsertCircuit (id : String) (circuit : CircuitOpen) (row : Option Provider)
    (events : List ProviderCircuitEvent) : List ProviderCircuitEvent :=
  if row.any (fun row => !row.manualDisabled) then
    if events.filter ProviderCircuitEvent.isOpen = [] then events ++ [openEvent id circuit]
    else events.map (mergeCircuit id circuit)
  else events

section InsertCircuit

variable {db db' : Database} {id : String} {circuit : CircuitOpen}

/-- The circuit upsert leaves every other table alone. -/
theorem frame_of_insertCircuit (h : db.insertCircuit id circuit = .ok db') :
    db'.providers = db.providers ∧ db'.providerGrants = db.providerGrants ∧
      db'.affinities = db.affinities ∧ db'.users = db.users := by
  unfold insertCircuit at h
  split at h
  · split at h
    · split at h
      · cases h
      · cases h
        exact ⟨rfl, rfl, rfl, rfl⟩
    · cases h
      exact ⟨rfl, rfl, rfl, rfl⟩
  · cases h
    exact ⟨rfl, rfl, rfl, rfl⟩

/-- A new circuit event leaves the providers alone. -/
theorem provider?_of_insertCircuit (h : db.insertCircuit id circuit = .ok db') (other : String) :
    db'.provider? other = db.provider? other := by
  rw [provider?, (frame_of_insertCircuit h).1, provider?]

/-- The circuit upsert changes the events of its provider alone. -/
theorem eventsOf_of_insertCircuit (h : db.insertCircuit id circuit = .ok db') (other : String) :
    db'.eventsOf other =
      if other = id then upsertCircuit id circuit (db.provider? id) (db.eventsOf id)
      else db.eventsOf other := by
  have hother : ∀ event : ProviderCircuitEvent, event.providerId = other → other ≠ id →
      mergeCircuit id circuit event = event := by
    intro event hid hne
    simp [mergeCircuit, hid, hne]
  unfold insertCircuit at h
  split at h
  · next henabled =>
    split at h
    · next hopen =>
      split at h
      · cases h
      · next hins =>
        cases h
        unfold openEventsOf eventsOf at hopen
        simp only [eventsOf, Table.rows_of_insert? hins, List.filter_append]
        split
        · next heq =>
          subst heq
          rw [upsertCircuit, if_pos henabled, if_pos hopen]
          simp [openEvent]
        · next hne => simp [openEvent, Ne.symm hne]
    · next hopen =>
      cases h
      unfold openEventsOf eventsOf at hopen
      simp only [eventsOf, Table.rows_map, List.filter_map]
      split
      · next heq =>
        subst heq
        rw [upsertCircuit, if_pos henabled, if_neg hopen]
        congr 2
        funext event
        simp
      · next hne =>
        refine (List.map_congr_left fun event hmem => ?_).trans
          ((List.map_id _).trans (List.filter_congr fun event _ => by simp))
        exact hother event (by simpa using (List.mem_filter.mp hmem).2) hne
  · next henabled =>
    cases h
    split
    · next heq =>
      subst heq
      rw [upsertCircuit, if_neg henabled]
    · rfl

/-- The ids of the circuit events after the upsert. -/
theorem keys_of_insertCircuit (h : db.insertCircuit id circuit = .ok db') :
    db'.providerCircuitEvents.keys = db.providerCircuitEvents.keys ∨
      db'.providerCircuitEvents.keys = db.providerCircuitEvents.keys ++ [circuit.id] := by
  unfold insertCircuit at h
  split at h
  · split at h
    · split at h
      · cases h
      · next hins =>
        cases h
        exact .inr (Table.keys_of_insert? hins)
    · cases h
      exact .inl (Table.keys_map db.providerCircuitEvents _ (mergeCircuit_id id circuit))
  · cases h
    exact .inl rfl

/-- **When the circuit upsert aborts**: the provider is enabled, has no open event, and the id
of the new event is taken. -/
theorem insertCircuit_error_iff {error : SqliteError} :
    db.insertCircuit id circuit = .error error ↔
      error = .uniqueConstraint ∧ (db.provider? id).any (fun row => !row.manualDisabled) = true ∧
        db.openEventsOf id = [] ∧ circuit.id ∈ db.providerCircuitEvents.keys := by
  unfold insertCircuit
  split
  · next henabled =>
    split
    · next hopen =>
      split
      · next hins =>
        have hkey : circuit.id ∈ db.providerCircuitEvents.keys := Table.insert?_eq_none_iff.mp hins
        simp [henabled, hopen, hkey, eq_comm]
      · next hins =>
        have hkey : circuit.id ∉ db.providerCircuitEvents.keys :=
          Table.key_not_mem_of_insert? hins
        simp [hkey]
    · next hopen => simp [hopen]
  · next henabled => simp [henabled]

end InsertCircuit

/-- `INSERT INTO affinities ... SELECT FROM providers WHERE id=? ON CONFLICT(affinity_hash) DO
UPDATE ...`, and whether a row was written. -/
def upsertAffinity (db : Database) (row : AffinityRow) : Database × Bool :=
  if href : row.providerId ∈ db.providers.keys then
    ({ db with
        affinities := db.affinities.upsert row
        affinitiesReference := fun r hr => by
          obtain hr | rfl := Table.mem_of_mem_upsert hr
          · exact db.affinitiesReference r hr
          · exact href }, true)
  else (db, false)

/-- An upsert of an affinity leaves the providers, their circuit events and the grants alone. -/
theorem frame_upsertAffinity (db : Database) (row : AffinityRow) :
    (db.upsertAffinity row).1.providers = db.providers ∧
      (db.upsertAffinity row).1.providerCircuitEvents = db.providerCircuitEvents ∧
      (db.upsertAffinity row).1.providerGrants = db.providerGrants := by
  unfold upsertAffinity
  split <;> exact ⟨rfl, rfl, rfl⟩

/-- `DELETE FROM affinities WHERE expires_at<=?`. -/
def deleteExpiredAffinities (db : Database) (now : Int) : Database :=
  { db with
    affinities := db.affinities.filter fun row => now < row.expiresAt
    affinitiesReference := fun row h => db.affinitiesReference row (Table.mem_filter.mp h).1 }

end Database

end OpenAiLb
