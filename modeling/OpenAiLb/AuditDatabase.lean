import OpenAiLb.Database

/-!
# The audit tables

Consumers, the calls that they made and the optional diagnostics of a call, with the
statements that write them. The foreign keys are fields of the database: a call names an
existing consumer and an existing user, and its provider column is emptied when the
provider is deleted. `persist` writes one batch of the audit queue in one transaction.
-/

namespace OpenAiLb

/-- A row of `consumers`. -/
structure Consumer where
  id : String
  userId : String
  name : String
  /-- The column `prefix`. -/
  keyPrefix : String
  secretHash : String
  requestArchive : Bool
  createdAt : Int
  lastUsedAt : Option Int
  revokedAt : Option Int
  deriving DecidableEq

/-- `AuditEvent`: what is known about one API call once it is over. -/
structure AuditEvent where
  id : String
  requestId : String
  threadId : Option String
  consumerId : String
  userId : String
  requestArchive : Bool
  providerId : Option String
  affinityHash : Option String
  affinitySource : Option String
  method : String
  path : String
  model : Option String
  reasoningEffort : Option String
  status : Int
  upstreamHttpVersion : Option String
  firstByteLatencyMs : Option Int
  requestBytes : Int
  responseBytes : Int
  requestTransportBytes : Int
  responseTransportBytes : Int
  downstreamAcceptEncoding : Option String
  downstreamContentEncoding : Option String
  upstreamAcceptEncoding : Option String
  upstreamContentEncoding : Option String
  latencyMs : Int
  inputTokens : Int
  outputTokens : Int
  cachedTokens : Int
  costUsdNanos : Option Int
  error : Option String
  clientIp : String
  createdAt : Int
  requestHeadersJson : String
  requestBody : List UInt8
  requestBodyTruncated : Bool
  upstreamRequestHeadersJson : Option String
  responseHeadersJson : Option String
  responseBody : Option (List UInt8)
  responseBodyTruncated : Bool
  deriving DecidableEq

/-- A row of `api_calls`. -/
structure ApiCall where
  id : String
  requestId : String
  threadId : Option String
  consumerId : String
  userId : String
  providerId : Option String
  affinityHash : Option String
  affinitySource : Option String
  method : String
  path : String
  model : Option String
  reasoningEffort : Option String
  status : Int
  firstByteLatencyMs : Option Int
  requestBytes : Int
  responseBytes : Int
  requestTransportBytes : Int
  responseTransportBytes : Int
  downstreamAcceptEncoding : Option String
  downstreamContentEncoding : Option String
  upstreamAcceptEncoding : Option String
  upstreamContentEncoding : Option String
  latencyMs : Int
  inputTokens : Int
  outputTokens : Int
  cachedTokens : Int
  costUsdNanos : Option Int
  error : Option String
  clientIp : Option String
  createdAt : Int
  upstreamHttpVersion : Option String
  deriving DecidableEq

namespace ApiCall

/-- `ON DELETE SET NULL`. -/
def forgetProvider (call : ApiCall) : ApiCall := { call with providerId := none }

/-- The columns that a `ResponseTransport` message writes. -/
def setTransport (bytes : Int) (encoding : Option String) (call : ApiCall) : ApiCall :=
  { call with responseTransportBytes := bytes, downstreamContentEncoding := encoding }

@[simp] theorem forgetProvider_id (call : ApiCall) : call.forgetProvider.id = call.id := rfl

@[simp] theorem setTransport_id (bytes : Int) (encoding : Option String) (call : ApiCall) :
    (call.setTransport bytes encoding).id = call.id := rfl

end ApiCall

/-- A row of `request_archives`. -/
structure RequestArchive where
  apiCallId : String
  requestHeadersJson : String
  upstreamRequestHeadersJson : Option String
  requestBody : List UInt8
  requestBodyTruncated : Bool
  responseHeadersJson : Option String
  downstreamResponseHeadersJson : Option String
  responseBody : Option (List UInt8)
  responseBodyTruncated : Bool
  createdAt : Int
  deriving DecidableEq

/-- A message of the audit queue. -/
inductive QueuedAudit where
  | event (call : AuditEvent)
  | responseTransport (id : String) (bytes : Int) (encoding : Option String)
    (downstreamResponseHeadersJson : Option String)
  deriving DecidableEq

/-- The event that a message carries. -/
def QueuedAudit.event? : QueuedAudit → Option AuditEvent
  | event call => some call
  | responseTransport .. => none

/-- The tables that the audit writer touches, with their constraints. -/
structure AuditDatabase where
  /-- The ids of the `users` table. -/
  users : List String
  /-- The ids of the `providers` table. -/
  providers : List String
  consumers : Table Consumer.id
  apiCalls : Table ApiCall.id
  requestArchives : Table RequestArchive.apiCallId
  /-- `consumers.secret_hash` is unique. -/
  secretsUnique : (consumers.rows.map Consumer.secretHash).Nodup
  /-- `consumers.user_id REFERENCES users(id)`. -/
  consumersReference : ∀ consumer ∈ consumers, consumer.userId ∈ users
  /-- `api_calls.consumer_id REFERENCES consumers(id)`. -/
  callsConsumer : ∀ call ∈ apiCalls, call.consumerId ∈ consumers.keys
  /-- `api_calls.user_id REFERENCES users(id)`. -/
  callsUser : ∀ call ∈ apiCalls, call.userId ∈ users
  /-- `api_calls.provider_id REFERENCES providers(id)`. -/
  callsProvider : ∀ call ∈ apiCalls, ∀ id, call.providerId = some id → id ∈ providers
  /-- `request_archives.api_call_id REFERENCES api_calls(id)`. -/
  archivesReference : ∀ archive ∈ requestArchives, archive.apiCallId ∈ apiCalls.keys

namespace AuditDatabase

/-- The database after the migrations. -/
def empty : AuditDatabase where
  users := []
  providers := []
  consumers := Table.empty
  apiCalls := Table.empty
  requestArchives := Table.empty
  secretsUnique := List.nodup_nil
  consumersReference := fun _ h => absurd h (Table.not_mem_empty _)
  callsConsumer := fun _ h => absurd h (Table.not_mem_empty _)
  callsUser := fun _ h => absurd h (Table.not_mem_empty _)
  callsProvider := fun _ h => absurd h (Table.not_mem_empty _)
  archivesReference := fun _ h => absurd h (Table.not_mem_empty _)

/-- `upsert_user`. -/
def insertUser (db : AuditDatabase) (id : String) : AuditDatabase :=
  { db with
    users := db.users.insert id
    consumersReference := fun consumer h =>
      List.mem_insert_of_mem (db.consumersReference consumer h)
    callsUser := fun call h => List.mem_insert_of_mem (db.callsUser call h) }

/-- The row inserted by `insert_provider`. -/
def insertProvider (db : AuditDatabase) (id : String) : AuditDatabase :=
  { db with
    providers := db.providers.insert id
    callsProvider := fun call h id hid => List.mem_insert_of_mem (db.callsProvider call h id hid) }

/-- The `INSERT` of `create_consumer`. -/
def insertConsumer (db : AuditDatabase) (row : Consumer) : Except SqliteError AuditDatabase :=
  match h : db.consumers.insert? row with
  | none => .error .uniqueConstraint
  | some consumers =>
    if hsecret : row.secretHash ∈ db.consumers.rows.map Consumer.secretHash then
      .error .uniqueConstraint
    else if huser : row.userId ∈ db.users then .ok
      { db with
        consumers := consumers
        secretsUnique := by
          rw [Table.rows_of_insert? h, List.map_append, List.nodup_append]
          refine ⟨db.secretsUnique, List.nodup_singleton _, ?_⟩
          rintro secret hs secret' hs' rfl
          obtain rfl : secret = row.secretHash := by simpa using hs'
          exact hsecret hs
        consumersReference := fun consumer hc => by
          obtain hc | rfl := (Table.mem_of_insert? h).mp hc
          · exact db.consumersReference consumer hc
          · exact huser
        callsConsumer := fun call hc => by
          rw [Table.keys_of_insert? h]
          exact List.mem_append_left _ (db.callsConsumer call hc) }
    else .error .foreignKeyConstraint

/-- An `UPDATE consumers` that changes neither the keys nor the owner. -/
def updateConsumers (db : AuditDatabase) (p : Consumer → Bool) (set : Consumer → Consumer)
    (hid : ∀ row, (set row).id = row.id) (huser : ∀ row, (set row).userId = row.userId)
    (hsecret : ∀ row, (set row).secretHash = row.secretHash) : AuditDatabase :=
  { db with
    consumers := db.consumers.updateWhere p set hid
    secretsUnique := by
      have hsame : (db.consumers.updateWhere p set hid).rows.map Consumer.secretHash =
          db.consumers.rows.map Consumer.secretHash := by
        rw [Table.updateWhere, Table.rows_map, List.map_map]
        refine List.map_congr_left fun row _ => ?_
        simp only [Function.comp_apply]
        split
        · exact hsecret row
        · rfl
      rw [hsame]
      exact db.secretsUnique
    consumersReference := fun consumer h => by
      obtain ⟨row, hrow, rfl⟩ := Table.mem_map.mp h
      split
      · rw [huser]
        exact db.consumersReference row hrow
      · exact db.consumersReference row hrow
    callsConsumer := fun call h => by
      simpa using db.callsConsumer call h }

/-- An update of consumers keeps their ids. -/
theorem keys_updateConsumers (db : AuditDatabase) (p : Consumer → Bool)
    (set : Consumer → Consumer) (hid : ∀ row, (set row).id = row.id)
    (huser : ∀ row, (set row).userId = row.userId)
    (hsecret : ∀ row, (set row).secretHash = row.secretHash) :
    (db.updateConsumers p set hid huser hsecret).consumers.keys = db.consumers.keys :=
  Table.keys_updateWhere db.consumers p set hid

/-- `revoke_consumer`. -/
def revokeConsumer (db : AuditDatabase) (id userId : String) (now : Int) : AuditDatabase :=
  db.updateConsumers (fun row => row.id = id && row.userId = userId && row.revokedAt.isNone)
    (fun row => { row with revokedAt := some now }) (fun _ => rfl) (fun _ => rfl) fun _ => rfl

/-- `UPDATE consumers SET last_used_at=? WHERE id=?`. -/
def touchConsumer (db : AuditDatabase) (usedAt : Int) (id : String) : AuditDatabase :=
  db.updateConsumers (fun row => row.id = id) (fun row => { row with lastUsedAt := some usedAt })
    (fun _ => rfl) (fun _ => rfl) fun _ => rfl

/-- `delete_consumer`; its calls and their diagnostics cascade. -/
def deleteConsumer (db : AuditDatabase) (id userId : String) : AuditDatabase :=
  if (db.consumers.find? id).any (fun row => row.userId = userId) then
    { db with
      consumers := db.consumers.filter fun row => row.id ≠ id
      apiCalls := db.apiCalls.filter fun call => call.consumerId ≠ id
      requestArchives := db.requestArchives.filter fun archive =>
        archive.apiCallId ∈ (db.apiCalls.filter fun call => call.consumerId ≠ id).keys
      secretsUnique := db.secretsUnique.sublist (List.filter_sublist.map Consumer.secretHash)
      consumersReference := fun consumer h =>
        db.consumersReference consumer (Table.mem_filter.mp h).1
      callsConsumer := fun call h => by
        obtain ⟨hmem, hne⟩ := Table.mem_filter.mp h
        obtain ⟨row, hrow, hkey⟩ := Table.mem_keys.mp (db.callsConsumer call hmem)
        rw [← hkey]
        exact Table.key_mem_keys (Table.mem_filter.mpr ⟨hrow, by simpa [hkey] using hne⟩)
      callsUser := fun call h => db.callsUser call (Table.mem_filter.mp h).1
      callsProvider := fun call h => db.callsProvider call (Table.mem_filter.mp h).1
      archivesReference := fun archive h => by
        simpa using (Table.mem_filter.mp h).2 }
  else db

section DeleteConsumer

variable {db : AuditDatabase} {gone userId id : String}

/-- Deleting a consumer keeps the users. -/
theorem users_deleteConsumer (db : AuditDatabase) (gone userId : String) :
    (db.deleteConsumer gone userId).users = db.users := by
  unfold deleteConsumer
  split <;> rfl

/-- Only the consumer itself goes, and only when it belongs to the user. -/
theorem mem_consumers_deleteConsumer :
    id ∈ (db.deleteConsumer gone userId).consumers.keys ↔
      id ∈ db.consumers.keys ∧
        ((db.consumers.find? gone).any (fun row => row.userId = userId) = true → id ≠ gone) := by
  unfold deleteConsumer
  split
  · next hgone =>
    constructor
    · intro hmem
      obtain ⟨row, hrow, rfl⟩ := Table.mem_keys.mp hmem
      obtain ⟨hin, hne⟩ := Table.mem_filter.mp hrow
      exact ⟨Table.key_mem_keys hin, fun _ => by simpa using hne⟩
    · rintro ⟨hmem, hne⟩
      obtain ⟨row, hrow, rfl⟩ := Table.mem_keys.mp hmem
      exact Table.key_mem_keys (Table.mem_filter.mpr ⟨hrow, by simpa using hne hgone⟩)
  · next hkept => simp [hkept]

/-- Deleting a consumer adds no call. -/
theorem mem_calls_of_deleteConsumer (h : id ∈ (db.deleteConsumer gone userId).apiCalls.keys) :
    id ∈ db.apiCalls.keys := by
  unfold deleteConsumer at h
  split at h
  · obtain ⟨call, hcall, rfl⟩ := Table.mem_keys.mp h
    exact Table.key_mem_keys (Table.mem_filter.mp hcall).1
  · exact h

end DeleteConsumer

/-- `delete_provider`; `api_calls.provider_id` is set to null. -/
def deleteProvider (db : AuditDatabase) (id : String) : AuditDatabase :=
  { db with
    providers := db.providers.filter fun other => other ≠ id
    apiCalls := db.apiCalls.updateWhere (fun call => call.providerId = some id)
      ApiCall.forgetProvider ApiCall.forgetProvider_id
    callsConsumer := fun call h => by
      obtain ⟨old, hold, rfl⟩ := Table.mem_map.mp h
      split <;> exact db.callsConsumer old hold
    callsUser := fun call h => by
      obtain ⟨old, hold, rfl⟩ := Table.mem_map.mp h
      split <;> exact db.callsUser old hold
    callsProvider := fun call h other hother => by
      obtain ⟨old, hold, rfl⟩ := Table.mem_map.mp h
      split at hother
      · cases hother
      · next hne =>
        refine List.mem_filter.mpr ⟨db.callsProvider old hold other hother, ?_⟩
        simpa [hother] using hne
    archivesReference := fun archive h => by
      rw [Table.keys_updateWhere]
      exact db.archivesReference archive h }

/-- Deleting a provider keeps the calls. -/
theorem keys_deleteProvider (db : AuditDatabase) (id : String) :
    (db.deleteProvider id).apiCalls.keys = db.apiCalls.keys :=
  Table.keys_updateWhere db.apiCalls _ _ ApiCall.forgetProvider_id

/-- `delete_expired`. -/
def deleteExpired (db : AuditDatabase) (cutoff : Int) : AuditDatabase :=
  { db with
    requestArchives := db.requestArchives.filter fun archive => cutoff ≤ archive.createdAt
    archivesReference := fun archive h =>
      db.archivesReference archive (Table.mem_filter.mp h).1 }

/-- The row that `insert` writes. The provider id is the result of a subselect. -/
def callOf (event : AuditEvent) (providerId : Option String) : ApiCall where
  id := event.id
  requestId := event.requestId
  threadId := event.threadId
  consumerId := event.consumerId
  userId := event.userId
  providerId := providerId
  affinityHash := event.affinityHash
  affinitySource := event.affinitySource
  method := event.method
  path := event.path
  model := event.model
  reasoningEffort := event.reasoningEffort
  status := event.status
  firstByteLatencyMs := event.firstByteLatencyMs
  requestBytes := event.requestBytes
  responseBytes := event.responseBytes
  requestTransportBytes := event.requestTransportBytes
  responseTransportBytes := event.responseTransportBytes
  downstreamAcceptEncoding := event.downstreamAcceptEncoding
  downstreamContentEncoding := event.downstreamContentEncoding
  upstreamAcceptEncoding := event.upstreamAcceptEncoding
  upstreamContentEncoding := event.upstreamContentEncoding
  latencyMs := event.latencyMs
  inputTokens := event.inputTokens
  outputTokens := event.outputTokens
  cachedTokens := event.cachedTokens
  costUsdNanos := event.costUsdNanos
  error := event.error
  clientIp := some event.clientIp
  createdAt := event.createdAt
  upstreamHttpVersion := event.upstreamHttpVersion

/-- The diagnostics that `insert` writes. -/
def archiveOf (event : AuditEvent) : RequestArchive where
  apiCallId := event.id
  requestHeadersJson := event.requestHeadersJson
  upstreamRequestHeadersJson := event.upstreamRequestHeadersJson
  requestBody := event.requestBody
  requestBodyTruncated := event.requestBodyTruncated
  responseHeadersJson := event.responseHeadersJson
  downstreamResponseHeadersJson := none
  responseBody := event.responseBody
  responseBodyTruncated := event.responseBodyTruncated
  createdAt := event.createdAt

/-- `(SELECT id FROM providers WHERE id=?)`. -/
def existingProvider (db : AuditDatabase) (id : Option String) : Option String :=
  id.filter fun id => id ∈ db.providers

/-- `INSERT INTO api_calls`. The provider is guarded by a subselect, the consumer and the user
are not. -/
def insertCall (db : AuditDatabase) (event : AuditEvent) : Except SqliteError AuditDatabase :=
  match h : db.apiCalls.insert? (callOf event (db.existingProvider event.providerId)) with
  | none => .error .uniqueConstraint
  | some calls =>
    if href : event.consumerId ∈ db.consumers.keys ∧ event.userId ∈ db.users then .ok
      { db with
        apiCalls := calls
        callsConsumer := fun call hc => by
          obtain hc | rfl := (Table.mem_of_insert? h).mp hc
          · exact db.callsConsumer call hc
          · exact href.1
        callsUser := fun call hc => by
          obtain hc | rfl := (Table.mem_of_insert? h).mp hc
          · exact db.callsUser call hc
          · exact href.2
        callsProvider := fun call hc id hid => by
          obtain hc | rfl := (Table.mem_of_insert? h).mp hc
          · exact db.callsProvider call hc id hid
          · have hin := (Option.filter_eq_some_iff.mp hid).2
            simpa using hin
        archivesReference := fun archive ha => by
          rw [Table.keys_of_insert? h]
          exact List.mem_append_left _ (db.archivesReference archive ha) }
    else .error .foreignKeyConstraint

/-- `INSERT INTO request_archives`. -/
def insertArchive (db : AuditDatabase) (archive : RequestArchive) :
    Except SqliteError AuditDatabase :=
  match h : db.requestArchives.insert? archive with
  | none => .error .uniqueConstraint
  | some archives =>
    if href : archive.apiCallId ∈ db.apiCalls.keys then .ok
      { db with
        requestArchives := archives
        archivesReference := fun other ho => by
          obtain ho | rfl := (Table.mem_of_insert? h).mp ho
          · exact db.archivesReference other ho
          · exact href }
    else .error .foreignKeyConstraint

/-- `insert`. -/
def insert (db : AuditDatabase) (event : AuditEvent) : Except SqliteError AuditDatabase :=
  match db.insertCall event with
  | .ok db => if event.requestArchive then db.insertArchive (archiveOf event) else .ok db
  | .error error => .error error

/-- `UPDATE api_calls SET response_transport_bytes=?,downstream_content_encoding=? WHERE id=?`. -/
def setTransport (db : AuditDatabase) (id : String) (bytes : Int) (encoding : Option String) :
    AuditDatabase :=
  { db with
    apiCalls := db.apiCalls.updateWhere (fun call => call.id = id)
      (ApiCall.setTransport bytes encoding) (ApiCall.setTransport_id bytes encoding)
    callsConsumer := fun call h => by
      obtain ⟨old, hold, rfl⟩ := Table.mem_map.mp h
      split <;> exact db.callsConsumer old hold
    callsUser := fun call h => by
      obtain ⟨old, hold, rfl⟩ := Table.mem_map.mp h
      split <;> exact db.callsUser old hold
    callsProvider := fun call h => by
      obtain ⟨old, hold, rfl⟩ := Table.mem_map.mp h
      split <;> exact db.callsProvider old hold
    archivesReference := fun archive h => by
      rw [Table.keys_updateWhere]
      exact db.archivesReference archive h }

/-- `UPDATE request_archives SET downstream_response_headers_json=? WHERE api_call_id=?`. -/
def setDownstreamHeaders (db : AuditDatabase) (id headers : String) : AuditDatabase :=
  { db with
    requestArchives := db.requestArchives.updateWhere (fun archive => archive.apiCallId = id)
      (fun archive => { archive with downstreamResponseHeadersJson := some headers }) fun _ => rfl
    archivesReference := fun archive h => by
      obtain ⟨old, hold, rfl⟩ := Table.mem_map.mp h
      split <;> exact db.archivesReference old hold }

/-- One turn of the loop of `persist`. -/
def apply (db : AuditDatabase) : QueuedAudit → Except SqliteError AuditDatabase
  | .event call => db.insert call
  | .responseTransport id bytes encoding headers =>
    .ok (headers.elim (db.setTransport id bytes encoding)
      ((db.setTransport id bytes encoding).setDownstreamHeaders id))

/-- The loop of `persist`. -/
def applyBatch (db : AuditDatabase) : List QueuedAudit → Except SqliteError AuditDatabase
  | [] => .ok db
  | queued :: rest =>
    match db.apply queued with
    | .ok db => db.applyBatch rest
    | .error error => .error error

/-- The consumers of a batch, each once. -/
def touchedKeys (batch : List QueuedAudit) : List String :=
  ((batch.filterMap QueuedAudit.event?).map AuditEvent.consumerId).dedup

/-- `persist`, from `begin` to `commit`. An error rolls everything back. -/
def persist (db : AuditDatabase) (usedAt : Int) (batch : List QueuedAudit) :
    Except SqliteError AuditDatabase :=
  match db.applyBatch batch with
  | .ok db => .ok ((touchedKeys batch).foldl (fun db id => db.touchConsumer usedAt id) db)
  | .error error => .error error

section Insert

variable {db db' : AuditDatabase} {event : AuditEvent}

/-- A call row that was inserted names an existing consumer and an existing user. -/
theorem insertCall_eq_ok (h : db.insertCall event = .ok db') :
    (event.consumerId ∈ db.consumers.keys ∧ event.userId ∈ db.users) ∧
      db'.consumers = db.consumers ∧ db'.users = db.users ∧
      db'.requestArchives = db.requestArchives ∧
      db'.apiCalls.keys = db.apiCalls.keys ++ [event.id] := by
  unfold insertCall at h
  split at h
  · cases h
  · next hins =>
    split at h
    · next href =>
      cases h
      exact ⟨href, rfl, rfl, rfl, Table.keys_of_insert? hins⟩
    · cases h

/-- Inserting diagnostics changes nothing else. -/
theorem frame_of_insertArchive {archive : RequestArchive} (h : db.insertArchive archive = .ok db') :
    db'.consumers = db.consumers ∧ db'.users = db.users ∧ db'.apiCalls = db.apiCalls := by
  unfold insertArchive at h
  split at h
  · cases h
  · split at h
    · cases h
      exact ⟨rfl, rfl, rfl⟩
    · cases h

/-- **What `insert` needs and does**: the consumer and the user exist, and one call is added. -/
theorem insert_eq_ok (h : db.insert event = .ok db') :
    (event.consumerId ∈ db.consumers.keys ∧ event.userId ∈ db.users) ∧
      db'.consumers = db.consumers ∧ db'.users = db.users ∧
      db'.apiCalls.keys = db.apiCalls.keys ++ [event.id] := by
  unfold insert at h
  split at h
  · next mid hmid =>
    obtain ⟨href, hconsumers, husers, -, hcalls⟩ := insertCall_eq_ok hmid
    split at h
    · obtain ⟨harchive, huser, hcall⟩ := frame_of_insertArchive h
      refine ⟨href, harchive.trans hconsumers, huser.trans husers, ?_⟩
      rw [hcall, hcalls]
    · cases h
      exact ⟨href, hconsumers, husers, hcalls⟩
  · cases h

/-- **When `insert` succeeds**: the id is new, and the consumer and the user exist. The diagnostics
cannot be in the way, since they belong to an inserted call. -/
theorem insert_ok (hid : event.id ∉ db.apiCalls.keys)
    (hconsumer : event.consumerId ∈ db.consumers.keys) (huser : event.userId ∈ db.users) :
    ∃ db', db.insert event = .ok db' := by
  obtain ⟨mid, hmid⟩ : ∃ mid, db.insertCall event = .ok mid := by
    unfold insertCall
    split
    · next hins => exact absurd (Table.insert?_eq_none_iff.mp hins) hid
    · rw [dif_pos ⟨hconsumer, huser⟩]
      exact ⟨_, rfl⟩
  obtain ⟨-, -, -, harchives, hcalls⟩ := insertCall_eq_ok hmid
  unfold insert
  rw [hmid]
  dsimp only
  split
  · have hfree : event.id ∉ mid.requestArchives.keys := by
      rw [harchives]
      intro hmem
      obtain ⟨archive, harchive, hkey⟩ := Table.mem_keys.mp hmem
      exact hid (hkey ▸ db.archivesReference archive harchive)
    have hreference : event.id ∈ mid.apiCalls.keys := by
      rw [hcalls]
      simp
    unfold insertArchive
    split
    · next hins => exact absurd (Table.insert?_eq_none_iff.mp hins) hfree
    · rw [dif_pos (show (archiveOf event).apiCallId ∈ mid.apiCalls.keys from hreference)]
      exact ⟨_, rfl⟩
  · exact ⟨mid, rfl⟩

end Insert

/-- The events of a batch. -/
def eventsIn (batch : List QueuedAudit) : List AuditEvent := batch.filterMap QueuedAudit.event?

/-- An event is one of the events. -/
@[simp] theorem eventsIn_event (call : AuditEvent) (rest : List QueuedAudit) :
    eventsIn (.event call :: rest) = call :: eventsIn rest := rfl

/-- A transport message is none of them. -/
@[simp] theorem eventsIn_responseTransport (id : String) (bytes : Int)
    (encoding headers : Option String) (rest : List QueuedAudit) :
    eventsIn (.responseTransport id bytes encoding headers :: rest) = eventsIn rest := rfl

/-- The events of two queues, one after the other. -/
theorem eventsIn_append (first second : List QueuedAudit) :
    eventsIn (first ++ second) = eventsIn first ++ eventsIn second :=
  List.filterMap_append

/-- A transport message keeps the ids of the calls. -/
theorem keys_setTransport (db : AuditDatabase) (id : String) (bytes : Int)
    (encoding : Option String) : (db.setTransport id bytes encoding).apiCalls.keys =
      db.apiCalls.keys :=
  Table.keys_updateWhere db.apiCalls _ _ (ApiCall.setTransport_id bytes encoding)

section Batch

variable {db db' : AuditDatabase} {batch : List QueuedAudit}

/-- A transport message succeeds and changes no key. -/
theorem apply_responseTransport (db : AuditDatabase) (id : String) (bytes : Int)
    (encoding headers : Option String) :
    ∃ db', db.apply (.responseTransport id bytes encoding headers) = .ok db' ∧
      db'.consumers = db.consumers ∧ db'.users = db.users ∧
      db'.apiCalls.keys = db.apiCalls.keys := by
  refine ⟨_, rfl, ?_⟩
  cases headers <;> exact ⟨rfl, rfl, keys_setTransport ..⟩

/-- **What a batch needs and does**: the consumers and the users of its events exist, and one call
is added for each event. -/
theorem applyBatch_eq_ok (h : db.applyBatch batch = .ok db') :
    (∀ event ∈ eventsIn batch, event.consumerId ∈ db.consumers.keys ∧ event.userId ∈ db.users) ∧
      db'.consumers = db.consumers ∧ db'.users = db.users ∧
      db'.apiCalls.keys = db.apiCalls.keys ++ (eventsIn batch).map AuditEvent.id := by
  induction batch generalizing db with
  | nil =>
    cases h
    refine ⟨fun event hmem => absurd hmem List.not_mem_nil, rfl, rfl, ?_⟩
    simp [eventsIn]
  | cons queued rest ih =>
    simp only [applyBatch] at h
    split at h
    · next mid hmid =>
      obtain ⟨hrest, hconsumers, husers, hcalls⟩ := ih h
      cases queued with
      | event call =>
        obtain ⟨href, hmidConsumers, hmidUsers, hmidCalls⟩ := insert_eq_ok hmid
        rw [hmidConsumers, hmidUsers] at hrest
        refine ⟨?_, hconsumers.trans hmidConsumers, husers.trans hmidUsers, ?_⟩
        · rw [eventsIn_event]
          intro event hmem
          rcases List.mem_cons.mp hmem with rfl | hin
          · exact href
          · exact hrest event hin
        · rw [hcalls, hmidCalls, eventsIn_event, List.map_cons, List.append_assoc,
            List.singleton_append]
      | responseTransport id bytes encoding headers =>
        obtain ⟨other, hother, hmidConsumers, hmidUsers, hmidCalls⟩ :=
          apply_responseTransport db id bytes encoding headers
        obtain rfl : other = mid := by
          rw [hother] at hmid
          exact Except.ok.inj hmid
        rw [hmidConsumers, hmidUsers] at hrest
        refine ⟨hrest, hconsumers.trans hmidConsumers, husers.trans hmidUsers, ?_⟩
        rw [hcalls, hmidCalls, eventsIn_responseTransport]
    · cases h

/-- **When a batch succeeds**: its events have new and different ids, and their consumers and
users exist. -/
theorem applyBatch_ok (hids : ((eventsIn batch).map AuditEvent.id).Nodup)
    (hnew : ∀ event ∈ eventsIn batch, event.id ∉ db.apiCalls.keys)
    (hreferences : ∀ event ∈ eventsIn batch,
      event.consumerId ∈ db.consumers.keys ∧ event.userId ∈ db.users) :
    ∃ db', db.applyBatch batch = .ok db' := by
  induction batch generalizing db with
  | nil => exact ⟨db, rfl⟩
  | cons queued rest ih =>
    cases queued with
    | event call =>
      rw [eventsIn_event, List.map_cons, List.nodup_cons] at hids
      rw [eventsIn_event, List.forall_mem_cons] at hnew hreferences
      obtain ⟨mid, hmid⟩ := insert_ok hnew.1 hreferences.1.1 hreferences.1.2
      obtain ⟨-, hconsumers, husers, hcalls⟩ := insert_eq_ok hmid
      obtain ⟨db', hdb'⟩ : ∃ db', mid.applyBatch rest = .ok db' := by
        refine ih hids.2 (fun event hmem => ?_) (fun event hmem => ?_)
        · rw [hcalls, List.mem_append, List.mem_singleton]
          rintro (hold | hsame)
          · exact hnew.2 event hmem hold
          · exact hids.1 (hsame ▸ List.mem_map_of_mem hmem)
        · rw [hconsumers, husers]
          exact hreferences.2 event hmem
      refine ⟨db', ?_⟩
      simp only [applyBatch, apply, hmid, hdb']
    | responseTransport id bytes encoding headers =>
      obtain ⟨mid, hmid, hconsumers, husers, hcalls⟩ :=
        apply_responseTransport db id bytes encoding headers
      obtain ⟨db', hdb'⟩ : ∃ db', mid.applyBatch rest = .ok db' := by
        refine ih hids (fun event hmem => ?_) (fun event hmem => ?_)
        · rw [hcalls]
          exact hnew event hmem
        · rw [hconsumers, husers]
          exact hreferences event hmem
      refine ⟨db', ?_⟩
      simp only [applyBatch, hmid, hdb']

/-- Touching consumers keeps every key. -/
theorem frame_touchConsumers (db : AuditDatabase) (usedAt : Int) (ids : List String) :
    let touched := ids.foldl (fun db id => db.touchConsumer usedAt id) db
    touched.consumers.keys = db.consumers.keys ∧ touched.users = db.users ∧
      touched.apiCalls = db.apiCalls := by
  induction ids generalizing db with
  | nil => exact ⟨rfl, rfl, rfl⟩
  | cons id rest ih =>
    obtain ⟨hconsumers, husers, hcalls⟩ := ih (db.touchConsumer usedAt id)
    exact ⟨hconsumers.trans (keys_updateConsumers db ..), husers, hcalls⟩

/-- What a persisted batch needs and does. -/
theorem persist_eq_ok {usedAt : Int} (h : db.persist usedAt batch = .ok db') :
    (∀ event ∈ eventsIn batch, event.consumerId ∈ db.consumers.keys) ∧
      db'.consumers.keys = db.consumers.keys ∧ db'.users = db.users ∧
      db'.apiCalls.keys = db.apiCalls.keys ++ (eventsIn batch).map AuditEvent.id := by
  unfold persist at h
  split at h
  · next mid hmid =>
    cases h
    obtain ⟨hreferences, hconsumers, husers, hcalls⟩ := applyBatch_eq_ok hmid
    obtain ⟨htouched, htouchedUsers, htouchedCalls⟩ :=
      frame_touchConsumers mid usedAt (touchedKeys batch)
    refine ⟨fun event hmem => (hreferences event hmem).1, ?_, htouchedUsers.trans husers, ?_⟩
    · rw [htouched, hconsumers]
    · rw [htouchedCalls, hcalls]
  · cases h

/-- When a batch can be persisted. -/
theorem persist_ok (usedAt : Int) (hids : ((eventsIn batch).map AuditEvent.id).Nodup)
    (hnew : ∀ event ∈ eventsIn batch, event.id ∉ db.apiCalls.keys)
    (hreferences : ∀ event ∈ eventsIn batch,
      event.consumerId ∈ db.consumers.keys ∧ event.userId ∈ db.users) :
    ∃ db', db.persist usedAt batch = .ok db' := by
  obtain ⟨mid, hmid⟩ := applyBatch_ok hids hnew hreferences
  unfold persist
  rw [hmid]
  exact ⟨_, rfl⟩

end Batch

end AuditDatabase

end OpenAiLb
