import OpenAiLb.AuditDatabase
import OpenAiLb.Library.Transition

/-!
# The audit queue and its writer

A call is authenticated, reserves a place in the queue, and sends its event when it is
over. One writer takes messages from the queue into a batch and writes the batch in one
transaction, again and again until the transaction commits. Handlers create and delete
users, consumers and providers at any moment.
-/

namespace OpenAiLb

/-- `ApiIdentity`, as far as the audit reads it. -/
structure ApiIdentity where
  consumerId : String
  userId : String
  requestArchive : Bool
  deriving DecidableEq

/-- `api_identity`, on the hash of the secret. The join with `users` always finds the owner. -/
def AuditDatabase.apiIdentity (db : AuditDatabase) (secretHash : String) : Option ApiIdentity :=
  (db.consumers.rows.find? fun row => row.secretHash = secretHash && row.revokedAt.isNone).map
    fun row => ⟨row.id, row.userId, row.requestArchive⟩

/-- The arguments of `AuditTracker::begin`, with the id from `Uuid::new_v4`. -/
structure CallStart where
  eventId : String
  auditId : String
  threadId : Option String
  method : String
  path : String
  clientIp : String
  now : Int
  deriving DecidableEq

namespace AuditEvent

/-- The event that `AuditTracker::begin` builds. -/
def begin (call : CallStart) (identity : ApiIdentity) (archived : Bool) : AuditEvent where
  id := call.eventId
  requestId := call.auditId
  threadId := call.threadId
  consumerId := identity.consumerId
  userId := identity.userId
  requestArchive := archived
  providerId := none
  affinityHash := none
  affinitySource := none
  method := call.method
  path := call.path
  model := none
  reasoningEffort := none
  status := 0
  upstreamHttpVersion := none
  firstByteLatencyMs := none
  requestBytes := 0
  responseBytes := 0
  requestTransportBytes := 0
  responseTransportBytes := 0
  downstreamAcceptEncoding := none
  downstreamContentEncoding := none
  upstreamAcceptEncoding := none
  upstreamContentEncoding := none
  latencyMs := 0
  inputTokens := 0
  outputTokens := 0
  cachedTokens := 0
  costUsdNanos := none
  error := none
  clientIp := call.clientIp
  createdAt := call.now
  requestHeadersJson := "[]"
  requestBody := []
  requestBodyTruncated := false
  upstreamRequestHeadersJson := none
  responseHeadersJson := none
  responseBody := none
  responseBodyTruncated := false

/-- The setters between `begin` and the sending write other fields only. -/
def SameCall (begun sent : AuditEvent) : Prop :=
  sent.id = begun.id ∧ sent.requestId = begun.requestId ∧ sent.threadId = begun.threadId ∧
    sent.consumerId = begun.consumerId ∧ sent.userId = begun.userId ∧
    sent.requestArchive = begun.requestArchive ∧ sent.method = begun.method ∧
    sent.path = begun.path ∧ sent.clientIp = begun.clientIp ∧ sent.createdAt = begun.createdAt

instance (begun sent : AuditEvent) : Decidable (begun.SameCall sent) :=
  inferInstanceAs (Decidable (_ ∧ _))

end AuditEvent

/-- A statement of a handler or of the hourly cleanup. -/
inductive AuditStatement where
  | upsertUser (id : String)
  | insertProvider (id : String)
  | revokeConsumer (id userId : String) (now : Int)
  | deleteConsumer (id userId : String)
  | deleteProvider (id : String)
  | deleteExpired (cutoff : Int)

/-- Run a statement. -/
def AuditStatement.exec (db : AuditDatabase) : AuditStatement → AuditDatabase
  | upsertUser id => db.insertUser id
  | insertProvider id => db.insertProvider id
  | revokeConsumer id userId now => db.revokeConsumer id userId now
  | deleteConsumer id userId => db.deleteConsumer id userId
  | deleteProvider id => db.deleteProvider id
  | deleteExpired cutoff => db.deleteExpired cutoff

/-- `QUEUE_CAPACITY`. -/
def queueCapacity : ℕ := 4096

/-- `BATCH_CAPACITY`. -/
def batchCapacity : ℕ := 128

/-- The database, the calls in flight, the queue and the writer. -/
structure AuditNode where
  db : AuditDatabase
  /-- Calls that are authenticated and have not begun their audit. -/
  identities : List ApiIdentity
  /-- Calls that hold a reserved place in the queue. -/
  trackers : List AuditEvent
  /-- Sent messages, the oldest first. -/
  queue : List QueuedAudit
  /-- What the writer has taken from the queue and not yet committed. -/
  batch : List QueuedAudit
  /-- The writer has stopped taking and tries to commit. -/
  writing : Bool
  /-- The ids that `Uuid::new_v4` has returned so far. -/
  issued : List String

/-- One atomic step. -/
inductive AuditStep where
  | execute (stmt : AuditStatement)
  | createConsumer (row : Consumer)
  | authenticate (secretHash : String)
  /-- `AuditTracker::begin` for an authenticated call; `archiveBudget` says whether
  `try_reserve_archive` would succeed. -/
  | begin (identity : ℕ) (call : CallStart) (archiveBudget : Bool)
  /-- `finish`, the end of a stream, or a drop: the event is sent on its reserved place. -/
  | send (tracker : ℕ) (event : AuditEvent)
  | recordResponseTransport (id : String) (bytes : Int) (encoding : Option String)
    (downstreamResponseHeadersJson : Option String)
  /-- `recv` or `try_recv` returns a message. -/
  | receive
  /-- `try_recv` finds the queue empty, or the batch is full. -/
  | stopReceiving
  /-- One call of `persist`. -/
  | persist (usedAt : Int)
  /-- One call of `persist` while SQLite is unavailable. -/
  | persistUnavailable

namespace AuditNode

/-- Before the first call: every id in the tables was issued. -/
structure Started (s : AuditNode) : Prop where
  identities : s.identities = []
  trackers : s.trackers = []
  queue : s.queue = []
  batch : s.batch = []
  calls : ∀ id ∈ s.db.apiCalls.keys, id ∈ s.issued
  consumers : ∀ id ∈ s.db.consumers.keys, id ∈ s.issued

/-- The queue has a place that is neither taken nor reserved. -/
def HasPlace (s : AuditNode) : Prop := s.queue.length + s.trackers.length < queueCapacity

instance (s : AuditNode) : Decidable s.HasPlace := inferInstanceAs (Decidable (_ < _))

/-- One step of the calls, the handlers and the writer. -/
def step (s : AuditNode) : AuditStep → Option AuditNode
  | .execute stmt => some { s with db := stmt.exec s.db }
  | .createConsumer row =>
    if row.id ∈ s.issued then none
    else
      match s.db.insertConsumer row with
      | .ok db => some { s with db := db, issued := row.id :: s.issued }
      | .error _ => some { s with issued := row.id :: s.issued }
  | .authenticate secretHash =>
    (s.db.apiIdentity secretHash).map fun identity =>
      { s with identities := s.identities ++ [identity] }
  | .begin i call archiveBudget =>
    s.identities[i]?.bind fun identity =>
      if call.eventId ∈ s.issued then none
      else if s.HasPlace then some
        { s with
          identities := s.identities.eraseIdx i
          trackers :=
            s.trackers ++ [.begin call identity (identity.requestArchive && archiveBudget)]
          issued := call.eventId :: s.issued }
      else some { s with identities := s.identities.eraseIdx i }
  | .send i event =>
    s.trackers[i]?.bind fun begun =>
      if begun.SameCall event then some
        { s with
          trackers := s.trackers.eraseIdx i
          queue := s.queue ++ [.event event] }
      else none
  | .recordResponseTransport id bytes encoding headers =>
    if s.HasPlace then
      some { s with queue := s.queue ++ [.responseTransport id bytes encoding headers] }
    else some s
  | .receive =>
    match s.queue with
    | [] => none
    | queued :: rest =>
      if s.writing = false ∧ s.batch.length < batchCapacity then
        some { s with queue := rest, batch := s.batch ++ [queued] }
      else none
  | .stopReceiving =>
    if s.writing = false ∧ s.batch ≠ [] ∧ (s.queue = [] ∨ s.batch.length = batchCapacity) then
      some { s with writing := true }
    else none
  | .persist usedAt =>
    if s.writing then
      match s.db.persist usedAt s.batch with
      | .ok db => some { s with db := db, batch := [], writing := false }
      | .error _ => some s
    else none
  | .persistUnavailable => if s.writing then some s else none

/-- A run of the calls, the handlers and the writer. -/
abbrev run (s : AuditNode) (steps : List AuditStep) : Option AuditNode :=
  Transition.run step s steps

/-- The state after a run. -/
abbrev after (s : AuditNode) (steps : List AuditStep) : AuditNode :=
  Transition.after step s steps

end AuditNode

end OpenAiLb
