import OpenAiLb.AuditTracker
import OpenAiLb.Library.Select
import OpenAiLb.ArchivedHeaders
import Mathlib.Data.List.Infix
import Mathlib.Data.String.Basic

/-!
# The audit queries of the console

A user reads the calls of the own consumers, an administrator all calls: the list with its
filters (`audit`), one call with its diagnostics and its neighbours (`audit_detail`) and
the usage by day (`usage_rows`). Where a query leaves the order of its rows open, the
model says which results it may have.
-/

namespace OpenAiLb

/-- `UserIdentity`. -/
structure UserIdentity where
  id : String
  email : Option String
  name : Option String
  role : String
  deriving DecidableEq

/-- `is_admin`. -/
def isAdmin (user : UserIdentity) : Bool := user.role = "root" || user.role = "admin"

/-- A row of `users`. -/
structure UserRow where
  id : String
  email : Option String
  displayName : Option String
  role : String
  deriving DecidableEq

/-- What the queries read of a row of `providers`. -/
structure ProviderName where
  id : String
  name : String
  deriving DecidableEq

/-- The tables that the queries read: the audit tables, and the rows of the users and of the
providers that those refer to. -/
structure ConsoleDatabase where
  users : Table UserRow.id
  providers : Table ProviderName.id
  records : AuditDatabase
  usersKnown : records.users = users.keys
  providersKnown : records.providers = providers.keys

/-- `AuditStatus`. -/
inductive AuditStatus where
  | success
  | error
  deriving DecidableEq

/-- `AuditQuery`. -/
structure AuditQuery where
  limit : Option Int
  offset : Option Int
  userId : Option String
  consumer : Option String
  provider : Option String
  model : Option String
  status : Option AuditStatus

namespace AuditQuery

/-- `filters.limit.unwrap_or(100).clamp(1, 500)`. -/
def rowLimit (filters : AuditQuery) : ℕ := (max 1 (min (filters.limit.getD 100) 500)).toNat

/-- `filters.offset.unwrap_or(0).max(0)`. -/
def rowOffset (filters : AuditQuery) : ℕ := (max (filters.offset.getD 0) 0).toNat

end AuditQuery

/-- `instr(text, part) > 0`. -/
def instr (text part : String) : Bool := decide (part.toList <:+: text.toList)

/-- `append_audit_text_filter`: the condition that is added, if the value is not blank. -/
def auditTextFilter (column value : Option String) : Bool :=
  ((value.map trim).filter (· ≠ "")).all fun value =>
    instr (toAsciiLowercase (column.getD "")) (toAsciiLowercase value)

/-- A row of `api_calls` with the consumer and the provider that the queries join to it. -/
structure JoinedCall where
  call : ApiCall
  consumer : Consumer
  provider : Option ProviderName
  deriving DecidableEq

/-- `append_audit_filters`. -/
def auditFilters (filters : AuditQuery) (user : UserIdentity) (row : JoinedCall) : Bool :=
  (isAdmin user || row.call.userId = user.id) &&
    auditTextFilter (some row.call.userId) filters.userId &&
    auditTextFilter (some row.consumer.name) filters.consumer &&
    auditTextFilter (row.provider.map ProviderName.name) filters.provider &&
    auditTextFilter row.call.model filters.model &&
    filters.status.all fun status =>
      match status with
      | .success => row.call.status < 400
      | .error => 400 ≤ row.call.status

/-- One element of the rows that `audit` answers with. -/
structure AuditRow where
  id : String
  requestId : String
  threadId : Option String
  userId : String
  userName : Option String
  consumerName : String
  providerId : Option String
  providerName : Option String
  path : String
  method : String
  model : Option String
  reasoningEffort : Option String
  status : Int
  latencyMs : Int
  inputTokens : Int
  outputTokens : Int
  cachedTokens : Int
  error : Option String
  clientIp : Option String
  createdAt : Int
  firstByteLatencyMs : Option Int
  requestBytes : Int
  responseBytes : Int
  requestTransportBytes : Int
  responseTransportBytes : Int
  costUsdNanos : Option Int
  deriving DecidableEq

/-- The answer of `audit`. -/
structure AuditAnswer where
  rows : List AuditRow
  total : ℕ
  deriving DecidableEq

namespace ConsoleDatabase

/-- `FROM api_calls c JOIN consumers k ON k.id=c.consumer_id
LEFT JOIN providers ch ON ch.id=c.provider_id`, for one call. -/
def join (db : ConsoleDatabase) (call : ApiCall) : Option JoinedCall :=
  (db.records.consumers.find? call.consumerId).map fun consumer =>
    ⟨call, consumer, call.providerId.bind db.providers.find?⟩

/-- The rows that `audit` counts and lists. -/
def auditMatches (db : ConsoleDatabase) (filters : AuditQuery) (user : UserIdentity) :
    List JoinedCall :=
  (db.records.apiCalls.rows.filterMap db.join).filter (auditFilters filters user)

/-- The columns that `audit` selects; the name of the user comes from a `LEFT JOIN users`. -/
def auditRow (db : ConsoleDatabase) (row : JoinedCall) : AuditRow where
  id := row.call.id
  requestId := row.call.requestId
  threadId := row.call.threadId
  userId := row.call.userId
  userName := (db.users.find? row.call.userId).bind UserRow.displayName
  consumerName := row.consumer.name
  providerId := row.call.providerId
  providerName := row.provider.map ProviderName.name
  path := row.call.path
  method := row.call.method
  model := row.call.model
  reasoningEffort := row.call.reasoningEffort
  status := row.call.status
  latencyMs := row.call.latencyMs
  inputTokens := row.call.inputTokens
  outputTokens := row.call.outputTokens
  cachedTokens := row.call.cachedTokens
  error := row.call.error
  clientIp := row.call.clientIp
  createdAt := row.call.createdAt
  firstByteLatencyMs := row.call.firstByteLatencyMs
  requestBytes := row.call.requestBytes
  responseBytes := row.call.responseBytes
  requestTransportBytes := row.call.requestTransportBytes
  responseTransportBytes := row.call.responseTransportBytes
  costUsdNanos := row.call.costUsdNanos

/-- `ORDER BY c.created_at DESC`. -/
def Newest (a b : JoinedCall) : Prop := b.call.createdAt ≤ a.call.createdAt

/-- `audit`: the answers that it may give. The order of calls with one timestamp is open. -/
def Audit (db : ConsoleDatabase) (user : UserIdentity) (filters : AuditQuery)
    (answer : AuditAnswer) : Prop :=
  ∃ rows, OrderedBy Newest (db.auditMatches filters user) rows ∧
    answer =
      { rows := (page filters.rowLimit filters.rowOffset rows).map db.auditRow
        total := (db.auditMatches filters user).length }

end ConsoleDatabase

/-- `SUM` over the integers of a group, in the order in which they come. It fails when it
overflows on the way. -/
def sumInts (values : List Int) : Option Int := values.foldlM checkedAdd 0

/-- The columns of `GROUP BY`. `date` is null when SQLite cannot convert the timestamp. -/
structure UsageKey where
  userId : String
  userEmail : Option String
  userName : Option String
  consumerId : String
  consumerName : String
  consumerPrefix : String
  model : String
  date : Option String
  deriving DecidableEq

/-- One element of the rows that `usage_rows` returns. -/
structure UsageRow where
  userId : String
  userEmail : Option String
  userName : Option String
  consumerId : String
  consumerName : String
  consumerPrefix : String
  model : String
  date : String
  requests : ℕ
  inputTokens : Int
  cachedTokens : Int
  outputTokens : Int
  networkTransportBytes : Int
  costUsdNanos : Int
  deriving DecidableEq

/-- `COALESCE(NULLIF(c.model,''),'unknown')`. -/
def usageModel (call : ApiCall) : String := (call.model.filter (· ≠ "")).getD "unknown"

/-- `WHERE c.created_at>=?`, and `AND c.user_id=?` for a tenant. -/
def usageFilter (user : UserIdentity) (since : Int) (call : ApiCall) : Bool :=
  since ≤ call.createdAt && (isAdmin user || call.userId = user.id)

namespace ConsoleDatabase

/-- `FROM api_calls c JOIN users u ON u.id=c.user_id JOIN consumers k ON k.id=c.consumer_id`, for
one call, with the columns that it is grouped by. -/
def usageJoin (db : ConsoleDatabase) (date : Int → Option String) (call : ApiCall) :
    Option (UsageKey × ApiCall) :=
  (db.users.find? call.userId).bind fun user =>
    (db.records.consumers.find? call.consumerId).map fun consumer =>
      ({ userId := call.userId
         userEmail := user.email
         userName := user.displayName
         consumerId := consumer.id
         consumerName := consumer.name
         consumerPrefix := consumer.keyPrefix
         model := usageModel call
         date := date call.createdAt }, call)

/-- The calls that `usage_rows` counts. -/
def usageMatches (db : ConsoleDatabase) (date : Int → Option String) (user : UserIdentity)
    (since : Int) : List (UsageKey × ApiCall) :=
  (db.records.apiCalls.rows.filter (usageFilter user since)).filterMap (db.usageJoin date)

end ConsoleDatabase

/-- The aggregates of a group, and their conversion. It fails when a sum overflows, when the two
byte columns add up to a floating-point number and when there is no date. -/
def usageRow (group : UsageKey × List (UsageKey × ApiCall)) : Option UsageRow := do
  let calls := group.2.map Prod.snd
  let date ← group.1.date
  let input ← sumInts (calls.map ApiCall.inputTokens)
  let cached ← sumInts (calls.map ApiCall.cachedTokens)
  let output ← sumInts (calls.map ApiCall.outputTokens)
  let bytes ← calls.mapM fun call =>
    checkedAdd call.requestTransportBytes call.responseTransportBytes
  let transport ← sumInts bytes
  let cost ← sumInts (calls.filterMap ApiCall.costUsdNanos)
  return {
    userId := group.1.userId
    userEmail := group.1.userEmail
    userName := group.1.userName
    consumerId := group.1.consumerId
    consumerName := group.1.consumerName
    consumerPrefix := group.1.consumerPrefix
    model := group.1.model
    date := date
    requests := calls.length
    inputTokens := input
    cachedTokens := cached
    outputTokens := output
    networkTransportBytes := transport
    costUsdNanos := cost }

namespace ConsoleDatabase

/-- `usage_rows`: the answers that it may give, `none` where it fails. The order in which the calls
are found is open, and so is the order of rows with one date. -/
def UsageRows (db : ConsoleDatabase) (date : Int → Option String) (user : UserIdentity)
    (since : Int) (answer : Option (List UsageRow)) : Prop :=
  ∃ found, found.Perm (db.usageMatches date user since) ∧
    match (groupBy Prod.fst found).mapM usageRow with
    | some rows =>
      ∃ sorted, OrderedBy (fun a b => a.date ≤ b.date) rows sorted ∧ answer = some sorted
    | none => answer = none

end ConsoleDatabase

/-- A neighbour of a call: the row of the navigation query. -/
structure Neighbour where
  id : String
  requestId : String
  createdAt : Int
  deriving DecidableEq

/-- `ORDER BY created_at,id`, ascending. -/
def Neighbour.before (a b : Neighbour) : Bool :=
  a.createdAt < b.createdAt || (a.createdAt = b.createdAt && a.id ≤ b.id)

/-- The rows before and after the one of the call. -/
def neighbours (rows : List Neighbour) (id : String) : Option Neighbour × Option Neighbour :=
  match rows.findIdx? fun row => row.id = id with
  | some index => (if index = 0 then none else rows[index - 1]?, rows[index + 1]?)
  | none => (none, none)

/-- The answer of `audit_detail`. -/
structure AuditDetail where
  id : String
  requestId : String
  threadId : Option String
  userId : String
  consumerName : String
  providerId : Option String
  providerName : Option String
  method : String
  path : String
  model : Option String
  reasoningEffort : Option String
  status : Int
  latencyMs : Int
  inputTokens : Int
  outputTokens : Int
  cachedTokens : Int
  error : Option String
  clientIp : Option String
  firstByteLatencyMs : Option Int
  requestBytes : Int
  responseBytes : Int
  requestTransportBytes : Int
  responseTransportBytes : Int
  downstreamAcceptEncoding : Option String
  downstreamContentEncoding : Option String
  upstreamAcceptEncoding : Option String
  upstreamContentEncoding : Option String
  affinityHash : Option String
  affinitySource : Option String
  createdAt : Int
  archiveAvailable : Bool
  requestHeaders : Option String
  upstreamRequestHeaders : Option String
  requestBody : Option String
  requestBodyTruncated : Bool
  responseHeaders : Option String
  downstreamResponseHeaders : Option String
  responseBody : Option String
  responseBodyTruncated : Bool
  previous : Option Neighbour
  next : Option Neighbour
  upstreamHttpVersion : Option String
  costUsdNanos : Option Int
  deriving DecidableEq

namespace ConsoleDatabase

/-- `WHERE c.id=?`, and `AND c.user_id=?` for a tenant. -/
def detailCall (db : ConsoleDatabase) (user : UserIdentity) (id : String) : Option JoinedCall :=
  ((db.records.apiCalls.find? id).filter fun call => isAdmin user || call.userId = user.id).bind
    db.join

/-- The navigation query: the calls of the thread and of the consumer, for a tenant only those of
the user. -/
def navigationRows (db : ConsoleDatabase) (user : UserIdentity) (threadId consumerId : String) :
    List Neighbour :=
  ((db.records.apiCalls.rows.filter fun call =>
      call.threadId = some threadId && call.consumerId = consumerId &&
        (isAdmin user || call.userId = user.id)).map
    fun call => ⟨call.id, call.requestId, call.createdAt⟩).mergeSort Neighbour.before

/-- `audit_detail`. `fromUtf8Lossy` is `String::from_utf8_lossy`. -/
def auditDetail (db : ConsoleDatabase) (serde : SerdeJson) (fromUtf8Lossy : List UInt8 → String)
    (user : UserIdentity) (id : String) : Except AppError AuditDetail :=
  match db.detailCall user id with
  | none => .error (.notFound "audit event not found")
  | some row =>
    let call := row.call
    let archive := db.records.requestArchives.find? call.id
    let navigation := neighbours
      (call.threadId.elim [] fun threadId => db.navigationRows user threadId call.consumerId) id
    let visible := fun headers => visibleArchiveHeaders serde headers (isAdmin user)
    .ok {
      id := call.id
      requestId := call.requestId
      threadId := call.threadId
      userId := call.userId
      consumerName := row.consumer.name
      providerId := call.providerId
      providerName := row.provider.map ProviderName.name
      method := call.method
      path := call.path
      model := call.model
      reasoningEffort := call.reasoningEffort
      status := call.status
      latencyMs := call.latencyMs
      inputTokens := call.inputTokens
      outputTokens := call.outputTokens
      cachedTokens := call.cachedTokens
      error := call.error
      clientIp := call.clientIp
      firstByteLatencyMs := call.firstByteLatencyMs
      requestBytes := call.requestBytes
      responseBytes := call.responseBytes
      requestTransportBytes := call.requestTransportBytes
      responseTransportBytes := call.responseTransportBytes
      downstreamAcceptEncoding := call.downstreamAcceptEncoding
      downstreamContentEncoding := call.downstreamContentEncoding
      upstreamAcceptEncoding := call.upstreamAcceptEncoding
      upstreamContentEncoding := call.upstreamContentEncoding
      affinityHash := call.affinityHash
      affinitySource := call.affinitySource
      createdAt := call.createdAt
      archiveAvailable := archive.isSome
      requestHeaders := visible (archive.map RequestArchive.requestHeadersJson)
      upstreamRequestHeaders := visible (archive.bind RequestArchive.upstreamRequestHeadersJson)
      requestBody := archive.map fun archive => fromUtf8Lossy archive.requestBody
      requestBodyTruncated := archive.any RequestArchive.requestBodyTruncated
      responseHeaders := visible (archive.bind RequestArchive.responseHeadersJson)
      downstreamResponseHeaders :=
        visible (archive.bind RequestArchive.downstreamResponseHeadersJson)
      responseBody := (archive.bind RequestArchive.responseBody).map fromUtf8Lossy
      responseBodyTruncated := archive.any RequestArchive.responseBodyTruncated
      previous := navigation.1
      next := navigation.2
      upstreamHttpVersion := call.upstreamHttpVersion
      costUsdNanos := call.costUsdNanos }

end ConsoleDatabase

end OpenAiLb
