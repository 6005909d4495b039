import OpenAiLb.Balancer
import OpenAiLb.Credentials
import OpenAiLb.Library.Renewal
import OpenAiLb.Library.Transition

/-!
# Credential refreshes and replacements as interleaved tasks

A provider's credential is refreshed by `refresh_if_needed`, on a lease that was taken
earlier, and by `refresh_provider`. Both hold the lock of the provider while they read
the row, send the refresh token to the token endpoint, and write the answer back if the
row still has that token. `replace_provider_token_values` and `insert_provider` write
without the lock. Any number of these calls interleave.
-/

namespace OpenAiLb

/-- What happens at the token endpoint. A token is redeemed when the endpoint answers with a new
credential and the answer is accepted. -/
abbrev EndpointEvent := Renewal.Event String

/-- The row that a refresh read under the lock. `refresh_provider` reads the refresh token and
the account alone. -/
structure CurrentCredential where
  accessToken : String
  refreshToken : String
  expiresAt : Option Int
  accountId : String
  /-- The clock of `refresh_if_needed` right after the reading. -/
  readAt : Int
  deriving DecidableEq

/-- Where a refresh stands. -/
inductive RefreshPhase where
  /-- It waits for the lock of the provider. -/
  | waiting
  /-- It holds the lock and has not read the row. -/
  | locked
  | read (current : CurrentCredential)
  | sent (current : CurrentCredential)
  | answered (current : CurrentCredential) (token : TokenResponse)
  /-- The token request of `refresh_if_needed` failed and the row is not marked yet. -/
  | refused (current : CurrentCredential) (error : AppError)
  /-- The row is written; the lock is still held. -/
  | reloading (result : Except AppError Unit)
  | finished (result : Except AppError Unit)
  /-- The future was dropped. -/
  | dropped
  deriving DecidableEq

/-- A call of `refresh_if_needed`, with its lease, or of `refresh_provider`, without one. -/
structure RefreshTask where
  providerId : String
  lease : Option Lease
  phase : RefreshPhase
  deriving DecidableEq

/-- Where a call of `replace_provider_token_values` or `insert_provider` stands. -/
inductive WritePhase where
  /-- Its statement is still to come. -/
  | called (write : CredentialWrite)
  | reloading
  | finished (result : Except AppError Unit)
  | dropped
  deriving DecidableEq

/-- A running call. -/
inductive CredentialTask where
  | refresh (task : RefreshTask)
  | write (phase : WritePhase)
  deriving DecidableEq

namespace RefreshPhase

/-- The lock is held. -/
def holdsLock : RefreshPhase → Bool
  | waiting | finished _ | dropped => false
  | _ => true

/-- The row that was read, while its refresh token is on the way to the endpoint and back. -/
def inFlight : RefreshPhase → Option CurrentCredential
  | read current | sent current | answered current _ | refused current _ => some current
  | _ => none

end RefreshPhase

/-- The database, the balancer, the locks and the running calls. -/
structure CredentialNode where
  db : Database
  balancer : Balancer
  /-- The providers whose refresh lock is held. -/
  locks : List String
  /-- The leases that `select` has handed out. -/
  leases : List Lease
  tasks : List CredentialTask
  /-- Every credential that was supplied so far. -/
  credentials : List Credential
  /-- What happened at the token endpoint, the newest first. -/
  log : List EndpointEvent

/-- One atomic step. The number is that of the task that acts. -/
inductive CredentialStep where
  | select (now : Int) (userId : String) (allProviders : Bool) (affinity excluded : Option String)
  /-- A statement of another handler. -/
  | execute (stmt : Statement)
  /-- `refresh_if_needed` is called on a lease. -/
  | refreshIfNeeded (lease : ℕ) (now : Int)
  /-- `refresh_provider` is called. -/
  | refreshProvider (providerId : String)
  /-- `replace_provider_token_values` is called. -/
  | replaceTokens (id name accessToken refreshToken : String) (now : Int)
  /-- `insert_provider` is called; the id is from `Uuid::new_v4`. -/
  | insertProvider (id name access refresh : String) (expiresAt : Option Int) (now : Int)
    (ownerId : String)
  | lock (task : ℕ)
  | read (task : ℕ) (now : Int)
  | send (task : ℕ)
  | answer (task : ℕ) (answer : TokenAnswer)
  /-- The `UPDATE` or `INSERT`; `refresh_provider` takes the clock at this point. -/
  | write (task : ℕ) (now : Int)
  | reload (task : ℕ)
  /-- The future of the call is dropped with its client. -/
  | drop (task : ℕ)

namespace Lease

/-- `refresh_if_needed` has something to do: the lease expires within a minute. -/
def expiresSoon (lease : Lease) (now : Int) : Bool :=
  lease.provider.expiresAt.any fun expires => expires ≤ now + 60

/-- The lease with the credential of the row. -/
def withCurrent (lease : Lease) (current : CurrentCredential) : Lease where
  provider :=
    { lease.provider with expiresAt := current.expiresAt, accountId := current.accountId }
  accessToken := current.accessToken
  refreshToken := current.refreshToken

/-- The lease with the credential of a token response. -/
def withToken (lease : Lease) (token : TokenResponse) (accountId : String) (expiresAt : Int) :
    Lease where
  provider := { lease.provider with expiresAt := some expiresAt, accountId := accountId }
  accessToken := token.accessToken
  refreshToken := token.refreshToken

end Lease

namespace CurrentCredential

/-- What a refresh selects of the row. -/
def ofRow (row : Provider) (now : Int) : CurrentCredential :=
  ⟨row.accessToken, row.refreshToken, row.expiresAt, row.accountId, now⟩

/-- Another refresh was faster: the row does not expire within a minute. -/
def isFresh (current : CurrentCredential) (now : Int) : Bool :=
  current.expiresAt.any fun expires => now + 60 < expires

/-- The credential of a token response: an answer whose token names no account belongs to the
account of the credential that was redeemed. -/
def successor (jwt : JwtCodec) (current : CurrentCredential) (providerId : String)
    (token : TokenResponse) : Credential where
  providerId := providerId
  accessToken := token.accessToken
  refreshToken := token.refreshToken
  accountId := (jwt.accountIdFromJwt token.accessToken).getD current.accountId

end CurrentCredential

namespace RefreshTask

/-- The account that is written with a token response. `refresh_if_needed` falls back to the
account of its lease, `refresh_provider` to that of the row. -/
def accountFor (jwt : JwtCodec) (task : RefreshTask) (current : CurrentCredential)
    (token : TokenResponse) : String :=
  (jwt.accountIdFromJwt token.accessToken).getD
    (task.lease.elim current.accountId fun lease => lease.provider.accountId)

/-- The `UPDATE` that a refresh is about to run. -/
def statement (jwt : JwtCodec) (task : RefreshTask) (now : Int) : Option Statement :=
  match task.phase with
  | .answered current token =>
    let accountId := task.accountFor jwt current token
    some <|
      if task.lease.isSome then
        .refreshIfNeeded task.providerId current.refreshToken token accountId current.readAt
      else .refreshProvider task.providerId current.refreshToken token accountId now
  | .refused current _ =>
    some (.refreshFailed task.providerId current.refreshToken current.readAt)
  | _ => none

/-- The lease once the row was written. -/
def leaseAfter (jwt : JwtCodec) (task : RefreshTask) : Option Lease :=
  match task.phase with
  | .answered current token => task.lease.map fun lease =>
    lease.withToken token (task.accountFor jwt current token) (current.readAt + token.expiresIn)
  | _ => task.lease

/-- The result of the call, once its `UPDATE` has found `n` rows. -/
def resultAfter (task : RefreshTask) (n : ℕ) : RefreshPhase :=
  match task.phase with
  | .refused _ error => .reloading (.error error)
  | _ =>
    if n = 0 then .finished (.error (.unavailable "provider credential changed during refresh"))
    else .reloading (.ok ())

end RefreshTask

/-- The answer to a replacement or a creation with an empty field. -/
def missingTokenFields : AppError := .badRequest "name, access_key and refresh_key are required"

/-- The end of a write, once its statement has found `n` rows. -/
def WritePhase.after : Except SqliteError ℕ → WritePhase
  | .error _ => .finished (.error .internal)
  | .ok n => if n = 0 then .finished (.error (.notFound "provider not found")) else .reloading

namespace CredentialNode

variable (affinityHash : String → String) (ttl : Int) (jwt : JwtCodec)

/-- The refresh task with this number. -/
def refresh? (s : CredentialNode) (i : ℕ) : Option RefreshTask :=
  match s.tasks[i]? with
  | some (.refresh task) => some task
  | _ => none

/-- A call starts. -/
def start (s : CredentialNode) (task : CredentialTask) : CredentialNode :=
  { s with tasks := s.tasks ++ [task] }

/-- A refresh moves on. It takes the lock when it starts to hold it, and gives it up when its call
is over. -/
def move (s : CredentialNode) (i : ℕ) (task after : RefreshTask) : CredentialNode :=
  { s with
    tasks := s.tasks.set i (.refresh after)
    locks :=
      if after.phase.holdsLock then
        if task.phase.holdsLock then s.locks else task.providerId :: s.locks
      else if task.phase.holdsLock then s.locks.filter (· ≠ task.providerId) else s.locks }

/-- A credential is supplied: it is recorded, and its statement is still to come. -/
def supply (s : CredentialNode) (write : CredentialWrite) : CredentialNode :=
  { s with credentials := write.credential :: s.credentials }.start (.write (.called write))

/-- `replace_provider_token_values`, up to its statement. -/
def replaceTokens (s : CredentialNode) (id name accessToken refreshToken : String) (now : Int) :
    CredentialNode :=
  if name = "" ∨ accessToken = "" ∨ refreshToken = "" then
    s.start (.write (.finished (.error missingTokenFields)))
  else
    match jwt.accountIdFromJwt accessToken with
    | none => s.start (.write (.finished (.error .internal)))
    | some accountId =>
      s.supply (.replace ⟨id, accessToken, refreshToken, accountId⟩ name
        (jwt.expiresAtFromJwt accessToken) now)

/-- `insert_provider`, up to its statement. -/
def insertProvider (s : CredentialNode) (id name access refresh : String) (expiresAt : Option Int)
    (now : Int) (ownerId : String) : CredentialNode :=
  if trim name = "" ∨ trim access = "" ∨ trim refresh = "" then
    s.start (.write (.finished (.error missingTokenFields)))
  else
    match jwt.accountIdFromJwt access with
    | none => s.start (.write (.finished (.error .internal)))
    | some accountId =>
      s.supply (.create ⟨id, trim access, trim refresh, accountId⟩ (trim name)
        (expiresAt.or (jwt.expiresAtFromJwt access)) now ownerId)

/-- A refresh reads the row of its provider. -/
def readRow (s : CredentialNode) (i : ℕ) (task : RefreshTask) (now : Int) : CredentialNode :=
  match s.db.provider? task.providerId with
  | none =>
    let error := if task.lease.isSome then AppError.internal else .notFound "provider not found"
    s.move i task { task with phase := .finished (.error error) }
  | some row =>
    let current := CurrentCredential.ofRow row now
    match task.lease with
    | some lease =>
      if current.isFresh now then
        s.move i task
          { task with lease := some (lease.withCurrent current), phase := .finished (.ok ()) }
      else s.move i task { task with phase := .read current }
    | none => s.move i task { task with phase := .read current }

/-- The answer of the token endpoint arrives. -/
def receiveAnswer (s : CredentialNode) (i : ℕ) (task : RefreshTask) (current : CurrentCredential)
    (answer : TokenAnswer) : CredentialNode :=
  match tokenRequest answer with
  | .ok token =>
    { s with
      credentials := current.successor jwt task.providerId token :: s.credentials
      log := .redeemed current.refreshToken :: s.log }.move i task
        { task with phase := .answered current token }
  | .error error =>
    if task.lease.isSome then s.move i task { task with phase := .refused current error }
    else s.move i task { task with phase := .finished (.error error) }

/-- A replacement or a creation runs its statement. -/
def runWrite (s : CredentialNode) (i : ℕ) (write : CredentialWrite) : CredentialNode :=
  match write.statement.exec s.db with
  | .ok (db, n) => { s with db := db, tasks := s.tasks.set i (.write (.after (.ok n))) }
  | .error error => { s with tasks := s.tasks.set i (.write (.after (.error error))) }

/-- A refresh runs its `UPDATE`. -/
def writeRow (s : CredentialNode) (i : ℕ) (task : RefreshTask) (stmt : Statement) :
    CredentialNode :=
  match stmt.exec s.db with
  | .ok (db, n) =>
    let lease := if n = 0 then task.lease else task.leaseAfter jwt
    { s with db := db }.move i task { task with lease := lease, phase := task.resultAfter n }
  | .error _ => s.move i task { task with phase := .finished (.error .internal) }

/-- One step of the calls. -/
def step (s : CredentialNode) : CredentialStep → Option CredentialNode
  | .select now userId allProviders affinity excluded =>
    match s.balancer.select affinityHash ttl now userId allProviders affinity excluded with
    | .ok (lease, balancer) => some { s with balancer := balancer, leases := s.leases ++ [lease] }
    | .error _ => some s
  | .execute stmt =>
    if stmt.keepsTokens then
      match stmt.exec s.db with
      | .ok (db, _) => some { s with db := db }
      | .error _ => some s
    else none
  | .refreshIfNeeded i now =>
    s.leases[i]?.map fun lease =>
      let phase := if lease.expiresSoon now then RefreshPhase.waiting else .finished (.ok ())
      s.start (.refresh ⟨lease.provider.id, some lease, phase⟩)
  | .refreshProvider providerId => some (s.start (.refresh ⟨providerId, none, .waiting⟩))
  | .replaceTokens id name accessToken refreshToken now =>
    some (s.replaceTokens jwt id name accessToken refreshToken now)
  | .insertProvider id name access refresh expiresAt now ownerId =>
    some (s.insertProvider jwt id name access refresh expiresAt now ownerId)
  | .lock i =>
    (s.refresh? i).bind fun task =>
      if task.phase = .waiting ∧ task.providerId ∉ s.locks then
        some (s.move i task { task with phase := .locked })
      else none
  | .read i now =>
    (s.refresh? i).bind fun task =>
      if task.phase = .locked then some (s.readRow i task now) else none
  | .send i =>
    (s.refresh? i).bind fun task =>
      match task.phase with
      | .read current => some
        ({ s with log := .sent current.refreshToken :: s.log }.move i task
          { task with phase := .sent current })
      | _ => none
  | .answer i answer =>
    (s.refresh? i).bind fun task =>
      match task.phase with
      | .sent current => some (s.receiveAnswer jwt i task current answer)
      | _ => none
  | .write i now =>
    match s.tasks[i]? with
    | some (.refresh task) => (task.statement jwt now).map fun stmt => s.writeRow jwt i task stmt
    | some (.write (.called write)) => some (s.runWrite i write)
    | _ => none
  | .reload i =>
    match s.tasks[i]? with
    | some (.refresh task) =>
      match task.phase with
      | .reloading result => some
        ({ s with balancer := s.balancer.reloadProviders s.db }.move i task
          { task with phase := .finished result })
      | _ => none
    | some (.write .reloading) => some
      { s with
        balancer := s.balancer.reloadProviders s.db
        tasks := s.tasks.set i (.write (.finished (.ok ()))) }
    | _ => none
  | .drop i =>
    match s.tasks[i]? with
    | some (.refresh task) => some (s.move i task { task with phase := .dropped })
    | some (.write _) => some { s with tasks := s.tasks.set i (.write .dropped) }
    | none => none

/-- A run of the calls. -/
abbrev run (s : CredentialNode) (steps : List CredentialStep) : Option CredentialNode :=
  Transition.run (step affinityHash ttl jwt) s steps

/-- The state after a run of the calls. -/
abbrev after (s : CredentialNode) (steps : List CredentialStep) : CredentialNode :=
  Transition.after (step affinityHash ttl jwt) s steps

/-- A node that starts on a database with one provider, whose token expires at second 100. -/
def loaded : CredentialNode :=
  let row := Provider.created "p" "name" "a" "access" "r1" (some 100) 10 "owner"
  match { Database.empty with users := ["owner"] }.insertProvider row with
  | .ok db => ⟨db, Balancer.default.reloadProviders db, [], [], [], [row.credential], []⟩
  | .error _ => ⟨Database.empty, Balancer.default, [], [], [], [], []⟩

/-- The payload of a token that names the account `b`: the encoding of `accountClaims`. -/
def accountPayload : String :=
  "eyJodHRwczovL2FwaS5vcGVuYWkuY29tL2F1dGgiOnsiY2hhdGdwdF9hY2NvdW50X2lkIjoiYiJ9fQ"

/-- The JSON text of the claims, with the account `b` and without an expiry. -/
def accountClaims : List UInt8 :=
  [123, 34, 104, 116, 116, 112, 115, 58, 47, 47, 97, 112, 105, 46, 111, 112, 101, 110, 97, 105, 46,
    99, 111, 109, 47, 97, 117, 116, 104, 34, 58, 123, 34, 99, 104, 97, 116, 103, 112, 116, 95, 97,
    99, 99, 111, 117, 110, 116, 95, 105, 100, 34, 58, 34, 98, 34, 125, 125]

/-- The libraries on that payload. -/
def accountCodec : JwtCodec where
  decode text := if text = accountPayload then some accountClaims else none
  serde :=
    { fromSlice := fun bytes =>
        if bytes = accountClaims then some <| .object
          [("https://api.openai.com/auth", .object [("chatgpt_account_id", .string "b")])]
        else none
      toString := fun _ => "" }

/-- A token with that payload. -/
def accountToken : String := "e30." ++ accountPayload ++ ".c2ln"

example : accountCodec.accountIdFromJwt accountToken = some "b" := by decide

end CredentialNode

end OpenAiLb
