import OpenAiLb.AffinitySeparation
import OpenAiLb.AuditQueries
import OpenAiLb.CredentialTasks
import OpenAiLb.Dispatch

/-!
# The dispatchers with their selections and reports

The four functions that send a request upstream, with `Balancer::select` and
`refresh_if_needed` carried out: `dispatch` and `dispatch_audio` for the API, and the two
handlers of the console. Requests can be built and sent, so a provider always replies; the
body of its reply may still break off. The state records the requests and the calls of
`track_response`. Other tasks change the balancer at any time, so each selection meets a
balancer of its own.
-/

namespace OpenAiLb

open Stoppable

/-- What the answers of the database and of the token endpoint are to `refresh_if_needed`. -/
structure RefreshAnswers where
  /-- `chrono::Utc::now().timestamp()` of the first check. -/
  checkedAt : Int
  /-- The row that is read under the lock. -/
  current : Except AppError CurrentCredential
  /-- The token endpoint. -/
  token : TokenAnswer
  /-- The `UPDATE` after a failed token request, and the reload after it. -/
  marked : Except AppError Unit
  /-- The number of rows that the `UPDATE` of the credential has found. -/
  written : Except AppError ℕ
  /-- The reload after that `UPDATE`. -/
  reloaded : Except AppError Unit

/-- `refresh_if_needed`: the lease afterwards. -/
def refreshIfNeeded (jwt : JwtCodec) (lease : Lease) (answers : RefreshAnswers) :
    Except AppError Lease := do
  if lease.expiresSoon answers.checkedAt then
    let current ← answers.current
    if current.isFresh current.readAt then return lease.withCurrent current
    match tokenRequest answers.token with
    | .error error => do
      answers.marked
      throw error
    | .ok token => do
      let accountId := (jwt.accountIdFromJwt token.accessToken).getD lease.provider.accountId
      let found ← answers.written
      if found = 0 then throw (.unavailable "provider credential changed during refresh")
      answers.reloaded
      return lease.withToken token accountId (current.readAt + token.expiresIn)
  else return lease

/-- A selection at its time, and the refresh of the lease that it gives. -/
structure SelectionAt where
  balancer : Balancer
  now : Int
  refresh : RefreshAnswers

/-- The reply of a provider. -/
structure Reply extends LiveResponse where
  /-- The body, if it can be read to its end. -/
  body : Option (List UInt8)

namespace Reply

/-- `response.bytes().await?`. -/
def read (reply : Reply) : Except AppError (List UInt8) :=
  match reply.body with
  | some body => .ok body
  | none => .error .internal

/-- The answers that a request gets which is built and sent. -/
def attempt (reply : Reply) (openaiBeta : Option String) (upload : List UInt8) : Attempt where
  upload := .ok upload
  openaiBeta := openaiBeta
  built := .ok ()
  executed := .ok reply.toLiveResponse
  buffered := reply.read.mapError .failed
  tracked := .ok ()

end Reply

/-- The configuration and everything that a dispatcher meets while it runs. -/
structure Surroundings where
  /-- `affinity_ttl_seconds`. -/
  ttl : Int
  /-- `upstream_openai_beta`. -/
  openaiBeta : Option String
  jwt : JwtCodec
  first : SelectionAt
  /-- The second selection of `select_ready_provider`. -/
  fallback : SelectionAt
  /-- The selection of `retry_provider`. -/
  retry : SelectionAt
  firstReply : Reply
  secondReply : Reply
  /-- The clocks that relaying a response reads. -/
  firstByteAt : ℕ
  finishedAt : ℕ
  created : Int

/-- The arguments of `select` that stay the same during a request. -/
structure Caller where
  userId : String
  allProviders : Bool
  affinity : Option String

/-- A call of `track_response`. -/
structure Report where
  providerId : String
  status : ℕ
  body : List UInt8
  deriving DecidableEq

/-- The state of a dispatcher: what it owns, and what it has done. -/
structure Dispatching (κ : Type) where
  own : κ
  requests : List UpstreamRequest
  reports : List Report

/-- A computation of a dispatcher. -/
abbrev Dispatcher (κ : Type) := EStateM (Exit AppError Panic) (Dispatching κ)

/-- What the handlers of API calls own: the tracker, and the events that were sent. -/
structure Recording where
  audit : AuditTracker
  sent : List QueuedEvent

section Steps

variable {κ α : Type}

/-- `?`. -/
def orError (result : Except AppError α) : Dispatcher κ α := await (result.mapError Exit.error)

/-- A computation of an API handler, which reports nothing. -/
def recording (x : Handler α) : Dispatcher Recording α := fun s =>
  match x ⟨s.own.audit, s.own.sent, s.requests⟩ with
  | .ok a t => .ok a ⟨⟨t.audit, t.sent⟩, t.requests, s.reports⟩
  | .error exit t => .error exit ⟨⟨t.audit, t.sent⟩, t.requests, s.reports⟩

/-- `client.execute`, for a request that can be built and sent. -/
def execute (request : UpstreamRequest) (reply : Reply) : Dispatcher κ LiveResponse := do
  modify fun s => { s with requests := s.requests ++ [request] }
  return reply.toLiveResponse

/-- `track_response`, which cannot fail. -/
def trackResponseOf (report : Report) : Dispatcher κ Unit :=
  modify fun s => { s with reports := s.reports ++ [report] }

end Steps

namespace Failover

variable {κ : Type}

/-- `Balancer::select` and the lease that it gives. -/
def select (env : ProxyEnv) (around : Surroundings) (at' : SelectionAt) (caller : Caller)
    (excluded : Option String) : Except AppError Lease :=
  (at'.balancer.select env.affinityHash around.ttl at'.now caller.userId caller.allProviders
    caller.affinity excluded).map Prod.fst

/-- `select_ready_provider`. -/
def selectReadyProvider (env : ProxyEnv) (around : Surroundings) (caller : Caller) :
    Except AppError Lease := do
  let first ← select env around around.first caller none
  match refreshIfNeeded around.jwt first around.first.refresh with
  | .ok lease => return lease
  | .error _ => do
    let second ← select env around around.fallback caller (some first.provider.id)
    refreshIfNeeded around.jwt second around.fallback.refresh

/-- `retry_provider`. -/
def retryProvider (env : ProxyEnv) (around : Surroundings) (caller : Caller) (firstId : String) :
    Option Lease :=
  (select env around around.retry caller (some firstId)).toOption.bind fun second =>
    (refreshIfNeeded around.jwt second around.retry.refresh).toOption

/-- `track_upstream`. `reply` is where the body of a live response is read from. -/
def trackUpstream (providerId : String) (upstream : UpstreamResponse) (reply : Reply) :
    Dispatcher κ UpstreamResponse := do
  if upstream.head.status ≠ 429 then
    trackResponseOf ⟨providerId, upstream.head.status, []⟩
    return upstream
  else
    let buffered ← match upstream with
      | .live response => do
        let body ← orError reply.read
        pure ({ response with body := body } : BufferedUpstream)
      | .buffered response => pure response
    trackResponseOf ⟨providerId, buffered.status, buffered.body⟩
    return .buffered buffered

/-- What relaying a response waits for, and the clocks that it reads. -/
def relayAnswers (around : Surroundings) (reply : Reply) : RelayAnswers where
  body := reply.read.mapError .failed
  firstByteAt := around.firstByteAt
  finishedAt := around.finishedAt
  created := around.created

/-- The identity of an API call with `all_providers`, and its affinity. -/
def apiCaller (identity : ApiIdentity) (allProviders : Bool) (affinity : Option String) :
    Caller :=
  ⟨identity.userId, allProviders, affinity⟩

/-- The end of `dispatch`. -/
def relayJson (env : ProxyEnv) (around : Surroundings) (inbound : Inbound) (reply : Reply)
    (upstream : UpstreamResponse) : Dispatcher Recording Response :=
  let parsed := env.serde.fromSlice inbound.body
  let context : CallContext := ⟨requestedModel parsed, requestedStream parsed⟩
  if inbound.path = imagesPath then
    recording (imageResponse env context upstream (relayAnswers around reply))
  else recording (relayResponse env context upstream (relayAnswers around reply))

/-- `dispatch`. -/
def dispatch (env : ProxyEnv) (around : Surroundings) (inbound : Inbound) (identity : ApiIdentity)
    (allProviders : Bool) : Dispatcher Recording Response := do
  let parsed := env.serde.fromSlice inbound.body
  recording (track (.setReasoningEffort (parsed.bind reasoningEffort)))
  let caller :=
    apiCaller identity allProviders (callAffinity identity.consumerId inbound.headers parsed)
  recording (trackAffinity env identity (affinityKey inbound.headers parsed))
  let payload ← orError (env.transformRequest inbound.path parsed)
  let first ← orError (selectReadyProvider env around caller)
  recording (track (.setProvider first.provider.id))
  let firstId := first.provider.id
  let response ← recording (sendUpstream env first inbound.path inbound.headers payload
    (around.firstReply.attempt around.openaiBeta []))
  let response ← trackUpstream firstId (.live response) around.firstReply
  let (reply, upstream) ←
    if retryable response.head.status then
      match retryProvider env around caller firstId with
      | some second => do
        recording (track (.setProvider second.provider.id))
        let payload ← orError (env.transformRequest inbound.path (env.serde.fromSlice inbound.body))
        let secondResponse ← recording (sendUpstream env second inbound.path inbound.headers payload
          (around.secondReply.attempt around.openaiBeta []))
        let secondResponse ←
          trackUpstream second.provider.id (.live secondResponse) around.secondReply
        pure (around.secondReply, secondResponse)
      | none => pure (around.firstReply, response)
    else pure (around.firstReply, response)
  relayJson env around inbound reply upstream

/-- An upload as `AudioSpool` stores it. -/
structure Spool extends AudioSpool where
  contents : List UInt8

/-- The end of `dispatch_audio`. -/
def relayAudio (env : ProxyEnv) (around : Surroundings) (reply : Reply)
    (upstream : UpstreamResponse) : Dispatcher Recording Response :=
  recording (relayResponse env ⟨none, false⟩ upstream (relayAnswers around reply))

/-- `dispatch_audio`. -/
def dispatchAudio (env : ProxyEnv) (around : Surroundings) (inbound : Inbound)
    (identity : ApiIdentity) (allProviders : Bool) (stored : Except AppError Spool) :
    Dispatcher Recording Response := do
  let caller :=
    apiCaller identity allProviders (callAffinity identity.consumerId inbound.headers none)
  recording (trackAffinity env identity (affinityKey inbound.headers none))
  let spool ← orError stored
  recording (track (.setRequest env.serde inbound.headers spool.preview spool.previewTruncated))
  recording (track (.setRequestSize spool.bytes))
  let first ← orError (selectReadyProvider env around caller)
  recording (track (.setProvider first.provider.id))
  let firstId := first.provider.id
  let response ← recording (sendUpstream env first inbound.path inbound.headers spool.contents
    (around.firstReply.attempt around.openaiBeta spool.contents))
  let response ← trackUpstream firstId (.live response) around.firstReply
  let (reply, upstream) ←
    if retryable response.head.status then
      match retryProvider env around caller firstId with
      | some second => do
        recording (track (.setProvider second.provider.id))
        let secondResponse ← recording (sendUpstream env second inbound.path inbound.headers
          spool.contents (around.secondReply.attempt around.openaiBeta spool.contents))
        let secondResponse ←
          trackUpstream second.provider.id (.live secondResponse) around.secondReply
        pure (around.secondReply, secondResponse)
      | none => pure (around.firstReply, response)
    else pure (around.firstReply, response)
  relayAudio env around reply upstream

/-- The column `provider_access`, read for users that are no administrators. -/
def consoleAccess (user : UserIdentity) (providerAccess : Except AppError Int) :
    Except AppError Bool :=
  if isAdmin user then .ok true else providerAccess.map fun access => access ≠ 0

/-- `send_transcription_upstream`. -/
def sendTranscriptionUpstream (lease : Lease) (inbound : HeaderMap) (body : List UInt8)
    (reply : Reply) : Dispatcher Unit LiveResponse :=
  execute ⟨lease.provider.id, transcriptionHeaders lease inbound, body⟩ reply

/-- The end of `handle_console_transcription`. -/
def relayTranscription (env : ProxyEnv) (reply : Reply) (upstream : UpstreamResponse) :
    Dispatcher Unit Value := do
  let status := upstream.head.status
  let body ← orError (match upstream with
    | .live _ => reply.read
    | .buffered response => .ok response.body)
  if isSuccess status then
    match env.serde.fromSlice body with
    | none => throw (.error .internal)
    | some response =>
      match ((response.get "text").bind Value.asStr).filter (· ≠ "") with
      | none => throw (.error (.upstream status "transcription response is missing text"))
      | some text => return .object [("text", .string text)]
  else throw (.error (.upstream status
    ((errorFrom env.serde status body).getD "transcription failed")))

/-- `handle_console_transcription`, for a user that is signed in. -/
def handleConsoleTranscription (env : ProxyEnv) (around : Surroundings) (user : UserIdentity)
    (providerAccess : Except AppError Int) (headers : HeaderMap)
    (stored : Except AppError Spool) : Dispatcher Unit Value := do
  let allProviders ← orError (consoleAccess user providerAccess)
  let spool ← orError stored
  let caller : Caller := ⟨user.id, allProviders, none⟩
  let first ← orError (selectReadyProvider env around caller)
  let firstId := first.provider.id
  let response ← sendTranscriptionUpstream first headers spool.contents around.firstReply
  let response ← trackUpstream firstId (.live response) around.firstReply
  let (reply, upstream) ←
    if retryable response.head.status then
      match retryProvider env around caller firstId with
      | some second => do
        let secondResponse ←
          sendTranscriptionUpstream second headers spool.contents around.secondReply
        let secondResponse ←
          trackUpstream second.provider.id (.live secondResponse) around.secondReply
        pure (around.secondReply, secondResponse)
      | none => pure (around.firstReply, response)
    else pure (around.firstReply, response)
  relayTranscription env reply upstream

/-- `send_console_image_upstream`. -/
def sendConsoleImageUpstream (lease : Lease) (inbound : HeaderMap) (openaiBeta : Option String)
    (body : List UInt8) (reply : Reply) : Dispatcher Unit LiveResponse :=
  execute ⟨lease.provider.id, jsonRequestHeaders imagesPath lease inbound openaiBeta, body⟩ reply

/-- The end of `handle_console_image_generation`. -/
def relayImages (env : ProxyEnv) (reply : Reply) (upstream : UpstreamResponse) :
    Dispatcher Unit Value := do
  let status := upstream.head.status
  let body ← orError (match upstream with
    | .live _ => reply.read
    | .buffered response => .ok response.body)
  if isSuccess status then
    let (data, _) ← orError (imagesFromSse env.serde body)
    return .object [("data", .array data)]
  else throw (.error (.upstream status
    ((errorFrom env.serde status body).getD "image generation failed")))

/-- `handle_console_image_generation`, for a user that is signed in. -/
def handleConsoleImageGeneration (env : ProxyEnv) (around : Surroundings) (user : UserIdentity)
    (providerAccess : Except AppError Int) (headers : HeaderMap) (body : List UInt8) :
    Dispatcher Unit Value := do
  let allProviders ← orError (consoleAccess user providerAccess)
  let payload ← orError (((env.serde.fromSlice body).map Except.ok).getD
    (.error (.badRequest "JSON request body required")))
  let request ← orError (env.transformRequest imagesPath (some payload))
  let caller : Caller := ⟨user.id, allProviders, none⟩
  let first ← orError (selectReadyProvider env around caller)
  let firstId := first.provider.id
  let response ←
    sendConsoleImageUpstream first headers around.openaiBeta request around.firstReply
  let response ← trackUpstream firstId (.live response) around.firstReply
  let (reply, upstream) ←
    if retryable response.head.status then
      match retryProvider env around caller firstId with
      | some second => do
        let secondResponse ←
          sendConsoleImageUpstream second headers around.openaiBeta request around.secondReply
        let secondResponse ←
          trackUpstream second.provider.id (.live secondResponse) around.secondReply
        pure (around.secondReply, secondResponse)
      | none => pure (around.firstReply, response)
    else pure (around.firstReply, response)
  relayImages env reply upstream

end Failover

end OpenAiLb
