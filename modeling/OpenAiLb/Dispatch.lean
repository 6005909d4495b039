import OpenAiLb.Handlers

/-!
# Dispatching an API call

Choosing a provider, sending the request, trying a second provider once, and relaying
what came back: `dispatch` for JSON bodies and `dispatch_audio` for uploads, and the
handlers around them, from the reservation of the audit to the drop of the tracker.
-/

namespace OpenAiLb

open Stoppable

/-- One selection of a provider and the refresh of its credential. -/
structure Selection where
  /-- `Balancer::select`. -/
  selected : Answer Lease
  /-- `refresh_if_needed`, which updates the lease. -/
  refreshed : Answer Lease

/-- One request to a provider. -/
structure Attempt where
  /-- `spool.body()`, for an upload. -/
  upload : Answer (List UInt8)
  /-- `upstream_openai_beta` of the configuration. -/
  openaiBeta : Option String
  /-- `RequestBuilder::build`. -/
  built : Answer Unit
  /-- `Client::execute`. -/
  executed : Answer LiveResponse
  /-- The body of a response with status 429. -/
  buffered : Answer (List UInt8)
  /-- `track_response`. -/
  tracked : Answer Unit

/-- What a dispatcher waits for. -/
structure DispatchAnswers where
  first : Selection
  /-- The second selection of `select_ready_provider`. -/
  fallback : Selection
  firstAttempt : Attempt
  retry : Selection
  secondAttempt : Attempt
  relay : RelayAnswers

/-- `select_ready_provider`. -/
def selectReadyProvider (first fallback : Selection) : Handler Lease := do
  let _ ← ask first.selected
  match first.refreshed with
  | .ok lease => return lease
  | .error (.failed _) => do
    let _ ← ask fallback.selected
    ask fallback.refreshed
  | .error interrupt => throw interrupt.exit

/-- `retry_provider`: an error becomes no provider. -/
def retryProvider (retry : Selection) : Handler (Option Lease) :=
  let outcome : Answer Lease := retry.selected.bind fun _ => retry.refreshed
  match outcome with
  | .ok lease => return some lease
  | .error (.failed _) => return none
  | .error interrupt => throw interrupt.exit

/-- The inbound headers that are forwarded. -/
def forwardedHeaders (path : String) (inbound : HeaderMap) : HeaderMap :=
  (inbound.iter.filter fun (name, _) => shouldForwardRequestHeader path name).foldl
    (fun headers (name, value) => headers.append name value) .new

/-- The two headers that every provider asks for. -/
def withCredential (lease : Lease) (headers : HeaderMap) : HeaderMap :=
  (headers.append "authorization" (.fromStatic ("Bearer " ++ lease.accessToken))).append
    "chatgpt-account-id" (.fromStatic lease.provider.accountId)

/-- `TRANSCRIPTION_ORIGINATOR`. -/
def transcriptionOriginator : String := "Codex Desktop"

/-- `TRANSCRIPTION_USER_AGENT`. -/
def transcriptionUserAgent : String := "Codex Desktop/26.519.81530 (macos; aarch64)"

/-- The headers of `transcription_request`. -/
def transcriptionHeaders (lease : Lease) (inbound : HeaderMap) : HeaderMap :=
  ((withCredential lease (forwardedHeaders "/v1/audio/transcriptions" inbound)).append
    "originator" (.fromStatic transcriptionOriginator)).append "user-agent"
      (.fromStatic transcriptionUserAgent)

/-- The headers of a JSON request upstream. -/
def jsonRequestHeaders (path : String) (lease : Lease) (inbound : HeaderMap)
    (openaiBeta : Option String) : HeaderMap :=
  let headers := (withCredential lease (forwardedHeaders path inbound)).append "content-type"
    (.fromStatic "application/json")
  openaiBeta.elim headers fun beta => headers.append "openai-beta" (.fromStatic beta)

/-- The end of `send_upstream`: build the request, note its headers, and execute it. -/
def executeRequest (env : ProxyEnv) (lease : Lease) (headers : HeaderMap) (body : List UInt8)
    (attempt : Attempt) : Handler LiveResponse := do
  ask attempt.built
  track (.setUpstreamRequestHeaders env.serde headers)
  modify fun s => { s with requests := s.requests ++ [⟨lease.provider.id, headers, body⟩] }
  ask attempt.executed

/-- `send_upstream`. -/
def sendUpstream (env : ProxyEnv) (lease : Lease) (path : String) (inbound : HeaderMap)
    (body : List UInt8) (attempt : Attempt) : Handler LiveResponse :=
  if path = "/v1/audio/transcriptions" then
    executeRequest env lease (transcriptionHeaders lease inbound) body attempt
  else do
    track (.setUpstreamAcceptEncoding inbound)
    executeRequest env lease (jsonRequestHeaders path lease inbound attempt.openaiBeta) body
      attempt

/-- `track_upstream`: a response with status 429 is read as a whole. -/
def trackUpstream (response : LiveResponse) (attempt : Attempt) : Handler UpstreamResponse :=
  if response.status = 429 then do
    let body ← ask attempt.buffered
    ask attempt.tracked
    return .buffered { response with body := body }
  else do
    ask attempt.tracked
    return .live response

/-- One request and what its response says about the provider. -/
def attemptUpstream (env : ProxyEnv) (lease : Lease) (path : String) (inbound : HeaderMap)
    (body : List UInt8) (attempt : Attempt) : Handler UpstreamResponse := do
  let response ← sendUpstream env lease path inbound body attempt
  trackUpstream response attempt

/-- A request as it reaches a handler. -/
structure Inbound where
  method : String
  path : String
  headers : HeaderMap
  body : List UInt8
  clientIp : String

/-- The path of the image route. -/
def imagesPath : String := "/v1/images/generations"

/-- The beginning of `dispatch`: the response that will be relayed. -/
def obtainUpstream (env : ProxyEnv) (inbound : Inbound) (parsed : Option Value)
    (answers : DispatchAnswers) : Handler UpstreamResponse := do
  let payload ← await ((env.transformRequest inbound.path parsed).mapError Exit.error)
  let first ← selectReadyProvider answers.first answers.fallback
  track (.setProvider first.provider.id)
  let response ←
    attemptUpstream env first inbound.path inbound.headers payload answers.firstAttempt
  if retryable response.head.status then
    match ← retryProvider answers.retry with
    | some second => do
      track (.setProvider second.provider.id)
      let payload ← await ((env.transformRequest inbound.path parsed).mapError Exit.error)
      attemptUpstream env second inbound.path inbound.headers payload answers.secondAttempt
    | none => return response
  else return response

/-- The `model` of a JSON request. -/
def requestedModel (parsed : Option Value) : Option String :=
  (parsed.bind fun value => value.get "model").bind Value.asStr

/-- The `stream` flag of a JSON request. -/
def requestedStream (parsed : Option Value) : Bool :=
  ((parsed.bind fun value => value.get "stream").bind Value.asBool).getD false

/-- `reasoning_effort`. -/
def reasoningEffort (request : Value) : Option String :=
  ((request.pointer ["reasoning", "effort"]).bind Value.asStr).or
    ((request.get "reasoning_effort").bind Value.asStr)

/-- Note the affinity of a call. -/
def trackAffinity (env : ProxyEnv) (identity : ApiIdentity) (key : Option AffinityKey) :
    Handler Unit :=
  track (.setAffinity env.affinityHash
    (key.map fun key => identity.consumerId ++ ":" ++ key.value) (key.map AffinityKey.source))

/-- `dispatch`. -/
def dispatch (env : ProxyEnv) (inbound : Inbound) (identity : ApiIdentity)
    (answers : DispatchAnswers) : Handler Response := do
  let parsed := env.serde.fromSlice inbound.body
  track (.setReasoningEffort (parsed.bind reasoningEffort))
  trackAffinity env identity (affinityKey inbound.headers parsed)
  let upstream ← obtainUpstream env inbound parsed answers
  let context : CallContext := ⟨requestedModel parsed, requestedStream parsed⟩
  if inbound.path = imagesPath then imageResponse env context upstream answers.relay
  else relayResponse env context upstream answers.relay

/-- `AudioSpool`, as far as the audit reads it. -/
structure AudioSpool where
  preview : List UInt8
  previewTruncated : Bool
  bytes : Int

/-- What `dispatch_audio` waits for. -/
structure AudioAnswers extends DispatchAnswers where
  /-- `AudioSpool::create`. -/
  spool : Answer AudioSpool

/-- The beginning of `dispatch_audio`: the response that will be relayed. -/
def obtainTranscription (env : ProxyEnv) (inbound : Inbound) (answers : AudioAnswers) :
    Handler UpstreamResponse := do
  let first ← selectReadyProvider answers.first answers.fallback
  track (.setProvider first.provider.id)
  let upload ← ask answers.firstAttempt.upload
  let response ←
    attemptUpstream env first inbound.path inbound.headers upload answers.firstAttempt
  if retryable response.head.status then
    match ← retryProvider answers.retry with
    | some second => do
      track (.setProvider second.provider.id)
      let upload ← ask answers.secondAttempt.upload
      attemptUpstream env second inbound.path inbound.headers upload answers.secondAttempt
    | none => return response
  else return response

/-- `dispatch_audio`. -/
def dispatchAudio (env : ProxyEnv) (inbound : Inbound) (identity : ApiIdentity)
    (answers : AudioAnswers) : Handler Response := do
  trackAffinity env identity (affinityKey inbound.headers none)
  let spool ← ask answers.spool
  track (.setRequest env.serde inbound.headers spool.preview spool.previewTruncated)
  track (.setRequestSize spool.bytes)
  let upstream ← obtainTranscription env inbound answers
  relayResponse env ⟨none, false⟩ upstream answers.relay

/-- The end of the two handlers: an error is recorded if the event was not sent yet. -/
def recordingErrors (env : ProxyEnv) (finishedAt : ℕ) (x : Handler Response) :
    Handler Response :=
  tryCatch x fun exit =>
    match exit with
    | .error error => do
      let s ← get
      if s.audit.event.isSome then
        track (.setErrorResponse env.serde error)
        let _ ← finish error.status none .zero (some error.message) finishedAt
      throw exit
    | _ => throw exit

/-- A handler call: what it gets, what it obtains, and what it waits for. -/
structure HandlerCall where
  inbound : Inbound
  identity : ApiIdentity
  /-- The ids from `Uuid::new_v4`. -/
  eventId : String
  auditId : String
  /-- `chrono::Utc::now().timestamp()` of `AuditTracker::begin`. -/
  createdAt : Int
  reservations : Reservations
  startedAt : ℕ
  finishedAt : ℕ
  droppedAt : ℕ

namespace HandlerCall

/-- The arguments of `AuditTracker::begin`. -/
def start (call : HandlerCall) : CallStart where
  eventId := call.eventId
  auditId := call.auditId
  threadId := threadId call.inbound.headers
  method := call.inbound.method
  path := call.inbound.path
  clientIp := call.inbound.clientIp
  now := call.createdAt

/-- The tracker at the beginning of the handler. -/
def tracker (call : HandlerCall) : AuditTracker :=
  .begin call.reservations call.identity call.start call.startedAt

/-- What `AuditTracker::begin` obtained. -/
def reservation (call : HandlerCall) : Option Reservation :=
  call.reservations.reservation call.identity call.start

end HandlerCall

/-- `handle_json`, from the beginning of the audit to its last line. -/
def handleJsonBody (env : ProxyEnv) (call : HandlerCall) (answers : DispatchAnswers) :
    Handler Response := do
  track (.setRequest env.serde call.inbound.headers call.inbound.body false)
  track (.setCompressionHeaders call.inbound.headers none)
  track (.setRequestSize call.inbound.body.length)
  recordingErrors env call.finishedAt (dispatch env call.inbound call.identity answers)

/-- `handle_audio`, from the beginning of the audit to its last line. -/
def handleAudioBody (env : ProxyEnv) (call : HandlerCall) (answers : AudioAnswers) :
    Handler Response := do
  track (.setRequest env.serde call.inbound.headers [] true)
  track (.setCompressionHeaders call.inbound.headers none)
  recordingErrors env call.finishedAt (dispatchAudio env call.inbound call.identity answers)

/-- What a handler leaves behind once its tracker is dropped. -/
structure Handled where
  result : Except (Exit AppError Panic) Response
  sent : List QueuedEvent
  requests : List UpstreamRequest
  /-- A panic while the tracker was dropped. -/
  dropPanic : Option Panic

/-- Run a handler and drop its tracker, however it ends. -/
def Handler.runToEnd (body : Handler Response) (call : HandlerCall) : Handled :=
  let leave (result : Except (Exit AppError Panic) Response) (s : HandlerState) : Handled :=
    match s.audit.drop call.droppedAt with
    | .ok sent => ⟨result, s.sent ++ sent, s.requests, none⟩
    | .error panic => ⟨result, s.sent, s.requests, some panic⟩
  match body ⟨call.tracker, [], []⟩ with
  | .ok response s => leave (.ok response) s
  | .error exit s => leave (.error exit) s

/-- `handle_json` for an authenticated call. -/
def handleJson (env : ProxyEnv) (call : HandlerCall) (answers : DispatchAnswers) : Handled :=
  (handleJsonBody env call answers).runToEnd call

/-- `handle_audio` for an authenticated call. -/
def handleAudio (env : ProxyEnv) (call : HandlerCall) (answers : AudioAnswers) : Handled :=
  (handleAudioBody env call answers).runToEnd call

end OpenAiLb
