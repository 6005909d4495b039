import OpenAiLb.Balancer
import OpenAiLb.Custody
import OpenAiLb.Library.Stoppable

/-!
# The handlers of API calls

`handle_json` and `handle_audio` with everything that they await given as an answer: an
answer can be a value or an error, the call can be cancelled while it waits, and the
awaited code can panic. The state of a handler is the tracker, the events that were
sent, and the requests that went upstream. A streamed response leaves the handler as a
stream that the client polls.
-/

namespace OpenAiLb

open Stoppable

/-- Why an awaited call gives no value. -/
inductive Interrupt where
  | failed (error : AppError)
  /-- The client went away, and the handler is dropped. -/
  | cancelled
  | panicked
  deriving DecidableEq

/-- What an awaited call gives. -/
abbrev Answer (α : Type) := Except Interrupt α

/-- A request that was handed to the HTTP client. -/
structure UpstreamRequest where
  providerId : String
  headers : HeaderMap
  body : List UInt8
  deriving DecidableEq

/-- The state of a handler. -/
structure HandlerState where
  audit : AuditTracker
  sent : List QueuedEvent
  requests : List UpstreamRequest

/-- A computation of a handler. -/
abbrev Handler := EStateM (Exit AppError Panic) HandlerState

/-- How an interrupted wait ends the handler: `?` returns the error. -/
def Interrupt.exit : Interrupt → Exit AppError Panic
  | failed error => .error error
  | cancelled => .cancelled
  | panicked => .panicked .elsewhere

/-- `.await?`. -/
def ask {α : Type} (answer : Answer α) : Handler α := await (answer.mapError Interrupt.exit)

/-- A synchronous computation that can panic. -/
def unwinding {α : Type} (result : Except Panic α) : Handler α :=
  await (result.mapError Exit.panicked)

/-- Call a setter of the tracker. -/
def track (f : AuditTracker → AuditTracker) : Handler Unit :=
  modify fun s => { s with audit := f s.audit }

/-- `AuditTransportId`. -/
structure AuditTransportId where
  id : String
  diagnosticsEnabled : Bool
  deriving DecidableEq

/-- `AuditTransportId` of an event. -/
def AuditEvent.transportId (event : AuditEvent) : AuditTransportId :=
  ⟨event.id, event.requestArchive⟩

/-- `AuditTracker::finish`. -/
def finish (status : ℕ) (model : Option String) (usage : Usage) (error : Option String)
    (now : ℕ) : Handler (Option AuditTransportId) := do
  let s ← get
  match s.audit.event with
  | none => return none
  | some event =>
    set { s with audit := s.audit.taken }
    let event ← unwinding (settle event status model usage error (elapsedMs s.audit.started now))
    let queued ← unwinding (s.audit.deliver event)
    set { s with audit := s.audit.emptied, sent := s.sent ++ [queued] }
    return some event.transportId

/-- `reqwest::Response` before its body is read. -/
structure LiveResponse where
  status : ℕ
  version : Version
  headers : HeaderMap

/-- `BufferedUpstream`. -/
structure BufferedUpstream extends LiveResponse where
  body : List UInt8

/-- `UpstreamResponse`. -/
inductive UpstreamResponse where
  | live (response : LiveResponse)
  | buffered (response : BufferedUpstream)

namespace UpstreamResponse

/-- The status, the version and the headers. -/
def head : UpstreamResponse → LiveResponse
  | live response => response
  | buffered response => response.toLiveResponse

/-- `matches!(upstream, UpstreamResponse::Live(_))`. -/
def isLive : UpstreamResponse → Bool
  | live _ => true
  | buffered _ => false

/-- `into_bytes`; `body` is what reading a live response gives. -/
def intoBytes (body : Answer (List UInt8)) : UpstreamResponse → Answer (List UInt8)
  | live _ => body
  | buffered response => .ok response.body

end UpstreamResponse

/-- `StatusCode::is_success`. -/
def isSuccess (status : ℕ) : Bool := 200 ≤ status && status < 300

/-- `retryable`. -/
def retryable (status : ℕ) : Bool :=
  status = 401 || status = 403 || status = 429 || (500 ≤ status && status < 600)

/-- What the code uses of libraries, and the functions that this module does not look into. -/
structure ProxyEnv where
  serde : SerdeJson
  affinityHash : String → String
  /-- `transform_request`. -/
  transformRequest : String → Option Value → Except AppError (List UInt8)
  /-- `http::response::Builder` accepts the status and the headers. -/
  accepts : ℕ → List (String × HeaderValue) → Bool

/-- What the stream of a live response gives next. -/
inductive UpstreamItem where
  | chunk (bytes : List UInt8)
  | failed
  | finished

/-- The body stream of `relay_response`. -/
structure RelayStream where
  completion : StreamCompletion
  pending : List UInt8
  /-- The stream has returned its end. -/
  ended : Bool

namespace RelayStream

/-- One turn of the loop, or the end of the stream: the chunk that is yielded, the events that
are sent, and the stream. -/
def poll (serde : SerdeJson) (stream : RelayStream) (item : UpstreamItem) (now : ℕ) :
    Except Panic (Option (List UInt8) × List QueuedEvent × RelayStream) :=
  if stream.ended then .ok (none, [], stream)
  else
    match item with
    | .chunk bytes =>
      let (pending, completion) := stream.completion.captureSse serde stream.pending bytes
      .ok (some bytes, [], { stream with pending := pending, completion := completion })
    | .failed => (stream.completion.finish true now).map fun sent =>
      (none, sent, { stream with completion := stream.completion.finished, ended := true })
    | .finished => (stream.completion.finish false now).map fun sent =>
      (none, sent, { stream with completion := stream.completion.finished, ended := true })

/-- The stream is dropped, and its guard with it. -/
def drop (stream : RelayStream) (now : ℕ) : Except Panic (List QueuedEvent) :=
  stream.completion.drop now

end RelayStream

/-- `Body` of a response. -/
inductive ResponseBody where
  | bytes (body : List UInt8)
  | stream (stream : RelayStream)

/-- A response with the extension that the transport recorder reads. -/
structure Response where
  status : ℕ
  headers : List (String × HeaderValue)
  body : ResponseBody
  transportId : Option AuditTransportId

/-- Dropping a body that was never polled. -/
def dropBody (body : ResponseBody) (now : ℕ) : Handler Unit :=
  match body with
  | .bytes _ => pure ()
  | .stream stream => do
    let sent ← unwinding (stream.drop now)
    modify fun s => { s with sent := s.sent ++ sent }

/-- `build_response`. A body that cannot be sent is dropped. -/
def buildResponse (env : ProxyEnv) (status : ℕ) (headers : List (String × HeaderValue))
    (body : ResponseBody) (transportId : Option AuditTransportId) (now : ℕ) :
    Handler Response :=
  if env.accepts status headers then return ⟨status, headers, body, transportId⟩
  else do
    dropBody body now
    throw (.error ⟨500, "failed to build response"⟩)

/-- `CallContext`. -/
structure CallContext where
  model : Option String
  stream : Bool

/-- What the end of a handler waits for, and the clock that it reads. -/
structure RelayAnswers where
  /-- The body of a live response, read as a whole. -/
  body : Answer (List UInt8)
  firstByteAt : ℕ
  finishedAt : ℕ
  /-- `chrono::Utc::now().timestamp()`. -/
  created : Int

/-- `error_from`. -/
def errorFrom (serde : SerdeJson) (status : ℕ) (bytes : List UInt8) : Option String :=
  if isSuccess status then none
  else
    ((serde.fromSlice bytes).bind fun v => (v.pointer ["error", "message"]).bind Value.asStr).or
      (some ("upstream HTTP " ++ toString status))

/-- The response is relayed as a stream. -/
def CallContext.streams (context : CallContext) (upstream : UpstreamResponse) : Bool :=
  context.stream && isSuccess upstream.head.status && upstream.isLive

/-- `relay_response` for a stream: the guard takes over from the tracker. -/
def relayStream (env : ProxyEnv) (context : CallContext) (upstream : UpstreamResponse)
    (answers : RelayAnswers) : Handler Response := do
  let headers := filteredResponseHeaders upstream.head.headers
  let headers :=
    if headers.any fun header => header.1 = "content-type" then headers
    else headers ++ [("content-type", .fromStatic "text/event-stream")]
  let s ← get
  let transportId := s.audit.event.map AuditEvent.transportId
  set { s with audit := s.audit.emptied }
  let completion := s.audit.takeStream upstream.head.status context.model
  buildResponse env upstream.head.status headers (.stream ⟨completion, [], false⟩) transportId
    answers.finishedAt

/-- `relay_response` for anything else: the event is sent before the response is built. -/
def relayBytes (env : ProxyEnv) (context : CallContext) (upstream : UpstreamResponse)
    (answers : RelayAnswers) : Handler Response := do
  let bytes ← ask (upstream.intoBytes answers.body)
  track (.setResponseSize bytes.length)
  track (.setResponseBody bytes false)
  let transportId ← finish upstream.head.status context.model (.fromBytes env.serde bytes)
    (errorFrom env.serde upstream.head.status bytes) answers.finishedAt
  buildResponse env upstream.head.status (filteredResponseHeaders upstream.head.headers)
    (.bytes bytes) transportId answers.finishedAt

/-- `relay_response`. -/
def relayResponse (env : ProxyEnv) (context : CallContext) (upstream : UpstreamResponse)
    (answers : RelayAnswers) : Handler Response := do
  track (.markFirstByte answers.firstByteAt)
  track (.setUpstreamHttpVersion upstream.head.version)
  track (.setCompressionHeaders .new (some upstream.head.headers))
  track (.setResponseHeaders env.serde upstream.head.headers)
  if context.streams upstream then relayStream env context upstream answers
  else relayBytes env context upstream answers

section Images

/-- `item.get("type") == Some("image_generation_call")`. -/
def isImageCall (item : Value) : Bool :=
  (item.get "type").bind Value.asStr = some "image_generation_call"

/-- `str::lines`. A carriage return goes with the line feed that follows it. -/
def lines (text : List Char) : List (List Char) :=
  let pieces := text.splitOn '\n'
  (pieces.dropLast.map fun line =>
    if line.getLast? = some '\r' then line.dropLast else line) ++
      (pieces.getLast?.filter fun line => line ≠ []).toList

/-- One line of the event stream of an image call. -/
def imageLine (serde : SerdeJson) (found : List Value × Usage) (line : List Char) :
    List Value × Usage :=
  if "data: ".toList.isPrefixOf line then
    (serde.fromSlice (asBytes (String.ofList (line.drop 6)))).elim found fun event =>
      let kind := (event.get "type").bind Value.asStr
      let items :=
        if kind = some "response.output_item.done" then
          found.1 ++ ((event.get "item").filter isImageCall).toList
        else found.1
      let items :=
        if kind = some "response.completed" && items.isEmpty then
          (((event.pointer ["response", "output"]).bind Value.asArray).getD []).filter isImageCall
        else items
      (items, found.2.merge (.fromValue event))
  else found

/-- The image that an item carries. -/
def imageData (item : Value) : Option Value :=
  ((item.get "result").bind Value.asStr).map fun result =>
    .object [("b64_json", .string result),
      ("revised_prompt", (item.get "revised_prompt").getD .null)]

/-- `images_from_sse`. -/
def imagesFromSse (serde : SerdeJson) (bytes : List UInt8) :
    Except AppError (List Value × Usage) :=
  match String.fromUTF8? ⟨bytes.toArray⟩ with
  | none => .error (.upstream 502 "invalid image event stream")
  | some text =>
    let (items, usage) := (lines text.toList).foldl (imageLine serde) ([], .zero)
    let data := items.filterMap imageData
    if data = [] then .error (.upstream 502 "upstream did not return image data")
    else .ok (data, usage)

end Images

/-- `image_response`. -/
def imageResponse (env : ProxyEnv) (context : CallContext) (upstream : UpstreamResponse)
    (answers : RelayAnswers) : Handler Response := do
  track (.markFirstByte answers.firstByteAt)
  track (.setUpstreamHttpVersion upstream.head.version)
  if isSuccess upstream.head.status then
    track (.setResponseHeaders env.serde upstream.head.headers)
    let bytes ← ask (upstream.intoBytes answers.body)
    let (images, usage) ← await ((imagesFromSse env.serde bytes).mapError Exit.error)
    let envelope := asBytes (env.serde.toString (.object
      [("created", .number (.integer answers.created)), ("data", .array images),
        ("usage", usage.toValue)]))
    track (.setResponseSize envelope.length)
    track (.setResponseHeaders env.serde AuditTracker.jsonHeaders)
    track (.setResponseBody envelope false)
    let transportId ← finish upstream.head.status context.model usage none answers.finishedAt
    buildResponse env 200 AuditTracker.jsonHeaders.iter (.bytes envelope) transportId
      answers.finishedAt
  else relayResponse env context upstream answers

end OpenAiLb
