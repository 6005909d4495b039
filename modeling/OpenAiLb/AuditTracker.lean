import OpenAiLb.AuditWriter
import OpenAiLb.Oauth
import OpenAiLb.Usage

/-!
# The tracker of a call

Between its beginning and its end, a call owns a place in the audit queue, perhaps a
share of the archive memory, and the event that will be sent. The tracker of the handler
holds the three; for a streamed response they move on to the guard of the stream. Both
send the event once, when they finish or when they are dropped.
-/

namespace OpenAiLb

/-- `AuditReservation`: a reserved place in the audit queue. -/
structure AuditReservation where
  deriving DecidableEq

/-- `OwnedSemaphorePermit`, with the number of permits that it gives back. -/
structure OwnedSemaphorePermit where
  permits : ℕ
  deriving DecidableEq

/-- `QueuedAudit::Event`, with the share of the archive memory that travels along. -/
structure QueuedEvent where
  event : AuditEvent
  archiveBudget : Option OwnedSemaphorePermit
  deriving DecidableEq

/-- `AuditReservation::send`: the reservation is used up. -/
def AuditReservation.send (_permit : AuditReservation) (event : AuditEvent)
    (archiveBudget : Option OwnedSemaphorePermit) : QueuedEvent := ⟨event, archiveBudget⟩

/-- `ARCHIVE_BODY_LIMIT`. -/
def archiveBodyLimit : ℕ := 1024 * 1024

/-- `ARCHIVE_RESERVATION_BYTES`. -/
def archiveReservationBytes : ℕ := archiveBodyLimit * 2 + 16 * 1024

/-- `started.elapsed().as_millis().max(1)`, on clock readings in milliseconds. -/
def elapsedMs (started now : ℕ) : Int := max ((now - started : ℕ) : Int) 1

/-- `body_preview`. -/
def bodyPreview (body : List UInt8) : List UInt8 × Bool :=
  (body.take archiveBodyLimit, archiveBodyLimit < body.length)

/-- `Version` of the HTTP protocol. -/
inductive Version where
  | http09
  | http10
  | http11
  | http2
  | http3
  | other
  deriving DecidableEq

/-- The text that `set_upstream_http_version` stores. -/
def Version.text : Version → String
  | http09 => "HTTP/0.9"
  | http10 => "HTTP/1.0"
  | http11 => "HTTP/1.1"
  | http2 => "HTTP/2"
  | http3 => "HTTP/3"
  | other => "unknown"

/-- The call of an event goes on: its identity and its transport size are those of `begun`. -/
def AuditEvent.Ongoing (begun event : AuditEvent) : Prop :=
  begun.SameCall event ∧ event.responseTransportBytes = begun.responseTransportBytes

/-- `settle`. -/
def settle (event : AuditEvent) (status : Int) (model : Option String) (usage : Usage)
    (error : Option String) (elapsed : Int) : Except Panic AuditEvent :=
  (model.elim (.ok none) fun model => costUsdNanos model usage).map fun cost =>
    { event with
      status := status
      model := model
      latencyMs := elapsed
      inputTokens := usage.inputTokens
      outputTokens := usage.outputTokens
      cachedTokens := usage.cachedTokens
      costUsdNanos := cost
      error := error }

/-- What a call owns of the audit: the three fields that its tracker and its stream share. -/
structure Custody where
  permit : Option AuditReservation
  archiveBudget : Option OwnedSemaphorePermit
  event : Option AuditEvent
  deriving DecidableEq

/-- Take the place, which must still be there, and send the event. -/
def Custody.deliver (custody : Custody) (event : AuditEvent) : Except Panic QueuedEvent :=
  match custody.permit with
  | some permit => .ok (permit.send event custody.archiveBudget)
  | none => .error .reservedOnce

/-- Take the event, settle it and send it. Without an event nothing is sent. -/
def Custody.conclude (custody : Custody) (settled : AuditEvent → Except Panic AuditEvent) :
    Except Panic (List QueuedEvent) :=
  match custody.event with
  | none => .ok []
  | some event =>
    (settled event).bind fun event => (custody.deliver event).map fun sent => [sent]

/-- `AuditTracker`. -/
structure AuditTracker extends Custody where
  started : ℕ

/-- The outcomes of the two reservations of `AuditTracker::begin`. -/
structure Reservations where
  /-- `try_reserve`. -/
  queue : Bool
  /-- `try_reserve_archive`. -/
  archive : Bool

namespace AuditTracker

/-- `AuditTracker::begin`. -/
def begin (reservations : Reservations) (identity : ApiIdentity) (call : CallStart)
    (started : ℕ) : AuditTracker :=
  let permit := if reservations.queue then some AuditReservation.mk else none
  let archiveBudget :=
    if permit.isSome && identity.requestArchive then
      if reservations.archive then some (OwnedSemaphorePermit.mk archiveReservationBytes) else none
    else none
  { permit := permit
    archiveBudget := archiveBudget
    event := permit.map fun _ => .begin call identity archiveBudget.isSome
    started := started }

/-- `if let Some(event) = &mut self.event`. -/
def update (f : AuditEvent → AuditEvent) (audit : AuditTracker) : AuditTracker :=
  { audit with event := audit.event.map f }

/-- The same, for an event whose diagnostics are archived. -/
def updateArchived (f : AuditEvent → AuditEvent) : AuditTracker → AuditTracker :=
  update fun event => if event.requestArchive then f event else event

/-- `set_provider`. -/
def setProvider (providerId : String) : AuditTracker → AuditTracker :=
  update fun event => { event with providerId := some providerId }

/-- `set_affinity`. -/
def setAffinity (affinityHash : String → String) (key source : Option String) :
    AuditTracker → AuditTracker :=
  update fun event =>
    { event with affinityHash := key.map affinityHash, affinitySource := source }

/-- `set_reasoning_effort`. -/
def setReasoningEffort (effort : Option String) : AuditTracker → AuditTracker :=
  update fun event => { event with reasoningEffort := effort }

/-- `set_request`. -/
def setRequest (serde : SerdeJson) (headers : HeaderMap) (body : List UInt8) (truncated : Bool) :
    AuditTracker → AuditTracker :=
  updateArchived fun event =>
    { event with
      requestHeadersJson := archiveHeaders serde headers
      requestBody := (bodyPreview body).1
      requestBodyTruncated := truncated || (bodyPreview body).2 }

/-- `set_compression_headers`. -/
def setCompressionHeaders (downstream : HeaderMap) (upstream : Option HeaderMap) :
    AuditTracker → AuditTracker :=
  update fun event =>
    { event with
      downstreamAcceptEncoding :=
        if downstream.isEmpty then event.downstreamAcceptEncoding
        else headerValue downstream "accept-encoding"
      upstreamContentEncoding :=
        upstream.elim event.upstreamContentEncoding fun upstream =>
          headerValue upstream "content-encoding" }

/-- `set_upstream_accept_encoding`. -/
def setUpstreamAcceptEncoding (headers : HeaderMap) : AuditTracker → AuditTracker :=
  update fun event =>
    { event with
      upstreamAcceptEncoding :=
        (headerValue headers "accept-encoding").or (some "auto (gzip, br, zstd, deflate)") }

/-- `set_response_headers`. -/
def setResponseHeaders (serde : SerdeJson) (headers : HeaderMap) : AuditTracker → AuditTracker :=
  updateArchived fun event =>
    { event with responseHeadersJson := some (archiveHeaders serde headers) }

/-- `set_upstream_http_version`. -/
def setUpstreamHttpVersion (version : Version) : AuditTracker → AuditTracker :=
  update fun event => { event with upstreamHttpVersion := some version.text }

/-- `set_upstream_request_headers`. -/
def setUpstreamRequestHeaders (serde : SerdeJson) (headers : HeaderMap) :
    AuditTracker → AuditTracker :=
  updateArchived fun event =>
    { event with upstreamRequestHeadersJson := some (archiveHeaders serde headers) }

/-- `mark_first_byte`. -/
def markFirstByte (now : ℕ) (audit : AuditTracker) : AuditTracker :=
  audit.update fun event =>
    { event with
      firstByteLatencyMs := event.firstByteLatencyMs.or (some (elapsedMs audit.started now)) }

/-- `set_request_size`. -/
def setRequestSize (bytes : Int) : AuditTracker → AuditTracker :=
  update fun event => { event with requestBytes := bytes, requestTransportBytes := bytes }

/-- `set_response_size`. -/
def setResponseSize (bytes : Int) : AuditTracker → AuditTracker :=
  update fun event => { event with responseBytes := bytes, responseTransportBytes := bytes }

/-- `set_response_body`. -/
def setResponseBody (body : List UInt8) (truncated : Bool) : AuditTracker → AuditTracker :=
  updateArchived fun event =>
    { event with
      responseBody := some (bodyPreview body).1
      responseBodyTruncated := truncated || (bodyPreview body).2 }

/-- The body of an error response, with its keys in order. -/
def errorBody (serde : SerdeJson) (error : AppError) : List UInt8 :=
  asBytes (serde.toString (.object [("error", .object
    [("code", .number (.integer error.status)), ("message", .string error.message),
      ("type", .string "proxy_error")])]))

/-- The header that JSON responses of the proxy carry. -/
def jsonHeaders : HeaderMap := HeaderMap.new.insert "content-type" (.fromStatic "application/json")

/-- `set_error_response`. -/
def setErrorResponse (serde : SerdeJson) (error : AppError) (audit : AuditTracker) :
    AuditTracker :=
  let body := errorBody serde error
  ((audit.setResponseSize body.length).setResponseHeaders serde jsonHeaders).setResponseBody
    body false

/-- The tracker after the event was taken out of it. -/
def taken (audit : AuditTracker) : AuditTracker := { audit with event := none }

/-- The tracker after all three were taken out of it. -/
def emptied (audit : AuditTracker) : AuditTracker :=
  { audit with permit := none, archiveBudget := none, event := none }

/-- `AuditTracker::drop`: the event that is sent, if there is one. -/
def drop (audit : AuditTracker) (now : ℕ) : Except Panic (List QueuedEvent) :=
  audit.conclude fun event =>
    settle { event with responseBodyTruncated := true } 499 none .zero (some "client_cancelled")
      (elapsedMs audit.started now)

end AuditTracker

/-- `StreamingPreview`. -/
structure StreamingPreview where
  body : List UInt8
  truncated : Bool
  bytes : Int

namespace StreamingPreview

/-- `StreamingPreview::default`. -/
def empty : StreamingPreview := ⟨[], false, 0⟩

/-- `StreamingPreview::capture`. -/
def capture (preview : StreamingPreview) (bytes : List UInt8) : StreamingPreview :=
  let copied := min (archiveBodyLimit - preview.body.length) bytes.length
  { body := preview.body ++ bytes.take copied
    truncated := preview.truncated || copied < bytes.length
    bytes := preview.bytes + bytes.length }

end StreamingPreview

/-- `StreamCompletion`: the guard of a streamed response. -/
structure StreamCompletion extends Custody where
  started : ℕ
  usage : Usage
  responsePreview : StreamingPreview
  responseBytes : Int

namespace StreamCompletion

/-- `StreamCompletion::new`. -/
def new (custody : Custody) (started : ℕ) : StreamCompletion where
  toCustody := custody
  started := started
  usage := .zero
  responsePreview := .empty
  responseBytes := 0

/-- `capture_sse`: the new `pending` and the guard. -/
def captureSse (serde : SerdeJson) (completion : StreamCompletion) (pending bytes : List UInt8) :
    List UInt8 × StreamCompletion :=
  match completion.event with
  | none => (pending, completion)
  | some event =>
    let (pending, usage) := updateSseUsage serde pending bytes completion.usage
    (pending,
      { completion with
        usage := usage
        responseBytes := completion.responseBytes + bytes.length
        responsePreview :=
          if event.requestArchive then completion.responsePreview.capture bytes
          else completion.responsePreview })

/-- `StreamCompletion::finish`: the event that is sent, if there is one. -/
def finish (completion : StreamCompletion) (failed : Bool) (now : ℕ) :
    Except Panic (List QueuedEvent) :=
  completion.conclude fun event =>
    settle
      { event with
        responseBody := some completion.responsePreview.body
        responseBodyTruncated := completion.responsePreview.truncated || failed
        responseBytes := completion.responseBytes }
      (if failed then 502 else event.status) event.model completion.usage
      (if failed then some "upstream_stream_error" else none) (elapsedMs completion.started now)

/-- The guard after it finished. -/
def finished (completion : StreamCompletion) : StreamCompletion :=
  { completion with
    permit := none
    archiveBudget := none
    event := none
    responsePreview := { completion.responsePreview with body := [] } }

/-- `StreamCompletion::drop`: the event that is sent, if there is one. -/
def drop (completion : StreamCompletion) (now : ℕ) : Except Panic (List QueuedEvent) :=
  completion.conclude fun event =>
    settle
      { event with
        responseBody := some completion.responsePreview.body
        responseBodyTruncated := true
        responseBytes := completion.responseBytes }
      499 event.model completion.usage (some "client_cancelled")
      (elapsedMs completion.started now)

end StreamCompletion

/-- `AuditTracker::take_stream`. -/
def AuditTracker.takeStream (audit : AuditTracker) (status : ℕ) (model : Option String) :
    StreamCompletion :=
  .new (audit.update fun event => { event with status := status, model := model }).toCustody
    audit.started

end OpenAiLb
