import OpenAiLb.FailoverRuns
import OpenAiLb.StreamedUsage

/-!
# Content codings

The client's `Accept-Encoding` goes upstream as it is, so the upstream may answer in any
coding that the client knows. The HTTP client of the proxy decodes a response by the
`Content-Encoding` that came with it, in the codings that it was built with. A body in
another coding reaches the proxy as the upstream has coded it, and everything that the proxy
reads from bodies is then read from the coded bytes.
-/

namespace OpenAiLb

section Headers

namespace HeaderMap

/-- `HeaderMap::get_all`. -/
def getAll (headers : HeaderMap) (name : String) : List HeaderValue :=
  (headers.entries.lookup name).getD []

end HeaderMap

end Headers

/-- The content codings other than `identity`. -/
structure ContentCodings (Coding : Type) where
  /-- A body in this coding. -/
  encode : Coding → List UInt8 → List UInt8
  /-- An `Accept-Encoding` with these values allows the coding. -/
  permits : List HeaderValue → Coding → Bool

/-- A body as it is sent, in a coding or in none. -/
def ContentCodings.sent {Coding : Type} (codings : ContentCodings Coding) (coding : Option Coding)
    (body : List UInt8) : List UInt8 :=
  coding.elim body fun c => codings.encode c body

/-- The HTTP client that the proxy sends its requests with. -/
structure HttpClient (Coding : Type) where
  /-- The codings that it is built with, which are gzip, br, zstd and deflate. -/
  decodes : Coding → Bool
  /-- What it hands over of the bytes of a response, by the headers of the request and the coding
  that the response names. -/
  handedOver : HeaderMap → Option Coding → List UInt8 → List UInt8

section Client

variable {Coding : Type}

/-- The coding of a response is none, or one that the request allows. The HTTP client adds an
`Accept-Encoding` to a request that has none, with the codings that it is built with. -/
def HttpClient.Allows (client : HttpClient Coding) (codings : ContentCodings Coding)
    (outgoing : HeaderMap) (coding : Option Coding) : Prop :=
  ∀ c, coding = some c →
    if outgoing.getAll "accept-encoding" = [] then client.decodes c = true
    else codings.permits (outgoing.getAll "accept-encoding") c = true

/-- The coding of a response is none, or one that the HTTP client decodes. -/
def HttpClient.Reads (client : HttpClient Coding) (coding : Option Coding) : Prop :=
  ∀ c, coding = some c → client.decodes c = true

/-- The headers that a request goes upstream with. -/
def outgoingHeaders (path : String) (lease : Lease) (inbound : HeaderMap)
    (openaiBeta : Option String) : HeaderMap :=
  if path = "/v1/audio/transcriptions" then transcriptionHeaders lease inbound
  else jsonRequestHeaders path lease inbound openaiBeta

end Client

section Accounting

/-- A response as the HTTP client hands it over. -/
structure DeliveredResponse where
  head : LiveResponse
  chunks : List (List UInt8)

namespace DeliveredResponse

/-- The body, read to its end. -/
def bytes (delivery : DeliveredResponse) : List UInt8 := delivery.chunks.flatten

/-- The delivery as the reply of a provider. -/
def reply (delivery : DeliveredResponse) : Reply := ⟨delivery.head, some delivery.bytes⟩

/-- The observations that `track_response` makes of the reports. -/
def observations (delivery : DeliveredResponse) (serde : SerdeJson) (providerId circuitId : String)
    (now : Int) : List ProviderUpdate :=
  (delivery.reply.reports providerId).map fun report =>
    trackResponse serde now circuitId report.status report.body

/-- The guard of the stream, once every chunk went through it. -/
def guard (delivery : DeliveredResponse) (serde : SerdeJson) (audit : AuditTracker)
    (model : Option String) : StreamCompletion :=
  ((audit.takeStream delivery.head.status model).captureAll serde delivery.chunks).2

/-- The end of `handle_console_image_generation` after `track_upstream`. -/
def consoleImages (delivery : DeliveredResponse) (env : ProxyEnv) : Dispatcher Unit Value := do
  let upstream ← orError delivery.reply.tracked
  Failover.relayImages env delivery.reply upstream

end DeliveredResponse

/-- The usage and the cost that a settled event records. -/
def recorded (settled : Except Panic AuditEvent) : Except Panic (Int × Int × Int × Option Int) :=
  settled.map fun event =>
    (event.inputTokens, event.outputTokens, event.cachedTokens, event.costUsdNanos)

/-- What is recorded depends on the usage and the model. -/
theorem recorded_settle (event : AuditEvent) (status : Int) (model : Option String) (usage : Usage)
    (error : Option String) (elapsed : Int) :
    recorded (settle event status model usage error elapsed) =
      (model.elim (.ok none) fun model => costUsdNanos model usage).map fun cost =>
        (usage.inputTokens, usage.outputTokens, usage.cachedTokens, cost) := by
  unfold recorded settle
  cases hcost : (model.elim (.ok none) fun model => costUsdNanos model usage) with
  | error panic => rfl
  | ok cost => rfl

/-- The proxy makes the same of two deliveries, whatever the calls are that they belong to. -/
structure SameAccounting (env : ProxyEnv) (first second : DeliveredResponse) : Prop where
  /-- `usage_from_bytes`, for a response that is relayed as a whole. -/
  relayed : ∀ event event' status status' model error error' elapsed elapsed',
    recorded (settle event status model (.fromBytes env.serde first.bytes) error elapsed) =
      recorded (settle event' status' model (.fromBytes env.serde second.bytes) error' elapsed')
  /-- `update_sse_usage`, for a response that is relayed as a stream. The chunks may differ as long
  as no line outgrows the buffer. -/
  streamed : (first.chunks = second.chunks ∨ FitsBuffer first.bytes ∧ FitsBuffer second.bytes) →
    ∀ audit audit' : AuditTracker, audit.event ≠ none → audit'.event ≠ none →
    ∀ event event' status status' model error error' elapsed elapsed',
      recorded (settle event status model (first.guard env.serde audit model).usage error elapsed) =
        recorded (settle event' status' model (second.guard env.serde audit' model).usage error'
          elapsed')
  /-- `track_response`, for a limit. -/
  observed : ∀ providerId circuitId now,
    first.observations env.serde providerId circuitId now =
      second.observations env.serde providerId circuitId now
  /-- `images_from_sse`. -/
  images : imagesFromSse env.serde first.bytes = imagesFromSse env.serde second.bytes
  /-- `error_from`, and the answer of the console. -/
  error : errorFrom env.serde first.head.status first.bytes =
    errorFrom env.serde second.head.status second.bytes
  consoleImages : first.consoleImages env = second.consoleImages env

end Accounting

section Law

variable {Coding : Type} {client : HttpClient Coding} {codings : ContentCodings Coding}
  {env : ProxyEnv} {path : String} {lease : Lease} {openaiBeta : Option String}
  {inbound inbound' : HeaderMap}

/-- Two responses with the same status and the same body, the one in the first coding and the other
in the second, are accounted for in the same way. -/
def SameInCodings (client : HttpClient Coding) (codings : ContentCodings Coding) (env : ProxyEnv)
    (outgoing outgoing' : HeaderMap) (coding coding' : Option Coding) : Prop :=
  ∀ (body : List UInt8) (first second : DeliveredResponse),
    first.head.status = second.head.status →
    first.bytes = client.handedOver outgoing coding (codings.sent coding body) →
    second.bytes = client.handedOver outgoing' coding' (codings.sent coding' body) →
    SameAccounting env first second

/-- A response with status 200 that arrives in one chunk. -/
def DeliveredResponse.whole (bytes : List UInt8) : DeliveredResponse :=
  ⟨⟨200, .http11, .new⟩, [bytes]⟩

/-- The bytes of a response in one chunk are that chunk. -/
theorem DeliveredResponse.bytes_whole (bytes : List UInt8) : (whole bytes).bytes = bytes := by
  simp [whole, DeliveredResponse.bytes]

/-- What a response that is relayed as a whole records shows its usage. -/
theorem SameAccounting.inputTokens {first second : DeliveredResponse}
    (h : SameAccounting env first second) :
    (Usage.fromBytes env.serde first.bytes).inputTokens =
      (Usage.fromBytes env.serde second.bytes).inputTokens := by
  let event : AuditEvent := .begin ⟨"", "", none, "", "", "", 0⟩ ⟨"", "", false⟩ false
  have hrecorded := h.relayed event event 0 0 none none none 0 0
  rw [recorded_settle, recorded_settle] at hrecorded
  simp only [Option.elim_none, Except.map, Except.ok.injEq, Prod.mk.injEq] at hrecorded
  exact hrecorded.1

/-- So does what is handed over of a body in two codings, if both are accounted for alike. -/
theorem SameInCodings.inputTokens {outgoing outgoing' : HeaderMap} {coding coding' : Option Coding}
    (h : SameInCodings client codings env outgoing outgoing' coding coding') (body : List UInt8) :
    (Usage.fromBytes env.serde
        (client.handedOver outgoing coding (codings.sent coding body))).inputTokens =
      (Usage.fromBytes env.serde
        (client.handedOver outgoing' coding' (codings.sent coding' body))).inputTokens := by
  have hsame := h body (.whole (client.handedOver outgoing coding (codings.sent coding body)))
    (.whole (client.handedOver outgoing' coding' (codings.sent coding' body))) rfl
    (DeliveredResponse.bytes_whole _) (DeliveredResponse.bytes_whole _)
  have htokens := hsame.inputTokens
  rwa [DeliveredResponse.bytes_whole, DeliveredResponse.bytes_whole] at htokens

end Law

section Samples

/-- A JSON text with a usage. -/
def usageText : List UInt8 := asBytes "\x7b\"usage\":\x7b\"input_tokens\":1\x7d\x7d"

/-- An environment that parses the text. -/
def usageEnv : ProxyEnv where
  serde :=
    { fromSlice := fun bytes =>
        if bytes = usageText then
          some (.object [("usage", .object [("input_tokens", .number (.integer 1))])])
        else none
      toString := fun _ => "" }
  affinityHash := id
  transformRequest _ _ := .ok []
  accepts _ _ := true

/-- A lease of the provider that answers. -/
def usageLease : Lease where
  provider :=
    { id := "p", name := "name", accountId := "account", accessToken := "access"
      refreshToken := "refresh", expiresAt := none, status := .active, manualDisabled := false
      cooldownUntil := none, rateLimitJson := none, lastError := none, lastUsedAt := none
      createdAt := 10, updatedAt := 10, ownerId := none }
  accessToken := "access"
  refreshToken := "refresh"

/-- A client that leaves the coding to the HTTP client of the proxy. -/
def plainClient : HeaderMap := .new

end Samples

end OpenAiLb
