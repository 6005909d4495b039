import OpenAiLb.HeaderSecrecy
import OpenAiLb.Library.Shares

/-!
# The memory of the archives

A call whose diagnostics are archived acquires a fixed share of the archive memory when its
audit begins, before anything is known of its headers and bodies. The share travels with
the event through the tracker, the stream, the queue and the batch of the writer, and is
given back when the batch is committed. The bodies are cut at their limit, the headers are
not.
-/

namespace OpenAiLb

/-- `QUEUE_BYTE_CAPACITY`. -/
def queueByteCapacity : ℕ := 64 * 1024 * 1024

/-- `Semaphore`: the permits that are free. -/
structure Semaphore where
  permits : ℕ
  deriving DecidableEq

namespace Semaphore

/-- `try_acquire_many_owned`. -/
def tryAcquireMany (budget : Semaphore) (n : ℕ) : Option (OwnedSemaphorePermit × Semaphore) :=
  if n ≤ budget.permits then some (⟨n⟩, ⟨budget.permits - n⟩) else none

/-- `OwnedSemaphorePermit::drop`, for a permit that may be there. -/
def release (budget : Semaphore) (permit : Option OwnedSemaphorePermit) : Semaphore :=
  ⟨budget.permits + permit.elim 0 OwnedSemaphorePermit.permits⟩

/-- What was acquired is no longer free. -/
theorem permits_of_tryAcquireMany {budget : Semaphore} {n : ℕ}
    {taken : OwnedSemaphorePermit × Semaphore} (h : budget.tryAcquireMany n = some taken) :
    taken.2.permits + n = budget.permits := by
  unfold tryAcquireMany at h
  split at h
  · next hle =>
    cases h
    exact Nat.sub_add_cancel hle
  · cases h

end Semaphore

/-- The fields of an event that its archive is made of. -/
structure ArchivedPayload where
  requestArchive : Bool
  requestHeadersJson : String
  requestBody : List UInt8
  upstreamRequestHeadersJson : Option String
  responseHeadersJson : Option String
  responseBody : Option (List UInt8)
  deriving DecidableEq

/-- What an event holds for its archive. -/
def AuditEvent.payload (event : AuditEvent) : ArchivedPayload :=
  ⟨event.requestArchive, event.requestHeadersJson, event.requestBody,
    event.upstreamRequestHeadersJson, event.responseHeadersJson, event.responseBody⟩

namespace ArchivedPayload

/-- The bytes of the three header texts and the two bodies. -/
def bytes (payload : ArchivedPayload) : ℕ :=
  payload.requestHeadersJson.utf8ByteSize + payload.requestBody.length +
    payload.upstreamRequestHeadersJson.elim 0 String.utf8ByteSize +
    payload.responseHeadersJson.elim 0 String.utf8ByteSize +
    (payload.responseBody.getD []).length

/-- Nothing but the placeholders of `AuditTracker::begin`. A stream leaves an empty body. -/
structure Bare (payload : ArchivedPayload) : Prop where
  requestHeaders : payload.requestHeadersJson = "[]"
  requestBody : payload.requestBody = []
  upstreamRequestHeaders : payload.upstreamRequestHeadersJson = none
  responseHeaders : payload.responseHeadersJson = none
  responseBody : payload.responseBody.getD [] = []

end ArchivedPayload

/-- What was handed to the archive of a call: headers, and the lengths of the bodies. -/
structure Handed where
  headers : CallHeaders
  request : ℕ
  response : ℕ

namespace Handed

/-- Nothing was handed over. -/
def none : Handed := ⟨.none, 0, 0⟩

/-- What a setter hands over replaces what was handed over before. -/
def perform (handed : Handed) (update : TrackerUpdate) : Handed where
  headers := handed.headers.handOver update
  request :=
    match update with
    | .request _ body _ => body.length
    | _ => handed.request
  response :=
    match update with
    | .responseBody body _ => body.length
    | _ => handed.response

/-- A chunk of a stream adds to the body of the response. -/
def capture (handed : Handed) (bytes : List UInt8) : Handed :=
  { handed with response := handed.response + bytes.length }

/-- The bytes of the three header texts. -/
def headerBytes (serde : SerdeJson) (handed : Handed) : ℕ :=
  ((handed.headers.request.map (archiveHeaders serde)).getD "[]").utf8ByteSize +
    (handed.headers.upstreamRequest.map (archiveHeaders serde)).elim 0 String.utf8ByteSize +
    (handed.headers.response.map (archiveHeaders serde)).elim 0 String.utf8ByteSize

/-- The header texts fit into what the reservation adds to the two body limits, and into what the
bodies leave unused of these. -/
def Fits (serde : SerdeJson) (handed : Handed) : Prop :=
  handed.headerBytes serde ≤
    16 * 1024 + (archiveBodyLimit - handed.request) + (archiveBodyLimit - handed.response)

end Handed

/-- Where the event of a call is. -/
inductive ArchivePhase where
  /-- With the tracker of the handler. -/
  | tracked (audit : AuditTracker)
  /-- With the guard of a streamed response, which has read the bytes `pending` of a line. -/
  | streamed (completion : StreamCompletion) (pending : List UInt8)
  /-- In the queue. -/
  | queued (queued : QueuedEvent)
  /-- In the batch of the writer. -/
  | written (queued : QueuedEvent)
  | gone

namespace ArchivePhase

/-- The share of the archive memory that the owner of the event holds. -/
def budget : ArchivePhase → Option OwnedSemaphorePermit
  | .tracked audit => audit.archiveBudget
  | .streamed completion _ => completion.archiveBudget
  | .queued sent | .written sent => sent.archiveBudget
  | .gone => none

/-- The event. -/
def event : ArchivePhase → Option AuditEvent
  | .tracked audit => audit.event
  | .streamed completion _ => completion.event
  | .queued sent | .written sent => some sent.event
  | .gone => none

/-- The part of a streamed body that is not in the event yet. -/
def preview : ArchivePhase → List UInt8
  | .streamed completion _ => completion.responsePreview.body
  | _ => []

/-- All bytes that are held for the archive. -/
def bytes (phase : ArchivePhase) : ℕ :=
  (phase.event.elim 0 fun event => event.payload.bytes) + phase.preview.length

/-- A place in the queue is reserved or taken. -/
def place : ArchivePhase → ℕ
  | .tracked audit => audit.permit.elim 0 fun _ => 1
  | .streamed completion _ => completion.permit.elim 0 fun _ => 1
  | .queued _ => 1
  | .written _ | .gone => 0

/-- A place in the batch of the writer is taken. -/
def batched : ArchivePhase → ℕ
  | .written _ => 1
  | _ => 0

/-- The permits of the share. -/
def permits (phase : ArchivePhase) : ℕ := phase.budget.elim 0 OwnedSemaphorePermit.permits

end ArchivePhase

/-- A call, with what was handed to its archive. -/
structure ArchivingCall where
  phase : ArchivePhase
  handed : Handed

/-- The archive memory and all calls. -/
structure ArchiveNode where
  budget : Semaphore
  calls : List ArchivingCall

/-- One step of a call or of the writer. -/
inductive ArchiveStep where
  /-- `AuditTracker::begin`; `queue` says whether `try_reserve` finds a place, whatever else takes
  places. -/
  | begin (queue : Bool) (identity : ApiIdentity) (call : CallStart) (started : ℕ)
  /-- A setter of the tracker. `set_error_response` is three of them. -/
  | perform (i : ℕ) (update : TrackerUpdate)
  /-- `AuditTracker::finish`. -/
  | finish (i : ℕ) (status : Int) (model : Option String) (usage : Usage)
      (error : Option String) (now : ℕ)
  | takeStream (i : ℕ) (status : ℕ) (model : Option String)
  /-- `capture_sse`. -/
  | capture (i : ℕ) (bytes : List UInt8)
  /-- `StreamCompletion::finish`. -/
  | finishStream (i : ℕ) (failed : Bool) (now : ℕ)
  /-- The tracker or the guard of the stream is dropped. -/
  | drop (i : ℕ) (now : ℕ)
  /-- The writer takes the event into its batch. -/
  | receive (i : ℕ)
  /-- The batch was committed and its event is dropped. -/
  | discard (i : ℕ)

namespace ArchiveNode

/-- Nothing has begun. -/
def start : ArchiveNode := ⟨⟨queueByteCapacity⟩, []⟩

/-- The places of the queue that calls have reserved or taken. -/
def places (s : ArchiveNode) : ℕ := Shares.total (fun call => call.phase.place) s.calls

/-- The events in the batch of the writer. -/
def batched (s : ArchiveNode) : ℕ := Shares.total (fun call => call.phase.batched) s.calls

/-- All bytes that are held for archives. -/
def bytes (s : ArchiveNode) : ℕ := Shares.total (fun call => call.phase.bytes) s.calls

/-- A call goes on to the next phase. -/
def enter (s : ArchiveNode) (i : ℕ) (phase : ArchivePhase) (handed : Handed) : ArchiveNode :=
  { s with calls := s.calls.set i ⟨phase, handed⟩ }

/-- The owner of an event ends. The event is sent with its share; without an event, and when a
panic unwinds, the share is given back. -/
def leave (s : ArchiveNode) (i : ℕ) (handed : Handed) (budget : Option OwnedSemaphorePermit)
    (sent : Except Panic (List QueuedEvent)) : ArchiveNode :=
  match sent with
  | .ok [queued] => s.enter i (.queued queued) handed
  | _ => { s.enter i .gone handed with budget := s.budget.release budget }

/-- The call at a position. -/
def call (s : ArchiveNode) (i : ℕ) : Option ArchivingCall := s.calls[i]?

/-- A call begins. -/
def begin (s : ArchiveNode) (queue : Bool) (identity : ApiIdentity) (call : CallStart)
    (started : ℕ) : ArchiveNode :=
  let acquired := s.budget.tryAcquireMany archiveReservationBytes
  let audit := AuditTracker.begin ⟨queue, acquired.isSome⟩ identity call started
  { budget := if audit.archiveBudget.isSome then acquired.elim s.budget Prod.snd else s.budget
    calls := s.calls ++ [⟨.tracked audit, .none⟩] }

/-- Execute a step. -/
def step (serde : SerdeJson) (s : ArchiveNode) : ArchiveStep → Option ArchiveNode
  | .begin queue identity call started =>
    if queue && ¬ s.places < queueCapacity then none
    else some (s.begin queue identity call started)
  | .perform i update =>
    match s.call i with
    | some ⟨.tracked audit, handed⟩ =>
      some (s.enter i (.tracked (audit.perform serde update)) (handed.perform update))
    | _ => none
  | .finish i status model usage error now =>
    match s.call i with
    | some ⟨.tracked audit, handed⟩ =>
      some (s.leave i handed audit.archiveBudget (audit.conclude fun event =>
        settle event status model usage error (elapsedMs audit.started now)))
    | _ => none
  | .takeStream i status model =>
    match s.call i with
    | some ⟨.tracked audit, handed⟩ =>
      -- No handler archives the body of a response that it streams.
      if audit.event.all fun event => event.responseBody.isNone then
        some (s.enter i (.streamed (audit.takeStream status model) []) handed)
      else none
    | _ => none
  | .capture i bytes =>
    match s.call i with
    | some ⟨.streamed completion pending, handed⟩ =>
      let captured := completion.captureSse serde pending bytes
      some (s.enter i (.streamed captured.2 captured.1) (handed.capture bytes))
    | _ => none
  | .finishStream i failed now =>
    match s.call i with
    | some ⟨.streamed completion _, handed⟩ =>
      some (s.leave i handed completion.archiveBudget (completion.finish failed now))
    | _ => none
  | .drop i now =>
    match s.call i with
    | some ⟨.tracked audit, handed⟩ =>
      some (s.leave i handed audit.archiveBudget (audit.drop now))
    | some ⟨.streamed completion _, handed⟩ =>
      some (s.leave i handed completion.archiveBudget (completion.drop now))
    | _ => none
  | .receive i =>
    match s.call i with
    | some ⟨.queued queued, handed⟩ =>
      if s.batched < batchCapacity then some (s.enter i (.written queued) handed) else none
    | _ => none
  | .discard i =>
    match s.call i with
    | some ⟨.written queued, handed⟩ =>
      some { s.enter i .gone handed with budget := s.budget.release queued.archiveBudget }
    | _ => none

end ArchiveNode

end OpenAiLb
