import OpenAiLb.AuditRecords
import OpenAiLb.CallEvents

/-!
# Calls, their responses and the audit queue

Calls run side by side, and their messages meet in the audit queue. A response passes
through the compression layer to the transport recorder, which counts what it yields to
the client and sends a second message when the layer reports the end of the body. What
the layer makes of the body is not part of the repository: it polls the body of the
handler and yields chunks as it likes.
-/

namespace OpenAiLb

open Stoppable

/-- The body is streamed. -/
def ResponseBody.isStream : ResponseBody → Bool
  | .bytes _ => false
  | .stream _ => true

/-- The body has nothing more to give. -/
def ResponseBody.ended : ResponseBody → Bool
  | .bytes _ => true
  | .stream relay => relay.ended

/-- The handler returned a streamed body. -/
def Handled.streams (handled : Handled) : Bool :=
  match handled.result with
  | .ok response => response.body.isStream
  | .error _ => false

/-- A response on its way to the client. -/
structure Delivery where
  transportId : Option AuditTransportId
  /-- The body that the compression layer reads. -/
  body : ResponseBody
  /-- The bytes that the outermost stream has yielded: `bytes` of the recorder. -/
  yielded : ℕ

/-- How a call ended. -/
inductive CallEnding where
  /-- Without a response of the handler: an error, or a panic. -/
  | unanswered
  /-- The outermost stream was read to its end; `recorded` says whether the queue took the message
  of the recorder. -/
  | completed (yielded : ℕ) (recorded : Bool)
  /-- The client went away before. -/
  | disconnected (yielded : ℕ)
  deriving DecidableEq

/-- The state of a call. -/
inductive CallPhase where
  | handling (call : HandlerCall)
  | delivering (call : HandlerCall) (delivery : Delivery)
  | over (call : HandlerCall) (streamed : Bool) (ending : CallEnding)

/-- The calls, the audit, and what happened so far. -/
structure CallNode where
  audit : AuditNode
  calls : List CallPhase
  /-- Every message that was ever put into the queue, in order. -/
  log : List QueuedAudit
  history : List AuditEffect

/-- One step of a call, or another step of the audit. -/
inductive CallStep where
  | audit (step : AuditStep)
  /-- `AuditTracker::begin` of an authenticated call. -/
  | begin (identity : ℕ) (call : HandlerCall)
  /-- The handler runs from there to its end. It touches the queue at most once, at its end. -/
  | handle (call : ℕ) (answers : RouteAnswers)
  /-- The compression layer polls the body of the handler. -/
  | poll (call : ℕ) (item : UpstreamItem) (now : ℕ)
  /-- The outermost stream yields a chunk, or an error. -/
  | yield (call : ℕ) (chunk : Option (List UInt8))
  /-- The layer reports the end of the body; `headers` are those of the response. -/
  | complete (call : ℕ) (headers : HeaderMap)
  /-- The client goes away, and the streams are dropped. -/
  | disconnect (call : ℕ) (now : ℕ)

namespace CallNode

/-- Before the first call. -/
structure Started (s : CallNode) : Prop where
  audit : s.audit.Started
  calls : s.calls = []
  log : s.log = []
  history : s.history = []

/-- The position of the tracker of an event. -/
def trackerOf (s : CallNode) (id : String) : ℕ :=
  s.audit.trackers.findIdx fun begun => begun.id = id

/-- An event is sent on the reserved place of its call. -/
def send (s : CallNode) (queued : QueuedEvent) : Option CallNode :=
  (s.audit.step (.send (s.trackerOf queued.event.id) queued.event)).map fun audit =>
    { s with audit := audit, log := s.log ++ [.event queued.event] }

/-- A reservation is given back unused. -/
def release (s : CallNode) (call : HandlerCall) : CallNode :=
  if call.reservations.queue then
    { s with
      audit := { s.audit with trackers := s.audit.trackers.eraseIdx (s.trackerOf call.eventId) } }
  else s

/-- A call goes on to the next phase. -/
def enter (s : CallNode) (i : ℕ) (phase : CallPhase) : CallNode :=
  { s with calls := s.calls.set i phase }

/-- Send what a call has given up, and go on to the next phase. The place of an abandoned
reservation is free again. -/
def conclude (s : CallNode) (i : ℕ) (call : HandlerCall) (sent : List QueuedEvent)
    (abandoned : Bool) (phase : CallPhase) : Option CallNode :=
  (sent.foldlM send s).map fun t => (if abandoned then t.release call else t).enter i phase

/-- The phase after the handler. -/
def answered (call : HandlerCall) : Except (Exit AppError Panic) Response → CallPhase
  | .ok response => .delivering call ⟨response.transportId, response.body, 0⟩
  | .error _ => .over call false .unanswered

/-- The handler of a call runs to its end. -/
def handle (env : ProxyEnv) (s : CallNode) (i : ℕ) (call : HandlerCall) (answers : RouteAnswers) :
    Option CallNode :=
  let handled := answers.handled env call
  s.conclude i call handled.sent (handled.sent.isEmpty && !handled.streams)
    (answered call handled.result)

/-- The message of the transport recorder. -/
def transportMessage (serde : SerdeJson) (id : AuditTransportId) (bytes : ℕ)
    (headers : HeaderMap) : QueuedAudit :=
  .responseTransport id.id bytes ((headerValue headers "content-encoding").or (some "identity"))
    (if id.diagnosticsEnabled then some (archiveHeaders serde headers) else none)

/-- `record_response_transport` of the audit writer: the message is lost if the queue is full. -/
def recordTransport (s : CallNode) (queued : QueuedAudit) : Option CallNode :=
  match queued with
  | .responseTransport id bytes encoding headers =>
    (s.audit.step (.recordResponseTransport id bytes encoding headers)).map fun audit =>
      { s with audit := audit, log := if s.audit.HasPlace then s.log ++ [queued] else s.log }
  | .event _ => none

/-- One step. -/
def step (env : ProxyEnv) (s : CallNode) : CallStep → Option CallNode
  | .audit a =>
    if a.ofCall then none
    else (s.audit.step a).map fun audit =>
      { s with audit := audit, history := s.history ++ s.audit.effects a }
  | .begin identity call =>
    if s.audit.identities[identity]? = some call.identity ∧
        call.reservations.queue = decide s.audit.HasPlace then
      (s.audit.step (.begin identity call.start call.reservations.archive)).map fun audit =>
        { s with audit := audit, calls := s.calls ++ [.handling call] }
    else none
  | .handle i answers =>
    match s.calls[i]? with
    | some (.handling call) => s.handle env i call answers
    | _ => none
  | .poll i item now =>
    match s.calls[i]? with
    | some (.delivering call ⟨id, .stream stream, yielded⟩) =>
      match stream.poll env.serde item now with
      | .ok (_, sent, next) =>
        s.conclude i call sent false (.delivering call ⟨id, .stream next, yielded⟩)
      | .error _ => s.conclude i call [] true (.over call true .unanswered)
    | _ => none
  | .yield i chunk =>
    match s.calls[i]? with
    | some (.delivering call ⟨id, body, yielded⟩) =>
      some (s.enter i (.delivering call ⟨id, body, yielded + (chunk.elim 0 List.length)⟩))
    | _ => none
  | .complete i headers =>
    match s.calls[i]? with
    | some (.delivering call ⟨some id, body, yielded⟩) =>
      (s.recordTransport (transportMessage env.serde id yielded headers)).map fun t =>
        t.enter i (.over call body.isStream (.completed yielded (decide s.audit.HasPlace)))
    | some (.delivering call ⟨none, body, yielded⟩) =>
      some (s.enter i (.over call body.isStream (.completed yielded false)))
    | _ => none
  | .disconnect i now =>
    match s.calls[i]? with
    | some (.delivering call ⟨_, .bytes _, yielded⟩) =>
      some (s.enter i (.over call false (.disconnected yielded)))
    | some (.delivering call ⟨_, .stream stream, yielded⟩) =>
      match stream.drop now with
      | .ok sent => s.conclude i call sent false (.over call true (.disconnected yielded))
      | .error _ => s.conclude i call [] true (.over call true .unanswered)
    | _ => none

/-- A run. -/
abbrev run (env : ProxyEnv) (s : CallNode) (steps : List CallStep) : Option CallNode :=
  Transition.run (step env) s steps

/-- The state after a run. -/
abbrev after (env : ProxyEnv) (s : CallNode) (steps : List CallStep) : CallNode :=
  Transition.after (step env) s steps

/-- **What the compression layer promises**: it reports the end of the body only after the stream
that it reads has ended. -/
def LayerEndsLast (s : CallNode) : CallStep → Prop
  | .complete i _ =>
    match s.calls[i]? with
    | some (.delivering _ delivery) => delivery.body.ended = true
    | _ => True
  | _ => True

instance (s : CallNode) (a : CallStep) : Decidable (s.LayerEndsLast a) := by
  unfold LayerEndsLast
  split
  · split <;> infer_instance
  · infer_instance

end CallNode

end OpenAiLb
