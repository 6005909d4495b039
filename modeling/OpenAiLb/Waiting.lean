import OpenAiLb.Dispatch

/-!
# What a call waits for

Until it relays a response, a call does nothing but wait and take notes. So each of its
steps keeps what the call owns, and whether a response is relayed at all, and which one,
is decided by the answers that the call gets. `Waits` says both of a computation at once.
-/

namespace OpenAiLb

open Stoppable

section Waiting

variable {α β : Type}

/-- The exits that waiting can bring: everything but a panic of the handler's own code. -/
def Mundane (exit : Exit AppError Panic) : Prop :=
  ∀ panic, exit = .panicked panic → panic = .elsewhere

/-- An interruption is no panic of the handler's own code. -/
theorem Interrupt.mundane (interrupt : Interrupt) : Mundane interrupt.exit := by
  intro panic h
  cases interrupt with
  | failed | cancelled => cases h
  | panicked =>
    cases h
    rfl

/-- The computation keeps `keeps` and gives the value, or it is interrupted if there is none. -/
def Waits (keeps : HandlerState → Prop) (x : Handler α) (value : Option α) : Prop :=
  Ensures keeps x (fun a s => value = some a ∧ keeps s)
    fun exit s => value = none ∧ Mundane exit ∧ keeps s

namespace Waits

variable {keeps : HandlerState → Prop}

/-- Returning a value gives the value. -/
theorem pure (a : α) : Waits keeps (Pure.pure a) (some a) :=
  ensures_pure fun _ hs => ⟨rfl, hs⟩

/-- A sequence gives what its second part gives, if the first one gives a value. -/
theorem bind {x : Handler α} {f : α → Handler β} {value : Option α} {next : α → Option β}
    (hx : Waits keeps x value) (hf : ∀ a, value = some a → Waits keeps (f a) (next a)) :
    Waits keeps (x >>= f) (value.bind next) := by
  have hexit : ∀ (exit : Exit AppError Panic) (s : HandlerState),
      value = none ∧ Mundane exit ∧ keeps s → value.bind next = none ∧ Mundane exit ∧ keeps s := by
    rintro exit s ⟨rfl, hmundane, hs⟩
    exact ⟨rfl, hmundane, hs⟩
  refine (hx.imp (fun s hs => hs) (fun a s h => h) hexit).bind fun a => ?_
  refine Ensures.of_pre fun s ⟨hvalue, hs⟩ => ?_
  subst hvalue
  exact (hf a rfl).imp (fun t ht => ht ▸ hs) (fun b t h => h) fun exit t h => h

/-- Waiting for an answer gives the answer, if there is one. -/
theorem ask (answer : Answer α) : Waits keeps (OpenAiLb.ask answer) answer.toOption := by
  refine ensures_await (fun a s h hs => ?_) fun exit s h hs => ?_
  · cases answer with
    | ok b =>
      cases h
      exact ⟨rfl, hs⟩
    | error interrupt => cases h
  · cases answer with
    | ok b => cases h
    | error interrupt =>
      cases h
      exact ⟨rfl, interrupt.mundane, hs⟩

/-- A check that the handler makes itself. -/
theorem check (result : Except AppError α) :
    Waits keeps (await (result.mapError Exit.error)) result.toOption := by
  refine ensures_await (fun a s h hs => ?_) fun exit s h hs => ?_
  · cases result with
    | ok b =>
      cases h
      exact ⟨rfl, hs⟩
    | error error => cases h
  · cases result with
    | ok b => cases h
    | error error =>
      cases h
      exact ⟨rfl, (fun _ h => by cases h), hs⟩

/-- An interruption gives nothing. -/
theorem interrupt (interrupt : Interrupt) :
    Waits keeps (throw interrupt.exit : Handler α) none :=
  ensures_throw fun _ hs => ⟨rfl, interrupt.mundane, hs⟩

/-- Taking notes does not interrupt the call. -/
theorem track {f : AuditTracker → AuditTracker}
    (hf : ∀ s, keeps s → keeps { s with audit := f s.audit }) :
    Waits keeps (OpenAiLb.track f) (some ()) :=
  ensures_modify fun s hs => ⟨rfl, hf s hs⟩

end Waits

end Waiting

section Upstream

/-- The lease of a selection, if both waits give one. -/
def Selection.lease? (selection : Selection) : Option Lease :=
  selection.selected.toOption.bind fun _ => selection.refreshed.toOption

/-- The lease that `select_ready_provider` gives. -/
def Selection.ready? (first fallback : Selection) : Option Lease :=
  first.selected.toOption.bind fun _ =>
    match first.refreshed with
    | .ok lease => some lease
    | .error (.failed _) => fallback.lease?
    | .error _ => none

/-- What `retry_provider` gives. -/
def Selection.retried? (retry : Selection) : Option (Option Lease) :=
  match retry.selected.bind fun _ => retry.refreshed with
  | .ok lease => some (some lease)
  | .error (.failed _) => some none
  | .error _ => none

/-- The response of one request, if it comes. -/
def Attempt.response? (attempt : Attempt) : Option UpstreamResponse :=
  attempt.built.toOption.bind fun _ =>
    attempt.executed.toOption.bind fun response =>
      if response.status = 429 then
        attempt.buffered.toOption.bind fun body =>
          attempt.tracked.toOption.bind fun _ => some (.buffered { response with body := body })
      else attempt.tracked.toOption.bind fun _ => some (.live response)

variable {env : ProxyEnv} {inbound : Inbound} {keeps : HandlerState → Prop}

/-- The steps that a call takes before it relays a response keep `keeps`. -/
structure KeptWhileWaiting (keeps : HandlerState → Prop) : Prop where
  update : ∀ (f : AuditEvent → AuditEvent), (∀ event : AuditEvent, event.Ongoing (f event)) →
    ∀ s, keeps s → keeps { s with audit := s.audit.update f }
  request : ∀ request s, keeps s → keeps { s with requests := s.requests ++ [request] }

/-- A setter of the tracker that leaves the identity and the transport size of the event alone. -/
theorem KeptWhileWaiting.track {β : Type} (h : KeptWhileWaiting keeps)
    {f : AuditEvent → AuditEvent} {rest : Handler β} {value : Option β}
    (hf : ∀ event : AuditEvent, event.Ongoing (f event)) (hrest : Waits keeps rest value) :
    Waits keeps (OpenAiLb.track (.update f) >>= fun _ => rest) value :=
  (Waits.track (h.update f hf)).bind fun _ _ => hrest

/-- A note in the archive does not either. -/
theorem KeptWhileWaiting.trackArchived {β : Type} (h : KeptWhileWaiting keeps)
    {f : AuditEvent → AuditEvent} {rest : Handler β} {value : Option β}
    (hf : ∀ event : AuditEvent, event.Ongoing (f event)) (hrest : Waits keeps rest value) :
    Waits keeps (OpenAiLb.track (.updateArchived f) >>= fun _ => rest) value := by
  refine h.track (fun event => ?_) hrest
  split
  · exact hf event
  · exact AuditEvent.Ongoing.rfl

/-- Choosing a provider gives the one that is ready. -/
theorem waits_selectReadyProvider (first fallback : Selection) :
    Waits keeps (selectReadyProvider first fallback) (first.ready? fallback) := by
  refine (Waits.ask _).bind fun _ _ => ?_
  cases first.refreshed with
  | ok lease => exact Waits.pure lease
  | error interrupt =>
    cases interrupt with
    | failed error => exact (Waits.ask _).bind fun _ _ => Waits.ask _
    | cancelled => exact Waits.interrupt .cancelled
    | panicked => exact Waits.interrupt .panicked

/-- Choosing another provider gives one or none. -/
theorem waits_retryProvider (retry : Selection) :
    Waits keeps (retryProvider retry) retry.retried? := by
  unfold retryProvider Selection.retried?
  cases retry.selected.bind fun _ => retry.refreshed with
  | ok lease => exact Waits.pure (some lease)
  | error interrupt =>
    cases interrupt with
    | failed error => exact Waits.pure none
    | cancelled => exact Waits.interrupt .cancelled
    | panicked => exact Waits.interrupt .panicked

/-- Executing a request gives the response, if the request can be built. -/
theorem waits_executeRequest (h : KeptWhileWaiting keeps) (lease : Lease) (headers : HeaderMap)
    (body : List UInt8) (attempt : Attempt) :
    Waits keeps (executeRequest env lease headers body attempt)
      (attempt.built.toOption.bind fun _ => attempt.executed.toOption) := by
  refine (Waits.ask _).bind fun _ _ => ?_
  refine h.trackArchived (fun _ => AuditEvent.Ongoing.rfl) ?_
  have hrequest : Waits keeps
      (modify fun s : HandlerState =>
        { s with requests := s.requests ++ [⟨lease.provider.id, headers, body⟩] }) (some ⟨⟩) :=
    ensures_modify fun s hs => ⟨rfl, h.request _ s hs⟩
  exact hrequest.bind fun _ _ => Waits.ask _

/-- So does sending one with its notes. -/
theorem waits_sendUpstream (h : KeptWhileWaiting keeps) (lease : Lease) (path : String)
    (headers : HeaderMap) (body : List UInt8) (attempt : Attempt) :
    Waits keeps (sendUpstream env lease path headers body attempt)
      (attempt.built.toOption.bind fun _ => attempt.executed.toOption) := by
  unfold sendUpstream
  split
  · exact waits_executeRequest h _ _ _ _
  · refine h.track (fun _ => AuditEvent.Ongoing.rfl) ?_
    exact waits_executeRequest h _ _ _ _

/-- An attempt gives its response. -/
theorem waits_attemptUpstream (h : KeptWhileWaiting keeps) (lease : Lease) (path : String)
    (headers : HeaderMap) (body : List UInt8) (attempt : Attempt) :
    Waits keeps (attemptUpstream env lease path headers body attempt) attempt.response? := by
  have hresponse : attempt.response? =
      (attempt.built.toOption.bind fun _ => attempt.executed.toOption).bind fun response =>
        if response.status = 429 then
          attempt.buffered.toOption.bind fun body =>
            attempt.tracked.toOption.bind fun _ => some (.buffered { response with body := body })
        else attempt.tracked.toOption.bind fun _ => some (.live response) :=
    (Option.bind_assoc _ _ _).symm
  rw [hresponse]
  refine (waits_sendUpstream h _ _ _ _ _).bind fun response _ => ?_
  unfold trackUpstream
  split
  · exact (Waits.ask _).bind fun body _ => (Waits.ask _).bind fun _ _ => Waits.pure _
  · exact (Waits.ask _).bind fun _ _ => Waits.pure _

/-- The response that the answers lead to; `again` is the second request. -/
def DispatchAnswers.relayed? (answers : DispatchAnswers)
    (once again : Option UpstreamResponse) : Option UpstreamResponse :=
  (answers.first.ready? answers.fallback).bind fun _ =>
    once.bind fun response =>
      if retryable response.head.status then
        answers.retry.retried?.bind fun second => if second.isSome then again else some response
      else some response

/-- The response that `dispatch` relays. -/
def DispatchAnswers.upstream? (env : ProxyEnv) (inbound : Inbound) (answers : DispatchAnswers) :
    Option UpstreamResponse :=
  (env.transformRequest inbound.path (env.serde.fromSlice inbound.body)).toOption.bind fun _ =>
    answers.relayed? answers.firstAttempt.response? answers.secondAttempt.response?

/-- The response that `dispatch_audio` relays. -/
def AudioAnswers.upstream? (answers : AudioAnswers) : Option UpstreamResponse :=
  answers.spool.toOption.bind fun _ =>
    answers.relayed?
      (answers.firstAttempt.upload.toOption.bind fun _ => answers.firstAttempt.response?)
      (answers.secondAttempt.upload.toOption.bind fun _ => answers.secondAttempt.response?)

/-- A response that may be retried is the second one where there is a second provider. -/
theorem waits_retried (h : KeptWhileWaiting keeps) {retry : Selection}
    {response : UpstreamResponse} {again : Option UpstreamResponse}
    {send : Lease → Handler UpstreamResponse} (hsend : ∀ second, Waits keeps (send second) again) :
    Waits keeps
      (if retryable response.head.status then do
        match ← retryProvider retry with
        | some second => do
          track (.setProvider second.provider.id)
          send second
        | none => return response
      else return response)
      (if retryable response.head.status then
        retry.retried?.bind fun second => if second.isSome then again else some response
      else some response) := by
  split
  · refine (waits_retryProvider _).bind fun second _ => ?_
    cases second with
    | none => exact Waits.pure response
    | some second => exact h.track (fun _ => AuditEvent.Ongoing.rfl) (hsend second)
  · exact Waits.pure response

/-- The JSON handler relays the response that its answers lead to. -/
theorem waits_obtainUpstream (h : KeptWhileWaiting keeps) (answers : DispatchAnswers) :
    Waits keeps (obtainUpstream env inbound (env.serde.fromSlice inbound.body) answers)
      (answers.upstream? env inbound) := by
  refine (Waits.check _).bind fun payload hpayload => ?_
  refine (waits_selectReadyProvider _ _).bind fun first _ => ?_
  refine h.track (fun _ => AuditEvent.Ongoing.rfl) ?_
  refine (waits_attemptUpstream h _ _ _ _ _).bind fun response _ => ?_
  refine waits_retried h fun second => ?_
  have hsend : ∀ payload, Waits keeps
      (attemptUpstream env second inbound.path inbound.headers payload answers.secondAttempt)
      answers.secondAttempt.response? := fun payload => waits_attemptUpstream h _ _ _ _ _
  have hagain : Waits keeps _ _ := (Waits.check
    (env.transformRequest inbound.path (env.serde.fromSlice inbound.body))).bind
      fun payload _ => hsend payload
  rw [hpayload] at hagain
  exact hagain

/-- So does the handler for transcriptions. -/
theorem waits_obtainTranscription (h : KeptWhileWaiting keeps) (answers : AudioAnswers) :
    Waits keeps (obtainTranscription env inbound answers)
      (answers.relayed?
        (answers.firstAttempt.upload.toOption.bind fun _ => answers.firstAttempt.response?)
        (answers.secondAttempt.upload.toOption.bind fun _ => answers.secondAttempt.response?)) := by
  refine (waits_selectReadyProvider _ _).bind fun first _ => ?_
  refine h.track (fun _ => AuditEvent.Ongoing.rfl) ?_
  rw [Option.bind_assoc]
  refine (Waits.ask _).bind fun upload _ => ?_
  refine (waits_attemptUpstream h _ _ _ _ _).bind fun response _ => ?_
  refine waits_retried h fun second => ?_
  exact (Waits.ask _).bind fun upload _ => waits_attemptUpstream h _ _ _ _ _

end Upstream

end OpenAiLb
