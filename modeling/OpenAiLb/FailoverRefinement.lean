import OpenAiLb.FailoverRuns

/-!
# The dispatchers and their answers

In the module on dispatching, everything that a handler waits for is an answer. Here the
answers are computed from the selections and the replies, and the dispatchers turn out to be
those handlers at these answers, once the reports are forgotten.
-/

namespace OpenAiLb

open Stoppable

namespace Failover

variable {env : ProxyEnv} {around : Surroundings} {caller : Caller}

/-- The state of a handler: the reports are forgotten. -/
def handlerState (s : Dispatching Recording) : HandlerState :=
  ⟨s.own.audit, s.own.sent, s.requests⟩

/-- An error of the code as an answer. -/
def answerOf {α : Type} (result : Except AppError α) : Answer α := result.mapError .failed

/-- A selection as two answers. -/
def selectionAnswers (env : ProxyEnv) (around : Surroundings) (caller : Caller)
    (at' : SelectionAt) (excluded : Option String) : Selection where
  selected := answerOf (select env around at' caller excluded)
  refreshed := answerOf ((select env around at' caller excluded).bind fun lease =>
    refreshIfNeeded around.jwt lease at'.refresh)

/-- The answers of a call. -/
def dispatchAnswers (env : ProxyEnv) (around : Surroundings) (caller : Caller)
    (upload : List UInt8) (relay : RelayAnswers) : DispatchAnswers where
  first := selectionAnswers env around caller around.first none
  fallback := selectionAnswers env around caller around.fallback
    ((select env around around.first caller none).toOption.map fun lease => lease.provider.id)
  firstAttempt := around.firstReply.attempt around.openaiBeta upload
  retry := selectionAnswers env around caller around.retry
    ((selectReadyProvider env around caller).toOption.map fun lease => lease.provider.id)
  secondAttempt := around.secondReply.attempt around.openaiBeta upload
  relay := relay

/-- A recorded handler refines the handler. -/
theorem refines_recording {α : Type} (x : Handler α) : Refines handlerState (recording x) x := by
  intro s
  unfold recording handlerState
  cases x ⟨s.own.audit, s.own.sent, s.requests⟩ with
  | ok a t => rfl
  | error exit t => rfl

/-- `select_ready_provider`, from the result of its first selection on. -/
theorem selectReadyProvider_of_select {first : Lease}
    (h : select env around around.first caller none = .ok first) :
    selectReadyProvider env around caller =
      match refreshIfNeeded around.jwt first around.first.refresh with
      | .ok lease => .ok lease
      | .error _ =>
        (select env around around.fallback caller (some first.provider.id)).bind fun second =>
          refreshIfNeeded around.jwt second around.fallback.refresh := by
  rw [selectReadyProvider, h]
  rfl

/-- Choosing a provider with the answers of the balancer refines the choice of the handler. -/
theorem refines_selectReadyProvider (upload : List UInt8) (relay : RelayAnswers) :
    Refines handlerState (orError (selectReadyProvider env around caller))
      (OpenAiLb.selectReadyProvider (dispatchAnswers env around caller upload relay).first
        (dispatchAnswers env around caller upload relay).fallback) := by
  intro s
  unfold OpenAiLb.selectReadyProvider dispatchAnswers selectionAnswers
  dsimp only
  cases hfirst : select env around around.first caller none with
  | error error =>
    rw [selectReadyProvider, hfirst]
    rfl
  | ok first =>
    have hrefresh : (Except.ok first).bind (fun lease =>
        refreshIfNeeded around.jwt lease around.first.refresh) =
        refreshIfNeeded around.jwt first around.first.refresh := rfl
    rw [selectReadyProvider_of_select hfirst, hrefresh]
    cases refreshIfNeeded around.jwt first around.first.refresh with
    | ok lease => rfl
    | error error =>
      have hexcluded : (Except.ok first : Except AppError Lease).toOption.map
          (fun lease => lease.provider.id) = some first.provider.id := rfl
      rw [hexcluded]
      cases select env around around.fallback caller (some first.provider.id) with
      | error error => rfl
      | ok second =>
        have hrefresh' : (Except.ok second).bind (fun lease =>
            refreshIfNeeded around.jwt lease around.fallback.refresh) =
            refreshIfNeeded around.jwt second around.fallback.refresh := rfl
        dsimp only
        rw [hrefresh']
        cases refreshIfNeeded around.jwt second around.fallback.refresh with
        | ok lease => rfl
        | error error => rfl

/-- The choice of a second provider refines that of the handler. -/
theorem refines_retryProvider {first : Lease} (upload : List UInt8) (relay : RelayAnswers)
    (h : selectReadyProvider env around caller = .ok first) :
    Refines handlerState
      (pure (retryProvider env around caller first.provider.id) : Dispatcher Recording _)
      (OpenAiLb.retryProvider (dispatchAnswers env around caller upload relay).retry) := by
  intro s
  unfold retryProvider OpenAiLb.retryProvider dispatchAnswers selectionAnswers
  have hexcluded : (selectReadyProvider env around caller).toOption.map
      (fun lease => lease.provider.id) = some first.provider.id := by rw [h]; rfl
  dsimp only
  rw [hexcluded]
  cases select env around around.retry caller (some first.provider.id) with
  | error error => rfl
  | ok second =>
    have hrefresh : (Except.ok second).bind (fun lease =>
        refreshIfNeeded around.jwt lease around.retry.refresh) =
        refreshIfNeeded around.jwt second around.retry.refresh := rfl
    rw [hrefresh]
    have hretry : ((Except.ok second : Except AppError Lease).toOption.bind fun second =>
        (refreshIfNeeded around.jwt second around.retry.refresh).toOption) =
        (refreshIfNeeded around.jwt second around.retry.refresh).toOption := rfl
    rw [hretry]
    cases refreshIfNeeded around.jwt second around.retry.refresh with
    | ok lease => rfl
    | error error => rfl

/-- Tracking a reply refines the tracking of the handler. -/
theorem refines_trackUpstream (providerId : String) (reply : Reply) (openaiBeta : Option String)
    (upload : List UInt8) :
    Refines handlerState (trackUpstream providerId (.live reply.toLiveResponse) reply)
      (OpenAiLb.trackUpstream reply.toLiveResponse (reply.attempt openaiBeta upload)) := by
  intro s
  rw [trackUpstream_eq]
  unfold OpenAiLb.trackUpstream Reply.tracked Reply.attempt
  by_cases hstatus : reply.status = 429
  · rw [if_pos hstatus, if_pos hstatus]
    cases reply.read with
    | ok body => rfl
    | error error => rfl
  · rw [if_neg hstatus, if_neg hstatus]
    rfl

/-- One request of an API handler and the report of its response. -/
theorem refines_attemptUpstream (inbound : Inbound) (payload upload : List UInt8) (lease : Lease)
    (reply : Reply) :
    Refines handlerState
      (do
        let response ← (apiSender env around.openaiBeta inbound payload upload).send lease reply
        trackUpstream lease.provider.id (.live response) reply)
      (attemptUpstream env lease inbound.path inbound.headers payload
        (reply.attempt around.openaiBeta upload)) := by
  refine (refines_recording _).bind fun response s t hrun => ?_
  obtain ⟨own, hsend⟩ :=
    (apiSender env around.openaiBeta inbound payload upload).send_eq lease reply s
  have hresponse : response = reply.toLiveResponse := by
    have hboth := hrun.symm.trans hsend
    cases hboth
    rfl
  rw [hresponse]
  exact refines_trackUpstream lease.provider.id reply around.openaiBeta upload

/-- The protocol as an API handler carries it out; each request fetches its payload. -/
theorem refines_protocol (inbound : Inbound) (payload upload : List UInt8) (relay : RelayAnswers)
    {fetch fetch' : Handler (List UInt8)}
    (hfetch : Refines handlerState (pure payload : Dispatcher Recording _) fetch)
    (hfetch' : Refines handlerState (pure payload : Dispatcher Recording _) fetch') :
    Refines handlerState
      (do
        let result ← protocol env around caller
          (apiSender env around.openaiBeta inbound payload upload)
        pure result.2)
      (do
        let answers := dispatchAnswers env around caller upload relay
        let first ← OpenAiLb.selectReadyProvider answers.first answers.fallback
        track (.setProvider first.provider.id)
        let payload ← fetch
        let response ←
          attemptUpstream env first inbound.path inbound.headers payload answers.firstAttempt
        if retryable response.head.status then
          match ← OpenAiLb.retryProvider answers.retry with
          | some second => do
            track (.setProvider second.provider.id)
            let payload ← fetch'
            attemptUpstream env second inbound.path inbound.headers payload answers.secondAttempt
          | none => return response
        else return response) := by
  rw [protocol_bind _ fun _ upstream => pure upstream]
  refine (refines_selectReadyProvider upload relay).bind fun first s t hrun => ?_
  have hfirst : selectReadyProvider env around caller = .ok first := by
    cases hselected : selectReadyProvider env around caller with
    | error error =>
      rw [hselected] at hrun
      cases hrun
    | ok lease =>
      rw [hselected] at hrun
      cases hrun
      rfl
  refine (refines_recording _).bind fun _ _ _ _ => ?_
  refine .bind_right hfetch ?_
  rw [← bind_assoc]
  refine (refines_attemptUpstream inbound payload upload first around.firstReply).bind
    fun response _ _ _ => ?_
  by_cases hretry : retryable response.head.status = true
  · rw [if_pos hretry, if_pos hretry]
    refine .bind_right (refines_retryProvider upload relay hfirst) ?_
    cases retryProvider env around caller first.provider.id with
    | none => exact .pure response
    | some second =>
      refine (refines_recording _).bind fun _ _ _ _ => ?_
      refine .bind_right hfetch' ?_
      simp only [bind_pure]
      exact refines_attemptUpstream inbound payload upload second around.secondReply
  · rw [if_neg hretry, if_neg hretry]
    exact .pure response

/-- **The JSON routes**: the protocol after the translation of the request is `obtainUpstream`. -/
theorem refines_obtainUpstream (inbound : Inbound) (parsed : Option Value) (relay : RelayAnswers) :
    Refines handlerState
      (do
        let payload ← orError (env.transformRequest inbound.path parsed)
        let result ← protocol env around caller
          (apiSender env around.openaiBeta inbound payload [])
        pure result.2)
      (obtainUpstream env inbound parsed (dispatchAnswers env around caller [] relay)) := by
  unfold obtainUpstream
  cases htransform : env.transformRequest inbound.path parsed with
  | error error => exact fun s => rfl
  | ok payload =>
    have hpayload : Refines handlerState (pure payload : Dispatcher Recording _)
        (await ((Except.ok payload).mapError Exit.error)) := fun _ => rfl
    have hfirst : Refines handlerState (pure payload : Dispatcher Recording _) (pure payload) :=
      .pure payload
    refine .bind_right hpayload ?_
    exact refines_protocol inbound payload [] relay hfirst hpayload

/-- **Uploads**: the protocol with the stored upload is `obtainTranscription`. -/
theorem refines_obtainTranscription (inbound : Inbound) (upload : List UInt8)
    (relay : RelayAnswers) (spool : Answer AudioSpool) :
    Refines handlerState
      (do
        let result ← protocol env around caller
          (apiSender env around.openaiBeta inbound upload upload)
        pure result.2)
      (obtainTranscription env inbound
        ⟨dispatchAnswers env around caller upload relay, spool⟩) := by
  have hupload : Refines handlerState (pure upload : Dispatcher Recording _)
      (ask (.ok upload)) := fun _ => rfl
  exact refines_protocol inbound upload upload relay hupload hupload

end Failover

end OpenAiLb
