import OpenAiLb.Failover

/-!
# The failover protocol

The four dispatchers are instances of one protocol: choose a provider, send, report the
response, and after a response that is worth another try do the same once more with
another provider. What the protocol does is computed from the selections and the replies
alone.
-/

namespace OpenAiLb

open Stoppable

/-- What a dispatcher leaves behind. -/
structure DispatcherRun (α : Type) where
  requests : List UpstreamRequest
  reports : List Report
  result : Except (Exit AppError Panic) α

/-- Run a dispatcher from a state. -/
def Dispatcher.runFrom {κ α : Type} (x : Dispatcher κ α) (s : Dispatching κ) : DispatcherRun α :=
  match x s with
  | .ok a t => ⟨t.requests, t.reports, .ok a⟩
  | .error exit t => ⟨t.requests, t.reports, .error exit⟩

namespace Reply

/-- What `track_upstream` makes of the reply. -/
def tracked (reply : Reply) : Except AppError UpstreamResponse :=
  if reply.status = 429 then
    reply.read.map fun body => .buffered { reply.toLiveResponse with body := body }
  else .ok (.live reply.toLiveResponse)

/-- What is reported of the reply: one report, unless its body is needed and cannot be read. -/
def reports (reply : Reply) (providerId : String) : List Report :=
  if reply.status = 429 then
    reply.body.toList.map fun body => ⟨providerId, reply.status, body⟩
  else [⟨providerId, reply.status, []⟩]

end Reply

/-- How a dispatcher sends: it notes the provider of a lease, and each request has the same
payload. -/
structure Sender (κ : Type) where
  payload : List UInt8
  headers : Lease → HeaderMap
  note : Lease → Dispatcher κ Unit
  send : Lease → Reply → Dispatcher κ LiveResponse
  note_eq : ∀ lease s, ∃ own, note lease s = .ok () { s with own := own }
  send_eq : ∀ lease reply s, ∃ own, send lease reply s = .ok reply.toLiveResponse
    ⟨own, s.requests ++ [⟨lease.provider.id, headers lease, payload⟩], s.reports⟩

namespace Failover

variable {κ α : Type} {env : ProxyEnv} {around : Surroundings} {caller : Caller}

/-- Send a request to the provider of a lease, and report the response. -/
def exchange (sender : Sender κ) (lease : Lease) (reply : Reply) :
    Dispatcher κ UpstreamResponse := do
  sender.note lease
  let response ← sender.send lease reply
  trackUpstream lease.provider.id (.live response) reply

/-- The protocol. -/
def protocol (env : ProxyEnv) (around : Surroundings) (caller : Caller) (sender : Sender κ) :
    Dispatcher κ (Reply × UpstreamResponse) := do
  let first ← orError (selectReadyProvider env around caller)
  let response ← exchange sender first around.firstReply
  if retryable response.head.status then
    match retryProvider env around caller first.provider.id with
    | some second => do
      let response ← exchange sender second around.secondReply
      pure (around.secondReply, response)
    | none => pure (around.firstReply, response)
  else pure (around.firstReply, response)

/-- A computation that neither sends nor reports. -/
abbrev Quiet (x : Dispatcher κ α) : Prop := Keeps (fun s => (s.requests, s.reports)) x

/-- A computation of an API handler reports nothing; it is quiet when it sends nothing. -/
theorem quiet_recording {x : Handler α} (hx : Keeps HandlerState.requests x) :
    Quiet (recording x) := by
  rintro seen s rfl
  unfold recording
  cases hrun : x ⟨s.own.audit, s.own.sent, s.requests⟩ with
  | ok a t => exact congrArg (·, s.reports) (hx.of_ok hrun)
  | error exit t => exact congrArg (·, s.reports) (hx.of_error hrun)

section Relay

/-- Tracking sends no request. -/
theorem keeps_track (f : AuditTracker → AuditTracker) : Keeps HandlerState.requests (track f) :=
  .modify fun _ => rfl

/-- A panic that goes on sends no request. -/
theorem keeps_unwinding (result : Except Panic α) :
    Keeps HandlerState.requests (unwinding result) :=
  .await _

/-- The end of a call sends its event and no request. -/
theorem keeps_finish (status : ℕ) (model : Option String) (usage : Usage) (error : Option String)
    (now : ℕ) : Keeps HandlerState.requests (finish status model usage error now) := by
  intro seen
  refine Ensures.get_bind fun s hs => ?_
  split
  · exact ensures_pure fun t ht => ht ▸ hs
  · next event =>
    refine Keeps.set_bind HandlerState.requests hs fun _ => ?_
    refine (keeps_unwinding _ seen).bind fun event => (keeps_unwinding _ seen).bind fun queued => ?_
    exact Keeps.set_bind HandlerState.requests hs fun _ => Keeps.pure _ seen

/-- Building the response sends no request. -/
theorem keeps_buildResponse (status : ℕ) (headers : List (String × HeaderValue))
    (body : ResponseBody) (transportId : Option AuditTransportId) (now : ℕ) :
    Keeps HandlerState.requests (buildResponse env status headers body transportId now) := by
  unfold buildResponse
  split
  · exact .pure _
  · refine .bind ?_ fun _ => .throw _
    cases body with
    | bytes body => exact .pure _
    | stream stream => exact (keeps_unwinding _).bind fun sent => .modify fun _ => rfl

/-- Relaying the response sends no request. -/
theorem keeps_relayResponse (context : CallContext) (upstream : UpstreamResponse)
    (answers : RelayAnswers) :
    Keeps HandlerState.requests (relayResponse env context upstream answers) := by
  unfold relayResponse
  refine (keeps_track _).bind fun _ => (keeps_track _).bind fun _ => (keeps_track _).bind fun _ =>
    (keeps_track _).bind fun _ => ?_
  split
  · intro seen
    refine Ensures.get_bind fun s hs => ?_
    exact Keeps.set_bind HandlerState.requests hs fun _ => keeps_buildResponse _ _ _ _ _ seen
  · exact (Keeps.await _).bind fun bytes => (keeps_track _).bind fun _ => (keeps_track _).bind
      fun _ => (keeps_finish _ _ _ _ _).bind fun _ => keeps_buildResponse _ _ _ _ _

/-- Answering with images sends no request. -/
theorem keeps_imageResponse (context : CallContext) (upstream : UpstreamResponse)
    (answers : RelayAnswers) :
    Keeps HandlerState.requests (imageResponse env context upstream answers) := by
  unfold imageResponse
  refine (keeps_track _).bind fun _ => (keeps_track _).bind fun _ => ?_
  split
  · exact (keeps_track _).bind fun _ => (Keeps.await _).bind fun bytes => (Keeps.await _).bind
      fun _ => (keeps_track _).bind fun _ => (keeps_track _).bind fun _ => (keeps_track _).bind
        fun _ => (keeps_finish _ _ _ _ _).bind fun _ => keeps_buildResponse _ _ _ _ _
  · exact keeps_relayResponse context upstream answers

end Relay

/-- A request that was sent, and the reply to it. -/
structure Exchange where
  lease : Lease
  reply : Reply

/-- The lease of the second request. -/
def secondLease (env : ProxyEnv) (around : Surroundings) (caller : Caller) (first : Lease) :
    Option Lease :=
  match around.firstReply.tracked with
  | .error _ => none
  | .ok _ =>
    if retryable around.firstReply.status then retryProvider env around caller first.provider.id
    else none

/-- The exchanges of the protocol. -/
def exchanges (env : ProxyEnv) (around : Surroundings) (caller : Caller) : List Exchange :=
  match selectReadyProvider env around caller with
  | .error _ => []
  | .ok first =>
    ⟨first, around.firstReply⟩ ::
      (secondLease env around caller first).toList.map fun second => ⟨second, around.secondReply⟩

/-- The reply that the protocol ends with, and the response that is made of it. -/
def conclusion (env : ProxyEnv) (around : Surroundings) (caller : Caller) :
    Except AppError (Reply × UpstreamResponse) :=
  match selectReadyProvider env around caller with
  | .error error => .error error
  | .ok first =>
    let reply := (secondLease env around caller first).elim around.firstReply fun _ =>
      around.secondReply
    reply.tracked.map (reply, ·)

/-- The state after these exchanges. -/
def record (sender : Sender κ) (s : Dispatching κ) (own : κ) (done : List Exchange) :
    Dispatching κ where
  own := own
  requests := s.requests ++
    done.map fun e => ⟨e.lease.provider.id, sender.headers e.lease, sender.payload⟩
  reports := s.reports ++ done.flatMap fun e => e.reply.reports e.lease.provider.id

/-- Two records of exchanges, one after the other. -/
theorem record_record (sender : Sender κ) (s : Dispatching κ) (own own' : κ)
    (done later : List Exchange) :
    record sender (record sender s own done) own' later =
      record sender s own' (done ++ later) := by
  simp [record]

/-- How a computation goes on with a result, or stops with its error. -/
def endsWith {β : Type} (result : Except AppError β) (s : Dispatching κ) :
    EStateM.Result (Exit AppError Panic) (Dispatching κ) β :=
  match result with
  | .ok b => .ok b s
  | .error error => .error (.error error) s

/-- Tracking the response reports it to the balancer and ends as the reply does. -/
theorem trackUpstream_eq (providerId : String) (reply : Reply) (s : Dispatching κ) :
    trackUpstream providerId (.live reply.toLiveResponse) reply s =
      endsWith reply.tracked { s with reports := s.reports ++ reply.reports providerId } := by
  unfold trackUpstream Reply.tracked Reply.reports
  by_cases hstatus : reply.status = 429
  · have hhead : ¬ (UpstreamResponse.live reply.toLiveResponse).head.status ≠ 429 :=
      not_not.mpr hstatus
    rw [if_neg hhead, if_pos hstatus, if_pos hstatus]
    dsimp only
    cases hbody : reply.body with
    | none =>
      have hread : reply.read = .error .internal := by rw [Reply.read, hbody]
      have hstop : (orError reply.read : Dispatcher κ _) s = .error (.error .internal) s := by
        rw [hread]
        rfl
      rw [run_bind_of_error hstop, hread]
      simp [Except.map, endsWith]
    | some body =>
      have hread : reply.read = .ok body := by rw [Reply.read, hbody]
      have hgoes : (orError reply.read : Dispatcher κ _) s = .ok body s := by
        rw [hread]
        rfl
      rw [run_bind_of_ok hgoes, hread]
      rfl
  · have hhead : (UpstreamResponse.live reply.toLiveResponse).head.status ≠ 429 := hstatus
    rw [if_pos hhead, if_neg hstatus, if_neg hstatus]
    rfl

/-- A tracked response has the head of the reply. -/
theorem head_tracked {reply : Reply} {upstream : UpstreamResponse}
    (h : reply.tracked = .ok upstream) : upstream.head = reply.toLiveResponse := by
  unfold Reply.tracked at h
  split at h
  · cases hread : reply.read with
    | error error =>
      rw [hread] at h
      cases h
    | ok body =>
      rw [hread] at h
      cases h
      rfl
  · cases h
    rfl

/-- **One exchange** adds one request, and reports its reply. -/
theorem exchange_eq (sender : Sender κ) (lease : Lease) (reply : Reply) (s : Dispatching κ) :
    ∃ own, exchange sender lease reply s =
      endsWith reply.tracked (record sender s own [⟨lease, reply⟩]) := by
  obtain ⟨own, hnote⟩ := sender.note_eq lease s
  obtain ⟨own', hsend⟩ := sender.send_eq lease reply { s with own := own }
  refine ⟨own', ?_⟩
  unfold exchange
  rw [run_bind_of_ok hnote, run_bind_of_ok hsend, trackUpstream_eq]
  simp [record]

/-- **The protocol** makes its exchanges and ends with its conclusion. -/
theorem protocol_eq (sender : Sender κ) (s : Dispatching κ) :
    ∃ own, protocol env around caller sender s =
      endsWith (conclusion env around caller)
        (record sender s own (exchanges env around caller)) := by
  unfold protocol conclusion exchanges
  cases hfirst : selectReadyProvider env around caller with
  | error error =>
    have hstop : (orError (.error error) : Dispatcher κ Lease) s = .error (.error error) s := rfl
    refine ⟨s.own, ?_⟩
    rw [run_bind_of_error hstop]
    simp [record, endsWith]
  | ok first =>
    have hselected : (orError (.ok first) : Dispatcher κ Lease) s = .ok first s := rfl
    obtain ⟨own, hexchange⟩ := exchange_eq sender first around.firstReply s
    rw [run_bind_of_ok hselected]
    unfold secondLease
    cases htracked : around.firstReply.tracked with
    | error error =>
      rw [htracked] at hexchange
      refine ⟨own, ?_⟩
      rw [run_bind_of_error hexchange]
      simp [htracked, endsWith, Except.map]
    | ok upstream =>
      rw [htracked] at hexchange
      rw [run_bind_of_ok hexchange, head_tracked htracked]
      by_cases hretry : retryable around.firstReply.status = true
      · rw [if_pos hretry]
        simp only [hretry, if_true]
        cases hsecond : retryProvider env around caller first.provider.id with
        | none =>
          refine ⟨own, ?_⟩
          simp [htracked, endsWith, Except.map, pure, EStateM.pure]
        | some second =>
          obtain ⟨own', hagain⟩ := exchange_eq sender second around.secondReply
            (record sender s own [⟨first, around.firstReply⟩])
          refine ⟨own', ?_⟩
          rw [record_record] at hagain
          cases hlast : around.secondReply.tracked with
          | error error =>
            rw [hlast] at hagain
            dsimp only
            rw [run_bind_of_error hagain]
            simp [hlast, endsWith, Except.map]
          | ok upstream =>
            rw [hlast] at hagain
            dsimp only
            rw [run_bind_of_ok hagain]
            simp [hlast, endsWith, Except.map, pure, EStateM.pure]
      · rw [if_neg hretry]
        refine ⟨own, ?_⟩
        simp [hretry, htracked, endsWith, Except.map, pure, EStateM.pure]

end Failover

end OpenAiLb
