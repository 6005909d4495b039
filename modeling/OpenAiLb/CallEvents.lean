import OpenAiLb.HandlerEvents

/-!
# One event for each call

From the reservation to the end of its response body, a call sends exactly one event if
its place in the audit queue was reserved and none otherwise, and the event takes the
share of the archive memory along. That holds for every answer to everything the call
waits for, wherever the handler is cancelled, and wherever the client stops reading the
body. It fails exactly when the price of the response panics.
-/

namespace OpenAiLb

open Stoppable

section Handlers

variable {env : ProxyEnv} {reservation : Option Reservation} {mispriced : Prop}

/-- The handler stopped, and an error was recorded on the way out. -/
def Closed (reservation : Option Reservation) (mispriced : Prop) :
    Exit AppError Panic → HandlerState → Prop
  | .error _, s => ¬ mispriced ∧ Settled reservation s
  | .cancelled, s | .panicked .elsewhere, s => ¬ mispriced ∧ Pending reservation s
  | .panicked .clampBounds, s => mispriced ∧ Lost s
  | .panicked .reservedOnce, _ => False

/-- A call that reserved nothing is settled from the start. -/
theorem settled_of_event_eq_none {s : HandlerState} (hs : Pending reservation s)
    (hevent : s.audit.event = none) : Settled reservation s := by
  have hnone : reservation.isSome = false := by
    rw [← hs.1.event_isSome, hevent]
    rfl
  obtain rfl : reservation = none := by simpa using hnone
  exact ⟨hevent, hs.2⟩

/-- **The handlers record the errors** that the dispatchers return. -/
theorem ensures_recordingErrors {finishedAt : ℕ} {x : Handler Response}
    (hx : Ensures (Pending reservation) x (Responded reservation mispriced)
      (Stopped reservation mispriced)) :
    Ensures (Pending reservation) (recordingErrors env finishedAt x)
      (Responded reservation mispriced) (Closed reservation mispriced) := by
  refine ensures_tryCatch hx fun exit => ?_
  cases exit with
  | cancelled => exact ensures_throw fun s hs => hs
  | panicked panic =>
    refine ensures_throw fun s hs => ?_
    cases panic <;> exact hs
  | error error =>
    refine Ensures.get_bind fun s ⟨hfine, hs⟩ => ?_
    have hrethrow : Ensures (Settled reservation) (throw (.error error) : Handler Response)
        (Responded reservation mispriced) (Closed reservation mispriced) :=
      ensures_throw fun t ht => ⟨hfine, ht⟩
    split
    · next hevent =>
      have hpending : Pending reservation s := by
        rcases hs with hpending | ⟨hgone, -⟩
        · exact hpending
        · rw [hgone] at hevent
          cases hevent
      refine Ensures.imp ?_ (fun t ht => ht ▸ hpending) (fun _ _ h => h) fun _ _ h => h
      refine ensures_note (fun audit h => show Custody.Holds AuditEvent.SameCall _ _ from ?_) ?_
      · refine AuditTracker.holds_updateArchived ?_ fun _ _ h => h
        refine AuditTracker.holds_updateArchived ?_ fun _ _ h => h
        exact holds_setResponseSize h _
      · refine Ensures.bind (ensures_finish.imp (fun t ht => ht) (fun id t h => h.2.2) ?_)
          fun _ => hrethrow
        rintro exit t ⟨-, ⟨-, hunpayable⟩, -⟩
        exact absurd (payable_none _) hunpayable
    · next hevent =>
      have hgone : s.audit.event = none := by simpa using hevent
      refine hrethrow.imp (fun t ht => ?_) (fun _ _ h => h) fun _ _ h => h
      rw [ht]
      exact hs.elim (fun hpending => settled_of_event_eq_none hpending hgone) id

/-- How a handler ends for its reservation. -/
def Handled.Ends (reservation : Option Reservation) (mispriced : Prop) (handled : Handled) :
    Prop :=
  handled.dropPanic = none ∧
    match handled.result with
    | .ok response =>
      ¬ mispriced ∧ response.transportId = reservation.map (fun r => r.begun.transportId) ∧
        match response.body with
        | .bytes _ => Delivered AuditEvent.SameCall handled.sent reservation
        | .stream stream =>
          handled.sent = [] ∧ stream.completion.Holds AuditEvent.Ongoing reservation ∧
            0 ≤ stream.completion.usage.inputTokens ∧ stream.ended = false
    | .error (.panicked .clampBounds) => mispriced ∧ handled.sent = []
    | .error (.panicked .reservedOnce) => False
    | .error _ => ¬ mispriced ∧ Delivered AuditEvent.SameCall handled.sent reservation

/-- A tracker that is dropped with its reservation sends the event. -/
theorem ends_of_pending {s : HandlerState} {result : Except (Exit AppError Panic) Response}
    {now : ℕ} {goal : Handled → Prop} (hs : Pending reservation s)
    (hgoal : ∀ sent, Delivered AuditEvent.SameCall sent reservation →
      goal ⟨result, sent, s.requests, none⟩) :
    goal (match s.audit.drop now with
      | .ok sent => ⟨result, s.sent ++ sent, s.requests, none⟩
      | .error panic => ⟨result, s.sent, s.requests, some panic⟩) := by
  obtain ⟨sent, hdrop, hdelivered⟩ := AuditTracker.drop_ok hs.1
    (fun _ _ _ h hnext => h.trans hnext) now
  rw [hdrop, hs.2]
  exact hgoal sent (hdelivered.imp fun _ _ h => h.1)

/-- **Dropping the tracker** settles what the handler left open. -/
theorem ends_runToEnd {body : Handler Response} {call : HandlerCall}
    (hbody : Ensures (Pending call.reservation) body (Responded call.reservation mispriced)
      (Closed call.reservation mispriced)) :
    (body.runToEnd call).Ends call.reservation mispriced := by
  have hstart : Pending call.reservation ⟨call.tracker, [], []⟩ :=
    ⟨AuditTracker.holds_begin .., rfl⟩
  unfold Handler.runToEnd
  cases hrun : body ⟨call.tracker, [], []⟩ with
  | ok response s =>
    obtain ⟨hfine, hid, hresponded⟩ := hbody.of_ok hstart hrun
    have hgone : s.audit.event = none := by
      cases hkind : response.body with
      | bytes bytes =>
        rw [hkind] at hresponded
        exact hresponded.1
      | stream stream =>
        rw [hkind] at hresponded
        exact hresponded.1.1
    dsimp only
    rw [AuditTracker.drop_of_none hgone]
    refine ⟨rfl, hfine, hid, ?_⟩
    dsimp only
    rw [List.append_nil]
    cases hkind : response.body with
    | bytes bytes =>
      rw [hkind] at hresponded
      exact hresponded.2
    | stream stream =>
      rw [hkind] at hresponded
      exact ⟨hresponded.1.2, hresponded.2⟩
  | error exit s =>
    have hclosed := hbody.of_error hstart hrun
    dsimp only
    cases exit with
    | error error =>
      obtain ⟨hfine, hgone, hdelivered⟩ := hclosed
      rw [AuditTracker.drop_of_none hgone]
      refine ⟨rfl, hfine, ?_⟩
      dsimp only
      rw [List.append_nil]
      exact hdelivered
    | cancelled => exact ends_of_pending hclosed.2 fun sent hsent => ⟨rfl, hclosed.1, hsent⟩
    | panicked panic =>
      cases panic with
      | elsewhere => exact ends_of_pending hclosed.2 fun sent hsent => ⟨rfl, hclosed.1, hsent⟩
      | reservedOnce => exact hclosed.elim
      | clampBounds =>
        obtain ⟨hmispriced, hgone, hnothing⟩ := hclosed
        rw [AuditTracker.drop_of_none hgone]
        exact ⟨rfl, hmispriced, by rw [hnothing]; rfl⟩

/-- **`handle_json`** for an authenticated call. -/
theorem ends_handleJson (call : HandlerCall) (answers : DispatchAnswers) :
    (handleJson env call answers).Ends call.reservation
      (call.reservation.isSome = true ∧ answers.Mispriced env call.inbound) := by
  refine ends_runToEnd ?_
  refine ensures_note (fun audit h => AuditTracker.holds_updateArchived h fun _ _ h => h) ?_
  refine ensures_note (fun audit h => AuditTracker.holds_update h fun _ _ h => h) ?_
  refine ensures_note (fun audit h => AuditTracker.holds_update h fun _ _ h => h) ?_
  exact ensures_recordingErrors (ensures_dispatch answers)

/-- **`handle_audio`** for an authenticated call. -/
theorem ends_handleAudio (call : HandlerCall) (answers : AudioAnswers) :
    (handleAudio env call answers).Ends call.reservation False := by
  refine ends_runToEnd ?_
  refine ensures_note (fun audit h => AuditTracker.holds_updateArchived h fun _ _ h => h) ?_
  refine ensures_note (fun audit h => AuditTracker.holds_update h fun _ _ h => h) ?_
  exact ensures_recordingErrors (ensures_dispatchAudio answers)

end Handlers

section Streams

variable {serde : SerdeJson} {reservation : Option Reservation} {stream : RelayStream}

namespace RelayStream

/-- The guard of the stream holds the reservation, or the stream has ended and holds nothing. -/
inductive Owes (reservation : Option Reservation) (stream : RelayStream) : Bool → Prop where
  | holding (ended : stream.ended = false)
    (holds : stream.completion.Holds AuditEvent.Ongoing reservation)
    (usage : 0 ≤ stream.completion.usage.inputTokens) : Owes reservation stream true
  | done (ended : stream.ended = true) (event : stream.completion.event = none) :
    Owes reservation stream false

/-- **A poll of a stream that holds the reservation** yields a chunk, or sends the event and ends
the stream. -/
theorem poll_holding (h : stream.Owes reservation true) (item : UpstreamItem) (now : ℕ) :
    (∃ bytes next, item = .chunk bytes ∧ stream.poll serde item now = .ok (some bytes, [], next) ∧
        next.Owes reservation true) ∨
      ∃ sent next, stream.poll serde item now = .ok (none, sent, next) ∧
        Delivered AuditEvent.Ongoing sent reservation ∧ next.Owes reservation false := by
  obtain ⟨hended, hholds, husage⟩ := h
  have hsent : ∀ failed, ∃ sent, stream.completion.finish failed now = .ok sent ∧
      Delivered AuditEvent.Ongoing sent reservation := fun failed =>
    stream.completion.finish_ok hholds (fun _ _ _ h hnext => h.trans hnext) husage failed now
  unfold poll
  rw [if_neg (by simp [hended])]
  cases item with
  | chunk bytes =>
    let captured := stream.completion.captureSse serde stream.pending bytes
    refine Or.inl ⟨bytes, ⟨captured.2, captured.1, stream.ended⟩, rfl, rfl, .holding hended ?_ ?_⟩
    · dsimp only [captured]
      rw [StreamCompletion.toCustody_captureSse]
      exact hholds
    · exact le_trans husage (stream.completion.usage_captureSse serde stream.pending bytes)
  | failed =>
    obtain ⟨sent, hfinish, hdelivered⟩ := hsent true
    refine Or.inr ⟨sent, ⟨stream.completion.finished, stream.pending, true⟩, ?_, hdelivered,
      .done rfl rfl⟩
    rw [hfinish]
    rfl
  | finished =>
    obtain ⟨sent, hfinish, hdelivered⟩ := hsent false
    refine Or.inr ⟨sent, ⟨stream.completion.finished, stream.pending, true⟩, ?_, hdelivered,
      .done rfl rfl⟩
    rw [hfinish]
    rfl

/-- A poll of an ended stream returns the end again. -/
theorem poll_done (h : stream.Owes reservation false) (item : UpstreamItem) (now : ℕ) :
    stream.poll serde item now = .ok (none, [], stream) := by
  obtain ⟨⟩ | ⟨hended, -⟩ := h
  unfold poll
  rw [if_pos hended]

/-- **Dropping a stream** that holds the reservation sends the event. -/
theorem drop_holding (h : stream.Owes reservation true) (now : ℕ) :
    ∃ sent, stream.drop now = .ok sent ∧ Delivered AuditEvent.Ongoing sent reservation := by
  obtain ⟨-, hholds, husage⟩ := h
  exact stream.completion.drop_ok hholds (fun _ _ _ h hnext => h.trans hnext) husage now

/-- Dropping an ended stream sends nothing. -/
theorem drop_done (h : stream.Owes reservation false) (now : ℕ) : stream.drop now = .ok [] := by
  obtain ⟨⟩ | ⟨-, hevent⟩ := h
  rw [drop, StreamCompletion.drop, Custody.conclude, hevent]

/-- The life of a stream: it is polled, with what the upstream gives at each poll, and dropped.
The events that it sends, and a panic if there is one. -/
def live (serde : SerdeJson) (droppedAt : ℕ) :
    RelayStream → List (UpstreamItem × ℕ) → List QueuedEvent × Option Panic
  | stream, [] =>
    match stream.drop droppedAt with
    | .ok sent => (sent, none)
    | .error panic => ([], some panic)
  | stream, (item, now) :: rest =>
    match stream.poll serde item now with
    | .ok (_, sent, next) =>
      let (more, panic) := live serde droppedAt next rest
      (sent ++ more, panic)
    | .error panic => ([], some panic)

/-- An ended stream sends nothing more. -/
theorem live_done (h : stream.Owes reservation false) (droppedAt : ℕ)
    (polls : List (UpstreamItem × ℕ)) : live serde droppedAt stream polls = ([], none) := by
  induction polls with
  | nil => rw [live, drop_done h]
  | cons poll rest ih =>
    rw [live, poll_done h]
    dsimp only
    rw [ih, List.append_nil]

/-- **A stream sends its event once**, wherever the client stops reading. -/
theorem live_holding (h : stream.Owes reservation true) (droppedAt : ℕ)
    (polls : List (UpstreamItem × ℕ)) :
    ∃ sent, live serde droppedAt stream polls = (sent, none) ∧
      Delivered AuditEvent.Ongoing sent reservation := by
  induction polls generalizing stream with
  | nil =>
    obtain ⟨sent, hdrop, hdelivered⟩ := drop_holding h droppedAt
    exact ⟨sent, by rw [live, hdrop], hdelivered⟩
  | cons poll rest ih =>
    obtain ⟨item, now⟩ := poll
    rcases poll_holding h item now with
      ⟨bytes, next, -, hpoll, hnext⟩ | ⟨sent, next, hpoll, hdelivered, hnext⟩
    · obtain ⟨sent, hlive, hdelivered⟩ := ih hnext
      refine ⟨sent, ?_, hdelivered⟩
      rw [live, hpoll]
      dsimp only
      rw [hlive]
      rfl
    · refine ⟨sent, ?_, hdelivered⟩
      rw [live, hpoll]
      dsimp only
      rw [live_done hnext, List.append_nil]

end RelayStream

end Streams

/-- The audited routes: the JSON routes and the transcriptions. -/
inductive RouteAnswers where
  | json (answers : DispatchAnswers)
  | audio (answers : AudioAnswers)

/-- The handler of the route. -/
def RouteAnswers.handled (env : ProxyEnv) (call : HandlerCall) : RouteAnswers → Handled
  | .json answers => handleJson env call answers
  | .audio answers => handleAudio env call answers

/-- The place in the queue was reserved, and the response that the answers lead to is relayed as a
whole with a usage that cannot be priced. -/
def RouteAnswers.Mispriced (env : ProxyEnv) (call : HandlerCall) (answers : RouteAnswers) : Prop :=
  call.reservations.queue = true ∧
    match answers with
    | .json answers => answers.Mispriced env call.inbound
    | .audio _ => False

/-- A call with a place in the queue holds it as its reservation. -/
theorem HandlerCall.isSome_reservation (call : HandlerCall) :
    call.reservation.isSome = call.reservations.queue := by
  unfold HandlerCall.reservation Reservations.reservation
  cases call.reservations.queue <;> rfl

/-- **The handlers of all routes** end in the same way. -/
theorem ends_handled (env : ProxyEnv) (call : HandlerCall) (answers : RouteAnswers) :
    (answers.handled env call).Ends call.reservation (answers.Mispriced env call) := by
  unfold RouteAnswers.Mispriced
  cases answers with
  | json answers =>
    rw [← call.isSome_reservation]
    exact ends_handleJson call answers
  | audio answers =>
    rw [and_false]
    exact ends_handleAudio call answers

/-- A call from its authentication to the end of its response body. -/
structure CallLife where
  call : HandlerCall
  answers : RouteAnswers
  /-- What the upstream gives at each poll of a streamed body. -/
  polls : List (UpstreamItem × ℕ)
  bodyDroppedAt : ℕ

/-- The events that a call sent and the panics that it ran into. -/
structure CallOutcome where
  sent : List QueuedEvent
  panics : List Panic

/-- The panics of a handler. -/
def Handled.panics (handled : Handled) : List Panic :=
  (match handled.result with
    | .error (.panicked panic) => [panic]
    | _ => []) ++ handled.dropPanic.toList

namespace CallLife

/-- The handler of the call. -/
def handled (env : ProxyEnv) (life : CallLife) : Handled := life.answers.handled env life.call

/-- The whole call. -/
def outcome (env : ProxyEnv) (life : CallLife) : CallOutcome :=
  match (life.handled env).result with
  | .ok ⟨_, _, .stream stream, _⟩ =>
    let (sent, panic) := stream.live env.serde life.bodyDroppedAt life.polls
    ⟨(life.handled env).sent ++ sent, (life.handled env).panics ++ panic.toList⟩
  | _ => ⟨(life.handled env).sent, (life.handled env).panics⟩

/-- Exactly one event if the place in the queue was reserved and none otherwise, with the share of
the archive memory if one was acquired, and no failing `expect`. -/
def OneEvent (env : ProxyEnv) (life : CallLife) : Prop :=
  Delivered AuditEvent.SameCall (life.outcome env).sent life.call.reservation ∧
    Panic.reservedOnce ∉ (life.outcome env).panics

/-- The price of the response panics while the call holds a reservation. -/
def Mispriced (env : ProxyEnv) (life : CallLife) : Prop :=
  life.answers.Mispriced env life.call

/-- What a call sends and which panics it runs into. -/
theorem outcome_spec (env : ProxyEnv) (life : CallLife) :
    (¬ life.Mispriced env ∧
        Delivered AuditEvent.SameCall (life.outcome env).sent life.call.reservation ∧
          Panic.reservedOnce ∉ (life.outcome env).panics) ∨
      life.Mispriced env ∧ (life.outcome env).sent = [] := by
  obtain ⟨hdrop, hends⟩ : (life.handled env).Ends life.call.reservation (life.Mispriced env) :=
    ends_handled env life.call life.answers
  unfold outcome Handled.panics
  rw [hdrop]
  cases hresult : (life.handled env).result with
  | ok response =>
    rw [hresult] at hends
    obtain ⟨hfine, -, hbody⟩ := hends
    obtain ⟨status, headers, body, id⟩ := response
    refine Or.inl ⟨hfine, ?_⟩
    cases body with
    | bytes bytes => exact ⟨hbody, List.not_mem_nil⟩
    | stream stream =>
      obtain ⟨hnothing, hholds, husage, hended⟩ := hbody
      obtain ⟨sent, hlive, hdelivered⟩ : ∃ sent,
          stream.live env.serde life.bodyDroppedAt life.polls = (sent, none) ∧
            Delivered AuditEvent.Ongoing sent life.call.reservation :=
        RelayStream.live_holding (.holding hended hholds husage) life.bodyDroppedAt life.polls
      dsimp only
      rw [hlive, hnothing]
      exact ⟨hdelivered.imp fun _ _ h => h.1, List.not_mem_nil⟩
  | error exit =>
    rw [hresult] at hends
    cases exit with
    | error error => exact Or.inl ⟨hends.1, hends.2, List.not_mem_nil⟩
    | cancelled => exact Or.inl ⟨hends.1, hends.2, List.not_mem_nil⟩
    | panicked panic =>
      cases panic with
      | elsewhere =>
        exact Or.inl ⟨hends.1, hends.2, by simp⟩
      | reservedOnce => exact hends.elim
      | clampBounds => exact Or.inr hends

/-- **Exactly one event for each reserved call**, unless its response is relayed as a whole with a
usage that cannot be priced; then the event is lost. -/
theorem one_event_iff (env : ProxyEnv) (life : CallLife) :
    life.OneEvent env ↔ ¬ life.Mispriced env := by
  rcases life.outcome_spec env with ⟨hfine, hone⟩ | ⟨hmispriced, hnothing⟩
  · exact ⟨fun _ => hfine, fun _ => hone⟩
  · refine ⟨fun hone => ?_, fun hfine => absurd hmispriced hfine⟩
    have hreserved : life.call.reservation.isSome = true := by
      rw [life.call.isSome_reservation]
      exact hmispriced.1
    obtain ⟨r, hr⟩ := Option.isSome_iff_exists.mp hreserved
    have hdelivered := hone.1
    rw [hr, hnothing] at hdelivered
    obtain ⟨event, hsent, -⟩ := hdelivered
    cases hsent

section NegativeUsage

/-- The body of a request for a model that charges for cache writes. -/
def requestBody : List UInt8 := asBytes "\x7b\"model\":\"gpt-5.6-sol\"\x7d"

/-- The body of a response with a negative input count. -/
def responseBody : List UInt8 := asBytes "\x7b\"usage\":\x7b\"input_tokens\":-1\x7d\x7d"

/-- The two bodies as values, and the request as it is sent upstream. -/
def negativeUsageEnv : ProxyEnv where
  serde :=
    { fromSlice := fun bytes =>
        if bytes = requestBody then some (.object [("model", .string "gpt-5.6-sol")])
        else if bytes = responseBody then
          some (.object [("usage", .object [("input_tokens", .number (.integer (-1)))])])
        else none
      toString := fun _ => "" }
  affinityHash := id
  transformRequest := fun _ _ =>
    .ok (asBytes "\x7b\"instructions\":\"\",\"model\":\"gpt-5.6-sol\",\"store\":false\x7d")
  accepts := fun _ _ => true

/-- A lease of the only provider. -/
def onlyLease : Lease where
  provider :=
    { id := "p", name := "only", accountId := "account", accessToken := "a", refreshToken := "r"
      expiresAt := none, status := .active, manualDisabled := false, cooldownUntil := none
      rateLimitJson := none, lastError := none, lastUsedAt := none, createdAt := 0
      updatedAt := 0, ownerId := none }
  accessToken := "a"
  refreshToken := "r"

/-- The provider answers at once. -/
def promptAttempt : Attempt where
  upload := .error .cancelled
  openaiBeta := none
  built := .ok ()
  executed := .ok ⟨200, .http2, .new⟩
  buffered := .error .cancelled
  tracked := .ok ()

/-- A call that is answered with the negative usage. -/
def negativeUsageCall : CallLife where
  call :=
    { inbound :=
        { method := "POST", path := "/v1/responses", headers := .new, body := requestBody
          clientIp := "127.0.0.1" }
      identity := ⟨"c", "user", false⟩
      eventId := "e"
      auditId := "a"
      createdAt := 10
      reservations := ⟨true, false⟩
      startedAt := 0
      finishedAt := 20
      droppedAt := 20 }
  answers := .json
    { first := ⟨.ok onlyLease, .ok onlyLease⟩
      fallback := ⟨.error .cancelled, .error .cancelled⟩
      firstAttempt := promptAttempt
      retry := ⟨.error .cancelled, .error .cancelled⟩
      secondAttempt := promptAttempt
      relay := ⟨.ok responseBody, 10, 20, 10⟩ }
  polls := []
  bodyDroppedAt := 30

/-- The place in the queue is reserved, and no event is sent. -/
theorem negative_usage_loses_event :
    negativeUsageCall.call.reservations.queue = true ∧
      (negativeUsageCall.outcome negativeUsageEnv).sent = [] ∧
        ¬ negativeUsageCall.OneEvent negativeUsageEnv := by
  have hnothing : (negativeUsageCall.outcome negativeUsageEnv).sent = [] := by decide
  refine ⟨rfl, hnothing, ?_⟩
  rintro ⟨hdelivered, -⟩
  rw [hnothing] at hdelivered
  obtain ⟨event, hsent, -⟩ := hdelivered
  cases hsent

end NegativeUsage

end CallLife

end OpenAiLb
