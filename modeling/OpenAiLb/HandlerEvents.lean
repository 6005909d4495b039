import OpenAiLb.Waiting

/-!
# What the dispatchers do with a reservation

At every exit of `dispatch` and `dispatch_audio` the reservation of the call has one
owner: the tracker still holds it, its event was sent, or the guard of the streamed
response has taken it over. The one exception is a response that is relayed as a whole
and reports a negative input count for a model that charges for cache writes: `finish`
has taken the event out of the tracker when the price panics, and the event is lost.
-/

namespace OpenAiLb

open Stoppable

/-- The tracker still holds the reservation. -/
def Holding (same : AuditEvent → AuditEvent → Prop) (reservation : Option Reservation)
    (s : HandlerState) : Prop :=
  s.audit.Holds same reservation ∧ s.sent = []

/-- The tracker holds the reservation, and the size of the response is not noted yet. -/
abbrev Pending (reservation : Option Reservation) : HandlerState → Prop :=
  Holding AuditEvent.Ongoing reservation

/-- The event of the reservation was sent. -/
def Settled (reservation : Option Reservation) (s : HandlerState) : Prop :=
  s.audit.event = none ∧ Delivered AuditEvent.SameCall s.sent reservation

/-- The event of the reservation was taken out of the tracker and is gone. -/
def Lost (s : HandlerState) : Prop := s.audit.event = none ∧ s.sent = []

/-- The reservation went over to the guard of a stream. -/
def HandedOver (reservation : Option Reservation) (stream : RelayStream) (s : HandlerState) :
    Prop :=
  (s.audit.event = none ∧ s.sent = []) ∧
    stream.completion.Holds AuditEvent.Ongoing reservation ∧
      0 ≤ stream.completion.usage.inputTokens ∧ stream.ended = false

/-- The handler returned a response; `mispriced` did not happen. -/
def Responded (reservation : Option Reservation) (mispriced : Prop) (response : Response)
    (s : HandlerState) : Prop :=
  ¬ mispriced ∧
    response.transportId = reservation.map (fun r => r.begun.transportId) ∧
    match response.body with
    | .bytes _ => Settled reservation s
    | .stream stream => HandedOver reservation stream s

/-- The handler stopped; the event was lost exactly when `mispriced` happened. -/
def Stopped (reservation : Option Reservation) (mispriced : Prop) :
    Exit AppError Panic → HandlerState → Prop
  | .error _, s => ¬ mispriced ∧ (Pending reservation s ∨ Settled reservation s)
  | .cancelled, s | .panicked .elsewhere, s => ¬ mispriced ∧ Pending reservation s
  | .panicked .clampBounds, s => mispriced ∧ Lost s
  | .panicked .reservedOnce, _ => False

section Finish

variable {reservation : Option Reservation} {status : ℕ} {model : Option String} {usage : Usage}
  {error : Option String} {now : ℕ}

/-- The identity and the archive flag of an event name its transport record. -/
theorem AuditEvent.SameCall.transportId {begun event : AuditEvent} (h : begun.SameCall event) :
    event.transportId = begun.transportId := by
  obtain ⟨hid, -, -, -, -, harchive, -⟩ := h
  rw [AuditEvent.transportId, hid, harchive, AuditEvent.transportId]

/-- Finishing without an event does nothing. -/
theorem finish_of_none {s : HandlerState} (h : s.audit.event = none) :
    finish status model usage error now s = .ok none s := by
  have hget : (get : Handler HandlerState) s = .ok s s := rfl
  unfold finish
  rw [run_bind_of_ok hget, h]
  rfl

/-- Finishing settles the event and hands it over. -/
theorem finish_of_some {s : HandlerState} {event : AuditEvent} (h : s.audit.event = some event) :
    finish status model usage error now s =
      match settle event status model usage error (elapsedMs s.audit.started now) with
      | .error panic => .error (.panicked panic) { s with audit := s.audit.taken }
      | .ok event =>
        match s.audit.deliver event with
        | .error panic => .error (.panicked panic) { s with audit := s.audit.taken }
        | .ok queued => .ok (some event.transportId)
          { s with audit := s.audit.emptied, sent := s.sent ++ [queued] } := by
  have hget : (get : Handler HandlerState) s = .ok s s := rfl
  have hset : (set { s with audit := s.audit.taken } : Handler Unit) s =
      .ok () { s with audit := s.audit.taken } := rfl
  unfold finish
  rw [run_bind_of_ok hget, h]
  dsimp only
  rw [run_bind_of_ok hset]
  cases settle event status model usage error (elapsedMs s.audit.started now) with
  | error panic => rfl
  | ok event =>
    have hsettled : unwinding (.ok event) { s with audit := s.audit.taken } =
        .ok event { s with audit := s.audit.taken } := rfl
    rw [run_bind_of_ok hsettled]
    dsimp only
    cases s.audit.deliver event with
    | error panic => rfl
    | ok queued => rfl

/-- **`finish` sends the event**, unless the price panics. -/
theorem ensures_finish :
    Ensures (Holding AuditEvent.SameCall reservation) (finish status model usage error now)
      (fun id s => (reservation.isSome = true → Payable model usage) ∧
        id = reservation.map (fun r => r.begun.transportId) ∧ Settled reservation s)
      (fun exit s => exit = .panicked .clampBounds ∧
        (reservation.isSome = true ∧ ¬ Payable model usage) ∧ Lost s) := by
  rintro s ⟨hholds, hsent⟩
  cases reservation with
  | none =>
    have hevent : s.audit.event = none := by
      rw [show s.audit.toCustody = ⟨none, none, none⟩ from hholds]
    rw [finish_of_none hevent]
    exact ⟨(fun h => by cases h), rfl, hevent, hsent⟩
  | some r =>
    obtain ⟨hpermit, hbudget, event, hevent, hsame⟩ := hholds
    rw [finish_of_some hevent]
    by_cases hpay : Payable model usage
    · obtain ⟨final, hfinal, hongoing⟩ : ∃ final, settle event status model usage error
          (elapsedMs s.audit.started now) = .ok final ∧ event.Ongoing final := settle_ok hpay
      have hdeliver : s.audit.deliver final = .ok ⟨final, r.archiveBudget⟩ := by
        rw [Custody.deliver, hpermit, hbudget]
        rfl
      have hfinalSame : r.begun.SameCall final := hsame.trans hongoing.1
      simp only [hfinal, hdeliver]
      refine ⟨fun _ => hpay, congrArg some hfinalSame.transportId, rfl, final, ?_, hfinalSame⟩
      rw [hsent]
      rfl
    · obtain ⟨name, hname, hcharges, hnegative⟩ : ∃ name, model = some name ∧
          chargesCacheWrites name = true ∧ usage.inputTokens < 0 := by
        simpa only [Payable, not_forall, exists_prop, not_le] using hpay
      subst hname
      rw [settle_error hcharges hnegative]
      exact ⟨rfl, ⟨rfl, hpay⟩, rfl, hsent⟩

end Finish

section Build

variable {env : ProxyEnv} {reservation : Option Reservation} {status : ℕ}
  {headers : List (String × HeaderValue)} {id : Option AuditTransportId} {now : ℕ}

/-- A response with bytes is built after the event was sent. -/
theorem ensures_buildResponse_bytes (body : List UInt8) :
    Ensures (Settled reservation) (buildResponse env status headers (.bytes body) id now)
      (fun response s =>
        response.transportId = id ∧ response.body = .bytes body ∧ Settled reservation s)
      (fun exit s => (∃ error, exit = .error error) ∧ Settled reservation s) := by
  unfold buildResponse
  split
  · exact ensures_pure fun s hs => ⟨rfl, rfl, hs⟩
  · refine Ensures.bind
      (show Ensures _ _ (fun _ => Settled reservation) _ from ensures_pure fun s hs => hs)
      fun _ => ensures_throw fun s hs => ⟨⟨_, rfl⟩, hs⟩

/-- A stream that cannot be sent is dropped, and its guard sends the event. -/
theorem ensures_buildResponse_stream (stream : RelayStream) :
    Ensures (HandedOver reservation stream)
      (buildResponse env status headers (.stream stream) id now)
      (fun response s =>
        response.transportId = id ∧ response.body = .stream stream ∧
          HandedOver reservation stream s)
      (fun exit s => (∃ error, exit = .error error) ∧ Settled reservation s) := by
  unfold buildResponse
  split
  · exact ensures_pure fun s hs => ⟨rfl, rfl, hs⟩
  · refine Ensures.bind (show Ensures _ _ (fun _ => Settled reservation) _ from ?_)
      fun _ => ensures_throw fun s hs => ⟨⟨_, rfl⟩, hs⟩
    rintro s ⟨⟨hevent, hsent⟩, hholds, husage, -⟩
    obtain ⟨sent, hdrop, hdelivered⟩ := stream.completion.drop_ok hholds
      (fun _ _ _ h hnext => h.trans hnext) husage now
    have hrun : dropBody (.stream stream) now s = .ok () { s with sent := s.sent ++ sent } := by
      simp only [dropBody, RelayStream.drop, hdrop]
      rfl
    rw [hrun]
    refine ⟨hevent, ?_⟩
    rw [hsent, List.nil_append]
    exact hdelivered.imp fun _ _ h => h.1

end Build

section Relay

variable {env : ProxyEnv} {context : CallContext} {upstream : UpstreamResponse}
  {answers : RelayAnswers} {reservation : Option Reservation}

/-- Setters may be called while the tracker holds the reservation. -/
theorem keptWhileWaiting_pending (reservation : Option Reservation) :
    KeptWhileWaiting (Pending reservation) where
  update _ hf _ hs :=
    ⟨AuditTracker.holds_update hs.1 fun _ event h => h.trans (hf event), hs.2⟩
  request _ _ hs := hs

/-- The response is read as a whole, and its usage cannot be priced. -/
def Mispriced (env : ProxyEnv) (context : CallContext) (upstream : UpstreamResponse)
    (answers : RelayAnswers) : Prop :=
  context.streams upstream = false ∧
    ∃ bytes, upstream.intoBytes answers.body = .ok bytes ∧
      ¬ Payable context.model (.fromBytes env.serde bytes)

/-- **A stream takes the reservation over.** -/
theorem ensures_relayStream (hstreams : context.streams upstream = true) :
    Ensures (Pending reservation) (relayStream env context upstream answers)
      (Responded reservation (reservation.isSome = true ∧ Mispriced env context upstream answers))
      (Stopped reservation
        (reservation.isSome = true ∧ Mispriced env context upstream answers)) := by
  have hfine : ¬ (reservation.isSome = true ∧ Mispriced env context upstream answers) := by
    rintro ⟨-, hbytes, -⟩
    rw [hstreams] at hbytes
    cases hbytes
  refine Ensures.get_bind fun s hs => ?_
  have hid : s.audit.event.map AuditEvent.transportId =
      reservation.map fun r => r.begun.transportId := by
    cases reservation with
    | none =>
      rw [show s.audit.toCustody = ⟨none, none, none⟩ from hs.1]
      rfl
    | some r =>
      obtain ⟨-, -, event, hevent, hongoing⟩ := hs.1
      rw [hevent]
      exact congrArg some hongoing.1.transportId
  refine Ensures.bind (show Ensures _ _ (fun _ => HandedOver reservation
    ⟨s.audit.takeStream upstream.head.status context.model, [], false⟩) _ from ?_) fun _ => ?_
  · rintro t rfl
    exact ⟨⟨rfl, hs.2⟩, AuditTracker.holds_takeStream hs.1 (fun _ _ _ h hnext => h.trans hnext) _ _,
      le_refl _, rfl⟩
  · refine (ensures_buildResponse_stream _).imp (fun t ht => ht) ?_ ?_
    · rintro response t ⟨hresponse, hbody, hover⟩
      refine ⟨hfine, hresponse.trans hid, ?_⟩
      rw [hbody]
      exact hover
    · rintro exit t ⟨⟨error, rfl⟩, hsettled⟩
      exact ⟨hfine, Or.inr hsettled⟩

/-- An interrupted wait leaves the reservation with the tracker. -/
theorem stopped_of_mundane {mispriced : Prop} {exit : Exit AppError Panic} {s : HandlerState}
    (hfine : ¬ mispriced) (hexit : Mundane exit) (hs : Pending reservation s) :
    Stopped reservation mispriced exit s := by
  cases exit with
  | error error => exact ⟨hfine, Or.inl hs⟩
  | cancelled => exact ⟨hfine, hs⟩
  | panicked panic =>
    obtain rfl : panic = .elsewhere := hexit panic rfl
    exact ⟨hfine, hs⟩

/-- A response with bytes: the event is sent, and then the response is built. -/
theorem ensures_respondBytes {mispriced : Prop} {status built : ℕ} {model : Option String}
    {usage : Usage} {error : Option String} {now : ℕ} {headers : List (String × HeaderValue)}
    {body : List UInt8}
    (hprice : mispriced ↔ reservation.isSome = true ∧ ¬ Payable model usage) :
    Ensures (Holding AuditEvent.SameCall reservation)
      (finish status model usage error now >>= fun id =>
        buildResponse env built headers (.bytes body) id now)
      (Responded reservation mispriced) (Stopped reservation mispriced) := by
  refine Ensures.bind (ensures_finish.imp (fun s hs => hs) (fun id s h => h) ?_) fun id => ?_
  · rintro exit s ⟨rfl, hmispriced, hlost⟩
    exact ⟨hprice.mpr hmispriced, hlost⟩
  · refine Ensures.of_pre fun s ⟨hpay, hid, hsettled⟩ => ?_
    have hfine : ¬ mispriced := by
      rw [hprice]
      rintro ⟨hreserved, hunpayable⟩
      exact hunpayable (hpay hreserved)
    refine (ensures_buildResponse_bytes body).imp (fun t ht => ht ▸ hsettled) ?_ ?_
    · rintro response t ⟨hresponse, hbody, hdone⟩
      refine ⟨hfine, hresponse.trans hid, ?_⟩
      rw [hbody]
      exact hdone
    · rintro exit t ⟨⟨failure, rfl⟩, hdone⟩
      exact ⟨hfine, Or.inr hdone⟩

/-- A setter is called while the tracker holds the reservation. -/
theorem ensures_note {same same' : AuditEvent → AuditEvent → Prop}
    {g : AuditTracker → AuditTracker} {rest : Handler Response}
    {post : Response → HandlerState → Prop} {exit : Exit AppError Panic → HandlerState → Prop}
    (hg : ∀ audit : AuditTracker, audit.Holds same reservation → (g audit).Holds same' reservation)
    (hrest : Ensures (Holding same' reservation) rest post exit) :
    Ensures (Holding same reservation) (track g >>= fun _ => rest) post exit :=
  Ensures.bind
    (show Ensures _ _ (fun _ => Holding same' reservation) _ from
      ensures_modify fun s hs => ⟨hg s.audit hs.1, hs.2⟩)
    fun _ => hrest

/-- The size of the response is noted. -/
theorem holds_setResponseSize {audit : AuditTracker}
    (h : audit.Holds AuditEvent.Ongoing reservation) (bytes : Int) :
    (audit.setResponseSize bytes).Holds AuditEvent.SameCall reservation :=
  AuditTracker.holds_update (h.imp fun _ _ h => h.1) fun _ _ h => h

/-- A response that is read as a whole. -/
theorem ensures_relayBytes (hbytes : context.streams upstream = false) :
    Ensures (Pending reservation) (relayBytes env context upstream answers)
      (Responded reservation (reservation.isSome = true ∧ Mispriced env context upstream answers))
      (Stopped reservation
        (reservation.isSome = true ∧ Mispriced env context upstream answers)) := by
  refine Ensures.bind ((Waits.ask _).imp (fun s hs => hs) (fun bytes s h => h) ?_) fun bytes => ?_
  · rintro exit s ⟨hnone, hexit, hs⟩
    refine stopped_of_mundane ?_ hexit hs
    rintro ⟨-, -, bytes, hread, -⟩
    rw [hread] at hnone
    cases hnone
  · refine Ensures.of_pre fun s ⟨hsome, hs⟩ => ?_
    have hread : upstream.intoBytes answers.body = .ok bytes := by
      cases hanswer : upstream.intoBytes answers.body with
      | error interrupt => rw [hanswer] at hsome; cases hsome
      | ok body =>
        rw [hanswer] at hsome
        exact congrArg Except.ok (Option.some.inj hsome)
    have hprice : reservation.isSome = true ∧ Mispriced env context upstream answers ↔
        reservation.isSome = true ∧ ¬ Payable context.model (.fromBytes env.serde bytes) := by
      unfold Mispriced
      simp only [hbytes, hread, true_and, Except.ok.injEq, exists_eq_left']
    refine Ensures.imp ?_ (fun t ht => ht ▸ hs) (fun _ _ h => h) fun _ _ h => h
    refine ensures_note (fun audit h => holds_setResponseSize h _) ?_
    refine ensures_note (fun audit h => AuditTracker.holds_updateArchived h fun _ _ h => h) ?_
    exact ensures_respondBytes hprice

/-- **`relay_response`** sends the event, hands the reservation to the stream, or loses it. -/
theorem ensures_relayResponse :
    Ensures (Pending reservation) (relayResponse env context upstream answers)
      (Responded reservation (reservation.isSome = true ∧ Mispriced env context upstream answers))
      (Stopped reservation
        (reservation.isSome = true ∧ Mispriced env context upstream answers)) := by
  refine ensures_note (fun audit h => AuditTracker.holds_update h fun _ _ h => h) ?_
  refine ensures_note (fun audit h => AuditTracker.holds_update h fun _ _ h => h) ?_
  refine ensures_note (fun audit h => AuditTracker.holds_update h fun _ _ h => h) ?_
  refine ensures_note (fun audit h => AuditTracker.holds_updateArchived h fun _ _ h => h) ?_
  split
  · next hstreams => exact ensures_relayStream hstreams
  · next hbytes => exact ensures_relayBytes (by simpa using hbytes)

/-- The usage of an image call is merged from zero. -/
theorem usage_of_imagesFromSse {bytes : List UInt8} {data : List Value} {usage : Usage}
    (h : imagesFromSse env.serde bytes = .ok (data, usage)) : 0 ≤ usage.inputTokens := by
  have hline : ∀ (found : List Value × Usage) (line : List Char), 0 ≤ found.2.inputTokens →
      0 ≤ (imageLine env.serde found line).2.inputTokens := by
    intro found line hfound
    unfold imageLine
    split
    · cases env.serde.fromSlice (asBytes (String.ofList (line.drop 6))) with
      | none => exact hfound
      | some event => exact le_trans hfound (found.2.le_inputTokens_merge _)
    · exact hfound
  have hfold : ∀ (rest : List (List Char)) (found : List Value × Usage),
      0 ≤ found.2.inputTokens →
        0 ≤ (rest.foldl (imageLine env.serde) found).2.inputTokens := by
    intro rest
    induction rest with
    | nil => exact fun found hfound => hfound
    | cons line rest ih => exact fun found hfound => ih _ (hline found line hfound)
  unfold imagesFromSse at h
  split at h
  · cases h
  · next text htext =>
    dsimp only at h
    split at h
    · cases h
    · obtain ⟨-, rfl⟩ := Prod.mk.inj (Except.ok.inj h)
      exact hfold _ _ (le_refl _)

/-- An image response is priced with a merged usage; only an error response is relayed. -/
def ImageMispriced (env : ProxyEnv) (context : CallContext) (upstream : UpstreamResponse)
    (answers : RelayAnswers) : Prop :=
  isSuccess upstream.head.status = false ∧ Mispriced env context upstream answers

/-- **`image_response`** sends the event, unless it relays an error that cannot be priced. -/
theorem ensures_imageResponse :
    Ensures (Pending reservation) (imageResponse env context upstream answers)
      (Responded reservation
        (reservation.isSome = true ∧ ImageMispriced env context upstream answers))
      (Stopped reservation
        (reservation.isSome = true ∧ ImageMispriced env context upstream answers)) := by
  refine ensures_note (fun audit h => AuditTracker.holds_update h fun _ _ h => h) ?_
  refine ensures_note (fun audit h => AuditTracker.holds_update h fun _ _ h => h) ?_
  split
  · next hsuccess =>
    have hfine : ¬ (reservation.isSome = true ∧ ImageMispriced env context upstream answers) := by
      rintro ⟨-, hfailed, -⟩
      rw [hsuccess] at hfailed
      cases hfailed
    refine ensures_note (fun audit h => AuditTracker.holds_updateArchived h fun _ _ h => h) ?_
    refine Ensures.bind ((Waits.ask _).imp (fun s hs => hs) (fun bytes s h => h)
      fun exit s h => stopped_of_mundane hfine h.2.1 h.2.2) fun bytes => ?_
    refine Ensures.bind (((Waits.check _).imp (fun s hs => hs.2) (fun found s h => h)
      fun exit s h => stopped_of_mundane hfine h.2.1 h.2.2)) fun found => ?_
    refine Ensures.of_pre fun s ⟨hsome, hs⟩ => ?_
    obtain ⟨images, usage⟩ := found
    have hfound : imagesFromSse env.serde bytes = .ok (images, usage) := by
      cases hparse : imagesFromSse env.serde bytes with
      | error error => rw [hparse] at hsome; cases hsome
      | ok parsed =>
        rw [hparse] at hsome
        exact congrArg Except.ok (Option.some.inj hsome)
    refine Ensures.imp ?_ (fun t ht => ht ▸ hs) (fun _ _ h => h) fun _ _ h => h
    refine ensures_note (fun audit h => holds_setResponseSize h _) ?_
    refine ensures_note (fun audit h => AuditTracker.holds_updateArchived h fun _ _ h => h) ?_
    refine ensures_note (fun audit h => AuditTracker.holds_updateArchived h fun _ _ h => h) ?_
    refine ensures_respondBytes ⟨fun h => absurd h hfine, fun ⟨_, hunpayable⟩ => ?_⟩
    exact absurd (payable_of_nonneg _ (usage_of_imagesFromSse hfound)) hunpayable
  · next hfailed =>
    have hsame : (reservation.isSome = true ∧ ImageMispriced env context upstream answers) =
        (reservation.isSome = true ∧ Mispriced env context upstream answers) := by
      simp [ImageMispriced, hfailed]
    rw [hsame]
    exact ensures_relayResponse

end Relay

section Dispatch

variable {env : ProxyEnv} {inbound : Inbound} {identity : ApiIdentity}
  {reservation : Option Reservation}

/-- **The failing calls of the JSON routes**: the response that the answers lead to is relayed as
a whole, with a usage that cannot be priced. On the image route that takes an error response. -/
def DispatchAnswers.Mispriced (env : ProxyEnv) (inbound : Inbound) (answers : DispatchAnswers) :
    Prop :=
  let parsed := env.serde.fromSlice inbound.body
  let context : CallContext := ⟨requestedModel parsed, requestedStream parsed⟩
  ∃ upstream, answers.upstream? env inbound = some upstream ∧
    (inbound.path = imagesPath → isSuccess upstream.head.status = false) ∧
      OpenAiLb.Mispriced env context upstream answers.relay

/-- **`dispatch`** sends the event, hands the reservation on, keeps it, or loses it. -/
theorem ensures_dispatch (answers : DispatchAnswers) :
    Ensures (Pending reservation) (dispatch env inbound identity answers)
      (Responded reservation (reservation.isSome = true ∧ answers.Mispriced env inbound))
      (Stopped reservation (reservation.isSome = true ∧ answers.Mispriced env inbound)) := by
  refine ensures_note (fun audit h => AuditTracker.holds_update h fun _ _ h => h) ?_
  refine ensures_note (fun audit h => AuditTracker.holds_update h fun _ _ h => h) ?_
  refine Ensures.bind ((waits_obtainUpstream (keptWhileWaiting_pending reservation) answers).imp
    (fun s hs => hs) (fun upstream s h => h) ?_) fun upstream => ?_
  · rintro exit s ⟨hnone, hexit, hs⟩
    refine stopped_of_mundane ?_ hexit hs
    rintro ⟨-, upstream, hsome, -⟩
    rw [hnone] at hsome
    cases hsome
  · refine Ensures.of_pre fun s ⟨hupstream, hs⟩ => ?_
    refine Ensures.imp ?_ (fun t ht => ht ▸ hs) (fun _ _ h => h) fun _ _ h => h
    split
    · next hpath =>
      have hsame : (reservation.isSome = true ∧ answers.Mispriced env inbound) =
          (reservation.isSome = true ∧ ImageMispriced env
            ⟨requestedModel (env.serde.fromSlice inbound.body),
              requestedStream (env.serde.fromSlice inbound.body)⟩ upstream answers.relay) := by
        simp [DispatchAnswers.Mispriced, ImageMispriced, hupstream, hpath]
      rw [hsame]
      exact ensures_imageResponse
    · next hpath =>
      have hsame : (reservation.isSome = true ∧ answers.Mispriced env inbound) =
          (reservation.isSome = true ∧ OpenAiLb.Mispriced env
            ⟨requestedModel (env.serde.fromSlice inbound.body),
              requestedStream (env.serde.fromSlice inbound.body)⟩ upstream answers.relay) := by
        simp [DispatchAnswers.Mispriced, hupstream, hpath]
      rw [hsame]
      exact ensures_relayResponse

/-- A call without a model is never priced. -/
theorem not_mispriced_of_no_model {stream : Bool} {upstream : UpstreamResponse}
    {answers : RelayAnswers} : ¬ Mispriced env ⟨none, stream⟩ upstream answers := by
  rintro ⟨-, bytes, -, hunpayable⟩
  exact hunpayable (payable_none _)

/-- **`dispatch_audio`** sends the event or keeps the reservation. -/
theorem ensures_dispatchAudio (answers : AudioAnswers) :
    Ensures (Pending reservation) (dispatchAudio env inbound identity answers)
      (Responded reservation False) (Stopped reservation False) := by
  refine ensures_note (fun audit h => AuditTracker.holds_update h fun _ _ h => h) ?_
  refine Ensures.bind ((Waits.ask _).imp (fun s hs => hs) (fun spool s h => h.2)
    fun exit s h => stopped_of_mundane id h.2.1 h.2.2) fun spool => ?_
  refine ensures_note (fun audit h => AuditTracker.holds_updateArchived h fun _ _ h => h) ?_
  refine ensures_note (fun audit h => AuditTracker.holds_update h fun _ _ h => h) ?_
  refine Ensures.bind ((waits_obtainTranscription (keptWhileWaiting_pending reservation)
    answers).imp (fun s hs => hs) (fun upstream s h => h.2)
      fun exit s h => stopped_of_mundane id h.2.1 h.2.2) fun upstream => ?_
  have hnever : False = (reservation.isSome = true ∧
      Mispriced env ⟨none, false⟩ upstream answers.relay) := by
    simp [not_mispriced_of_no_model]
  rw [hnever]
  exact ensures_relayResponse

end Dispatch

end OpenAiLb
