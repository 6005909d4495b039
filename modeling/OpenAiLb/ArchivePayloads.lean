import OpenAiLb.ArchiveBudget
import OpenAiLb.Custody

/-!
# What an event holds for its archive

Whatever the setters of a call are given, the event of a call with a share holds the texts
of the headers that were handed over last, and the bodies cut at their limit. The event of
a call without a share keeps the placeholders with which it began.
-/

namespace OpenAiLb

section Event

variable {serde : SerdeJson} {handed : Handed} {budget : Option OwnedSemaphorePermit}
  {preview : List UInt8} {event next : AuditEvent}

/-- **What an event holds is what was handed over**: the texts of the headers, and the bodies cut
at their limit. Without a share it holds the placeholders. -/
structure AuditEvent.Backed (serde : SerdeJson) (handed : Handed)
    (budget : Option OwnedSemaphorePermit) (preview : List UInt8) (event : AuditEvent) : Prop where
  flag : event.requestArchive = budget.isSome
  headers : event.Archives serde handed.headers
  request : event.requestArchive = true →
    event.requestBody.length = min handed.request archiveBodyLimit
  response : event.requestArchive = true →
    (event.responseBody.getD []).length + preview.length = min handed.response archiveBodyLimit
  plain : event.requestArchive = false → event.payload.Bare ∧ preview = []

namespace AuditEvent.Backed

/-- Only the payload counts. -/
theorem congr (h : event.Backed serde handed budget preview)
    (hsame : next.payload = event.payload) : next.Backed serde handed budget preview := by
  have hflag : next.requestArchive = event.requestArchive :=
    congrArg ArchivedPayload.requestArchive hsame
  have hheaders : next.requestHeadersJson = event.requestHeadersJson :=
    congrArg ArchivedPayload.requestHeadersJson hsame
  have hbody : next.requestBody = event.requestBody :=
    congrArg ArchivedPayload.requestBody hsame
  have hupstream : next.upstreamRequestHeadersJson = event.upstreamRequestHeadersJson :=
    congrArg ArchivedPayload.upstreamRequestHeadersJson hsame
  have hresponse : next.responseHeadersJson = event.responseHeadersJson :=
    congrArg ArchivedPayload.responseHeadersJson hsame
  have hresponseBody : next.responseBody = event.responseBody :=
    congrArg ArchivedPayload.responseBody hsame
  refine ⟨hflag.trans h.flag, fun harchive => ?_, ?_, ?_, ?_⟩
  · have hcarries := h.headers (hflag ▸ harchive)
    exact ⟨hheaders.trans hcarries.request, hupstream.trans hcarries.upstreamRequest,
      hresponse.trans hcarries.response⟩
  · rw [hflag, hbody]
    exact h.request
  · rw [hflag, hresponseBody]
    exact h.response
  · rw [hflag, hsame]
    exact h.plain

/-- What is handed over for an event without a share does not matter. -/
theorem of_plain (h : event.Backed serde handed budget preview)
    (hplain : event.requestArchive = false) (after : Handed) :
    event.Backed serde after budget preview := by
  have hno : event.requestArchive ≠ true := by simp [hplain]
  exact ⟨h.flag, fun harchive => absurd harchive hno, fun harchive => absurd harchive hno,
    fun harchive => absurd harchive hno, h.plain⟩

/-- An event with a share holds what was handed over. -/
theorem bytes_eq (h : event.Backed serde handed budget preview) (hbudget : budget.isSome = true) :
    event.payload.bytes + preview.length = handed.headerBytes serde +
      min handed.request archiveBodyLimit + min handed.response archiveBodyLimit := by
  have harchive : event.requestArchive = true := h.flag.trans hbudget
  obtain ⟨hrequest, hupstream, hresponse⟩ := h.headers harchive
  have hbody := h.request harchive
  have hresponseBody := h.response harchive
  simp only [AuditEvent.payload, ArchivedPayload.bytes, Handed.headerBytes, hrequest, hupstream,
    hresponse]
  omega

/-- An event without a share holds two bytes. -/
theorem bytes_of_plain (h : event.Backed serde handed none preview) :
    event.payload.Bare ∧ event.payload.bytes + preview.length = 2 := by
  obtain ⟨hbare, rfl⟩ := h.plain h.flag
  refine ⟨hbare, ?_⟩
  rw [ArchivedPayload.bytes, hbare.requestHeaders, hbare.requestBody,
    hbare.upstreamRequestHeaders, hbare.responseHeaders, hbare.responseBody]
  rfl

/-- The captured part of a streamed body becomes the body of the event. -/
theorem streamed (h : event.Backed serde handed budget preview) (hbody : event.responseBody = none)
    (truncated : Bool) (bytes : Int) :
    AuditEvent.Backed serde handed budget [] { event with
      responseBody := some preview, responseBodyTruncated := truncated,
      responseBytes := bytes } := by
  refine ⟨h.flag, fun harchive => ?_, h.request, fun harchive => ?_, fun hplain => ?_⟩
  · have hcarries := h.headers harchive
    exact ⟨hcarries.request, hcarries.upstreamRequest, hcarries.response⟩
  · have hresponse := h.response harchive
    rw [hbody] at hresponse
    simpa using hresponse
  · obtain ⟨hbare, hpreview⟩ := h.plain hplain
    exact ⟨⟨hbare.requestHeaders, hbare.requestBody, hbare.upstreamRequestHeaders,
      hbare.responseHeaders, hpreview⟩, rfl⟩

end AuditEvent.Backed

/-- Settling an event leaves its payload alone. -/
theorem payload_of_settle {status : Int} {model : Option String} {usage : Usage}
    {error : Option String} {elapsed : Int} {final : AuditEvent}
    (h : settle event status model usage error elapsed = .ok final) :
    final.payload = event.payload := by
  unfold settle at h
  cases hcost : model.elim (Except.ok none) fun model => costUsdNanos model usage with
  | error panic =>
    rw [hcost] at h
    cases h
  | ok cost =>
    rw [hcost] at h
    cases h
    rfl

/-- The event that is sent takes the share along. -/
theorem Custody.archiveBudget_of_conclude {custody : Custody}
    {settled : AuditEvent → Except Panic AuditEvent} {queued : QueuedEvent}
    (h : custody.conclude settled = .ok [queued]) :
    queued.archiveBudget = custody.archiveBudget := by
  obtain ⟨event, hevent, hsettled⟩ := Custody.event_of_conclude h
  rw [Custody.conclude, hevent] at h
  dsimp only at h
  rw [hsettled, Except.bind, Custody.deliver] at h
  cases hpermit : custody.permit with
  | none =>
    rw [hpermit] at h
    cases h
  | some permit =>
    rw [hpermit] at h
    have hsent := (List.cons.inj (Except.ok.inj h)).1
    exact (congrArg QueuedEvent.archiveBudget hsent).symm

/-- What is cut at the limit. -/
theorem length_bodyPreview (body : List UInt8) :
    (bodyPreview body).1.length = min body.length archiveBodyLimit := by
  rw [bodyPreview, List.length_take, Nat.min_comm]

/-- Chunks are cut where all that was captured reaches the limit. -/
theorem StreamingPreview.length_capture {seen : ℕ} {preview : StreamingPreview}
    (h : preview.body.length = min seen archiveBodyLimit) (bytes : List UInt8) :
    (preview.capture bytes).body.length = min (seen + bytes.length) archiveBodyLimit := by
  rw [StreamingPreview.capture, List.length_append, List.length_take]
  omega

end Event

section Tracker

variable {serde : SerdeJson} {handed after : Handed} {audit : AuditTracker}

/-- The event of a tracker, if there is one, holds what was handed over. -/
def AuditTracker.Backed (serde : SerdeJson) (handed : Handed) (audit : AuditTracker) : Prop :=
  ∀ event, audit.event = some event → event.Backed serde handed audit.archiveBudget []

/-- A change of the event keeps what backs it, if each event keeps it. -/
theorem AuditTracker.Backed.update (h : audit.Backed serde handed) {f : AuditEvent → AuditEvent}
    (hf : ∀ event, event.Backed serde handed audit.archiveBudget [] →
      (f event).Backed serde after audit.archiveBudget []) :
    (audit.update f).Backed serde after := by
  intro event hevent
  obtain ⟨old, hold, rfl⟩ := Option.map_eq_some_iff.mp hevent
  exact hf old (h old hold)

/-- A change that is made to archived events only. -/
theorem AuditTracker.Backed.updateArchived (h : audit.Backed serde handed)
    {f : AuditEvent → AuditEvent}
    (hf : ∀ event, event.requestArchive = true →
      event.Backed serde handed audit.archiveBudget [] →
      (f event).Backed serde after audit.archiveBudget []) :
    (audit.updateArchived f).Backed serde after := by
  refine h.update fun event hevent => ?_
  split
  · next harchive => exact hf event harchive hevent
  · next hplain => exact hevent.of_plain (by simpa using hplain) after

/-- **Every setter** keeps the event to what was handed over. -/
theorem AuditTracker.Backed.perform (h : audit.Backed serde handed) (update : TrackerUpdate) :
    (audit.perform serde update).Backed serde (handed.perform update) := by
  cases update with
  | provider | affinity | reasoningEffort | compressionHeaders | upstreamAcceptEncoding
  | upstreamHttpVersion | firstByte | requestSize | responseSize =>
    exact h.update fun event hevent => hevent.congr rfl
  | request headers body =>
    refine h.updateArchived fun event harchive hevent => ⟨hevent.flag, fun _ => ?_, fun _ => ?_,
      hevent.response, fun hplain => ?_⟩
    · have hcarries := hevent.headers harchive
      exact ⟨rfl, hcarries.upstreamRequest, hcarries.response⟩
    · exact length_bodyPreview body
    · exact absurd (harchive.symm.trans hplain) (by decide)
  | upstreamRequestHeaders headers =>
    refine h.updateArchived fun event harchive hevent => ⟨hevent.flag, fun _ => ?_,
      hevent.request, hevent.response, fun hplain => ?_⟩
    · have hcarries := hevent.headers harchive
      exact ⟨hcarries.request, rfl, hcarries.response⟩
    · exact absurd (harchive.symm.trans hplain) (by decide)
  | responseHeaders headers =>
    refine h.updateArchived fun event harchive hevent => ⟨hevent.flag, fun _ => ?_,
      hevent.request, hevent.response, fun hplain => ?_⟩
    · have hcarries := hevent.headers harchive
      exact ⟨hcarries.request, hcarries.upstreamRequest, rfl⟩
    · exact absurd (harchive.symm.trans hplain) (by decide)
  | responseBody body =>
    refine h.updateArchived fun event harchive hevent => ⟨hevent.flag, fun _ => ?_,
      hevent.request, fun _ => ?_, fun hplain => ?_⟩
    · have hcarries := hevent.headers harchive
      exact ⟨hcarries.request, hcarries.upstreamRequest, hcarries.response⟩
    · exact length_bodyPreview body
    · exact absurd (harchive.symm.trans hplain) (by decide)

/-- The setters leave the reservation alone. -/
theorem AuditTracker.custody_perform (serde : SerdeJson) (audit : AuditTracker)
    (update : TrackerUpdate) :
    (audit.perform serde update).permit = audit.permit ∧
      (audit.perform serde update).archiveBudget = audit.archiveBudget ∧
      ((audit.perform serde update).event = none ↔ audit.event = none) := by
  cases update <;> exact ⟨rfl, rfl, Option.map_eq_none_iff⟩

end Tracker

section Call

variable {serde : SerdeJson} {call : ArchivingCall}

/-- **The invariant of a call**: its share has the fixed size, its event takes one place, and what
is held was handed over. -/
structure ArchivingCall.Sound (serde : SerdeJson) (call : ArchivingCall) : Prop where
  reserved : ∀ permit, call.phase.budget = some permit → permit.permits = archiveReservationBytes
  unowned : call.phase.event = none → call.phase.budget = none ∧ call.phase.preview = []
  placed : call.phase.event.isSome = true → call.phase.place + call.phase.batched = 1
  backed : ∀ event, call.phase.event = some event →
    event.Backed serde call.handed call.phase.budget call.phase.preview
  streamed : ∀ completion pending, call.phase = .streamed completion pending →
    ∀ event, completion.event = some event → event.responseBody = none

/-- The share that a call begins with. -/
theorem AuditTracker.archiveBudget_begin (reservations : Reservations) (identity : ApiIdentity)
    (call : CallStart) (started : ℕ) :
    (AuditTracker.begin reservations identity call started).archiveBudget =
      if reservations.queue && identity.requestArchive && reservations.archive then
        some ⟨archiveReservationBytes⟩
      else none := by
  obtain ⟨queue, archive⟩ := reservations
  cases queue <;> cases archive <;> cases harchive : identity.requestArchive <;>
    simp [AuditTracker.begin, harchive]

namespace ArchivingCall.Sound

/-- A call begins without anything in its archive. -/
theorem begin (serde : SerdeJson) (reservations : Reservations) (identity : ApiIdentity)
    (call : CallStart) (started : ℕ) :
    ArchivingCall.Sound serde
      ⟨.tracked (AuditTracker.begin reservations identity call started), .none⟩ where
  reserved := by
    intro permit hpermit
    have hbudget := (AuditTracker.archiveBudget_begin reservations identity call started).symm.trans
      hpermit
    split at hbudget
    · cases hbudget
      rfl
    · cases hbudget
  unowned := by
    intro hevent
    have hqueue : reservations.queue = false := by
      cases hqueue : reservations.queue with
      | false => rfl
      | true => simp [ArchivePhase.event, AuditTracker.begin, hqueue] at hevent
    refine ⟨?_, rfl⟩
    refine (AuditTracker.archiveBudget_begin reservations identity call started).trans ?_
    rw [hqueue]
    rfl
  placed := by
    intro hevent
    cases hqueue : reservations.queue with
    | false => simp [ArchivePhase.event, AuditTracker.begin, hqueue] at hevent
    | true =>
      simp [ArchivePhase.place, ArchivePhase.batched, AuditTracker.begin, hqueue]
  backed := by
    intro event hevent
    obtain ⟨_, -, rfl⟩ := Option.map_eq_some_iff.mp hevent
    exact ⟨rfl, fun _ => ⟨rfl, rfl, rfl⟩, fun _ => rfl, fun _ => rfl,
      fun _ => ⟨⟨rfl, rfl, rfl, rfl, rfl⟩, rfl⟩⟩
  streamed := by
    rintro completion pending ⟨⟩

/-- A call that is over holds nothing. -/
theorem gone (serde : SerdeJson) (handed : Handed) :
    ArchivingCall.Sound serde ⟨.gone, handed⟩ where
  reserved := by
    rintro permit ⟨⟩
  unowned := fun _ => ⟨rfl, rfl⟩
  placed := by
    rintro ⟨⟩
  backed := by
    rintro event ⟨⟩
  streamed := by
    rintro completion pending ⟨⟩

/-- An event that was sent holds what its owner held. -/
theorem queued {handed : Handed} {sent : QueuedEvent}
    (hreserved : ∀ permit, sent.archiveBudget = some permit →
      permit.permits = archiveReservationBytes)
    (hbacked : sent.event.Backed serde handed sent.archiveBudget []) :
    ArchivingCall.Sound serde ⟨.queued sent, handed⟩ where
  reserved := hreserved
  unowned := by
    rintro ⟨⟩
  placed := fun _ => rfl
  backed := by
    rintro event hevent
    obtain rfl : sent.event = event := Option.some.inj hevent
    exact hbacked
  streamed := by
    rintro completion pending ⟨⟩

section Step

variable {handed : Handed} {audit : AuditTracker} {completion : StreamCompletion}
  {pending : List UInt8}

/-- A setter is called. -/
theorem perform (h : ArchivingCall.Sound serde ⟨.tracked audit, handed⟩) (update : TrackerUpdate) :
    ArchivingCall.Sound serde
      ⟨.tracked (audit.perform serde update), handed.perform update⟩ := by
  obtain ⟨hpermit, hbudget, hevent⟩ := audit.custody_perform serde update
  have hbacked : audit.Backed serde handed := h.backed
  have hisSome : (audit.perform serde update).event.isSome = audit.event.isSome := by
    rw [Bool.eq_iff_iff, Option.isSome_iff_ne_none, Option.isSome_iff_ne_none]
    exact not_congr hevent
  refine ⟨?_, fun hnone => ⟨?_, rfl⟩, fun hsome => ?_, hbacked.perform update, ?_⟩
  · change ∀ permit, (audit.perform serde update).archiveBudget = some permit → _
    rw [hbudget]
    exact h.reserved
  · exact hbudget.trans (h.unowned (hevent.mp hnone)).1
  · change (audit.perform serde update).permit.elim 0 (fun _ => 1) + 0 = 1
    rw [hpermit]
    exact h.placed (hisSome.symm.trans hsome)
  · rintro completion pending ⟨⟩

/-- The stream takes over what the tracker held. -/
theorem takeStream (h : ArchivingCall.Sound serde ⟨.tracked audit, handed⟩)
    (hbody : (audit.event.all fun event => event.responseBody.isNone) = true) (status : ℕ)
    (model : Option String) :
    ArchivingCall.Sound serde ⟨.streamed (audit.takeStream status model) [], handed⟩ := by
  have hbacked : audit.Backed serde handed := h.backed
  refine ⟨h.reserved, fun hnone => ?_, fun hsome => ?_, ?_, ?_⟩
  · exact ⟨(h.unowned (Option.map_eq_none_iff.mp hnone)).1, rfl⟩
  · exact h.placed (Option.isSome_map.symm.trans hsome)
  · exact hbacked.update fun event hevent => hevent.congr rfl
  · rintro completion pending heq event hevent
    obtain ⟨rfl, rfl⟩ : audit.takeStream status model = completion ∧ [] = pending := by
      injection heq with hcompletion hpending
      exact ⟨hcompletion, hpending⟩
    obtain ⟨old, hold, rfl⟩ := Option.map_eq_some_iff.mp hevent
    rw [hold] at hbody
    exact Option.isNone_iff_eq_none.mp hbody

/-- A chunk is captured. -/
theorem capture (h : ArchivingCall.Sound serde ⟨.streamed completion pending, handed⟩)
    (bytes : List UInt8) :
    ArchivingCall.Sound serde
      ⟨.streamed (completion.captureSse serde pending bytes).2
        (completion.captureSse serde pending bytes).1, handed.capture bytes⟩ := by
  have hcustody := StreamCompletion.toCustody_captureSse serde completion pending bytes
  have hevent := congrArg Custody.event hcustody
  have hbudget := congrArg Custody.archiveBudget hcustody
  have hpermit := congrArg Custody.permit hcustody
  have hbody := h.streamed completion pending rfl
  refine ⟨?_, fun hnone => ⟨?_, ?_⟩, fun hsome => ?_, fun event hsome => ?_, ?_⟩
  · change ∀ permit, (completion.captureSse serde pending bytes).2.archiveBudget = some permit → _
    rw [hbudget]
    exact h.reserved
  · exact hbudget.trans (h.unowned (hevent.symm.trans hnone)).1
  · have hold : completion.event = none := hevent.symm.trans hnone
    have hpreview := (h.unowned hold).2
    simpa [ArchivePhase.preview, StreamCompletion.captureSse, hold] using hpreview
  · change (completion.captureSse serde pending bytes).2.permit.elim 0 (fun _ => 1) + 0 = 1
    rw [hpermit]
    exact h.placed ((congrArg Option.isSome hevent).symm.trans hsome)
  · have hold : completion.event = some event := hevent.symm.trans hsome
    have hbacked := h.backed event hold
    change event.Backed serde (handed.capture bytes)
      (completion.captureSse serde pending bytes).2.archiveBudget
      (completion.captureSse serde pending bytes).2.responsePreview.body
    rw [hbudget]
    have hpreview : (completion.captureSse serde pending bytes).2.responsePreview =
        if event.requestArchive then completion.responsePreview.capture bytes
        else completion.responsePreview := by
      simp [StreamCompletion.captureSse, hold]
    rw [hpreview]
    cases harchive : event.requestArchive with
    | false => exact hbacked.of_plain harchive _
    | true =>
      refine ⟨hbacked.flag, hbacked.headers, hbacked.request, fun _ => ?_, fun hplain => ?_⟩
      · have hresponse := hbacked.response harchive
        rw [hbody event hold] at hresponse ⊢
        have hseen : completion.responsePreview.body.length =
            min handed.response archiveBodyLimit := by simpa [ArchivePhase.preview] using hresponse
        simpa [Handed.capture] using StreamingPreview.length_capture hseen bytes
      · exact absurd (harchive.symm.trans hplain) (by decide)
  · rintro next rest heq event hnext
    obtain ⟨rfl, -⟩ : (completion.captureSse serde pending bytes).2 = next ∧
        (completion.captureSse serde pending bytes).1 = rest := by
      injection heq with hcompletion hpending
      exact ⟨hcompletion, hpending⟩
    exact hbody event (hevent.symm.trans hnext)

/-- The writer takes the event. -/
theorem write {sent : QueuedEvent} (h : ArchivingCall.Sound serde ⟨.queued sent, handed⟩) :
    ArchivingCall.Sound serde ⟨.written sent, handed⟩ where
  reserved := h.reserved
  unowned := h.unowned
  placed := fun _ => rfl
  backed := h.backed
  streamed := by
    rintro completion pending ⟨⟩

/-- What a tracker sends. -/
theorem sent_of_tracked (h : ArchivingCall.Sound serde ⟨.tracked audit, handed⟩)
    {settled : AuditEvent → Except Panic AuditEvent}
    (hsettled : ∀ event final, settled event = .ok final → final.payload = event.payload)
    (queued : QueuedEvent) (hsent : audit.conclude settled = .ok [queued]) :
    queued.archiveBudget = audit.archiveBudget ∧ audit.event.isSome = true ∧
      queued.event.Backed serde handed audit.archiveBudget [] := by
  obtain ⟨event, hevent, hfinal⟩ := Custody.event_of_conclude hsent
  have hbacked : event.Backed serde handed audit.archiveBudget [] := h.backed event hevent
  refine ⟨Custody.archiveBudget_of_conclude hsent, ?_, hbacked.congr (hsettled event _ hfinal)⟩
  rw [hevent]
  rfl

/-- What the guard of a stream sends. -/
theorem sent_of_streamed (h : ArchivingCall.Sound serde ⟨.streamed completion pending, handed⟩)
    {settled : AuditEvent → Except Panic AuditEvent}
    (hsettled : ∀ event final, settled event = .ok final →
      ∃ (truncated : Bool) (bytes : Int), final.payload = AuditEvent.payload { event with
        responseBody := some completion.responsePreview.body
        responseBodyTruncated := truncated
        responseBytes := bytes })
    (queued : QueuedEvent) (hsent : completion.conclude settled = .ok [queued]) :
    queued.archiveBudget = completion.archiveBudget ∧ completion.event.isSome = true ∧
      queued.event.Backed serde handed completion.archiveBudget [] := by
  obtain ⟨event, hevent, hfinal⟩ := Custody.event_of_conclude hsent
  have hbacked : event.Backed serde handed completion.archiveBudget
      completion.responsePreview.body := h.backed event hevent
  have hbody := h.streamed completion pending rfl event hevent
  obtain ⟨truncated, bytes, hpayload⟩ := hsettled event _ hfinal
  refine ⟨Custody.archiveBudget_of_conclude hsent, ?_,
    (hbacked.streamed hbody truncated bytes).congr hpayload⟩
  rw [hevent]
  rfl

end Step

/-- The bytes of a call with a share are what was handed over. -/
theorem bytes_eq (h : call.Sound serde) (hbudget : call.phase.budget.isSome = true) :
    call.phase.bytes = call.handed.headerBytes serde +
      min call.handed.request archiveBodyLimit + min call.handed.response archiveBodyLimit := by
  cases hevent : call.phase.event with
  | none =>
    rw [(h.unowned hevent).1] at hbudget
    cases hbudget
  | some event =>
    rw [ArchivePhase.bytes, hevent]
    exact (h.backed event hevent).bytes_eq hbudget

/-- A call with a share keeps to it exactly if what was handed over fits. -/
theorem bytes_le_iff (h : call.Sound serde) (hbudget : call.phase.budget.isSome = true) :
    call.phase.bytes ≤ archiveReservationBytes ↔ call.handed.Fits serde := by
  have hbytes := h.bytes_eq hbudget
  unfold Handed.Fits archiveReservationBytes
  constructor
  · intro hle
    omega
  · intro hfits
    omega

/-- A call without a share holds at most a placeholder. -/
theorem bytes_of_plain (h : call.Sound serde) (hbudget : call.phase.budget = none) :
    (∀ event, call.phase.event = some event → event.payload.Bare) ∧
      call.phase.bytes ≤ 2 * (call.phase.place + call.phase.batched) := by
  cases hevent : call.phase.event with
  | none =>
    have hpreview := (h.unowned hevent).2
    rw [ArchivePhase.bytes, hevent, hpreview]
    refine ⟨?_, Nat.zero_le _⟩
    rintro event ⟨⟩
  | some event =>
    have hbacked := h.backed event hevent
    rw [hbudget] at hbacked
    obtain ⟨hbare, hbytes⟩ := hbacked.bytes_of_plain
    have hplaced := h.placed (by rw [hevent]; rfl)
    rw [ArchivePhase.bytes, hevent, hplaced]
    refine ⟨?_, le_of_eq hbytes⟩
    intro found hfound
    obtain rfl : event = found := Option.some.inj hfound
    exact hbare

/-- The permits of a call are none, or those of one reservation. -/
theorem permits_eq (h : call.Sound serde) : call.phase.permits =
    archiveReservationBytes * (if call.phase.budget.isSome then 1 else 0) := by
  rw [ArchivePhase.permits]
  cases hbudget : call.phase.budget with
  | none => rfl
  | some permit =>
    have hpermits := h.reserved permit hbudget
    simpa using hpermits

end ArchivingCall.Sound

end Call

end OpenAiLb
