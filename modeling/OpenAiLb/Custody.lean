import OpenAiLb.AuditTracker

/-!
# Custody of a reservation

What `AuditTracker::begin` obtained belongs together: a place in the queue, the event and
perhaps a share of the archive memory. Every owner of the three either holds all of them
or none, and giving them up sends the event once, with the share. Nothing but the price
can stand in the way of that.
-/

namespace OpenAiLb

namespace AuditEvent

variable {begun event next : AuditEvent}

/-- An event belongs to its own call. -/
theorem SameCall.rfl : event.SameCall event :=
  ⟨Eq.refl _, Eq.refl _, Eq.refl _, Eq.refl _, Eq.refl _, Eq.refl _, Eq.refl _, Eq.refl _,
    Eq.refl _, Eq.refl _⟩

/-- Belonging to one call is transitive. -/
theorem SameCall.trans (h : begun.SameCall event) (hnext : event.SameCall next) :
    begun.SameCall next := by
  unfold SameCall at *
  simp_all only [and_self]

/-- An event goes on as itself. -/
theorem Ongoing.rfl : event.Ongoing event := ⟨SameCall.rfl, Eq.refl _⟩

/-- Going on is transitive. -/
theorem Ongoing.trans (h : begun.Ongoing event) (hnext : event.Ongoing next) :
    begun.Ongoing next := ⟨h.1.trans hnext.1, hnext.2.trans h.2⟩

end AuditEvent

section Settle

variable {event : AuditEvent} {status : Int} {model : Option String} {usage : Usage}
  {error : Option String} {elapsed : Int}

/-- The price of the usage is computed without a panic. -/
def Payable (model : Option String) (usage : Usage) : Prop :=
  ∀ name, model = some name → chargesCacheWrites name = true → 0 ≤ usage.inputTokens

/-- Without a model there is no price that could overflow. -/
theorem payable_none (usage : Usage) : Payable none usage := by
  rintro name ⟨⟩

/-- The price of a count that is not negative does not overflow. -/
theorem payable_of_nonneg (model : Option String) (h : 0 ≤ usage.inputTokens) :
    Payable model usage := fun _ _ _ => h

/-- Settling an event neither changes whose it is nor its transport size. -/
theorem settle_ok (h : Payable model usage) :
    ∃ settled, settle event status model usage error elapsed = .ok settled ∧
      event.Ongoing settled := by
  unfold settle
  cases model with
  | none => exact ⟨_, rfl, AuditEvent.Ongoing.rfl⟩
  | some name =>
    obtain ⟨cost, hcost⟩ := costUsdNanos_isOk (h name rfl)
    rw [Option.elim_some, hcost]
    exact ⟨_, rfl, AuditEvent.Ongoing.rfl⟩

/-- A usage that cannot be priced aborts the settling. -/
theorem settle_error {name : String} (hmodel : chargesCacheWrites name = true)
    (hinput : usage.inputTokens < 0) :
    settle event status (some name) usage error elapsed = .error .clampBounds := by
  rw [settle, Option.elim_some, costUsdNanos_of_negative hmodel hinput]
  rfl

end Settle

/-- What `AuditTracker::begin` obtained for a call. -/
structure Reservation where
  begun : AuditEvent
  archiveBudget : Option OwnedSemaphorePermit

/-- The reservation of a call, if its place in the queue could be reserved. -/
def Reservations.reservation (reservations : Reservations) (identity : ApiIdentity)
    (call : CallStart) : Option Reservation :=
  if reservations.queue then
    let archiveBudget :=
      if identity.requestArchive && reservations.archive then
        some (OwnedSemaphorePermit.mk archiveReservationBytes)
      else none
    some ⟨.begin call identity archiveBudget.isSome, archiveBudget⟩
  else none

/-- **All or nothing**: the reservation is in the hands of its owner, with an event of the same
call. `same` says how far that event may differ from the one that was begun. -/
def Custody.Holds (same : AuditEvent → AuditEvent → Prop) (custody : Custody) :
    Option Reservation → Prop
  | none => custody = ⟨none, none, none⟩
  | some reservation =>
    custody.permit = some ⟨⟩ ∧ custody.archiveBudget = reservation.archiveBudget ∧
      ∃ event, custody.event = some event ∧ same reservation.begun event

/-- **Exactly one event**: a reserved place is used once, with the share of the archive memory
that was acquired; without a place nothing is sent. -/
def Delivered (same : AuditEvent → AuditEvent → Prop) (sent : List QueuedEvent) :
    Option Reservation → Prop
  | none => sent = []
  | some reservation =>
    ∃ event, sent = [⟨event, reservation.archiveBudget⟩] ∧ same reservation.begun event

section Hand

variable {same : AuditEvent → AuditEvent → Prop} {reservation : Option Reservation}
  {custody : Custody}

/-- A reserved call can be told from one that is not by the event. -/
theorem Custody.Holds.event_isSome (h : custody.Holds same reservation) :
    custody.event.isSome = reservation.isSome := by
  cases reservation with
  | none => rw [show custody = ⟨none, none, none⟩ from h]; rfl
  | some r =>
    obtain ⟨-, -, event, hevent, -⟩ := h
    rw [hevent]
    rfl

/-- Custody may be stated with a wider relation between the events. -/
theorem Custody.Holds.imp {wider : AuditEvent → AuditEvent → Prop}
    (h : custody.Holds same reservation)
    (himp : ∀ begun event, same begun event → wider begun event) :
    custody.Holds wider reservation := by
  cases reservation with
  | none => exact h
  | some r =>
    obtain ⟨hpermit, hbudget, event, hevent, hsame⟩ := h
    exact ⟨hpermit, hbudget, event, hevent, himp _ _ hsame⟩

/-- Delivery may be stated with a wider relation between the events. -/
theorem Delivered.imp {wider : AuditEvent → AuditEvent → Prop} {sent : List QueuedEvent}
    (h : Delivered same sent reservation)
    (himp : ∀ begun event, same begun event → wider begun event) :
    Delivered wider sent reservation := by
  cases reservation with
  | none => exact h
  | some r =>
    obtain ⟨event, hsent, hsame⟩ := h
    exact ⟨event, hsent, himp _ _ hsame⟩

/-- **A change of the event keeps the rest of the reservation.** -/
theorem Custody.Holds.map (h : custody.Holds same reservation) {f : AuditEvent → AuditEvent}
    (hf : ∀ begun event, same begun event → same begun (f event)) :
    Custody.Holds same { custody with event := custody.event.map f } reservation := by
  cases reservation with
  | none =>
    obtain rfl : custody = ⟨none, none, none⟩ := h
    rfl
  | some r =>
    obtain ⟨hpermit, hbudget, event, hevent, hsame⟩ := h
    exact ⟨hpermit, hbudget, f event, by rw [hevent]; rfl, hf _ _ hsame⟩

/-- A change of the event keeps the custody, if the event goes on. -/
theorem AuditTracker.holds_update {audit : AuditTracker} {f : AuditEvent → AuditEvent}
    (h : audit.Holds same reservation)
    (hf : ∀ begun event, same begun event → same begun (f event)) :
    (audit.update f).Holds same reservation := h.map hf

/-- So does a change of an archived event. -/
theorem AuditTracker.holds_updateArchived {audit : AuditTracker} {f : AuditEvent → AuditEvent}
    (h : audit.Holds same reservation)
    (hf : ∀ begun event, same begun event → same begun (f event)) :
    (audit.updateArchived f).Holds same reservation := by
  refine h.map fun begun event hsame => ?_
  split
  · exact hf begun event hsame
  · exact hsame

/-- The tracker holds what `begin` obtained. -/
theorem AuditTracker.holds_begin (reservations : Reservations) (identity : ApiIdentity)
    (call : CallStart) (started : ℕ) :
    (AuditTracker.begin reservations identity call started).Holds AuditEvent.Ongoing
      (reservations.reservation identity call) := by
  obtain ⟨queue, archive⟩ := reservations
  cases queue with
  | false => rfl
  | true =>
    have hbudget : (AuditTracker.begin ⟨true, archive⟩ identity call started).archiveBudget =
        if identity.requestArchive && archive then
          some (OwnedSemaphorePermit.mk archiveReservationBytes)
        else none := by
      cases harchive : identity.requestArchive <;> cases archive <;>
        simp [AuditTracker.begin, harchive]
    refine ⟨rfl, hbudget, _, rfl, ?_⟩
    rw [← hbudget]
    exact AuditEvent.Ongoing.rfl

/-- **Concluding a call sends its event once**, as long as it can be settled. -/
theorem Custody.Holds.conclude (h : custody.Holds same reservation)
    {settled : AuditEvent → Except Panic AuditEvent}
    (hsettled : ∀ event, custody.event = some event →
      ∃ final, settled event = .ok final ∧ event.Ongoing final)
    (hsame : ∀ begun event final, same begun event → event.Ongoing final → same begun final) :
    ∃ sent, custody.conclude settled = .ok sent ∧ Delivered same sent reservation := by
  cases reservation with
  | none =>
    obtain rfl : custody = ⟨none, none, none⟩ := h
    exact ⟨[], rfl, rfl⟩
  | some r =>
    obtain ⟨hpermit, hbudget, event, hevent, hbegun⟩ := h
    obtain ⟨final, hfinal, hongoing⟩ := hsettled event hevent
    refine ⟨[⟨final, r.archiveBudget⟩], ?_, final, rfl, hsame _ _ _ hbegun hongoing⟩
    rw [Custody.conclude, hevent]
    dsimp only
    rw [hfinal, Except.bind, Custody.deliver, hpermit, hbudget]
    rfl

/-- **A dropped tracker sends its event**: what it settles has no price. -/
theorem AuditTracker.drop_ok {audit : AuditTracker} (h : audit.Holds same reservation)
    (hsame : ∀ begun event final, same begun event → event.Ongoing final → same begun final)
    (now : ℕ) : ∃ sent, audit.drop now = .ok sent ∧ Delivered same sent reservation := by
  refine h.conclude (fun event _ => ?_) hsame
  exact settle_ok (payable_none _)

/-- A tracker whose event is gone sends nothing. -/
theorem AuditTracker.drop_of_none {audit : AuditTracker} (h : audit.event = none) (now : ℕ) :
    audit.drop now = .ok [] := by
  rw [AuditTracker.drop, Custody.conclude, h]

/-- **A finished stream sends its event**: the usage that it merged is never negative. -/
theorem StreamCompletion.finish_ok {completion : StreamCompletion}
    (h : completion.Holds same reservation)
    (hsame : ∀ begun event final, same begun event → event.Ongoing final → same begun final)
    (husage : 0 ≤ completion.usage.inputTokens) (failed : Bool) (now : ℕ) :
    ∃ sent, completion.finish failed now = .ok sent ∧ Delivered same sent reservation := by
  refine h.conclude (fun event _ => ?_) hsame
  exact settle_ok (payable_of_nonneg _ husage)

/-- **A dropped stream sends its event**, for the same reason. -/
theorem StreamCompletion.drop_ok {completion : StreamCompletion}
    (h : completion.Holds same reservation)
    (hsame : ∀ begun event final, same begun event → event.Ongoing final → same begun final)
    (husage : 0 ≤ completion.usage.inputTokens) (now : ℕ) :
    ∃ sent, completion.drop now = .ok sent ∧ Delivered same sent reservation := by
  refine h.conclude (fun event _ => ?_) hsame
  exact settle_ok (payable_of_nonneg _ husage)

end Hand

section Capture

variable {same : AuditEvent → AuditEvent → Prop} {reservation : Option Reservation}

/-- Capturing a chunk touches nothing that is owned. -/
theorem StreamCompletion.toCustody_captureSse (serde : SerdeJson) (completion : StreamCompletion)
    (pending bytes : List UInt8) :
    (completion.captureSse serde pending bytes).2.toCustody = completion.toCustody := by
  unfold captureSse
  split <;> rfl

/-- The input tokens never decrease while a stream is read. -/
theorem StreamCompletion.usage_captureSse (serde : SerdeJson) (completion : StreamCompletion)
    (pending bytes : List UInt8) : completion.usage.inputTokens ≤
      (completion.captureSse serde pending bytes).2.usage.inputTokens := by
  unfold captureSse
  split
  · exact le_refl _
  · exact le_inputTokens_updateSseUsage serde pending bytes completion.usage

/-- The stream takes over what the tracker held. -/
theorem AuditTracker.holds_takeStream {audit : AuditTracker} (h : audit.Holds same reservation)
    (hsame : ∀ begun event final, same begun event → event.Ongoing final → same begun final)
    (status : ℕ) (model : Option String) :
    (audit.takeStream status model).Holds same reservation := by
  refine h.map fun begun event hbegun => ?_
  exact hsame begun event _ hbegun AuditEvent.Ongoing.rfl

end Capture

end OpenAiLb
