import OpenAiLb.CallNode
import OpenAiLb.Library.Tasks

/-!
# The order of the messages

Whatever a call has put into the queue is known from its phase: nothing before its event,
the event alone until the outermost stream has ended, and then perhaps the message of the
transport recorder. The queue interleaves the messages of all calls and keeps the order
of each. So a transport message never comes before the event of its call, and what it
writes is still there when everything before it was applied.
-/

namespace OpenAiLb

open Stoppable

/-- An event of the call, with the transport size of `begin` if the response is streamed. -/
def AuditEvent.Reports (streamed : Bool) (begun event : AuditEvent) : Prop :=
  begun.SameCall event ∧
    (streamed = true → event.responseTransportBytes = begun.responseTransportBytes)

/-- The event is all that the call has sent. -/
def Announced (streamed : Bool) (reservation : Reservation) (messages : List QueuedAudit) : Prop :=
  ∃ event, messages = [.event event] ∧ AuditEvent.Reports streamed reservation.begun event

/-- The transport message follows the event. -/
def Completed (streamed : Bool) (reservation : Reservation) (bytes : ℕ)
    (messages : List QueuedAudit) : Prop :=
  ∃ event encoding headers, AuditEvent.Reports streamed reservation.begun event ∧
    messages = [.event event,
      .responseTransport reservation.begun.id bytes encoding headers]

namespace CallPhase

/-- The call of a phase. -/
def call : CallPhase → HandlerCall
  | .handling call | .delivering call _ | .over call _ _ => call

/-- The call still has to send its event. -/
def owes : CallPhase → Bool
  | .handling _ => true
  | .delivering _ ⟨_, .stream stream, _⟩ => !stream.ended
  | _ => false

/-- A response on its way is that of the call, and the guard of a streamed body is in order. -/
def Sound : CallPhase → Prop
  | .delivering call ⟨id, body, _⟩ =>
    id = call.reservation.map (fun r => r.begun.transportId) ∧
      ∀ stream, body = .stream stream → stream.Owes call.reservation (!stream.ended)
  | _ => True

/-- What a call with a reservation has put into the queue, in order. -/
def Told (reservation : Reservation) (messages : List QueuedAudit) : CallPhase → Prop
  | .handling _ => messages = []
  | .delivering _ ⟨_, .bytes _, _⟩ => Announced false reservation messages
  | .delivering _ ⟨_, .stream stream, _⟩ =>
    if stream.ended then Announced true reservation messages else messages = []
  | .over _ streamed .unanswered =>
    streamed = false ∧ (messages = [] ∨ Announced false reservation messages)
  | .over _ streamed (.completed yielded true) => Completed streamed reservation yielded messages
  | .over _ streamed (.completed _ false) | .over _ streamed (.disconnected _) =>
    Announced streamed reservation messages

end CallPhase

/-- The reservation of a call that got a place in the queue. -/
theorem HandlerCall.reservation_of_queue {call : HandlerCall}
    (h : call.reservations.queue = true) : ∃ r, call.reservation = some r ∧
      r.begun = .begin call.start call.identity
        (call.identity.requestArchive && call.reservations.archive) := by
  refine ⟨_, by rw [HandlerCall.reservation, Reservations.reservation, if_pos h], ?_⟩
  cases hbudget : call.identity.requestArchive && call.reservations.archive <;>
    simp

/-- The id of an event is that of its call. -/
theorem HandlerCall.id_of_reservation {call : HandlerCall} {r : Reservation}
    (h : call.reservation = some r) : r.begun.id = call.eventId := by
  unfold HandlerCall.reservation Reservations.reservation at h
  split at h
  · cases h
    rfl
  · cases h

/-- A call begins with a transport size of zero. -/
theorem HandlerCall.bytes_of_reservation {call : HandlerCall} {r : Reservation}
    (h : call.reservation = some r) : r.begun.responseTransportBytes = 0 := by
  unfold HandlerCall.reservation Reservations.reservation at h
  split at h
  · cases h
    rfl
  · cases h

/-- **The messages of one call are in order**, in every phase. -/
theorem CallPhase.Told.ordered {phase : CallPhase} {r : Reservation} {messages : List QueuedAudit}
    (h : phase.Told r messages) : auditJournal.Ordered messages := by
  have hnone : auditJournal.Ordered [] := Journal.ordered_nil
  have hevent : ∀ event, auditJournal.Ordered [.event event] := fun event =>
    hnone.concat fun hupdate => by cases hupdate
  have hannounced : ∀ {streamed}, Announced streamed r messages →
      auditJournal.Ordered messages := by
    rintro streamed ⟨event, rfl, -⟩
    exact hevent event
  unfold Told at h
  split at h
  · exact h ▸ hnone
  · exact hannounced h
  · split at h
    · exact hannounced h
    · exact h ▸ hnone
  · obtain ⟨-, rfl | hlast⟩ := h
    · exact hnone
    · exact hannounced hlast
  · obtain ⟨event, encoding, headers, ⟨hsame, -⟩, rfl⟩ := h
    exact (hevent event).concat fun _ => ⟨_, List.mem_singleton_self _, hsame.1, rfl⟩
  · exact hannounced h
  · exact hannounced h

/-- The call is in the phase, and its place in the queue was reserved. -/
def CallNode.Reserved (s : CallNode) (i : ℕ) (phase : CallPhase) (r : Reservation) : Prop :=
  s.calls[i]? = some phase ∧ phase.call.reservation = some r

/-- A transport message comes right after the event of its call, and is the only one. -/
theorem CallPhase.Told.eq_of_mem {phase : CallPhase} {r : Reservation}
    {messages : List QueuedAudit} (h : phase.Told r messages) {id : String} {bytes : Int}
    {encoding headers : Option String}
    (hm : .responseTransport id bytes encoding headers ∈ messages) :
    ∃ event, messages = [.event event, .responseTransport id bytes encoding headers] ∧
      r.begun.SameCall event := by
  have hnever : ∀ {streamed}, ¬ Announced streamed r messages := by
    rintro streamed ⟨event, rfl, -⟩
    simp at hm
  have hnone : messages ≠ [] := List.ne_nil_of_mem hm
  unfold Told at h
  split at h
  · exact absurd h hnone
  · exact absurd h hnever
  · split at h
    · exact absurd h hnever
    · exact absurd h hnone
  · exact absurd h.2 (not_or.mpr ⟨hnone, hnever⟩)
  · obtain ⟨event, encoding', headers', hreports, rfl⟩ := h
    refine ⟨event, ?_, hreports.1⟩
    simp only [List.mem_cons, reduceCtorEq, List.not_mem_nil, or_false, false_or] at hm
    rw [hm]
  · exact absurd h hnever
  · exact absurd h hnever

/-- A call that still has to send its event has sent nothing. -/
theorem CallPhase.Told.eq_nil {phase : CallPhase} {r : Reservation} {messages : List QueuedAudit}
    (h : phase.Told r messages) (howes : phase.owes = true) : messages = [] := by
  unfold Told at h
  unfold owes at howes
  split at h
  · exact h
  · cases howes
  · next stream yielded =>
    rw [if_neg (by simpa using howes)] at h
    exact h
  all_goals cases howes

/-- **The invariant** of the calls and the queue, for tables that began with `start`. -/
structure CallNode.Consistent (start : AuditDatabase) (s : CallNode) : Prop where
  /-- Every message is committed, in the batch or in the queue. -/
  account : s.log = messagesOf s.history ++ (s.audit.batch ++ s.audit.queue)
  /-- The history is what happened to the tables. -/
  replayed : start.replay s.history = .ok s.audit.db
  /-- A call with a reservation has an id of its own. -/
  unique : ∀ {i j phase other r r'}, s.Reserved i phase r → s.Reserved j other r' →
    phase.call.eventId = other.call.eventId → i = j
  issued : ∀ {i phase r}, s.Reserved i phase r → phase.call.eventId ∈ s.audit.issued
  /-- Every message is about a call with a reservation. -/
  known : ∀ m ∈ s.log, ∃ i phase r, s.Reserved i phase r ∧ phase.call.eventId = m.id
  sound : ∀ (i : ℕ) (phase : CallPhase), s.calls[i]? = some phase → phase.Sound
  told : ∀ {i phase r}, s.Reserved i phase r →
    phase.Told r (auditJournal.about phase.call.eventId s.log)
  /-- The calls that still have to send their events hold places in the queue. -/
  places : ∀ {i phase r}, s.Reserved i phase r → phase.owes = true → r.begun ∈ s.audit.trackers
  trackers : (s.audit.trackers.map AuditEvent.id).Nodup
  begun : ∀ event ∈ s.audit.trackers, event.id ∈ s.audit.issued

namespace CallNode

variable {start : AuditDatabase} {s t : CallNode}

/-- At the start nothing has been written and nothing is waiting. -/
theorem Started.consistent (h : s.Started) : s.Consistent s.audit.db := by
  have hnone : ∀ (i : ℕ) (phase : CallPhase), s.calls[i]? ≠ some phase := by
    simp [h.calls]
  refine ⟨?_, ?_, fun hi _ _ => absurd hi.1 (hnone _ _), fun hi => absurd hi.1 (hnone _ _), ?_,
    fun i phase hi => absurd hi (hnone i phase), fun hi => absurd hi.1 (hnone _ _),
    fun hi _ => absurd hi.1 (hnone _ _), ?_, ?_⟩
  · simp [h.log, h.history, h.audit.batch, h.audit.queue, messagesOf]
  · rw [h.history]
    rfl
  · simp [h.log]
  · simp [h.audit.trackers]
  · simp [h.audit.trackers]

/-- A step of the audit that no call makes. -/
theorem Consistent.inner (h : s.Consistent start) {a : AuditStep} (hinner : a.ofCall = false)
    {audit : AuditNode} (hstep : s.audit.step a = some audit) :
    Consistent start
      { s with audit := audit, history := s.history ++ s.audit.effects a } := by
  obtain ⟨htrackers, hissued, hmessages, htables⟩ := AuditNode.inner_step hinner hstep
  refine ⟨?_, ?_, h.unique, fun hi => hissued _ (h.issued hi), h.known, h.sound, h.told,
    fun hi howes => htrackers ▸ h.places hi howes, htrackers ▸ h.trackers,
    fun event hevent => hissued _ (h.begun event (htrackers ▸ hevent))⟩
  · rw [h.account, messagesOf_append, List.append_assoc, hmessages]
  · rw [AuditDatabase.replay_append h.replayed, htables]

/-- What the audit does when a call begins. -/
theorem step_begin {audit next : AuditNode} {identity : ℕ} {call : HandlerCall}
    (hidentity : audit.identities[identity]? = some call.identity)
    (hqueue : call.reservations.queue = decide audit.HasPlace)
    (h : audit.step (.begin identity call.start call.reservations.archive) = some next) :
    call.eventId ∉ audit.issued ∧ next.db = audit.db ∧ next.batch = audit.batch ∧
      next.queue = audit.queue ∧
        ((∃ r, call.reservation = some r ∧ next.trackers = audit.trackers ++ [r.begun] ∧
            next.issued = call.eventId :: audit.issued) ∨
          call.reservation = none ∧ next.trackers = audit.trackers ∧
            next.issued = audit.issued) := by
  obtain ⟨found, hfound, hbegun⟩ := Option.bind_eq_some_iff.mp h
  obtain rfl : found = call.identity := Option.some.inj (hfound.symm.trans hidentity)
  split at hbegun
  · cases hbegun
  · next hfresh =>
    split at hbegun
    · next hplace =>
      cases hbegun
      rw [decide_eq_true hplace] at hqueue
      obtain ⟨r, hr, hbegun⟩ := HandlerCall.reservation_of_queue hqueue
      exact ⟨hfresh, rfl, rfl, rfl, Or.inl ⟨r, hr, hbegun ▸ rfl, rfl⟩⟩
    · next hfull =>
      cases hbegun
      rw [decide_eq_false hfull] at hqueue
      refine ⟨hfresh, rfl, rfl, rfl, Or.inr ⟨?_, rfl, rfl⟩⟩
      rw [HandlerCall.reservation, Reservations.reservation, if_neg (by simp [hqueue])]

/-- A call begins, with a new id. -/
theorem Consistent.begin (h : s.Consistent start) {identity : ℕ} {call : HandlerCall}
    (hidentity : s.audit.identities[identity]? = some call.identity)
    (hqueue : call.reservations.queue = decide s.audit.HasPlace) {audit : AuditNode}
    (hstep : s.audit.step (.begin identity call.start call.reservations.archive) = some audit) :
    Consistent start { s with audit := audit, calls := s.calls ++ [.handling call] } := by
  obtain ⟨hfresh, hdb, hbatch, hwaiting, hbegun⟩ := step_begin hidentity hqueue hstep
  have hissued : ∀ id ∈ s.audit.issued, id ∈ audit.issued := by
    rcases hbegun with ⟨r, -, -, hmore⟩ | ⟨-, -, hsame⟩
    · exact fun id hid => hmore ▸ List.mem_cons_of_mem _ hid
    · exact fun id hid => hsame ▸ hid
  have hkept : ∀ event ∈ s.audit.trackers, event ∈ audit.trackers := by
    rcases hbegun with ⟨r, -, hmore, -⟩ | ⟨-, hsame, -⟩
    · exact fun event hevent => hmore ▸ List.mem_append_left _ hevent
    · exact fun event hevent => hsame ▸ hevent
  -- A call with a reservation is an old one, or the new one.
  have hcases : ∀ {i phase r},
      Reserved { s with audit := audit, calls := s.calls ++ [.handling call] } i phase r →
        s.Reserved i phase r ∨ i = s.calls.length ∧ phase = .handling call ∧
          audit.trackers = s.audit.trackers ++ [r.begun] ∧
            audit.issued = call.eventId :: s.audit.issued := by
    rintro i phase r ⟨hfound, hreservation⟩
    rcases Tasks.of_start hfound with hold | ⟨rfl, rfl⟩
    · exact Or.inl ⟨hold, hreservation⟩
    · rcases hbegun with ⟨r', hr', hmore⟩ | ⟨hnone, -⟩
      · obtain rfl : r' = r := Option.some.inj (hr'.symm.trans hreservation)
        exact Or.inr ⟨rfl, rfl, hmore⟩
      · cases hnone.symm.trans hreservation
  refine ⟨?_, hdb ▸ h.replayed, ?_, ?_, ?_, ?_, ?_, ?_, ?_, ?_⟩
  · rw [hbatch, hwaiting]
    exact h.account
  · intro i j phase other r r' hi hj hid
    rcases hcases hi with hi | ⟨rfl, rfl, -⟩ <;> rcases hcases hj with hj | ⟨rfl, rfl, -⟩
    · exact h.unique hi hj hid
    · exact absurd (hid ▸ h.issued hi) hfresh
    · exact absurd (hid ▸ h.issued hj) hfresh
    · rfl
  · intro i phase r hi
    rcases hcases hi with hi | ⟨rfl, rfl, -, hmore⟩
    · exact hissued _ (h.issued hi)
    · rw [hmore]
      exact List.mem_cons_self
  · intro m hm
    obtain ⟨i, phase, r, hi, hid⟩ := h.known m hm
    exact ⟨i, phase, r, ⟨Tasks.start_other hi.1, hi.2⟩, hid⟩
  · intro i phase hfound
    rcases Tasks.of_start hfound with hold | ⟨rfl, rfl⟩
    · exact h.sound i phase hold
    · trivial
  · intro i phase r hi
    rcases hcases hi with hi | ⟨rfl, rfl, -⟩
    · exact h.told hi
    · refine Journal.about_eq_nil fun m hm => ?_
      obtain ⟨i, phase, r, hi, hid⟩ := h.known m hm
      intro heq
      have hsame : phase.call.eventId = call.eventId := hid.trans heq
      exact hfresh (hsame ▸ h.issued hi)
  · intro i phase r hi howes
    rcases hcases hi with hi | ⟨rfl, rfl, hmore, -⟩
    · exact hkept _ (h.places hi howes)
    · rw [hmore]
      exact List.mem_append_right _ (List.mem_singleton_self _)
  · rcases hbegun with ⟨r, hr, hmore, -⟩ | ⟨-, hsame, -⟩
    · rw [hmore, List.map_append, List.nodup_append]
      refine ⟨h.trackers, List.nodup_singleton _, ?_⟩
      rintro id hid other hother rfl
      obtain ⟨event, hevent, rfl⟩ := List.mem_map.mp hid
      have hnew : event.id = r.begun.id := by simpa using hother
      exact hfresh (HandlerCall.id_of_reservation hr ▸ hnew ▸ h.begun event hevent)
    · exact hsame ▸ h.trackers
  · intro event hevent
    rcases hbegun with ⟨r, hr, hmore, hid⟩ | ⟨-, hsame, -⟩
    · rw [hmore, List.mem_append, List.mem_singleton] at hevent
      rcases hevent with hold | rfl
      · exact hissued _ (h.begun event hold)
      · rw [hid, HandlerCall.id_of_reservation hr]
        exact List.mem_cons_self
    · exact hissued _ (h.begun event (hsame ▸ hevent))

/-- **What a step of a call does**: the call goes on to the next phase, and what it sends is in the
queue. A place that it no longer needs is given up. -/
structure Advances (s t : CallNode) (i : ℕ) (phase next : CallPhase)
    (sent : List QueuedAudit) : Prop where
  found : s.calls[i]? = some phase
  call : next.call = phase.call
  calls : t.calls = s.calls.set i next
  history : t.history = s.history
  log : t.log = s.log ++ sent
  db : t.audit.db = s.audit.db
  issued : t.audit.issued = s.audit.issued
  batch : t.audit.batch = s.audit.batch
  queue : t.audit.queue = s.audit.queue ++ sent
  trackers : t.audit.trackers.Sublist s.audit.trackers
  others : ∀ event ∈ s.audit.trackers,
    (∀ r, phase.call.reservation = some r → event.id ≠ phase.call.eventId) →
      event ∈ t.audit.trackers
  own : next.owes = true → phase.owes = true ∧ t.audit.trackers = s.audit.trackers
  ids : ∀ m ∈ sent, m.id = phase.call.eventId ∧ ∃ r, phase.call.reservation = some r

variable {i : ℕ} {phase next : CallPhase} {sent : List QueuedAudit}

/-- **The invariant is a matter of the call that moves**: it has to be in order, and its messages
have to be those of its new phase. -/
theorem Consistent.advance (h : s.Consistent start) (ha : Advances s t i phase next sent)
    (hsound : next.Sound)
    (htold : ∀ r messages, phase.call.reservation = some r → phase.Told r messages →
      next.Told r (messages ++ sent)) : t.Consistent start := by
  -- A call with a reservation is the one that moved, or another one, with another id.
  have hcases : ∀ {j other r}, t.Reserved j other r →
      (j = i ∧ other = next ∧ s.Reserved i phase r) ∨
        s.Reserved j other r ∧ (∀ r', s.Reserved i phase r' →
          phase.call.eventId ≠ other.call.eventId) := by
    rintro j other r ⟨hfound, hreservation⟩
    rw [ha.calls] at hfound
    rcases Tasks.of_set ha.found hfound with ⟨rfl, rfl⟩ | ⟨hne, hold⟩
    · exact Or.inl ⟨rfl, rfl, ha.found, ha.call ▸ hreservation⟩
    · exact Or.inr ⟨⟨hold, hreservation⟩, fun r' hi hid =>
        hne (h.unique hi ⟨hold, hreservation⟩ hid).symm⟩
  have hback : ∀ {j other r}, t.Reserved j other r →
      ∃ old, s.Reserved j old r ∧ old.call = other.call := by
    intro j other r hj
    rcases hcases hj with ⟨rfl, rfl, hi⟩ | ⟨hj, -⟩
    · exact ⟨phase, hi, ha.call.symm⟩
    · exact ⟨other, hj, rfl⟩
  have hnext : ∀ {r}, phase.call.reservation = some r → t.Reserved i next r := fun hr =>
    ⟨ha.calls ▸ Tasks.set_self ha.found, ha.call ▸ hr⟩
  refine ⟨?_, ?_, ?_, ?_, ?_, ?_, ?_, ?_, ?_, ?_⟩
  · rw [ha.log, ha.history, ha.batch, ha.queue, h.account]
    simp only [List.append_assoc]
  · rw [ha.history, ha.db]
    exact h.replayed
  · intro j k one other r r' hj hk hid
    obtain ⟨old, hold, hone⟩ := hback hj
    obtain ⟨old', hold', hother⟩ := hback hk
    exact h.unique hold hold' (by rw [hone, hother, hid])
  · intro j other r hj
    obtain ⟨old, hold, hcall⟩ := hback hj
    rw [ha.issued, ← hcall]
    exact h.issued hold
  · intro m hm
    rw [ha.log] at hm
    rcases List.mem_append.mp hm with hold | hnew
    · obtain ⟨j, old, r, hj, hid⟩ := h.known m hold
      by_cases heq : i = j
      · subst heq
        obtain rfl : phase = old := Option.some.inj (ha.found.symm.trans hj.1)
        exact ⟨i, next, r, hnext hj.2, ha.call ▸ hid⟩
      · exact ⟨j, old, r, ⟨ha.calls ▸ Tasks.set_other heq hj.1, hj.2⟩, hid⟩
    · obtain ⟨hid, r, hr⟩ := ha.ids m hnew
      exact ⟨i, next, r, hnext hr, by rw [ha.call, hid]⟩
  · intro j other hfound
    rw [ha.calls] at hfound
    rcases Tasks.of_set ha.found hfound with ⟨-, rfl⟩ | ⟨-, hold⟩
    · exact hsound
    · exact h.sound j other hold
  · intro j other r hj
    rw [ha.log, Journal.about_append]
    rcases hcases hj with ⟨rfl, rfl, hi⟩ | ⟨hold, hother⟩
    · have hall : auditJournal.about other.call.eventId sent = sent :=
        Journal.about_eq_self fun m hm => ha.call ▸ (ha.ids m hm).1
      rw [hall, ha.call]
      exact htold r _ hi.2 (h.told hi)
    · have hnone : auditJournal.about other.call.eventId sent = [] := by
        refine Journal.about_eq_nil fun m hm heq => ?_
        obtain ⟨hid, r', hr'⟩ := ha.ids m hm
        exact hother r' ⟨ha.found, hr'⟩ (hid.symm.trans heq)
      rw [hnone, List.append_nil]
      exact h.told hold
  · intro j other r hj howes
    rcases hcases hj with ⟨rfl, rfl, hi⟩ | ⟨hold, hother⟩
    · obtain ⟨hbefore, hsame⟩ := ha.own howes
      exact hsame ▸ h.places hi hbefore
    · refine ha.others _ (h.places hold howes) fun r' hr' heq => ?_
      rw [HandlerCall.id_of_reservation hold.2] at heq
      exact hother r' ⟨ha.found, hr'⟩ heq.symm
  · exact h.trackers.sublist (ha.trackers.map AuditEvent.id)
  · intro event hevent
    rw [ha.issued]
    exact h.begun event (ha.trackers.subset hevent)

/-- The tracker of a call is the one with its id. -/
theorem id_trackerOf {id : String} (h : s.trackerOf id < s.audit.trackers.length) :
    (s.audit.trackers[s.trackerOf id]).id = id :=
  of_decide_eq_true (List.findIdx_getElem (w := h))

/-- The place of another call stays. -/
theorem mem_eraseIdx_trackerOf {event : AuditEvent} {id : String}
    (h : event ∈ s.audit.trackers) (hne : event.id ≠ id) :
    event ∈ s.audit.trackers.eraseIdx (s.trackerOf id) := by
  obtain ⟨j, hj, rfl⟩ := List.mem_iff_getElem.mp h
  rw [List.mem_eraseIdx_iff_getElem]
  refine ⟨j, hj, fun heq => hne ?_, rfl⟩
  subst heq
  exact id_trackerOf hj

/-- A call goes on without a message. -/
theorem advances_enter (hfound : s.calls[i]? = some phase) (hcall : next.call = phase.call)
    (howes : next.owes = true → phase.owes = true) :
    Advances s (s.enter i next) i phase next [] where
  found := hfound
  call := hcall
  calls := rfl
  history := rfl
  log := (List.append_nil s.log).symm
  db := rfl
  issued := rfl
  batch := rfl
  queue := (List.append_nil s.audit.queue).symm
  trackers := List.Sublist.refl _
  others _ hevent _ := hevent
  own h := ⟨howes h, rfl⟩
  ids _ hm := absurd hm List.not_mem_nil

/-- A call gives its place up. -/
theorem advances_release (hfound : s.calls[i]? = some phase) (hcall : next.call = phase.call)
    (hdone : next.owes = false) :
    Advances s ((s.release phase.call).enter i next) i phase next [] := by
  unfold release
  split
  · next hqueue =>
    obtain ⟨r, hr, -⟩ := HandlerCall.reservation_of_queue hqueue
    refine ⟨hfound, hcall, rfl, rfl, (List.append_nil s.log).symm, rfl, rfl, rfl,
      (List.append_nil s.audit.queue).symm, List.eraseIdx_sublist _ _, ?_, ?_, ?_⟩
    · exact fun event hevent hne => mem_eraseIdx_trackerOf hevent (hne r hr)
    · exact fun howes => by rw [hdone] at howes; cases howes
    · exact fun m hm => absurd hm List.not_mem_nil
  · exact advances_enter hfound hcall fun howes => by rw [hdone] at howes; cases howes

/-- A message takes a free place of the queue. -/
theorem advances_record (hfound : s.calls[i]? = some phase) (next : CallPhase)
    (hcall : next.call = phase.call) (hdone : next.owes = false)
    (hids : ∀ m ∈ sent, m.id = phase.call.eventId ∧ ∃ r, phase.call.reservation = some r) :
    Advances s
      (enter
        { s with
          audit := { s.audit with queue := s.audit.queue ++ sent }
          log := s.log ++ sent } i next) i phase next sent where
  found := hfound
  call := hcall
  calls := rfl
  history := rfl
  log := rfl
  db := rfl
  issued := rfl
  batch := rfl
  queue := rfl
  trackers := List.Sublist.refl _
  others _ hevent _ := hevent
  own hnext := by
    rw [hdone] at hnext
    cases hnext
  ids := hids

/-- **A call that holds a place can send its event**: `send` finds the place, and the event is one
of the same call. -/
theorem send_of_place (h : s.Consistent start) {r : Reservation} {queued : QueuedEvent}
    (hplace : r.begun ∈ s.audit.trackers) (hsame : r.begun.SameCall queued.event) :
    s.send queued = some
      { s with
        audit :=
          { s.audit with
            trackers := s.audit.trackers.eraseIdx (s.trackerOf queued.event.id)
            queue := s.audit.queue ++ [.event queued.event] }
        log := s.log ++ [.event queued.event] } := by
  have hexists : ∃ event ∈ s.audit.trackers, decide (event.id = queued.event.id) = true :=
    ⟨r.begun, hplace, by simpa using hsame.1.symm⟩
  have hlength : s.trackerOf queued.event.id < s.audit.trackers.length :=
    List.findIdx_lt_length_of_exists hexists
  have hfound : s.audit.trackers[s.trackerOf queued.event.id] = r.begun :=
    List.inj_on_of_nodup_map h.trackers (List.getElem_mem hlength) hplace
      ((id_trackerOf hlength).trans hsame.1)
  rw [send, AuditNode.step, List.getElem?_eq_getElem hlength, hfound, Option.bind_some,
    if_pos hsame]
  rfl

/-- The messages of events. -/
def messages (sent : List QueuedEvent) : List QueuedAudit :=
  sent.map fun queued => .event queued.event

/-- **Concluding a call is never refused**: it sends at most the event for which it holds a place,
and goes on. -/
theorem conclude_spec (h : s.Consistent start) (hfound : s.calls[i]? = some phase)
    (hcall : next.call = phase.call) {sent : List QueuedEvent} {abandoned : Bool}
    (hsent : sent = [] ∨ phase.owes = true ∧ next.owes = false ∧ abandoned = false ∧
      ∃ r queued, phase.call.reservation = some r ∧ sent = [queued] ∧
        r.begun.SameCall queued.event)
    (howes : next.owes = true → phase.owes = true ∧ abandoned = false) :
    ∃ t, s.conclude i phase.call sent abandoned next = some t ∧
      Advances s t i phase next (messages sent) := by
  rcases hsent with rfl | ⟨hphase, hdone, rfl, r, queued, hr, rfl, hsame⟩
  · refine ⟨_, rfl, ?_⟩
    cases abandoned with
    | false => exact advances_enter hfound hcall fun hnext => (howes hnext).1
    | true =>
      refine advances_release hfound hcall ?_
      cases hnext : next.owes with
      | false => rfl
      | true => cases (howes hnext).2
  · have hsend := send_of_place h (h.places ⟨hfound, hr⟩ hphase) hsame
    have hid : queued.event.id = phase.call.eventId :=
      hsame.1.trans (HandlerCall.id_of_reservation hr)
    refine ⟨_, by rw [conclude, List.foldlM_cons, hsend]; rfl, ?_⟩
    refine ⟨hfound, hcall, rfl, rfl, rfl, rfl, rfl, rfl, rfl, List.eraseIdx_sublist _ _, ?_, ?_, ?_⟩
    · exact fun event hevent hne => mem_eraseIdx_trackerOf hevent (hid ▸ hne r hr)
    · exact fun hnext => by rw [hdone] at hnext; cases hnext
    · intro m hm
      obtain rfl : m = .event queued.event := by simpa [messages] using hm
      exact ⟨hid, r, hr⟩

/-- **A call that concludes sends its event**, and that is all it has sent. -/
theorem Consistent.deliver (h : s.Consistent start) (hfound : s.calls[i]? = some phase)
    (next : CallPhase) (hcall : next.call = phase.call) (hphase : phase.owes = true)
    (hdone : next.owes = false) (hsound : next.Sound) {streamed abandoned : Bool}
    {sent : List QueuedEvent}
    (hdelivered : Delivered (AuditEvent.Reports streamed) sent phase.call.reservation)
    (habandoned : sent ≠ [] → abandoned = false)
    (htold : ∀ r messages, Announced streamed r messages → next.Told r messages) :
    ∃ t, s.conclude i phase.call sent abandoned next = some t ∧ t.Consistent start := by
  have hnever : next.owes = true → phase.owes = true ∧ abandoned = false := fun hnext => by
    rw [hdone] at hnext
    cases hnext
  cases hreservation : phase.call.reservation with
  | none =>
    rw [hreservation] at hdelivered
    obtain ⟨t, hconclude, hadvances⟩ := conclude_spec h hfound hcall (Or.inl hdelivered) hnever
    refine ⟨t, hconclude, h.advance hadvances hsound fun r messages hr => ?_⟩
    cases hreservation.symm.trans hr
  | some r =>
    rw [hreservation] at hdelivered
    obtain ⟨event, rfl, hreports⟩ := hdelivered
    obtain ⟨t, hconclude, hadvances⟩ := conclude_spec h hfound hcall
      (Or.inr ⟨hphase, hdone, habandoned (List.cons_ne_nil _ _), r, ⟨event, _⟩, hreservation, rfl,
        hreports.1⟩) hnever
    refine ⟨t, hconclude, h.advance hadvances hsound fun r' messages hr hbefore => ?_⟩
    obtain rfl : r = r' := Option.some.inj (hreservation.symm.trans hr)
    refine htold r _ ⟨event, ?_, hreports⟩
    rw [hbefore.eq_nil hphase]
    rfl

/-- A call goes on by itself. -/
theorem Consistent.enter (h : s.Consistent start) (hfound : s.calls[i]? = some phase)
    (next : CallPhase) (hcall : next.call = phase.call)
    (howes : next.owes = true → phase.owes = true) (hsound : next.Sound)
    (htold : ∀ r messages, phase.Told r messages → next.Told r messages) :
    (s.enter i next).Consistent start :=
  h.advance (advances_enter hfound hcall howes) hsound fun r messages _ hbefore =>
    (List.append_nil messages).symm ▸ htold r messages hbefore

/-- A call goes on without a message. -/
theorem Consistent.move (h : s.Consistent start) (hfound : s.calls[i]? = some phase)
    (next : CallPhase) (hcall : next.call = phase.call) {abandoned : Bool}
    (howes : next.owes = true → phase.owes = true ∧ abandoned = false) (hsound : next.Sound)
    (htold : ∀ r messages, phase.call.reservation = some r → phase.Told r messages →
      next.Told r messages) :
    ∃ t, s.conclude i phase.call [] abandoned next = some t ∧ t.Consistent start := by
  obtain ⟨t, hconclude, hadvances⟩ := conclude_spec h hfound hcall (Or.inl rfl) howes
  refine ⟨t, hconclude, h.advance hadvances hsound fun r messages hr hbefore => ?_⟩
  exact (List.append_nil messages).symm ▸ htold r messages hr hbefore

section Steps

variable {env : ProxyEnv} {call : HandlerCall}

/-- While a call goes on, its event keeps the transport size of `begin`. -/
theorem Reports.of_ongoing {begun event : AuditEvent} (h : begun.Ongoing event) :
    AuditEvent.Reports true begun event := ⟨h.1, fun _ => h.2⟩

/-- Any event of the call will do when the response is not streamed. -/
theorem Reports.of_sameCall {begun event : AuditEvent} (h : begun.SameCall event) :
    AuditEvent.Reports false begun event := ⟨h, fun hstreamed => by cases hstreamed⟩

/-- A handler has ended: its event is sent, or its body owes the event, or the event is lost. -/
theorem Consistent.answer (h : s.Consistent start) (hfound : s.calls[i]? = some (.handling call))
    {handled : Handled} {mispriced : Prop} (hends : handled.Ends call.reservation mispriced) :
    ∃ t, s.conclude i call handled.sent (handled.sent.isEmpty && !handled.streams)
      (answered call handled.result) = some t ∧ t.Consistent start := by
  obtain ⟨result, sent, requests, dropPanic⟩ := handled
  obtain ⟨-, hends⟩ := hends
  have hquiet : ∀ streams, sent ≠ [] → (sent.isEmpty && streams) = false := by
    intro streams hsent
    simp [hsent]
  cases result with
  | ok response =>
    obtain ⟨-, hid, hbody⟩ := hends
    obtain ⟨status, headers, body, id⟩ := response
    cases body with
    | bytes bytes =>
      exact h.deliver hfound (.delivering call ⟨id, .bytes bytes, 0⟩) rfl rfl rfl
        ⟨hid, fun stream hstream => by cases hstream⟩
        (hbody.imp fun _ _ => Reports.of_sameCall) (hquiet _)
        fun r messages hannounced => hannounced
    | stream stream =>
      obtain ⟨rfl, hholds, husage, hended⟩ := hbody
      refine h.move hfound (.delivering call ⟨id, .stream stream, 0⟩) rfl (fun _ => ⟨rfl, rfl⟩)
        ⟨hid, ?_⟩ fun r messages hr hbefore => ?_
      · rintro other ⟨⟩
        rw [hended]
        exact .holding hended hholds husage
      · simp only [CallPhase.Told, hended]
        exact hbefore
  | error exit =>
    have hfailed : Delivered AuditEvent.SameCall sent call.reservation →
        ∃ t, s.conclude i call sent (sent.isEmpty && !false) (.over call false .unanswered) =
          some t ∧ t.Consistent start := by
      intro hdelivered
      refine h.deliver hfound (.over call false .unanswered) rfl rfl rfl trivial
        (hdelivered.imp fun _ _ => Reports.of_sameCall) (hquiet _) fun r messages hannounced => ?_
      exact ⟨rfl, Or.inr hannounced⟩
    cases exit with
    | error error => exact hfailed hends.2
    | cancelled => exact hfailed hends.2
    | panicked panic =>
      cases panic with
      | elsewhere => exact hfailed hends.2
      | reservedOnce => exact hends.elim
      | clampBounds =>
        obtain ⟨-, rfl⟩ := hends
        refine h.move hfound (.over call false .unanswered) rfl (fun hnext => by cases hnext)
          trivial fun r messages hr hbefore => ?_
        exact ⟨rfl, Or.inl hbefore⟩

/-- **The handler of a call runs to its end**, however it ends. -/
theorem Consistent.handle (h : s.Consistent start) (hfound : s.calls[i]? = some (.handling call))
    (answers : RouteAnswers) :
    ∃ t, s.step env (.handle i answers) = some t ∧ t.Consistent start := by
  simp only [step, hfound]
  exact h.answer hfound (ends_handled env call answers)

variable {id : Option AuditTransportId} {stream : RelayStream} {yielded : ℕ}

/-- What a streamed response owes. -/
theorem Consistent.owes (h : s.Consistent start)
    (hfound : s.calls[i]? = some (.delivering call ⟨id, .stream stream, yielded⟩)) :
    stream.Owes call.reservation (!stream.ended) := (h.sound i _ hfound).2 stream rfl

/-- **The layer polls the body of the handler**: a chunk, or the end and the event. -/
theorem Consistent.poll (h : s.Consistent start)
    (hfound : s.calls[i]? = some (.delivering call ⟨id, .stream stream, yielded⟩))
    (item : UpstreamItem) (now : ℕ) :
    ∃ t, s.step env (.poll i item now) = some t ∧ t.Consistent start := by
  have hid := (h.sound i _ hfound).1
  have howes := h.owes hfound
  simp only [CallNode.step, hfound]
  cases hended : stream.ended with
  | true =>
    rw [hended] at howes
    rw [RelayStream.poll_done howes]
    exact h.move hfound (.delivering call ⟨id, .stream stream, yielded⟩) rfl
      (fun hnext => ⟨hnext, rfl⟩) (h.sound i _ hfound) fun r messages _ hbefore => hbefore
  | false =>
    rw [hended] at howes
    rcases RelayStream.poll_holding howes item now with
      ⟨bytes, next, -, hpoll, hnext⟩ | ⟨sent, next, hpoll, hdelivered, hnext⟩
    · rw [hpoll]
      have hlive : next.ended = false := by
        obtain ⟨hlive, -⟩ := hnext
        exact hlive
      refine h.move hfound (.delivering call ⟨id, .stream next, yielded⟩) rfl
        (fun _ => ⟨by simp [CallPhase.owes, hended], rfl⟩) ⟨hid, ?_⟩
        fun r messages _ hbefore => ?_
      · rintro other ⟨⟩
        rw [hlive]
        exact hnext
      · simp only [CallPhase.Told, hended, hlive] at hbefore ⊢
        exact hbefore
    · rw [hpoll]
      have hover : next.ended = true := by
        obtain ⟨⟩ | ⟨hover, -⟩ := hnext
        exact hover
      refine h.deliver hfound (.delivering call ⟨id, .stream next, yielded⟩) rfl
        (by simp [CallPhase.owes, hended]) (by simp [CallPhase.owes, hover]) ⟨hid, ?_⟩
        (hdelivered.imp fun _ _ => Reports.of_ongoing) (fun _ => rfl)
        fun r messages hannounced => ?_
      · rintro other ⟨⟩
        rw [hover]
        exact hnext
      · simp only [CallPhase.Told, hover, if_true]
        exact hannounced

/-- **The client goes away**: a body that owes the event sends it. -/
theorem Consistent.disconnect (h : s.Consistent start) {delivery : Delivery}
    (hfound : s.calls[i]? = some (.delivering call delivery)) (now : ℕ) :
    ∃ t, s.step env (.disconnect i now) = some t ∧ t.Consistent start := by
  obtain ⟨id, body, yielded⟩ := delivery
  cases body with
  | bytes bytes =>
    simp only [CallNode.step, hfound]
    exact ⟨_, rfl, h.enter hfound (.over call false (.disconnected yielded)) rfl
      (fun hnext => by cases hnext) trivial fun r messages hbefore => hbefore⟩
  | stream stream =>
    have howes := h.owes hfound
    simp only [CallNode.step, hfound]
    cases hended : stream.ended with
    | true =>
      rw [hended] at howes
      rw [RelayStream.drop_done howes]
      refine h.move hfound (.over call true (.disconnected yielded)) rfl
        (fun hnext => by cases hnext) trivial fun r messages _ hbefore => ?_
      simp only [CallPhase.Told, hended, if_true] at hbefore
      exact hbefore
    | false =>
      rw [hended] at howes
      obtain ⟨sent, hdrop, hdelivered⟩ := RelayStream.drop_holding howes now
      rw [hdrop]
      exact h.deliver hfound (.over call true (.disconnected yielded)) rfl
        (by simp [CallPhase.owes, hended]) rfl trivial
        (hdelivered.imp fun _ _ => Reports.of_ongoing) (fun _ => rfl)
        fun r messages hannounced => hannounced

/-- The outermost stream yields. -/
theorem Consistent.yield (h : s.Consistent start) {body : ResponseBody}
    (hfound : s.calls[i]? = some (.delivering call ⟨id, body, yielded⟩))
    (chunk : Option (List UInt8)) :
    ∃ t, s.step env (.yield i chunk) = some t ∧ t.Consistent start := by
  have hsound := h.sound i _ hfound
  simp only [CallNode.step, hfound]
  refine ⟨_, rfl, h.enter hfound
    (.delivering call ⟨id, body, yielded + chunk.elim 0 List.length⟩) rfl ?_ hsound ?_⟩
  · cases body <;> exact fun hnext => hnext
  · cases body <;> exact fun r messages hbefore => hbefore

/-- A response whose body has ended: the event is all that the call has sent. -/
theorem told_of_ended {body : ResponseBody} {r : Reservation} {messages : List QueuedAudit}
    (hended : body.ended = true)
    (h : CallPhase.Told r messages (.delivering call ⟨id, body, yielded⟩)) :
    Announced body.isStream r messages := by
  cases body with
  | bytes bytes => exact h
  | stream stream =>
    have hstream : stream.ended = true := hended
    rw [CallPhase.Told, if_pos hstream] at h
    exact h

/-- A transport message is queued while there is room. -/
theorem recordTransport_of_place (hplace : s.audit.HasPlace) (id : String) (bytes : Int)
    (encoding headers : Option String) :
    s.recordTransport (.responseTransport id bytes encoding headers) = some
      { s with
        audit :=
          { s.audit with
            queue := s.audit.queue ++ [.responseTransport id bytes encoding headers] }
        log := s.log ++ [.responseTransport id bytes encoding headers] } := by
  simp [recordTransport, AuditNode.step, hplace]

/-- A transport message is dropped when the queue is full. -/
theorem recordTransport_of_full (hfull : ¬ s.audit.HasPlace) (id : String) (bytes : Int)
    (encoding headers : Option String) :
    s.recordTransport (.responseTransport id bytes encoding headers) = some s := by
  simp [recordTransport, AuditNode.step, hfull]

/-- **The layer reports the end of the body**: the transport message follows the event, if the queue
takes it. -/
theorem Consistent.complete (h : s.Consistent start) {delivery : Delivery}
    (hfound : s.calls[i]? = some (.delivering call delivery)) (headers : HeaderMap)
    (hended : delivery.body.ended = true) :
    ∃ t, s.step env (.complete i headers) = some t ∧ t.Consistent start := by
  obtain ⟨id, body, yielded⟩ := delivery
  have hid : id = call.reservation.map fun r => r.begun.transportId := (h.sound i _ hfound).1
  cases id with
  | none =>
    simp only [CallNode.step, hfound]
    refine ⟨_, rfl, h.enter hfound (.over call body.isStream (.completed yielded false)) rfl
      (fun hnext => by cases hnext) trivial fun r messages hbefore => ?_⟩
    exact told_of_ended hended hbefore
  | some id =>
    obtain ⟨r, hr, rfl⟩ := Option.map_eq_some_iff.mp hid.symm
    simp only [CallNode.step, hfound, transportMessage]
    by_cases hplace : s.audit.HasPlace
    · rw [recordTransport_of_place hplace, decide_eq_true hplace]
      have hids : ∀ m ∈ [QueuedAudit.responseTransport r.begun.id yielded
          ((headerValue headers "content-encoding").or (some "identity"))
          (if r.begun.requestArchive then some (archiveHeaders env.serde headers) else none)],
          m.id = call.eventId ∧ ∃ r, call.reservation = some r := by
        intro m hm
        obtain rfl := List.mem_singleton.mp hm
        exact ⟨HandlerCall.id_of_reservation hr, r, hr⟩
      have hadvances := advances_record hfound
        (.over call body.isStream (.completed yielded true)) rfl rfl hids
      refine ⟨_, rfl, h.advance hadvances trivial ?_⟩
      · intro r' messages hr' hbefore
        obtain rfl : r = r' := Option.some.inj (hr.symm.trans hr')
        obtain ⟨event, rfl, hreports⟩ := told_of_ended hended hbefore
        exact ⟨event, _, _, hreports, rfl⟩
    · rw [recordTransport_of_full hplace, decide_eq_false hplace]
      refine ⟨_, rfl, h.enter hfound (.over call body.isStream (.completed yielded false)) rfl
        (fun hnext => by cases hnext) trivial fun r messages hbefore => ?_⟩
      exact told_of_ended hended hbefore

/-- The state after an accepted step is the one of which consistency was shown. -/
theorem consistent_of_accepted {a : CallStep} (hstep : s.step env a = some t)
    (h : ∃ u, s.step env a = some u ∧ u.Consistent start) : t.Consistent start := by
  obtain ⟨u, hu, hconsistent⟩ := h
  obtain rfl : u = t := Option.some.inj (hu.symm.trans hstep)
  exact hconsistent

/-- **The step lemma.** -/
theorem consistent_step {a : CallStep} (h : s.Consistent start) (hok : s.LayerEndsLast a)
    (hstep : s.step env a = some t) : t.Consistent start := by
  have hcases := hstep
  cases a with
  | audit a =>
    simp only [CallNode.step] at hcases
    split at hcases
    · cases hcases
    · next hinner =>
      obtain ⟨audit, haudit, rfl⟩ := Option.map_eq_some_iff.mp hcases
      exact h.inner (by simpa using hinner) haudit
  | begin identity call =>
    simp only [CallNode.step] at hcases
    split at hcases
    · next hbegin =>
      obtain ⟨audit, haudit, rfl⟩ := Option.map_eq_some_iff.mp hcases
      exact h.begin hbegin.1 hbegin.2 haudit
    · cases hcases
  | handle i answers =>
    simp only [CallNode.step] at hcases
    split at hcases
    · next hfound => exact consistent_of_accepted hstep (h.handle hfound answers)
    · cases hcases
  | poll i item now =>
    simp only [CallNode.step] at hcases
    split at hcases
    · next hfound => exact consistent_of_accepted hstep (h.poll hfound item now)
    · cases hcases
  | yield i chunk =>
    simp only [CallNode.step] at hcases
    split at hcases
    · next hfound => exact consistent_of_accepted hstep (h.yield hfound chunk)
    · cases hcases
  | complete i headers =>
    have hended : ∀ call delivery, s.calls[i]? = some (.delivering call delivery) →
        delivery.body.ended = true := by
      intro call delivery hfound
      simpa only [LayerEndsLast, hfound] using hok
    simp only [CallNode.step] at hcases
    split at hcases
    · next hfound =>
      exact consistent_of_accepted hstep (h.complete hfound headers (hended _ _ hfound))
    · next hfound =>
      exact consistent_of_accepted hstep (h.complete hfound headers (hended _ _ hfound))
    · cases hcases
  | disconnect i now =>
    simp only [CallNode.step] at hcases
    split at hcases
    · next hfound => exact consistent_of_accepted hstep (h.disconnect hfound now)
    · next hfound => exact consistent_of_accepted hstep (h.disconnect hfound now)
    · cases hcases

/-- **The run lemma.** -/
theorem consistent_of_run {steps : List CallStep} (hs : s.Started)
    (hlayer : Transition.Guarded (step env) LayerEndsLast s steps)
    (hrun : s.run env steps = some t) : t.Consistent s.audit.db :=
  Transition.invariant_of_guarded consistent_step hlayer hrun hs.consistent

end Steps

section Records

variable {id : String} {bytes : Int} {encoding headers : Option String}

/-- **The queue is in order**: a transport message comes after the event of its call. -/
theorem Consistent.ordered (h : s.Consistent start) : auditJournal.Ordered s.log := by
  refine Journal.ordered_of_about fun m hm => ?_
  obtain ⟨i, phase, r, hi, hid⟩ := h.known m hm
  have htold := (h.told hi).ordered
  rwa [hid] at htold

/-- A part of a pair that contains the second element is the whole pair. -/
theorem eq_of_append_eq_pair {α : Type*} {first second : List α} {a b : α}
    (h : first ++ second = [a, b]) (hmem : b ∈ first) (hne : b ≠ a) : first = [a, b] := by
  match first, h with
  | [_], h =>
    obtain ⟨rfl, -⟩ := List.cons.inj h
    exact absurd (List.mem_singleton.mp hmem) hne
  | x :: y :: rest, h =>
    obtain ⟨rfl, hrest⟩ := List.cons.inj h
    obtain ⟨rfl, hnil⟩ := List.cons.inj hrest
    rw [(List.append_eq_nil_iff.mp hnil).1]

/-- The record of a call whose transport message follows its event. -/
theorem record_pair (event : AuditEvent) (bytes : Int) (encoding headers : Option String) :
    auditJournal.record event.id
      [.event event, .responseTransport event.id bytes encoding headers] =
        some ⟨bytes, encoding, headers⟩ := by
  have hpair := record_responseTransport [.event event] event.id bytes encoding headers
  have hevent := record_event [] event
  rw [List.nil_append] at hevent
  rw [hevent, Option.map_some, Option.or_none] at hpair
  exact hpair

/-- **A committed transport message is the last word** on its call: its event was committed before,
and nothing was committed after. -/
theorem Consistent.record_eq (h : s.Consistent start)
    (hm : .responseTransport id bytes encoding headers ∈ messagesOf s.history) :
    auditJournal.record id (messagesOf s.history) = some ⟨bytes, encoding, headers⟩ := by
  have hlog : .responseTransport id bytes encoding headers ∈ s.log := by
    rw [h.account]
    exact List.mem_append_left _ hm
  obtain ⟨i, phase, r, hi, hid⟩ := h.known _ hlog
  have htold := h.told hi
  rw [hid] at htold
  obtain ⟨event, hmessages, hsame⟩ := htold.eq_of_mem (Journal.mem_about.mpr ⟨hlog, rfl⟩)
  have hevent : event.id = id :=
    (hsame.1.trans (HandlerCall.id_of_reservation hi.2)).trans hid
  have hcommitted : auditJournal.about id (messagesOf s.history) =
      [.event event, .responseTransport id bytes encoding headers] := by
    rw [h.account, Journal.about_append] at hmessages
    exact eq_of_append_eq_pair hmessages (Journal.mem_about.mpr ⟨hm, rfl⟩) fun heq => by cases heq
  rw [← Journal.record_about, hcommitted]
  subst hevent
  exact record_pair event bytes encoding headers

/-- **What was persisted stays**: the row and the archive of a call have what its committed
transport message says. -/
theorem Consistent.persisted (h : s.Consistent start)
    (hm : .responseTransport id bytes encoding headers ∈ messagesOf s.history) :
    (∀ row ∈ s.audit.db.apiCalls, row.id = id →
        row.responseTransportBytes = bytes ∧ row.downstreamContentEncoding = encoding) ∧
      ∀ archive ∈ s.audit.db.requestArchives, archive.apiCallId = id →
        archive.downstreamResponseHeadersJson = headers := by
  have hreflects := (AuditDatabase.reflects_nil start).replay h.replayed
  rw [List.nil_append] at hreflects
  have hrecord := h.record_eq hm
  refine ⟨?_, ?_⟩
  · rintro row hrow rfl
    exact hreflects.calls row hrow _ hrecord
  · rintro archive harchive rfl
    exact hreflects.archives archive harchive _ hrecord

end Records

/-- **Audit records are applied once and in order.** In every run of concurrent calls, whatever the
interleaving, the batches and the failed writes: the transport message of a call comes after its
event; the messages that were put into the queue are the committed ones and then the waiting
ones; the tables are what the committed changes make of the tables at the beginning, in their
order; and what a committed transport message says stays in the row and the archive of its call. -/
theorem audit_records_in_order {env : ProxyEnv} {s t : CallNode} {steps : List CallStep}
    (hs : s.Started) (hlayer : Transition.Guarded (step env) LayerEndsLast s steps)
    (hrun : s.run env steps = some t) :
    (∀ before id bytes encoding headers after,
        t.log = before ++ .responseTransport id bytes encoding headers :: after →
          ∃ event, .event event ∈ before ∧ event.id = id) ∧
      t.log = messagesOf t.history ++ (t.audit.batch ++ t.audit.queue) ∧
      s.audit.db.replay t.history = .ok t.audit.db ∧
      ∀ id bytes encoding headers,
        .responseTransport id bytes encoding headers ∈ messagesOf t.history →
          (∀ row ∈ t.audit.db.apiCalls, row.id = id →
              row.responseTransportBytes = bytes ∧ row.downstreamContentEncoding = encoding) ∧
            ∀ archive ∈ t.audit.db.requestArchives, archive.apiCallId = id →
              archive.downstreamResponseHeadersJson = headers := by
  have hconsistent := consistent_of_run hs hlayer hrun
  refine ⟨?_, hconsistent.account, hconsistent.replayed,
    fun id bytes encoding headers => hconsistent.persisted⟩
  intro before id bytes encoding headers after hsplit
  obtain ⟨creation, hmem, hkey, hcreated⟩ := hconsistent.ordered before _ after hsplit rfl
  cases creation with
  | event event => exact ⟨event, hmem, hkey⟩
  | responseTransport => cases hcreated

section StreamedCall

/-- A request for a stream: the text `{"stream":true}`. -/
def streamedText : List UInt8 :=
  [123, 34, 115, 116, 114, 101, 97, 109, 34, 58, 116, 114, 117, 101, 125]

/-- Requests and responses that are streamed. -/
def streamedEnv : ProxyEnv where
  serde :=
    { fromSlice := fun bytes =>
        if bytes = streamedText then some (.object [("stream", .bool true)]) else none
      toString := fun _ => "[]" }
  affinityHash := id
  transformRequest := fun _ _ => .ok []
  accepts := fun _ _ => true

/-- A call of the consumer whose diagnostics are archived. -/
def streamedCall : HandlerCall where
  inbound :=
    { method := "POST", path := "/v1/responses", headers := .new, body := streamedText
      clientIp := "127.0.0.1" }
  identity := ⟨"c", "user", true⟩
  eventId := "e"
  auditId := "a"
  createdAt := 20
  reservations := ⟨true, true⟩
  startedAt := 0
  finishedAt := 10
  droppedAt := 10

/-- The provider answers with a stream. -/
def streamedAnswers : RouteAnswers :=
  .json
    { first := ⟨.ok CallLife.onlyLease, .ok CallLife.onlyLease⟩
      fallback := ⟨.error .cancelled, .error .cancelled⟩
      firstAttempt := CallLife.promptAttempt
      retry := ⟨.error .cancelled, .error .cancelled⟩
      secondAttempt := CallLife.promptAttempt
      relay := ⟨.error .cancelled, 5, 10, 20⟩ }

/-- Nothing has happened yet. -/
def idle : CallNode := ⟨AuditNode.initial, [], [], []⟩

/-- The idle node has started. -/
theorem started_idle : idle.Started := by
  refine ⟨⟨rfl, rfl, rfl, rfl, fun id hmem => ?_, fun id hmem => ?_⟩, rfl, rfl, rfl⟩ <;> cases hmem

/-- The call is answered, and two bytes of its stream reach the client. -/
def partlyRead : List CallStep :=
  [.audit (.execute (.upsertUser "user")), .audit (.createConsumer AuditNode.keyRow),
    .audit (.authenticate "hash"), .begin 0 streamedCall, .handle 0 streamedAnswers,
    .poll 0 (.chunk [104, 105]) 11, .yield 0 (some [104, 105])]

/-- The writer commits two messages, at the second attempt. -/
def committed : List CallStep :=
  [.audit .receive, .audit .receive, .audit .stopReceiving, .audit .persistUnavailable,
    .audit (.persist 30)]

/-- The client reads to the end. -/
def readToEnd : List CallStep :=
  partlyRead ++ [.poll 0 .finished 12, .complete 0 .new] ++ committed

/-- The statement at a run in which both messages of a streamed call are committed. -/
theorem audit_records_in_order_streamedCall :
    messagesOf (idle.after streamedEnv readToEnd).history =
        (idle.after streamedEnv readToEnd).log ∧
      .responseTransport "e" 2 (some "identity") (some "[]") ∈
          (idle.after streamedEnv readToEnd).log ∧
        (idle.after streamedEnv readToEnd).audit.db.apiCalls.keys = ["e"] ∧
          ∀ row ∈ (idle.after streamedEnv readToEnd).audit.db.apiCalls, row.id = "e" →
            row.responseTransportBytes = 2 ∧ row.downstreamContentEncoding = some "identity" := by
  have hmem : .responseTransport "e" 2 (some "identity") (some "[]") ∈
      messagesOf (idle.after streamedEnv readToEnd).history := by decide
  obtain ⟨-, -, -, hpersisted⟩ := audit_records_in_order started_idle
    (show Transition.Guarded (step streamedEnv) LayerEndsLast idle readToEnd by decide)
    (Transition.run_eq_some_after (by decide))
  refine ⟨by decide, by decide, by decide, (hpersisted "e" 2 (some "identity") (some "[]") hmem).1⟩

end StreamedCall

end CallNode

end OpenAiLb
