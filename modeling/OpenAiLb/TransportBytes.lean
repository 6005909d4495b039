import OpenAiLb.CallOrder

/-!
# The bytes that a client received

The transport recorder counts what the outermost stream yields, and sends the count when
the layer reports the end of the body. It has no guard: when the client goes away before,
the count is dropped with the stream, although the event is still sent. So the row of a
streamed call has the number of bytes that the client received exactly when the stream
was read to its end, or when nothing was received at all.
-/

namespace OpenAiLb

/-- What the client of a call has seen of the outermost stream. -/
structure ClientView where
  yielded : ℕ
  /-- The stream was read to its end. -/
  ended : Bool
  deriving DecidableEq

/-- What one step shows to the client of a call. -/
def ClientView.observe (i : ℕ) (view : ClientView) : CallStep → ClientView
  | .yield j (some chunk) =>
    if j = i then { view with yielded := view.yielded + chunk.length } else view
  | .complete j _ => if j = i then { view with ended := true } else view
  | _ => view

/-- What a run shows to the client of a call. -/
def clientView (i : ℕ) (steps : List CallStep) : ClientView :=
  steps.foldl (ClientView.observe i) ⟨0, false⟩

/-- What the client has seen of a call in the phase; nothing is said about a panic. -/
def CallPhase.view : CallPhase → Option ClientView
  | .handling _ => some ⟨0, false⟩
  | .delivering _ delivery => some ⟨delivery.yielded, false⟩
  | .over _ _ (.completed yielded _) => some ⟨yielded, true⟩
  | .over _ _ (.disconnected yielded) => some ⟨yielded, false⟩
  | .over _ _ .unanswered => none

namespace CallNode

/-- The queue has a place for the message of the transport recorder. -/
def RoomFor (s : CallNode) : CallStep → Prop
  | .complete .. => s.audit.HasPlace
  | _ => True

instance (s : CallNode) (a : CallStep) : Decidable (s.RoomFor a) :=
  match a with
  | .complete .. => inferInstanceAs (Decidable s.audit.HasPlace)
  | .audit .. | .begin .. | .handle .. | .poll .. | .yield .. | .disconnect .. =>
    inferInstanceAs (Decidable True)

/-- The phase of a call is what its client has seen. -/
structure Viewed (i : ℕ) (s : CallNode) (view : ClientView) : Prop where
  begun : ∀ phase seen, s.calls[i]? = some phase → phase.view = some seen → view = seen
  unknown : s.calls[i]? = none → view = ⟨0, false⟩

section Views

variable {env : ProxyEnv} {s t : CallNode} {i j : ℕ} {call : HandlerCall} {view : ClientView}

/-- Sending an event leaves the calls alone. -/
theorem calls_send {queued : QueuedEvent} (h : s.send queued = some t) : t.calls = s.calls := by
  obtain ⟨audit, -, rfl⟩ := Option.map_eq_some_iff.mp h
  rfl

/-- Releasing a reservation leaves the calls alone. -/
theorem calls_release (s : CallNode) (call : HandlerCall) : (s.release call).calls = s.calls := by
  unfold release
  split <;> rfl

/-- Concluding a call moves that call alone. -/
theorem calls_conclude {sent : List QueuedEvent} {abandoned : Bool} {phase : CallPhase}
    (h : s.conclude i call sent abandoned phase = some t) : t.calls = s.calls.set i phase := by
  obtain ⟨m, hm, rfl⟩ := Option.map_eq_some_iff.mp h
  have hcalls : m.calls = s.calls := by
    clear h
    induction sent generalizing s with
    | nil =>
      cases hm
      rfl
    | cons queued rest ih =>
      rw [List.foldlM_cons] at hm
      obtain ⟨next, hnext, hrest⟩ := Option.bind_eq_some_iff.mp hm
      exact (ih hrest).trans (calls_send hnext)
  cases abandoned with
  | false => simp only [enter, Bool.false_eq_true, if_false, hcalls]
  | true => simp only [enter, if_true, calls_release, hcalls]

/-- So does a transport message. -/
theorem calls_recordTransport {queued : QueuedAudit} (h : s.recordTransport queued = some t) :
    t.calls = s.calls := by
  cases queued with
  | event event => cases h
  | responseTransport id bytes encoding headers =>
    obtain ⟨audit, -, rfl⟩ := Option.map_eq_some_iff.mp h
    rfl

/-- What a step makes of the phase of its call. `room` says whether the queue has a place. -/
inductive Moved (env : ProxyEnv) (room : Bool) (j : ℕ) : CallStep → CallPhase → CallPhase → Prop
  | answered (call : HandlerCall) (answers : RouteAnswers) :
    Moved env room j (.handle j answers) (.handling call)
      (answered call (answers.handled env call).result)
  | polled (call : HandlerCall) (id : Option AuditTransportId) (stream next : RelayStream)
      (yielded : ℕ) (item : UpstreamItem) (now : ℕ) :
    Moved env room j (.poll j item now) (.delivering call ⟨id, .stream stream, yielded⟩)
      (.delivering call ⟨id, .stream next, yielded⟩)
  | pollPanicked (call : HandlerCall) (delivery : Delivery) (item : UpstreamItem) (now : ℕ) :
    Moved env room j (.poll j item now) (.delivering call delivery) (.over call true .unanswered)
  | yielded (call : HandlerCall) (id : Option AuditTransportId) (body : ResponseBody) (yielded : ℕ)
      (chunk : Option (List UInt8)) :
    Moved env room j (.yield j chunk) (.delivering call ⟨id, body, yielded⟩)
      (.delivering call ⟨id, body, yielded + chunk.elim 0 List.length⟩)
  | completed (call : HandlerCall) (id : Option AuditTransportId) (body : ResponseBody)
      (yielded : ℕ) (headers : HeaderMap) :
    Moved env room j (.complete j headers) (.delivering call ⟨id, body, yielded⟩)
      (.over call body.isStream (.completed yielded (id.isSome && room)))
  | disconnected (call : HandlerCall) (id : Option AuditTransportId) (body : ResponseBody)
      (yielded : ℕ) (now : ℕ) :
    Moved env room j (.disconnect j now) (.delivering call ⟨id, body, yielded⟩)
      (.over call body.isStream (.disconnected yielded))
  | dropPanicked (call : HandlerCall) (delivery : Delivery) (now : ℕ) :
    Moved env room j (.disconnect j now) (.delivering call delivery) (.over call true .unanswered)

/-- **What a step does to the calls**: nothing, a call begins, or one call moves. -/
theorem calls_of_step {a : CallStep} (hstep : s.step env a = some t) :
    (∃ inner, a = .audit inner ∧ t.calls = s.calls) ∨
      (∃ identity call, a = .begin identity call ∧ t.calls = s.calls ++ [.handling call]) ∨
        ∃ j old next, s.calls[j]? = some old ∧ t.calls = s.calls.set j next ∧
          Moved env (decide s.audit.HasPlace) j a old next := by
  cases a with
  | audit inner =>
    simp only [CallNode.step] at hstep
    split at hstep
    · cases hstep
    · obtain ⟨audit, -, rfl⟩ := Option.map_eq_some_iff.mp hstep
      exact Or.inl ⟨inner, rfl, rfl⟩
  | begin identity call =>
    simp only [CallNode.step] at hstep
    split at hstep
    · obtain ⟨audit, -, rfl⟩ := Option.map_eq_some_iff.mp hstep
      exact Or.inr (Or.inl ⟨identity, call, rfl, rfl⟩)
    · cases hstep
  | handle j answers =>
    simp only [CallNode.step] at hstep
    split at hstep
    · next call hfound =>
      exact Or.inr (Or.inr ⟨j, _, _, hfound, calls_conclude hstep, .answered call answers⟩)
    · cases hstep
  | poll j item now =>
    simp only [CallNode.step] at hstep
    split at hstep
    · next call id stream yielded hfound =>
      refine Or.inr (Or.inr ⟨j, .delivering call ⟨id, .stream stream, yielded⟩, ?_⟩)
      split at hstep
      · next chunk sent next hpoll =>
        exact ⟨_, hfound, calls_conclude hstep, .polled call id stream next yielded item now⟩
      · exact ⟨_, hfound, calls_conclude hstep, .pollPanicked call _ item now⟩
    · cases hstep
  | yield j chunk =>
    simp only [CallNode.step] at hstep
    split at hstep
    · next call id body yielded hfound =>
      cases hstep
      exact Or.inr (Or.inr ⟨j, _, _, hfound, rfl, .yielded call id body yielded chunk⟩)
    · cases hstep
  | complete j headers =>
    simp only [CallNode.step] at hstep
    split at hstep
    · next call id body yielded hfound =>
      obtain ⟨recorded, hrecorded, rfl⟩ := Option.map_eq_some_iff.mp hstep
      refine Or.inr (Or.inr ⟨j, _, _, hfound, ?_, .completed call (some id) body yielded headers⟩)
      rw [enter, calls_recordTransport hrecorded]
      rfl
    · next call body yielded hfound =>
      cases hstep
      exact Or.inr (Or.inr ⟨j, _, _, hfound, rfl, .completed call none body yielded headers⟩)
    · cases hstep
  | disconnect j now =>
    simp only [CallNode.step] at hstep
    split at hstep
    · next call id body yielded hfound =>
      cases hstep
      exact Or.inr (Or.inr ⟨j, _, _, hfound, rfl, .disconnected call id _ yielded now⟩)
    · next call id stream yielded hfound =>
      refine Or.inr (Or.inr ⟨j, .delivering call ⟨id, .stream stream, yielded⟩, ?_⟩)
      split at hstep
      · exact ⟨_, hfound, calls_conclude hstep, .disconnected call id _ yielded now⟩
      · exact ⟨_, hfound, calls_conclude hstep, .dropPanicked call _ now⟩
    · cases hstep

/-- What the client of another call sees is nothing. -/
theorem observe_other {a : CallStep} {room : Bool} {old next : CallPhase}
    (h : Moved env room j a old next) (hne : j ≠ i) : view.observe i a = view := by
  cases h with
  | yielded call id body yielded chunk =>
    cases chunk with
    | none => rfl
    | some bytes => exact if_neg hne
  | completed => exact if_neg hne
  | answered | polled | pollPanicked | disconnected | dropPanicked => rfl

/-- What the client of the call sees is in its phase. -/
theorem observe_self {a : CallStep} {room : Bool} {old next : CallPhase} {after : ClientView}
    (h : Moved env room i a old next) (hview : ∀ before, old.view = some before → view = before)
    (hafter : next.view = some after) : view.observe i a = after := by
  cases h with
  | answered call answers =>
    cases hresult : (answers.handled env call).result with
    | ok response =>
      rw [hresult] at hafter
      cases hafter
      exact hview _ rfl
    | error exit =>
      rw [hresult] at hafter
      cases hafter
  | polled | disconnected => exact hview after hafter
  | pollPanicked | dropPanicked => cases hafter
  | yielded call id body yielded chunk =>
    cases hafter
    rw [hview _ rfl]
    cases chunk with
    | none => rfl
    | some bytes => exact if_pos rfl
  | completed =>
    cases hafter
    rw [hview _ rfl]
    exact if_pos rfl

/-- **The step lemma**: a client sees what the steps of its call yield. -/
theorem viewed_step {a : CallStep} (h : s.Viewed i view) (hstep : s.step env a = some t) :
    t.Viewed i (view.observe i a) := by
  rcases calls_of_step hstep with
    ⟨inner, rfl, hcalls⟩ | ⟨identity, call, rfl, hcalls⟩ | ⟨j, old, next, hold, hcalls, hmoved⟩
  · exact ⟨fun phase seen hphase => h.begun phase seen (hcalls ▸ hphase),
      fun hnone => h.unknown (hcalls ▸ hnone)⟩
  · constructor
    · intro phase seen hphase hseen
      rw [hcalls] at hphase
      rcases Tasks.of_start hphase with hbefore | ⟨rfl, rfl⟩
      · exact h.begun phase seen hbefore hseen
      · cases hseen
        exact h.unknown (List.getElem?_eq_none_iff.mpr (le_refl _))
    · intro hnone
      rw [hcalls, List.getElem?_eq_none_iff, List.length_append] at hnone
      exact h.unknown (List.getElem?_eq_none_iff.mpr (by omega))
  · constructor
    · intro phase seen hphase hseen
      rw [hcalls] at hphase
      rcases Tasks.of_set hold hphase with ⟨rfl, rfl⟩ | ⟨hne, hkept⟩
      · exact observe_self hmoved (fun before => h.begun old before hold) hseen
      · rw [observe_other hmoved (Ne.symm hne)]
        exact h.begun phase seen hkept hseen
    · intro hnone
      rw [hcalls, List.getElem?_eq_none_iff, List.length_set, ← List.getElem?_eq_none_iff] at hnone
      rw [observe_other hmoved fun heq => by rw [heq, hnone] at hold; cases hold]
      exact h.unknown hnone

/-- **The run lemma.** -/
theorem viewed_of_run {steps : List CallStep} (hs : s.Started) (hrun : s.run env steps = some t)
    (i : ℕ) : t.Viewed i (clientView i steps) := by
  have hstart : s.Viewed i ⟨0, false⟩ :=
    ⟨fun phase seen hphase => by simp [hs.calls] at hphase, fun _ => rfl⟩
  have hok : Transition.Guarded (step env) (fun _ _ => True) s steps :=
    Transition.guarded_of_forall (fun _ _ => trivial) s steps
  have hviewed : t.Viewed i
      (Transition.follow (step env) (fun _ => ClientView.observe i) s ⟨0, false⟩ steps) := by
    refine Transition.simulation_of_guarded ?_ hok hrun hstart
    exact fun h _ hstep => viewed_step h hstep
  rwa [Transition.follow_eq_foldl _ _ hrun] at hviewed

end Views

/-- A transport message that was due was taken by the queue. -/
def Recorded (s : CallNode) : Prop :=
  ∀ (i : ℕ) (call : HandlerCall) (streamed : Bool) (yielded : ℕ),
    s.calls[i]? = some (.over call streamed (.completed yielded false)) → call.reservation = none

section Bytes

variable {start : AuditDatabase} {env : ProxyEnv} {s t : CallNode}

/-- **The step lemma**: while the queue has room, no transport message is lost. -/
theorem recorded_step {a : CallStep} (h : s.Consistent start) (hrecorded : s.Recorded)
    (hroom : s.RoomFor a) (hstep : s.step env a = some t) : t.Recorded := by
  intro i call streamed bytes hfound
  rcases calls_of_step hstep with
    ⟨inner, -, hcalls⟩ | ⟨identity, begun, -, hcalls⟩ | ⟨j, old, next, hold, hcalls, hmoved⟩
  · exact hrecorded i call streamed bytes (hcalls ▸ hfound)
  · rw [hcalls] at hfound
    rcases Tasks.of_start hfound with hbefore | ⟨-, hnew⟩
    · exact hrecorded i call streamed bytes hbefore
    · cases hnew
  · rw [hcalls] at hfound
    rcases Tasks.of_set hold hfound with ⟨-, hnew⟩ | ⟨-, hkept⟩
    · cases hmoved with
      | answered call answers => cases hresult : (answers.handled env call).result <;>
          rw [hresult] at hnew <;> cases hnew
      | completed call id body yielded headers =>
        simp only [CallPhase.over.injEq, CallEnding.completed.injEq] at hnew
        obtain ⟨rfl, -, -, hlost⟩ := hnew
        rw [decide_eq_true (show s.audit.HasPlace from hroom), Bool.and_true] at hlost
        have hid := (h.sound j _ hold).1
        cases id with
        | none => simpa using hid.symm
        | some id => cases hlost
      | polled | pollPanicked | yielded | disconnected | dropPanicked => cases hnew
    · exact hrecorded i call streamed bytes hkept

/-- What the tables say about a call whose messages are committed. -/
theorem Consistent.bytes_eq (h : s.Consistent start) {id : String} {messages : List QueuedAudit}
    (hmessages : auditJournal.about id s.log = messages)
    (hwritten : ∀ m ∈ s.audit.batch ++ s.audit.queue, m.id ≠ id) {row : ApiCall}
    (hrow : row ∈ s.audit.db.apiCalls) (hid : row.id = id) {record : TransportRecord}
    (hrecord : auditJournal.record id messages = some record) :
    row.responseTransportBytes = record.bytes := by
  have hreflects := (AuditDatabase.reflects_nil start).replay h.replayed
  have hnone : auditJournal.about id (s.audit.batch ++ s.audit.queue) = [] :=
    Journal.about_eq_nil hwritten
  rw [h.account, Journal.about_append, hnone, List.append_nil] at hmessages
  rw [← hmessages, Journal.record_about, ← hid] at hrecord
  exact (hreflects.calls row hrow record hrecord).1

/-- **The recorded bytes of a streamed call** are those that its client received exactly when the
client read the outermost stream to its end, or received nothing. -/
theorem transport_bytes_iff {steps : List CallStep} {i : ℕ} {call : HandlerCall}
    {ending : CallEnding} {row : ApiCall} (hs : s.Started)
    (hguard : Transition.Guarded (step env) (fun s a => s.LayerEndsLast a ∧ s.RoomFor a) s steps)
    (hrun : s.run env steps = some t)
    (hover : t.calls[i]? = some (.over call true ending))
    (hreserved : call.reservations.queue = true)
    (hwritten : ∀ m ∈ t.audit.batch ++ t.audit.queue, m.id ≠ call.eventId)
    (hrow : row ∈ t.audit.db.apiCalls) (hid : row.id = call.eventId) :
    row.responseTransportBytes = (clientView i steps).yielded ↔
      (clientView i steps).ended = true ∨ (clientView i steps).yielded = 0 := by
  have hnone : s.Recorded := by
    intro i call streamed yielded hfound
    simp [hs.calls] at hfound
  have hkept : ∀ {u : CallNode} {a : CallStep} {v : CallNode},
      u.Consistent s.audit.db ∧ u.Recorded → u.LayerEndsLast a ∧ u.RoomFor a →
        u.step env a = some v → v.Consistent s.audit.db ∧ v.Recorded := fun h hok hstep =>
    ⟨consistent_step h.1 hok.1 hstep, recorded_step h.1 h.2 hok.2 hstep⟩
  obtain ⟨hconsistent, hrecorded⟩ :=
    Transition.invariant_of_guarded hkept hguard hrun ⟨hs.consistent, hnone⟩
  obtain ⟨r, hr, -⟩ := HandlerCall.reservation_of_queue hreserved
  have hviewed := fun seen => (viewed_of_run hs hrun i).begun _ seen hover
  have htold : CallPhase.Told r _ (.over call true ending) := hconsistent.told ⟨hover, hr⟩
  have hsameId : r.begun.id = call.eventId := HandlerCall.id_of_reservation hr
  cases ending with
  | unanswered => exact absurd htold.1 (by simp)
  | completed yielded recorded =>
    rw [hviewed _ rfl]
    cases recorded with
    | false => cases (hrecorded i call true yielded hover).symm.trans hr
    | true =>
      obtain ⟨event, encoding, headers, ⟨hsame, -⟩, hmessages⟩ := htold
      have hrecord := record_pair event yielded encoding headers
      rw [hsame.1, hsameId] at hrecord
      rw [hsameId] at hmessages
      have hbytes := hconsistent.bytes_eq hmessages hwritten hrow hid hrecord
      exact iff_of_true hbytes (Or.inl rfl)
  | disconnected yielded =>
    rw [hviewed _ rfl]
    obtain ⟨event, hmessages, hsame, hkept⟩ := htold
    have hrecord := record_event [] event
    rw [List.nil_append, hsame.1, hsameId] at hrecord
    have hbytes := hconsistent.bytes_eq hmessages hwritten hrow hid hrecord
    rw [hkept rfl, HandlerCall.bytes_of_reservation hr] at hbytes
    rw [hbytes]
    simp [eq_comm]

/-- The statement at a run in which the client reads to the end. -/
theorem transport_bytes_iff_readToEnd :
    (clientView 0 readToEnd).yielded = 2 ∧
      ∃ row ∈ (idle.after streamedEnv readToEnd).audit.db.apiCalls, row.id = "e" ∧
        (row.responseTransportBytes = (clientView 0 readToEnd).yielded ↔
          (clientView 0 readToEnd).ended = true ∨ (clientView 0 readToEnd).yielded = 0) := by
  obtain ⟨row, hrow, hid⟩ : ∃ row ∈ (idle.after streamedEnv readToEnd).audit.db.apiCalls,
      row.id = "e" := Table.mem_keys.mp (by decide)
  have hover : (idle.after streamedEnv readToEnd).calls[0]? =
      some (.over streamedCall true (.completed 2 true)) := rfl
  refine ⟨by decide, row, hrow, hid, ?_⟩
  exact transport_bytes_iff started_idle (by decide) (Transition.run_eq_some_after (by decide))
    hover rfl (by decide) hrow hid

/-- The client goes away after two bytes, and the writer commits the event. -/
def goneEarly : List CallStep :=
  partlyRead ++ [.disconnect 0 12, .audit .receive, .audit .stopReceiving, .audit (.persist 30)]

/-- The event is recorded, no message waits, the client received two bytes, and the row says
zero. -/
theorem disconnect_loses_transport_bytes :
    idle.run streamedEnv goneEarly = some (idle.after streamedEnv goneEarly) ∧
      Transition.Guarded (step streamedEnv) (fun s a => s.LayerEndsLast a ∧ s.RoomFor a) idle
        goneEarly ∧
      (idle.after streamedEnv goneEarly).calls[0]? =
        some (.over streamedCall true (.disconnected 2)) ∧
      (idle.after streamedEnv goneEarly).audit.batch ++
        (idle.after streamedEnv goneEarly).audit.queue = [] ∧
      (clientView 0 goneEarly).yielded = 2 ∧
        ∃ row ∈ (idle.after streamedEnv goneEarly).audit.db.apiCalls, row.id = "e" ∧
          row.responseTransportBytes = 0 ∧
            row.responseTransportBytes ≠ (clientView 0 goneEarly).yielded := by
  refine ⟨Transition.run_eq_some_after (by decide), by decide, rfl, by decide, by decide, ?_⟩
  obtain ⟨row, hrow, hid⟩ : ∃ row ∈ (idle.after streamedEnv goneEarly).audit.db.apiCalls,
      row.id = "e" := Table.mem_keys.mp (by decide)
  have hzero : ∀ row ∈ (idle.after streamedEnv goneEarly).audit.db.apiCalls.rows,
      row.responseTransportBytes = 0 := by decide
  exact ⟨row, hrow, hid, hzero row hrow, hzero row hrow ▸ by decide⟩

end Bytes

end CallNode

end OpenAiLb
