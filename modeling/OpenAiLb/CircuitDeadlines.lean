import OpenAiLb.CircuitState
import OpenAiLb.CredentialChanges
import OpenAiLb.AffinityRestart

/-!
# The deadline of an open circuit event

The flush writes the deadline of a usage limit twice: into the row, where the last one counts,
and into the open circuit event, which keeps the largest one. The two agree for as long as the
deadlines that are flushed into one cooldown do not shrink, and only for as long.
-/

namespace OpenAiLb

/-- The circuit events agree with the row, and so does the deadline of the open one. -/
structure DeadlinesMatch (row : Provider) (events : List ProviderCircuitEvent) : Prop extends
    CircuitMatches row events where
  same : row.status = .cooldown → ∀ event ∈ events, event.isOpen = true →
    row.cooldownUntil = some event.cooldownUntil

namespace DeadlinesMatch

variable {row old new : Provider} {events : List ProviderCircuitEvent} {id : String}
  {update : ProviderUpdate}

/-- On a cooldown there is one open event, with the deadline of the row. -/
theorem exists_open (h : DeadlinesMatch row events) (hcooldown : row.status = .cooldown) :
    ∃ event, events.filter ProviderCircuitEvent.isOpen = [event] ∧
      row.cooldownUntil = some event.cooldownUntil := by
  have hone := h.openEvents
  rw [if_pos hcooldown] at hone
  obtain ⟨event, hevent⟩ := List.length_eq_one_iff.mp hone
  have hmem : event ∈ events.filter ProviderCircuitEvent.isOpen := by
    rw [hevent]
    exact List.mem_singleton_self event
  obtain ⟨hmem, hopen⟩ := List.mem_filter.mp hmem
  exact ⟨event, hevent, h.same hcooldown event hmem hopen⟩

/-- An update of the row that enters no cooldown keeps the deadline of an event that stays open. -/
theorem rewrite (h : DeadlinesMatch old events) (hnew : EntersNoCooldown old new) :
    DeadlinesMatch new (events.map (·.closeOnStatusChange old new)) := by
  refine ⟨h.toCircuitMatches.update hnew, fun hcooldown event hmem hopen => ?_⟩
  obtain ⟨hold, huntil⟩ := hnew hcooldown
  obtain ⟨before, hbefore, rfl⟩ := List.mem_map.mp hmem
  have hsame : before.closeOnStatusChange old new = before := by
    simp [ProviderCircuitEvent.closeOnStatusChange, closesCircuit, hcooldown]
  rw [hsame] at hopen ⊢
  rw [huntil]
  exact h.same hold before hbefore hopen

/-- A row that leaves the cooldown has no open event to agree with. -/
theorem of_not_cooldown (h : CircuitMatches row events) (hstatus : row.status ≠ .cooldown) :
    DeadlinesMatch row events :=
  ⟨h, fun hcooldown => absurd hcooldown hstatus⟩

/-- The pending usage limit ends no earlier than the open event, or it is over anyway: the recovery
of the same maintenance run releases the provider. -/
def KeepsDeadline (now : Int) (update : ProviderUpdate) (events : List ProviderCircuitEvent) :
    Prop :=
  ∀ circuit ∈ update.circuit, ∀ event ∈ events, event.isOpen = true →
    event.cooldownUntil ≤ circuit.cooldownUntil ∨ circuit.cooldownUntil ≤ now

instance (now : Int) (update : ProviderUpdate) (events : List ProviderCircuitEvent) :
    Decidable (KeepsDeadline now update events) :=
  inferInstanceAs (Decidable (∀ circuit ∈ update.circuit, ∀ event ∈ events, _ → _))

/-- The open event after the circuit upsert has the larger deadline. -/
theorem cooldownUntil_of_upsertCircuit {circuit : CircuitOpen} {event : ProviderCircuitEvent}
    (henabled : row.manualDisabled = false) (hid : ∀ event ∈ events, event.providerId = id)
    (hmem : event ∈ Database.upsertCircuit id circuit (some row) events)
    (hopen : event.isOpen = true) :
    event.cooldownUntil = circuit.cooldownUntil ∧
        events.filter ProviderCircuitEvent.isOpen = [] ∨
      ∃ before ∈ events, before.isOpen = true ∧
        event.cooldownUntil = max before.cooldownUntil circuit.cooldownUntil := by
  unfold Database.upsertCircuit at hmem
  rw [if_pos (by simp [henabled])] at hmem
  split at hmem
  · next hnone =>
    left
    refine ⟨?_, hnone⟩
    rcases List.mem_append.mp hmem with hold | hnew
    · have hfound : event ∈ events.filter ProviderCircuitEvent.isOpen :=
        List.mem_filter.mpr ⟨hold, hopen⟩
      rw [hnone] at hfound
      cases hfound
    · obtain rfl := List.mem_singleton.mp hnew
      rfl
  · right
    obtain ⟨before, hbefore, rfl⟩ := List.mem_map.mp hmem
    rw [Database.mergeCircuit_isOpen] at hopen
    refine ⟨before, hbefore, hopen, ?_⟩
    simp [Database.mergeCircuit, hid before hbefore, hopen]

/-- A usage limit that is flushed into an enabled row puts it on cooldown. -/
theorem flushRow_of_circuit {circuit : CircuitOpen} (hbuilt : update.Built)
    (hcircuit : update.circuit = some circuit) (henabled : row.manualDisabled = false) :
    (flushRow update row).status = .cooldown ∧
      (flushRow update row).cooldownUntil = some circuit.cooldownUntil := by
  have hpart := hbuilt.statusPart
  rw [hcircuit] at hpart
  generalize hs : update.status = status, hu : update.cooldownUntil = deadline at hpart
  cases hpart
  simp [flushRow, henabled, hs, hu]

/-- **One turn of the flush loop** keeps the deadlines together if they do not shrink. -/
theorem flush (h : DeadlinesMatch row events) (hbuilt : update.Built)
    (hid : ∀ event ∈ events, event.providerId = id)
    (hgrows : ∀ circuit ∈ update.circuit, ∀ event ∈ events, event.isOpen = true →
      event.cooldownUntil ≤ circuit.cooldownUntil) :
    DeadlinesMatch (flushRow update row) (flushEvents id update (some row) events) := by
  have hcircuits : CircuitMatches (flushRow update row) (flushEvents id update (some row) events) :=
    h.toCircuitMatches.flush hbuilt
  refine ⟨hcircuits, fun hcooldown event hmem hopen => ?_⟩
  cases hdisabled : row.manualDisabled with
  | true => simp [flushRow, hdisabled] at hcooldown
  | false =>
    cases hcircuit : update.circuit with
    | none =>
      have hkept : EntersNoCooldown row (flushRow update row) := by
        apply flushRow_entersNoCooldown
        intro hstatus
        have hpart := hbuilt.statusPart
        rw [hcircuit, hstatus] at hpart
        generalize update.cooldownUntil = deadline at hpart
        cases hpart
      unfold flushEvents at hmem
      rw [hcircuit] at hmem
      exact (h.rewrite hkept).same hcooldown event hmem hopen
    | some circuit =>
      obtain ⟨hstatus, huntil⟩ := flushRow_of_circuit hbuilt hcircuit hdisabled
      rw [huntil]
      unfold flushEvents at hmem
      rw [hcircuit, Option.elim_some, Option.elim_some] at hmem
      obtain ⟨before, hbefore, rfl⟩ := List.mem_map.mp hmem
      have hsame : before.closeOnStatusChange row (flushRow update row) = before := by
        simp [ProviderCircuitEvent.closeOnStatusChange, closesCircuit, hcooldown]
      rw [hsame] at hopen ⊢
      rcases cooldownUntil_of_upsertCircuit hdisabled hid hbefore hopen with
        ⟨hnew, -⟩ | ⟨old, hold, holdopen, hmax⟩
      · rw [hnew]
      · have hle := hgrows circuit hcircuit old hold holdopen
        rw [hmax, max_eq_right hle]

/-- **A flush and the recovery** keep the deadlines together under the condition. -/
theorem settle {now : Int} (h : DeadlinesMatch row events) (hbuilt : update.Built)
    (hid : ∀ event ∈ events, event.providerId = id) (hkeeps : KeepsDeadline now update events) :
    DeadlinesMatch (recoverRow now (flushRow update row))
      (recoverEvents now (some (flushRow update row))
        (flushEvents id update (some row) events)) := by
  have hrecover := recoverRow_entersNoCooldown now (flushRow update row)
  have hflushed : CircuitMatches (flushRow update row) (flushEvents id update (some row) events) :=
    h.toCircuitMatches.flush hbuilt
  have hcircuits := hflushed.update hrecover
  by_cases hcooldown : (recoverRow now (flushRow update row)).status = .cooldown
  · refine (h.flush hbuilt hid fun circuit hcircuit event hmem hopen => ?_).rewrite hrecover
    rcases hkeeps circuit hcircuit event hmem hopen with hle | hover
    · exact hle
    · -- The deadline is over: the recovery would have released the row.
      exfalso
      have henabled : row.manualDisabled = false := by
        have hflushed := (hrecover hcooldown).1
        cases hrow : row.manualDisabled with
        | false => rfl
        | true => simp [flushRow, hrow] at hflushed
      obtain ⟨hstatus, huntil⟩ := flushRow_of_circuit hbuilt hcircuit henabled
      have hexpired : isExpiredCooldown now (flushRow update row) = true := by
        simp [isExpiredCooldown, hstatus, huntil, henabled, hover]
      rw [recoverRow, if_pos hexpired] at hcooldown
      cases hcooldown
  · exact of_not_cooldown hcircuits hcooldown

/-- **The condition is exact** for the flush of an enabled provider. -/
theorem settle_iff {now : Int} (h : DeadlinesMatch row events)
    (henabled : row.manualDisabled = false)
    (hbuilt : update.Built) (hid : ∀ event ∈ events, event.providerId = id) :
    DeadlinesMatch (recoverRow now (flushRow update row))
        (recoverEvents now (some (flushRow update row))
          (flushEvents id update (some row) events)) ↔
      KeepsDeadline now update events := by
  refine ⟨fun hafter circuit hcircuit event hmem hopen => ?_, h.settle hbuilt hid⟩
  have hcircuit : update.circuit = some circuit := hcircuit
  by_contra hshrinks
  obtain ⟨hearlier, hahead⟩ := not_or.mp hshrinks
  obtain ⟨hstatus, huntil⟩ := flushRow_of_circuit hbuilt hcircuit henabled
  have hkept : recoverRow now (flushRow update row) = flushRow update row := by
    rw [recoverRow, if_neg]
    simpa [isExpiredCooldown, hstatus, huntil, henabled] using hahead
  have hsome : events.filter ProviderCircuitEvent.isOpen ≠ [] :=
    List.ne_nil_of_mem (List.mem_filter.mpr ⟨hmem, hopen⟩)
  have hfinal : Database.mergeCircuit id circuit event ∈
      recoverEvents now (some (flushRow update row))
        (flushEvents id update (some row) events) := by
    have hupsert : Database.upsertCircuit id circuit (some row) events =
        events.map (Database.mergeCircuit id circuit) := by
      rw [Database.upsertCircuit, if_pos (by simp [henabled]), if_neg hsome]
    have hclose (other : ProviderCircuitEvent) :
        other.closeOnStatusChange row (flushRow update row) = other := by
      simp [ProviderCircuitEvent.closeOnStatusChange, closesCircuit, hstatus]
    simp only [recoverEvents, flushEvents, Option.elim_some, hcircuit, hkept, hupsert, hclose,
      ProviderCircuitEvent.closeOnStatusChange_self, List.map_id']
    exact List.mem_map_of_mem hmem
  have hsame := hafter.same (by rw [hkept]; exact hstatus) _ hfinal (by simpa using hopen)
  rw [hkept, huntil, Option.some.injEq] at hsame
  simp only [Database.mergeCircuit, hid event hmem, hopen, Bool.and_true, decide_true, if_true]
    at hsame
  omega

end DeadlinesMatch

namespace Database

/-- The deadlines of a provider agree with its circuit events. -/
def DeadlinesMatch (db : Database) (p : String) : Prop :=
  ∀ row, db.provider? p = some row → OpenAiLb.DeadlinesMatch row (db.eventsOf p)

variable {db db' : Database} {p : String}

/-- The events of a provider are its own. -/
theorem providerId_of_mem_eventsOf {event : ProviderCircuitEvent} (h : event ∈ db.eventsOf p) :
    event.providerId = p := by
  simpa using (List.mem_filter.mp h).2

/-- **A maintenance transaction** keeps the deadlines together under the condition on the pending
update of the provider. -/
theorem DeadlinesMatch.maintain {now : Int} {updates : List (String × ProviderUpdate)}
    {affinities : List (String × AffinityEntry)} {persisted : List (String × AffinityEntry × Bool)}
    (h : db.DeadlinesMatch p)
    (hcommit : db.maintainTransaction now updates affinities = .ok (db', persisted))
    (hnodup : (updates.map Prod.fst).Nodup)
    (hpending : ∀ update ∈ updates.lookup p, update.Built ∧
      OpenAiLb.DeadlinesMatch.KeepsDeadline now update (db.eventsOf p)) : db'.DeadlinesMatch p := by
  intro row hrow
  rw [provider?_of_maintainTransaction hcommit hnodup] at hrow
  rw [eventsOf_of_maintainTransaction hcommit hnodup]
  obtain ⟨old, hold, rfl⟩ := Option.map_eq_some_iff.mp hrow
  rw [hold]
  cases hlookup : updates.lookup p with
  | none => exact (h old hold).rewrite (recoverRow_entersNoCooldown now old)
  | some update =>
    obtain ⟨hbuilt, hkeeps⟩ := hpending update hlookup
    exact (h old hold).settle hbuilt (fun _ => providerId_of_mem_eventsOf) hkeeps

/-- A statement of a handler keeps the deadlines together: it enters no cooldown. -/
theorem DeadlinesMatch.exec {stmt : Statement} {n : ℕ} (h : db.DeadlinesMatch p)
    (hexec : stmt.exec db = .ok (db', n)) : db'.DeadlinesMatch p := by
  intro row hrow
  obtain ⟨hactive, hevents⟩ | ⟨old, hold, hkept, hevents⟩ := row_of_exec hexec hrow
  · rw [hevents]
    exact .of_not_cooldown ⟨by simp [hactive], fun hcooldown => absurd hcooldown hactive⟩ hactive
  · rw [hevents]
    exact (h old hold).rewrite hkept

end Database

namespace Node

variable {env : Environment} {p : String} {s t : Node}

/-- The deadlines of the provider agree, and its pending entry was built by observations. -/
structure DeadlinesKept (p : String) (s : Node) : Prop where
  agree : s.db.DeadlinesMatch p
  built : ∀ update, s.pending p = some update → update.Built

/-- A process that has just started has nothing pending. -/
theorem deadlinesKept_hydrated {db : Database} (h : db.DeadlinesMatch p) (now : Int) :
    (hydrated db now).DeadlinesKept p :=
  ⟨h, fun _ hpending => by cases hpending⟩

/-- What the maintenance runs do: the pending usage limit of the provider keeps the deadline of its
open event. -/
def MaintainsDeadline (p : String) (s : Node) : Operation → Prop
  | .maintain now _ _ => ∀ update ∈ s.pending p,
    OpenAiLb.DeadlinesMatch.KeepsDeadline now update (s.db.eventsOf p)
  | _ => True

instance (op : Operation) : Decidable (s.MaintainsDeadline p op) := by
  cases op <;> unfold MaintainsDeadline <;> infer_instance

/-- **Step lemma** for the deadlines. -/
theorem DeadlinesKept.step {op : Operation} (h : s.DeadlinesKept p)
    (hkeeps : s.MaintainsDeadline p op)
    (hstep : s.step env op = some t) : t.DeadlinesKept p := by
  constructor
  · cases op with
    | trackResponse | maintainFailed | forgetProvider =>
      simp only [Node.step, Option.ite_none_right_eq_some, Option.some.injEq] at hstep
      obtain ⟨-, rfl⟩ := hstep
      exact h.agree
    | reloadProviders | dropLease =>
      cases hstep
      exact h.agree
    | select =>
      simp only [Node.step, Option.ite_none_right_eq_some] at hstep
      obtain ⟨-, hstep⟩ := hstep
      split at hstep <;> cases hstep <;> exact h.agree
    | maintain now updates affinities =>
      simp only [Node.step, Option.ite_none_right_eq_some, Option.some.injEq] at hstep
      obtain ⟨⟨-, hperm, -⟩, rfl⟩ := hstep
      unfold Node.maintain
      split
      · next hcommit =>
        refine h.agree.maintain hcommit (Balancer.nodup_of_perm_pendingUpdates hperm) ?_
        intro update hupdate
        rw [Balancer.lookup_of_perm_pendingUpdates hperm] at hupdate
        exact ⟨h.built update hupdate, hkeeps update hupdate⟩
      · exact h.agree
    | execute stmt =>
      simp only [Node.step] at hstep
      split at hstep
      · next hexec =>
        cases hstep
        exact h.agree.exec hexec
      · cases hstep
        exact h.agree
  · intro update hpending
    obtain ⟨-, hsame | hnone | ⟨seen, hseen, hmerged⟩⟩ := pending_of_step (p := p) hstep
    · exact h.built update (hsame ▸ hpending)
    · rw [hnone] at hpending
      cases hpending
    · have hbuilt : seen.Built := by
        cases op with
        | trackResponse now providerId circuitId status body =>
          simp only [observedUpdate, Option.ite_none_right_eq_some, Option.some.injEq] at hseen
          obtain ⟨-, rfl⟩ := hseen
          exact .observed (trackResponse_observed env.serde now circuitId status body)
        | reloadProviders | maintain | maintainFailed | select | dropLease | execute
        | forgetProvider => cases hseen
      rw [hmerged, Option.some.injEq] at hpending
      subst hpending
      cases hcurrent : s.pending p with
      | none => exact hbuilt
      | some current => exact .merged (h.built current hcurrent) hbuilt

/-- **Circuit record and provider agree on the deadline**, if no maintenance run shortens it. From
the start of a process on, observations of any responses with any deadlines, maintenance runs and
every other operation happen in any order, and whenever a usage limit is flushed into an open
event, it ends no earlier than the event, or is over by then. Then in every state reached, a
provider on cooldown has one open circuit event, with the deadline of its row. -/
theorem open_deadline_eq {db : Database} {start : Int} {operations : List Operation}
    {row : Provider} (hstart : db.DeadlinesMatch p)
    (hkeeps : Transition.Guarded (Node.step env) (MaintainsDeadline p) (hydrated db start)
      operations)
    (hrun : (hydrated db start).run env operations = some s)
    (hrow : s.db.provider? p = some row) (hcooldown : row.status = .cooldown) :
    ∃ event, s.db.openEventsOf p = [event] ∧ row.cooldownUntil = some event.cooldownUntil := by
  have hkept : s.DeadlinesKept p :=
    Transition.invariant_of_guarded (fun h hok hstep => h.step hok hstep) hkeeps hrun
      (deadlinesKept_hydrated hstart start)
  exact (hkept.agree row hrow).exists_open hcooldown

/-- The first usage limit of the provider. -/
def firstLimit (resetsAt : ℕ) : List Operation :=
  [.trackResponse 100 "p" "c" 429 (usageLimitBody resetsAt)]

/-- A usage limit is flushed, and another one is observed. -/
def limitedTwice (first second : ℕ) : List Operation :=
  let s := (hydrated loaded.db 50).after usageLimitEnvironment (firstLimit first)
  firstLimit first ++
    [.maintain 110 s.balancer.pendingUpdates s.balancer.pendingAffinities,
      .trackResponse 120 "p" "d" 429 (usageLimitBody second)]

/-- Both are flushed. -/
def flushedTwice (first second : ℕ) : List Operation :=
  let s := (hydrated loaded.db 50).after usageLimitEnvironment (limitedTwice first second)
  limitedTwice first second ++
    [.maintain 130 s.balancer.pendingUpdates s.balancer.pendingAffinities]

/-- The deadlines match on the loaded node. -/
theorem deadlinesMatch_loaded : loaded.db.DeadlinesMatch "p" := by
  intro row hrow
  have hactive : ∀ row ∈ loaded.db.providers.rows, row.status = .active := by decide
  have hstatus := hactive row (Table.mem_of_find? hrow)
  have hevents : loaded.db.eventsOf "p" = [] := by decide
  rw [hevents]
  exact ⟨⟨by simp [hstatus], fun hcooldown => by simp [hstatus] at hcooldown⟩,
    fun _ event hmem => by cases hmem⟩

/-- The statement at a run in which the deadline grows. -/
theorem open_deadline_eq_flushedTwice :
    ∃ row event, ((hydrated loaded.db 50).after usageLimitEnvironment
        (flushedTwice 200 300)).db.provider? "p" = some row ∧
      ((hydrated loaded.db 50).after usageLimitEnvironment
        (flushedTwice 200 300)).db.openEventsOf "p" = [event] ∧
      row.cooldownUntil = some event.cooldownUntil := by
  have hkeeps : Transition.Guarded (Node.step usageLimitEnvironment) (MaintainsDeadline "p")
      (hydrated loaded.db 50) (flushedTwice 200 300) := by decide
  have hrun : (hydrated loaded.db 50).run usageLimitEnvironment (flushedTwice 200 300) =
      some ((hydrated loaded.db 50).after usageLimitEnvironment (flushedTwice 200 300)) :=
    Transition.run_eq_some_after (by decide)
  have hcooling : (((hydrated loaded.db 50).after usageLimitEnvironment
      (flushedTwice 200 300)).db.provider? "p").any (fun row => row.status = .cooldown) = true := by
    decide
  obtain ⟨row, hrow, hstatus⟩ := (Option.any_eq_true _ _).mp hcooling
  obtain ⟨event, hevent, hdeadline⟩ :=
    open_deadline_eq deadlinesMatch_loaded hkeeps hrun hrow (by simpa using hstatus)
  exact ⟨row, event, hrow, hevent, hdeadline⟩

/-- **A shorter deadline parts them**: the provider is re-admitted at second 200, and its open
circuit event says 300. -/
theorem shrinking_deadline_parts :
    ((hydrated loaded.db 50).run usageLimitEnvironment (flushedTwice 300 200)).isSome = true ∧
      (((hydrated loaded.db 50).after usageLimitEnvironment (flushedTwice 300 200)).db.provider?
        "p").map (fun row => (row.manualDisabled, row.status, row.cooldownUntil)) =
          some (false, .cooldown, some 200) ∧
      (((hydrated loaded.db 50).after usageLimitEnvironment (flushedTwice 300 200)).db.openEventsOf
        "p").map ProviderCircuitEvent.cooldownUntil = [300] := by
  decide

end Node

end OpenAiLb
