import OpenAiLb.CircuitHistory
import OpenAiLb.CircuitIds
import OpenAiLb.CircuitState

/-!
# Flushing a batch of observations at once

The maintenance transaction refines the abstract circuit: flushing one pending entry
records its signal. The signal of a merged entry is the last one of the batch, so the
flush of the merged entry and the flushes of the single observations can be compared
in the abstract circuit.
-/

namespace OpenAiLb

/-- The opening that a circuit event records. -/
def ProviderCircuitEvent.opening (event : ProviderCircuitEvent) : Opening :=
  ⟨event.openedAt, event.cause, event.cooldownUntil, event.isOpen⟩

/-- What the circuit events of a provider say, event ids aside. -/
def Database.circuitHistory (db : Database) (id : String) : List Opening :=
  (db.eventsOf id).map ProviderCircuitEvent.opening

/-- What an update signals to the circuit. -/
def ProviderUpdate.signal (update : ProviderUpdate) : Signal :=
  match update.status, update.circuit with
  | some .cooldown, some circuit => .usageLimit circuit.openedAt circuit.cooldownUntil
  | some .authError, _ => .authError
  | _, _ => .silent

/-- Every circuit that observations and merging build has the cause of a usage limit. -/
theorem ProviderUpdate.Built.cause {update : ProviderUpdate} (h : update.Built) :
    ∀ circuit, update.circuit = some circuit → circuit.cause = usageLimitCause := by
  induction h with
  | observed hobserved =>
    intro circuit hcircuit
    cases hobserved <;> cases hcircuit
    rfl
  | merged _ _ ihu ihnext =>
    rename_i u next _ _
    intro circuit hcircuit
    cases hstatus : next.status with
    | none =>
      obtain ⟨-, -, -, hkept⟩ := ProviderUpdate.merge_of_status_none (u := u) hstatus
      exact ihu circuit (hkept ▸ hcircuit)
    | some st =>
      obtain ⟨-, -, -, htaken⟩ := ProviderUpdate.merge_of_status_some (u := u) hstatus
      exact ihnext circuit (htaken ▸ hcircuit)

/-- The trigger does nothing when the row does not leave `cooldown`. -/
theorem map_closeOnStatusChange_of_not {old new : Provider} (h : closesCircuit old new = false)
    (events : List ProviderCircuitEvent) :
    events.map (·.closeOnStatusChange old new) = events := by
  refine (List.map_congr_left fun event _ => ?_).trans (List.map_id _)
  simp [ProviderCircuitEvent.closeOnStatusChange, h]

/-- The trigger closes the open event and changes nothing else of its opening. -/
theorem opening_closeOnStatusChange {old new : Provider} {event : ProviderCircuitEvent}
    (hcloses : closesCircuit old new = true) (hopen : event.isOpen = true) :
    (event.closeOnStatusChange old new).opening = { event.opening with isOpen := false } := by
  rw [ProviderCircuitEvent.closeOnStatusChange, if_pos (by simp [hcloses, hopen])]
  rfl

/-- The circuit of an observation has the id that was issued for it. -/
theorem Observed.circuitId {now : Int} {circuitId key : String} {update : ProviderUpdate}
    (h : Observed now circuitId update) (hkey : update.circuitId = some key) : circuitId = key := by
  cases h with
  | statusless => cases hkey
  | authError => cases hkey
  | usageLimit => exact Option.some.inj hkey

/-- **The refinement relation** between the rows of a provider and its abstract circuit. `base` is
what was closed before. -/
structure Represents (base : List Opening) (circuit : Circuit) (row : Provider)
    (events : List ProviderCircuitEvent) : Prop where
  closed : ((events.filter fun event => !event.isOpen).map ProviderCircuitEvent.opening).Perm
    (base ++ circuit.closed)
  current : match circuit.current with
    | none => row.status ≠ .cooldown ∧ events.filter ProviderCircuitEvent.isOpen = []
    | some c => row.status = .cooldown ∧ row.cooldownUntil = some c.deadline ∧
      ∃ event, events.filter ProviderCircuitEvent.isOpen = [event] ∧
        event.opening = c.opening true

namespace Represents

variable {base : List Opening} {circuit : Circuit} {row new : Provider}
  {events : List ProviderCircuitEvent}

/-- The events are the closed ones and the open one. -/
theorem history (h : Represents base circuit row events) :
    (events.map ProviderCircuitEvent.opening).Perm (base ++ circuit.history) := by
  have hsplit : (events.filter ProviderCircuitEvent.isOpen ++
      events.filter fun event => !event.isOpen).Perm events :=
    List.filter_append_perm ProviderCircuitEvent.isOpen events
  have hmapped := (hsplit.map ProviderCircuitEvent.opening).symm
  rw [List.map_append] at hmapped
  refine hmapped.trans (List.perm_append_comm.trans ?_)
  rw [Circuit.history, ← List.append_assoc]
  refine h.closed.append ?_
  have hcurrent := h.current
  cases hcase : circuit.current with
  | none =>
    rw [hcase] at hcurrent
    simp [hcurrent.2]
  | some c =>
    rw [hcase] at hcurrent
    obtain ⟨-, -, event, hopen, hopening⟩ := hcurrent
    simp [hopen, hopening]

/-- A row that does not change its status and its deadline keeps the circuit. -/
theorem keep (h : Represents base circuit row events) (hstatus : new.status = row.status)
    (huntil : new.cooldownUntil = row.cooldownUntil) :
    Represents base circuit new (events.map (·.closeOnStatusChange row new)) := by
  have hcloses : closesCircuit row new = false := by simp [closesCircuit, hstatus]
  rw [map_closeOnStatusChange_of_not hcloses]
  refine ⟨h.closed, ?_⟩
  rw [hstatus, huntil]
  exact h.current

/-- A row that leaves `cooldown`, or stays off it, closes the circuit. -/
theorem close (h : Represents base circuit row events) (hstatus : new.status ≠ .cooldown) :
    Represents base circuit.close new (events.map (·.closeOnStatusChange row new)) := by
  have hcurrent := h.current
  cases hcase : circuit.current with
  | none =>
    rw [hcase] at hcurrent
    have hcloses : closesCircuit row new = false := by simp [closesCircuit, hcurrent.1]
    rw [map_closeOnStatusChange_of_not hcloses]
    refine ⟨by simpa [Circuit.close, hcase] using h.closed, hstatus, hcurrent.2⟩
  | some c =>
    rw [hcase] at hcurrent
    obtain ⟨hcooldown, -, event, hopen, hopening⟩ := hcurrent
    have hcloses : closesCircuit row new = true := by simp [closesCircuit, hcooldown, hstatus]
    have hnone : ∀ e : ProviderCircuitEvent, (e.closeOnStatusChange row new).isOpen = false := by
      intro e
      rw [ProviderCircuitEvent.closeOnStatusChange_isOpen, hcloses, Bool.not_true, Bool.and_false]
    refine ⟨?_, hstatus, ?_⟩
    · -- The closed events stay, and the open one joins them.
      have hall : (events.map (·.closeOnStatusChange row new)).filter (fun e => !e.isOpen) =
          events.map (·.closeOnStatusChange row new) := by
        refine List.filter_eq_self.mpr fun e hmem => ?_
        obtain ⟨e, -, rfl⟩ := List.mem_map.mp hmem
        rw [hnone, Bool.not_false]
      have hsplit : (events.filter (fun e => !e.isOpen) ++
          events.filter ProviderCircuitEvent.isOpen).Perm events :=
        List.perm_append_comm.trans (List.filter_append_perm ProviderCircuitEvent.isOpen events)
      have hkept : (events.filter fun e => !e.isOpen).map
          (fun e => (e.closeOnStatusChange row new).opening) =
            (events.filter fun e => !e.isOpen).map ProviderCircuitEvent.opening := by
        refine List.map_congr_left fun e hmem => ?_
        have hclosed : e.isOpen = false := by simpa using (List.mem_filter.mp hmem).2
        simp [ProviderCircuitEvent.closeOnStatusChange, hclosed]
      have hnew : (event.closeOnStatusChange row new).opening = c.opening false := by
        have hmem : event ∈ events.filter ProviderCircuitEvent.isOpen := by simp [hopen]
        rw [opening_closeOnStatusChange hcloses (List.mem_filter.mp hmem).2, hopening]
        rfl
      rw [hall, List.map_map]
      refine ((hsplit.map _).symm.trans ?_)
      rw [List.map_append, Function.comp_def, hkept, hopen]
      simp only [Circuit.close, hcase, Option.toList_some, List.map_cons, List.map_nil, hnew]
      rw [← List.append_assoc]
      exact h.closed.append_right _
    · refine List.filter_eq_nil_iff.mpr fun e hmem => ?_
      obtain ⟨e, -, rfl⟩ := List.mem_map.mp hmem
      simp [hnone]

/-- The circuit upsert of an enabled provider, and the row update that puts it on cooldown, take a
usage limit. -/
theorem usageLimit {id : String} {open_ : CircuitOpen} (h : Represents base circuit row events)
    (henabled : row.manualDisabled = false) (hcause : open_.cause = usageLimitCause)
    (hstatus : new.status = .cooldown) (huntil : new.cooldownUntil = some open_.cooldownUntil)
    (hevents : ∀ event ∈ events, event.providerId = id) :
    Represents base (circuit.take (.usageLimit open_.openedAt open_.cooldownUntil)) new
      ((Database.upsertCircuit id open_ (some row) events).map
        (·.closeOnStatusChange row new)) := by
  have hcloses : closesCircuit row new = false := by simp [closesCircuit, hstatus]
  rw [map_closeOnStatusChange_of_not hcloses, Database.upsertCircuit, if_pos (by simp [henabled])]
  have hcurrent := h.current
  cases hcase : circuit.current with
  | none =>
    rw [hcase] at hcurrent
    rw [if_pos hcurrent.2]
    have hisOpen : (Database.openEvent id open_).isOpen = true := rfl
    refine ⟨?_, ?_⟩
    · simpa [List.filter_append, hisOpen, Circuit.take] using h.closed
    · simp only [Circuit.take, hcase]
      refine ⟨hstatus, huntil, Database.openEvent id open_, ?_, ?_⟩
      · simp [List.filter_append, hcurrent.2, hisOpen]
      · simp [ProviderCircuitEvent.opening, Database.openEvent, OpenCircuit.opening, hcause,
          ProviderCircuitEvent.isOpen]
  | some c =>
    rw [hcase] at hcurrent
    obtain ⟨-, -, event, hopen, hopening⟩ := hcurrent
    rw [if_neg (by simp [hopen])]
    have hsame : ProviderCircuitEvent.isOpen ∘ Database.mergeCircuit id open_ =
        ProviderCircuitEvent.isOpen := funext fun e => Database.mergeCircuit_isOpen id open_ e
    have hsameNot : (fun e : ProviderCircuitEvent => !e.isOpen) ∘ Database.mergeCircuit id open_ =
        fun e => !e.isOpen :=
      funext fun e => congrArg (!·) (Database.mergeCircuit_isOpen id open_ e)
    refine ⟨?_, ?_⟩
    · have hkept : (events.filter fun e => !e.isOpen).map (Database.mergeCircuit id open_) =
          events.filter fun e => !e.isOpen := by
        refine (List.map_congr_left fun e hmem => ?_).trans (List.map_id _)
        have hclosed : e.isOpen = false := by simpa using (List.mem_filter.mp hmem).2
        simp [Database.mergeCircuit, hclosed]
      rw [List.filter_map, hsameNot, hkept]
      exact h.closed
    · have hmem : event ∈ events.filter ProviderCircuitEvent.isOpen := by simp [hopen]
      obtain ⟨hin, hisOpen⟩ := List.mem_filter.mp hmem
      simp only [ProviderCircuitEvent.opening, OpenCircuit.opening, Opening.mk.injEq] at hopening
      simp only [Circuit.take, hcase]
      refine ⟨hstatus, huntil, Database.mergeCircuit id open_ event, ?_, ?_⟩
      · rw [List.filter_map, hsame, hopen]
        rfl
      · simp [ProviderCircuitEvent.opening, Database.mergeCircuit, hevents event hin, hisOpen,
          OpenCircuit.opening, hcause, hopening]
        simpa [ProviderCircuitEvent.isOpen] using hisOpen

/-- One turn of the flush loop takes the signal of the update. -/
theorem flush {id : String} {update : ProviderUpdate} (h : Represents base circuit row events)
    (henabled : row.manualDisabled = false) (hbuilt : update.Built)
    (hevents : ∀ event ∈ events, event.providerId = id) :
    Represents base (circuit.take update.signal) (flushRow update row)
      (flushEvents id update (some row) events) := by
  have hcause := hbuilt.cause
  have hpart := hbuilt.statusPart
  unfold flushEvents ProviderUpdate.signal
  rw [Option.elim_some]
  generalize hs : update.status = status, hu : update.cooldownUntil = deadline,
    hc : update.circuit = opened at hpart hcause
  cases hpart with
  | none => exact h.keep (by simp [flushRow, henabled, hs]) (by simp [flushRow, henabled, hs])
  | authError => exact h.close (by simp [flushRow, henabled, hs])
  | cooldown opened =>
    exact h.usageLimit henabled (hcause opened rfl) (by simp [flushRow, henabled, hs])
      (by simp [flushRow, henabled, hs, hu]) hevents

/-- The recovery releases the circuit. -/
theorem recover (h : Represents base circuit row events) (henabled : row.manualDisabled = false)
    (now : Int) :
    Represents base (circuit.release now) (recoverRow now row)
      (recoverEvents now (some row) events) := by
  have hcurrent := h.current
  unfold recoverEvents
  rw [Option.elim_some]
  cases hcase : circuit.current with
  | none =>
    rw [hcase] at hcurrent
    have hkeep : recoverRow now row = row := if_neg (by simp [isExpiredCooldown, hcurrent.1])
    rw [Circuit.release_of_not_due (by simp [hcase]), hkeep]
    exact h.keep rfl rfl
  | some c =>
    rw [hcase] at hcurrent
    obtain ⟨hcooldown, huntil, -⟩ := hcurrent
    by_cases hdue : c.deadline ≤ now
    · have hrelease : recoverRow now row = releaseCooldown now row :=
        if_pos (by simp [isExpiredCooldown, henabled, hcooldown, huntil, hdue])
      rw [Circuit.release_of_due hcase hdue, hrelease]
      exact h.close (by simp [releaseCooldown])
    · have hkeep : recoverRow now row = row :=
        if_neg (by simp [isExpiredCooldown, huntil, hdue])
      rw [Circuit.release_of_not_due (by simpa [hcase] using hdue), hkeep]
      exact h.keep rfl rfl

/-- **One maintenance run** records the signal of the pending entry. -/
theorem record {id : String} {update : ProviderUpdate} (h : Represents base circuit row events)
    (henabled : row.manualDisabled = false) (hbuilt : update.Built)
    (hevents : ∀ event ∈ events, event.providerId = id) (now : Int) :
    Represents base (circuit.record (update.signal, now)) (recoverRow now (flushRow update row))
      (recoverEvents now (some (flushRow update row)) (flushEvents id update (some row) events)) :=
  (h.flush henabled hbuilt hevents).recover (by simpa using henabled) now

end Represents

/-- The open circuit that a provider starts a batch with. -/
def startCircuit (row : Provider) (events : List ProviderCircuitEvent) : Option OpenCircuit :=
  if row.status = .cooldown then
    (events.find? ProviderCircuitEvent.isOpen).bind fun event =>
      row.cooldownUntil.map fun deadline =>
        ⟨event.openedAt, event.cause, event.cooldownUntil, deadline⟩
  else none

/-- A provider whose events agree with its status has an abstract circuit. -/
theorem represents_start {row : Provider} {events : List ProviderCircuitEvent}
    (h : CircuitMatches row events) :
    Represents ((events.filter fun event => !event.isOpen).map ProviderCircuitEvent.opening)
      ⟨[], startCircuit row events⟩ row events := by
  refine ⟨by simp, ?_⟩
  by_cases hcooldown : row.status = .cooldown
  · have hlength := h.openEvents
    rw [if_pos hcooldown] at hlength
    obtain ⟨event, hopen⟩ := List.length_eq_one_iff.mp hlength
    obtain ⟨deadline, huntil⟩ := Option.isSome_iff_exists.mp (h.deadline hcooldown)
    have hfind : events.find? ProviderCircuitEvent.isOpen = some event := by
      rw [← List.head?_filter, hopen]
      rfl
    have hmem : event ∈ events.filter ProviderCircuitEvent.isOpen := by simp [hopen]
    have hstart : startCircuit row events =
        some ⟨event.openedAt, event.cause, event.cooldownUntil, deadline⟩ := by
      simp [startCircuit, hcooldown, hfind, huntil]
    rw [hstart]
    refine ⟨hcooldown, huntil, event, hopen, ?_⟩
    simp [ProviderCircuitEvent.opening, OpenCircuit.opening, (List.mem_filter.mp hmem).2]
  · have hlength := h.openEvents
    rw [if_neg hcooldown] at hlength
    rw [startCircuit, if_neg hcooldown]
    exact ⟨hcooldown, List.eq_nil_of_length_eq_zero hlength⟩

/-- One observation of a batch, with the moment at which a maintenance run of its own would flush
it. -/
structure TimedObservation where
  now : Int
  circuitId : String
  status : ℕ
  body : List UInt8
  flushedAt : Int

namespace TimedObservation

variable (serde : SerdeJson)

/-- The update that the observation makes. -/
def update (observation : TimedObservation) : ProviderUpdate :=
  trackResponse serde observation.now observation.circuitId observation.status observation.body

/-- What the observation signals, and when it is flushed. -/
def flushed (observation : TimedObservation) : Signal × Int :=
  ((observation.update serde).signal, observation.flushedAt)

/-- The pending map after the observations of one provider. -/
def pending (p : String) (observations : List TimedObservation) :
    AList fun _ : String => ProviderUpdate :=
  observations.foldl
    (fun updates observation => Balancer.recordUpdate updates p (observation.update serde)) ∅

/-- An observation has the shape of an observed update. -/
theorem observed (observation : TimedObservation) :
    Observed observation.now observation.circuitId (observation.update serde) :=
  trackResponse_observed ..

end TimedObservation

namespace Database

/-- One maintenance run that flushes the pending entry of a provider. -/
def flushPendingMap (db : Database) (pending : AList fun _ : String => ProviderUpdate) (now : Int) :
    Except SqliteError Database :=
  match db.maintainTransaction now (Assoc.pairs pending) [] with
  | .ok (db, _) => .ok db
  | .error error => .error error

/-- The batch is flushed once, as its merged entry. -/
def flushMerged (serde : SerdeJson) (p : String) (db : Database)
    (observations : List TimedObservation) (now : Int) : Except SqliteError Database :=
  db.flushPendingMap (TimedObservation.pending serde p observations) now

/-- Every observation is flushed by a maintenance run of its own. -/
def flushEach (serde : SerdeJson) (p : String) (db : Database) :
    List TimedObservation → Except SqliteError Database
  | [] => .ok db
  | observation :: rest =>
    match db.flushPendingMap (TimedObservation.pending serde p [observation])
        observation.flushedAt with
    | .ok db => db.flushEach serde p rest
    | .error error => .error error

end Database

namespace ProviderUpdate

/-- Merging keeps the last signal that is not silent. -/
theorem signal_merge (update : ProviderUpdate) {next : ProviderUpdate} (h : next.Built) :
    (update.merge next).signal = if next.signal = .silent then update.signal else next.signal := by
  have hpart := h.statusPart
  cases hstatus : next.status with
  | none =>
    obtain ⟨hs, -, -, hc⟩ := merge_of_status_none (u := update) hstatus
    have hsilent : next.signal = .silent := by simp [signal, hstatus]
    rw [if_pos hsilent, signal, hs, hc, signal]
  | some st =>
    obtain ⟨hs, -, -, hc⟩ := merge_of_status_some (u := update) hstatus
    have hsame : (update.merge next).signal = next.signal := by
      rw [signal, hs, hc, signal, hstatus]
    rw [hsame, if_neg]
    rw [hstatus] at hpart
    unfold signal
    rw [hstatus]
    generalize next.cooldownUntil = deadline, next.circuit = circuit at hpart ⊢
    cases hpart <;> simp

/-- Merging keeps one of the two circuits. -/
theorem circuitId_merge {update next : ProviderUpdate} {key : String}
    (h : (update.merge next).circuitId = some key) :
    update.circuitId = some key ∨ next.circuitId = some key := by
  cases hstatus : next.status with
  | none =>
    obtain ⟨-, -, -, hc⟩ := merge_of_status_none (u := update) hstatus
    exact .inl (by rw [circuitId, ← hc]; exact h)
  | some st =>
    obtain ⟨-, -, -, hc⟩ := merge_of_status_some (u := update) hstatus
    exact .inr (by rw [circuitId, ← hc]; exact h)

end ProviderUpdate

namespace TimedObservation

variable {serde : SerdeJson} {p : String}

/-- The merged entry of a batch. -/
def merged (serde : SerdeJson) (update : ProviderUpdate) (rest : List TimedObservation) :
    ProviderUpdate :=
  rest.foldl (fun update observation => update.merge (observation.update serde)) update

/-- The pending map of a batch has one entry, the merged one. -/
theorem lookup_pending (first : TimedObservation) (rest : List TimedObservation) (id : String) :
    (pending serde p (first :: rest)).lookup id =
      if id = p then some (merged serde (first.update serde) rest) else none := by
  have hgeneral : ∀ (updates : AList fun _ : String => ProviderUpdate) (update : ProviderUpdate),
      updates.lookup p = some update → (∀ id, id ≠ p → updates.lookup id = none) →
        (rest.foldl (fun updates observation =>
          Balancer.recordUpdate updates p (observation.update serde)) updates).lookup id =
            if id = p then some (merged serde update rest) else none := by
    induction rest with
    | nil =>
      intro updates update hp hother
      by_cases heq : id = p
      · subst heq
        simpa [merged] using hp
      · simpa [heq] using hother id heq
    | cons observation rest ih =>
      intro updates update hp hother
      rw [List.foldl_cons]
      refine ih _ _ ?_ fun id hne => ?_
      · rw [Balancer.lookup_recordUpdate, hp, Option.elim_some]
      · rw [Balancer.lookup_recordUpdate_ne _ _ hne, hother id hne]
  refine hgeneral _ (first.update serde) ?_ fun id hne => ?_
  · rw [Balancer.lookup_recordUpdate]
    rfl
  · rw [Balancer.lookup_recordUpdate_ne _ _ hne]
    rfl

/-- Merging keeps the shape of the update. -/
theorem merged_built {update : ProviderUpdate} (h : update.Built) (rest : List TimedObservation) :
    (merged serde update rest).Built := by
  induction rest generalizing update with
  | nil => exact h
  | cons observation rest ih => exact ih (.merged h (.observed (observation.observed serde)))

/-- The merged entry signals the last signal of the batch. -/
theorem signal_merged (update : ProviderUpdate) (rest : List TimedObservation) :
    (merged serde update rest).signal =
      if lastSignal (rest.map (flushed serde)) = .silent then update.signal
      else lastSignal (rest.map (flushed serde)) := by
  induction rest generalizing update with
  | nil => rfl
  | cons observation rest ih =>
    have hbuilt : (observation.update serde).Built := .observed (observation.observed serde)
    change (merged serde (update.merge (observation.update serde)) rest).signal = _
    rw [ih, ProviderUpdate.signal_merge update hbuilt, List.map_cons, lastSignal]
    by_cases hrest : lastSignal (rest.map (flushed serde)) = .silent
    · simp [hrest, flushed]
    · simp [hrest]

/-- The merged entry carries the circuit of one of the observations. -/
theorem circuitId_merged {update : ProviderUpdate} {rest : List TimedObservation} {key : String}
    (h : (merged serde update rest).circuitId = some key) :
    update.circuitId = some key ∨ ∃ observation ∈ rest, observation.circuitId = key := by
  induction rest generalizing update with
  | nil => exact .inl h
  | cons observation rest ih =>
    obtain hmerge | ⟨other, hmem, hother⟩ := ih h
    · refine (ProviderUpdate.circuitId_merge hmerge).imp_right fun hown => ?_
      exact ⟨observation, List.mem_cons_self, (observation.observed serde).circuitId hown⟩
    · exact .inr ⟨other, List.mem_cons_of_mem _ hmem, hother⟩

end TimedObservation

namespace Database

variable (serde : SerdeJson) {p : String} {base : List Opening}

/-- The database holds an enabled provider whose rows represent the circuit. -/
structure HasCircuit (db : Database) (p : String) (base : List Opening) (circuit : Circuit) :
    Prop where
  row : ∃ row, db.provider? p = some row ∧ row.manualDisabled = false ∧
    Represents base circuit row (db.eventsOf p)

/-- **One maintenance run over the whole database** records the signal of the one pending entry. -/
theorem flushPendingMap_ok {db : Database} {circuit : Circuit}
    {pending : AList fun _ : String => ProviderUpdate} {update : ProviderUpdate}
    (h : db.HasCircuit p base circuit) (hbuilt : update.Built)
    (hpending : ∀ id, pending.lookup id = if id = p then some update else none)
    (hfree : ∀ key, update.circuitId = some key → key ∉ db.providerCircuitEvents.keys) (now : Int) :
    ∃ db', db.flushPendingMap pending now = .ok db' ∧
      db'.HasCircuit p base (circuit.record (update.signal, now)) ∧
      ∀ key ∈ db'.providerCircuitEvents.keys,
        key ∈ db.providerCircuitEvents.keys ∨ update.circuitId = some key := by
  obtain ⟨row, hrow, henabled, hrepresents⟩ := h
  have hentry : ∀ entry ∈ Assoc.pairs pending, entry = (p, update) := by
    rintro ⟨id, found⟩ hmem
    have hlookup := Assoc.mem_pairs.mp hmem
    rw [hpending] at hlookup
    split at hlookup
    · next heq => rw [heq, Option.some.inj hlookup]
    · cases hlookup
  obtain ⟨mid, hmid⟩ : ∃ mid, db.flushUpdates (Assoc.pairs pending) = .ok mid :=
    flushUpdates_ok (Assoc.nodup_pairs pending)
      (fun entry hmem key hkey => hfree key (by rw [← hkey, hentry entry hmem]))
      (fun entry hmem other hother _ _ _ => by rw [hentry entry hmem, hentry other hother])
  obtain ⟨db', persisted, hcommit⟩ : ∃ db' persisted,
      db.maintainTransaction now (Assoc.pairs pending) [] = .ok (db', persisted) := by
    unfold maintainTransaction
    rw [hmid]
    exact ⟨_, _, rfl⟩
  have hlookup : (Assoc.pairs pending).lookup p = some update := by
    rw [Assoc.lookup_pairs, hpending, if_pos rfl]
  refine ⟨db', by rw [flushPendingMap, hcommit], ⟨recoverRow now (flushRow update row), ?_, ?_, ?_⟩,
    fun key hkey => ?_⟩
  · rw [provider?_of_maintainTransaction hcommit (Assoc.nodup_pairs pending), hrow, hlookup]
    rfl
  · simpa using henabled
  · rw [eventsOf_of_maintainTransaction hcommit (Assoc.nodup_pairs pending), hrow, hlookup]
    refine hrepresents.record henabled hbuilt (fun event hmem => ?_) now
    simpa using (List.mem_filter.mp hmem).2
  · obtain hbefore | ⟨entry, hmem, hcircuit⟩ := keys_of_maintainTransaction hcommit hkey
    · exact .inl hbefore
    · exact .inr (by rw [← hcircuit, hentry entry hmem])

/-- **A flush for every observation** records every signal. -/
theorem flushEach_ok {observations : List TimedObservation} {db : Database} {circuit : Circuit}
    (h : db.HasCircuit p base circuit)
    (hids : (observations.map TimedObservation.circuitId).Nodup)
    (hfree : ∀ observation ∈ observations,
      observation.circuitId ∉ db.providerCircuitEvents.keys) :
    ∃ db', db.flushEach serde p observations = .ok db' ∧
      db'.HasCircuit p base
        ((observations.map (TimedObservation.flushed serde)).foldl Circuit.record circuit) := by
  induction observations generalizing db circuit with
  | nil => exact ⟨db, rfl, h⟩
  | cons observation rest ih =>
    rw [List.map_cons, List.nodup_cons] at hids
    have hobserved := observation.observed serde
    have hown : ∀ key, (observation.update serde).circuitId = some key →
        key ∉ db.providerCircuitEvents.keys := by
      intro key hkey
      rw [← hobserved.circuitId hkey]
      exact hfree observation List.mem_cons_self
    obtain ⟨mid, hmid, hcircuit, hkeys⟩ := flushPendingMap_ok h (.observed hobserved)
      (TimedObservation.lookup_pending observation []) hown observation.flushedAt
    obtain ⟨db', hrest, hdb'⟩ := ih hcircuit hids.2 fun other hmem hkey => by
      obtain hbefore | hhead := hkeys _ hkey
      · exact hfree other (List.mem_cons_of_mem _ hmem) hbefore
      · exact hids.1 (List.mem_map.mpr ⟨other, hmem, (hobserved.circuitId hhead).symm⟩)
    refine ⟨db', ?_, hdb'⟩
    simp only [flushEach, hmid, hrest]

/-- **A flush of the merged entry** records the last signal alone. -/
theorem flushMerged_ok {first : TimedObservation} {rest : List TimedObservation} {db : Database}
    {circuit : Circuit} (h : db.HasCircuit p base circuit)
    (hfree : ∀ observation ∈ first :: rest,
      observation.circuitId ∉ db.providerCircuitEvents.keys) (now : Int) :
    ∃ db', db.flushMerged serde p (first :: rest) now = .ok db' ∧
      db'.HasCircuit p base (circuit.record
        (lastSignal ((first :: rest).map (TimedObservation.flushed serde)), now)) := by
  have hobserved := first.observed serde
  have hfreeMerged : ∀ key,
      (TimedObservation.merged serde (first.update serde) rest).circuitId = some key →
        key ∉ db.providerCircuitEvents.keys := by
    intro key hkey
    obtain hfirst | ⟨observation, hmem, rfl⟩ := TimedObservation.circuitId_merged hkey
    · rw [← hobserved.circuitId hfirst]
      exact hfree first List.mem_cons_self
    · exact hfree observation (List.mem_cons_of_mem _ hmem)
  obtain ⟨db', hdb', hcircuit, -⟩ := flushPendingMap_ok h
    (TimedObservation.merged_built (.observed hobserved) rest)
    (TimedObservation.lookup_pending first rest) hfreeMerged now
  refine ⟨db', hdb', ?_⟩
  have hsignal : (TimedObservation.merged serde (first.update serde) rest).signal =
      lastSignal ((first :: rest).map (TimedObservation.flushed serde)) :=
    TimedObservation.signal_merged (first.update serde) rest
  rwa [← hsignal]

/-- **When batching keeps the circuit history.** The flush of the merged entry and the flushes of
the single observations, each at a moment no later than the flush of the batch, leave the same
openings exactly when the batch is lossless. -/
theorem batching_keeps_history_iff {db : Database} {row : Provider}
    {earlier : List TimedObservation} {last : TimedObservation}
    (hrow : db.provider? p = some row) (henabled : row.manualDisabled = false)
    (hmatches : CircuitMatches row (db.eventsOf p))
    (hmoments : ∀ observation ∈ earlier, observation.flushedAt ≤ last.flushedAt)
    (hids : ((earlier ++ [last]).map TimedObservation.circuitId).Nodup)
    (hfree : ∀ observation ∈ earlier ++ [last],
      observation.circuitId ∉ db.providerCircuitEvents.keys) :
    ∃ merged each, db.flushMerged serde p (earlier ++ [last]) last.flushedAt = .ok merged ∧
      db.flushEach serde p (earlier ++ [last]) = .ok each ∧
      ((merged.circuitHistory p).Perm (each.circuitHistory p) ↔
        Lossless (startCircuit row (db.eventsOf p))
          ((earlier ++ [last]).map (TimedObservation.flushed serde))) := by
  have hstart : db.HasCircuit p _ ⟨[], startCircuit row (db.eventsOf p)⟩ :=
    ⟨row, hrow, henabled, represents_start hmatches⟩
  obtain ⟨each, heach, rowEach, -, -, heachCircuit⟩ := flushEach_ok serde hstart hids hfree
  obtain ⟨first, rest, hcons⟩ := List.exists_cons_of_ne_nil (List.append_ne_nil_of_right_ne_nil
    earlier (List.cons_ne_nil last []))
  rw [hcons] at hfree
  obtain ⟨merged, hmerged, rowMerged, -, -, hmergedCircuit⟩ :=
    flushMerged_ok serde hstart hfree last.flushedAt
  rw [← hcons] at hmerged hmergedCircuit
  refine ⟨merged, each, hmerged, heach, ?_⟩
  have hsame : (merged.circuitHistory p).Perm (each.circuitHistory p) ↔ _ :=
    ⟨fun h => hmergedCircuit.history.symm.trans (h.trans heachCircuit.history),
      fun h => hmergedCircuit.history.trans (h.trans heachCircuit.history.symm)⟩
  rw [hsame, List.perm_append_left_iff, List.map_append, List.map_singleton]
  refine Circuit.record_merged_perm_iff fun flushed hflushed => ?_
  obtain ⟨observation, hmem, rfl⟩ := List.mem_map.mp hflushed
  exact hmoments observation hmem

/-- A usage limit and a response that says nothing, one second later. -/
def limitedBatch : List TimedObservation := [⟨100, "c", 429, usageLimitBody 200, 100⟩]

/-- The statement at a lossless batch: both ways of flushing leave the same openings. -/
theorem batching_keeps_limitedBatch :
    ∃ merged each,
      Node.loaded.db.flushMerged (usageLimitSerde [200]) "p"
        (limitedBatch ++ [⟨101, "d", 200, [], 101⟩]) 101 = .ok merged ∧
      Node.loaded.db.flushEach (usageLimitSerde [200]) "p"
        (limitedBatch ++ [⟨101, "d", 200, [], 101⟩]) = .ok each ∧
      (merged.circuitHistory "p").Perm (each.circuitHistory "p") := by
  have hmatches : CircuitMatches
      (Provider.created "p" "name" "account" "access" "refresh" none 10 "owner")
      (Node.loaded.db.eventsOf "p") := ⟨rfl, fun hcooldown => by cases hcooldown⟩
  obtain ⟨merged, each, hmerged, heach, hiff⟩ := @batching_keeps_history_iff
    (usageLimitSerde [200]) "p" Node.loaded.db _ limitedBatch ⟨101, "d", 200, [], 101⟩
    rfl rfl hmatches (by decide) (by decide) (by decide)
  exact ⟨merged, each, hmerged, heach, hiff.mpr ⟨rfl, rfl, by decide⟩⟩

/-- A usage limit followed by a rejected credential: the merged entry carries no circuit, so the
opening is never recorded, while single flushes record it and close it. -/
theorem merged_error_loses_opening :
    ∃ merged each,
      Node.loaded.db.flushMerged (usageLimitSerde [200]) "p"
        (limitedBatch ++ [⟨101, "d", 401, [], 101⟩]) 101 = .ok merged ∧
      Node.loaded.db.flushEach (usageLimitSerde [200]) "p"
        (limitedBatch ++ [⟨101, "d", 401, [], 101⟩]) = .ok each ∧
      merged.circuitHistory "p" = [] ∧
      each.circuitHistory "p" = [⟨100, usageLimitCause, 200, false⟩] :=
  ⟨_, _, rfl, rfl, rfl, rfl⟩

end Database

end OpenAiLb
