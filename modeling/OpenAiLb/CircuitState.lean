import OpenAiLb.Library.Transition
import OpenAiLb.Maintenance
import OpenAiLb.Observation
import OpenAiLb.Statements

/-!
# Open circuit events and cooling providers

Seven kinds of statement write `providers.status`. The circuit events follow by one
trigger, which closes the open event of a row that leaves `cooldown`, and by the
guarded upsert that runs before the flush puts a row on `cooldown`. The invariant
ties the two tables together, one provider at a time.
-/

namespace OpenAiLb

/-- The circuit events agree with the row: exactly one is open if the row is on cooldown and none
otherwise, and a row on cooldown has a deadline. -/
structure CircuitMatches (row : Provider) (events : List ProviderCircuitEvent) : Prop where
  openEvents : (events.filter ProviderCircuitEvent.isOpen).length =
    if row.status = .cooldown then 1 else 0
  deadline : row.status = .cooldown → row.cooldownUntil.isSome = true

/-- The trigger closes every open event when the row leaves `cooldown`, and none otherwise. -/
theorem open_closeOnStatusChange (old new : Provider) (events : List ProviderCircuitEvent) :
    ((events.map (·.closeOnStatusChange old new)).filter ProviderCircuitEvent.isOpen).length =
      if closesCircuit old new then 0 else (events.filter ProviderCircuitEvent.isOpen).length := by
  rw [List.filter_map, List.length_map]
  cases hcloses : closesCircuit old new with
  | true =>
    have hnone : (ProviderCircuitEvent.isOpen ∘ ProviderCircuitEvent.closeOnStatusChange old new) =
        fun _ => false := by
      funext event
      simp [ProviderCircuitEvent.closeOnStatusChange_isOpen, hcloses]
    simp [hnone]
  | false =>
    have hsame : (ProviderCircuitEvent.isOpen ∘ ProviderCircuitEvent.closeOnStatusChange old new) =
        ProviderCircuitEvent.isOpen := by
      funext event
      simp [ProviderCircuitEvent.closeOnStatusChange_isOpen, hcloses]
    simp [hsame]

/-- The new row is on cooldown only if the old row was, with the same deadline. -/
def EntersNoCooldown (old new : Provider) : Prop :=
  new.status = .cooldown → old.status = .cooldown ∧ new.cooldownUntil = old.cooldownUntil

/-- A row update that enters no cooldown keeps the invariant: the trigger does the rest. -/
theorem CircuitMatches.update {old new : Provider} {events : List ProviderCircuitEvent}
    (h : CircuitMatches old events) (hnew : EntersNoCooldown old new) :
    CircuitMatches new (events.map (·.closeOnStatusChange old new)) := by
  refine ⟨?_, fun hcooldown => ?_⟩
  · rw [open_closeOnStatusChange, h.openEvents]
    by_cases hcooldown : new.status = .cooldown
    · simp [closesCircuit, hcooldown, (hnew hcooldown).1]
    · by_cases hold : old.status = .cooldown <;> simp [closesCircuit, hcooldown, hold]
  · obtain ⟨hold, huntil⟩ := hnew hcooldown
    rw [huntil]
    exact h.deadline hold

/-- A row update that puts the row on cooldown keeps the invariant if one event is open. -/
theorem CircuitMatches.enter {old new : Provider} {events : List ProviderCircuitEvent}
    (hopen : (events.filter ProviderCircuitEvent.isOpen).length = 1)
    (hcooldown : new.status = .cooldown) (hdeadline : new.cooldownUntil.isSome = true) :
    CircuitMatches new (events.map (·.closeOnStatusChange old new)) := by
  refine ⟨?_, fun _ => hdeadline⟩
  rw [open_closeOnStatusChange, hopen]
  simp [closesCircuit, hcooldown]

/-- The statements of the handlers put no row on cooldown. -/
theorem Statement.update_entersNoCooldown (stmt : Statement) (row : Provider) :
    EntersNoCooldown row (stmt.update row) := by
  intro hcooldown
  unfold Statement.update at hcooldown ⊢
  split at hcooldown
  · next happlies =>
    rw [if_pos happlies]
    cases stmt with
    | rename => exact ⟨hcooldown, rfl⟩
    | createProvider | deleteProvider | createGrant | deleteGrant => exact ⟨hcooldown, rfl⟩
    | setEnabled id enabled => cases enabled <;> simp [set, Provider.setEnabled] at hcooldown
    | refreshProvider =>
      cases hdisabled : row.manualDisabled <;>
        simp [set, Provider.refreshedByOperator, hdisabled] at hcooldown
    | refreshIfNeeded => simp [set, Provider.refreshedOnDemand] at hcooldown
    | refreshFailed => simp [set, Provider.refreshFailed] at hcooldown
    | replaceTokens =>
      cases hdisabled : row.manualDisabled <;>
        simp [set, Provider.replacedTokens, hdisabled] at hcooldown
  · next happlies =>
    rw [if_neg happlies]
    exact ⟨hcooldown, rfl⟩

/-- The recovery puts no row on cooldown. -/
theorem recoverRow_entersNoCooldown (now : Int) (row : Provider) :
    EntersNoCooldown row (recoverRow now row) := by
  intro hcooldown
  unfold recoverRow at hcooldown ⊢
  split at hcooldown
  · simp [releaseCooldown] at hcooldown
  · next hexpired =>
    rw [if_neg hexpired]
    exact ⟨hcooldown, rfl⟩

/-- A flush without a circuit puts no row on cooldown. -/
theorem flushRow_entersNoCooldown {update : ProviderUpdate} {row : Provider}
    (hstatus : update.status ≠ some .cooldown) : EntersNoCooldown row (flushRow update row) := by
  intro hcooldown
  cases hdisabled : row.manualDisabled with
  | true => simp [flushRow, hdisabled] at hcooldown
  | false =>
    cases hnone : update.status with
    | none => simpa [flushRow, hdisabled, hnone] using hcooldown
    | some st =>
      rw [hnone] at hstatus
      simp_all [flushRow]

/-- A disabled row stays off cooldown under every flush. -/
theorem flushRow_entersNoCooldown_of_disabled {update : ProviderUpdate} {row : Provider}
    (hdisabled : row.manualDisabled = true) : EntersNoCooldown row (flushRow update row) := by
  intro hcooldown
  simp [flushRow, hdisabled] at hcooldown

/-- After the circuit upsert of an enabled provider exactly one event is open. -/
theorem open_upsertCircuit {id : String} {circuit : CircuitOpen} {row : Provider}
    {events : List ProviderCircuitEvent} (h : CircuitMatches row events)
    (henabled : row.manualDisabled = false) :
    ((Database.upsertCircuit id circuit (some row) events).filter
      ProviderCircuitEvent.isOpen).length = 1 := by
  unfold Database.upsertCircuit
  rw [if_pos (by simp [henabled])]
  split
  · next hnone =>
    rw [List.filter_append, hnone]
    rfl
  · next hsome =>
    have hsame : (ProviderCircuitEvent.isOpen ∘ Database.mergeCircuit id circuit) =
        ProviderCircuitEvent.isOpen := funext fun event => Database.mergeCircuit_isOpen ..
    rw [List.filter_map, List.length_map, hsame, h.openEvents, if_pos]
    by_contra hcooldown
    have hlength := h.openEvents
    rw [if_neg hcooldown] at hlength
    exact hsome (List.eq_nil_of_length_eq_zero hlength)

/-- **One turn of the flush loop** keeps the invariant, for every update that `observe` and
`merge` can build. -/
theorem CircuitMatches.flush {id : String} {update : ProviderUpdate} {row : Provider}
    {events : List ProviderCircuitEvent} (h : CircuitMatches row events) (hbuilt : update.Built) :
    CircuitMatches (flushRow update row) (flushEvents id update (some row) events) := by
  unfold flushEvents
  rw [Option.elim_some]
  have hpart := hbuilt.statusPart
  generalize hs : update.status = status, hu : update.cooldownUntil = deadline,
    hc : update.circuit = circuit at hpart
  cases hpart with
  | none => exact h.update (flushRow_entersNoCooldown (by simp [hs]))
  | authError => exact h.update (flushRow_entersNoCooldown (by simp [hs]))
  | cooldown circuit =>
    rw [Option.elim_some]
    cases hdisabled : row.manualDisabled with
    | true =>
      have hkeep : Database.upsertCircuit id circuit (some row) events = events :=
        if_neg (by simp [hdisabled])
      rw [hkeep]
      exact h.update (flushRow_entersNoCooldown_of_disabled hdisabled)
    | false =>
      refine CircuitMatches.enter (open_upsertCircuit h hdisabled) ?_ ?_
      · simp [flushRow, hdisabled, hs]
      · simp [flushRow, hdisabled, hs, hu]

namespace Database

/-- **Circuit open iff cooling down**, for every provider of the database. -/
def CircuitConsistent (db : Database) : Prop :=
  ∀ id row, db.provider? id = some row → CircuitMatches row (db.eventsOf id)

/-- A provider that does not exist has no circuit events. -/
theorem eventsOf_eq_nil {db : Database} {id : String} (h : db.provider? id = none) :
    db.eventsOf id = [] := by
  refine List.filter_eq_nil_iff.mpr fun event hmem => ?_
  have hkey := db.eventsReference event hmem
  rw [provider?, Table.find?_eq_none_iff] at h
  simp only [decide_eq_true_eq]
  rintro rfl
  exact h hkey

/-- The empty database has no providers and no events. -/
theorem circuitConsistent_empty : empty.CircuitConsistent := by
  intro id row hrow
  simp [provider?, empty] at hrow

end Database

/-- The updates of one maintenance run: one for each provider, each built by observations. -/
structure FlushBatch where
  updates : List (String × ProviderUpdate)
  nodup : (updates.map Prod.fst).Nodup
  built : ∀ entry ∈ updates, entry.2.Built

/-- What changes the routing tables. -/
inductive DatabaseStep where
  | maintain (now : Int) (batch : FlushBatch) (affinities : List (String × AffinityEntry))
  | recoverExpired (now : Int)
  | execute (stmt : Statement)

namespace Database

/-- One committed change; a statement or a transaction that SQLite aborts changes nothing. -/
def circuitStep (db : Database) : DatabaseStep → Database
  | .maintain now batch affinities =>
    match db.maintainTransaction now batch.updates affinities with
    | .ok (db, _) => db
    | .error _ => db
  | .recoverExpired now => db.recoverExpired now
  | .execute stmt =>
    match stmt.exec db with
    | .ok (db, _) => db
    | .error _ => db

/-- A maintenance transaction keeps the rows and their events consistent. -/
theorem circuitConsistent_maintain {db db' : Database} {now : Int} {batch : FlushBatch}
    {affinities : List (String × AffinityEntry)}
    {persisted : List (String × AffinityEntry × Bool)}
    (hcommit : db.maintainTransaction now batch.updates affinities = .ok (db', persisted))
    (h : db.CircuitConsistent) : db'.CircuitConsistent := by
  intro id row hrow
  rw [provider?_of_maintainTransaction hcommit batch.nodup] at hrow
  rw [eventsOf_of_maintainTransaction hcommit batch.nodup]
  obtain ⟨old, hold, rfl⟩ := Option.map_eq_some_iff.mp hrow
  rw [hold]
  have hflushed : CircuitMatches (flushPending (batch.updates.lookup id) old)
      ((batch.updates.lookup id).elim (db.eventsOf id) fun update =>
        flushEvents id update (some old) (db.eventsOf id)) := by
    cases hlookup : batch.updates.lookup id with
    | none => exact h id old hold
    | some update => exact (h id old hold).flush (batch.built _ (Assoc.mem_of_lookup hlookup))
  exact hflushed.update (recoverRow_entersNoCooldown now _)

/-- So does the recovery of expired cooldowns. -/
theorem circuitConsistent_recoverExpired {db : Database} (now : Int) (h : db.CircuitConsistent) :
    (db.recoverExpired now).CircuitConsistent := by
  intro id row hrow
  rw [recoverExpired, provider?_updateProviders] at hrow
  rw [recoverExpired, eventsOf_updateProviders]
  obtain ⟨old, hold, rfl⟩ := Option.map_eq_some_iff.mp hrow
  rw [hold]
  exact (h id old hold).update (recoverRow_entersNoCooldown now old)

/-- **What a statement leaves of a provider**: a row that it has created, without events, or the row
that was there, which it has not put on cooldown. -/
theorem row_of_exec {db db' : Database} {stmt : Statement} {n : ℕ} {id : String} {row : Provider}
    (hexec : stmt.exec db = .ok (db', n)) (hrow : db'.provider? id = some row) :
    (row.status ≠ .cooldown ∧ db'.eventsOf id = []) ∨
      ∃ old, db.provider? id = some old ∧ EntersNoCooldown old row ∧
        db'.eventsOf id = (db.eventsOf id).map (·.closeOnStatusChange old row) := by
  rw [Statement.provider?_of_exec hexec] at hrow
  rw [Statement.eventsOf_of_exec hexec]
  cases stmt with
  | createProvider newId =>
    simp only [Statement.rowAfter] at hrow
    split at hrow
    · next heq =>
      subst heq
      cases hrow
      have hnew : db.provider? id = none := by
        simp only [Statement.exec] at hexec
        split at hexec
        · next hins => exact provider?_eq_none_of_insertProvider hins
        · cases hexec
      refine .inl ⟨(by decide : ProviderStatus.active ≠ .cooldown), ?_⟩
      simp only [Statement.eventsAfter, hnew, Option.elim_none, eventsOf_eq_nil hnew]
    · refine .inr ⟨row, hrow, fun hcooldown => ⟨hcooldown, rfl⟩, ?_⟩
      simp [Statement.eventsAfter, hrow]
  | deleteProvider gone =>
    simp only [Statement.rowAfter, Option.ite_none_left_eq_some] at hrow
    refine .inr ⟨row, hrow.2, fun hcooldown => ⟨hcooldown, rfl⟩, ?_⟩
    simp [Statement.eventsAfter, if_neg hrow.1]
  | rename | setEnabled | refreshProvider | refreshIfNeeded | refreshFailed | replaceTokens
  | createGrant | deleteGrant =>
    obtain ⟨old, hold, rfl⟩ := Option.map_eq_some_iff.mp hrow
    refine .inr ⟨old, hold, Statement.update_entersNoCooldown _ old, ?_⟩
    simp only [Statement.eventsAfter, hold, Option.elim_some]

/-- So does every statement of a handler. -/
theorem circuitConsistent_execute {db db' : Database} {stmt : Statement} {n : ℕ}
    (hexec : stmt.exec db = .ok (db', n)) (h : db.CircuitConsistent) : db'.CircuitConsistent := by
  intro id row hrow
  obtain ⟨hactive, hevents⟩ | ⟨old, hold, hkept, hevents⟩ := row_of_exec hexec hrow
  · rw [hevents]
    exact ⟨by simp [hactive], fun hcooldown => absurd hcooldown hactive⟩
  · rw [hevents]
    exact (h id old hold).update hkept

/-- **Step lemma**: every committed change keeps circuit events and statuses together. -/
theorem circuitConsistent_step {db : Database} (step : DatabaseStep) (h : db.CircuitConsistent) :
    (db.circuitStep step).CircuitConsistent := by
  cases step with
  | maintain now batch affinities =>
    simp only [circuitStep]
    split
    · next hcommit => exact circuitConsistent_maintain hcommit h
    · exact h
  | recoverExpired now => exact circuitConsistent_recoverExpired now h
  | execute stmt =>
    simp only [circuitStep]
    split
    · next hexec => exact circuitConsistent_execute hexec h
    · exact h

/-- **Circuit open iff cooling down** holds in every state that committed flushes, recoveries and
handler statements reach from a state in which it holds. -/
theorem circuitConsistent_of_steps {db : Database} (steps : List DatabaseStep)
    (h : db.CircuitConsistent) : (steps.foldl circuitStep db).CircuitConsistent := by
  induction steps generalizing db with
  | nil => exact h
  | cons step steps ih => exact ih (circuitConsistent_step step h)

/-- A provider is created, put on cooldown by a flush, and renamed. -/
def coolingSteps : List DatabaseStep :=
  [.execute (.createProvider "p" "name" "account" "access" "refresh" none 10 "owner"),
    .maintain 101
      { updates := [("p", usageLimitUpdate "c" "\x7b\x7d" 100 200)]
        nodup := by decide
        built := by
          simp only [List.mem_singleton, forall_eq]
          exact .observed (.usageLimit _ (by decide)) } [],
    .execute (.rename "p" "other name" 150)]

/-- The statement on a run that opens a circuit. -/
theorem circuitConsistent_coolingSteps :
    (coolingSteps.foldl circuitStep empty).CircuitConsistent ∧
      ((coolingSteps.foldl circuitStep empty).openEventsOf "p").length = 1 :=
  ⟨circuitConsistent_of_steps coolingSteps circuitConsistent_empty, by decide⟩

end Database

end OpenAiLb
