import OpenAiLb.CircuitState
import OpenAiLb.CredentialMoves

/-!
# The status flags of a provider row

`manual_disabled`, `status` and `cooldown_until` are three columns for one standing, and seven
`UPDATE` statements write them. Five of them look at `manual_disabled` and clear
`cooldown_until`, or write all three columns. The two statements of `refresh_if_needed` do
neither, so they keep the columns together only on a row that is enabled and not in cooldown.
-/

namespace OpenAiLb

/-- The three columns agree: disabled by hand is the status `disabled`, and only a cooldown has a
deadline. -/
structure Provider.FlagsAgree (row : Provider) : Prop where
  disabled : row.manualDisabled = true ↔ row.status = .disabled
  cooldown : row.cooldownUntil ≠ none → row.status = .cooldown

instance (row : Provider) : Decidable row.FlagsAgree :=
  decidable_of_iff ((row.manualDisabled = true ↔ row.status = .disabled) ∧
      (row.cooldownUntil ≠ none → row.status = .cooldown))
    ⟨fun ⟨hdisabled, hcooldown⟩ => ⟨hdisabled, hcooldown⟩,
      fun ⟨hdisabled, hcooldown⟩ => ⟨hdisabled, hcooldown⟩⟩

/-- The row is enabled and has no deadline. -/
def Provider.IsPlain (row : Provider) : Prop :=
  row.manualDisabled = false ∧ row.cooldownUntil = none

instance (row : Provider) : Decidable row.IsPlain := inferInstanceAs (Decidable (_ ∧ _))

namespace Statement

/-- The two statements of `refresh_if_needed`. -/
def isOnDemand : Statement → Bool
  | refreshIfNeeded .. | refreshFailed .. => true
  | _ => false

variable {stmt : Statement} {row : Provider}

/-- **What an `UPDATE` makes of columns that agree**: those of `refresh_if_needed` keep them
together exactly on an enabled row without a deadline, the others on every row. -/
theorem flagsAgree_set_iff (h : row.FlagsAgree) :
    (stmt.set row).FlagsAgree ↔ stmt.isOnDemand = true → row.IsPlain := by
  obtain ⟨hdisabled, hcooldown⟩ := h
  cases stmt with
  | refreshIfNeeded | refreshFailed =>
    constructor
    · rintro ⟨hafter, hdeadline⟩ _
      constructor
      · cases hrow : row.manualDisabled with
        | false => rfl
        | true => cases hafter.mp hrow
      · by_contra hsome
        cases hdeadline hsome
    · intro hplain
      obtain ⟨henabled, hnone⟩ := hplain rfl
      constructor
      · constructor
        · intro hset
          cases henabled.symm.trans hset
        · intro hset
          cases hset
      · intro hset
        exact absurd hnone hset
  | rename | deleteProvider | createProvider | createGrant | deleteGrant =>
    exact ⟨fun _ hdemand => absurd hdemand Bool.false_ne_true, fun _ => ⟨hdisabled, hcooldown⟩⟩
  | setEnabled id enabled now =>
    refine ⟨fun _ hdemand => absurd hdemand Bool.false_ne_true,
      fun _ => ⟨?_, fun hset => absurd rfl hset⟩⟩
    cases enabled <;> simp [set, Provider.setEnabled]
  | refreshProvider | replaceTokens =>
    refine ⟨fun _ hdemand => absurd hdemand Bool.false_ne_true,
      fun _ => ⟨?_, fun hset => absurd rfl hset⟩⟩
    cases hrow : row.manualDisabled <;>
      simp [set, Provider.refreshedByOperator, Provider.replacedTokens, hrow]

/-- A statement of `refresh_if_needed` finds no row, or an enabled one without a deadline. -/
def FindsPlainRow (stmt : Statement) (db : Database) : Prop :=
  stmt.isOnDemand = true →
    ∀ row ∈ db.provider? stmt.providerId, stmt.applies row = true → row.IsPlain

instance (stmt : Statement) (db : Database) : Decidable (stmt.FindsPlainRow db) :=
  inferInstanceAs (Decidable (_ → ∀ row ∈ db.provider? stmt.providerId, _))

end Statement

namespace Database

variable {db db' : Database} {stmt : Statement} {n : ℕ}

/-- The columns of every provider row agree. -/
def FlagsAgree (db : Database) : Prop := ∀ id, ∀ row ∈ db.provider? id, row.FlagsAgree

/-- **A statement keeps the columns together** if it finds a plain row where it needs one. -/
theorem FlagsAgree.exec (h : db.FlagsAgree) (hexec : stmt.exec db = .ok (db', n))
    (hplain : stmt.FindsPlainRow db) : db'.FlagsAgree := by
  intro id row hrow
  rw [Option.mem_def, Statement.provider?_of_exec hexec] at hrow
  have hupdate {old : Provider} (hold : db.provider? id = some old) :
      (stmt.update old).FlagsAgree := by
    unfold Statement.update
    split
    · next happlies =>
      refine (Statement.flagsAgree_set_iff (h id old hold)).mpr fun hdemand => ?_
      have hid : old.id = stmt.providerId := Statement.applies_id happlies
      rw [Table.key_of_find? hold] at hid
      exact hplain hdemand old (hid ▸ hold) happlies
    · exact h id old hold
  cases stmt with
  | createProvider newId =>
    simp only [Statement.rowAfter] at hrow
    split at hrow
    · cases hrow
      exact ⟨by simp [Provider.created], by simp [Provider.created]⟩
    · exact h id row hrow
  | deleteProvider gone =>
    simp only [Statement.rowAfter, Option.ite_none_left_eq_some] at hrow
    exact h id row hrow.2
  | rename | setEnabled | refreshProvider | refreshIfNeeded | refreshFailed | replaceTokens
  | createGrant | deleteGrant =>
    obtain ⟨old, hold, rfl⟩ := Option.map_eq_some_iff.mp hrow
    exact hupdate hold

/-- **The condition is exact**: an on-demand statement that finds another row tears the columns
apart. -/
theorem flagsAgree_exec_iff (h : db.FlagsAgree) (hexec : stmt.exec db = .ok (db', n)) :
    db'.FlagsAgree ↔ stmt.FindsPlainRow db := by
  refine ⟨fun hafter hdemand row hrow happlies => ?_, h.exec hexec⟩
  have hupdated : db'.provider? stmt.providerId = some (stmt.set row) := by
    rw [Statement.provider?_of_exec hexec, show db.provider? stmt.providerId = some row from hrow]
    cases stmt with
    | refreshIfNeeded | refreshFailed => exact congrArg some (if_pos happlies)
    | rename | setEnabled | refreshProvider | replaceTokens | createProvider | deleteProvider
    | createGrant | deleteGrant => cases hdemand
  exact (Statement.flagsAgree_set_iff (h _ row hrow)).mp (hafter _ _ hupdated) hdemand

end Database

/-- A flushed update keeps the columns together. -/
theorem Provider.FlagsAgree.flush {row : Provider} {update : ProviderUpdate} (h : row.FlagsAgree)
    (hbuilt : update.Built) : (flushRow update row).FlagsAgree := by
  obtain ⟨hdisabled, hcooldown⟩ := h
  have hpart := hbuilt.statusPart
  cases hrow : row.manualDisabled with
  | true => exact ⟨by simp [flushRow, hrow], by simp [flushRow, hrow]⟩
  | false =>
    rw [hrow] at hdisabled
    generalize hstatus : update.status = status, hdeadline : update.cooldownUntil = deadline,
      update.circuit = circuit at hpart
    cases hpart with
    | none =>
      exact ⟨by simpa [flushRow, hrow, hstatus] using hdisabled,
        by simpa [flushRow, hrow, hstatus] using hcooldown⟩
    | authError =>
      exact ⟨by simp [flushRow, hrow, hstatus], by simp [flushRow, hrow, hstatus, hdeadline]⟩
    | cooldown circuit =>
      exact ⟨by simp [flushRow, hrow, hstatus], by simp [flushRow, hrow, hstatus]⟩

/-- A recovery keeps the columns together. -/
theorem Provider.FlagsAgree.recover {row : Provider} (h : row.FlagsAgree) (now : Int) :
    (recoverRow now row).FlagsAgree := by
  unfold recoverRow
  split
  · next hexpired =>
    have henabled : row.manualDisabled = false := by
      simp only [isExpiredCooldown, Bool.and_eq_true, Bool.not_eq_true'] at hexpired
      exact hexpired.1.1
    exact ⟨by simp [releaseCooldown, henabled], by simp [releaseCooldown]⟩
  · exact h

/-- **A maintenance run keeps the columns together**, whether it commits or not. -/
theorem Database.FlagsAgree.maintain {db : Database} (h : db.FlagsAgree) (now : Int)
    (batch : FlushBatch) (affinities : List (String × AffinityEntry)) :
    (db.circuitStep (.maintain now batch affinities)).FlagsAgree := by
  unfold circuitStep
  dsimp only
  split
  · next hcommit =>
    intro id row hrow
    rw [Option.mem_def, provider?_of_maintainTransaction hcommit batch.nodup] at hrow
    obtain ⟨old, hold, rfl⟩ := Option.map_eq_some_iff.mp hrow
    apply Provider.FlagsAgree.recover
    cases hlookup : batch.updates.lookup id with
    | none => exact h id old hold
    | some update =>
      exact (h id old hold).flush (batch.built _ (Assoc.mem_of_lookup hlookup))
  · exact h

/-- What changes the rows: a step of a call, or a maintenance run. -/
inductive FlagStep where
  /-- A step of `update_provider`, `refresh_provider`, `refresh_if_needed`,
  `replace_provider_token_values` or of another handler; its reading, its token request and its
  `UPDATE` are steps of their own. -/
  | call (step : CredentialStep)
  /-- The transaction of `maintain`, with whatever updates were pending: the flush and the
  recovery. -/
  | maintain (now : Int) (batch : FlushBatch) (affinities : List (String × AffinityEntry))

namespace CredentialNode

variable (affinityHash : String → String) (ttl : Int) (jwt : JwtCodec)

/-- The statement that a step executes. -/
def statement? (s : CredentialNode) : CredentialStep → Option Statement
  | .execute stmt => some stmt
  | .write i now =>
    match s.tasks[i]? with
    | some (.refresh task) => task.statement jwt now
    | some (.write (.called write)) => some write.statement
    | _ => none
  | _ => none

/-- One step of the calls beside the maintenance task. -/
def flagStep (s : CredentialNode) : FlagStep → Option CredentialNode
  | .call a => s.step affinityHash ttl jwt a
  | .maintain now batch affinities =>
    some { s with db := s.db.circuitStep (.maintain now batch affinities) }

variable {affinityHash : String → String} {ttl : Int} {jwt : JwtCodec} {s t : CredentialNode}

/-- **A step of a call changes the database by its statement alone.** -/
theorem db_of_step {a : CredentialStep} (h : s.step affinityHash ttl jwt a = some t) :
    t.db = s.db ∨ ∃ stmt n, s.statement? jwt a = some stmt ∧ stmt.exec s.db = .ok (t.db, n) := by
  cases a with
  | execute stmt =>
    simp only [step] at h
    split at h
    · split at h
      · next db n hexec =>
        cases h
        exact .inr ⟨stmt, n, rfl, hexec⟩
      · cases h
        exact .inl rfl
    · cases h
  | write i now =>
    simp only [step] at h
    split at h
    · next task hi =>
      obtain ⟨stmt, hstmt, rfl⟩ := Option.map_eq_some_iff.mp h
      unfold writeRow
      split
      · next db n hexec =>
        exact .inr ⟨stmt, n, by simpa only [statement?, hi] using hstmt, hexec⟩
      · exact .inl rfl
    · next write hi =>
      cases h
      unfold runWrite
      split
      · next db n hexec =>
        exact .inr ⟨write.statement, n, by simp only [statement?, hi], hexec⟩
      · exact .inl rfl
    · cases h
  | select | refreshIfNeeded | refreshProvider | replaceTokens | insertProvider | lock | read | send
  | answer | reload | drop =>
    left
    cases moves_of_step h <;> rfl

/-- The on-demand statement of the step, if it is one, finds a plain row or none. -/
def WritesPlainRow (jwt : JwtCodec) (s : CredentialNode) : FlagStep → Prop
  | .call a => ∀ stmt ∈ s.statement? jwt a, stmt.FindsPlainRow s.db
  | .maintain .. => True

instance (a : FlagStep) : Decidable (s.WritesPlainRow jwt a) := by
  cases a <;> unfold WritesPlainRow <;> infer_instance

/-- **Step lemma** for the status flags. -/
theorem flagsAgree_step {a : FlagStep} (h : s.db.FlagsAgree) (hplain : s.WritesPlainRow jwt a)
    (hstep : s.flagStep affinityHash ttl jwt a = some t) : t.db.FlagsAgree := by
  cases a with
  | call a =>
    obtain hsame | ⟨stmt, n, hstmt, hexec⟩ := db_of_step hstep
    · rw [hsame]
      exact h
    · exact h.exec hexec (hplain stmt hstmt)
  | maintain now batch affinities =>
    cases hstep
    exact h.maintain now batch affinities

/-- **The status flags agree** in every state of every interleaving of the handlers, the refreshes
and the maintenance runs, as long as no `UPDATE` of `refresh_if_needed` finds a row that is
disabled by hand or has a deadline. -/
theorem flags_agree {steps : List FlagStep} (hstart : s.db.FlagsAgree)
    (hplain : Transition.Guarded (flagStep affinityHash ttl jwt) (WritesPlainRow jwt) s steps)
    (hrun : Transition.run (flagStep affinityHash ttl jwt) s steps = some t) :
    t.db.FlagsAgree :=
  Transition.invariant_of_guarded (fun h hok hstep => flagsAgree_step h hok hstep) hplain hrun
    hstart

/-- A refresh on demand up to the answer of the token endpoint. -/
def refreshOnDemand : List FlagStep :=
  [.call (.select 90 "owner" true none none), .call (.refreshIfNeeded 0 90), .call (.lock 0),
    .call (.read 0 90), .call (.send 0),
    .call (.answer 0 (.body (some ⟨"access2", "r2", 3600⟩)))]

/-- The statement at this run: the operator disables the provider once the row is written. -/
theorem flags_agree_refreshOnDemand :
    (Transition.after (flagStep id 3600 accountCodec) loaded
      (refreshOnDemand ++ [.call (.write 0 95),
        .call (.execute (.setEnabled "p" false 96))])).db.FlagsAgree := by
  have hstart : loaded.db.FlagsAgree := by
    intro id row hrow
    have hall : ∀ row ∈ loaded.db.providers.rows, row.FlagsAgree := by decide
    exact hall row (Table.mem_of_find? hrow)
  exact flags_agree hstart (by decide) (Transition.run_eq_some_after (by decide))

/-- The operator disables the provider while its refresh waits for the answer. -/
def disabledMeanwhile : List FlagStep :=
  refreshOnDemand ++ [.call (.execute (.setEnabled "p" false 94)), .call (.write 0 95)]

/-- **A token response revives a provider that was disabled meanwhile**: the row is active, and
disabled by hand. -/
theorem refresh_revives_disabled :
    loaded.db.FlagsAgree ∧
      Transition.run (flagStep id 3600 accountCodec) loaded disabledMeanwhile =
        some (Transition.after (flagStep id 3600 accountCodec) loaded disabledMeanwhile) ∧
      ((Transition.after (flagStep id 3600 accountCodec) loaded disabledMeanwhile).db.provider?
        "p").map (fun row => (row.manualDisabled, row.status)) = some (true, .active) := by
  refine ⟨fun id row hrow => ?_, Transition.run_eq_some_after (by decide), by decide⟩
  have hall : ∀ row ∈ loaded.db.providers.rows, row.FlagsAgree := by decide
  exact hall row (Table.mem_of_find? hrow)

end CredentialNode

end OpenAiLb
