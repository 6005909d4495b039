import OpenAiLb.CacheTasks
import OpenAiLb.System

/-!
# What a handler can revoke

A provider can be revoked for everyone and a grant for one user. This file says where
such an entry stands: in the database, in the two shared cells and in the local copies
of a task, and what one statement, one maintenance transaction and one instruction do to
it there.
-/

namespace OpenAiLb

/-- What a handler can revoke: a provider for everyone, or a provider for one user. -/
inductive Revocable where
  | provider (id : String)
  | grant (id userId : String)

namespace Revocable

/-- The entry is usable according to these rows and grants. -/
def listedIn : Revocable → Snapshot → GrantSnapshot → Bool
  | provider id, providers, _ => (providers.find? id).any fun row => !row.manualDisabled
  | grant id userId, _, grants => (id, userId) ∈ grants

/-- The entry is usable according to the database. -/
def inDatabase (target : Revocable) (db : Database) : Bool :=
  target.listedIn db.selectProviders db.selectGrants

/-- The entry is usable according to the two shared cells. -/
def inCache (target : Revocable) (b : Balancer) : Bool :=
  target.listedIn b.providers b.providerGrants

/-- The entry is usable according to the local copies of a task. -/
def inCopy (target : Revocable) (task : CacheTask) : Bool :=
  target.listedIn task.providers task.grants

/-- The lease uses the entry. Owners and users with all providers need no grant. -/
def Covers : Revocable → SelectRequest → Lease → Prop
  | provider id, _, lease => lease.provider.id = id
  | grant id userId, request, lease =>
    lease.provider.id = id ∧ request.userId = userId ∧ request.allProviders = false ∧
      lease.provider.ownerId ≠ some userId

/-- `update_provider` with `enabled: false`, `delete_provider`, `delete_provider_grant`. -/
def revokedBy : Revocable → Statement → Bool
  | provider id, .setEnabled gone false _ => gone = id
  | provider id, .deleteProvider gone => gone = id
  | grant id userId, .deleteGrant gone user => gone = id && user = userId
  | _, _ => false

/-- The statements that enable the provider or grant it to the user. -/
def restoredBy : Revocable → Statement → Bool
  | provider id, .setEnabled back true _ => back = id
  | provider id, .createProvider back .. => back = id
  | grant id userId, .createGrant back user _ => back = id && user = userId
  | _, _ => false

/-- The instruction reads the entry's cell from the database. -/
def selects : Revocable → Instruction → Bool
  | provider _, .selectProviders => true
  | grant .., .selectGrants => true
  | _, _ => false

/-- The instruction reads the entry's cell from the cache. -/
def loads : Revocable → Instruction → Bool
  | provider _, .loadProviders => true
  | grant .., .loadGrants => true
  | _, _ => false

/-- The instruction stores the copy of the entry's cell as it was read. -/
def storesCopy : Revocable → Instruction → Bool
  | provider _, .storeProviders .keep => true
  | grant .., .storeGrants none => true
  | _, _ => false

/-- For an instruction that stores the entry's cell: whether the entry is in what it stores. -/
def publishes : Revocable → Instruction → CacheTask → Option Bool
  | provider id, .storeProviders edit, task =>
    some ((provider id).listedIn (edit.apply task.providers) [])
  | grant id userId, .storeGrants forgotten, task =>
    some ((grant id userId).listedIn Table.empty (keptGrants forgotten task.grants))
  | _, _, _ => none

end Revocable

section Database

variable {target : Revocable} {db db' : Database}

/-- A row that a statement leaves enabled was enabled, unless the statement enables it. -/
theorem Statement.enabled_of_update {stmt : Statement} {row : Provider}
    (h : (stmt.update row).manualDisabled = false)
    (hkeep : (Revocable.provider row.id).restoredBy stmt = false) : row.manualDisabled = false := by
  unfold Statement.update at h
  split at h
  · next happlies =>
    cases stmt with
    | setEnabled id enabled now =>
      cases enabled with
      | false => cases h
      | true =>
        have hid : id = row.id := by simpa [Statement.applies, eq_comm] using happlies
        simp [Revocable.restoredBy, hid] at hkeep
    | createProvider | deleteProvider | createGrant | deleteGrant => cases happlies
    | rename | refreshProvider | refreshIfNeeded | refreshFailed | replaceTokens => exact h
  · exact h

/-- A statement that does not restore an entry does not make it usable. -/
theorem Revocable.inDatabase_of_exec {stmt : Statement} {n : ℕ}
    (h : stmt.exec db = .ok (db', n)) (hkeep : target.restoredBy stmt = false)
    (hgone : target.inDatabase db = false) : target.inDatabase db' = false := by
  cases target with
  | provider id =>
    simp only [inDatabase, listedIn, Database.find?_selectProviders] at hgone ⊢
    rw [Statement.provider?_of_exec h]
    have hupdate : ((db.provider? id).map stmt.update).any (fun row => !row.manualDisabled) =
        false := by
      cases hrow : db.provider? id with
      | none => rfl
      | some row =>
        have hid : row.id = id := Table.key_of_find? hrow
        rw [hrow] at hgone
        cases hdisabled : (stmt.update row).manualDisabled with
        | true => simp [hdisabled]
        | false =>
          have henabled := Statement.enabled_of_update hdisabled (hid ▸ hkeep)
          simp [henabled] at hgone
    cases stmt with
    | createProvider newId =>
      have hne : id ≠ newId := by
        rintro rfl
        simp [restoredBy] at hkeep
      simpa [Statement.rowAfter, hne] using hgone
    | deleteProvider gone =>
      simp only [Statement.rowAfter]
      split
      · rfl
      · exact hgone
    | rename | setEnabled | refreshProvider | refreshIfNeeded | refreshFailed | replaceTokens
    | createGrant | deleteGrant => exact hupdate
  | grant id userId =>
    have hgone : (id, userId) ∉ db.providerGrants.keys := by
      simpa [inDatabase, listedIn, Database.mem_selectGrants] using hgone
    suffices hkeys : (id, userId) ∉ db'.providerGrants.keys by
      simpa [inDatabase, listedIn, Database.mem_selectGrants] using hkeys
    cases stmt with
    | createProvider =>
      simp only [Statement.exec] at h
      split at h
      · next hins =>
        cases h
        rwa [(Database.frame_of_insertProvider hins).1]
      · cases h
    | deleteProvider gone =>
      cases h
      intro hmem
      obtain ⟨grant, hgrant, hkey⟩ := Table.mem_keys.mp hmem
      exact hgone (hkey ▸ Table.key_mem_keys (Table.mem_filter.mp hgrant).1)
    | deleteGrant gone user =>
      cases h
      intro hmem
      obtain ⟨grant, hgrant, hkey⟩ := Table.mem_keys.mp hmem
      exact hgone (hkey ▸ Table.key_mem_keys (Table.mem_filter.mp hgrant).1)
    | createGrant back user now =>
      intro hmem
      rcases Database.keys_of_insertGrant h with hsame | hadded
      · exact hgone (hsame ▸ hmem)
      · rw [hadded, List.mem_append, List.mem_singleton] at hmem
        rcases hmem with hmem | hnew
        · exact hgone hmem
        · cases hnew
          simp [restoredBy] at hkeep
    | rename | setEnabled | refreshProvider | refreshIfNeeded | refreshFailed | replaceTokens =>
      cases h
      exact hgone

/-- Whether a grant is usable depends on the grants alone. -/
theorem Revocable.inDatabase_grant_congr (id userId : String)
    (h : db'.providerGrants = db.providerGrants) :
    (grant id userId).inDatabase db' = (grant id userId).inDatabase db := by
  unfold inDatabase listedIn Database.selectGrants
  rw [h]

/-- The flush loop changes neither the flag of a provider nor a grant. -/
theorem Revocable.inDatabase_of_flushUpdates {updates : List (String × ProviderUpdate)}
    (h : db.flushUpdates updates = .ok db') : target.inDatabase db' = target.inDatabase db := by
  induction updates generalizing db with
  | nil =>
    cases h
    rfl
  | cons entry rest ih =>
    obtain ⟨id, update⟩ := entry
    obtain ⟨mid, hmid, hrest⟩ := Database.flushUpdates_cons_eq_ok h
    rw [ih hrest]
    cases target with
    | provider other =>
      simp only [inDatabase, listedIn, Database.find?_selectProviders,
        Database.provider?_of_flushUpdate hmid]
      cases db.provider? other with
      | none => rfl
      | some row =>
        simp only [Option.map_some, Option.any_some]
        split <;> simp
    | grant other userId =>
      have hgrants : mid.providerGrants = db.providerGrants := by
        obtain ⟨before, hbefore, rfl⟩ := Database.flushUpdate_eq_ok hmid
        rw [Database.providerGrants_updateProviders]
        cases hc : update.circuit with
        | none =>
          rw [hc] at hbefore
          cases hbefore
          rfl
        | some circuit =>
          rw [hc] at hbefore
          exact (Database.frame_of_insertCircuit hbefore).2.1
      exact inDatabase_grant_congr other userId hgrants

/-- The transaction of a maintenance run changes neither the flag of a provider nor a grant. -/
theorem Revocable.inDatabase_of_maintainTransaction {now : Int}
    {updates : List (String × ProviderUpdate)} {affinities : List (String × AffinityEntry)}
    {persisted : List (String × AffinityEntry × Bool)}
    (h : db.maintainTransaction now updates affinities = .ok (db', persisted)) :
    target.inDatabase db' = target.inDatabase db := by
  obtain ⟨mid, hmid, rfl, -⟩ := Database.maintainTransaction_eq_ok h
  rw [← inDatabase_of_flushUpdates hmid]
  have hframe := Database.frame_persistAffinities mid affinities
  cases target with
  | provider id =>
    simp only [inDatabase, listedIn, Database.find?_selectProviders]
    have hrow : (((mid.persistAffinities affinities).1.recoverExpired now).deleteExpiredAffinities
        now).provider? id = (mid.provider? id).map (recoverRow now) := by
      change ((mid.persistAffinities affinities).1.recoverExpired now).provider? id = _
      rw [Database.recoverExpired, Database.provider?_updateProviders, Database.provider?,
        hframe.1]
      rfl
    rw [hrow]
    cases mid.provider? id <;> simp
  | grant id userId =>
    have hgrants : (((mid.persistAffinities affinities).1.recoverExpired
        now).deleteExpiredAffinities now).providerGrants = mid.providerGrants := hframe.2.2
    exact inDatabase_grant_congr id userId hgrants

/-- A revoking statement takes the entry out of the database. -/
theorem Revocable.inDatabase_of_revokedBy {stmt : Statement} {n : ℕ}
    (h : stmt.exec db = .ok (db', n)) (hrevokes : target.revokedBy stmt = true) :
    target.inDatabase db' = false := by
  cases target with
  | provider id =>
    simp only [inDatabase, listedIn, Database.find?_selectProviders]
    rw [Statement.provider?_of_exec h]
    cases stmt with
    | setEnabled gone enabled now =>
      cases enabled with
      | true => cases hrevokes
      | false =>
        obtain rfl : gone = id := by simpa [revokedBy] using hrevokes
        simp only [Statement.rowAfter]
        cases hrow : db.provider? gone with
        | none => rfl
        | some row =>
          have hid : row.id = gone := Table.key_of_find? hrow
          simp [Statement.update, Statement.applies, hid, Statement.set, Provider.setEnabled]
    | deleteProvider gone =>
      obtain rfl : gone = id := by simpa [revokedBy] using hrevokes
      simp [Statement.rowAfter]
    | rename | refreshProvider | refreshIfNeeded | refreshFailed | replaceTokens | createProvider
    | createGrant | deleteGrant => cases hrevokes
  | grant id userId =>
    cases stmt with
    | deleteGrant gone user =>
      obtain ⟨rfl, rfl⟩ : gone = id ∧ user = userId := by simpa [revokedBy] using hrevokes
      cases h
      suffices hkeys : (gone, user) ∉ (db.deleteGrant gone user).providerGrants.keys by
        simpa [inDatabase, listedIn, Database.mem_selectGrants] using hkeys
      intro hmem
      obtain ⟨grant, hgrant, hkey⟩ := Table.mem_keys.mp hmem
      have hne := (Table.mem_filter.mp hgrant).2
      simp [hkey] at hne
    | rename | setEnabled | refreshProvider | refreshIfNeeded | refreshFailed | replaceTokens
    | createProvider | deleteProvider | createGrant => cases hrevokes

/-- No revoking statement violates a constraint. -/
theorem Revocable.exec_of_revokedBy {stmt : Statement} (db : Database)
    (hrevokes : target.revokedBy stmt = true) : ∃ db' n, stmt.exec db = .ok (db', n) := by
  cases stmt with
  | setEnabled | deleteProvider | deleteGrant => exact ⟨_, _, rfl⟩
  | rename | refreshProvider | refreshIfNeeded | refreshFailed | replaceTokens | createProvider
  | createGrant => cases target <;> cases hrevokes

end Database

section Exec

variable {affinityHash : String → String} {ttl : Int} {target : Revocable} {instr : Instruction}
  {db db' : Database} {b b' : Balancer} {task task' : CacheTask}

/-- Choosing a provider leaves the two cells alone. -/
theorem Balancer.chooseFrom_frame {providers : Snapshot} {grants : GrantSnapshot}
    {request : SelectRequest} {lease : Lease}
    (h : b.chooseFrom affinityHash ttl providers grants request = .ok (lease, b')) :
    b'.providers = b.providers ∧ b'.providerGrants = b.providerGrants := by
  unfold chooseFrom at h
  split at h
  · cases h
    exact ⟨rfl, rfl⟩
  · cases h

/-- **A lease is covered by no entry that the copies of the task do not have.** -/
theorem Revocable.not_covers_of_chooseFrom {request : SelectRequest} {lease : Lease}
    (h : b.chooseFrom affinityHash ttl task.providers task.grants request = .ok (lease, b'))
    (hcopy : target.inCopy task = false) : ¬ target.Covers request lease := by
  unfold Balancer.chooseFrom at h
  split at h
  · next hselect =>
    cases h
    obtain ⟨hmem, havailable, hallowed, -⟩ :=
      Balancer.mem_eligible.mp (Balancer.select_mem_eligible hselect).1
    have henabled := (providerIsAvailable_iff.mp havailable).1
    cases target with
    | provider id =>
      rintro rfl
      simp [inCopy, listedIn, Table.find?_of_mem hmem, henabled] at hcopy
    | grant id userId =>
      rintro ⟨rfl, rfl, hall, howner⟩
      have hgrant : (lease.provider.id, request.userId) ∉ task.grants := by
        simpa [inCopy, listedIn] using hcopy
      rcases hallowed with h | h | h
      · simp [hall] at h
      · exact howner h
      · exact hgrant h
  · cases h

variable (target) in
/-- What an instruction does to the cell of an entry. -/
theorem Revocable.inCache_of_exec
    (h : instr.exec affinityHash ttl db b task = some (db', b', task')) :
    target.inCache b' = (target.publishes instr task).getD (target.inCache b) := by
  cases instr with
  | execute stmt =>
    simp only [Instruction.exec] at h
    split at h <;> cases h <;> cases target <;> rfl
  | copyPending =>
    simp only [Instruction.exec] at h
    split at h
    · cases h
      cases target <;> rfl
    · cases h
  | transaction =>
    simp only [Instruction.exec] at h
    split at h <;> cases h <;> cases target <;> rfl
  | cleanPending now updates =>
    cases h
    have hgrants : (b.afterCommit now updates task.persisted).providerGrants = b.providerGrants :=
      (Balancer.frame_cleanAffinities task.persisted _).providerGrants
    cases target with
    | provider => rfl
    | grant =>
      simp only [inCache, listedIn, hgrants]
      rfl
  | choose request =>
    simp only [Instruction.exec] at h
    split at h
    · next hchosen =>
      cases h
      have hframe := Balancer.chooseFrom_frame hchosen
      cases target <;> simp [inCache, listedIn, hframe, publishes]
    · cases h
      cases target <;> rfl
  | selectProviders | selectGrants | loadProviders | loadGrants | storeProviders | storeGrants
  | recordUpdate | forgetEntries =>
    cases h
    cases target <;> rfl

variable (target) in
/-- What an instruction does to the local copy of the cell of an entry. -/
theorem Revocable.inCopy_of_exec
    (h : instr.exec affinityHash ttl db b task = some (db', b', task')) :
    target.inCopy task' =
      if target.selects instr then target.inDatabase db
      else if target.loads instr then target.inCache b else target.inCopy task := by
  cases instr with
  | execute stmt =>
    simp only [Instruction.exec] at h
    split at h
    · cases h
      split <;> cases target <;> rfl
    · cases h
      cases target <;> rfl
  | copyPending =>
    simp only [Instruction.exec] at h
    split at h
    · cases h
      cases target <;> rfl
    · cases h
  | transaction | choose =>
    simp only [Instruction.exec] at h
    split at h <;> cases h <;> cases target <;> rfl
  | selectProviders | selectGrants | loadProviders | loadGrants | storeProviders | storeGrants
  | recordUpdate | forgetEntries | cleanPending =>
    cases h
    cases target <;> rfl

/-- An instruction either lets its task go on or ends it with an error. -/
theorem Instruction.code_of_exec
    (h : instr.exec affinityHash ttl db b task = some (db', b', task')) :
    (task'.code = task.code ∧ task'.failed = task.failed) ∨
      (task'.code = [] ∧ task'.failed = true) := by
  cases instr with
  | execute stmt =>
    simp only [exec] at h
    split at h
    · cases h
      split
      · exact .inr ⟨rfl, rfl⟩
      · exact .inl ⟨rfl, rfl⟩
    · cases h
      exact .inr ⟨rfl, rfl⟩
  | copyPending =>
    simp only [exec] at h
    split at h
    · cases h
      exact .inl ⟨rfl, rfl⟩
    · cases h
  | transaction | choose =>
    simp only [exec] at h
    split at h <;> cases h
    · exact .inl ⟨rfl, rfl⟩
    · exact .inr ⟨rfl, rfl⟩
  | selectProviders | selectGrants | loadProviders | loadGrants | storeProviders | storeGrants
  | recordUpdate | forgetEntries | cleanPending =>
    cases h
    exact .inl ⟨rfl, rfl⟩

/-- An instruction that commits no restoring statement leaves the entry out of the database. -/
theorem Revocable.inDatabase_of_instruction
    (h : instr.exec affinityHash ttl db b task = some (db', b', task'))
    (hkeep : ∀ stmt, instr = .execute stmt → target.restoredBy stmt = false)
    (hgone : target.inDatabase db = false) : target.inDatabase db' = false := by
  cases instr with
  | execute stmt =>
    simp only [Instruction.exec] at h
    split at h
    · next hstmt =>
      cases h
      exact inDatabase_of_exec hstmt (hkeep stmt rfl) hgone
    · cases h
      exact hgone
  | copyPending =>
    simp only [Instruction.exec] at h
    split at h
    · cases h
      exact hgone
    · cases h
  | transaction =>
    simp only [Instruction.exec] at h
    split at h
    · next hcommit =>
      cases h
      rw [inDatabase_of_maintainTransaction hcommit]
      exact hgone
    · cases h
      exact hgone
  | choose =>
    simp only [Instruction.exec] at h
    split at h <;> cases h <;> exact hgone
  | selectProviders | selectGrants | loadProviders | loadGrants | storeProviders | storeGrants
  | recordUpdate | forgetEntries | cleanPending =>
    cases h
    exact hgone

/-- The leases of a task stay uncovered when it chooses from copies without the entry. -/
theorem Revocable.not_covers_of_exec
    (h : instr.exec affinityHash ttl db b task = some (db', b', task'))
    (hcopy : ∀ request, instr = .choose request → target.inCopy task = false)
    (hleased : ∀ request lease, task.leased = some (request, lease) →
      ¬ target.Covers request lease) :
    ∀ request lease, task'.leased = some (request, lease) → ¬ target.Covers request lease := by
  cases instr with
  | execute stmt =>
    simp only [Instruction.exec] at h
    split at h
    · cases h
      split <;> exact hleased
    · cases h
      exact hleased
  | copyPending =>
    simp only [Instruction.exec] at h
    split at h
    · cases h
      exact hleased
    · cases h
  | transaction =>
    simp only [Instruction.exec] at h
    split at h <;> cases h <;> exact hleased
  | choose asked =>
    simp only [Instruction.exec] at h
    split at h
    · next lease after hchosen =>
      cases h
      intro request lease' heq
      cases heq
      exact not_covers_of_chooseFrom hchosen (hcopy asked rfl)
    · cases h
      exact hleased
  | selectProviders | selectGrants | loadProviders | loadGrants | storeProviders | storeGrants
  | recordUpdate | forgetEntries | cleanPending =>
    cases h
    exact hleased

end Exec

end OpenAiLb
