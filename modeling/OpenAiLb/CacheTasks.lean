import OpenAiLb.Library.Transition
import OpenAiLb.Maintenance
import OpenAiLb.Statements

/-!
# Cache operations as interleaved tasks

The snapshot and the grants are two shared cells. Every operation that replaces one of
them reads first and stores later, and other operations run in between: a reload selects
from the database, the edits load the cell they are about to replace. Here an operation
is a list of atomic instructions over the shared state and its own local copies, and any
number of such tasks interleave. `MaintenancePhases` takes the cleanup of the pending
maps apart; here it is one instruction.
-/

namespace OpenAiLb

/-- The edit that an operation makes to its copy of the snapshot before it stores it. -/
inductive SnapshotEdit where
  /-- `reload_providers` stores the rows as selected. -/
  | keep
  | observe (providerId : String) (update : ProviderUpdate)
  | recover (now : Int)
  | forget (providerId : String)
  deriving DecidableEq

/-- The snapshot that is stored. -/
def SnapshotEdit.apply : SnapshotEdit → Snapshot → Snapshot
  | keep, snapshot => snapshot
  | observe providerId update, snapshot => snapshot.observe providerId update
  | recover now, snapshot => snapshot.recover now
  | forget providerId, snapshot => snapshot.forget providerId

/-- The grants that are stored: all of them by `reload_providers`, those of the other providers
by `forget_provider`. -/
def keptGrants (forgotten : Option String) (grants : GrantSnapshot) : GrantSnapshot :=
  grants.filter fun pair => forgotten ≠ some pair.1

/-- The arguments of a call of `select`. -/
structure SelectRequest where
  now : Int
  userId : String
  allProviders : Bool
  affinity : Option String
  excluded : Option String
  deriving DecidableEq

/-- One atomic instruction of a task. -/
inductive Instruction where
  /-- A committed statement; a handler that finds no row ends with an error. -/
  | execute (stmt : Statement)
  /-- `SELECT * FROM providers`, into the copy of the task. -/
  | selectProviders
  /-- `SELECT provider_id,user_id FROM provider_grants`, into the copy of the task. -/
  | selectGrants
  /-- `self.providers.load()`. -/
  | loadProviders
  /-- `self.provider_grants.load()`. -/
  | loadGrants
  /-- `self.providers.store(..)`. -/
  | storeProviders (edit : SnapshotEdit)
  /-- `self.provider_grants.store(..)`. -/
  | storeGrants (forgotten : Option String)
  /-- The map update of `observe`. -/
  | recordUpdate (providerId : String) (update : ProviderUpdate)
  /-- The counter, the pending update and the affinities that `forget_provider` drops. -/
  | forgetEntries (providerId : String)
  /-- `maintain` copies the pending maps, in the order in which it iterates over them. -/
  | copyPending (updates : List (String × ProviderUpdate))
    (affinities : List (String × AffinityEntry))
  /-- The transaction of `maintain`. -/
  | transaction (now : Int) (updates : List (String × ProviderUpdate))
    (affinities : List (String × AffinityEntry))
  /-- `maintain` drops from the pending maps what it has written. -/
  | cleanPending (now : Int) (updates : List (String × ProviderUpdate))
  /-- `select` on the loaded snapshot and grants. -/
  | choose (request : SelectRequest)
  deriving DecidableEq

/-- A running operation: the instructions still to come, its local copies, and what it returned. -/
structure CacheTask where
  code : List Instruction
  providers : Snapshot
  grants : GrantSnapshot
  /-- Which affinities the transaction of `maintain` wrote. -/
  persisted : List (String × AffinityEntry × Bool)
  /-- The lease of a `select`, with its arguments. -/
  leased : Option (SelectRequest × Lease)
  /-- The operation ended with an error. -/
  failed : Bool

namespace CacheTask

/-- A task that has not run yet. -/
def start (code : List Instruction) : CacheTask := ⟨code, Table.empty, [], [], none, false⟩

/-- `?` on an error: the rest of the operation is skipped. -/
def fail (task : CacheTask) : CacheTask := { task with code := [], failed := true }

/-- The operation returned `Ok`. -/
def ReturnedOk (task : CacheTask) : Prop := task.code = [] ∧ task.failed = false

instance (task : CacheTask) : Decidable task.ReturnedOk := inferInstanceAs (Decidable (_ ∧ _))

end CacheTask

namespace Statement

/-- The handler looks at `rows_affected` and ends with an error when it is 0. -/
def needsRow : Statement → Bool
  | rename .. | setEnabled .. | refreshFailed .. | createProvider .. => false
  | refreshProvider .. | refreshIfNeeded .. | replaceTokens .. | deleteProvider ..
  | createGrant .. | deleteGrant .. => true

end Statement

/-- `reload_providers`. -/
def reloadCode : List Instruction :=
  [.selectProviders, .selectGrants, .storeProviders .keep, .storeGrants none]

/-- `forget_provider`. -/
def forgetCode (providerId : String) : List Instruction :=
  [.loadProviders, .storeProviders (.forget providerId), .loadGrants,
    .storeGrants (some providerId), .forgetEntries providerId]

/-- A statement with what its handler does before the next one. -/
def Statement.code (stmt : Statement) : List Instruction :=
  .execute stmt ::
    match stmt with
    | deleteProvider id => forgetCode id
    | refreshProvider .. => reloadCode
    | _ => []

/-- The operations on the cache. -/
inductive CacheOperation where
  | reloadProviders
  | observe (providerId : String) (update : ProviderUpdate)
  | forgetProvider (providerId : String)
  | maintain (now : Int) (updates : List (String × ProviderUpdate))
    (affinities : List (String × AffinityEntry))
  | select (request : SelectRequest)
  /-- An admin handler or `refresh_if_needed`: its statements in their order, then a reload.
  `update_provider` runs up to three statements, every other handler one. -/
  | handler (stmts : List Statement)

/-- The instructions of an operation; `recover_cached_providers` is the end of `maintain`. -/
def CacheOperation.code : CacheOperation → List Instruction
  | reloadProviders => reloadCode
  | observe providerId update =>
    [.loadProviders, .storeProviders (.observe providerId update), .recordUpdate providerId update]
  | forgetProvider providerId => forgetCode providerId
  | maintain now updates affinities =>
    [.copyPending updates affinities, .transaction now updates affinities,
      .cleanPending now updates, .loadProviders, .storeProviders (.recover now)]
  | select request => [.loadProviders, .loadGrants, .choose request]
  | handler stmts => stmts.flatMap Statement.code ++ reloadCode

/-- The shared state and the tasks, numbered in the order in which they started. -/
structure CacheNode where
  db : Database
  balancer : Balancer
  tasks : List CacheTask

/-- One step of the scheduler. -/
inductive CacheStep where
  | start (operation : CacheOperation)
  | advance (task : ℕ)
  /-- SQLite is unavailable, or the future of a request is dropped with its client. -/
  | abort (task : ℕ)

/-- What `select` makes of the loaded snapshot and grants. -/
def Balancer.chooseFrom (affinityHash : String → String) (ttl : Int) (b : Balancer)
    (providers : Snapshot) (grants : GrantSnapshot) (request : SelectRequest) :
    Except AppError (Lease × Balancer) :=
  match { b with providers := providers, providerGrants := grants }.select affinityHash ttl
      request.now request.userId request.allProviders request.affinity request.excluded with
  | .ok (lease, after) =>
    .ok (lease, { after with providers := b.providers, providerGrants := b.providerGrants })
  | .error error => .error error

namespace Instruction

variable (affinityHash : String → String) (ttl : Int)

/-- Execute one instruction on the shared state and the task; `none` when it cannot act. -/
def exec (instr : Instruction) (db : Database) (b : Balancer) (task : CacheTask) :
    Option (Database × Balancer × CacheTask) :=
  match instr with
  | execute stmt =>
    match stmt.exec db with
    | .ok (after, n) => some (after, b, if n = 0 ∧ stmt.needsRow = true then task.fail else task)
    | .error _ => some (db, b, task.fail)
  | selectProviders => some (db, b, { task with providers := db.selectProviders })
  | selectGrants => some (db, b, { task with grants := db.selectGrants })
  | loadProviders => some (db, b, { task with providers := b.providers })
  | loadGrants => some (db, b, { task with grants := b.providerGrants })
  | storeProviders edit => some (db, { b with providers := edit.apply task.providers }, task)
  | storeGrants forgotten =>
    some (db, { b with providerGrants := keptGrants forgotten task.grants }, task)
  | recordUpdate providerId update => some
    (db, { b with providerUpdates := Balancer.recordUpdate b.providerUpdates providerId update },
      task)
  | forgetEntries providerId => some
    (db, { b.forgetProvider providerId with
      providers := b.providers, providerGrants := b.providerGrants }, task)
  | copyPending updates affinities =>
    if updates.Perm b.pendingUpdates ∧ affinities.Perm b.pendingAffinities then some (db, b, task)
    else none
  | transaction now updates affinities =>
    match db.maintainTransaction now updates affinities with
    | .ok (after, persisted) => some (after, b, { task with persisted := persisted })
    | .error _ => some (db, b, task.fail)
  | cleanPending now updates => some
    (db, { b.afterCommit now updates task.persisted with providers := b.providers }, task)
  | choose request =>
    match b.chooseFrom affinityHash ttl task.providers task.grants request with
    | .ok (lease, after) => some (db, after, { task with leased := some (request, lease) })
    | .error _ => some (db, b, task.fail)

end Instruction

namespace CacheNode

variable (affinityHash : String → String) (ttl : Int)

/-- The task that a step advances, past its next instruction, and that instruction. -/
def next? (s : CacheNode) : CacheStep → Option (Instruction × CacheTask)
  | .start _ | .abort _ => none
  | .advance i =>
    s.tasks[i]?.bind fun task =>
      match task.code with
      | [] => none
      | instr :: rest => some (instr, { task with code := rest })

/-- One step: a new task starts, a task executes its next instruction, or a task ends early. -/
def step (s : CacheNode) : CacheStep → Option CacheNode
  | .start operation => some { s with tasks := s.tasks ++ [.start operation.code] }
  | .advance i =>
    (s.next? (.advance i)).bind fun (instr, task) =>
      (instr.exec affinityHash ttl s.db s.balancer task).map fun (db, balancer, task) =>
        ⟨db, balancer, s.tasks.set i task⟩
  | .abort i => s.tasks[i]?.map fun task => { s with tasks := s.tasks.set i task.fail }

/-- A run of the tasks. -/
abbrev run (s : CacheNode) (steps : List CacheStep) : Option CacheNode :=
  Transition.run (step affinityHash ttl) s steps

/-- The state after a run of the tasks. -/
abbrev after (s : CacheNode) (steps : List CacheStep) : CacheNode :=
  Transition.after (step affinityHash ttl) s steps

/-- **What a step does**: it starts a task, one task executes its next instruction, or one task
ends early. -/
theorem step_cases {affinityHash : String → String} {ttl : Int} {s t : CacheNode} {a : CacheStep}
    (h : s.step affinityHash ttl a = some t) :
    (∃ operation, a = .start operation ∧
      t = { s with tasks := s.tasks ++ [.start (CacheOperation.code operation)] }) ∨
    (∃ i task instr rest db balancer after, a = .advance i ∧ s.tasks[i]? = some task ∧
      task.code = instr :: rest ∧
      instr.exec affinityHash ttl s.db s.balancer { task with code := rest } =
        some (db, balancer, after) ∧
      t = ⟨db, balancer, s.tasks.set i after⟩) ∨
    ∃ i task, a = .abort i ∧ s.tasks[i]? = some task ∧
      t = { s with tasks := s.tasks.set i task.fail } := by
  cases a with
  | start operation => exact .inl ⟨operation, rfl, (Option.some.inj h).symm⟩
  | advance i =>
    obtain ⟨⟨instr, advanced⟩, hnext, hexec⟩ := Option.bind_eq_some_iff.mp h
    obtain ⟨task, htask, hcode⟩ := Option.bind_eq_some_iff.mp hnext
    obtain ⟨⟨db, balancer, after⟩, hrun, rfl⟩ := Option.map_eq_some_iff.mp hexec
    split at hcode
    · cases hcode
    · next rest hrest =>
      cases hcode
      exact .inr (.inl ⟨i, task, instr, rest, db, balancer, after, rfl, htask, hrest, hrun, rfl⟩)
  | abort i =>
    obtain ⟨task, htask, rfl⟩ := Option.map_eq_some_iff.mp h
    exact .inr (.inr ⟨i, task, rfl, htask, rfl⟩)

/-- The instruction that an advancing task executes next. -/
theorem next?_advance {s : CacheNode} {i : ℕ} {task : CacheTask} {instr : Instruction}
    {rest : List Instruction} (htask : s.tasks[i]? = some task)
    (hcode : task.code = instr :: rest) :
    s.next? (.advance i) = some (instr, { task with code := rest }) := by
  simp [next?, htask, hcode]

end CacheNode

end OpenAiLb
