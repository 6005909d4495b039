import OpenAiLb.AffinityRows
import OpenAiLb.Library.Tasks
import OpenAiLb.System

/-!
# The affinity write-back in phases

An affinity entry and its dirty mark live in two maps that are written one after the
other. `remember_affinity` writes the entry and then the mark; `forget_provider` and the
cleanup of `maintain` remove entries and marks with a check between them. Here each of
these writes is a step of its own, and any number of calls of `remember_affinity` and of
deletions of providers run beside the one maintenance task.
-/

namespace OpenAiLb

/-- The map that `hydrate` fills with the unexpired rows. -/
def Database.selectAffinities (db : Database) (now : Int) :
    AList fun _ : String => AffinityEntry :=
  (db.affinities.rows.filter fun row => now < row.expiresAt).foldl
    (fun affinities row => affinities.insert row.affinityHash row.entry) ∅

/-- `hydrate`. -/
def Balancer.hydrate (b : Balancer) (db : Database) (now : Int) : Balancer :=
  { b.reloadProviders db with affinities := db.selectAffinities now }

/-- Where a call of `forget_provider` stands. -/
inductive ForgetPhase where
  /-- The provider is deleted from the table; the hashes that name it are collected next. -/
  | collecting
  /-- `remove_if` for the first hash is next; without a hash the call has returned. -/
  | dropping (hashes : List String)
  /-- The entry was removed; its mark is removed next. -/
  | unmarking (hash : String) (hashes : List String)
  /-- `contains_key` is next. -/
  | checking (hash : String) (hashes : List String)
  /-- There is a new entry under the hash; the mark is set again next. -/
  | remarking (hash : String) (hashes : List String)
  deriving DecidableEq

/-- A handler that has deleted a provider from the table and calls `forget_provider`. -/
structure ForgetTask where
  providerId : String
  phase : ForgetPhase
  deriving DecidableEq

/-- Where the maintenance task stands. -/
inductive AffinityPhase where
  | idle
  /-- The pending maps were copied, the transaction has not begun. -/
  | snapshotted (now : Int) (updates : List (String × ProviderUpdate))
    (affinities : List (String × AffinityEntry))
  /-- The transaction is committed; the flushed provider updates are removed next. -/
  | committed (now : Int) (updates : List (String × ProviderUpdate))
    (persisted : List (String × AffinityEntry × Bool))
  /-- The first entry is compared next. -/
  | cleaning (now : Int) (remaining : List (String × AffinityEntry × Bool))
  /-- The entry was found unchanged, but its row was not written; `remove_if` is next. -/
  | dropping (now : Int) (hash : String) (entry : AffinityEntry)
    (remaining : List (String × AffinityEntry × Bool))
  /-- The mark is removed next. -/
  | unmarking (now : Int) (hash : String) (written : Bool)
    (remaining : List (String × AffinityEntry × Bool))
  /-- `contains_key` is next. -/
  | checking (now : Int) (hash : String) (remaining : List (String × AffinityEntry × Bool))
  /-- There is an entry under the hash; the mark is set again next. -/
  | remarking (now : Int) (hash : String) (remaining : List (String × AffinityEntry × Bool))
  deriving DecidableEq

namespace Balancer

/-- The first write of `remember_affinity`. -/
def rememberEntry (b : Balancer) (hash : String) (entry : AffinityEntry) : Balancer :=
  { b with affinities := b.affinities.insert hash entry }

/-- The removal of an entry. -/
def dropEntry (b : Balancer) (hash : String) : Balancer :=
  { b with affinities := b.affinities.erase hash }

/-- `dirty_affinities.insert`. -/
def mark (b : Balancer) (hash : String) : Balancer :=
  { b with dirtyAffinities := b.dirtyAffinities.insert hash }

/-- `dirty_affinities.remove`. -/
def unmark (b : Balancer) (hash : String) : Balancer :=
  { b with dirtyAffinities := b.dirtyAffinities.filter fun other => other ≠ hash }

/-- What `forget_provider` does before it looks at the affinities. -/
def forgetRouting (b : Balancer) (providerId : String) : Balancer :=
  { b.forgetProvider providerId with
    affinities := b.affinities
    dirtyAffinities := b.dirtyAffinities }

end Balancer

/-- The next step of a call of `forget_provider`; `none` when it has returned. -/
def ForgetTask.exec (task : ForgetTask) (b : Balancer) : Option (Balancer × ForgetPhase) :=
  match task.phase with
  | .collecting =>
    some (b.forgetRouting task.providerId, .dropping (b.hashesOf task.providerId))
  | .dropping [] => none
  | .dropping (hash :: hashes) => some <|
    if (b.affinities.lookup hash).any (fun entry => entry.providerId = task.providerId) = true then
      (b.dropEntry hash, .unmarking hash hashes)
    else (b, .dropping hashes)
  | .unmarking hash hashes => some (b.unmark hash, .checking hash hashes)
  | .checking hash hashes => some <|
    if hash ∈ b.affinities then (b, .remarking hash hashes) else (b, .dropping hashes)
  | .remarking hash hashes => some (b.mark hash, .dropping hashes)

/-- `remove_if` finds an entry of the provider. -/
theorem ForgetTask.exec_dropping {b : Balancer} {providerId hash : String} {hashes : List String}
    (h : (b.affinities.lookup hash).any (fun entry => entry.providerId = providerId) = true) :
    ForgetTask.exec ⟨providerId, .dropping (hash :: hashes)⟩ b =
      some (b.dropEntry hash, .unmarking hash hashes) := by
  simp [exec, h]

/-- `contains_key` finds nothing. -/
theorem ForgetTask.exec_checking {b : Balancer} {providerId hash : String} {hashes : List String}
    (h : hash ∉ b.affinities) :
    ForgetTask.exec ⟨providerId, .checking hash hashes⟩ b = some (b, .dropping hashes) := by
  simp [exec, h]

/-- The next step of the cleanup of `maintain`. -/
def AffinityPhase.exec (phase : AffinityPhase) (b : Balancer) :
    Option (Balancer × AffinityPhase) :=
  match phase with
  | idle | snapshotted .. => none
  | committed now updates persisted => some
    ({ b with providerUpdates := updates.foldl Balancer.removeFlushed b.providerUpdates },
      cleaning now persisted)
  | cleaning now [] => some (b.afterCommit now [] [], idle)
  | cleaning now ((hash, entry, written) :: remaining) => some <|
    if b.affinities.lookup hash = some entry then
      if written = true then (b, unmarking now hash true remaining)
      else (b, dropping now hash entry remaining)
    else (b, cleaning now remaining)
  | dropping now hash entry remaining => some
    (if b.affinities.lookup hash = some entry then b.dropEntry hash else b,
      unmarking now hash false remaining)
  | unmarking now hash written remaining => some
    (b.unmark hash,
      if written = true then cleaning now remaining else checking now hash remaining)
  | checking now hash remaining => some <|
    if hash ∈ b.affinities then (b, remarking now hash remaining) else (b, cleaning now remaining)
  | remarking now hash remaining => some (b.mark hash, cleaning now remaining)

/-- The database, the balancer, and where each running call stands. -/
structure AffinityNode where
  db : Database
  balancer : Balancer
  clock : Int
  /-- The hashes of the calls of `remember_affinity` that are between their two writes. -/
  remembering : List String
  forgetting : List ForgetTask
  phase : AffinityPhase

/-- One atomic step. -/
inductive AffinityStep where
  | tick (now : Int)
  /-- A committed statement of a handler; after the deletion of a provider the handler calls
  `forget_provider`. -/
  | execute (stmt : Statement)
  | observe (providerId : String) (update : ProviderUpdate)
  /-- The first write of `remember_affinity`. -/
  | remember (hash providerId : String) (now ttl : Int)
  /-- The second write of `remember_affinity`. -/
  | mark (hash : String)
  /-- A call of `forget_provider` goes on. -/
  | forget (task : ℕ)
  /-- `maintain` up to `pool.begin()`, in the order in which the maps were iterated. -/
  | snapshot (now : Int) (updates : List (String × ProviderUpdate))
    (affinities : List (String × AffinityEntry))
  | transaction
  /-- SQLite does not commit although no constraint is violated. -/
  | unavailable
  /-- The cleanup of `maintain` goes on. -/
  | clean

/-- The call of `forget_provider` after a statement that affected `n` rows. -/
def Statement.forgets : Statement → ℕ → List ForgetTask
  | deleteProvider id, _ + 1 => [⟨id, .collecting⟩]
  | _, _ => []

namespace AffinityNode

/-- After `hydrate`, when the process starts on a database. -/
def hydrated (db : Database) (now : Int) : AffinityNode :=
  ⟨db, Balancer.default.hydrate db now, now, [], [], .idle⟩

/-- The steps of the write-back and of the calls that run beside it. -/
def step (s : AffinityNode) : AffinityStep → Option AffinityNode
  | .tick now => if s.clock ≤ now then some { s with clock := now } else none
  | .execute stmt =>
    match stmt.exec s.db with
    | .ok (db, n) => some { s with db := db, forgetting := s.forgetting ++ stmt.forgets n }
    | .error _ => some s
  | .observe providerId update =>
    some { s with balancer := s.balancer.observe providerId update }
  | .remember hash providerId now ttl => some
    { s with
      balancer := s.balancer.rememberEntry hash ⟨providerId, now + ttl, now⟩
      remembering := hash :: s.remembering }
  | .mark hash =>
    if hash ∈ s.remembering then some
      { s with
        balancer := s.balancer.mark hash
        remembering := s.remembering.erase hash }
    else none
  | .forget i =>
    s.forgetting[i]?.bind fun task =>
      (task.exec s.balancer).map fun (balancer, phase) =>
        { s with
          balancer := balancer
          forgetting := s.forgetting.set i { task with phase := phase } }
  | .snapshot now updates affinities =>
    match s.phase with
    | .idle =>
      if s.clock ≤ now ∧ updates.Perm s.balancer.pendingUpdates ∧
          affinities.Perm s.balancer.pendingAffinities then
        some { s with clock := now, phase := .snapshotted now updates affinities }
      else none
    | _ => none
  | .transaction =>
    match s.phase with
    | .snapshotted now updates affinities =>
      match s.db.maintainTransaction now updates affinities with
      | .ok (db, persisted) => some { s with db := db, phase := .committed now updates persisted }
      | .error _ => some { s with phase := .idle }
    | _ => none
  | .unavailable =>
    match s.phase with
    | .snapshotted .. => some { s with phase := .idle }
    | _ => none
  | .clean =>
    (s.phase.exec s.balancer).map fun (balancer, phase) =>
      { s with balancer := balancer, phase := phase }

/-- A run of the steps. -/
abbrev run (s : AffinityNode) (steps : List AffinityStep) : Option AffinityNode :=
  Transition.run step s steps

/-- The state after a run of the steps. -/
abbrev after (s : AffinityNode) (steps : List AffinityStep) : AffinityNode :=
  Transition.after step s steps

section Uninterrupted

variable {s : AffinityNode} {now : Int} {hash : String}

/-- The two writes of `remember_affinity` without a step between them. -/
theorem run_remember (s : AffinityNode) (hash providerId : String) (now ttl : Int) :
    s.run [.remember hash providerId now ttl, .mark hash] = some
      { s with balancer := s.balancer.rememberAffinity hash providerId now ttl } := by
  simp [run, step, Balancer.rememberEntry, Balancer.mark, Balancer.rememberAffinity]

/-- Two uninterrupted cleanups are one. -/
theorem run_clean_append {t u : AffinityNode} (h : ∃ n, s.run (.replicate n .clean) = some t)
    (h' : ∃ n, t.run (.replicate n .clean) = some u) :
    ∃ n, s.run (.replicate n .clean) = some u := by
  obtain ⟨n, hrun⟩ := h
  obtain ⟨m, hrun'⟩ := h'
  unfold run at hrun hrun'
  refine ⟨n + m, ?_⟩
  rw [List.replicate_add, run, Transition.run_append, hrun]
  exact hrun'

/-- The cleanup of one entry without a step between. -/
theorem run_cleanAffinity {entry : AffinityEntry} {written : Bool}
    {remaining : List (String × AffinityEntry × Bool)}
    (hphase : s.phase = .cleaning now ((hash, entry, written) :: remaining)) :
    ∃ n, s.run (.replicate n .clean) = some
      { s with
        balancer := s.balancer.cleanAffinity (hash, entry, written)
        phase := .cleaning now remaining } := by
  obtain ⟨db, b, clock, remembering, forgetting, phase⟩ := s
  cases hphase
  by_cases hsame : b.affinities.lookup hash = some entry
  · cases written with
    | true =>
      refine ⟨2, ?_⟩
      simp [run, step, AffinityPhase.exec, Balancer.cleanAffinity, Balancer.unmark,
        List.replicate_succ, hsame]
    | false =>
      refine ⟨4, ?_⟩
      simp [run, step, AffinityPhase.exec, Balancer.cleanAffinity, Balancer.unmark,
        Balancer.dropEntry, List.replicate_succ, hsame]
  · refine ⟨1, ?_⟩
    simp [run, step, AffinityPhase.exec, Balancer.cleanAffinity, List.replicate_succ, hsame]

/-- The cleanup of all entries without a step between. -/
theorem run_cleanAffinities {persisted : List (String × AffinityEntry × Bool)}
    (hphase : s.phase = .cleaning now persisted) :
    ∃ n, s.run (.replicate n .clean) = some
      { s with
        balancer := persisted.foldl Balancer.cleanAffinity s.balancer
        phase := .cleaning now [] } := by
  induction persisted generalizing s with
  | nil =>
    obtain ⟨db, b, clock, remembering, forgetting, phase⟩ := s
    cases hphase
    exact ⟨0, rfl⟩
  | cons first remaining ih => exact run_clean_append (run_cleanAffinity hphase) (ih rfl)

/-- The end of the cleanup. -/
theorem run_finish (hphase : s.phase = .cleaning now []) :
    ∃ n, s.run (.replicate n .clean) = some
      { s with balancer := s.balancer.afterCommit now [] [], phase := .idle } := by
  refine ⟨1, ?_⟩
  simp [run, step, AffinityPhase.exec, hphase]

/-- **The phases refine the atomic run**: with nothing between them they are the maintenance run
of the node. -/
theorem run_uninterrupted {db : Database} {updates : List (String × ProviderUpdate)}
    {affinities : List (String × AffinityEntry)}
    {persisted : List (String × AffinityEntry × Bool)} (hphase : s.phase = .idle)
    (hclock : s.clock ≤ now) (hupdates : updates.Perm s.balancer.pendingUpdates)
    (haffinities : affinities.Perm s.balancer.pendingAffinities)
    (hcommit : s.db.maintainTransaction now updates affinities = .ok (db, persisted)) :
    ∃ n t, s.run ([.snapshot now updates affinities, .transaction] ++ .replicate n .clean) =
        some t ∧
      t.phase = .idle ∧
      (⟨t.db, t.balancer, t.clock⟩ : Node) =
        (⟨s.db, s.balancer, s.clock⟩ : Node).maintain now updates affinities := by
  have hstart : s.run [.snapshot now updates affinities, .transaction] = some
      { s with db := db, clock := now, phase := .committed now updates persisted } := by
    simp [run, step, hphase, hclock, hupdates, haffinities, hcommit]
  have hflush : ∃ n,
      AffinityNode.run { s with db := db, clock := now, phase := .committed now updates persisted }
        (.replicate n .clean) = some
      { s with
        db := db
        clock := now
        balancer :=
          { s.balancer with
            providerUpdates := updates.foldl Balancer.removeFlushed s.balancer.providerUpdates }
        phase := .cleaning now persisted } := ⟨1, rfl⟩
  obtain ⟨n, hclean⟩ := run_clean_append (run_clean_append hflush (run_cleanAffinities rfl))
    (run_finish rfl)
  unfold run at hstart hclean
  have hrun := Transition.run_append step s [.snapshot now updates affinities, .transaction]
    (.replicate n .clean)
  rw [hstart, Option.bind_some, hclean] at hrun
  refine ⟨n, _, hrun, rfl, ?_⟩
  simp only [Node.maintain, hcommit]
  rfl

/-- A call of `forget_provider` goes on. -/
theorem step_forget {i : ℕ} {task : ForgetTask} {b : Balancer} {phase : ForgetPhase}
    (htask : s.forgetting[i]? = some task) (hexec : task.exec s.balancer = some (b, phase)) :
    s.step (.forget i) = some
      { s with
        balancer := b
        forgetting := s.forgetting.set i { task with phase := phase } } := by
  rw [step, htask, Option.bind_some, hexec, Option.map_some]

/-- The removal of the collected entries without a step between: four steps for each. -/
theorem run_dropping {i : ℕ} {providerId : String} {hashes : List String}
    (htask : s.forgetting[i]? = some ⟨providerId, .dropping hashes⟩) (hnodup : hashes.Nodup)
    (hnamed : ∀ hash ∈ hashes, (s.balancer.affinities.lookup hash).any
      (fun entry => entry.providerId = providerId) = true) :
    ∃ n t, s.run (.replicate n (.forget i)) = some t ∧
      t.forgetting[i]? = some ⟨providerId, .dropping []⟩ ∧
      t.balancer =
        { s.balancer with
          affinities := hashes.foldl (fun affinities hash => affinities.erase hash)
            s.balancer.affinities
          dirtyAffinities := s.balancer.dirtyAffinities.filter fun hash => hash ∉ hashes } := by
  induction hashes generalizing s with
  | nil => exact ⟨0, s, rfl, htask, by simp⟩
  | cons hash hashes ih =>
    rw [List.nodup_cons] at hnodup
    have hhead := hnamed hash List.mem_cons_self
    have hgone : hash ∉ ((s.balancer.dropEntry hash).unmark hash).affinities := by
      simp [Balancer.dropEntry, Balancer.unmark]
    have hone : s.run (.replicate 3 (.forget i)) = some
        { s with
          balancer := (s.balancer.dropEntry hash).unmark hash
          forgetting := s.forgetting.set i ⟨providerId, .dropping hashes⟩ } := by
      simp only [run, List.replicate_succ, List.replicate_zero, Transition.run_cons,
        Transition.run_nil]
      rw [step_forget htask (ForgetTask.exec_dropping hhead), Option.bind_some,
        step_forget (Tasks.set_self htask) rfl, Option.bind_some,
        step_forget (Tasks.set_self (Tasks.set_self htask)) (ForgetTask.exec_checking hgone),
        Option.bind_some]
      simp only [List.set_set]
    have hrest : ∀ other ∈ hashes, ((s.balancer.affinities.erase hash).lookup other).any
        (fun entry => entry.providerId = providerId) = true := by
      intro other hmem
      have hne : other ≠ hash := by
        rintro rfl
        exact hnodup.1 hmem
      rw [AList.lookup_erase_ne hne]
      exact hnamed other (List.mem_cons_of_mem _ hmem)
    have hmoved : (s.forgetting.set i ⟨providerId, .dropping hashes⟩)[i]? =
        some ⟨providerId, .dropping hashes⟩ := Tasks.set_self htask
    obtain ⟨n, t, hrun, hdone, hbalancer⟩ := ih
      (s := { s with
        balancer := (s.balancer.dropEntry hash).unmark hash
        forgetting := s.forgetting.set i ⟨providerId, .dropping hashes⟩ }) hmoved hnodup.2 hrest
    refine ⟨3 + n, t, ?_, hdone, ?_⟩
    · unfold run at hone hrun ⊢
      rw [List.replicate_add, Transition.run_append, hone]
      exact hrun
    · rw [hbalancer]
      simp [Balancer.dropEntry, Balancer.unmark, List.filter_filter, Bool.and_comm]

/-- **The phases refine `forget_provider`**: with nothing between them they are the one step. -/
theorem run_forget {i : ℕ} {providerId : String}
    (htask : s.forgetting[i]? = some ⟨providerId, .collecting⟩) :
    ∃ n t, s.run (.replicate n (.forget i)) = some t ∧
      t.forgetting[i]? = some ⟨providerId, .dropping []⟩ ∧
      t.balancer = s.balancer.forgetProvider providerId := by
  have hcollect := step_forget htask rfl
  have hnodup : (s.balancer.hashesOf providerId).Nodup :=
    s.balancer.affinities.keys_nodup.sublist (List.filter_sublist.map Sigma.fst)
  have hnamed : ∀ hash ∈ s.balancer.hashesOf providerId,
      (s.balancer.affinities.lookup hash).any (fun entry => entry.providerId = providerId) =
        true := by
    intro hash hmem
    obtain ⟨found, hfound, rfl⟩ := List.mem_map.mp hmem
    obtain ⟨hentry, hid⟩ := List.mem_filter.mp hfound
    rw [Option.any_eq_true]
    exact ⟨found.2, AList.mem_lookup_iff.mpr hentry, hid⟩
  have hmoved : (s.forgetting.set i ⟨providerId, .dropping (s.balancer.hashesOf providerId)⟩)[i]? =
      some ⟨providerId, .dropping (s.balancer.hashesOf providerId)⟩ := Tasks.set_self htask
  obtain ⟨n, t, hrun, hdone, hbalancer⟩ := run_dropping
    (s := { s with
      balancer := s.balancer.forgetRouting providerId
      forgetting := s.forgetting.set i ⟨providerId, .dropping (s.balancer.hashesOf providerId)⟩ })
    hmoved hnodup hnamed
  refine ⟨n + 1, t, ?_, hdone, hbalancer⟩
  unfold run at hrun ⊢
  rw [List.replicate_succ, Transition.run_cons, hcollect]
  exact hrun

end Uninterrupted

end AffinityNode

end OpenAiLb
