import OpenAiLb.System

/-!
# Maintenance in phases

One maintenance run is several atomic steps: the snapshot of the pending maps, the
transaction, for every written entry a `get` that compares and a `remove`, and the
rest of the cleanup. Observations and handler statements run between any two of them.
There is one maintenance task, so one phase describes where it stands.
-/

namespace OpenAiLb

/-- Where the maintenance task stands. -/
inductive MaintenancePhase where
  | idle
  /-- The pending maps were copied, the transaction has not begun. -/
  | snapshotted (now : Int) (updates : List (String × ProviderUpdate))
    (affinities : List (String × AffinityEntry))
  /-- The transaction is committed; `remaining` are the written entries still to be compared. -/
  | cleaning (now : Int) (remaining : List (String × ProviderUpdate))
    (persisted : List (String × AffinityEntry × Bool))
  /-- The entry of `id` was found equal to the written one and is about to be removed. -/
  | compared (now : Int) (id : String) (remaining : List (String × ProviderUpdate))
    (persisted : List (String × AffinityEntry × Bool))

/-- The entries of the run that were copied and not yet compared. -/
def MaintenancePhase.batch : MaintenancePhase → List (String × ProviderUpdate)
  | idle => []
  | snapshotted _ updates _ => updates
  | cleaning _ remaining _ | compared _ _ remaining _ => remaining

/-- The database, the balancer and the maintenance task between its steps. `issued` are the
circuit ids that `Uuid::new_v4` has returned so far. -/
structure PhasedNode where
  db : Database
  balancer : Balancer
  clock : Int
  phase : MaintenancePhase
  issued : List String

/-- One atomic step. -/
inductive PhasedStep where
  | trackResponse (now : Int) (providerId circuitId : String) (status : ℕ) (body : List UInt8)
  | execute (stmt : Statement)
  | forgetProvider (providerId : String)
  /-- `maintain` up to `pool.begin()`, in the order in which the maps were iterated. -/
  | snapshot (now : Int) (updates : List (String × ProviderUpdate))
    (affinities : List (String × AffinityEntry))
  | transaction
  /-- SQLite does not commit although no constraint is violated. -/
  | unavailable
  | compare
  | remove
  | finish

namespace PhasedNode

/-- Before the first maintenance run: nothing is pending and every circuit id was issued. -/
structure Started (s : PhasedNode) : Prop where
  phase : s.phase = .idle
  pending : ∀ id, s.balancer.providerUpdates.lookup id = none
  issued : ∀ circuitId ∈ s.db.providerCircuitEvents.keys, circuitId ∈ s.issued

/-- The steps of the maintenance task and of the operations that run beside it. -/
def step (serde : SerdeJson) (s : PhasedNode) : PhasedStep → Option PhasedNode
  | .trackResponse now providerId circuitId status body =>
    if s.clock ≤ now ∧ circuitId ∉ s.issued then some
      { s with
        clock := now
        balancer := s.balancer.observe providerId
          (OpenAiLb.trackResponse serde now circuitId status body)
        issued := circuitId :: s.issued }
    else none
  | .execute stmt =>
    match stmt.exec s.db with
    | .ok (db, _) => some { s with db := db }
    | .error _ => some s
  | .forgetProvider providerId =>
    some { s with balancer := s.balancer.forgetProvider providerId }
  | .snapshot now updates affinities =>
    match s.phase with
    | .idle =>
      if s.clock ≤ now ∧ updates.Perm s.balancer.pendingUpdates ∧
          affinities.Perm s.balancer.pendingAffinities then
        some { s with clock := now, phase := .snapshotted now updates affinities }
      else none
    | _ => none
  | .transaction =>
    match s.phase with
    | .snapshotted now updates affinities =>
      match s.db.maintainTransaction now updates affinities with
      | .ok (db, persisted) => some { s with db := db, phase := .cleaning now updates persisted }
      | .error _ => some { s with phase := .idle }
    | _ => none
  | .unavailable =>
    match s.phase with
    | .snapshotted .. => some { s with phase := .idle }
    | _ => none
  | .compare =>
    match s.phase with
    | .cleaning now ((id, update) :: remaining) persisted => some
      { s with
        phase :=
          if s.balancer.providerUpdates.lookup id = some update then
            .compared now id remaining persisted
          else .cleaning now remaining persisted }
    | _ => none
  | .remove =>
    match s.phase with
    | .compared now id remaining persisted => some
      { s with
        balancer := { s.balancer with providerUpdates := s.balancer.providerUpdates.erase id }
        phase := .cleaning now remaining persisted }
    | _ => none
  | .finish =>
    match s.phase with
    | .cleaning now [] persisted => some
      { s with
        balancer := s.balancer.afterCommit now [] persisted
        phase := .idle }
    | _ => none

/-- A run of the phases. -/
abbrev run (serde : SerdeJson) (s : PhasedNode) (steps : List PhasedStep) : Option PhasedNode :=
  Transition.run (step serde) s steps

/-- The state after a run of the phases. -/
abbrev after (serde : SerdeJson) (s : PhasedNode) (steps : List PhasedStep) : PhasedNode :=
  Transition.after (step serde) s steps

/-- The last part of the cleanup leaves the write-behind map alone. -/
theorem providerUpdates_finish (b : Balancer) (now : Int)
    (persisted : List (String × AffinityEntry × Bool)) :
    (b.afterCommit now [] persisted).providerUpdates = b.providerUpdates := by
  unfold Balancer.afterCommit Balancer.recoverCachedProviders
  dsimp only
  rw [(Balancer.frame_cleanAffinities persisted _).providerUpdates]
  rfl

section Uninterrupted

variable {serde : SerdeJson} {now : Int} {affinities : List (String × AffinityEntry)}
  {persisted : List (String × AffinityEntry × Bool)}

/-- The comparisons and removals of an uninterrupted cleanup. -/
def cleanup (remaining : List (String × ProviderUpdate)) : List PhasedStep :=
  remaining.flatMap fun _ => [.compare, .remove]

/-- While every written entry is still in the map, the cleanup removes them one by one. -/
theorem run_cleanup {remaining : List (String × ProviderUpdate)} {s : PhasedNode}
    (hphase : s.phase = .cleaning now remaining persisted)
    (hnodup : (remaining.map Prod.fst).Nodup)
    (hall : ∀ entry ∈ remaining, s.balancer.providerUpdates.lookup entry.1 = some entry.2) :
    s.run serde (cleanup remaining) = some
      { s with
        balancer := { s.balancer with
          providerUpdates := remaining.foldl Balancer.removeFlushed s.balancer.providerUpdates }
        phase := .cleaning now [] persisted } := by
  induction remaining generalizing s with
  | nil =>
    obtain ⟨db, balancer, clock, phase, issued⟩ := s
    cases hphase
    rfl
  | cons entry remaining ih =>
    obtain ⟨id, update⟩ := entry
    obtain ⟨db, balancer, clock, phase, issued⟩ := s
    cases hphase
    rw [List.map_cons, List.nodup_cons] at hnodup
    have hhead : balancer.providerUpdates.lookup id = some update := hall _ List.mem_cons_self
    have hremove : Balancer.removeFlushed balancer.providerUpdates (id, update) =
        balancer.providerUpdates.erase id := if_pos hhead
    have hrest : ∀ other ∈ remaining,
        (balancer.providerUpdates.erase id).lookup other.1 = some other.2 := by
      intro other hmem
      have hne : other.1 ≠ id := by
        rintro rfl
        exact hnodup.1 (List.mem_map.mpr ⟨other, hmem, rfl⟩)
      rw [AList.lookup_erase_ne hne]
      exact hall _ (List.mem_cons_of_mem _ hmem)
    change Transition.run (step serde) _ (.compare :: .remove :: cleanup remaining) = _
    simp only [Transition.run_cons, step, hhead, if_true, Option.bind_some, List.foldl_cons,
      hremove]
    exact ih rfl hnodup.2 hrest

/-- **The phases refine the atomic run**: with nothing between them they are the maintenance run
of the node. -/
theorem run_uninterrupted {s : PhasedNode} {db : Database}
    {updates : List (String × ProviderUpdate)} (hphase : s.phase = .idle) (hclock : s.clock ≤ now)
    (hupdates : updates.Perm s.balancer.pendingUpdates)
    (haffinities : affinities.Perm s.balancer.pendingAffinities)
    (hcommit : s.db.maintainTransaction now updates affinities = .ok (db, persisted)) :
    ∃ t, s.run serde
        ([.snapshot now updates affinities, .transaction] ++ cleanup updates ++ [.finish]) =
          some t ∧
      t.phase = .idle ∧
      (⟨t.db, t.balancer, t.clock⟩ : Node) =
        (⟨s.db, s.balancer, s.clock⟩ : Node).maintain now updates affinities := by
  obtain ⟨sdb, balancer, clock, phase, issued⟩ := s
  cases hphase
  have hstart : run serde ⟨sdb, balancer, clock, .idle, issued⟩
      [.snapshot now updates affinities, .transaction] =
        some ⟨db, balancer, now, .cleaning now updates persisted, issued⟩ := by
    simp only [Transition.run_cons, step,
      if_pos (And.intro hclock (And.intro hupdates haffinities)), Option.bind_some, hcommit,
      Transition.run_nil]
  have hall : ∀ entry ∈ updates, balancer.providerUpdates.lookup entry.1 = some entry.2 :=
    fun entry hmem => Assoc.mem_pairs.mp (hupdates.mem_iff.mp hmem)
  refine ⟨⟨db, balancer.afterCommit now updates persisted, now, .idle, issued⟩, ?_, rfl, ?_⟩
  · have hcleanup : run serde ⟨db, balancer, now, .cleaning now updates persisted, issued⟩
        (cleanup updates) = _ :=
      run_cleanup rfl (Balancer.nodup_of_perm_pendingUpdates hupdates) hall
    unfold run at hstart hcleanup ⊢
    rw [Transition.run_append, Transition.run_append, hstart, Option.bind_some, hcleanup,
      Option.bind_some]
    rfl
  · simp only [Node.maintain, hcommit]

end Uninterrupted

/-- The node with one loaded provider, before the first maintenance run. -/
def loaded : PhasedNode := ⟨Node.loaded.db, Node.loaded.balancer, 10, .idle, []⟩

/-- The loaded node has started. -/
theorem loaded_started : loaded.Started := by
  refine ⟨rfl, fun id => rfl, fun circuitId hmem => ?_⟩
  cases hmem

end PhasedNode

end OpenAiLb
