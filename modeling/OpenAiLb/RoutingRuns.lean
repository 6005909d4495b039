import OpenAiLb.LeaseCounts
import OpenAiLb.Library.Erasure
import OpenAiLb.StickyAffinity

/-!
# Runs of the routing operations

Selections, observations, lease drops, deletions of providers and maintenance runs, each as
one step. The deletion of a provider is the statement with its cascade and then
`forget_provider`; the operations are those of the node, so nothing is modelled twice. Beside
them stands what a deletion and a maintenance run leave of the affinities, entry by entry.
-/

namespace OpenAiLb

namespace Balancer

/-- The cleanup adds no entry. -/
theorem lookup_of_foldl_cleanAffinity {persisted : List (String × AffinityEntry × Bool)}
    {b : Balancer} {hash : String} {entry : AffinityEntry}
    (h : (persisted.foldl cleanAffinity b).affinities.lookup hash = some entry) :
    b.affinities.lookup hash = some entry := by
  induction persisted generalizing b with
  | nil => exact h
  | cons first rest ih =>
    have hone := ih h
    unfold cleanAffinity at hone
    dsimp only at hone
    split at hone
    · next hsame =>
      cases hwritten : first.2.2 with
      | true => simpa [hwritten] using hone
      | false =>
        simp only [hwritten, Bool.false_eq_true, if_false] at hone
        by_cases heq : hash = first.1
        · rw [heq, AList.lookup_erase] at hone
          cases hone
        · rwa [AList.lookup_erase_ne heq] at hone
    · exact hone

/-- What a maintenance run leaves alone, beside the counters. -/
theorem frame_afterCommit (b : Balancer) (now : Int) (updates : List (String × ProviderUpdate))
    (persisted : List (String × AffinityEntry × Bool)) :
    (b.afterCommit now updates persisted).cursor = b.cursor ∧
      (b.afterCommit now updates persisted).providerGrants = b.providerGrants := by
  unfold afterCommit recoverCachedProviders
  dsimp only
  rw [(frame_cleanAffinities persisted _).cursor,
    (frame_cleanAffinities persisted _).providerGrants]
  exact ⟨rfl, rfl⟩

/-- A maintenance run adds no entry, and keeps none that has expired. -/
theorem lookup_of_afterCommit {b : Balancer} {now : Int} {updates : List (String × ProviderUpdate)}
    {persisted : List (String × AffinityEntry × Bool)} {hash : String} {entry : AffinityEntry}
    (h : (b.afterCommit now updates persisted).affinities.lookup hash = some entry) :
    b.affinities.lookup hash = some entry ∧ now < entry.expiresAt := by
  unfold afterCommit recoverCachedProviders at h
  dsimp only at h
  rw [Assoc.lookup_retain, Option.filter_eq_some_iff] at h
  have hclean := lookup_of_foldl_cleanAffinity h.1
  exact ⟨hclean, by simpa using h.2⟩

/-- **A maintenance run keeps the entries that are not expired**, if their providers are in the
table: it drops the others. -/
theorem lookup_afterCommit_iff {b : Balancer} {db db' : Database} {now : Int}
    {updates : List (String × ProviderUpdate)} {affinities : List (String × AffinityEntry)}
    {persisted : List (String × AffinityEntry × Bool)} {hash : String} {entry : AffinityEntry}
    (hcommit : db.maintainTransaction now updates affinities = .ok (db', persisted))
    (hknown : (db.provider? entry.providerId).isSome = true) :
    (b.afterCommit now updates persisted).affinities.lookup hash = some entry ↔
      b.affinities.lookup hash = some entry ∧ now < entry.expiresAt := by
  refine ⟨lookup_of_afterCommit, fun ⟨hentry, hahead⟩ => ?_⟩
  obtain ⟨mid, hflush, -, rfl⟩ := Database.maintainTransaction_eq_ok hcommit
  refine lookup_affinities_afterCommit hentry hahead ?_
  rw [(Database.frame_of_flushUpdates hflush).2]
  exact Table.find?_isSome_iff.mp hknown

end Balancer

/-- A maintenance transaction creates and deletes no provider. -/
theorem Database.providerKeys_of_maintainTransaction {db db' : Database} {now : Int}
    {updates : List (String × ProviderUpdate)} {affinities : List (String × AffinityEntry)}
    {persisted : List (String × AffinityEntry × Bool)}
    (h : db.maintainTransaction now updates affinities = .ok (db', persisted)) :
    db'.providers.keys = db.providers.keys := by
  obtain ⟨mid, hmid, rfl, -⟩ := maintainTransaction_eq_ok h
  change ((mid.persistAffinities affinities).1.recoverExpired now).providers.keys = _
  rw [recoverExpired, keys_providers_updateProviders,
    (frame_persistAffinities mid affinities).1, (frame_of_flushUpdates hmid).2]

/-- A routing operation. -/
inductive RoutingStep where
  | select (now : Int) (userId : String) (allProviders : Bool) (affinity excluded : Option String)
  | trackResponse (now : Int) (providerId circuitId : String) (status : ℕ) (body : List UInt8)
  | dropLease (providerId : String)
  /-- `delete_provider`: the row with its cascade, then `forget_provider`. -/
  | deleteProvider (providerId : String)
  | maintain (now : Int) (updates : List (String × ProviderUpdate))
    (affinities : List (String × AffinityEntry))
  | maintainFailed (now : Int)

/-- The operations of the node that make up a step. -/
def RoutingStep.operations (s : Node) : RoutingStep → List Operation
  | select now userId allProviders affinity excluded =>
    [.select now userId allProviders affinity excluded]
  | trackResponse now providerId circuitId status body =>
    [.trackResponse now providerId circuitId status body]
  | dropLease providerId => [.dropLease providerId]
  | deleteProvider providerId =>
    if (s.db.provider? providerId).isSome then
      [.execute (.deleteProvider providerId), .forgetProvider providerId]
    -- No row is deleted: "provider not found".
    else []
  | maintain now updates affinities => [.maintain now updates affinities]
  | maintainFailed now => [.maintainFailed now]

namespace Node

variable (env : Environment)

/-- One routing operation. -/
def route (s : Node) (op : RoutingStep) : Option Node := s.run env (op.operations s)

/-- The deletion of a provider, in the table and in memory. -/
def delete (s : Node) (providerId : String) : Node :=
  { s with
    db := s.db.deleteProvider providerId
    balancer := s.balancer.forgetProvider providerId }

/-- After the deletion the snapshot has no provider that the table lacks. -/
theorem Known.delete {s : Node} {p providerId : String} (h : s.Known p) :
    (s.delete providerId).Known p := by
  intro hp
  change ((s.balancer.providers.filter fun row => row.id ≠ providerId).find? p).isSome at hp
  change ((s.db.deleteProvider providerId).provider? p).isSome = true
  rw [Table.find?_filter] at hp
  rw [Database.provider?_deleteProvider]
  split
  · next heq =>
    obtain ⟨row, hrow⟩ := Option.isSome_iff_exists.mp hp
    obtain ⟨hfound, hne⟩ := Option.filter_eq_some_iff.mp hrow
    simp [Table.key_of_find? hfound, heq] at hne
  · exact h (Option.isSome_of_isSome_filter _ _ hp)

variable {env : Environment} {s t : Node}

/-- A step that is one operation of the node. -/
theorem route_eq_step {op : RoutingStep} {one : Operation} (h : op.operations s = [one]) :
    s.route env op = s.step env one := by
  rw [route, h, run, Transition.run_cons]
  exact Option.bind_fun_some _

/-- **The deletion of a provider**: row, cascade and memory together, or nothing. -/
theorem route_deleteProvider (s : Node) (providerId : String) :
    s.route env (.deleteProvider providerId) =
      some (if (s.db.provider? providerId).isSome then s.delete providerId else s) := by
  rw [route, RoutingStep.operations]
  split
  · next hsome =>
    have hgone : (s.db.deleteProvider providerId).provider? providerId = none := by
      rw [Database.provider?_deleteProvider, if_pos rfl]
    simp [run, step, Statement.exec, hgone, delete]
  · rfl

/-- The provider that a selection chooses; `none` when there is none to choose. -/
def chosen (env : Environment) (s : Node) (now : Int) (userId : String) (allProviders : Bool)
    (affinity excluded : Option String) : Option String :=
  (s.balancer.select env.affinityHash env.affinityTtl now userId allProviders affinity
    excluded).toOption.map fun (lease, _) => lease.provider.id

/-- What a routing operation shows: the outcome of a selection. -/
def shown (env : Environment) (s : Node) : RoutingStep → Option (Option String)
  | .select now userId allProviders affinity excluded =>
    some (s.chosen env now userId allProviders affinity excluded)
  | _ => none

/-- The outcomes of the selections of a run. -/
abbrev outcomes (env : Environment) (s : Node) (steps : List RoutingStep) :
    List (Option String) :=
  Transition.outputs (route env) (shown env) s steps

end Node

end OpenAiLb
