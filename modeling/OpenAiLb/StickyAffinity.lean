import OpenAiLb.AffinityRows
import OpenAiLb.Routing
import OpenAiLb.System

/-!
# Sticky affinity

A selection under an affinity key binds the key to the chosen provider. Nothing but a selection
under the same key changes that binding before it expires: a maintenance run drops an entry only
when it has expired or when its provider is gone from the table. So the next selection under the
key returns the same provider whenever it may.
-/

namespace OpenAiLb

namespace Balancer

/-- The cleanup keeps an entry whose row was written. -/
theorem lookup_foldl_cleanAffinity {persisted : List (String × AffinityEntry × Bool)} {b : Balancer}
    {hash : String} {entry : AffinityEntry} (h : b.affinities.lookup hash = some entry)
    (hwritten : ∀ written, (hash, entry, written) ∈ persisted → written = true) :
    (persisted.foldl cleanAffinity b).affinities.lookup hash = some entry := by
  induction persisted generalizing b with
  | nil => exact h
  | cons first rest ih =>
    refine ih ?_ fun written hmem => hwritten written (List.mem_cons_of_mem _ hmem)
    obtain ⟨key, value, written⟩ := first
    unfold cleanAffinity
    dsimp only
    split
    · next hsame =>
      cases written with
      | true => exact h
      | false =>
        have hne : hash ≠ key := by
          rintro rfl
          rw [h, Option.some.injEq] at hsame
          subst hsame
          exact absurd (hwritten false List.mem_cons_self) (by decide)
        exact (AList.lookup_erase_ne hne).trans h
    · exact h

/-- **A maintenance run keeps an entry that has not expired and whose provider is in the table.** -/
theorem lookup_affinities_afterCommit {b : Balancer} {mid : Database} {now : Int}
    {updates : List (String × ProviderUpdate)} {affinities : List (String × AffinityEntry)}
    {hash : String} {entry : AffinityEntry} (h : b.affinities.lookup hash = some entry)
    (hahead : now < entry.expiresAt) (hknown : entry.providerId ∈ mid.providers.keys) :
    (b.afterCommit now updates (mid.persistAffinities affinities).2).affinities.lookup hash =
      some entry := by
  unfold afterCommit recoverCachedProviders
  dsimp only
  rw [Assoc.lookup_retain, Option.filter_eq_some_iff]
  refine ⟨?_, by simpa using hahead⟩
  refine lookup_foldl_cleanAffinity h fun written hmem => ?_
  rw [Database.written_of_persistAffinities hmem]
  simpa using hknown

/-- Erasing keys one by one. -/
theorem lookup_foldl_erase_eq (hashes : List String) (m : AList fun _ : String => AffinityEntry)
    (hash : String) :
    (hashes.foldl (fun affinities hash => affinities.erase hash) m).lookup hash =
      if hash ∈ hashes then none else m.lookup hash := by
  induction hashes generalizing m with
  | nil => simp
  | cons first rest ih =>
    rw [List.foldl_cons, ih]
    by_cases heq : hash = first
    · subst heq
      simp
    · simp [heq, AList.lookup_erase_ne heq]

/-- The hashes of a provider are those that are bound to it. -/
theorem mem_hashesOf {b : Balancer} {providerId hash : String} :
    hash ∈ b.hashesOf providerId ↔
      ∃ entry, b.affinities.lookup hash = some entry ∧ entry.providerId = providerId := by
  have hlookup (entry : AffinityEntry) :
      b.affinities.lookup hash = some entry ↔ ⟨hash, entry⟩ ∈ b.affinities.entries := by
    rw [← Option.mem_def, AList.mem_lookup_iff]
  constructor
  · intro h
    obtain ⟨⟨key, entry⟩, hmem, rfl⟩ := List.mem_map.mp h
    obtain ⟨hentry, hid⟩ := List.mem_filter.mp hmem
    exact ⟨entry, (hlookup entry).mpr hentry, by simpa using hid⟩
  · rintro ⟨entry, hentry, hid⟩
    exact List.mem_map.mpr
      ⟨⟨hash, entry⟩, List.mem_filter.mpr ⟨(hlookup entry).mp hentry, by simpa using hid⟩, rfl⟩

/-- **Forgetting a provider drops the entries that name it**, and no other. -/
theorem lookup_affinities_forgetProvider_eq (b : Balancer) (providerId hash : String) :
    (b.forgetProvider providerId).affinities.lookup hash =
      (b.affinities.lookup hash).filter fun entry => entry.providerId ≠ providerId := by
  unfold forgetProvider
  dsimp only
  rw [lookup_foldl_erase_eq]
  cases hentry : b.affinities.lookup hash with
  | none => simp
  | some entry =>
    by_cases hid : entry.providerId = providerId
    · have hmem : hash ∈ b.hashesOf providerId := mem_hashesOf.mpr ⟨entry, hentry, hid⟩
      simp [hmem, Option.filter, hid]
    · have hmem : hash ∉ b.hashesOf providerId := by
        rintro hmem
        obtain ⟨other, hother, hsame⟩ := mem_hashesOf.mp hmem
        rw [hentry, Option.some.injEq] at hother
        exact hid (hother ▸ hsame)
      simp [hmem, Option.filter, hid]

section Select

variable {affinityHash : String → String} {ttl : Int} {b b' : Balancer} {now : Int}
  {userId : String} {allProviders : Bool} {affinity excluded : Option String} {lease : Lease}

/-- **What a selection does to the affinities**: it binds its own key and leaves the others. -/
theorem lookup_affinities_of_select
    (h : b.select affinityHash ttl now userId allProviders affinity excluded = .ok (lease, b'))
    (hash : String) :
    b'.affinities.lookup hash =
      if affinity.map affinityHash = some hash then some ⟨lease.provider.id, now + ttl, now⟩
      else b.affinities.lookup hash := by
  by_cases hnil : b.eligible now userId allProviders excluded = []
  · rw [select, if_pos hnil] at h
    cases h
  · obtain ⟨chosen, mid, hchoose, -⟩ := choose_spec affinityHash b now affinity hnil
    have hframe := choose_frame affinityHash b now affinity
      (b.eligible now userId allProviders excluded)
    rw [select_of_choose affinityHash ttl hnil hchoose] at h
    rw [hchoose] at hframe
    have hmid : mid.affinities = b.affinities := by
      obtain rfl | rfl := hframe <;> rfl
    cases h
    cases affinity with
    | none =>
      rw [Option.map_none, if_neg (Option.some_ne_none hash).symm]
      exact congrArg (AList.lookup hash) hmid
    | some key =>
      rw [affinities_leased_some, hmid, Option.map_some]
      by_cases heq : hash = affinityHash key
      · subst heq
        rw [AList.lookup_insert, if_pos rfl]
      · rw [AList.lookup_insert_ne heq, if_neg fun hsame => heq (Option.some.inj hsame).symm]

/-- **A selection follows a binding** that has not expired, if the provider is eligible. -/
theorem select_of_lookup {key : String} {entry : AffinityEntry} {row : Provider}
    (hentry : b.affinities.lookup (affinityHash key) = some entry) (hahead : now < entry.expiresAt)
    (hrow : row ∈ b.eligible now userId allProviders excluded)
    (hid : row.id = entry.providerId) :
    ∃ lease b', b.select affinityHash ttl now userId allProviders (some key) excluded =
      .ok (lease, b') ∧ lease.provider.id = entry.providerId := by
  have hne : b.eligible now userId allProviders excluded ≠ [] := List.ne_nil_of_mem hrow
  obtain ⟨chosen, hfound⟩ : ∃ chosen, ((b.eligible now userId allProviders excluded).find?
      fun provider => provider.id = entry.providerId) = some chosen := by
    rw [← Option.isSome_iff_exists, List.find?_isSome]
    exact ⟨row, hrow, by simpa using hid⟩
  have hchoose : b.choose affinityHash now (some key)
      (b.eligible now userId allProviders excluded) = (some chosen, b) := by
    have haffine : b.affinityProvider (affinityHash key)
        (b.eligible now userId allProviders excluded) now = some chosen := by
      rw [affinityProvider, hentry, Option.bind_some, if_pos hahead, hfound]
    rw [choose, Option.map_some, Option.bind_some, haffine]
  refine ⟨_, _, select_of_choose affinityHash ttl hne hchoose, ?_⟩
  simpa using List.find?_some hfound

end Select

end Balancer

namespace Node

variable {env : Environment} {p k : String} {s t : Node}

/-- The key under which an operation selects. -/
def affinityKey : Operation → Option String
  | .select _ _ _ affinity _ => affinity
  | _ => none

/-- The provider is in the table if the snapshot has it. -/
def Known (p : String) (s : Node) : Prop :=
  (s.balancer.providers.find? p).isSome = true → (s.db.provider? p).isSome = true

/-- **A provider stays in the table** until it is deleted. -/
theorem provider?_isSome_of_step {op : Operation} (hop : op ≠ .execute (.deleteProvider p))
    (hstep : s.step env op = some t) (h : (s.db.provider? p).isSome = true) :
    (t.db.provider? p).isSome = true := by
  cases op with
  | trackResponse | maintainFailed =>
    simp only [step, Option.ite_none_right_eq_some, Option.some.injEq] at hstep
    obtain ⟨-, rfl⟩ := hstep
    exact h
  | forgetProvider =>
    simp only [step, Option.ite_none_right_eq_some, Option.some.injEq] at hstep
    obtain ⟨-, rfl⟩ := hstep
    exact h
  | reloadProviders | dropLease =>
    cases hstep
    exact h
  | maintain now updates affinities =>
    simp only [step, Option.ite_none_right_eq_some, Option.some.injEq] at hstep
    obtain ⟨⟨-, hperm, -⟩, rfl⟩ := hstep
    unfold maintain
    split
    · next db persisted hcommit =>
      rw [Database.provider?_of_maintainTransaction hcommit
        (Balancer.nodup_of_perm_pendingUpdates hperm), Option.isSome_map]
      exact h
    · exact h
  | select =>
    simp only [step, Option.ite_none_right_eq_some] at hstep
    obtain ⟨-, hstep⟩ := hstep
    split at hstep <;> cases hstep <;> exact h
  | execute stmt =>
    simp only [step] at hstep
    split at hstep
    · next db n hexec =>
      cases hstep
      rw [Statement.provider?_of_exec hexec]
      cases stmt with
      | createProvider newId =>
        simp only [Statement.rowAfter]
        split
        · rfl
        · exact h
      | deleteProvider gone =>
        have hne : p ≠ gone := fun heq => hop (heq ▸ rfl)
        rw [Statement.rowAfter, if_neg hne]
        exact h
      | rename | setEnabled | refreshProvider | refreshIfNeeded | refreshFailed | replaceTokens
      | createGrant | deleteGrant =>
        simp only [Statement.rowAfter, Option.isSome_map]
        exact h
    · cases hstep
      exact h

/-- A provider is loaded into the snapshot from the table only. -/
theorem find?_isSome_of_step {op : Operation} (hstep : s.step env op = some t)
    (h : (t.balancer.providers.find? p).isSome = true) :
    (s.balancer.providers.find? p).isSome = true ∨ (t.db.provider? p).isSome = true := by
  cases op with
  | trackResponse =>
    simp only [step, Option.ite_none_right_eq_some, Option.some.injEq] at hstep
    obtain ⟨-, rfl⟩ := hstep
    simp only [Balancer.observe, Snapshot.find?_observe, Option.isSome_map] at h
    exact .inl h
  | maintainFailed =>
    simp only [step, Option.ite_none_right_eq_some, Option.some.injEq] at hstep
    obtain ⟨-, rfl⟩ := hstep
    exact .inl h
  | forgetProvider =>
    simp only [step, Option.ite_none_right_eq_some, Option.some.injEq] at hstep
    obtain ⟨-, rfl⟩ := hstep
    simp only [Balancer.forgetProvider, Snapshot.forget, Table.find?_filter] at h
    exact .inl (Option.isSome_of_isSome_filter _ _ h)
  | reloadProviders =>
    cases hstep
    right
    simpa [Balancer.reloadProviders] using h
  | dropLease =>
    cases hstep
    unfold Balancer.dropLease at h
    split at h <;> exact .inl h
  | maintain now updates affinities =>
    simp only [step, Option.ite_none_right_eq_some, Option.some.injEq] at hstep
    obtain ⟨-, rfl⟩ := hstep
    unfold maintain at h
    split at h
    · simp only [Balancer.providers_afterCommit, Snapshot.find?_recover, Option.isSome_map] at h
      exact .inl h
    · exact .inl h
  | select =>
    simp only [step, Option.ite_none_right_eq_some] at hstep
    obtain ⟨-, hstep⟩ := hstep
    split at hstep
    · next hselect =>
      cases hstep
      rw [(Balancer.select_frame hselect).1] at h
      exact .inl h
    · cases hstep
      exact .inl h
  | execute =>
    simp only [step] at hstep
    split at hstep <;> cases hstep <;> exact .inl h

/-- A known provider stays known until it is deleted. -/
theorem Known.step {op : Operation} (h : s.Known p) (hop : op ≠ .execute (.deleteProvider p))
    (hstep : s.step env op = some t) : t.Known p := by
  intro hcached
  rcases find?_isSome_of_step hstep hcached with hbefore | hloaded
  · exact provider?_isSome_of_step hop hstep (h hbefore)
  · exact hloaded

/-- The key is bound to the provider since `at'`, as long as the binding has not expired. -/
structure Bound (env : Environment) (p k : String) (at' : Int) (s : Node) : Prop where
  known : (s.db.provider? p).isSome = true
  entry : s.clock < at' + env.affinityTtl →
    s.balancer.affinities.lookup (env.affinityHash k) = some ⟨p, at' + env.affinityTtl, at'⟩

/-- A selection under the key fails in this operation, if it is one. -/
def ChoosesNone (env : Environment) (k : String) (s : Node) (op : Operation) : Prop :=
  ∀ {now : Int} {userId : String} {allProviders : Bool} {excluded : Option String}
    {result : Lease × Balancer}, op = .select now userId allProviders (some k) excluded →
    s.balancer.select env.affinityHash env.affinityTtl now userId allProviders (some k) excluded ≠
      .ok result

/-- **Step lemma**: nothing but a successful selection under the key changes its binding. -/
theorem Bound.step {at' : Int} {op : Operation} (h : s.Bound env p k at')
    (hop : op ≠ .execute (.deleteProvider p)) (hnone : s.ChoosesNone env k op)
    (hinj : ∀ key ∈ affinityKey op, env.affinityHash key = env.affinityHash k → key = k)
    (hstep : s.step env op = some t) : t.Bound env p k at' := by
  refine ⟨provider?_isSome_of_step hop hstep h.known, fun hahead => ?_⟩
  cases op with
  | trackResponse | maintainFailed =>
    simp only [Node.step, Option.ite_none_right_eq_some, Option.some.injEq] at hstep
    obtain ⟨hclock, rfl⟩ := hstep
    exact h.entry (Int.lt_of_le_of_lt hclock hahead)
  | reloadProviders =>
    cases hstep
    exact h.entry hahead
  | dropLease =>
    cases hstep
    unfold Balancer.dropLease
    split <;> exact h.entry hahead
  | execute =>
    simp only [Node.step] at hstep
    split at hstep <;> cases hstep <;> exact h.entry hahead
  | maintain now updates affinities =>
    simp only [Node.step, Option.ite_none_right_eq_some, Option.some.injEq] at hstep
    obtain ⟨⟨hclock, hperm, -⟩, rfl⟩ := hstep
    unfold maintain at hahead ⊢
    split
    · next db persisted hcommit =>
      rw [hcommit] at hahead
      have hentry := h.entry (Int.lt_of_le_of_lt hclock hahead)
      obtain ⟨mid, hflush, -, rfl⟩ := Database.maintainTransaction_eq_ok hcommit
      refine Balancer.lookup_affinities_afterCommit hentry hahead ?_
      have hmid : (mid.provider? p).isSome = true := by
        rw [Database.provider?_of_flushUpdates hflush (Balancer.nodup_of_perm_pendingUpdates hperm),
          Option.isSome_map]
        exact h.known
      exact Table.find?_isSome_iff.mp hmid
    · next herror =>
      rw [herror] at hahead
      exact h.entry (Int.lt_of_le_of_lt hclock hahead)
  | select now userId allProviders affinity excluded =>
    simp only [Node.step, Option.ite_none_right_eq_some] at hstep
    obtain ⟨hclock, hstep⟩ := hstep
    split at hstep
    · next lease balancer hselect =>
      cases hstep
      have hentry := h.entry (Int.lt_of_le_of_lt hclock hahead)
      rw [Balancer.lookup_affinities_of_select hselect, if_neg]
      · exact hentry
      · intro hsame
        obtain ⟨key, hkey, hhash⟩ := Option.map_eq_some_iff.mp hsame
        obtain rfl := hinj key hkey hhash
        subst hkey
        exact hnone rfl hselect
    · cases hstep
      exact h.entry (Int.lt_of_le_of_lt hclock hahead)
  | forgetProvider providerId =>
    simp only [Node.step, Option.ite_none_right_eq_some, Option.some.injEq] at hstep
    obtain ⟨hgone, rfl⟩ := hstep
    have hother : p ≠ providerId := by
      rintro rfl
      have hknown := h.known
      simp [hgone] at hknown
    change (s.balancer.forgetProvider providerId).affinities.lookup _ = _
    rw [Balancer.lookup_affinities_forgetProvider_eq, h.entry hahead]
    simp [Option.filter, hother]

/-- What the operations between two selections under the key may not do. -/
def KeepsBinding (env : Environment) (p k : String) (s : Node) (op : Operation) : Prop :=
  op ≠ .execute (.deleteProvider p) ∧ s.ChoosesNone env k op ∧
    ∀ key ∈ affinityKey op, env.affinityHash key = env.affinityHash k → key = k

/-- **Affinity is sticky.** A selection under the key chooses a provider, and no later selection
under the key succeeds while other operations run in any order: selections under other keys and
without a key, observations, lease drops, maintenance runs, reloads, and statements that do not
delete the provider. Then the next selection under the key that may use the provider, less than the
affinity lifetime after the first one, returns it again. The hash of the key is not the hash of
another key in use. -/
theorem sticky_affinity {start s₁ s₂ : Node} {before between : List Operation} {at' now : Int}
    {userId userId' : String} {allProviders allProviders' : Bool}
    {excluded excluded' : Option String} {lease : Lease} {balancer : Balancer} {row : Provider}
    (hstart : start.Known p) (hbefore : start.run env before = some s)
    (hundeleted : ∀ op ∈ before, op ≠ .execute (.deleteProvider p))
    (hselect : s.balancer.select env.affinityHash env.affinityTtl at' userId allProviders (some k)
      excluded = .ok (lease, balancer))
    (hchosen : lease.provider.id = p)
    (hfirst : s.step env (.select at' userId allProviders (some k) excluded) = some s₁)
    (hkeep : Transition.Guarded (Node.step env) (KeepsBinding env p k) s₁ between)
    (hbetween : s₁.run env between = some s₂) (hnow : s₂.clock ≤ now)
    (hfresh : now - at' < env.affinityTtl)
    (heligible : row ∈ s₂.balancer.eligible now userId' allProviders' excluded')
    (hrow : row.id = p) :
    ∃ again balancer', s₂.balancer.select env.affinityHash env.affinityTtl now userId' allProviders'
      (some k) excluded' = .ok (again, balancer') ∧ again.provider.id = p := by
  subst hchosen
  have hknown : s.Known lease.provider.id := by
    have hok : Transition.Guarded (Node.step env)
        (fun _ op => op ≠ .execute (.deleteProvider lease.provider.id) ∧ True) start before :=
      (Transition.guarded_of_forall (fun _ _ => trivial) start before).and_of_mem hundeleted
    exact Transition.invariant_of_guarded (fun h hop hstep => h.step hop.1 hstep) hok hbefore hstart
  have hs₁ : s₁ = { s with clock := at', balancer := balancer } := by
    simp only [Node.step, Option.ite_none_right_eq_some, hselect, Option.some.injEq] at hfirst
    exact hfirst.2.symm
  have hbound : s₁.Bound env lease.provider.id k at' := by
    subst hs₁
    constructor
    · obtain ⟨hmem, -, -⟩ := Balancer.mem_eligible.mp (Balancer.select_mem_eligible hselect).1
      exact hknown (by rw [Table.find?_of_mem hmem]; rfl)
    · intro _
      have hlookup := Balancer.lookup_affinities_of_select hselect (env.affinityHash k)
      rwa [Option.map_some, if_pos rfl] at hlookup
  have hlater : s₂.Bound env lease.provider.id k at' :=
    Transition.invariant_of_guarded
      (fun h hok hstep => h.step hok.1 hok.2.1 hok.2.2 hstep) hkeep hbetween hbound
  have hahead : now < at' + env.affinityTtl := by omega
  exact Balancer.select_of_lookup (hlater.entry (Int.lt_of_le_of_lt hnow hahead)) hahead heligible
    hrow

/-- Operations under other keys keep the binding. -/
theorem guarded_keepsBinding {operations : List Operation}
    (hinj : Function.Injective env.affinityHash)
    (h : ∀ op ∈ operations, op ≠ .execute (.deleteProvider p) ∧ affinityKey op ≠ some k) :
    Transition.Guarded (Node.step env) (KeepsBinding env p k) s operations := by
  have hok : Transition.Guarded (Node.step env)
      (fun _ op => (op ≠ .execute (.deleteProvider p) ∧ affinityKey op ≠ some k) ∧ True) s
      operations :=
    (Transition.guarded_of_forall (fun _ _ => trivial) s operations).and_of_mem h
  refine hok.imp fun s op hop => ⟨hop.1.1, ?_, fun key _ heq => hinj heq⟩
  rintro now userId allProviders excluded result rfl
  exact absurd rfl hop.1.2

/-- Two providers are created and loaded. -/
def loadPair : List Operation :=
  [.execute (.createProvider "p" "name" "account" "access" "refresh" none 10 "owner"),
    .execute (.createProvider "q" "name" "account" "access" "refresh" none 11 "owner"),
    .reloadProviders]

/-- The node with the two providers. -/
def paired : Node := initial.after usageLimitEnvironment loadPair

/-- The first selection under the key. -/
def bindKey : Operation := .select 50 "owner" false (some "k") none

/-- The node after the first selection under the key. -/
def bound : Node := paired.after usageLimitEnvironment [bindKey]

/-- A selection under another key, a response and the release of the first lease. -/
def otherTraffic : List Operation :=
  [.select 51 "owner" false (some "other") none, .trackResponse 52 "p" "c" 200 [], .dropLease "q"]

/-- The node before the maintenance run. -/
def busy : Node := bound.after usageLimitEnvironment otherTraffic

/-- The traffic, a maintenance run and a reload. -/
def traffic : List Operation :=
  otherTraffic ++
    [.maintain 53 busy.balancer.pendingUpdates busy.balancer.pendingAffinities, .reloadProviders]

/-- The statement at this run: the busier provider is chosen again. -/
theorem sticky_affinity_paired :
    ∃ again balancer, (bound.after usageLimitEnvironment traffic).balancer.select id 3600 60 "owner"
      false (some "k") none = .ok (again, balancer) ∧ again.provider.id = "p" := by
  have hstart : initial.Known "p" := nofun
  have hbefore : initial.run usageLimitEnvironment loadPair = some paired := rfl
  obtain ⟨lease, balancer, hselect, hchosen⟩ : ∃ lease balancer,
      paired.balancer.select usageLimitEnvironment.affinityHash usageLimitEnvironment.affinityTtl 50
        "owner" false (some "k") none = .ok (lease, balancer) ∧ lease.provider.id = "p" :=
    ⟨_, _, rfl, rfl⟩
  have hfirst : paired.step usageLimitEnvironment (.select 50 "owner" false (some "k") none) =
      some bound := rfl
  have hbetween : bound.run usageLimitEnvironment traffic =
      some (bound.after usageLimitEnvironment traffic) :=
    Transition.run_eq_some_after (by decide)
  have hkeep : Transition.Guarded (Node.step usageLimitEnvironment)
      (KeepsBinding usageLimitEnvironment "p" "k") bound traffic := by
    apply guarded_keepsBinding Function.injective_id
    simp [traffic, otherTraffic, affinityKey]
  have heligible : ((bound.after usageLimitEnvironment traffic).balancer.eligible 60 "owner" false
      none).any (fun row => row.id = "p") = true := by decide
  obtain ⟨row, hrow, hid⟩ := List.any_eq_true.mp heligible
  exact sticky_affinity hstart hbefore (by simp [loadPair]) hselect hchosen hfirst hkeep hbetween
    (by decide) (by decide) hrow (by simpa using hid)

end Node

end OpenAiLb
