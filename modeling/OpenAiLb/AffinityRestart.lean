import OpenAiLb.RoutingRuns
import OpenAiLb.WriteBehind

/-!
# Affinity after a restart

`hydrate` fills the affinities of a fresh process from the table. Between the selections, the
deletions of providers and the maintenance runs, the map in memory and the table agree on every
unexpired binding that has no dirty mark, so after a maintenance run they agree. One deletion
breaks this: when the key of a stored binding was bound anew to a provider that is deleted before
the next maintenance run, the mark is dropped with the new binding and the old row stays.
-/

namespace OpenAiLb

/-- A binding at a moment: expired ones do not count. -/
def unexpired (now : Int) (entry : Option AffinityEntry) : Option AffinityEntry :=
  entry.filter fun entry => now < entry.expiresAt

/-- What a reader finds is an entry that has not expired. -/
theorem unexpired_eq_some {now : Int} {found : Option AffinityEntry} {entry : AffinityEntry} :
    unexpired now found = some entry ↔ found = some entry ∧ now < entry.expiresAt := by
  simp [unexpired, Option.filter_eq_some_iff]

/-- What has expired stays expired. -/
theorem unexpired_unexpired {now later : Int} (h : now ≤ later) (found : Option AffinityEntry) :
    unexpired later (unexpired now found) = unexpired later found := by
  ext entry
  rw [unexpired_eq_some, unexpired_eq_some, unexpired_eq_some]
  constructor
  · rintro ⟨⟨hfound, -⟩, hahead⟩
    exact ⟨hfound, hahead⟩
  · rintro ⟨hfound, hahead⟩
    exact ⟨⟨hfound, by omega⟩, hahead⟩

/-- Bindings that agree now agree later. -/
theorem unexpired_congr {now later : Int} (h : now ≤ later) {found found' : Option AffinityEntry}
    (heq : unexpired now found = unexpired now found') :
    unexpired later found = unexpired later found' := by
  rw [← unexpired_unexpired h, heq, unexpired_unexpired h]

/-- The bindings of other providers that agree. -/
theorem unexpired_filter_congr {now : Int} {found found' : Option AffinityEntry}
    (providerId : String)
    (heq : unexpired now found = unexpired now found') :
    unexpired now (found.filter fun entry => entry.providerId ≠ providerId) =
      unexpired now (found'.filter fun entry => entry.providerId ≠ providerId) := by
  have hswap (o : Option AffinityEntry) :
      unexpired now (o.filter fun entry => entry.providerId ≠ providerId) =
        (unexpired now o).filter fun entry => entry.providerId ≠ providerId := by
    rw [unexpired, unexpired, Option.filter_filter, Option.filter_filter]
    congr 1
    funext entry
    exact Bool.and_comm _ _
  rw [hswap, hswap, heq]

namespace Balancer

/-- The loop of `hydrate` under one hash, on rows with different hashes. -/
theorem lookup_foldl_insert_eq {rows : List AffinityRow}
    (hnodup : (rows.map AffinityRow.affinityHash).Nodup) (m : AList fun _ : String => AffinityEntry)
    (hash : String) :
    (rows.foldl (fun affinities row => affinities.insert row.affinityHash row.entry)
      m).lookup hash =
      ((rows.find? fun row => row.affinityHash = hash).map AffinityRow.entry).or
        (m.lookup hash) := by
  induction rows generalizing m with
  | nil => rfl
  | cons first rows ih =>
    rw [List.map_cons, List.nodup_cons] at hnodup
    rw [List.foldl_cons, ih hnodup.2, List.find?_cons]
    by_cases heq : first.affinityHash = hash
    · subst heq
      have hnone : (rows.find? fun row => row.affinityHash = first.affinityHash) = none := by
        rw [List.find?_eq_none]
        intro row hmem hsame
        refine hnodup.1 (List.mem_map.mpr ⟨row, hmem, ?_⟩)
        simpa using hsame
      simp [hnone]
    · simp [heq, AList.lookup_insert_ne (Ne.symm heq)]

/-- **What `hydrate` reads**: the unexpired row of each hash. -/
theorem lookup_hydrate (b : Balancer) (db : Database) (now : Int) (hash : String) :
    (b.hydrate db now).affinities.lookup hash = unexpired now (db.affinity? hash) := by
  change (db.selectAffinities now).lookup hash = _
  have hnodup := (db.affinities.filter fun row => now < row.expiresAt).nodup
  rw [Database.selectAffinities]
  refine (lookup_foldl_insert_eq hnodup ∅ hash).trans ?_
  have hfind := Table.find?_filter db.affinities (fun row => now < row.expiresAt) hash
  rw [Table.find?] at hfind
  rw [AList.lookup_empty, Option.or_none, unexpired, Database.affinity?]
  change Option.map _ (List.find? _ (db.affinities.filter fun row => now < row.expiresAt).rows) = _
  rw [hfind]
  cases db.affinities.find? hash with
  | none => rfl
  | some row => by_cases h : now < row.expiresAt <;> simp [Option.filter, AffinityRow.entry, h]

/-- What `maintain` copies: the marked hashes with their entries. -/
theorem mem_pendingAffinities {b : Balancer} {hash : String} {entry : AffinityEntry} :
    (hash, entry) ∈ b.pendingAffinities ↔
      hash ∈ b.dirtyAffinities ∧ b.affinities.lookup hash = some entry := by
  simp only [pendingAffinities, List.mem_filterMap, Option.map_eq_some_iff, Prod.mk.injEq]
  constructor
  · rintro ⟨_, hdirty, _, hentry, rfl, rfl⟩
    exact ⟨hdirty, hentry⟩
  · rintro ⟨hdirty, hentry⟩
    exact ⟨hash, hdirty, entry, hentry, rfl, rfl⟩

/-- **What a selection marks**: the hash of its key. -/
theorem mem_dirtyAffinities_of_select {affinityHash : String → String} {ttl : Int} {b b' : Balancer}
    {now : Int} {userId : String} {allProviders : Bool} {affinity excluded : Option String}
    {lease : Lease}
    (h : b.select affinityHash ttl now userId allProviders affinity excluded = .ok (lease, b'))
    (hash : String) :
    hash ∈ b'.dirtyAffinities ↔
      affinity.map affinityHash = some hash ∨ hash ∈ b.dirtyAffinities := by
  have hnil : b.eligible now userId allProviders excluded ≠ [] := by
    intro hnil
    rw [select, if_pos hnil] at h
    cases h
  obtain ⟨chosen, mid, hchoose, -⟩ := choose_spec affinityHash b now affinity hnil
  have hmid : (b.choose affinityHash now affinity
      (b.eligible now userId allProviders excluded)).2.dirtyAffinities = b.dirtyAffinities := by
    rcases choose_frame affinityHash b now affinity
      (b.eligible now userId allProviders excluded) with heq | heq <;> rw [heq]
  rw [hchoose] at hmid
  rw [select_of_choose affinityHash ttl hnil hchoose] at h
  cases h
  cases affinity with
  | none => simpa [leased] using congrArg (hash ∈ ·) hmid
  | some key =>
    change hash ∈ mid.dirtyAffinities.insert (affinityHash key) ↔ _
    rw [List.mem_insert_iff, hmid, Option.map_some, Option.some.injEq, eq_comm]

/-- The cleanup removes the marks of the entries that were written. -/
theorem mem_dirtyAffinities_of_cleanAffinities {persisted : List (String × AffinityEntry × Bool)}
    {b : Balancer} {hash : String} (hwritten : ∀ flushed ∈ persisted, flushed.2.2 = true)
    (h : hash ∈ (persisted.foldl cleanAffinity b).dirtyAffinities) :
    hash ∈ b.dirtyAffinities ∧
      ∀ entry, (hash, entry, true) ∈ persisted → b.affinities.lookup hash ≠ some entry := by
  induction persisted generalizing b with
  | nil => exact ⟨h, nofun⟩
  | cons first rest ih =>
    obtain ⟨key, value, written⟩ := first
    obtain rfl : written = true := hwritten _ List.mem_cons_self
    have hrest := ih (fun flushed hmem => hwritten flushed (List.mem_cons_of_mem _ hmem)) h
    have hsame : (cleanAffinity b (key, value, true)).affinities = b.affinities := by
      unfold cleanAffinity
      dsimp only
      split <;> rfl
    rw [hsame] at hrest
    obtain ⟨hdirty, hother⟩ := hrest
    unfold cleanAffinity at hdirty
    dsimp only at hdirty
    split at hdirty
    · next hvalue =>
      have hkept : hash ∈ b.dirtyAffinities ∧ hash ≠ key := by simpa using hdirty
      refine ⟨hkept.1, fun entry hmem => ?_⟩
      rcases List.mem_cons.mp hmem with heq | hmem
      · cases heq
        exact absurd rfl hkept.2
      · exact hother entry hmem
    · next hvalue =>
      refine ⟨hdirty, fun entry hmem => ?_⟩
      rcases List.mem_cons.mp hmem with heq | hmem
      · cases heq
        exact hvalue
      · exact hother entry hmem

end Balancer

/-- The affinity loop reports on every entry it was given. -/
theorem Database.exists_of_persistAffinities {affinities : List (String × AffinityEntry)}
    {db : Database} {hash : String} {entry : AffinityEntry} (h : (hash, entry) ∈ affinities) :
    ∃ written, (hash, entry, written) ∈ (db.persistAffinities affinities).2 := by
  induction affinities generalizing db with
  | nil => cases h
  | cons first rest ih =>
    obtain ⟨key, value⟩ := first
    rw [persistAffinities_cons]
    rcases List.mem_cons.mp h with heq | hrest
    · cases heq
      exact ⟨_, List.mem_cons_self⟩
    · obtain ⟨written, hmem⟩ := ih hrest
      exact ⟨written, List.mem_cons_of_mem _ hmem⟩

namespace Node

variable {env : Environment} {s t : Node}

/-- A process that has just started on a database. -/
def hydrated (db : Database) (now : Int) : Node := ⟨db, Balancer.default.hydrate db now, now⟩

/-- The deletion of the provider leaves no stored binding behind: where a key is bound to the
provider, its row has expired or names the provider too, and goes with it. -/
def LeavesNoRow (s : Node) (providerId : String) : Prop :=
  ∀ bound ∈ Assoc.pairs s.balancer.affinities, bound.2.providerId = providerId →
    ∀ row ∈ s.db.affinity? bound.1, row.providerId = providerId ∨ row.expiresAt ≤ s.clock

instance (providerId : String) : Decidable (s.LeavesNoRow providerId) :=
  inferInstanceAs (Decidable (∀ bound ∈ Assoc.pairs s.balancer.affinities,
    bound.2.providerId = providerId → ∀ row ∈ s.db.affinity? bound.1,
      row.providerId = providerId ∨ row.expiresAt ≤ s.clock))

/-- What the deletions of a run do. -/
def DeletesCleanly (s : Node) : RoutingStep → Prop
  | .deleteProvider providerId => s.LeavesNoRow providerId
  | _ => True

instance (op : RoutingStep) : Decidable (s.DeletesCleanly op) := by
  cases op <;> unfold DeletesCleanly <;> infer_instance

/-- The map in memory and the table agree, apart from the marked hashes. -/
structure Stored (s : Node) : Prop where
  /-- A cached provider is in the table. -/
  known : ∀ p, s.Known p
  /-- A bound provider is in the table. -/
  bound : ∀ {hash entry}, s.balancer.affinities.lookup hash = some entry →
    (s.db.provider? entry.providerId).isSome = true
  marked : ∀ hash ∈ s.balancer.dirtyAffinities, (s.balancer.affinities.lookup hash).isSome = true
  stored : ∀ hash, hash ∉ s.balancer.dirtyAffinities →
    unexpired s.clock (s.balancer.affinities.lookup hash) =
      unexpired s.clock (s.db.affinity? hash)

namespace Stored

/-- After `hydrate` nothing is marked. -/
theorem hydrated (db : Database) (now : Int) : (Node.hydrated db now).Stored where
  known := by
    intro p hp
    simpa [Node.hydrated, Balancer.hydrate, Balancer.reloadProviders] using hp
  bound := by
    intro hash entry hentry
    rw [Node.hydrated, Balancer.lookup_hydrate, unexpired_eq_some] at hentry
    obtain ⟨row, hrow, rfl⟩ := Option.map_eq_some_iff.mp hentry.1
    exact Table.find?_isSome_iff.mpr (db.affinitiesReference row (Table.mem_of_find? hrow))
  marked := by
    intro hash hmem
    cases hmem
  stored := by
    intro hash _
    rw [Node.hydrated, Balancer.lookup_hydrate, unexpired_unexpired (Int.le_refl _)]

/-- Time passes. -/
theorem tick {now : Int} (h : s.Stored) (hle : s.clock ≤ now) : Stored { s with clock := now } :=
  { h with stored := fun hash hclean => unexpired_congr hle (h.stored hash hclean) }

/-- A change that moves neither the affinities nor the ids of the cached providers. -/
theorem frame {b : Balancer} (h : s.Stored) (haffinities : b.affinities = s.balancer.affinities)
    (hdirty : b.dirtyAffinities = s.balancer.dirtyAffinities)
    (hcached : ∀ p, (b.providers.find? p).isSome = (s.balancer.providers.find? p).isSome) :
    Stored { s with balancer := b } where
  known := by
    intro p hp
    rw [hcached] at hp
    exact h.known p hp
  bound := by
    intro hash entry hentry
    rw [haffinities] at hentry
    exact h.bound hentry
  marked := by
    intro hash hmem
    rw [hdirty] at hmem
    rw [haffinities]
    exact h.marked hash hmem
  stored := by
    intro hash hmem
    rw [hdirty] at hmem
    rw [haffinities]
    exact h.stored hash hmem

/-- A selection binds its key to a cached provider and marks it. -/
theorem select {now : Int} {userId : String} {allProviders : Bool}
    {affinity excluded : Option String} {lease : Lease} {b : Balancer} (h : s.Stored)
    (hle : s.clock ≤ now)
    (hselect : s.balancer.select env.affinityHash env.affinityTtl now userId allProviders affinity
      excluded = .ok (lease, b)) : Stored ⟨s.db, b, now⟩ := by
  have htick := h.tick hle
  have hlookup := Balancer.lookup_affinities_of_select hselect
  have hmarked := Balancer.mem_dirtyAffinities_of_select hselect
  constructor
  · intro p hp
    rw [(Balancer.select_frame hselect).1] at hp
    exact h.known p hp
  · intro hash entry hentry
    rw [hlookup] at hentry
    split at hentry
    · cases hentry
      have hcached := (Balancer.mem_eligible.mp (Balancer.select_mem_eligible hselect).1).1
      exact h.known _ (Table.find?_isSome_iff.mpr (Table.key_mem_keys hcached))
    · exact h.bound hentry
  · intro hash hmem
    rw [hlookup]
    split
    · rfl
    · next hother => exact h.marked hash (((hmarked hash).mp hmem).resolve_left hother)
  · intro hash hmem
    have hclean := not_or.mp ((hmarked hash).not.mp hmem)
    rw [hlookup, if_neg hclean.1]
    exact htick.stored hash hclean.2

/-- **The deletion of a provider** keeps the agreement if it leaves no row behind. -/
theorem delete {providerId : String} (h : s.Stored) (hclean : s.LeavesNoRow providerId) :
    (s.delete providerId).Stored := by
  have hlookup (hash : String) := s.balancer.lookup_affinities_forgetProvider_eq providerId hash
  constructor
  · exact fun p => (h.known p).delete
  · intro hash entry hentry
    obtain ⟨hentry, hother⟩ := Option.filter_eq_some_iff.mp ((hlookup hash).symm.trans hentry)
    change ((s.db.deleteProvider providerId).provider? entry.providerId).isSome = true
    rw [Database.provider?_deleteProvider, if_neg (by simpa using hother)]
    exact h.bound hentry
  · intro hash hmem
    obtain ⟨hdirty, hkept⟩ := List.mem_filter.mp hmem
    obtain ⟨entry, hentry⟩ := Option.isSome_iff_exists.mp (h.marked hash hdirty)
    have hother : entry.providerId ≠ providerId := by
      intro heq
      simp only [decide_eq_true_eq] at hkept
      exact hkept (Balancer.mem_hashesOf.mpr ⟨entry, hentry, heq⟩)
    change ((s.balancer.forgetProvider providerId).affinities.lookup hash).isSome = true
    rw [hlookup, hentry]
    simp [Option.filter, hother]
  · intro hash hmem
    change unexpired s.clock ((s.balancer.forgetProvider providerId).affinities.lookup hash) =
      unexpired s.clock ((s.db.deleteProvider providerId).affinity? hash)
    rw [hlookup, Database.affinity?_deleteProvider]
    by_cases hdirty : hash ∈ s.balancer.dirtyAffinities
    · -- The mark went with the binding, so the binding named the provider.
      have hbound : hash ∈ s.balancer.hashesOf providerId := by
        by_contra hother
        exact hmem (List.mem_filter.mpr ⟨hdirty, by simpa using hother⟩)
      obtain ⟨entry, hentry, hid⟩ := Balancer.mem_hashesOf.mp hbound
      have hnone : unexpired s.clock ((s.db.affinity? hash).filter fun entry =>
          entry.providerId ≠ providerId) = none := by
        rw [Option.eq_none_iff_forall_not_mem]
        intro row hrow
        obtain ⟨hrow, hahead⟩ := unexpired_eq_some.mp hrow
        obtain ⟨hrow, hother⟩ := Option.filter_eq_some_iff.mp hrow
        rcases hclean (hash, entry) (Assoc.mem_pairs.mpr hentry) hid row hrow with hsame | hpast
        · simp [hsame] at hother
        · omega
      rw [hnone, hentry]
      simp [unexpired, Option.filter, hid]
    · exact unexpired_filter_congr providerId (h.stored hash hdirty)

/-- **The condition on a deletion is exact**: where it fails, memory and table disagree right after
the deletion, and nothing is marked. -/
theorem delete_iff {providerId : String} (h : s.Stored) :
    (s.delete providerId).Stored ↔ s.LeavesNoRow providerId := by
  refine ⟨fun hafter => ?_, h.delete⟩
  rintro ⟨hash, entry⟩ hmem hid row hrow
  have hentry : s.balancer.affinities.lookup hash = some entry := Assoc.mem_pairs.mp hmem
  have hbound : hash ∈ s.balancer.hashesOf providerId :=
    Balancer.mem_hashesOf.mpr ⟨entry, hentry, hid⟩
  have hclean : hash ∉ (s.delete providerId).balancer.dirtyAffinities := by
    intro hdirty
    have hkept := (List.mem_filter.mp hdirty).2
    simp [hbound] at hkept
  have hstored := hafter.stored hash hclean
  change unexpired s.clock ((s.balancer.forgetProvider providerId).affinities.lookup hash) =
    unexpired s.clock ((s.db.deleteProvider providerId).affinity? hash) at hstored
  rw [Balancer.lookup_affinities_forgetProvider_eq, Database.affinity?_deleteProvider, hentry,
    show s.db.affinity? hash = some row from hrow] at hstored
  by_contra hleft
  obtain ⟨hother, hahead⟩ := not_or.mp hleft
  have hahead : s.clock < row.expiresAt := by omega
  have hid : entry.providerId = providerId := hid
  simp [unexpired, Option.filter, hid, hother, hahead] at hstored

section Maintain

variable {now : Int} {updates : List (String × ProviderUpdate)}
  {affinities : List (String × AffinityEntry)} {db : Database}
  {persisted : List (String × AffinityEntry × Bool)}

/-- Every marked binding is written: its provider is in the table. -/
theorem written_of_maintain (h : s.Stored)
    (hperm : affinities.Perm s.balancer.pendingAffinities)
    (hcommit : s.db.maintainTransaction now updates affinities = .ok (db, persisted)) :
    ∀ flushed ∈ persisted, flushed.2.2 = true := by
  rintro ⟨hash, entry, written⟩ hmem
  obtain ⟨hbatch, rfl⟩ := Database.mem_of_maintainTransaction hcommit hmem
  have hbound := h.bound (Balancer.mem_pendingAffinities.mp (hperm.mem_iff.mp hbatch)).2
  simpa using Table.find?_isSome_iff.mp hbound

/-- A committed maintenance run leaves no binding marked. -/
theorem clean_of_maintain (h : s.Stored)
    (hperm : affinities.Perm s.balancer.pendingAffinities)
    (hcommit : s.db.maintainTransaction now updates affinities = .ok (db, persisted)) :
    (s.balancer.afterCommit now updates persisted).dirtyAffinities = [] := by
  have hwritten := h.written_of_maintain hperm hcommit
  rw [List.eq_nil_iff_forall_not_mem]
  intro hash hmem
  obtain ⟨hdirty, hother⟩ := Balancer.mem_dirtyAffinities_of_cleanAffinities hwritten hmem
  have hdirty : hash ∈ s.balancer.dirtyAffinities := hdirty
  obtain ⟨entry, hentry⟩ := Option.isSome_iff_exists.mp (h.marked hash hdirty)
  obtain ⟨mid, -, -, rfl⟩ := Database.maintainTransaction_eq_ok hcommit
  have hmarked := hperm.mem_iff.mpr (Balancer.mem_pendingAffinities.mpr ⟨hdirty, hentry⟩)
  obtain ⟨written, hflushed⟩ :=
    @Database.exists_of_persistAffinities _ mid _ _ hmarked
  obtain rfl : written = true := hwritten _ hflushed
  exact hother entry hflushed hentry

/-- **A committed maintenance run** writes the marked bindings, and then none is marked. -/
theorem maintain (h : s.Stored) (hle : s.clock ≤ now)
    (hperm : affinities.Perm s.balancer.pendingAffinities)
    (hcommit : s.db.maintainTransaction now updates affinities = .ok (db, persisted)) :
    Stored ⟨db, s.balancer.afterCommit now updates persisted, now⟩ ∧
      (s.balancer.afterCommit now updates persisted).dirtyAffinities = [] := by
  have hkeys := Database.providerKeys_of_maintainTransaction hcommit
  have hpending {hash : String} {entry : AffinityEntry} : (hash, entry) ∈ affinities ↔
      hash ∈ s.balancer.dirtyAffinities ∧ s.balancer.affinities.lookup hash = some entry :=
    hperm.mem_iff.trans Balancer.mem_pendingAffinities
  have hkept (id : String) : (db.provider? id).isSome = (s.db.provider? id).isSome := by
    rw [Bool.eq_iff_iff, Database.provider?, Table.find?_isSome_iff, hkeys,
      ← Table.find?_isSome_iff, Database.provider?]
  have hlookup (hash : String) (entry : AffinityEntry) :
      (s.balancer.afterCommit now updates persisted).affinities.lookup hash = some entry ↔
        s.balancer.affinities.lookup hash = some entry ∧ now < entry.expiresAt := by
    refine ⟨Balancer.lookup_of_afterCommit, fun hentry => ?_⟩
    exact (Balancer.lookup_afterCommit_iff hcommit (h.bound hentry.1)).mpr hentry
  have hclean := h.clean_of_maintain hperm hcommit
  refine ⟨⟨?_, ?_, ?_, ?_⟩, hclean⟩
  · intro p hp
    rw [Balancer.providers_afterCommit, Snapshot.find?_recover, Option.isSome_map] at hp
    rw [hkept]
    exact h.known p hp
  · intro hash entry hentry
    rw [hkept]
    exact h.bound ((hlookup hash entry).mp hentry).1
  · intro hash hmem
    rw [hclean] at hmem
    cases hmem
  · intro hash _
    have hmemory : unexpired now
        ((s.balancer.afterCommit now updates persisted).affinities.lookup hash) =
          unexpired now (s.balancer.affinities.lookup hash) := by
      ext entry
      rw [unexpired_eq_some, unexpired_eq_some, hlookup]
      exact ⟨fun hentry => hentry.1, fun hentry => ⟨hentry, hentry.2⟩⟩
    rw [hmemory]
    by_cases hdirty : hash ∈ s.balancer.dirtyAffinities
    · obtain ⟨entry, hentry⟩ := Option.isSome_iff_exists.mp (h.marked hash hdirty)
      have hone : ∀ other, (hash, other) ∈ affinities → other = entry := by
        intro other hmem
        exact Option.some.inj ((hpending.mp hmem).2.symm.trans hentry)
      have hbatch : (hash, entry) ∈ affinities ∧ entry.providerId ∈ s.db.providers.keys :=
        ⟨hpending.mpr ⟨hdirty, hentry⟩, Table.find?_isSome_iff.mp (h.bound hentry)⟩
      rw [Database.affinity?_of_maintainTransaction hcommit hone, if_pos hbatch, hentry]
      exact (unexpired_unexpired (Int.le_refl _) _).symm
    · have hnone (entry : AffinityEntry) : (hash, entry) ∉ affinities :=
        fun hmem => hdirty (hpending.mp hmem).1
      rw [Database.affinity?_of_maintainTransaction hcommit
        fun other hmem => absurd hmem (hnone other), if_neg fun hbatch => hnone ⟨"", 0, 0⟩ hbatch.1]
      rw [unexpired_congr hle (h.stored hash hdirty)]
      exact (unexpired_unexpired (Int.le_refl _) _).symm

end Maintain

/-- **Step lemma**: every routing operation whose deletions leave no row behind keeps the
agreement. -/
theorem route {op : RoutingStep} (h : s.Stored) (hclean : s.DeletesCleanly op)
    (hstep : s.route env op = some t) : t.Stored := by
  cases op with
  | select now userId allProviders affinity excluded =>
    rw [route_eq_step rfl] at hstep
    simp only [step, Option.ite_none_right_eq_some] at hstep
    obtain ⟨hclock, hstep⟩ := hstep
    split at hstep
    · next hselect =>
      cases hstep
      exact h.select hclock hselect
    · cases hstep
      exact h.tick hclock
  | trackResponse now providerId circuitId status body =>
    rw [route_eq_step rfl] at hstep
    simp only [step, Option.ite_none_right_eq_some, Option.some.injEq] at hstep
    obtain ⟨hclock, rfl⟩ := hstep
    refine (h.tick hclock).frame rfl rfl fun p => ?_
    simp only [Balancer.observe, Snapshot.find?_observe, Option.isSome_map]
  | dropLease providerId =>
    rw [route_eq_step rfl] at hstep
    cases hstep
    refine h.frame ?_ ?_ fun p => ?_
    all_goals unfold Balancer.dropLease; split <;> rfl
  | deleteProvider providerId =>
    rw [route_deleteProvider, Option.some.injEq] at hstep
    subst hstep
    split
    · exact h.delete hclean
    · exact h
  | maintain now updates affinities =>
    rw [route_eq_step rfl] at hstep
    simp only [step, Option.ite_none_right_eq_some, Option.some.injEq] at hstep
    obtain ⟨⟨hclock, -, hperm⟩, rfl⟩ := hstep
    unfold Node.maintain
    split
    · next hcommit => exact (h.maintain hclock hperm hcommit).1
    · exact h.tick hclock
  | maintainFailed now =>
    rw [route_eq_step rfl] at hstep
    simp only [step, Option.ite_none_right_eq_some, Option.some.injEq] at hstep
    obtain ⟨hclock, rfl⟩ := hstep
    exact h.tick hclock

end Stored

/-- **Affinity survives a restart** if the deletions leave no stored binding behind. From the start
of a process on, selections, deletions of providers, maintenance runs and anything else that routes
happen in any order, and the last step is a committed maintenance run. A fresh process that
hydrates from the database at any later time has the unexpired bindings of the old process, at
every time after that. -/
theorem bindings_survive_restart {db : Database} {start now restart later : Int}
    {steps : List RoutingStep} {updates : List (String × ProviderUpdate)}
    {affinities : List (String × AffinityEntry)}
    (hclean : Transition.Guarded (route env) DeletesCleanly (hydrated db start) steps)
    (hrun : Transition.run (route env) (hydrated db start) steps = some s)
    (hcommit : s.commits now updates affinities = true)
    (hstep : s.route env (.maintain now updates affinities) = some t)
    (hrestart : t.clock ≤ restart) (hlater : restart ≤ later) (hash : String) :
    unexpired later ((Balancer.default.hydrate t.db restart).affinities.lookup hash) =
      unexpired later (t.balancer.affinities.lookup hash) := by
  have hstored : s.Stored :=
    Transition.invariant_of_guarded (fun h hok hstepped => h.route hok hstepped) hclean hrun
      (Stored.hydrated db start)
  rw [route_eq_step rfl] at hstep
  simp only [step, Option.ite_none_right_eq_some, Option.some.injEq] at hstep
  obtain ⟨⟨hclock, -, hperm⟩, rfl⟩ := hstep
  unfold maintain at hrestart ⊢
  unfold commits at hcommit
  cases hresult : s.db.maintainTransaction now updates affinities with
  | error error =>
    rw [hresult] at hcommit
    cases hcommit
  | ok result =>
    obtain ⟨db', persisted⟩ := result
    rw [hresult] at hrestart
    obtain ⟨hafter, hmarks⟩ := hstored.maintain hclock hperm hresult
    have hagree := hafter.stored hash (by rw [hmarks]; exact List.not_mem_nil)
    rw [Balancer.lookup_hydrate, unexpired_unexpired hlater]
    exact (unexpired_congr (Int.le_trans hrestart hlater) hagree).symm

/-- A maintenance run of what is pending on a node. -/
def flush (s : Node) (now : Int) : RoutingStep :=
  .maintain now s.balancer.pendingUpdates s.balancer.pendingAffinities

/-- A flush at an admissible second is a maintenance run over all pending entries. -/
theorem route_flush {now : Int} (hclock : s.clock ≤ now) :
    s.route env (s.flush now) =
      some (s.maintain now s.balancer.pendingUpdates s.balancer.pendingAffinities) := by
  rw [flush, route_eq_step rfl]
  exact if_pos ⟨hclock, List.Perm.refl _, List.Perm.refl _⟩

/-- A key is bound to "p". -/
def firstBinding : List RoutingStep := [.select 50 "owner" false (some "k") (some "q")]

/-- The node with the first binding. -/
def boundOnce : Node :=
  Transition.after (route usageLimitEnvironment) (hydrated paired.db 40) firstBinding

/-- The first binding is stored, the key is bound to "q" by a failover, and a provider is
deleted. -/
def reboundThenDeleted (providerId : String) : List RoutingStep :=
  firstBinding ++
    [boundOnce.flush 60, .select 70 "owner" false (some "k") (some "p"), .deleteProvider providerId]

/-- The node after the deletion. -/
def afterDeletion (providerId : String) : Node :=
  Transition.after (route usageLimitEnvironment) (hydrated paired.db 40)
    (reboundThenDeleted providerId)

/-- The node after the maintenance run that follows. -/
def afterMaintenance (providerId : String) : Node :=
  (afterDeletion providerId).maintain 80 (afterDeletion providerId).balancer.pendingUpdates
    (afterDeletion providerId).balancer.pendingAffinities

/-- The statement at this run, when the provider of the stored binding is deleted. -/
theorem bindings_survive_restart_reboundThenDeleted :
    unexpired 90 ((Balancer.default.hydrate (afterMaintenance "p").db 85).affinities.lookup "k") =
      unexpired 90 ((afterMaintenance "p").balancer.affinities.lookup "k") := by
  have hclean : Transition.Guarded (route usageLimitEnvironment) DeletesCleanly
      (hydrated paired.db 40) (reboundThenDeleted "p") := by decide
  have hrun : Transition.run (route usageLimitEnvironment) (hydrated paired.db 40)
      (reboundThenDeleted "p") = some (afterDeletion "p") :=
    Transition.run_eq_some_after (by decide)
  exact bindings_survive_restart hclean hrun (by decide) (route_flush (by decide)) (by decide)
    (by decide) "k"

/-- **A binding comes back**: when the provider of the new binding is deleted, the mark goes with
it, the row of the first binding stays, and the next process reads it. -/
theorem restart_revives_binding :
    Transition.run (route usageLimitEnvironment) (hydrated paired.db 40)
        (reboundThenDeleted "q") = some (afterDeletion "q") ∧
      (afterDeletion "q").commits 80 (afterDeletion "q").balancer.pendingUpdates
        (afterDeletion "q").balancer.pendingAffinities = true ∧
      (afterDeletion "q").route usageLimitEnvironment ((afterDeletion "q").flush 80) =
        some (afterMaintenance "q") ∧
      unexpired 90 ((afterMaintenance "q").balancer.affinities.lookup "k") = none ∧
      unexpired 90 ((Balancer.default.hydrate (afterMaintenance "q").db 85).affinities.lookup "k") =
        some ⟨"p", 3650, 50⟩ :=
  ⟨Transition.run_eq_some_after (by decide), by decide, route_flush (by decide), by decide,
    by decide⟩

end Node

end OpenAiLb
