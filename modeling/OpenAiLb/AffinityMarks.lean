import OpenAiLb.AffinityPhases
import OpenAiLb.StickyAffinity

/-!
# No affinity is forgotten

An entry in memory that differs from its row has a dirty mark, or a running call will set
the mark, remove the entry, or look at it again. The one place where a mark is removed
without a second look is the cleanup of a written entry: it keeps the invariant exactly
while the entry in memory is the one in the row, so `remember_affinity` must not write
another entry between the comparison and the removal of the mark.
-/

namespace OpenAiLb

/-- The call will still look whether the entry under `hash` names the provider. -/
def ForgetPhase.awaits (hash : String) : ForgetPhase → Prop
  | collecting => True
  | dropping hashes | unmarking _ hashes | checking _ hashes | remarking _ hashes => hash ∈ hashes

/-- The call will set the mark of `hash` if there is an entry. -/
def ForgetPhase.rechecks (hash : String) : ForgetPhase → Prop
  | collecting | dropping _ => False
  | unmarking first _ | checking first _ | remarking first _ => hash = first

namespace AffinityPhase

/-- The maintenance task will set the mark of `hash` if there is an entry. -/
def rechecks (hash : String) : AffinityPhase → Prop
  | idle | snapshotted .. | committed .. | cleaning .. => False
  | dropping _ first _ _ | checking _ first _ | remarking _ first _ => hash = first
  | unmarking _ first written _ => hash = first ∧ written = false

/-- The maintenance task has found the written entry of `hash` unchanged and removes its mark. -/
def unmarks (hash : String) : AffinityPhase → Prop
  | unmarking _ first written _ => hash = first ∧ written = true
  | _ => False

instance (hash : String) (phase : AffinityPhase) : Decidable (phase.unmarks hash) := by
  unfold unmarks
  split <;> infer_instance

/-- The entries of the transaction that are still to be compared. -/
def uncompared : AffinityPhase → List (String × AffinityEntry × Bool)
  | idle | snapshotted .. => []
  | committed _ _ remaining | cleaning _ remaining | dropping _ _ _ remaining
  | unmarking _ _ _ remaining | checking _ _ remaining | remarking _ _ remaining => remaining

/-- The entries of the next transaction. -/
def batch : AffinityPhase → List (String × AffinityEntry)
  | snapshotted _ _ affinities => affinities
  | _ => []

end AffinityPhase

/-- A lookup in a map from which entries were erased. -/
theorem Balancer.lookup_of_dropEntry {b : Balancer} {gone hash : String} {entry : AffinityEntry}
    (h : (b.dropEntry gone).affinities.lookup hash = some entry) :
    hash ≠ gone ∧ b.affinities.lookup hash = some entry := by
  by_cases heq : hash = gone
  · subst heq
    simp [Balancer.dropEntry] at h
  · exact ⟨heq, (AList.lookup_erase_ne heq).symm.trans h⟩

/-- A mark that is still there after the removal of another one. -/
theorem Balancer.mem_unmark {b : Balancer} {gone hash : String} :
    hash ∈ (b.unmark gone).dirtyAffinities ↔ hash ∈ b.dirtyAffinities ∧ hash ≠ gone := by
  simp [Balancer.unmark]

/-- The marked hashes are the new one and those from before. -/
theorem Balancer.mem_mark {b : Balancer} {marked hash : String} :
    hash ∈ (b.mark marked).dirtyAffinities ↔ hash = marked ∨ hash ∈ b.dirtyAffinities := by
  simp [Balancer.mark]

/-- **What `forget_provider` does in a step**: it adds no entry; an entry of the provider that it
leaves is still to be looked at; and where it removes a mark it will look again. -/
theorem ForgetTask.exec_spec {task : ForgetTask} {b b' : Balancer} {phase : ForgetPhase}
    {hash : String} {entry : AffinityEntry} (h : task.exec b = some (b', phase))
    (hentry : b'.affinities.lookup hash = some entry) :
    b.affinities.lookup hash = some entry ∧
      (task.providerId = entry.providerId → task.phase.awaits hash → phase.awaits hash) ∧
      (hash ∈ b.dirtyAffinities ∨ task.phase.rechecks hash →
        hash ∈ b'.dirtyAffinities ∨ phase.rechecks hash) := by
  obtain ⟨providerId, old⟩ := task
  cases old with
  | collecting =>
    cases h
    refine ⟨hentry, fun hid _ => ?_, fun hor => ?_⟩
    · have hmem : (⟨hash, entry⟩ : Sigma fun _ : String => AffinityEntry) ∈ b.affinities.entries :=
        AList.mem_lookup_iff.mp hentry
      have hnamed : entry.providerId = providerId := hid.symm
      exact List.mem_map.mpr ⟨_, List.mem_filter.mpr ⟨hmem, by simpa using hnamed⟩, rfl⟩
    · obtain hdirty | hrecheck := hor
      · exact .inl hdirty
      · cases hrecheck
  | dropping hashes =>
    cases hashes with
    | nil => cases h
    | cons first hashes =>
      rw [ForgetTask.exec, Option.some.injEq] at h
      dsimp only at h
      split at h
      · cases h
        obtain ⟨hne, hold⟩ := Balancer.lookup_of_dropEntry hentry
        refine ⟨hold, fun _ hawaits => ?_, fun hor => ?_⟩
        · exact (List.mem_cons.mp hawaits).resolve_left hne
        · obtain hdirty | hrecheck := hor
          · exact .inl hdirty
          · cases hrecheck
      · next hother =>
        cases h
        refine ⟨hentry, fun hid hawaits => ?_, fun hor => ?_⟩
        · refine (List.mem_cons.mp hawaits).resolve_left ?_
          rintro rfl
          rw [hentry] at hother
          exact hother (by simpa using hid.symm)
        · obtain hdirty | hrecheck := hor
          · exact .inl hdirty
          · cases hrecheck
  | unmarking first hashes =>
    cases h
    refine ⟨hentry, fun _ => id, fun hor => ?_⟩
    by_cases heq : hash = first
    · exact .inr heq
    · exact .inl (Balancer.mem_unmark.mpr ⟨hor.resolve_right heq, heq⟩)
  | checking first hashes =>
    rw [ForgetTask.exec, Option.some.injEq] at h
    split at h
    · cases h
      exact ⟨hentry, fun _ => id, id⟩
    · next habsent =>
      cases h
      refine ⟨hentry, fun _ => id, fun hor => .inl (hor.resolve_right ?_)⟩
      rintro rfl
      have hnone := AList.lookup_eq_none.mpr habsent
      rw [hentry] at hnone
      cases hnone
  | remarking first hashes =>
    cases h
    refine ⟨hentry, fun _ => id, fun hor => .inl (Balancer.mem_mark.mpr ?_)⟩
    exact hor.symm

/-- **What the cleanup does in a step**: it adds no entry, and where it removes a mark it will look
again, unless it has found the entry as it was written. -/
theorem AffinityPhase.exec_spec {phase after : AffinityPhase} {b b' : Balancer} {hash : String}
    {entry : AffinityEntry} (h : phase.exec b = some (b', after))
    (hentry : b'.affinities.lookup hash = some entry) :
    b.affinities.lookup hash = some entry ∧
      (hash ∈ b.dirtyAffinities ∨ phase.rechecks hash →
        hash ∈ b'.dirtyAffinities ∨ after.rechecks hash ∨ phase.unmarks hash) ∧
      (after.unmarks hash → (hash, entry, true) ∈ phase.uncompared) ∧
      (∀ pair ∈ after.uncompared, pair ∈ phase.uncompared) := by
  cases phase with
  | idle | snapshotted => cases h
  | committed now updates persisted =>
    cases h
    exact ⟨hentry, fun hor => .inl (hor.resolve_right id), False.elim, fun _ => id⟩
  | cleaning now remaining =>
    cases remaining with
    | nil =>
      cases h
      have hkept : (Assoc.retain (fun entry => now < entry.expiresAt) b.affinities).lookup hash =
          some entry := hentry
      rw [Assoc.lookup_retain, Option.filter_eq_some_iff] at hkept
      exact ⟨hkept.1, fun hor => .inl (hor.resolve_right id), False.elim, fun _ => id⟩
    | cons first remaining =>
      obtain ⟨key, value, written⟩ := first
      rw [AffinityPhase.exec, Option.some.injEq] at h
      split at h
      · next hsame =>
        split at h
        · next hwritten =>
          subst hwritten
          cases h
          refine ⟨hentry, fun hor => .inl (hor.resolve_right id), ?_,
            fun pair hmem => List.mem_cons_of_mem _ hmem⟩
          rintro ⟨rfl, -⟩
          rw [hentry, Option.some.injEq] at hsame
          rw [hsame]
          exact List.mem_cons_self
        · cases h
          exact ⟨hentry, fun hor => .inl (hor.resolve_right id), False.elim,
            fun pair hmem => List.mem_cons_of_mem _ hmem⟩
      · cases h
        exact ⟨hentry, fun hor => .inl (hor.resolve_right id), False.elim,
          fun pair hmem => List.mem_cons_of_mem _ hmem⟩
  | dropping now first value remaining =>
    rw [AffinityPhase.exec, Option.some.injEq, Prod.mk.injEq] at h
    obtain ⟨rfl, rfl⟩ := h
    have hold : b.affinities.lookup hash = some entry ∧
        (if b.affinities.lookup first = some value then b.dropEntry first else b).dirtyAffinities =
          b.dirtyAffinities := by
      split at hentry
      · next hsame =>
        rw [if_pos hsame]
        exact ⟨(Balancer.lookup_of_dropEntry hentry).2, rfl⟩
      · next hsame =>
        rw [if_neg hsame]
        exact ⟨hentry, rfl⟩
    refine ⟨hold.1, fun hor => ?_, by simp [unmarks], fun _ => id⟩
    rw [hold.2]
    obtain hdirty | hrecheck := hor
    · exact .inl hdirty
    · exact .inr (.inl ⟨hrecheck, rfl⟩)
  | unmarking now first written remaining =>
    rw [AffinityPhase.exec, Option.some.injEq, Prod.mk.injEq] at h
    obtain ⟨rfl, rfl⟩ := h
    refine ⟨hentry, fun hor => ?_, ?_, ?_⟩
    · by_cases heq : hash = first
      · cases written with
        | true => exact .inr (.inr ⟨heq, rfl⟩)
        | false => exact .inr (.inl heq)
      · obtain hdirty | hrecheck := hor
        · exact .inl (Balancer.mem_unmark.mpr ⟨hdirty, heq⟩)
        · exact absurd hrecheck.1 heq
    · cases written with
      | true => exact False.elim
      | false => exact False.elim
    · cases written with
      | true => exact fun _ => id
      | false => exact fun _ => id
  | checking now first remaining =>
    rw [AffinityPhase.exec, Option.some.injEq] at h
    split at h
    · cases h
      exact ⟨hentry, fun hor => hor.imp_right .inl, False.elim, fun _ => id⟩
    · next habsent =>
      cases h
      refine ⟨hentry, fun hor => .inl (hor.resolve_right ?_), False.elim, fun _ => id⟩
      rintro rfl
      have hnone := AList.lookup_eq_none.mpr habsent
      rw [hentry] at hnone
      cases hnone
  | remarking now first remaining =>
    cases h
    refine ⟨hentry, fun hor => .inl (Balancer.mem_mark.mpr ?_), False.elim, fun _ => id⟩
    exact hor.symm

/-- The cleanup does not go back to the transaction. -/
theorem AffinityPhase.ne_snapshotted_of_exec {phase after : AffinityPhase} {b b' : Balancer}
    (h : phase.exec b = some (b', after)) (now : Int) (updates : List (String × ProviderUpdate))
    (affinities : List (String × AffinityEntry)) : after ≠ .snapshotted now updates affinities := by
  rintro rfl
  unfold exec at h
  split at h
  all_goals
    simp only [Option.some.injEq, Prod.mk.injEq, reduceCtorEq, and_false] at h
  · split at h
    · split at h <;> simp at h
    · simp at h
  · split at h <;> simp at h
  · split at h <;> simp at h

namespace AffinityNode

variable {s t : AffinityNode} {hash : String} {entry : AffinityEntry}

/-- The entry in memory. -/
def entry? (s : AffinityNode) (hash : String) : Option AffinityEntry :=
  s.balancer.affinities.lookup hash

/-- A running `forget_provider` will remove the entry. -/
def Dropped (s : AffinityNode) (hash : String) (entry : AffinityEntry) : Prop :=
  ∃ task ∈ s.forgetting, task.providerId = entry.providerId ∧ task.phase.awaits hash

/-- A running `forget_provider` will set the mark if there is an entry. -/
def Rechecked (s : AffinityNode) (hash : String) : Prop :=
  ∃ task ∈ s.forgetting, task.phase.rechecks hash

/-- The entry needs no mark: it is in its row, it has expired, or it will be removed. -/
def Settled (s : AffinityNode) (hash : String) (entry : AffinityEntry) : Prop :=
  s.db.affinity? hash = some entry ∨ entry.expiresAt ≤ s.clock ∨ s.Dropped hash entry

/-- The entry has a mark, or a running call will see to it. -/
def Owed (s : AffinityNode) (hash : String) (entry : AffinityEntry) : Prop :=
  hash ∈ s.balancer.dirtyAffinities ∨ hash ∈ s.remembering ∨ s.Dropped hash entry ∨
    s.Rechecked hash

/-- What every step keeps. -/
structure Marked (s : AffinityNode) : Prop where
  covered : ∀ hash entry, s.entry? hash = some entry →
    s.Owed hash entry ∨ s.Settled hash entry ∨ s.phase.rechecks hash
  /-- The transaction has not yet written over the rows of its batch. -/
  batch : ∀ hash written, (hash, written) ∈ s.phase.batch → ∀ entry, s.entry? hash = some entry →
    s.Owed hash entry
  batchUnique : ∀ hash entry other, (hash, entry) ∈ s.phase.batch → (hash, other) ∈ s.phase.batch →
    other = entry
  clock : ∀ now updates affinities, s.phase = .snapshotted now updates affinities → now ≤ s.clock
  uncompared : ∀ hash entry, (hash, entry, true) ∈ s.phase.uncompared →
    s.entry? hash = some entry → s.Settled hash entry
  unmarked : ∀ hash entry, s.phase.unmarks hash → s.entry? hash = some entry →
    s.Settled hash entry

/-- `remember_affinity` does not interfere with the cleanup: under a hash whose written entry is
still to be compared or whose mark is about to be removed it writes what the row holds; before the
comparison it may also write any entry other than the one that is compared. -/
def KeepsWritten (s : AffinityNode) : AffinityStep → Prop
  | .remember hash providerId now ttl =>
    (s.phase.unmarks hash ∨ (hash, ⟨providerId, now + ttl, now⟩, true) ∈ s.phase.uncompared) →
      s.db.affinity? hash = some ⟨providerId, now + ttl, now⟩
  | _ => True

instance (s : AffinityNode) : ∀ a, Decidable (s.KeepsWritten a)
  | .remember .. => inferInstanceAs (Decidable (_ → _))
  | .tick _ | .execute _ | .observe .. | .mark _ | .forget _ | .snapshot .. | .transaction
  | .unavailable | .clean => inferInstanceAs (Decidable True)

/-- While no maintenance runs, every entry is owed or settled, and that is all. -/
theorem marked_of_idle (hidle : s.phase = .idle)
    (hcovered : ∀ hash entry, s.entry? hash = some entry →
      s.Owed hash entry ∨ s.Settled hash entry) : s.Marked where
  covered hash entry hentry := (hcovered hash entry hentry).imp_right .inl
  batch hash written hmem := by
    rw [hidle] at hmem
    cases hmem
  batchUnique hash entry other hmem := by
    rw [hidle] at hmem
    cases hmem
  clock now updates affinities heq := by
    rw [hidle] at heq
    cases heq
  uncompared hash entry hmem := by
    rw [hidle] at hmem
    cases hmem
  unmarked hash entry hunmarks := by
    rw [hidle] at hunmarks
    cases hunmarks

/-- A step beside the maintenance task keeps the invariant when it keeps what is owed and what is
settled for every entry that is there after it. -/
theorem Marked.of_frame (h : s.Marked) (hphase : t.phase = s.phase) (hclock : s.clock ≤ t.clock)
    (hframe : ∀ hash entry, t.entry? hash = some entry → s.entry? hash = some entry ∧
      (s.Owed hash entry → t.Owed hash entry) ∧ (s.Settled hash entry → t.Settled hash entry)) :
    t.Marked where
  covered hash entry hentry := by
    obtain ⟨hold, howed, hsettled⟩ := hframe hash entry hentry
    obtain hcover | hcover | hcover := h.covered hash entry hold
    · exact .inl (howed hcover)
    · exact .inr (.inl (hsettled hcover))
    · exact .inr (.inr (hphase ▸ hcover))
  batch hash written hmem entry hentry := by
    obtain ⟨hold, howed, -⟩ := hframe hash entry hentry
    rw [hphase] at hmem
    exact howed (h.batch hash written hmem entry hold)
  batchUnique := by
    rw [hphase]
    exact h.batchUnique
  clock now updates affinities heq := by
    have hnow := h.clock now updates affinities (hphase ▸ heq)
    omega
  uncompared hash entry hmem hentry := by
    obtain ⟨hold, -, hsettled⟩ := hframe hash entry hentry
    rw [hphase] at hmem
    exact hsettled (h.uncompared hash entry hmem hold)
  unmarked hash entry hunmarks hentry := by
    obtain ⟨hold, -, hsettled⟩ := hframe hash entry hentry
    rw [hphase] at hunmarks
    exact hsettled (h.unmarked hash entry hunmarks hold)

/-- Time passes. -/
theorem Marked.tick {now : Int} (h : s.Marked) (hclock : s.clock ≤ now) :
    Marked { s with clock := now } := by
  refine h.of_frame rfl hclock fun hash entry hentry => ⟨hentry, id, ?_⟩
  rintro (hrow | hexpired | hdropped)
  · exact .inl hrow
  · exact .inr (.inl (Int.le_trans hexpired hclock))
  · exact .inr (.inr hdropped)

/-- A handler statement: a deleted row leaves a call that will remove its entry. -/
theorem Marked.execute {stmt : Statement} {db : Database} {n : ℕ} (h : s.Marked)
    (hexec : stmt.exec s.db = .ok (db, n)) :
    Marked { s with db := db, forgetting := s.forgetting ++ stmt.forgets n } := by
  have hdropped {hash : String} {entry : AffinityEntry} (hdrop : s.Dropped hash entry) :
      Dropped { s with db := db, forgetting := s.forgetting ++ stmt.forgets n } hash entry := by
    obtain ⟨task, hmem, htask⟩ := hdrop
    exact ⟨task, List.mem_append_left _ hmem, htask⟩
  refine h.of_frame rfl le_rfl fun hash entry hentry => ⟨hentry, ?_, ?_⟩
  · rintro (hdirty | hremember | hdrop | ⟨task, hmem, htask⟩)
    · exact .inl hdirty
    · exact .inr (.inl hremember)
    · exact .inr (.inr (.inl (hdropped hdrop)))
    · exact .inr (.inr (.inr ⟨task, List.mem_append_left _ hmem, htask⟩))
  · rintro (hrow | hexpired | hdrop)
    · by_cases hdelete : stmt = .deleteProvider entry.providerId
      · -- The row is gone, and the handler goes on with `forget_provider`.
        subst hdelete
        have hprovider : (s.db.provider? entry.providerId).isSome = true := by
          obtain ⟨row, hfound, hrow⟩ := Option.map_eq_some_iff.mp hrow
          have hkey := s.db.affinitiesReference row (Table.mem_of_find? hfound)
          rw [← hrow]
          exact Table.find?_isSome_iff.mpr hkey
        have hn : n = 1 := by
          cases hexec
          rw [if_pos hprovider]
        subst hn
        exact .inr (.inr ⟨⟨entry.providerId, .collecting⟩, by simp [Statement.forgets], rfl,
          trivial⟩)
      · left
        change db.affinity? hash = some entry
        rw [Database.affinity?_of_exec hexec, hrow]
        simp [Option.filter, hdelete]
    · exact .inr (.inl hexpired)
    · exact .inr (.inr (hdropped hdrop))

/-- The second write of `remember_affinity`. -/
theorem Marked.mark (h : s.Marked) (marked : String) :
    Marked { s with
      balancer := s.balancer.mark marked
      remembering := s.remembering.erase marked } := by
  refine h.of_frame rfl le_rfl fun hash entry hentry => ⟨hentry, ?_, id⟩
  have hdirty : hash ∈ s.balancer.dirtyAffinities ∨ hash = marked →
      hash ∈ (s.balancer.mark marked).dirtyAffinities := by
    intro hor
    exact Balancer.mem_mark.mpr hor.symm
  rintro (hold | hremember | hrest)
  · exact .inl (hdirty (.inl hold))
  · by_cases heq : hash = marked
    · exact .inl (hdirty (.inr heq))
    · exact .inr (.inl ((List.mem_erase_of_ne heq).mpr hremember))
  · exact .inr (.inr hrest)

/-- The first write of `remember_affinity`. -/
theorem Marked.remember {providerId : String} {now ttl : Int} (h : s.Marked)
    (hkeeps : s.KeepsWritten (.remember hash providerId now ttl)) :
    Marked { s with
      balancer := s.balancer.rememberEntry hash ⟨providerId, now + ttl, now⟩
      remembering := hash :: s.remembering } := by
  have hlookup (other : String) (entry : AffinityEntry)
      (hentry : (s.balancer.rememberEntry hash
        ⟨providerId, now + ttl, now⟩).affinities.lookup other = some entry) :
      (other = hash ∧ entry = ⟨providerId, now + ttl, now⟩) ∨
        (other ≠ hash ∧ s.entry? other = some entry) := by
    by_cases heq : other = hash
    · subst heq
      rw [Balancer.rememberEntry, AList.lookup_insert, Option.some.injEq] at hentry
      exact .inl ⟨rfl, hentry.symm⟩
    · exact .inr ⟨heq, (AList.lookup_insert_ne heq).symm.trans hentry⟩
  have howed {other : String} {entry : AffinityEntry} (hold : s.Owed other entry) :
      Owed { s with
        balancer := s.balancer.rememberEntry hash ⟨providerId, now + ttl, now⟩
        remembering := hash :: s.remembering } other entry := by
    obtain hdirty | hremember | hrest := hold
    · exact .inl hdirty
    · exact .inr (.inl (List.mem_cons_of_mem _ hremember))
    · exact .inr (.inr hrest)
  constructor
  · intro other entry hentry
    obtain ⟨rfl, -⟩ | ⟨-, hold⟩ := hlookup other entry hentry
    · exact .inl (.inr (.inl List.mem_cons_self))
    · obtain hcover | hcover | hcover := h.covered other entry hold
      · exact .inl (howed hcover)
      · exact .inr (.inl hcover)
      · exact .inr (.inr hcover)
  · intro other written hmem entry hentry
    obtain ⟨rfl, -⟩ | ⟨-, hold⟩ := hlookup other entry hentry
    · exact .inr (.inl List.mem_cons_self)
    · exact howed (h.batch other written hmem entry hold)
  · exact h.batchUnique
  · exact h.clock
  · intro other entry hmem hentry
    obtain ⟨rfl, rfl⟩ | ⟨-, hold⟩ := hlookup other entry hentry
    · exact .inl (hkeeps (.inr hmem))
    · exact h.uncompared other entry hmem hold
  · intro other entry hunmarks hentry
    obtain ⟨rfl, rfl⟩ | ⟨-, hold⟩ := hlookup other entry hentry
    · exact .inl (hkeeps (.inl hunmarks))
    · exact h.unmarked other entry hunmarks hold

/-- A step of `forget_provider`. -/
theorem Marked.forget {i : ℕ} {task : ForgetTask} {b : Balancer} {phase : ForgetPhase}
    (h : s.Marked) (htask : s.forgetting[i]? = some task)
    (hexec : task.exec s.balancer = some (b, phase)) :
    Marked { s with
      balancer := b
      forgetting := s.forgetting.set i { task with phase := phase } } := by
  refine h.of_frame rfl le_rfl fun hash entry hentry => ?_
  obtain ⟨hold, hawaits, hmarks⟩ := ForgetTask.exec_spec hexec hentry
  have hmoved : { task with phase := phase } ∈ s.forgetting.set i { task with phase := phase } :=
    List.mem_of_getElem? (Tasks.set_self htask)
  have hother {found : ForgetTask} (hfound : found ∈ s.forgetting) :
      found = task ∨ found ∈ s.forgetting.set i { task with phase := phase } := by
    obtain ⟨j, hj⟩ := List.mem_iff_getElem?.mp hfound
    by_cases heq : i = j
    · subst heq
      exact .inl (Option.some.inj (hj.symm.trans htask))
    · exact .inr (List.mem_of_getElem? (Tasks.set_other heq hj))
  have hdropped (hdrop : s.Dropped hash entry) :
      Dropped { s with
        balancer := b
        forgetting := s.forgetting.set i { task with phase := phase } } hash entry := by
    obtain ⟨found, hfound, hid, hfoundAwaits⟩ := hdrop
    obtain rfl | hkept := hother hfound
    · exact ⟨_, hmoved, hid, hawaits hid hfoundAwaits⟩
    · exact ⟨found, hkept, hid, hfoundAwaits⟩
  have hmarked (hor : hash ∈ s.balancer.dirtyAffinities ∨ task.phase.rechecks hash) :
      Owed { s with
        balancer := b
        forgetting := s.forgetting.set i { task with phase := phase } } hash entry := by
    obtain hdirty | hrecheck := hmarks hor
    · exact .inl hdirty
    · exact .inr (.inr (.inr ⟨_, hmoved, hrecheck⟩))
  refine ⟨hold, ?_, ?_⟩
  · rintro (hdirty | hremember | hdrop | ⟨found, hfound, hrecheck⟩)
    · exact hmarked (.inl hdirty)
    · exact .inr (.inl hremember)
    · exact .inr (.inr (.inl (hdropped hdrop)))
    · obtain rfl | hkept := hother hfound
      · exact hmarked (.inr hrecheck)
      · exact .inr (.inr (.inr ⟨found, hkept, hrecheck⟩))
  · rintro (hrow | hexpired | hdrop)
    · exact .inl hrow
    · exact .inr (.inl hexpired)
    · exact .inr (.inr (hdropped hdrop))

/-- Copying the pending maps: every entry of the batch has a mark. -/
theorem Marked.snapshot {now : Int} {updates : List (String × ProviderUpdate)}
    {affinities : List (String × AffinityEntry)} (h : s.Marked) (hphase : s.phase = .idle)
    (hclock : s.clock ≤ now) (hperm : affinities.Perm s.balancer.pendingAffinities) :
    Marked { s with clock := now, phase := .snapshotted now updates affinities } := by
  have hpending {hash : String} {entry : AffinityEntry} (hmem : (hash, entry) ∈ affinities) :
      hash ∈ s.balancer.dirtyAffinities ∧ s.entry? hash = some entry := by
    obtain ⟨dirty, hdirty, hfound⟩ := List.mem_filterMap.mp (hperm.mem_iff.mp hmem)
    obtain ⟨value, hvalue, heq⟩ := Option.map_eq_some_iff.mp hfound
    cases heq
    exact ⟨hdirty, hvalue⟩
  have hticked := h.tick hclock
  constructor
  · intro hash entry hentry
    obtain hcover | hcover | hcover := hticked.covered hash entry hentry
    · exact .inl hcover
    · exact .inr (.inl hcover)
    · change s.phase.rechecks hash at hcover
      rw [hphase] at hcover
      cases hcover
  · intro hash written hmem entry hentry
    exact .inl (hpending hmem).1
  · intro hash entry other hmem hmem'
    have hsame := (hpending hmem).2.symm.trans (hpending hmem').2
    exact (Option.some.inj hsame).symm
  · intro now' updates' affinities' heq
    cases heq
    exact le_rfl
  · intro hash entry hmem
    cases hmem
  · intro hash entry hunmarks
    cases hunmarks

/-- The transaction: what it reports as written is in its row, or has expired. -/
theorem Marked.transaction {now : Int} {updates : List (String × ProviderUpdate)}
    {affinities : List (String × AffinityEntry)} {db : Database}
    {persisted : List (String × AffinityEntry × Bool)} (h : s.Marked)
    (hphase : s.phase = .snapshotted now updates affinities)
    (hcommit : s.db.maintainTransaction now updates affinities = .ok (db, persisted)) :
    Marked { s with db := db, phase := .committed now updates persisted } := by
  have hbatch : s.phase.batch = affinities := by rw [hphase]; rfl
  have hclock : now ≤ s.clock := h.clock now updates affinities hphase
  have hfilter {stored : Option AffinityEntry} {hash : String} {entry : AffinityEntry}
      (hrow : db.affinity? hash = stored.filter fun entry => now < entry.expiresAt)
      (hstored : stored = some entry) :
      Settled { s with db := db, phase := .committed now updates persisted } hash entry := by
    by_cases hahead : now < entry.expiresAt
    · left
      change db.affinity? hash = some entry
      rw [hrow, hstored]
      simp [Option.filter, hahead]
    · right
      left
      change entry.expiresAt ≤ s.clock
      omega
  constructor
  · intro hash entry hentry
    obtain hcover | hcover | hcover := h.covered hash entry hentry
    · exact .inl hcover
    · obtain hrow | hexpired | hdrop := hcover
      · by_cases hmem : ∃ written, (hash, written) ∈ affinities
        · obtain ⟨written, hmem⟩ := hmem
          exact .inl (h.batch hash written (hbatch ▸ hmem) entry hentry)
        · -- The row is not of the batch, so the transaction only may find it expired.
          have hone : ∀ other, (hash, other) ∈ affinities → other = entry :=
            fun other hother => absurd ⟨other, hother⟩ hmem
          have hafter := Database.affinity?_of_maintainTransaction hcommit hone
          have hnot : ¬ ((hash, entry) ∈ affinities ∧ entry.providerId ∈ s.db.providers.keys) :=
            fun hand => hmem ⟨entry, hand.1⟩
          rw [if_neg hnot] at hafter
          exact .inr (.inl (hfilter hafter hrow))
      · exact .inr (.inl (.inr (.inl hexpired)))
      · exact .inr (.inl (.inr (.inr hdrop)))
    · rw [hphase] at hcover
      cases hcover
  · intro hash written hmem
    cases hmem
  · intro hash entry other hmem
    cases hmem
  · intro now' updates' affinities' heq
    cases heq
  · intro hash entry hmem _
    obtain ⟨hin, hwritten⟩ := Database.mem_of_maintainTransaction hcommit hmem
    have hone : ∀ other, (hash, other) ∈ affinities → other = entry :=
      fun other hother => h.batchUnique hash entry other (hbatch ▸ hin) (hbatch ▸ hother)
    have hafter := Database.affinity?_of_maintainTransaction hcommit hone
    rw [if_pos ⟨hin, by simpa using hwritten⟩] at hafter
    exact hfilter hafter rfl
  · intro hash entry hunmarks
    cases hunmarks

/-- The maintenance run ends without a commit. -/
theorem Marked.unavailable {now : Int} {updates : List (String × ProviderUpdate)}
    {affinities : List (String × AffinityEntry)} (h : s.Marked)
    (hphase : s.phase = .snapshotted now updates affinities) :
    Marked { s with phase := .idle } := by
  refine marked_of_idle rfl ?_
  intro hash entry hentry
  obtain hcover | hcover | hcover := h.covered hash entry hentry
  · exact .inl hcover
  · exact .inr hcover
  · rw [hphase] at hcover
    cases hcover

/-- A step of the cleanup. -/
theorem Marked.clean {b : Balancer} {phase : AffinityPhase} (h : s.Marked)
    (hexec : s.phase.exec s.balancer = some (b, phase)) :
    Marked { s with balancer := b, phase := phase } := by
  have hne := AffinityPhase.ne_snapshotted_of_exec hexec
  have hbatch : phase.batch = [] := by
    unfold AffinityPhase.batch
    split
    · exact absurd rfl (hne _ _ _)
    · rfl
  constructor
  · intro hash entry hentry
    obtain ⟨hold, hmarks, -, -⟩ := AffinityPhase.exec_spec hexec hentry
    have hcover (hor : hash ∈ s.balancer.dirtyAffinities ∨ s.phase.rechecks hash) :
        Owed { s with balancer := b, phase := phase } hash entry ∨
          Settled { s with balancer := b, phase := phase } hash entry ∨ phase.rechecks hash := by
      obtain hdirty | hrecheck | hunmarks := hmarks hor
      · exact .inl (.inl hdirty)
      · exact .inr (.inr hrecheck)
      · exact .inr (.inl (h.unmarked hash entry hunmarks hold))
    obtain (hdirty | hrest) | hsettled | hrecheck := h.covered hash entry hold
    · exact hcover (.inl hdirty)
    · exact .inl (.inr hrest)
    · exact .inr (.inl hsettled)
    · exact hcover (.inr hrecheck)
  · intro hash written hmem
    rw [show AffinityPhase.batch _ = _ from hbatch] at hmem
    cases hmem
  · intro hash entry other hmem
    rw [show AffinityPhase.batch _ = _ from hbatch] at hmem
    cases hmem
  · intro now updates affinities heq
    exact absurd heq (hne now updates affinities)
  · intro hash entry hmem hentry
    obtain ⟨hold, -, -, hsubset⟩ := AffinityPhase.exec_spec hexec hentry
    exact h.uncompared hash entry (hsubset _ hmem) hold
  · intro hash entry hunmarks hentry
    obtain ⟨hold, -, hcompared, -⟩ := AffinityPhase.exec_spec hexec hentry
    exact h.uncompared hash entry (hcompared hunmarks) hold

/-- One step keeps the invariant. -/
theorem Marked.step {a : AffinityStep} (h : s.Marked) (hkeeps : s.KeepsWritten a)
    (hstep : s.step a = some t) : t.Marked := by
  cases a with
  | tick now =>
    rw [AffinityNode.step] at hstep
    split at hstep
    · next hclock =>
      cases hstep
      exact h.tick hclock
    · cases hstep
  | execute stmt =>
    rw [AffinityNode.step] at hstep
    split at hstep
    · next db n hexec =>
      cases hstep
      exact h.execute hexec
    · cases hstep
      exact h
  | observe providerId update =>
    cases hstep
    exact h.of_frame rfl le_rfl fun hash entry hentry => ⟨hentry, id, id⟩
  | remember hash providerId now ttl =>
    cases hstep
    exact h.remember hkeeps
  | mark hash =>
    rw [AffinityNode.step] at hstep
    split at hstep
    · cases hstep
      exact h.mark hash
    · cases hstep
  | forget i =>
    obtain ⟨task, htask, hstep⟩ := Option.bind_eq_some_iff.mp hstep
    obtain ⟨⟨b, phase⟩, hexec, rfl⟩ := Option.map_eq_some_iff.mp hstep
    exact h.forget htask hexec
  | snapshot now updates affinities =>
    rw [AffinityNode.step] at hstep
    split at hstep
    · next hphase =>
      split at hstep
      · next hor =>
        cases hstep
        exact h.snapshot hphase hor.1 hor.2.2
      · cases hstep
    · cases hstep
  | transaction =>
    rw [AffinityNode.step] at hstep
    split at hstep
    · next hphase =>
      split at hstep
      · next hcommit =>
        cases hstep
        exact h.transaction hphase hcommit
      · cases hstep
        exact h.unavailable hphase
    · cases hstep
  | unavailable =>
    rw [AffinityNode.step] at hstep
    split at hstep
    · next hphase =>
      cases hstep
      exact h.unavailable hphase
    · cases hstep
  | clean =>
    obtain ⟨⟨b, phase⟩, hexec, rfl⟩ := Option.map_eq_some_iff.mp hstep
    exact h.clean hexec

/-- What the loop of `hydrate` leaves under a hash is a row, or it was there before. -/
theorem lookup_foldl_insert {rows : List AffinityRow} {m : AList fun _ : String => AffinityEntry}
    (h : (rows.foldl (fun affinities row => affinities.insert row.affinityHash row.entry) m).lookup
      hash = some entry) :
    m.lookup hash = some entry ∨ ∃ row ∈ rows, row.affinityHash = hash ∧ row.entry = entry := by
  induction rows generalizing m with
  | nil => exact .inl h
  | cons first rows ih =>
    obtain hbefore | ⟨row, hmem, hrow⟩ := ih h
    · by_cases heq : hash = first.affinityHash
      · subst heq
        rw [AList.lookup_insert, Option.some.injEq] at hbefore
        exact .inr ⟨first, List.mem_cons_self, rfl, hbefore⟩
      · exact .inl ((AList.lookup_insert_ne heq).symm.trans hbefore)
    · exact .inr ⟨row, List.mem_cons_of_mem _ hmem, hrow⟩

/-- After `hydrate` every entry is in its row. -/
theorem hydrated_marked (db : Database) (now : Int) : (hydrated db now).Marked := by
  refine marked_of_idle rfl ?_
  intro hash entry hentry
  obtain hnone | ⟨row, hmem, rfl, rfl⟩ := lookup_foldl_insert hentry
  · cases hnone
  · have hrow : row ∈ db.affinities := (List.mem_filter.mp hmem).1
    refine .inr (.inl ?_)
    change (db.affinities.find? row.affinityHash).map AffinityRow.entry = _
    rw [Table.find?_of_mem hrow, Option.map_some]

/-- **No affinity is forgotten.** From the start of the process, in any interleaving of
`remember_affinity`, `forget_provider` and maintenance in which no `remember_affinity` interferes
with the cleanup: when no call is running, an unexpired entry that differs from its row, or has
none, has a dirty mark. -/
theorem affinities_marked {db : Database} {now : Int} {steps : List AffinityStep}
    (hkeeps : Transition.Guarded AffinityNode.step KeepsWritten (hydrated db now) steps)
    (hrun : (hydrated db now).run steps = some t) (hremember : t.remembering = [])
    (hforget : ∀ task ∈ t.forgetting, task.phase = .dropping []) (hidle : t.phase = .idle)
    (hash : String) (entry : AffinityEntry) (hentry : t.entry? hash = some entry)
    (hahead : t.clock < entry.expiresAt) (hdiffers : t.db.affinity? hash ≠ some entry) :
    hash ∈ t.balancer.dirtyAffinities := by
  have hmarked : t.Marked := Transition.invariant_of_guarded
    (fun h hok hstep => h.step hok hstep) hkeeps hrun (hydrated_marked db now)
  have hdropped : ¬ t.Dropped hash entry := by
    rintro ⟨task, hmem, -, hawaits⟩
    rw [hforget task hmem] at hawaits
    cases hawaits
  have hrechecked : ¬ t.Rechecked hash := by
    rintro ⟨task, hmem, hrecheck⟩
    rw [hforget task hmem] at hrecheck
    cases hrecheck
  obtain howed | hsettled | hrecheck := hmarked.covered hash entry hentry
  · obtain hdirty | hremembering | hdrop | hrecheck := howed
    · exact hdirty
    · rw [hremember] at hremembering
      cases hremembering
    · exact absurd hdrop hdropped
    · exact absurd hrecheck hrechecked
  · obtain hrow | hexpired | hdrop := hsettled
    · exact absurd hrow hdiffers
    · omega
    · exact absurd hdrop hdropped
  · rw [hidle] at hrecheck
    cases hrecheck

/-- The database with two providers and no affinities. -/
def pairedDatabase : Database := Node.paired.db

/-- The key `h` is bound to `p`, and a maintenance run has compared the entry it has written. -/
def compared : List AffinityStep :=
  [.remember "h" "p" 50 3600, .mark "h", .snapshot 51 [] [("h", ⟨"p", 3650, 50⟩)], .transaction,
    .clean, .clean]

/-- The rest of the maintenance run, and then the key is bound to `q`. -/
def boundLater : List AffinityStep :=
  compared ++ [.clean, .clean, .remember "h" "q" 52 3600, .mark "h"]

/-- The key is bound to `q`, and then comes the rest of the maintenance run. -/
def boundBetween : List AffinityStep :=
  compared ++ [.remember "h" "q" 52 3600, .mark "h", .clean, .clean]

/-- The statement at a run in which the key is bound again after the maintenance run. -/
theorem affinities_marked_later :
    "h" ∈ ((hydrated pairedDatabase 10).after boundLater).balancer.dirtyAffinities := by
  have hrun : (hydrated pairedDatabase 10).run boundLater =
      some ((hydrated pairedDatabase 10).after boundLater) :=
    Transition.run_eq_some_after (by decide)
  exact affinities_marked (by decide) hrun (by decide) (by decide) (by decide) "h"
    ⟨"q", 3652, 52⟩ (by decide) (by decide) (by decide)

/-- The key is bound again between the comparison and the removal of the mark: its new entry has
neither a row nor a mark when every call has returned. -/
theorem cleanup_drops_mark :
    ∃ t, (hydrated pairedDatabase 10).run boundBetween = some t ∧ t.remembering = [] ∧
      (∀ task ∈ t.forgetting, task.phase = .dropping []) ∧ t.phase = .idle ∧
      t.entry? "h" = some ⟨"q", 3652, 52⟩ ∧ t.clock < 3652 ∧
      t.db.affinity? "h" = some ⟨"p", 3650, 50⟩ ∧ "h" ∉ t.balancer.dirtyAffinities :=
  ⟨_, Transition.run_eq_some_after (by decide), by decide, by decide, by decide, by decide,
    by decide, by decide, by decide⟩

end AffinityNode

end OpenAiLb
