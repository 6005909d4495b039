import Mathlib.Data.List.Forall2
import OpenAiLb.RoutingRuns

/-!
# Maintenance ticks are invisible to routing

A maintenance run releases cached cooldowns and drops affinity entries, and a selection sees
none of it: a cooldown that is released had ended, an entry that is dropped had expired or names
no provider of the snapshot. The relation between a node with ticks and one without them says
just this, and every routing operation keeps it.
-/

namespace OpenAiLb

/-- `min_by_key` on mapped elements. -/
theorem minByKey_map {α β : Type*} (g : α → β) (f : β → ℕ) (l : List α) :
    (minByKey (fun a => f (g a)) l).map g = minByKey f (l.map g) := by
  induction l with
  | nil => rfl
  | cons x rest ih =>
    rw [List.map_cons]
    simp only [minByKey, ← ih]
    cases minByKey (fun a => f (g a)) rest with
    | none => rfl
    | some y =>
      dsimp only [Option.map_some]
      split <;> rfl

/-- Two cached rows between which a selection at `clock` or later cannot tell. -/
structure RowsAlike (clock : Int) (row row' : Provider) : Prop where
  id : row.id = row'.id
  ownerId : row.ownerId = row'.ownerId
  manualDisabled : row.manualDisabled = row'.manualDisabled
  available : ∀ now, clock ≤ now → providerIsAvailable row now = providerIsAvailable row' now

namespace RowsAlike

variable {clock later : Int} {row row' : Provider}

/-- A row is like itself. -/
theorem refl (clock : Int) (row : Provider) : RowsAlike clock row row :=
  ⟨rfl, rfl, rfl, fun _ _ => rfl⟩

/-- Rows that are alike stay alike at a later second. -/
theorem mono (h : RowsAlike clock row row') (hle : clock ≤ later) : RowsAlike later row row' :=
  ⟨h.id, h.ownerId, h.manualDisabled, fun now hnow => h.available now (by omega)⟩

/-- **The recovery cannot be seen later**: a cooldown that it releases has ended. -/
theorem recover (h : RowsAlike clock row row') (hle : clock ≤ later) :
    RowsAlike later (recoverRow later row) row' := by
  refine ⟨?_, ?_, ?_, fun now hnow => ?_⟩
  · rw [recoverRow_id, h.id]
  · rw [recoverRow_ownerId, h.ownerId]
  · rw [recoverRow_manualDisabled, h.manualDisabled]
  · rw [← h.available now (by omega)]
    unfold recoverRow
    split
    · next hexpired =>
      cases huntil : row.cooldownUntil with
      | none => simp [isExpiredCooldown, huntil] at hexpired
      | some until_ =>
        obtain ⟨⟨henabled, hstatus⟩, hended⟩ :
            (row.manualDisabled = false ∧ row.status = .cooldown) ∧ until_ ≤ later := by
          simpa [isExpiredCooldown, huntil] using hexpired
        have hrow : providerIsAvailable row now = true :=
          providerIsAvailable_iff.mpr ⟨henabled, .inr ⟨hstatus, until_, huntil, by omega⟩⟩
        rw [hrow, providerIsAvailable_iff]
        exact ⟨henabled, .inl rfl⟩
    · rfl

/-- An observation writes the same status and deadline into both rows, or neither. -/
theorem observe (h : RowsAlike clock row row') (update : ProviderUpdate) :
    RowsAlike clock (observeRow update row) (observeRow update row') := by
  refine ⟨h.id, h.ownerId, h.manualDisabled, fun now hnow => ?_⟩
  cases hdisabled : row'.manualDisabled with
  | true =>
    have hdisabled' : row.manualDisabled = true := h.manualDisabled.trans hdisabled
    simp [providerIsAvailable, hdisabled, hdisabled']
  | false =>
    have henabled : row.manualDisabled = false := h.manualDisabled.trans hdisabled
    have havailable := h.available now hnow
    cases hstatus : update.status with
    | none => simpa [providerIsAvailable, observeRow, hdisabled, henabled, hstatus] using havailable
    | some status => simp [providerIsAvailable, observeRow, hdisabled, henabled, hstatus]

end RowsAlike

namespace Balancer

variable {b b' : Balancer} {hash p : String} {now : Int}

/-- The hash is bound to the provider, and the binding has not expired. -/
def Binds (b : Balancer) (hash p : String) (now : Int) : Prop :=
  ∃ entry, b.affinities.lookup hash = some entry ∧ entry.providerId = p ∧ now < entry.expiresAt

/-- **The affine provider is the one to which the hash is bound**, if it is eligible. -/
theorem affinityProvider_eq_some_iff {eligible : List Provider} :
    (b.affinityProvider hash eligible now).map Provider.id = some p ↔
      b.Binds hash p now ∧ p ∈ eligible.map Provider.id := by
  have hfind (x : String) : (eligible.find? fun provider => provider.id = x).map Provider.id =
      some p ↔ x = p ∧ p ∈ eligible.map Provider.id := by
    constructor
    · intro h
      obtain ⟨row, hrow, rfl⟩ := Option.map_eq_some_iff.mp h
      have hid : row.id = x := by simpa using List.find?_some hrow
      exact ⟨hid.symm, List.mem_map_of_mem (List.mem_of_find?_eq_some hrow)⟩
    · rintro ⟨rfl, hmem⟩
      obtain ⟨row, hrow, hid⟩ := List.mem_map.mp hmem
      cases hfound : eligible.find? fun provider => provider.id = x with
      | none =>
        have hnone := List.find?_eq_none.mp hfound row hrow
        simp [hid] at hnone
      | some found =>
        have hsame : found.id = x := by simpa using List.find?_some hfound
        rw [Option.map_some, hsame]
  unfold affinityProvider Binds
  cases hentry : b.affinities.lookup hash with
  | none => simp
  | some entry =>
    rw [Option.bind_some]
    by_cases hahead : now < entry.expiresAt
    · rw [if_pos hahead, hfind]
      simp [hahead]
    · simp [hahead]

/-- What a choice reads beside the list of the eligible providers. -/
structure ChoiceAlike (b b' : Balancer) (now : Int) (ids : List String) : Prop where
  cursor : b.cursor = b'.cursor
  inflight : b.inflight = b'.inflight
  binds : ∀ hash, ∀ p ∈ ids, b.Binds hash p now ↔ b'.Binds hash p now

/-- **Balancers that bind and count alike choose the same provider** among eligible providers with
the same ids, and move the cursor alike. -/
theorem ChoiceAlike.choose {eligible eligible' : List Provider} {ids : List String}
    (h : ChoiceAlike b b' now ids) (affinityHash : String → String) (affinity : Option String)
    (hids : eligible.map Provider.id = ids) (hids' : eligible'.map Provider.id = ids) :
    (b.choose affinityHash now affinity eligible).1.map Provider.id =
        (b'.choose affinityHash now affinity eligible').1.map Provider.id ∧
      (b.choose affinityHash now affinity eligible).2.cursor =
        (b'.choose affinityHash now affinity eligible').2.cursor := by
  have haffine : ((affinity.map affinityHash).bind fun hash =>
      b.affinityProvider hash eligible now).map Provider.id =
      ((affinity.map affinityHash).bind fun hash =>
        b'.affinityProvider hash eligible' now).map Provider.id := by
    cases affinity with
    | none => rfl
    | some key =>
      ext p
      simp only [Option.map_some, Option.bind_some, affinityProvider_eq_some_iff, hids, hids']
      exact and_congr_left fun hmem => h.binds _ p hmem
  have hlength : eligible.length = eligible'.length := by
    rw [← List.length_map Provider.id, hids, ← hids', List.length_map]
  unfold Balancer.choose
  split
  · next found hfound =>
    rw [hfound, Option.map_some] at haffine
    obtain ⟨found', hfound', hsame⟩ := Option.map_eq_some_iff.mp haffine.symm
    rw [hfound']
    exact ⟨congrArg some hsame.symm, h.cursor⟩
  · next hnone =>
    rw [hnone, Option.map_none, eq_comm, Option.map_eq_none_iff] at haffine
    rw [haffine]
    constructor
    · have hcount : b.inflightOf = b'.inflightOf := by
        funext id
        exact inflightOf_congr h.inflight id
      simp only [leastInflight, minByKey_map Provider.id, List.map_append, List.map_drop,
        List.map_take, hids, hids', h.cursor, hlength, hcount]
    · exact congrArg (fun cursor => (cursor + 1) % 2 ^ 64) h.cursor

end Balancer

namespace Node

variable {env : Environment} {s s' t : Node}

/-- Two nodes between which no routing operation can tell: the first may have run maintenance
where the second has not. -/
structure RoutesAlike (s s' : Node) : Prop where
  clock : s'.clock ≤ s.clock
  rows : List.Forall₂ (RowsAlike s.clock) s.balancer.providers.rows s'.balancer.providers.rows
  grants : s.balancer.providerGrants = s'.balancer.providerGrants
  cursor : s.balancer.cursor = s'.balancer.cursor
  inflight : s.balancer.inflight = s'.balancer.inflight
  binds : ∀ hash, ∀ p ∈ s.balancer.providers.keys, ∀ now, s.clock ≤ now →
    (s.balancer.Binds hash p now ↔ s'.balancer.Binds hash p now)
  known : ∀ p, s.Known p
  table : ∀ p, (s.db.provider? p).isSome = (s'.db.provider? p).isSome

/-- Rows that are alike have the same ids. -/
theorem map_id_of_rowsAlike {clock : Int} {rows rows' : List Provider}
    (h : List.Forall₂ (RowsAlike clock) rows rows') :
    rows.map Provider.id = rows'.map Provider.id := by
  induction h with
  | nil => rfl
  | cons hrow _ ih => rw [List.map_cons, List.map_cons, hrow.id, ih]

/-- A node without ticks yet. -/
theorem RoutesAlike.refl (hknown : ∀ p, s.Known p) : RoutesAlike s s where
  clock := Int.le_refl _
  rows := List.forall₂_same.mpr fun row _ => RowsAlike.refl s.clock row
  grants := rfl
  cursor := rfl
  inflight := rfl
  binds := fun _ _ _ _ _ => Iff.rfl
  known := hknown
  table := fun _ => rfl

namespace RoutesAlike

variable {now : Int}

/-- Time passes on both sides. -/
theorem tick (h : RoutesAlike s s') (hle : s.clock ≤ now) :
    RoutesAlike { s with clock := now } { s' with clock := now } :=
  { h with
    clock := Int.le_refl _
    rows := h.rows.imp fun _ _ hrow => hrow.mono hle
    binds := fun hash p hp at' hat => h.binds hash p hp at' (Int.le_trans hle hat) }

/-- Time passes on the side with the ticks. -/
theorem tickLeft (h : RoutesAlike s s') (hle : s.clock ≤ now) :
    RoutesAlike { s with clock := now } s' :=
  { h with
    clock := Int.le_trans h.clock hle
    rows := h.rows.imp fun _ _ hrow => hrow.mono hle
    binds := fun hash p hp at' hat => h.binds hash p hp at' (Int.le_trans hle hat) }

/-- **A tick keeps the relation**: the run with it may go on as the run without it. -/
theorem maintain {updates : List (String × ProviderUpdate)}
    {affinities : List (String × AffinityEntry)} (h : RoutesAlike s s') (hle : s.clock ≤ now)
    (hperm : updates.Perm s.balancer.pendingUpdates) :
    RoutesAlike (s.maintain now updates affinities) s' := by
  unfold Node.maintain
  split
  · next db persisted hcommit =>
    obtain ⟨hcursor, hgrants⟩ := s.balancer.frame_afterCommit now updates persisted
    have hproviders := s.balancer.providers_afterCommit now updates persisted
    have htable (p : String) : (db.provider? p).isSome = (s.db.provider? p).isSome := by
      rw [Database.provider?_of_maintainTransaction hcommit
        (Balancer.nodup_of_perm_pendingUpdates hperm), Option.isSome_map]
    constructor
    · exact Int.le_trans h.clock hle
    · rw [hproviders]
      exact List.forall₂_map_left_iff.mpr (h.rows.imp fun _ _ hrow => hrow.recover hle)
    · exact hgrants.trans h.grants
    · exact hcursor.trans h.cursor
    · exact (s.balancer.inflight_afterCommit now updates persisted).trans h.inflight
    · intro hash p hp at' hat
      rw [hproviders, Snapshot.recover, Table.keys_map] at hp
      rw [← h.binds hash p hp at' (Int.le_trans hle hat)]
      have hknown : (s.db.provider? p).isSome = true :=
        h.known p (Table.find?_isSome_iff.mpr hp)
      constructor
      · rintro ⟨entry, hentry, hid, hahead⟩
        exact ⟨entry, (Balancer.lookup_of_afterCommit hentry).1, hid, hahead⟩
      · rintro ⟨entry, hentry, rfl, hahead⟩
        have hkept := (Balancer.lookup_afterCommit_iff hcommit hknown).mpr
          ⟨hentry, (by dsimp only at hat; omega)⟩
        exact ⟨entry, hkept, rfl, hahead⟩
    · intro p hp
      rw [hproviders, Snapshot.find?_recover, Option.isSome_map] at hp
      rw [htable]
      exact h.known p hp
    · intro p
      rw [htable, h.table]
  · exact h.tickLeft hle

/-- An observation on both sides. -/
theorem observe (h : RoutesAlike s s') (providerId : String) (update : ProviderUpdate) :
    RoutesAlike { s with balancer := s.balancer.observe providerId update }
      { s' with balancer := s'.balancer.observe providerId update } where
  clock := h.clock
  rows := by
    refine List.forall₂_map_left_iff.mpr (List.forall₂_map_right_iff.mpr (h.rows.imp ?_))
    intro row row' hrow
    simp only [hrow.id]
    split
    · exact hrow.observe update
    · exact hrow
  grants := h.grants
  cursor := h.cursor
  inflight := h.inflight
  binds := by
    intro hash p hp
    rw [Balancer.observe, Snapshot.observe, Table.keys_updateWhere] at hp
    exact h.binds hash p hp
  known := by
    intro p hp
    simp only [Balancer.observe, Snapshot.find?_observe, Option.isSome_map] at hp
    exact h.known p hp
  table := h.table

/-- A lease is dropped on both sides. -/
theorem dropLease (h : RoutesAlike s s') (providerId : String) :
    RoutesAlike { s with balancer := s.balancer.dropLease providerId }
      { s' with balancer := s'.balancer.dropLease providerId } := by
  unfold Balancer.dropLease
  rw [h.inflight]
  split
  · exact { h with inflight := rfl }
  · exact h

/-- A provider is deleted on both sides. -/
theorem delete (h : RoutesAlike s s') (providerId : String) :
    RoutesAlike (s.delete providerId) (s'.delete providerId) where
  clock := h.clock
  rows := by
    refine List.rel_filter ?_ h.rows
    intro row row' hrow
    dsimp only
    rw [hrow.id]
  grants := by
    change s.balancer.providerGrants.filter _ = s'.balancer.providerGrants.filter _
    rw [h.grants]
  cursor := h.cursor
  inflight := congrArg (AList.erase providerId) h.inflight
  binds := by
    intro hash p hp now hnow
    obtain ⟨row, hrow, rfl⟩ := Table.mem_keys.mp hp
    obtain ⟨hmem, hne⟩ := Table.mem_filter.mp hrow
    have hne : row.id ≠ providerId := by simpa using hne
    have hforget (b : Balancer) :
        (b.forgetProvider providerId).Binds hash row.id now ↔ b.Binds hash row.id now := by
      unfold Balancer.Binds
      rw [Balancer.lookup_affinities_forgetProvider_eq]
      constructor
      · rintro ⟨entry, hentry, hid, hahead⟩
        exact ⟨entry, (Option.filter_eq_some_iff.mp hentry).1, hid, hahead⟩
      · rintro ⟨entry, hentry, hid, hahead⟩
        refine ⟨entry, Option.filter_eq_some_iff.mpr ⟨hentry, ?_⟩, hid, hahead⟩
        simpa [hid] using hne
    exact (hforget s.balancer).trans
      ((h.binds hash row.id (Table.key_mem_keys hmem) now hnow).trans (hforget s'.balancer).symm)
  known p := (h.known p).delete
  table := by
    intro p
    change ((s.db.deleteProvider providerId).provider? p).isSome =
      ((s'.db.deleteProvider providerId).provider? p).isSome
    rw [Database.provider?_deleteProvider, Database.provider?_deleteProvider]
    split
    · rfl
    · exact h.table p

/-- The eligible providers are alike, row by row. -/
theorem eligible (h : RoutesAlike s s') (hle : s.clock ≤ now) (userId : String)
    (allProviders : Bool) (excluded : Option String) :
    (s.balancer.eligible now userId allProviders excluded).map Provider.id =
      (s'.balancer.eligible now userId allProviders excluded).map Provider.id := by
  refine map_id_of_rowsAlike (List.rel_filter ?_ h.rows)
  intro row row' hrow
  simp only [Balancer.isEligible, hrow.id, hrow.ownerId, hrow.available now hle, h.grants]

/-- What a choice reads is alike. -/
theorem choiceAlike (h : RoutesAlike s s') (hle : s.clock ≤ now) (userId : String)
    (allProviders : Bool) (excluded : Option String) :
    Balancer.ChoiceAlike s.balancer s'.balancer now
      ((s.balancer.eligible now userId allProviders excluded).map Provider.id) where
  cursor := h.cursor
  inflight := h.inflight
  binds := by
    intro hash p hp
    obtain ⟨row, hrow, rfl⟩ := List.mem_map.mp hp
    exact h.binds hash row.id (Table.key_mem_keys (Balancer.mem_eligible.mp hrow).1) now hle

/-- There is a provider to choose on both sides or on neither. -/
theorem eligible_eq_nil_iff (h : RoutesAlike s s') (hle : s.clock ≤ now) (userId : String)
    (allProviders : Bool) (excluded : Option String) :
    s.balancer.eligible now userId allProviders excluded = [] ↔
      s'.balancer.eligible now userId allProviders excluded = [] := by
  have hids := h.eligible hle userId allProviders excluded
  constructor
  · intro hnil
    rwa [hnil, List.map_nil, eq_comm, List.map_eq_nil_iff] at hids
  · intro hnil
    rwa [hnil, List.map_nil, List.map_eq_nil_iff] at hids

/-- Where there is a provider to choose, both sides choose the same one. -/
theorem exists_choice (env : Environment) (h : RoutesAlike s s') (hle : s.clock ≤ now)
    (userId : String) (allProviders : Bool) (affinity excluded : Option String)
    (hnil : s.balancer.eligible now userId allProviders excluded ≠ []) :
    ∃ chosen mid chosen' mid',
      s.balancer.choose env.affinityHash now affinity
          (s.balancer.eligible now userId allProviders excluded) = (some chosen, mid) ∧
        s'.balancer.choose env.affinityHash now affinity
          (s'.balancer.eligible now userId allProviders excluded) = (some chosen', mid') ∧
        chosen.id = chosen'.id ∧ mid.cursor = mid'.cursor ∧ mid.inflight = mid'.inflight := by
  have hnil' := (h.eligible_eq_nil_iff hle userId allProviders excluded).not.mp hnil
  have hids := h.eligible hle userId allProviders excluded
  obtain ⟨hchoice, hcursor⟩ :=
    (h.choiceAlike hle userId allProviders excluded).choose env.affinityHash affinity rfl
      hids.symm
  have hmid := Balancer.inflight_choose env.affinityHash s.balancer now affinity
    (s.balancer.eligible now userId allProviders excluded)
  have hmid' := Balancer.inflight_choose env.affinityHash s'.balancer now affinity
    (s'.balancer.eligible now userId allProviders excluded)
  obtain ⟨chosen, mid, hchoose, -⟩ :=
    Balancer.choose_spec env.affinityHash s.balancer now affinity hnil
  obtain ⟨chosen', mid', hchoose', -⟩ :=
    Balancer.choose_spec env.affinityHash s'.balancer now affinity hnil'
  rw [hchoose] at hmid hchoice hcursor
  rw [hchoose'] at hmid' hchoice hcursor
  exact ⟨chosen, mid, chosen', mid', hchoose, hchoose', Option.some.inj hchoice, hcursor,
    hmid.trans (h.inflight.trans hmid'.symm)⟩

/-- **A selection on both sides** has the same outcome, and the nodes stay alike. -/
theorem select (h : RoutesAlike s s') (hle : s.clock ≤ now) (userId : String)
    (allProviders : Bool) (affinity excluded : Option String)
    (hstep : s.step env (.select now userId allProviders affinity excluded) = some t) :
    s.chosen env now userId allProviders affinity excluded =
        s'.chosen env now userId allProviders affinity excluded ∧
      ∃ t', s'.step env (.select now userId allProviders affinity excluded) = some t' ∧
        RoutesAlike t t' := by
  have hle' : s'.clock ≤ now := Int.le_trans h.clock hle
  have htick := h.tick hle
  unfold Node.chosen
  simp only [Node.step, hle, hle', if_true] at hstep ⊢
  by_cases hnil : s.balancer.eligible now userId allProviders excluded = []
  · have hnil' := (h.eligible_eq_nil_iff hle userId allProviders excluded).mp hnil
    have herror (b : Balancer) (hb : b.eligible now userId allProviders excluded = []) :
        b.select env.affinityHash env.affinityTtl now userId allProviders affinity excluded =
          .error Balancer.noAvailableProvider := by rw [Balancer.select, if_pos hb]
    rw [herror _ hnil] at hstep ⊢
    rw [herror _ hnil']
    cases hstep
    exact ⟨rfl, _, rfl, htick⟩
  · have hnil' := (h.eligible_eq_nil_iff hle userId allProviders excluded).not.mp hnil
    obtain ⟨chosen, mid, chosen', mid', hchoose, hchoose', hid, hcursor, hinflight⟩ :=
      h.exists_choice env hle userId allProviders affinity excluded hnil
    have hselect := Balancer.select_of_choose env.affinityHash env.affinityTtl hnil hchoose
    have hselect' := Balancer.select_of_choose env.affinityHash env.affinityTtl hnil' hchoose'
    rw [hselect] at hstep ⊢
    rw [hselect']
    cases hstep
    refine ⟨congrArg some hid, _, rfl, ?_⟩
    obtain ⟨hproviders, hgrants, -⟩ := Balancer.select_frame hselect
    obtain ⟨hproviders', hgrants', -⟩ := Balancer.select_frame hselect'
    constructor
    · exact htick.clock
    · rw [hproviders, hproviders']
      exact htick.rows
    · rw [hgrants, hgrants']
      exact htick.grants
    · rw [(Balancer.leased_frame ..).1, (Balancer.leased_frame ..).1]
      exact hcursor
    · rw [Balancer.leased_eq_countLease, Balancer.leased_eq_countLease]
      unfold Balancer.countLease
      dsimp only
      rw [Balancer.inflight_remembered, Balancer.inflight_remembered, hinflight, hid,
        Balancer.inflightOf_congr (Balancer.inflight_remembered ..),
        Balancer.inflightOf_congr (Balancer.inflight_remembered ..),
        Balancer.inflightOf_congr hinflight]
    · intro hash p hp at' hat
      unfold Balancer.Binds
      rw [Balancer.lookup_affinities_of_select hselect,
        Balancer.lookup_affinities_of_select hselect']
      split
      · rw [hid]
      · rw [hproviders] at hp
        exact htick.binds hash p hp at' hat
    · intro p hp
      rw [hproviders] at hp
      exact htick.known p hp
    · exact htick.table

end RoutesAlike

/-- The ticks. -/
def isTick : RoutingStep → Bool
  | .maintain .. | .maintainFailed _ => true
  | _ => false

/-- A tick shows nothing and keeps the relation. -/
theorem RoutesAlike.invisible {op : RoutingStep} (h : RoutesAlike s s')
    (htick : isTick op = true) (hstep : s.route env op = some t) :
    shown env s op = none ∧ RoutesAlike t s' := by
  cases op with
  | select | trackResponse | dropLease | deleteProvider => cases htick
  | maintain now updates affinities =>
    rw [route_eq_step rfl] at hstep
    simp only [step, Option.ite_none_right_eq_some, Option.some.injEq] at hstep
    obtain ⟨⟨hclock, hperm, -⟩, rfl⟩ := hstep
    exact ⟨rfl, h.maintain hclock hperm⟩
  | maintainFailed now =>
    rw [route_eq_step rfl] at hstep
    simp only [step, Option.ite_none_right_eq_some, Option.some.injEq] at hstep
    obtain ⟨hclock, rfl⟩ := hstep
    exact ⟨rfl, h.tickLeft hclock⟩

/-- **Step lemma**: every other routing operation shows the same on both sides, and keeps the
relation. -/
theorem RoutesAlike.visible {op : RoutingStep} (h : RoutesAlike s s')
    (htick : isTick op = false) (hstep : s.route env op = some t) :
    shown env s op = shown env s' op ∧ ∃ t', s'.route env op = some t' ∧ RoutesAlike t t' := by
  cases op with
  | maintain | maintainFailed => cases htick
  | select now userId allProviders affinity excluded =>
    rw [route_eq_step rfl] at hstep ⊢
    have hclock : s.clock ≤ now := by
      by_contra hlate
      simp [step, hlate] at hstep
    obtain ⟨hout, t', hstep', hrel⟩ :=
      h.select hclock userId allProviders affinity excluded hstep
    exact ⟨congrArg some hout, t', hstep', hrel⟩
  | trackResponse now providerId circuitId status body =>
    rw [route_eq_step rfl] at hstep ⊢
    simp only [step, Option.ite_none_right_eq_some, Option.some.injEq] at hstep ⊢
    obtain ⟨hclock, rfl⟩ := hstep
    exact ⟨rfl, _, ⟨Int.le_trans h.clock hclock, rfl⟩, (h.tick hclock).observe providerId _⟩
  | dropLease providerId =>
    rw [route_eq_step rfl] at hstep ⊢
    cases hstep
    exact ⟨rfl, _, rfl, h.dropLease providerId⟩
  | deleteProvider providerId =>
    rw [route_deleteProvider, Option.some.injEq] at hstep
    rw [route_deleteProvider]
    subst hstep
    refine ⟨rfl, _, rfl, ?_⟩
    rw [h.table providerId]
    split
    · exact h.delete providerId
    · exact h

/-- The node once its snapshot was loaded. -/
def reloaded (s : Node) : Node := { s with balancer := s.balancer.reloadProviders s.db }

/-- After a reload the cached row is in the table. -/
theorem known_reloaded (s : Node) (p : String) : s.reloaded.Known p := by
  intro hp
  simpa [reloaded, Balancer.reloadProviders] using hp

/-- A run after a reload shows what it shows without its ticks. -/
theorem outcomes_erase_ticks {steps : List RoutingStep}
    (hrun : Transition.run (route env) s.reloaded steps = some t) :
    s.reloaded.outcomes env steps = s.reloaded.outcomes env (steps.filter fun op => !isTick op) ∧
      ∃ t', Transition.run (route env) s.reloaded (steps.filter fun op => !isTick op) = some t' ∧
        RoutesAlike t t' :=
  Transition.erase_invisible (fun h htick hstep => h.invisible (by simpa using htick) hstep)
    (fun h htick hstep => h.visible (by simpa using htick) hstep)
    (RoutesAlike.refl (known_reloaded s)) hrun

/-- **Maintenance ticks are invisible to routing.** Take a run of selections, observations, lease
drops, deletions of providers and ticks, from any node whose snapshot was loaded. The run without
its ticks can be executed and its selections have the same outcomes; and so have those of every
other run that differs from it in its ticks alone. -/
theorem ticks_invisible {steps : List RoutingStep}
    (hrun : Transition.run (route env) s.reloaded steps = some t) :
    (∃ t', Transition.run (route env) s.reloaded (steps.filter fun op => !isTick op) = some t') ∧
      s.reloaded.outcomes env (steps.filter fun op => !isTick op) =
        s.reloaded.outcomes env steps ∧
      ∀ steps' t', Transition.run (route env) s.reloaded steps' = some t' →
        steps'.filter (fun op => !isTick op) = steps.filter (fun op => !isTick op) →
        s.reloaded.outcomes env steps' = s.reloaded.outcomes env steps := by
  obtain ⟨houts, t', hrun', -⟩ := outcomes_erase_ticks hrun
  refine ⟨⟨t', hrun'⟩, houts.symm, fun steps' u hother hsame => ?_⟩
  obtain ⟨houts', -⟩ := outcomes_erase_ticks hother
  rw [houts', hsame, houts]

/-- A key is bound to a provider, which reaches its usage limit. -/
def limitBound : List RoutingStep :=
  [.select 50 "owner" false (some "k") none, .trackResponse 60 "p" "c" 429 (usageLimitBody 200)]

/-- The node before the tick. -/
def beforeTick : Node :=
  Transition.after (route usageLimitEnvironment) paired.reloaded limitBound

/-- The tick flushes the cooldown and the binding, then the key is selected again, during the
cooldown and after it. -/
def tickedRun : List RoutingStep :=
  limitBound ++
    [.maintain 70 beforeTick.balancer.pendingUpdates beforeTick.balancer.pendingAffinities,
      .select 80 "owner" false (some "k") none, .maintainFailed 210,
      .select 220 "owner" false none (some "q")]

/-- The statement at this run. -/
theorem ticks_invisible_tickedRun :
    paired.reloaded.outcomes usageLimitEnvironment (tickedRun.filter fun op => !isTick op) =
      [some "p", some "q", some "p"] := by
  have hrun : Transition.run (route usageLimitEnvironment) paired.reloaded tickedRun =
      some (Transition.after (route usageLimitEnvironment) paired.reloaded tickedRun) :=
    Transition.run_eq_some_after (by decide)
  rw [(ticks_invisible hrun).2.1]
  decide

end Node

end OpenAiLb
