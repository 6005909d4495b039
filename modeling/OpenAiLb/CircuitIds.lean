import OpenAiLb.MaintenancePhases

/-!
# Circuit ids and the uniqueness of circuit events

The flush inserts a circuit event under the id that the pending entry carries. The
insert aborts the whole transaction when the id is taken and no event of the provider
is open. Ids are issued once, so this needs an entry whose circuit was written before;
`merge` leaves one behind when a response without a status reaches a written entry
before maintenance compares it. The invariant says that in every other run a circuit
that is pending and written stands in an entry that maintenance will remove.
-/

namespace OpenAiLb

/-- The id of the circuit that an update carries. -/
def ProviderUpdate.circuitId (update : ProviderUpdate) : Option String :=
  update.circuit.map CircuitOpen.id

/-- The id of the circuit that is pending for a provider. -/
def pendingCircuitId (updates : AList fun _ : String => ProviderUpdate) (id : String) :
    Option String :=
  (updates.lookup id).bind ProviderUpdate.circuitId

namespace Database

section Keys

variable {db db' : Database} {id : String} {update : ProviderUpdate}

/-- One turn of the flush loop adds at most the id of its own circuit. -/
theorem keys_of_flushUpdate (h : db.flushUpdate id update = .ok db') {key : String}
    (hkey : key ∈ db'.providerCircuitEvents.keys) :
    key ∈ db.providerCircuitEvents.keys ∨ update.circuitId = some key := by
  obtain ⟨mid, hmid, rfl⟩ := flushUpdate_eq_ok h
  rw [keys_events_updateProviders] at hkey
  cases hcircuit : update.circuit with
  | none =>
    rw [hcircuit] at hmid
    cases hmid
    exact .inl hkey
  | some circuit =>
    rw [hcircuit] at hmid
    obtain hsame | hmore := keys_of_insertCircuit hmid
    · exact .inl (hsame ▸ hkey)
    · rw [hmore, List.mem_append, List.mem_singleton] at hkey
      refine hkey.imp_right fun heq => ?_
      rw [ProviderUpdate.circuitId, hcircuit, heq]
      rfl

/-- The flush adds circuit events with the ids of its entries only. -/
theorem keys_of_flushUpdates {updates : List (String × ProviderUpdate)}
    (h : db.flushUpdates updates = .ok db') {key : String}
    (hkey : key ∈ db'.providerCircuitEvents.keys) :
    key ∈ db.providerCircuitEvents.keys ∨
      ∃ entry ∈ updates, entry.2.circuitId = some key := by
  induction updates generalizing db with
  | nil =>
    cases h
    exact .inl hkey
  | cons entry rest ih =>
    obtain ⟨mid, hmid, hrest⟩ := flushUpdates_cons_eq_ok h
    obtain hbefore | ⟨other, hmem, hother⟩ := ih hrest
    · exact (keys_of_flushUpdate hmid hbefore).imp_right
        fun heq => ⟨entry, List.mem_cons_self, heq⟩
    · exact .inr ⟨other, List.mem_cons_of_mem _ hmem, hother⟩

/-- The transaction adds at most the ids of the circuits it writes. -/
theorem keys_of_maintainTransaction {now : Int} {updates : List (String × ProviderUpdate)}
    {affinities : List (String × AffinityEntry)}
    {persisted : List (String × AffinityEntry × Bool)}
    (h : db.maintainTransaction now updates affinities = .ok (db', persisted)) {key : String}
    (hkey : key ∈ db'.providerCircuitEvents.keys) :
    key ∈ db.providerCircuitEvents.keys ∨
      ∃ entry ∈ updates, entry.2.circuitId = some key := by
  obtain ⟨mid, hmid, rfl, -⟩ := maintainTransaction_eq_ok h
  change key ∈ ((mid.persistAffinities affinities).1.recoverExpired now).providerCircuitEvents.keys
    at hkey
  rw [recoverExpired, keys_events_updateProviders, (frame_persistAffinities mid affinities).2.1]
    at hkey
  exact keys_of_flushUpdates hmid hkey

/-- No statement of a handler adds a circuit event. -/
theorem keys_of_exec {stmt : Statement} {n : ℕ} (h : stmt.exec db = .ok (db', n)) {key : String}
    (hkey : key ∈ db'.providerCircuitEvents.keys) : key ∈ db.providerCircuitEvents.keys := by
  cases stmt with
  | createProvider =>
    simp only [Statement.exec] at h
    split at h
    · next hins =>
      cases h
      rwa [(frame_of_insertProvider hins).2.1] at hkey
    · cases h
  | deleteProvider gone =>
    cases h
    obtain ⟨event, hmem, rfl⟩ := Table.mem_keys.mp hkey
    exact Table.key_mem_keys (Table.mem_filter.mp hmem).1
  | createGrant => rwa [(frame_of_insertGrant h).2.1] at hkey
  | deleteGrant =>
    cases h
    exact hkey
  | rename | setEnabled | refreshProvider | refreshIfNeeded | refreshFailed | replaceTokens =>
    cases h
    rwa [keys_events_updateProviders] at hkey

/-- **When the flush loop cannot abort**: no circuit id is taken, and two entries that carry the
same id are for the same provider. -/
theorem flushUpdates_ok {updates : List (String × ProviderUpdate)}
    (hnodup : (updates.map Prod.fst).Nodup)
    (hfree : ∀ entry ∈ updates, ∀ key, entry.2.circuitId = some key →
      key ∉ db.providerCircuitEvents.keys)
    (hdistinct : ∀ entry ∈ updates, ∀ other ∈ updates, ∀ key, entry.2.circuitId = some key →
      other.2.circuitId = some key → entry.1 = other.1) :
    ∃ db', db.flushUpdates updates = .ok db' := by
  induction updates generalizing db with
  | nil => exact ⟨db, rfl⟩
  | cons entry rest ih =>
    obtain ⟨id, update⟩ := entry
    rw [List.map_cons, List.nodup_cons] at hnodup
    obtain ⟨mid, hmid⟩ : ∃ mid, db.flushUpdate id update = .ok mid := by
      unfold flushUpdate
      split
      · exact ⟨_, rfl⟩
      · next error herror =>
        cases hcircuit : update.circuit with
        | none => simp [hcircuit] at herror
        | some circuit =>
          rw [hcircuit, Option.elim_some, insertCircuit_error_iff] at herror
          refine absurd herror.2.2.2 (hfree (id, update) List.mem_cons_self circuit.id ?_)
          simp [ProviderUpdate.circuitId, hcircuit]
    have hrestFree : ∀ entry ∈ rest, ∀ key, entry.2.circuitId = some key →
        key ∉ mid.providerCircuitEvents.keys := by
      intro other hmem key hother hkey
      obtain hbefore | hhead := keys_of_flushUpdate hmid hkey
      · exact hfree other (List.mem_cons_of_mem _ hmem) key hother hbefore
      · have heq : id = other.1 := hdistinct (id, update) List.mem_cons_self other
          (List.mem_cons_of_mem _ hmem) key hhead hother
        exact hnodup.1 (List.mem_map.mpr ⟨other, hmem, heq.symm⟩)
    obtain ⟨db', hrest⟩ := ih hnodup.2 hrestFree fun entry hmem other hmem' =>
      hdistinct entry (List.mem_cons_of_mem _ hmem) other (List.mem_cons_of_mem _ hmem')
    exact ⟨db', by simpa only [flushUpdates, hmid] using hrest⟩

end Keys

end Database

namespace PhasedNode

variable {serde : SerdeJson}

/-- What holds of the circuits that are pending while maintenance stands in a phase. Before the
transaction none is written, and a pending circuit that the copy carries stands in the copied entry;
after it, a pending circuit that is written stands in an entry still to be removed. -/
def PhaseFresh (db : Database) (pending : AList fun _ : String => ProviderUpdate)
    (issued : List String) : MaintenancePhase → Prop
  | .idle => ∀ id key, pendingCircuitId pending id = some key →
      key ∉ db.providerCircuitEvents.keys
  | .snapshotted _ updates _ =>
    (updates.map Prod.fst).Nodup ∧
      (∀ entry ∈ updates, ∀ key, entry.2.circuitId = some key →
        key ∈ issued ∧ key ∉ db.providerCircuitEvents.keys) ∧
      (∀ entry ∈ updates, ∀ other ∈ updates, ∀ key, entry.2.circuitId = some key →
        other.2.circuitId = some key → entry.1 = other.1) ∧
      ∀ id key, pendingCircuitId pending id = some key →
        key ∉ db.providerCircuitEvents.keys ∧
          ∀ entry ∈ updates, entry.2.circuitId = some key →
            entry.1 = id ∧ pending.lookup id = some entry.2
  | .cleaning _ remaining _ => ∀ id key, pendingCircuitId pending id = some key →
      key ∈ db.providerCircuitEvents.keys →
        ∃ update, pending.lookup id = some update ∧ (id, update) ∈ remaining
  | .compared _ removed remaining _ => ∀ id key, pendingCircuitId pending id = some key →
      key ∈ db.providerCircuitEvents.keys →
        id = removed ∨ ∃ update, pending.lookup id = some update ∧ (id, update) ∈ remaining

/-- **The invariant** on circuit ids. -/
structure FreshCircuits (s : PhasedNode) : Prop where
  written : ∀ key ∈ s.db.providerCircuitEvents.keys, key ∈ s.issued
  pending : ∀ id key, pendingCircuitId s.balancer.providerUpdates id = some key → key ∈ s.issued
  distinct : ∀ id other key, pendingCircuitId s.balancer.providerUpdates id = some key →
    pendingCircuitId s.balancer.providerUpdates other = some key → id = other
  phase : PhaseFresh s.db s.balancer.providerUpdates s.issued s.phase

/-- The step is no response without a status that merges into an entry whose circuit the running
maintenance has copied and not yet compared. -/
def sparesCopiedCircuit (serde : SerdeJson) (s : PhasedNode) : PhasedStep → Bool
  | .trackResponse now providerId circuitId status body =>
    (OpenAiLb.trackResponse serde now circuitId status body).status.isSome ||
      !s.phase.batch.any fun entry => entry.1 = providerId && entry.2.circuitId.isSome &&
        entry.2.circuitId = pendingCircuitId s.balancer.providerUpdates providerId
  | _ => true

/-- No circuit id has been used at the start. -/
theorem Started.freshCircuits {s : PhasedNode} (h : s.Started) : s.FreshCircuits := by
  have hnone : ∀ id, pendingCircuitId s.balancer.providerUpdates id = none := by
    intro id
    rw [pendingCircuitId, h.pending id, Option.bind_none]
  refine ⟨h.issued, fun id key hkey => ?_, fun id other key hkey => ?_, ?_⟩
  · simp [hnone id] at hkey
  · simp [hnone id] at hkey
  · rw [h.phase]
    intro id key hkey
    simp [hnone id] at hkey

/-- A circuit that is pending after an observation is the new one, or it was pending before; and in
the latter case its entry is untouched, or the response carried no status. -/
theorem pendingCircuitId_observe {now : Int} {circuitId : String} {update : ProviderUpdate}
    (hobserved : Observed now circuitId update) {b : Balancer} {providerId id key : String}
    (hkey : pendingCircuitId (b.observe providerId update).providerUpdates id = some key) :
    (id = providerId ∧ key = circuitId) ∨
      (pendingCircuitId b.providerUpdates id = some key ∧
        ((b.observe providerId update).providerUpdates.lookup id = b.providerUpdates.lookup id ∨
          (id = providerId ∧ update.status = none))) := by
  by_cases heq : id = providerId
  · subst heq
    simp only [pendingCircuitId, Balancer.observe, Balancer.lookup_recordUpdate,
      Option.bind_some] at hkey ⊢
    cases hstatus : update.status with
    | none =>
      right
      cases hcurrent : b.providerUpdates.lookup id with
      | none =>
        have hcircuit : update.circuit = none := by
          cases hobserved with
          | statusless => rfl
          | authError => cases hstatus
          | usageLimit => cases hstatus
        simp [hcurrent, ProviderUpdate.circuitId, hcircuit] at hkey
      | some current =>
        obtain ⟨-, -, -, hcircuit⟩ := ProviderUpdate.merge_of_status_none (u := current) hstatus
        simp only [hcurrent, Option.elim_some, ProviderUpdate.circuitId, hcircuit] at hkey
        exact ⟨hkey, .inr ⟨trivial, rfl⟩⟩
    | some st =>
      left
      have hcircuit : update.circuitId = some key := by
        cases hcurrent : b.providerUpdates.lookup id with
        | none => simpa only [hcurrent, Option.elim_none] using hkey
        | some current =>
          obtain ⟨-, -, -, hmerged⟩ := ProviderUpdate.merge_of_status_some (u := current) hstatus
          simpa only [hcurrent, Option.elim_some, ProviderUpdate.circuitId, hmerged] using hkey
      cases hobserved with
      | statusless => cases hstatus
      | authError => cases hcircuit
      | usageLimit => exact ⟨trivial, (Option.some.inj hcircuit).symm⟩
  · have hsame := Balancer.lookup_recordUpdate_ne b.providerUpdates update heq
    right
    refine ⟨?_, .inl hsame⟩
    rw [← hkey, pendingCircuitId, pendingCircuitId]
    exact congrArg (Option.bind · _) hsame.symm

/-- Pending circuits that were pending before, in entries that did not change, stay fresh. -/
theorem FreshCircuits.of_subset {s t : PhasedNode} (h : s.FreshCircuits) (hdb : t.db = s.db)
    (hphase : t.phase = s.phase) (hissued : t.issued = s.issued)
    (hsubset : ∀ id key, pendingCircuitId t.balancer.providerUpdates id = some key →
      t.balancer.providerUpdates.lookup id = s.balancer.providerUpdates.lookup id) :
    t.FreshCircuits := by
  have hsame : ∀ id key, pendingCircuitId t.balancer.providerUpdates id = some key →
      pendingCircuitId s.balancer.providerUpdates id = some key := by
    intro id key hkey
    rw [← hkey, pendingCircuitId, pendingCircuitId, hsubset id key hkey]
  refine ⟨?_, ?_, ?_, ?_⟩
  · rw [hdb, hissued]
    exact h.written
  · intro id key hkey
    rw [hissued]
    exact h.pending id key (hsame id key hkey)
  · intro id other key hkey hother
    exact h.distinct id other key (hsame id key hkey) (hsame other key hother)
  · have hp := h.phase
    rw [hdb, hphase, hissued]
    cases hcase : s.phase with
    | idle =>
      rw [hcase] at hp
      exact fun id key hkey => hp id key (hsame id key hkey)
    | snapshotted now updates affinities =>
      rw [hcase] at hp
      refine ⟨hp.1, hp.2.1, hp.2.2.1, fun id key hkey => ?_⟩
      rw [hsubset id key hkey]
      exact hp.2.2.2 id key (hsame id key hkey)
    | cleaning now remaining persisted =>
      rw [hcase] at hp
      intro id key hkey
      rw [hsubset id key hkey]
      exact hp id key (hsame id key hkey)
    | compared now removed remaining persisted =>
      rw [hcase] at hp
      intro id key hkey
      rw [hsubset id key hkey]
      exact hp id key (hsame id key hkey)

/-- After an observation a circuit that is pending is the new one, or it was pending before, in an
entry that did not change or of which no copy is on the way. -/
theorem pendingCircuitId_trackResponse {s : PhasedNode} {now : Int} {providerId circuitId : String}
    {status : ℕ} {body : List UInt8}
    (hspares : s.sparesCopiedCircuit serde
      (.trackResponse now providerId circuitId status body) = true) {id key : String}
    (hkey : pendingCircuitId (s.balancer.observe providerId
      (trackResponse serde now circuitId status body)).providerUpdates id = some key) :
    (id = providerId ∧ key = circuitId) ∨
      (pendingCircuitId s.balancer.providerUpdates id = some key ∧
        ((s.balancer.observe providerId
              (trackResponse serde now circuitId status body)).providerUpdates.lookup id =
            s.balancer.providerUpdates.lookup id ∨
          ∀ entry ∈ s.phase.batch, entry.1 = id → entry.2.circuitId ≠ some key)) := by
  have hobserved := trackResponse_observed serde now circuitId status body
  simp only [sparesCopiedCircuit, Bool.or_eq_true] at hspares
  generalize trackResponse serde now circuitId status body = update at hobserved hspares hkey
  rcases pendingCircuitId_observe hobserved hkey with hnew | ⟨hold, hentry⟩
  · exact .inl hnew
  refine .inr ⟨hold, hentry.imp_right ?_⟩
  rintro ⟨rfl, hnone⟩ entry hmem hid hcopied
  obtain hstatus | hspares := hspares
  · simp [hnone] at hstatus
  · have hany : (s.phase.batch.any fun entry => entry.1 = id && entry.2.circuitId.isSome &&
        entry.2.circuitId = pendingCircuitId s.balancer.providerUpdates id) = true :=
      List.any_eq_true.mpr ⟨entry, hmem, by simp [hid, hcopied, hold]⟩
    simp [hany] at hspares

/-- **Observations** keep circuit ids fresh, unless one without a status merges into an entry whose
circuit the running maintenance has copied. -/
theorem freshCircuits_trackResponse {s t : PhasedNode} {now : Int} {providerId circuitId : String}
    {status : ℕ} {body : List UInt8} (h : s.FreshCircuits)
    (hspares : s.sparesCopiedCircuit serde
      (.trackResponse now providerId circuitId status body) = true)
    (hstep : s.step serde (.trackResponse now providerId circuitId status body) = some t) :
    t.FreshCircuits := by
  simp only [step, Option.ite_none_right_eq_some, Option.some.injEq] at hstep
  obtain ⟨⟨-, hnew⟩, rfl⟩ := hstep
  have hkeep := fun id key => @pendingCircuitId_trackResponse serde s now providerId circuitId
    status body hspares id key
  generalize OpenAiLb.trackResponse serde now circuitId status body = update at hkeep ⊢
  -- An entry whose circuit a copy has did not change.
  have hcopied : ∀ id key found,
      (s.balancer.observe providerId update).providerUpdates.lookup id =
          s.balancer.providerUpdates.lookup id ∨
        (∀ entry ∈ s.phase.batch, entry.1 = id → entry.2.circuitId ≠ some key) →
      pendingCircuitId s.balancer.providerUpdates id = some key →
      s.balancer.providerUpdates.lookup id = some found → (id, found) ∈ s.phase.batch →
      (s.balancer.observe providerId update).providerUpdates.lookup id = some found := by
    intro id key found hentry hold hlookup hmem
    obtain hsame | hnot := hentry
    · exact hsame.trans hlookup
    · refine absurd ?_ (hnot (id, found) hmem rfl)
      rwa [pendingCircuitId, hlookup, Option.bind_some] at hold
  refine ⟨fun key hkey => List.mem_cons_of_mem _ (h.written key hkey), ?_, ?_, ?_⟩
  · intro id key hkey
    obtain ⟨-, rfl⟩ | ⟨hold, -⟩ := hkeep id key hkey
    · exact List.mem_cons_self
    · exact List.mem_cons_of_mem _ (h.pending id key hold)
  · intro id other key hkey hother
    obtain ⟨rfl, rfl⟩ | ⟨hold, -⟩ := hkeep id key hkey <;>
      obtain ⟨rfl, heq⟩ | ⟨hold', -⟩ := hkeep other key hother
    · rfl
    · exact absurd (h.pending other key hold') hnew
    · exact absurd (h.pending id key hold) (heq ▸ hnew)
    · exact h.distinct id other key hold hold'
  · have hfresh : circuitId ∉ s.db.providerCircuitEvents.keys :=
      fun hmem => hnew (h.written circuitId hmem)
    have hp := h.phase
    cases hcase : s.phase with
    | idle =>
      rw [hcase] at hp
      intro id key hkey
      obtain ⟨-, rfl⟩ | ⟨hold, -⟩ := hkeep id key hkey
      · exact hfresh
      · exact hp id key hold
    | snapshotted copied updates affinities =>
      rw [hcase] at hp hkeep
      obtain ⟨hnodup, hissued, hdistinct, hpending⟩ := hp
      refine ⟨hnodup, fun entry hmem key hkey => ?_, hdistinct, fun id key hkey => ?_⟩
      · obtain ⟨hissued, hfree⟩ := hissued entry hmem key hkey
        exact ⟨List.mem_cons_of_mem _ hissued, hfree⟩
      · obtain ⟨-, rfl⟩ | ⟨hold, hentry⟩ := hkeep id key hkey
        · exact ⟨hfresh, fun entry hmem hcircuit =>
            absurd (hissued entry hmem key hcircuit).1 hnew⟩
        · obtain ⟨hfree, hcopy⟩ := hpending id key hold
          refine ⟨hfree, fun entry hmem hcircuit => ?_⟩
          obtain ⟨hid, hlookup⟩ := hcopy entry hmem hcircuit
          obtain hsame | hnot := hentry
          · exact ⟨hid, hsame.trans hlookup⟩
          · exact absurd hcircuit (hnot entry hmem hid)
    | cleaning written remaining persisted =>
      rw [hcase] at hp hkeep hcopied
      intro id key hkey hwritten
      obtain ⟨-, rfl⟩ | ⟨hold, hentry⟩ := hkeep id key hkey
      · exact absurd hwritten hfresh
      · obtain ⟨found, hlookup, hmem⟩ := hp id key hold hwritten
        exact ⟨found, hcopied id key found hentry hold hlookup hmem, hmem⟩
    | compared written removed remaining persisted =>
      rw [hcase] at hp hkeep hcopied
      intro id key hkey hwritten
      obtain ⟨-, rfl⟩ | ⟨hold, hentry⟩ := hkeep id key hkey
      · exact absurd hwritten hfresh
      · rcases hp id key hold hwritten with hpersisted | ⟨found, hlookup, hmem⟩
        · exact .inl hpersisted
        · exact .inr ⟨found, hcopied id key found hentry hold hlookup hmem, hmem⟩

/-- A database change that adds no circuit event keeps circuit ids fresh. -/
theorem FreshCircuits.of_keys_subset {s : PhasedNode} {db : Database} (h : s.FreshCircuits)
    (hkeys : ∀ key ∈ db.providerCircuitEvents.keys, key ∈ s.db.providerCircuitEvents.keys) :
    FreshCircuits { s with db := db } := by
  refine ⟨fun key hkey => h.written key (hkeys key hkey), h.pending, h.distinct, ?_⟩
  have hp := h.phase
  cases hcase : s.phase with
  | idle =>
    rw [hcase] at hp
    exact fun id key hkey hmem => hp id key hkey (hkeys key hmem)
  | snapshotted now updates affinities =>
    rw [hcase] at hp
    obtain ⟨hnodup, hcopied, hdistinct, hpending⟩ := hp
    refine ⟨hnodup, fun entry hmem key hkey => ?_, hdistinct, fun id key hkey => ?_⟩
    · obtain ⟨hissued, hfree⟩ := hcopied entry hmem key hkey
      exact ⟨hissued, fun hmem => hfree (hkeys key hmem)⟩
    · obtain ⟨hfree, hcopy⟩ := hpending id key hkey
      exact ⟨fun hmem => hfree (hkeys key hmem), hcopy⟩
  | cleaning now remaining persisted =>
    rw [hcase] at hp
    exact fun id key hkey hmem => hp id key hkey (hkeys key hmem)
  | compared now removed remaining persisted =>
    rw [hcase] at hp
    exact fun id key hkey hmem => hp id key hkey (hkeys key hmem)

/-- The copy that maintenance takes carries circuits that are not written. -/
theorem freshCircuits_snapshot {s t : PhasedNode} {now : Int}
    {updates : List (String × ProviderUpdate)} {affinities : List (String × AffinityEntry)}
    (h : s.FreshCircuits) (hstep : s.step serde (.snapshot now updates affinities) = some t) :
    t.FreshCircuits := by
  simp only [step] at hstep
  split at hstep
  · next hidle =>
    simp only [Option.ite_none_right_eq_some, Option.some.injEq] at hstep
    obtain ⟨⟨-, hperm, -⟩, rfl⟩ := hstep
    have hp := h.phase
    rw [hidle] at hp
    have hlookup : ∀ entry ∈ updates,
        s.balancer.providerUpdates.lookup entry.1 = some entry.2 :=
      fun entry hmem => Assoc.mem_pairs.mp (hperm.mem_iff.mp hmem)
    have hcircuit : ∀ entry ∈ updates, ∀ key, entry.2.circuitId = some key →
        pendingCircuitId s.balancer.providerUpdates entry.1 = some key := by
      intro entry hmem key hkey
      rw [pendingCircuitId, hlookup entry hmem, Option.bind_some, hkey]
    refine ⟨h.written, h.pending, h.distinct, Balancer.nodup_of_perm_pendingUpdates hperm, ?_, ?_,
      fun id key hkey => ⟨hp id key hkey, fun entry hmem hcopied => ?_⟩⟩
    · intro entry hmem key hkey
      exact ⟨h.pending entry.1 key (hcircuit entry hmem key hkey),
        hp entry.1 key (hcircuit entry hmem key hkey)⟩
    · intro entry hmem other hother key hkey hkey'
      exact h.distinct entry.1 other.1 key (hcircuit entry hmem key hkey)
        (hcircuit other hother key hkey')
    · obtain rfl : entry.1 = id :=
        h.distinct entry.1 id key (hcircuit entry hmem key hcopied) hkey
      exact ⟨rfl, hlookup entry hmem⟩
  · cases hstep

/-- The transaction writes circuits of entries that are still to be removed. -/
theorem freshCircuits_transaction {s t : PhasedNode} (h : s.FreshCircuits)
    (hstep : s.step serde .transaction = some t) : t.FreshCircuits := by
  simp only [step] at hstep
  split at hstep
  · next now updates affinities hsnapshotted =>
    have hp := h.phase
    rw [hsnapshotted] at hp
    obtain ⟨-, hcopied, -, hpending⟩ := hp
    split at hstep
    · next db persisted hcommit =>
      cases hstep
      refine ⟨fun key hkey => ?_, h.pending, h.distinct, fun id key hkey hwritten => ?_⟩
      · obtain hbefore | ⟨entry, hmem, hcircuit⟩ :=
          Database.keys_of_maintainTransaction hcommit hkey
        · exact h.written key hbefore
        · exact (hcopied entry hmem key hcircuit).1
      · obtain ⟨hfree, hcopy⟩ := hpending id key hkey
        obtain hbefore | ⟨entry, hmem, hcircuit⟩ :=
          Database.keys_of_maintainTransaction hcommit hwritten
        · exact absurd hbefore hfree
        · obtain ⟨rfl, hlookup⟩ := hcopy entry hmem hcircuit
          exact ⟨entry.2, hlookup, hmem⟩
    · cases hstep
      exact ⟨h.written, h.pending, h.distinct, fun id key hkey => (hpending id key hkey).1⟩
  · cases hstep

/-- The comparison passes over entries that changed; their circuits are not written. -/
theorem freshCircuits_compare {s t : PhasedNode} (h : s.FreshCircuits)
    (hstep : s.step serde .compare = some t) : t.FreshCircuits := by
  simp only [step] at hstep
  split at hstep
  · next now id update remaining persisted hcleaning =>
    cases hstep
    have hp := h.phase
    rw [hcleaning] at hp
    refine ⟨h.written, h.pending, h.distinct, ?_⟩
    dsimp only
    split
    · intro other key hkey hwritten
      obtain ⟨found, hlookup, hmem⟩ := hp other key hkey hwritten
      obtain heq | hmem := List.mem_cons.mp hmem
      · exact .inl (congrArg Prod.fst heq)
      · exact .inr ⟨found, hlookup, hmem⟩
    · next hchanged =>
      intro other key hkey hwritten
      obtain ⟨found, hlookup, hmem⟩ := hp other key hkey hwritten
      obtain heq | hmem := List.mem_cons.mp hmem
      · cases heq
        exact absurd hlookup hchanged
      · exact ⟨found, hlookup, hmem⟩
  · cases hstep

/-- The removal drops the entry that was compared. -/
theorem freshCircuits_remove {s t : PhasedNode} (h : s.FreshCircuits)
    (hstep : s.step serde .remove = some t) : t.FreshCircuits := by
  simp only [step] at hstep
  split at hstep
  · next now removed remaining persisted hcompared =>
    cases hstep
    have hp := h.phase
    rw [hcompared] at hp
    have herase : ∀ id key,
        pendingCircuitId (s.balancer.providerUpdates.erase removed) id = some key →
        id ≠ removed ∧ pendingCircuitId s.balancer.providerUpdates id = some key := by
      intro id key hkey
      have hne : id ≠ removed := by
        rintro rfl
        simp [pendingCircuitId] at hkey
      refine ⟨hne, ?_⟩
      rwa [pendingCircuitId, AList.lookup_erase_ne hne] at hkey
    refine ⟨h.written, fun id key hkey => h.pending id key (herase id key hkey).2,
      fun id other key hkey hother =>
        h.distinct id other key (herase id key hkey).2 (herase other key hother).2,
      fun id key hkey hwritten => ?_⟩
    obtain ⟨hne, hold⟩ := herase id key hkey
    obtain heq | ⟨update, hlookup, hmem⟩ := hp id key hold hwritten
    · exact absurd heq hne
    · exact ⟨update, (AList.lookup_erase_ne hne).trans hlookup, hmem⟩
  · cases hstep

/-- **Step lemma**: every step keeps circuit ids fresh, unless a response without a status merges
into an entry whose circuit the running maintenance has copied and not yet compared. -/
theorem freshCircuits_step {s t : PhasedNode} {step : PhasedStep} (h : s.FreshCircuits)
    (hspares : s.sparesCopiedCircuit serde step = true) (hstep : s.step serde step = some t) :
    t.FreshCircuits := by
  cases step with
  | trackResponse => exact freshCircuits_trackResponse h hspares hstep
  | snapshot => exact freshCircuits_snapshot h hstep
  | transaction => exact freshCircuits_transaction h hstep
  | compare => exact freshCircuits_compare h hstep
  | remove => exact freshCircuits_remove h hstep
  | execute stmt =>
    simp only [PhasedNode.step] at hstep
    split at hstep
    · next hexec =>
      cases hstep
      exact h.of_keys_subset fun key hkey => Database.keys_of_exec hexec hkey
    · cases hstep
      exact h
  | forgetProvider providerId =>
    cases hstep
    refine h.of_subset rfl rfl rfl fun id key hkey => ?_
    have hne : id ≠ providerId := by
      rintro rfl
      simp [pendingCircuitId, Balancer.forgetProvider] at hkey
    exact AList.lookup_erase_ne hne
  | unavailable =>
    simp only [PhasedNode.step] at hstep
    split at hstep
    · next hsnapshotted =>
      cases hstep
      have hp := h.phase
      rw [hsnapshotted] at hp
      exact ⟨h.written, h.pending, h.distinct, fun id key hkey => (hp.2.2.2 id key hkey).1⟩
    · cases hstep
  | finish =>
    simp only [PhasedNode.step] at hstep
    split at hstep
    · next hcleaning =>
      cases hstep
      have hp := h.phase
      rw [hcleaning] at hp
      have hidle : PhaseFresh s.db s.balancer.providerUpdates s.issued .idle := by
        intro id key hkey hwritten
        obtain ⟨update, -, hmem⟩ := hp id key hkey hwritten
        cases hmem
      refine ⟨h.written, ?_, ?_, ?_⟩ <;> rw [providerUpdates_finish]
      · exact h.pending
      · exact h.distinct
      · exact hidle
    · cases hstep

/-- The next maintenance transaction commits: the one that was begun, or the one of a maintenance
run that begins now, whatever the order of its entries. -/
def NextTransactionCommits (s : PhasedNode) : Prop :=
  match s.phase with
  | .idle => ∀ now updates affinities, updates.Perm s.balancer.pendingUpdates →
      (s.db.maintainTransaction now updates affinities).isOk = true
  | .snapshotted now updates affinities =>
    (s.db.maintainTransaction now updates affinities).isOk = true
  | _ => True

/-- A transaction whose updates can be written commits. -/
theorem isOk_maintainTransaction {db mid : Database} {now : Int}
    {updates : List (String × ProviderUpdate)} {affinities : List (String × AffinityEntry)}
    (h : db.flushUpdates updates = .ok mid) :
    (db.maintainTransaction now updates affinities).isOk = true := by
  simp [Database.maintainTransaction, h, Except.isOk, Except.toBool]

/-- With circuit ids that are fresh the next transaction commits. -/
theorem FreshCircuits.nextTransactionCommits {s : PhasedNode} (h : s.FreshCircuits) :
    s.NextTransactionCommits := by
  have hp := h.phase
  unfold NextTransactionCommits
  split
  · next hidle =>
    intro now updates affinities hperm
    rw [hidle] at hp
    have hcircuit : ∀ entry ∈ updates, ∀ key, entry.2.circuitId = some key →
        pendingCircuitId s.balancer.providerUpdates entry.1 = some key := by
      intro entry hmem key hkey
      rw [pendingCircuitId, Assoc.mem_pairs.mp (hperm.mem_iff.mp hmem), Option.bind_some, hkey]
    obtain ⟨mid, hmid⟩ := Database.flushUpdates_ok (Balancer.nodup_of_perm_pendingUpdates hperm)
      (fun entry hmem key hkey => hp entry.1 key (hcircuit entry hmem key hkey))
      (fun entry hmem other hother key hkey hkey' => h.distinct entry.1 other.1 key
        (hcircuit entry hmem key hkey) (hcircuit other hother key hkey'))
    exact isOk_maintainTransaction hmid
  · next hsnapshotted =>
    rw [hsnapshotted] at hp
    obtain ⟨hnodup, hcopied, hdistinct, -⟩ := hp
    obtain ⟨mid, hmid⟩ := Database.flushUpdates_ok hnodup
      (fun entry hmem key hkey => (hcopied entry hmem key hkey).2) hdistinct
    exact isOk_maintainTransaction hmid
  · trivial

/-- **The maintenance transaction never aborts** in a run in which no response without a status
merges into an entry whose circuit maintenance has copied and not yet compared. -/
theorem maintenance_never_aborts {s t : PhasedNode} {steps : List PhasedStep}
    (hstarted : s.Started)
    (hspares : Transition.Guarded (step serde)
      (fun s step => s.sparesCopiedCircuit serde step = true) s steps)
    (hrun : s.run serde steps = some t) : t.NextTransactionCommits := by
  have hinv : t.FreshCircuits :=
    Transition.invariant_of_guarded (fun h hok hstep => freshCircuits_step h hok hstep) hspares hrun
      hstarted.freshCircuits
  exact hinv.nextTransactionCommits

/-- A usage-limit response is written by one maintenance run, and a response without a status comes
after its comparison. -/
def writtenCircuitSteps : List PhasedStep :=
  [.trackResponse 100 "p" "c" 429 (usageLimitBody 200),
    .snapshot 101 [("p", OpenAiLb.trackResponse (usageLimitSerde [200]) 100 "c" 429
      (usageLimitBody 200))] [],
    .transaction, .compare, .remove, .trackResponse 102 "p" "d" 200 [], .finish,
    .execute (.setEnabled "p" true 103)]

/-- The statement at a run in which circuits were opened and written. -/
theorem maintenance_commits_after_writtenCircuitSteps :
    (loaded.after (usageLimitSerde [200]) writtenCircuitSteps).NextTransactionCommits :=
  maintenance_never_aborts loaded_started (by decide) (Transition.run_eq_some_after (by decide))

/-- The same responses, with the second one before the comparison. -/
def keptCircuitSteps : List PhasedStep :=
  [.trackResponse 100 "p" "c" 429 (usageLimitBody 200),
    .snapshot 101 [("p", OpenAiLb.trackResponse (usageLimitSerde [200]) 100 "c" 429
      (usageLimitBody 200))] [],
    .transaction, .trackResponse 102 "p" "d" 200 [], .compare, .finish,
    .execute (.setEnabled "p" true 103)]

/-- The merged entry keeps the circuit that was written. Once the operator has enabled the
provider, which closes the event, the next transaction inserts the id again and aborts. -/
theorem kept_circuit_aborts_transaction :
    ∃ t, loaded.run (usageLimitSerde [200]) keptCircuitSteps = some t ∧ t.phase = .idle ∧
      ¬ t.NextTransactionCommits := by
  refine ⟨loaded.after (usageLimitSerde [200]) keptCircuitSteps, rfl, rfl, fun h => ?_⟩
  have hcommits := h 104 _ [] (List.Perm.refl _)
  revert hcommits
  decide

end PhasedNode

end OpenAiLb
