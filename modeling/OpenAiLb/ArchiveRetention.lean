import OpenAiLb.AuditWriter

/-!
# The hourly cleanup

The cleanup deletes the diagnostics that are older than the retention period. Wherever it comes
between the calls, the handlers and the writer, everything else happens as it would without it, and
only expired diagnostics are missing afterwards.
-/

namespace OpenAiLb

/-- The rows of one table are those of the other, but for rows from before one of the cutoffs. -/
structure TrimmedRows (cutoffs : List Int) (left kept : Table RequestArchive.apiCallId) : Prop where
  sub : ∀ archive ∈ left, archive ∈ kept
  expired : ∀ archive ∈ kept, archive ∈ left ∨ ∃ cutoff ∈ cutoffs, archive.createdAt < cutoff

namespace TrimmedRows

variable {cutoffs : List Int} {left kept : Table RequestArchive.apiCallId}

/-- Archives are a trimmed version of themselves. -/
theorem refl (kept : Table RequestArchive.apiCallId) : TrimmedRows [] kept kept :=
  ⟨fun _ h => h, fun _ h => .inl h⟩

/-- A deletion that both databases make keeps them alike. -/
theorem filter (h : TrimmedRows cutoffs left kept) (p : RequestArchive → Bool) :
    TrimmedRows cutoffs (left.filter p) (kept.filter p) := by
  constructor
  · intro archive harchive
    obtain ⟨hmem, hp⟩ := Table.mem_filter.mp harchive
    exact Table.mem_filter.mpr ⟨h.sub archive hmem, hp⟩
  · intro archive harchive
    obtain ⟨hmem, hp⟩ := Table.mem_filter.mp harchive
    exact (h.expired archive hmem).imp_left fun hleft => Table.mem_filter.mpr ⟨hleft, hp⟩

/-- A cleanup of the one table alone. -/
theorem cleanup (h : TrimmedRows cutoffs left kept) (cutoff : Int) :
    TrimmedRows (cutoffs ++ [cutoff]) (left.filter fun archive => cutoff ≤ archive.createdAt)
      kept := by
  constructor
  · exact fun archive harchive => h.sub archive (Table.mem_filter.mp harchive).1
  · intro archive harchive
    rcases h.expired archive harchive with hleft | ⟨earlier, hearlier, hlt⟩
    · by_cases hold : cutoff ≤ archive.createdAt
      · exact .inl (Table.mem_filter.mpr ⟨hleft, by simpa using hold⟩)
      · exact .inr ⟨cutoff, by simp, by omega⟩
    · exact .inr ⟨earlier, List.mem_append_left _ hearlier, hlt⟩

/-- An update of the rows that keeps their time. -/
theorem updateWhere (h : TrimmedRows cutoffs left kept) (p : RequestArchive → Bool)
    (f : RequestArchive → RequestArchive)
    (hf : ∀ archive, (f archive).apiCallId = archive.apiCallId)
    (htime : ∀ archive, (f archive).createdAt = archive.createdAt) :
    TrimmedRows cutoffs (left.updateWhere p f hf) (kept.updateWhere p f hf) := by
  constructor
  · intro archive harchive
    obtain ⟨old, hold, rfl⟩ := Table.mem_map.mp harchive
    exact Table.mem_map.mpr ⟨old, h.sub old hold, rfl⟩
  · intro archive harchive
    obtain ⟨old, hold, rfl⟩ := Table.mem_map.mp harchive
    rcases h.expired old hold with hleft | ⟨cutoff, hcutoff, hlt⟩
    · exact .inl (Table.mem_map.mpr ⟨old, hleft, rfl⟩)
    · refine .inr ⟨cutoff, hcutoff, ?_⟩
      split
      · rwa [htime]
      · exact hlt

/-- A new row in both tables. -/
theorem insert {left' kept' : Table RequestArchive.apiCallId} {archive : RequestArchive}
    (h : TrimmedRows cutoffs left kept) (hleft : left.insert? archive = some left')
    (hkept : kept.insert? archive = some kept') : TrimmedRows cutoffs left' kept' := by
  constructor
  · intro other hother
    rw [Table.mem_of_insert? hleft] at hother
    exact (Table.mem_of_insert? hkept).mpr (hother.imp_left (h.sub other))
  · intro other hother
    rw [Table.mem_of_insert? hkept] at hother
    rcases hother with hother | rfl
    · exact (h.expired other hother).imp_left fun hin => (Table.mem_of_insert? hleft).mpr (.inl hin)
    · exact .inl ((Table.mem_of_insert? hleft).mpr (.inr rfl))

end TrimmedRows

namespace AuditDatabase

/-- The database with other diagnostics. -/
def withArchives (db : AuditDatabase) (archives : Table RequestArchive.apiCallId)
    (h : ∀ archive ∈ archives, archive.apiCallId ∈ db.apiCalls.keys) : AuditDatabase :=
  { db with requestArchives := archives, archivesReference := h }

/-- The databases differ in their diagnostics alone, and there in rows from before one of the
cutoffs. -/
def Trimmed (cutoffs : List Int) (left kept : AuditDatabase) : Prop :=
  ∃ archives h, left = kept.withArchives archives h ∧
    TrimmedRows cutoffs archives kept.requestArchives

namespace Trimmed

variable {cutoffs : List Int} {left kept : AuditDatabase}

/-- A database is a trimmed version of itself. -/
theorem refl (db : AuditDatabase) : Trimmed [] db db :=
  ⟨db.requestArchives, db.archivesReference, rfl, .refl _⟩

/-- A cleanup in one of the databases is one more cutoff. -/
theorem cleanup (h : Trimmed cutoffs left kept) (cutoff : Int) :
    Trimmed (cutoffs ++ [cutoff]) (left.deleteExpired cutoff) kept := by
  obtain ⟨archives, hreference, rfl, htrimmed⟩ := h
  exact ⟨_, _, rfl, htrimmed.cleanup cutoff⟩

/-- Deleting a consumer keeps the databases alike. -/
theorem deleteConsumer (h : Trimmed cutoffs left kept) (id userId : String) :
    Trimmed cutoffs (left.deleteConsumer id userId) (kept.deleteConsumer id userId) := by
  obtain ⟨archives, hreference, rfl, htrimmed⟩ := h
  by_cases howner : (kept.consumers.find? id).any (fun row => row.userId = userId) = true
  · have hleft : ((kept.withArchives archives hreference).consumers.find? id).any
        (fun row => row.userId = userId) = true := howner
    unfold AuditDatabase.deleteConsumer
    rw [if_pos howner, if_pos hleft]
    exact ⟨_, _, rfl, htrimmed.filter _⟩
  · have hleft : ¬((kept.withArchives archives hreference).consumers.find? id).any
        (fun row => row.userId = userId) = true := howner
    unfold AuditDatabase.deleteConsumer
    rw [if_neg howner, if_neg hleft]
    exact ⟨archives, hreference, rfl, htrimmed⟩

/-- Every statement but the cleanup does the same. -/
theorem exec (h : Trimmed cutoffs left kept) (stmt : AuditStatement)
    (hstmt : ∀ cutoff, stmt ≠ .deleteExpired cutoff) :
    Trimmed cutoffs (stmt.exec left) (stmt.exec kept) := by
  cases stmt with
  | deleteConsumer id userId => exact h.deleteConsumer id userId
  | deleteExpired cutoff => exact absurd rfl (hstmt cutoff)
  | upsertUser id =>
    obtain ⟨archives, hreference, rfl, htrimmed⟩ := h
    exact ⟨archives, hreference, rfl, htrimmed⟩
  | insertProvider id =>
    obtain ⟨archives, hreference, rfl, htrimmed⟩ := h
    exact ⟨archives, hreference, rfl, htrimmed⟩
  | revokeConsumer id userId now =>
    obtain ⟨archives, hreference, rfl, htrimmed⟩ := h
    exact ⟨archives, hreference, rfl, htrimmed⟩
  | deleteProvider id =>
    obtain ⟨archives, hreference, rfl, htrimmed⟩ := h
    have hkeys : (kept.deleteProvider id).apiCalls.keys = kept.apiCalls.keys :=
      keys_deleteProvider kept id
    exact ⟨archives, fun archive harchive => hkeys.symm ▸ hreference archive harchive, rfl,
      htrimmed⟩

end Trimmed

/-- The same for the results of two statements: both fail, with one error, or neither does. -/
def TrimmedResult (cutoffs : List Int) :
    Except SqliteError AuditDatabase → Except SqliteError AuditDatabase → Prop
  | .ok left, .ok kept => Trimmed cutoffs left kept
  | .error error, .error error' => error = error'
  | _, _ => False

section Results

variable {cutoffs : List Int} {left kept : AuditDatabase}

/-- Two statements on databases that are alike fail with the same error, or both succeed and leave
databases that are alike. -/
theorem TrimmedResult.cases {x y : Except SqliteError AuditDatabase}
    (h : TrimmedResult cutoffs x y) : (∃ error, x = .error error ∧ y = .error error) ∨
      ∃ left kept, x = .ok left ∧ y = .ok kept ∧ Trimmed cutoffs left kept := by
  cases x with
  | error error =>
    cases y with
    | error error' => exact .inl ⟨error, rfl, congrArg Except.error h.symm⟩
    | ok kept => exact h.elim
  | ok left =>
    cases y with
    | error error => exact h.elim
    | ok kept => exact .inr ⟨left, kept, rfl, rfl, h⟩

/-- A consumer is created in both databases or in neither. -/
theorem Trimmed.insertConsumer (h : Trimmed cutoffs left kept) (row : Consumer) :
    TrimmedResult cutoffs (left.insertConsumer row) (kept.insertConsumer row) := by
  obtain ⟨archives, hreference, rfl, htrimmed⟩ := h
  generalize hkept : kept.insertConsumer row = result
  unfold AuditDatabase.insertConsumer at hkept ⊢
  split at hkept
  · next hins =>
    subst hkept
    split
    · rfl
    · next hleft => cases hins.symm.trans hleft
  · next consumers hins =>
    split at hkept
    · next hsecret =>
      subst hkept
      split
      · next hleft => cases hins.symm.trans hleft
      · rw [dif_pos (by exact hsecret)]
        rfl
    · next hsecret =>
      split at hkept
      · next huser =>
        subst hkept
        split
        · next hleft => cases hins.symm.trans hleft
        · next hleft =>
          obtain rfl := Option.some.inj (hins.symm.trans hleft)
          rw [dif_neg (by exact hsecret), dif_pos (by exact huser)]
          exact ⟨archives, hreference, rfl, htrimmed⟩
      · next huser =>
        subst hkept
        split
        · next hleft => cases hins.symm.trans hleft
        · rw [dif_neg (by exact hsecret), dif_neg (by exact huser)]
          rfl

/-- A call is inserted in both databases or in neither. -/
theorem Trimmed.insertCall (h : Trimmed cutoffs left kept) (event : AuditEvent) :
    TrimmedResult cutoffs (left.insertCall event) (kept.insertCall event) := by
  obtain ⟨archives, hreference, rfl, htrimmed⟩ := h
  generalize hkept : kept.insertCall event = result
  unfold AuditDatabase.insertCall at hkept ⊢
  split at hkept
  · next hins =>
    subst hkept
    split
    · rfl
    · next hleft => cases hins.symm.trans hleft
  · next calls hins =>
    split at hkept
    · next href =>
      subst hkept
      split
      · next hleft => cases hins.symm.trans hleft
      · next hleft =>
        obtain rfl := Option.some.inj (hins.symm.trans hleft)
        rw [dif_pos (by exact href)]
        refine ⟨archives, fun archive harchive => ?_, rfl, htrimmed⟩
        rw [Table.keys_of_insert? hins]
        exact List.mem_append_left _ (hreference archive harchive)
    · next href =>
      subst hkept
      split
      · next hleft => cases hins.symm.trans hleft
      · rw [dif_neg (by exact href)]
        rfl

/-- An inserted call is new, so that there are no diagnostics of it. -/
theorem no_archive_of_insertCall {db db' : AuditDatabase} {event : AuditEvent}
    (h : db.insertCall event = .ok db') :
    event.id ∉ db'.requestArchives.keys ∧ event.id ∈ db'.apiCalls.keys := by
  obtain ⟨-, -, -, harchives, hcalls⟩ := insertCall_eq_ok h
  have hnew : event.id ∉ db.apiCalls.keys := by
    have hnodup : (db.apiCalls.keys ++ [event.id]).Nodup := hcalls ▸ db'.apiCalls.nodup
    exact fun hmem => (List.disjoint_of_nodup_append hnodup) hmem (List.mem_singleton_self _)
  constructor
  · rw [harchives]
    intro hmem
    obtain ⟨archive, harchive, hkey⟩ := Table.mem_keys.mp hmem
    exact hnew (hkey ▸ db.archivesReference archive harchive)
  · rw [hcalls]
    exact List.mem_append_right _ (List.mem_singleton_self _)

/-- Diagnostics of a call that has none. -/
theorem insertArchive_eq {db : AuditDatabase} {archive : RequestArchive}
    (hfree : archive.apiCallId ∉ db.requestArchives.keys)
    (hcall : archive.apiCallId ∈ db.apiCalls.keys) :
    ∃ archives h, db.requestArchives.insert? archive = some archives ∧
      db.insertArchive archive = .ok (db.withArchives archives h) := by
  unfold insertArchive
  split
  · next hins => exact absurd (Table.insert?_eq_none_iff.mp hins) hfree
  · next archives hins =>
    rw [dif_pos hcall]
    refine ⟨archives, fun other hother => ?_, hins, rfl⟩
    rcases (Table.mem_of_insert? hins).mp hother with hother | rfl
    · exact db.archivesReference other hother
    · exact hcall

/-- A call with its diagnostics is inserted in both databases or in neither: the diagnostics cannot
be in the way, since they belong to an inserted call. -/
theorem Trimmed.insert (h : Trimmed cutoffs left kept) (event : AuditEvent) :
    TrimmedResult cutoffs (left.insert event) (kept.insert event) := by
  unfold AuditDatabase.insert
  rcases (h.insertCall event).cases with
    ⟨error, hleft, hkept⟩ | ⟨left', kept', hleft, hkept, hcall⟩
  · rw [hleft, hkept]
    rfl
  · rw [hleft, hkept]
    dsimp only
    split
    · have hfree := no_archive_of_insertCall hleft
      have hfree' := no_archive_of_insertCall hkept
      obtain ⟨archives, hreference, rfl, htrimmed⟩ := hcall
      obtain ⟨_, _, hins, hdone⟩ := @insertArchive_eq _ (archiveOf event) hfree.1 hfree.2
      obtain ⟨_, _, hins', hdone'⟩ := @insertArchive_eq _ (archiveOf event) hfree'.1 hfree'.2
      rw [hdone, hdone']
      exact ⟨_, _, rfl, htrimmed.insert hins hins'⟩
    · exact hcall

/-- Writing the transport of a call keeps the databases alike. -/
theorem Trimmed.setTransport (h : Trimmed cutoffs left kept) (id : String) (bytes : Int)
    (encoding : Option String) :
    Trimmed cutoffs (left.setTransport id bytes encoding)
      (kept.setTransport id bytes encoding) := by
  obtain ⟨archives, hreference, rfl, htrimmed⟩ := h
  refine ⟨archives, fun archive harchive => ?_, rfl, htrimmed⟩
  rw [keys_setTransport]
  exact hreference archive harchive

/-- Writing the response headers of a call keeps the databases alike. -/
theorem Trimmed.setDownstreamHeaders (h : Trimmed cutoffs left kept) (id headers : String) :
    Trimmed cutoffs (left.setDownstreamHeaders id headers)
      (kept.setDownstreamHeaders id headers) := by
  obtain ⟨archives, hreference, rfl, htrimmed⟩ := h
  exact ⟨_, _, rfl, htrimmed.updateWhere _ _ _ fun _ => rfl⟩

/-- One message of a batch. -/
theorem Trimmed.apply (h : Trimmed cutoffs left kept) (queued : QueuedAudit) :
    TrimmedResult cutoffs (left.apply queued) (kept.apply queued) := by
  cases queued with
  | event call => exact h.insert call
  | responseTransport id bytes encoding headers =>
    cases headers with
    | none => exact h.setTransport id bytes encoding
    | some headers => exact (h.setTransport id bytes encoding).setDownstreamHeaders id headers

/-- A batch. -/
theorem Trimmed.applyBatch (h : Trimmed cutoffs left kept) (batch : List QueuedAudit) :
    TrimmedResult cutoffs (left.applyBatch batch) (kept.applyBatch batch) := by
  induction batch generalizing left kept with
  | nil => exact h
  | cons queued rest ih =>
    unfold AuditDatabase.applyBatch
    rcases (h.apply queued).cases with
      ⟨error, hleft, hkept⟩ | ⟨left', kept', hleft, hkept, hfirst⟩
    · rw [hleft, hkept]
      rfl
    · rw [hleft, hkept]
      exact ih hfirst

/-- Writing when the consumers were last used keeps the databases alike. -/
theorem Trimmed.touchConsumers (h : Trimmed cutoffs left kept) (usedAt : Int)
    (ids : List String) :
    Trimmed cutoffs (ids.foldl (fun db id => db.touchConsumer usedAt id) left)
      (ids.foldl (fun db id => db.touchConsumer usedAt id) kept) := by
  induction ids generalizing left kept with
  | nil => exact h
  | cons id rest ih =>
    refine ih ?_
    obtain ⟨archives, hreference, rfl, htrimmed⟩ := h
    exact ⟨archives, hreference, rfl, htrimmed⟩

/-- **A transaction of the writer** commits with both databases or with neither. -/
theorem Trimmed.persist (h : Trimmed cutoffs left kept) (usedAt : Int)
    (batch : List QueuedAudit) :
    TrimmedResult cutoffs (left.persist usedAt batch) (kept.persist usedAt batch) := by
  unfold AuditDatabase.persist
  rcases (h.applyBatch batch).cases with
    ⟨error, hleft, hkept⟩ | ⟨left', kept', hleft, hkept, hbatch⟩
  · rw [hleft, hkept]
    rfl
  · rw [hleft, hkept]
    exact hbatch.touchConsumers usedAt (touchedKeys batch)

end Results

end AuditDatabase

/-- The cutoff of a cleanup. -/
def AuditStep.cutoff? : AuditStep → Option Int
  | .execute (.deleteExpired cutoff) => some cutoff
  | _ => none

/-- The step with a cutoff is the cleanup. -/
theorem AuditStep.eq_of_cutoff? {step : AuditStep} {cutoff : Int} (h : step.cutoff? = some cutoff) :
    step = .execute (.deleteExpired cutoff) := by
  unfold AuditStep.cutoff? at h
  split at h
  · obtain rfl := Option.some.inj h
    rfl
  · cases h

/-- The cutoffs of the cleanups of a run. -/
def cutoffs (steps : List AuditStep) : List Int := steps.filterMap AuditStep.cutoff?

/-- The run without its cleanups. -/
def withoutCleanups (steps : List AuditStep) : List AuditStep :=
  steps.filter fun step => step.cutoff?.isNone

namespace AuditNode

/-- The nodes differ in their diagnostics alone, and there in rows from before one of the
cutoffs. -/
structure Trimmed (cutoffs : List Int) (left kept : AuditNode) : Prop where
  db : AuditDatabase.Trimmed cutoffs left.db kept.db
  identities : left.identities = kept.identities
  trackers : left.trackers = kept.trackers
  queue : left.queue = kept.queue
  batch : left.batch = kept.batch
  writing : left.writing = kept.writing
  issued : left.issued = kept.issued

/-- Both refuse, or neither does and the results are related. -/
def TrimmedStep (cutoffs : List Int) : Option AuditNode → Option AuditNode → Prop
  | some left, some kept => Trimmed cutoffs left kept
  | none, none => True
  | _, _ => False

section Steps

variable {cutoffs : List Int} {left kept : AuditNode}

/-- **One step** but a cleanup does the same on both nodes. -/
theorem Trimmed.step (h : Trimmed cutoffs left kept) {step : AuditStep}
    (hstep : step.cutoff? = none) :
    TrimmedStep cutoffs (left.step step) (kept.step step) := by
  obtain ⟨db, identities, trackers, queue, batch, writing, issued⟩ := left
  obtain ⟨db', identities', trackers', queue', batch', writing', issued'⟩ := kept
  obtain ⟨hdb, hidentities, htrackers, hqueue, hbatch, hwriting, hissued⟩ := h
  dsimp only at hdb hidentities htrackers hqueue hbatch hwriting hissued
  subst hidentities htrackers hqueue hbatch hwriting hissued
  cases step with
  | execute stmt =>
    have hstmt : ∀ cutoff, stmt ≠ .deleteExpired cutoff := by
      rintro cutoff rfl
      cases hstep
    exact ⟨hdb.exec stmt hstmt, rfl, rfl, rfl, rfl, rfl, rfl⟩
  | createConsumer row =>
    unfold AuditNode.step
    dsimp only
    by_cases hissued : row.id ∈ issued
    · rw [if_pos hissued, if_pos hissued]
      trivial
    · rw [if_neg hissued, if_neg hissued]
      rcases (hdb.insertConsumer row).cases with
        ⟨error, hleft, hkept⟩ | ⟨db, db', hleft, hkept, hresult⟩
      · rw [hleft, hkept]
        exact ⟨hdb, rfl, rfl, rfl, rfl, rfl, rfl⟩
      · rw [hleft, hkept]
        exact ⟨hresult, rfl, rfl, rfl, rfl, rfl, rfl⟩
  | authenticate secretHash =>
    have hidentity : db.apiIdentity secretHash = db'.apiIdentity secretHash := by
      obtain ⟨archives, hreference, rfl, -⟩ := hdb
      rfl
    unfold AuditNode.step
    dsimp only
    rw [hidentity]
    cases db'.apiIdentity secretHash with
    | none => trivial
    | some identity => exact ⟨hdb, rfl, rfl, rfl, rfl, rfl, rfl⟩
  | begin i call archiveBudget =>
    unfold AuditNode.step
    dsimp only
    cases identities[i]? with
    | none => trivial
    | some identity =>
      rw [Option.bind_some, Option.bind_some]
      by_cases hissued : call.eventId ∈ issued
      · rw [if_pos hissued, if_pos hissued]
        trivial
      · rw [if_neg hissued, if_neg hissued]
        by_cases hplace : queue.length + trackers.length < queueCapacity
        · rw [if_pos (by exact hplace), if_pos (by exact hplace)]
          exact ⟨hdb, rfl, rfl, rfl, rfl, rfl, rfl⟩
        · rw [if_neg (by exact hplace), if_neg (by exact hplace)]
          exact ⟨hdb, rfl, rfl, rfl, rfl, rfl, rfl⟩
  | send i event =>
    unfold AuditNode.step
    dsimp only
    cases trackers[i]? with
    | none => trivial
    | some begun =>
      rw [Option.bind_some, Option.bind_some]
      by_cases hsame : begun.SameCall event
      · rw [if_pos hsame, if_pos hsame]
        exact ⟨hdb, rfl, rfl, rfl, rfl, rfl, rfl⟩
      · rw [if_neg hsame, if_neg hsame]
        trivial
  | recordResponseTransport id bytes encoding headers =>
    unfold AuditNode.step
    dsimp only
    by_cases hplace : queue.length + trackers.length < queueCapacity
    · rw [if_pos (by exact hplace), if_pos (by exact hplace)]
      exact ⟨hdb, rfl, rfl, rfl, rfl, rfl, rfl⟩
    · rw [if_neg (by exact hplace), if_neg (by exact hplace)]
      exact ⟨hdb, rfl, rfl, rfl, rfl, rfl, rfl⟩
  | receive =>
    unfold AuditNode.step
    dsimp only
    cases queue with
    | nil => trivial
    | cons queued rest =>
      dsimp only
      by_cases hroom : writing = false ∧ batch.length < batchCapacity
      · rw [if_pos hroom, if_pos hroom]
        exact ⟨hdb, rfl, rfl, rfl, rfl, rfl, rfl⟩
      · rw [if_neg hroom, if_neg hroom]
        trivial
  | stopReceiving =>
    unfold AuditNode.step
    dsimp only
    by_cases hstop : writing = false ∧ batch ≠ [] ∧ (queue = [] ∨ batch.length = batchCapacity)
    · rw [if_pos hstop, if_pos hstop]
      exact ⟨hdb, rfl, rfl, rfl, rfl, rfl, rfl⟩
    · rw [if_neg hstop, if_neg hstop]
      trivial
  | persist usedAt =>
    unfold AuditNode.step
    dsimp only
    cases writing with
    | false => trivial
    | true =>
      rw [if_pos rfl, if_pos rfl]
      rcases (hdb.persist usedAt batch).cases with
        ⟨error, hleft, hkept⟩ | ⟨db, db', hleft, hkept, hresult⟩
      · rw [hleft, hkept]
        exact ⟨hdb, rfl, rfl, rfl, rfl, rfl, rfl⟩
      · rw [hleft, hkept]
        exact ⟨hresult, rfl, rfl, rfl, rfl, rfl, rfl⟩
  | persistUnavailable =>
    unfold AuditNode.step
    dsimp only
    cases writing with
    | false => trivial
    | true => exact ⟨hdb, rfl, rfl, rfl, rfl, rfl, rfl⟩

/-- **A cleanup** leaves the other node as it is. -/
theorem Trimmed.cleanup (h : Trimmed cutoffs left kept) {step : AuditStep} {cutoff : Int}
    (hstep : step.cutoff? = some cutoff) :
    ∃ cleaned, left.step step = some cleaned ∧ Trimmed (cutoffs ++ [cutoff]) cleaned kept := by
  obtain rfl := AuditStep.eq_of_cutoff? hstep
  exact ⟨_, rfl, h.db.cleanup cutoff, h.identities, h.trackers, h.queue, h.batch, h.writing,
    h.issued⟩

/-- A run, and the same run without its cleanups. -/
theorem Trimmed.run (h : Trimmed cutoffs left kept) (steps : List AuditStep) :
    TrimmedStep (cutoffs ++ OpenAiLb.cutoffs steps) (left.run steps)
      (kept.run (withoutCleanups steps)) := by
  induction steps generalizing cutoffs left kept with
  | nil =>
    rw [OpenAiLb.cutoffs, List.filterMap_nil, List.append_nil]
    exact h
  | cons step rest ih =>
    cases hstep : step.cutoff? with
    | some cutoff =>
      obtain ⟨cleaned, hcleaned, hnext⟩ := h.cleanup hstep
      have hrest := ih hnext
      rw [List.append_assoc] at hrest
      unfold run withoutCleanups OpenAiLb.cutoffs at hrest ⊢
      rw [Transition.run_cons, hcleaned, Option.bind_some, List.filterMap_cons_some hstep,
        List.filter_cons_of_neg (by simp [hstep])]
      exact hrest
    | none =>
      have hfirst := h.step hstep
      unfold run withoutCleanups OpenAiLb.cutoffs
      rw [List.filterMap_cons_none hstep, List.filter_cons_of_pos (by simp [hstep]),
        Transition.run_cons, Transition.run_cons]
      cases hleft : left.step step with
      | none =>
        cases hkept : kept.step step with
        | none => trivial
        | some kept' =>
          rw [hleft, hkept] at hfirst
          exact hfirst.elim
      | some left' =>
        cases hkept : kept.step step with
        | none =>
          rw [hleft, hkept] at hfirst
          exact hfirst.elim
        | some kept' =>
          rw [hleft, hkept] at hfirst
          exact ih hfirst

end Steps

/-- **The cleanup removes expired diagnostics and does nothing else.** A run of the calls, the
handlers, the writer and the cleanup is possible exactly when the same run without the cleanups is.
Then both end with the same users, providers, consumers and calls, the same queue and the same calls
in flight; no diagnostics are there that would not be there without the cleanups, and those that are
missing are from before the cutoff of one of the cleanups. -/
theorem cleanup_removes_only_expired (start : AuditNode) (steps : List AuditStep) :
    ((start.run steps).isSome = (start.run (withoutCleanups steps)).isSome) ∧
      ∀ cleaned kept, start.run steps = some cleaned →
        start.run (withoutCleanups steps) = some kept →
        (∃ archives h, cleaned = { kept with db := kept.db.withArchives archives h }) ∧
          (∀ archive ∈ cleaned.db.requestArchives, archive ∈ kept.db.requestArchives) ∧
          ∀ archive ∈ kept.db.requestArchives, archive ∉ cleaned.db.requestArchives →
            ∃ cutoff, .execute (.deleteExpired cutoff) ∈ steps ∧ archive.createdAt < cutoff := by
  have hstart : Trimmed [] start start := ⟨.refl _, rfl, rfl, rfl, rfl, rfl, rfl⟩
  have hrun := hstart.run steps
  constructor
  · cases hcleaned : start.run steps with
    | none =>
      cases hkept : start.run (withoutCleanups steps) with
      | none => rfl
      | some kept =>
        rw [hcleaned, hkept] at hrun
        exact hrun.elim
    | some cleaned =>
      cases hkept : start.run (withoutCleanups steps) with
      | none =>
        rw [hcleaned, hkept] at hrun
        exact hrun.elim
      | some kept => rfl
  · intro cleaned kept hcleaned hkept
    rw [hcleaned, hkept] at hrun
    obtain ⟨archives, hreference, hdb, htrimmed⟩ := hrun.db
    refine ⟨⟨archives, hreference, ?_⟩, ?_, ?_⟩
    · obtain ⟨-, hidentities, htrackers, hqueue, hbatch, hwriting, hissued⟩ := hrun
      cases cleaned
      dsimp only at hdb hidentities htrackers hqueue hbatch hwriting hissued
      rw [hdb, hidentities, htrackers, hqueue, hbatch, hwriting, hissued]
    · rw [hdb]
      exact htrimmed.sub
    · intro archive harchive hmissing
      rcases htrimmed.expired archive harchive with hleft | ⟨cutoff, hcutoff, hlt⟩
      · rw [hdb] at hmissing
        exact absurd hleft hmissing
      · obtain ⟨step, hstep, hvalue⟩ := List.mem_filterMap.mp hcutoff
        exact ⟨cutoff, AuditStep.eq_of_cutoff? hvalue ▸ hstep, hlt⟩

end AuditNode

end OpenAiLb
