import OpenAiLb.Tenancy

/-!
# The life of a credential

The answer of `api_identity` is decided by what has happened to a credential: it was issued, and
it has not been revoked or deleted since. The table of the consumers says of each credential what
the history of the statements says, however the handlers come in between one another, and each
statement acts for the user of its own call only.
-/

namespace OpenAiLb

open Replay Resumption

/-- What the history says of a credential in force. -/
structure Grant where
  userId : String
  secretHash : String
  requestArchive : Bool
  deriving DecidableEq

/-- The credential of a row, unless it was revoked. -/
def Consumer.grant? (row : Consumer) : Option Grant :=
  if row.revokedAt.isNone then some ⟨row.userId, row.secretHash, row.requestArchive⟩ else none

/-- How the events change a credential. -/
def CredentialEvent.change : CredentialEvent → Change Grant
  | issued _ userId secretHash requestArchive => .put ⟨userId, secretHash, requestArchive⟩
  | archiveSet _ _ requestArchive =>
    .modify fun grant => { grant with requestArchive := requestArchive }
  | withdrawn .. => .remove

/-- The credentials by the id of their consumer. -/
def credentials : Reading CredentialEvent String Grant :=
  ⟨CredentialEvent.consumerId, CredentialEvent.change⟩

section Rows

namespace AuditDatabase

variable {db db' : AuditDatabase}

/-- The consumer of an id after an update. -/
theorem find?_updateConsumers (db : AuditDatabase) (p : Consumer → Bool)
    (set : Consumer → Consumer) (hid : ∀ row, (set row).id = row.id)
    (huser : ∀ row, (set row).userId = row.userId)
    (hsecret : ∀ row, (set row).secretHash = row.secretHash) (id : String) :
    (db.updateConsumers p set hid huser hsecret).consumers.find? id =
      (db.consumers.find? id).map fun row => if p row then set row else row :=
  db.consumers.find?_updateWhere p set hid id

/-- An inserted consumer belongs to a user and is the only one with its id. -/
theorem insertConsumer_eq_ok {row : Consumer} (h : db.insertConsumer row = .ok db') :
    db.consumers.insert? row = some db'.consumers ∧ db'.users = db.users ∧
      row.userId ∈ db.users := by
  unfold insertConsumer at h
  split at h
  · cases h
  · next hinsert =>
    split at h
    · cases h
    · split at h
      · next huser =>
        cases h
        exact ⟨hinsert, rfl, huser⟩
      · cases h

/-- The credential of a consumer, unless it was revoked. -/
def grant? (db : AuditDatabase) (id : String) : Option Grant :=
  (db.consumers.find? id).bind Consumer.grant?

/-- The row of a credential that was not revoked. -/
theorem grant?_eq_some_iff {id : String} {grant : Grant} : db.grant? id = some grant ↔
    ∃ row ∈ db.consumers, row.id = id ∧ row.revokedAt = none ∧ row.userId = grant.userId ∧
      row.secretHash = grant.secretHash ∧ row.requestArchive = grant.requestArchive := by
  unfold grant? Consumer.grant?
  rw [Option.bind_eq_some_iff]
  constructor
  · rintro ⟨row, hfound, hrow⟩
    obtain ⟨hmem, hid⟩ := Table.find?_eq_some_iff.mp hfound
    split at hrow
    · next hlive =>
      obtain rfl := Option.some.inj hrow
      exact ⟨row, hmem, hid, Option.isNone_iff_eq_none.mp hlive, rfl, rfl, rfl⟩
    · cases hrow
  · rintro ⟨row, hmem, hid, hlive, huser, hhash, harchive⟩
    refine ⟨row, Table.find?_eq_some_iff.mpr ⟨hmem, hid⟩, ?_⟩
    rw [hlive, huser, hhash, harchive]
    rfl

/-- There is one row at most with a secret. -/
theorem find?_live_iff {secretHash : String} {row : Consumer} :
    db.consumers.rows.find? (fun row => row.secretHash = secretHash && row.revokedAt.isNone) =
        some row ↔
      row ∈ db.consumers ∧ row.secretHash = secretHash ∧ row.revokedAt = none := by
  constructor
  · intro hfound
    have hmatches := List.find?_some hfound
    rw [Bool.and_eq_true, decide_eq_true_eq, Option.isNone_iff_eq_none] at hmatches
    exact ⟨List.mem_of_find?_eq_some hfound, hmatches⟩
  · rintro ⟨hmem, hhash, hlive⟩
    cases hfound : db.consumers.rows.find? fun row =>
        row.secretHash = secretHash && row.revokedAt.isNone with
    | none => simpa [hhash, hlive] using List.find?_eq_none.mp hfound row hmem
    | some other =>
      have hmatches := List.find?_some hfound
      rw [Bool.and_eq_true, decide_eq_true_eq] at hmatches
      rw [List.inj_on_of_nodup_map db.secretsUnique (List.mem_of_find?_eq_some hfound) hmem
        (hmatches.1.trans hhash.symm)]

/-- A new consumer brings the grant of its own id and no other. -/
theorem grant?_of_insertConsumer {row : Consumer} (h : db.insertConsumer row = .ok db')
    (hlive : row.revokedAt = none) (id : String) :
    db'.grant? id = if id = row.id then some ⟨row.userId, row.secretHash, row.requestArchive⟩
      else db.grant? id := by
  unfold grant?
  rw [Table.find?_of_insert? (insertConsumer_eq_ok h).1]
  split
  · rw [Option.bind_some, Consumer.grant?, hlive]
    rfl
  · rfl

/-- An update that changes neither the secret nor the flags of a row keeps its credential. -/
theorem grant?_updateConsumers {p : Consumer → Bool} {set : Consumer → Consumer}
    {hid : ∀ row, (set row).id = row.id} {huser : ∀ row, (set row).userId = row.userId}
    {hsecret : ∀ row, (set row).secretHash = row.secretHash} {id : String}
    (h : ∀ row, db.consumers.find? id = some row → p row = true →
      (set row).grant? = row.grant?) :
    (db.updateConsumers p set hid huser hsecret).grant? id = db.grant? id := by
  unfold grant?
  rw [find?_updateConsumers]
  cases hfound : db.consumers.find? id with
  | none => rfl
  | some row =>
    rw [Option.map_some, Option.bind_some, Option.bind_some]
    split
    · next hp => exact h row hfound hp
    · rfl

/-- Editing a consumer changes the archive flag of its own grant only. -/
theorem grant?_editConsumer (db : AuditDatabase) (id userId : String) (values : Settable)
    (other : String) : (db.editConsumer id userId values).grant? other =
      if id = other ∧ (db.ownConsumer id userId).isSome then
        (db.grant? other).map fun grant => { grant with requestArchive := values.requestArchive }
      else db.grant? other := by
  split
  · next hown =>
    obtain ⟨rfl, hown⟩ := hown
    obtain ⟨row, hrow⟩ := Option.isSome_iff_exists.mp hown
    obtain ⟨hfound, huser⟩ := Option.filter_eq_some_iff.mp hrow
    have hid : row.id = id := Table.key_of_find? hfound
    have huser : row.userId = userId := by simpa using huser
    unfold grant? editConsumer
    rw [find?_updateConsumers, hfound, Option.map_some, Option.bind_some, Option.bind_some,
      if_pos (by simp [hid, huser])]
    unfold Consumer.grant?
    dsimp only
    split <;> rfl
  · next hnot =>
    refine grant?_updateConsumers fun row hfound hp => absurd ?_ hnot
    rw [Bool.and_eq_true, decide_eq_true_eq, decide_eq_true_eq] at hp
    have hid : row.id = other := Table.key_of_find? hfound
    obtain rfl : id = other := hp.1.symm.trans hid
    refine ⟨rfl, ?_⟩
    rw [ownConsumer, hfound, Option.filter_some, if_pos (by simpa using hp.2)]
    rfl

/-- What both statements that withdraw a credential do: when they affect a row, it is one of their
user, and no other credential changes. -/
structure Withdraws (db after : AuditDatabase) (affected : ℕ) (id userId : String) : Prop where
  users : after.users = db.users
  grants : ∀ other, after.grant? other =
    if affected = 0 ∨ id ≠ other then db.grant? other else none
  own : affected ≠ 0 → ∀ grant, db.grant? id = some grant → grant.userId = userId

/-- A statement about the rows of a user with an id does not affect a row of somebody else. -/
theorem own_of_affected {p : Consumer → Bool} {q : Consumer → Bool} {id userId : String}
    (hp : ∀ row, p row = (decide (row.id = id) && q row))
    (hq : ∀ row, q row = true → row.userId = userId) (haffected : db.affectedConsumers p ≠ 0)
    {grant : Grant} (hgrant : db.grant? id = some grant) : grant.userId = userId := by
  obtain ⟨row, hfound, hrow⟩ := Option.bind_eq_some_iff.mp hgrant
  have hmatches : q row = true := by
    by_contra hnot
    refine haffected ((db.consumers.countP_eq_zero_iff id hp).mpr fun other hother => ?_)
    obtain rfl := Option.some.inj (hfound.symm.trans hother)
    simpa using hnot
  unfold Consumer.grant? at hrow
  split at hrow
  · obtain rfl := Option.some.inj hrow
    exact hq row hmatches
  · cases hrow

/-- Revoking a consumer withdraws its grant and records whose it was. -/
theorem withdraws_revokeConsumer (db : AuditDatabase) (id userId : String) (now : Int) :
    Withdraws db (db.revokeConsumer id userId now) (db.affectedConsumers fun row =>
      row.id = id && row.userId = userId && row.revokedAt.isNone) id userId where
  users := rfl
  grants := by
    intro other
    have hzero := db.consumers.countP_eq_zero_iff id fun row =>
      Bool.and_assoc (row.id = id) (row.userId = userId) row.revokedAt.isNone
    split
    · next hnot =>
      refine grant?_updateConsumers fun row hfound hp => ?_
      have hid : row.id = other := Table.key_of_find? hfound
      rw [Bool.and_assoc, Bool.and_eq_true, decide_eq_true_eq] at hp
      obtain rfl : id = other := hp.1.symm.trans hid
      have hnone := hzero.mp (hnot.resolve_right fun h => h rfl) row hfound
      rw [hp.2] at hnone
      cases hnone
    · next hhit =>
      push Not at hhit
      obtain ⟨haffected, rfl⟩ := hhit
      unfold grant? revokeConsumer
      rw [find?_updateConsumers]
      cases hfound : db.consumers.find? id with
      | none => rfl
      | some row =>
        have hid : row.id = id := Table.key_of_find? hfound
        rw [Option.map_some, Option.bind_some]
        split
        · rfl
        · next hmissed =>
          refine absurd (hzero.mpr fun other hother => ?_) haffected
          obtain rfl := Option.some.inj (hfound.symm.trans hother)
          rw [Bool.and_assoc, decide_eq_true hid, Bool.true_and, Bool.not_eq_true] at hmissed
          exact hmissed
  own haffected _ hgrant := own_of_affected (fun row => Bool.and_assoc ..)
    (fun row hq => of_decide_eq_true (Bool.and_eq_true_iff.mp hq).1) haffected hgrant

/-- Deleting a consumer withdraws its grant and records whose it was. -/
theorem withdraws_deleteConsumer (db : AuditDatabase) (id userId : String) :
    Withdraws db (db.deleteConsumer id userId) (db.affectedConsumers fun row =>
      row.id = id && row.userId = userId) id userId where
  users := users_deleteConsumer db id userId
  grants := by
    intro other
    have hzero := db.consumers.countP_eq_zero_iff id
      fun row => (rfl : (decide (row.id = id) && decide (row.userId = userId)) = _)
    have hany : (db.consumers.find? id).any (fun row => row.userId = userId) = true ↔
        db.affectedConsumers (fun row => row.id = id && row.userId = userId) ≠ 0 := by
      rw [ne_eq, affectedConsumers, hzero]
      cases db.consumers.find? id <;> simp
    unfold deleteConsumer
    split
    · next hhit =>
      have haffected := hany.mp hhit
      unfold grant?
      dsimp only
      rw [Table.find?_filter]
      cases hfound : db.consumers.find? other with
      | none => simp
      | some row =>
        have hid : row.id = other := Table.key_of_find? hfound
        by_cases hsame : id = other
        · subst hsame
          simp [Option.filter, hid, haffected]
        · simp [Option.filter, hid, hsame, Ne.symm hsame]
    · next hmissed =>
      have hnone := not_not.mp (hany.not.mp hmissed)
      rw [if_pos (.inl hnone)]
  own haffected _ hgrant := own_of_affected (fun _ => rfl)
    (fun row hq => of_decide_eq_true hq) haffected hgrant

/-- The writer of the audit keeps the credentials. -/
theorem grant?_persist {usedAt : Int} {batch : List QueuedAudit}
    (h : db.persist usedAt batch = .ok db') (id : String) : db'.grant? id = db.grant? id := by
  unfold persist at h
  split at h
  · next mid hmid =>
    cases h
    obtain ⟨-, hconsumers, -⟩ := applyBatch_eq_ok hmid
    have htouched : ∀ (ids : List String) (db : AuditDatabase),
        (ids.foldl (fun db id => db.touchConsumer usedAt id) db).grant? id = db.grant? id := by
      intro ids
      induction ids with
      | nil => exact fun _ => rfl
      | cons first rest ih =>
        intro db
        exact (ih _).trans (grant?_updateConsumers fun _ _ _ => rfl)
    rw [htouched, grant?, hconsumers, grant?]
  · cases h

/-- What goes on in the background keeps the credentials and the users. -/
theorem grant?_background (db : AuditDatabase) (work : Tenancy.Background) :
    (∀ id, (work.exec db).grant? id = db.grant? id) ∧ (work.exec db).users = db.users := by
  cases work with
  | persist usedAt batch =>
    unfold Tenancy.Background.exec
    dsimp only
    split
    · next hok => exact ⟨grant?_persist hok, (persist_eq_ok hok).2.2.1⟩
    · exact ⟨fun _ => rfl, rfl⟩
  | deleteExpired cutoff => exact ⟨fun _ => rfl, rfl⟩
  | insertProvider id => exact ⟨fun _ => rfl, rfl⟩
  | deleteProvider id => exact ⟨fun _ => rfl, rfl⟩

end AuditDatabase

end Rows

namespace Tenancy

section Invariant

/-- A statement about a credential in force is one of its user. -/
def OwnEvents (history : List CredentialEvent) : Prop :=
  ∀ before event after, history = before ++ event :: after →
    ∀ grant, credentials.replay event.consumerId before = some grant →
      grant.userId = event.userId

/-- One more statement of the user of its credential. -/
theorem OwnEvents.concat {history : List CredentialEvent} {event : CredentialEvent}
    (h : OwnEvents history)
    (hown : ∀ grant, credentials.replay event.consumerId history = some grant →
      grant.userId = event.userId) : OwnEvents (history ++ [event]) := by
  intro before event' after hsplit grant hgrant
  rcases List.eq_nil_or_concat after with rfl | ⟨after, last, rfl⟩
  · obtain ⟨rfl, hlast⟩ := List.append_inj' hsplit rfl
    obtain rfl : event = event' := by simpa using hlast
    exact hown grant hgrant
  · rw [List.concat_eq_append, ← List.cons_append, ← List.append_assoc] at hsplit
    exact h before event' after (List.append_inj' hsplit rfl).1 grant hgrant

/-- What holds after every access: the rows say of each credential what the history says, and the
history goes on with what the statements of these users have done to their own credentials. -/
structure Kept (initial : List CredentialEvent) (callers : String → Prop) (s : Tenancy) :
    Prop where
  grants : ∀ id, s.records.grant? id = credentials.replay id s.history
  known : ∀ id ∈ s.records.users, (s.accounts.users.user? id).isSome
  own : OwnEvents s.history
  recorded : ∃ new, s.history = initial ++ new ∧ ∀ event ∈ new, callers event.userId

variable {initial : List CredentialEvent} {callers : String → Prop} {s : Tenancy}
  {records : AuditDatabase}

/-- Statements that change no credential. -/
theorem Kept.unchanged (h : Kept initial callers s)
    (hgrants : ∀ id, records.grant? id = s.records.grant? id)
    (husers : records.users = s.records.users) :
    Kept initial callers { s with records := records } where
  grants id := (hgrants id).trans (h.grants id)
  known id hid := h.known id (by rwa [husers] at hid)
  own := h.own
  recorded := h.recorded

/-- **Step.** A statement changes a credential as its event says, and the credential is one of the
user of the statement. -/
theorem Kept.concat {event : CredentialEvent} (h : Kept initial callers s)
    (hgrants : ∀ id, records.grant? id =
      if event.consumerId = id then event.change.apply (s.records.grant? id)
      else s.records.grant? id)
    (husers : records.users = s.records.users)
    (hown : ∀ grant, s.records.grant? event.consumerId = some grant →
      grant.userId = event.userId) (hcaller : callers event.userId) :
    Kept initial callers { s with records := records, history := s.history ++ [event] } where
  grants id := by
    dsimp only
    rw [hgrants, h.grants, Reading.replay_concat]
    rfl
  known id hid := h.known id (by rwa [husers] at hid)
  own := h.own.concat fun grant hgrant => hown grant ((h.grants _).trans hgrant)
  recorded := by
    obtain ⟨new, hnew, hcallers⟩ := h.recorded
    refine ⟨new ++ [event], ?_, fun other hother => ?_⟩
    · dsimp only
      rw [hnew, List.append_assoc]
    · rcases List.mem_append.mp hother with hold | hlast
      · exact hcallers other hold
      · rwa [List.mem_singleton.mp hlast]

/-- A login adds a row of its user. -/
theorem Kept.register (h : Kept initial callers s) (id : String) (now : Int) :
    Kept initial callers (s.register id now).2 where
  grants := h.grants
  known := by
    intro other hother
    unfold Tenancy.register
    dsimp only
    rw [Users.user?_register]
    split
    · rfl
    · next hne => exact h.known other ((List.mem_insert_iff.mp hother).resolve_left hne)
  own := h.own
  recorded := h.recorded

/-- Creating a consumer of a caller keeps the invariant. -/
theorem Kept.insertConsumer (h : Kept initial callers s) {row : Consumer}
    (hlive : row.revokedAt = none) (hcaller : callers row.userId) :
    Kept initial callers (s.insertConsumer row).2 := by
  unfold Tenancy.insertConsumer
  cases hinsert : s.records.insertConsumer row with
  | error e => exact h
  | ok records =>
    obtain ⟨htable, husers, -⟩ := AuditDatabase.insertConsumer_eq_ok hinsert
    refine h.concat (fun id => ?_) husers (fun grant hgrant => ?_) hcaller
    · rw [AuditDatabase.grant?_of_insertConsumer hinsert hlive]
      exact if_congr eq_comm rfl rfl
    · -- There was no row with this id.
      have hnone := Table.find?_eq_none_iff.mpr (Table.key_not_mem_of_insert? htable)
      change (s.records.consumers.find? row.id).bind _ = _ at hgrant
      rw [hnone] at hgrant
      cases hgrant

/-- So does editing one. -/
theorem Kept.editConsumer (h : Kept initial callers s) (id userId : String) (values : Settable)
    (hcaller : callers userId) :
    Kept initial callers (s.editConsumer id userId values).2 := by
  have hgrants := s.records.grant?_editConsumer id userId values
  unfold Tenancy.editConsumer
  dsimp only
  split
  · next hown =>
    refine h.concat (fun other => ?_) rfl (fun grant hgrant => ?_) hcaller
    · rw [hgrants]
      exact if_congr (and_iff_left hown) rfl rfl
    · obtain ⟨row, hrow⟩ := Option.isSome_iff_exists.mp hown
      obtain ⟨hfound, huser⟩ := Option.filter_eq_some_iff.mp hrow
      change (s.records.consumers.find? id).bind _ = _ at hgrant
      rw [hfound, Option.bind_some, Consumer.grant?] at hgrant
      split at hgrant
      · obtain rfl := Option.some.inj hgrant
        exact of_decide_eq_true huser
      · cases hgrant
  · next hnone =>
    rw [List.append_nil]
    refine h.unchanged (fun other => ?_) rfl
    rw [hgrants, if_neg fun hboth => hnone hboth.2]

/-- Both statements that withdraw a credential. -/
theorem Kept.withdraw (h : Kept initial callers s) {affected : ℕ} {id userId : String}
    (hwithdraws : AuditDatabase.Withdraws s.records records affected id userId)
    (hcaller : callers userId) :
    Kept initial callers { s with
      records := records
      history := s.history ++ if affected = 0 then [] else [.withdrawn id userId] } := by
  split
  · next hzero =>
    rw [List.append_nil]
    refine h.unchanged (fun other => ?_) hwithdraws.users
    rw [hwithdraws.grants, if_pos (.inl hzero)]
  · next haffected =>
    refine h.concat (fun other => ?_) hwithdraws.users (hwithdraws.own haffected) hcaller
    rw [hwithdraws.grants]
    by_cases hsame : id = other
    · rw [if_neg (by simp [haffected, hsame])]
      exact (if_pos hsame).symm
    · rw [if_pos (.inr hsame)]
      exact (if_neg hsame).symm

/-- A statement on the accounts that takes no user away. -/
theorem Kept.accounts (h : Kept initial callers s) {accounts : Accounts}
    (husers : ∀ id, (s.accounts.users.user? id).isSome → (accounts.users.user? id).isSome) :
    Kept initial callers { s with accounts := accounts } where
  grants := h.grants
  known id hid := husers id (h.known id hid)
  own := h.own
  recorded := h.recorded

end Invariant

section Runs

variable {initial : List CredentialEvent} {callers : String → Prop}

/-- The statements for one of the callers. -/
theorem respects_kept {userId : String} (hcaller : callers userId) :
    Respects (Kept initial callers) userId where
  register now _ hs := hs.register userId now
  insertConsumer row _ huser hlive hs := hs.insertConsumer hlive (huser ▸ hcaller)
  editConsumer id values _ hs := hs.editConsumer id userId values hcaller
  revoke id now s hs := hs.withdraw (s.records.withdraws_revokeConsumer id userId now) hcaller
  delete id s hs := hs.withdraw (s.records.withdraws_deleteConsumer id userId) hcaller
  setDisplayName _ id displayName _ hs := hs.accounts fun other hother => by
    simpa [Users.user?_setDisplayName] using hother
  setRole _ id role _ hs := hs.accounts fun other hother => by
    simpa [Users.user?_setRole] using hother
  setProviderAccess _ id access _ hs := hs.accounts fun other hother => by
    simpa [Users.user?_setProviderAccess] using hother
  audit _ _ _ hs := hs.accounts fun _ hid => hid

end Runs

section Answers

/-- The archive flag that was last set. -/
def lastArchive (consumerId : String) (history : List CredentialEvent) : Option Bool :=
  (history.filterMap fun event =>
    match event with
    | .archiveSet id _ requestArchive => if id = consumerId then some requestArchive else none
    | _ => none).getLast?

/-- The credential was issued and has not been withdrawn since; its archive flag is the one that
was set last. -/
def InForce (history : List CredentialEvent) (consumerId : String) (grant : Grant) : Prop :=
  ∃ before requestArchive after,
    history =
      before ++ .issued consumerId grant.userId grant.secretHash requestArchive :: after ∧
    (∀ event ∈ after, event.consumerId = consumerId →
      ∃ userId flag, event = .archiveSet consumerId userId flag) ∧
    grant.requestArchive = (lastArchive consumerId after).getD requestArchive

/-- What the later events make of an issued credential. -/
theorem modified_credential (consumerId : String) (first : Grant)
    (after : List CredentialEvent) :
    credentials.modified consumerId first after =
      { first with
        requestArchive := (lastArchive consumerId after).getD first.requestArchive } := by
  unfold lastArchive
  induction after using List.reverseRecOn with
  | nil => rfl
  | append_singleton after event ih =>
    rw [Reading.modified_concat, ih, List.filterMap_append]
    cases event with
    | issued id userId secretHash requestArchive => simp [credentials, CredentialEvent.change]
    | archiveSet id userId requestArchive =>
      by_cases hid : id = consumerId
      · simp [credentials, CredentialEvent.change, CredentialEvent.consumerId, hid]
      · simp [credentials, CredentialEvent.change, CredentialEvent.consumerId, hid]
    | withdrawn id userId => simp [credentials, CredentialEvent.change]

/-- The history says of a credential that it is in force, when it was issued and not withdrawn
since. -/
theorem replay_credential_iff {history : List CredentialEvent} {consumerId : String}
    {grant : Grant} :
    credentials.replay consumerId history = some grant ↔ InForce history consumerId grant := by
  rw [Reading.replay_eq_some_iff]
  constructor
  · rintro ⟨before, event, first, after, rfl, hkey, hput, hleaves, rfl⟩
    cases event with
    | issued id userId secretHash requestArchive =>
      obtain rfl : id = consumerId := hkey
      obtain rfl := Change.put.inj hput
      rw [modified_credential]
      refine ⟨before, requestArchive, after, rfl, fun event hevent hid => ?_, rfl⟩
      obtain ⟨f, hf⟩ := hleaves event hevent hid
      cases event with
      | issued => cases hf
      | archiveSet other userId flag =>
        obtain rfl : other = id := hid
        exact ⟨userId, flag, rfl⟩
      | withdrawn => cases hf
    | archiveSet => cases hput
    | withdrawn => cases hput
  · rintro ⟨before, requestArchive, after, rfl, hlater, harchive⟩
    refine ⟨before, _, _, after, rfl, rfl, rfl, fun event hevent hid => ?_, ?_⟩
    · obtain ⟨userId, flag, rfl⟩ := hlater event hevent hid
      exact ⟨_, rfl⟩
    · rw [modified_credential, ← harchive]

/-- The events that a row stands for. -/
def past (row : Consumer) : List CredentialEvent :=
  .issued row.id row.userId row.secretHash row.requestArchive ::
    if row.revokedAt.isNone then [] else [.withdrawn row.id row.userId]

/-- Before the first request: the history is that of the rows, and their users are there. -/
structure Started (s : Tenancy) : Prop where
  history : s.history = s.records.consumers.rows.flatMap past
  known : ∀ id ∈ s.records.users, (s.accounts.users.user? id).isSome

/-- The history of some rows says of each credential what they say. -/
theorem replay_past (rows : List Consumer) (hnodup : (rows.map Consumer.id).Nodup) :
    (∀ id, credentials.replay id (rows.flatMap past) =
      (rows.find? fun row => row.id = id).bind Consumer.grant?) ∧
    OwnEvents (rows.flatMap past) := by
  induction rows using List.reverseRecOn with
  | nil =>
    refine ⟨fun _ => rfl, ?_⟩
    rintro before event after hsplit
    simp at hsplit
  | append_singleton rows row ih =>
    rw [List.map_append, List.nodup_append] at hnodup
    obtain ⟨hgrants, hown⟩ := ih hnodup.1
    have hfind : rows.find? (fun other => other.id = row.id) = none := by
      rw [List.find?_eq_none]
      intro other hother
      have hne := hnodup.2.2 other.id (List.mem_map_of_mem hother) row.id (by simp)
      simpa using hne
    have hfresh : credentials.replay row.id (rows.flatMap past) = none := by
      rw [hgrants, hfind]
      rfl
    have hissued : OwnEvents (rows.flatMap past ++
        [.issued row.id row.userId row.secretHash row.requestArchive]) :=
      hown.concat fun grant hgrant => by
        change credentials.replay row.id _ = _ at hgrant
        rw [hfresh] at hgrant
        cases hgrant
    have hreplay (id : String) : credentials.replay id (rows.flatMap past ++
        [.issued row.id row.userId row.secretHash row.requestArchive]) =
          if row.id = id then some ⟨row.userId, row.secretHash, row.requestArchive⟩
          else (rows.find? fun row => row.id = id).bind Consumer.grant? := by
      rw [Reading.replay_concat, hgrants]
      rfl
    have hlast (id : String) : ((rows ++ [row]).find? fun row => row.id = id) =
        if row.id = id then some row else rows.find? fun row => row.id = id := by
      rw [List.find?_append, List.find?_singleton]
      split
      · next hid =>
        obtain rfl := of_decide_eq_true hid
        rw [hfind, if_pos rfl]
        rfl
      · next hid =>
        rw [Option.or_none, if_neg fun hsame => hid (decide_eq_true hsame)]
    rw [List.flatMap_append, List.flatMap_singleton, past]
    split
    · next hlive =>
      refine ⟨fun id => ?_, hissued⟩
      rw [hreplay, hlast]
      split
      · rw [Option.bind_some, Consumer.grant?, if_pos hlive]
      · rfl
    · next hrevoked =>
      rw [List.append_cons]
      refine ⟨fun id => ?_, hissued.concat fun grant hgrant => ?_⟩
      · rw [Reading.replay_concat, hreplay, hlast]
        change (if row.id = id then none else _) = _
        split
        · rw [Option.bind_some, Consumer.grant?, if_neg hrevoked]
        · rfl
      · have hsome := (hreplay row.id).symm.trans hgrant
        rw [if_pos rfl] at hsome
        exact congrArg Grant.userId (Option.some.inj hsome).symm

variable {codec : CredentialCodec} {s₀ : Tenancy} {t : Pool AppError Tenancy TenancyAnswer}
  {moves : List (Move Request)}

/-- **Run.** The credentials and their history are kept in any order of the accesses. -/
theorem kept_of_run (hs₀ : s₀.Started) (hrun : Runs codec s₀ moves t) :
    Kept s₀.history (Called moves) t.state := by
  obtain ⟨hgrants, hown⟩ := replay_past s₀.records.consumers.rows s₀.records.consumers.nodup
  rw [← hs₀.history] at hgrants hown
  have hstart : Kept s₀.history (Called moves) s₀ :=
    ⟨fun id => (hgrants id).symm, hs₀.known, hown, [], (List.append_nil _).symm, nofun⟩
  refine invariant_of_run hstart (fun userId hcalled => respects_kept hcalled) ?_ hrun
  intro work s hs
  obtain ⟨hgrants, husers⟩ := s.records.grant?_background work
  exact hs.unchanged hgrants husers

/-- The row that `api_identity` finds. -/
theorem consumerIdentity_eq_some_iff {s : Tenancy} {secretHash : String}
    {identity : TenantIdentity} : s.consumerIdentity secretHash = some identity ↔
      s.records.grant? identity.consumerId =
          some ⟨identity.userId, secretHash, identity.requestArchive⟩ ∧
        ∃ user, s.accounts.users.user? identity.userId = some user ∧
          identity.allProviders = (user.role.text ≠ "user" || user.providerAccess) := by
  unfold consumerIdentity
  rw [Option.bind_eq_some_iff]
  constructor
  · rintro ⟨row, hrow, hidentity⟩
    obtain ⟨hmem, hhash, hlive⟩ := AuditDatabase.find?_live_iff.mp hrow
    obtain ⟨user, huser, rfl⟩ := Option.map_eq_some_iff.mp hidentity
    refine ⟨?_, user, huser, rfl⟩
    exact AuditDatabase.grant?_eq_some_iff.mpr ⟨row, hmem, rfl, hlive, rfl, hhash, rfl⟩
  · rintro ⟨hgrant, user, huser, hall⟩
    obtain ⟨row, hmem, hid, hlive, huserId, hhash, harchive⟩ :=
      AuditDatabase.grant?_eq_some_iff.mp hgrant
    dsimp only at huserId hhash harchive
    refine ⟨row, AuditDatabase.find?_live_iff.mpr ⟨hmem, hhash, hlive⟩, ?_⟩
    rw [huserId, huser, Option.map_some, Option.some.injEq]
    obtain ⟨consumerId, userId, requestArchive, allProviders⟩ := identity
    dsimp only at hid huserId harchive hall
    subst hid huserId harchive hall
    rfl

/-- **Whom a credential stands for.** In any order of the accesses of any handlers, `api_identity`
accepts a secret exactly when a credential with its hash was issued and has been neither revoked
nor deleted since, and it answers with the user to whom it was issued, the archive flag that was
set last and the access of this user. The user of a credential in force is always there. Only the
requests of a user have issued, changed or withdrawn credentials of the user. -/
theorem api_identity_iff (hs₀ : s₀.Started) (hrun : Runs codec s₀ moves t) :
    (∀ headers identity, apiIdentity codec headers t.state = .ok identity ↔
      ∃ secret, bearer headers = .ok secret ∧ startsWith secret "sk-" ∧
        InForce t.state.history identity.consumerId
          ⟨identity.userId, codec.consumerSecretHash secret, identity.requestArchive⟩ ∧
        ∃ user, t.state.accounts.users.user? identity.userId = some user ∧
          identity.allProviders = (user.role.text ≠ "user" || user.providerAccess)) ∧
    (∀ consumerId grant, InForce t.state.history consumerId grant →
      (t.state.accounts.users.user? grant.userId).isSome) ∧
    (∀ before event after, t.state.history = before ++ event :: after →
      ∀ grant, InForce before event.consumerId grant → grant.userId = event.userId) ∧
    ∃ new, t.state.history = s₀.history ++ new ∧ ∀ event ∈ new, Called moves event.userId := by
  have hkept := kept_of_run hs₀ hrun
  refine ⟨fun headers identity => ?_, fun consumerId grant hforce => ?_, ?_, hkept.recorded⟩
  · simp only [← replay_credential_iff, ← hkept.grants]
    unfold apiIdentity
    rw [Stoppable.bind_eq_ok]
    refine exists_congr fun secret => and_congr_right fun _ => ?_
    by_cases hstart : startsWith secret "sk-" = true
    · rw [if_pos hstart, and_iff_right hstart, ← consumerIdentity_eq_some_iff]
      cases t.state.consumerIdentity (codec.consumerSecretHash secret) with
      | none => simp
      | some found => simp
    · rw [if_neg hstart]
      exact iff_of_false (fun h => by cases h) fun h => hstart h.1
  · have hgrant := (hkept.grants consumerId).trans (replay_credential_iff.mpr hforce)
    obtain ⟨row, hmem, -, -, huserId, -⟩ := AuditDatabase.grant?_eq_some_iff.mp hgrant
    rw [← huserId]
    exact hkept.known row.userId (t.state.records.consumersReference row hmem)
  · intro before event after hsplit grant hforce
    exact hkept.own before event after hsplit grant (replay_credential_iff.mpr hforce)

/-- The secret made from 32 zero bytes, and its hash. -/
def zeroCodec : CredentialCodec where
  encode _ := "AAAAAAAAAAAAAAAAAAAAAAAAAAAAAAAAAAAAAAAAAAA"
  consumerSecretHash _ := "d40a82f736e89291055c8dcbddec74ad06f26425073957cce3a31c553758e683"

/-- The tables after the migrations. -/
def fresh : Tenancy := ⟨⟨.empty, []⟩, .empty, []⟩

/-- Nothing was issued in the fresh tables. -/
theorem started_fresh : fresh.Started := ⟨rfl, nofun⟩

/-- A user creates a consumer, and another one logs in meanwhile. -/
def creation : List (Move Request) :=
  [.start (.createConsumer ⟨.ok "alice", 1, "127.0.0.1"⟩ ⟨"laptop", true⟩
    ⟨List.replicate 32 0, "key", 2⟩),
    .advance 0, .start (.me ⟨.ok "bob", 1, "127.0.0.1"⟩), .advance 1, .advance 0, .advance 0]

/-- The header that this user sends. -/
def secretHeaders : HeaderMap :=
  HeaderMap.new.insert "authorization"
    (.fromStatic "Bearer sk-AAAAAAAAAAAAAAAAAAAAAAAAAAAAAAAAAAAAAAAAAAA")

/-- The statement for this run: the secret is accepted. -/
theorem created_credential_accepted :
    apiIdentity zeroCodec secretHeaders
      (Transition.after (Pool.step (handle zeroCodec)) ⟨fresh, []⟩ creation).state =
        .ok ⟨"key", "alice", true, false⟩ := by
  have hrun : Runs zeroCodec fresh creation
      (Transition.after (Pool.step (handle zeroCodec)) ⟨fresh, []⟩ creation) :=
    Transition.run_eq_some_after (by decide +kernel)
  refine ((api_identity_iff started_fresh hrun).1 secretHeaders _).mpr
    ⟨"sk-AAAAAAAAAAAAAAAAAAAAAAAAAAAAAAAAAAAAAAAAAAA", by decide +kernel, by decide +kernel, ?_⟩
  exact ⟨⟨[], true, [], rfl, nofun, rfl⟩, Users.tenant "alice" 1, by decide +kernel, by decide⟩

end Answers

end Tenancy

end OpenAiLb
