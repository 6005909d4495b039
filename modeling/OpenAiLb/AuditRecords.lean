import OpenAiLb.AuditProgress
import OpenAiLb.Library.Journal

/-!
# What the audit tables say about the messages

The history of the tables is the list of everything that was committed: the messages of
the queue, the statements of the handlers, and the end of every `persist`. Replaying it
gives the tables. What a call row and its archive say about the transport of the response
is what the journal of the committed messages says.
-/

namespace OpenAiLb

/-- One change of the audit tables. -/
inductive AuditEffect where
  | message (queued : QueuedAudit)
  | statement (stmt : AuditStatement)
  | created (row : Consumer)
  /-- The end of `persist`: `last_used_at` of the consumers of the batch. -/
  | touched (usedAt : Int) (ids : List String)

/-- The messages that were committed, in order. -/
def messagesOf (history : List AuditEffect) : List QueuedAudit :=
  history.filterMap fun
    | .message queued => some queued
    | _ => none

/-- The messages of two histories, one after the other. -/
theorem messagesOf_append (first second : List AuditEffect) :
    messagesOf (first ++ second) = messagesOf first ++ messagesOf second :=
  List.filterMap_append

/-- The messages of a batch are its messages. -/
@[simp] theorem messagesOf_messages (batch : List QueuedAudit) :
    messagesOf (batch.map .message) = batch := by
  simp [messagesOf, List.filterMap_map]

namespace AuditDatabase

/-- Repeat a change. -/
def execute (db : AuditDatabase) : AuditEffect → Except SqliteError AuditDatabase
  | .message queued => db.apply queued
  | .statement stmt => .ok (stmt.exec db)
  | .created row => db.insertConsumer row
  | .touched usedAt ids => .ok (ids.foldl (fun db id => db.touchConsumer usedAt id) db)

/-- Repeat a history. -/
def replay (db : AuditDatabase) : List AuditEffect → Except SqliteError AuditDatabase
  | [] => .ok db
  | effect :: rest =>
    match db.execute effect with
    | .ok db => db.replay rest
    | .error error => .error error

/-- Replaying two histories one after the other. -/
theorem replay_append {db mid : AuditDatabase} {first : List AuditEffect}
    (h : db.replay first = .ok mid) (second : List AuditEffect) :
    db.replay (first ++ second) = mid.replay second := by
  induction first generalizing db with
  | nil =>
    cases h
    rfl
  | cons effect rest ih =>
    simp only [replay] at h
    split at h
    · next next hnext =>
      rw [List.cons_append, replay, hnext]
      exact ih h
    · cases h

/-- **The rule of histories**: what every change keeps of the journal and the tables, a history
keeps. -/
theorem replay_keeps {keeps : List QueuedAudit → AuditDatabase → Prop}
    (hexecute : ∀ messages db effect db', keeps messages db → db.execute effect = .ok db' →
      keeps (messages ++ messagesOf [effect]) db')
    {messages : List QueuedAudit} {db db' : AuditDatabase} {history : List AuditEffect}
    (h : keeps messages db) (hreplay : db.replay history = .ok db') :
    keeps (messages ++ messagesOf history) db' := by
  induction history generalizing db messages with
  | nil =>
    cases hreplay
    exact (List.append_nil messages).symm ▸ h
  | cons effect rest ih =>
    simp only [replay] at hreplay
    split at hreplay
    · next mid hmid =>
      have hrest := ih (hexecute messages db effect mid h hmid) hreplay
      rwa [List.append_assoc, ← messagesOf_append] at hrest
    · cases hreplay

/-- **Replaying a batch is the loop of `persist`.** -/
theorem replay_messages (db : AuditDatabase) (batch : List QueuedAudit) :
    db.replay (batch.map .message) = db.applyBatch batch := by
  induction batch generalizing db with
  | nil => rfl
  | cons queued rest ih =>
    rw [List.map_cons, replay, applyBatch, execute]
    cases db.apply queued with
    | ok mid => exact ih mid
    | error error => rfl

end AuditDatabase

/-- The steps that only calls make. -/
def AuditStep.ofCall : AuditStep → Bool
  | begin .. | send .. | recordResponseTransport .. => true
  | _ => false

namespace AuditNode

/-- What a step does to the tables, once it is committed. -/
def effects (s : AuditNode) : AuditStep → List AuditEffect
  | .execute stmt => [.statement stmt]
  | .createConsumer row =>
    match s.db.insertConsumer row with
    | .ok _ => [.created row]
    | .error _ => []
  | .persist usedAt =>
    match s.db.persist usedAt s.batch with
    | .ok _ => s.batch.map .message ++ [.touched usedAt (AuditDatabase.touchedKeys s.batch)]
    | .error _ => []
  | _ => []

/-- **What a step does that no call makes**: messages move from the queue through the batch into
the history, and the history is what happens to the tables. -/
structure Inner (s t : AuditNode) (effects : List AuditEffect) : Prop where
  trackers : t.trackers = s.trackers
  issued : ∀ id ∈ s.issued, id ∈ t.issued
  messages : messagesOf effects ++ (t.batch ++ t.queue) = s.batch ++ s.queue
  tables : s.db.replay effects = .ok t.db

variable {s t : AuditNode} {a : AuditStep}

/-- A step outside the calls commits what it says in its effects, and nothing else. -/
theorem inner_step (hinner : a.ofCall = false) (h : s.step a = some t) :
    s.Inner t (s.effects a) := by
  cases a with
  | begin | send | recordResponseTransport => cases hinner
  | execute stmt =>
    cases h
    exact ⟨rfl, fun _ hid => hid, rfl, rfl⟩
  | createConsumer row =>
    simp only [step] at h
    split at h
    · cases h
    · cases hcreated : s.db.insertConsumer row with
      | ok db =>
        rw [hcreated] at h
        cases h
        simp only [effects, hcreated]
        refine ⟨rfl, fun _ hid => List.mem_cons_of_mem _ hid, rfl, ?_⟩
        simp only [AuditDatabase.replay, AuditDatabase.execute, hcreated]
      | error error =>
        rw [hcreated] at h
        cases h
        simp only [effects, hcreated]
        exact ⟨rfl, fun _ hid => List.mem_cons_of_mem _ hid, rfl, rfl⟩
  | authenticate secretHash =>
    obtain ⟨identity, -, rfl⟩ := Option.map_eq_some_iff.mp h
    exact ⟨rfl, fun _ hid => hid, rfl, rfl⟩
  | receive =>
    simp only [step] at h
    split at h
    · cases h
    · next queued rest hqueue =>
      split at h
      · cases h
        refine ⟨rfl, fun _ hid => hid, ?_, rfl⟩
        simp [effects, messagesOf, hqueue]
      · cases h
  | stopReceiving =>
    simp only [step] at h
    split at h
    · cases h
      exact ⟨rfl, fun _ hid => hid, rfl, rfl⟩
    · cases h
  | persist usedAt =>
    simp only [step] at h
    split at h
    · cases hcommit : s.db.persist usedAt s.batch with
      | ok db =>
        rw [hcommit] at h
        cases h
        simp only [effects, hcommit]
        refine ⟨rfl, fun _ hid => hid, ?_, ?_⟩
        · rw [messagesOf_append, messagesOf_messages]
          simp [messagesOf]
        · simp only [AuditDatabase.persist] at hcommit
          split at hcommit
          · next mid hmid =>
            cases hcommit
            rw [AuditDatabase.replay_append (by rw [AuditDatabase.replay_messages, hmid])]
            rfl
          · cases hcommit
      | error error =>
        rw [hcommit] at h
        cases h
        simp only [effects, hcommit]
        exact ⟨rfl, fun _ hid => hid, rfl, rfl⟩
    · cases h
  | persistUnavailable =>
    simp only [step] at h
    split at h
    · cases h
      exact ⟨rfl, fun _ hid => hid, rfl, rfl⟩
    · cases h

end AuditNode

/-- The call that a message is about. -/
def QueuedAudit.id : QueuedAudit → String
  | event call => call.id
  | responseTransport id .. => id

/-- What the tables say about the transport of a response. -/
structure TransportRecord where
  bytes : Int
  encoding : Option String
  headers : Option String
  deriving DecidableEq

/-- The messages as a journal: an event creates the record of its call, and a transport message
updates it. Headers stay when the message has none. -/
def auditJournal : Journal QueuedAudit String TransportRecord where
  key := QueuedAudit.id
  created
    | .event call => some ⟨call.responseTransportBytes, call.downstreamContentEncoding, none⟩
    | .responseTransport .. => none
  update
    | .event _ => id
    | .responseTransport _ bytes encoding headers =>
      fun record => ⟨bytes, encoding, headers.or record.headers⟩

/-- The event begins the record of its call. -/
theorem record_event (messages : List QueuedAudit) (event : AuditEvent) :
    auditJournal.record event.id (messages ++ [.event event]) =
      some ⟨event.responseTransportBytes, event.downstreamContentEncoding, none⟩ :=
  Journal.record_concat_self (J := auditJournal) messages (.event event)

/-- A transport message changes the record of its call, which keeps the headers unless it brings new
ones. -/
theorem record_responseTransport (messages : List QueuedAudit) (id : String) (bytes : Int)
    (encoding headers : Option String) :
    auditJournal.record id (messages ++ [.responseTransport id bytes encoding headers]) =
      (auditJournal.record id messages).map fun old =>
        ⟨bytes, encoding, headers.or old.headers⟩ :=
  Journal.record_concat_self (J := auditJournal) messages
    (.responseTransport id bytes encoding headers)

namespace AuditDatabase

/-- The tables agree with the journal of the messages. -/
structure Reflects (db : AuditDatabase) (messages : List QueuedAudit) : Prop where
  calls : ∀ row ∈ db.apiCalls, ∀ record, auditJournal.record row.id messages = some record →
    row.responseTransportBytes = record.bytes ∧ row.downstreamContentEncoding = record.encoding
  archives : ∀ archive ∈ db.requestArchives, ∀ record,
    auditJournal.record archive.apiCallId messages = some record →
      archive.downstreamResponseHeadersJson = record.headers

section Reflects

variable {db db' : AuditDatabase} {messages : List QueuedAudit}

/-- The rows after a transport message. -/
theorem tables_of_responseTransport {id : String} {bytes : Int} {encoding headers : Option String}
    (h : db.apply (.responseTransport id bytes encoding headers) = .ok db') :
    (∀ row ∈ db'.apiCalls, ∃ old ∈ db.apiCalls,
        (if old.id = id then old.setTransport bytes encoding else old) = row) ∧
      ∀ archive ∈ db'.requestArchives, ∃ old ∈ db.requestArchives,
        (if old.apiCallId = id then
          { old with
            downstreamResponseHeadersJson := headers.or old.downstreamResponseHeadersJson }
        else old) = archive := by
  have hcalls : ∀ row ∈ (db.setTransport id bytes encoding).apiCalls, ∃ old ∈ db.apiCalls,
      (if old.id = id then old.setTransport bytes encoding else old) = row := by
    intro row hrow
    simpa using (Table.mem_updateWhere _ _ _ (ApiCall.setTransport_id bytes encoding)).mp hrow
  cases headers with
  | none =>
    cases h
    refine ⟨hcalls, fun archive harchive => ⟨archive, harchive, ?_⟩⟩
    split <;> rfl
  | some headers =>
    cases h
    refine ⟨hcalls, fun archive harchive => ?_⟩
    obtain ⟨old, hold, rfl⟩ := Table.mem_map.mp
      (show archive ∈ db.requestArchives.map _ fun old => by split <;> rfl from harchive)
    exact ⟨old, hold, by simp⟩

/-- Inserting a call adds its row under a new id and leaves the archives alone. -/
theorem tables_of_insertCall {event : AuditEvent} (h : db.insertCall event = .ok db') :
    event.id ∉ db.apiCalls.keys ∧
      (∀ row ∈ db'.apiCalls, row ∈ db.apiCalls ∨
        row = callOf event (db.existingProvider event.providerId)) ∧
        db'.requestArchives = db.requestArchives := by
  unfold insertCall at h
  split at h
  · cases h
  · next hins =>
    split at h
    · cases h
      exact ⟨Table.key_not_mem_of_insert? hins, fun row => (Table.mem_of_insert? hins).mp, rfl⟩
    · cases h

/-- Inserting an archive adds it and leaves the calls alone. -/
theorem tables_of_insertArchive {added : RequestArchive} (h : db.insertArchive added = .ok db') :
    db'.apiCalls = db.apiCalls ∧
      ∀ archive ∈ db'.requestArchives, archive ∈ db.requestArchives ∨ archive = added := by
  unfold insertArchive at h
  split at h
  · cases h
  · next hins =>
    split at h
    · cases h
      exact ⟨rfl, fun archive => (Table.mem_of_insert? hins).mp⟩
    · cases h

/-- The rows after an event. -/
theorem tables_of_insert {event : AuditEvent} (h : db.insert event = .ok db') :
    event.id ∉ db.apiCalls.keys ∧
      (∀ row ∈ db'.apiCalls, row ∈ db.apiCalls ∨ ∃ provider, row = callOf event provider) ∧
        ∀ archive ∈ db'.requestArchives,
          archive ∈ db.requestArchives ∨ archive = archiveOf event := by
  unfold insert at h
  split at h
  · next mid hmid =>
    obtain ⟨hnew, hcalls, harchives⟩ := tables_of_insertCall hmid
    split at h
    · obtain ⟨hsame, hadded⟩ := tables_of_insertArchive h
      rw [hsame, ← harchives]
      exact ⟨hnew, fun row hrow => (hcalls row hrow).imp_right fun heq => ⟨_, heq⟩, hadded⟩
    · cases h
      rw [harchives]
      exact ⟨hnew, fun row hrow => (hcalls row hrow).imp_right fun heq => ⟨_, heq⟩,
        fun archive harchive => Or.inl harchive⟩
  · cases h

/-- `create_consumer` writes no call. -/
theorem tables_of_insertConsumer {row : Consumer} (h : db.insertConsumer row = .ok db') :
    db'.apiCalls = db.apiCalls ∧ db'.requestArchives = db.requestArchives := by
  unfold insertConsumer at h
  split at h
  · cases h
  · split at h
    · cases h
    · split at h
      · cases h
        exact ⟨rfl, rfl⟩
      · cases h

/-- Using a consumer leaves the archives alone. -/
theorem archives_touchConsumers (db : AuditDatabase) (usedAt : Int) (ids : List String) :
    (ids.foldl (fun db id => db.touchConsumer usedAt id) db).requestArchives =
      db.requestArchives := by
  induction ids generalizing db with
  | nil => rfl
  | cons id rest ih => exact ih (db.touchConsumer usedAt id)

/-- A change that adds no call and no archive, and leaves the columns in question alone. -/
theorem Reflects.of_rows (h : db.Reflects messages)
    (hcalls : ∀ row ∈ db'.apiCalls, ∃ old ∈ db.apiCalls, old.id = row.id ∧
      old.responseTransportBytes = row.responseTransportBytes ∧
        old.downstreamContentEncoding = row.downstreamContentEncoding)
    (harchives : ∀ archive ∈ db'.requestArchives, archive ∈ db.requestArchives) :
    db'.Reflects messages := by
  refine ⟨fun row hrow record hrecord => ?_,
    fun archive harchive => h.archives archive (harchives archive harchive)⟩
  obtain ⟨old, hold, hid, hbytes, hencoding⟩ := hcalls row hrow
  rw [← hid] at hrecord
  rw [← hbytes, ← hencoding]
  exact h.calls old hold record hrecord

/-- Whether the tables reflect the messages depends on the calls and the archives only. -/
theorem Reflects.of_tables (h : db.Reflects messages) (hcalls : db'.apiCalls = db.apiCalls)
    (harchives : db'.requestArchives = db.requestArchives) : db'.Reflects messages :=
  h.of_rows (fun row hrow => ⟨row, hcalls ▸ hrow, rfl, rfl, rfl⟩)
    fun _ harchive => harchives ▸ harchive

/-- No statement writes the transport of a response. -/
theorem Reflects.exec (h : db.Reflects messages) (stmt : AuditStatement) :
    (stmt.exec db).Reflects messages := by
  cases stmt with
  | upsertUser | insertProvider | revokeConsumer => exact h.of_tables rfl rfl
  | deleteConsumer gone userId =>
    rw [AuditStatement.exec, deleteConsumer]
    split
    · exact h.of_rows (fun row hrow => ⟨row, (Table.mem_filter.mp hrow).1, rfl, rfl, rfl⟩)
        fun archive harchive => (Table.mem_filter.mp harchive).1
    · exact h
  | deleteProvider gone =>
    refine h.of_rows (fun row hrow => ?_) fun _ harchive => harchive
    obtain ⟨old, hold, rfl⟩ := (Table.mem_updateWhere _ _ _ ApiCall.forgetProvider_id).mp hrow
    refine ⟨old, hold, ?_⟩
    split <;> exact ⟨rfl, rfl, rfl⟩
  | deleteExpired cutoff =>
    exact h.of_rows (fun row hrow => ⟨row, hrow, rfl, rfl, rfl⟩)
      fun archive harchive => (Table.mem_filter.mp harchive).1

/-- **A transport message** writes the columns of its call, and the headers if there are any. -/
theorem Reflects.responseTransport (h : db.Reflects messages) {id : String} {bytes : Int}
    {encoding headers : Option String}
    (happly : db.apply (.responseTransport id bytes encoding headers) = .ok db') :
    db'.Reflects (messages ++ [.responseTransport id bytes encoding headers]) := by
  obtain ⟨hcalls, harchives⟩ := tables_of_responseTransport happly
  -- The record of the call, if there is one, is updated by the message.
  have hsame : ∀ record, auditJournal.record id
      (messages ++ [.responseTransport id bytes encoding headers]) = some record →
      ∃ old, auditJournal.record id messages = some old ∧
        (⟨bytes, encoding, headers.or old.headers⟩ : TransportRecord) = record := by
    intro record hrecord
    rw [record_responseTransport] at hrecord
    exact Option.map_eq_some_iff.mp hrecord
  have hother : ∀ other, id ≠ other → auditJournal.record other
      (messages ++ [.responseTransport id bytes encoding headers]) =
        auditJournal.record other messages := fun other hne =>
    Journal.record_concat_other messages hne
  constructor
  · intro row hrow record hrecord
    obtain ⟨old, hold, rfl⟩ := hcalls row hrow
    by_cases hid : old.id = id
    · rw [if_pos hid] at hrecord ⊢
      obtain ⟨-, -, rfl⟩ := hsame record (by rwa [ApiCall.setTransport_id, hid] at hrecord)
      exact ⟨rfl, rfl⟩
    · rw [if_neg hid] at hrecord ⊢
      rw [hother old.id (Ne.symm hid)] at hrecord
      exact h.calls old hold record hrecord
  · intro archive harchive record hrecord
    obtain ⟨old, hold, rfl⟩ := harchives archive harchive
    by_cases hid : old.apiCallId = id
    · subst hid
      rw [if_pos rfl] at hrecord ⊢
      obtain ⟨before, hbefore, rfl⟩ := hsame record hrecord
      rw [h.archives old hold before hbefore]
    · rw [if_neg hid] at hrecord ⊢
      rw [hother old.apiCallId (Ne.symm hid)] at hrecord
      exact h.archives old hold record hrecord

/-- **An event** adds the row of its call, with the columns as the event has them. The table has
no row and no archive of that call yet. -/
theorem Reflects.event (h : db.Reflects messages) {event : AuditEvent}
    (hinsert : db.insert event = .ok db') : db'.Reflects (messages ++ [.event event]) := by
  obtain ⟨hnew, hcalls, harchives⟩ := tables_of_insert hinsert
  have hother : ∀ other, event.id ≠ other → auditJournal.record other
      (messages ++ [.event event]) = auditJournal.record other messages := fun other hne =>
    Journal.record_concat_other messages hne
  constructor
  · intro row hrow record hrecord
    rcases hcalls row hrow with hold | ⟨provider, rfl⟩
    · have hne : event.id ≠ row.id := fun heq => hnew (heq ▸ Table.key_mem_keys hold)
      rw [hother row.id hne] at hrecord
      exact h.calls row hold record hrecord
    · cases (record_event messages event).symm.trans hrecord
      exact ⟨rfl, rfl⟩
  · intro archive harchive record hrecord
    rcases harchives archive harchive with hold | rfl
    · have hne : event.id ≠ archive.apiCallId :=
        fun heq => hnew (heq ▸ db.archivesReference archive hold)
      rw [hother archive.apiCallId hne] at hrecord
      exact h.archives archive hold record hrecord
    · cases (record_event messages event).symm.trans hrecord
      rfl

/-- Every change keeps the tables in step with the journal. -/
theorem Reflects.execute (h : db.Reflects messages) {effect : AuditEffect}
    (hexecute : db.execute effect = .ok db') : db'.Reflects (messages ++ messagesOf [effect]) := by
  cases effect with
  | message queued =>
    cases queued with
    | event event => exact h.event hexecute
    | responseTransport id bytes encoding headers => exact h.responseTransport hexecute
  | statement stmt =>
    cases hexecute
    exact (List.append_nil messages).symm ▸ h.exec stmt
  | created row =>
    obtain ⟨hcalls, harchives⟩ := tables_of_insertConsumer hexecute
    exact (List.append_nil messages).symm ▸ h.of_tables hcalls harchives
  | touched usedAt ids =>
    cases hexecute
    obtain ⟨-, -, hcalls⟩ := frame_touchConsumers db usedAt ids
    exact (List.append_nil messages).symm ▸
      h.of_tables hcalls (archives_touchConsumers db usedAt ids)

/-- **The tables agree with the journal of the committed messages.** -/
theorem Reflects.replay (h : db.Reflects messages) {history : List AuditEffect}
    (hreplay : db.replay history = .ok db') :
    db'.Reflects (messages ++ messagesOf history) :=
  @replay_keeps (fun messages db => db.Reflects messages)
    (fun _ _ _ _ hkept hexecute => hkept.execute hexecute) _ _ _ _ h hreplay

/-- Without messages there is nothing to agree with. -/
theorem reflects_nil (db : AuditDatabase) : db.Reflects [] := by
  constructor
  · intro row hrow record hrecord
    cases hrecord
  · intro archive harchive record hrecord
    cases hrecord

end Reflects

end AuditDatabase

end OpenAiLb
