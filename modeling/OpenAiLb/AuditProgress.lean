import OpenAiLb.AuditWriter
import Mathlib.Data.List.Perm.Basic

/-!
# The writer always makes progress

An event can be committed as long as its consumer and its user exist and its id is new.
Users are never deleted and ids are fresh, and the insert does not insist on the
provider. What is left is the consumer: an event in flight must not lose it. If it does,
the batch that carries the event fails in every later state, and so does the writer.
-/

namespace OpenAiLb

/-- The columns of an event that a constraint looks at. -/
structure CallReference where
  id : String
  consumerId : String
  userId : String
  deriving DecidableEq

/-- The constrained columns of an event. -/
def AuditEvent.reference (event : AuditEvent) : CallReference :=
  ⟨event.id, event.consumerId, event.userId⟩

/-- The setters of a tracker change no constrained column. -/
theorem AuditEvent.SameCall.reference {begun sent : AuditEvent} (h : begun.SameCall sent) :
    sent.reference = begun.reference := by
  obtain ⟨hid, -, -, hconsumer, huser, -⟩ := h
  simp [AuditEvent.reference, hid, hconsumer, huser]

namespace AuditNode

open AuditDatabase

/-- The events that are begun, queued or in the batch. -/
def references (s : AuditNode) : List CallReference :=
  (s.trackers ++ eventsIn s.queue ++ eventsIn s.batch).map AuditEvent.reference

/-- The step deletes no consumer that a call in flight names. -/
def SparesCallers (s : AuditNode) : AuditStep → Prop
  | .execute (.deleteConsumer id userId) =>
    (s.db.consumers.find? id).any (fun row => row.userId = userId) = true →
      (∀ identity ∈ s.identities, identity.consumerId ≠ id) ∧
        ∀ reference ∈ s.references, reference.consumerId ≠ id
  | _ => True

instance (s : AuditNode) (a : AuditStep) : Decidable (s.SparesCallers a) := by
  unfold SparesCallers
  split <;> infer_instance

/-- The references can be inserted into the database: consumers and users exist, and the ids are
new and different. -/
structure Insertable (db : AuditDatabase) (references : List CallReference) : Prop where
  consumers : ∀ reference ∈ references, reference.consumerId ∈ db.consumers.keys
  users : ∀ reference ∈ references, reference.userId ∈ db.users
  fresh : ∀ reference ∈ references, reference.id ∉ db.apiCalls.keys
  unique : (references.map CallReference.id).Nodup

namespace Insertable

variable {db db' : AuditDatabase} {references more : List CallReference}

/-- The order of the references does not matter. -/
theorem perm (h : Insertable db references) (hperm : references.Perm more) :
    Insertable db more where
  consumers reference hmem := h.consumers reference (hperm.mem_iff.mpr hmem)
  users reference hmem := h.users reference (hperm.mem_iff.mpr hmem)
  fresh reference hmem := h.fresh reference (hperm.mem_iff.mpr hmem)
  unique := (hperm.map CallReference.id).nodup_iff.mp h.unique

/-- The database may lose calls and gain everything else. -/
theorem of_database (h : Insertable db references)
    (hconsumers : ∀ reference ∈ references,
      reference.consumerId ∈ db.consumers.keys → reference.consumerId ∈ db'.consumers.keys)
    (husers : ∀ id ∈ db.users, id ∈ db'.users)
    (hcalls : ∀ id ∈ db'.apiCalls.keys, id ∈ db.apiCalls.keys) : Insertable db' references where
  consumers reference hmem := hconsumers reference hmem (h.consumers reference hmem)
  users reference hmem := husers _ (h.users reference hmem)
  fresh reference hmem hin := h.fresh reference hmem (hcalls _ hin)
  unique := h.unique

/-- One more call, with a new id. -/
theorem cons (h : Insertable db references) {reference : CallReference}
    (hconsumer : reference.consumerId ∈ db.consumers.keys) (huser : reference.userId ∈ db.users)
    (hfresh : reference.id ∉ db.apiCalls.keys)
    (hother : ∀ other ∈ references, other.id ≠ reference.id) :
    Insertable db (reference :: references) where
  consumers := List.forall_mem_cons.mpr ⟨hconsumer, h.consumers⟩
  users := List.forall_mem_cons.mpr ⟨huser, h.users⟩
  fresh := List.forall_mem_cons.mpr ⟨hfresh, h.fresh⟩
  unique := by
    rw [List.map_cons, List.nodup_cons]
    refine ⟨fun hmem => ?_, h.unique⟩
    obtain ⟨other, hin, heq⟩ := List.mem_map.mp hmem
    exact hother other hin heq

/-- The ids of a batch of events are those of its references. -/
theorem ids_eq (events : List AuditEvent) :
    (events.map AuditEvent.reference).map CallReference.id = events.map AuditEvent.id := by
  rw [List.map_map]
  rfl

/-- **A batch that is insertable can be committed.** -/
theorem persist {batch : List QueuedAudit}
    (h : Insertable db (references ++ (eventsIn batch).map AuditEvent.reference)) (usedAt : Int) :
    ∃ db', db.persist usedAt batch = .ok db' := by
  have hbatch : ∀ event ∈ eventsIn batch,
      event.reference ∈ references ++ (eventsIn batch).map AuditEvent.reference :=
    fun event hmem => List.mem_append_right _ (List.mem_map_of_mem hmem)
  refine persist_ok usedAt ?_ (fun event hmem => h.fresh _ (hbatch event hmem))
    fun event hmem => ⟨h.consumers _ (hbatch event hmem), h.users _ (hbatch event hmem)⟩
  have hunique := h.unique
  rw [List.map_append, ids_eq] at hunique
  exact hunique.of_append_right

/-- What is left after the batch was committed is still insertable. -/
theorem of_persist {batch : List QueuedAudit} {usedAt : Int}
    (h : Insertable db (references ++ (eventsIn batch).map AuditEvent.reference))
    (hcommit : db.persist usedAt batch = .ok db') : Insertable db' references := by
  obtain ⟨-, hconsumers, husers, hcalls⟩ := persist_eq_ok hcommit
  have hunique := h.unique
  rw [List.map_append, ids_eq] at hunique
  have hleft : ∀ reference ∈ references,
      reference ∈ references ++ (eventsIn batch).map AuditEvent.reference :=
    fun reference hmem => List.mem_append_left _ hmem
  constructor
  · intro reference hmem
    rw [hconsumers]
    exact h.consumers reference (hleft reference hmem)
  · intro reference hmem
    rw [husers]
    exact h.users reference (hleft reference hmem)
  · intro reference hmem
    rw [hcalls, List.mem_append]
    rintro (hold | hwritten)
    · exact h.fresh reference (hleft reference hmem) hold
    · exact List.disjoint_of_nodup_append hunique (List.mem_map_of_mem hmem) hwritten
  · exact hunique.of_append_left

end Insertable

/-- **The invariant**: every call in flight can be committed, and every id in use was issued. -/
structure Deliverable (s : AuditNode) : Prop where
  identities : ∀ identity ∈ s.identities,
    identity.consumerId ∈ s.db.consumers.keys ∧ identity.userId ∈ s.db.users
  insertable : Insertable s.db s.references
  events : ∀ reference ∈ s.references, reference.id ∈ s.issued
  calls : ∀ id ∈ s.db.apiCalls.keys, id ∈ s.issued

/-- At the start no call is in flight. -/
theorem Started.deliverable {s : AuditNode} (h : s.Started) : s.Deliverable := by
  have hnone : s.references = [] := by
    simp [references, h.trackers, h.queue, h.batch, eventsIn]
  refine ⟨by simp [h.identities], ?_, by simp [hnone], h.calls⟩
  rw [hnone]
  exact ⟨by simp, by simp, by simp, List.nodup_nil⟩

section Statements

variable {db db' : AuditDatabase} {stmt : AuditStatement} {id : String}

/-- No statement deletes a user. -/
theorem mem_users_exec (stmt : AuditStatement) (h : id ∈ db.users) : id ∈ (stmt.exec db).users := by
  cases stmt with
  | upsertUser other => exact List.mem_insert_of_mem h
  | deleteConsumer gone userId =>
    rw [AuditStatement.exec, users_deleteConsumer]
    exact h
  | insertProvider | revokeConsumer | deleteProvider | deleteExpired => exact h

/-- No statement of a handler inserts a call. -/
theorem mem_calls_of_exec (h : id ∈ (stmt.exec db).apiCalls.keys) : id ∈ db.apiCalls.keys := by
  cases stmt with
  | deleteConsumer gone userId => exact mem_calls_of_deleteConsumer h
  | deleteProvider gone =>
    rwa [AuditStatement.exec, keys_deleteProvider] at h
  | upsertUser | insertProvider | revokeConsumer | deleteExpired => exact h

/-- Only its own deletion takes a consumer away. -/
theorem mem_consumers_exec (h : id ∈ db.consumers.keys)
    (hkept : ∀ gone userId, stmt = .deleteConsumer gone userId →
      (db.consumers.find? gone).any (fun row => row.userId = userId) = true → id ≠ gone) :
    id ∈ (stmt.exec db).consumers.keys := by
  cases stmt with
  | deleteConsumer gone userId =>
    exact mem_consumers_deleteConsumer.mpr ⟨h, hkept gone userId rfl⟩
  | revokeConsumer other userId now =>
    rw [AuditStatement.exec, revokeConsumer, keys_updateConsumers]
    exact h
  | upsertUser | insertProvider | deleteProvider | deleteExpired => exact h

/-- No statement of a handler but `create_consumer` inserts a consumer. -/
theorem mem_consumers_of_exec (h : id ∈ (stmt.exec db).consumers.keys) :
    id ∈ db.consumers.keys := by
  cases stmt with
  | deleteConsumer gone userId => exact (mem_consumers_deleteConsumer.mp h).1
  | revokeConsumer other userId now =>
    rwa [AuditStatement.exec, revokeConsumer, keys_updateConsumers] at h
  | upsertUser | insertProvider | deleteProvider | deleteExpired => exact h

/-- `create_consumer` adds one consumer and nothing else. -/
theorem insertConsumer_eq_ok {row : Consumer} (h : db.insertConsumer row = .ok db') :
    db'.consumers.keys = db.consumers.keys ++ [row.id] ∧ db'.users = db.users ∧
      db'.apiCalls = db.apiCalls := by
  unfold insertConsumer at h
  split at h
  · cases h
  · next hins =>
    split at h
    · cases h
    · split at h
      · cases h
        exact ⟨Table.keys_of_insert? hins, rfl, rfl⟩
      · cases h

/-- An authenticated call belongs to an existing consumer of an existing user. -/
theorem mem_of_apiIdentity {secretHash : String} {identity : ApiIdentity}
    (h : db.apiIdentity secretHash = some identity) :
    identity.consumerId ∈ db.consumers.keys ∧ identity.userId ∈ db.users := by
  obtain ⟨row, hrow, rfl⟩ := Option.map_eq_some_iff.mp h
  have hmem : row ∈ db.consumers := List.mem_of_find?_eq_some hrow
  exact ⟨Table.key_mem_keys hmem, db.consumersReference row hmem⟩

end Statements

section Step

variable {s t : AuditNode}

/-- A change of the database that keeps the referenced rows and adds no call. -/
theorem Deliverable.of_database {db : AuditDatabase} {issued : List String} (h : s.Deliverable)
    (hidentities : ∀ identity ∈ s.identities, identity.consumerId ∈ db.consumers.keys)
    (hreferences : ∀ reference ∈ s.references, reference.consumerId ∈ db.consumers.keys)
    (husers : ∀ id ∈ s.db.users, id ∈ db.users)
    (hcalls : ∀ id ∈ db.apiCalls.keys, id ∈ s.db.apiCalls.keys)
    (hissued : ∀ id ∈ s.issued, id ∈ issued) :
    ({ s with db := db, issued := issued } : AuditNode).Deliverable where
  identities identity hmem := ⟨hidentities identity hmem, husers _ (h.identities identity hmem).2⟩
  insertable := h.insertable.of_database (fun reference hmem _ => hreferences reference hmem)
    husers hcalls
  events reference hmem := hissued _ (h.events reference hmem)
  calls id hmem := hissued id (h.calls id (hcalls id hmem))

/-- A step that moves the calls in flight around. -/
theorem Deliverable.of_perm (h : s.Deliverable) (hdb : t.db = s.db)
    (hidentities : t.identities = s.identities) (hissued : t.issued = s.issued)
    (hperm : s.references.Perm t.references) : t.Deliverable := by
  refine ⟨?_, ?_, fun reference hmem => ?_, ?_⟩
  · rw [hidentities, hdb]
    exact h.identities
  · rw [hdb]
    exact h.insertable.perm hperm
  · rw [hissued]
    exact h.events reference (hperm.mem_iff.mpr hmem)
  · rw [hdb, hissued]
    exact h.calls

/-- A handler runs a statement. -/
theorem deliverable_execute (h : s.Deliverable) {stmt : AuditStatement}
    (hok : s.SparesCallers (.execute stmt)) :
    ({ s with db := stmt.exec s.db } : AuditNode).Deliverable := by
  refine h.of_database (fun identity hmem => ?_) (fun reference hmem => ?_)
    (fun id => mem_users_exec stmt) (fun id => mem_calls_of_exec) fun id hmem => hmem
  · refine mem_consumers_exec (h.identities identity hmem).1 ?_
    rintro gone userId rfl hgone
    exact (hok hgone).1 identity hmem
  · refine mem_consumers_exec (h.insertable.consumers reference hmem) ?_
    rintro gone userId rfl hgone
    exact (hok hgone).2 reference hmem

/-- A consumer is created. -/
theorem deliverable_createConsumer (h : s.Deliverable) {row : Consumer} {db : AuditDatabase}
    (hcreated : s.db.insertConsumer row = .ok db) :
    ({ s with db := db, issued := row.id :: s.issued } : AuditNode).Deliverable := by
  obtain ⟨hconsumers, husers, hcalls⟩ := insertConsumer_eq_ok hcreated
  have hkept : ∀ id ∈ s.db.consumers.keys, id ∈ db.consumers.keys := by
    intro id hmem
    rw [hconsumers]
    exact List.mem_append_left _ hmem
  refine h.of_database (fun identity hmem => hkept _ (h.identities identity hmem).1)
    (fun reference hmem => hkept _ (h.insertable.consumers reference hmem)) (fun id hmem => ?_)
    (fun id hmem => ?_) fun id hmem => List.mem_cons_of_mem _ hmem
  · rw [husers]
    exact hmem
  · rwa [hcalls] at hmem

/-- A call begins its audit and reserves a place. -/
theorem deliverable_begin (h : s.Deliverable) {i : ℕ} {identity : ApiIdentity} {call : CallStart}
    {archived : Bool} (hidentity : s.identities[i]? = some identity)
    (hfresh : call.eventId ∉ s.issued) :
    ({ s with
        identities := s.identities.eraseIdx i
        trackers := s.trackers ++ [.begin call identity archived]
        issued := call.eventId :: s.issued } : AuditNode).Deliverable := by
  obtain ⟨hconsumer, huser⟩ := h.identities identity (List.mem_of_getElem? hidentity)
  have hperm : ((AuditEvent.begin call identity archived).reference :: s.references).Perm
      ((s.trackers ++ [AuditEvent.begin call identity archived] ++ eventsIn s.queue ++
        eventsIn s.batch).map AuditEvent.reference) := by
    simp only [references, List.map_append, List.append_assoc, List.map_cons,
      List.singleton_append]
    exact List.perm_middle.symm
  refine ⟨fun other hmem => h.identities other (List.mem_of_mem_eraseIdx hmem), ?_,
    fun reference hmem => ?_, fun id hmem => List.mem_cons_of_mem _ (h.calls id hmem)⟩
  · refine (h.insertable.cons hconsumer huser (fun hmem => hfresh (h.calls _ hmem)) ?_).perm hperm
    intro other hmem heq
    have hsame : other.id = call.eventId := heq
    exact hfresh (hsame ▸ h.events other hmem)
  · rcases List.mem_cons.mp (hperm.mem_iff.mpr hmem) with rfl | hold
    · exact List.mem_cons_self
    · exact List.mem_cons_of_mem _ (h.events reference hold)

/-- An event is sent: its place in the queue was reserved. -/
theorem deliverable_send (h : s.Deliverable) {i : ℕ} {begun sent : AuditEvent}
    (hbegun : s.trackers[i]? = some begun) (hsame : begun.SameCall sent) :
    ({ s with
        trackers := s.trackers.eraseIdx i
        queue := s.queue ++ [.event sent] } : AuditNode).Deliverable := by
  refine h.of_perm rfl rfl rfl ?_
  obtain ⟨hlength, hget⟩ := List.getElem?_eq_some_iff.mp hbegun
  have htrackers : s.trackers.Perm (begun :: s.trackers.eraseIdx i) := by
    rw [← hget]
    exact (List.getElem_cons_eraseIdx_perm hlength).symm
  have hmapped : (s.trackers.map AuditEvent.reference).Perm
      (sent.reference :: (s.trackers.eraseIdx i).map AuditEvent.reference) := by
    rw [hsame.reference]
    exact htrackers.map AuditEvent.reference
  simp only [references, eventsIn_append, List.map_append, List.append_assoc]
  refine (hmapped.append_right _).trans ?_
  rw [List.cons_append]
  refine List.perm_middle.symm.trans ?_
  refine List.Perm.append_left _ ?_
  exact List.perm_middle.symm

/-- The writer takes a message. -/
theorem deliverable_receive (h : s.Deliverable) {queued : QueuedAudit} {rest : List QueuedAudit}
    (hqueue : s.queue = queued :: rest) :
    ({ s with queue := rest, batch := s.batch ++ [queued] } : AuditNode).Deliverable := by
  refine h.of_perm rfl rfl rfl ?_
  have hsplit : eventsIn (queued :: rest) = eventsIn [queued] ++ eventsIn rest :=
    eventsIn_append [queued] rest
  simp only [references, hqueue, hsplit, eventsIn_append, List.map_append, List.append_assoc]
  refine List.Perm.append_left _ ?_
  refine List.perm_append_comm.trans ?_
  rw [List.append_assoc]

/-- The writer commits its batch. -/
theorem deliverable_persist (h : s.Deliverable) {usedAt : Int} {db : AuditDatabase}
    (hcommit : s.db.persist usedAt s.batch = .ok db) :
    ({ s with db := db, batch := [], writing := false } : AuditNode).Deliverable := by
  obtain ⟨-, hconsumers, husers, hcalls⟩ := persist_eq_ok hcommit
  have hsplit : s.references = (s.trackers ++ eventsIn s.queue).map AuditEvent.reference ++
      (eventsIn s.batch).map AuditEvent.reference := List.map_append
  have hleft : (s.trackers ++ eventsIn s.queue ++ eventsIn []).map AuditEvent.reference =
      (s.trackers ++ eventsIn s.queue).map AuditEvent.reference := by
    rw [show eventsIn [] = [] from rfl, List.append_nil]
  have hinsertable := h.insertable
  rw [hsplit] at hinsertable
  refine ⟨fun identity hmem => ?_, ?_, fun reference hmem => ?_, fun id hmem => ?_⟩
  · rw [hconsumers, husers]
    exact h.identities identity hmem
  · have hrest := hinsertable.of_persist hcommit
    rwa [← hleft] at hrest
  · have hin : reference ∈ s.references := by
      rw [hsplit]
      exact List.mem_append_left _ (hleft ▸ hmem)
    exact h.events reference hin
  · rw [hcalls, List.mem_append] at hmem
    rcases hmem with hold | hwritten
    · exact h.calls id hold
    · obtain ⟨event, hevent, rfl⟩ := List.mem_map.mp hwritten
      refine h.events event.reference ?_
      rw [hsplit]
      exact List.mem_append_right _ (List.mem_map_of_mem hevent)

/-- **The step lemma**: a step that spares the calls in flight keeps them deliverable. -/
theorem deliverable_step {a : AuditStep} (h : s.Deliverable) (hok : s.SparesCallers a)
    (hstep : s.step a = some t) : t.Deliverable := by
  cases a with
  | execute stmt =>
    cases hstep
    exact deliverable_execute h hok
  | createConsumer row =>
    simp only [step] at hstep
    split at hstep
    · cases hstep
    · split at hstep
      · next hcreated =>
        cases hstep
        exact deliverable_createConsumer h hcreated
      · cases hstep
        exact h.of_database (fun identity hmem => (h.identities identity hmem).1)
          h.insertable.consumers (fun _ hmem => hmem) (fun _ hmem => hmem)
          fun id hmem => List.mem_cons_of_mem _ hmem
  | authenticate secretHash =>
    obtain ⟨identity, hidentity, rfl⟩ := Option.map_eq_some_iff.mp hstep
    refine ⟨fun other hmem => ?_, h.insertable, h.events, h.calls⟩
    rcases List.mem_append.mp hmem with hold | hnew
    · exact h.identities other hold
    · rw [List.mem_singleton.mp hnew]
      exact mem_of_apiIdentity hidentity
  | begin i call archiveBudget =>
    obtain ⟨identity, hidentity, hbegun⟩ := Option.bind_eq_some_iff.mp hstep
    split at hbegun
    · cases hbegun
    · next hfresh =>
      split at hbegun
      · cases hbegun
        exact deliverable_begin h hidentity hfresh
      · cases hbegun
        exact ⟨fun other hmem => h.identities other (List.mem_of_mem_eraseIdx hmem),
          h.insertable, h.events, h.calls⟩
  | send i event =>
    obtain ⟨begun, hbegun, hsent⟩ := Option.bind_eq_some_iff.mp hstep
    split at hsent
    · next hsame =>
      cases hsent
      exact deliverable_send h hbegun hsame
    · cases hsent
  | recordResponseTransport id bytes encoding headers =>
    simp only [step] at hstep
    split at hstep
    · cases hstep
      have hqueue : eventsIn (s.queue ++ [.responseTransport id bytes encoding headers]) =
          eventsIn s.queue := by
        rw [eventsIn_append, eventsIn_responseTransport]
        exact List.append_nil _
      refine h.of_perm rfl rfl rfl ?_
      rw [references, references, hqueue]
    · cases hstep
      exact h
  | receive =>
    simp only [step] at hstep
    split at hstep
    · cases hstep
    · next queued rest hqueue =>
      split at hstep
      · cases hstep
        exact deliverable_receive h hqueue
      · cases hstep
  | stopReceiving =>
    simp only [step] at hstep
    split at hstep
    · cases hstep
      exact ⟨h.identities, h.insertable, h.events, h.calls⟩
    · cases hstep
  | persist usedAt =>
    simp only [step] at hstep
    split at hstep
    · split at hstep
      · next hcommit =>
        cases hstep
        exact deliverable_persist h hcommit
      · cases hstep
        exact h
    · cases hstep
  | persistUnavailable =>
    simp only [step] at hstep
    split at hstep
    · cases hstep
      exact h
    · cases hstep

/-- **The writer is never wedged**: when no consumer is deleted while a call of it is in flight,
the batch of the writer can be committed in every state that is reached. -/
theorem writer_makes_progress {steps : List AuditStep} (hstart : s.Started)
    (hok : Transition.Guarded step SparesCallers s steps) (hrun : s.run steps = some t)
    (usedAt : Int) : ∃ db, t.db.persist usedAt t.batch = .ok db := by
  have hdeliverable : t.Deliverable :=
    Transition.invariant_of_guarded deliverable_step hok hrun hstart.deliverable
  have hinsertable := hdeliverable.insertable
  rw [references, List.map_append] at hinsertable
  exact hinsertable.persist usedAt

/-- **The writer is stuck**: an event of its batch names a consumer that is gone. -/
structure Wedged (s : AuditNode) : Prop where
  writing : s.writing = true
  gone : ∃ event ∈ eventsIn s.batch,
    event.consumerId ∉ s.db.consumers.keys ∧ event.consumerId ∈ s.issued

/-- A stuck writer cannot commit its batch. -/
theorem Wedged.persist_error (h : s.Wedged) (usedAt : Int) :
    ∃ error, s.db.persist usedAt s.batch = .error error := by
  obtain ⟨event, hmem, hgone, -⟩ := h.gone
  cases hpersist : s.db.persist usedAt s.batch with
  | error error => exact ⟨error, rfl⟩
  | ok db => exact absurd ((persist_eq_ok hpersist).1 event hmem) hgone

/-- Whatever happens next, the writer stays stuck with the same batch: consumer ids are not used
twice. -/
theorem wedged_step {a : AuditStep} {batch : List QueuedAudit} (h : s.Wedged ∧ s.batch = batch)
    (hstep : s.step a = some t) : t.Wedged ∧ t.batch = batch := by
  obtain ⟨hwedged, rfl⟩ := h
  obtain ⟨event, hmem, hgone, hissued⟩ := hwedged.gone
  cases a with
  | execute stmt =>
    cases hstep
    exact ⟨⟨hwedged.writing, event, hmem, fun hin => hgone (mem_consumers_of_exec hin), hissued⟩,
      rfl⟩
  | createConsumer row =>
    simp only [step] at hstep
    split at hstep
    · cases hstep
    · next hfresh =>
      have hne : event.consumerId ≠ row.id := fun heq => hfresh (heq ▸ hissued)
      split at hstep
      · next hcreated =>
        cases hstep
        refine ⟨⟨hwedged.writing, event, hmem, ?_, List.mem_cons_of_mem _ hissued⟩, rfl⟩
        rw [(insertConsumer_eq_ok hcreated).1, List.mem_append, List.mem_singleton]
        rintro (hold | hnew)
        · exact hgone hold
        · exact hne hnew
      · cases hstep
        exact ⟨⟨hwedged.writing, event, hmem, hgone, List.mem_cons_of_mem _ hissued⟩, rfl⟩
  | authenticate secretHash =>
    obtain ⟨identity, -, rfl⟩ := Option.map_eq_some_iff.mp hstep
    exact ⟨⟨hwedged.writing, hwedged.gone⟩, rfl⟩
  | begin i call archiveBudget =>
    obtain ⟨identity, -, hbegun⟩ := Option.bind_eq_some_iff.mp hstep
    split at hbegun
    · cases hbegun
    · split at hbegun <;> cases hbegun
      · exact ⟨⟨hwedged.writing, event, hmem, hgone, List.mem_cons_of_mem _ hissued⟩, rfl⟩
      · exact ⟨⟨hwedged.writing, hwedged.gone⟩, rfl⟩
  | send i sent =>
    obtain ⟨begun, -, hsent⟩ := Option.bind_eq_some_iff.mp hstep
    split at hsent <;> cases hsent
    exact ⟨⟨hwedged.writing, hwedged.gone⟩, rfl⟩
  | recordResponseTransport id bytes encoding headers =>
    simp only [step] at hstep
    split at hstep <;> cases hstep
    · exact ⟨⟨hwedged.writing, hwedged.gone⟩, rfl⟩
    · exact ⟨hwedged, rfl⟩
  | receive =>
    simp only [step, hwedged.writing] at hstep
    split at hstep <;> simp at hstep
  | stopReceiving => simp [step, hwedged.writing] at hstep
  | persist usedAt =>
    obtain ⟨error, herror⟩ := hwedged.persist_error usedAt
    simp only [step, hwedged.writing, if_true, herror] at hstep
    cases hstep
    exact ⟨hwedged, rfl⟩
  | persistUnavailable =>
    simp only [step, hwedged.writing, if_true] at hstep
    cases hstep
    exact ⟨hwedged, rfl⟩

end Step

/-- The empty database before the first call. -/
def initial : AuditNode := ⟨.empty, [], [], [], [], false, []⟩

/-- The consumer of the runs below. -/
def keyRow : Consumer := ⟨"c", "user", "name", "sk-test", "hash", true, 10, none, none⟩

/-- The call of the runs below. -/
def callStart : CallStart := ⟨"e", "request", none, "POST", "/v1/responses", "127.0.0.1", 20⟩

/-- The event of that call. -/
def callEvent : AuditEvent :=
  { AuditEvent.begin callStart ⟨"c", "user", true⟩ true with providerId := some "p", status := 200 }

/-- A call of a consumer is authenticated and begins its audit. -/
def begunCall : List AuditStep :=
  [.execute (.upsertUser "user"), .createConsumer keyRow, .authenticate "hash",
    .begin 0 callStart true]

/-- The call ends and the writer takes its event. -/
def endedCall : List AuditStep :=
  [.send 0 callEvent, .recordResponseTransport "e" 512 (some "gzip") (some "[]"), .receive,
    .receive, .stopReceiving]

/-- The statement at a run in which the provider of the call is deleted and the consumer stays. -/
theorem writer_makes_progress_after_deleteProvider :
    ∃ db, (initial.after (.execute (.insertProvider "p") :: begunCall ++
      [.execute (.deleteProvider "p")] ++ endedCall)).db.persist 30
        [.event callEvent, .responseTransport "e" 512 (some "gzip") (some "[]")] = .ok db := by
  have hstart : initial.Started := by
    refine ⟨rfl, rfl, rfl, rfl, fun id hmem => ?_, fun id hmem => ?_⟩ <;> cases hmem
  exact writer_makes_progress hstart (by decide) (Transition.run_eq_some_after (by decide)) 30

/-- The consumer is deleted while its call is in flight. -/
def deletedConsumer : AuditNode :=
  initial.after (begunCall ++ [.execute (.deleteConsumer "c" "user")] ++ endedCall)

/-- The batch of that call can never be committed: not in the state in which the writer took it,
and in no state that is reached from there. -/
theorem deleted_consumer_wedges_writer :
    initial.run (begunCall ++ [.execute (.deleteConsumer "c" "user")] ++ endedCall) =
        some deletedConsumer ∧
      deletedConsumer.batch =
        [.event callEvent, .responseTransport "e" 512 (some "gzip") (some "[]")] ∧
      ∀ steps t, deletedConsumer.run steps = some t → t.batch = deletedConsumer.batch ∧
        ∀ usedAt, ∃ error, t.db.persist usedAt t.batch = .error error := by
  have hwedged : deletedConsumer.Wedged :=
    ⟨rfl, callEvent, List.mem_cons_self, by decide, by decide⟩
  refine ⟨Transition.run_eq_some_after (by decide), rfl, fun steps t hrun => ?_⟩
  have hstays : t.Wedged ∧ t.batch = deletedConsumer.batch :=
    Transition.invariant_of_run wedged_step hrun ⟨hwedged, rfl⟩
  exact ⟨hstays.2, hstays.1.persist_error⟩

end AuditNode

end OpenAiLb
