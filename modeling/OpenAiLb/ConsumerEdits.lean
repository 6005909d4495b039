import OpenAiLb.AuditDatabase
import OpenAiLb.Library.Folds
import OpenAiLb.Library.Tasks
import OpenAiLb.Library.Transition
import OpenAiLb.Oauth

/-!
# Concurrent edits of a consumer

`update_consumer` reads the row of a consumer and then writes both its name and its flag for the
archive, with the value that it has read for a field that the call does not mention. Between the
two statements another edit may write the row, and what it wrote is then overwritten. An edit
whose row still has the values that it has read, in the fields that it does not mention, changes
nothing but the fields that it mentions.
-/

namespace OpenAiLb

open Transition

/-- `UpdateConsumer`. -/
structure UpdateConsumer where
  name : Option String
  requestArchive : Option Bool
  deriving DecidableEq

/-- `consumer_name`. -/
def consumerName (value : String) : Except AppError String :=
  let name := trim value
  if name = "" || 80 < name.utf8ByteSize then
    .error (.badRequest "consumer name must be 1-80 characters")
  else .ok name

/-- The two columns that an edit writes. -/
structure Settable where
  name : String
  requestArchive : Bool
  deriving DecidableEq

/-- The settable columns of a row. -/
def Consumer.settable (row : Consumer) : Settable := ⟨row.name, row.requestArchive⟩

namespace AuditDatabase

/-- `SELECT … FROM consumers WHERE id=? AND user_id=?`. -/
def ownConsumer (db : AuditDatabase) (id userId : String) : Option Consumer :=
  (db.consumers.find? id).filter fun row => row.userId = userId

/-- `UPDATE consumers SET name=?,request_archive=? WHERE id=? AND user_id=?`. -/
def editConsumer (db : AuditDatabase) (id userId : String) (values : Settable) : AuditDatabase :=
  db.updateConsumers (fun row => row.id = id && row.userId = userId)
    (fun row => { row with name := values.name, requestArchive := values.requestArchive })
    (fun _ => rfl) (fun _ => rfl) fun _ => rfl

/-- Editing sets the fields of the consumer, if it belongs to the user. -/
theorem ownConsumer_editConsumer (db : AuditDatabase) (id userId : String) (values : Settable) :
    (db.editConsumer id userId values).ownConsumer id userId =
      (db.ownConsumer id userId).map fun row =>
        { row with name := values.name, requestArchive := values.requestArchive } := by
  unfold ownConsumer editConsumer updateConsumers
  dsimp only
  rw [Table.find?_updateWhere]
  cases hfound : db.consumers.find? id with
  | none => rfl
  | some row =>
    have hid : row.id = id := Table.key_of_find? hfound
    by_cases huser : row.userId = userId
    · simp [Option.filter, hid, huser]
    · simp [Option.filter, huser]

end AuditDatabase

/-- The beginning of `update_consumer`, up to its `SELECT`: the values that it will write. -/
def readForUpdate (db : AuditDatabase) (userId id : String) (input : UpdateConsumer) :
    Except AppError Settable :=
  if input.name.isNone && input.requestArchive.isNone then
    .error (.badRequest "consumer update is empty")
  else match db.ownConsumer id userId with
    | none => .error (.notFound "consumer not found")
    | some current =>
      if input.requestArchive.isSome && current.revokedAt.isSome then
        .error (.notFound "consumer not found")
      else (input.name.elim (.ok current.name) consumerName).map fun name =>
        ⟨name, input.requestArchive.getD current.requestArchive⟩

/-- How far a call of `update_consumer` has come. -/
inductive EditPhase where
  | started
  /-- The row was read. -/
  | read (values : Settable)
  | returned (result : Except AppError Settable)

/-- A call of `update_consumer`. -/
structure EditCall where
  input : UpdateConsumer
  phase : EditPhase

/-- The database, the calls in the order in which they started, and, in the order of their
`UPDATE`s, the inputs that were written. -/
structure Editing where
  db : AuditDatabase
  calls : List EditCall
  updates : List UpdateConsumer

/-- A call starts, or makes its next statement. -/
inductive EditAction where
  | start (input : UpdateConsumer)
  | advance (i : ℕ)
  deriving DecidableEq

section Edits

variable (userId id : String)

/-- One step of the calls of an owner on one consumer. -/
def Editing.step (s : Editing) : EditAction → Option Editing
  | .start input => some { s with calls := s.calls ++ [⟨input, .started⟩] }
  | .advance i =>
    match s.calls[i]? with
    | some ⟨input, .started⟩ =>
      match readForUpdate s.db userId id input with
      | .ok values => some { s with calls := s.calls.set i ⟨input, .read values⟩ }
      | .error e => some { s with calls := s.calls.set i ⟨input, .returned (.error e)⟩ }
    | some ⟨input, .read values⟩ =>
      some ⟨s.db.editConsumer id userId values, s.calls.set i ⟨input, .returned (.ok values)⟩,
        s.updates ++ [input]⟩
    | _ => none

/-- What an input means for the settable columns. -/
def UpdateConsumer.apply (values : Settable) (input : UpdateConsumer) : Settable :=
  ⟨(input.name.map trim).getD values.name, input.requestArchive.getD values.requestArchive⟩

/-- A call that is about to write finds, in the fields that it does not mention, the values that it
has read. -/
def EditCall.FieldsAsRead (db : AuditDatabase) : Option EditCall → Prop
  | some ⟨input, .read values⟩ => ∀ row ∈ db.ownConsumer id userId,
      (input.name = none → row.name = values.name) ∧
      (input.requestArchive = none → row.requestArchive = values.requestArchive)
  | _ => True

/-- A step finds the fields that its call does not mention as the call has read them. -/
def FieldsAsRead (s : Editing) : EditAction → Prop
  | .start _ => True
  | .advance i => EditCall.FieldsAsRead userId id s.db s.calls[i]?

instance (db : AuditDatabase) : ∀ call, Decidable (EditCall.FieldsAsRead userId id db call)
  | some ⟨input, .read values⟩ => inferInstanceAs (Decidable (∀ row ∈ db.ownConsumer id userId,
      (input.name = none → row.name = values.name) ∧
      (input.requestArchive = none → row.requestArchive = values.requestArchive)))
  | some ⟨_, .started⟩ => inferInstanceAs (Decidable True)
  | some ⟨_, .returned _⟩ => inferInstanceAs (Decidable True)
  | none => inferInstanceAs (Decidable True)

instance (s : Editing) : ∀ action, Decidable (FieldsAsRead userId id s action)
  | .start _ => inferInstanceAs (Decidable True)
  | .advance i => inferInstanceAs (Decidable (EditCall.FieldsAsRead userId id s.db s.calls[i]?))

/-- The values that a call is about to write are those of its input where it mentions a field. -/
def Mentions (input : UpdateConsumer) (values : Settable) : Prop :=
  (∀ name ∈ input.name, values.name = trim name) ∧
    ∀ archive ∈ input.requestArchive, values.requestArchive = archive

variable {userId id}

/-- A field that the body leaves out keeps its value. -/
theorem mentions_of_read {db : AuditDatabase} {input : UpdateConsumer} {values : Settable}
    (h : readForUpdate db userId id input = .ok values) : Mentions input values := by
  obtain ⟨name, requestArchive⟩ := input
  unfold readForUpdate at h
  split at h
  · cases h
  split at h
  · cases h
  split at h
  · cases h
  cases name with
  | none =>
    obtain rfl := Except.ok.inj h
    exact ⟨nofun, by rintro archive ⟨⟩; rfl⟩
  | some name =>
    rw [Option.elim_some] at h
    cases hname : consumerName name with
    | error e =>
      rw [hname] at h
      cases h
    | ok accepted =>
      rw [hname] at h
      obtain rfl := Except.ok.inj h
      have htrim : accepted = trim name := by
        unfold consumerName at hname
        dsimp only at hname
        split at hname
        · cases hname
        · exact (Except.ok.inj hname).symm
      exact ⟨by rintro _ ⟨⟩; exact htrim, by rintro archive ⟨⟩; rfl⟩

/-- An edit that finds its fields as it has read them writes what its input means for the row. -/
theorem Mentions.eq_apply {input : UpdateConsumer} {values : Settable} {row : Consumer}
    (h : Mentions input values) (hname : input.name = none → row.name = values.name)
    (harchive : input.requestArchive = none → row.requestArchive = values.requestArchive) :
    values = input.apply row.settable := by
  obtain ⟨name, requestArchive⟩ := values
  unfold UpdateConsumer.apply Consumer.settable
  congr 1
  · cases hinput : input.name with
    | none => simpa using (hname hinput).symm
    | some text => simpa using h.1 text hinput
  · cases hinput : input.requestArchive with
    | none => simpa using (harchive hinput).symm
    | some archive => simpa using h.2 archive hinput

/-- What holds after any number of steps: the row has what the updates so far mean, one after the
other, and these are the updates of the calls that have succeeded. -/
structure EditInvariant (userId id : String) (initial : Settable) (s : Editing) : Prop where
  row : ∃ row, s.db.ownConsumer id userId = some row ∧
    row.settable = s.updates.foldl UpdateConsumer.apply initial
  reading : ∀ (i : ℕ) input values, s.calls[i]? = some ⟨input, .read values⟩ → Mentions input values
  written : ∀ (i : ℕ) input values, s.calls[i]? = some ⟨input, .returned (.ok values)⟩ →
    input ∈ s.updates
  updates : ∀ input ∈ s.updates,
    ∃ (i : ℕ) (values : Settable), s.calls[i]? = some ⟨input, .returned (.ok values)⟩

/-- Without an update, the phases of the calls alone change. -/
theorem EditInvariant.set {initial : Settable} {s : Editing} {i : ℕ} {input : UpdateConsumer}
    {phase : EditPhase} (h : EditInvariant userId id initial s)
    (hold : s.calls[i]? = some ⟨input, .started⟩)
    (hreading : ∀ values, phase = .read values → Mentions input values)
    (hreturned : ∀ values, phase ≠ .returned (.ok values)) :
    EditInvariant userId id initial { s with calls := s.calls.set i ⟨input, phase⟩ } where
  row := h.row
  reading := by
    intro j input' values hj
    rcases Tasks.of_set hold hj with ⟨-, hnew⟩ | ⟨-, hbefore⟩
    · obtain ⟨rfl, rfl⟩ := EditCall.mk.inj hnew
      exact hreading values rfl
    · exact h.reading j input' values hbefore
  written := by
    intro j input' values hj
    rcases Tasks.of_set hold hj with ⟨-, hnew⟩ | ⟨-, hbefore⟩
    · obtain ⟨rfl, rfl⟩ := EditCall.mk.inj hnew
      exact absurd rfl (hreturned values)
    · exact h.written j input' values hbefore
  updates := by
    intro input' hmem
    obtain ⟨j, values, hj⟩ := h.updates input' hmem
    refine ⟨j, values, Tasks.set_other ?_ hj⟩
    rintro rfl
    cases hold.symm.trans hj

/-- **Step.** An admissible step keeps the invariant. -/
theorem EditInvariant.step {initial : Settable} {s t : Editing} {action : EditAction}
    (h : EditInvariant userId id initial s) (hread : FieldsAsRead userId id s action)
    (hstep : Editing.step userId id s action = some t) : EditInvariant userId id initial t := by
  cases action with
  | start input =>
    obtain rfl := Option.some.inj hstep
    have hnew : ∀ (j : ℕ) (call : EditCall),
        (s.calls ++ [⟨input, .started⟩])[j]? = some call → call.phase ≠ .started →
          s.calls[j]? = some call := by
      intro j call hj hphase
      rcases Tasks.of_start hj with hbefore | ⟨-, rfl⟩
      · exact hbefore
      · exact absurd rfl hphase
    exact
      { row := h.row
        reading := fun j input values hj => h.reading j input values (hnew j _ hj nofun)
        written := fun j input values hj => h.written j input values (hnew j _ hj nofun)
        updates := fun input hmem => by
          obtain ⟨j, values, hj⟩ := h.updates input hmem
          exact ⟨j, values, Tasks.start_other hj⟩ }
  | advance i =>
    unfold Editing.step at hstep
    dsimp only at hstep
    split at hstep
    · next input hold =>
      split at hstep
      · next values hok =>
        obtain rfl := Option.some.inj hstep
        exact h.set hold (by rintro _ ⟨⟩; exact mentions_of_read hok) nofun
      · next e hfailed =>
        obtain rfl := Option.some.inj hstep
        exact h.set hold nofun nofun
    · next input values hold =>
      obtain rfl := Option.some.inj hstep
      obtain ⟨row, hrow, hsettable⟩ := h.row
      have hmentions := h.reading i input values hold
      unfold FieldsAsRead at hread
      dsimp only at hread
      rw [hold] at hread
      obtain ⟨hname, harchive⟩ := hread row hrow
      have hvalues := hmentions.eq_apply hname harchive
      refine ⟨⟨{ row with name := values.name, requestArchive := values.requestArchive }, ?_, ?_⟩,
        ?_, ?_, ?_⟩
      · rw [AuditDatabase.ownConsumer_editConsumer, hrow, Option.map_some]
      · rw [List.foldl_append, ← hsettable]
        exact hvalues
      · intro j input' values' hj
        rcases Tasks.of_set hold hj with ⟨-, hnew⟩ | ⟨-, hbefore⟩
        · cases hnew
        · exact h.reading j input' values' hbefore
      · intro j input' values' hj
        rcases Tasks.of_set hold hj with ⟨-, hnew⟩ | ⟨-, hbefore⟩
        · obtain ⟨rfl, -⟩ := EditCall.mk.inj hnew
          exact List.mem_append_right _ (List.mem_singleton.mpr rfl)
        · exact List.mem_append_left _ (h.written j input' values' hbefore)
      · intro input' hmem
        rcases List.mem_append.mp hmem with hmem | hmem
        · obtain ⟨j, values', hj⟩ := h.updates input' hmem
          refine ⟨j, values', Tasks.set_other ?_ hj⟩
          rintro rfl
          cases hold.symm.trans hj
        · obtain rfl := List.mem_singleton.mp hmem
          exact ⟨i, values, Tasks.set_self hold⟩
    · cases hstep

/-- **Run.** In a run whose steps are all admissible, the row always has what the updates so far
mean, one after the other. -/
theorem editInvariant_of_run {db : AuditDatabase} {row : Consumer} {s : Editing}
    {actions : List EditAction} (hrow : db.ownConsumer id userId = some row)
    (hread : Guarded (Editing.step userId id) (FieldsAsRead userId id) ⟨db, [], []⟩ actions)
    (hrun : run (Editing.step userId id) ⟨db, [], []⟩ actions = some s) :
    EditInvariant userId id row.settable s :=
  invariant_of_guarded (fun h hok hstep => h.step hok hstep) hread hrun
    ⟨⟨row, hrow, rfl⟩, by simp, by simp, by simp⟩

/-- The last update that mentions a field decides it. -/
theorem name_foldl_apply (updates : List UpdateConsumer) (initial : Settable) :
    (updates.foldl UpdateConsumer.apply initial).name =
      ((updates.filterMap UpdateConsumer.name).getLast?.map trim).getD initial.name := by
  have hstep (settable : Settable) (input : UpdateConsumer) :
      (input.apply settable).name = (input.name.map trim).getD settable.name := rfl
  exact Folds.last_of_foldl hstep updates initial

/-- The archive flag is the one that was set last. -/
theorem requestArchive_foldl_apply (updates : List UpdateConsumer) (initial : Settable) :
    (updates.foldl UpdateConsumer.apply initial).requestArchive =
      (updates.filterMap UpdateConsumer.requestArchive).getLast?.getD initial.requestArchive := by
  have hstep (settable : Settable) (input : UpdateConsumer) :
      (input.apply settable).requestArchive =
        (input.requestArchive.map id).getD settable.requestArchive := by
    rw [Option.map_id_fun]
    rfl
  rw [Folds.last_of_foldl hstep, Option.map_id_fun, id]

/-- **Edits of different fields do not undo each other** in a run in which every `UPDATE` finds the
fields that its call does not mention as the call has read them. At any time the row has what the
updates so far mean, one after the other, each in the fields that it mentions. When one call sets
only the name and the others only the flag for the archive, and all have succeeded, the row has the
new name and the flag of the last update of it. -/
theorem edits_survive {db : AuditDatabase} {row : Consumer} {s : Editing}
    {actions : List EditAction} (hrow : db.ownConsumer id userId = some row)
    (hread : Guarded (Editing.step userId id) (FieldsAsRead userId id) ⟨db, [], []⟩ actions)
    (hrun : run (Editing.step userId id) ⟨db, [], []⟩ actions = some s) :
    ∃ after, s.db.ownConsumer id userId = some after ∧
      after.settable = s.updates.foldl UpdateConsumer.apply row.settable ∧
      ∀ (i : ℕ) (name : String), (s.calls[i]?.map EditCall.input) = some ⟨some name, none⟩ →
        (∀ (j : ℕ) (call : EditCall), j ≠ i → s.calls[j]? = some call →
          ∃ archive, call.input = ⟨none, some archive⟩) →
        (∀ call ∈ s.calls, ∃ values, call.phase = .returned (.ok values)) →
        after.name = trim name ∧ after.requestArchive =
          (s.updates.filterMap UpdateConsumer.requestArchive).getLast?.getD row.requestArchive := by
  have h := editInvariant_of_run hrow hread hrun
  obtain ⟨after, hafter, hsettable⟩ := h.row
  refine ⟨after, hafter, hsettable, ?_⟩
  intro i name hcall hothers hreturned
  have hname := (congrArg Settable.name hsettable).trans (name_foldl_apply ..)
  have harchive := (congrArg Settable.requestArchive hsettable).trans
    (requestArchive_foldl_apply ..)
  refine ⟨?_, harchive⟩
  -- The update of the name is there, and no other one mentions a name.
  obtain ⟨⟨input, phase⟩, hi, rfl⟩ := Option.map_eq_some_iff.mp hcall
  obtain ⟨values, rfl⟩ := hreturned _ (List.mem_of_getElem? hi)
  have hthere : name ∈ s.updates.filterMap UpdateConsumer.name :=
    List.mem_filterMap.mpr ⟨_, h.written i _ values hi, rfl⟩
  have honly : ∀ other ∈ s.updates.filterMap UpdateConsumer.name, other = name := by
    intro other hother
    obtain ⟨input, hmem, hname⟩ := List.mem_filterMap.mp hother
    obtain ⟨j, values', hj⟩ := h.updates input hmem
    by_cases hsame : j = i
    · subst hsame
      cases hi.symm.trans hj
      exact (Option.some.inj hname).symm
    · obtain ⟨archive, hinput⟩ := hothers j _ hsame hj
      dsimp only at hinput
      subst hinput
      cases hname
  have hlast : (s.updates.filterMap UpdateConsumer.name).getLast? = some name := by
    obtain ⟨last, hlast⟩ := Option.isSome_iff_exists.mp
      (List.getLast?_isSome.mpr (List.ne_nil_of_mem hthere))
    rw [hlast, honly last (List.mem_of_getLast? hlast)]
  rw [hlast] at hname
  exact hname

/-- A database with one consumer, whose requests are archived. -/
def oneConsumer : AuditDatabase :=
  { AuditDatabase.empty with
    users := ["owner"]
    consumers := ⟨[⟨"key", "owner", "old", "sk-", "hash", true, 0, none, none⟩], by decide⟩
    secretsUnique := by decide
    consumersReference := by
      change ∀ consumer ∈ [_], _
      simp
    callsConsumer := fun _ h => absurd h (Table.not_mem_empty _)
    callsUser := fun _ h => absurd h (Table.not_mem_empty _) }

/-- The row of that consumer. -/
def keyRow : Consumer := ⟨"key", "owner", "old", "sk-", "hash", true, 0, none, none⟩

/-- One call renames the consumer and another one turns the archive off. -/
def startBoth : List EditAction := [.start ⟨some "new", none⟩, .start ⟨none, some false⟩]

/-- One call after the other. -/
def oneByOne : List EditAction :=
  startBoth ++ [.advance 0, .advance 0, .advance 1, .advance 1]

/-- Both calls read before either of them writes. -/
def bothRead : List EditAction :=
  startBoth ++ [.advance 0, .advance 1, .advance 1, .advance 0]

/-- The statement for a run in which one call follows the other. -/
theorem edits_survive_one_by_one :
    ∃ after, (Transition.after (Editing.step "owner" "key") ⟨oneConsumer, [], []⟩
        oneByOne).db.ownConsumer "key" "owner" = some after ∧
      after.name = "new" ∧ after.requestArchive = false := by
  have hrun : run (Editing.step "owner" "key") ⟨oneConsumer, [], []⟩ oneByOne =
      some (Transition.after (Editing.step "owner" "key") ⟨oneConsumer, [], []⟩ oneByOne) :=
    run_eq_some_after (by decide)
  have hrow : oneConsumer.ownConsumer "key" "owner" = some keyRow := by decide
  obtain ⟨after, hafter, -, hvalues⟩ := edits_survive hrow (by decide) hrun
  have hcalls : (Transition.after (Editing.step "owner" "key") ⟨oneConsumer, [], []⟩
      oneByOne).calls = [⟨⟨some "new", none⟩, .returned (.ok ⟨"new", true⟩)⟩,
        ⟨⟨none, some false⟩, .returned (.ok ⟨"new", false⟩)⟩] := by rfl
  refine ⟨after, hafter, hvalues 0 "new" ?_ ?_ ?_⟩
  · rw [hcalls]
    rfl
  · rw [hcalls]
    rintro (_ | _ | j) call hne hcall
    · exact absurd rfl hne
    · obtain rfl := Option.some.inj hcall
      exact ⟨false, rfl⟩
    · cases hcall
  · rw [hcalls]
    simp

/-- Both calls read before either of them writes, and the archive is on again. -/
theorem rename_turns_archive_on :
    ∃ s after, run (Editing.step "owner" "key") ⟨oneConsumer, [], []⟩ bothRead = some s ∧
      (∀ call ∈ s.calls, ∃ values, call.phase = .returned (.ok values)) ∧
      s.updates = [⟨none, some false⟩, ⟨some "new", none⟩] ∧
      s.db.ownConsumer "key" "owner" = some after ∧ after.requestArchive = true := by
  refine ⟨_, _, rfl, ?_, rfl, rfl, rfl⟩
  change ∀ call ∈ [(⟨⟨some "new", none⟩, .returned (.ok ⟨"new", true⟩)⟩ : EditCall),
    ⟨⟨none, some false⟩, .returned (.ok ⟨"old", false⟩)⟩],
      ∃ values, call.phase = .returned (.ok values)
  simp

end Edits

end OpenAiLb
