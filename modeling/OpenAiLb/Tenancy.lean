import OpenAiLb.ConsumerEdits
import OpenAiLb.Headers
import OpenAiLb.Library.Replay
import OpenAiLb.Library.Resumptions
import OpenAiLb.UserUpdates

/-!
# Users and their credentials

The handlers of the console that write users and consumers, with each of their statements as one
access to the tables, so that the statements of other handlers may come in between: a login, the
four handlers of a consumer and `update_user`. The writer of the audit and the handlers of the
providers write the same tables. `api_identity` decides whom a consumer credential stands for.
-/

namespace OpenAiLb

open Resumption

/-- The functions of libraries that a credential is made with. -/
structure CredentialCodec where
  /-- `URL_SAFE_NO_PAD.encode`. -/
  encode : List UInt8 → String
  /-- `consumer_secret_hash`: SHA-256 in hexadecimal digits. -/
  consumerSecretHash : String → String

/-- What a statement has done to a credential, for which user. -/
inductive CredentialEvent where
  | issued (consumerId userId secretHash : String) (requestArchive : Bool)
  | archiveSet (consumerId userId : String) (requestArchive : Bool)
  /-- It was revoked, or its row was deleted. -/
  | withdrawn (consumerId userId : String)
  deriving DecidableEq

namespace CredentialEvent

/-- The consumer of the event. -/
def consumerId : CredentialEvent → String
  | issued id .. | archiveSet id .. | withdrawn id .. => id

/-- The user of the event. -/
def userId : CredentialEvent → String
  | issued _ userId .. | archiveSet _ userId .. | withdrawn _ userId => userId

end CredentialEvent

/-- The tables that the handlers share. Nothing reads the history: each statement adds to it what
it has done to a credential. -/
structure Tenancy where
  accounts : Accounts
  records : AuditDatabase
  history : List CredentialEvent

/-- What the answers of the handlers say. -/
inductive TenancyAnswer where
  | done
  | identity (user : UserIdentity)
  | created (id name keyPrefix secret : String) (requestArchive : Bool)
  | updated (id name : String) (requestArchive : Bool)
  deriving DecidableEq

namespace AuditDatabase

/-- `rows_affected` of a statement on `consumers`. -/
def affectedConsumers (db : AuditDatabase) (p : Consumer → Bool) : ℕ := db.consumers.rows.countP p

end AuditDatabase

namespace Tenancy

section Statements

/-- The first statement of `upsert_user`. -/
def register (id : String) (now : Int) (s : Tenancy) : Unit × Tenancy :=
  ((), { s with
    accounts := { s.accounts with users := s.accounts.users.register id now }
    records := s.records.insertUser id })

/-- The `INSERT` of `create_consumer`. -/
def insertConsumer (row : Consumer) (s : Tenancy) : Except AppError Unit × Tenancy :=
  match s.records.insertConsumer row with
  | .ok records => (.ok (), { s with
      records := records
      history := s.history ++
        [.issued row.id row.userId row.secretHash row.requestArchive] })
  | .error _ => (.error .internal, s)

/-- The `UPDATE` of `update_consumer`. -/
def editConsumer (id userId : String) (values : Settable) (s : Tenancy) : Unit × Tenancy :=
  ((), { s with
    records := s.records.editConsumer id userId values
    history := s.history ++
      if (s.records.ownConsumer id userId).isSome then
        [.archiveSet id userId values.requestArchive]
      else [] })

/-- The `UPDATE` of `revoke_consumer`, with `rows_affected`. -/
def revoke (id userId : String) (now : Int) (s : Tenancy) : ℕ × Tenancy :=
  let affected := s.records.affectedConsumers fun row =>
    row.id = id && row.userId = userId && row.revokedAt.isNone
  (affected, { s with
    records := s.records.revokeConsumer id userId now
    history := s.history ++ if affected = 0 then [] else [.withdrawn id userId] })

/-- The `DELETE` of `delete_consumer`, with `rows_affected`. -/
def delete (id userId : String) (s : Tenancy) : ℕ × Tenancy :=
  let affected := s.records.affectedConsumers fun row => row.id = id && row.userId = userId
  (affected, { s with
    records := s.records.deleteConsumer id userId
    history := s.history ++ if affected = 0 then [] else [.withdrawn id userId] })

end Statements

/-- A handler, one access to the tables after the other. -/
abbrev Handler := Resumption AppError Tenancy

/-- A statement on the tables of the management of users, with its answer. -/
def onAccounts {α : Type} (x : Managing α) : Handler α :=
  atomic (Stoppable.onPart Tenancy.accounts (fun s accounts => { s with accounts := accounts }) x)

section Handlers

variable (codec : CredentialCodec) (call : ConsoleCall)

/-- `browser_identity`, with the two statements of `upsert_user`. -/
def browserIdentity : Handler UserIdentity := do
  let userId ← await call.verified
  statement (register userId call.loginAt)
  let row ← read fun s => s.accounts.users.user? userId
  await ((row.map Users.identity).elim (.error .internal) .ok)

/-- `CreateConsumer`. -/
structure CreateConsumer where
  name : String
  requestArchive : Bool

/-- The random bytes and the random id of a new credential, and the clock. -/
structure Drawn where
  random : List UInt8
  id : String
  now : Int

/-- The secret of a new credential. -/
def newSecret (drawn : Drawn) : String := "sk-" ++ codec.encode drawn.random

/-- The row of a new credential. -/
def newConsumer (userId name : String) (input : CreateConsumer) (drawn : Drawn) : Consumer where
  id := drawn.id
  userId := userId
  name := name
  keyPrefix := String.ofList ((newSecret codec drawn).toList.take 11)
  secretHash := codec.consumerSecretHash (newSecret codec drawn)
  requestArchive := input.requestArchive
  createdAt := drawn.now
  lastUsedAt := none
  revokedAt := none

/-- `create_consumer`. -/
def createConsumer (input : CreateConsumer) (drawn : Drawn) : Handler TenancyAnswer := do
  let user ← browserIdentity call
  let name ← await (consumerName input.name)
  let row := newConsumer codec user.id name input drawn
  let inserted ← statement (insertConsumer row)
  await inserted
  return .created row.id row.name row.keyPrefix (newSecret codec drawn) row.requestArchive

/-- `update_consumer`. -/
def updateConsumer (id : String) (input : UpdateConsumer) : Handler TenancyAnswer := do
  let user ← browserIdentity call
  let values ← read fun s => readForUpdate s.records user.id id input
  let values ← await values
  statement (editConsumer id user.id values)
  return .updated id values.name values.requestArchive

/-- `revoke_consumer`. -/
def revokeConsumer (id : String) (now : Int) : Handler TenancyAnswer := do
  let user ← browserIdentity call
  let affected ← statement (revoke id user.id now)
  if affected = 0 then
    fail (.notFound "consumer not found")
  return .done

/-- `delete_consumer`. -/
def deleteConsumer (id : String) : Handler TenancyAnswer := do
  let user ← browserIdentity call
  let affected ← statement (delete id user.id)
  if affected = 0 then
    fail (.notFound "consumer not found")
  return .done

/-- One of the three parts of `update_user`: a statement that has to match a row, and its row of
`admin_audit`. -/
def updateRow (admin : UserIdentity) (id : String) (p : User → Bool) (write : Users → Users)
    (refusal : AppError) (action : String) (stamp : Stamp) : Handler Unit := do
  let affected ← onAccounts (executeOnUsers p write)
  if affected = 0 then
    fail refusal
  onAccounts (writeAdminAudit call admin.id action (some id) stamp)

/-- The part about `display_name`. -/
def updateDisplayName (admin : UserIdentity) (id displayName : String) (stamp : Stamp) :
    Handler Unit :=
  updateRow call admin id (fun user => user.id = id && true)
    (fun users => users.setDisplayName id displayName) (.notFound "user not found")
    "user.display_name.update" stamp

/-- The part about `role`. -/
def updateRole (admin : UserIdentity) (id role : String) (stamp : Stamp) : Handler Unit := do
  await (requireRoot admin)
  match assignableRole role with
  | none => fail (.badRequest "role must be admin or user")
  | some role =>
    updateRow call admin id (fun user => user.id = id && user.role ≠ .root)
      (fun users => users.setRole id role) (.notFound "user not found or root role is immutable")
      "user.role.update" stamp

/-- The part about `provider_access`. -/
def updateProviderAccess (admin : UserIdentity) (id : String) (providerAccess : Bool)
    (stamp : Stamp) : Handler Unit :=
  updateRow call admin id (fun user => user.id = id && user.role = .user)
    (fun users => users.setProviderAccess id providerAccess)
    (.badRequest "provider access only applies to tenant users")
    "user.provider_access.update" stamp

/-- `if let Some(value) = field`. -/
def forSome {α : Type} (field : Option α) (update : α → Handler Unit) : Handler Unit :=
  field.elim (pure ()) update

/-- `update_user`. -/
def updateUser (id : String) (input : UpdateUser) (nameStamp roleStamp accessStamp : Stamp) :
    Handler Unit := do
  let admin ← browserIdentity call
  await (requireAdmin admin)
  if input.displayName.isNone && input.role.isNone && input.providerAccess.isNone then
    fail (.badRequest "display_name, role, or provider_access is required")
  let displayName ← await (transpose (input.displayName.map (requiredSetting "display name")))
  forSome displayName fun displayName => updateDisplayName call admin id displayName nameStamp
  forSome input.role fun role => updateRole call admin id role roleStamp
  forSome input.providerAccess fun providerAccess =>
    updateProviderAccess call admin id providerAccess accessStamp

end Handlers

section Alone

variable {call : ConsoleCall} {admin : UserIdentity} {id : String} {stamp : Stamp}

/-- A login that nobody comes in between is the one that the management of users knows. -/
theorem agrees_browserIdentity :
    Agrees Tenancy.accounts (browserIdentity call) (OpenAiLb.browserIdentity call) := by
  refine (Agrees.await call.verified).bind fun userId s => ?_
  -- The row that the second statement reads is the one of the first.
  change seen Tenancy.accounts ((Resumption.await _).alone (register userId call.loginAt s).2) =
    Stoppable.await _ (register userId call.loginAt s).2.accounts
  exact Agrees.await _ _

/-- The update of one row agrees with its statements. -/
theorem agrees_updateRow {p : User → Bool} {write : Users → Users} {refusal : AppError}
    {action : String} :
    Agrees Tenancy.accounts (updateRow call admin id p write refusal action stamp) (do
      let affected ← executeOnUsers p write
      if affected = 0 then
        throw refusal
      writeAdminAudit call admin.id action (some id) stamp) := by
  have haudit : Agrees Tenancy.accounts
      (onAccounts (writeAdminAudit call admin.id action (some id) stamp))
      (writeAdminAudit call admin.id action (some id) stamp) := .atomic _ fun _ _ => rfl
  refine (Agrees.atomic _ fun _ _ => rfl).bind fun affected => ?_
  split
  · exact (Agrees.fail refusal).bind fun _ => haudit
  · exact haudit

/-- An optional update agrees if the update does. -/
theorem agrees_forSome {α : Type} {field : Option α} {update : α → Handler Unit}
    {update' : α → Managing Unit} (h : ∀ value, Agrees Tenancy.accounts (update value)
      (update' value)) :
    Agrees Tenancy.accounts (forSome field update) (OpenAiLb.forSome field update') := by
  cases field with
  | none => exact Agrees.pure ()
  | some value => exact h value

/-- **The handler that nobody comes in between** is the one that the management of users knows. -/
theorem agrees_updateUser {input : UpdateUser} {stamps : Fin 3 → Stamp} :
    Agrees Tenancy.accounts (updateUser call id input (stamps 0) (stamps 1) (stamps 2))
      (OpenAiLb.updateUser call id input stamps) := by
  have hrole (admin : UserIdentity) (role : String) (stamp : Stamp) :
      Agrees Tenancy.accounts (updateRole call admin id role stamp)
        (OpenAiLb.updateRole call admin id role stamp) := by
    refine (Agrees.await _).bind fun _ => ?_
    cases assignableRole role with
    | none => exact Agrees.fail _
    | some role => exact agrees_updateRow
  have hfields (admin : UserIdentity) (displayName : Option String) :
      Agrees Tenancy.accounts (do
          forSome displayName fun displayName =>
            updateDisplayName call admin id displayName (stamps 0)
          forSome input.role fun role => updateRole call admin id role (stamps 1)
          forSome input.providerAccess fun providerAccess =>
            updateProviderAccess call admin id providerAccess (stamps 2))
        (writeFields call admin id displayName input.role input.providerAccess stamps) := by
    refine (agrees_forSome fun name => agrees_updateRow).bind fun _ => ?_
    refine (agrees_forSome fun role => hrole admin role _).bind fun _ => ?_
    exact agrees_forSome fun access => agrees_updateRow
  refine agrees_browserIdentity.bind fun admin => (Agrees.await _).bind fun _ => ?_
  split
  · exact (Agrees.fail _).bind fun _ => (Agrees.await _).bind (hfields admin)
  · exact (Agrees.await _).bind (hfields admin)

end Alone

/-- What else writes the tables of the audit: the writer, the hourly cleanup, and the handlers of
the providers. -/
inductive Background where
  | persist (usedAt : Int) (batch : List QueuedAudit)
  | deleteExpired (cutoff : Int)
  | insertProvider (id : String)
  | deleteProvider (id : String)

/-- One transaction or one statement of these. -/
def Background.exec (records : AuditDatabase) : Background → AuditDatabase
  | persist usedAt batch =>
    match records.persist usedAt batch with
    | .ok records => records
    | .error _ => records
  | deleteExpired cutoff => records.deleteExpired cutoff
  | insertProvider id => records.insertProvider id
  | deleteProvider id => records.deleteProvider id

/-- A request of the console, or what goes on in the background. -/
inductive Request where
  /-- `me`, and whatever else begins with a login and writes none of these tables. -/
  | me (call : ConsoleCall)
  | createConsumer (call : ConsoleCall) (input : CreateConsumer) (drawn : Drawn)
  | updateConsumer (call : ConsoleCall) (id : String) (input : UpdateConsumer)
  | revokeConsumer (call : ConsoleCall) (id : String) (now : Int)
  | deleteConsumer (call : ConsoleCall) (id : String)
  | updateUser (call : ConsoleCall) (id : String) (input : UpdateUser)
    (nameStamp roleStamp accessStamp : Stamp)
  | background (work : Background)

/-- The call that a request of the console comes with. -/
def Request.call? : Request → Option ConsoleCall
  | me call | createConsumer call .. | updateConsumer call .. | revokeConsumer call ..
  | deleteConsumer call .. | updateUser call .. => some call
  | background _ => none

/-- The handler of a request. -/
def handle (codec : CredentialCodec) : Request → Handler TenancyAnswer
  | .me call => do
    let user ← browserIdentity call
    return .identity user
  | .createConsumer call input drawn => createConsumer codec call input drawn
  | .updateConsumer call id input => updateConsumer call id input
  | .revokeConsumer call id now => revokeConsumer call id now
  | .deleteConsumer call id => deleteConsumer call id
  | .updateUser call id input nameStamp roleStamp accessStamp => do
    updateUser call id input nameStamp roleStamp accessStamp
    return .done
  | .background work => do
    statement fun s => ((), { s with records := work.exec s.records })
    return .done

/-- A run of the handlers, in any order of their accesses. -/
abbrev Runs (codec : CredentialCodec) (s : Tenancy) (moves : List (Move Request))
    (t : Pool AppError Tenancy TenancyAnswer) : Prop :=
  Transition.run (Pool.step (handle codec)) ⟨s, []⟩ moves = some t

section Rules

variable {inv : Tenancy → Prop} {userId : String} {call : ConsoleCall}

/-- The invariant is restored by each statement that a handler makes for a user. Those of
`update_user` count only if the user was seen with the role that the handler asks for. -/
structure Respects (inv : Tenancy → Prop) (userId : String) : Prop where
  register : ∀ now s, inv s → inv (register userId now s).2
  insertConsumer : ∀ (row : Consumer) s, row.userId = userId → row.revokedAt = none → inv s →
    inv (insertConsumer row s).2
  editConsumer : ∀ id values s, inv s → inv (editConsumer id userId values s).2
  revoke : ∀ id now s, inv s → inv (revoke id userId now s).2
  delete : ∀ id s, inv s → inv (delete id userId s).2
  setDisplayName : (∃ s user, inv s ∧ s.accounts.users.user? userId = some user ∧
      user.role ≠ .user) →
    ∀ id displayName s, inv s → inv { s with
      accounts := { s.accounts with users := s.accounts.users.setDisplayName id displayName } }
  setRole : (∃ s user, inv s ∧ s.accounts.users.user? userId = some user ∧
      user.role = .root) →
    ∀ id role s, inv s → inv { s with
      accounts := { s.accounts with users := s.accounts.users.setRole id role } }
  setProviderAccess : (∃ s user, inv s ∧ s.accounts.users.user? userId = some user ∧
      user.role ≠ .user) →
    ∀ id access s, inv s → inv { s with
      accounts := { s.accounts with users := s.accounts.users.setProviderAccess id access } }
  audit : (∃ s user, inv s ∧ s.accounts.users.user? userId = some user ∧ user.role ≠ .user) →
    ∀ (row : AdminAudit) s, inv s → inv { s with
      accounts := { s.accounts with adminAudit := s.accounts.adminAudit ++ [row] } }

/-- The identity is that of the user, as a state with the invariant has shown it. -/
def SeenAs (inv : Tenancy → Prop) (userId : String) (identity : UserIdentity) : Prop :=
  ∃ s user, inv s ∧ s.accounts.users.user? userId = some user ∧ identity = Users.identity user

/-- The identity has the id under which it was seen. -/
theorem SeenAs.id {identity : UserIdentity} (h : SeenAs inv userId identity) :
    identity.id = userId := by
  obtain ⟨s, user, -, huser, rfl⟩ := h
  exact Users.user?_id huser

/-- A user whom `require_admin` lets through was seen as an administrator. -/
theorem SeenAs.admin {identity : UserIdentity} (h : SeenAs inv userId identity)
    (hadmin : requireAdmin identity = .ok ()) :
    ∃ s user, inv s ∧ s.accounts.users.user? userId = some user ∧ user.role ≠ .user := by
  obtain ⟨s, user, hs, huser, rfl⟩ := h
  refine ⟨s, user, hs, huser, ?_⟩
  unfold requireAdmin at hadmin
  split at hadmin
  · next hrole => rwa [isAdmin_identity] at hrole
  · cases hadmin

/-- A user whom `require_root` lets through was seen as the root. -/
theorem SeenAs.root {identity : UserIdentity} (h : SeenAs inv userId identity)
    (hroot : requireRoot identity = .ok ()) :
    ∃ s user, inv s ∧ s.accounts.users.user? userId = some user ∧ user.role = .root := by
  obtain ⟨s, user, hs, huser, rfl⟩ := h
  refine ⟨s, user, hs, huser, ?_⟩
  unfold requireRoot at hroot
  split at hroot
  · next hrole =>
    unfold Users.identity at hrole
    cases hshown : user.role with
    | root => rfl
    | admin => simp [Role.text, hshown] at hrole
    | user => simp [Role.text, hshown] at hrole
  · cases hroot

/-- What a login shows of its user. -/
theorem keeps_browserIdentity (h : ∀ userId, call.verified = .ok userId → Respects inv userId) :
    Keeps inv (fun identity => ∃ userId, call.verified = .ok userId ∧ SeenAs inv userId identity)
      (browserIdentity call) := by
  refine (Keeps.await call.verified).bind fun userId hverified => ?_
  have hregister : Keeps inv (fun _ => True) (statement (register userId call.loginAt) :
      Handler Unit) :=
    .statement (fun s hs => (h userId hverified).register call.loginAt s hs) fun _ _ => trivial
  have hread : Keeps inv (fun row => ∀ user ∈ row, SeenAs inv userId (Users.identity user))
      (read fun s => s.accounts.users.user? userId : Handler (Option User)) :=
    .read fun s hs user huser => ⟨s, user, hs, huser, rfl⟩
  refine hregister.bind fun _ _ => hread.bind fun row hrow => (Keeps.await _).imp ?_
  intro identity hidentity
  cases row with
  | none => cases hidentity
  | some user =>
    obtain rfl := Except.ok.inj hidentity
    exact ⟨userId, hverified, hrow user rfl⟩

/-- Each part of `update_user`. -/
theorem keeps_updateRow {admin : UserIdentity} {id : String} {p : User → Bool}
    {write : Users → Users} {refusal : AppError} {action : String} {stamp : Stamp}
    (hwrite : ∀ s, inv s → inv { s with
      accounts := { s.accounts with users := write s.accounts.users } })
    (haudit : ∀ (row : AdminAudit) s, inv s → inv { s with
      accounts := { s.accounts with adminAudit := s.accounts.adminAudit ++ [row] } }) :
    Keeps inv (fun _ => True) (updateRow call admin id p write refusal action stamp) := by
  have hexecute : Keeps inv (fun _ => True) (onAccounts (executeOnUsers p write)) :=
    .atomic fun s hs => ⟨hwrite s hs, trivial⟩
  have hrecord : Keeps inv (fun _ => True)
      (onAccounts (writeAdminAudit call admin.id action (some id) stamp)) :=
    .atomic fun s hs => ⟨haudit _ s hs, trivial⟩
  refine hexecute.bind fun affected _ => ?_
  split
  · exact (Keeps.fail refusal).bind fun _ (_ : True) => hrecord
  · exact hrecord

/-- An optional update keeps the invariant if the update does. -/
theorem keeps_forSome {α : Type} {field : Option α} {update : α → Handler Unit}
    (h : ∀ value, Keeps inv (fun _ => True) (update value)) :
    Keeps inv (fun _ => True) (forSome field update) := by
  cases field with
  | none => exact .pure trivial
  | some value => exact h value

/-- `update_user` after its checks. -/
theorem keeps_updateUser {id : String} {input : UpdateUser}
    {nameStamp roleStamp accessStamp : Stamp}
    (h : ∀ userId, call.verified = .ok userId → Respects inv userId) :
    Keeps inv (fun _ => True)
      (updateUser call id input nameStamp roleStamp accessStamp) := by
  refine (keeps_browserIdentity h).bind fun admin hseen => ?_
  obtain ⟨userId, hverified, hseen⟩ := hseen
  have hrespects := h userId hverified
  refine (Keeps.await _).bind fun _ hadmin => ?_
  have hprivileged := hseen.admin hadmin
  have haudit := hrespects.audit hprivileged
  have hname (displayName : String) (stamp : Stamp) :
      Keeps inv (fun _ => True) (updateDisplayName call admin id displayName stamp) :=
    keeps_updateRow (hrespects.setDisplayName hprivileged id displayName) haudit
  have hrole (role : String) (stamp : Stamp) :
      Keeps inv (fun _ => True) (updateRole call admin id role stamp) := by
    refine (Keeps.await _).bind fun _ hroot => ?_
    split
    · exact Keeps.fail _
    · next role _ => exact keeps_updateRow (hrespects.setRole (hseen.root hroot) id role) haudit
  have haccess (providerAccess : Bool) (stamp : Stamp) :
      Keeps inv (fun _ => True) (updateProviderAccess call admin id providerAccess stamp) :=
    keeps_updateRow (hrespects.setProviderAccess hprivileged id providerAccess) haudit
  have hfields : Keeps inv (fun _ => True) (do
      let displayName ← await (transpose (input.displayName.map (requiredSetting "display name")))
      forSome displayName fun displayName =>
        updateDisplayName call admin id displayName nameStamp
      forSome input.role fun role => updateRole call admin id role roleStamp
      forSome input.providerAccess fun providerAccess =>
        updateProviderAccess call admin id providerAccess accessStamp) := by
    refine (Keeps.await _).bind fun displayName _ => ?_
    refine (keeps_forSome fun name => hname name _).bind fun _ _ => ?_
    refine (keeps_forSome fun role => hrole role _).bind fun _ _ => ?_
    exact keeps_forSome fun access => haccess access _
  split
  · exact (Keeps.fail _).bind fun _ (_ : True) => hfields
  · exact hfields

/-- **Every handler restores an invariant** that its statements restore. -/
theorem keeps_handle (codec : CredentialCodec) {request : Request}
    (h : ∀ call ∈ request.call?, ∀ userId, call.verified = .ok userId → Respects inv userId)
    (hbackground : ∀ (work : Background) s, inv s →
      inv { s with records := work.exec s.records }) :
    Keeps inv (fun _ => True) (handle codec request) := by
  cases request with
  | me call => exact (keeps_browserIdentity (h call rfl)).bind fun _ _ => .pure trivial
  | createConsumer call input drawn =>
    refine (keeps_browserIdentity (h call rfl)).bind fun user hseen => ?_
    obtain ⟨userId, hverified, hseen⟩ := hseen
    refine (Keeps.await _).bind fun name _ => ?_
    have hinsert : Keeps inv (fun _ => True) (statement (insertConsumer
        (newConsumer codec user.id name input drawn)) : Handler (Except AppError Unit)) :=
      .statement (fun s hs => (h call rfl userId hverified).insertConsumer _ s hseen.id rfl hs)
        fun _ _ => trivial
    exact hinsert.bind fun _ _ => (Keeps.await _).bind fun _ _ => .pure trivial
  | updateConsumer call id input =>
    refine (keeps_browserIdentity (h call rfl)).bind fun user hseen => ?_
    obtain ⟨userId, hverified, hseen⟩ := hseen
    have hread : Keeps inv (fun _ => True) (read fun s => readForUpdate s.records user.id id input :
        Handler (Except AppError Settable)) := .read fun _ _ => trivial
    refine hread.bind fun _ _ => (Keeps.await _).bind fun values _ => ?_
    have hedit : Keeps inv (fun _ => True) (statement (editConsumer id user.id values) :
        Handler Unit) :=
      .statement (fun s hs => hseen.id ▸ (h call rfl userId hverified).editConsumer id values s hs)
        fun _ _ => trivial
    exact hedit.bind fun _ _ => .pure trivial
  | revokeConsumer call id now =>
    refine (keeps_browserIdentity (h call rfl)).bind fun user hseen => ?_
    obtain ⟨userId, hverified, hseen⟩ := hseen
    have hrevoke : Keeps inv (fun _ => True) (statement (revoke id user.id now) : Handler ℕ) :=
      .statement (fun s hs => hseen.id ▸ (h call rfl userId hverified).revoke id now s hs)
        fun _ _ => trivial
    refine hrevoke.bind fun affected _ => ?_
    split
    · exact (Keeps.fail _).bind fun _ (_ : True) => .pure trivial
    · exact .pure trivial
  | deleteConsumer call id =>
    refine (keeps_browserIdentity (h call rfl)).bind fun user hseen => ?_
    obtain ⟨userId, hverified, hseen⟩ := hseen
    have hdelete : Keeps inv (fun _ => True) (statement (delete id user.id) : Handler ℕ) :=
      .statement (fun s hs => hseen.id ▸ (h call rfl userId hverified).delete id s hs)
        fun _ _ => trivial
    refine hdelete.bind fun affected _ => ?_
    split
    · exact (Keeps.fail _).bind fun _ (_ : True) => .pure trivial
    · exact .pure trivial
  | updateUser call id input nameStamp roleStamp accessStamp =>
    exact (keeps_updateUser (h call rfl)).bind fun _ _ => .pure trivial
  | background work =>
    have hwork : Keeps inv (fun _ => True)
        (statement fun s => ((), { s with records := work.exec s.records }) : Handler Unit) :=
      .statement (fun s hs => hbackground work s hs) fun _ _ => trivial
    exact hwork.bind fun _ _ => .pure trivial

/-- The user of a request of the run. -/
def Called (moves : List (Move Request)) (userId : String) : Prop :=
  ∃ request call, .start request ∈ moves ∧ request.call? = some call ∧
    call.verified = .ok userId

/-- **Run.** What the statements for the users of the requests restore holds after every run. -/
theorem invariant_of_run {codec : CredentialCodec} {s : Tenancy} {moves : List (Move Request)}
    {t : Pool AppError Tenancy TenancyAnswer} (hs : inv s)
    (h : ∀ userId, Called moves userId → Respects inv userId)
    (hbackground : ∀ (work : Background) s, inv s →
      inv { s with records := work.exec s.records })
    (hrun : Runs codec s moves t) : inv t.state := by
  have hhandlers (request : Request) (hmem : .start request ∈ moves) :
      Keeps inv (fun _ => True) (handle codec request) :=
    keeps_handle codec (fun call hcall userId hverified =>
      h userId ⟨request, call, hmem, hcall, hverified⟩) hbackground
  exact (Pool.sound_of_run hs hhandlers hrun).state

end Rules

end Tenancy

namespace AppError

/-- `AppError::unauthorized`. -/
def unauthorized (message : String) : AppError := ⟨401, message⟩

end AppError

/-- `str::strip_prefix`. -/
def stripPrefix (start text : String) : Option String :=
  if startsWith text start then some (String.ofList (text.toList.drop start.length)) else none

/-- `bearer`. -/
def bearer (headers : HeaderMap) : Except AppError String :=
  ((((headers.get "authorization").bind HeaderValue.toStr).bind (stripPrefix "Bearer ")).filter
    (· ≠ "")).elim (.error (.unauthorized "missing bearer token")) .ok

/-- `ApiIdentity`. -/
structure TenantIdentity where
  consumerId : String
  userId : String
  requestArchive : Bool
  allProviders : Bool
  deriving DecidableEq

namespace Tenancy

/-- `FROM consumers k JOIN users u ON u.id=k.user_id WHERE k.secret_hash=? AND k.revoked_at IS
NULL`, with what the row means. -/
def consumerIdentity (s : Tenancy) (secretHash : String) : Option TenantIdentity :=
  (s.records.consumers.rows.find? fun row =>
      row.secretHash = secretHash && row.revokedAt.isNone).bind fun row =>
    (s.accounts.users.user? row.userId).map fun user =>
      { consumerId := row.id
        userId := row.userId
        requestArchive := row.requestArchive
        allProviders := user.role.text ≠ "user" || user.providerAccess }

/-- `api_identity`. -/
def apiIdentity (codec : CredentialCodec) (headers : HeaderMap) (s : Tenancy) :
    Except AppError TenantIdentity := do
  let secret ← bearer headers
  if startsWith secret "sk-" then
    (s.consumerIdentity (codec.consumerSecretHash secret)).elim
      (.error (.unauthorized "invalid consumer credential")) .ok
  else .error (.unauthorized "invalid consumer credential")

end Tenancy

end OpenAiLb
