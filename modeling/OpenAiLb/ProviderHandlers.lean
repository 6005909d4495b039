import OpenAiLb.Balancer
import OpenAiLb.Headers
import OpenAiLb.Statements
import OpenAiLb.UserUpdates

/-!
# The handlers of one provider

The console reads and changes a provider through handlers that first sign their caller in and then
ask whether he manages the provider: as an administrator, or as the owner of the row. A grant lets
a user route calls to a provider, but not manage it.
-/

namespace OpenAiLb

open Stoppable

/-- The state of the process as the handlers of providers see it. -/
structure ConsoleNode where
  accounts : Accounts
  routing : Database
  /-- Both parts speak of one table `users`. -/
  known : routing.users = accounts.users.table.keys
  balancer : Balancer
  /-- The forms that were sent to the token endpoint. -/
  tokenRequests : List (List (String × String))

/-- A computation of a handler of providers. -/
abbrev Console := EStateM AppError ConsoleNode

/-- The answer of a handler: the headers that it sets itself, and the JSON of the body. -/
structure ConsoleReply where
  headers : HeaderMap
  json : Value

namespace Console

/-- The body of `update_provider`. -/
structure ProviderUpdate where
  name : Option String
  enabled : Option Bool
  refresh : Option Bool
  deriving DecidableEq

/-- `ReplaceProviderTokens`. -/
structure ReplaceProviderTokens where
  name : String
  accessKey : String
  refreshKey : String

/-- `CreateProviderGrant`. -/
structure CreateProviderGrant where
  userId : String

end Console

/-- What `refresh_provider` gets from the outside. -/
structure Refreshing where
  /-- What others do until the lock of the provider is free. -/
  waiting : ConsoleNode → ConsoleNode
  /-- What others do while the token endpoint is asked. -/
  requesting : ConsoleNode → ConsoleNode
  answer : TokenAnswer
  clientId : String
  now : Int

section Statements

variable {stmt : Statement} {db db' : Database} {affected : ℕ}

/-- No statement of these handlers writes `users`. -/
theorem users_of_exec (h : stmt.exec db = .ok (db', affected)) : db'.users = db.users := by
  cases stmt with
  | createProvider =>
    simp only [Statement.exec] at h
    split at h
    · next hinsert =>
      cases h
      exact (Database.frame_of_insertProvider hinsert).2.2.2
    · cases h
  | createGrant => exact (Database.frame_of_insertGrant h).2.2.2
  | deleteProvider | deleteGrant | rename | setEnabled | refreshProvider | refreshIfNeeded
  | refreshFailed | replaceTokens =>
    cases h
    rfl

end Statements

namespace ConsoleNode

variable (s : ConsoleNode)

/-- The node with other users and another `admin_audit`. -/
def withAccounts (accounts : Accounts) : ConsoleNode :=
  { s with
    accounts := accounts
    routing := { s.routing with users := accounts.users.table.keys }
    known := rfl }

/-- The node after a statement on the routing tables. -/
def withRouting (db : Database) (h : db.users = s.routing.users) : ConsoleNode :=
  { s with routing := db, known := h.trans s.known }

/-- The node after `reload_providers`. -/
def reloaded : ConsoleNode := { s with balancer := s.balancer.reloadProviders s.routing }

/-- The node after a form was sent to the token endpoint. -/
def sending (form : List (String × String)) : ConsoleNode :=
  { s with tokenRequests := s.tokenRequests ++ [form] }

/-- The row of a provider. -/
def row (id : String) : Option Provider := s.routing.provider? id

/-- The provider as the snapshot has it. -/
def cached (id : String) : Option Provider := s.balancer.providers.find? id

/-- The queries of `require_provider_manager`: an administrator manages every provider that exists,
anybody else those that he owns. -/
def admits (user : UserIdentity) (id : String) : Bool :=
  if isAdmin user then (s.row id).isSome
  else (s.row id).any fun provider => provider.ownerId = some user.id

end ConsoleNode

section Primitives

/-- Run a computation on the users and `admin_audit`. -/
def onAccounts {α : Type} (x : Managing α) : Console α :=
  onPart ConsoleNode.accounts ConsoleNode.withAccounts x

/-- Execute a statement on the routing tables: the number of rows that it affects. -/
def executeOnProviders (stmt : Statement) : Console ℕ := fun s =>
  match h : stmt.exec s.routing with
  | .ok (db, affected) => .ok affected (s.withRouting db (users_of_exec h))
  | .error _ => .error .internal s

/-- `state.balancer.reload_providers(&state.db)`. -/
def reload : Console Unit := modify ConsoleNode.reloaded

/-- The result of a computation as a value. -/
def attempt {α : Type} (x : Console α) : Console (Except AppError α) := fun s =>
  match x s with
  | .ok a t => .ok (.ok a) t
  | .error e t => .ok (.error e) t

/-- An answer without headers of its own. -/
def json (value : Value) : ConsoleReply := ⟨.new, value⟩

variable (call : ConsoleCall)

/-- Run an operation on a provider and write its row of `admin_audit`, whatever its result. -/
def audited {α : Type} (user : UserIdentity) (action id : String) (stamp : Stamp)
    (operation : Console α) : Console α := do
  let result ← attempt operation
  onAccounts <| writeAdminAudit call user.id
    (if result.isOk then action else action ++ ".failed") (some id) stamp
  await result

/-- `require_provider_manager`. -/
def requireProviderManager (user : UserIdentity) (id : String) : Console Unit := do
  let s ← get
  if s.admits user id then pure () else throw (.notFound "provider not found")

end Primitives

section Handlers

variable (jwt : JwtCodec) (call : ConsoleCall) (id : String) (stamp : Stamp)

/-- The part of `update_provider` about `name`. -/
def renameProvider (now : Int) (name : String) : Console Unit :=
  discard (executeOnProviders (.rename id (trim name) now))

/-- The part of `update_provider` about `enabled`. -/
def enableProvider (now : Int) (enabled : Bool) : Console Unit :=
  discard (executeOnProviders (.setEnabled id enabled now))

/-- The form of `oauth::refresh`. -/
def refreshForm (clientId refresh : String) : List (String × String) :=
  [("grant_type", "refresh_token"), ("refresh_token", refresh), ("client_id", clientId)]

/-- The part of `refresh_provider` that asks the token endpoint for the tokens of a row. -/
def requestTokens (r : Refreshing) (row : Provider) : Console TokenResponse := do
  modify fun s => s.sending (refreshForm r.clientId row.refreshToken)
  modify r.requesting
  await (tokenRequest r.answer)

/-- The part of `refresh_provider` that writes the new tokens of a row. -/
def writeTokens (now : Int) (row : Provider) (token : TokenResponse) : Console Unit := do
  let accountId := (jwt.accountIdFromJwt token.accessToken).getD row.accountId
  let updated ← executeOnProviders (.refreshProvider id row.refreshToken token accountId now)
  if updated = 0 then
    throw (.unavailable "provider credential changed during refresh")
  reload

/-- `refresh_provider`, from the lock on. -/
def refreshProvider (r : Refreshing) : Console Unit := do
  modify r.waiting
  let s ← get
  match s.row id with
  | none => throw (.notFound "provider not found")
  | some row =>
    let token ← requestTokens r row
    writeTokens jwt id r.now row token

/-- The statements of `update_provider`; `renamedAt` and `enabledAt` are the clocks of the first
two. -/
def writeProvider (input : Console.ProviderUpdate) (renamedAt enabledAt : Int) (r : Refreshing) :
    Console ConsoleReply := do
  (input.name.filter fun name => trim name ≠ "").elim (pure ()) (renameProvider id renamedAt)
  input.enabled.elim (pure ()) (enableProvider id enabledAt)
  if input.refresh.getD false then
    refreshProvider jwt id r
  reload
  pure (json (.object [("ok", .bool true)]))

/-- `update_provider`. -/
def updateProvider (input : Console.ProviderUpdate) (renamedAt enabledAt : Int) (r : Refreshing) :
    Console ConsoleReply := do
  let user ← onAccounts (browserIdentity call)
  requireProviderManager user id
  audited call user "provider.update" id stamp (writeProvider jwt id input renamedAt enabledAt r)

/-- `read_provider_tokens`. -/
def readProviderTokens : Console ConsoleReply := do
  let user ← onAccounts (browserIdentity call)
  requireProviderManager user id
  audited call user "provider.tokens.read" id stamp do
    let s ← get
    let some row := s.row id
      | throw (.notFound "provider not found")
    pure ⟨HeaderMap.new.insert "cache-control" (.fromStatic "no-store"),
      .object [("access_key", .string row.accessToken), ("refresh_key", .string row.refreshToken)]⟩

/-- `replace_provider_token_values`. -/
def replaceProviderTokenValues (name accessToken refreshToken : String) (now : Int) :
    Console ConsoleReply := do
  if name = "" ∨ accessToken = "" ∨ refreshToken = "" then
    throw (.badRequest "name, access_key and refresh_key are required")
  let some accountId := jwt.accountIdFromJwt accessToken
    | throw .internal
  let updated ← executeOnProviders (.replaceTokens id name accessToken refreshToken accountId
    (jwt.expiresAtFromJwt accessToken) now)
  if updated = 0 then
    throw (.notFound "provider not found")
  reload
  pure (json (.object [("ok", .bool true), ("name", .string name),
    ("account_id", .string accountId)]))

/-- `replace_provider_tokens`. -/
def replaceProviderTokens (input : Console.ReplaceProviderTokens) (now : Int) :
    Console ConsoleReply := do
  let user ← onAccounts (browserIdentity call)
  requireProviderManager user id
  audited call user "provider.tokens.update" id stamp <|
    replaceProviderTokenValues jwt id (trim input.name) (trim input.accessKey)
      (trim input.refreshKey) now

/-- `delete_provider`. -/
def deleteProvider : Console ConsoleReply := do
  let user ← onAccounts (browserIdentity call)
  requireProviderManager user id
  audited call user "provider.delete" id stamp do
    let deleted ← executeOnProviders (.deleteProvider id)
    if deleted = 0 then
      throw (.notFound "provider not found")
    modify fun s => { s with balancer := s.balancer.forgetProvider id }
    reload
    pure (json (.object [("ok", .bool true)]))

/-- `ORDER BY created_at,user_id`. -/
def grantedBefore (a b : ProviderGrant) : Prop :=
  a.createdAt < b.createdAt ∨ (a.createdAt = b.createdAt ∧ a.userId ≤ b.userId)

instance : DecidableRel grantedBefore := fun _ _ => inferInstanceAs (Decidable (_ ∨ _))

/-- An item of the answer of `list_provider_grants`. -/
def grantJson (grant : ProviderGrant) : Value :=
  .object [("user_id", .string grant.userId), ("created_at", .number (.integer grant.createdAt))]

/-- `list_provider_grants`. -/
def listProviderGrants : Console ConsoleReply := do
  let user ← onAccounts (browserIdentity call)
  requireProviderManager user id
  let s ← get
  let rows := s.routing.providerGrants.rows.filter fun grant => grant.providerId = id
  pure (json (.array ((rows.insertionSort grantedBefore).map grantJson)))

/-- `create_provider_grant`. -/
def createProviderGrant (input : Console.CreateProviderGrant) (now : Int) :
    Console ConsoleReply := do
  let user ← onAccounts (browserIdentity call)
  requireProviderManager user id
  let targetUserId := trim input.userId
  if targetUserId = "" ∨ 200 < targetUserId.utf8ByteSize then
    throw (.badRequest "user_id must be 1-200 characters")
  let s ← get
  let some row := s.row id
    | throw .internal
  if row.ownerId = some targetUserId then
    throw (.badRequest "provider owner already has implicit access")
  let inserted ← executeOnProviders (.createGrant id targetUserId now)
  if inserted = 0 then
    if targetUserId ∉ s.routing.users then
      throw (.notFound "user_id not found")
    throw (.badRequest "provider grant already exists")
  reload
  onAccounts <| writeAdminAudit call user.id "provider.grant.create"
    (some (id ++ ":" ++ targetUserId)) stamp
  pure (json (.object [("ok", .bool true), ("user_id", .string targetUserId)]))

/-- `delete_provider_grant`. -/
def deleteProviderGrant (userId : String) : Console ConsoleReply := do
  let user ← onAccounts (browserIdentity call)
  requireProviderManager user id
  let deleted ← executeOnProviders (.deleteGrant id userId)
  if deleted = 0 then
    throw (.notFound "provider grant not found")
  reload
  onAccounts <| writeAdminAudit call user.id "provider.grant.delete"
    (some (id ++ ":" ++ userId)) stamp
  pure (json (.object [("ok", .bool true)]))

end Handlers

/-- The requests that only a manager of the provider may make. -/
inductive ProviderRequest where
  | updateProvider (input : Console.ProviderUpdate) (renamedAt enabledAt : Int) (r : Refreshing)
  | readProviderTokens
  | replaceProviderTokens (input : Console.ReplaceProviderTokens) (now : Int)
  | deleteProvider
  | listProviderGrants
  | createProviderGrant (input : Console.CreateProviderGrant) (now : Int)
  | deleteProviderGrant (userId : String)

/-- The handler of a request. -/
def ProviderRequest.handle (jwt : JwtCodec) (call : ConsoleCall) (id : String) (stamp : Stamp) :
    ProviderRequest → Console ConsoleReply
  | updateProvider input renamedAt enabledAt r =>
    OpenAiLb.updateProvider jwt call id stamp input renamedAt enabledAt r
  | readProviderTokens => OpenAiLb.readProviderTokens call id stamp
  | replaceProviderTokens input now => OpenAiLb.replaceProviderTokens jwt call id stamp input now
  | deleteProvider => OpenAiLb.deleteProvider call id stamp
  | listProviderGrants => OpenAiLb.listProviderGrants call id
  | createProviderGrant input now => OpenAiLb.createProviderGrant call id stamp input now
  | deleteProviderGrant userId => OpenAiLb.deleteProviderGrant call id stamp userId

section Guard

variable {jwt : JwtCodec} {call : ConsoleCall} {id userId : String} {stamp : Stamp}
  {s : ConsoleNode}

namespace ConsoleNode

/-- The provider exists, and the user is an administrator or owns it. -/
def Manages (s : ConsoleNode) (userId id : String) : Prop :=
  ∃ row, s.row id = some row ∧
    ((∃ user, s.accounts.users.user? userId = some user ∧ user.role ≠ .user) ∨
      row.ownerId = some userId)

/-- The user is no administrator, and the provider, if there is one, is not his. -/
structure Stranger (s : ConsoleNode) (userId id : String) : Prop where
  role : ∀ user ∈ s.accounts.users.user? userId, user.role = .user
  owner : ∀ row ∈ s.row id, row.ownerId ≠ some userId

/-- The node after `upsert_user`. -/
def login (s : ConsoleNode) (userId : String) (now : Int) : ConsoleNode :=
  s.withAccounts { s.accounts with users := s.accounts.users.register userId now }

/-- Nothing but `users` differs. -/
structure Untouched (s t : ConsoleNode) : Prop where
  providers : t.routing.providers = s.routing.providers
  providerGrants : t.routing.providerGrants = s.routing.providerGrants
  providerCircuitEvents : t.routing.providerCircuitEvents = s.routing.providerCircuitEvents
  affinities : t.routing.affinities = s.routing.affinities
  adminAudit : t.accounts.adminAudit = s.accounts.adminAudit
  /-- The snapshot, the pending updates and the affinities in memory among the rest. -/
  balancer : t.balancer = s.balancer
  tokenRequests : t.tokenRequests = s.tokenRequests

/-- The row of the caller as a login finds it or makes it. -/
def caller (s : ConsoleNode) (userId : String) (now : Int) : User :=
  (s.accounts.users.user? userId).getD (Users.tenant userId now)

/-- Logging in leaves the providers alone. -/
theorem untouched_login (s : ConsoleNode) (userId : String) (now : Int) :
    s.Untouched (s.login userId now) := ⟨rfl, rfl, rfl, rfl, rfl, rfl, rfl⟩

end ConsoleNode

/-- The caller is the user who logs in. -/
theorem caller_id (s : ConsoleNode) (userId : String) (now : Int) :
    (s.caller userId now).id = userId := by
  unfold ConsoleNode.caller
  cases hrow : s.accounts.users.user? userId with
  | none => rfl
  | some user => exact Users.user?_id hrow

/-- `browser_identity` on the whole node. -/
theorem onAccounts_browserIdentity (hverified : call.verified = .ok userId) :
    onAccounts (browserIdentity call) s =
      .ok (Users.identity (s.caller userId call.loginAt)) (s.login userId call.loginAt) := by
  unfold onAccounts onPart
  rw [browserIdentity_run hverified]
  rfl

/-- **Who gets past the guard.** -/
theorem admits_iff {now : Int} :
    (s.login userId now).admits (Users.identity (s.caller userId now)) id = true ↔
      s.Manages userId id := by
  have hid : (Users.identity (s.caller userId now)).id = userId := caller_id s userId now
  have hadmin : isAdmin (Users.identity (s.caller userId now)) = true ↔
      ∃ user, s.accounts.users.user? userId = some user ∧ user.role ≠ .user := by
    rw [isAdmin_identity]
    unfold ConsoleNode.caller
    cases huser : s.accounts.users.user? userId with
    | none => simp [Users.tenant]
    | some user => simp
  have hadmits : (s.login userId now).admits (Users.identity (s.caller userId now)) id =
      if isAdmin (Users.identity (s.caller userId now)) then (s.row id).isSome
      else (s.row id).any fun provider =>
        provider.ownerId = some (Users.identity (s.caller userId now)).id := rfl
  rw [hadmits, hid]
  unfold ConsoleNode.Manages
  rw [← hadmin]
  cases hrow : s.row id with
  | none => simp
  | some row => by_cases h : isAdmin (Users.identity (s.caller userId now)) = true <;> simp [h]

/-- A stranger is no manager. -/
theorem ConsoleNode.Stranger.not_manages (hstranger : s.Stranger userId id) :
    ¬ s.Manages userId id := by
  rintro ⟨row, hrow, ⟨user, huser, hrole⟩ | howner⟩
  · exact hrole (hstranger.role user huser)
  · exact hstranger.owner row hrow howner

/-- The guard stops everybody else before it does anything. -/
theorem requireProviderManager_of_not_manages {now : Int} (hmanages : ¬ s.Manages userId id) :
    requireProviderManager (Users.identity (s.caller userId now)) id (s.login userId now) =
      .error (.notFound "provider not found") (s.login userId now) := by
  have hrun : requireProviderManager (Users.identity (s.caller userId now)) id
      (s.login userId now) = (if (s.login userId now).admits
        (Users.identity (s.caller userId now)) id then pure ()
          else throw (.notFound "provider not found") : Console Unit) (s.login userId now) := rfl
  rw [hrun, if_neg (admits_iff.not.mpr hmanages)]
  rfl

/-- A manager passes. -/
theorem requireProviderManager_of_manages {now : Int} (hmanages : s.Manages userId id) :
    requireProviderManager (Users.identity (s.caller userId now)) id (s.login userId now) =
      .ok () (s.login userId now) := by
  have hrun : requireProviderManager (Users.identity (s.caller userId now)) id
      (s.login userId now) = (if (s.login userId now).admits
        (Users.identity (s.caller userId now)) id then pure ()
          else throw (.notFound "provider not found") : Console Unit) (s.login userId now) := rfl
  rw [hrun, if_pos (admits_iff.mpr hmanages)]
  rfl

/-- Whatever a handler goes on to do, only a manager gets past its first two lines. -/
theorem guarded_of_not_manages {α : Type} {rest : UserIdentity → Console α}
    (hverified : call.verified = .ok userId) (hmanages : ¬ s.Manages userId id) :
    (do
      let user ← onAccounts (browserIdentity call)
      requireProviderManager user id
      rest user : Console α) s =
        .error (.notFound "provider not found") (s.login userId call.loginAt) := by
  rw [run_bind_of_ok (onAccounts_browserIdentity hverified)]
  exact run_bind_of_error (requireProviderManager_of_not_manages hmanages)

/-- A stranger is refused by every handler. -/
theorem handle_of_stranger (request : ProviderRequest) (hverified : call.verified = .ok userId)
    (hstranger : s.Stranger userId id) :
    request.handle jwt call id stamp s =
      .error (.notFound "provider not found") (s.login userId call.loginAt) := by
  cases request <;> exact guarded_of_not_manages hverified hstranger.not_manages

/-- The answer that the caller gets to see. -/
def answerOf {α : Type} : EStateM.Result AppError ConsoleNode α → Except AppError α
  | .ok a _ => .ok a
  | .error e _ => .error e

/-- **Only managers manage a provider**: whatever a user who is neither an administrator nor the
owner asks for, the answer is 404 and nothing is changed or sent; and it is the same answer in
every state in which he is such a user, with the provider or without it, and whatever its row
holds. -/
theorem strangers_are_refused (jwt : JwtCodec) (call : ConsoleCall) (id : String) (stamp : Stamp)
    (request : ProviderRequest) (s : ConsoleNode) (hverified : call.verified = .ok userId)
    (hstranger : s.Stranger userId id) :
    (∃ t, request.handle jwt call id stamp s = .error (.notFound "provider not found") t ∧
      s.Untouched t) ∧
    ∀ other : ConsoleNode, other.Stranger userId id →
      answerOf (request.handle jwt call id stamp other) =
        answerOf (request.handle jwt call id stamp s) := by
  have hrefused : ∀ node : ConsoleNode, node.Stranger userId id →
      request.handle jwt call id stamp node =
        .error (.notFound "provider not found") (node.login userId call.loginAt) :=
    fun node hnode => handle_of_stranger request hverified hnode
  refine ⟨⟨_, hrefused s hstranger, s.untouched_login userId call.loginAt⟩, ?_⟩
  intro other hother
  rw [hrefused other hother, hrefused s hstranger]
  rfl

/-- The provider `p` of `owner`. -/
def ownedProvider : Provider := .created "p" "shared" "account" "access" "refresh" none 1 "owner"

/-- The users `owner` and `guest`, and the provider `p`, which `guest` may use. -/
def sharedNode : ConsoleNode where
  accounts := ⟨(Users.empty.register "owner" 1).register "guest" 1, []⟩
  routing :=
    { Database.empty with
      users := ["owner", "guest"]
      providers := ⟨[ownedProvider], by decide⟩
      providerGrants := ⟨[⟨"p", "guest", 1⟩], by decide⟩
      grantsReference := fun grant h => by
        obtain rfl : grant = ⟨"p", "guest", 1⟩ := List.mem_singleton.mp h
        decide
      eventsReference := fun _ h => absurd h (Table.not_mem_empty _)
      affinitiesReference := fun _ h => absurd h (Table.not_mem_empty _) }
  known := by decide
  balancer := { Balancer.default with providers := ⟨[ownedProvider], by decide⟩ }
  tokenRequests := []

/-- Libraries that read no token. -/
def noJwt : JwtCodec := ⟨fun _ => none, fun _ => none, fun _ => ""⟩

/-- The statement for a guest who asks for the tokens of the provider that he may use. -/
theorem guest_is_refused :
    (∃ t, ProviderRequest.readProviderTokens.handle noJwt ⟨.ok "guest", 2, "ip"⟩ "p" ⟨"a", 2⟩
        sharedNode = .error (.notFound "provider not found") t ∧ sharedNode.Untouched t) ∧
    ∀ other : ConsoleNode, other.Stranger "guest" "p" →
      answerOf (ProviderRequest.readProviderTokens.handle noJwt ⟨.ok "guest", 2, "ip"⟩ "p"
          ⟨"a", 2⟩ other) =
        answerOf (ProviderRequest.readProviderTokens.handle noJwt ⟨.ok "guest", 2, "ip"⟩ "p"
          ⟨"a", 2⟩ sharedNode) :=
  strangers_are_refused noJwt ⟨.ok "guest", 2, "ip"⟩ "p" ⟨"a", 2⟩ .readProviderTokens sharedNode rfl
    ⟨by decide, by decide⟩

end Guard

end OpenAiLb
