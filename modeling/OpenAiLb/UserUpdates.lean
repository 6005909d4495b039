import OpenAiLb.Library.Stoppable
import OpenAiLb.Users

/-!
# Updating a user

An administrator may set the display name, the role and the provider access of a user in one
call. The call makes one statement for each field, in this order and outside of a transaction,
and each of the last two has conditions of its own. A field that is refused ends the call and
leaves the fields before it as they were just written.
-/

namespace OpenAiLb

open Stoppable

/-- A row of `admin_audit`. -/
structure AdminAudit where
  id : String
  adminUserId : String
  action : String
  targetId : Option String
  clientIp : String
  createdAt : Int
  deriving DecidableEq

/-- The tables that the management of users writes. -/
structure Accounts where
  users : Users
  adminAudit : List AdminAudit
  deriving DecidableEq

/-- A random id and the clock, as they are read for one row. -/
structure Stamp where
  id : String
  now : Int

/-- What a call of the console gets from the outside. -/
structure ConsoleCall where
  /-- The user that `state.auth.verify` reads from the token. -/
  verified : Except AppError String
  /-- The clock of `upsert_user`. -/
  loginAt : Int
  clientIp : String

/-- `UpdateUser`. -/
structure UpdateUser where
  displayName : Option String
  role : Option String
  providerAccess : Option Bool
  deriving DecidableEq

/-- `Option::transpose`. -/
def transpose {ε α : Type} : Option (Except ε α) → Except ε (Option α)
  | none => .ok none
  | some result => result.map some

/-- A computation of a handler that reads and writes these tables. -/
abbrev Managing := EStateM AppError Accounts

section Handler

/-- `browser_identity`. -/
def browserIdentity (call : ConsoleCall) : Managing UserIdentity := do
  let userId ← await call.verified
  let s ← get
  let (identity, users) := s.users.upsertUser userId call.loginAt
  set { s with users := users }
  await identity

/-- `write_admin_audit`. -/
def writeAdminAudit (call : ConsoleCall) (adminUserId action : String) (targetId : Option String)
    (stamp : Stamp) : Managing Unit :=
  modify fun s => { s with adminAudit := s.adminAudit ++
    [⟨stamp.id, adminUserId, action, targetId, call.clientIp, stamp.now⟩] }

/-- Execute a statement on `users`: the number of rows that match. -/
def executeOnUsers (p : User → Bool) (statement : Users → Users) : Managing ℕ :=
  modifyGet fun s => (s.users.affected p, { s with users := statement s.users })

/-- The roles that `update_user` accepts. -/
def assignableRole (role : String) : Option Users.AssignableRole :=
  if role = "admin" then some ⟨.admin, nofun⟩
  else if role = "user" then some ⟨.user, nofun⟩
  else none

variable (call : ConsoleCall) (admin : UserIdentity) (id : String)

/-- The part of `update_user` about `display_name`. -/
def updateDisplayName (displayName : String) (stamp : Stamp) : Managing Unit := do
  let affected ← executeOnUsers (fun user => user.id = id && true)
    fun users => users.setDisplayName id displayName
  if affected = 0 then
    throw (.notFound "user not found")
  writeAdminAudit call admin.id "user.display_name.update" (some id) stamp

/-- The end of the part of `update_user` about `role`. -/
def assignRole (role : Users.AssignableRole) (stamp : Stamp) : Managing Unit := do
  let affected ← executeOnUsers (fun user => user.id = id && user.role ≠ .root)
    fun users => users.setRole id role
  if affected = 0 then
    throw (.notFound "user not found or root role is immutable")
  writeAdminAudit call admin.id "user.role.update" (some id) stamp

/-- The part of `update_user` about `role`. -/
def updateRole (role : String) (stamp : Stamp) : Managing Unit := do
  await (requireRoot admin)
  match assignableRole role with
  | none => throw (.badRequest "role must be admin or user")
  | some role => assignRole call admin id role stamp

/-- The part of `update_user` about `provider_access`. -/
def updateProviderAccess (providerAccess : Bool) (stamp : Stamp) : Managing Unit := do
  let affected ← executeOnUsers (fun user => user.id = id && user.role = .user)
    fun users => users.setProviderAccess id providerAccess
  if affected = 0 then
    throw (.badRequest "provider access only applies to tenant users")
  writeAdminAudit call admin.id "user.provider_access.update" (some id) stamp

/-- `if let Some(value) = field`. -/
def forSome {α : Type} (field : Option α) (update : α → Managing Unit) : Managing Unit :=
  field.elim (pure ()) update

/-- The three statements of `update_user`. The stamps are for the rows of `admin_audit`. -/
def writeFields (displayName role : Option String) (providerAccess : Option Bool)
    (stamps : Fin 3 → Stamp) : Managing Unit := do
  forSome displayName fun displayName => updateDisplayName call admin id displayName (stamps 0)
  forSome role fun role => updateRole call admin id role (stamps 1)
  forSome providerAccess fun providerAccess =>
    updateProviderAccess call admin id providerAccess (stamps 2)

/-- `update_user`. -/
def updateUser (input : UpdateUser) (stamps : Fin 3 → Stamp) : Managing Unit := do
  let admin ← browserIdentity call
  await (requireAdmin admin)
  if input.displayName.isNone && input.role.isNone && input.providerAccess.isNone then
    throw (.badRequest "display_name, role, or provider_access is required")
  let displayName ← await (transpose (input.displayName.map (requiredSetting "display name")))
  writeFields call admin id displayName input.role input.providerAccess stamps

end Handler

section Rewrites

variable {id : String} {x y : Managing Unit} {refused refused' : Option User → Prop}
  {set set' : User → User}

/-- The row of a user. -/
def Accounts.row (s : Accounts) (id : String) : Option User := s.users.user? id

/-- The computation rewrites the row of a user, or refuses and leaves it as it is. -/
def Rewrites (id : String) (x : Managing Unit) (refused : Option User → Prop)
    (set : User → User) : Prop :=
  ∀ s : Accounts, (refused (s.row id) ∧ ∃ e t, x s = .error e t ∧ t.row id = s.row id) ∨
    (¬ refused (s.row id) ∧ ∃ t, x s = .ok () t ∧ t.row id = (s.row id).map set)

/-- A field that is not supplied is neither refused nor written. -/
theorem rewrites_forSome {α : Type} {update : α → Managing Unit}
    {refused : α → Option User → Prop} {set : α → User → User}
    (h : ∀ value, Rewrites id (update value) (refused value) (set value)) (field : Option α) :
    Rewrites id (forSome field update) (fun row => ∃ value ∈ field, refused value row)
      (fun user => field.elim user fun value => set value user) := by
  cases field with
  | none => exact fun s => .inr ⟨by simp, s, rfl, by simp⟩
  | some value =>
    have hrefused : (fun row => ∃ v ∈ some value, refused v row) = refused value := by
      funext row
      simp
    rw [hrefused]
    exact h value

/-- A statement with one condition on the row, which refuses when no row matches. -/
theorem rewrites_statement {p : User → Bool} {statement : Users → Users} {set : User → User}
    {error : AppError} {audit : Managing Unit}
    (hstatement : ∀ users : Users, (statement users).user? id =
      (users.user? id).map fun user => if p user then set user else user)
    (haudit : ∀ s, ∃ t, audit s = .ok () t ∧ t.users = s.users) :
    Rewrites id (do
        let affected ← executeOnUsers (fun user => user.id = id && p user) statement
        if affected = 0 then
          throw error
        audit)
      (fun row => ∀ user ∈ row, p user = false) set := by
  intro s
  have hrow := hstatement s.users
  have hrun : ∀ rest : ℕ → Managing Unit,
      (executeOnUsers (fun user => user.id = id && p user) statement >>= rest) s =
        rest (s.users.affected fun user => user.id = id && p user)
          { s with users := statement s.users } := fun _ => rfl
  rw [hrun]
  by_cases haffected : s.users.affected (fun user => user.id = id && p user) = 0
  · have hnone := (s.users.affected_eq_zero_iff id p).mp haffected
    rw [if_pos haffected]
    refine .inl ⟨hnone, error, { s with users := statement s.users }, rfl, ?_⟩
    unfold Accounts.row
    rw [hrow]
    cases hfound : s.users.user? id with
    | none => rfl
    | some user => simp [hnone user hfound]
  · have hsome := (s.users.affected_eq_zero_iff id p).not.mp haffected
    push Not at hsome
    obtain ⟨user, hfound, hp⟩ := hsome
    obtain ⟨t, haudited, hsame⟩ := haudit { s with users := statement s.users }
    rw [if_neg haffected]
    refine .inr ⟨?_, t, haudited, ?_⟩
    · exact fun hnone => hp (hnone user hfound)
    · unfold Accounts.row
      rw [hsame, hrow, hfound, Option.map_some, Option.map_some, if_pos (by simpa using hp)]

variable {call : ConsoleCall} {admin : UserIdentity} {stamp : Stamp}

/-- A row of `admin_audit` is written without a look at the users. -/
theorem writeAdminAudit_run (action : String) (targetId : Option String) (s : Accounts) :
    ∃ t, writeAdminAudit call admin.id action targetId stamp s = .ok () t ∧ t.users = s.users :=
  ⟨_, rfl, rfl⟩

/-- The part about the display name refuses when there is no such user. -/
theorem rewrites_updateDisplayName (displayName : String) :
    Rewrites id (updateDisplayName call admin id displayName stamp)
      (fun row => ∀ user ∈ row, true = false)
      fun user => { user with displayName := displayName } := by
  refine rewrites_statement (fun users => ?_) (writeAdminAudit_run _ _)
  rw [Users.user?_setDisplayName]
  cases hfound : users.user? id with
  | none => rfl
  | some user => simp [Users.user?_id hfound]

/-- The role that a text stands for, or the one that is there. -/
def roleOr (role : String) (user : User) : Role :=
  (assignableRole role).elim user.role Subtype.val

/-- A role is assigned to anybody but the root. -/
theorem rewrites_assignRole (role : Users.AssignableRole) :
    Rewrites id (assignRole call admin id role stamp)
      (fun row => ∀ user ∈ row, decide (user.role ≠ .root) = false)
      fun user => { user with role := role.1 } := by
  refine rewrites_statement (fun users => ?_) (writeAdminAudit_run _ _)
  rw [Users.user?_setRole]
  cases hfound : users.user? id with
  | none => rfl
  | some user => simp [Users.user?_id hfound]

/-- The part about the role refuses unless the root gives an assignable role to somebody else. -/
theorem rewrites_updateRole (role : String) :
    Rewrites id (updateRole call admin id role stamp)
      (fun row => admin.role ≠ "root" ∨ assignableRole role = none ∨
        ∀ user ∈ row, decide (user.role ≠ .root) = false)
      fun user => { user with role := roleOr role user } := by
  intro s
  by_cases hroot : admin.role = "root"
  · cases hrole : assignableRole role with
    | none =>
      refine .inl ⟨.inr (.inl rfl), .badRequest "role must be admin or user", s, ?_, rfl⟩
      unfold updateRole requireRoot
      rw [if_pos hroot, hrole]
      rfl
    | some assigned =>
      have hrun : updateRole call admin id role stamp s =
          assignRole call admin id assigned stamp s := by
        unfold updateRole requireRoot
        rw [if_pos hroot, hrole]
        rfl
      rw [hrun]
      rcases rewrites_assignRole assigned s with ⟨hnone, hfailed⟩ | ⟨hsome, t, hok, hrow⟩
      · exact .inl ⟨.inr (.inr hnone), hfailed⟩
      · refine .inr ⟨?_, t, hok, ?_⟩
        · rintro (h | h | h)
          · exact h hroot
          · cases h
          · exact hsome h
        · rw [hrow]
          simp only [roleOr, hrole]
          rfl
  · refine .inl ⟨.inl hroot, .forbidden "root access required", s, ?_, rfl⟩
    unfold updateRole requireRoot
    rw [if_neg hroot]
    rfl

/-- The part about the provider access refuses unless the user is a tenant. -/
theorem rewrites_updateProviderAccess (providerAccess : Bool) :
    Rewrites id (updateProviderAccess call admin id providerAccess stamp)
      (fun row => ∀ user ∈ row, decide (user.role = .user) = false)
      fun user => { user with providerAccess := providerAccess } := by
  refine rewrites_statement (fun users => ?_) (writeAdminAudit_run _ _)
  rw [Users.user?_setProviderAccess]
  cases hfound : users.user? id with
  | none => rfl
  | some user => simp [Users.user?_id hfound]

variable {displayName role : Option String} {providerAccess : Option Bool} {stamps : Fin 3 → Stamp}

/-- The row with its new display name. -/
def withName (displayName : Option String) (user : User) : User :=
  displayName.elim user fun name => { user with displayName := name }

/-- The row with its new role. -/
def withRole (role : Option String) (user : User) : User :=
  role.elim user fun role => { user with role := roleOr role user }

/-- The row with its new provider access. -/
def withAccess (providerAccess : Option Bool) (user : User) : User :=
  providerAccess.elim user fun access => { user with providerAccess := access }

/-- The caller may not give this role to this user. -/
def RoleRefused (admin : UserIdentity) (role : Option String) (user : User) : Prop :=
  ∃ text ∈ role, admin.role ≠ "root" ∨ assignableRole text = none ∨ user.role = .root

/-- The provider access of this user cannot be set. -/
def AccessRefused (providerAccess : Option Bool) (user : User) : Prop :=
  providerAccess.isSome ∧ user.role ≠ .user

/-- **What the three statements do** to the row of a user: they go up to the first field that is
refused. -/
theorem writeFields_cases {s : Accounts} {user : User} (hrow : s.row id = some user) :
    let named := withName displayName user
    let assigned := withRole role named
    (RoleRefused admin role named ∧ ∃ e t,
      writeFields call admin id displayName role providerAccess stamps s = .error e t ∧
        t.row id = some named) ∨
    (¬ RoleRefused admin role named ∧ AccessRefused providerAccess assigned ∧ ∃ e t,
      writeFields call admin id displayName role providerAccess stamps s = .error e t ∧
        t.row id = some assigned) ∨
    (¬ RoleRefused admin role named ∧ ¬ AccessRefused providerAccess assigned ∧ ∃ t,
      writeFields call admin id displayName role providerAccess stamps s = .ok () t ∧
        t.row id = some (withAccess providerAccess assigned)) := by
  intro named assigned
  have hname := rewrites_forSome (fun name => @rewrites_updateDisplayName id call admin (stamps 0)
    name) displayName s
  have hrole := rewrites_forSome fun role => @rewrites_updateRole id call admin (stamps 1) role
  have haccess := rewrites_forSome fun access =>
    @rewrites_updateProviderAccess id call admin (stamps 2) access
  rw [hrow] at hname
  rcases hname with ⟨⟨name, -, hnone⟩, -⟩ | ⟨-, t, hnamed, ht⟩
  · cases hnone user rfl
  unfold writeFields
  rw [run_bind_of_ok hnamed]
  replace ht : t.row id = some named := ht
  rcases hrole role t with ⟨hrefused, e, u, hfailed, hu⟩ | ⟨hallowed, u, hassigned, hu⟩
  · refine .inl ⟨?_, e, u, run_bind_of_error hfailed, hu.trans ht⟩
    rw [ht] at hrefused
    simpa [RoleRefused] using hrefused
  · rw [run_bind_of_ok hassigned]
    have hnot : ¬ RoleRefused admin role named := by
      rw [ht] at hallowed
      simpa [RoleRefused] using hallowed
    replace hu : u.row id = some assigned := hu.trans (by rw [ht]; rfl)
    rcases haccess providerAccess u with ⟨hrefused, e, v, hfailed, hv⟩ | ⟨hallowed, v, hdone, hv⟩
    · refine .inr (.inl ⟨hnot, ?_, e, v, hfailed, hv.trans hu⟩)
      rw [hu] at hrefused
      obtain ⟨access, hsome, htenant⟩ := hrefused
      exact ⟨Option.isSome_iff_exists.mpr ⟨access, hsome⟩, by simpa using htenant assigned rfl⟩
    · refine .inr (.inr ⟨hnot, ?_, v, hdone, ?_⟩)
      · rintro ⟨hsome, htenant⟩
        obtain ⟨access, hsome⟩ := Option.isSome_iff_exists.mp hsome
        rw [hu] at hallowed
        exact hallowed ⟨access, hsome, by simpa using htenant⟩
      · rw [hv, hu]
        rfl

/-- Without the user, every field that is supplied is refused. -/
theorem writeFields_of_missing {s : Accounts} (hrow : s.row id = none)
    (hsupplied : displayName.isSome ∨ role.isSome ∨ providerAccess.isSome) :
    ∃ e t, writeFields call admin id displayName role providerAccess stamps s = .error e t ∧
      t.row id = none := by
  have hname := rewrites_forSome (fun name => @rewrites_updateDisplayName id call admin (stamps 0)
    name) displayName s
  have hrole := rewrites_forSome fun role => @rewrites_updateRole id call admin (stamps 1) role
  have haccess := rewrites_forSome fun access =>
    @rewrites_updateProviderAccess id call admin (stamps 2) access
  rw [hrow] at hname
  unfold writeFields
  rcases hname with ⟨-, e, t, hfailed, ht⟩ | ⟨hnotName, t, hnamed, ht⟩
  · exact ⟨e, t, run_bind_of_error hfailed, ht⟩
  replace ht : t.row id = none := ht
  rw [run_bind_of_ok hnamed]
  rcases hrole role t with ⟨-, e, u, hfailed, hu⟩ | ⟨hnotRole, u, hassigned, hu⟩
  · exact ⟨e, u, run_bind_of_error hfailed, hu.trans ht⟩
  replace hu : u.row id = none := hu.trans (by rw [ht]; rfl)
  rw [run_bind_of_ok hassigned]
  rcases haccess providerAccess u with ⟨-, e, v, hfailed, hv⟩ | ⟨hnotAccess, -⟩
  · exact ⟨e, v, hfailed, hv.trans hu⟩
  rw [ht] at hnotRole
  rw [hu] at hnotAccess
  -- Nothing was refused, so nothing was supplied.
  simp only [Option.isSome_iff_exists] at hsupplied
  rcases hsupplied with ⟨name, hsome⟩ | ⟨text, hsome⟩ | ⟨access, hsome⟩
  · exact absurd ⟨name, hsome, nofun⟩ hnotName
  · exact absurd ⟨text, hsome, .inr (.inr nofun)⟩ hnotRole
  · exact absurd ⟨access, hsome, nofun⟩ hnotAccess

end Rewrites

section AllOrNothing

/-- The row shows every field that was supplied. -/
structure ShowsFields (input : UpdateUser) (user : User) : Prop where
  displayName : ∀ text ∈ input.displayName, user.displayName = some (trim text)
  role : ∀ text ∈ input.role, user.role.text = text
  providerAccess : ∀ access ∈ input.providerAccess, user.providerAccess = access

variable (call : ConsoleCall) (id : String) (input : UpdateUser) (stamps : Fin 3 → Stamp)
  (s : Accounts)

/-- **All or nothing**: after an error the row of the user is as it was before the call, where only
the login of the call itself may have added a row, that of the caller; after a success it shows
every field that was supplied. -/
def AllOrNothing : Prop :=
  match updateUser call id input stamps s with
  | .ok _ t => ∃ user, t.row id = some user ∧ ShowsFields input user
  | .error _ t => (∀ user, s.row id = some user → t.row id = some user) ∧
      (s.row id = none → call.verified ≠ .ok id → t.row id = none)

/-- The new display name is the one that is there. -/
def KeepsName (input : UpdateUser) (user : User) : Prop :=
  ∀ text ∈ input.displayName, user.displayName = some (trim text)

/-- No field is refused after another one that makes a difference. -/
structure NoLateRefusal (admin : UserIdentity) (input : UpdateUser) (user : User) : Prop where
  role : RoleRefused admin input.role user → KeepsName input user
  access : ¬ RoleRefused admin input.role user →
    AccessRefused input.providerAccess (withRole input.role user) →
      KeepsName input user ∧ withRole input.role user = user

variable {call id input stamps s} {callerId : String} {admin : User}

/-- The login reads the row of the caller, which it adds if there is none. -/
theorem browserIdentity_run (hverified : call.verified = .ok callerId) :
    browserIdentity call s = .ok
      (Users.identity ((s.row callerId).getD (Users.tenant callerId call.loginAt)))
      { s with users := s.users.register callerId call.loginAt } := by
  have hlogin := s.users.upsertUser_fst callerId call.loginAt
  unfold browserIdentity
  rw [hverified]
  change await (s.users.upsertUser callerId call.loginAt).1 _ = _
  rw [hlogin]
  rfl

/-- The row of an administrator is there, so his login changes nothing. -/
theorem browserIdentity_of_admin (hverified : call.verified = .ok callerId)
    (hadmin : s.row callerId = some admin) :
    browserIdentity call s = .ok (Users.identity admin) s := by
  rw [browserIdentity_run hverified, hadmin, Option.getD_some,
    Users.register_of_some hadmin]

/-- A caller who is no administrator is refused. -/
theorem updateUser_of_tenant (hverified : call.verified = .ok callerId)
    (htenant : ∀ admin, s.row callerId = some admin → admin.role = .user) :
    ∃ e, updateUser call id input stamps s =
      .error e { s with users := s.users.register callerId call.loginAt } := by
  have hrole : ((s.row callerId).getD (Users.tenant callerId call.loginAt)).role = .user := by
    cases hrow : s.row callerId with
    | none => rfl
    | some admin => exact htenant admin hrow
  have hrefused : requireAdmin (Users.identity
      ((s.row callerId).getD (Users.tenant callerId call.loginAt))) =
        .error (.forbidden "administrator access required") := by
    refine if_neg ?_
    rw [isAdmin_identity]
    exact fun h => h hrole
  refine ⟨.forbidden "administrator access required", ?_⟩
  unfold updateUser
  rw [run_bind_of_ok (browserIdentity_run hverified), hrefused]
  rfl

/-- What an administrator comes to: a check of the input, and the three statements. -/
theorem updateUser_of_admin (hverified : call.verified = .ok callerId)
    (hadmin : s.row callerId = some admin) (hrole : admin.role ≠ .user) :
    updateUser call id input stamps s =
      (if input.displayName.isNone && input.role.isNone && input.providerAccess.isNone then
        .error (.badRequest "display_name, role, or provider_access is required") s
      else match transpose (input.displayName.map (requiredSetting "display name")) with
        | .error e => .error e s
        | .ok displayName => writeFields call (Users.identity admin) id displayName input.role
            input.providerAccess stamps s) := by
  have hallowed : requireAdmin (Users.identity admin) = .ok () := by
    refine if_pos ?_
    rw [isAdmin_identity]
    exact hrole
  unfold updateUser
  rw [run_bind_of_ok (browserIdentity_of_admin hverified hadmin), hallowed]
  split
  · rfl
  · cases transpose (input.displayName.map (requiredSetting "display name")) with
    | error e => rfl
    | ok displayName => rfl

/-- An accepted display name is the trimmed text. -/
theorem requiredSetting_eq_ok {name value result : String}
    (h : requiredSetting name value = .ok result) : result = trim value := by
  unfold requiredSetting at h
  dsimp only at h
  split at h
  · cases h
  · exact (Except.ok.inj h).symm

/-- A display name is written without the blanks around it. -/
theorem transpose_eq_ok {result : Option String}
    (h : transpose (input.displayName.map (requiredSetting "display name")) = .ok result) :
    result = input.displayName.map trim := by
  cases hname : input.displayName with
  | none =>
    rw [hname] at h
    exact (Except.ok.inj h).symm
  | some text =>
    rw [hname] at h
    obtain ⟨name, hrequired, rfl⟩ := Stoppable.map_eq_ok.mp h
    rw [requiredSetting_eq_ok hrequired]
    rfl

/-- The name is let through exactly when it is absent or allowed. -/
theorem exists_transpose_eq_ok_iff :
    (∃ result, transpose (input.displayName.map (requiredSetting "display name")) = .ok result) ↔
      ∀ text ∈ input.displayName, ∃ name, requiredSetting "display name" text = .ok name := by
  cases input.displayName with
  | none => exact iff_of_true ⟨none, rfl⟩ nofun
  | some text =>
    constructor
    · rintro ⟨result, hresult⟩ text' htext
      obtain rfl := Option.some.inj htext
      obtain ⟨name, hname, -⟩ := Stoppable.map_eq_ok.mp hresult
      exact ⟨name, hname⟩
    · intro haccepted
      obtain ⟨name, hname⟩ := haccepted text rfl
      exact ⟨some name, Stoppable.map_eq_ok.mpr ⟨name, hname, rfl⟩⟩

/-- The row shows its name after the statement about it, whatever the other two do. -/
theorem withName_eq_self {user : User} :
    withName (input.displayName.map trim) user = user ↔ KeepsName input user := by
  unfold withName KeepsName
  cases hname : input.displayName with
  | none => simp
  | some text =>
    obtain ⟨userId, email, displayName, role, providerAccess, createdAt⟩ := user
    simp [eq_comm]

/-- The name of a row has no part in whether its role can be set. -/
theorem roleRefused_withName {admin : UserIdentity} {role displayName : Option String}
    {user : User} :
    RoleRefused admin role (withName displayName user) ↔ RoleRefused admin role user := by
  cases displayName with
  | none => rfl
  | some name => rfl

/-- The role does not depend on the name. -/
theorem role_withRole_withName {role displayName : Option String} {user : User} :
    (withRole role (withName displayName user)).role = (withRole role user).role := by
  cases displayName with
  | none => rfl
  | some name =>
    cases role with
    | none => rfl
    | some text => rfl

/-- The statement about the name changes the name, and the one about the role the role. -/
theorem withRole_withName_eq_self {role displayName : Option String} {user : User} :
    withRole role (withName displayName user) = user ↔
      withName displayName user = user ∧ withRole role user = user := by
  obtain ⟨userId, email, name, userRole, providerAccess, createdAt⟩ := user
  cases displayName with
  | none => simp [withName]
  | some newName =>
    cases role with
    | none => simp [withName, withRole]
    | some text => simp [withName, withRole, roleOr]

/-- An assignable role is stored under the text that was given. -/
theorem text_of_assignableRole {text : String} {role : Users.AssignableRole}
    (h : assignableRole text = some role) : role.1.text = text := by
  unfold assignableRole at h
  split at h
  · next hadmin =>
    obtain rfl := Option.some.inj h
    exact hadmin.symm
  · split at h
    · next huser =>
      obtain rfl := Option.some.inj h
      exact huser.symm
    · cases h

/-- After a success every field that was supplied has its new value. -/
theorem shows_of_allowed {admin : UserIdentity} {user : User}
    (hrole : ¬ RoleRefused admin input.role user) :
    ShowsFields input (withAccess input.providerAccess
      (withRole input.role (withName (input.displayName.map trim) user))) := by
  obtain ⟨displayName, role, providerAccess⟩ := input
  have hkept : ∀ user : User, (withAccess providerAccess user).displayName = user.displayName ∧
      (withAccess providerAccess user).role = user.role := by
    intro user
    cases providerAccess with
    | none => exact ⟨rfl, rfl⟩
    | some access => exact ⟨rfl, rfl⟩
  refine ⟨?_, ?_, ?_⟩
  · rintro text hname
    obtain rfl : displayName = some text := hname
    rw [(hkept _).1]
    cases role with
    | none => rfl
    | some text => rfl
  · rintro text hsome
    obtain rfl : role = some text := hsome
    rw [(hkept _).2, role_withRole_withName]
    cases hassigned : assignableRole text with
    | none => exact absurd ⟨text, rfl, .inr (.inl hassigned)⟩ hrole
    | some assigned =>
      have htext := text_of_assignableRole hassigned
      change (roleOr text user).text = text
      rwa [roleOr, hassigned]
  · rintro access hsome
    obtain rfl : providerAccess = some access := hsome
    rfl

/-- A call whose error leaves the tables as the login left them is all or nothing. -/
theorem allOrNothing_of_error {e : AppError} {t : Accounts}
    (hrun : updateUser call id input stamps s = .error e t)
    (hkept : ∀ user, s.row id = some user → t.row id = some user)
    (hmissing : s.row id = none → call.verified ≠ .ok id → t.row id = none) :
    AllOrNothing call id input stamps s := by
  unfold AllOrNothing
  rw [hrun]
  exact ⟨hkept, hmissing⟩

/-- The login of the caller adds no row but his. -/
theorem row_register (callerId : String) (now : Int) :
    (∀ user, s.row id = some user →
      Accounts.row { s with users := s.users.register callerId now } id = some user) ∧
    (s.row id = none → id ≠ callerId →
      Accounts.row { s with users := s.users.register callerId now } id = none) := by
  unfold Accounts.row
  rw [Users.user?_register]
  constructor
  · intro user huser
    split
    · next hsame => rw [← hsame, huser, Option.getD_some]
    · exact huser
  · intro hnone hne
    rw [if_neg hne]
    exact hnone

/-- The statements of an administrator's update of a row. -/
theorem allOrNothing_writeFields (hverified : call.verified = .ok callerId)
    (hadmin : s.row callerId = some admin) (hrole : admin.role ≠ .user) {user : User}
    (hrow : s.row id = some user)
    (hsupplied : ¬ (input.displayName.isNone && input.role.isNone && input.providerAccess.isNone))
    (hname : transpose (input.displayName.map (requiredSetting "display name")) =
      .ok (input.displayName.map trim)) :
    AllOrNothing call id input stamps s ↔ NoLateRefusal (Users.identity admin) input user := by
  have hrun := @updateUser_of_admin call id input stamps s callerId admin hverified hadmin hrole
  rw [if_neg hsupplied, hname] at hrun
  dsimp only at hrun
  have hcases := @writeFields_cases id call (Users.identity admin) (input.displayName.map trim)
    input.role input.providerAccess stamps s user hrow
  have hrefused : ∀ user : User, AccessRefused input.providerAccess (withRole input.role
      (withName (input.displayName.map trim) user)) ↔
        AccessRefused input.providerAccess (withRole input.role user) := by
    intro user
    unfold AccessRefused
    rw [role_withRole_withName]
  dsimp only at hcases
  rw [roleRefused_withName, hrefused] at hcases
  unfold AllOrNothing
  rw [hrun]
  rcases hcases with ⟨hfirst, e, t, hwrite, ht⟩ | ⟨hfirst, hsecond, e, t, hwrite, ht⟩ |
      ⟨hfirst, hsecond, t, hwrite, ht⟩
  · rw [hwrite]
    dsimp only
    rw [ht, hrow]
    constructor
    · rintro ⟨hkept, -⟩
      have hsame := withName_eq_self.mp (Option.some.inj (hkept user rfl))
      exact ⟨fun _ => hsame, fun h => absurd hfirst h⟩
    · intro h
      refine ⟨?_, nofun⟩
      rintro other hother
      obtain rfl := Option.some.inj hother
      rw [withName_eq_self.mpr (h.role hfirst)]
  · rw [hwrite]
    dsimp only
    rw [ht, hrow]
    constructor
    · rintro ⟨hkept, -⟩
      have hsame := withRole_withName_eq_self.mp (Option.some.inj (hkept user rfl))
      exact ⟨fun h => absurd h hfirst, fun _ _ => ⟨withName_eq_self.mp hsame.1, hsame.2⟩⟩
    · intro h
      refine ⟨?_, nofun⟩
      rintro other hother
      obtain rfl := Option.some.inj hother
      obtain ⟨hname, hrole⟩ := h.access hfirst hsecond
      rw [withRole_withName_eq_self.mpr ⟨withName_eq_self.mpr hname, hrole⟩]
  · rw [hwrite]
    dsimp only
    exact iff_of_true ⟨_, ht, shows_of_allowed hfirst⟩
      ⟨fun h => absurd h hfirst, fun _ h => absurd h hsecond⟩

/-- **When an update is all or nothing**: exactly when no field is refused after another one that
makes a difference. A name that is too long and a caller who is no administrator are refused
before any statement. -/
theorem allOrNothing_iff (call : ConsoleCall) (id : String) (input : UpdateUser)
    (stamps : Fin 3 → Stamp) (s : Accounts) :
    AllOrNothing call id input stamps s ↔
      ∀ callerId admin, call.verified = .ok callerId → s.row callerId = some admin →
        admin.role ≠ .user →
        (∀ text ∈ input.displayName, ∃ name, requiredSetting "display name" text = .ok name) →
        ∀ user, s.row id = some user → NoLateRefusal (Users.identity admin) input user := by
  cases hverified : call.verified with
  | error e =>
    refine iff_of_true
      (@allOrNothing_of_error call id input stamps s e s ?_ (fun _ h => h) fun h _ => h) ?_
    · unfold updateUser browserIdentity
      rw [hverified]
      rfl
    · rintro callerId admin ⟨⟩
  | ok callerId =>
    by_cases htenant : ∀ admin, s.row callerId = some admin → admin.role = .user
    · obtain ⟨e, hrun⟩ := @updateUser_of_tenant call id input stamps s callerId hverified htenant
      obtain ⟨hkept, hmissing⟩ := @row_register id s callerId call.loginAt
      refine iff_of_true (allOrNothing_of_error hrun hkept fun hnone hne => hmissing hnone ?_) ?_
      · rintro rfl
        exact hne hverified
      · rintro callerId admin ⟨⟩ hadmin hrole
        exact absurd (htenant admin hadmin) hrole
    push Not at htenant
    obtain ⟨admin, hadmin, hrole⟩ := htenant
    have hrun := @updateUser_of_admin call id input stamps s callerId admin hverified hadmin hrole
    -- The conditions on the caller are those of this administrator.
    have hcaller : (∀ callerId' admin', (.ok callerId : Except AppError String) = .ok callerId' →
        s.row callerId' = some admin' → admin'.role ≠ .user →
        (∀ text ∈ input.displayName, ∃ name, requiredSetting "display name" text = .ok name) →
        ∀ user, s.row id = some user → NoLateRefusal (Users.identity admin') input user) ↔
      ((∀ text ∈ input.displayName, ∃ name, requiredSetting "display name" text = .ok name) →
        ∀ user, s.row id = some user → NoLateRefusal (Users.identity admin) input user) := by
      constructor
      · exact fun h => h callerId admin rfl hadmin hrole
      · rintro h _ admin' ⟨⟩ hadmin' -
        obtain rfl := Option.some.inj (hadmin.symm.trans hadmin')
        exact h
    rw [hcaller]
    by_cases hsupplied :
        input.displayName.isNone && input.role.isNone && input.providerAccess.isNone
    · rw [if_pos hsupplied] at hrun
      simp only [Bool.and_eq_true, Option.isNone_iff_eq_none] at hsupplied
      obtain ⟨⟨-, hnoRole⟩, hnoAccess⟩ := hsupplied
      refine iff_of_true (allOrNothing_of_error hrun (fun _ h => h) fun h _ => h) ?_
      refine fun _ user _ => ⟨?_, ?_⟩
      · rintro ⟨text, hsome, -⟩
        rw [hnoRole] at hsome
        cases hsome
      · rintro - ⟨hsome, -⟩
        rw [hnoAccess] at hsome
        cases hsome
    cases hname : transpose (input.displayName.map (requiredSetting "display name")) with
    | error e =>
      rw [if_neg hsupplied, hname] at hrun
      refine iff_of_true (allOrNothing_of_error hrun (fun _ h => h) fun h _ => h) ?_
      intro haccepted
      obtain ⟨result, hresult⟩ := exists_transpose_eq_ok_iff.mpr haccepted
      rw [hname] at hresult
      cases hresult
    | ok displayName =>
      obtain rfl := transpose_eq_ok hname
      have haccepted : ∀ text ∈ input.displayName,
          ∃ name, requiredSetting "display name" text = .ok name :=
        exists_transpose_eq_ok_iff.mp ⟨_, hname⟩
      cases hrow : s.row id with
      | none =>
        rw [if_neg hsupplied, hname] at hrun
        dsimp only at hrun
        have hfields : (input.displayName.map trim).isSome ∨ input.role.isSome ∨
            input.providerAccess.isSome := by
          by_contra hnone
          simp_all
        obtain ⟨e, t, hwrite, ht⟩ := @writeFields_of_missing id call (Users.identity admin)
          (input.displayName.map trim) input.role input.providerAccess stamps s hrow hfields
        rw [hwrite] at hrun
        exact iff_of_true (allOrNothing_of_error hrun (by simp [hrow]) fun _ _ => ht) nofun
      | some user =>
        rw [allOrNothing_writeFields hverified hadmin hrole hrow hsupplied hname]
        constructor
        · rintro h - other hother
          obtain rfl := Option.some.inj hother
          exact h
        · exact fun h => h haccepted user rfl

/-- The root and a tenant. -/
def twoUsers : Users where
  table := ⟨[⟨"root", none, none, .root, false, 0⟩, ⟨"tenant", none, some "old", .user, false, 0⟩],
    by decide⟩
  singleRoot := by
    change ∀ user ∈ [_, _], ∀ other ∈ [_, _], _
    decide

/-- The root sets a name and a role that does not exist: the call fails and the name stays. -/
theorem refused_role_keeps_name :
    (∃ e t, updateUser ⟨.ok "root", 1, "127.0.0.1"⟩ "tenant" ⟨some "new", some "owner", none⟩
        (fun _ => ⟨"audit", 1⟩) ⟨twoUsers, []⟩ = .error e t ∧ e.status = 400 ∧
        (t.row "tenant").bind User.displayName = some "new") ∧
      ¬ AllOrNothing ⟨.ok "root", 1, "127.0.0.1"⟩ "tenant" ⟨some "new", some "owner", none⟩
        (fun _ => ⟨"audit", 1⟩) ⟨twoUsers, []⟩ := by
  constructor
  · exact ⟨_, _, rfl, rfl, by decide⟩
  · intro h
    exact absurd (h.1 ⟨"tenant", none, some "old", .user, false, 0⟩ (by decide)) (by decide)

end AllOrNothing

end OpenAiLb
