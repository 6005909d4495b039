import OpenAiLb.AuditQueries

/-!
# Users and their roles

The table `users`. Its partial unique index, which admits one row with the role of root, is a
field of the table, so every statement below keeps it. A login only ever adds a tenant, and an
update of a role never makes a root or takes one away; the one statement that makes a root is
that of the setup, and SQLite aborts it when there is another one.
-/

namespace OpenAiLb

/-- The values that the `CHECK` of `users.role` admits. -/
inductive Role where
  | root
  | admin
  | user
  deriving DecidableEq

/-- The text stored in the column. -/
def Role.text : Role → String
  | .root => "root"
  | .admin => "admin"
  | .user => "user"

/-- A row of `users`. -/
structure User where
  id : String
  email : Option String
  displayName : Option String
  role : Role
  providerAccess : Bool
  createdAt : Int
  deriving DecidableEq

/-- The table with the index `users_single_root`. -/
structure Users where
  table : Table User.id
  singleRoot : ∀ user ∈ table, ∀ other ∈ table,
    user.role = .root → other.role = .root → user = other

namespace Users

/-- Two states with the same rows are equal. -/
theorem ext {users other : Users} (h : users.table = other.table) : users = other := by
  cases users
  cases other
  cases h
  rfl

instance : DecidableEq Users := fun users other =>
  decidable_of_iff (users.table = other.table) ⟨ext, fun h => h ▸ rfl⟩

/-- The table after the migrations. -/
def empty : Users := ⟨.empty, fun _ h => absurd h (Table.not_mem_empty _)⟩

/-- The row of a user. -/
def user? (users : Users) (id : String) : Option User := users.table.find? id

/-- A user is found under the own id. -/
theorem user?_id {users : Users} {id : String} {user : User} (h : users.user? id = some user) :
    user.id = id := Table.key_of_find? h

/-- The user is the root. -/
def IsRoot (users : Users) (id : String) : Prop :=
  ∃ user, users.user? id = some user ∧ user.role = .root

/-- There is one root at most. -/
theorem IsRoot.eq {users : Users} {id other : String} (h : users.IsRoot id)
    (h' : users.IsRoot other) : id = other := by
  obtain ⟨user, huser, hrole⟩ := h
  obtain ⟨second, hsecond, hrole'⟩ := h'
  have hsame := users.singleRoot user (Table.mem_of_find? huser) second
    (Table.mem_of_find? hsecond) hrole hrole'
  rw [← Table.key_of_find? huser, ← Table.key_of_find? hsecond, hsame]

/-- The rows with the role of root are those of the root. -/
theorem IsRoot.role_eq_root_iff {users : Users} {id : String} (h : users.IsRoot id) :
    ∀ user ∈ users.table, user.role = .root ↔ user.id = id := by
  intro user hmem
  have huser : users.user? user.id = some user := Table.find?_of_mem hmem
  constructor
  · intro hrole
    have hroot : users.IsRoot user.id := ⟨user, huser, hrole⟩
    exact hroot.eq h
  · rintro rfl
    obtain ⟨root, hroot, hrole⟩ := h
    obtain rfl := Option.some.inj (huser.symm.trans hroot)
    exact hrole

/-- `UPDATE users SET set WHERE p`, for a `set` that makes no root. -/
def updateWhere (users : Users) (p : User → Bool) (set : User → User)
    (hid : ∀ user, (set user).id = user.id)
    (hrole : ∀ user, (set user).role = .root → user.role = .root) : Users where
  table := users.table.updateWhere p set hid
  singleRoot := by
    intro user huser other hother hroot hroot'
    obtain ⟨user, hmem, rfl⟩ := (Table.mem_updateWhere ..).mp huser
    obtain ⟨other, hmem', rfl⟩ := (Table.mem_updateWhere ..).mp hother
    have hold : ∀ row : User, (if p row then set row else row).role = .root →
        row.role = .root := by
      intro row hrow
      split at hrow
      · exact hrole row hrow
      · exact hrow
    rw [users.singleRoot user hmem other hmem' (hold _ hroot) (hold _ hroot')]

/-- The user of an id after an update. -/
theorem user?_updateWhere (users : Users) (p : User → Bool) (set : User → User)
    (hid : ∀ user, (set user).id = user.id)
    (hrole : ∀ user, (set user).role = .root → user.role = .root) (id : String) :
    (users.updateWhere p set hid hrole).user? id =
      (users.user? id).map fun user => if p user then set user else user :=
  users.table.find?_updateWhere p set hid id

/-- `rows_affected`. -/
def affected (users : Users) (p : User → Bool) : ℕ := users.table.rows.countP p

/-- A statement about one user affects a row exactly when the row of that user matches. -/
theorem affected_eq_zero_iff (users : Users) (id : String) (p : User → Bool) :
    users.affected (fun user => user.id = id && p user) = 0 ↔
      ∀ user, users.user? id = some user → p user = false := by
  rw [affected, List.countP_eq_zero]
  constructor
  · intro h user huser
    obtain ⟨hmem, hid⟩ := Table.find?_eq_some_iff.mp huser
    simpa [hid] using h user hmem
  · intro h user hmem
    by_cases hid : user.id = id
    · have hp := h user (Table.find?_eq_some_iff.mpr ⟨hmem, hid⟩)
      simp [hp]
    · simp [hid]

section Statements

/-- A new tenant. -/
def tenant (id : String) (now : Int) : User := ⟨id, none, none, .user, false, now⟩

/-- `INSERT INTO users(id,role,created_at) VALUES(?,'user',?) ON CONFLICT(id) DO NOTHING`. -/
def register (users : Users) (id : String) (now : Int) : Users where
  table := (users.table.insert? (tenant id now)).getD users.table
  singleRoot := by
    intro user huser other hother hroot hroot'
    cases hinsert : users.table.insert? (tenant id now) with
    | none =>
      rw [hinsert, Option.getD_none] at huser hother
      exact users.singleRoot user huser other hother hroot hroot'
    | some table =>
      rw [hinsert, Option.getD_some, Table.mem_of_insert? hinsert] at huser hother
      rcases huser with huser | rfl
      · rcases hother with hother | rfl
        · exact users.singleRoot user huser other hother hroot hroot'
        · cases hroot'
      · cases hroot

/-- `UPDATE users SET display_name=? WHERE id=?`. -/
def setDisplayName (users : Users) (id displayName : String) : Users :=
  users.updateWhere (fun user => user.id = id)
    (fun user => { user with displayName := displayName }) (fun _ => rfl) fun _ h => h

/-- The roles that can be given to a user. -/
def AssignableRole : Type := { role : Role // role ≠ .root }

/-- `UPDATE users SET role=? WHERE id=? AND role<>'root'`. -/
def setRole (users : Users) (id : String) (role : AssignableRole) : Users :=
  users.updateWhere (fun user => user.id = id && user.role ≠ .root)
    (fun user => { user with role := role.1 }) (fun _ => rfl) fun _ h => absurd h role.2

/-- `UPDATE users SET provider_access=? WHERE id=? AND role='user'`. -/
def setProviderAccess (users : Users) (id : String) (providerAccess : Bool) : Users :=
  users.updateWhere (fun user => user.id = id && user.role = .user)
    (fun user => { user with providerAccess := providerAccess }) (fun _ => rfl) fun _ h => h

/-- The row that the statement of the setup writes. -/
def crowned (users : Users) (id : String) (now : Int) : User :=
  { (users.user? id).getD (tenant id now) with role := .root }

/-- The crowned user has the id. -/
@[simp] theorem crowned_id (users : Users) (id : String) (now : Int) :
    (users.crowned id now).id = id := by
  unfold crowned
  cases hfound : users.user? id with
  | none => rfl
  | some user =>
    have hid : user.id = id := Table.key_of_find? hfound
    exact hid

@[simp] theorem crowned_role (users : Users) (id : String) (now : Int) :
    (users.crowned id now).role = .root := rfl

/-- `INSERT INTO users(id,role,created_at) VALUES(?,'root',?) ON CONFLICT(id) DO UPDATE SET
role='root'`, which the index refuses when somebody else is the root. -/
def crown (users : Users) (id : String) (now : Int) : Except SqliteError Users :=
  if h : ∀ user ∈ users.table.rows, user.role = .root → user.id = id then
    .ok
      { table := users.table.upsert (users.crowned id now)
        singleRoot := by
          have hid : ∀ user ∈ users.table.upsert (users.crowned id now),
              user.role = .root → user.id = id := by
            intro user huser hroot
            rcases Table.mem_of_mem_upsert huser with hmem | rfl
            · exact h user hmem hroot
            · exact users.crowned_id id now
          intro user huser other hother hroot hroot'
          exact Table.eq_of_key_eq huser hother
            ((hid user huser hroot).trans (hid other hother hroot').symm) }
  else .error .uniqueConstraint

variable {users : Users} {id other : String} {now : Int}

/-- A login creates the user if there is none with the id. -/
theorem user?_register (users : Users) (id other : String) (now : Int) :
    (users.register id now).user? other =
      if other = id then some ((users.user? id).getD (tenant id now)) else users.user? other := by
  unfold register user?
  dsimp only
  cases hinsert : users.table.insert? (tenant id now) with
  | none =>
    have hmem : id ∈ users.table.keys := Table.insert?_eq_none_iff.mp hinsert
    obtain ⟨user, hfound⟩ := Option.isSome_iff_exists.mp (Table.find?_isSome_iff.mpr hmem)
    rw [Option.getD_none, hfound, Option.getD_some]
    split
    · next hsame => rw [hsame, hfound]
    · rfl
  | some table =>
    have hfresh : users.table.find? id = none :=
      Table.find?_eq_none_iff.mpr (Table.key_not_mem_of_insert? hinsert)
    rw [Option.getD_some, Table.find?_of_insert? hinsert, hfresh, Option.getD_none]
    rfl

/-- A login of a user with a row changes nothing. -/
theorem register_of_some {user : User} (h : users.user? id = some user) (now : Int) :
    users.register id now = users := by
  have hmem : id ∈ users.table.keys :=
    Table.find?_isSome_iff.mp (Option.isSome_iff_exists.mpr ⟨user, h⟩)
  have hinsert : users.table.insert? (tenant id now) = none := Table.insert?_eq_none_iff.mpr hmem
  apply ext
  simp [register, hinsert]

/-- Setting a display name changes the user with the id. -/
theorem user?_setDisplayName (users : Users) (id displayName other : String) :
    (users.setDisplayName id displayName).user? other = (users.user? other).map fun user =>
      if user.id = id then { user with displayName := displayName } else user := by
  simp [setDisplayName, user?_updateWhere]

/-- Setting a role changes the user with the id, unless it is root. -/
theorem user?_setRole (users : Users) (id : String) (role : AssignableRole) (other : String) :
    (users.setRole id role).user? other = (users.user? other).map fun user =>
      if user.id = id ∧ user.role ≠ .root then { user with role := role.1 } else user := by
  simp [setRole, user?_updateWhere]

/-- Setting the access changes the user with the id, if it has the role of a user. -/
theorem user?_setProviderAccess (users : Users) (id : String) (providerAccess : Bool)
    (other : String) :
    (users.setProviderAccess id providerAccess).user? other =
      (users.user? other).map fun user =>
        if user.id = id ∧ user.role = .user then { user with providerAccess := providerAccess }
        else user := by
  simp [setProviderAccess, user?_updateWhere]

/-- A login keeps the root. -/
theorem isRoot_register : (users.register id now).IsRoot other ↔ users.IsRoot other := by
  unfold IsRoot
  rw [user?_register]
  split
  · next hsame =>
    subst hsame
    cases hfound : users.user? other with
    | none => simp [tenant]
    | some user => simp
  · rfl

/-- So does an update that assigns no role. -/
theorem isRoot_setDisplayName {displayName : String} :
    (users.setDisplayName id displayName).IsRoot other ↔ users.IsRoot other := by
  unfold IsRoot
  rw [user?_setDisplayName]
  cases users.user? other with
  | none => simp
  | some user => by_cases hid : user.id = id <;> simp [hid]

/-- The access does not make a root. -/
theorem isRoot_setProviderAccess {providerAccess : Bool} :
    (users.setProviderAccess id providerAccess).IsRoot other ↔ users.IsRoot other := by
  unfold IsRoot
  rw [user?_setProviderAccess]
  cases users.user? other with
  | none => simp
  | some user => by_cases hid : user.id = id ∧ user.role = .user <;> simp [hid]

/-- An update of a role neither makes a root nor takes one away. -/
theorem isRoot_setRole {role : AssignableRole} :
    (users.setRole id role).IsRoot other ↔ users.IsRoot other := by
  unfold IsRoot
  rw [user?_setRole]
  cases users.user? other with
  | none => simp
  | some user =>
    by_cases hset : user.id = id ∧ user.role ≠ .root
    · simp [hset, role.2]
    · simp [hset]

/-- The statement of the setup goes through exactly when nobody else is the root. -/
theorem crown_isOk_iff :
    (∃ crowned, users.crown id now = .ok crowned) ↔
      ∀ user ∈ users.table, user.role = .root → user.id = id := by
  unfold crown
  split
  · next h => exact iff_of_true ⟨_, rfl⟩ h
  · next h => exact iff_of_false (by rintro ⟨_, h'⟩; cases h') h

/-- Crowning changes the user with the id. -/
theorem user?_crown {after : Users} (h : users.crown id now = .ok after) :
    after.user? other = if other = id then some (users.crowned id now) else users.user? other := by
  unfold crown at h
  split at h
  · cases h
    unfold user?
    rw [Table.find?_upsert, crowned_id]
  · cases h

/-- It makes its user the root. -/
theorem isRoot_crown {after : Users} (h : users.crown id now = .ok after) : after.IsRoot id :=
  ⟨users.crowned id now, by rw [user?_crown h, if_pos rfl], rfl⟩

end Statements

section Login

/-- The row as the handlers see it. -/
def identity (user : User) : UserIdentity := ⟨user.id, user.email, user.displayName, user.role.text⟩

/-- `upsert_user`. -/
def upsertUser (users : Users) (id : String) (now : Int) : Except AppError UserIdentity × Users :=
  let users := users.register id now
  (((users.user? id).map identity).elim (.error .internal) .ok, users)

/-- The row that a login finds is there. -/
theorem upsertUser_fst (users : Users) (id : String) (now : Int) :
    (users.upsertUser id now).1 = .ok (identity ((users.user? id).getD (tenant id now))) := by
  unfold upsertUser
  dsimp only
  rw [user?_register, if_pos rfl]
  rfl

end Login

end Users

section Guards

namespace AppError

/-- `AppError::forbidden`. -/
def forbidden (message : String) : AppError := ⟨403, message⟩

end AppError

/-- `require_admin`. -/
def requireAdmin (user : UserIdentity) : Except AppError Unit :=
  if isAdmin user then .ok () else .error (.forbidden "administrator access required")

/-- `require_root`. -/
def requireRoot (user : UserIdentity) : Except AppError Unit :=
  if user.role = "root" then .ok () else .error (.forbidden "root access required")

/-- A user is an administrator unless it has the role of a user. -/
theorem isAdmin_identity (user : User) : isAdmin (Users.identity user) = (user.role ≠ .user) := by
  cases hrole : user.role <;> simp [isAdmin, Users.identity, Role.text, hrole]

/-- `required_setting`. -/
def requiredSetting (name value : String) : Except AppError String :=
  let value := trim value
  if value = "" || 200 < value.utf8ByteSize then
    .error (.badRequest (name ++ " must be 1-200 characters"))
  else .ok value

end Guards

end OpenAiLb
