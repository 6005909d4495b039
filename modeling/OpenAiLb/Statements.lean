import OpenAiLb.Database
import OpenAiLb.Oauth

/-!
# The statements of the handlers

Every statement that the admin handlers and the credential refresh execute on the
routing tables, under the name of its handler. `Statement.exec` runs one of them
and counts the affected rows, which is all that the handlers look at.
-/

namespace OpenAiLb

namespace Provider

/-- `update_provider`: the `name` update. -/
def rename (name : String) (now : Int) (row : Provider) : Provider :=
  { row with name := name, updatedAt := now }

/-- `update_provider`: the `enabled` update. -/
def setEnabled (enabled : Bool) (now : Int) (row : Provider) : Provider :=
  { row with
    manualDisabled := !enabled
    status := if enabled then .active else .disabled
    cooldownUntil := none
    updatedAt := now }

/-- The row written by `refresh_provider`. -/
def refreshedByOperator (token : TokenResponse) (accountId : String) (now : Int)
    (row : Provider) : Provider :=
  { row with
    accessToken := token.accessToken
    refreshToken := token.refreshToken
    accountId := accountId
    expiresAt := some (now + token.expiresIn)
    status := if row.manualDisabled then .disabled else .active
    cooldownUntil := none
    lastError := none
    updatedAt := now }

/-- The row written by `refresh_if_needed` after a successful token request. It keeps
`cooldown_until` and does not look at `manual_disabled`. -/
def refreshedOnDemand (token : TokenResponse) (accountId : String) (now : Int)
    (row : Provider) : Provider :=
  { row with
    accessToken := token.accessToken
    refreshToken := token.refreshToken
    accountId := accountId
    expiresAt := some (now + token.expiresIn)
    status := .active
    lastError := none
    updatedAt := now }

/-- The row written by `refresh_if_needed` after a failed token request. -/
def refreshFailed (now : Int) (row : Provider) : Provider :=
  { row with
    status := .authError
    lastError := some "credential refresh failed"
    updatedAt := now }

/-- The row written by `replace_provider_token_values`. -/
def replacedTokens (name accessToken refreshToken accountId : String) (expiresAt : Option Int)
    (now : Int) (row : Provider) : Provider :=
  { row with
    name := name
    accessToken := accessToken
    refreshToken := refreshToken
    accountId := accountId
    expiresAt := expiresAt
    status := if row.manualDisabled then .disabled else .active
    cooldownUntil := none
    lastError := none
    updatedAt := now }

/-- The row inserted by `insert_provider`. -/
def created (id name accountId accessToken refreshToken : String) (expiresAt : Option Int)
    (now : Int) (ownerId : String) : Provider where
  id := id
  name := name
  accountId := accountId
  accessToken := accessToken
  refreshToken := refreshToken
  expiresAt := expiresAt
  status := .active
  manualDisabled := false
  cooldownUntil := none
  rateLimitJson := none
  lastError := none
  lastUsedAt := none
  createdAt := now
  updatedAt := now
  ownerId := some ownerId

end Provider

/-- A committed statement of a handler. -/
inductive Statement where
  /-- `update_provider`, `name`. -/
  | rename (id name : String) (now : Int)
  /-- `update_provider`, `enabled`. -/
  | setEnabled (id : String) (enabled : Bool) (now : Int)
  /-- `refresh_provider`; `refresh` is the token in its `WHERE` clause. -/
  | refreshProvider (id refresh : String) (token : TokenResponse) (accountId : String) (now : Int)
  /-- `refresh_if_needed` after a token response. -/
  | refreshIfNeeded (id refresh : String) (token : TokenResponse) (accountId : String) (now : Int)
  /-- `refresh_if_needed` after a failed token request. -/
  | refreshFailed (id refresh : String) (now : Int)
  /-- `replace_provider_token_values`. -/
  | replaceTokens (id name accessToken refreshToken accountId : String) (expiresAt : Option Int)
    (now : Int)
  /-- `insert_provider`. -/
  | createProvider (id name accountId accessToken refreshToken : String) (expiresAt : Option Int)
    (now : Int) (ownerId : String)
  /-- `delete_provider`. -/
  | deleteProvider (id : String)
  /-- `create_provider_grant`. -/
  | createGrant (id userId : String) (now : Int)
  /-- `delete_provider_grant`. -/
  | deleteGrant (id userId : String)
  deriving DecidableEq

namespace Statement

/-- The provider a statement is about. -/
def providerId : Statement → String
  | rename id .. | setEnabled id .. | refreshProvider id .. | refreshIfNeeded id ..
  | refreshFailed id .. | replaceTokens id .. | createProvider id .. | deleteProvider id
  | createGrant id .. | deleteGrant id .. => id

/-- The row update of a statement, for the statements that are an `UPDATE providers`. -/
def set : Statement → Provider → Provider
  | rename _ name now => Provider.rename name now
  | setEnabled _ enabled now => Provider.setEnabled enabled now
  | refreshProvider _ _ token accountId now => Provider.refreshedByOperator token accountId now
  | refreshIfNeeded _ _ token accountId now => Provider.refreshedOnDemand token accountId now
  | refreshFailed _ _ now => Provider.refreshFailed now
  | replaceTokens _ name accessToken refreshToken accountId expiresAt now =>
    Provider.replacedTokens name accessToken refreshToken accountId expiresAt now
  | _ => id

/-- A statement keeps the id of its row. -/
@[simp] theorem set_id (stmt : Statement) (row : Provider) : (stmt.set row).id = row.id := by
  cases stmt <;> rfl

/-- No handler changes the owner of a provider row. -/
@[simp] theorem set_ownerId (stmt : Statement) (row : Provider) :
    (stmt.set row).ownerId = row.ownerId := by
  cases stmt <;> rfl

/-- The `WHERE` clause of an `UPDATE providers`. -/
def applies : Statement → Provider → Bool
  | rename id .. | setEnabled id .. | replaceTokens id .. => fun row => row.id = id
  | refreshProvider id refresh .. | refreshIfNeeded id refresh .. | refreshFailed id refresh .. =>
    fun row => row.id = id && row.refreshToken = refresh
  | _ => fun _ => false

/-- A statement applies to the row of its provider. -/
theorem applies_id {stmt : Statement} {row : Provider} (h : stmt.applies row = true) :
    row.id = stmt.providerId := by
  cases stmt <;> simp_all [applies, providerId]

/-- The row of a provider after the statement's `UPDATE`. -/
def update (stmt : Statement) (row : Provider) : Provider :=
  if stmt.applies row then stmt.set row else row

/-- A statement keeps the ids of all rows. -/
@[simp] theorem update_id (stmt : Statement) (row : Provider) : (stmt.update row).id = row.id := by
  unfold update
  split <;> simp

/-- A statement keeps the owners of all rows. -/
@[simp] theorem update_ownerId (stmt : Statement) (row : Provider) :
    (stmt.update row).ownerId = row.ownerId := by
  unfold update
  split <;> simp

/-- A statement leaves other providers alone. -/
theorem update_of_ne {stmt : Statement} {row : Provider} (h : row.id ≠ stmt.providerId) :
    stmt.update row = row :=
  if_neg fun happ => h (applies_id happ)

/-- Run a statement and count the rows it affects. -/
def exec (stmt : Statement) (db : Database) : Except SqliteError (Database × ℕ) :=
  match stmt with
  | createProvider id name accountId accessToken refreshToken expiresAt now ownerId =>
    match db.insertProvider
        (.created id name accountId accessToken refreshToken expiresAt now ownerId) with
    | .ok db => .ok (db, 1)
    | .error error => .error error
  | deleteProvider id => .ok (db.deleteProvider id, if (db.provider? id).isSome then 1 else 0)
  | createGrant id userId now => db.insertGrant ⟨id, userId, now⟩
  | deleteGrant id userId =>
    .ok (db.deleteGrant id userId,
      if (db.providerGrants.find? (id, userId)).isSome then 1 else 0)
  | stmt => .ok
    (db.updateProviders stmt.applies stmt.set stmt.set_id,
      (db.providers.rows.filter stmt.applies).length)

/-- The row under `id` after the statement, from the row before it. -/
def rowAfter (stmt : Statement) (id : String) (row : Option Provider) : Option Provider :=
  match stmt with
  | createProvider newId name accountId accessToken refreshToken expiresAt now ownerId =>
    if id = newId then
      some (.created newId name accountId accessToken refreshToken expiresAt now ownerId)
    else row
  | deleteProvider gone => if id = gone then none else row
  | stmt => row.map stmt.update

/-- The circuit events of a provider after the statement, from its row and events before it. -/
def eventsAfter (stmt : Statement) (id : String) (row : Option Provider)
    (events : List ProviderCircuitEvent) : List ProviderCircuitEvent :=
  match stmt with
  | deleteProvider gone => if id = gone then [] else events
  | stmt => row.elim events fun old => events.map (·.closeOnStatusChange old (stmt.update old))

/-- A statement that is no `UPDATE providers` rewrites no provider row. -/
theorem update_eq_id {stmt : Statement} (h : stmt.applies = fun _ => false) : stmt.update = id := by
  funext row
  simp [update, h]

/-- A grant changes no provider. -/
@[simp] theorem update_createGrant (gid userId : String) (now : Int) :
    (createGrant gid userId now).update = id := update_eq_id rfl

/-- Nor does the end of a grant. -/
@[simp] theorem update_deleteGrant (gid userId : String) :
    (deleteGrant gid userId).update = id := update_eq_id rfl

/-- Nor does a new provider. -/
@[simp] theorem update_createProvider (newId name accountId accessToken refreshToken : String)
    (expiresAt : Option Int) (now : Int) (ownerId : String) :
    (createProvider newId name accountId accessToken refreshToken expiresAt now ownerId).update =
      id := update_eq_id rfl

section Exec

variable {stmt : Statement} {db db' : Database} {n : ℕ}

/-- **What a statement does to one provider row.** -/
theorem provider?_of_exec (h : stmt.exec db = .ok (db', n)) (id : String) :
    db'.provider? id = stmt.rowAfter id (db.provider? id) := by
  cases stmt with
  | createProvider newId =>
    simp only [exec] at h
    split at h
    · next hins =>
      cases h
      exact Database.provider?_of_insertProvider hins id
    · cases h
  | deleteProvider gone =>
    cases h
    exact Database.provider?_deleteProvider gone id
  | createGrant gid userId now =>
    rw [Database.provider?, (Database.frame_of_insertGrant h).1]
    simp [rowAfter, Database.provider?]
  | deleteGrant gid userId =>
    cases h
    simp [rowAfter, Database.provider?, Database.deleteGrant]
  | rename | setEnabled | refreshProvider | refreshIfNeeded | refreshFailed | replaceTokens =>
    cases h
    exact Database.provider?_updateProviders ..

/-- **What a statement does to the circuit events of one provider.** -/
theorem eventsOf_of_exec (h : stmt.exec db = .ok (db', n)) (id : String) :
    db'.eventsOf id = stmt.eventsAfter id (db.provider? id) (db.eventsOf id) := by
  cases stmt with
  | createProvider newId =>
    simp only [exec] at h
    split at h
    · next hins =>
      cases h
      rw [Database.eventsOf, (Database.frame_of_insertProvider hins).2.1]
      cases hrow : db.provider? id <;> simp [eventsAfter, Database.eventsOf]
    · cases h
  | deleteProvider gone =>
    cases h
    exact Database.eventsOf_deleteProvider gone id
  | createGrant gid userId now =>
    rw [Database.eventsOf, (Database.frame_of_insertGrant h).2.1]
    cases hrow : db.provider? id <;> simp [eventsAfter, Database.eventsOf]
  | deleteGrant gid userId =>
    cases h
    cases hrow : db.provider? id <;>
      simp [eventsAfter, Database.eventsOf, Database.deleteGrant]
  | rename | setEnabled | refreshProvider | refreshIfNeeded | refreshFailed | replaceTokens =>
    cases h
    exact Database.eventsOf_updateProviders ..

/-- A statement leaves the row of every other provider alone. -/
theorem provider?_of_exec_of_ne (h : stmt.exec db = .ok (db', n)) {id : String}
    (hne : id ≠ stmt.providerId) : db'.provider? id = db.provider? id := by
  rw [provider?_of_exec h]
  have hkeep : (db.provider? id).map stmt.update = db.provider? id := by
    cases hrow : db.provider? id with
    | none => rfl
    | some row =>
      have hid : row.id = id := Table.key_of_find? hrow
      rw [Option.map_some, update_of_ne (hid ▸ hne)]
  cases stmt <;> simp_all [rowAfter, providerId]

end Exec

end Statement

end OpenAiLb
