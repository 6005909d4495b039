import OpenAiLb.Statements

/-!
# What the statements do to the credentials

The access token, the refresh token and the account of a provider row are its credential.
Three kinds of statement write it: a refresh writes the credential of a token response if
the row still has the refresh token that was redeemed, and a replacement or a creation
writes the credential it was called with.
-/

namespace OpenAiLb

/-- The tokens and the account of one provider. -/
structure Credential where
  providerId : String
  accessToken : String
  refreshToken : String
  accountId : String
  deriving DecidableEq

/-- The credential of a row. -/
def Provider.credential (row : Provider) : Credential :=
  ⟨row.id, row.accessToken, row.refreshToken, row.accountId⟩

@[simp] theorem Provider.credential_refreshToken (row : Provider) :
    row.credential.refreshToken = row.refreshToken := rfl

/-- The credential that the row of a provider has. -/
def Database.credential? (db : Database) (id : String) : Option Credential :=
  (db.provider? id).map Provider.credential

/-- A row of the table has its credential. -/
theorem Database.credential?_of_mem {db : Database} {row : Provider} (h : row ∈ db.providers) :
    db.credential? row.id = some row.credential := by
  rw [credential?, provider?, Table.find?_of_mem h]
  rfl

/-- The statement of `replace_provider_token_values` or of `insert_provider`, with the credential
that it supplies. -/
inductive CredentialWrite where
  | replace (credential : Credential) (name : String) (expiresAt : Option Int) (now : Int)
  | create (credential : Credential) (name : String) (expiresAt : Option Int) (now : Int)
    (ownerId : String)
  deriving DecidableEq

namespace CredentialWrite

/-- The credential that is supplied. -/
def credential : CredentialWrite → Credential
  | replace credential .. | create credential .. => credential

/-- The `UPDATE` or the `INSERT`. -/
def statement : CredentialWrite → Statement
  | replace credential name expiresAt now =>
    .replaceTokens credential.providerId name credential.accessToken credential.refreshToken
      credential.accountId expiresAt now
  | create credential name expiresAt now ownerId =>
    .createProvider credential.providerId name credential.accountId credential.accessToken
      credential.refreshToken expiresAt now ownerId

end CredentialWrite

namespace Statement

/-- The statements of the other handlers write no token. -/
def keepsTokens : Statement → Bool
  | refreshProvider .. | refreshIfNeeded .. | refreshFailed .. | replaceTokens ..
  | createProvider .. => false
  | rename .. | setEnabled .. | deleteProvider .. | createGrant .. | deleteGrant .. => true

variable {stmt : Statement} {db db' : Database} {n : ℕ}

/-- An `UPDATE` that leaves the credential of every row alone. -/
theorem credential_update (h : ∀ row, (stmt.set row).credential = row.credential)
    (row : Provider) : (stmt.update row).credential = row.credential := by
  unfold update
  split
  · exact h row
  · rfl

/-- **The other handlers change no credential.** -/
theorem credential?_of_keepsTokens (hkeep : stmt.keepsTokens = true)
    (h : stmt.exec db = .ok (db', n)) {id : String} {credential : Credential}
    (hfound : db'.credential? id = some credential) : db.credential? id = some credential := by
  rw [Database.credential?, provider?_of_exec h] at hfound
  have hupdate : (db.provider? id).map stmt.update = db'.provider? id →
      (∀ row, (stmt.set row).credential = row.credential) →
      db.credential? id = some credential := by
    intro hrow hset
    rw [← provider?_of_exec h, ← hrow, Option.map_map] at hfound
    rwa [show Provider.credential ∘ stmt.update = Provider.credential from
      funext (credential_update hset)] at hfound
  cases stmt with
  | refreshProvider | refreshIfNeeded | refreshFailed | replaceTokens | createProvider =>
    cases hkeep
  | deleteProvider gone =>
    simp only [rowAfter] at hfound
    split at hfound
    · cases hfound
    · exact hfound
  | rename | setEnabled | createGrant | deleteGrant =>
    exact hupdate (provider?_of_exec h id).symm fun row => rfl

/-- A failed refresh changes no credential. -/
theorem credential?_of_refreshFailed {id refresh : String} {now : Int}
    (h : (refreshFailed id refresh now).exec db = .ok (db', n)) (other : String) :
    db'.credential? other = db.credential? other := by
  rw [Database.credential?, provider?_of_exec h, Database.credential?]
  simp only [rowAfter, Option.map_map]
  congr 1
  exact funext (credential_update fun _ => rfl)

/-- The `UPDATE` of a refresh that has a token response. -/
def StoresToken (stmt : Statement) (id refresh : String) (token : TokenResponse)
    (accountId : String) : Prop :=
  ∃ now, stmt = .refreshProvider id refresh token accountId now ∨
    stmt = .refreshIfNeeded id refresh token accountId now

section StoresToken

variable {id refresh accountId : String} {token : TokenResponse}

/-- The statement writes the row that still has the refresh token. -/
theorem StoresToken.applies (hstmt : stmt.StoresToken id refresh token accountId)
    (row : Provider) : stmt.applies row = (row.id = id && row.refreshToken = refresh) := by
  obtain ⟨now, rfl | rfl⟩ := hstmt <;> rfl

/-- **A refresh stores its credential in the row that has the redeemed token.** -/
theorem StoresToken.credential? (hstmt : stmt.StoresToken id refresh token accountId)
    (h : stmt.exec db = .ok (db', n)) (other : String) :
    db'.credential? other =
      if other = id ∧ (db.credential? id).map Credential.refreshToken = some refresh then
        some ⟨id, token.accessToken, token.refreshToken, accountId⟩
      else db.credential? other := by
  have hafter : stmt.rowAfter other (db.provider? other) =
      (db.provider? other).map stmt.update := by
    obtain ⟨now, rfl | rfl⟩ := hstmt <;> rfl
  have hset : ∀ row, (stmt.set row).credential =
      ⟨row.id, token.accessToken, token.refreshToken, accountId⟩ := by
    obtain ⟨now, rfl | rfl⟩ := hstmt <;> exact fun row => rfl
  rw [Database.credential?, provider?_of_exec h, hafter]
  cases hrow : db.provider? other with
  | none =>
    rw [Database.credential?, Database.credential?, hrow]
    split
    · next hcond =>
      obtain ⟨rfl, hcond⟩ := hcond
      rw [hrow] at hcond
      cases hcond
    · rfl
  | some row =>
    have hid : row.id = other := Table.key_of_find? hrow
    simp only [Option.map_some, update, hstmt.applies]
    by_cases hother : other = id
    · subst hother
      by_cases htoken : row.refreshToken = refresh
      · simp [Database.credential?, hrow, hid, htoken, hset]
      · simp [Database.credential?, hrow, hid, htoken]
    · simp [Database.credential?, hrow, hid, hother]

/-- The refresh has changed a row exactly if the row has the redeemed token. -/
theorem StoresToken.count_eq_zero_iff (hstmt : stmt.StoresToken id refresh token accountId)
    (h : stmt.exec db = .ok (db', n)) :
    n = 0 ↔ (db.credential? id).map Credential.refreshToken ≠ some refresh := by
  have hn : n = (db.providers.rows.filter stmt.applies).length := by
    obtain ⟨now, rfl | rfl⟩ := hstmt <;> cases h <;> rfl
  rw [hn, List.length_eq_zero_iff, List.filter_eq_nil_iff]
  constructor
  · intro hnone htoken
    obtain ⟨credential, hfound, rfl⟩ := Option.map_eq_some_iff.mp htoken
    obtain ⟨row, hrow, rfl⟩ := Option.map_eq_some_iff.mp hfound
    have hid : row.id = id := Table.key_of_find? hrow
    apply hnone row (Table.mem_of_find? hrow)
    rw [hstmt.applies, hid]
    simp [Provider.credential]
  · intro htoken row hrow happlies
    rw [hstmt.applies] at happlies
    obtain ⟨rfl, rfl⟩ : row.id = id ∧ row.refreshToken = refresh := by simpa using happlies
    apply htoken
    rw [Database.credential?_of_mem hrow]
    rfl

end StoresToken

/-- A refresh statement whose `WHERE` clause finds no row. -/
def refreshes (id refresh : String) : Statement → Prop
  | refreshProvider p r .. | refreshIfNeeded p r .. | refreshFailed p r .. => p = id ∧ r = refresh
  | _ => False

/-- **A refresh whose token is no longer in the row changes nothing.** -/
theorem exec_eq_of_ne {id refresh : String} (hstmt : stmt.refreshes id refresh)
    (htoken : (db.credential? id).map Credential.refreshToken ≠ some refresh)
    (h : stmt.exec db = .ok (db', n)) : db' = db := by
  have hnone : ∀ row ∈ db.providers, ¬(row.id = id ∧ row.refreshToken = refresh) := by
    rintro row hrow ⟨rfl, rfl⟩
    apply htoken
    rw [Database.credential?_of_mem hrow]
    rfl
  cases stmt with
  | refreshProvider p r token accountId now | refreshIfNeeded p r token accountId now
  | refreshFailed p r now =>
    obtain ⟨rfl, rfl⟩ := hstmt
    cases h
    apply Database.updateProviders_of_forall
    intro row hrow
    simpa [applies] using hnone row hrow
  | rename | setEnabled | replaceTokens | createProvider | deleteProvider | createGrant
  | deleteGrant => exact hstmt.elim

end Statement

/-- **A replacement or a creation stores its credential.** A replacement stores it whenever the
provider exists. -/
theorem CredentialWrite.credential?_of_exec {write : CredentialWrite} {db db' : Database} {n : ℕ}
    (h : write.statement.exec db = .ok (db', n)) :
    (∀ id, id ≠ write.credential.providerId → db'.credential? id = db.credential? id) ∧
      (db'.credential? write.credential.providerId = some write.credential ∨
        (db'.credential? write.credential.providerId = none ∧
          db.credential? write.credential.providerId = none)) := by
  constructor
  · intro id hne
    have hid : write.statement.providerId = write.credential.providerId := by
      cases write <;> rfl
    rw [Database.credential?, Statement.provider?_of_exec_of_ne h (hid ▸ hne)]
    rfl
  · simp only [Database.credential?, Statement.provider?_of_exec h]
    cases write with
    | replace credential name expiresAt now =>
      cases hrow : db.provider? credential.providerId with
      | none => simp [CredentialWrite.credential, hrow, statement, Statement.rowAfter]
      | some row =>
        have hid : row.id = credential.providerId := Table.key_of_find? hrow
        left
        simp [CredentialWrite.credential, hrow, statement, Statement.rowAfter, Statement.update,
          Statement.applies, Statement.set, hid, Provider.credential, Provider.replacedTokens]
    | create credential name expiresAt now ownerId =>
      left
      simp [CredentialWrite.credential, statement, Statement.rowAfter, Provider.credential,
        Provider.created]

end OpenAiLb
