import OpenAiLb.AppConfig
import OpenAiLb.Database
import OpenAiLb.Headers
import OpenAiLb.UserUpdates

/-!
# Setup and settings

The setup makes its caller the root and stores the issuer and the audience of the logins. The root
may then change the settings. Both write `app_meta` and the configuration in memory, each text after
a normalisation of its own, and a later start of the process knows only what `Config::load` makes of
the stored texts.
-/

namespace OpenAiLb

open Stoppable

/-- `AuthMiniVerifier`: what it was built from. -/
structure Verifier where
  issuer : String
  audience : String
  deriving DecidableEq

/-- What `url::Url::parse` finds. -/
structure Url where
  scheme : String
  hostStr : Option String

/-- `SetupInput`. -/
structure SetupInput where
  authIssuer : String
  authAudience : String

/-- The issuer that a setup stores. -/
def SetupInput.issuer (input : SetupInput) : String := trimEndSlashes (trim input.authIssuer)

/-- `UpdateSettings`. -/
structure UpdateSettings where
  upstreamBase : String
  upstreamOpenaiBeta : String
  imageHostModel : String
  oauthAuthorizeUrl : String
  oauthTokenUrl : String
  oauthRedirectUri : String
  oauthClientId : String
  responseBodyLimit : ℕ
  imageBodyLimit : ℕ
  audioBodyLimit : ℕ
  affinityTtlSeconds : Int
  requestArchiveRetentionDays : Int

/-- The state that the setup and the settings write. -/
structure SettingsNode where
  accounts : Accounts
  routing : Database
  appMeta : AppMeta
  /-- The verifier in `state.auth`. -/
  verifier : Option Verifier
  /-- The configuration in memory. -/
  config : Config

/-- A computation of these handlers. -/
abbrev Settling := EStateM AppError SettingsNode

section Validators

/-- `validate_http_url`; `parse` is `url::Url::parse`. -/
def validateHttpUrl (parse : String → Option Url) (name value : String) :
    Except AppError String :=
  let normalized := trimEndSlashes (trim value)
  match parse normalized with
  | none => .error (.badRequest (name ++ " must be an absolute URL"))
  | some parsed =>
    if (parsed.scheme = "http" ∨ parsed.scheme = "https") ∧ parsed.hostStr.isSome then
      .ok normalized
    else .error (.badRequest (name ++ " must use HTTP or HTTPS"))

/-- The bytes that `HeaderValue::from_bytes` accepts. -/
def isHeaderByte (byte : UInt8) : Bool := (32 ≤ byte && byte ≠ 127) || byte = 9

/-- `optional_header_value`. -/
def optionalHeaderValue (name value : String) : Except AppError (Option String) :=
  let value := trim value
  if value = "" then .ok none
  else if 1024 < value.utf8ByteSize || !(asBytes value).all isHeaderByte then
    .error (.badRequest (name ++ " must be a valid HTTP header value up to 1024 characters"))
  else .ok (some value)

/-- The ranges of the numeric settings. -/
structure InRange (responseBodyLimit imageBodyLimit audioBodyLimit : ℕ)
    (affinityTtlSeconds requestArchiveRetentionDays : Int) : Prop where
  responseBodyLimit : 1024 ≤ responseBodyLimit ∧ responseBodyLimit ≤ 16 * 1024 * 1024
  imageBodyLimit : 1024 ≤ imageBodyLimit ∧ imageBodyLimit ≤ 16 * 1024 * 1024
  audioBodyLimit : 1024 * 1024 ≤ audioBodyLimit ∧ audioBodyLimit ≤ 2000000000
  affinityTtlSeconds : 60 ≤ affinityTtlSeconds ∧ affinityTtlSeconds ≤ 2592000
  requestArchiveRetentionDays : 1 ≤ requestArchiveRetentionDays ∧ requestArchiveRetentionDays ≤ 365

/-- The ranges of the settings. -/
theorem inRange_iff {response image audio : ℕ} {ttl days : Int} :
    InRange response image audio ttl days ↔
      (1024 ≤ response ∧ response ≤ 16 * 1024 * 1024) ∧ (1024 ≤ image ∧ image ≤ 16 * 1024 * 1024) ∧
      (1024 * 1024 ≤ audio ∧ audio ≤ 2000000000) ∧ (60 ≤ ttl ∧ ttl ≤ 2592000) ∧
      (1 ≤ days ∧ days ≤ 365) :=
  ⟨fun h => ⟨h.1, h.2, h.3, h.4, h.5⟩, fun h => ⟨h.1, h.2.1, h.2.2.1, h.2.2.2.1, h.2.2.2.2⟩⟩

instance (response image audio : ℕ) (ttl days : Int) :
    Decidable (InRange response image audio ttl days) := decidable_of_iff _ inRange_iff.symm

/-- The checks of `update_settings`. -/
def validateSettings (parse : String → Option Url) (input : UpdateSettings) :
    Except AppError Settings := do
  let upstreamBase ← validateHttpUrl parse "upstream base" input.upstreamBase
  let upstreamOpenaiBeta ← optionalHeaderValue "upstream OpenAI-Beta" input.upstreamOpenaiBeta
  let oauthAuthorizeUrl ← validateHttpUrl parse "OAuth authorize URL" input.oauthAuthorizeUrl
  let oauthTokenUrl ← validateHttpUrl parse "OAuth token URL" input.oauthTokenUrl
  let oauthRedirectUri ← validateHttpUrl parse "OAuth redirect URI" input.oauthRedirectUri
  let imageHostModel ← requiredSetting "image host model" input.imageHostModel
  let oauthClientId ← requiredSetting "OAuth client ID" input.oauthClientId
  if ¬ InRange input.responseBodyLimit input.imageBodyLimit input.audioBodyLimit
      input.affinityTtlSeconds input.requestArchiveRetentionDays then
    throw (.badRequest "one or more numeric settings are outside the allowed range")
  pure
    { upstreamBase, upstreamOpenaiBeta, imageHostModel, oauthAuthorizeUrl, oauthTokenUrl,
      oauthRedirectUri, oauthClientId
      responseBodyLimit := input.responseBodyLimit
      imageBodyLimit := input.imageBodyLimit
      audioBodyLimit := input.audioBodyLimit
      affinityTtlSeconds := input.affinityTtlSeconds
      requestArchiveRetentionDays := input.requestArchiveRetentionDays }

end Validators

/-- The texts that `update_settings` writes. -/
def Settings.values (settings : Settings) : List (String × String) :=
  [("upstream_base", settings.upstreamBase),
    ("upstream_openai_beta", settings.upstreamOpenaiBeta.getD ""),
    ("image_host_model", settings.imageHostModel),
    ("oauth_authorize_url", settings.oauthAuthorizeUrl),
    ("oauth_token_url", settings.oauthTokenUrl),
    ("oauth_redirect_uri", settings.oauthRedirectUri),
    ("oauth_client_id", settings.oauthClientId),
    ("response_body_limit", toString settings.responseBodyLimit),
    ("image_body_limit", toString settings.imageBodyLimit),
    ("audio_body_limit", toString settings.audioBodyLimit),
    ("affinity_ttl_seconds", toString settings.affinityTtlSeconds),
    ("request_archive_retention_days", toString settings.requestArchiveRetentionDays)]

/-- The texts that `setup` writes. -/
def setupValues (issuer audience : String) : List (String × String) :=
  [("auth_issuer", issuer), ("auth_audience", audience), ("setup_complete", "true")]

/-- `UPDATE providers SET owner_id=? WHERE owner_id IS NULL`. -/
def Database.adoptProviders (db : Database) (ownerId : String) : Database :=
  db.updateProviders (fun row => row.ownerId.isNone)
    (fun row => { row with ownerId := some ownerId }) fun _ => rfl

section Handlers

/-- Run a computation on the users and `admin_audit`. -/
def settleAccounts {α : Type} (x : Managing α) : Settling α :=
  onPart SettingsNode.accounts (fun s accounts => { s with accounts := accounts }) x

/-- A call of `update_settings`. -/
structure SettingsCall where
  call : ConsoleCall
  input : UpdateSettings
  now : Int
  stamp : Stamp

/-- `update_settings`. -/
def updateSettings (parse : String → Option Url) (c : SettingsCall) : Settling Value := do
  let root ← settleAccounts (browserIdentity c.call)
  await (requireRoot root)
  let settings ← await (validateSettings parse c.input)
  modify fun s => { s with appMeta := s.appMeta.writeAll settings.values c.now }
  modify fun s => { s with config := { s.config with toSettings := settings } }
  settleAccounts (writeAdminAudit c.call root.id "settings.update" none c.stamp)
  pure (.object [("ok", .bool true)])

/-- A call of `setup`. -/
structure SetupCall where
  input : SetupInput
  /-- The user of the token, as `state.auth.verify_candidate` finds it with the new issuer and
  audience. -/
  candidate : Except AppError String
  now : Int

/-- The error of a setup that comes too late. -/
def setupIsComplete : AppError := .notFound "setup is already complete"

/-- `SELECT value FROM app_meta WHERE key='setup_complete'`, and a stop when it is `true`. -/
def requireSetup (m : AppMeta) : Except AppError Unit :=
  match m.value "setup_complete" with
  | none => .error .internal
  | some complete => if complete = "true" then .error setupIsComplete else .ok ()

/-- The transaction of `setup`. -/
def setupTransaction (identityId issuer audience : String) (now : Int) (s : SettingsNode) :
    Except AppError SettingsNode :=
  match requireSetup s.appMeta, s.accounts.users.crown identityId now with
  | .error e, _ => .error e
  | .ok (), .error _ => .error .internal
  | .ok (), .ok users => .ok { s with
      accounts := { s.accounts with users := users }
      routing := s.routing.adoptProviders identityId
      appMeta := s.appMeta.writeAll (setupValues issuer audience) now }

/-- The configuration after a setup. -/
def Config.afterSetup (config : Config) (issuer audience : String) : Config :=
  { config with setupComplete := true, authIssuer := some issuer, authAudience := some audience }

/-- `setup`. -/
def setup (c : SetupCall) : Settling Value := do
  let s ← get
  await (requireSetup s.appMeta)
  let audience ← await (requiredSetting "Auth Mini audience" c.input.authAudience)
  let identityId ← await c.candidate
  let s ← await (setupTransaction identityId c.input.issuer audience c.now (← get))
  set s
  modify fun s => { s with verifier := some ⟨c.input.issuer, audience⟩ }
  modify fun s => { s with config := s.config.afterSetup c.input.issuer audience }
  pure (.object [("ok", .bool true), ("root_user_id", .string identityId)])

end Handlers

end OpenAiLb
