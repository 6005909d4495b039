import OpenAiLb.SettingsHandlers

/-!
# Settings after a restart

A process that starts again runs on what `Config::load` reads from `app_meta`. The texts that
`update_settings` writes are read back as the settings in memory. The ones that `setup` writes are
not always: the setup keeps a slash at the end of the audience, which the load drops.
-/

namespace OpenAiLb

open Stoppable

section Written

variable {m : AppMeta} {values : List (String × String)} {now : Int} {α β : Type}
  {parse : String → Option α} {parse' : String → Option β} {a : α} {b : β} {key text : String}

/-- A key that was there is read as it was written. -/
theorem read_written (hkeys : (values.map Prod.fst).Nodup)
    (hread : (m.value key).bind parse = some a) (hwritten : values.lookup key = some text)
    (hparse : parse' text = some b) :
    ((m.writeAll values now).value key).bind parse' = some b := by
  obtain ⟨old, hold, -⟩ := Option.bind_eq_some_iff.mp hread
  rw [AppMeta.value_writeAll hkeys, hold, hwritten]
  exact hparse

/-- A key that is not written is read as before. -/
theorem read_unwritten (hkeys : (values.map Prod.fst).Nodup) (hwritten : values.lookup key = none) :
    (m.writeAll values now).value key = m.value key := by
  rw [AppMeta.value_writeAll hkeys, hwritten]
  simp

/-- Settings that `update_settings` accepts, as far as their texts go. -/
structure Settings.Normal (settings : Settings) : Prop where
  upstreamBase : trimEndSlashes settings.upstreamBase = settings.upstreamBase
  upstreamOpenaiBeta : Config.optionalHeader (settings.upstreamOpenaiBeta.getD "") =
    settings.upstreamOpenaiBeta
  inRange : InRange settings.responseBodyLimit settings.imageBodyLimit settings.audioBodyLimit
    settings.affinityTtlSeconds settings.requestArchiveRetentionDays

/-- The settings are written under different keys. -/
theorem nodup_keys_settings (settings : Settings) : (settings.values.map Prod.fst).Nodup := by
  simp [Settings.values]

/-- So are the values of the setup. -/
theorem nodup_keys_setup (issuer audience : String) :
    ((setupValues issuer audience).map Prod.fst).Nodup := by
  simp [setupValues]

/-- **The settings are read back** from the texts that they are written as. -/
theorem readsSettings_writeAll {old settings : Settings} (hold : Config.ReadsSettings m old)
    (hnormal : settings.Normal) :
    Config.ReadsSettings (m.writeAll settings.values now) settings := by
  have hkeys := nodup_keys_settings settings
  obtain ⟨hresponse, himage, haudio, httl, hdays⟩ := hnormal.inRange
  constructor
  · exact read_written hkeys hold.upstreamBase rfl (congrArg some hnormal.upstreamBase)
  · exact read_written hkeys hold.upstreamOpenaiBeta rfl (congrArg some hnormal.upstreamOpenaiBeta)
  · exact read_written hkeys hold.imageHostModel rfl rfl
  · exact read_written hkeys hold.oauthAuthorizeUrl rfl rfl
  · exact read_written hkeys hold.oauthTokenUrl rfl rfl
  · exact read_written hkeys hold.oauthRedirectUri rfl rfl
  · exact read_written hkeys hold.oauthClientId rfl rfl
  · exact read_written hkeys hold.responseBodyLimit rfl (parseUsize_toString (by omega))
  · exact read_written hkeys hold.imageBodyLimit rfl (parseUsize_toString (by omega))
  · exact read_written hkeys hold.audioBodyLimit rfl (parseUsize_toString (by omega))
  · refine read_written hkeys hold.affinityTtlSeconds rfl (parseI64_toString ?_)
    unfold IsI64 i64Min i64Max
    omega
  · refine read_written hkeys hold.requestArchiveRetentionDays rfl (parseI64_toString ?_)
    unfold IsI64 i64Min i64Max
    omega

/-- The setup does not touch the settings. -/
theorem readsSettings_setup {settings : Settings} (h : Config.ReadsSettings m settings)
    (issuer audience : String) :
    Config.ReadsSettings (m.writeAll (setupValues issuer audience) now) settings := by
  have hsame : ∀ key, (setupValues issuer audience).lookup key = none →
      (m.writeAll (setupValues issuer audience) now).value key = m.value key :=
    fun key hnone => read_unwritten (nodup_keys_setup issuer audience) hnone
  obtain ⟨h1, h2, h3, h4, h5, h6, h7, h8, h9, h10, h11, h12⟩ := h
  constructor <;> rw [hsame _ rfl] <;> assumption

/-- The settings are apart from what the setup writes. -/
theorem readsSetup_writeAll {config : Config} {settings : Settings} :
    Config.ReadsSetup (m.writeAll settings.values now) { config with toSettings := settings } ↔
      Config.ReadsSetup m config := by
  have hsame : ∀ key, settings.values.lookup key = none →
      (m.writeAll settings.values now).value key = m.value key :=
    fun key hnone => read_unwritten (nodup_keys_settings settings) hnone
  have hcomplete := hsame "setup_complete" rfl
  have hissuer := hsame "auth_issuer" rfl
  have haudience := hsame "auth_audience" rfl
  constructor
  · rintro ⟨h1, h2, h3⟩
    rw [hcomplete] at h1
    rw [hissuer] at h2
    rw [haudience] at h3
    exact ⟨h1, h2, h3⟩
  · rintro ⟨h1, h2, h3⟩
    refine ⟨?_, ?_, ?_⟩
    · rw [hcomplete]
      exact h1
    · rw [hissuer]
      exact h2
    · rw [haudience]
      exact h3

/-- What is read back after a setup depends on the issuer and the audience alone. -/
theorem readsSetup_setup {config old : Config} {issuer audience : String}
    (hold : Config.ReadsSetup m old) :
    Config.ReadsSetup (m.writeAll (setupValues issuer audience) now)
        (config.afterSetup issuer audience) ↔
      Config.optional issuer = some issuer ∧ Config.optional audience = some audience := by
  have hkeys := nodup_keys_setup issuer audience
  have hissuer : ((m.writeAll (setupValues issuer audience) now).value "auth_issuer").bind
      (some ∘ Config.optional) = some (Config.optional issuer) :=
    read_written hkeys hold.authIssuer rfl rfl
  have haudience : ((m.writeAll (setupValues issuer audience) now).value "auth_audience").bind
      (some ∘ Config.optional) = some (Config.optional audience) :=
    read_written hkeys hold.authAudience rfl rfl
  constructor
  · rintro ⟨-, h2, h3⟩
    exact ⟨Option.some.inj (hissuer.symm.trans h2), Option.some.inj (haudience.symm.trans h3)⟩
  · rintro ⟨h2, h3⟩
    refine ⟨read_written hkeys hold.setupComplete rfl rfl, ?_, ?_⟩
    · rw [hissuer, h2]
      rfl
    · rw [haudience, h3]
      rfl

end Written

section Validation

variable {parse : String → Option Url} {name value : String}

/-- An accepted URL has lost the slashes at its end. -/
theorem validateHttpUrl_eq_ok {url : String} (h : validateHttpUrl parse name value = .ok url) :
    trimEndSlashes url = url := by
  unfold validateHttpUrl at h
  dsimp only at h
  split at h
  · cases h
  · split at h
    · obtain rfl := Except.ok.inj h
      exact trimEndSlashes_trimEndSlashes _
    · cases h

/-- An accepted header value is read back from its text, and so is none from the empty text. -/
theorem optionalHeaderValue_eq_ok {header : Option String}
    (h : optionalHeaderValue name value = .ok header) :
    Config.optionalHeader (header.getD "") = header := by
  unfold optionalHeaderValue at h
  dsimp only at h
  split at h
  · obtain rfl := Except.ok.inj h
    rfl
  · next hne =>
    split at h
    · cases h
    · obtain rfl := Except.ok.inj h
      unfold Config.optionalHeader
      rw [Option.getD_some, trim_trim]
      split
      · next hblank => exact absurd hblank hne
      · rfl

/-- **Accepted settings are normal.** -/
theorem validateSettings_eq_ok {input : UpdateSettings} {settings : Settings}
    (h : validateSettings parse input = .ok settings) : settings.Normal := by
  unfold validateSettings at h
  obtain ⟨upstreamBase, hbase, h⟩ := bind_eq_ok.mp h
  obtain ⟨upstreamOpenaiBeta, hbeta, h⟩ := bind_eq_ok.mp h
  obtain ⟨oauthAuthorizeUrl, -, h⟩ := bind_eq_ok.mp h
  obtain ⟨oauthTokenUrl, -, h⟩ := bind_eq_ok.mp h
  obtain ⟨oauthRedirectUri, -, h⟩ := bind_eq_ok.mp h
  obtain ⟨imageHostModel, -, h⟩ := bind_eq_ok.mp h
  obtain ⟨oauthClientId, -, h⟩ := bind_eq_ok.mp h
  by_cases hrange : InRange input.responseBodyLimit input.imageBodyLimit input.audioBodyLimit
      input.affinityTtlSeconds input.requestArchiveRetentionDays
  · rw [if_neg (not_not.mpr hrange)] at h
    obtain rfl := Except.ok.inj h
    exact ⟨validateHttpUrl_eq_ok hbase, optionalHeaderValue_eq_ok hbeta, hrange⟩
  · rw [if_pos hrange] at h
    cases h

/-- An accepted name is the trimmed text, and not empty. -/
theorem requiredSetting_ne_empty {setting : String} (h : requiredSetting name value = .ok setting) :
    setting = trim value ∧ setting ≠ "" := by
  unfold requiredSetting at h
  dsimp only at h
  split at h
  · cases h
  · next hne =>
    obtain rfl := Except.ok.inj h
    simp only [Bool.or_eq_true, decide_eq_true_eq, not_or] at hne
    exact ⟨rfl, hne.1⟩

end Validation

section Restart

variable {parse : String → Option Url} {s t : SettingsNode}

/-- A computation on the users leaves the configuration alone. -/
theorem settleAccounts_eq_ok {α : Type} {x : Managing α} {a : α}
    (h : settleAccounts x s = .ok a t) : t.appMeta = s.appMeta ∧ t.config = s.config := by
  have hkeeps : Keeps (fun s : SettingsNode => (s.appMeta, s.config)) (settleAccounts x) :=
    Keeps.onPart x fun _ _ => rfl
  exact Prod.ext_iff.mp (hkeeps.of_ok h)

/-- **What a successful `update_settings` does** to the configuration. -/
theorem updateSettings_eq_ok {c : SettingsCall} {answer : Value}
    (h : updateSettings parse c s = .ok answer t) :
    ∃ settings, validateSettings parse c.input = .ok settings ∧
      t.appMeta = s.appMeta.writeAll settings.values c.now ∧
      t.config = { s.config with toSettings := settings } := by
  unfold updateSettings at h
  obtain ⟨root, s1, hlogin, h1⟩ := run_bind_eq_ok.mp h
  obtain ⟨_, s2, hroot, h2⟩ := run_bind_eq_ok.mp h1
  obtain ⟨settings, s3, hvalid, h3⟩ := run_bind_eq_ok.mp h2
  obtain ⟨-, rfl⟩ := await_eq_ok.mp hroot
  obtain ⟨hsettings, rfl⟩ := await_eq_ok.mp hvalid
  obtain ⟨_, s4, hmeta, h4⟩ := run_bind_eq_ok.mp h3
  cases hmeta
  obtain ⟨_, s5, hconfig, h5⟩ := run_bind_eq_ok.mp h4
  cases hconfig
  obtain ⟨_, s6, haudit, h6⟩ := run_bind_eq_ok.mp h5
  cases h6
  obtain ⟨hmeta, hconfig⟩ := settleAccounts_eq_ok hlogin
  obtain ⟨hmeta', hconfig'⟩ := settleAccounts_eq_ok haudit
  refine ⟨settings, hsettings, ?_, ?_⟩
  · rw [hmeta']
    exact congrArg (fun m : AppMeta => m.writeAll settings.values c.now) hmeta
  · rw [hconfig']
    exact congrArg (fun config : Config => { config with toSettings := settings }) hconfig

/-- A setup is required when `setup_complete` has another text than `true`. -/
theorem requireSetup_eq_ok {m : AppMeta} :
    requireSetup m = .ok () ↔ ∃ text, m.value "setup_complete" = some text ∧ text ≠ "true" := by
  unfold requireSetup
  cases m.value "setup_complete" with
  | none => simp
  | some text => by_cases h : text = "true" <;> simp [h]

/-- **What the transaction of a setup commits.** -/
theorem setupTransaction_eq_ok {identityId issuer audience : String} {now : Int}
    (h : setupTransaction identityId issuer audience now s = .ok t) :
    requireSetup s.appMeta = .ok () ∧
      ∃ users, s.accounts.users.crown identityId now = .ok users ∧
        t = { s with
          accounts := { s.accounts with users := users }
          routing := s.routing.adoptProviders identityId
          appMeta := s.appMeta.writeAll (setupValues issuer audience) now } := by
  unfold setupTransaction at h
  split at h
  · cases h
  · cases h
  · next users hrequired hcrown => exact ⟨hrequired, users, hcrown, (Except.ok.inj h).symm⟩

/-- **What a successful `setup` does.** -/
theorem setup_eq_ok {c : SetupCall} {answer : Value} (h : setup c s = .ok answer t) :
    ∃ audience identityId committed, requireSetup s.appMeta = .ok () ∧
      requiredSetting "Auth Mini audience" c.input.authAudience = .ok audience ∧
      c.candidate = .ok identityId ∧
      setupTransaction identityId c.input.issuer audience c.now s = .ok committed ∧
      t = { committed with
        verifier := some ⟨c.input.issuer, audience⟩
        config := committed.config.afterSetup c.input.issuer audience } := by
  unfold setup at h
  obtain ⟨s0, s1, hget, h1⟩ := run_bind_eq_ok.mp h
  cases hget
  obtain ⟨_, s2, hrequired, h2⟩ := run_bind_eq_ok.mp h1
  obtain ⟨hrequired, rfl⟩ := await_eq_ok.mp hrequired
  obtain ⟨audience, s3, hchecked, h3⟩ := run_bind_eq_ok.mp h2
  obtain ⟨haudience, rfl⟩ := await_eq_ok.mp hchecked
  obtain ⟨identityId, s4, hverified, h4⟩ := run_bind_eq_ok.mp h3
  obtain ⟨hcandidate, rfl⟩ := await_eq_ok.mp hverified
  obtain ⟨s5, s6, hget, h5⟩ := run_bind_eq_ok.mp h4
  cases hget
  obtain ⟨committed, s7, hcommit, h6⟩ := run_bind_eq_ok.mp h5
  obtain ⟨hcommitted, rfl⟩ := await_eq_ok.mp hcommit
  cases h6
  exact ⟨audience, identityId, committed, hrequired, haudience, hcandidate, hcommitted, rfl⟩

/-- What it does to the configuration. -/
theorem config_of_setup {c : SetupCall} {answer : Value} (h : setup c s = .ok answer t) :
    let audience := trim c.input.authAudience
    audience ≠ "" ∧ t.appMeta = s.appMeta.writeAll (setupValues c.input.issuer audience) c.now ∧
      t.config = s.config.afterSetup c.input.issuer audience := by
  obtain ⟨audience, identityId, committed, -, haudience, -, hcommitted, rfl⟩ := setup_eq_ok h
  obtain ⟨rfl, hne⟩ := requiredSetting_ne_empty haudience
  obtain ⟨-, users, -, rfl⟩ := setupTransaction_eq_ok hcommitted
  exact ⟨hne, rfl, rfl⟩

/-- What one successful `update_settings` keeps. -/
theorem reads_updateSettings {c : SettingsCall} {answer : Value}
    (h : updateSettings parse c s = .ok answer t)
    (hread : Config.ReadsSettings s.appMeta s.config.toSettings) :
    Config.ReadsSettings t.appMeta t.config.toSettings ∧
      (Config.ReadsSetup t.appMeta t.config ↔ Config.ReadsSetup s.appMeta s.config) := by
  obtain ⟨settings, hvalid, hmeta, hconfig⟩ := updateSettings_eq_ok h
  rw [hmeta, hconfig]
  exact ⟨readsSettings_writeAll hread (validateSettings_eq_ok hvalid), readsSetup_writeAll⟩

/-- Calls of `update_settings`, one after the other. -/
def updateSettingsAll (parse : String → Option Url) (calls : List SettingsCall) : Settling Unit :=
  calls.forM fun c => do
    let _ ← updateSettings parse c

/-- **What a run of successful `update_settings` keeps**: the texts of the settings are those in
memory, and those about the setup as far as they were. -/
theorem reads_updateSettingsAll {calls : List SettingsCall}
    (hrun : updateSettingsAll parse calls s = .ok () t)
    (hread : Config.ReadsSettings s.appMeta s.config.toSettings) :
    Config.ReadsSettings t.appMeta t.config.toSettings ∧
      (Config.ReadsSetup t.appMeta t.config ↔ Config.ReadsSetup s.appMeta s.config) := by
  induction calls generalizing s with
  | nil =>
    cases hrun
    exact ⟨hread, Iff.rfl⟩
  | cons c calls ih =>
    have hcons : updateSettingsAll parse (c :: calls) =
        (updateSettings parse c >>= fun _ => pure ()) >>= fun _ => updateSettingsAll parse calls :=
      List.forM_cons
    rw [hcons] at hrun
    obtain ⟨_, u, hfirst, hrest⟩ := run_bind_eq_ok.mp hrun
    obtain ⟨answer, v, hanswer, hpure⟩ := run_bind_eq_ok.mp hfirst
    cases hpure
    obtain ⟨hmiddle, hsetup⟩ := reads_updateSettings hanswer hread
    obtain ⟨hlast, hsetup'⟩ := ih hrest hmiddle
    exact ⟨hlast, hsetup'.trans hsetup⟩

/-- The issuer and the audience of a setup are read back as they were stored. -/
structure SetupInput.Kept (input : SetupInput) : Prop where
  /-- Without the blanks around it and then the slashes at its end, something is left of the issuer
  that does not end in a blank. -/
  issuer : trimEndSlashes (trim input.authIssuer) ≠ "" ∧
    ∀ c ∈ Config.lastChar (trimEndSlashes (trim input.authIssuer)), isWhitespace c = false
  /-- Without the blanks around it, the audience does not end in a slash. -/
  audience : ∀ c ∈ Config.lastChar (trim input.authAudience), c ≠ '/'

/-- The calls of a process: at some time the setup, and `update_settings` before and after it. -/
def administer (parse : String → Option Url) (before : List SettingsCall) (c : SetupCall)
    (after : List SettingsCall) : Settling Value := do
  updateSettingsAll parse before
  let answer ← setup c
  updateSettingsAll parse after
  pure answer

/-- **When the configuration survives a restart**: in a process that has started with what
`app_meta` holds, after a successful setup and any number of successful calls of `update_settings`,
a new start reads the configuration in memory if and only if the issuer and the audience of the
setup are read back as they were stored. -/
theorem survives_restart_iff (parse : String → Option Url) (before after : List SettingsCall)
    (c : SetupCall) {answer : Value} (hstart : Config.load s.appMeta = .ok s.config)
    (hrun : administer parse before c after s = .ok answer t) :
    Config.load t.appMeta = .ok t.config ↔ c.input.Kept := by
  obtain ⟨hsetup, hsettings⟩ := Config.load_eq_ok_iff.mp hstart
  unfold administer at hrun
  obtain ⟨_, s1, hbefore, hrun1⟩ := run_bind_eq_ok.mp hrun
  obtain ⟨_, s2, hcall, hrun2⟩ := run_bind_eq_ok.mp hrun1
  obtain ⟨_, s3, hafter, hrun3⟩ := run_bind_eq_ok.mp hrun2
  cases hrun3
  obtain ⟨hsettings1, hsetup1⟩ := reads_updateSettingsAll hbefore hsettings
  obtain ⟨hne, hmeta, hconfig⟩ := config_of_setup hcall
  have hsettings2 : Config.ReadsSettings s2.appMeta s2.config.toSettings := by
    rw [hmeta, hconfig]
    exact readsSettings_setup hsettings1 _ _
  have hsetup2 : Config.ReadsSetup s2.appMeta s2.config ↔
      Config.optional c.input.issuer = some c.input.issuer ∧
        Config.optional (trim c.input.authAudience) = some (trim c.input.authAudience) := by
    rw [hmeta, hconfig]
    exact readsSetup_setup (hsetup1.mpr hsetup)
  obtain ⟨hsettings3, hsetup3⟩ := reads_updateSettingsAll hafter hsettings2
  rw [Config.load_eq_ok_iff, and_iff_left hsettings3, hsetup3, hsetup2]
  rw [Config.optional_trim_iff hne]
  have hissuer := @Config.optional_trimEndSlashes_iff c.input.authIssuer
  constructor
  · exact fun h => ⟨hissuer.mp h.1, h.2⟩
  · exact fun h => ⟨hissuer.mpr h.issuer, h.audience⟩

/-- The rows that the migrations leave in `app_meta`. -/
def migratedMeta : AppMeta where
  rows := [⟨"setup_complete", "false", 0⟩, ⟨"auth_issuer", "", 0⟩, ⟨"auth_audience", "", 0⟩,
    ⟨"upstream_base", "https://chatgpt.com/backend-api/codex", 0⟩,
    ⟨"image_host_model", "gpt-5.4", 0⟩,
    ⟨"oauth_authorize_url", "https://auth.openai.com/oauth/authorize", 0⟩,
    ⟨"oauth_token_url", "https://auth.openai.com/oauth/token", 0⟩,
    ⟨"oauth_redirect_uri", "http://localhost:1455/auth/callback", 0⟩,
    ⟨"oauth_client_id", "app_EMoamEEZ73f0CkXaXp7hrann", 0⟩, ⟨"response_body_limit", "2097152", 0⟩,
    ⟨"image_body_limit", "4194304", 0⟩, ⟨"audio_body_limit", "536870912", 0⟩,
    ⟨"affinity_ttl_seconds", "86400", 0⟩, ⟨"request_archive_retention_days", "1", 0⟩,
    ⟨"upstream_openai_beta", "", 0⟩]
  nodup := by decide

/-- The configuration of a new installation. -/
def migratedConfig : Config where
  upstreamBase := "https://chatgpt.com/backend-api/codex"
  upstreamOpenaiBeta := none
  imageHostModel := "gpt-5.4"
  oauthAuthorizeUrl := "https://auth.openai.com/oauth/authorize"
  oauthTokenUrl := "https://auth.openai.com/oauth/token"
  oauthRedirectUri := "http://localhost:1455/auth/callback"
  oauthClientId := "app_EMoamEEZ73f0CkXaXp7hrann"
  responseBodyLimit := 2097152
  imageBodyLimit := 4194304
  audioBodyLimit := 536870912
  affinityTtlSeconds := 86400
  requestArchiveRetentionDays := 1
  setupComplete := false
  authIssuer := none
  authAudience := none

/-- A new installation. -/
def newInstallation : SettingsNode where
  accounts := ⟨.empty, []⟩
  routing := .empty
  appMeta := migratedMeta
  verifier := none
  config := migratedConfig

/-- A setup whose audience ends in a slash. -/
def slashedSetup : SetupCall :=
  ⟨⟨"https://auth.example.com/", "https://app.example.com/"⟩, .ok "root", 1⟩

/-- The same setup without the slash. -/
def plainSetup : SetupCall :=
  ⟨⟨"https://auth.example.com/", "https://app.example.com"⟩, .ok "root", 1⟩

/-- A call of `update_settings` that sets a header and a limit. -/
def headerUpdate : SettingsCall where
  call := ⟨.ok "root", 2, "ip"⟩
  input :=
    { upstreamBase := " https://chatgpt.com/backend-api/codex/ "
      upstreamOpenaiBeta := " responses=experimental "
      imageHostModel := "gpt-5.4"
      oauthAuthorizeUrl := "https://auth.openai.com/oauth/authorize"
      oauthTokenUrl := "https://auth.openai.com/oauth/token"
      oauthRedirectUri := "http://localhost:1455/auth/callback"
      oauthClientId := "app_EMoamEEZ73f0CkXaXp7hrann"
      responseBodyLimit := 1048576
      imageBodyLimit := 4194304
      audioBodyLimit := 536870912
      affinityTtlSeconds := 86400
      requestArchiveRetentionDays := 30 }
  now := 2
  stamp := ⟨"a", 2⟩

/-- The statement for a setup and an update after it. -/
theorem survives_restart_iff_plain :
    ∃ answer t, administer (fun _ => some ⟨"https", some "host"⟩) [] plainSetup [headerUpdate]
      newInstallation = .ok answer t ∧
        (Config.load t.appMeta = .ok t.config ↔ plainSetup.input.Kept) := by
  have hrun : ∃ answer t, administer (fun _ => some ⟨"https", some "host"⟩) [] plainSetup
      [headerUpdate] newInstallation = .ok answer t := ⟨_, _, rfl⟩
  obtain ⟨answer, t, hrun⟩ := hrun
  exact ⟨answer, t, hrun, survives_restart_iff _ [] [headerUpdate] plainSetup rfl hrun⟩

/-- After a setup whose audience ends in a slash, a restart reads another audience. -/
theorem audience_loses_slash :
    ∃ answer t config, setup slashedSetup newInstallation = .ok answer t ∧
      t.config.authAudience = some "https://app.example.com/" ∧
      Config.load t.appMeta = .ok config ∧
      config.authAudience = some "https://app.example.com" ∧
      Config.load t.appMeta ≠ .ok t.config := by
  refine ⟨_, _, _, rfl, rfl, rfl, rfl, ?_⟩
  intro h
  exact absurd (congrArg Config.authAudience (Except.ok.inj h)) (by decide)

end Restart

end OpenAiLb
