import Mathlib.Algebra.Group.Nat.Defs
import Mathlib.Data.List.DropRight
import OpenAiLb.Library.Stoppable
import OpenAiLb.Library.Table
import OpenAiLb.Serde

/-!
# The configuration in `app_meta`

The configuration of the process is kept as texts in the table `app_meta`. `Config::load` reads it
at the start, and the handlers of the setup and of the settings write it. A text that a handler
writes is read back as the value that it was printed from.
-/

namespace OpenAiLb

section Texts

/-- `trim_end_matches('/')`. -/
def trimEndSlashes (s : String) : String := String.ofList (s.toList.rdropWhile (· = '/'))

/-- The number that a list of decimal digits stands for. -/
def parseDigits (digits : List Char) : Option ℕ :=
  if digits ≠ [] ∧ digits.all Char.isDigit then some (Nat.ofDigitChars 10 digits 0) else none

/-- `str::parse::<usize>` on 64 bits: a sign `+` is allowed. -/
def parseUsize (s : String) : Option ℕ :=
  (match s.toList with
    | '+' :: digits => parseDigits digits
    | digits => parseDigits digits).filter (· < 2 ^ 64)

/-- `str::parse::<i64>`. -/
def parseI64 (s : String) : Option Int :=
  (match s.toList with
    | '-' :: digits => (parseDigits digits).map fun n => -(n : Int)
    | '+' :: digits => (parseDigits digits).map Nat.cast
    | digits => (parseDigits digits).map Nat.cast).filter IsI64

/-- `str::parse::<bool>`. -/
def parseBool (s : String) : Option Bool :=
  if s = "true" then some true else if s = "false" then some false else none

/-- Reading the decimal digits of a number gives the number. -/
theorem parseDigits_toDigits (n : ℕ) : parseDigits (Nat.toDigits 10 n) = some n := by
  have hdigits : (Nat.toDigits 10 n).all Char.isDigit = true := by
    rw [List.all_eq_true]
    exact fun c hc => Nat.isDigit_of_mem_toDigits (by omega) (by omega) hc
  unfold parseDigits
  rw [if_pos ⟨Nat.toDigits_ne_nil, hdigits⟩, Nat.ofDigitChars_toDigits (by omega) (by omega)]

/-- A printed number starts with a digit. -/
theorem toDigits_eq_cons (n : ℕ) :
    ∃ c digits, Nat.toDigits 10 n = c :: digits ∧ c.isDigit = true := by
  cases hdigits : Nat.toDigits 10 n with
  | nil => exact absurd hdigits Nat.toDigits_ne_nil
  | cons c digits =>
    refine ⟨c, digits, rfl, Nat.isDigit_of_mem_toDigits (b := 10) (n := n) (by omega) (by omega) ?_⟩
    rw [hdigits]
    exact List.mem_cons_self

/-- A number of the type `usize` is read back as it was printed. -/
theorem parseUsize_toString {n : ℕ} (hn : n < 2 ^ 64) : parseUsize (toString n) = some n := by
  obtain ⟨c, digits, hdigits, hc⟩ := toDigits_eq_cons n
  have hparse := parseDigits_toDigits n
  have hplus : c ≠ '+' := by
    rintro rfl
    cases hc
  unfold parseUsize
  rw [Nat.toString_eq_ofList_toDigits, String.toList_ofList, hdigits]
  rw [hdigits] at hparse
  split
  · next heq => exact absurd (List.cons.inj heq).1 hplus
  · rw [hparse]
    exact Option.filter_eq_some_iff.mpr ⟨rfl, decide_eq_true hn⟩

/-- A number of the type `i64` is read back as it was printed. -/
theorem parseI64_toString {n : Int} (hn : IsI64 n) : parseI64 (toString n) = some n := by
  unfold parseI64
  cases n with
  | ofNat m =>
    obtain ⟨c, digits, hdigits, hc⟩ := toDigits_eq_cons m
    have hparse := parseDigits_toDigits m
    have hsign : c ≠ '-' ∧ c ≠ '+' := by
      constructor <;> rintro rfl <;> cases hc
    have htext : (toString (Int.ofNat m)).toList = c :: digits := by
      rw [← hdigits, ← Nat.toList_repr]
      rfl
    rw [htext]
    rw [hdigits] at hparse
    split
    · next heq => exact absurd (List.cons.inj heq).1 hsign.1
    · next heq => exact absurd (List.cons.inj heq).1 hsign.2
    · rw [hparse]
      simpa using hn
  | negSucc m =>
    have htext : (toString (Int.negSucc m)).toList = '-' :: Nat.toDigits 10 (m + 1) := by
      rw [← Nat.toList_repr]
      change ("-" ++ Nat.repr (m + 1)).toList = _
      rw [String.toList_append]
      rfl
    rw [htext]
    simpa [parseDigits_toDigits, Int.negSucc_eq] using hn

/-- Trimming drops the blanks at both ends. -/
theorem toList_trim (s : String) :
    (trim s).toList = (s.toList.dropWhile isWhitespace).rdropWhile isWhitespace :=
  String.toList_ofList

/-- The text loses the slashes at its end. -/
theorem toList_trimEndSlashes (s : String) :
    (trimEndSlashes s).toList = s.toList.rdropWhile (· = '/') := String.toList_ofList

/-- A text that starts like a trimmed one has no blanks to drop in front. -/
theorem dropWhile_of_prefix {α : Type} {p : α → Bool} {l front : List α}
    (h : front <+: l.dropWhile p) : front.dropWhile p = front := by
  cases front with
  | nil => rfl
  | cons a front =>
    obtain ⟨rest, hrest⟩ := h
    have ha : ¬ p a = true := by
      have hne : l.dropWhile p ≠ [] := by
        rw [← hrest]
        simp
      have hhead := List.head_dropWhile_not p hne
      simp only [← hrest] at hhead
      simpa using hhead
    rw [List.dropWhile_cons_of_neg ha]

/-- Trimming such a text only drops blanks at its end. -/
theorem toList_trim_of_prefix {s text : String}
    (h : s.toList <+: text.toList.dropWhile isWhitespace) :
    (trim s).toList = s.toList.rdropWhile isWhitespace := by
  rw [toList_trim, dropWhile_of_prefix h]

/-- Trimming is done once. -/
@[simp] theorem trim_trim (s : String) : trim (trim s) = trim s := by
  have hprefix : (trim s).toList <+: s.toList.dropWhile isWhitespace := by
    rw [toList_trim]
    exact List.rdropWhile_prefix _ _
  rw [← String.toList_inj, toList_trim_of_prefix hprefix, toList_trim, List.rdropWhile_idempotent]

/-- So is dropping the slashes. -/
@[simp] theorem trimEndSlashes_trimEndSlashes (s : String) :
    trimEndSlashes (trimEndSlashes s) = trimEndSlashes s := by
  rw [← String.toList_inj]
  simp only [toList_trimEndSlashes, List.rdropWhile_idempotent]

end Texts

/-- A row of `app_meta`. -/
structure MetaRow where
  key : String
  value : String
  updatedAt : Int
  deriving DecidableEq

/-- The table `app_meta`. -/
abbrev AppMeta := Table MetaRow.key

namespace AppMeta

/-- `SELECT value FROM app_meta WHERE key=?`. -/
def value (m : AppMeta) (key : String) : Option String := (m.find? key).map MetaRow.value

/-- `UPDATE app_meta SET value=?,updated_at=? WHERE key=?`. -/
def write (m : AppMeta) (key value : String) (now : Int) : AppMeta :=
  m.updateWhere (fun row => row.key = key)
    (fun row => { row with value := value, updatedAt := now }) fun _ => rfl

/-- One such statement for each pair. -/
def writeAll (m : AppMeta) (values : List (String × String)) (now : Int) : AppMeta :=
  values.foldl (fun m entry => m.write entry.1 entry.2 now) m

variable {m : AppMeta} {now : Int} {key : String}

/-- Writing a setting that is there replaces its value and no other. -/
theorem value_write (written value : String) :
    (m.write written value now).value key =
      (m.value key).map fun old => if key = written then value else old := by
  unfold AppMeta.value write
  rw [Table.find?_updateWhere]
  cases hrow : m.find? key with
  | none => rfl
  | some row =>
    have hkey : row.key = key := Table.key_of_find? hrow
    by_cases hsame : key = written <;> simp [hkey, hsame]

/-- **What the statements leave**: each key that is there has its new value, if it has one. -/
theorem value_writeAll {values : List (String × String)} (hkeys : (values.map Prod.fst).Nodup) :
    (m.writeAll values now).value key =
      (m.value key).map fun old => (values.lookup key).getD old := by
  induction values generalizing m with
  | nil => simp [writeAll]
  | cons entry values ih =>
    obtain ⟨written, value⟩ := entry
    obtain ⟨hfresh, hkeys⟩ := List.nodup_cons.mp hkeys
    have hstep : m.writeAll ((written, value) :: values) now =
        (m.write written value now).writeAll values now := rfl
    rw [hstep, ih hkeys, value_write, Option.map_map]
    congr 1
    funext old
    by_cases hsame : key = written
    · subst hsame
      have hnone : values.lookup key = none := by
        rw [List.lookup_eq_none_iff]
        intro entry hmem
        rw [bne_iff_ne]
        rintro rfl
        exact hfresh (List.mem_map.mpr ⟨entry, hmem, rfl⟩)
      simp [hnone]
    · simp [List.lookup_cons, beq_false_of_ne hsame, hsame]

end AppMeta

/-- Why a configuration cannot be loaded. -/
inductive LoadError where
  /-- `app_meta is missing {key}`. -/
  | missing (key : String)
  /-- A text is not one of its type. -/
  | malformed
  deriving DecidableEq

/-- The settings that the root may change. -/
structure Settings where
  upstreamBase : String
  upstreamOpenaiBeta : Option String
  imageHostModel : String
  oauthAuthorizeUrl : String
  oauthTokenUrl : String
  oauthRedirectUri : String
  oauthClientId : String
  responseBodyLimit : ℕ
  imageBodyLimit : ℕ
  audioBodyLimit : ℕ
  affinityTtlSeconds : Int
  requestArchiveRetentionDays : Int
  deriving DecidableEq

/-- `Config`, without what comes from the command line. -/
structure Config extends Settings where
  setupComplete : Bool
  authIssuer : Option String
  authAudience : Option String
  deriving DecidableEq

namespace AppMeta

/-- Read the text of a key. -/
def read {α : Type} (m : AppMeta) (key : String) (parse : String → Option α) :
    Except LoadError α :=
  match m.value key with
  | none => .error (.missing key)
  | some text => (parse text).elim (.error .malformed) .ok

/-- A setting is read if it is there and its text can be parsed. -/
theorem read_eq_ok {α : Type} {m : AppMeta} {key : String} {parse : String → Option α} {a : α} :
    m.read key parse = .ok a ↔ (m.value key).bind parse = some a := by
  unfold read
  cases m.value key with
  | none => simp
  | some text => cases hparse : parse text <;> simp [hparse]

end AppMeta

namespace Config

/-- The texts of `auth_issuer` and `auth_audience`. -/
def optional (text : String) : Option String :=
  match trim text with
  | "" => none
  | configured => some (trimEndSlashes configured)

/-- An optional setting counts unless it is blank, without blanks and trailing slashes around it. -/
theorem optional_eq_some_iff {text value : String} :
    optional text = some value ↔ trim text ≠ "" ∧ trimEndSlashes (trim text) = value := by
  unfold optional
  split
  · next hblank => simp [hblank]
  · next configured hne => exact ⟨fun h => ⟨hne, Option.some.inj h⟩, fun h => congrArg some h.2⟩

/-- The last character of a text, if it has one. -/
def lastChar (text : String) : Option Char := text.toList.getLast?

/-- A text without a character `p` at its end keeps it. -/
theorem rdropWhile_eq_self_iff_lastChar {text : String} {p : Char → Bool} :
    text.toList.rdropWhile p = text.toList ↔ ∀ c ∈ lastChar text, p c = false := by
  rw [List.rdropWhile_eq_self_iff]
  unfold lastChar
  constructor
  · intro h c hc
    have hlast : text.toList.getLast? = some c := hc
    have hne : text.toList ≠ [] := by
      rintro hnil
      rw [hnil] at hlast
      cases hlast
    rw [List.getLast?_eq_some_getLast hne, Option.some_inj] at hlast
    have := h hne
    rw [hlast] at this
    simpa using this
  · intro h hne
    simpa using h _ (List.getLast?_eq_some_getLast hne)

/-- A trimmed audience is read back unless it ends in a slash. -/
theorem optional_trim_iff {text : String} (hne : trim text ≠ "") :
    optional (trim text) = some (trim text) ↔ ∀ c ∈ lastChar (trim text), c ≠ '/' := by
  have hself : trimEndSlashes (trim text) = trim text ↔
      (trim text).toList.rdropWhile (· = '/') = (trim text).toList := by
    rw [← String.toList_inj, toList_trimEndSlashes]
  rw [optional_eq_some_iff, trim_trim, hself, rdropWhile_eq_self_iff_lastChar]
  simp [hne]

/-- An issuer that has lost the slashes at its end is read back unless nothing is left of it, or
there is a blank before the slashes. -/
theorem optional_trimEndSlashes_iff {text : String} :
    let issuer := trimEndSlashes (trim text)
    optional issuer = some issuer ↔
      issuer ≠ "" ∧ ∀ c ∈ lastChar issuer, isWhitespace c = false := by
  intro issuer
  have hprefix : issuer.toList <+: text.toList.dropWhile isWhitespace := by
    rw [toList_trimEndSlashes, toList_trim]
    exact (List.rdropWhile_prefix _ _).trans (List.rdropWhile_prefix _ _)
  have htrim := toList_trim_of_prefix hprefix
  have hslashes : issuer.toList.rdropWhile (· = '/') = issuer.toList := by
    rw [toList_trimEndSlashes, List.rdropWhile_idempotent]
  rw [optional_eq_some_iff, ← rdropWhile_eq_self_iff_lastChar]
  constructor
  · rintro ⟨hne, hsame⟩
    have hfront : issuer.toList.rdropWhile isWhitespace = issuer.toList := by
      refine (List.rdropWhile_prefix _ _).eq_of_length_le ?_
      have hlength := congrArg (fun s => s.toList.length) hsame
      simp only [toList_trimEndSlashes, htrim] at hlength
      rw [← hlength]
      exact (List.rdropWhile_prefix _ _).length_le
    refine ⟨?_, hfront⟩
    rintro hempty
    rw [hempty] at hne
    exact hne rfl
  · rintro ⟨hne, hfront⟩
    have hkept : trim issuer = issuer := by
      rw [← String.toList_inj, htrim, hfront]
    rw [hkept]
    refine ⟨hne, ?_⟩
    rw [← String.toList_inj, toList_trimEndSlashes, hslashes]

/-- The text of `upstream_openai_beta`. -/
def optionalHeader (text : String) : Option String :=
  match trim text with
  | "" => none
  | value => some value

/-- `Config::load`. -/
def load (m : AppMeta) : Except LoadError Config := do
  let setupComplete ← m.read "setup_complete" parseBool
  let authIssuer ← m.read "auth_issuer" (some ∘ optional)
  let authAudience ← m.read "auth_audience" (some ∘ optional)
  let upstreamBase ← m.read "upstream_base" (some ∘ trimEndSlashes)
  let upstreamOpenaiBeta ← m.read "upstream_openai_beta" (some ∘ optionalHeader)
  let imageHostModel ← m.read "image_host_model" some
  let oauthAuthorizeUrl ← m.read "oauth_authorize_url" some
  let oauthTokenUrl ← m.read "oauth_token_url" some
  let oauthRedirectUri ← m.read "oauth_redirect_uri" some
  let oauthClientId ← m.read "oauth_client_id" some
  let responseBodyLimit ← m.read "response_body_limit" parseUsize
  let imageBodyLimit ← m.read "image_body_limit" parseUsize
  let audioBodyLimit ← m.read "audio_body_limit" parseUsize
  let affinityTtlSeconds ← m.read "affinity_ttl_seconds" parseI64
  let requestArchiveRetentionDays ← m.read "request_archive_retention_days" parseI64
  pure
    { setupComplete, authIssuer, authAudience, upstreamBase, upstreamOpenaiBeta, imageHostModel,
      oauthAuthorizeUrl, oauthTokenUrl, oauthRedirectUri, oauthClientId, responseBodyLimit,
      imageBodyLimit, audioBodyLimit, affinityTtlSeconds, requestArchiveRetentionDays }

/-- The texts of the settings are those of `settings`. -/
structure ReadsSettings (m : AppMeta) (settings : Settings) : Prop where
  upstreamBase : (m.value "upstream_base").bind (some ∘ trimEndSlashes) = some settings.upstreamBase
  upstreamOpenaiBeta : (m.value "upstream_openai_beta").bind (some ∘ optionalHeader) =
    some settings.upstreamOpenaiBeta
  imageHostModel : (m.value "image_host_model").bind some = some settings.imageHostModel
  oauthAuthorizeUrl : (m.value "oauth_authorize_url").bind some = some settings.oauthAuthorizeUrl
  oauthTokenUrl : (m.value "oauth_token_url").bind some = some settings.oauthTokenUrl
  oauthRedirectUri : (m.value "oauth_redirect_uri").bind some = some settings.oauthRedirectUri
  oauthClientId : (m.value "oauth_client_id").bind some = some settings.oauthClientId
  responseBodyLimit : (m.value "response_body_limit").bind parseUsize =
    some settings.responseBodyLimit
  imageBodyLimit : (m.value "image_body_limit").bind parseUsize = some settings.imageBodyLimit
  audioBodyLimit : (m.value "audio_body_limit").bind parseUsize = some settings.audioBodyLimit
  affinityTtlSeconds : (m.value "affinity_ttl_seconds").bind parseI64 =
    some settings.affinityTtlSeconds
  requestArchiveRetentionDays : (m.value "request_archive_retention_days").bind parseI64 =
    some settings.requestArchiveRetentionDays

/-- The texts about the setup are those of `config`. -/
structure ReadsSetup (m : AppMeta) (config : Config) : Prop where
  setupComplete : (m.value "setup_complete").bind parseBool = some config.setupComplete
  authIssuer : (m.value "auth_issuer").bind (some ∘ optional) = some config.authIssuer
  authAudience : (m.value "auth_audience").bind (some ∘ optional) = some config.authAudience

/-- **What a load reads**: the texts about the setup and those of the settings. -/
theorem load_eq_ok_iff {m : AppMeta} {config : Config} :
    load m = .ok config ↔ ReadsSetup m config ∧ ReadsSettings m config.toSettings := by
  unfold load
  simp only [Stoppable.bind_eq_ok, AppMeta.read_eq_ok]
  constructor
  · rintro ⟨_, h1, _, h2, _, h3, _, h4, _, h5, _, h6, _, h7, _, h8, _, h9, _, h10, _, h11, _, h12,
      _, h13, _, h14, _, h15, h⟩
    cases h
    exact ⟨⟨h1, h2, h3⟩, ⟨h4, h5, h6, h7, h8, h9, h10, h11, h12, h13, h14, h15⟩⟩
  · rintro ⟨⟨h1, h2, h3⟩, ⟨h4, h5, h6, h7, h8, h9, h10, h11, h12, h13, h14, h15⟩⟩
    exact ⟨_, h1, _, h2, _, h3, _, h4, _, h5, _, h6, _, h7, _, h8, _, h9, _, h10, _, h11, _, h12, _,
      h13, _, h14, _, h15, rfl⟩

end Config

end OpenAiLb
