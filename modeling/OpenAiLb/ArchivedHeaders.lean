import OpenAiLb.Headers
import Mathlib.Data.List.Infix

/-!
# Archived headers

Headers are archived as the JSON text of name and value pairs. A tenant sees the text
without the pairs that may carry a secret; a text that cannot be read is shown as an empty
list.
-/

namespace OpenAiLb

/-- `str::ends_with`. -/
def endsWith (s suffix : String) : Bool := suffix.toList.isSuffixOf s.toList

/-- `str::contains`. -/
def contains (s part : String) : Bool := decide (part.toList <:+: s.toList)

/-- `sensitive_header`. -/
def sensitiveHeader (name : String) : Bool :=
  let name := toAsciiLowercase name
  ["authorization", "proxy-authorization", "cookie", "set-cookie", "api-key", "x-api-key",
    "x-openai-api-key", "x-goog-api-key", "x-auth", "x-credential", "access-key",
    "x-amz-security-token", "x-session-id", "x-codex-session-id", "session-id",
    "session_id"].contains name ||
    endsWith name "-api-key" || endsWith name "-token" || contains name "secret"

/-- The JSON value of a `Vec<(String, String)>`. -/
def pairsValue (pairs : List (String × String)) : Value :=
  .array (pairs.map fun (name, value) => .array [.string name, .string value])

/-- A `(String, String)` from its JSON value. -/
def stringPair : Value → Option (String × String)
  | .array [.string name, .string value] => some (name, value)
  | _ => none

/-- A `Vec<(String, String)>` from its JSON value. -/
def stringPairs (value : Value) : Option (List (String × String)) :=
  value.asArray.bind fun items => items.mapM stringPair

namespace SerdeJson

/-- `serde_json::from_str::<Vec<(String, String)>>`. -/
def fromStr (serde : SerdeJson) (text : String) : Option (List (String × String)) :=
  (serde.fromSlice (asBytes text)).bind stringPairs

/-- `serde_json::to_string` of a `Vec<(String, String)>`. -/
def pairsText (serde : SerdeJson) (pairs : List (String × String)) : String :=
  serde.toString (pairsValue pairs)

end SerdeJson

/-- `visible_archive_headers`. -/
def visibleArchiveHeaders (serde : SerdeJson) (headers : Option String) (admin : Bool) :
    Option String :=
  if admin then headers
  else headers.map fun headers =>
    ((serde.fromStr headers).map fun pairs =>
      serde.pairsText (pairs.filter fun pair => !sensitiveHeader pair.1)).getD "[]"

/-- The pairs that `archive_headers` writes. -/
def archivedPairs (headers : HeaderMap) : List (String × String) :=
  headers.iter.map fun (name, value) => (name, value.toStr.getD "<non-UTF-8 header value>")

/-- The archived pairs that are not sensitive, in order. -/
def tenantPairs (headers : HeaderMap) : List (String × String) :=
  (archivedPairs headers).filter fun pair => !sensitiveHeader pair.1

/-- `archive_headers` writes the pairs as JSON. -/
theorem archiveHeaders_eq (serde : SerdeJson) (headers : HeaderMap) :
    archiveHeaders serde headers = serde.pairsText (archivedPairs headers) := by
  simp only [archiveHeaders, SerdeJson.pairsText, pairsValue, archivedPairs, List.map_map]
  rfl

/-- Reading back a JSON value of pairs. -/
@[simp] theorem stringPairs_pairsValue (pairs : List (String × String)) :
    stringPairs (pairsValue pairs) = some pairs := by
  show (pairs.map fun pair => Value.array [.string pair.1, .string pair.2]).mapM stringPair =
    some pairs
  induction pairs with
  | nil => rfl
  | cons pair rest ih => simp [ih, stringPair]

section Visible

variable {serde : SerdeJson}

/-- What `serde_json` promises for the pairs: the text that it prints is read back. -/
def SerdeJson.Restores (serde : SerdeJson) (pairs : List (String × String)) : Prop :=
  serde.fromSlice (asBytes (serde.pairsText pairs)) = some (pairsValue pairs)

/-- Pairs that are restored can be read back from their text. -/
theorem SerdeJson.Restores.fromStr {pairs : List (String × String)} (h : serde.Restores pairs) :
    serde.fromStr (serde.pairsText pairs) = some pairs := by
  rw [SerdeJson.fromStr, h, Option.bind_some, stringPairs_pairsValue]

/-- **A tenant sees the pairs that are not sensitive**, in their order and as often as archived. -/
theorem visibleArchiveHeaders_archived {headers : HeaderMap}
    (h : serde.Restores (archivedPairs headers)) :
    visibleArchiveHeaders serde (some (archiveHeaders serde headers)) false =
      some (serde.pairsText (tenantPairs headers)) := by
  rw [archiveHeaders_eq]
  simp [visibleArchiveHeaders, h.fromStr, tenantPairs]

/-- A text that is no list of pairs is not shown. -/
theorem visibleArchiveHeaders_unreadable {text : String} (h : serde.fromStr text = none) :
    visibleArchiveHeaders serde (some text) false = some "[]" := by
  simp [visibleArchiveHeaders, h]

/-- The same names in the same order, and the same values except where the name is sensitive. -/
def AlikeButSecrets (first second : HeaderMap) : Prop :=
  List.Forall₂ (fun a b => a.1 = b.1 ∧ (sensitiveHeader a.1 = false → a.2 = b.2))
    first.iter second.iter

/-- The values of sensitive headers do not show. -/
theorem AlikeButSecrets.tenantPairs_eq {first second : HeaderMap}
    (h : AlikeButSecrets first second) : tenantPairs first = tenantPairs second := by
  unfold AlikeButSecrets at h
  unfold tenantPairs archivedPairs
  generalize first.iter = entries at h ⊢
  generalize second.iter = entries' at h ⊢
  induction h with
  | nil => rfl
  | @cons a b as bs hab _ ih =>
    obtain ⟨hname, hvalue⟩ := hab
    cases hs : sensitiveHeader a.1 with
    | false =>
      have heq : a = b := Prod.ext hname (hvalue hs)
      subst heq
      simpa [hs] using ih
    | true =>
      have hs' : sensitiveHeader b.1 = true := hname ▸ hs
      simpa [hs, hs'] using ih

end Visible

/-- A value with a byte outside ASCII is archived as the placeholder; every value that is not
UTF-8 has one. -/
theorem toStr_eq_none {value : HeaderValue} {byte : UInt8} (hmem : byte ∈ value.bytes)
    (hbyte : 128 ≤ byte) : value.toStr = none := by
  have hfails : ¬ value.bytes.all
      (fun byte => (32 ≤ byte && byte < 127) || byte = 9) = true := by
    intro hall
    have hfor := List.all_eq_true.mp hall byte hmem
    simp only [Bool.or_eq_true, Bool.and_eq_true, decide_eq_true_eq] at hfor
    rcases hfor with ⟨-, hlt⟩ | rfl
    · have h1 : (128 : ℕ) ≤ byte.toNat := hbyte
      have h2 : byte.toNat < 127 := hlt
      omega
    · exact absurd hbyte (by decide)
  rw [HeaderValue.toStr, if_neg hfails]

end OpenAiLb
