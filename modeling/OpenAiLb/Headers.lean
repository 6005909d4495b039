import OpenAiLb.Serde

/-!
# Headers

Header maps of requests and responses, what the proxy forwards of them, what it archives,
and the keys that it reads from them: the thread of a call and its affinity.
-/

namespace OpenAiLb

/-- `to_ascii_lowercase`. -/
def toAsciiLowercase (s : String) : String := String.ofList (s.toList.map Char.toLower)

/-- `str::starts_with` for a string. -/
def startsWith (s start : String) : Bool := start.toList.isPrefixOf s.toList

/-- The bytes of a string. -/
def asBytes (s : String) : List UInt8 := s.toUTF8.data.toList

/-- `HeaderValue`: any bytes. -/
structure HeaderValue where
  bytes : List UInt8
  deriving DecidableEq

/-- `HeaderValue::from_static`. -/
def HeaderValue.fromStatic (text : String) : HeaderValue := ⟨asBytes text⟩

/-- `HeaderValue::to_str`: visible ASCII characters, blanks and tabs. -/
def HeaderValue.toStr (value : HeaderValue) : Option String :=
  if value.bytes.all fun byte => (32 ≤ byte && byte < 127) || byte = 9 then
    some (String.ofList (value.bytes.map fun byte => Char.ofNat byte.toNat))
  else none

/-- `HeaderMap`: each name with its values, in the order in which the names came. -/
structure HeaderMap where
  entries : List (String × List HeaderValue)
  deriving DecidableEq

namespace HeaderMap

/-- `HeaderMap::new`. -/
def new : HeaderMap := ⟨[]⟩

/-- `HeaderMap::is_empty`. -/
def isEmpty (headers : HeaderMap) : Bool := headers.entries.isEmpty

/-- `HeaderMap::get`: the first value. -/
def get (headers : HeaderMap) (name : String) : Option HeaderValue :=
  (headers.entries.lookup name).bind List.head?

/-- `HeaderMap::iter`. -/
def iter (headers : HeaderMap) : List (String × HeaderValue) :=
  headers.entries.flatMap fun (name, values) => values.map fun value => (name, value)

/-- `HeaderMap::append`. -/
def append (headers : HeaderMap) (name : String) (value : HeaderValue) : HeaderMap :=
  if headers.entries.any fun entry => entry.1 = name then
    ⟨headers.entries.map fun entry =>
      if entry.1 = name then (name, entry.2 ++ [value]) else entry⟩
  else ⟨headers.entries ++ [(name, [value])]⟩

/-- `HeaderMap::insert`. -/
def insert (headers : HeaderMap) (name : String) (value : HeaderValue) : HeaderMap :=
  if headers.entries.any fun entry => entry.1 = name then
    ⟨headers.entries.map fun entry => if entry.1 = name then (name, [value]) else entry⟩
  else ⟨headers.entries ++ [(name, [value])]⟩

end HeaderMap

/-- `header_value`. -/
def headerValue (headers : HeaderMap) (name : String) : Option String :=
  (headers.get name).bind HeaderValue.toStr

/-- `archive_headers`. -/
def archiveHeaders (serde : SerdeJson) (headers : HeaderMap) : String :=
  serde.toString (.array (headers.iter.map fun (name, value) =>
    .array [.string name, .string (value.toStr.getD "<non-UTF-8 header value>")]))

/-- `HOP_HEADERS`. -/
def hopHeaders : List String :=
  ["connection", "keep-alive", "proxy-authenticate", "proxy-authorization", "te", "trailer",
    "transfer-encoding", "upgrade", "host", "content-length", "cookie", "proxy-connection",
    "set-cookie"]

/-- `PROXY_ONLY_HEADERS`. -/
def proxyOnlyHeaders : List String :=
  ["x-lb-affinity-key", "x-session-id", "session_id", "x-codex-session-id",
    "x-codex-conversation-id"]

/-- `should_forward_request_header`. -/
def shouldForwardRequestHeader (path name : String) : Bool :=
  let lower := toAsciiLowercase name
  if lower = "authorization" || hopHeaders.contains lower || proxyOnlyHeaders.contains lower then
    false
  else
    let common :=
      ["accept", "accept-encoding", "user-agent", "originator", "session-id", "thread-id",
        "x-client-request-id"].contains lower ||
      startsWith lower "x-openai-" || startsWith lower "x-codex-"
    if path = "/v1/audio/transcriptions" then common || lower = "content-type"
    else common || startsWith lower "openai-"

/-- `filtered_response_headers`. -/
def filteredResponseHeaders (headers : HeaderMap) : List (String × HeaderValue) :=
  headers.iter.filter fun (name, _) =>
    let lower := toAsciiLowercase name
    !hopHeaders.contains lower && lower ≠ "x-request-id"

/-- A header that names something: visible, trimmed and not empty. -/
def headerKey (headers : HeaderMap) (name : String) : Option String :=
  ((headerValue headers name).map trim).filter (· ≠ "")

/-- `thread_id`. -/
def threadId (headers : HeaderMap) : Option String :=
  ["x-codex-conversation-id", "thread-id"].findSome? (headerKey headers)

/-- `AffinityKey`. -/
structure AffinityKey where
  source : String
  value : String
  deriving DecidableEq

/-- `affinity_key`. -/
def affinityKey (headers : HeaderMap) (body : Option Value) : Option AffinityKey :=
  (["x-lb-affinity-key", "session_id", "x-session-id", "x-codex-session-id",
      "x-codex-conversation-id", "thread-id"].findSome? fun name =>
    (headerKey headers name).map (AffinityKey.mk name)).or
  (body.bind fun value =>
    ["session_id", "previous_response_id", "prompt_cache_key"].findSome? fun name =>
      ((((value.get name).bind Value.asStr).map trim).filter (· ≠ "")).map (AffinityKey.mk name))

end OpenAiLb
