import OpenAiLb.ResponseText

/-!
# The login by redirect

A login stores a context with a new state in the session storage and leaves the page. The issuer
sends the browser back with tokens and the state in the fragment of the address. The callback is
adopted into the local storage if it is complete and has the state of the stored context, which is
removed whatever comes of it.
-/

namespace OpenAiLb.Web

/-- `LOGIN_CONTEXT_KEY`. -/
def loginContextKey : String := "openai-lb.auth-mini.login"

/-- `SETUP_DRAFT_KEY`. -/
def setupDraftKey : String := "openai-lb.auth-mini.setup"

/-- A storage of the browser, by `getItem`. -/
abbrev Storage := String → Option String

namespace Storage

/-- `setItem`, where it does not throw. -/
def setItem (storage : Storage) (key value : String) : Storage :=
  Function.update storage key (some value)

/-- `removeItem`. -/
def removeItem (storage : Storage) (key : String) : Storage := Function.update storage key none

/-- What was set can be read. -/
@[simp] theorem setItem_self (storage : Storage) (key value : String) :
    storage.setItem key value key = some value := Function.update_self ..

/-- Writing one key leaves the others alone. -/
theorem setItem_of_ne (storage : Storage) {key other : String} (h : other ≠ key) (value : String) :
    storage.setItem key value other = storage other := Function.update_of_ne h ..

/-- What was removed cannot be read. -/
@[simp] theorem removeItem_self (storage : Storage) (key : String) :
    storage.removeItem key key = none := Function.update_self ..

end Storage

/-- `LoginContext`. -/
structure LoginContext where
  issuer : String
  state : String
  deriving DecidableEq

/-- `SetupDraft`. -/
structure SetupDraft where
  issuer : String
  audience : String

/-- `RedirectSession`. -/
structure RedirectSession where
  sessionId : String
  accessToken : String
  refreshToken : String
  receivedAt : String
  expiresAt : String
  deriving DecidableEq

/-- What the code reads of a `URL`. -/
structure Url where
  protocol : String
  hostname : String
  username : String
  password : String
  search : String
  hash : String
  /-- `toString()`. -/
  href : String

/-- What is thrown. -/
inductive Thrown where
  /-- `new Error(message)`. -/
  | error (message : String)
  /-- By `new URL`. -/
  | typeError
  /-- By `toISOString`. -/
  | rangeError
  /-- By `setItem`. -/
  | quotaExceeded
  deriving DecidableEq

/-- What the code uses of the browser. A number is `none` if it is `NaN`, a result that may be
thrown is `none` if it is. -/
structure Browser where
  /-- `new URL`. -/
  parseUrl : String → Option Url
  /-- `new URLSearchParams`. -/
  searchParams : String → List (String × String)
  /-- `JSON.parse`. -/
  jsonParse : String → Option JsonValue
  /-- `JSON.stringify` of an object with texts. -/
  jsonStringify : List (String × String) → String
  /-- `Number` of a text. -/
  number : String → Option Binary64
  /-- `Date.parse`. -/
  dateParse : String → Option Binary64
  /-- `new Date(x).toISOString()`. -/
  toIsoString : Option Binary64 → Option String

/-- What `String.prototype.trim` removes. -/
def isJsSpace (c : Char) : Bool :=
  let n := c.toNat
  (9 ≤ n && n ≤ 13) || n = 32 || n = 160 || n = 5760 || (8192 ≤ n && n ≤ 8202) || n = 8232 ||
    n = 8233 || n = 8239 || n = 8287 || n = 12288 || n = 65279

/-- `String.prototype.trim`. -/
def jsTrim (s : String) : String :=
  String.ofList ((s.toList.dropWhile isJsSpace).reverse.dropWhile isJsSpace).reverse

/-- `replace(/\/+$/, "")`. -/
def stripSlashes (s : String) : String :=
  String.ofList (s.toList.reverse.dropWhile fun c => c = '/').reverse

/-- `left || undefined`: a text that is there and not empty. -/
def present (text : Option String) : Option String := text.filter fun text => text ≠ ""

section Redirect

variable (browser : Browser)

/-- `normalizeAuthMiniIssuer`. -/
def normalizeAuthMiniIssuer (value : String) : Except Thrown String :=
  match browser.parseUrl (jsTrim value) with
  | none => .error .typeError
  | some url =>
    let isLocal := ["localhost", "127.0.0.1", "::1"].contains url.hostname
    if ["http:", "https:"].contains url.protocol = false ∨ url.hostname = "" ∨
        url.username ≠ "" ∨ url.password ≠ "" ∨ url.search ≠ "" ∨ url.hash ≠ "" ∨
        (url.protocol = "http:" ∧ isLocal = false) then
      .error (.error "Auth Mini issuer URL is not valid")
    else .ok (stripSlashes url.href)

/-- `authMiniSdkStorageKey`. -/
def authMiniSdkStorageKey (issuer : String) : Except Thrown String :=
  (normalizeAuthMiniIssuer browser issuer).map fun issuer => "auth-mini.sdk:" ++ issuer ++ "/"

/-- The context that a stored text has, if `readLoginContext` can read it. -/
def readableContext (raw : String) : Option LoginContext :=
  (browser.jsonParse raw).bind fun value =>
    ((value.property "issuer").bind JsonValue.asString).bind fun issuer =>
      (present ((value.property "state").bind JsonValue.asString)).bind fun state =>
        (normalizeAuthMiniIssuer browser issuer).toOption.map fun issuer => ⟨issuer, state⟩

/-- `readLoginContext`. -/
def readLoginContext (storage : Storage) : Except Thrown LoginContext :=
  match present (storage loginContextKey) with
  | none => .error (.error "Auth Mini login state is missing; start sign-in again")
  | some raw =>
    match readableContext browser raw with
    | none => .error (.error "Auth Mini login state is invalid; start sign-in again")
    | some context => .ok context

/-- `new URLSearchParams(hash.replace(/^#/, "")).get(name)`. -/
def callbackParam (hash name : String) : Option String :=
  let fragment := if hash.toList.head? = some '#' then String.ofList hash.toList.tail else hash
  (browser.searchParams fragment).lookup name

/-- What `parseAuthMiniCallback` reads before it looks at the expiry. -/
structure CallbackTokens where
  accessToken : String
  refreshToken : String
  sessionId : String
  /-- `expiresIn`. -/
  seconds : ℤ
  deriving DecidableEq

/-- The tokens of a complete callback. A missing `expires_in` is the number 0. -/
def callbackTokens (hash : String) : Option CallbackTokens :=
  (present (callbackParam browser hash "access_token")).bind fun accessToken =>
    (present (callbackParam browser hash "refresh_token")).bind fun refreshToken =>
      (present (callbackParam browser hash "session_id")).bind fun sessionId =>
        let expiresIn := (callbackParam browser hash "expires_in").elim (some (.finite 0))
          browser.number
        (expiresIn.bind Binary64.integer?).bind fun seconds =>
          if callbackParam browser hash "token_type" = some "Bearer" ∧ 0 < seconds then
            some ⟨accessToken, refreshToken, sessionId, seconds⟩
          else none

/-- `expiresAtMs`. -/
def expiresAtMs (hash : String) (seconds : ℤ) (now : Option Binary64) : Option Binary64 :=
  (present (callbackParam browser hash "expires_at")).elim
    (now.bind fun now => now.add (Binary64.round ((seconds : ℚ) * 1000))) browser.dateParse

/-- `Number.isFinite`. -/
def isFinite : Option Binary64 → Bool
  | some (.finite _) => true
  | _ => false

/-- `parseAuthMiniCallback`. -/
def parseAuthMiniCallback (hash expectedState : String) (now : Option Binary64) :
    Except Thrown RedirectSession :=
  if callbackParam browser hash "state" ≠ some expectedState then
    .error (.error "Auth Mini login state does not match")
  else
    match callbackTokens browser hash with
    | none => .error (.error "Auth Mini login callback is incomplete")
    | some tokens =>
      match browser.toIsoString now with
      | none => .error .rangeError
      | some receivedAt =>
        if isFinite (expiresAtMs browser hash tokens.seconds now) = false then
          .error (.error "Auth Mini login callback expiry is invalid")
        else
          match browser.toIsoString (expiresAtMs browser hash tokens.seconds now) with
          | none => .error .rangeError
          | some expiresAt =>
            .ok ⟨tokens.sessionId, tokens.accessToken, tokens.refreshToken, receivedAt, expiresAt⟩

/-- `JSON.stringify(session)`. -/
def sessionText (session : RedirectSession) : String :=
  browser.jsonStringify [("sessionId", session.sessionId), ("accessToken", session.accessToken),
    ("refreshToken", session.refreshToken), ("receivedAt", session.receivedAt),
    ("expiresAt", session.expiresAt)]

/-- The storages: `localStorage` and `sessionStorage`. -/
structure Page where
  persistentStorage : Storage
  transientStorage : Storage

/-- The `try` block of `adoptAuthMiniCallback`. `setItem` throws if the storage is not writable. -/
def adoptSession (hash : String) (now : Option Binary64) (writable : Bool)
    (context : LoginContext) (persistentStorage : Storage) : Except Thrown Storage :=
  match parseAuthMiniCallback browser hash context.state now with
  | .error thrown => .error thrown
  | .ok session =>
    match authMiniSdkStorageKey browser context.issuer with
    | .error thrown => .error thrown
    | .ok key =>
      if writable then .ok (persistentStorage.setItem key (sessionText browser session))
      else .error .quotaExceeded

/-- `adoptAuthMiniCallback`: what it returns or throws, and the storages then. -/
def adoptAuthMiniCallback (hash : String) (now : Option Binary64) (writable : Bool) (page : Page) :
    Except Thrown Unit × Page :=
  match readLoginContext browser page.transientStorage with
  | .error thrown => (.error thrown, page)
  | .ok context =>
    -- `finally`.
    let transientStorage := page.transientStorage.removeItem loginContextKey
    match adoptSession browser hash now writable context page.persistentStorage with
    | .error thrown => (.error thrown, { page with transientStorage := transientStorage })
    | .ok persistentStorage => (.ok (), ⟨persistentStorage, transientStorage⟩)

/-- What `startAuthMiniLogin` leaves in the storages, with the state of `crypto.randomUUID`. Either
`setItem` may throw. -/
def startAuthMiniLogin (issuer state : String) (setupDraft : Option SetupDraft)
    (contextWritable draftWritable : Bool) (page : Page) : Page :=
  match normalizeAuthMiniIssuer browser issuer, contextWritable with
  | .ok issuer, true =>
    let transientStorage := page.transientStorage.setItem loginContextKey
      (browser.jsonStringify [("issuer", issuer), ("state", state)])
    match setupDraft, draftWritable with
    | some draft, true =>
      { page with
        transientStorage := transientStorage.setItem setupDraftKey
          (browser.jsonStringify [("issuer", issuer), ("audience", draft.audience)]) }
    | _, _ => { page with transientStorage := transientStorage }
  | _, _ => page

end Redirect

/-- What happens to the storages. -/
inductive LoginEvent where
  | startAuthMiniLogin (issuer state : String) (setupDraft : Option SetupDraft)
    (contextWritable draftWritable : Bool)
  | adoptAuthMiniCallback (hash : String) (now : Option Binary64) (writable : Bool)
  /-- Something else stores any text under `LOGIN_CONTEXT_KEY`, or removes it. -/
  | replaceContext (raw : Option String)
  /-- Something else changes the local storage, such as the SDK. -/
  | replacePersistent (persistentStorage : Storage)

/-- The storages after an event. -/
def Page.step (browser : Browser) (page : Page) : LoginEvent → Page
  | .startAuthMiniLogin issuer state setupDraft contextWritable draftWritable =>
    startAuthMiniLogin browser issuer state setupDraft contextWritable draftWritable page
  | .adoptAuthMiniCallback hash now writable =>
    (adoptAuthMiniCallback browser hash now writable page).2
  | .replaceContext raw =>
    { page with transientStorage := Function.update page.transientStorage loginContextKey raw }
  | .replacePersistent persistentStorage => { page with persistentStorage := persistentStorage }

end OpenAiLb.Web
