import OpenAiLb.Serde
import Mathlib.Data.List.Basic

/-!
# Token responses and the claims of an access token

`oauth.rs` reads the account id and the expiry from the payload of an access
token and accepts a token response only when its fields are usable. The base64
decoder and the JSON parser are libraries and stay parameters.
-/

namespace OpenAiLb

/-- The error of a handler: the HTTP status and the message of its JSON body. -/
structure AppError where
  status : ℕ
  message : String
  deriving DecidableEq

namespace AppError

/-- `AppError::bad_request`. -/
def badRequest (message : String) : AppError := ⟨400, message⟩

/-- `AppError::not_found`. -/
def notFound (message : String) : AppError := ⟨404, message⟩

/-- `AppError::unavailable`. -/
def unavailable (message : String) : AppError := ⟨503, message⟩

/-- `AppError::upstream`. -/
def upstream (status : ℕ) (message : String) : AppError := ⟨status, message⟩

/-- What `?` makes of a library error: the cause is logged and not shown. -/
def internal : AppError := ⟨500, "internal server error"⟩

end AppError

/-- `TokenResponse`. -/
structure TokenResponse where
  accessToken : String
  refreshToken : String
  expiresIn : Int
  deriving DecidableEq

/-- The libraries that read a JWT payload. -/
structure JwtCodec where
  /-- `URL_SAFE_NO_PAD.decode`. -/
  decode : String → Option (List UInt8)
  serde : SerdeJson

namespace JwtCodec

variable (jwt : JwtCodec)

/-- The claims of a token: the second dot-separated part, decoded and parsed. -/
def claims (token : String) : Option Value :=
  (token.toList.splitOn '.')[1]?.bind fun payload =>
    (jwt.decode (String.ofList payload)).bind fun decoded => jwt.serde.fromSlice decoded

/-- `account_id_from_jwt`. -/
def accountIdFromJwt (token : String) : Option String :=
  (jwt.claims token).bind fun claims =>
    ((claims.pointer ["https://api.openai.com/auth", "chatgpt_account_id"]).or
      (claims.pointer ["https://api.openai.com/auth", "account_id"])).bind Value.asStr

/-- `expires_at_from_jwt`. -/
def expiresAtFromJwt (token : String) : Option Int :=
  (jwt.claims token).bind fun claims => (claims.get "exp").bind Value.asI64

end JwtCodec

/-- What the token endpoint sends back. -/
inductive TokenAnswer where
  /-- The request did not complete. -/
  | failed
  /-- A status outside 2xx. -/
  | refused (status : ℕ)
  /-- A 2xx status; the body is absent when it is no `TokenResponse`. -/
  | body (token : Option TokenResponse)
  deriving DecidableEq

/-- `token_request`, from the answer of the endpoint on. -/
def tokenRequest : TokenAnswer → Except AppError TokenResponse
  | .failed => .error .internal
  | .refused status => .error (.upstream status "CodeX OAuth token exchange failed")
  | .body none => .error .internal
  | .body (some token) =>
    if token.accessToken = "" ∨ token.refreshToken = "" ∨ token.expiresIn ≤ 0 then
      .error (.upstream 502 "CodeX OAuth response is missing fields")
    else .ok token

/-- An accepted token response has both tokens and a positive lifetime. -/
theorem tokenRequest_eq_ok {answer : TokenAnswer} {token : TokenResponse}
    (h : tokenRequest answer = .ok token) :
    answer = .body (some token) ∧ token.accessToken ≠ "" ∧ token.refreshToken ≠ "" ∧
      0 < token.expiresIn := by
  cases answer with
  | failed => cases h
  | refused status => cases h
  | body parsed =>
    cases parsed with
    | none => cases h
    | some parsed =>
      simp only [tokenRequest] at h
      split at h
      · cases h
      · next hfields =>
        cases h
        simp only [not_or] at hfields
        exact ⟨rfl, hfields.1, hfields.2.1, by omega⟩

end OpenAiLb
