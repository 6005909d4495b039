import OpenAiLb.Library.Assoc
import OpenAiLb.Library.Tasks
import OpenAiLb.Library.Transition
import OpenAiLb.Oauth
import Mathlib.Data.Set.Function

/-!
# OAuth flows

A start of an OAuth flow drops the flows that have expired and keeps its own under the hash of a
random state. An exchange takes the flow of its state out of the map when it belongs to the caller
and has not expired, in one operation of the map, and only then asks the token endpoint. A start and
an exchange read the clock once, before they touch the map, and calls on other threads may come
between any two of these steps.
-/

namespace OpenAiLb

open Transition

/-- The digests and the parser that the flows rely on. -/
structure OauthCodec where
  /-- The code challenge of a verifier: SHA-256 and base64. -/
  challenge : String → String
  /-- The key of a state in the map: SHA-256 and hex. -/
  stateHash : String → String
  /-- `Url::parse` accepts the text. -/
  parses : String → Bool

/-- What the flows read of the configuration. -/
structure OauthConfig where
  authorizeUrl : String
  clientId : String
  redirectUri : String
  deriving DecidableEq

/-- `OAuthFlow`. -/
structure OAuthFlow where
  verifier : String
  createdBy : String
  expiresAt : Int
  deriving DecidableEq

/-- `OAuthStart`, with the URL as its base and its query. -/
structure OAuthStart where
  authorizeUrl : String × List (String × String)
  state : String
  deriving DecidableEq

/-- A call of `start`. Its verifier and its state are random. -/
structure FlowStart where
  userId : String
  config : OauthConfig
  verifier : String
  rawState : String
  /-- The clock, as the call has read it. -/
  now : Int
  result : Option (Except AppError OAuthStart)

namespace FlowStart

variable (codec : OauthCodec) (start : FlowStart)

/-- The flow that the call keeps. -/
def flow : OAuthFlow := ⟨start.verifier, start.userId, start.now + 600⟩

/-- The query of the authorize URL. -/
def query : List (String × String) :=
  [("response_type", "code"), ("client_id", start.config.clientId),
    ("redirect_uri", start.config.redirectUri),
    ("scope", "openid profile email offline_access"),
    ("code_challenge", codec.challenge start.verifier), ("code_challenge_method", "S256"),
    ("state", start.rawState), ("id_token_add_organizations", "true"),
    ("codex_cli_simplified_flow", "true"), ("originator", "codex_cli_rs")]

/-- What the call returns once its flow is kept. -/
def response : Except AppError OAuthStart :=
  if codec.parses start.config.authorizeUrl then
    .ok ⟨(start.config.authorizeUrl, start.query codec), start.rawState⟩
  else .error .internal

end FlowStart

/-- A call of `exchange`. -/
structure Exchange where
  rawState : String
  code : String
  userId : String
  config : OauthConfig
  /-- The clock, as the call has read it. -/
  now : Int
  /-- The form that was sent to the token endpoint. -/
  sent : Option (List (String × String))
  result : Option (Except AppError TokenResponse)

namespace Exchange

/-- The form of `exchange`, for the verifier of a flow. -/
def form (x : Exchange) (verifier : String) : List (String × String) :=
  [("grant_type", "authorization_code"), ("client_id", x.config.clientId), ("code", x.code),
    ("code_verifier", verifier), ("redirect_uri", x.config.redirectUri)]

/-- The condition of `remove_if`. -/
def admits (x : Exchange) (flow : OAuthFlow) : Bool :=
  flow.createdBy = x.userId && x.now < flow.expiresAt

end Exchange

/-- The map of the flows, and the calls in the order in which they began. -/
structure OauthNode where
  clock : Int
  flows : AList fun _ : String => OAuthFlow
  starts : List FlowStart
  exchanges : List Exchange

/-- What happens next. -/
inductive OauthAction where
  /-- Time passes. -/
  | tick (seconds : ℕ)
  /-- A `start` reads the clock. -/
  | begin (userId : String) (config : OauthConfig) (verifier rawState : String)
  /-- The `retain` of a start comes to an entry. -/
  | prune (i : ℕ) (key : String)
  /-- A start keeps its flow and returns. -/
  | keep (i : ℕ)
  /-- An `exchange` reads the clock. -/
  | attempt (rawState code userId : String) (config : OauthConfig)
  /-- The `remove_if` of an exchange, and what follows from it. -/
  | redeem (j : ℕ)
  /-- The token endpoint answers an exchange. -/
  | answer (j : ℕ) (answer : TokenAnswer)
  deriving DecidableEq

section Steps

variable (codec : OauthCodec)

/-- The map before anything has happened. -/
def OauthNode.init (clock : Int) : OauthNode := ⟨clock, ∅, [], []⟩

/-- One step. -/
def OauthNode.step (s : OauthNode) : OauthAction → Option OauthNode
  | .tick seconds => some { s with clock := s.clock + seconds }
  | .begin userId config verifier rawState =>
    some { s with starts := s.starts ++ [⟨userId, config, verifier, rawState, s.clock, none⟩] }
  | .prune i key =>
    match s.starts[i]? with
    | some start =>
      if start.result.isNone &&
          (s.flows.lookup key).any (fun flow => flow.expiresAt ≤ start.now) then
        some { s with flows := s.flows.erase key }
      else none
    | none => none
  | .keep i =>
    match s.starts[i]? with
    | some start =>
      if start.result.isNone then
        some { s with
          flows := s.flows.insert (codec.stateHash start.rawState) start.flow
          starts := s.starts.set i { start with result := some (start.response codec) } }
      else none
    | none => none
  | .attempt rawState code userId config =>
    some { s with
      exchanges := s.exchanges ++ [⟨rawState, code, userId, config, s.clock, none, none⟩] }
  | .redeem j =>
    match s.exchanges[j]? with
    | some x =>
      if x.sent.isNone && x.result.isNone then
        match (s.flows.lookup (codec.stateHash x.rawState)).filter x.admits with
        | some flow => some { s with
            flows := s.flows.erase (codec.stateHash x.rawState)
            exchanges := s.exchanges.set j { x with sent := some (x.form flow.verifier) } }
        | none => some { s with
            exchanges := s.exchanges.set j
              { x with result := some (.error (.badRequest "invalid or expired OAuth state")) } }
      else none
    | none => none
  | .answer j answer =>
    match s.exchanges[j]? with
    | some x =>
      if x.sent.isSome && x.result.isNone then
        some { s with
          exchanges := s.exchanges.set j { x with result := some (tokenRequest answer) } }
      else none
    | none => none

/-- The state that an action brings in. -/
def OauthAction.rawState : OauthAction → Option String
  | .begin _ _ _ rawState => some rawState
  | .attempt rawState _ _ _ => some rawState
  | _ => none

/-- Random states never collide. -/
def FreshStates (s : OauthNode) : OauthAction → Prop
  | .begin _ _ _ rawState => ∀ start ∈ s.starts, start.rawState ≠ rawState
  | _ => True

instance (s : OauthNode) : ∀ action, Decidable (FreshStates s action)
  | .tick _ => inferInstanceAs (Decidable True)
  | .begin _ _ _ rawState =>
    inferInstanceAs (Decidable (∀ start ∈ s.starts, start.rawState ≠ rawState))
  | .prune _ _ => inferInstanceAs (Decidable True)
  | .keep _ => inferInstanceAs (Decidable True)
  | .attempt _ _ _ _ => inferInstanceAs (Decidable True)
  | .redeem _ => inferInstanceAs (Decidable True)
  | .answer _ _ => inferInstanceAs (Decidable True)

end Steps

section Invariant

variable {codec : OauthCodec} {states : Set String} {s t : OauthNode} {i j : ℕ}
  {start : FlowStart} {x : Exchange}

/-- A request for a token was made for the state. -/
def Spent (s : OauthNode) (rawState : String) : Prop :=
  ∃ (k : ℕ) (y : Exchange), s.exchanges[k]? = some y ∧ y.rawState = rawState ∧ y.sent.isSome

/-- What holds after any number of steps. -/
structure FlowInvariant (codec : OauthCodec) (states : Set String) (s : OauthNode) : Prop where
  startStates : ∀ (i : ℕ) start, s.starts[i]? = some start → start.rawState ∈ states
  exchangeStates : ∀ (j : ℕ) x, s.exchanges[j]? = some x → x.rawState ∈ states
  /-- No call has read a clock of the future. -/
  past : ∀ (i : ℕ) start, s.starts[i]? = some start → start.now ≤ s.clock
  exchangePast : ∀ (j : ℕ) x, s.exchanges[j]? = some x → x.now ≤ s.clock
  distinct : ∀ (i k : ℕ) start other, s.starts[i]? = some start → s.starts[k]? = some other →
    start.rawState = other.rawState → i = k
  response : ∀ (i : ℕ) start result, s.starts[i]? = some start → start.result = some result →
    result = start.response codec
  /-- A flow in the map is the one of a start, and no request was made for its state. -/
  flow : ∀ key flow, s.flows.lookup key = some flow → ∃ (i : ℕ) (start : FlowStart),
    s.starts[i]? = some start ∧ start.result.isSome ∧ key = codec.stateHash start.rawState ∧
      flow = start.flow ∧ ¬ Spent s start.rawState
  /-- The flow of a start is in the map unless it has expired or a request was made for it. -/
  kept : ∀ (i : ℕ) start, s.starts[i]? = some start → start.result.isSome →
    s.flows.lookup (codec.stateHash start.rawState) = some start.flow ∨
      start.now + 600 ≤ s.clock ∨ Spent s start.rawState
  once : ∀ (j k : ℕ) x y, s.exchanges[j]? = some x → s.exchanges[k]? = some y →
    x.sent.isSome → y.sent.isSome → x.rawState = y.rawState → j = k
  /-- A request is made for the user of the start, in time, and with its verifier. -/
  bound : ∀ (j : ℕ) x form, s.exchanges[j]? = some x → x.sent = some form →
    ∃ (i : ℕ) (start : FlowStart), s.starts[i]? = some start ∧ start.result.isSome ∧
      start.rawState = x.rawState ∧ start.userId = x.userId ∧ x.now < start.now + 600 ∧
        form = x.form start.verifier

/-- The invariant holds before the first flow. -/
theorem flowInvariant_init (codec : OauthCodec) (states : Set String) (clock : Int) :
    FlowInvariant codec states (.init clock) := by
  have hstarts : ∀ i : ℕ, (OauthNode.init clock).starts[i]? = none := fun i => rfl
  have hexchanges : ∀ j : ℕ, (OauthNode.init clock).exchanges[j]? = none := fun j => rfl
  refine ⟨?_, ?_, ?_, ?_, ?_, ?_, ?_, ?_, ?_, ?_⟩
  case refine_7 =>
    intro key flow h
    simp [OauthNode.init] at h
  all_goals simp [hstarts, hexchanges]

/-- A start that has not returned has no flow, and no request was made for its state. -/
theorem FlowInvariant.not_spent (h : FlowInvariant codec states s)
    (hstart : s.starts[i]? = some start) (hpending : start.result = none) :
    ¬ Spent s start.rawState := by
  rintro ⟨k, y, hy, hstate, hsent⟩
  obtain ⟨form, hform⟩ := Option.isSome_iff_exists.mp hsent
  obtain ⟨i', other, hother, hreturned, hsame, -⟩ := h.bound k y form hy hform
  obtain rfl := h.distinct i i' start other hstart hother (hstate.symm.trans hsame.symm)
  cases hstart.symm.trans hother
  simp [hpending] at hreturned

section Exchanges

/-- The requests are those of before when an exchange without one begins. -/
theorem spent_append {new : Exchange} (hnew : new.sent = none) (rawState : String) :
    Spent { s with exchanges := s.exchanges ++ [new] } rawState ↔ Spent s rawState := by
  constructor
  · rintro ⟨k, y, hy, hstate, hsent⟩
    rcases Tasks.of_start hy with hbefore | ⟨-, rfl⟩
    · exact ⟨k, y, hbefore, hstate, hsent⟩
    · simp [hnew] at hsent
  · rintro ⟨k, y, hy, hstate, hsent⟩
    exact ⟨k, y, Tasks.start_other hy, hstate, hsent⟩

/-- They are also those of before when an exchange ends. -/
theorem spent_setResult (hx : s.exchanges[j]? = some x)
    (result : Option (Except AppError TokenResponse)) (rawState : String) :
    Spent { s with exchanges := s.exchanges.set j { x with result := result } } rawState ↔
      Spent s rawState := by
  constructor
  · rintro ⟨k, y, hy, hstate, hsent⟩
    rcases Tasks.of_set hx hy with ⟨-, rfl⟩ | ⟨-, hbefore⟩
    · exact ⟨j, x, hx, hstate, hsent⟩
    · exact ⟨k, y, hbefore, hstate, hsent⟩
  · rintro ⟨k, y, hy, hstate, hsent⟩
    by_cases hsame : j = k
    · subst hsame
      cases hx.symm.trans hy
      exact ⟨j, _, Tasks.set_self hx, hstate, hsent⟩
    · exact ⟨k, y, Tasks.set_other hsame hy, hstate, hsent⟩

/-- A new request is one more. -/
theorem spent_redeem (hx : s.exchanges[j]? = some x) (hsent : x.sent = none)
    (form : List (String × String)) (flows : AList fun _ : String => OAuthFlow)
    (rawState : String) :
    Spent { s with
      flows := flows
      exchanges := s.exchanges.set j { x with sent := some form } } rawState ↔
      Spent s rawState ∨ rawState = x.rawState := by
  constructor
  · rintro ⟨k, y, hy, hstate, hy'⟩
    rcases Tasks.of_set hx hy with ⟨-, rfl⟩ | ⟨-, hbefore⟩
    · exact .inr hstate.symm
    · exact .inl ⟨k, y, hbefore, hstate, hy'⟩
  · rintro (⟨k, y, hy, hstate, hy'⟩ | rfl)
    · refine ⟨k, y, Tasks.set_other ?_ hy, hstate, hy'⟩
      rintro rfl
      cases hx.symm.trans hy
      simp [hsent] at hy'
    · exact ⟨j, _, Tasks.set_self hx, rfl, rfl⟩

/-- The beginning of an exchange keeps the invariant. -/
theorem FlowInvariant.attempt (h : FlowInvariant codec states s) {new : Exchange}
    (hnow : new.now = s.clock) (hnew : new.sent = none) (hmem : new.rawState ∈ states) :
    FlowInvariant codec states { s with exchanges := s.exchanges ++ [new] } where
  startStates := h.startStates
  exchangeStates := Tasks.forall_start h.exchangeStates hmem
  past := h.past
  exchangePast := Tasks.forall_start h.exchangePast (Int.le_of_eq hnow)
  distinct := h.distinct
  response := h.response
  flow key flow hflow := by
    obtain ⟨i, start, hstart, hreturned, hkey, heq, hnot⟩ := h.flow key flow hflow
    exact ⟨i, start, hstart, hreturned, hkey, heq, (spent_append hnew _).not.mpr hnot⟩
  kept i start hstart hreturned := by
    rw [spent_append hnew]
    exact h.kept i start hstart hreturned
  once j k x y hx hy hsent hsent' hsame := by
    have hold : ∀ (k : ℕ) (y : Exchange), (s.exchanges ++ [new])[k]? = some y → y.sent.isSome →
        s.exchanges[k]? = some y := by
      intro k y hy hsent
      rcases Tasks.of_start hy with hbefore | ⟨-, rfl⟩
      · exact hbefore
      · simp [hnew] at hsent
    exact h.once j k x y (hold j x hx hsent) (hold k y hy hsent') hsent hsent' hsame
  bound j x form hx hform := by
    rcases Tasks.of_start hx with hbefore | ⟨-, rfl⟩
    · exact h.bound j x form hbefore hform
    · cases hnew.symm.trans hform

/-- So does the end of one. -/
theorem FlowInvariant.setResult (h : FlowInvariant codec states s) (hx : s.exchanges[j]? = some x)
    (result : Option (Except AppError TokenResponse)) :
    FlowInvariant codec states
      { s with exchanges := s.exchanges.set j { x with result := result } } where
  startStates := h.startStates
  exchangeStates := Tasks.forall_set h.exchangeStates hx (h.exchangeStates j x hx)
  past := h.past
  exchangePast := Tasks.forall_set h.exchangePast hx (h.exchangePast j x hx)
  distinct := h.distinct
  response := h.response
  flow key flow hflow := by
    obtain ⟨i, start, hstart, hreturned, hkey, heq, hnot⟩ := h.flow key flow hflow
    exact ⟨i, start, hstart, hreturned, hkey, heq, (spent_setResult hx result _).not.mpr hnot⟩
  kept i start hstart hreturned := by
    rw [spent_setResult hx]
    exact h.kept i start hstart hreturned
  once k l y z hy hz hsent hsent' hsame := by
    have hold : ∀ (k : ℕ) (y : Exchange),
        (s.exchanges.set j { x with result := result })[k]? = some y →
          ∃ y', s.exchanges[k]? = some y' ∧ y'.sent = y.sent ∧ y'.rawState = y.rawState := by
      intro k y hy
      rcases Tasks.of_set hx hy with ⟨rfl, rfl⟩ | ⟨-, hbefore⟩
      · exact ⟨x, hx, rfl, rfl⟩
      · exact ⟨y, hbefore, rfl, rfl⟩
    obtain ⟨y', hy', hsentY, hstateY⟩ := hold k y hy
    obtain ⟨z', hz', hsentZ, hstateZ⟩ := hold l z hz
    exact h.once k l y' z' hy' hz' (hsentY ▸ hsent) (hsentZ ▸ hsent')
      (hstateY.trans (hsame.trans hstateZ.symm))
  bound k y form hy hform := by
    rcases Tasks.of_set hx hy with ⟨rfl, rfl⟩ | ⟨-, hbefore⟩
    · exact h.bound k x form hx hform
    · exact h.bound k y form hbefore hform

/-- **A redemption**: the flow leaves the map and its request is made. -/
theorem FlowInvariant.redeem (h : FlowInvariant codec states s)
    (hinjective : Set.InjOn codec.stateHash states) (hx : s.exchanges[j]? = some x)
    (hsent : x.sent = none) {flow : OAuthFlow}
    (hflow : s.flows.lookup (codec.stateHash x.rawState) = some flow) (hadmits : x.admits flow) :
    FlowInvariant codec states { s with
      flows := s.flows.erase (codec.stateHash x.rawState)
      exchanges := s.exchanges.set j { x with sent := some (x.form flow.verifier) } } where
  startStates := h.startStates
  exchangeStates := Tasks.forall_set h.exchangeStates hx (h.exchangeStates j x hx)
  past := h.past
  exchangePast := Tasks.forall_set h.exchangePast hx (h.exchangePast j x hx)
  distinct := h.distinct
  response := h.response
  flow key other hfound := by
    have hne : key ≠ codec.stateHash x.rawState := by
      rintro rfl
      rw [AList.lookup_erase] at hfound
      cases hfound
    rw [AList.lookup_erase_ne hne] at hfound
    obtain ⟨i, start, hstart, hreturned, hkey, heq, hnot⟩ := h.flow key other hfound
    refine ⟨i, start, hstart, hreturned, hkey, heq, ?_⟩
    rw [spent_redeem hx hsent]
    rintro (hspent | hsame)
    · exact hnot hspent
    · exact hne (hkey.trans (congrArg codec.stateHash hsame))
  kept i start hstart hreturned := by
    rw [spent_redeem hx hsent]
    by_cases hsame : start.rawState = x.rawState
    · exact .inr (.inr (.inr hsame))
    · rw [AList.lookup_erase_ne fun heq =>
        hsame (hinjective (h.startStates i start hstart) (h.exchangeStates j x hx) heq)]
      rcases h.kept i start hstart hreturned with hthere | hexpired | hspent
      · exact .inl hthere
      · exact .inr (.inl hexpired)
      · exact .inr (.inr (.inl hspent))
  once k l y z hy hz hsentY hsentZ hsame := by
    -- No request was made for this state before.
    obtain ⟨i, start, hstart, -, hkey, -, hnot⟩ := h.flow _ flow hflow
    have hstate : x.rawState = start.rawState :=
      hinjective (h.exchangeStates j x hx) (h.startStates i start hstart) hkey
    rw [← hstate] at hnot
    rcases Tasks.of_set hx hy with ⟨rfl, rfl⟩ | ⟨hk, hbefore⟩
    · rcases Tasks.of_set hx hz with ⟨rfl, rfl⟩ | ⟨-, hbefore'⟩
      · rfl
      · exact absurd ⟨l, z, hbefore', hsame.symm, hsentZ⟩ hnot
    · rcases Tasks.of_set hx hz with ⟨rfl, rfl⟩ | ⟨-, hbefore'⟩
      · exact absurd ⟨k, y, hbefore, hsame, hsentY⟩ hnot
      · exact h.once k l y z hbefore hbefore' hsentY hsentZ hsame
  bound k y form hy hform := by
    rcases Tasks.of_set hx hy with ⟨rfl, rfl⟩ | ⟨-, hbefore⟩
    · obtain ⟨i, start, hstart, hreturned, hkey, rfl, -⟩ := h.flow _ flow hflow
      rw [Exchange.admits, Bool.and_eq_true] at hadmits
      have huser : start.userId = x.userId := of_decide_eq_true hadmits.1
      have hnow : x.now < start.now + 600 := of_decide_eq_true hadmits.2
      have hstate : x.rawState = start.rawState :=
        hinjective (h.exchangeStates _ x hx) (h.startStates i start hstart) hkey
      obtain rfl := Option.some.inj hform
      exact ⟨i, start, hstart, hreturned, hstate.symm, huser, hnow, rfl⟩
    · exact h.bound k y form hbefore hform

end Exchanges

section Starts

/-- The beginning of a start keeps the invariant when its state is new. -/
theorem FlowInvariant.begin (h : FlowInvariant codec states s) {new : FlowStart}
    (hnow : new.now = s.clock) (hpending : new.result = none)
    (hfresh : ∀ start ∈ s.starts, start.rawState ≠ new.rawState) (hmem : new.rawState ∈ states) :
    FlowInvariant codec states { s with starts := s.starts ++ [new] } where
  startStates := Tasks.forall_start h.startStates hmem
  exchangeStates := h.exchangeStates
  past := Tasks.forall_start h.past (Int.le_of_eq hnow)
  exchangePast := h.exchangePast
  distinct i k start other hstart hother hsame := by
    rcases Tasks.of_start hstart with hbefore | ⟨rfl, rfl⟩
    · rcases Tasks.of_start hother with hbefore' | ⟨-, rfl⟩
      · exact h.distinct i k start other hbefore hbefore' hsame
      · exact absurd hsame (hfresh start (List.mem_of_getElem? hbefore))
    · rcases Tasks.of_start hother with hbefore' | ⟨rfl, rfl⟩
      · exact absurd hsame.symm (hfresh other (List.mem_of_getElem? hbefore'))
      · rfl
  response i start result hstart hresult := by
    rcases Tasks.of_start hstart with hbefore | ⟨-, rfl⟩
    · exact h.response i start result hbefore hresult
    · cases hpending.symm.trans hresult
  flow key flow hflow := by
    obtain ⟨i, start, hstart, hrest⟩ := h.flow key flow hflow
    exact ⟨i, start, Tasks.start_other hstart, hrest⟩
  kept := Tasks.forall_start h.kept fun hreturned => by simp [hpending] at hreturned
  once := h.once
  bound j x form hx hform := by
    obtain ⟨i, start, hstart, hrest⟩ := h.bound j x form hx hform
    exact ⟨i, start, Tasks.start_other hstart, hrest⟩

/-- A start drops a flow only after it has expired. -/
theorem FlowInvariant.prune (h : FlowInvariant codec states s) (hstart : s.starts[i]? = some start)
    {key : String} {flow : OAuthFlow} (hflow : s.flows.lookup key = some flow)
    (hexpired : flow.expiresAt ≤ start.now) :
    FlowInvariant codec states { s with flows := s.flows.erase key } where
  startStates := h.startStates
  exchangeStates := h.exchangeStates
  past := h.past
  exchangePast := h.exchangePast
  distinct := h.distinct
  response := h.response
  flow other found hfound := by
    have hne : other ≠ key := by
      rintro rfl
      rw [AList.lookup_erase] at hfound
      cases hfound
    rw [AList.lookup_erase_ne hne] at hfound
    exact h.flow other found hfound
  kept k other hother hreturned := by
    rcases h.kept k other hother hreturned with hthere | hold | hspent
    · by_cases hsame : codec.stateHash other.rawState = key
      · rw [hsame] at hthere
        obtain rfl := Option.some.inj (hflow.symm.trans hthere)
        exact .inr (.inl (Int.le_trans hexpired (h.past i start hstart)))
      · left
        rwa [AList.lookup_erase_ne hsame]
    · exact .inr (.inl hold)
    · exact .inr (.inr hspent)
  once := h.once
  bound := h.bound

/-- A start keeps its own flow and touches no other one. -/
theorem FlowInvariant.keep (h : FlowInvariant codec states s)
    (hinjective : Set.InjOn codec.stateHash states) (hstart : s.starts[i]? = some start)
    (hpending : start.result = none) :
    FlowInvariant codec states { s with
      flows := s.flows.insert (codec.stateHash start.rawState) start.flow
      starts := s.starts.set i { start with result := some (start.response codec) } } := by
  have hother : ∀ (k : ℕ) (other : FlowStart), s.starts[k]? = some other → other.result.isSome →
      (s.starts.set i { start with result := some (start.response codec) })[k]? = some other ∧
        codec.stateHash other.rawState ≠ codec.stateHash start.rawState := by
    intro k other hk hreturned
    have hne : i ≠ k := by
      rintro rfl
      cases hstart.symm.trans hk
      simp [hpending] at hreturned
    exact ⟨Tasks.set_other hne hk,
      fun hsame => hne (h.distinct i k start other hstart hk
        (hinjective (h.startStates k other hk) (h.startStates i start hstart) hsame).symm)⟩
  have hunspent := h.not_spent hstart hpending
  refine ⟨Tasks.forall_set h.startStates hstart (h.startStates i start hstart), h.exchangeStates,
    Tasks.forall_set h.past hstart (h.past i start hstart), h.exchangePast, ?_, ?_, ?_, ?_, h.once,
    ?_⟩
  · intro k l first second hk hl hsame
    rcases Tasks.of_set hstart hk with ⟨rfl, rfl⟩ | ⟨-, hbefore⟩
    · rcases Tasks.of_set hstart hl with ⟨rfl, rfl⟩ | ⟨-, hbefore'⟩
      · rfl
      · exact h.distinct _ l start second hstart hbefore' hsame
    · rcases Tasks.of_set hstart hl with ⟨rfl, rfl⟩ | ⟨-, hbefore'⟩
      · exact h.distinct k _ first start hbefore hstart hsame
      · exact h.distinct k l first second hbefore hbefore' hsame
  · intro k other result hk hresult
    rcases Tasks.of_set hstart hk with ⟨-, rfl⟩ | ⟨-, hbefore⟩
    · exact (Option.some.inj hresult).symm
    · exact h.response k other result hbefore hresult
  · intro key flow hflow
    by_cases hkey : key = codec.stateHash start.rawState
    · subst hkey
      rw [AList.lookup_insert] at hflow
      exact ⟨i, _, Tasks.set_self hstart, rfl, rfl, (Option.some.inj hflow).symm,
        hunspent⟩
    · rw [AList.lookup_insert_ne hkey] at hflow
      obtain ⟨k, other, hk, hreturned, hrest⟩ := h.flow key flow hflow
      exact ⟨k, other, (hother k other hk hreturned).1, hreturned, hrest⟩
  · intro k other hk hreturned
    rcases Tasks.of_set hstart hk with ⟨-, rfl⟩ | ⟨-, hbefore⟩
    · left
      exact AList.lookup_insert _
    · rw [AList.lookup_insert_ne (hother k other hbefore hreturned).2]
      exact h.kept k other hbefore hreturned
  · intro j x form hx hform
    obtain ⟨k, other, hk, hreturned, hrest⟩ := h.bound j x form hx hform
    exact ⟨k, other, (hother k other hk hreturned).1, hreturned, hrest⟩

end Starts

/-- **Step.** Every step keeps the invariant. -/
theorem FlowInvariant.step (hinjective : Set.InjOn codec.stateHash states)
    (h : FlowInvariant codec states s) {action : OauthAction}
    (hmem : ∀ rawState ∈ action.rawState, rawState ∈ states) (hfresh : FreshStates s action)
    (hstep : s.step codec action = some t) : FlowInvariant codec states t := by
  cases action with
  | tick seconds =>
    obtain rfl := Option.some.inj hstep
    refine ⟨h.startStates, h.exchangeStates, ?_, ?_, h.distinct, h.response, h.flow, ?_, h.once,
      h.bound⟩
    · intro i start hstart
      have hpast := h.past i start hstart
      dsimp only
      omega
    · intro j x hx
      have hpast := h.exchangePast j x hx
      dsimp only
      omega
    · intro i start hstart hreturned
      rcases h.kept i start hstart hreturned with hthere | hexpired | hspent
      · exact .inl hthere
      · right; left
        dsimp only
        omega
      · exact .inr (.inr hspent)
  | begin userId config verifier rawState =>
    obtain rfl := Option.some.inj hstep
    exact h.begin rfl rfl hfresh (hmem rawState rfl)
  | prune i key =>
    unfold OauthNode.step at hstep
    dsimp only at hstep
    split at hstep
    · next start hstart =>
      split at hstep
      · next hprune =>
        obtain rfl := Option.some.inj hstep
        rw [Bool.and_eq_true, Option.any_eq_true] at hprune
        obtain ⟨-, flow, hflow, hexpired⟩ := hprune
        exact h.prune hstart hflow (by simpa using hexpired)
      · cases hstep
    · cases hstep
  | keep i =>
    unfold OauthNode.step at hstep
    dsimp only at hstep
    split at hstep
    · next start hstart =>
      split at hstep
      · next hpending =>
        obtain rfl := Option.some.inj hstep
        exact h.keep hinjective hstart (by simpa using hpending)
      · cases hstep
    · cases hstep
  | attempt rawState code userId config =>
    obtain rfl := Option.some.inj hstep
    exact h.attempt rfl rfl (hmem rawState rfl)
  | redeem j =>
    unfold OauthNode.step at hstep
    dsimp only at hstep
    split at hstep
    · next x hx =>
      split at hstep
      · next hpending =>
        rw [Bool.and_eq_true] at hpending
        split at hstep
        · next flow hflow =>
          obtain rfl := Option.some.inj hstep
          obtain ⟨hfound, hadmits⟩ := Option.filter_eq_some_iff.mp hflow
          exact h.redeem hinjective hx (by simpa using hpending.1) hfound hadmits
        · obtain rfl := Option.some.inj hstep
          exact h.setResult hx _
      · cases hstep
    · cases hstep
  | answer j answer =>
    unfold OauthNode.step at hstep
    dsimp only at hstep
    split at hstep
    · next x hx =>
      split at hstep
      · obtain rfl := Option.some.inj hstep
        exact h.setResult hx _
      · cases hstep
    · cases hstep

/-- An exchange of somebody else, or one that read the clock after the flow had expired. -/
def Foreign (start : FlowStart) (x : Exchange) : Prop :=
  x.userId ≠ start.userId ∨ start.now + 600 ≤ x.now

/-- **States are single-use and bound to their creator.** -/
structure SingleUse (codec : OauthCodec) (s : OauthNode) : Prop where
  /-- One request is made for a state at most. -/
  once : ∀ (j k : ℕ) x y, s.exchanges[j]? = some x → s.exchanges[k]? = some y →
    x.sent.isSome → y.sent.isSome → x.rawState = y.rawState → j = k
  /-- It is made for the user of the start, before the flow has expired, and with the verifier whose
  challenge is in the authorize URL of the start. -/
  bound : ∀ (j : ℕ) x form, s.exchanges[j]? = some x → x.sent = some form →
    ∃ (i : ℕ) (start : FlowStart) (result : Except AppError OAuthStart),
      s.starts[i]? = some start ∧ start.rawState = x.rawState ∧ start.userId = x.userId ∧
        x.now < start.now + 600 ∧ form.lookup "code_verifier" = some start.verifier ∧
        start.result = some result ∧ ∀ out, result = .ok out → out.state = x.rawState ∧
          out.authorizeUrl.2.lookup "code_challenge" = some (codec.challenge start.verifier)
  /-- Other attempts at the state make no request, and the map stays as it is. -/
  foreign : ∀ (i j : ℕ) start x, s.starts[i]? = some start → s.exchanges[j]? = some x →
    x.rawState = start.rawState → Foreign start x →
      x.sent = none ∧ ∀ t, s.step codec (.redeem j) = some t → t.flows = s.flows
  /-- The first attempt of the creator makes its request, as long as the flow has not expired. -/
  available : ∀ (i j : ℕ) start x, s.starts[i]? = some start → start.result.isSome →
    s.clock < start.now + 600 → ¬ Spent s start.rawState → s.exchanges[j]? = some x →
    x.rawState = start.rawState → x.userId = start.userId → x.sent = none → x.result = none →
      ∃ t, s.step codec (.redeem j) = some t ∧
        t.exchanges[j]? = some { x with sent := some (x.form start.verifier) }

/-- **The invariant gives single use**, if different states in use have different hashes. -/
theorem FlowInvariant.singleUse (hinjective : Set.InjOn codec.stateHash states)
    (h : FlowInvariant codec states s) : SingleUse codec s where
  once := h.once
  bound j x form hx hform := by
    obtain ⟨i, start, hstart, hreturned, hstate, huser, hnow, rfl⟩ := h.bound j x form hx hform
    obtain ⟨result, hresult⟩ := Option.isSome_iff_exists.mp hreturned
    refine ⟨i, start, result, hstart, hstate, huser, hnow, rfl, hresult, ?_⟩
    rintro out rfl
    have hresponse := h.response i start _ hstart hresult
    unfold FlowStart.response at hresponse
    split at hresponse
    · obtain rfl := Except.ok.inj hresponse
      exact ⟨hstate, rfl⟩
    · cases hresponse
  foreign i j start x hstart hx hstate hforeign := by
    constructor
    · cases hsent : x.sent with
      | none => rfl
      | some form =>
        obtain ⟨k, other, hother, -, hsame, huser, hnow, -⟩ := h.bound j x form hx hsent
        obtain rfl := h.distinct i k start other hstart hother (hstate.symm.trans hsame.symm)
        cases hstart.symm.trans hother
        rcases hforeign with hne | hexpired
        · exact absurd huser.symm hne
        · omega
    · intro t hstep
      have hrefused : (s.flows.lookup (codec.stateHash x.rawState)).filter x.admits = none := by
        rw [Option.filter_eq_none_iff]
        intro flow hflow hadmits
        obtain ⟨k, other, hother, -, hkey, rfl, -⟩ := h.flow _ flow hflow
        have hsame : x.rawState = other.rawState :=
          hinjective (h.exchangeStates j x hx) (h.startStates k other hother) hkey
        obtain rfl := h.distinct i k start other hstart hother (hstate.symm.trans hsame)
        cases hstart.symm.trans hother
        rw [Exchange.admits, Bool.and_eq_true] at hadmits
        have huser : start.userId = x.userId := of_decide_eq_true hadmits.1
        have hnow : x.now < start.now + 600 := of_decide_eq_true hadmits.2
        rcases hforeign with hne | hexpired
        · exact hne huser.symm
        · omega
      simp only [OauthNode.step, hx, hrefused] at hstep
      split at hstep
      · obtain rfl := Option.some.inj hstep
        rfl
      · cases hstep
  available i j start x hstart hreturned hclock hunspent hx hstate huser hsent hresult := by
    have hpast := h.exchangePast j x hx
    have hadmits : x.admits start.flow = true := by
      rw [Exchange.admits, Bool.and_eq_true]
      exact ⟨decide_eq_true huser.symm, decide_eq_true (show x.now < start.now + 600 by omega)⟩
    have hfound : s.flows.lookup (codec.stateHash x.rawState) = some start.flow := by
      rw [hstate]
      rcases h.kept i start hstart hreturned with hthere | hexpired | hspent
      · exact hthere
      · omega
      · exact absurd hspent hunspent
    have hflow : (s.flows.lookup (codec.stateHash x.rawState)).filter x.admits =
        some start.flow := by
      rw [hfound, Option.filter_some, if_pos hadmits]
    refine ⟨{ s with
      flows := s.flows.erase (codec.stateHash x.rawState)
      exchanges := s.exchanges.set j { x with sent := some (x.form start.verifier) } }, ?_,
      Tasks.set_self hx⟩
    simp only [OauthNode.step, hx, hflow, hsent, hresult]
    rfl

/-- **OAuth states are single-use and bound to their creator**, in every interleaving of starts and
exchanges by any users, when the random states never collide and their hashes do not either. -/
theorem oauth_states_single_use {clock : Int} {actions : List OauthAction}
    (hinjective : Set.InjOn codec.stateHash
      {rawState | ∃ action ∈ actions, action.rawState = some rawState})
    (hfresh : Guarded (OauthNode.step codec) FreshStates (.init clock) actions)
    (hrun : run (OauthNode.step codec) (.init clock) actions = some s) : SingleUse codec s := by
  have hguarded : Guarded (OauthNode.step codec)
      (fun s action => (∀ rawState ∈ action.rawState,
        rawState ∈ {rawState | ∃ action ∈ actions, action.rawState = some rawState}) ∧
          FreshStates s action) (.init clock) actions :=
    hfresh.and_of_mem fun action hmem rawState hsome => ⟨action, hmem, hsome⟩
  have hinvariant := invariant_of_guarded
    (fun h hok hstep => FlowInvariant.step hinjective h hok.1 hok.2 hstep) hguarded hrun
    (flowInvariant_init codec _ clock)
  exact hinvariant.singleUse hinjective

/-- The digests of the texts below. -/
def digests : OauthCodec where
  challenge text :=
    if text = "verifier-one" then "oWznZcvhw3QgQqHwlFZIHuizYuQqAUxGDf_q-c8CmY4" else text
  stateHash text :=
    if text = "state-one" then "74e6d3e7139c58b2b6569c6c9013440a1d639032d1fd6a138f1862a4173aa747"
    else text
  parses _ := true

/-- A configuration. -/
def oauthConfig : OauthConfig :=
  ⟨"https://auth.openai.com/oauth/authorize", "client", "http://localhost:1455/auth/callback"⟩

/-- Somebody else and then the creator try the state of a flow. -/
def twoAttempts : List OauthAction :=
  [.begin "creator" oauthConfig "verifier-one" "state-one", .keep 0, .tick 5,
    .attempt "state-one" "code" "other" oauthConfig,
    .attempt "state-one" "code" "creator" oauthConfig, .redeem 0, .redeem 1]

/-- The statement at these attempts. -/
theorem two_attempts_single_use :
    ∃ s, run (OauthNode.step digests) (.init 1000) twoAttempts = some s ∧ SingleUse digests s := by
  have hone : ∀ rawState ∈ {rawState | ∃ action ∈ twoAttempts, action.rawState = some rawState},
      rawState = "state-one" := by
    rintro rawState ⟨action, hmem, hstate⟩
    have hall : ∀ action ∈ twoAttempts, ∀ rawState ∈ action.rawState, rawState = "state-one" := by
      decide
    exact hall action hmem rawState hstate
  have hinjective : Set.InjOn digests.stateHash
      {rawState | ∃ action ∈ twoAttempts, action.rawState = some rawState} :=
    fun first hfirst second hsecond _ => (hone first hfirst).trans (hone second hsecond).symm
  have hfresh : Guarded (OauthNode.step digests) FreshStates (.init 1000) twoAttempts := by
    decide
  have hrun : run (OauthNode.step digests) (.init 1000) twoAttempts =
      some (Transition.after (OauthNode.step digests) (.init 1000) twoAttempts) :=
    run_eq_some_after (by decide)
  exact ⟨_, hrun, oauth_states_single_use hinjective hfresh hrun⟩

end Invariant

end OpenAiLb
