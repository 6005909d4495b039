import OpenAiLb.AuthRedirect

/-!
# Adopting the callback of a login

After any call no stored context can be read, so whatever is adopted later has the state of a
context that was stored since. A call that throws leaves the local storage alone; a call that
returns has written the session of a valid callback under the key of the issuer.
-/

namespace OpenAiLb.Web

/-- **A valid callback** for a state: all token fields are valid, and the times can be printed. -/
structure ValidCallback (browser : Browser) (hash expectedState : String) (now : Option Binary64)
    (session : RedirectSession) : Prop where
  state : callbackParam browser hash "state" = some expectedState
  accessToken : callbackParam browser hash "access_token" = some session.accessToken ∧
    session.accessToken ≠ ""
  refreshToken : callbackParam browser hash "refresh_token" = some session.refreshToken ∧
    session.refreshToken ≠ ""
  sessionId : callbackParam browser hash "session_id" = some session.sessionId ∧
    session.sessionId ≠ ""
  tokenType : callbackParam browser hash "token_type" = some "Bearer"
  receivedAt : browser.toIsoString now = some session.receivedAt
  expiry : ∃ (text : String) (seconds : ℤ),
    callbackParam browser hash "expires_in" = some text ∧
      browser.number text = some (.finite seconds) ∧ 0 < seconds ∧
      ∃ q, expiresAtMs browser hash seconds now = some (.finite q) ∧
        browser.toIsoString (some (.finite q)) = some session.expiresAt

/-- The context that is stored, if it can be read. -/
def Page.storedContext (browser : Browser) (page : Page) : Option LoginContext :=
  (present (page.transientStorage loginContextKey)).bind (readableContext browser)

section Call

variable {browser : Browser} {hash expectedState raw : String} {now : Option Binary64}
  {writable : Bool} {page : Page} {session : RedirectSession} {context : LoginContext}

/-- A parameter is present if it is not empty. -/
theorem present_eq_some_iff {text : Option String} {s : String} :
    present text = some s ↔ text = some s ∧ s ≠ "" := by
  rw [present, Option.filter_eq_some_iff, decide_eq_true_iff]

/-- The complete callbacks. -/
theorem callbackTokens_eq_some_iff {tokens : CallbackTokens} :
    callbackTokens browser hash = some tokens ↔
      (callbackParam browser hash "access_token" = some tokens.accessToken ∧
        tokens.accessToken ≠ "") ∧
      (callbackParam browser hash "refresh_token" = some tokens.refreshToken ∧
        tokens.refreshToken ≠ "") ∧
      (callbackParam browser hash "session_id" = some tokens.sessionId ∧
        tokens.sessionId ≠ "") ∧
      callbackParam browser hash "token_type" = some "Bearer" ∧
      ∃ text, callbackParam browser hash "expires_in" = some text ∧
        browser.number text = some (.finite tokens.seconds) ∧ 0 < tokens.seconds := by
  unfold callbackTokens
  simp only [Option.bind_eq_some_iff, present_eq_some_iff, Option.ite_none_right_eq_some,
    Option.some.injEq]
  constructor
  · rintro ⟨accessToken, haccess, refreshToken, hrefresh, sessionId, hsession, seconds,
      ⟨expiresIn, hnumber, hinteger⟩, ⟨htype, hpositive⟩, rfl⟩
    refine ⟨haccess, hrefresh, hsession, htype, ?_⟩
    rw [Binary64.integer?_eq_some_iff] at hinteger
    subst hinteger
    cases htext : callbackParam browser hash "expires_in" with
    | none =>
      -- A missing number is 0.
      rw [htext, Option.elim_none, Option.some.injEq, Binary64.finite.injEq] at hnumber
      have hzero : seconds = 0 := by exact_mod_cast hnumber.symm
      omega
    | some text =>
      rw [htext, Option.elim_some] at hnumber
      exact ⟨text, rfl, hnumber, hpositive⟩
  · rintro ⟨haccess, hrefresh, hsession, htype, text, htext, hnumber, hpositive⟩
    refine ⟨_, haccess, _, hrefresh, _, hsession, tokens.seconds,
      ⟨.finite tokens.seconds, ?_, Binary64.integer?_eq_some_iff.mpr rfl⟩, ⟨htype, hpositive⟩, rfl⟩
    rw [htext, Option.elim_some, hnumber]

/-- A number is finite if it is there and neither infinite nor `NaN`. -/
theorem isFinite_iff {x : Option Binary64} : isFinite x = true ↔ ∃ q, x = some (.finite q) := by
  rcases x with _ | _ | q | _
  · exact iff_of_false Bool.false_ne_true (by rintro ⟨q, ⟨⟩⟩)
  · exact iff_of_false Bool.false_ne_true (by rintro ⟨q, ⟨⟩⟩)
  · exact iff_of_true rfl ⟨q, rfl⟩
  · exact iff_of_false Bool.false_ne_true (by rintro ⟨q, ⟨⟩⟩)

/-- **The callbacks that are parsed** are the valid ones. -/
theorem parseAuthMiniCallback_eq_ok_iff :
    parseAuthMiniCallback browser hash expectedState now = .ok session ↔
      ValidCallback browser hash expectedState now session := by
  unfold parseAuthMiniCallback
  constructor
  · intro h
    split at h
    · cases h
    · next hstate =>
      cases htokens : callbackTokens browser hash with
      | none =>
        rw [htokens] at h
        cases h
      | some tokens =>
        rw [htokens] at h
        dsimp only at h
        cases hreceived : browser.toIsoString now with
        | none =>
          rw [hreceived] at h
          cases h
        | some receivedAt =>
          rw [hreceived] at h
          dsimp only at h
          split at h
          · cases h
          · next hfinite =>
            obtain ⟨q, hq⟩ := isFinite_iff.mp (Bool.not_eq_false _ ▸ hfinite)
            cases hexpires : browser.toIsoString
                (expiresAtMs browser hash tokens.seconds now) with
            | none =>
              rw [hexpires] at h
              cases h
            | some expiresAt =>
              rw [hexpires] at h
              obtain rfl := Except.ok.inj h
              obtain ⟨haccess, hrefresh, hsession, htype, text, htext, hnumber, hpositive⟩ :=
                callbackTokens_eq_some_iff.mp htokens
              rw [hq] at hexpires
              exact ⟨not_not.mp hstate, haccess, hrefresh, hsession, htype, hreceived,
                text, tokens.seconds, htext, hnumber, hpositive, q, hq, hexpires⟩
  · rintro ⟨hstate, haccess, hrefresh, hsession, htype, hreceived, text, seconds, htext, hnumber,
      hpositive, q, hq, hexpires⟩
    have htokens : callbackTokens browser hash = some
        ⟨session.accessToken, session.refreshToken, session.sessionId, seconds⟩ :=
      callbackTokens_eq_some_iff.mpr
        ⟨haccess, hrefresh, hsession, htype, text, htext, hnumber, hpositive⟩
    rw [if_neg (not_not.mpr hstate), htokens]
    dsimp only
    rw [hreceived]
    dsimp only
    rw [hq, if_neg (by rw [isFinite]; exact Bool.true_eq_false_eq_False), hexpires]

/-- What can be read is the stored context. -/
theorem readLoginContext_eq_ok_iff :
    readLoginContext browser page.transientStorage = .ok context ↔
      page.storedContext browser = some context := by
  unfold readLoginContext Page.storedContext
  cases present (page.transientStorage loginContextKey) with
  | none => exact iff_of_false (by rintro ⟨⟩) (by rintro ⟨⟩)
  | some raw =>
    rw [Option.bind_some]
    dsimp only
    cases hcontext : readableContext browser raw with
    | none => exact iff_of_false (by rintro ⟨⟩) (by rintro ⟨⟩)
    | some found => exact ⟨fun h => congrArg some (Except.ok.inj h),
        fun h => congrArg Except.ok (Option.some.inj h)⟩

/-- **What the `try` block writes.** -/
theorem adoptSession_eq_ok_iff {persistentStorage written : Storage} :
    adoptSession browser hash now writable context persistentStorage = .ok written ↔
      writable = true ∧ ∃ session key, ValidCallback browser hash context.state now session ∧
        authMiniSdkStorageKey browser context.issuer = .ok key ∧
        written = persistentStorage.setItem key (sessionText browser session) := by
  unfold adoptSession
  cases hparse : parseAuthMiniCallback browser hash context.state now with
  | error thrown =>
    refine iff_of_false (by rintro ⟨⟩) ?_
    rintro ⟨-, session, key, hvalid, -⟩
    rw [parseAuthMiniCallback_eq_ok_iff.mpr hvalid] at hparse
    cases hparse
  | ok session =>
    have hvalid := parseAuthMiniCallback_eq_ok_iff.mp hparse
    cases hkey : authMiniSdkStorageKey browser context.issuer with
    | error thrown =>
      refine iff_of_false (by rintro ⟨⟩) ?_
      rintro ⟨-, other, key, -, ⟨⟩, -⟩
    | ok key =>
      dsimp only
      cases writable with
      | false => exact iff_of_false (by rintro ⟨⟩) (by rintro ⟨⟨⟩, -⟩)
      | true =>
        constructor
        · intro h
          exact ⟨rfl, session, key, hvalid, rfl, (Except.ok.inj h).symm⟩
        · rintro ⟨-, other, key', hother, hkey', rfl⟩
          obtain rfl : key = key' := Except.ok.inj hkey'
          have hsame := parseAuthMiniCallback_eq_ok_iff.mpr hother
          rw [hparse] at hsame
          obtain rfl : session = other := Except.ok.inj hsame
          rfl

end Call

/-- A call of `adoptAuthMiniCallback`. -/
structure LoginCall where
  /-- How many contexts were stored before. -/
  version : ℕ
  page : Page
  hash : String
  now : Option Binary64
  writable : Bool

namespace LoginCall

variable {browser : Browser} {call : LoginCall}

/-- What the call returns or throws. -/
def result (browser : Browser) (call : LoginCall) : Except Thrown Unit :=
  (adoptAuthMiniCallback browser call.hash call.now call.writable call.page).1

/-- The storages after the call. -/
def after (browser : Browser) (call : LoginCall) : Page :=
  (adoptAuthMiniCallback browser call.hash call.now call.writable call.page).2

/-- The state of the callback. -/
def state (browser : Browser) (call : LoginCall) : Option String :=
  callbackParam browser call.hash "state"

/-- The call has adopted its callback. -/
def Adopted (browser : Browser) (call : LoginCall) : Prop := call.result browser = .ok ()

/-- **What one call does.** If it returns, a valid callback with the state of the stored context
is written under the key of the issuer of this context, and nothing else. If it throws, the local
storage is as before. In either case no context can be read any more, and one that could be is
removed. -/
structure Sound (browser : Browser) (call : LoginCall) : Prop where
  adopted : call.Adopted browser → ∃ context session key,
    readLoginContext browser call.page.transientStorage = .ok context ∧
      ValidCallback browser call.hash context.state call.now session ∧
      authMiniSdkStorageKey browser context.issuer = .ok key ∧
      (call.after browser).persistentStorage =
        call.page.persistentStorage.setItem key (sessionText browser session)
  failed : ∀ thrown, call.result browser = .error thrown →
    (call.after browser).persistentStorage = call.page.persistentStorage
  consumed : ∀ context, readLoginContext browser call.page.transientStorage = .ok context →
    (call.after browser).transientStorage =
      call.page.transientStorage.removeItem loginContextKey
  unreadable : (call.after browser).storedContext browser = none

/-- A call that finds no context. -/
theorem adopt_of_error {thrown : Thrown}
    (h : readLoginContext browser call.page.transientStorage = .error thrown) :
    adoptAuthMiniCallback browser call.hash call.now call.writable call.page =
      (.error thrown, call.page) := by
  rw [adoptAuthMiniCallback, h]

/-- A call whose `try` block throws. -/
theorem adopt_of_throw {context : LoginContext} {thrown : Thrown}
    (h : readLoginContext browser call.page.transientStorage = .ok context)
    (hthrow : adoptSession browser call.hash call.now call.writable context
      call.page.persistentStorage = .error thrown) :
    adoptAuthMiniCallback browser call.hash call.now call.writable call.page =
      (.error thrown, { call.page with
        transientStorage := call.page.transientStorage.removeItem loginContextKey }) := by
  rw [adoptAuthMiniCallback, h]
  dsimp only
  rw [hthrow]

/-- A call that adopts. -/
theorem adopt_of_ok {context : LoginContext} {written : Storage}
    (h : readLoginContext browser call.page.transientStorage = .ok context)
    (hok : adoptSession browser call.hash call.now call.writable context
      call.page.persistentStorage = .ok written) :
    adoptAuthMiniCallback browser call.hash call.now call.writable call.page =
      (.ok (), ⟨written, call.page.transientStorage.removeItem loginContextKey⟩) := by
  rw [adoptAuthMiniCallback, h]
  dsimp only
  rw [hok]

/-- A removed context cannot be read. -/
theorem storedContext_removeItem (browser : Browser)
    (persistentStorage transientStorage : Storage) :
    Page.storedContext browser ⟨persistentStorage, transientStorage.removeItem loginContextKey⟩ =
      none := by
  unfold Page.storedContext
  dsimp only
  rw [Storage.removeItem_self]
  rfl

/-- **Every call is sound**, on every browser. -/
theorem sound (browser : Browser) (call : LoginCall) : call.Sound browser := by
  cases hread : readLoginContext browser call.page.transientStorage with
  | error thrown =>
    have hcall := adopt_of_error hread
    refine ⟨fun hadopted => ?_, fun thrown' _ => ?_, fun context hcontext => ?_, ?_⟩
    · rw [Adopted, result, hcall] at hadopted
      cases hadopted
    · rw [after, hcall]
    · rw [hread] at hcontext
      cases hcontext
    · rw [after, hcall]
      cases hcontext : call.page.storedContext browser with
      | none => rfl
      | some context =>
        rw [readLoginContext_eq_ok_iff.mpr hcontext] at hread
        cases hread
  | ok context =>
    cases hadopt : adoptSession browser call.hash call.now call.writable context
        call.page.persistentStorage with
    | error thrown =>
      have hcall := adopt_of_throw hread hadopt
      refine ⟨fun hadopted => ?_, fun thrown' _ => ?_, fun context' _ => ?_, ?_⟩
      · rw [Adopted, result, hcall] at hadopted
        cases hadopted
      · rw [after, hcall]
      · rw [after, hcall]
      · rw [after, hcall]
        exact storedContext_removeItem browser _ _
    | ok written =>
      have hcall := adopt_of_ok hread hadopt
      obtain ⟨-, session, key, hvalid, hkey, rfl⟩ := adoptSession_eq_ok_iff.mp hadopt
      refine ⟨fun _ => ⟨context, session, key, hread, hvalid, hkey, ?_⟩, fun thrown' hthrown => ?_,
        fun context' _ => ?_, ?_⟩
      · rw [after, hcall]
      · rw [result, hcall] at hthrown
        cases hthrown
      · rw [after, hcall]
      · rw [after, hcall]
        exact storedContext_removeItem browser _ _

end LoginCall

namespace LoginEvent

/-- The text that the event stores under `LOGIN_CONTEXT_KEY`. -/
def storedText (browser : Browser) : LoginEvent → Option String
  | .startAuthMiniLogin issuer state _ contextWritable _ =>
    if contextWritable then
      (normalizeAuthMiniIssuer browser issuer).toOption.map fun issuer =>
        browser.jsonStringify [("issuer", issuer), ("state", state)]
    else none
  | .replaceContext raw => raw
  | _ => none

/-- The state of the context that the event stores, if it can be read. -/
def storedState (browser : Browser) (event : LoginEvent) : Option String :=
  ((present (event.storedText browser)).bind (readableContext browser)).map LoginContext.state

/-- How many contexts are stored with the event. -/
def nextVersion (browser : Browser) (version : ℕ) (event : LoginEvent) : ℕ :=
  if (event.storedText browser).isSome then version + 1 else version

/-- The state of the callback that is presented. -/
def presentedState (browser : Browser) : LoginEvent → Option String
  | .adoptAuthMiniCallback hash _ _ => callbackParam browser hash "state"
  | _ => none

/-- The call that the event is. -/
def call? (version : ℕ) (page : Page) : LoginEvent → Option LoginCall
  | .adoptAuthMiniCallback hash now writable => some ⟨version, page, hash, now, writable⟩
  | _ => none

end LoginEvent

/-- The calls of a run, each with the page as it finds it. -/
def calls (browser : Browser) : ℕ → Page → List LoginEvent → List LoginCall
  | _, _, [] => []
  | version, page, event :: events =>
    (event.call? version page).toList ++
      calls browser (event.nextVersion browser version) (page.step browser event) events

/-- **States are new**: no context is stored with the state of a callback that was presented
before. `crypto.randomUUID` makes the states of logins. -/
def NewStates (browser : Browser) : List String → List LoginEvent → Prop
  | _, [] => True
  | presented, event :: events =>
    (∀ state, event.storedState browser = some state → state ∉ presented) ∧
      NewStates browser ((event.presentedState browser).toList ++ presented) events

section Runs

variable {browser : Browser} {page : Page} {event : LoginEvent} {events : List LoginEvent}
  {version : ℕ} {presented : List String} {call : LoginCall} {context : LoginContext}

/-- The context after a login. -/
theorem startAuthMiniLogin_context (browser : Browser) (issuer state : String)
    (setupDraft : Option SetupDraft) (contextWritable draftWritable : Bool) (page : Page) :
    (startAuthMiniLogin browser issuer state setupDraft contextWritable draftWritable
      page).transientStorage loginContextKey =
      (LoginEvent.storedText browser (.startAuthMiniLogin issuer state setupDraft contextWritable
        draftWritable)).or (page.transientStorage loginContextKey) := by
  have hkeys : loginContextKey ≠ setupDraftKey := by decide
  unfold startAuthMiniLogin LoginEvent.storedText
  dsimp only
  cases normalizeAuthMiniIssuer browser issuer with
  | error thrown =>
    cases contextWritable with
    | false => rfl
    | true => rfl
  | ok issuer =>
    cases contextWritable with
    | false => rfl
    | true =>
      cases setupDraft with
      | none => exact Storage.setItem_self page.transientStorage loginContextKey _
      | some draft =>
        cases draftWritable with
        | false => exact Storage.setItem_self page.transientStorage loginContextKey _
        | true =>
          dsimp only
          rw [Storage.setItem_of_ne _ hkeys, Storage.setItem_self]
          rfl

/-- **Where a readable context comes from**: it was there, or the event has stored it. -/
theorem storedContext_step
    (h : (page.step browser event).storedContext browser = some context) :
    (event.storedText browser = none ∧ page.storedContext browser = some context) ∨
    ((event.storedText browser).isSome = true ∧
      event.storedState browser = some context.state) := by
  cases event with
  | startAuthMiniLogin issuer state setupDraft contextWritable draftWritable =>
    have hraw := startAuthMiniLogin_context browser issuer state setupDraft
      contextWritable draftWritable page
    unfold Page.storedContext Page.step at h
    dsimp only at h
    rw [hraw] at h
    cases htext : LoginEvent.storedText browser (.startAuthMiniLogin issuer state setupDraft
        contextWritable draftWritable) with
    | none =>
      rw [htext, Option.none_or] at h
      exact .inl ⟨rfl, h⟩
    | some text =>
      rw [htext, Option.some_or] at h
      refine .inr ⟨rfl, ?_⟩
      rw [LoginEvent.storedState, htext, h, Option.map_some]
  | adoptAuthMiniCallback hash now writable =>
    have hnone := (LoginCall.sound browser ⟨0, page, hash, now, writable⟩).unreadable
    rw [Page.step] at h
    exact absurd (hnone.symm.trans h) (by rintro ⟨⟩)
  | replaceContext raw =>
    unfold Page.storedContext Page.step at h
    dsimp only at h
    rw [Function.update_self] at h
    cases raw with
    | none => cases h
    | some text =>
      refine .inr ⟨rfl, ?_⟩
      rw [LoginEvent.storedState, LoginEvent.storedText, h, Option.map_some]
  | replacePersistent persistentStorage => exact .inl ⟨rfl, h⟩

/-- A call adopts only what is stored. -/
theorem LoginCall.Adopted.storedContext (h : call.Adopted browser) :
    ∃ context, call.page.storedContext browser = some context ∧
      call.state browser = some context.state := by
  obtain ⟨context, session, key, hread, hvalid, -⟩ := (call.sound browser).adopted h
  exact ⟨context, readLoginContext_eq_ok_iff.mp hread, hvalid.state⟩

/-- Versions never decrease over the events. -/
theorem le_version {events : List LoginEvent} (h : call ∈ calls browser version page events) :
    version ≤ call.version := by
  induction events generalizing version page with
  | nil => cases h
  | cons event events ih =>
    rw [calls, List.mem_append, Option.mem_toList] at h
    rcases h with hcall | hrest
    · cases event with
      | adoptAuthMiniCallback hash now writable =>
        obtain rfl := Option.some.inj hcall
        exact Nat.le_refl _
      | startAuthMiniLogin issuer state setupDraft contextWritable draftWritable => cases hcall
      | replaceContext raw => cases hcall
      | replacePersistent persistentStorage => cases hcall
    · have hle := ih hrest
      unfold LoginEvent.nextVersion at hle
      split at hle
      · omega
      · exact hle

/-- The page of the call that an event is. -/
theorem page_of_call (browser : Browser) (h : event.call? version page = some call) :
    call.version = version ∧ call.page = page ∧
      event.presentedState browser = call.state browser ∧ event.storedText browser = none ∧
      page.step browser event = call.after browser := by
  cases event with
  | adoptAuthMiniCallback hash now writable =>
    obtain rfl := Option.some.inj h
    exact ⟨rfl, rfl, rfl, rfl, rfl⟩
  | startAuthMiniLogin issuer state setupDraft contextWritable draftWritable => cases h
  | replaceContext raw => cases h
  | replacePersistent persistentStorage => cases h

/-- **Where nothing can be read**, the next adoption is one of a context that is stored later. -/
theorem version_lt_of_adopted {events : List LoginEvent}
    (hnone : page.storedContext browser = none) (h : call ∈ calls browser version page events)
    (hadopted : call.Adopted browser) : version < call.version := by
  induction events generalizing version page with
  | nil => cases h
  | cons event events ih =>
    rw [calls, List.mem_append, Option.mem_toList] at h
    rcases h with hcall | hrest
    · obtain ⟨-, rfl, -⟩ := page_of_call browser hcall
      obtain ⟨context, hcontext, -⟩ := hadopted.storedContext
      rw [hnone] at hcontext
      cases hcontext
    · unfold LoginEvent.nextVersion at hrest
      by_cases hstored : (event.storedText browser).isSome = true
      · rw [if_pos hstored] at hrest
        exact le_version hrest
      · rw [if_neg hstored] at hrest
        refine ih ?_ hrest
        cases hcontext : (page.step browser event).storedContext browser with
        | none => rfl
        | some context =>
          rcases storedContext_step hcontext with ⟨-, hold⟩ | ⟨hnew, -⟩
          · rw [hnone] at hold
            cases hold
          · exact absurd hnew hstored

/-- **A state that was presented** and is not that of the stored context is not adopted later. -/
theorem not_adopted_of_presented {events : List LoginEvent} {state : String}
    (hpresented : state ∈ presented) (hnew : NewStates browser presented events)
    (hstored : ∀ context, page.storedContext browser = some context → context.state ≠ state)
    (h : call ∈ calls browser version page events) (hcall : call.state browser = some state) :
    ¬ call.Adopted browser := by
  induction events generalizing version page presented with
  | nil => cases h
  | cons event events ih =>
    rw [calls, List.mem_append, Option.mem_toList] at h
    rcases h with hhead | hrest
    · intro hadopted
      obtain ⟨-, rfl, -⟩ := page_of_call browser hhead
      obtain ⟨context, hcontext, hstate⟩ := hadopted.storedContext
      rw [hcall] at hstate
      exact hstored context hcontext (Option.some.inj hstate).symm
    · refine ih (List.mem_append_right _ hpresented) hnew.2 (fun context hcontext => ?_) hrest
      rcases storedContext_step hcontext with ⟨-, hold⟩ | ⟨-, hstate⟩
      · exact hstored context hold
      · rintro rfl
        exact hnew.1 context.state hstate hpresented

/-- **Each stored context leads to one adoption at most.** -/
theorem pairwise_version (version : ℕ) (page : Page) (events : List LoginEvent) :
    (calls browser version page events).Pairwise fun call later =>
      call.Adopted browser → later.Adopted browser → call.version ≠ later.version := by
  induction events generalizing version page with
  | nil => exact List.Pairwise.nil
  | cons event events ih =>
    rw [calls]
    cases hcall : event.call? version page with
    | none => exact ih _ _
    | some call =>
      obtain ⟨hversion, -, -, htext, hpage⟩ := page_of_call browser hcall
      refine List.pairwise_cons.mpr ⟨fun later hlater _ hadopted => ?_, ih _ _⟩
      rw [LoginEvent.nextVersion, htext, hpage] at hlater
      have hlt : version < later.version :=
        version_lt_of_adopted (call.sound browser).unreadable hlater hadopted
      omega

/-- **A callback that was presented is not adopted later.** -/
theorem pairwise_state (version : ℕ) (page : Page) {events : List LoginEvent}
    (hnew : NewStates browser presented events) :
    (calls browser version page events).Pairwise fun call later =>
      later.state browser = call.state browser → ¬ later.Adopted browser := by
  induction events generalizing version page presented with
  | nil => exact List.Pairwise.nil
  | cons event events ih =>
    rw [calls]
    cases hcall : event.call? version page with
    | none => exact ih _ _ hnew.2
    | some call =>
      obtain ⟨-, -, hpresented, -, hpage⟩ := page_of_call browser hcall
      refine List.pairwise_cons.mpr ⟨fun later hlater hstate hadopted => ?_, ih _ _ hnew.2⟩
      obtain ⟨context, -, hcontext⟩ := hadopted.storedContext
      have hrest := hnew.2
      rw [hpresented, ← hstate, hcontext] at hrest
      rw [hpage] at hlater
      refine not_adopted_of_presented List.mem_cons_self hrest (fun found hfound => ?_) hlater
        hcontext hadopted
      rw [(call.sound browser).unreadable] at hfound
      cases hfound

end Runs

/-- **The callbacks of logins**, over every sequence of logins, calls and other changes of the
storages. Each call does what it should: it writes the session of a valid callback of the stored
context, or throws and changes nothing but that the context is gone. Each stored context leads to
one adoption at most; and with new states for new contexts, a callback that was presented is never
adopted later. -/
theorem login_callbacks (browser : Browser) (page : Page) (events : List LoginEvent) :
    (∀ call ∈ calls browser 0 page events, call.Sound browser) ∧
    ((calls browser 0 page events).Pairwise fun call later =>
      call.Adopted browser → later.Adopted browser → call.version ≠ later.version) ∧
    (NewStates browser [] events → (calls browser 0 page events).Pairwise fun call later =>
      later.state browser = call.state browser → ¬ later.Adopted browser) :=
  ⟨fun call _ => call.sound browser, pairwise_version 0 page events, pairwise_state 0 page⟩

section Samples

/-- The hash of a callback. -/
def sampleHash : String :=
  "#access_token=jwt&token_type=Bearer&session_id=session-1&refresh_token=refresh&expires_in=900" ++
    "&expires_at=2026-07-16T08:15:00.000Z&state=state-1"

/-- A browser with the answers for one issuer and this callback. -/
def sampleBrowser : Browser where
  parseUrl text :=
    if text = "https://auth.ntnl.io" then
      some ⟨"https:", "auth.ntnl.io", "", "", "", "", "https://auth.ntnl.io/"⟩
    else none
  searchParams _ := [("access_token", "jwt"), ("token_type", "Bearer"),
    ("session_id", "session-1"), ("refresh_token", "refresh"), ("expires_in", "900"),
    ("expires_at", "2026-07-16T08:15:00.000Z"), ("state", "state-1")]
  jsonParse text :=
    if text = "\x7b\"issuer\":\"https://auth.ntnl.io\",\"state\":\"state-1\"\x7d" then
      some (.object [("issuer", .string "https://auth.ntnl.io"), ("state", .string "state-1")])
    else none
  jsonStringify fields := "\x7b" ++
    ",".intercalate (fields.map fun field => "\"" ++ field.1 ++ "\":\"" ++ field.2 ++ "\"") ++
    "\x7d"
  number text := if text = "900" then some (.finite 900) else none
  dateParse text := if text = "2026-07-16T08:15:00.000Z" then some (.finite 1784189700000) else none
  toIsoString x :=
    if x = some (.finite 1784188800000) then some "2026-07-16T08:00:00.000Z"
    else if x = some (.finite 1784189700000) then some "2026-07-16T08:15:00.000Z"
    else none

/-- A login, its callback, and the same callback again. -/
def sampleEvents : List LoginEvent :=
  [.startAuthMiniLogin "https://auth.ntnl.io" "state-1" none true true,
    .adoptAuthMiniCallback sampleHash (some (.finite 1784188800000)) true,
    .adoptAuthMiniCallback sampleHash (some (.finite 1784188800000)) true]

/-- The callback is adopted once. -/
theorem login_callbacks_once :
    (calls sampleBrowser 0 ⟨fun _ => none, fun _ => none⟩ sampleEvents).map
        (fun call => call.result sampleBrowser) =
      [.ok (), .error (.error "Auth Mini login state is missing; start sign-in again")] ∧
    (calls sampleBrowser 0 ⟨fun _ => none, fun _ => none⟩ sampleEvents).Pairwise fun call later =>
      later.state sampleBrowser = call.state sampleBrowser → ¬ later.Adopted sampleBrowser := by
  refine ⟨by decide +kernel, ?_⟩
  refine (login_callbacks sampleBrowser _ sampleEvents).2.2 ⟨?_, ?_, ?_, trivial⟩
  · exact fun state _ => List.not_mem_nil
  · rintro state ⟨⟩
  · rintro state ⟨⟩

end Samples

end OpenAiLb.Web
