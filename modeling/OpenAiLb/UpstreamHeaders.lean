import OpenAiLb.ContentCodings

/-!
# The headers that go upstream

A request goes upstream with the inbound headers that are let through, and with the headers
that the proxy sets itself. Both are appended to one multimap, so a header of the proxy stands
alone exactly when no inbound header of the same name is let through. The names that the proxy
sets are kept out of the forwarded ones, but for three: `openai-beta`, and, on the route for
transcriptions, `originator` and `user-agent`.
-/

namespace OpenAiLb

namespace HeaderMap

variable {headers : HeaderMap}

/-- Every name has one entry. -/
def Distinct (headers : HeaderMap) : Prop := (headers.entries.map Prod.fst).Nodup

/-- The empty map has no name twice. -/
theorem distinct_new : new.Distinct := List.nodup_nil

/-- Adding a value keeps the names different. -/
theorem Distinct.append (h : headers.Distinct) (name : String) (value : HeaderValue) :
    (headers.append name value).Distinct := by
  unfold Distinct HeaderMap.append
  split
  · have hnames : (headers.entries.map fun entry =>
        if entry.1 = name then (name, entry.2 ++ [value]) else entry).map Prod.fst =
          headers.entries.map Prod.fst := by
      rw [List.map_map]
      apply List.map_congr_left
      rintro entry -
      by_cases hname : entry.1 = name
      · simp [hname]
      · simp [hname]
    rw [hnames]
    exact h
  · next hany =>
    have hfresh : name ∉ headers.entries.map Prod.fst := by
      simpa [List.any_eq_true] using hany
    rw [List.map_append]
    refine List.nodup_append.mpr ⟨h, by simp, ?_⟩
    rintro other hother _ hsame rfl
    obtain rfl : other = name := by simpa using hsame
    exact hfresh hother

/-- Appending adds one header to those that are there. -/
theorem Distinct.iter_append (h : headers.Distinct) (name : String) (value : HeaderValue) :
    (headers.append name value).iter.Perm (headers.iter ++ [(name, value)]) := by
  obtain ⟨entries⟩ := headers
  unfold HeaderMap.append
  split
  · next hany =>
    unfold Distinct at h
    unfold iter
    dsimp only at h hany ⊢
    induction entries with
    | nil => simp at hany
    | cons entry rest ih =>
      obtain ⟨first, values⟩ := entry
      rw [List.map_cons, List.nodup_cons] at h
      by_cases hname : first = name
      · subst hname
        have hrest : (rest.map fun entry =>
            if entry.1 = first then (first, entry.2 ++ [value]) else entry) = rest := by
          refine (List.map_congr_left fun entry hentry => ?_).trans (List.map_id rest)
          refine if_neg fun hsame => h.1 ?_
          exact List.mem_map.mpr ⟨entry, hentry, hsame⟩
        rw [List.map_cons, hrest, if_pos rfl, List.flatMap_cons, List.flatMap_cons,
          List.map_append, List.append_assoc, List.append_assoc]
        exact List.perm_append_comm.append_left _
      · have hrest := ih h.2 (by simpa [hname] using hany)
        rw [List.map_cons, if_neg hname, List.flatMap_cons, List.flatMap_cons, List.append_assoc]
        exact hrest.append_left _
  · unfold iter
    simp

/-- Headers that are appended one after the other. -/
theorem Distinct.foldl_append (h : headers.Distinct) (pairs : List (String × HeaderValue)) :
    let appended := pairs.foldl (fun headers (name, value) => headers.append name value) headers
    appended.Distinct ∧ appended.iter.Perm (headers.iter ++ pairs) := by
  induction pairs generalizing headers with
  | nil => exact ⟨h, by simp⟩
  | cons pair rest ih =>
    obtain ⟨hdistinct, hperm⟩ := ih (h.append pair.1 pair.2)
    refine ⟨hdistinct, hperm.trans ?_⟩
    have hone := (h.iter_append pair.1 pair.2).append_right rest
    simpa using hone

/-- The values of a name, whatever the case of its letters. -/
def values (headers : HeaderMap) (name : String) : List HeaderValue :=
  (headers.iter.filter fun header => toAsciiLowercase header.1 = name).map Prod.snd

end HeaderMap

section Owned

/-- The path of the route for transcriptions. -/
def transcriptionsPath : String := "/v1/audio/transcriptions"

variable (path : String) (lease : Lease) (inbound : HeaderMap) (openaiBeta : Option String)

/-- The inbound headers that are let through. -/
def allowedHeaders : List (String × HeaderValue) :=
  inbound.iter.filter fun header => shouldForwardRequestHeader path header.1

/-- The headers that the proxy sets itself. -/
def ownedHeaders : List (String × HeaderValue) :=
  [("authorization", .fromStatic ("Bearer " ++ lease.accessToken)),
    ("chatgpt-account-id", .fromStatic lease.provider.accountId)] ++
  if path = transcriptionsPath then
    [("originator", .fromStatic transcriptionOriginator),
      ("user-agent", .fromStatic transcriptionUserAgent)]
  else
    ("content-type", .fromStatic "application/json") ::
      openaiBeta.toList.map fun beta => ("openai-beta", .fromStatic beta)

/-- **What goes upstream**: the allowed inbound headers and those of the proxy. -/
theorem outgoingHeaders_perm :
    (outgoingHeaders path lease inbound openaiBeta).iter.Perm
      (allowedHeaders path inbound ++ ownedHeaders path lease openaiBeta) := by
  have hforwarded := HeaderMap.distinct_new.foldl_append (allowedHeaders path inbound)
  have howned := hforwarded.1.foldl_append (ownedHeaders path lease openaiBeta)
  have hsame : outgoingHeaders path lease inbound openaiBeta =
      (ownedHeaders path lease openaiBeta).foldl
        (fun headers (name, value) => headers.append name value)
        (forwardedHeaders path inbound) := by
    unfold outgoingHeaders ownedHeaders transcriptionsPath
    split
    · next hpath =>
      subst hpath
      rfl
    · cases openaiBeta with
      | none => rfl
      | some beta => rfl
  rw [hsame]
  exact howned.2.trans (hforwarded.2.append_right _)

end Owned

section Names

variable {path name other : String}

/-- Whether a header is let through depends on its name up to case. -/
theorem shouldForward_congr (h : toAsciiLowercase name = toAsciiLowercase other) :
    shouldForwardRequestHeader path name = shouldForwardRequestHeader path other := by
  unfold shouldForwardRequestHeader
  rw [h]

/-- All routes but the one for transcriptions let the same headers through. -/
theorem shouldForward_of_ne (hpath : path ≠ transcriptionsPath) (name : String) :
    shouldForwardRequestHeader path name = shouldForwardRequestHeader imagesPath name := by
  have himages : imagesPath ≠ transcriptionsPath := by decide
  unfold transcriptionsPath at hpath himages
  unfold shouldForwardRequestHeader
  dsimp only
  rw [if_neg hpath, if_neg himages]

/-- A credential is never let through. -/
theorem shouldForward_credential (path : String) :
    shouldForwardRequestHeader path "authorization" = false ∧
      shouldForwardRequestHeader path "chatgpt-account-id" = false := by
  by_cases hpath : path = transcriptionsPath
  · subst hpath
    decide
  · rw [shouldForward_of_ne hpath, shouldForward_of_ne hpath]
    decide

/-- A header that is let through belongs to no connection and is not for the proxy. -/
theorem not_mem_of_shouldForward (h : shouldForwardRequestHeader path name = true) :
    toAsciiLowercase name ∉ hopHeaders ∧ toAsciiLowercase name ∉ proxyOnlyHeaders := by
  unfold shouldForwardRequestHeader at h
  constructor
  · intro hhop
    simp [hhop] at h
  · intro hproxy
    simp [hproxy] at h

end Names

section Policy

variable (path : String) (lease : Lease) (inbound : HeaderMap) (openaiBeta : Option String)

/-- The policy for the headers of a request upstream. -/
structure UpstreamPolicy (outgoing : HeaderMap) : Prop where
  authorization :
    outgoing.values "authorization" = [.fromStatic ("Bearer " ++ lease.accessToken)]
  account : outgoing.values "chatgpt-account-id" = [.fromStatic lease.provider.accountId]
  contentType : path ≠ transcriptionsPath →
    outgoing.values "content-type" = [.fromStatic "application/json"]
  beta : path ≠ transcriptionsPath → ∀ beta ∈ openaiBeta,
    outgoing.values "openai-beta" = [.fromStatic beta]
  originator : path = transcriptionsPath →
    outgoing.values "originator" = [.fromStatic transcriptionOriginator]
  userAgent : path = transcriptionsPath →
    outgoing.values "user-agent" = [.fromStatic transcriptionUserAgent]
  /-- What the proxy does not set is an inbound header that is let through. -/
  allowed : ∀ header ∈ outgoing.iter, header ∉ ownedHeaders path lease openaiBeta →
    header ∈ inbound.iter ∧ shouldForwardRequestHeader path header.1 = true
  /-- No header of a connection, no cookie and nothing that is for the proxy alone. -/
  hidden : ∀ header ∈ outgoing.iter, toAsciiLowercase header.1 ∉ hopHeaders ∧
    toAsciiLowercase header.1 ∉ proxyOnlyHeaders

/-- The inbound headers leave the names alone that the proxy sets: `openai-beta` where it is
configured, and the desktop identity for transcriptions. -/
def LeavesOwnedNames : Prop :=
  if path = transcriptionsPath then
    inbound.values "originator" = [] ∧ inbound.values "user-agent" = []
  else openaiBeta.isSome → inbound.values "openai-beta" = []

variable {path lease inbound openaiBeta}

/-- The values of a name are those that are let through and those of the proxy. -/
theorem values_outgoingHeaders {name : String} (hname : toAsciiLowercase name = name) :
    ((outgoingHeaders path lease inbound openaiBeta).values name).Perm
      ((if shouldForwardRequestHeader path name then inbound.values name else []) ++
        ((ownedHeaders path lease openaiBeta).filter
          fun header => toAsciiLowercase header.1 = name).map Prod.snd) := by
  have hallowed : ((allowedHeaders path inbound).filter
      fun header => toAsciiLowercase header.1 = name).map Prod.snd =
        if shouldForwardRequestHeader path name then inbound.values name else [] := by
    unfold allowedHeaders HeaderMap.values
    rw [List.filter_filter]
    have hsame : ∀ header ∈ inbound.iter,
        (decide (toAsciiLowercase header.1 = name) &&
          shouldForwardRequestHeader path header.1) =
        (decide (toAsciiLowercase header.1 = name) && shouldForwardRequestHeader path name) := by
      rintro header -
      by_cases hlower : toAsciiLowercase header.1 = name
      · rw [shouldForward_congr (hlower.trans hname.symm)]
      · simp [hlower]
    rw [List.filter_congr hsame]
    split
    · next hforward => simp [hforward]
    · next hforward => simp [hforward]
  have hperm := ((outgoingHeaders_perm path lease inbound openaiBeta).filter
    fun header => toAsciiLowercase header.1 = name).map Prod.snd
  rw [List.filter_append, List.map_append, hallowed] at hperm
  exact hperm

/-- A header of the proxy stands alone exactly when no inbound one of its name is let through. -/
theorem values_eq_singleton_iff {name : String} {value : HeaderValue}
    (hname : toAsciiLowercase name = name)
    (howned : (ownedHeaders path lease openaiBeta).filter
      (fun header => toAsciiLowercase header.1 = name) = [(name, value)]) :
    (outgoingHeaders path lease inbound openaiBeta).values name = [value] ↔
      (shouldForwardRequestHeader path name = true → inbound.values name = []) := by
  have hperm := @values_outgoingHeaders path lease inbound openaiBeta name hname
  rw [howned, List.map_singleton] at hperm
  constructor
  · rintro hvalues hforward
    rw [hvalues, if_pos hforward] at hperm
    have hlength := hperm.length_eq
    rw [List.length_append, List.length_singleton] at hlength
    exact List.length_eq_zero_iff.mp (by omega)
  · intro hnone
    have hempty : (if shouldForwardRequestHeader path name then inbound.values name else []) =
        [] := by
      split
      · next hforward => exact hnone hforward
      · rfl
    rw [hempty, List.nil_append] at hperm
    exact List.perm_singleton.mp hperm

/-- A name that is not let through has the value of the proxy alone. -/
theorem values_eq_singleton {name : String} {value : HeaderValue}
    (hname : toAsciiLowercase name = name)
    (howned : (ownedHeaders path lease openaiBeta).filter
      (fun header => toAsciiLowercase header.1 = name) = [(name, value)])
    (hforward : shouldForwardRequestHeader path name = false) :
    (outgoingHeaders path lease inbound openaiBeta).values name = [value] :=
  (values_eq_singleton_iff hname howned).mpr fun h => by simp [hforward] at h

/-- The names that the proxy sets are in lower case, and none of them is hidden. -/
theorem lower_owned : ∀ name ∈ ["authorization", "chatgpt-account-id", "content-type",
    "openai-beta", "originator", "user-agent"],
    toAsciiLowercase name = name ∧ name ∉ hopHeaders ∧ name ∉ proxyOnlyHeaders := by decide

/-- The headers that the proxy sets are six at most. -/
theorem mem_names_of_mem_ownedHeaders {header : String × HeaderValue}
    (h : header ∈ ownedHeaders path lease openaiBeta) :
    header.1 ∈ ["authorization", "chatgpt-account-id", "content-type", "openai-beta",
      "originator", "user-agent"] := by
  unfold ownedHeaders at h
  split at h
  · rcases List.mem_append.mp h with h | h <;>
      rcases List.mem_cons.mp h with rfl | h <;> simp_all
  · rcases List.mem_append.mp h with h | h
    · rcases List.mem_cons.mp h with rfl | h <;> simp_all
    · rcases List.mem_cons.mp h with rfl | h
      · simp
      · obtain ⟨beta, -, rfl⟩ := List.mem_map.mp h
        simp

/-- The proxy sets the two headers of the credential on every route. -/
theorem owned_credential :
    ((ownedHeaders path lease openaiBeta).filter
      fun header => toAsciiLowercase header.1 = "authorization") =
        [("authorization", .fromStatic ("Bearer " ++ lease.accessToken))] ∧
    ((ownedHeaders path lease openaiBeta).filter
      fun header => toAsciiLowercase header.1 = "chatgpt-account-id") =
        [("chatgpt-account-id", .fromStatic lease.provider.accountId)] := by
  have hlower := fun name hname => (lower_owned name hname).1
  simp only [List.forall_mem_cons] at hlower
  unfold ownedHeaders
  split
  · simp [hlower]
  · cases openaiBeta with
    | none => simp [hlower]
    | some beta => simp [hlower]

/-- The proxy sets a desktop identity for transcriptions. -/
theorem owned_identity :
    ((ownedHeaders transcriptionsPath lease openaiBeta).filter
      fun header => toAsciiLowercase header.1 = "originator") =
        [("originator", .fromStatic transcriptionOriginator)] ∧
    ((ownedHeaders transcriptionsPath lease openaiBeta).filter
      fun header => toAsciiLowercase header.1 = "user-agent") =
        [("user-agent", .fromStatic transcriptionUserAgent)] := by
  have hlower := fun name hname => (lower_owned name hname).1
  simp only [List.forall_mem_cons] at hlower
  simp [ownedHeaders, hlower]

/-- The proxy sets a content type on all other routes, and the value of `openai-beta` that is
configured. -/
theorem owned_json (hpath : path ≠ transcriptionsPath) :
    ((ownedHeaders path lease openaiBeta).filter
      fun header => toAsciiLowercase header.1 = "content-type") =
        [("content-type", .fromStatic "application/json")] ∧
    ∀ beta ∈ openaiBeta, ((ownedHeaders path lease openaiBeta).filter
      fun header => toAsciiLowercase header.1 = "openai-beta") =
        [("openai-beta", .fromStatic beta)] := by
  have hlower := fun name hname => (lower_owned name hname).1
  simp only [List.forall_mem_cons] at hlower
  unfold ownedHeaders
  rw [if_neg hpath]
  cases openaiBeta with
  | none => simp [hlower]
  | some beta => simp [hlower]

/-- **The policy holds** exactly when the inbound headers leave the names alone that the proxy
sets. -/
theorem upstreamPolicy_iff :
    UpstreamPolicy path lease inbound openaiBeta (outgoingHeaders path lease inbound openaiBeta) ↔
      LeavesOwnedNames path inbound openaiBeta := by
  have hmem : ∀ {header}, header ∈ (outgoingHeaders path lease inbound openaiBeta).iter ↔
      header ∈ allowedHeaders path inbound ++ ownedHeaders path lease openaiBeta :=
    (outgoingHeaders_perm path lease inbound openaiBeta).mem_iff
  have hcredential := @shouldForward_credential path
  have hallowed : ∀ header ∈ (outgoingHeaders path lease inbound openaiBeta).iter,
      header ∉ ownedHeaders path lease openaiBeta →
        header ∈ inbound.iter ∧ shouldForwardRequestHeader path header.1 = true := by
    rintro header hheader howned
    rcases List.mem_append.mp (hmem.mp hheader) with hinbound | hproxy
    · exact List.mem_filter.mp hinbound
    · exact absurd hproxy howned
  have hhidden : ∀ header ∈ (outgoingHeaders path lease inbound openaiBeta).iter,
      toAsciiLowercase header.1 ∉ hopHeaders ∧ toAsciiLowercase header.1 ∉ proxyOnlyHeaders := by
    rintro header hheader
    rcases List.mem_append.mp (hmem.mp hheader) with hinbound | hproxy
    · exact not_mem_of_shouldForward (List.mem_filter.mp hinbound).2
    · obtain ⟨hlower, hnames⟩ := lower_owned header.1 (mem_names_of_mem_ownedHeaders hproxy)
      rwa [hlower]
  have hauthorization :=
    @values_eq_singleton path lease inbound openaiBeta _ _ (by decide) owned_credential.1
      hcredential.1
  have haccount :=
    @values_eq_singleton path lease inbound openaiBeta _ _ (by decide) owned_credential.2
      hcredential.2
  unfold LeavesOwnedNames
  split
  · next hpath =>
    subst hpath
    have horiginator := @values_eq_singleton_iff transcriptionsPath lease inbound openaiBeta _ _
      (by decide) owned_identity.1
    have huserAgent := @values_eq_singleton_iff transcriptionsPath lease inbound openaiBeta _ _
      (by decide) owned_identity.2
    constructor
    · intro h
      exact ⟨horiginator.mp (h.originator rfl) (by decide),
        huserAgent.mp (h.userAgent rfl) (by decide)⟩
    · rintro ⟨hfirst, hsecond⟩
      exact ⟨hauthorization, haccount, fun h => absurd rfl h, fun h => absurd rfl h,
        fun _ => horiginator.mpr fun _ => hfirst, fun _ => huserAgent.mpr fun _ => hsecond,
        hallowed, hhidden⟩
  · next hpath =>
    have hcontentType := @values_eq_singleton path lease inbound openaiBeta _ _ (by decide)
      (owned_json hpath).1 (by rw [shouldForward_of_ne hpath]; decide)
    have hbeta : ∀ beta ∈ openaiBeta,
        ((outgoingHeaders path lease inbound openaiBeta).values "openai-beta" =
          [.fromStatic beta] ↔ inbound.values "openai-beta" = []) := by
      intro beta hbeta
      rw [values_eq_singleton_iff (by decide) ((owned_json hpath).2 beta hbeta),
        shouldForward_of_ne hpath]
      exact forall_prop_of_true (by decide)
    constructor
    · intro h hsome
      obtain ⟨beta, hsome⟩ := Option.isSome_iff_exists.mp hsome
      exact (hbeta beta hsome).mp (h.beta hpath beta hsome)
    · intro hnone
      exact ⟨hauthorization, haccount, fun _ => hcontentType,
        fun _ beta hsome => (hbeta beta hsome).mpr (hnone (Option.isSome_iff_exists.mpr
          ⟨beta, hsome⟩)),
        fun h => absurd h hpath, fun h => absurd h hpath, hallowed, hhidden⟩

end Policy

section Senders

/-- Where requests go upstream from. -/
inductive UpstreamRoute where
  /-- `send_upstream`, for a path of the API. -/
  | proxy (path : String)
  /-- `send_console_image_upstream`. -/
  | consoleImages
  /-- `send_transcription_upstream`. -/
  | consoleTranscription

namespace UpstreamRoute

/-- The path whose rules are followed. -/
def path : UpstreamRoute → String
  | proxy path => path
  | consoleImages => imagesPath
  | consoleTranscription => transcriptionsPath

/-- The state that a computation ends in. -/
def finalState {ε σ α : Type} : EStateM.Result ε σ α → σ
  | .ok _ s => s
  | .error _ s => s

/-- The requests that one call of a sender makes. -/
def requests (env : ProxyEnv) (audit : AuditTracker) (lease : Lease) (inbound : HeaderMap)
    (body : List UInt8) (attempt : Attempt) (reply : Reply) :
    UpstreamRoute → List UpstreamRequest
  | proxy path =>
    (finalState (sendUpstream env lease path inbound body attempt ⟨audit, [], []⟩)).requests
  | consoleImages =>
    (finalState (Failover.sendConsoleImageUpstream lease inbound attempt.openaiBeta body reply
      ⟨(), [], []⟩)).requests
  | consoleTranscription =>
    (finalState (Failover.sendTranscriptionUpstream lease inbound body reply
      ⟨(), [], []⟩)).requests

variable {env : ProxyEnv} {audit : AuditTracker} {lease : Lease} {inbound : HeaderMap}
  {body : List UInt8} {attempt : Attempt} {reply : Reply} {request : UpstreamRequest}

/-- A request that can be built goes out once, whatever comes of it. -/
theorem requests_executeRequest (headers : HeaderMap) (state : HandlerState) :
    (finalState (executeRequest env lease headers body attempt state)).requests =
      match attempt.built with
      | .ok _ => state.requests ++ [⟨lease.provider.id, headers, body⟩]
      | .error _ => state.requests := by
  obtain ⟨upload, openaiBeta, built, executed, buffered, tracked⟩ := attempt
  cases built with
  | error interrupt => rfl
  | ok built =>
    cases executed with
    | error interrupt => rfl
    | ok response => rfl

/-- Every sender goes by the headers of its path. -/
theorem headers_of_mem_requests {route : UpstreamRoute}
    (h : request ∈ route.requests env audit lease inbound body attempt reply) :
    request.headers = outgoingHeaders route.path lease inbound attempt.openaiBeta := by
  have hexecuted : ∀ (headers : HeaderMap) (audit : AuditTracker),
      request ∈ (finalState (executeRequest env lease headers body attempt
        ⟨audit, [], []⟩)).requests → request.headers = headers := by
    intro headers audit hrequest
    rw [requests_executeRequest] at hrequest
    cases hbuilt : attempt.built with
    | error interrupt => simp [hbuilt] at hrequest
    | ok built =>
      obtain rfl : request = _ := by simpa [hbuilt] using hrequest
      rfl
  cases route with
  | proxy path =>
    by_cases hpath : path = "/v1/audio/transcriptions"
    · simp only [requests, sendUpstream, if_pos hpath] at h
      have hheaders := hexecuted _ _ h
      rw [hheaders]
      exact (if_pos hpath).symm
    · simp only [requests, sendUpstream, if_neg hpath] at h
      have hheaders := hexecuted (jsonRequestHeaders path lease inbound attempt.openaiBeta)
        (audit.setUpstreamAcceptEncoding inbound) h
      rw [hheaders]
      exact (if_neg hpath).symm
  | consoleImages =>
    obtain rfl := List.mem_singleton.mp h
    rfl
  | consoleTranscription =>
    obtain rfl := List.mem_singleton.mp h
    rfl

end UpstreamRoute

/-- **The header policy**: each request upstream follows it exactly when the inbound headers leave
the names alone that the proxy sets. -/
theorem request_headers_iff (env : ProxyEnv) (audit : AuditTracker) (lease : Lease)
    (inbound : HeaderMap) (body : List UInt8) (attempt : Attempt) (reply : Reply)
    (route : UpstreamRoute) :
    ∀ request ∈ route.requests env audit lease inbound body attempt reply,
      (UpstreamPolicy route.path lease inbound attempt.openaiBeta request.headers ↔
        LeavesOwnedNames route.path inbound attempt.openaiBeta) := by
  intro request hrequest
  rw [UpstreamRoute.headers_of_mem_requests hrequest]
  exact upstreamPolicy_iff

/-- An attempt that goes through, under a configured `openai-beta`. -/
def betaAttempt : Attempt where
  upload := .ok []
  openaiBeta := some "responses=experimental"
  built := .ok ()
  executed := .ok ⟨200, .http11, .new⟩
  buffered := .ok []
  tracked := .ok ()

/-- The tracker of a call that is not recorded. -/
def idleTracker : AuditTracker := ⟨⟨none, none, none⟩, 0⟩

/-- A reply without a body. -/
def emptyReply : Reply := ⟨⟨200, .http11, .new⟩, some []⟩

/-- A client that names features of its own. -/
def betaClient : HeaderMap := .append .new "openai-beta" (.fromStatic "assistants=v2")

/-- A client that has an identity of its own. -/
def namedClient : HeaderMap :=
  .append (.append .new "originator" (.fromStatic "client")) "user-agent" (.fromStatic "curl/8.7.1")

/-- The statement at a client without such headers. -/
theorem request_headers_iff_plain :
    ∃ request ∈ (UpstreamRoute.proxy "/v1/responses").requests usageEnv idleTracker usageLease
        plainClient [] betaAttempt emptyReply,
      request.headers.values "openai-beta" = [.fromStatic "responses=experimental"] ∧
        (UpstreamPolicy "/v1/responses" usageLease plainClient (some "responses=experimental")
            request.headers ↔
          LeavesOwnedNames "/v1/responses" plainClient (some "responses=experimental")) := by
  have hbeta : (outgoingHeaders "/v1/responses" usageLease plainClient
      (some "responses=experimental")).values "openai-beta" =
        [.fromStatic "responses=experimental"] := by decide
  refine ⟨⟨"p", outgoingHeaders "/v1/responses" usageLease plainClient
    (some "responses=experimental"), []⟩, List.mem_singleton.mpr rfl, hbeta, ?_⟩
  exact request_headers_iff usageEnv idleTracker usageLease plainClient [] betaAttempt emptyReply
    (.proxy "/v1/responses") _ (List.mem_singleton.mpr rfl)

/-- The headers of the two clients go upstream next to those of the proxy. -/
theorem client_headers_go_along :
    (∃ request ∈ (UpstreamRoute.proxy "/v1/responses").requests usageEnv idleTracker usageLease
        betaClient [] betaAttempt emptyReply,
      request.headers.values "openai-beta" =
          [.fromStatic "assistants=v2", .fromStatic "responses=experimental"] ∧
        ¬ UpstreamPolicy "/v1/responses" usageLease betaClient (some "responses=experimental")
          request.headers) ∧
    ∃ request ∈ UpstreamRoute.consoleTranscription.requests usageEnv idleTracker usageLease
        namedClient [] betaAttempt emptyReply,
      request.headers.values "originator" =
          [.fromStatic "client", .fromStatic transcriptionOriginator] ∧
        ¬ UpstreamPolicy transcriptionsPath usageLease namedClient
          (some "responses=experimental") request.headers := by
  constructor
  · have hbeta : (outgoingHeaders "/v1/responses" usageLease betaClient
        (some "responses=experimental")).values "openai-beta" =
          [.fromStatic "assistants=v2", .fromStatic "responses=experimental"] := by decide
    refine ⟨⟨"p", outgoingHeaders "/v1/responses" usageLease betaClient
      (some "responses=experimental"), []⟩, List.mem_singleton.mpr rfl, hbeta, ?_⟩
    intro h
    have hone := h.beta (by decide) _ rfl
    exact absurd (hbeta.symm.trans hone) (by decide)
  · have horiginator : (outgoingHeaders transcriptionsPath usageLease namedClient none).values
        "originator" = [.fromStatic "client", .fromStatic transcriptionOriginator] := by decide
    refine ⟨⟨"p", outgoingHeaders transcriptionsPath usageLease namedClient none, []⟩,
      List.mem_singleton.mpr rfl, horiginator, ?_⟩
    intro h
    exact absurd (horiginator.symm.trans (h.originator rfl)) (by decide)

end Senders

end OpenAiLb
