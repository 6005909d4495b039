import OpenAiLb.FailoverProtocol

/-!
# The four dispatchers follow the protocol

Each dispatcher is the protocol between a preparation and a relay, so what is proved of the
protocol holds of all four: how many requests there are, to whom they go, when the second
one is sent, what the client gets, and what is reported.
-/

namespace OpenAiLb

open Stoppable

namespace Failover

variable {κ α : Type} {env : ProxyEnv} {around : Surroundings} {caller : Caller}

/-- The statuses after which another provider is tried. -/
def FailsOver (status : ℕ) : Prop :=
  status = 401 ∨ status = 403 ∨ status = 429 ∨ (500 ≤ status ∧ status < 600)

/-- The statuses after which another provider is asked. -/
theorem retryable_iff {status : ℕ} : retryable status = true ↔ FailsOver status := by
  simp [retryable, FailsOver, or_assoc]

/-- `select` without the first provider returns a lease, and its refresh succeeds. -/
def AnotherReady (env : ProxyEnv) (around : Surroundings) (caller : Caller) (firstId : String) :
    Prop :=
  ∃ lease balancer ready,
    around.retry.balancer.select env.affinityHash around.ttl around.retry.now caller.userId
        caller.allProviders caller.affinity (some firstId) = .ok (lease, balancer) ∧
      refreshIfNeeded around.jwt lease around.retry.refresh = .ok ready

/-- The requests with the replies to them. -/
def exchanged (around : Surroundings) (run : DispatcherRun α) :
    List (UpstreamRequest × Reply) :=
  run.requests.zip [around.firstReply, around.secondReply]

/-- What is promised of a run. `retries` says of the first reply whether another provider is
tried, and `relay` is how the dispatcher goes on with a response. -/
structure FollowsProtocol (env : ProxyEnv) (around : Surroundings) (caller : Caller)
    (retries : Reply → Prop) (relay : Reply → UpstreamResponse → Dispatcher κ α)
    (run : DispatcherRun α) : Prop where
  atMostTwo : run.requests.length ≤ 2
  distinct : (run.requests.map UpstreamRequest.providerId).Nodup
  allowed : ∀ request ∈ run.requests,
    ∃ selection ∈ [around.first, around.fallback, around.retry],
      ∃ provider ∈ selection.balancer.eligible selection.now caller.userId caller.allProviders none,
        provider.id = request.providerId
  samePayload : ∀ request ∈ run.requests, ∀ other ∈ run.requests, request.body = other.body
  second_iff : ∀ first, run.requests.head? = some first →
    (run.requests.length = 2 ↔
      retries around.firstReply ∧ AnotherReady env around caller first.providerId)
  /-- The client gets what the relay makes of the reply to the last request. -/
  relayed : ∀ request reply, (exchanged around run).getLast? = some (request, reply) →
    match reply.tracked with
    | .ok upstream => ∃ own,
      (relay reply upstream).runFrom ⟨own, run.requests, run.reports⟩ = run
    | .error error => run.result = .error (.error error)
  reported : run.reports =
    (exchanged around run).flatMap fun exchanged => exchanged.2.reports exchanged.1.providerId

/-- A result with its error forgotten. -/
theorem toOption_eq_some {ε : Type} {x : Except ε α} {a : α} :
    x.toOption = some a ↔ x = .ok a := by
  cases x with
  | error error => exact ⟨nofun, nofun⟩
  | ok b => simp [Except.toOption]

/-- The credential of a lease is refreshed, its provider stays. -/
theorem refreshIfNeeded_providerId {jwt : JwtCodec} {lease ready : Lease}
    {answers : RefreshAnswers} (h : refreshIfNeeded jwt lease answers = .ok ready) :
    ready.provider.id = lease.provider.id := by
  unfold refreshIfNeeded at h
  split at h
  · obtain ⟨current, -, h⟩ := bind_eq_ok.mp h
    split at h
    · cases h
      rfl
    · split at h
      · obtain ⟨-, -, h⟩ := bind_eq_ok.mp h
        cases h
      · obtain ⟨found, -, h⟩ := bind_eq_ok.mp h
        split at h
        · cases h
        · obtain ⟨-, -, h⟩ := bind_eq_ok.mp h
          cases h
          rfl
  · cases h
    rfl

/-- A selection gives a lease of an eligible provider. -/
theorem eligible_of_select {at' : SelectionAt} {excluded : Option String} {lease : Lease}
    (h : select env around at' caller excluded = .ok lease) :
    lease.provider ∈ at'.balancer.eligible at'.now caller.userId caller.allProviders excluded := by
  unfold select at h
  cases hselect : at'.balancer.select env.affinityHash around.ttl at'.now caller.userId
      caller.allProviders caller.affinity excluded with
  | error error =>
    rw [hselect] at h
    cases h
  | ok leased =>
    rw [hselect] at h
    cases h
    exact (Balancer.select_mem_eligible hselect).1

/-- A provider that the caller may use at one of these selections. -/
def Allowed (caller : Caller) (selections : List SelectionAt) (providerId : String) : Prop :=
  ∃ selection ∈ selections,
    ∃ provider ∈ selection.balancer.eligible selection.now caller.userId caller.allProviders none,
      provider.id = providerId

/-- What is allowed stays allowed with more selections. -/
theorem Allowed.mono {selections more : List SelectionAt} {providerId : String}
    (h : Allowed caller selections providerId) (hsub : selections ⊆ more) :
    Allowed caller more providerId := by
  obtain ⟨selection, hmem, hprovider⟩ := h
  exact ⟨selection, hsub hmem, hprovider⟩

/-- The first provider is one that the caller may use. -/
theorem allowed_of_selectReadyProvider {first : Lease}
    (h : selectReadyProvider env around caller = .ok first) :
    Allowed caller [around.first, around.fallback] first.provider.id := by
  obtain ⟨chosen, hchosen, h⟩ := bind_eq_ok.mp h
  split at h
  · next ready hready =>
    cases h
    refine ⟨around.first, List.mem_cons_self, chosen.provider, eligible_of_select hchosen, ?_⟩
    exact (refreshIfNeeded_providerId hready).symm
  · obtain ⟨second, hsecond, h⟩ := bind_eq_ok.mp h
    have heligible := Balancer.mem_eligible.mp (eligible_of_select hsecond)
    refine ⟨around.fallback, by simp, second.provider, ?_, (refreshIfNeeded_providerId h).symm⟩
    exact Balancer.mem_eligible.mpr ⟨heligible.1, heligible.2.1, heligible.2.2.1, nofun⟩

/-- `retry_provider` gives a provider that the caller may use, and not the first one. -/
theorem of_retryProvider {firstId : String} {second : Lease}
    (h : retryProvider env around caller firstId = some second) :
    Allowed caller [around.retry] second.provider.id ∧ firstId ≠ second.provider.id := by
  obtain ⟨lease, hlease, hready⟩ := Option.bind_eq_some_iff.mp h
  have hid := refreshIfNeeded_providerId (toOption_eq_some.mp hready)
  obtain ⟨hmem, havailable, huse, hexcluded⟩ :=
    Balancer.mem_eligible.mp (eligible_of_select (toOption_eq_some.mp hlease))
  constructor
  · refine ⟨around.retry, List.mem_cons_self, lease.provider, ?_, hid.symm⟩
    exact Balancer.mem_eligible.mpr ⟨hmem, havailable, huse, nofun⟩
  · rw [hid]
    exact fun heq => hexcluded (congrArg some heq)

/-- `retry_provider` gives a lease when another provider is ready. -/
theorem isSome_retryProvider {firstId : String} :
    (retryProvider env around caller firstId).isSome = true ↔
      AnotherReady env around caller firstId := by
  rw [Option.isSome_iff_exists]
  constructor
  · rintro ⟨ready, h⟩
    obtain ⟨lease, hlease, hready⟩ := Option.bind_eq_some_iff.mp h
    have hselect := toOption_eq_some.mp hlease
    unfold select at hselect
    cases hchosen : around.retry.balancer.select env.affinityHash around.ttl around.retry.now
        caller.userId caller.allProviders caller.affinity (some firstId) with
    | error error =>
      rw [hchosen] at hselect
      cases hselect
    | ok leased =>
      rw [hchosen] at hselect
      cases hselect
      exact ⟨leased.1, leased.2, ready, hchosen, toOption_eq_some.mp hready⟩
  · rintro ⟨lease, balancer, ready, hselect, hready⟩
    refine ⟨ready, Option.bind_eq_some_iff.mpr ⟨lease, ?_, toOption_eq_some.mpr hready⟩⟩
    rw [select, hselect]
    rfl

/-- A reply is reported exactly when its body could be read as far as it is needed. -/
theorem tracked_ok_iff {reply : Reply} :
    (∃ upstream, reply.tracked = .ok upstream) ↔ (reply.status = 429 → reply.body ≠ none) := by
  unfold Reply.tracked Reply.read
  by_cases hstatus : reply.status = 429
  · rw [if_pos hstatus]
    cases reply.body with
    | none => simp [hstatus, Except.map]
    | some body => simp [Except.map]
  · simp [hstatus]

/-- The first request is followed by a second one when the reply asks for it, could be read as far
as it is needed, and another provider is ready. -/
theorem isSome_secondLease {first : Lease} :
    (secondLease env around caller first).isSome = true ↔
      (FailsOver around.firstReply.status ∧
        (around.firstReply.status = 429 → around.firstReply.body ≠ none)) ∧
      AnotherReady env around caller first.provider.id := by
  rw [← tracked_ok_iff, ← isSome_retryProvider, ← retryable_iff]
  unfold secondLease
  cases around.firstReply.tracked with
  | error error => simp
  | ok upstream =>
    by_cases hretry : retryable around.firstReply.status = true
    · simp [hretry]
    · simp [hretry]

/-- A second lease is one of `retry_provider`. -/
theorem retryProvider_of_secondLease {first second : Lease}
    (h : secondLease env around caller first = some second) :
    retryProvider env around caller first.provider.id = some second := by
  unfold secondLease at h
  split at h
  · cases h
  · split at h
    · exact h
    · cases h

/-- What a dispatcher has done after the exchanges of the protocol. -/
structure Performed (env : ProxyEnv) (around : Surroundings) (caller : Caller) (sender : Sender κ)
    (relay : Reply → UpstreamResponse → Dispatcher κ α) (run : DispatcherRun α) : Prop where
  requests : run.requests = (exchanges env around caller).map fun e =>
    ⟨e.lease.provider.id, sender.headers e.lease, sender.payload⟩
  reports : run.reports = (exchanges env around caller).flatMap fun e =>
    e.reply.reports e.lease.provider.id
  relayed : ∀ e, (exchanges env around caller).getLast? = some e →
    match e.reply.tracked with
    | .ok upstream => ∃ own,
      (relay e.reply upstream).runFrom ⟨own, run.requests, run.reports⟩ = run
    | .error error => run.result = .error (.error error)

/-- Nothing is promised of a dispatcher that stops before its first request. -/
theorem FollowsProtocol.of_no_request {retries : Reply → Prop}
    {relay : Reply → UpstreamResponse → Dispatcher κ α} {run : DispatcherRun α}
    (hrequests : run.requests = []) (hreports : run.reports = []) :
    FollowsProtocol env around caller retries relay run where
  atMostTwo := by simp [hrequests]
  distinct := by simp [hrequests]
  allowed := by simp [hrequests]
  samePayload := by simp [hrequests]
  second_iff := by simp [hrequests]
  relayed := by simp [exchanged, hrequests]
  reported := by simp [exchanged, hrequests, hreports]

/-- The promises hold of a dispatcher that sends one request and has no reason to try again. -/
theorem FollowsProtocol.of_one_request {retries : Reply → Prop}
    {relay : Reply → UpstreamResponse → Dispatcher κ α} {run : DispatcherRun α}
    {request : UpstreamRequest} (hrequests : run.requests = [request])
    (hallowed : Allowed caller [around.first, around.fallback, around.retry] request.providerId)
    (hagain : ¬ (retries around.firstReply ∧ AnotherReady env around caller request.providerId))
    (hrelayed : match around.firstReply.tracked with
      | .ok upstream => ∃ own,
        (relay around.firstReply upstream).runFrom ⟨own, run.requests, run.reports⟩ = run
      | .error error => run.result = .error (.error error))
    (hreports : run.reports = around.firstReply.reports request.providerId) :
    FollowsProtocol env around caller retries relay run where
  atMostTwo := by simp [hrequests]
  distinct := by simp [hrequests]
  allowed := by
    rw [hrequests]
    rintro sent hsent
    obtain rfl := List.mem_singleton.mp hsent
    exact hallowed
  samePayload := by simp [hrequests]
  second_iff := by
    rw [hrequests]
    rintro sent hsent
    cases hsent
    exact ⟨fun h => absurd h (by simp), fun h => absurd h hagain⟩
  relayed := by
    rintro sent reply hlast
    simp only [exchanged, hrequests, List.zip_cons_cons, List.zip_nil_left,
      List.getLast?_singleton, Option.some.injEq, Prod.mk.injEq] at hlast
    obtain ⟨-, rfl⟩ := hlast
    exact hrelayed
  reported := by simp [exchanged, hrequests, hreports]

/-- The promises hold of a dispatcher that sends the payload again, to another provider. -/
theorem FollowsProtocol.of_two_requests {retries : Reply → Prop}
    {relay : Reply → UpstreamResponse → Dispatcher κ α} {run : DispatcherRun α}
    {first second : UpstreamRequest} (hrequests : run.requests = [first, second])
    (hfirst : Allowed caller [around.first, around.fallback, around.retry] first.providerId)
    (hsecond : Allowed caller [around.first, around.fallback, around.retry] second.providerId)
    (hne : first.providerId ≠ second.providerId) (hbody : first.body = second.body)
    (hagain : retries around.firstReply ∧ AnotherReady env around caller first.providerId)
    (hrelayed : match around.secondReply.tracked with
      | .ok upstream => ∃ own,
        (relay around.secondReply upstream).runFrom ⟨own, run.requests, run.reports⟩ = run
      | .error error => run.result = .error (.error error))
    (hreports : run.reports = around.firstReply.reports first.providerId ++
      around.secondReply.reports second.providerId) :
    FollowsProtocol env around caller retries relay run where
  atMostTwo := by simp [hrequests]
  distinct := by simp [hrequests, hne]
  allowed := by
    rw [hrequests]
    rintro sent hsent
    obtain rfl | hsent := List.mem_cons.mp hsent
    · exact hfirst
    · obtain rfl := List.mem_singleton.mp hsent
      exact hsecond
  samePayload := by simp [hrequests, hbody]
  second_iff := by
    rw [hrequests]
    rintro sent hsent
    cases hsent
    exact ⟨fun _ => hagain, fun _ => rfl⟩
  relayed := by
    rintro sent reply hlast
    simp only [exchanged, hrequests, List.zip_cons_cons, List.zip_nil_left,
      List.getLast?_cons_cons, List.getLast?_singleton, Option.some.injEq, Prod.mk.injEq] at hlast
    obtain ⟨-, rfl⟩ := hlast
    exact hrelayed
  reported := by simp [exchanged, hrequests, hreports]

/-- **The promises hold of what the protocol does.** -/
theorem Performed.followsProtocol {sender : Sender κ}
    {relay : Reply → UpstreamResponse → Dispatcher κ α} {run : DispatcherRun α}
    (h : Performed env around caller sender relay run) :
    FollowsProtocol env around caller
      (fun reply => FailsOver reply.status ∧ (reply.status = 429 → reply.body ≠ none)) relay
      run := by
  obtain ⟨hrequests, hreports, hrelayed⟩ := h
  unfold exchanges at hrequests hreports hrelayed
  cases hfirst : selectReadyProvider env around caller with
  | error error =>
    simp only [hfirst] at hrequests hreports
    exact .of_no_request hrequests hreports
  | ok first =>
    have hfirstAllowed := (allowed_of_selectReadyProvider hfirst).mono
      (List.subset_append_left [around.first, around.fallback] [around.retry])
    have hagain : (secondLease env around caller first).isSome = true ↔ _ := isSome_secondLease
    simp only [hfirst] at hrequests hreports hrelayed
    cases hsecond : secondLease env around caller first with
    | none =>
      rw [hsecond] at hagain
      simp only [hsecond, Option.toList_none, List.map_nil, List.map_cons, List.flatMap_cons,
        List.flatMap_nil, List.append_nil] at hrequests hreports hrelayed
      exact .of_one_request hrequests hfirstAllowed
        (fun h => Bool.false_ne_true (hagain.mpr h)) (hrelayed ⟨first, around.firstReply⟩ rfl)
        hreports
    | some second =>
      rw [hsecond] at hagain
      obtain ⟨hallowed, hne⟩ := of_retryProvider (retryProvider_of_secondLease hsecond)
      have hsecondAllowed := hallowed.mono
        (List.subset_append_right [around.first, around.fallback] [around.retry])
      simp only [hsecond, Option.toList_some, List.map_nil, List.map_cons, List.flatMap_cons,
        List.flatMap_nil, List.append_nil] at hrequests hreports hrelayed
      exact .of_two_requests hrequests hfirstAllowed hsecondAllowed hne rfl (hagain.mp rfl)
        (hrelayed ⟨second, around.secondReply⟩ rfl) hreports

/-- The protocol ends with the last of its exchanges. -/
theorem conclusion_of_getLast {e : Exchange}
    (h : (exchanges env around caller).getLast? = some e) :
    conclusion env around caller = e.reply.tracked.map (e.reply, ·) := by
  unfold exchanges at h
  unfold conclusion
  cases hfirst : selectReadyProvider env around caller with
  | error error =>
    rw [hfirst] at h
    cases h
  | ok first =>
    rw [hfirst] at h
    cases hsecond : secondLease env around caller first with
    | none =>
      simp only [hsecond, Option.toList_none, List.map_nil, List.getLast?_singleton,
        Option.some.injEq] at h
      subst h
      simp [hsecond]
    | some second =>
      simp only [hsecond, Option.toList_some, List.map_cons, List.map_nil,
        List.getLast?_cons_cons, List.getLast?_singleton, Option.some.injEq] at h
      subst h
      simp [hsecond]

/-- A quiet computation runs from a state with the requests and reports that it leaves. -/
theorem runFrom_of_quiet {x : Dispatcher κ α} (hx : Quiet x) (s : Dispatching κ) :
    (x.runFrom s).requests = s.requests ∧ (x.runFrom s).reports = s.reports := by
  unfold Dispatcher.runFrom
  cases hrun : x s with
  | ok a t => exact ⟨congrArg Prod.fst (hx.of_ok hrun), congrArg Prod.snd (hx.of_ok hrun)⟩
  | error exit t =>
    exact ⟨congrArg Prod.fst (hx.of_error hrun), congrArg Prod.snd (hx.of_error hrun)⟩

/-- **The protocol with a relay after it.** -/
theorem performed_relay (sender : Sender κ) {relay : Reply → UpstreamResponse → Dispatcher κ α}
    (hrelay : ∀ reply upstream, Quiet (relay reply upstream)) {s : Dispatching κ}
    (hrequests : s.requests = []) (hreports : s.reports = []) :
    Performed env around caller sender relay
      ((protocol env around caller sender >>= fun result =>
        relay result.1 result.2).runFrom s) := by
  obtain ⟨own, hprotocol⟩ : ∃ own, protocol env around caller sender s = _ :=
    protocol_eq sender s
  have hrecord : record sender s own (exchanges env around caller) =
      ⟨own, (exchanges env around caller).map fun e =>
        ⟨e.lease.provider.id, sender.headers e.lease, sender.payload⟩,
        (exchanges env around caller).flatMap fun e => e.reply.reports e.lease.provider.id⟩ := by
    simp [record, hrequests, hreports]
  rw [hrecord] at hprotocol
  cases hconclusion : conclusion env around caller with
  | error error =>
    rw [hconclusion] at hprotocol
    rw [Dispatcher.runFrom, run_bind_of_error hprotocol]
    refine ⟨rfl, rfl, fun e he => ?_⟩
    rw [conclusion_of_getLast he] at hconclusion
    cases htracked : e.reply.tracked with
    | error error' =>
      rw [htracked] at hconclusion
      cases hconclusion
      rfl
    | ok upstream =>
      rw [htracked] at hconclusion
      cases hconclusion
  | ok result =>
    rw [hconclusion] at hprotocol
    rw [Dispatcher.runFrom, run_bind_of_ok hprotocol]
    obtain ⟨hkeptRequests, hkeptReports⟩ := runFrom_of_quiet (hrelay result.1 result.2)
      ⟨own, (exchanges env around caller).map fun e =>
        ⟨e.lease.provider.id, sender.headers e.lease, sender.payload⟩,
        (exchanges env around caller).flatMap fun e => e.reply.reports e.lease.provider.id⟩
    refine ⟨hkeptRequests, hkeptReports, fun e he => ?_⟩
    rw [conclusion_of_getLast he] at hconclusion
    cases htracked : e.reply.tracked with
    | error error =>
      rw [htracked] at hconclusion
      cases hconclusion
    | ok upstream =>
      rw [htracked] at hconclusion
      cases hconclusion
      exact ⟨own, by rw [← Dispatcher.runFrom, hkeptRequests, hkeptReports]⟩

/-- **A dispatcher is the protocol between a preparation and a relay**, both of them quiet. -/
theorem followsProtocol_of_quiet {β : Type} {before : Dispatcher κ β} (hbefore : Quiet before)
    (sender : β → Sender κ) {relay : Reply → UpstreamResponse → Dispatcher κ α}
    (hrelay : ∀ reply upstream, Quiet (relay reply upstream)) (own : κ) :
    FollowsProtocol env around caller
      (fun reply => FailsOver reply.status ∧ (reply.status = 429 → reply.body ≠ none)) relay
      ((before >>= fun b => protocol env around caller (sender b) >>= fun result =>
        relay result.1 result.2).runFrom ⟨own, [], []⟩) := by
  cases hprepared : before ⟨own, [], []⟩ with
  | error exit s =>
    have hquiet := hbefore.of_error hprepared
    have hrun := run_bind_of_error (f := fun b => protocol env around caller (sender b) >>=
      fun result => relay result.1 result.2) hprepared
    rw [Dispatcher.runFrom, hrun]
    exact .of_no_request (congrArg Prod.fst hquiet) (congrArg Prod.snd hquiet)
  | ok b s =>
    have hquiet := hbefore.of_ok hprepared
    have hrequests : s.requests = [] := congrArg Prod.fst hquiet
    have hreports : s.reports = [] := congrArg Prod.snd hquiet
    have hrun := run_bind_of_ok (f := fun b => protocol env around caller (sender b) >>=
      fun result => relay result.1 result.2) hprepared
    rw [Dispatcher.runFrom, hrun]
    exact (performed_relay (sender b) hrelay (congrArg Prod.fst hquiet)
      (congrArg Prod.snd hquiet)).followsProtocol

section Instances

/-- How the API handlers send. -/
def apiSender (env : ProxyEnv) (openaiBeta : Option String) (inbound : Inbound)
    (payload upload : List UInt8) : Sender Recording where
  payload := payload
  headers lease :=
    if inbound.path = "/v1/audio/transcriptions" then transcriptionHeaders lease inbound.headers
    else jsonRequestHeaders inbound.path lease inbound.headers openaiBeta
  note lease := recording (track (.setProvider lease.provider.id))
  send lease reply := recording
    (sendUpstream env lease inbound.path inbound.headers payload (reply.attempt openaiBeta upload))
  note_eq _ _ := ⟨_, rfl⟩
  send_eq lease reply s := by
    unfold sendUpstream
    split
    · exact ⟨_, rfl⟩
    · exact ⟨_, rfl⟩

/-- How the console handlers send. -/
def consoleSender (headers : Lease → HeaderMap) (payload : List UInt8) : Sender Unit where
  payload := payload
  headers := headers
  note _ := pure ()
  send lease reply := execute ⟨lease.provider.id, headers lease, payload⟩ reply
  note_eq _ _ := ⟨_, rfl⟩
  send_eq _ _ _ := ⟨_, rfl⟩

/-- After an error nothing else is done. -/
theorem orError_error_bind {β : Type} (error : AppError) (f : α → Dispatcher κ β) :
    orError (.error error) >>= f = orError (.error error) := rfl

/-- After a success the rest is done with the value. -/
theorem orError_ok_bind {β : Type} (a : α) (f : α → Dispatcher κ β) :
    orError (.ok a) >>= f = f a := rfl

/-- What follows the protocol is run at the end of each of its branches. -/
theorem protocol_bind (sender : Sender κ) (relay : Reply → UpstreamResponse → Dispatcher κ α) :
    protocol env around caller sender >>= (fun result => relay result.1 result.2) = (do
      let first ← orError (selectReadyProvider env around caller)
      sender.note first
      let response ← sender.send first around.firstReply
      let response ← trackUpstream first.provider.id (.live response) around.firstReply
      if retryable response.head.status then
        match retryProvider env around caller first.provider.id with
        | some second => do
          sender.note second
          let response ← sender.send second around.secondReply
          let response ← trackUpstream second.provider.id (.live response) around.secondReply
          relay around.secondReply response
        | none => relay around.firstReply response
      else relay around.firstReply response) := by
  simp only [protocol, exchange, bind_assoc]
  refine bind_congr fun first => bind_congr fun _ => bind_congr fun response =>
    bind_congr fun response => ?_
  by_cases hretry : retryable response.head.status = true
  · simp only [hretry, if_true]
    cases retryProvider env around caller first.provider.id with
    | none => rfl
    | some second => simp only [bind_assoc, pure_bind]
  · simp only [hretry]
    rfl

/-- `dispatch` up to its first selection. -/
def prepareJson (env : ProxyEnv) (inbound : Inbound) (identity : ApiIdentity) :
    Dispatcher Recording (List UInt8) := do
  let parsed := env.serde.fromSlice inbound.body
  recording (track (.setReasoningEffort (parsed.bind reasoningEffort)))
  recording (trackAffinity env identity (affinityKey inbound.headers parsed))
  orError (env.transformRequest inbound.path parsed)

/-- `dispatch` is the common protocol between its own preparation and its own relay. -/
theorem dispatch_eq (inbound : Inbound) (identity : ApiIdentity) (allProviders : Bool) :
    dispatch env around inbound identity allProviders =
      prepareJson env inbound identity >>= fun payload =>
        protocol env around (apiCaller identity allProviders (callAffinity identity.consumerId
          inbound.headers (env.serde.fromSlice inbound.body)))
          (apiSender env around.openaiBeta inbound payload []) >>= fun result =>
            relayJson env around inbound result.1 result.2 := by
  unfold dispatch prepareJson
  cases htransform : env.transformRequest inbound.path (env.serde.fromSlice inbound.body) with
  | error error => simp only [bind_assoc, htransform, orError_error_bind]
  | ok payload =>
    simp only [bind_assoc, htransform, orError_ok_bind, pure_bind, protocol_bind]
    rfl

/-- `dispatch_audio` up to its first selection. -/
def prepareAudio (env : ProxyEnv) (inbound : Inbound) (identity : ApiIdentity)
    (stored : Except AppError Spool) : Dispatcher Recording Spool := do
  recording (trackAffinity env identity (affinityKey inbound.headers none))
  let spool ← orError stored
  recording (track (.setRequest env.serde inbound.headers spool.preview spool.previewTruncated))
  recording (track (.setRequestSize spool.bytes))
  return spool

/-- `dispatch_audio` is the common protocol between its own preparation and its own relay. -/
theorem dispatchAudio_eq (inbound : Inbound) (identity : ApiIdentity) (allProviders : Bool)
    (stored : Except AppError Spool) :
    dispatchAudio env around inbound identity allProviders stored =
      prepareAudio env inbound identity stored >>= fun spool =>
        protocol env around (apiCaller identity allProviders (callAffinity identity.consumerId
          inbound.headers none))
          (apiSender env around.openaiBeta inbound spool.contents spool.contents) >>= fun result =>
            relayAudio env around result.1 result.2 := by
  unfold dispatchAudio prepareAudio
  simp only [bind_assoc, pure_bind, protocol_bind]
  rfl

/-- The caller that a console handler selects for. -/
def consoleCaller (user : UserIdentity) (providerAccess : Except AppError Int) : Caller :=
  ⟨user.id, isAdmin user || providerAccess.toOption.any (· ≠ 0), none⟩

/-- With access, the console calls on behalf of its user. -/
theorem consoleCaller_of_access {user : UserIdentity} {providerAccess : Except AppError Int}
    {allProviders : Bool} (h : consoleAccess user providerAccess = .ok allProviders) :
    consoleCaller user providerAccess = ⟨user.id, allProviders, none⟩ := by
  unfold consoleAccess at h
  unfold consoleCaller
  split at h
  · next hadmin =>
    cases h
    simp [hadmin]
  · next hadmin =>
    cases providerAccess with
    | error error => cases h
    | ok access =>
      cases h
      simp [hadmin, Except.toOption]

/-- `handle_console_transcription` up to its first selection. -/
def prepareTranscription (user : UserIdentity) (providerAccess : Except AppError Int)
    (stored : Except AppError Spool) : Dispatcher Unit Spool := do
  let _ ← orError (consoleAccess user providerAccess)
  orError stored

/-- The transcription of the console is the common protocol between its own preparation and its own
relay. -/
theorem handleConsoleTranscription_eq (user : UserIdentity) (providerAccess : Except AppError Int)
    (headers : HeaderMap) (stored : Except AppError Spool) :
    handleConsoleTranscription env around user providerAccess headers stored =
      prepareTranscription user providerAccess stored >>= fun spool =>
        protocol env around (consoleCaller user providerAccess)
          (consoleSender (fun lease => transcriptionHeaders lease headers) spool.contents) >>=
            fun result => relayTranscription env result.1 result.2 := by
  unfold handleConsoleTranscription prepareTranscription
  cases haccess : consoleAccess user providerAccess with
  | error error => simp only [orError_error_bind]
  | ok allProviders =>
    simp only [pure_bind, orError_ok_bind, protocol_bind, consoleCaller_of_access haccess]
    rfl

/-- `handle_console_image_generation` up to its first selection. -/
def prepareImages (env : ProxyEnv) (user : UserIdentity) (providerAccess : Except AppError Int)
    (body : List UInt8) : Dispatcher Unit (List UInt8) := do
  let _ ← orError (consoleAccess user providerAccess)
  let payload ← orError (((env.serde.fromSlice body).map Except.ok).getD
    (.error (.badRequest "JSON request body required")))
  orError (env.transformRequest imagesPath (some payload))

/-- The image generation of the console is the common protocol between its own preparation and its
own relay. -/
theorem handleConsoleImageGeneration_eq (user : UserIdentity)
    (providerAccess : Except AppError Int) (headers : HeaderMap) (body : List UInt8) :
    handleConsoleImageGeneration env around user providerAccess headers body =
      prepareImages env user providerAccess body >>= fun request =>
        protocol env around (consoleCaller user providerAccess)
          (consoleSender (fun lease => jsonRequestHeaders imagesPath lease headers
            around.openaiBeta) request) >>= fun result => relayImages env result.1 result.2 := by
  unfold handleConsoleImageGeneration prepareImages
  cases haccess : consoleAccess user providerAccess with
  | error error => simp only [orError_error_bind]
  | ok allProviders =>
    simp only [bind_assoc, pure_bind, orError_ok_bind, protocol_bind,
      consoleCaller_of_access haccess]
    rfl

end Instances

section Quiet

/-- Returning a result neither sends nor reports. -/
theorem quiet_orError (result : Except AppError α) : Quiet (orError result : Dispatcher κ α) :=
  .await _

/-- Nor does tracking. -/
theorem quiet_track (f : AuditTracker → AuditTracker) : Quiet (recording (track f)) :=
  quiet_recording (keeps_track f)

/-- Nor does relaying JSON. -/
theorem quiet_relayJson (inbound : Inbound) (reply : Reply) (upstream : UpstreamResponse) :
    Quiet (relayJson env around inbound reply upstream) := by
  unfold relayJson
  dsimp only
  split
  · exact quiet_recording (keeps_imageResponse _ _ _)
  · exact quiet_recording (keeps_relayResponse _ _ _)

/-- Nor does relaying a transcription. -/
theorem quiet_relayTranscription (reply : Reply) (upstream : UpstreamResponse) :
    Quiet (relayTranscription env reply upstream) := by
  unfold relayTranscription
  refine (quiet_orError _).bind fun body => ?_
  split
  · split
    · exact .throw _
    · split
      · exact .throw _
      · exact .pure _
  · exact .throw _

/-- Nor does relaying images. -/
theorem quiet_relayImages (reply : Reply) (upstream : UpstreamResponse) :
    Quiet (relayImages env reply upstream) := by
  unfold relayImages
  refine (quiet_orError _).bind fun body => ?_
  split
  · exact (quiet_orError _).bind fun found => .pure _
  · exact .throw _

end Quiet

/-- What is promised of the four dispatchers: each of their runs follows the protocol. -/
structure DispatchersFollow (retries : Reply → Prop) : Prop where
  json : ∀ env around inbound identity allProviders own,
    FollowsProtocol env around (apiCaller identity allProviders (callAffinity identity.consumerId
      inbound.headers (env.serde.fromSlice inbound.body))) retries (relayJson env around inbound)
      ((dispatch env around inbound identity allProviders).runFrom ⟨own, [], []⟩)
  audio : ∀ env around inbound identity allProviders stored own,
    FollowsProtocol env around (apiCaller identity allProviders (callAffinity identity.consumerId
      inbound.headers none)) retries (relayAudio env around)
      ((dispatchAudio env around inbound identity allProviders stored).runFrom ⟨own, [], []⟩)
  transcription : ∀ env around user providerAccess headers stored own,
    FollowsProtocol env around (consoleCaller user providerAccess) retries (relayTranscription env)
      ((handleConsoleTranscription env around user providerAccess headers stored).runFrom
        ⟨own, [], []⟩)
  imageGeneration : ∀ env around user providerAccess headers body own,
    FollowsProtocol env around (consoleCaller user providerAccess) retries (relayImages env)
      ((handleConsoleImageGeneration env around user providerAccess headers body).runFrom
        ⟨own, [], []⟩)

/-- **The four dispatchers follow the failover protocol.** A second provider is tried after a
status of 401, 403, 429 or 5xx, unless the status is 429 and the body, which the report needs,
breaks off. -/
theorem dispatchers_follow_protocol :
    DispatchersFollow fun reply =>
      FailsOver reply.status ∧ (reply.status = 429 → reply.body ≠ none) where
  json env around inbound identity allProviders own := by
    have hbefore : Quiet (prepareJson env inbound identity) :=
      (quiet_track _).bind fun _ => (quiet_track _).bind fun _ => quiet_orError _
    rw [dispatch_eq]
    exact followsProtocol_of_quiet hbefore
      (fun payload => apiSender env around.openaiBeta inbound payload [])
      (quiet_relayJson inbound) own
  audio env around inbound identity allProviders stored own := by
    have hbefore : Quiet (prepareAudio env inbound identity stored) :=
      (quiet_track _).bind fun _ => (quiet_orError _).bind fun _ => (quiet_track _).bind fun _ =>
        (quiet_track _).bind fun _ => .pure _
    rw [dispatchAudio_eq]
    exact followsProtocol_of_quiet hbefore
      (fun spool => apiSender env around.openaiBeta inbound spool.contents spool.contents)
      (fun _ _ => quiet_recording (keeps_relayResponse _ _ _)) own
  transcription env around user providerAccess headers stored own := by
    have hbefore : Quiet (prepareTranscription user providerAccess stored) :=
      (quiet_orError _).bind fun _ => quiet_orError _
    rw [handleConsoleTranscription_eq]
    exact followsProtocol_of_quiet hbefore
      (fun spool => consoleSender (fun lease => transcriptionHeaders lease headers) spool.contents)
      quiet_relayTranscription own
  imageGeneration env around user providerAccess headers body own := by
    have hbefore : Quiet (prepareImages env user providerAccess body) :=
      (quiet_orError _).bind fun _ => (quiet_orError _).bind fun _ => quiet_orError _
    rw [handleConsoleImageGeneration_eq]
    exact followsProtocol_of_quiet hbefore
      (fun request => consoleSender (fun lease => jsonRequestHeaders imagesPath lease headers
        around.openaiBeta) request)
      quiet_relayImages own

section BrokenLimit

/-- An environment in which nothing is parsed. -/
def plainEnv : ProxyEnv where
  serde := usageLimitSerde []
  affinityHash := id
  transformRequest _ _ := .ok []
  accepts _ _ := true

/-- A selection between two providers whose credentials do not expire. -/
def pairedSelection : SelectionAt where
  balancer := Node.paired.balancer
  now := 50
  refresh := ⟨50, .error .internal, .failed, .ok (), .ok 0, .ok ()⟩

/-- A response with status 429 whose connection breaks, and what a second provider would say. -/
def brokenLimit : Surroundings where
  ttl := 3600
  openaiBeta := none
  jwt := CredentialNode.accountCodec
  first := pairedSelection
  fallback := pairedSelection
  retry := pairedSelection
  firstReply := ⟨⟨429, .http11, .new⟩, none⟩
  secondReply := ⟨⟨200, .http11, .new⟩, some []⟩
  firstByteAt := 0
  finishedAt := 0
  created := 0

/-- The owner of both providers. -/
def owner : UserIdentity := ⟨"owner", none, none, "user"⟩

/-- An upload of one byte. -/
def upload : Spool := ⟨⟨[], true, 1⟩, [0]⟩

/-- The run of `handle_console_transcription` with that response. -/
def brokenRun : DispatcherRun Value :=
  (handleConsoleTranscription plainEnv brokenLimit owner (.ok 0) .new (.ok upload)).runFrom
    ⟨(), [], []⟩

/-- Without the exception the statement fails: the other provider is ready and is not tried. -/
theorem broken_limit_is_not_retried :
    ¬ DispatchersFollow fun reply => FailsOver reply.status := by
  intro h
  have hrequests : brokenRun.requests.map UpstreamRequest.providerId = ["p"] := by decide
  obtain ⟨request, hrequest, hid⟩ := List.map_eq_singleton_iff.mp hrequests
  have hready : AnotherReady plainEnv brokenLimit (consoleCaller owner (.ok 0)) "p" :=
    isSome_retryProvider.mp (by decide)
  have hsecond := (h.transcription plainEnv brokenLimit owner (.ok 0) .new (.ok upload)
    ()).second_iff request (by rw [← brokenRun, hrequest]; rfl)
  rw [← brokenRun, hrequest, hid] at hsecond
  have htwo := hsecond.mpr ⟨.inr (.inr (.inl rfl)), hready⟩
  cases htwo

end BrokenLimit

end Failover

end OpenAiLb
