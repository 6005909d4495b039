import OpenAiLb.CredentialChanges

/-!
# Authentication errors in the rotation

The last response that says something about the status of a provider decides. After a 401 or 403
the provider is out of the rotation; a later usage-limit response replaces the authentication
error by a cooldown, and when its deadline has passed the provider is back. Under the traffic of
responses, maintenance runs and selections this is the only way back.
-/

namespace OpenAiLb

/-- What a cached row shows of the last word on its status: an authentication error, or a cooldown
that is released once its deadline has passed. -/
inductive Shows (clock : Int) (row : Provider) (last : ProviderUpdate) : Prop
  | rejected (hrow : row.status = .authError) (hlast : last.cooldownUntil = none)
  | limited {deadline : Int} (hrow : row.status = .cooldown)
    (huntil : row.cooldownUntil = some deadline) (hlast : last.cooldownUntil = some deadline)
  | released {deadline : Int} (hrow : row.status = .active)
    (hlast : last.cooldownUntil = some deadline) (hpassed : deadline ≤ clock)

section Shows

variable {clock now : Int} {row : Provider} {last : ProviderUpdate}

/-- The last word stays what it is as long as the row does not change. -/
theorem Shows.mono (h : Shows clock row last) (hle : clock ≤ now) {row' : Provider}
    (hstatus : row'.status = row.status) (huntil : row'.cooldownUntil = row.cooldownUntil) :
    Shows now row' last := by
  cases h with
  | rejected hrow hlast => exact .rejected (hstatus.trans hrow) hlast
  | limited hrow hdeadline hlast =>
    exact .limited (hstatus.trans hrow) (huntil.trans hdeadline) hlast
  | released hrow hlast hpassed => exact .released (hstatus.trans hrow) hlast (hpassed.trans hle)

/-- A recovery releases the row only after the deadline. -/
theorem Shows.recover (h : Shows clock row last) (hle : clock ≤ now) :
    Shows now (recoverRow now row) last := by
  by_cases hexpired : isExpiredCooldown now row = true
  · have hrow : recoverRow now row = releaseCooldown now row := if_pos hexpired
    simp only [isExpiredCooldown, Bool.and_eq_true, decide_eq_true_eq] at hexpired
    rw [hrow]
    cases h with
    | rejected hstatus =>
      have hcooldown := hexpired.1.2
      rw [hstatus] at hcooldown
      cases hcooldown
    | @limited deadline hstatus hdeadline hlast =>
      have hdue : deadline ≤ now := by simpa [hdeadline] using hexpired.2
      exact .released rfl hlast hdue
    | released hstatus hlast hpassed => exact .released rfl hlast (hpassed.trans hle)
  · rw [recoverRow, if_neg hexpired]
    exact h.mono hle rfl rfl

/-- A new word on the status of an enabled row is shown. -/
theorem shows_observeRow {circuitId : String} {update : ProviderUpdate}
    (hobserved : Observed now circuitId update) (hstatus : update.status.isSome = true)
    (henabled : row.manualDisabled = false) : Shows now (observeRow update row) update := by
  cases hobserved with
  | statusless => cases hstatus
  | authError status rateJson =>
    exact .rejected (by simp [observeRow, henabled, authErrorUpdate]) rfl
  | @usageLimit rateJson cooldown hahead =>
    have hdeadline : (usageLimitUpdate circuitId rateJson now cooldown).cooldownUntil =
        some cooldown := rfl
    refine .limited ?_ ?_ hdeadline
    · simp [observeRow, henabled, usageLimitUpdate]
    · simp [observeRow, henabled, usageLimitUpdate]

/-- **When a row that shows the last word is available.** -/
theorem Shows.available_iff (h : Shows clock row last) (henabled : row.manualDisabled = false)
    (hle : clock ≤ now) :
    providerIsAvailable row now = true ↔ last.cooldownUntil.any (· ≤ now) = true := by
  cases h with
  | rejected hrow hlast => simp [providerIsAvailable, hrow, hlast]
  | limited hrow huntil hlast => simp [providerIsAvailable, henabled, hrow, huntil, hlast]
  | released hrow hlast hpassed =>
    simpa [providerIsAvailable, henabled, hrow, hlast] using hpassed.trans hle

end Shows

namespace Node

variable {env : Environment} {p : String} {s t : Node}

/-- The last word on the status of the provider: the one of an operation, or else the old one. -/
def lastWord (env : Environment) (p : String) (last : ProviderUpdate) (op : Operation) :
    ProviderUpdate :=
  ((observedUpdate env p op).filter fun update => update.status.isSome).getD last

/-- The cached row of the provider is disabled, or shows the last word. -/
def ShowsLast (p : String) (s : Node) (last : ProviderUpdate) : Prop :=
  ∀ row, s.balancer.providers.find? p = some row →
    row.manualDisabled = true ∨ Shows s.clock row last

/-- The cached row is changed in a way that keeps the switch. -/
theorem ShowsLast.map {last new : ProviderUpdate} (h : s.ShowsLast p last)
    {f : Provider → Provider} (hswitch : ∀ row, (f row).manualDisabled = row.manualDisabled)
    (hrows : t.balancer.providers.find? p = (s.balancer.providers.find? p).map f)
    (hshows : ∀ row, row.manualDisabled = false → Shows s.clock row last →
      Shows t.clock (f row) new) : t.ShowsLast p new := by
  intro row hrow
  rw [hrows] at hrow
  obtain ⟨old, hold, rfl⟩ := Option.map_eq_some_iff.mp hrow
  rcases h old hold with hdisabled | hold
  · exact .inl ((hswitch old).trans hdisabled)
  · cases hdisabled : old.manualDisabled with
    | true => exact .inl ((hswitch old).trans hdisabled)
    | false => exact .inr (hshows old hdisabled hold)

/-- The cached row is not changed, and time passes. -/
theorem ShowsLast.later {last : ProviderUpdate} (h : s.ShowsLast p last)
    (hrows : t.balancer.providers = s.balancer.providers) (hclock : s.clock ≤ t.clock) :
    t.ShowsLast p last := by
  refine h.map (f := id) (fun _ => rfl) ?_ fun row _ hshows => hshows.mono hclock rfl rfl
  rw [hrows, Option.map_id, id]

/-- An observation leaves the cached row with the last word. -/
theorem ShowsLast.observe {last : ProviderUpdate} (h : s.ShowsLast p last) {now : Int}
    {circuitId : String} {update : ProviderUpdate} (hclock : s.clock ≤ now)
    (hobserved : Observed now circuitId update) :
    ShowsLast p { s with clock := now, balancer := s.balancer.observe p update }
      (if update.status.isSome then update else last) := by
  refine h.map (f := observeRow update) (fun _ => rfl) ?_ fun row henabled hshows => ?_
  · simp [Balancer.observe]
  · split
    · next hstatus => exact shows_observeRow hobserved hstatus henabled
    · next hstatus =>
      have hnone : update.status = none := by simpa using hstatus
      exact hshows.mono hclock (by simp [observeRow, hnone]) (by simp [observeRow, hnone])

/-- **Step lemma**: under the traffic of the node the cached row shows the last word. -/
theorem ShowsLast.step {last : ProviderUpdate} (h : s.ShowsLast p last) {op : Operation}
    (htraffic : isTraffic op = true) (hstep : s.step env op = some t) :
    t.ShowsLast p (lastWord env p last op) := by
  cases op with
  | trackResponse now providerId circuitId status body =>
    simp only [Node.step, Option.ite_none_right_eq_some, Option.some.injEq] at hstep
    obtain ⟨hclock, rfl⟩ := hstep
    by_cases heq : providerId = p
    · subst heq
      have hshown := h.observe hclock (trackResponse_observed env.serde now circuitId status body)
      have hlast : lastWord env providerId last
          (.trackResponse now providerId circuitId status body) =
          if (trackResponse env.serde now circuitId status body).status.isSome then
            trackResponse env.serde now circuitId status body
          else last := by
        simp only [lastWord, observedUpdate, if_true, Option.filter]
        split <;> rfl
      rw [hlast]
      exact hshown
    · have hlast : lastWord env p last (.trackResponse now providerId circuitId status body) =
          last := by simp [lastWord, observedUpdate, heq]
      rw [hlast]
      refine h.map (f := id) (fun _ => rfl) ?_ fun row _ hshows => hshows.mono hclock rfl rfl
      simp [Balancer.observe, Ne.symm heq]
  | maintain now updates affinities =>
    simp only [Node.step, Option.ite_none_right_eq_some, Option.some.injEq] at hstep
    obtain ⟨⟨hclock, -, -⟩, rfl⟩ := hstep
    unfold maintain
    split
    · refine h.map (f := recoverRow now) (recoverRow_manualDisabled now) ?_ fun row _ hshows =>
        hshows.recover hclock
      rw [Balancer.providers_afterCommit, Snapshot.find?_recover]
    · exact h.later rfl hclock
  | maintainFailed now =>
    simp only [Node.step, Option.ite_none_right_eq_some, Option.some.injEq] at hstep
    obtain ⟨hclock, rfl⟩ := hstep
    exact h.later rfl hclock
  | select now userId allProviders affinity excluded =>
    simp only [Node.step, Option.ite_none_right_eq_some] at hstep
    obtain ⟨hclock, hstep⟩ := hstep
    split at hstep
    · next hselect =>
      cases hstep
      exact h.later (Balancer.select_frame hselect).1 hclock
    · cases hstep
      exact h.later rfl hclock
  | dropLease providerId =>
    cases hstep
    refine h.later ?_ le_rfl
    unfold Balancer.dropLease
    split <;> rfl
  | reloadProviders | execute | forgetProvider => cases htraffic

/-- A 401 or 403 is shown, whatever was known before. -/
theorem showsLast_of_rejection {now : Int} {circuitId : String} {status : ℕ} {body : List UInt8}
    (hstatus : status = 401 ∨ status = 403)
    (hstep : s.step env (.trackResponse now p circuitId status body) = some t) :
    t.ShowsLast p (trackResponse env.serde now circuitId status body) := by
  simp only [Node.step, Option.ite_none_right_eq_some, Option.some.injEq] at hstep
  obtain ⟨-, rfl⟩ := hstep
  have hsome : (trackResponse env.serde now circuitId status body).status.isSome = true := by
    rw [trackResponse, if_pos hstatus]
    rfl
  intro row hrow
  simp only [Balancer.observe, Snapshot.find?_observe, if_true, Option.map_eq_some_iff] at hrow
  obtain ⟨old, -, rfl⟩ := hrow
  cases hdisabled : old.manualDisabled with
  | true => exact .inl hdisabled
  | false =>
    exact .inr (shows_observeRow (trackResponse_observed ..) hsome hdisabled)

/-- The snapshot has the provider, and it is available. -/
def inRotation (s : Node) (p : String) (now : Int) : Prop :=
  ∃ row, s.balancer.providers.find? p = some row ∧ providerIsAvailable row now = true

/-- A selection only returns what is in the rotation. -/
theorem inRotation_of_select {now : Int} {userId : String} {allProviders : Bool}
    {affinity excluded : Option String} {lease : Lease} {balancer : Balancer}
    (hselect : s.balancer.select env.affinityHash env.affinityTtl now userId allProviders affinity
      excluded = .ok (lease, balancer)) : s.inRotation lease.provider.id now := by
  obtain ⟨hrow, havailable, -⟩ :=
    Balancer.mem_eligible.mp (Balancer.select_mem_eligible hselect).1
  exact ⟨lease.provider, Table.find?_of_mem hrow, havailable⟩

/-- **After a 401 or 403 only an expired usage limit brings the provider back.** Whatever responses,
maintenance runs and selections follow, a selection returns the provider only if the last of the
responses that says something about its status is a usage-limit response, and its deadline has
passed; and an enabled provider is in the rotation exactly then. -/
theorem inRotation_after_rejection {s₀ : Node} {at' now : Int} {circuitId : String} {status : ℕ}
    {body : List UInt8} {operations : List Operation} (hstatus : status = 401 ∨ status = 403)
    (hreject : s₀.step env (.trackResponse at' p circuitId status body) = some s)
    (htraffic : ∀ op ∈ operations, isTraffic op = true)
    (hrun : s.run env operations = some t) (hnow : t.clock ≤ now) :
    let last := operations.foldl (lastWord env p)
      (trackResponse env.serde at' circuitId status body)
    (∀ {userId : String} {allProviders : Bool} {affinity excluded : Option String} {lease : Lease}
      {balancer : Balancer},
      t.balancer.select env.affinityHash env.affinityTtl now userId allProviders affinity excluded =
        .ok (lease, balancer) →
      lease.provider.id = p → last.cooldownUntil.any (· ≤ now) = true) ∧
    ∀ row, t.balancer.providers.find? p = some row → row.manualDisabled = false →
      (t.inRotation p now ↔ last.cooldownUntil.any (· ≤ now) = true) := by
  intro last
  have hok : Transition.Guarded (Node.step env) (fun _ op => isTraffic op = true ∧ True) s
      operations :=
    (Transition.guarded_of_forall (fun _ _ => trivial) s operations).and_of_mem htraffic
  have hshown : t.ShowsLast p last := by
    have hlast : Transition.follow (Node.step env) (fun _ => lastWord env p) s
        (trackResponse env.serde at' circuitId status body) operations = last :=
      Transition.follow_eq_foldl _ _ hrun
    rw [← hlast]
    refine Transition.simulation_of_guarded ?_ hok hrun (showsLast_of_rejection hstatus hreject)
    exact fun h hop hstep => h.step hop.1 hstep
  have havailable : ∀ row, t.balancer.providers.find? p = some row →
      providerIsAvailable row now = true → last.cooldownUntil.any (· ≤ now) = true := by
    intro row hrow hrowAvailable
    have henabled : row.manualDisabled = false := (providerIsAvailable_iff.mp hrowAvailable).1
    rcases hshown row hrow with hdisabled | hshows
    · rw [henabled] at hdisabled
      cases hdisabled
    · exact (hshows.available_iff henabled hnow).mp hrowAvailable
  constructor
  · rintro userId allProviders affinity excluded lease balancer hselect rfl
    obtain ⟨row, hrow, hrowAvailable⟩ := inRotation_of_select hselect
    exact havailable row hrow hrowAvailable
  · intro row hrow henabled
    constructor
    · rintro ⟨found, hfound, hfoundAvailable⟩
      exact havailable found hfound hfoundAvailable
    · intro hexpired
      rcases hshown row hrow with hdisabled | hshows
      · rw [henabled] at hdisabled
        cases hdisabled
      · exact ⟨row, hrow, (hshows.available_iff henabled hnow).mpr hexpired⟩

/-- A response in flight answers 200, a maintenance run and a selection follow the 401. -/
def quietTraffic : List Operation :=
  [.trackResponse 101 "p" "d" 200 [], .maintain 102 (rejected.after usageLimitEnvironment
    [.trackResponse 101 "p" "d" 200 []]).balancer.pendingUpdates [],
    .select 103 "owner" false none none]

/-- The statement for a provider that answers 401 and then nothing that limits it. -/
theorem inRotation_after_rejection_quiet :
    ¬(rejected.after usageLimitEnvironment quietTraffic).inRotation "p" 1000 := by
  have hreject : loaded.step usageLimitEnvironment (.trackResponse 100 "p" "c" 401 []) =
      some rejected := rfl
  have hrun : rejected.run usageLimitEnvironment quietTraffic =
      some (rejected.after usageLimitEnvironment quietTraffic) := rfl
  have hnow : (rejected.after usageLimitEnvironment quietTraffic).clock ≤ 1000 := by decide
  obtain ⟨-, hrotation⟩ :=
    inRotation_after_rejection (.inl rfl) hreject (by decide) hrun hnow
  intro hback
  obtain ⟨row, hrow, havailable⟩ := id hback
  have hexpired := (hrotation row hrow (providerIsAvailable_iff.mp havailable).1).mp hback
  exact absurd hexpired (by decide)

/-- **A usage limit in flight takes an authentication error back.** The provider answers 401, then a
request that was in flight is answered with a usage limit until second 200, and at second 200 the
provider is selected again. -/
theorem usageLimit_undoes_rejection :
    ∃ limitedAgain back lease,
      loaded.step usageLimitEnvironment (.trackResponse 100 "p" "c" 401 []) = some rejected ∧
      rejected.run usageLimitEnvironment [.trackResponse 101 "p" "d" 429 (usageLimitBody 200)] =
        some limitedAgain ∧
      limitedAgain.balancer.select id 3600 200 "owner" false none none = .ok (lease, back) ∧
      lease.provider.id = "p" :=
  ⟨_, _, _, rfl, rfl, rfl, rfl⟩

end Node

end OpenAiLb
