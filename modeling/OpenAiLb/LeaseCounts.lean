import OpenAiLb.AffinityPhases
import OpenAiLb.StickyAffinity

/-!
# In-flight counters and live leases

`select` counts a lease when it hands one out, and `Lease::drop` takes it back. The leases
that are alive belong to the state here: a request may keep its lease through a failover, a
buffered or a streamed relay, or lose it in a refresh failure or a cancellation, and drops it
once, whenever that is. Between the choice of a provider and its count other operations run.
-/

namespace OpenAiLb

namespace Balancer

/-- `select` up to the counter: the chosen provider is remembered under the affinity key. -/
def remembered (affinityHash : String → String) (ttl : Int) (b : Balancer) (now : Int)
    (affinity : Option String) (providerId : String) : Balancer :=
  (affinity.map affinityHash).elim b fun hash => b.rememberAffinity hash providerId now ttl

/-- `inflight.entry(id).or_default().fetch_add(1)`. -/
def countLease (b : Balancer) (providerId : String) : Balancer :=
  { b with inflight := b.inflight.insert providerId ((b.inflightOf providerId + 1) % 2 ^ 64) }

/-- The two halves of `select`. -/
theorem leased_eq_countLease (affinityHash : String → String) (ttl : Int) (b : Balancer)
    (now : Int) (affinity : Option String) (chosen : Provider) :
    b.leased affinityHash ttl now affinity chosen =
      (b.remembered affinityHash ttl now affinity chosen.id).countLease chosen.id := rfl

/-- Remembering an affinity leaves the counts alone. -/
@[simp] theorem inflight_remembered (affinityHash : String → String) (ttl : Int) (b : Balancer)
    (now : Int) (affinity : Option String) (providerId : String) :
    (b.remembered affinityHash ttl now affinity providerId).inflight = b.inflight := by
  cases affinity <;> rfl

/-- Choosing moves no counter. -/
theorem inflight_choose (affinityHash : String → String) (b : Balancer) (now : Int)
    (affinity : Option String) (eligible : List Provider) :
    (b.choose affinityHash now affinity eligible).2.inflight = b.inflight := by
  rcases choose_frame affinityHash b now affinity eligible with heq | heq <;> rw [heq]

/-- Counters that are stored alike read alike. -/
theorem inflightOf_congr {b b' : Balancer} (h : b'.inflight = b.inflight) (id : String) :
    b'.inflightOf id = b.inflightOf id := by
  rw [inflightOf, h, inflightOf]

/-- Counting a lease adds one, modulo the range of the counter. -/
theorem inflightOf_countLease (b : Balancer) (providerId id : String) :
    (b.countLease providerId).inflightOf id =
      if id = providerId then (b.inflightOf providerId + 1) % 2 ^ 64 else b.inflightOf id := by
  unfold countLease inflightOf
  by_cases heq : id = providerId
  · rw [heq, AList.lookup_insert, if_pos rfl, Option.getD_some]
  · rw [AList.lookup_insert_ne heq, if_neg heq]

/-- A drop takes back one count where there is one. -/
theorem inflightOf_dropLease_self {b : Balancer} {providerId : String}
    (hpos : 0 < b.inflightOf providerId) (hfits : b.inflightOf providerId < 2 ^ 64) :
    (b.dropLease providerId).inflightOf providerId = b.inflightOf providerId - 1 := by
  obtain ⟨count, hcount⟩ : ∃ count, b.inflight.lookup providerId = some count := by
    cases h : b.inflight.lookup providerId with
    | none => simp [inflightOf, h] at hpos
    | some count => exact ⟨count, rfl⟩
  have hsame : b.inflightOf providerId = count := by rw [inflightOf, hcount, Option.getD_some]
  rw [hsame] at hpos hfits ⊢
  unfold dropLease inflightOf
  rw [hcount]
  dsimp only
  rw [AList.lookup_insert, Option.getD_some]
  omega

/-- A drop leaves the other counters alone. -/
theorem inflightOf_dropLease_of_ne (b : Balancer) {providerId id : String} (h : id ≠ providerId) :
    (b.dropLease providerId).inflightOf id = b.inflightOf id := by
  unfold dropLease
  split
  · rw [inflightOf, AList.lookup_insert_ne h, inflightOf]
  · rfl

/-- Forgetting a provider leaves the other counters alone. -/
theorem inflightOf_forgetProvider (b : Balancer) {providerId id : String} (h : id ≠ providerId) :
    (b.forgetProvider providerId).inflightOf id = b.inflightOf id := by
  unfold forgetProvider inflightOf
  rw [AList.lookup_erase_ne h]

/-- A maintenance run leaves the counters alone. -/
theorem inflight_afterCommit (b : Balancer) (now : Int) (updates : List (String × ProviderUpdate))
    (persisted : List (String × AffinityEntry × Bool)) :
    (b.afterCommit now updates persisted).inflight = b.inflight := by
  unfold afterCommit recoverCachedProviders
  dsimp only
  rw [(frame_cleanAffinities persisted _).inflight]

end Balancer

/-- The node, the selections under way and the leases that are alive. -/
structure LeaseNode extends Node where
  /-- The provider of each selection that has chosen one and not counted it yet. -/
  choosing : List String
  /-- The provider of each lease that is alive; `Lease::drop` reads no other field. -/
  leases : List String
  /-- A lease is an object in memory, so `usize` counts all that are alive. -/
  addressable : leases.length < 2 ^ 64

/-- One step beside others. -/
inductive LeaseStep where
  /-- `select` up to the counter. -/
  | choose (now : Int) (userId : String) (allProviders : Bool) (affinity excluded : Option String)
  /-- The rest of `select`: the counter moves and the lease is handed out. -/
  | lease (providerId : String)
  /-- `Lease::drop`, on whatever path the lease ends. -/
  | drop (providerId : String)
  /-- An operation that neither selects nor drops. -/
  | other (op : Operation)

/-- The operations that select or drop have steps of their own. -/
def Operation.movesLeases : Operation → Bool
  | .select .. | .dropLease _ => true
  | _ => false

namespace LeaseNode

/-- A process that has hydrated from the database: no request has come in yet. -/
def hydrated (db : Database) (now : Int) : LeaseNode where
  db := db
  balancer := Balancer.default.hydrate db now
  clock := now
  choosing := []
  leases := []
  addressable := by decide

variable (env : Environment)

/-- The steps. -/
def step (s : LeaseNode) : LeaseStep → Option LeaseNode
  | .choose now userId allProviders affinity excluded =>
    if s.clock ≤ now then
      let eligible := s.balancer.eligible now userId allProviders excluded
      if eligible = [] then some { s with clock := now }
      else
        match s.balancer.choose env.affinityHash now affinity eligible with
        | (none, balancer) => some { s with clock := now, balancer := balancer }
        | (some chosen, balancer) => some
          { s with
            clock := now
            balancer := balancer.remembered env.affinityHash env.affinityTtl now affinity chosen.id
            choosing := chosen.id :: s.choosing }
    else none
  | .lease providerId =>
    if h : providerId ∈ s.choosing ∧ (providerId :: s.leases).length < 2 ^ 64 then some
      { s with
        balancer := s.balancer.countLease providerId
        choosing := s.choosing.erase providerId
        leases := providerId :: s.leases
        addressable := h.2 }
    else none
  | .drop providerId =>
    if providerId ∈ s.leases then some
      { s with
        balancer := s.balancer.dropLease providerId
        leases := s.leases.erase providerId
        addressable := Nat.lt_of_le_of_lt List.length_erase_le s.addressable }
    else none
  | .other op =>
    if op.movesLeases then none
    else (s.toNode.step env op).map fun node => { s with toNode := node }

/-- A run of the steps. -/
abbrev run (s : LeaseNode) (steps : List LeaseStep) : Option LeaseNode :=
  Transition.run (step env) s steps

/-- The state after a run of the steps. -/
abbrev after (s : LeaseNode) (steps : List LeaseStep) : LeaseNode :=
  Transition.after (step env) s steps

variable {env : Environment} {s t : LeaseNode} {p : String}

/-- **The two halves of a selection refine `select`**: with nothing between them they are the
selection of the node, and its lease is alive afterwards. -/
theorem run_select {now : Int} {userId : String} {allProviders : Bool}
    {affinity excluded : Option String} {lease : Lease} {balancer : Balancer}
    (hclock : s.clock ≤ now) (hroom : (lease.provider.id :: s.leases).length < 2 ^ 64)
    (hselect : s.balancer.select env.affinityHash env.affinityTtl now userId allProviders affinity
      excluded = .ok (lease, balancer)) :
    ∃ t, s.run env [.choose now userId allProviders affinity excluded,
        .lease lease.provider.id] = some t ∧
      s.toNode.step env (.select now userId allProviders affinity excluded) = some t.toNode ∧
      t.choosing = s.choosing ∧ t.leases = lease.provider.id :: s.leases := by
  have hnil : s.balancer.eligible now userId allProviders excluded ≠ [] := by
    intro hnil
    rw [Balancer.select, if_pos hnil] at hselect
    cases hselect
  obtain ⟨chosen, mid, hchoose, -⟩ :=
    Balancer.choose_spec env.affinityHash s.balancer now affinity hnil
  rw [Balancer.select_of_choose env.affinityHash env.affinityTtl hnil hchoose] at hselect
  cases hselect
  refine ⟨⟨⟨s.db, mid.leased env.affinityHash env.affinityTtl now affinity chosen, now⟩,
    s.choosing, chosen.id :: s.leases, hroom⟩, ?_, ?_, rfl, rfl⟩
  · have hlease : chosen.id ∈ chosen.id :: s.choosing ∧
        (chosen.id :: s.leases).length < 2 ^ 64 := ⟨List.mem_cons_self, hroom⟩
    simp only [run, Transition.run_cons, step, hclock, hnil, hchoose, if_true, if_false,
      Option.bind_some, dif_pos hlease, Transition.run_nil, List.erase_cons_head,
      Balancer.leased_eq_countLease]
  · simp only [Node.step, hclock, if_true,
      Balancer.select_of_choose env.affinityHash env.affinityTtl hnil hchoose]

/-- The counter of the provider is the number of its leases. -/
def Counted (p : String) (s : LeaseNode) : Prop := s.balancer.inflightOf p = s.leases.count p

/-- A process that has just started has no lease and no counter. -/
theorem counted_hydrated (db : Database) (now : Int) (p : String) : (hydrated db now).Counted p :=
  rfl

/-- A counted provider has as many leases as fit. -/
theorem Counted.lt (h : s.Counted p) : s.balancer.inflightOf p < 2 ^ 64 := by
  have hle : s.leases.count p ≤ s.leases.length := List.count_le_length
  have hfits := s.addressable
  rw [Counted] at h
  omega

/-- An operation that neither selects nor drops moves no counter of a provider it does not
forget. -/
theorem inflightOf_of_step {s t : Node} {op : Operation} (hmoves : op.movesLeases = false)
    (hop : op ≠ .forgetProvider p) (hstep : s.step env op = some t) :
    t.balancer.inflightOf p = s.balancer.inflightOf p := by
  cases op with
  | select | dropLease => cases hmoves
  | trackResponse | maintainFailed =>
    simp only [Node.step, Option.ite_none_right_eq_some, Option.some.injEq] at hstep
    obtain ⟨-, rfl⟩ := hstep
    rfl
  | reloadProviders =>
    cases hstep
    rfl
  | execute =>
    simp only [Node.step] at hstep
    split at hstep <;> cases hstep <;> rfl
  | maintain now updates affinities =>
    simp only [Node.step, Option.ite_none_right_eq_some, Option.some.injEq] at hstep
    obtain ⟨-, rfl⟩ := hstep
    unfold Node.maintain
    split
    · exact Balancer.inflightOf_congr (Balancer.inflight_afterCommit ..) p
    · rfl
  | forgetProvider providerId =>
    simp only [Node.step, Option.ite_none_right_eq_some, Option.some.injEq] at hstep
    obtain ⟨-, rfl⟩ := hstep
    have hne : p ≠ providerId := fun heq => hop (heq ▸ rfl)
    exact Balancer.inflightOf_forgetProvider s.balancer hne

/-- **Step lemma**: every step moves the counter of the provider and the number of its leases
alike, unless it forgets the provider. -/
theorem Counted.step {op : LeaseStep} (h : s.Counted p) (hop : op ≠ .other (.forgetProvider p))
    (hstep : s.step env op = some t) : t.Counted p := by
  have hlt := h.lt
  cases op with
  | choose now userId allProviders affinity excluded =>
    simp only [LeaseNode.step, Option.ite_none_right_eq_some] at hstep
    obtain ⟨-, hstep⟩ := hstep
    have hchosen := Balancer.inflight_choose env.affinityHash s.balancer now affinity
      (s.balancer.eligible now userId allProviders excluded)
    split at hstep
    · cases hstep
      exact h
    · split at hstep
      · next balancer hchoose =>
        cases hstep
        rw [hchoose] at hchosen
        exact (Balancer.inflightOf_congr hchosen p).trans h
      · next chosen balancer hchoose =>
        cases hstep
        rw [hchoose] at hchosen
        refine (Balancer.inflightOf_congr ?_ p).trans h
        rw [Balancer.inflight_remembered]
        exact hchosen
  | lease providerId =>
    simp only [LeaseNode.step] at hstep
    split at hstep
    · next hroom =>
      cases hstep
      have hfits : (providerId :: s.leases).count p ≤ (providerId :: s.leases).length :=
        List.count_le_length
      rw [Counted] at h ⊢
      rw [Balancer.inflightOf_countLease]
      by_cases heq : p = providerId
      · subst heq
        rw [if_pos rfl, List.count_cons_self, ← h]
        rw [List.count_cons_self, ← h] at hfits
        exact Nat.mod_eq_of_lt (Nat.lt_of_le_of_lt hfits hroom.2)
      · rw [if_neg heq, List.count_cons_of_ne (Ne.symm heq), h]
    · cases hstep
  | drop providerId =>
    simp only [LeaseNode.step, Option.ite_none_right_eq_some, Option.some.injEq] at hstep
    obtain ⟨hmem, rfl⟩ := hstep
    rw [Counted] at h ⊢
    by_cases heq : p = providerId
    · subst heq
      have hpos : 0 < s.balancer.inflightOf p := h ▸ List.count_pos_iff.mpr hmem
      rw [Balancer.inflightOf_dropLease_self hpos hlt, List.count_erase_self, h]
    · have hother : p ≠ providerId := heq
      rw [Balancer.inflightOf_dropLease_of_ne s.balancer hother,
        List.count_erase_of_ne hother, h]
  | other op =>
    simp only [LeaseNode.step] at hstep
    split at hstep
    · cases hstep
    · next hmoves =>
      obtain ⟨node, hnode, rfl⟩ := Option.map_eq_some_iff.mp hstep
      have hforget : op ≠ .forgetProvider p := fun heq => hop (heq ▸ rfl)
      exact (inflightOf_of_step (by simpa using hmoves) hforget hnode).trans h

/-- **In-flight counters are live leases.** From the start of the process on, whatever
selections, drops, observations, reloads, maintenance runs, handler statements and deletions run
in whatever order, the counter of a provider that was not forgotten is the number of its leases
that are alive: it is not zero when one of them is dropped, and it is zero when there is none. -/
theorem inflight_eq_leases {db : Database} {now : Int} {steps : List LeaseStep}
    (hrun : (hydrated db now).run env steps = some s)
    (hkept : ∀ op ∈ steps, op ≠ .other (.forgetProvider p)) :
    s.balancer.inflightOf p = s.leases.count p ∧
      (p ∈ s.leases → 0 < s.balancer.inflightOf p ∧
        (s.balancer.dropLease p).inflightOf p = s.balancer.inflightOf p - 1) ∧
      (p ∉ s.leases → s.balancer.inflightOf p = 0) := by
  have hok : Transition.Guarded (step env)
      (fun _ op => op ≠ .other (.forgetProvider p) ∧ True) (hydrated db now) steps :=
    (Transition.guarded_of_forall (fun _ _ => trivial) _ steps).and_of_mem hkept
  have hcounted : s.Counted p :=
    Transition.invariant_of_guarded (fun h hop hstep => Counted.step h hop.1 hstep) hok hrun
      (counted_hydrated db now p)
  refine ⟨hcounted, fun hmem => ?_, fun hmem => ?_⟩
  · have hpos : 0 < s.balancer.inflightOf p := by
      rw [hcounted]
      exact List.count_pos_iff.mpr hmem
    exact ⟨hpos, Balancer.inflightOf_dropLease_self hpos hcounted.lt⟩
  · rw [hcounted]
    exact List.count_eq_zero.mpr hmem

/-- Two leases of one provider, one of them dropped, and the other provider deleted. -/
def overlapping : List LeaseStep :=
  [.choose 50 "owner" false (some "k") none, .choose 50 "owner" false (some "k") none, .lease "p",
    .other (.trackResponse 51 "p" "c" 200 []), .lease "p", .drop "p",
    .other (.execute (.deleteProvider "q")), .other (.forgetProvider "q"),
    .other .reloadProviders]

/-- The statement at this run. -/
theorem inflight_eq_leases_overlapping :
    ((hydrated Node.paired.db 40).after usageLimitEnvironment
      overlapping).balancer.inflightOf "p" = 1 := by
  have hrun : (hydrated Node.paired.db 40).run usageLimitEnvironment overlapping =
      some ((hydrated Node.paired.db 40).after usageLimitEnvironment overlapping) :=
    Transition.run_eq_some_after (by decide)
  have hkept : ∀ op ∈ overlapping, op ≠ .other (.forgetProvider "p") := by
    simp [overlapping]
  have hcount := (inflight_eq_leases hrun hkept).1
  rw [hcount]
  decide

end LeaseNode

end OpenAiLb
