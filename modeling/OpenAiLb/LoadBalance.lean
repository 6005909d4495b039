import OpenAiLb.LeaseCounts
import OpenAiLb.Library.RoundRobin

/-!
# Selecting without an affinity

Without an affinity key `select` takes the first provider with the least counter, in the cyclic
order of the eligible ones from the cursor. So the counters stay level while no lease is
dropped, and idle providers take turns until the cursor wraps. `select` has no `await` in it: a
call of it is one step here.
-/

namespace OpenAiLb

/-- What `min_by_key` finds. -/
theorem firstLeast_minByKey {α : Type*} {f : α → ℕ} {l : List α} {a : α}
    (h : minByKey f l = some a) : FirstLeast f l a := by
  induction l generalizing a with
  | nil => cases h
  | cons x rest ih =>
    rw [minByKey] at h
    split at h
    · next hnone =>
      obtain rfl := Option.some.inj h
      have hnil : rest = [] := by
        by_contra hne
        have hsome := minByKey_isSome (f := f) hne
        rw [hnone] at hsome
        cases hsome
      rw [hnil]
      exact ⟨[], [], rfl, by simp, by simp⟩
    · next b hb =>
      have hleast := ih hb
      split at h
      · next hle =>
        obtain rfl := Option.some.inj h
        refine ⟨[], rest, rfl, by simp, ?_⟩
        intro c hc
        exact hle.trans (hleast.le c hc)
      · next hlt =>
        obtain rfl := Option.some.inj h
        rcases hleast with ⟨before, after, rfl, hbefore, hafter⟩
        refine ⟨x :: before, after, rfl, ?_, hafter⟩
        intro c hc
        rcases List.mem_cons.mp hc with rfl | hc
        · omega
        · exact hbefore c hc

namespace Balancer

/-- The cursor moves on, and wraps. -/
def turned (b : Balancer) : Balancer := { b with cursor := (b.cursor + 1) % 2 ^ 64 }

@[simp] theorem inflightOf_turned (b : Balancer) (id : String) :
    b.turned.inflightOf id = b.inflightOf id := rfl

variable (affinityHash : String → String) (ttl : Int) {b : Balancer} {now : Int} {userId : String}
  {allProviders : Bool} {excluded : Option String} {ps : List Provider}

/-- **A selection without an affinity** takes the first eligible provider with the least counter,
in cyclic order from the cursor; the cursor and the counter move on. -/
theorem select_without_affinity (hps : b.eligible now userId allProviders excluded = ps)
    (hne : ps ≠ []) :
    ∃ chosen, FirstLeast (fun provider => b.inflightOf provider.id) (ps.rotate b.cursor) chosen ∧
      b.select affinityHash ttl now userId allProviders none excluded =
        .ok (⟨chosen, chosen.accessToken, chosen.refreshToken⟩, b.turned.countLease chosen.id) := by
  have hnonempty : b.eligible now userId allProviders excluded ≠ [] := hps ▸ hne
  obtain ⟨chosen, mid, hchoose, -⟩ := choose_spec affinityHash b now none hnonempty
  have hselect := select_of_choose affinityHash ttl hnonempty hchoose
  rw [hps] at hchoose
  obtain ⟨hleast, rfl⟩ := Prod.mk.inj hchoose
  rw [← List.rotate_eq_drop_append_take_mod] at hleast
  exact ⟨chosen, firstLeast_minByKey hleast, hselect⟩

end Balancer

/-- A call beside others. -/
inductive LeaseCall where
  | select (now : Int) (userId : String) (allProviders : Bool) (affinity excluded : Option String)
  | drop (providerId : String)
  /-- An operation that neither selects nor drops. -/
  | other (op : Operation)

namespace LeaseNode

variable (env : Environment)

/-- The calls, each of them one step. -/
def call (s : LeaseNode) : LeaseCall → Option LeaseNode
  | .select now userId allProviders affinity excluded =>
    if s.clock ≤ now then
      match s.balancer.select env.affinityHash env.affinityTtl now userId allProviders affinity
          excluded with
      | .error _ => some { s with clock := now }
      | .ok (lease, balancer) =>
        if h : (lease.provider.id :: s.leases).length < 2 ^ 64 then some
          { s with
            clock := now
            balancer := balancer
            leases := lease.provider.id :: s.leases
            addressable := h }
        else none
    else none
  | .drop providerId => s.step env (.drop providerId)
  | .other op => s.step env (.other op)

/-- A run of the calls. -/
abbrev calls (s : LeaseNode) (run : List LeaseCall) : Option LeaseNode :=
  Transition.run (call env) s run

/-- The state after a run of the calls. -/
abbrev afterCalls (s : LeaseNode) (run : List LeaseCall) : LeaseNode :=
  Transition.after (call env) s run

variable {env : Environment} {s t : LeaseNode} {ps : List Provider} {now : Int} {userId : String}
  {allProviders : Bool} {affinity excluded : Option String}

/-- **A call of `select` is its two halves**, with nothing between them. -/
theorem run_of_call_select {lease : Lease} {balancer : Balancer}
    (hselect : s.balancer.select env.affinityHash env.affinityTtl now userId allProviders affinity
      excluded = .ok (lease, balancer))
    (hcall : s.call env (.select now userId allProviders affinity excluded) = some t) :
    s.run env [.choose now userId allProviders affinity excluded, .lease lease.provider.id] =
      some t := by
  simp only [call, hselect, Option.ite_none_right_eq_some, Option.dite_none_right_eq_some,
    Option.some.injEq] at hcall
  obtain ⟨hclock, hroom, rfl⟩ := hcall
  obtain ⟨u, hrun, hnode, hchoosing, hleases⟩ := run_select hclock hroom hselect
  simp only [Node.step, hclock, hselect, if_true, Option.some.injEq] at hnode
  rw [hrun]
  obtain ⟨node, choosing, leases, haddressable⟩ := u
  subst hnode hchoosing hleases
  rfl

/-- What an affinity-free call of `select` does where there are eligible providers: it leases the
first of them with the least counter. -/
theorem call_select (hps : s.balancer.eligible now userId allProviders excluded = ps)
    (hne : ps ≠ []) (hcall : s.call env (.select now userId allProviders none excluded) = some t) :
    ∃ chosen, FirstLeast (fun provider => s.balancer.inflightOf provider.id)
        (ps.rotate s.balancer.cursor) chosen ∧
      t.balancer = s.balancer.turned.countLease chosen.id ∧ t.leases = chosen.id :: s.leases := by
  obtain ⟨chosen, hleast, hselect⟩ := Balancer.select_without_affinity
    env.affinityHash env.affinityTtl hps hne
  simp only [call, hselect, Option.ite_none_right_eq_some, Option.dite_none_right_eq_some,
    Option.some.injEq] at hcall
  obtain ⟨-, hroom, rfl⟩ := hcall
  exact ⟨chosen, hleast, rfl, rfl⟩

/-- The call is a selection without an affinity for which the providers are eligible, or it
neither selects nor drops, and forgets none of them. -/
def Balances (ps : List Provider) (s : LeaseNode) : LeaseCall → Prop
  | .select now userId allProviders affinity excluded =>
    affinity = none ∧ s.balancer.eligible now userId allProviders excluded = ps
  | .drop _ => False
  | .other (.forgetProvider providerId) => ∀ provider ∈ ps, provider.id ≠ providerId
  | .other _ => True

instance (ps : List Provider) (s : LeaseNode) : ∀ c, Decidable (s.Balances ps c)
  | .select .. => inferInstanceAs (Decidable (_ ∧ _))
  | .drop _ => inferInstanceAs (Decidable False)
  | .other (.forgetProvider providerId) =>
    inferInstanceAs (Decidable (∀ provider ∈ ps, provider.id ≠ providerId))
  | .other (.trackResponse ..) | .other .reloadProviders | .other (.maintain ..)
  | .other (.maintainFailed _) | .other (.select ..) | .other (.dropLease _)
  | .other (.execute _) => inferInstanceAs (Decidable True)

/-- A call without a drop forgets none of the providers. -/
theorem Balances.ne_forgetProvider {op : Operation} (h : s.Balances ps (.other op))
    {provider : Provider} (hmem : provider ∈ ps) : op ≠ .forgetProvider provider.id := by
  rintro rfl
  exact h provider hmem rfl

/-- The counters of the providers are level, and none of them is above the number of leases. -/
structure Levelled (ps : List Provider) (s : LeaseNode) : Prop where
  level : Level (fun provider => s.balancer.inflightOf provider.id) ps
  fits : ∀ provider ∈ ps, s.balancer.inflightOf provider.id ≤ s.leases.length

/-- Counters that are zero are level. -/
theorem Levelled.of_zero (hzero : ∀ provider ∈ ps, s.balancer.inflightOf provider.id = 0) :
    s.Levelled ps := by
  constructor
  · intro p hp q hq
    have hp := hzero p hp
    dsimp only
    omega
  · intro p hp
    have hp := hzero p hp
    omega

/-- **Step lemma**: a call without a drop keeps the counters level. -/
theorem Levelled.call {c : LeaseCall} (h : s.Levelled ps) (hok : s.Balances ps c) (hne : ps ≠ [])
    (hcall : s.call env c = some t) : t.Levelled ps := by
  cases c with
  | select now userId allProviders affinity excluded =>
    obtain ⟨rfl, hps⟩ := hok
    obtain ⟨chosen, hleast, hbalancer, hleases⟩ := call_select hps hne hcall
    have hmem : chosen ∈ ps := List.mem_rotate.mp hleast.mem
    have hminimal : ∀ p ∈ ps, s.balancer.inflightOf chosen.id ≤ s.balancer.inflightOf p.id :=
      fun p hp => hleast.le p (List.mem_rotate.mpr hp)
    have hroom : s.leases.length + 1 < 2 ^ 64 := by
      have haddressable := t.addressable
      rwa [hleases] at haddressable
    have hcounter : ∀ p : Provider, t.balancer.inflightOf p.id =
        if p.id = chosen.id then s.balancer.inflightOf chosen.id + 1
        else s.balancer.inflightOf p.id := by
      intro p
      have hfits := h.fits chosen hmem
      rw [hbalancer, Balancer.inflightOf_countLease, Balancer.inflightOf_turned,
        Balancer.inflightOf_turned, Nat.mod_eq_of_lt (by omega)]
    constructor
    · refine h.level.count hmem hminimal fun p _ => ?_
      rw [hcounter p]
      split
      · next hid => exact Or.inr ⟨by rw [hid], by rw [hid]⟩
      · exact Or.inl rfl
    · intro p hp
      have hchosen := h.fits chosen hmem
      have hother := h.fits p hp
      rw [hcounter p, hleases, List.length_cons]
      split <;> omega
  | drop providerId => exact hok.elim
  | other op =>
    simp only [LeaseNode.call, step] at hcall
    split at hcall
    · cases hcall
    · next hmoves =>
      obtain ⟨node, hnode, rfl⟩ := Option.map_eq_some_iff.mp hcall
      have hcounter : ∀ p ∈ ps, node.balancer.inflightOf p.id = s.balancer.inflightOf p.id :=
        fun p hp => inflightOf_of_step (by simpa using hmoves) (hok.ne_forgetProvider hp) hnode
      constructor
      · intro p hp q hq
        have hlevel := h.level p hp q hq
        dsimp only at hlevel ⊢
        rw [hcounter p hp, hcounter q hq]
        exact hlevel
      · intro p hp
        rw [hcounter p hp]
        exact h.fits p hp

/-- **Load balance without an affinity.** From counters that are zero and any cursor on, calls
that drop no lease keep the counters of any two of the providers that are eligible at each
selection at most one apart; and in whatever state a run of calls arrives, drops and other
selections included, a selection without an affinity leases an eligible provider whose counter is
least, the first of these in cyclic order from the cursor. -/
theorem load_balance {run : List LeaseCall} (hne : ps ≠ [])
    (hzero : ∀ provider ∈ ps, s.balancer.inflightOf provider.id = 0)
    (hrun : s.calls env run = some t) :
    (Transition.Guarded (call env) (Balances ps) s run →
      ∀ p ∈ ps, ∀ q ∈ ps, t.balancer.inflightOf p.id ≤ t.balancer.inflightOf q.id + 1) ∧
    ∀ now userId allProviders excluded u,
      t.call env (.select now userId allProviders none excluded) = some u →
      t.balancer.eligible now userId allProviders excluded ≠ [] →
      ∃ chosen, u.leases = chosen.id :: t.leases ∧
        FirstLeast (fun provider => t.balancer.inflightOf provider.id)
          ((t.balancer.eligible now userId allProviders excluded).rotate t.balancer.cursor)
          chosen := by
  constructor
  · intro hok
    have hlevelled : t.Levelled ps :=
      Transition.invariant_of_guarded (fun h hok hcall => h.call hok hne hcall) hok hrun
        (.of_zero hzero)
    exact hlevelled.level
  · intro now userId allProviders excluded u hcall hsome
    obtain ⟨chosen, hleast, -, hleases⟩ := call_select rfl hsome hcall
    exact ⟨chosen, hleases, hleast⟩

/-- A node without leases can address all of them. -/
theorem addressable_nil : ([] : List String).length < 2 ^ 64 := by decide

/-- Three selections for the owner of two providers, the cursor about to wrap. -/
def unbalanced : LeaseNode where
  toNode := { Node.paired with
    balancer := { Node.paired.balancer with cursor := 2 ^ 64 - 1 } }
  choosing := []
  leases := []
  addressable := addressable_nil

/-- The statement at a run of three selections. -/
theorem load_balance_of_three :
    ∃ p ∈ unbalanced.balancer.eligible 50 "owner" false none,
      ∃ q ∈ unbalanced.balancer.eligible 50 "owner" false none, p.id = "p" ∧ q.id = "q" ∧
        (unbalanced.afterCalls usageLimitEnvironment (List.replicate 3
          (.select 50 "owner" false none none))).balancer.inflightOf p.id ≤
        (unbalanced.afterCalls usageLimitEnvironment (List.replicate 3
          (.select 50 "owner" false none none))).balancer.inflightOf q.id + 1 := by
  have hne : unbalanced.balancer.eligible 50 "owner" false none ≠ [] := by decide
  have hrun : (unbalanced.calls usageLimitEnvironment (List.replicate 3
      (.select 50 "owner" false none none))).isSome = true := by decide
  have hlevel := (load_balance hne (by decide) (Transition.run_eq_some_after hrun)).1 (by decide)
  obtain ⟨p, hp, hpid⟩ : ∃ p ∈ unbalanced.balancer.eligible 50 "owner" false none, p.id = "p" := by
    decide
  obtain ⟨q, hq, hqid⟩ : ∃ q ∈ unbalanced.balancer.eligible 50 "owner" false none, q.id = "q" := by
    decide
  exact ⟨p, hp, q, hq, hpid, hqid, hlevel p hp q hq⟩

end LeaseNode

section Idle

/-- The arguments of a `select` without an affinity. -/
structure IdleSelect where
  now : Int
  userId : String
  allProviders : Bool
  excluded : Option String

namespace Balancer

/-- Selections one after the other, each lease dropped before the next one: the providers. -/
def serveIdle (affinityHash : String → String) (ttl : Int) (b : Balancer) :
    List IdleSelect → Except AppError (List Provider × Balancer)
  | [] => .ok ([], b)
  | call :: rest =>
    (b.select affinityHash ttl call.now call.userId call.allProviders none call.excluded).bind
      fun (lease, b) =>
        ((b.dropLease lease.provider.id).serveIdle affinityHash ttl rest).map
          fun (providers, b) => (lease.provider :: providers, b)

variable {affinityHash : String → String} {ttl : Int} {b b' : Balancer} {ps : List Provider}

/-- The providers are those eligible for the call. -/
def Serves (b : Balancer) (ps : List Provider) (call : IdleSelect) : Prop :=
  b.eligible call.now call.userId call.allProviders call.excluded = ps

/-- No lease on a provider of the list is alive. -/
def Idle (b : Balancer) (ps : List Provider) : Prop :=
  ∀ provider ∈ ps, b.inflightOf provider.id = 0

instance (call : IdleSelect) : Decidable (b.Serves ps call) := inferInstanceAs (Decidable (_ = _))

instance : Decidable (b.Idle ps) := inferInstanceAs (Decidable (∀ _ ∈ _, _ = _))

/-- A drop leaves the snapshot and the grants alone. -/
theorem eligible_dropLease (b : Balancer) (providerId : String) (now : Int) (userId : String)
    (allProviders : Bool) (excluded : Option String) :
    (b.dropLease providerId).eligible now userId allProviders excluded =
      b.eligible now userId allProviders excluded := by
  unfold dropLease
  split <;> rfl

/-- Dropping a lease leaves the cursor alone. -/
@[simp] theorem cursor_dropLease (b : Balancer) (providerId : String) :
    (b.dropLease providerId).cursor = b.cursor := by
  unfold dropLease
  split <;> rfl

/-- Counting a lease and dropping it leaves each counter as it was. -/
theorem Idle.dropLease (h : b.Idle ps) {chosen : Provider} (hmem : chosen ∈ ps) :
    ((b.turned.countLease chosen.id).dropLease chosen.id).Idle ps := by
  have hone : (b.turned.countLease chosen.id).inflightOf chosen.id = 1 := by
    rw [inflightOf_countLease, if_pos rfl, inflightOf_turned, h chosen hmem]
    rfl
  intro p hp
  by_cases hid : p.id = chosen.id
  · rw [hid, inflightOf_dropLease_self (by omega) (by omega), hone]
  · rw [inflightOf_dropLease_of_ne _ hid, inflightOf_countLease, if_neg hid, inflightOf_turned,
      h p hp]

/-- **One idle selection** takes the provider at the cursor. -/
theorem select_idle (affinityHash : String → String) (ttl : Int) (hne : ps ≠ [])
    {call : IdleSelect} (hserves : b.Serves ps call) (hidle : b.Idle ps) :
    ∃ chosen, ps[b.cursor % ps.length]? = some chosen ∧ chosen ∈ ps ∧
      b.select affinityHash ttl call.now call.userId call.allProviders none call.excluded =
        .ok (⟨chosen, chosen.accessToken, chosen.refreshToken⟩, b.turned.countLease chosen.id) := by
  obtain ⟨chosen, hleast, hselect⟩ :=
    select_without_affinity affinityHash ttl hserves hne
  have hmem : chosen ∈ ps := List.mem_rotate.mp hleast.mem
  have hhead := hleast.head? fun p hp => by
    rw [hidle p (List.mem_rotate.mp hp), hidle chosen hmem]
  have hlength : 0 < ps.length := List.length_pos_of_ne_nil hne
  rw [← List.rotate_mod, List.head?_rotate (Nat.mod_lt _ hlength)] at hhead
  exact ⟨chosen, hhead, hmem, hselect⟩

/-- The cursor does not wrap on the way, or the list is as long as a divisor of its range. -/
def InTurn (cursor turns length : ℕ) : Prop := cursor + turns ≤ 2 ^ 64 ∨ length ∣ 2 ^ 64

/-- What is left of the way does not wrap either, and is the same with the cursor wrapped. -/
theorem InTurn.turned {cursor turns : ℕ} (h : InTurn cursor (turns + 1) ps.length) :
    InTurn ((cursor + 1) % 2 ^ 64) turns ps.length ∧
      around ps ((cursor + 1) % 2 ^ 64) turns = around ps (cursor + 1) turns := by
  rcases h with hroom | hdvd
  · rcases Nat.lt_or_ge (cursor + 1) (2 ^ 64) with hlt | hge
    · rw [Nat.mod_eq_of_lt hlt]
      exact ⟨Or.inl (by omega), rfl⟩
    · obtain rfl : turns = 0 := by omega
      refine ⟨Or.inl ?_, rfl⟩
      have hmod := Nat.mod_lt (cursor + 1) (show 0 < 2 ^ 64 by omega)
      omega
  · exact ⟨Or.inr hdvd, around_mod hdvd ..⟩

/-- **Idle selections go around the list** from the cursor. -/
theorem serveIdle_eq_around (affinityHash : String → String) (ttl : Int) (hne : ps ≠ [])
    (calls : List IdleSelect)
    (hserves : ∀ call ∈ calls, b.Serves ps call) (hidle : b.Idle ps)
    (hturn : InTurn b.cursor calls.length ps.length) :
    ∃ b', b.serveIdle affinityHash ttl calls = .ok (around ps b.cursor calls.length, b') := by
  induction calls generalizing b with
  | nil => exact ⟨b, rfl⟩
  | cons call rest ih =>
    obtain ⟨chosen, hchosen, hmem, hselect⟩ :=
      select_idle affinityHash ttl hne (hserves call List.mem_cons_self) hidle
    obtain ⟨hrest, haround⟩ := hturn.turned
    have hserves' : ∀ call ∈ rest,
        ((b.turned.countLease chosen.id).dropLease chosen.id).Serves ps call := by
      intro call hcall
      rw [Serves, eligible_dropLease]
      exact hserves call (List.mem_cons_of_mem _ hcall)
    obtain ⟨b', hserved⟩ := ih hserves' (hidle.dropLease hmem) (by
      rw [cursor_dropLease]
      exact hrest)
    refine ⟨b', ?_⟩
    rw [cursor_dropLease] at hserved
    have hcursor : (b.turned.countLease chosen.id).cursor = (b.cursor + 1) % 2 ^ 64 := rfl
    rw [hcursor, haround] at hserved
    rw [serveIdle, hselect, Except.bind]
    dsimp only
    rw [hserved, List.length_cons, around_succ, hchosen]
    rfl

/-- **Idle traffic is spread round-robin.** Selections without an affinity, each lease dropped
before the next one and no other lease alive on the eligible providers, choose each of the `n`
providers exactly `k` times in `k * n` calls when the cursor does not wrap on the way, or `n`
divides the range of the cursor. -/
theorem idle_round_robin (hne : ps ≠ []) {calls : List IdleSelect} {k : ℕ}
    (hlength : calls.length = k * ps.length) (hserves : ∀ call ∈ calls, b.Serves ps call)
    (hidle : b.Idle ps)
    (hturn : b.cursor + k * ps.length ≤ 2 ^ 64 ∨ ps.length ∣ 2 ^ 64) :
    ∃ chosen b', b.serveIdle affinityHash ttl calls = .ok (chosen, b') ∧
      ∀ provider ∈ ps, chosen.count provider = k := by
  obtain ⟨b', hserved⟩ := serveIdle_eq_around affinityHash ttl hne calls hserves
    hidle (hlength ▸ hturn)
  refine ⟨_, b', hserved, ?_⟩
  intro provider hmem
  rw [hlength]
  rcases Nat.eq_zero_or_pos k with rfl | hpos
  · rw [Nat.zero_mul]
    rfl
  · have hcalls : 0 < calls.length := by
      rw [hlength]
      exact Nat.mul_pos hpos (List.length_pos_of_ne_nil hne)
    obtain ⟨call, hcall⟩ := List.exists_mem_of_length_pos hcalls
    have hnodup : ps.Nodup := by
      rw [← hserves call hcall]
      exact (b.providers.nodup.of_map Provider.id).filter _
    exact count_around hnodup hmem b.cursor k

/-- Three providers of one owner, and a cursor that wraps at the fourth selection. -/
def lastTurns : Balancer where
  inflight := ∅
  cursor := 2 ^ 64 - 4
  providers := (Node.initial.after usageLimitEnvironment (Node.loadPair ++
    [.execute (.createProvider "r" "name" "account" "access" "refresh" none 12 "owner"),
      .reloadProviders])).balancer.providers
  providerGrants := []
  affinities := ∅
  dirtyAffinities := []
  providerUpdates := ∅

/-- A selection for the owner. -/
def forOwner : IdleSelect := ⟨50, "owner", false, none⟩

/-- The statement at two rounds that end before the cursor wraps. -/
theorem idle_round_robin_of_two_rounds :
    ∃ chosen b', ({ lastTurns with cursor := 2 ^ 64 - 7 } : Balancer).serveIdle id 3600
        (List.replicate 6 forOwner) = .ok (chosen, b') ∧
      ∀ provider ∈ lastTurns.providers.rows, chosen.count provider = 2 :=
  idle_round_robin (by decide) rfl (by decide) (by decide) (by decide)

/-- **A cursor that wraps breaks the round**: the first round ends before it does, and of the
second one the first provider gets a turn too many. -/
theorem idle_round_robin_fails_at_wrap :
    lastTurns.cursor + lastTurns.providers.rows.length < 2 ^ 64 ∧
      (∀ call ∈ List.replicate 6 forOwner, lastTurns.Serves lastTurns.providers.rows call) ∧
      lastTurns.Idle lastTurns.providers.rows ∧
      ∃ chosen b', lastTurns.serveIdle id 3600 (List.replicate 6 forOwner) = .ok (chosen, b') ∧
        chosen.map Provider.id = ["p", "q", "r", "p", "p", "q"] ∧
        ¬ ∀ provider ∈ lastTurns.providers.rows, chosen.count provider = 2 :=
  ⟨by decide, by decide, by decide, _, _, rfl, rfl, by decide⟩

end Balancer

end Idle

end OpenAiLb
