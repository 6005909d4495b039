import OpenAiLb.Headers
import OpenAiLb.Library.Erasure
import OpenAiLb.StickyAffinity

/-!
# The affinities of different consumers

The key of an affinity is the id of the consumer, a colon and a text that the client
chooses. Ids contain no colon, so no client can produce a key of another consumer, whatever
the headers and the body of its requests are. Handling a request reads and writes the
affinity of its own key only.
-/

namespace OpenAiLb

/-- The affinity of a call: `format!("{}:{}", identity.consumer_id, key.value)`. -/
def callAffinity (consumerId : String) (headers : HeaderMap) (body : Option Value) :
    Option String :=
  (affinityKey headers body).map fun key => consumerId ++ ":" ++ key.value

/-- A key that some request of the consumer has. -/
def KeyOf (consumerId key : String) : Prop :=
  ∃ headers body, callAffinity consumerId headers body = some key

/-- A key starts with the id of its consumer. -/
theorem KeyOf.eq_append {consumerId key : String} (h : KeyOf consumerId key) :
    ∃ value, key = consumerId ++ ":" ++ value := by
  obtain ⟨headers, body, hkey⟩ := h
  obtain ⟨found, -, rfl⟩ := Option.map_eq_some_iff.mp hkey
  exact ⟨found.value, rfl⟩

/-- The id of the consumer is what stands before the first colon. -/
theorem takeWhile_key {consumerId : String} (h : ':' ∉ consumerId.toList) (value : String) :
    (consumerId ++ ":" ++ value).toList.takeWhile (· ≠ ':') = consumerId.toList := by
  have hsplit : (consumerId ++ ":" ++ value).toList =
      consumerId.toList ++ ':' :: value.toList := by
    simp [String.toList_append]
  have hall : ∀ c ∈ consumerId.toList, decide (c ≠ ':') = true := by
    intro c hc
    rw [decide_eq_true_eq]
    rintro rfl
    exact h hc
  rw [hsplit, List.takeWhile_append_of_pos hall]
  simp

/-- A hash that some key of the consumer has. -/
def HashOf (env : Environment) (consumerId hash : String) : Prop :=
  ∃ key, KeyOf consumerId key ∧ env.affinityHash key = hash

/-- **Keys of different consumers differ**, whatever the clients choose. -/
theorem KeyOf.ne {first second key key' : String} (hfirst : ':' ∉ first.toList)
    (hsecond : ':' ∉ second.toList) (hne : first ≠ second) (h : KeyOf first key)
    (h' : KeyOf second key') : key ≠ key' := by
  obtain ⟨value, rfl⟩ := h.eq_append
  obtain ⟨value', rfl⟩ := h'.eq_append
  intro heq
  have hids := congrArg (fun key : String => key.toList.takeWhile (· ≠ ':')) heq
  simp only [takeWhile_key hfirst, takeWhile_key hsecond] at hids
  exact hne (String.toList_inj.mp hids)

namespace Balancer

/-- Two balancers that differ in the affinities of hidden hashes only. -/
structure AlikeOff (hidden : String → Prop) (b b' : Balancer) : Prop where
  inflight : b.inflight = b'.inflight
  cursor : b.cursor = b'.cursor
  providers : b.providers = b'.providers
  providerGrants : b.providerGrants = b'.providerGrants
  providerUpdates : b.providerUpdates = b'.providerUpdates
  affinities : ∀ hash, ¬ hidden hash → b.affinities.lookup hash = b'.affinities.lookup hash
  dirty : ∀ hash, ¬ hidden hash → (hash ∈ b.dirtyAffinities ↔ hash ∈ b'.dirtyAffinities)

namespace AlikeOff

variable {hidden : String → Prop} {b b' : Balancer}

/-- A balancer is like itself, whatever is hidden. -/
theorem refl (hidden : String → Prop) (b : Balancer) : AlikeOff hidden b b :=
  ⟨rfl, rfl, rfl, rfl, rfl, fun _ _ => rfl, fun _ _ => Iff.rfl⟩

/-- The counters and the cursor are what the least loaded provider depends on. -/
theorem leastInflight (h : AlikeOff hidden b b') (eligible : List Provider) :
    (b.leastInflight eligible).1 = (b'.leastInflight eligible).1 ∧
      AlikeOff hidden (b.leastInflight eligible).2 (b'.leastInflight eligible).2 := by
  have hcount : ∀ id, b.inflightOf id = b'.inflightOf id := fun id => by
    rw [inflightOf, h.inflight, inflightOf]
  constructor
  · simp only [Balancer.leastInflight, h.cursor, hcount]
  · exact ⟨h.inflight, congrArg (fun cursor => (cursor + 1) % 2 ^ 64) h.cursor, h.providers,
      h.providerGrants, h.providerUpdates, h.affinities, h.dirty⟩

/-- An observation changes the snapshot and the pending updates. -/
theorem observe (h : AlikeOff hidden b b') (providerId : String) (update : ProviderUpdate) :
    AlikeOff hidden (b.observe providerId update) (b'.observe providerId update) where
  inflight := h.inflight
  cursor := h.cursor
  providers := congrArg (fun snapshot : Snapshot => snapshot.observe providerId update) h.providers
  providerGrants := h.providerGrants
  providerUpdates :=
    congrArg (fun updates => recordUpdate updates providerId update) h.providerUpdates
  affinities := h.affinities
  dirty := h.dirty

/-- The end of a lease changes a counter. -/
theorem dropLease (h : AlikeOff hidden b b') (providerId : String) :
    AlikeOff hidden (b.dropLease providerId) (b'.dropLease providerId) := by
  simp only [Balancer.dropLease, h.inflight]
  split
  · exact ⟨rfl, h.cursor, h.providers, h.providerGrants, h.providerUpdates, h.affinities, h.dirty⟩
  · exact h

variable {affinityHash : String → String} {affinity : Option String}

/-- **A choice reads the affinity of its own key only.** -/
theorem choose (h : AlikeOff hidden b b')
    (hkey : ∀ key, affinity = some key → ¬ hidden (affinityHash key)) (now : Int)
    (eligible : List Provider) :
    (b.choose affinityHash now affinity eligible).1 =
        (b'.choose affinityHash now affinity eligible).1 ∧
      AlikeOff hidden (b.choose affinityHash now affinity eligible).2
        (b'.choose affinityHash now affinity eligible).2 := by
  have haffine : ((affinity.map affinityHash).bind fun hash =>
      b.affinityProvider hash eligible now) =
      (affinity.map affinityHash).bind fun hash => b'.affinityProvider hash eligible now := by
    cases affinity with
    | none => rfl
    | some key =>
      simp only [Option.map_some, Option.bind_some, affinityProvider,
        h.affinities _ (hkey key rfl)]
  unfold Balancer.choose
  rw [haffine]
  split
  · exact ⟨rfl, h⟩
  · exact h.leastInflight eligible

/-- **A lease writes the affinity of its own key only.** -/
theorem leased (h : AlikeOff hidden b b') (ttl now : Int) (chosen : Provider) :
    AlikeOff hidden (b.leased affinityHash ttl now affinity chosen)
      (b'.leased affinityHash ttl now affinity chosen) := by
  have hcount : b.inflightOf chosen.id = b'.inflightOf chosen.id := by
    rw [inflightOf, h.inflight, inflightOf]
  cases affinity with
  | none =>
    refine ⟨?_, h.cursor, h.providers, h.providerGrants, h.providerUpdates, h.affinities, h.dirty⟩
    exact congrArg₂ (fun inflight count => inflight.insert chosen.id ((count + 1) % 2 ^ 64))
      h.inflight hcount
  | some key =>
    refine ⟨?_, h.cursor, h.providers, h.providerGrants, h.providerUpdates, ?_, ?_⟩
    · exact congrArg₂ (fun inflight count => inflight.insert chosen.id ((count + 1) % 2 ^ 64))
        h.inflight hcount
    · intro hash hshown
      show (b.affinities.insert _ _).lookup hash = (b'.affinities.insert _ _).lookup hash
      by_cases heq : hash = affinityHash key
      · subst heq
        rw [AList.lookup_insert, AList.lookup_insert]
      · rw [AList.lookup_insert_ne heq, AList.lookup_insert_ne heq]
        exact h.affinities hash hshown
    · intro hash hshown
      show hash ∈ b.dirtyAffinities.insert _ ↔ hash ∈ b'.dirtyAffinities.insert _
      rw [List.mem_insert_iff, List.mem_insert_iff, h.dirty hash hshown]

/-- **A selection** gives the same lease, and keeps what is hidden hidden. -/
theorem runSelect (h : AlikeOff hidden b b')
    (hkey : ∀ key, affinity = some key → ¬ hidden (affinityHash key)) (ttl now : Int)
    (userId : String) (allProviders : Bool) (excluded : Option String) :
    (b.runSelect affinityHash ttl now userId allProviders affinity excluded).1 =
        (b'.runSelect affinityHash ttl now userId allProviders affinity excluded).1 ∧
      AlikeOff hidden (b.runSelect affinityHash ttl now userId allProviders affinity excluded).2
        (b'.runSelect affinityHash ttl now userId allProviders affinity excluded).2 := by
  have heligible : b.eligible now userId allProviders excluded =
      b'.eligible now userId allProviders excluded := by
    rw [eligible, h.providers, h.providerGrants, eligible]
  by_cases hnil : b.eligible now userId allProviders excluded = []
  · rw [runSelect_of_nil affinityHash ttl affinity hnil,
      runSelect_of_nil affinityHash ttl affinity (heligible ▸ hnil)]
    exact ⟨rfl, h⟩
  · obtain ⟨chosen, mid, hchoose, -⟩ := choose_spec affinityHash b now affinity hnil
    obtain ⟨hsame, halike⟩ :=
      h.choose hkey now (b.eligible now userId allProviders excluded)
    rw [hchoose] at hsame halike
    have hchoose' : b'.choose affinityHash now affinity
        (b'.eligible now userId allProviders excluded) = (some chosen,
          (b'.choose affinityHash now affinity
            (b.eligible now userId allProviders excluded)).2) := by
      rw [← heligible]
      exact Prod.ext hsame.symm rfl
    rw [runSelect_of_choose affinityHash ttl hnil hchoose,
      runSelect_of_choose affinityHash ttl (heligible ▸ hnil) hchoose']
    exact ⟨rfl, halike.leased ttl now chosen⟩

end AlikeOff

/-- A selection leaves the affinities of other hashes alone. -/
theorem bindings_runSelect (b : Balancer) {affinityHash : String → String}
    {affinity : Option String} (ttl now : Int) (userId : String) (allProviders : Bool)
    (excluded : Option String) {hash : String}
    (hother : ∀ key, affinity = some key → affinityHash key ≠ hash) :
    (b.runSelect affinityHash ttl now userId allProviders affinity excluded).2.affinities.lookup
        hash = b.affinities.lookup hash ∧
      (hash ∈ (b.runSelect affinityHash ttl now userId allProviders affinity
        excluded).2.dirtyAffinities ↔ hash ∈ b.dirtyAffinities) := by
  by_cases hnil : b.eligible now userId allProviders excluded = []
  · rw [runSelect_of_nil affinityHash ttl affinity hnil]
    exact ⟨rfl, Iff.rfl⟩
  · obtain ⟨chosen, mid, hchoose, -⟩ := choose_spec affinityHash b now affinity hnil
    have hframe := choose_frame affinityHash b now affinity
      (b.eligible now userId allProviders excluded)
    rw [hchoose] at hframe
    have hmid : mid.affinities = b.affinities ∧ mid.dirtyAffinities = b.dirtyAffinities := by
      rcases hframe with rfl | rfl
      · exact ⟨rfl, rfl⟩
      · exact ⟨rfl, rfl⟩
    rw [runSelect_of_choose affinityHash ttl hnil hchoose, ← hmid.1, ← hmid.2]
    cases affinity with
    | none => exact ⟨rfl, Iff.rfl⟩
    | some key =>
      have hkey : hash ≠ affinityHash key := (hother key rfl).symm
      constructor
      · exact AList.lookup_insert_ne hkey
      · show hash ∈ mid.dirtyAffinities.insert (affinityHash key) ↔ hash ∈ mid.dirtyAffinities
        rw [List.mem_insert_iff]
        constructor
        · rintro (heq | hmem)
          · exact absurd heq hkey
          · exact hmem
        · exact Or.inr

end Balancer

/-- What handling a request with this affinity does to the node: selections under its key, the
refreshes of credentials, the observation of responses, and the ends of leases. -/
inductive RequestOperation (affinity : Option String) : Operation → Prop where
  | select (now : Int) (userId : String) (allProviders : Bool) (excluded : Option String) :
    RequestOperation affinity (.select now userId allProviders affinity excluded)
  | trackResponse (now : Int) (providerId circuitId : String) (status : ℕ) (body : List UInt8) :
    RequestOperation affinity (.trackResponse now providerId circuitId status body)
  | dropLease (providerId : String) : RequestOperation affinity (.dropLease providerId)
  | refreshed (id refresh : String) (token : TokenResponse) (accountId : String) (now : Int) :
    RequestOperation affinity (.execute (.refreshIfNeeded id refresh token accountId now))
  | refreshFailed (id refresh : String) (now : Int) :
    RequestOperation affinity (.execute (.refreshFailed id refresh now))
  | reloadProviders : RequestOperation affinity .reloadProviders

namespace Node

/-- Two nodes that differ in the affinities of hidden hashes only. -/
structure AlikeOff (hidden : String → Prop) (s s' : Node) : Prop where
  db : s.db = s'.db
  clock : s.clock = s'.clock
  balancer : Balancer.AlikeOff hidden s.balancer s'.balancer

/-- What an operation gives to the request: the result of a selection. -/
def selected (env : Environment) (s : Node) : Operation → Option (Except AppError Lease)
  | .select now userId allProviders affinity excluded =>
    some ((s.balancer.select env.affinityHash env.affinityTtl now userId allProviders affinity
      excluded).map Prod.fst)
  | _ => none

variable {env : Environment} {hidden : String → Prop} {affinity : Option String}
  {s s' t : Node} {op : Operation}

/-- A selection as a step of the node. -/
theorem step_select (env : Environment) (s : Node) (now : Int) (userId : String)
    (allProviders : Bool) (affinity excluded : Option String) :
    s.step env (.select now userId allProviders affinity excluded) =
      if s.clock ≤ now then some { s with
        clock := now
        balancer := (s.balancer.runSelect env.affinityHash env.affinityTtl now userId allProviders
          affinity excluded).2 }
      else none := by
  simp only [step, Balancer.select_eq_runSelect]
  split
  · rcases Balancer.runSelect_spec env.affinityHash env.affinityTtl s.balancer now userId
      allProviders affinity excluded with ⟨-, hrun⟩ | ⟨chosen, -, hrun⟩
    · rw [hrun]
      rfl
    · rw [hrun]
      rfl
  · rfl

/-- A selection depends on the bindings of its own key only. -/
theorem AlikeOff.selected_eq (h : AlikeOff hidden s s')
    (hkey : ∀ key, affinity = some key → ¬ hidden (env.affinityHash key)) (now : Int)
    (userId : String) (allProviders : Bool) (excluded : Option String) :
    s.selected env (.select now userId allProviders affinity excluded) =
      s'.selected env (.select now userId allProviders affinity excluded) := by
  obtain ⟨hlease, -⟩ :=
    h.balancer.runSelect hkey env.affinityTtl now userId allProviders excluded
  simp only [selected, Balancer.select_eq_runSelect, hlease]
  cases (s'.balancer.runSelect env.affinityHash env.affinityTtl now userId allProviders affinity
    excluded).1 <;> rfl

/-- **One operation of a request** neither reads nor writes what is hidden from its key. -/
theorem AlikeOff.step (h : AlikeOff hidden s s') (hop : RequestOperation affinity op)
    (hkey : ∀ key, affinity = some key → ¬ hidden (env.affinityHash key))
    (hstep : s.step env op = some t) :
    s.selected env op = s'.selected env op ∧
      ∃ t', s'.step env op = some t' ∧ AlikeOff hidden t t' := by
  cases hop with
  | select now userId allProviders excluded =>
    obtain ⟨-, hbalancer⟩ :=
      h.balancer.runSelect hkey env.affinityTtl now userId allProviders excluded
    refine ⟨h.selected_eq hkey now userId allProviders excluded, ?_⟩
    rw [step_select] at hstep ⊢
    rw [← h.clock]
    split at hstep
    · next hclock =>
      cases hstep
      refine ⟨_, if_pos hclock, ?_⟩
      exact ⟨h.db, rfl, hbalancer⟩
    · cases hstep
  | trackResponse now providerId circuitId status body =>
    simp only [Node.step] at hstep ⊢
    rw [← h.clock]
    split at hstep
    · next hclock =>
      cases hstep
      exact ⟨rfl, _, if_pos hclock, h.db, rfl, h.balancer.observe providerId _⟩
    · cases hstep
  | dropLease providerId =>
    cases hstep
    exact ⟨rfl, _, rfl, h.db, h.clock, h.balancer.dropLease providerId⟩
  | reloadProviders =>
    cases hstep
    have hb := h.balancer
    exact ⟨rfl, _, rfl, h.db, h.clock, hb.inflight, hb.cursor,
      congrArg Database.selectProviders h.db, congrArg Database.selectGrants h.db,
      hb.providerUpdates, hb.affinities, hb.dirty⟩
  | refreshed id refresh token accountId now =>
    simp only [Node.step] at hstep ⊢
    rw [← h.db]
    split at hstep
    · next db n hdb =>
      cases hstep
      exact ⟨rfl, _, rfl, rfl, h.clock, h.balancer⟩
    · cases hstep
      exact ⟨rfl, _, rfl, h.db, h.clock, h.balancer⟩
  | refreshFailed id refresh now =>
    simp only [Node.step] at hstep ⊢
    rw [← h.db]
    split at hstep
    · next db n hdb =>
      cases hstep
      exact ⟨rfl, _, rfl, rfl, h.clock, h.balancer⟩
    · cases hstep
      exact ⟨rfl, _, rfl, h.db, h.clock, h.balancer⟩

/-- The affinities of the hidden hashes are the same in both nodes. -/
structure SameBindings (hidden : String → Prop) (s t : Node) : Prop where
  affinities : ∀ hash, hidden hash →
    t.balancer.affinities.lookup hash = s.balancer.affinities.lookup hash
  dirty : ∀ hash, hidden hash →
    (hash ∈ t.balancer.dirtyAffinities ↔ hash ∈ s.balancer.dirtyAffinities)

/-- A node has the same bindings as itself. -/
theorem SameBindings.refl (hidden : String → Prop) (s : Node) : SameBindings hidden s s :=
  ⟨fun _ _ => rfl, fun _ _ => Iff.rfl⟩

/-- Having the same bindings is transitive. -/
theorem SameBindings.trans {u : Node} (h : SameBindings hidden s t) (h' : SameBindings hidden t u) :
    SameBindings hidden s u where
  affinities hash hhidden := (h'.affinities hash hhidden).trans (h.affinities hash hhidden)
  dirty hash hhidden := (h'.dirty hash hhidden).trans (h.dirty hash hhidden)

/-- **One operation of a request** leaves the hidden affinities alone. -/
theorem sameBindings_step (hop : RequestOperation affinity op)
    (hkey : ∀ key, affinity = some key → ¬ hidden (env.affinityHash key))
    (hstep : s.step env op = some t) : SameBindings hidden s t := by
  cases hop with
  | select now userId allProviders excluded =>
    rw [step_select] at hstep
    split at hstep
    · cases hstep
      have hframe : ∀ hash, hidden hash → ∀ key, affinity = some key →
          env.affinityHash key ≠ hash :=
        fun hash hhidden key haffinity heq => hkey key haffinity (heq ▸ hhidden)
      exact ⟨fun hash hhidden =>
          (s.balancer.bindings_runSelect env.affinityTtl now userId allProviders excluded
            (hframe hash hhidden)).1,
        fun hash hhidden =>
          (s.balancer.bindings_runSelect env.affinityTtl now userId allProviders excluded
            (hframe hash hhidden)).2⟩
    · cases hstep
  | trackResponse now providerId circuitId status body =>
    simp only [Node.step] at hstep
    split at hstep
    · cases hstep
      exact ⟨fun _ _ => rfl, fun _ _ => Iff.rfl⟩
    · cases hstep
  | dropLease providerId =>
    cases hstep
    unfold Balancer.dropLease
    constructor <;> intro hash _ <;> dsimp only <;> split <;> rfl
  | reloadProviders =>
    cases hstep
    exact ⟨fun _ _ => rfl, fun _ _ => Iff.rfl⟩
  | refreshed | refreshFailed =>
    simp only [Node.step] at hstep
    split at hstep
    · cases hstep
      exact ⟨fun _ _ => rfl, fun _ _ => Iff.rfl⟩
    · cases hstep
      exact SameBindings.refl hidden s

/-- The same for a whole request. -/
theorem sameBindings_of_run {operations : List Operation}
    (hops : ∀ op ∈ operations, RequestOperation affinity op)
    (hkey : ∀ key, affinity = some key → ¬ hidden (env.affinityHash key))
    (hrun : s.run env operations = some t) : SameBindings hidden s t := by
  induction operations generalizing s with
  | nil =>
    obtain rfl : s = t := by simpa using hrun
    exact SameBindings.refl hidden s
  | cons op rest ih =>
    obtain ⟨mid, hmid, hrest⟩ := Transition.run_cons_eq_some hrun
    have hfirst := sameBindings_step (hops op List.mem_cons_self) hkey hmid
    exact hfirst.trans (ih (fun op hmem => hops op (List.mem_cons_of_mem _ hmem)) hrest)

/-- A request runs alike on two nodes that differ in what is hidden from its key. -/
theorem AlikeOff.of_run {operations : List Operation} (h : AlikeOff hidden s s')
    (hops : ∀ op ∈ operations, RequestOperation affinity op)
    (hkey : ∀ key, affinity = some key → ¬ hidden (env.affinityHash key))
    (hrun : s.run env operations = some t) :
    Transition.outputs (Node.step env) (selected env) s operations =
        Transition.outputs (Node.step env) (selected env) s' operations ∧
      ∃ t', s'.run env operations = some t' ∧ AlikeOff hidden t t' := by
  induction operations generalizing s s' with
  | nil =>
    obtain rfl : s = t := by simpa using hrun
    exact ⟨rfl, s', rfl, h⟩
  | cons op rest ih =>
    obtain ⟨mid, hmid, hrest⟩ := Transition.run_cons_eq_some hrun
    obtain ⟨hout, mid', hmid', halike⟩ := h.step (hops op List.mem_cons_self) hkey hmid
    obtain ⟨houts, t', hrun', hend⟩ :=
      ih halike (fun op hmem => hops op (List.mem_cons_of_mem _ hmem)) hrest
    rw [Transition.outputs_cons hmid, Transition.outputs_cons hmid', hout, houts]
    refine ⟨rfl, t', ?_, hend⟩
    show Transition.run (Node.step env) s' (op :: rest) = some t'
    rw [Transition.run_cons, hmid', Option.bind_some]
    exact hrun'

end Node

/-- **Consumers do not touch each other's affinities.** Consumer ids contain no colon, and the hash
tells the keys of the two consumers apart. Whatever a request of one consumer does, the affinities
of all keys that requests of the other one can have stay as they were; it goes the same way when
those affinities are others; and a selection of the other consumer finds the same provider by
affinity, and chooses the same one under equal loads and provider states. -/
theorem affinities_of_consumers_separate {env : Environment} {own other : String}
    (hown : ':' ∉ own.toList) (hother : ':' ∉ other.toList) (hne : own ≠ other)
    (hinjective : ∀ key key', KeyOf own key → KeyOf other key' →
      env.affinityHash key = env.affinityHash key' → key = key')
    (headers : HeaderMap) (body : Option Value) {operations : List Operation}
    (hops : ∀ op ∈ operations, RequestOperation (callAffinity own headers body) op)
    {s t : Node} (hrun : s.run env operations = some t) :
    (∀ key, KeyOf other key →
      t.balancer.affinities.lookup (env.affinityHash key) =
          s.balancer.affinities.lookup (env.affinityHash key) ∧
        (env.affinityHash key ∈ t.balancer.dirtyAffinities ↔
          env.affinityHash key ∈ s.balancer.dirtyAffinities) ∧
        ∀ eligible now, t.balancer.affinityProvider (env.affinityHash key) eligible now =
          s.balancer.affinityProvider (env.affinityHash key) eligible now) ∧
    (∀ s', Node.AlikeOff (HashOf env other) s s' →
      Transition.outputs (Node.step env) (Node.selected env) s operations =
          Transition.outputs (Node.step env) (Node.selected env) s' operations ∧
        ∃ t', s'.run env operations = some t' ∧
          Node.AlikeOff (HashOf env other) t t') ∧
    ∀ headers' body' now userId allProviders excluded,
      Node.selected env t (.select now userId allProviders (callAffinity other headers' body')
          excluded) =
        Node.selected env { t with balancer := { t.balancer with
            affinities := s.balancer.affinities, dirtyAffinities := s.balancer.dirtyAffinities } }
          (.select now userId allProviders (callAffinity other headers' body') excluded) := by
  -- No key of the request has a hash that the other consumer can have.
  have hkey : ∀ key, callAffinity own headers body = some key →
      ¬ HashOf env other (env.affinityHash key) := by
    rintro key hkey ⟨key', hkey', hhash⟩
    have hmine : KeyOf own key := ⟨headers, body, hkey⟩
    exact hmine.ne hown hother hne hkey' (hinjective key key' hmine hkey' hhash.symm)
  have hsame := Node.sameBindings_of_run hops hkey hrun
  refine ⟨fun key hother => ?_, fun s' halike => halike.of_run hops hkey hrun, ?_⟩
  · have hlookup := hsame.affinities (env.affinityHash key) ⟨key, hother, rfl⟩
    refine ⟨hlookup, hsame.dirty _ ⟨key, hother, rfl⟩, fun eligible now => ?_⟩
    rw [Balancer.affinityProvider, hlookup, Balancer.affinityProvider]
  · intro headers' body' now userId allProviders excluded
    -- The two nodes agree on the hashes of the other consumer.
    have halike : Node.AlikeOff (fun hash => ¬ HashOf env other hash) t
        { t with balancer := { t.balancer with
            affinities := s.balancer.affinities
            dirtyAffinities := s.balancer.dirtyAffinities } } :=
      ⟨rfl, rfl, rfl, rfl, rfl, rfl, rfl,
        fun hash hshown => hsame.affinities hash (not_not.mp hshown),
        fun hash hshown => hsame.dirty hash (not_not.mp hshown)⟩
    refine halike.selected_eq (fun key hkey => ?_) now userId allProviders excluded
    exact not_not.mpr ⟨key, ⟨headers', body', hkey⟩, rfl⟩

/-- A client names its session. -/
def sessionHeaders : HeaderMap := .append .new "session_id" (.fromStatic "k")

/-- A session of the consumer `b` is bound. -/
def Node.boundElsewhere : Node :=
  Node.paired.after usageLimitEnvironment [.select 49 "owner" false (some "b:k") none]

/-- A request of the consumer `a` with the same session id. -/
def sameSession : List Operation :=
  [.select 50 "owner" false (some "a:k") none, .trackResponse 51 "p" "c" 200 [], .dropLease "p"]

/-- The statement at this request. -/
theorem affinities_of_consumers_separate_sameSession :
    (Node.boundElsewhere.after usageLimitEnvironment sameSession).balancer.affinities.lookup
        "b:k" = Node.boundElsewhere.balancer.affinities.lookup "b:k" := by
  have hrun : Node.boundElsewhere.run usageLimitEnvironment sameSession =
      some (Node.boundElsewhere.after usageLimitEnvironment sameSession) :=
    Transition.run_eq_some_after (by decide)
  have hkey : callAffinity "a" sessionHeaders none = some "a:k" := by decide
  have hops : ∀ op ∈ sameSession, RequestOperation (callAffinity "a" sessionHeaders none) op := by
    intro op hop
    rw [hkey]
    simp only [sameSession, List.mem_cons, List.not_mem_nil, or_false] at hop
    obtain rfl | rfl | rfl := hop
    · exact .select 50 "owner" false none
    · exact .trackResponse 51 "p" "c" 200 []
    · exact .dropLease "p"
  have hother : KeyOf "b" "b:k" := ⟨sessionHeaders, none, by decide⟩
  exact ((affinities_of_consumers_separate (by decide) (by decide) (by decide)
    (fun _ _ _ _ heq => heq) sessionHeaders none hops hrun).1 "b:k" hother).1

end OpenAiLb
