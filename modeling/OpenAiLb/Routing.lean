import OpenAiLb.Balancer

/-!
# Routing and authorization

A selection only ever returns a provider that is available, that the user may
use, and that is not excluded; it fails only when there is none, and a failed
selection leaves no trace. Nothing about the providers that a user may not use
reaches that user through the choice, not even through the affinity table, the
in-flight counters or the position of the cursor.
-/

namespace OpenAiLb

/-- `min_by_key` reads the key at the elements of the list alone. -/
theorem minByKey_congr {α : Type*} {f g : α → ℕ} {l : List α} (h : ∀ a ∈ l, f a = g a) :
    minByKey f l = minByKey g l := by
  induction l with
  | nil => rfl
  | cons x rest ih =>
    have hrest : minByKey f rest = minByKey g rest :=
      ih fun a ha => h a (List.mem_cons_of_mem x ha)
    simp only [minByKey, hrest]
    cases hmin : minByKey g rest with
    | none => rfl
    | some y =>
      have hy : f y = g y := h y (List.mem_cons_of_mem x (mem_of_minByKey hmin))
      simp only [h x List.mem_cons_self, hy]

namespace Balancer

variable (affinityHash : String → String) (ttl : Int)

/-- The user may route to the provider: all of them, an owned one, or a granted one. -/
def mayUse (grants : GrantSnapshot) (userId : String) (allProviders : Bool)
    (provider : Provider) : Bool :=
  allProviders || provider.ownerId = some userId || (provider.id, userId) ∈ grants

/-- The providers that the user may use, in snapshot order. -/
def usable (b : Balancer) (userId : String) (allProviders : Bool) : List Provider :=
  b.providers.rows.filter (mayUse b.providerGrants userId allProviders)

/-- Eligibility is decided among the usable providers. -/
theorem eligible_eq_filter_usable (b : Balancer) (now : Int) (userId : String)
    (allProviders : Bool) (excluded : Option String) :
    b.eligible now userId allProviders excluded =
      (b.usable userId allProviders).filter fun provider =>
        providerIsAvailable provider now && excluded ≠ some provider.id := by
  rw [usable, List.filter_filter, eligible]
  refine List.filter_congr fun provider _ => ?_
  simp only [isEligible, mayUse]
  grind

/-- The provider that `select` takes: the affine one, else the least loaded one. -/
def choose (b : Balancer) (now : Int) (affinity : Option String) (eligible : List Provider) :
    Option Provider × Balancer :=
  match (affinity.map affinityHash).bind fun hash => b.affinityProvider hash eligible now with
  | some provider => (some provider, b)
  | none => b.leastInflight eligible

/-- The state once the chosen provider is remembered and counted. -/
def leased (b : Balancer) (now : Int) (affinity : Option String) (chosen : Provider) : Balancer :=
  let b := (affinity.map affinityHash).elim b fun hash => b.rememberAffinity hash chosen.id now ttl
  { b with inflight := b.inflight.insert chosen.id ((b.inflightOf chosen.id + 1) % 2 ^ 64) }

/-- `select` with the state that each of its exits leaves behind. -/
def runSelect (b : Balancer) (now : Int) (userId : String) (allProviders : Bool)
    (affinity excluded : Option String) : Except AppError Lease × Balancer :=
  let eligible := b.eligible now userId allProviders excluded
  if eligible = [] then (.error noAvailableProvider, b)
  else
    match b.choose affinityHash now affinity eligible with
    -- The exit of `expect`: the cursor has moved by then.
    | (none, b) => (.error noAvailableProvider, b)
    | (some chosen, b) =>
      (.ok ⟨chosen, chosen.accessToken, chosen.refreshToken⟩,
        b.leased affinityHash ttl now affinity chosen)

/-- Remembering and counting a lease leaves the cursor, the snapshot and the grants alone. -/
theorem leased_frame (b : Balancer) (now : Int) (affinity : Option String) (chosen : Provider) :
    (b.leased affinityHash ttl now affinity chosen).cursor = b.cursor ∧
      (b.leased affinityHash ttl now affinity chosen).providers = b.providers ∧
      (b.leased affinityHash ttl now affinity chosen).providerGrants = b.providerGrants := by
  cases affinity <;> exact ⟨rfl, rfl, rfl⟩

/-- Handing out a lease keeps the usable providers. -/
theorem usable_leased (b : Balancer) (now : Int) (affinity : Option String) (chosen : Provider)
    (userId : String) (allProviders : Bool) :
    (b.leased affinityHash ttl now affinity chosen).usable userId allProviders =
      b.usable userId allProviders := by
  obtain ⟨-, hproviders, hgrants⟩ := leased_frame affinityHash ttl b now affinity chosen
  rw [usable, hproviders, hgrants, usable]

/-- Only the counter of the leased provider moves. -/
theorem inflightOf_leased (b : Balancer) (now : Int) (affinity : Option String)
    (chosen : Provider) (id : String) :
    (b.leased affinityHash ttl now affinity chosen).inflightOf id =
      if id = chosen.id then (b.inflightOf chosen.id + 1) % 2 ^ 64 else b.inflightOf id := by
  have hlookup : (b.leased affinityHash ttl now affinity chosen).inflightOf id =
      ((b.inflight.insert chosen.id ((b.inflightOf chosen.id + 1) % 2 ^ 64)).lookup id).getD 0 := by
    cases affinity <;> rfl
  rw [hlookup]
  by_cases heq : id = chosen.id
  · rw [heq, AList.lookup_insert, if_pos rfl, Option.getD_some]
  · rw [AList.lookup_insert_ne heq, if_neg heq, inflightOf]

/-- A lease under an affinity key binds the key to the leased provider. -/
theorem affinities_leased_some (b : Balancer) (now : Int) (key : String) (chosen : Provider) :
    (b.leased affinityHash ttl now (some key) chosen).affinities =
      b.affinities.insert (affinityHash key) ⟨chosen.id, now + ttl, now⟩ := rfl

/-- A nonempty list of eligible providers gets a choice, from the list. -/
theorem choose_spec (b : Balancer) (now : Int) (affinity : Option String)
    {eligible : List Provider} (h : eligible ≠ []) :
    ∃ chosen mid, b.choose affinityHash now affinity eligible = (some chosen, mid) ∧
      chosen ∈ eligible := by
  unfold choose
  cases haffine : (affinity.map affinityHash).bind fun hash =>
      b.affinityProvider hash eligible now with
  | some chosen =>
    refine ⟨chosen, b, rfl, ?_⟩
    obtain ⟨hash, -, hfound⟩ := Option.bind_eq_some_iff.mp haffine
    obtain ⟨entry, -, hentry⟩ := Option.bind_eq_some_iff.mp hfound
    split at hentry
    · exact List.mem_of_find?_eq_some hentry
    · cases hentry
  | none =>
    have hsome : (b.leastInflight eligible).1.isSome = true := by
      apply minByKey_isSome
      intro hnil
      obtain ⟨hdrop, htake⟩ := List.append_eq_nil_iff.mp hnil
      have happend := List.take_append_drop (b.cursor % eligible.length) eligible
      rw [hdrop, htake] at happend
      exact h happend.symm
    obtain ⟨chosen, hchosen⟩ := Option.isSome_iff_exists.mp hsome
    refine ⟨chosen, (b.leastInflight eligible).2, Prod.ext hchosen rfl, ?_⟩
    obtain hmem | hmem := List.mem_append.mp (mem_of_minByKey hchosen)
    · exact List.mem_of_mem_drop hmem
    · exact List.mem_of_mem_take hmem

/-- Choosing moves the cursor at most. -/
theorem choose_frame (b : Balancer) (now : Int) (affinity : Option String)
    (eligible : List Provider) :
    (b.choose affinityHash now affinity eligible).2 = b ∨
      (b.choose affinityHash now affinity eligible).2 =
        { b with cursor := (b.cursor + 1) % 2 ^ 64 } := by
  unfold choose
  split
  · exact Or.inl rfl
  · exact Or.inr rfl

/-- Without an eligible provider the run stops before it touches anything. -/
theorem runSelect_of_nil {b : Balancer} {now : Int} {userId : String} {allProviders : Bool}
    {excluded : Option String} (affinity : Option String)
    (h : b.eligible now userId allProviders excluded = []) :
    b.runSelect affinityHash ttl now userId allProviders affinity excluded =
      (.error noAvailableProvider, b) := by
  rw [runSelect, if_pos h]

/-- With an eligible provider the run leases the chosen one. -/
theorem runSelect_of_choose {b mid : Balancer} {now : Int} {userId : String}
    {allProviders : Bool} {affinity excluded : Option String} {chosen : Provider}
    (hne : b.eligible now userId allProviders excluded ≠ [])
    (h : b.choose affinityHash now affinity (b.eligible now userId allProviders excluded) =
      (some chosen, mid)) :
    b.runSelect affinityHash ttl now userId allProviders affinity excluded =
      (.ok ⟨chosen, chosen.accessToken, chosen.refreshToken⟩,
        mid.leased affinityHash ttl now affinity chosen) := by
  rw [runSelect, if_neg hne, h]

/-- With an eligible provider, `select` leases the chosen one. -/
theorem select_of_choose {b mid : Balancer} {now : Int} {userId : String}
    {allProviders : Bool} {affinity excluded : Option String} {chosen : Provider}
    (hne : b.eligible now userId allProviders excluded ≠ [])
    (h : b.choose affinityHash now affinity (b.eligible now userId allProviders excluded) =
      (some chosen, mid)) :
    b.select affinityHash ttl now userId allProviders affinity excluded =
      .ok (⟨chosen, chosen.accessToken, chosen.refreshToken⟩,
        mid.leased affinityHash ttl now affinity chosen) := by
  unfold choose at h
  unfold select
  dsimp only
  rw [if_neg hne]
  cases hfound : (affinity.map affinityHash).bind fun hash =>
      b.affinityProvider hash (b.eligible now userId allProviders excluded) now with
  | some provider =>
    rw [hfound] at h
    obtain ⟨hchosen, rfl⟩ := Prod.mk.inj h
    obtain rfl := Option.some.inj hchosen
    rfl
  | none =>
    rw [hfound] at h
    dsimp only at h ⊢
    rw [h]
    rfl

/-- `select` is that run, without the state on an error. -/
theorem select_eq_runSelect (b : Balancer) (now : Int) (userId : String) (allProviders : Bool)
    (affinity excluded : Option String) :
    b.select affinityHash ttl now userId allProviders affinity excluded =
      (b.runSelect affinityHash ttl now userId allProviders affinity excluded).1.map fun lease =>
        (lease, (b.runSelect affinityHash ttl now userId allProviders affinity excluded).2) := by
  by_cases hnil : b.eligible now userId allProviders excluded = []
  · rw [runSelect_of_nil affinityHash ttl affinity hnil, select, if_pos hnil]
    rfl
  · obtain ⟨chosen, mid, hchoose, -⟩ :=
      choose_spec affinityHash b now affinity hnil
    rw [runSelect_of_choose affinityHash ttl hnil hchoose,
      select_of_choose affinityHash ttl hnil hchoose]
    rfl

/-! ## What a user can learn from a choice -/

/-- An affinity entry that names a usable provider. -/
def namesUsable (usable : List Provider) (entry : AffinityEntry) : Bool :=
  entry.providerId ∈ usable.map Provider.id

/-- Two states that agree on everything about the providers that the user may use. -/
structure Agrees (userId : String) (allProviders : Bool) (b b' : Balancer) : Prop where
  cursor : b'.cursor = b.cursor
  usable : b'.usable userId allProviders = b.usable userId allProviders
  inflight : ∀ provider ∈ b.usable userId allProviders,
    b'.inflightOf provider.id = b.inflightOf provider.id
  affinity : ∀ hash,
    (b'.affinities.lookup hash).filter (namesUsable (b.usable userId allProviders)) =
      (b.affinities.lookup hash).filter (namesUsable (b.usable userId allProviders))

/-- An eligible provider is a usable one. -/
theorem mem_usable_of_mem_eligible {b : Balancer} {now : Int} {userId : String}
    {allProviders : Bool} {excluded : Option String} {provider : Provider}
    (h : provider ∈ b.eligible now userId allProviders excluded) :
    provider ∈ b.usable userId allProviders := by
  rw [eligible_eq_filter_usable] at h
  exact List.mem_of_mem_filter h

/-- The affine provider only depends on the entry where it names a usable provider. -/
theorem affinityProvider_eq_filter {usable eligible : List Provider} (b : Balancer) (hash : String)
    (now : Int) (hsub : ∀ provider ∈ eligible, provider ∈ usable) :
    b.affinityProvider hash eligible now =
      ((b.affinities.lookup hash).filter (namesUsable usable)).bind fun entry =>
        if now < entry.expiresAt then
          eligible.find? fun provider => provider.id = entry.providerId
        else none := by
  unfold affinityProvider
  cases hentry : b.affinities.lookup hash with
  | none => rfl
  | some entry =>
    by_cases hnamed : namesUsable usable entry = true
    · simp [Option.filter, hnamed]
    · have hnone : (eligible.find? fun provider => provider.id = entry.providerId) = none := by
        rw [List.find?_eq_none]
        intro provider hmem heq
        apply hnamed
        rw [namesUsable, decide_eq_true_eq]
        exact List.mem_map.mpr ⟨provider, hsub provider hmem, by simpa using heq⟩
      simp [Option.filter, hnamed, hnone]

section Agrees

variable {userId : String} {allProviders : Bool} {b b' : Balancer}

/-- States that agree have the same eligible providers. -/
theorem Agrees.eligible_eq (h : Agrees userId allProviders b b') (now : Int)
    (excluded : Option String) :
    b'.eligible now userId allProviders excluded = b.eligible now userId allProviders excluded := by
  rw [eligible_eq_filter_usable, eligible_eq_filter_usable, h.usable]

/-- States that agree choose the same provider, and agree after the choice. -/
theorem Agrees.choose (h : Agrees userId allProviders b b') (now : Int) (affinity : Option String)
    (eligible : List Provider) (hsub : ∀ p ∈ eligible, p ∈ b.usable userId allProviders) :
    (b'.choose affinityHash now affinity eligible).1 =
        (b.choose affinityHash now affinity eligible).1 ∧
      Agrees userId allProviders (b.choose affinityHash now affinity eligible).2
        (b'.choose affinityHash now affinity eligible).2 := by
  have haffine : ((affinity.map affinityHash).bind fun hash =>
      b'.affinityProvider hash eligible now) =
      (affinity.map affinityHash).bind fun hash => b.affinityProvider hash eligible now := by
    refine congrArg _ (funext fun hash => ?_)
    rw [affinityProvider_eq_filter b' hash now hsub, affinityProvider_eq_filter b hash now hsub,
      h.affinity hash]
  unfold Balancer.choose
  rw [haffine]
  split
  · exact ⟨rfl, h⟩
  · constructor
    · simp only [leastInflight, h.cursor]
      apply minByKey_congr
      intro provider hmem
      apply h.inflight provider (hsub provider _)
      obtain hdrop | htake := List.mem_append.mp hmem
      · exact List.mem_of_mem_drop hdrop
      · exact List.mem_of_mem_take htake
    · have hcursor : (b'.leastInflight eligible).2.cursor = (b.leastInflight eligible).2.cursor :=
        congrArg (fun cursor => (cursor + 1) % 2 ^ 64) h.cursor
      exact ⟨hcursor, h.usable, h.inflight, h.affinity⟩

/-- States that agree agree once the same provider is remembered and counted. -/
theorem Agrees.leased (h : Agrees userId allProviders b b') (now : Int)
    (affinity : Option String) {chosen : Provider}
    (hmem : chosen ∈ b.usable userId allProviders) :
    Agrees userId allProviders (b.leased affinityHash ttl now affinity chosen)
      (b'.leased affinityHash ttl now affinity chosen) where
  cursor := by
    rw [(leased_frame affinityHash ttl b' now affinity chosen).1, h.cursor,
      (leased_frame affinityHash ttl b now affinity chosen).1]
  usable := by
    rw [usable_leased, usable_leased, h.usable]
  inflight := by
    intro provider hprovider
    rw [usable_leased] at hprovider
    rw [inflightOf_leased, inflightOf_leased, h.inflight chosen hmem, h.inflight provider hprovider]
  affinity := by
    intro hash
    rw [usable_leased]
    cases affinity with
    | none => exact h.affinity hash
    | some key =>
      rw [affinities_leased_some, affinities_leased_some]
      by_cases heq : hash = affinityHash key
      · rw [heq, AList.lookup_insert, AList.lookup_insert]
      · rw [AList.lookup_insert_ne heq, AList.lookup_insert_ne heq]
        exact h.affinity hash

/-- **A choice depends on the usable providers alone.** States that agree on them answer alike,
and still agree afterwards. -/
theorem Agrees.runSelect (h : Agrees userId allProviders b b') (now : Int)
    (affinity excluded : Option String) :
    (b'.runSelect affinityHash ttl now userId allProviders affinity excluded).1 =
        (b.runSelect affinityHash ttl now userId allProviders affinity excluded).1 ∧
      Agrees userId allProviders
        (b.runSelect affinityHash ttl now userId allProviders affinity excluded).2
        (b'.runSelect affinityHash ttl now userId allProviders affinity excluded).2 := by
  have heligible := h.eligible_eq now excluded
  by_cases hnil : b.eligible now userId allProviders excluded = []
  · rw [runSelect_of_nil affinityHash ttl affinity hnil,
      runSelect_of_nil affinityHash ttl affinity (heligible.trans hnil)]
    exact ⟨rfl, h⟩
  · obtain ⟨chosen, mid, hchoose, hmem⟩ := choose_spec affinityHash b now affinity hnil
    have hboth := h.choose affinityHash now affinity
      (b.eligible now userId allProviders excluded) fun p hp => mem_usable_of_mem_eligible hp
    rw [hchoose] at hboth
    have hchoose' : b'.choose affinityHash now affinity
        (b'.eligible now userId allProviders excluded) = (some chosen,
          (b'.choose affinityHash now affinity
            (b.eligible now userId allProviders excluded)).2) := by
      rw [heligible]
      exact Prod.ext hboth.1 rfl
    rw [runSelect_of_choose affinityHash ttl hnil hchoose,
      runSelect_of_choose affinityHash ttl (heligible ▸ hnil) hchoose']
    refine ⟨rfl, hboth.2.leased affinityHash ttl now affinity ?_⟩
    have hframe := choose_frame affinityHash b now affinity
      (b.eligible now userId allProviders excluded)
    rw [hchoose] at hframe
    obtain rfl | rfl := hframe <;> exact mem_usable_of_mem_eligible hmem

end Agrees

/-- What the run answers: a lease on an eligible provider, or the error when there is none. -/
theorem runSelect_spec (b : Balancer) (now : Int) (userId : String) (allProviders : Bool)
    (affinity excluded : Option String) :
    (b.eligible now userId allProviders excluded = [] ∧
      b.runSelect affinityHash ttl now userId allProviders affinity excluded =
        (.error noAvailableProvider, b)) ∨
    ∃ chosen ∈ b.eligible now userId allProviders excluded,
      (b.runSelect affinityHash ttl now userId allProviders affinity excluded).1 =
        .ok ⟨chosen, chosen.accessToken, chosen.refreshToken⟩ := by
  by_cases hnil : b.eligible now userId allProviders excluded = []
  · exact Or.inl ⟨hnil, runSelect_of_nil affinityHash ttl affinity hnil⟩
  · obtain ⟨chosen, mid, hchoose, hmem⟩ := choose_spec affinityHash b now affinity hnil
    refine Or.inr ⟨chosen, hmem, ?_⟩
    rw [runSelect_of_choose affinityHash ttl hnil hchoose]

/-- **Routing authorization.** A lease is on a provider of the snapshot that is available, that
the user may use, and that is not excluded; the selection fails exactly when no provider of the
snapshot is all three, and then it changes nothing; and a state that differs only in providers
that the user may not use gives the same answer. -/
theorem runSelect_authorized (b : Balancer) (now : Int) (userId : String) (allProviders : Bool)
    (affinity excluded : Option String) :
    (∀ lease, (b.runSelect affinityHash ttl now userId allProviders affinity excluded).1 =
        .ok lease →
      lease.provider ∈ b.providers ∧
        (lease.provider.manualDisabled = false ∧ (lease.provider.status = .active ∨
          (lease.provider.status = .cooldown ∧
            ∃ until_, lease.provider.cooldownUntil = some until_ ∧ until_ ≤ now))) ∧
        (allProviders = true ∨ lease.provider.ownerId = some userId ∨
          (lease.provider.id, userId) ∈ b.providerGrants) ∧
        excluded ≠ some lease.provider.id) ∧
    (((∃ error, (b.runSelect affinityHash ttl now userId allProviders affinity excluded).1 =
        .error error) ↔
      ∀ provider ∈ b.providers, ¬(providerIsAvailable provider now = true ∧
        (allProviders = true ∨ provider.ownerId = some userId ∨
          (provider.id, userId) ∈ b.providerGrants) ∧ excluded ≠ some provider.id)) ∧
      ∀ error, (b.runSelect affinityHash ttl now userId allProviders affinity excluded).1 =
          .error error →
        (b.runSelect affinityHash ttl now userId allProviders affinity excluded).2 = b) ∧
    ∀ b', Agrees userId allProviders b b' →
      (b'.runSelect affinityHash ttl now userId allProviders affinity excluded).1 =
        (b.runSelect affinityHash ttl now userId allProviders affinity excluded).1 := by
  have hspec := runSelect_spec affinityHash ttl b now userId allProviders affinity excluded
  refine ⟨?_, ⟨⟨?_, ?_⟩, ?_⟩, ?_⟩
  · intro lease hlease
    obtain ⟨-, hrun⟩ | ⟨chosen, hmem, hrun⟩ := hspec
    · rw [hrun] at hlease
      cases hlease
    · rw [hrun] at hlease
      cases hlease
      obtain ⟨hrow, havailable, hallowed, hexcluded⟩ := mem_eligible.mp hmem
      exact ⟨hrow, providerIsAvailable_iff.mp havailable, hallowed, hexcluded⟩
  · rintro ⟨error, herror⟩ provider hrow ⟨havailable, hallowed, hexcluded⟩
    obtain ⟨hnil, -⟩ | ⟨chosen, -, hrun⟩ := hspec
    · have hmem := mem_eligible.mpr ⟨hrow, havailable, hallowed, hexcluded⟩
      rw [hnil] at hmem
      exact absurd hmem List.not_mem_nil
    · rw [hrun] at herror
      cases herror
  · intro hnone
    obtain ⟨-, hrun⟩ | ⟨chosen, hmem, -⟩ := hspec
    · exact ⟨noAvailableProvider, by rw [hrun]⟩
    · obtain ⟨hrow, hgood⟩ := mem_eligible.mp hmem
      exact absurd hgood (hnone chosen hrow)
  · intro error herror
    obtain ⟨-, hrun⟩ | ⟨chosen, -, hrun⟩ := hspec
    · rw [hrun]
    · rw [hrun] at herror
      cases herror
  · intro b' hagrees
    exact (hagrees.runSelect affinityHash ttl now affinity excluded).1

/-- A provider with an owner, as it is created. -/
def ownedProvider (id owner : String) : Provider :=
  ⟨id, "name", "account", "access", "refresh", none, .active, false, none, none, none, none, 10, 10,
    some owner⟩

/-- A balancer that knows one provider of the user `u`. -/
def single : Balancer :=
  { default with providers := ⟨[ownedProvider "p" "u"], by decide⟩ }

/-- The same with a busy provider of somebody else, to which the key `k` is bound. -/
def crowded : Balancer :=
  { default with
    providers := ⟨[ownedProvider "q" "v", ownedProvider "p" "u"], by decide⟩
    inflight := (∅ : AList fun _ : String => ℕ).insert "q" 5
    affinities := (∅ : AList fun _ : String => AffinityEntry).insert "k" ⟨"q", 100, 10⟩ }

/-- The two states agree for `u`. -/
theorem agrees_crowded : Agrees "u" false single crowded where
  cursor := rfl
  usable := by decide
  inflight := by decide
  affinity := by
    intro hash
    by_cases heq : hash = "k"
    · subst heq
      decide
    · have hlookup : crowded.affinities.lookup hash = none := by
        rw [crowded, AList.lookup_insert_ne heq]
        rfl
      rw [hlookup]
      rfl

/-- The statement for a user between the providers of others. -/
theorem runSelect_authorized_crowded :
    (crowded.runSelect id 60 20 "u" false (some "k") none).1 =
      (single.runSelect id 60 20 "u" false (some "k") none).1 :=
  (runSelect_authorized id 60 single 20 "u" false (some "k") none).2.2 crowded agrees_crowded

end Balancer

end OpenAiLb
