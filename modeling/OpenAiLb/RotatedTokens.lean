import OpenAiLb.RefreshProgress

/-!
# A rotated refresh token reaches the row

The token endpoint redeems a refresh token before its answer is received, and the answer is
received before it is stored. A refresh whose future is dropped in between loses the new
tokens, and the redeemed one is of no use any more. Every other drop is harmless: a run
stores the new tokens exactly if no future is dropped while it owes them to the row.
-/

namespace OpenAiLb

/-- The call is over. -/
def RefreshPhase.isStopped : RefreshPhase → Bool
  | finished _ | dropped => true
  | _ => false

/-- The credential calls, and the token responses that the endpoint has issued, with the number
of the refresh that has asked for them. -/
structure RotationNode where
  calls : CredentialNode
  issued : List (ℕ × TokenResponse)

/-- One atomic step. -/
inductive RotationStep where
  | call (step : CredentialStep)
  /-- The endpoint redeems the refresh token of a request and issues new tokens. -/
  | issue (task : ℕ) (token : TokenResponse)

namespace RotationNode

variable (affinityHash : String → String) (ttl : Int) (jwt : JwtCodec)

/-- A refresh receives the tokens that were issued to it, and no others. -/
def delivers (s : RotationNode) : CredentialStep → Bool
  | .answer i answer =>
    match s.issued.lookup i with
    | some token => answer = .body (some token)
    | none => !(tokenRequest answer).isOk
  | _ => true

/-- One step of the calls and of the endpoint. -/
def step (s : RotationNode) : RotationStep → Option RotationNode
  | .issue i token =>
    (s.calls.refresh? i).bind fun task =>
      match task.phase with
      | .sent _ =>
        if s.issued.lookup i = none ∧ (tokenRequest (.body (some token))).isOk = true then
          some { s with issued := (i, token) :: s.issued }
        else none
      | _ => none
  | .call a =>
    if s.delivers a then
      (s.calls.step affinityHash ttl jwt a).map fun calls => { s with calls := calls }
    else none

/-- A run of the calls and of the endpoint. -/
abbrev run (s : RotationNode) (steps : List RotationStep) : Option RotationNode :=
  Transition.run (step affinityHash ttl jwt) s steps

/-- The state after a run of the calls and of the endpoint. -/
abbrev after (s : RotationNode) (steps : List RotationStep) : RotationNode :=
  Transition.after (step affinityHash ttl jwt) s steps

/-- No call has started. -/
structure Started (s : RotationNode) : Prop where
  tasks : s.calls.tasks = []
  issued : s.issued = []

/-- A refresh has tokens to store: they are on their way to it, or it has received them. -/
def owes (s : RotationNode) (i : ℕ) (task : RefreshTask) : Bool :=
  match task.phase with
  | .sent _ => (s.issued.lookup i).isSome
  | .answered _ _ => true
  | _ => false

/-- No future of a refresh of the provider is dropped while it has tokens to store. -/
def KeepsAnswers (providerId : String) (s : RotationNode) (a : RotationStep) : Prop :=
  ∀ i task, a = .call (.drop i) → s.calls.refresh? i = some task →
    task.providerId = providerId → s.owes i task = false

/-- The provider is not deleted, its tokens are not replaced, and no further token of it is
redeemed. -/
def Undisturbed (providerId : String) (s : RotationNode) : RotationStep → Prop
  | .issue i _ => ∀ task ∈ s.calls.refresh? i, task.providerId ≠ providerId
  | .call (.execute stmt) => stmt ≠ .deleteProvider providerId
  | .call (.write i _) =>
    ∀ write, s.calls.tasks[i]? = some (.write (.called write)) →
      write.credential.providerId ≠ providerId
  | .call _ => True

/-- No refresh of the provider runs. -/
def Quiet (s : RotationNode) (providerId : String) : Prop :=
  ∀ i task, s.calls.refresh? i = some task → task.providerId = providerId →
    task.phase.isStopped = true

section Runs

variable {affinityHash : String → String} {ttl : Int} {jwt : JwtCodec} {s t : RotationNode}
  {a : CredentialStep}

/-- The lock works, and tokens are issued to refreshes that have asked for them. -/
structure Locked (s : RotationNode) : Prop where
  held : s.calls.Held
  exclusive : s.calls.Exclusive
  accepted : ∀ i token, s.issued.lookup i = some token →
    tokenRequest (.body (some token)) = .ok token
  asked : ∀ i, (s.issued.lookup i).isSome = true → s.calls.HasSent i

/-- A step of the calls, in which an answer is what was issued. -/
theorem call_of_step (h : s.step affinityHash ttl jwt (.call a) = some t) :
    s.calls.step affinityHash ttl jwt a = some t.calls ∧ t.issued = s.issued ∧
      s.delivers a = true := by
  simp only [step] at h
  split at h
  · next hdelivers =>
    obtain ⟨calls, hstep, rfl⟩ := Option.map_eq_some_iff.mp h
    exact ⟨hstep, rfl, hdelivers⟩
  · cases h

/-- What the endpoint does: it issues acceptable tokens to a request that is on its way. -/
theorem issue_of_step {i : ℕ} {token : TokenResponse}
    (h : s.step affinityHash ttl jwt (.issue i token) = some t) :
    ∃ task current, s.calls.refresh? i = some task ∧ task.phase = .sent current ∧
      s.issued.lookup i = none ∧ tokenRequest (.body (some token)) = .ok token ∧
      t = { s with issued := (i, token) :: s.issued } := by
  obtain ⟨task, hi, h⟩ := Option.bind_eq_some_iff.mp h
  split at h
  · next current hphase =>
    split at h
    · next hcond =>
      cases h
      refine ⟨task, current, hi, hphase, hcond.1, ?_, rfl⟩
      cases htoken : tokenRequest (.body (some token)) with
      | error error =>
        rw [htoken] at hcond
        cases hcond.2
      | ok accepted =>
        obtain ⟨heq, -⟩ := tokenRequest_eq_ok htoken
        cases heq
        rfl
    · cases h
  · cases h

/-- **Every step keeps the lock and the record of the endpoint.** -/
theorem Locked.step (h : Locked s) {b : RotationStep}
    (hstep : s.step affinityHash ttl jwt b = some t) : Locked t := by
  cases b with
  | call a =>
    obtain ⟨hcall, hissued, -⟩ := call_of_step hstep
    have hmoves := CredentialNode.moves_of_step hcall
    refine ⟨hmoves.held h.held h.exclusive, hmoves.exclusive h.held h.exclusive, ?_, ?_⟩
    · rw [hissued]
      exact h.accepted
    · rw [hissued]
      exact fun i hi => hmoves.hasSent (h.asked i hi)
  | issue i token =>
    obtain ⟨task, current, hi, hphase, -, haccepted, rfl⟩ := issue_of_step hstep
    refine ⟨h.held, h.exclusive, ?_, ?_⟩
    · intro j other hj
      rw [List.lookup_cons] at hj
      split at hj
      · cases hj
        exact haccepted
      · exact h.accepted j other hj
    · intro j hj
      rw [List.lookup_cons] at hj
      split at hj
      · next heq =>
        obtain rfl : j = i := by simpa using heq
        exact ⟨task, hi, by rw [hphase]; rfl⟩
      · exact h.asked j hj

/-- At the start nobody holds a lock. -/
theorem Started.locked (h : s.Started) : Locked s := by
  have hnone : ∀ i task, s.calls.refresh? i ≠ some task := by
    intro i task hi
    rw [CredentialNode.refresh?_eq_some, h.tasks] at hi
    cases hi
  refine ⟨fun i task hi => absurd hi (hnone i task),
    fun i j task other hi => absurd hi (hnone i task), ?_, ?_⟩
  · rw [h.issued]
    intro i token hi
    cases hi
  · rw [h.issued]
    intro i hi
    cases hi

/-! ## A provider without tokens to store -/

/-- The credential of the provider is this one, and no refresh has tokens to store for it. -/
structure Settled (s : RotationNode) (providerId : String) (credential : Credential) : Prop where
  row : s.calls.db.credential? providerId = some credential
  paid : ∀ i task, s.calls.refresh? i = some task → task.providerId = providerId →
    s.owes i task = false

/-- Before the answer nothing is owed. -/
theorem owes_of_mayOwe {i : ℕ} {task : RefreshTask} (h : task.phase.mayOwe = false) :
    s.owes i task = false := by
  unfold owes
  split
  · next hphase =>
    rw [hphase] at h
    cases h
  · next hphase =>
    rw [hphase] at h
    cases h
  · rfl

/-- Nothing is owed to a request to which nothing was issued. -/
theorem owes_of_sent {i : ℕ} {task : RefreshTask} {current : CurrentCredential}
    (h : task.phase = .sent current) : s.owes i task = (s.issued.lookup i).isSome := by
  rw [owes, h]

/-- A refresh that owes nothing has not received tokens either. -/
theorem ne_answered_of_owes {i : ℕ} {task : RefreshTask} {current : CurrentCredential}
    {token : TokenResponse} (h : s.owes i task = false) :
    task.phase ≠ .answered current token := by
  intro hphase
  rw [owes, hphase] at h
  cases h

/-- Tokens are issued to one refresh. -/
theorem lookup_issue_ne {i j : ℕ} (token : TokenResponse) (hne : j ≠ i) :
    ((i, token) :: s.issued).lookup j = s.issued.lookup j := by
  have hbeq : (j == i) = false := by simpa using hne
  rw [List.lookup_cons, hbeq]

variable {providerId : String} {credential : Credential}

/-- The calls of an undisturbed step leave the credential of the provider alone, unless one of its
refreshes stores tokens. -/
theorem credential?_of_undisturbed (hmoves : CredentialNode.Moves affinityHash ttl jwt s.calls a
      t.calls) (hund : Undisturbed providerId s (.call a))
    (hstore : ∀ i now task current token, a = .write i now → s.calls.refresh? i = some task →
      task.phase = .answered current token → task.providerId ≠ providerId) :
    t.calls.db.credential? providerId = s.calls.db.credential? providerId := by
  refine hmoves.credential?_eq ?_ ?_ hstore
  · rintro rfl
    exact hund rfl
  · rintro i now write rfl hi
    exact hund write hi

/-- **A settled provider stays settled** until it is deleted, replaced or redeemed again. -/
theorem Settled.step (h : Settled s providerId credential) (hlocked : Locked s)
    {b : RotationStep} (hund : Undisturbed providerId s b)
    (hstep : s.step affinityHash ttl jwt b = some t) : Settled t providerId credential := by
  cases b with
  | call a =>
    obtain ⟨hcall, hissued, hdelivers⟩ := call_of_step hstep
    have hmoves := CredentialNode.moves_of_step hcall
    constructor
    · rw [credential?_of_undisturbed hmoves hund, h.row]
      intro i now task current token _ hi hphase hid
      exact ne_answered_of_owes (h.paid i task hi hid) hphase
    · intro i found hi hid
      have howes : ∀ task, t.owes i task = s.owes i task := by
        intro task
        rw [owes, owes, hissued]
      rw [howes]
      cases hmoves.progress hi with
      | stayed hj => exact h.paid i found hj hid
      | settled hphase => exact owes_of_mayOwe hphase
      | left hj hphase hfound =>
        rw [owes_of_sent hfound]
        by_contra hissue
        obtain ⟨task, htask, hsent⟩ := hlocked.asked i (by simpa using hissue)
        rw [hj] at htask
        cases htask
        rw [hphase] at hsent
        cases hsent
      | @arrived task current token hj hsame hphase ha htoken =>
        have hnone := h.paid i task hj (hsame.trans hid)
        rw [owes_of_sent hphase, Option.isSome_eq_false_iff, Option.isNone_iff_eq_none] at hnone
        rw [ha, delivers, hnone, htoken] at hdelivers
        cases hdelivers
  | issue i token =>
    obtain ⟨task, current, hi, -, -, -, rfl⟩ := issue_of_step hstep
    refine ⟨h.row, fun j found hj hid => ?_⟩
    have hne : j ≠ i := by
      rintro rfl
      exact hund found hj hid
    have hlookup := lookup_issue_ne (s := s) token hne
    have howes := h.paid j found hj hid
    unfold owes at howes ⊢
    rwa [hlookup]

/-- A settled provider has no answers to lose. -/
theorem Settled.guarded (h : Settled s providerId credential) (hlocked : Locked s)
    {steps : List RotationStep}
    (hund : Transition.Guarded (RotationNode.step affinityHash ttl jwt) (Undisturbed providerId) s
      steps) :
    Transition.Guarded (RotationNode.step affinityHash ttl jwt) (KeepsAnswers providerId) s
      steps := by
  induction steps generalizing s with
  | nil => trivial
  | cons b steps ih =>
    refine ⟨fun i task _ hi hid => h.paid i task hi hid, fun m hm => ?_⟩
    exact ih (h.step hlocked hund.1 hm) (hlocked.step hm) (hund.2 m hm)

/-! ## A refresh with tokens to store -/

/-- The refresh has tokens to store, and the row still has the credential that was redeemed. -/
structure Owing (s : RotationNode) (i : ℕ) (task : RefreshTask) (current : CurrentCredential)
    (token : TokenResponse) (redeemed : Credential) : Prop where
  refresh : s.calls.refresh? i = some task
  row : s.calls.db.credential? task.providerId = some redeemed
  unchanged : redeemed.refreshToken = current.refreshToken
  phase : (task.phase = .sent current ∧ s.issued.lookup i = some token) ∨
    task.phase = .answered current token

variable {i : ℕ} {task : RefreshTask} {current : CurrentCredential} {token : TokenResponse}
  {redeemed : Credential}

/-- A task with new tokens that are not stored yet owes them. -/
theorem Owing.owes (h : Owing s i task current token redeemed) : s.owes i task = true := by
  rcases h.phase with ⟨hphase, hissued⟩ | hphase
  · rw [owes_of_sent hphase, hissued]
    rfl
  · rw [RotationNode.owes, hphase]

/-- A task with new tokens holds the lock. -/
theorem Owing.holdsLock (h : Owing s i task current token redeemed) :
    task.phase.holdsLock = true := by
  rcases h.phase with ⟨hphase, -⟩ | hphase <;> rw [hphase] <;> rfl

/-- A refresh that owes tokens holds the lock of its provider. -/
theorem holdsLock_of_owes {j : ℕ} {other : RefreshTask} (h : s.owes j other = true) :
    other.phase.holdsLock = true := by
  unfold RotationNode.owes at h
  split at h
  · next hphase => rw [hphase]; rfl
  · next hphase => rw [hphase]; rfl
  · cases h

/-- Once the only refresh that owes tokens has none any more, the provider is settled. -/
theorem Owing.settled (h : Owing s i task current token redeemed) (hlocked : Locked s)
    (hissued : t.issued = s.issued) {after : RefreshTask}
    (hself : t.calls.refresh? i = some after) (hafter : after.phase.mayOwe = false)
    (hothers : ∀ j, j ≠ i → t.calls.refresh? j = s.calls.refresh? j)
    (hrow : t.calls.db.credential? task.providerId = some credential) :
    Settled t task.providerId credential := by
  refine ⟨hrow, fun j found hj hid => ?_⟩
  by_cases heq : j = i
  · subst heq
    obtain rfl : after = found := Option.some.inj (hself.symm.trans hj)
    exact owes_of_mayOwe hafter
  · by_contra howes
    have hsame : s.owes j found = true := by
      rw [RotationNode.owes, ← hissued, ← RotationNode.owes]
      simpa using howes
    rw [hothers j heq] at hj
    exact heq (hlocked.exclusive j i found task hj h.refresh (holdsLock_of_owes hsame)
      h.holdsLock hid)

/-- What a refresh that owes tokens can do: receive them, store them, or be dropped. -/
theorem Owing.acts (h : Owing s i task current token redeemed) (hactor : a.actor = some i)
    (hcall : s.calls.step affinityHash ttl jwt a = some t.calls) :
    (task.phase = .sent current ∧ s.issued.lookup i = some token ∧
        ∃ answer, a = .answer i answer) ∨
      (task.phase = .answered current token ∧ ∃ now, a = .write i now) ∨ a = .drop i := by
  have hi := h.refresh
  have htask := CredentialNode.refresh?_eq_some.mp hi
  cases a with
  | select | execute | refreshIfNeeded | refreshProvider | replaceTokens | insertProvider =>
    cases hactor
  | drop j =>
    cases hactor
    exact .inr (.inr rfl)
  | answer j answer =>
    cases hactor
    rcases h.phase with ⟨hphase, hissued⟩ | hphase
    · exact .inl ⟨hphase, hissued, answer, rfl⟩
    · simp [CredentialNode.step, hi, hphase] at hcall
  | write j now =>
    cases hactor
    rcases h.phase with ⟨hphase, -⟩ | hphase
    · simp [CredentialNode.step, htask, RefreshTask.statement, hphase] at hcall
    · exact .inr (.inl ⟨hphase, now, rfl⟩)
  | lock j | read j now | send j | reload j =>
    cases hactor
    rcases h.phase with ⟨hphase, -⟩ | hphase <;>
      simp [CredentialNode.step, hi, htask, hphase] at hcall

/-- **What a step can do to a refresh that owes tokens**: it owes them still, it is dropped and
they are lost, or they are stored. -/
theorem Owing.step (h : Owing s i task current token redeemed) (hlocked : Locked s)
    {b : RotationStep} (hund : Undisturbed task.providerId s b)
    (hstep : s.step affinityHash ttl jwt b = some t) :
    (b ≠ .call (.drop i) ∧ ∃ after, after.providerId = task.providerId ∧
        Owing t i after current token redeemed) ∨
      (b = .call (.drop i) ∧ Settled t task.providerId redeemed) ∨
      (b ≠ .call (.drop i) ∧ ∃ credential, Settled t task.providerId credential ∧
        credential.accessToken = token.accessToken ∧
        credential.refreshToken = token.refreshToken) := by
  cases b with
  | issue j other =>
    obtain ⟨asked, reading, hj, -, -, -, rfl⟩ := issue_of_step hstep
    have hne : i ≠ j := by
      rintro rfl
      exact hund task h.refresh rfl
    refine .inl ⟨nofun, task, rfl, h.refresh, h.row, h.unchanged, ?_⟩
    rcases h.phase with ⟨hphase, hissued⟩ | hphase
    · exact .inl ⟨hphase, (lookup_issue_ne other hne).trans hissued⟩
    · exact .inr hphase
  | call a =>
    obtain ⟨hcall, hissued, hdelivers⟩ := call_of_step hstep
    have hmoves := CredentialNode.moves_of_step hcall
    by_cases hactor : a.actor = some i
    · rcases h.acts hactor hcall with ⟨hphase, hlookup, answer, rfl⟩ | ⟨hphase, now, rfl⟩ | rfl
      · obtain rfl : answer = .body (some token) := by
          simpa [delivers, hlookup] using hdelivers
        obtain ⟨hdb, hafter⟩ := CredentialNode.answer_of_step h.refresh hphase
          (hlocked.accepted i token hlookup) hcall
        exact .inl ⟨nofun, { task with phase := .answered current token }, rfl, hafter,
          hdb ▸ h.row, h.unchanged, .inr rfl⟩
      · obtain ⟨hrow, ⟨after, hself, hafter⟩, hothers⟩ :=
          CredentialNode.store_of_step h.refresh hphase h.row h.unchanged hcall
        exact .inr (.inr ⟨nofun, _, h.settled hlocked hissued hself hafter hothers hrow, rfl, rfl⟩)
      · obtain ⟨hdb, hself, hothers⟩ := CredentialNode.drop_of_step h.refresh hcall
        exact .inr (.inl ⟨rfl, h.settled hlocked hissued hself rfl hothers (hdb ▸ h.row)⟩)
    · have hdrop : RotationStep.call a ≠ .call (.drop i) := by
        rintro ⟨⟩
        exact hactor rfl
      refine .inl ⟨hdrop, task, rfl, hmoves.refresh?_of_ne h.refresh hactor, ?_, h.unchanged, ?_⟩
      · rw [credential?_of_undisturbed hmoves hund, h.row]
        rintro j now other reading answer rfl hj hphase hid
        have hheld : other.phase.holdsLock = true := by rw [hphase]; rfl
        have heq := hlocked.exclusive j i other task hj h.refresh hheld h.holdsLock hid
        exact hactor (congrArg some heq)
      · rw [hissued]
        exact h.phase

/-- The row of the provider holds the tokens of the response. -/
def Holds (s : RotationNode) (providerId : String) (token : TokenResponse) : Prop :=
  ∃ row, s.calls.db.provider? providerId = some row ∧ row.accessToken = token.accessToken ∧
    row.refreshToken = token.refreshToken

/-- A settled provider holds the tokens of its credential. -/
theorem Settled.holds_iff (h : Settled s providerId credential) :
    s.Holds providerId token ↔ credential.accessToken = token.accessToken ∧
      credential.refreshToken = token.refreshToken := by
  obtain ⟨row, hrow, rfl⟩ := Option.map_eq_some_iff.mp h.row
  constructor
  · rintro ⟨found, hfound, haccess, hrefresh⟩
    obtain rfl : row = found := Option.some.inj (hrow.symm.trans hfound)
    exact ⟨haccess, hrefresh⟩
  · rintro ⟨haccess, hrefresh⟩
    exact ⟨row, hrow, haccess, hrefresh⟩

/-- A settled provider stays settled along an undisturbed run. -/
theorem Settled.run (h : Settled s providerId credential) (hlocked : Locked s)
    {steps : List RotationStep}
    (hund : Transition.Guarded (RotationNode.step affinityHash ttl jwt) (Undisturbed providerId) s
      steps) (hrun : s.run affinityHash ttl jwt steps = some t) :
    Settled t providerId credential := by
  have hstep : ∀ {u b v}, Settled u providerId credential ∧ Locked u →
      Undisturbed providerId u b → RotationNode.step affinityHash ttl jwt u b = some v →
      Settled v providerId credential ∧ Locked v :=
    fun hinv hok hv => ⟨hinv.1.step hinv.2 hok hv, hinv.2.step hv⟩
  exact (Transition.invariant_of_guarded hstep hund hrun ⟨h, hlocked⟩).1

/-- **Owed tokens are stored exactly if the refresh is not dropped while it owes them.** -/
theorem Owing.holds_iff (h : Owing s i task current token redeemed) (hlocked : Locked s)
    (hrotated : token.refreshToken ≠ current.refreshToken) {steps : List RotationStep}
    (hund : Transition.Guarded (RotationNode.step affinityHash ttl jwt)
      (Undisturbed task.providerId) s steps)
    (hrun : s.run affinityHash ttl jwt steps = some t) (hquiet : t.Quiet task.providerId) :
    t.Holds task.providerId token ↔
      Transition.Guarded (RotationNode.step affinityHash ttl jwt) (KeepsAnswers task.providerId) s
        steps := by
  induction steps generalizing s task with
  | nil =>
    obtain rfl : s = t := by simpa using hrun
    have hstopped := hquiet i task h.refresh rfl
    rcases h.phase with ⟨hphase, -⟩ | hphase <;>
    · rw [hphase] at hstopped
      cases hstopped
  | cons b steps ih =>
    obtain ⟨m, hm, hrest⟩ := Transition.run_cons_eq_some hrun
    have hmlocked := hlocked.step hm
    have hkeeps : b ≠ .call (.drop i) → KeepsAnswers task.providerId s b := by
      rintro hne j other rfl hj hid
      by_contra howes
      have hheld := holdsLock_of_owes (by simpa using howes)
      have heq := hlocked.exclusive j i other task hj h.refresh hheld h.holdsLock hid
      exact hne (heq ▸ rfl)
    have hcons : KeepsAnswers task.providerId s b →
        (Transition.Guarded (RotationNode.step affinityHash ttl jwt)
          (KeepsAnswers task.providerId) s (b :: steps) ↔
        Transition.Guarded (RotationNode.step affinityHash ttl jwt)
          (KeepsAnswers task.providerId) m steps) := by
      intro hok
      constructor
      · exact fun hall => hall.2 m hm
      · refine fun hall => ⟨hok, fun m' hm' => ?_⟩
        obtain rfl : m = m' := Option.some.inj (hm.symm.trans hm')
        exact hall
    rcases h.step hlocked hund.1 hm with ⟨hne, after, hid, howing⟩ | ⟨rfl, hsettled⟩ |
      ⟨hne, credential, hsettled, haccess, hrefresh⟩
    · rw [hcons (hkeeps hne), ← hid]
      exact ih howing hmlocked (hid ▸ hund.2 m hm) hrest (hid ▸ hquiet)
    · have hend := hsettled.run hmlocked (hund.2 m hm) hrest
      rw [hend.holds_iff]
      constructor
      · rintro ⟨-, hsame⟩
        exact absurd (hsame.symm.trans h.unchanged) hrotated
      · intro hall
        have hpaid := hall.1 i task rfl h.refresh rfl
        rw [h.owes] at hpaid
        cases hpaid
    · have hend := hsettled.run hmlocked (hund.2 m hm) hrest
      rw [hcons (hkeeps hne), hend.holds_iff]
      exact ⟨fun _ => hsettled.guarded hmlocked (hund.2 m hm), fun _ => ⟨haccess, hrefresh⟩⟩

/-- **A rotated refresh token reaches the row exactly if no refresh is dropped while it has tokens
to store.** The endpoint redeems the refresh token that the row of a provider has. In the run after
that, futures may be dropped anywhere, while the provider is not deleted, its tokens are not
replaced and no further token of it is redeemed. Once none of its refreshes runs, the row holds the
new tokens if and only if no refresh of the provider was dropped after the endpoint had issued
tokens to it and before its `UPDATE`. -/
theorem rotatedTokens_held_iff {start m redeemed t : RotationNode}
    {before later : List RotationStep} (hstart : start.Started)
    (hbefore : start.run affinityHash ttl jwt before = some m)
    (hi : m.calls.refresh? i = some task) (hphase : task.phase = .sent current)
    (hcurrent : (m.calls.db.credential? task.providerId).map Credential.refreshToken =
      some current.refreshToken)
    (hissue : m.step affinityHash ttl jwt (.issue i token) = some redeemed)
    (hrotated : token.refreshToken ≠ current.refreshToken)
    (hund : Transition.Guarded (RotationNode.step affinityHash ttl jwt)
      (Undisturbed task.providerId) redeemed later)
    (hlater : redeemed.run affinityHash ttl jwt later = some t)
    (hquiet : t.Quiet task.providerId) :
    t.Holds task.providerId token ↔
      Transition.Guarded (RotationNode.step affinityHash ttl jwt) (KeepsAnswers task.providerId)
        redeemed later := by
  have hlocked : Locked m :=
    Transition.invariant_of_run (fun h hstep => h.step hstep) hbefore hstart.locked
  obtain ⟨credential, hrow, hsame⟩ := Option.map_eq_some_iff.mp hcurrent
  obtain ⟨asked, reading, hasked, -, -, -, rfl⟩ := issue_of_step hissue
  have howing : Owing { m with issued := (i, token) :: m.issued } i task current token credential :=
    ⟨hi, hrow, hsame, .inl ⟨hphase, List.lookup_cons_self⟩⟩
  exact howing.holds_iff (hlocked.step hissue) hrotated hund hlater hquiet

end Runs

/-- A node on which no call has started. -/
def loaded : RotationNode := ⟨CredentialNode.loaded, []⟩

/-- The loaded node has started. -/
theorem loaded_started : loaded.Started := ⟨rfl, rfl⟩

/-- A client's request finds its provider about to expire and asks for new tokens. -/
def asking : List RotationStep :=
  [.call (.select 50 "owner" false none none), .call (.refreshIfNeeded 0 60), .call (.lock 0),
    .call (.read 0 60), .call (.send 0)]

/-- The tokens that the endpoint issues. -/
def rotated : TokenResponse := ⟨"access2", "r2", 3600⟩

/-- The client waits until the tokens are stored. -/
def patient : List RotationStep :=
  [.call (.answer 0 (.body (some rotated))), .call (.write 0 62), .call (.reload 0)]

/-- The client disconnects before the `UPDATE`. -/
def impatient : List RotationStep :=
  [.call (.answer 0 (.body (some rotated))), .call (.drop 0)]

/-- The node when the request is on its way. -/
def asked : RotationNode := loaded.after id 3600 CredentialNode.accountCodec asking

/-- The node when the endpoint has redeemed the token. -/
def redeemed : RotationNode := asked.after id 3600 CredentialNode.accountCodec [.issue 0 rotated]

/-- The node when the tokens have been received. -/
def received : RotationNode := redeemed.after id 3600 CredentialNode.accountCodec
  [.call (.answer 0 (.body (some rotated)))]

/-- The node when the tokens are stored. -/
def stored : RotationNode := redeemed.after id 3600 CredentialNode.accountCodec patient

/-- The node when the client has disconnected. -/
def lost : RotationNode := redeemed.after id 3600 CredentialNode.accountCodec impatient

/-- Only a drop can lose an answer. -/
theorem keepsAnswers_of_ne {s : RotationNode} {b : RotationStep} {providerId : String}
    (h : ∀ i, b ≠ .call (.drop i)) : KeepsAnswers providerId s b :=
  fun i _ heq => absurd heq (h i)

/-- The one refresh of this run is over. -/
theorem quiet_of_singleton {s : RotationNode} {only : RefreshTask} {providerId : String}
    (htasks : s.calls.tasks = [.refresh only]) (hstopped : only.phase.isStopped = true) :
    s.Quiet providerId := by
  intro i task hi _
  rw [CredentialNode.refresh?_eq_some, htasks] at hi
  have hmem := List.mem_of_getElem? hi
  cases List.mem_singleton.mp hmem
  exact hstopped

/-- The statement at the run of a patient client. -/
theorem rotatedTokens_held_iff_patient : stored.Holds "p" rotated := by
  have hbefore : loaded.run id 3600 CredentialNode.accountCodec asking = some asked := rfl
  have hissue : asked.step id 3600 CredentialNode.accountCodec (.issue 0 rotated) =
      some redeemed := rfl
  have hlater : redeemed.run id 3600 CredentialNode.accountCodec patient = some stored := rfl
  obtain ⟨task, current, hi, hid, hphase, htoken⟩ : ∃ task current,
      asked.calls.refresh? 0 = some task ∧ task.providerId = "p" ∧
        task.phase = .sent current ∧ current.refreshToken = "r1" := ⟨_, _, rfl, rfl, rfl, rfl⟩
  have hcurrent : (asked.calls.db.credential? task.providerId).map Credential.refreshToken =
      some current.refreshToken := by
    rw [hid, htoken]
    rfl
  have hrotated : rotated.refreshToken ≠ current.refreshToken := by
    rw [htoken]
    decide
  have hund : Transition.Guarded (step id 3600 CredentialNode.accountCodec)
      (Undisturbed task.providerId) redeemed patient := by
    refine ⟨trivial, fun s hs => ⟨?_, fun _ _ => ⟨trivial, fun _ _ => trivial⟩⟩⟩
    have hone : redeemed.step id 3600 CredentialNode.accountCodec
        (.call (.answer 0 (.body (some rotated)))) = some received := rfl
    obtain rfl : received = s := Option.some.inj (hone.symm.trans hs)
    have htask : (received.calls.refresh? 0).isSome = true := rfl
    obtain ⟨answered, hanswered⟩ := Option.isSome_iff_exists.mp htask
    intro write hwrite
    rw [CredentialNode.refresh?_eq_some.mp hanswered] at hwrite
    exact absurd hwrite (by simp)
  have hquiet : stored.Quiet task.providerId := quiet_of_singleton rfl rfl
  have hkeeps : Transition.Guarded (step id 3600 CredentialNode.accountCodec)
      (KeepsAnswers task.providerId) redeemed patient :=
    ⟨keepsAnswers_of_ne (by simp), fun _ _ => ⟨keepsAnswers_of_ne (by simp), fun _ _ =>
      ⟨keepsAnswers_of_ne (by simp), fun _ _ => trivial⟩⟩⟩
  have hheld := (rotatedTokens_held_iff loaded_started hbefore hi hphase hcurrent hissue hrotated
    hund hlater hquiet).mpr hkeeps
  rwa [hid] at hheld

/-- **A client that disconnects loses the new tokens.** The endpoint has redeemed the refresh token
of the provider, no replacement has intervened and no refresh runs any more; the row still has the
token that was redeemed. -/
theorem disconnect_loses_tokens :
    loaded.Started ∧ loaded.run id 3600 CredentialNode.accountCodec asking = some asked ∧
      (asked.calls.db.credential? "p").map Credential.refreshToken = some "r1" ∧
      asked.step id 3600 CredentialNode.accountCodec (.issue 0 rotated) = some redeemed ∧
      Transition.Guarded (step id 3600 CredentialNode.accountCodec) (Undisturbed "p") redeemed
        impatient ∧
      redeemed.run id 3600 CredentialNode.accountCodec impatient = some lost ∧
      lost.Quiet "p" ∧ ¬lost.Holds "p" rotated ∧
      (lost.calls.db.provider? "p").map Provider.refreshToken = some "r1" := by
  have hrow : (lost.calls.db.provider? "p").map Provider.refreshToken = some "r1" := rfl
  refine ⟨loaded_started, rfl, rfl, rfl, ⟨trivial, fun _ _ => ⟨trivial, fun _ _ => trivial⟩⟩, rfl,
    quiet_of_singleton rfl rfl, ?_, hrow⟩
  rintro ⟨row, hfound, -, hrefresh⟩
  rw [hfound, Option.map_some, hrefresh] at hrow
  exact absurd hrow (by decide)

end RotationNode

end OpenAiLb
