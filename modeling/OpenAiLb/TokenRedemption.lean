import OpenAiLb.CredentialMoves
import OpenAiLb.Library.RenewalSafety
import OpenAiLb.Library.Tasks

/-!
# A refresh token is redeemed once

The credential calls renew single-use tokens: a provider is a cell, a running call is an
agent, and the step of a call is a step of the renewal protocol. It follows that no refresh
token is sent or redeemed again once it was redeemed, and that a refresh whose token was
replaced meanwhile writes nothing.
-/

namespace OpenAiLb

/-- What the renewal protocol sees of a refresh. -/
def RefreshPhase.abstract : RefreshPhase → Renewal.Phase String
  | waiting | finished _ | dropped => .idle
  | locked | reloading _ => .holding
  | read current | sent current | refused current _ => .reading current.refreshToken
  | answered current token => .redeemed current.refreshToken token.refreshToken

/-- The lock of the code is the lock of the protocol. -/
theorem RefreshPhase.holds_abstract {phase : RefreshPhase} :
    phase.abstract.holds ↔ phase.holdsLock = true := by
  cases phase <;> simp [abstract, Renewal.Phase.holds, holdsLock]

/-- The token that a refresh has read is the token of the protocol. -/
theorem RefreshPhase.token?_abstract {phase : RefreshPhase} {current : CurrentCredential}
    (h : phase.inFlight = some current) : phase.abstract.token? = some current.refreshToken := by
  cases phase <;> cases h <;> rfl

/-- The `UPDATE` has run, or it will never run. -/
def RefreshPhase.isOver : RefreshPhase → Bool
  | reloading _ | finished _ | dropped => true
  | _ => false

/-- A refresh is over with its `UPDATE`. -/
theorem RefreshTask.isOver_resultAfter {task : RefreshTask} {n : ℕ} :
    (task.resultAfter n).isOver = true := by
  unfold resultAfter
  split
  · rfl
  · split <;> rfl

/-- The result of a refresh holds no token. -/
theorem RefreshTask.rests_resultAfter {task : RefreshTask} {n : ℕ} :
    (task.resultAfter n).abstract.rests := by
  unfold resultAfter
  split
  · trivial
  · split <;> trivial

/-- A running call as an agent. A write that is over has no provider any more. -/
def CredentialTask.agent : CredentialTask → Renewal.Agent String String
  | .refresh task => ⟨task.providerId, task.phase.abstract⟩
  | .write (.called new) => ⟨new.credential.providerId, .supplying new.credential.refreshToken⟩
  | .write _ => ⟨"", .idle⟩

namespace CredentialNode

/-- The state of the renewal protocol. -/
def abstract (s : CredentialNode) : Renewal.State ℕ String String where
  cells id := (s.db.credential? id).map Credential.refreshToken
  agents i := (s.tasks[i]?.map CredentialTask.agent).getD ⟨"", .idle⟩
  supplied := s.credentials.map fun credential => (credential.providerId, credential.refreshToken)
  log := s.log

variable {s t : CredentialNode}

/-- The cell of a provider holds the refresh token of its row. -/
theorem abstract_cells (id : String) :
    s.abstract.cells id = (s.db.credential? id).map Credential.refreshToken := rfl

/-- The agents are the tasks. -/
theorem abstract_agents {i : ℕ} {task : CredentialTask} (hi : s.tasks[i]? = some task) :
    s.abstract.agents i = task.agent := by
  simp [abstract, hi]

/-- The next task is an idle agent. -/
theorem abstract_agents_length : s.abstract.agents s.tasks.length = ⟨"", .idle⟩ := by
  simp [abstract]

/-- The tokens are those of the credentials that were supplied. -/
theorem abstract_tokens :
    s.abstract.tokens = s.credentials.map Credential.refreshToken := by
  simp [abstract, Renewal.State.tokens, Function.comp_def]

/-- A call that starts is the next agent. -/
theorem abstract_start (task : CredentialTask) :
    (s.start task).abstract = s.abstract.move s.tasks.length task.agent := by
  have hagents : (s.start task).abstract.agents =
      Function.update s.abstract.agents s.tasks.length task.agent := by
    funext i
    rw [Function.update_apply]
    split
    · next heq =>
      subst heq
      simp [abstract, start]
    · next hne =>
      simp only [abstract, start]
      rw [List.getElem?_append]
      split
      · rfl
      · next hge =>
        rw [List.getElem?_eq_none (by simp; omega), List.getElem?_eq_none (by omega)]
  rw [Renewal.State.move, ← hagents]
  rfl

/-- A call that moves is an agent that moves. -/
theorem abstract_set {i : ℕ} {old : CredentialTask} (hi : s.tasks[i]? = some old)
    (new : CredentialTask) :
    { s with tasks := s.tasks.set i new }.abstract = s.abstract.move i new.agent := by
  have hagents : { s with tasks := s.tasks.set i new }.abstract.agents =
      Function.update s.abstract.agents i new.agent := by
    funext j
    rw [Function.update_apply]
    split
    · next heq =>
      subst heq
      rw [abstract_agents (Tasks.set_self hi)]
    · next hne =>
      simp only [abstract]
      rw [List.getElem?_set_ne (Ne.symm hne)]
  rw [Renewal.State.move, ← hagents]
  rfl

/-- A refresh that moves. -/
theorem abstract_move {i : ℕ} {task : RefreshTask} (hi : s.refresh? i = some task)
    (after : RefreshTask) :
    (s.move i task after).abstract = s.abstract.move i ⟨after.providerId, after.phase.abstract⟩ :=
  abstract_set (refresh?_eq_some.mp hi) (.refresh after)

/-- No future is dropped, and a refresh token that is supplied was not supplied before. -/
def SuppliesNewTokens (s : CredentialNode) (a : CredentialStep) : Prop :=
  a.isDrop = false ∧
    ∀ token ∈ a.suppliedToken, token ∉ s.credentials.map Credential.refreshToken

instance (s : CredentialNode) (a : CredentialStep) : Decidable (s.SuppliesNewTokens a) :=
  inferInstanceAs (Decidable (_ ∧ _))

/-- No call has started. The credentials of the rows were supplied, each refresh token once. -/
structure Started (s : CredentialNode) : Prop where
  tasks : s.tasks = []
  log : s.log = []
  recorded : ∀ row ∈ s.db.providers, row.credential ∈ s.credentials
  nodup : (s.credentials.map Credential.refreshToken).Nodup

/-- A refresh with the lock of its provider is on the list of locks. -/
def Held (s : CredentialNode) : Prop :=
  ∀ i task, s.refresh? i = some task → task.phase.holdsLock = true → task.providerId ∈ s.locks

/-- The invariant of the calls. -/
structure Safe (s : CredentialNode) : Prop where
  sound : Renewal.Sound s.abstract
  held : Held s

/-- Two refreshes with the lock of one provider are the same. -/
def Exclusive (s : CredentialNode) : Prop :=
  ∀ i j task other, s.refresh? i = some task → s.refresh? j = some other →
    task.phase.holdsLock = true → other.phase.holdsLock = true →
    task.providerId = other.providerId → i = j

/-- In a safe state the agents exclude each other. -/
theorem Safe.exclusive (h : Safe s) : Exclusive s := by
  intro i j task other hi hj hheld hother hid
  apply h.sound.exclusive
  · rw [abstract_agents (refresh?_eq_some.mp hi)]
    exact RefreshPhase.holds_abstract.mpr hheld
  · rw [abstract_agents (refresh?_eq_some.mp hj)]
    exact RefreshPhase.holds_abstract.mpr hother
  · rw [abstract_agents (refresh?_eq_some.mp hi), abstract_agents (refresh?_eq_some.mp hj)]
    exact hid

section Simulation

variable {affinityHash : String → String} {ttl : Int} {jwt : JwtCodec} {a : CredentialStep}

/-- The protocol forgets cells, or does nothing. -/
theorem forgets (hcells : ∀ id x, t.abstract.cells id = some x → s.abstract.cells id = some x)
    (htasks : t.tasks = s.tasks) (hcredentials : t.credentials = s.credentials)
    (hlog : t.log = s.log) : Renewal.Step s.abstract t.abstract := by
  have heq : t.abstract = { s.abstract with cells := t.abstract.cells } := by
    simp only [abstract, htasks, hcredentials, hlog]
  rw [heq]
  exact .forget hcells

/-- A statement that changes no credential changes no cell. -/
theorem cells_of_credential? {db : Database} {id x : String}
    (h : ∀ credential, db.credential? id = some credential →
      s.db.credential? id = some credential)
    (hx : (db.credential? id).map Credential.refreshToken = some x) :
    s.abstract.cells id = some x := by
  obtain ⟨credential, hfound, rfl⟩ := Option.map_eq_some_iff.mp hx
  rw [abstract_cells, h credential hfound]
  rfl

/-- The cells after the `UPDATE` of a refresh. -/
theorem cells_of_storesToken {db : Database} {n : ℕ} {stmt : Statement}
    {id refresh accountId : String} {token : TokenResponse}
    (hstmt : stmt.StoresToken id refresh token accountId) (hexec : stmt.exec s.db = .ok (db, n)) :
    { s with db := db }.abstract.cells =
      if s.abstract.cells id = some refresh then
        Function.update s.abstract.cells id (some token.refreshToken)
      else s.abstract.cells := by
  funext other
  rw [abstract_cells]
  dsimp only
  rw [hstmt.credential? hexec, ← abstract_cells id]
  by_cases htoken : s.abstract.cells id = some refresh
  · rw [if_pos htoken, Function.update_apply]
    by_cases hother : other = id
    · simp [hother, htoken]
    · simp [hother, abstract_cells]
  · rw [if_neg htoken, if_neg fun h => htoken h.2]
    rfl

/-- The cells after a replacement or a creation. -/
theorem cells_of_write {db : Database} {n : ℕ} {write : CredentialWrite}
    (hexec : write.statement.exec s.db = .ok (db, n)) :
    { s with db := db }.abstract.cells = s.abstract.cells ∨
      { s with db := db }.abstract.cells = Function.update s.abstract.cells
        write.credential.providerId (some write.credential.refreshToken) := by
  obtain ⟨hothers, hself | ⟨hgone, hnone⟩⟩ := CredentialWrite.credential?_of_exec hexec
  · right
    funext id
    rw [Function.update_apply]
    split
    · next heq => simp [abstract, heq, hself]
    · next hne => simp [abstract, hothers id hne]
  · left
    funext id
    by_cases heq : id = write.credential.providerId
    · simp [abstract, heq, hgone, hnone]
    · simp [abstract, hothers id heq]

/-- An agent with a lock is a refresh with that lock. -/
theorem exists_holder {j : ℕ} (h : (s.abstract.agents j).phase.holds) :
    ∃ other, s.refresh? j = some other ∧ other.phase.holdsLock = true ∧
      other.providerId = (s.abstract.agents j).cell := by
  cases hj : s.tasks[j]? with
  | none =>
    simp only [abstract, hj] at h
    exact h.elim
  | some task =>
    rw [abstract_agents hj] at h ⊢
    cases task with
    | refresh other =>
      exact ⟨other, refresh?_eq_some.mpr hj, RefreshPhase.holds_abstract.mp h, rfl⟩
    | write phase => cases phase <;> exact h.elim

/-- A write that is over is an idle agent. -/
theorem agent_after (result : Except SqliteError ℕ) :
    (CredentialTask.write (.after result)).agent = ⟨"", .idle⟩ := by
  cases result with
  | error => rfl
  | ok n =>
    unfold WritePhase.after
    split
    · rfl
    · next hok =>
      cases hok
      split <;> rfl

/-- **A step of the calls is a step of the renewal protocol.** -/
theorem Moves.simulates (h : Moves affinityHash ttl jwt s a t) (hsafe : Safe s)
    (hok : s.SuppliesNewTokens a) : Renewal.Step s.abstract t.abstract := by
  have hagent : ∀ {i task}, s.refresh? i = some task →
      s.abstract.agents i = ⟨task.providerId, task.phase.abstract⟩ :=
    fun hi => abstract_agents (refresh?_eq_some.mp hi)
  have hnext : (s.abstract.agents s.tasks.length).phase = .idle := by
    rw [abstract_agents_length]
  cases h with
  | rejected | selected => exact forgets (fun _ _ hx => hx) rfl rfl rfl
  | executed hkeep hexec =>
    refine forgets (fun id x hx => ?_) rfl rfl rfl
    exact cells_of_credential?
      (fun _ hfound => Statement.credential?_of_keepsTokens hkeep hexec hfound) hx
  | calledWithLease hlease hphase =>
    rw [abstract_start]
    rcases hphase with rfl | rfl
    · exact .call _ hnext
    · exact .call _ hnext
  | called providerId =>
    rw [abstract_start]
    exact .call _ hnext
  | refusedWrite error =>
    rw [abstract_start]
    exact .call _ hnext
  | @supplied a write htoken =>
    have hnew : write.credential.refreshToken ∉ s.abstract.tokens := by
      rw [abstract_tokens]
      exact hok.2 _ htoken
    rw [supply, abstract_start]
    exact .supply _ hnext hnew
  | @locked i task hi hphase hfree =>
    rw [abstract_move hi]
    apply Renewal.Step.lock (by rw [hagent hi, hphase]; rfl)
    intro j hj heq
    obtain ⟨other, hother, hheld, hcell⟩ := exists_holder hj
    exact hfree (heq ▸ hcell ▸ hsafe.held j other hother hheld)
  | @missing i now task hi hphase | @renewed i now task lease row hi hphase =>
    have hholding : s.abstract.agents i = ⟨task.providerId, .holding⟩ := by
      rw [hagent hi, hphase]
      rfl
    rw [abstract_move hi]
    exact .release hholding rfl trivial False.elim
  | @read i now task row hi hphase hrow =>
    rw [abstract_move hi]
    apply Renewal.Step.read (by rw [hagent hi, hphase]; rfl)
    rw [abstract_cells, Database.credential?, hrow]
    rfl
  | @sent i task current hi hphase =>
    have hreading : s.abstract.agents i = ⟨task.providerId, .reading current.refreshToken⟩ := by
      rw [hagent hi, hphase]
      rfl
    rw [abstract_move (s := { s with log := .sent current.refreshToken :: s.log }) hi]
    rw [Renewal.move_eq_self]
    · exact .send hreading
    · exact hreading
  | @answered i task current token hi hphase =>
    rw [abstract_move (s := { s with
      credentials := current.successor jwt task.providerId token :: s.credentials
      log := .redeemed current.refreshToken :: s.log }) hi]
    have hnew : token.refreshToken ∉ s.abstract.tokens := by
      rw [abstract_tokens]
      exact hok.2 _ rfl
    exact .redeem (by rw [hagent hi, hphase]; rfl) hnew
  | @refused i answer task current phase error hi hphase hafter =>
    have hreading : s.abstract.agents i = ⟨task.providerId, .reading current.refreshToken⟩ := by
      rw [hagent hi, hphase]
      rfl
    rw [abstract_move hi]
    rcases hafter with rfl | rfl
    · rw [Renewal.move_eq_self]
      · exact forgets (fun _ _ hx => hx) rfl rfl rfl
      · exact hreading
    · exact .release hreading rfl trivial False.elim
  | @stored i now task current token stmt db n hi hphase hstmt hexec =>
    have hdb : { s with db := db }.abstract = { s.abstract with
        cells := if s.abstract.cells task.providerId = some current.refreshToken then
          Function.update s.abstract.cells task.providerId (some token.refreshToken)
        else s.abstract.cells } := by
      rw [← cells_of_storesToken hstmt hexec]
      rfl
    rw [abstract_move (s := { s with db := db }) hi, hdb]
    exact .commit (by rw [hagent hi, hphase]; rfl) RefreshTask.rests_resultAfter
  | @marked i now task current error stmt db n hi hphase hstmt hexec =>
    subst hstmt
    have hdb : { s with db := db }.abstract = s.abstract := by
      simp only [abstract, Statement.credential?_of_refreshFailed hexec]
    have hreading : s.abstract.agents i = ⟨task.providerId, .reading current.refreshToken⟩ := by
      rw [hagent hi, hphase]
      rfl
    rw [abstract_move (s := { s with db := db }) hi, hdb]
    exact .release hreading rfl trivial fun _ => trivial
  | @wrote i now write hi =>
    have hsupplying : s.abstract.agents i =
        ⟨write.credential.providerId, .supplying write.credential.refreshToken⟩ :=
      abstract_agents hi
    unfold runWrite
    split
    · next db n hexec =>
      rw [abstract_set (s := { s with db := db }) hi, agent_after]
      exact .overwrite hsupplying (cells_of_write hexec)
    · rw [abstract_set hi, agent_after]
      exact .overwrite hsupplying (.inl rfl)
  | @reloaded i task result hi hphase =>
    have hholding : s.abstract.agents i = ⟨task.providerId, .holding⟩ := by
      rw [hagent hi, hphase]
      rfl
    rw [abstract_move (s := { s with balancer := s.balancer.reloadProviders s.db }) hi]
    exact .release hholding rfl trivial False.elim
  | @reloadedWrite i hi =>
    rw [abstract_set (s := { s with balancer := s.balancer.reloadProviders s.db }) hi]
    rw [Renewal.move_eq_self]
    · exact forgets (fun _ _ hx => hx) rfl rfl rfl
    · have hidle : s.abstract.agents i = ⟨"", .idle⟩ := abstract_agents hi
      exact hidle
  | dropped hi => cases hok.1
  | droppedWrite hi => cases hok.1

/-- A call that starts without the lock. -/
theorem Held.start (h : Held s) {new : CredentialTask}
    (hnew : ∀ task, new = .refresh task → task.phase.holdsLock = false) : Held (s.start new) := by
  intro j found hj hheld
  rcases Tasks.of_start (refresh?_eq_some.mp hj) with hj | ⟨-, heq⟩
  · exact h j found (refresh?_eq_some.mpr hj) hheld
  · rw [hnew found heq.symm] at hheld
    cases hheld

/-- A write that moves. -/
theorem Held.set (h : Held s) {i : ℕ} {old new : WritePhase}
    (hi : s.tasks[i]? = some (.write old)) :
    Held { s with tasks := s.tasks.set i (.write new) } := by
  intro j found hj hheld
  rcases Tasks.of_set hi (refresh?_eq_some.mp hj) with ⟨-, heq⟩ | ⟨-, hj⟩
  · cases heq
  · exact h j found (refresh?_eq_some.mpr hj) hheld

/-- A refresh that moves gives up no lock but its own. -/
theorem Held.move (h : Held s) (halone : Exclusive s) {i : ℕ} {task after : RefreshTask}
    (hi : s.refresh? i = some task) (hid : after.providerId = task.providerId) :
    Held (s.move i task after) := by
  intro j found hj hheld
  rcases Tasks.of_set (refresh?_eq_some.mp hi) (refresh?_eq_some.mp hj) with
    ⟨-, heq⟩ | ⟨hne, hj⟩
  · cases heq
    simp only [CredentialNode.move, if_pos hheld]
    split
    · next htask => exact hid ▸ h i task hi htask
    · exact hid ▸ List.mem_cons_self
  · have hother := refresh?_eq_some.mpr hj
    have hmem := h j found hother hheld
    simp only [CredentialNode.move]
    split
    · split
      · exact hmem
      · exact List.mem_cons_of_mem _ hmem
    · split
      · next htask =>
        have hdiffer : found.providerId ≠ task.providerId :=
          fun heq => hne (halone j i found task hother hi hheld htask heq)
        exact List.mem_filter.mpr ⟨hmem, by simpa using hdiffer⟩
      · exact hmem

/-- Every lock that is held stays on the list. -/
theorem Moves.held (h : Moves affinityHash ttl jwt s a t) (hheld : Held s)
    (halone : Exclusive s) : Held t := by
  cases h with
  | rejected | selected | executed => exact hheld
  | calledWithLease hlease hphase =>
    apply hheld.start
    rintro task ⟨⟩
    rcases hphase with rfl | rfl <;> rfl
  | called providerId =>
    apply hheld.start
    rintro task ⟨⟩
    rfl
  | refusedWrite | supplied =>
    apply Held.start
    · exact hheld
    · rintro task ⟨⟩
  | locked hi | missing hi | renewed hi | read hi | sent hi | answered hi | refused error hi
  | stored hi | marked hi | reloaded hi | dropped hi => exact Held.move hheld halone hi rfl
  | @wrote i now write hi =>
    unfold runWrite
    split
    · exact Held.set hheld hi
    · exact hheld.set hi
  | reloadedWrite hi => exact Held.set hheld hi
  | droppedWrite hi => exact hheld.set hi

/-- **Every admissible step keeps the invariant.** -/
theorem Safe.step (h : Safe s) (hok : s.SuppliesNewTokens a)
    (hstep : s.step affinityHash ttl jwt a = some t) : Safe t := by
  have hmoves := moves_of_step hstep
  exact ⟨h.sound.step (hmoves.simulates h hok), hmoves.held h.held h.exclusive⟩

/-- The invariant holds before the first call. -/
theorem Started.safe (h : s.Started) : Safe s where
  sound := by
    apply Renewal.Sound.of_idle
    · intro i
      simp [abstract, h.tasks]
    · exact h.log
    · rw [abstract_tokens]
      exact h.nodup
    · intro id x hx
      obtain ⟨credential, hfound, rfl⟩ := Option.map_eq_some_iff.mp hx
      obtain ⟨row, hrow, rfl⟩ := Option.map_eq_some_iff.mp hfound
      have hid : row.id = id := Table.key_of_find? hrow
      refine List.mem_map.mpr ⟨row.credential, h.recorded row (Table.mem_of_find? hrow), ?_⟩
      rw [← hid]
      rfl
  held := by
    intro i task hi
    rw [refresh?_eq_some, h.tasks] at hi
    cases hi

/-- A refresh that was in flight with this reading is so still, or is over. -/
def Attempts (s : CredentialNode) (i : ℕ) (providerId : String) (current : CurrentCredential) :
    Prop :=
  ∃ task, s.refresh? i = some task ∧ task.providerId = providerId ∧
    (task.phase.inFlight = some current ∨ task.phase.isOver = true)

section Attempts

variable {i : ℕ} {providerId : String} {current : CurrentCredential}

/-- A task that starts leaves the attempts of the others alone. -/
theorem Attempts.start (h : s.Attempts i providerId current) (new : CredentialTask) :
    (s.start new).Attempts i providerId current := by
  obtain ⟨task, hi, hrest⟩ := h
  exact ⟨task, refresh?_eq_some.mpr (Tasks.start_other (refresh?_eq_some.mp hi)), hrest⟩

/-- Another call moves. -/
theorem Attempts.set (h : s.Attempts i providerId current) {j : ℕ} {old new : WritePhase}
    (hj : s.tasks[j]? = some (.write old)) :
    { s with tasks := s.tasks.set j (.write new) }.Attempts i providerId current := by
  obtain ⟨task, hi, hrest⟩ := h
  have hne : j ≠ i := by
    rintro rfl
    rw [refresh?_eq_some, hj] at hi
    cases hi
  exact ⟨task, refresh?_eq_some.mpr (Tasks.set_other hne (refresh?_eq_some.mp hi)), hrest⟩

/-- A refresh moves, and keeps its reading until it is over. -/
theorem Attempts.move (h : s.Attempts i providerId current) {j : ℕ} {task after : RefreshTask}
    (hj : s.refresh? j = some task) (hid : after.providerId = task.providerId)
    (hphase : task.phase.inFlight = some current ∨ task.phase.isOver = true →
      after.phase.inFlight = some current ∨ after.phase.isOver = true) :
    (s.move j task after).Attempts i providerId current := by
  obtain ⟨found, hi, hfound, hrest⟩ := h
  have hset := refresh?_eq_some.mp hj
  by_cases heq : j = i
  · subst heq
    obtain rfl : task = found := Option.some.inj (hj.symm.trans hi)
    exact ⟨after, refresh?_eq_some.mpr (Tasks.set_self hset), hid.trans hfound, hphase hrest⟩
  · exact ⟨found, refresh?_eq_some.mpr (Tasks.set_other heq (refresh?_eq_some.mp hi)), hfound,
      hrest⟩

/-- **A refresh in flight keeps its reading until it is over.** -/
theorem Moves.attempts (h : Moves affinityHash ttl jwt s a t)
    (hs : s.Attempts i providerId current) : t.Attempts i providerId current := by
  cases h with
  | rejected | selected | executed => exact hs
  | calledWithLease | called | refusedWrite => exact hs.start _
  | supplied => exact Attempts.start hs _
  | locked hj hphase | missing hj hphase | renewed hj hphase | read hj hphase =>
    refine hs.move hj rfl ?_
    rw [hphase]
    rintro (hflight | hover)
    · cases hflight
    · cases hover
  | sent hj hphase | answered hj hphase =>
    refine Attempts.move hs hj rfl ?_
    rw [hphase]
    exact id
  | refused error hj hphase hafter =>
    refine hs.move hj rfl ?_
    rw [hphase]
    rcases hafter with rfl | rfl
    · exact id
    · exact fun _ => .inr rfl
  | stored hj => exact Attempts.move hs hj rfl fun _ => .inr RefreshTask.isOver_resultAfter
  | marked hj | reloaded hj => exact Attempts.move hs hj rfl fun _ => .inr rfl
  | @wrote j now write hj =>
    unfold runWrite
    split
    · exact Attempts.set hs hj
    · exact hs.set hj
  | reloadedWrite hj => exact Attempts.set hs hj
  | dropped hj => exact hs.move hj rfl fun _ => .inr rfl
  | droppedWrite hj => exact hs.set hj

end Attempts

/-- A refresh whose token was replaced writes nothing. -/
theorem db_of_write {i : ℕ} {now : Int} {task : RefreshTask} {current : CurrentCredential}
    (hi : s.refresh? i = some task) (hphase : task.phase.inFlight = some current)
    (htoken : s.abstract.cells task.providerId ≠ some current.refreshToken)
    (hstep : s.step affinityHash ttl jwt (.write i now) = some t) : t.db = s.db := by
  simp only [step, refresh?_eq_some.mp hi] at hstep
  obtain ⟨stmt, hstmt, rfl⟩ := Option.map_eq_some_iff.mp hstep
  have hrefreshes := RefreshTask.refreshes_of_statement hphase hstmt
  unfold writeRow
  split
  · next db n hexec => exact Statement.exec_eq_of_ne hrefreshes htoken hexec
  · rfl

/-- A replacement leaves every refresh task alone. -/
theorem tasks_of_replace {j : ℕ} {now : Int} {credential : Credential} {name : String}
    {expiresAt : Option Int} {at' : Int}
    (hj : s.tasks[j]? = some (.write (.called (.replace credential name expiresAt at'))))
    (hstep : s.step affinityHash ttl jwt (.write j now) = some t) :
    (∀ i task, s.refresh? i = some task → t.refresh? i = some task) ∧
      (t.db.credential? credential.providerId = some credential ∨
        t.db.credential? credential.providerId = none) := by
  simp only [step, hj, Option.some.injEq] at hstep
  subst hstep
  unfold runWrite
  split
  · next db n hexec =>
    constructor
    · intro i task hi
      have hne : j ≠ i := by
        rintro rfl
        rw [refresh?_eq_some, hj] at hi
        cases hi
      exact refresh?_eq_some.mpr (Tasks.set_other hne (refresh?_eq_some.mp hi))
    · rcases (CredentialWrite.credential?_of_exec hexec).2 with hself | ⟨hgone, -⟩
      · exact .inl hself
      · exact .inr hgone
  · next error hexec => cases hexec

/-- A replacement retires the token that a refresh in flight has read. -/
theorem Safe.retired (h : Safe s) {i j : ℕ} {now : Int} {task : RefreshTask}
    {current : CurrentCredential} {credential : Credential} {name : String}
    {expiresAt : Option Int} {at' : Int} (hi : s.refresh? i = some task)
    (hphase : task.phase.inFlight = some current)
    (hj : s.tasks[j]? = some (.write (.called (.replace credential name expiresAt at'))))
    (hid : credential.providerId = task.providerId)
    (hstep : s.step affinityHash ttl jwt (.write j now) = some t) :
    Renewal.Retired t.abstract current.refreshToken := by
  obtain ⟨htasks, hcredential⟩ := tasks_of_replace hj hstep
  have hsound : Renewal.Sound t.abstract :=
    (h.step (a := .write j now) ⟨rfl, nofun⟩ hstep).sound
  have hagent : t.abstract.agents i = ⟨task.providerId, task.phase.abstract⟩ :=
    abstract_agents (refresh?_eq_some.mp (htasks i task hi))
  have hnew : (s.abstract.agents j).phase.new? = some credential.refreshToken := by
    rw [abstract_agents hj]
    rfl
  have hne : credential.refreshToken ≠ current.refreshToken := by
    intro heq
    apply (h.sound.pending.unseen hnew).token i
    rw [abstract_agents (refresh?_eq_some.mp hi), heq]
    exact RefreshPhase.token?_abstract hphase
  apply hsound.retired (i := i)
  · rw [hagent]
    exact RefreshPhase.token?_abstract hphase
  · rw [hagent, abstract_cells]
    dsimp only
    rw [← hid]
    rcases hcredential with hself | hgone
    · rw [hself]
      exact fun heq => hne (Option.some.inj heq)
    · rw [hgone]
      exact nofun

/-- A replacement that commits in this state while a refresh is in flight stays: whatever the
calls do in between, the `UPDATE` of that refresh changes nothing. -/
def KeepsReplacements (affinityHash : String → String) (ttl : Int) (jwt : JwtCodec)
    (s : CredentialNode) : Prop :=
  ∀ {i j : ℕ} {now : Int} {task : RefreshTask} {current : CurrentCredential}
    {credential : Credential} {name : String} {expiresAt : Option Int} {at' : Int}
    {t : CredentialNode},
    s.refresh? i = some task → task.phase.inFlight = some current →
    s.tasks[j]? = some (.write (.called (.replace credential name expiresAt at'))) →
    credential.providerId = task.providerId →
    s.step affinityHash ttl jwt (.write j now) = some t →
    ∀ {later : List CredentialStep} {u : CredentialNode},
      Transition.Guarded (step affinityHash ttl jwt) SuppliesNewTokens t later →
      t.run affinityHash ttl jwt later = some u →
      ∀ {after : RefreshTask} {reading : CurrentCredential} {finish : Int} {v : CredentialNode},
        u.refresh? i = some after → after.phase.inFlight = some reading →
        u.step affinityHash ttl jwt (.write i finish) = some v → v.db = u.db

/-- In every safe state replacements are kept. -/
theorem Safe.keepsReplacements (h : Safe s) : s.KeepsReplacements affinityHash ttl jwt := by
  intro i j now task current credential name expiresAt at' t hi hphase hj hid hstep later u hok hrun
    after reading finish v hafter hreading hwrite
  have hstart : Safe t ∧ Renewal.Retired t.abstract current.refreshToken ∧
      t.Attempts i task.providerId current :=
    ⟨h.step (a := .write j now) ⟨rfl, nofun⟩ hstep, h.retired hi hphase hj hid hstep,
      task, (tasks_of_replace hj hstep).1 i task hi, rfl, .inl hphase⟩
  have hend : Safe u ∧ Renewal.Retired u.abstract current.refreshToken ∧
      u.Attempts i task.providerId current := by
    apply Transition.invariant_of_guarded _ hok hrun hstart
    rintro s' a t' ⟨hsafe, hretired, hattempts⟩ hok' hstep'
    have hmoves := moves_of_step hstep'
    exact ⟨hsafe.step hok' hstep', hretired.step (hmoves.simulates hsafe hok'),
      hmoves.attempts hattempts⟩
  obtain ⟨-, hretired, found, hfound, hprovider, hover⟩ := hend
  obtain rfl : after = found := Option.some.inj (hafter.symm.trans hfound)
  have hsame : after.phase.inFlight = some current := by
    rcases hover with hflight | hover
    · exact hflight
    · cases hphase' : after.phase <;> simp [hphase', RefreshPhase.inFlight] at hreading <;>
        simp [hphase', RefreshPhase.isOver] at hover
  exact db_of_write hafter hsame (hretired.cells _) hwrite

end Simulation

/-- **Every refresh token is redeemed at most once.** Whatever calls run on whatever providers,
as long as no future is dropped and every supplied refresh token is new: no token is redeemed
twice, no token is sent after it was redeemed, and a replacement that commits while a refresh is in
flight is never overwritten by that refresh. -/
theorem refreshToken_redeemed_once {affinityHash : String → String} {ttl : Int} {jwt : JwtCodec}
    {steps : List CredentialStep} (hs : s.Started)
    (hok : Transition.Guarded (step affinityHash ttl jwt) SuppliesNewTokens s steps)
    (hrun : s.run affinityHash ttl jwt steps = some t) :
    (∀ token, t.log.count (.redeemed token) ≤ 1) ∧
      (∀ token newer older, t.log = newer ++ .redeemed token :: older → .sent token ∉ newer) ∧
      t.KeepsReplacements affinityHash ttl jwt := by
  have hsafe : Safe t := Transition.invariant_of_guarded Safe.step hok hrun hs.safe
  have hlog : Renewal.SingleUse t.log := hsafe.sound.unredeemed.log
  refine ⟨hlog.count_le_one, ?_, hsafe.keepsReplacements⟩
  intro token newer older heq
  rw [heq] at hlog
  exact hlog.not_sent

/-- The provider starts with its one credential. -/
theorem loaded_started : loaded.Started := ⟨rfl, rfl, by decide, by decide⟩

/-- A refresh has sent the token of its provider when an operator calls a replacement. -/
def replacedInFlight : List CredentialStep :=
  [.select 50 "owner" false none none, .refreshIfNeeded 0 60, .lock 0, .read 0 60, .send 0,
    .replaceTokens "p" "name" accountToken "r2" 61]

/-- The refresh receives its response. -/
def lateResponse : List CredentialStep := [.answer 0 (.body (some ⟨"opaque", "r3", 3600⟩))]

/-- The node when the replacement is about to commit. -/
def sentFirst : CredentialNode := loaded.after id 3600 accountCodec replacedInFlight

/-- The node after the replacement. -/
def replacedMeanwhile : CredentialNode := sentFirst.after id 3600 accountCodec [.write 1 61]

/-- The node when the late response is about to be stored. -/
def respondedLate : CredentialNode := replacedMeanwhile.after id 3600 accountCodec lateResponse

/-- The node after the `UPDATE` of the refresh. -/
def storedLate : CredentialNode := respondedLate.after id 3600 accountCodec [.write 0 62]

/-- The statement at this run: the token of the provider is redeemed once, and the late response
leaves the database as the replacement has made it. -/
theorem refreshToken_redeemed_once_lateResponse :
    respondedLate.log.count (.redeemed "r1") ≤ 1 ∧
      respondedLate.step id 3600 accountCodec (.write 0 62) = some storedLate ∧
      storedLate.db = respondedLate.db := by
  have hok : Transition.Guarded (step id 3600 accountCodec) SuppliesNewTokens loaded
      (replacedInFlight ++ .write 1 61 :: lateResponse) := by decide
  have hokBefore : Transition.Guarded (step id 3600 accountCodec) SuppliesNewTokens loaded
      replacedInFlight := by decide
  have hokLater : Transition.Guarded (step id 3600 accountCodec) SuppliesNewTokens
      replacedMeanwhile lateResponse := by decide
  have hrun : loaded.run id 3600 accountCodec (replacedInFlight ++ .write 1 61 :: lateResponse) =
      some respondedLate := rfl
  have hbefore : loaded.run id 3600 accountCodec replacedInFlight = some sentFirst := rfl
  have hcommit : sentFirst.step id 3600 accountCodec (.write 1 61) = some replacedMeanwhile := rfl
  have hlater : replacedMeanwhile.run id 3600 accountCodec lateResponse = some respondedLate := rfl
  have hstore : respondedLate.step id 3600 accountCodec (.write 0 62) = some storedLate := rfl
  obtain ⟨hcount, -, -⟩ := refreshToken_redeemed_once loaded_started hok hrun
  obtain ⟨-, -, hkeeps⟩ := refreshToken_redeemed_once loaded_started hokBefore hbefore
  exact ⟨hcount "r1", hstore,
    hkeeps (i := 0) rfl rfl rfl rfl hcommit hokLater hlater rfl rfl hstore⟩

end CredentialNode

end OpenAiLb
