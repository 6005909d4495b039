import OpenAiLb.CredentialTasks

/-!
# What one step of the credential calls can do

`CredentialNode.Moves` lists the outcomes of a step with what is known in each of them. The
invariants of the calls are proved by cases on it, and never unfold the step function.
-/

namespace OpenAiLb

/-- The refresh token that a step supplies. -/
def CredentialStep.suppliedToken : CredentialStep → Option String
  | .replaceTokens _ _ _ refreshToken _ => some refreshToken
  | .insertProvider _ _ _ refresh _ _ _ => some (trim refresh)
  | .answer _ (.body (some token)) => some token.refreshToken
  | _ => none

/-- The future of a call is dropped in this step. -/
def CredentialStep.isDrop : CredentialStep → Bool
  | .drop _ => true
  | _ => false

namespace RefreshTask

/-- The statement of a refresh with a token response stores that response. -/
theorem storesToken_of_statement {jwt : JwtCodec} {task : RefreshTask} {now : Int}
    {current : CurrentCredential} {token : TokenResponse} {stmt : Statement}
    (hphase : task.phase = .answered current token)
    (h : task.statement jwt now = some stmt) :
    stmt.StoresToken task.providerId current.refreshToken token
      (task.accountFor jwt current token) := by
  simp only [statement, hphase, Option.some.injEq] at h
  split at h
  · exact ⟨current.readAt, .inr h.symm⟩
  · exact ⟨now, .inl h.symm⟩

/-- Whatever a refresh writes, its `WHERE` clause has the token that it read. -/
theorem refreshes_of_statement {jwt : JwtCodec} {task : RefreshTask} {now : Int}
    {current : CurrentCredential} {stmt : Statement}
    (hphase : task.phase.inFlight = some current)
    (h : task.statement jwt now = some stmt) :
    stmt.refreshes task.providerId current.refreshToken := by
  unfold statement at h
  split at h
  · next hanswered =>
    rw [hanswered] at hphase
    cases hphase
    simp only [Option.some.injEq] at h
    split at h <;> cases h <;> exact ⟨rfl, rfl⟩
  · next hrefused =>
    rw [hrefused] at hphase
    cases hphase
    cases h
    exact ⟨rfl, rfl⟩
  · cases h

end RefreshTask

namespace CredentialNode

variable (affinityHash : String → String) (ttl : Int) (jwt : JwtCodec)

/-- The outcomes of a step. -/
inductive Moves (s : CredentialNode) : CredentialStep → CredentialNode → Prop where
  /-- A selection or a statement fails. -/
  | rejected {a : CredentialStep} : Moves s a s
  | selected {a : CredentialStep} {now : Int} {userId : String} {allProviders : Bool}
    {affinity excluded : Option String} {lease : Lease} {balancer : Balancer}
    (hselect : s.balancer.select affinityHash ttl now userId allProviders affinity excluded =
      .ok (lease, balancer)) :
    Moves s a { s with balancer := balancer, leases := s.leases ++ [lease] }
  | executed {stmt : Statement} {db : Database} {n : ℕ}
    (hkeep : stmt.keepsTokens = true) (hexec : stmt.exec s.db = .ok (db, n)) :
    Moves s (.execute stmt) { s with db := db }
  | calledWithLease {a : CredentialStep} {lease : Lease} {phase : RefreshPhase}
    (hlease : lease ∈ s.leases) (hphase : phase = .waiting ∨ phase = .finished (.ok ())) :
    Moves s a (s.start (.refresh ⟨lease.provider.id, some lease, phase⟩))
  | called {a : CredentialStep} (providerId : String) :
    Moves s a (s.start (.refresh ⟨providerId, none, .waiting⟩))
  /-- A replacement or a creation is refused before its statement. -/
  | refusedWrite {a : CredentialStep} (error : AppError) :
    Moves s a (s.start (.write (.finished (.error error))))
  | supplied {a : CredentialStep} {write : CredentialWrite}
    (htoken : a.suppliedToken = some write.credential.refreshToken) : Moves s a (s.supply write)
  | locked {i : ℕ} {task : RefreshTask} (hi : s.refresh? i = some task)
    (hphase : task.phase = .waiting) (hfree : task.providerId ∉ s.locks) :
    Moves s (.lock i) (s.move i task { task with phase := .locked })
  /-- The provider is gone. -/
  | missing {i : ℕ} {now : Int} {task : RefreshTask} (hi : s.refresh? i = some task)
    (hphase : task.phase = .locked) (error : AppError) :
    Moves s (.read i now) (s.move i task { task with phase := .finished (.error error) })
  /-- Another refresh was faster. -/
  | renewed {i : ℕ} {now : Int} {task : RefreshTask} {lease : Lease} {row : Provider}
    (hi : s.refresh? i = some task) (hphase : task.phase = .locked)
    (hlease : task.lease = some lease) (hrow : s.db.provider? task.providerId = some row) :
    Moves s (.read i now) (s.move i task
      { task with lease := some (lease.withCurrent (.ofRow row now)), phase := .finished (.ok ()) })
  | read {i : ℕ} {now : Int} {task : RefreshTask} {row : Provider}
    (hi : s.refresh? i = some task) (hphase : task.phase = .locked)
    (hrow : s.db.provider? task.providerId = some row) :
    Moves s (.read i now) (s.move i task { task with phase := .read (.ofRow row now) })
  | sent {i : ℕ} {task : RefreshTask} {current : CurrentCredential}
    (hi : s.refresh? i = some task) (hphase : task.phase = .read current) :
    Moves s (.send i) ({ s with log := .sent current.refreshToken :: s.log }.move i task
      { task with phase := .sent current })
  | answered {i : ℕ} {task : RefreshTask} {current : CurrentCredential} {token : TokenResponse}
    (hi : s.refresh? i = some task) (hphase : task.phase = .sent current)
    (htoken : tokenRequest (.body (some token)) = .ok token) :
    Moves s (.answer i (.body (some token))) ({ s with
      credentials := current.successor jwt task.providerId token :: s.credentials
      log := .redeemed current.refreshToken :: s.log }.move i task
        { task with phase := .answered current token })
  | refused {i : ℕ} {answer : TokenAnswer} {task : RefreshTask} {current : CurrentCredential}
    {phase : RefreshPhase} (error : AppError) (hi : s.refresh? i = some task)
    (hphase : task.phase = .sent current)
    (hafter : phase = .refused current error ∨ phase = .finished (.error error))
    (herror : tokenRequest answer = .error error) :
    Moves s (.answer i answer) (s.move i task { task with phase := phase })
  /-- The token response is stored if the row still has the redeemed token. -/
  | stored {i : ℕ} {now : Int} {task : RefreshTask} {current : CurrentCredential}
    {token : TokenResponse} {stmt : Statement} {db : Database} {n : ℕ}
    (hi : s.refresh? i = some task) (hphase : task.phase = .answered current token)
    (hstmt : stmt.StoresToken task.providerId current.refreshToken token
      (task.accountFor jwt current token))
    (hexec : stmt.exec s.db = .ok (db, n)) :
    Moves s (.write i now) ({ s with db := db }.move i task
      { task with
        lease := if n = 0 then task.lease else task.leaseAfter jwt
        phase := task.resultAfter n })
  /-- The row is marked after a failed token request. -/
  | marked {i : ℕ} {now : Int} {task : RefreshTask} {current : CurrentCredential}
    {error : AppError} {stmt : Statement} {db : Database} {n : ℕ}
    (hi : s.refresh? i = some task) (hphase : task.phase = .refused current error)
    (hstmt : stmt = .refreshFailed task.providerId current.refreshToken current.readAt)
    (hexec : stmt.exec s.db = .ok (db, n)) :
    Moves s (.write i now) ({ s with db := db }.move i task
      { task with phase := .reloading (.error error) })
  | wrote {i : ℕ} {now : Int} {write : CredentialWrite}
    (hi : s.tasks[i]? = some (.write (.called write))) : Moves s (.write i now) (s.runWrite i write)
  | reloaded {i : ℕ} {task : RefreshTask} {result : Except AppError Unit}
    (hi : s.refresh? i = some task) (hphase : task.phase = .reloading result) :
    Moves s (.reload i) ({ s with balancer := s.balancer.reloadProviders s.db }.move i task
      { task with phase := .finished result })
  | reloadedWrite {i : ℕ} (hi : s.tasks[i]? = some (.write .reloading)) :
    Moves s (.reload i) { s with
      balancer := s.balancer.reloadProviders s.db
      tasks := s.tasks.set i (.write (.finished (.ok ()))) }
  | dropped {i : ℕ} {task : RefreshTask} (hi : s.refresh? i = some task) :
    Moves s (.drop i) (s.move i task { task with phase := .dropped })
  | droppedWrite {i : ℕ} {phase : WritePhase} (hi : s.tasks[i]? = some (.write phase)) :
    Moves s (.drop i) { s with tasks := s.tasks.set i (.write .dropped) }

variable {affinityHash : String → String} {ttl : Int} {jwt : JwtCodec} {s t : CredentialNode}

/-- The refresh at a position of the tasks. -/
theorem refresh?_eq_some {i : ℕ} {task : RefreshTask} :
    s.refresh? i = some task ↔ s.tasks[i]? = some (.refresh task) := by
  unfold refresh?
  split
  · next found hfound => simp [hfound]
  · next hnone =>
    constructor
    · intro h
      cases h
    · intro h
      exact absurd h (hnone task)

/-- The outcomes of the reading under the lock. -/
theorem moves_readRow {i : ℕ} {now : Int} {task : RefreshTask} (hi : s.refresh? i = some task)
    (hphase : task.phase = .locked) :
    Moves affinityHash ttl jwt s (.read i now) (s.readRow i task now) := by
  unfold readRow
  split
  · exact .missing hi hphase _
  · next row hrow =>
    split
    · next lease hlease =>
      dsimp only
      split
      · exact .renewed hi hphase hlease hrow
      · exact .read hi hphase hrow
    · exact .read hi hphase hrow

/-- The outcomes of an answer. -/
theorem moves_receiveAnswer {i : ℕ} {answer : TokenAnswer} {task : RefreshTask}
    {current : CurrentCredential} (hi : s.refresh? i = some task)
    (hphase : task.phase = .sent current) :
    Moves affinityHash ttl jwt s (.answer i answer)
      (s.receiveAnswer jwt i task current answer) := by
  unfold receiveAnswer
  split
  · next token htoken =>
    obtain ⟨rfl, -⟩ := tokenRequest_eq_ok htoken
    exact .answered hi hphase htoken
  · next error herror =>
    split
    · exact .refused error hi hphase (.inl rfl) herror
    · exact .refused error hi hphase (.inr rfl) herror

/-- The outcomes of a refresh's `UPDATE`. -/
theorem moves_writeRow {i : ℕ} {now : Int} {task : RefreshTask} {stmt : Statement}
    (hi : s.refresh? i = some task) (hstmt : task.statement jwt now = some stmt) :
    Moves affinityHash ttl jwt s (.write i now) (s.writeRow jwt i task stmt) := by
  have hsome : (∃ current token, task.phase = .answered current token) ∨
      ∃ current error, task.phase = .refused current error := by
    unfold RefreshTask.statement at hstmt
    split at hstmt
    · next current token hphase => exact .inl ⟨current, token, hphase⟩
    · next current error hphase => exact .inr ⟨current, error, hphase⟩
    · cases hstmt
  rcases hsome with ⟨current, token, hphase⟩ | ⟨current, error, hphase⟩
  · have hstores := RefreshTask.storesToken_of_statement hphase hstmt
    unfold writeRow
    split
    · next db n hexec => exact .stored hi hphase hstores hexec
    · next error hexec =>
      obtain ⟨at', rfl | rfl⟩ := hstores <;> cases hexec
  · have hfailed : stmt = .refreshFailed task.providerId current.refreshToken current.readAt := by
      simpa [RefreshTask.statement, hphase, eq_comm] using hstmt
    unfold writeRow
    split
    · next db n hexec =>
      have hlease : (if n = 0 then task.lease else task.leaseAfter jwt) = task.lease := by
        rw [RefreshTask.leaseAfter, hphase, ite_self]
      have hresult : task.resultAfter n = .reloading (.error error) := by
        rw [RefreshTask.resultAfter, hphase]
      dsimp only
      rw [hlease, hresult]
      exact .marked hi hphase hfailed hexec
    · next error hexec =>
      subst hfailed
      cases hexec

/-- The outcomes of a replacement's or a creation's call. -/
theorem moves_replaceTokens (id name accessToken refreshToken : String) (now : Int) :
    Moves affinityHash ttl jwt s (.replaceTokens id name accessToken refreshToken now)
      (s.replaceTokens jwt id name accessToken refreshToken now) := by
  unfold replaceTokens
  split
  · exact .refusedWrite _
  · split
    · exact .refusedWrite _
    · exact .supplied rfl

/-- Creating a provider is a move. -/
theorem moves_insertProvider (id name access refresh : String) (expiresAt : Option Int) (now : Int)
    (ownerId : String) :
    Moves affinityHash ttl jwt s (.insertProvider id name access refresh expiresAt now ownerId)
      (s.insertProvider jwt id name access refresh expiresAt now ownerId) := by
  unfold insertProvider
  split
  · exact .refusedWrite _
  · split
    · exact .refusedWrite _
    · exact .supplied rfl

/-- **Every step has one of the outcomes.** -/
theorem moves_of_step {a : CredentialStep} (h : s.step affinityHash ttl jwt a = some t) :
    Moves affinityHash ttl jwt s a t := by
  cases a with
  | select now userId allProviders affinity excluded =>
    simp only [step] at h
    split at h
    · next lease balancer hselect =>
      cases h
      exact .selected hselect
    · cases h
      exact .rejected
  | execute stmt =>
    simp only [step] at h
    split at h
    · next hkeep =>
      split at h
      · next db n hexec =>
        cases h
        exact .executed hkeep hexec
      · cases h
        exact .rejected
    · cases h
  | refreshIfNeeded i now =>
    obtain ⟨lease, hlease, rfl⟩ := Option.map_eq_some_iff.mp h
    apply Moves.calledWithLease (List.mem_of_getElem? hlease)
    split
    · exact .inl rfl
    · exact .inr rfl
  | refreshProvider providerId =>
    cases h
    exact .called providerId
  | replaceTokens id name accessToken refreshToken now =>
    cases h
    exact moves_replaceTokens ..
  | insertProvider id name access refresh expiresAt now ownerId =>
    cases h
    exact moves_insertProvider ..
  | lock i =>
    obtain ⟨task, hi, h⟩ := Option.bind_eq_some_iff.mp h
    split at h
    · next hcond =>
      cases h
      exact .locked hi hcond.1 hcond.2
    · cases h
  | read i now =>
    obtain ⟨task, hi, h⟩ := Option.bind_eq_some_iff.mp h
    split at h
    · next hphase =>
      cases h
      exact moves_readRow hi hphase
    · cases h
  | send i =>
    obtain ⟨task, hi, h⟩ := Option.bind_eq_some_iff.mp h
    split at h
    · next current hphase =>
      cases h
      exact .sent hi hphase
    · cases h
  | answer i answer =>
    obtain ⟨task, hi, h⟩ := Option.bind_eq_some_iff.mp h
    split at h
    · next current hphase =>
      cases h
      exact moves_receiveAnswer hi hphase
    · cases h
  | write i now =>
    simp only [step] at h
    split at h
    · next task hi =>
      obtain ⟨stmt, hstmt, rfl⟩ := Option.map_eq_some_iff.mp h
      exact moves_writeRow (refresh?_eq_some.mpr hi) hstmt
    · next write hi =>
      cases h
      exact .wrote hi
    · cases h
  | reload i =>
    simp only [step] at h
    split at h
    · next task hi =>
      split at h
      · next result hphase =>
        cases h
        exact .reloaded (refresh?_eq_some.mpr hi) hphase
      · cases h
    · next hi =>
      cases h
      exact .reloadedWrite hi
    · cases h
  | drop i =>
    simp only [step] at h
    split at h
    · next task hi =>
      cases h
      exact .dropped (refresh?_eq_some.mpr hi)
    · next phase hi =>
      cases h
      exact .droppedWrite hi
    · cases h

end CredentialNode

end OpenAiLb
