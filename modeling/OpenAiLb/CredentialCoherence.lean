import OpenAiLb.CredentialMoves
import OpenAiLb.Library.Tasks

/-!
# The fields of a credential stay together

A credential is supplied by a replacement, by a creation or by a token response, and a
response that names no account belongs to the account of the credential that was redeemed.
The rows, the snapshot, the leases and the running calls only ever hold the fields of one
supplied credential, as long as `refresh_if_needed` does not fall back to the account of a
lease that is older than the row it read.
-/

namespace OpenAiLb

/-- The lease has the access token and the account of one of these credentials. -/
def Lease.IsOfOne (lease : Lease) (credentials : List Credential) : Prop :=
  ∃ credential ∈ credentials, credential.providerId = lease.provider.id ∧
    credential.accessToken = lease.accessToken ∧ credential.accountId = lease.provider.accountId

/-- A lease of one credential stays one when more credentials are known. -/
theorem Lease.IsOfOne.mono {lease : Lease} {old new : List Credential}
    (h : lease.IsOfOne old) (hsub : old ⊆ new) : lease.IsOfOne new := by
  obtain ⟨credential, hmem, hfields⟩ := h
  exact ⟨credential, hsub hmem, hfields⟩

/-- The credential that a refresh has read. -/
def CurrentCredential.credential (current : CurrentCredential) (providerId : String) :
    Credential :=
  ⟨providerId, current.accessToken, current.refreshToken, current.accountId⟩

/-- What a refresh holds is of supplied credentials: its lease, the row it has read, and the token
response it is about to store. -/
structure RefreshTask.Coherent (jwt : JwtCodec) (task : RefreshTask)
    (credentials : List Credential) : Prop where
  provider : ∀ lease ∈ task.lease, lease.provider.id = task.providerId
  lease : ∀ lease ∈ task.lease, lease.IsOfOne credentials
  read : ∀ current ∈ task.phase.inFlight, current.credential task.providerId ∈ credentials
  answered : ∀ current token, task.phase = .answered current token →
    current.successor jwt task.providerId token ∈ credentials

/-- What a running call holds is of supplied credentials. -/
def CredentialTask.Coherent (jwt : JwtCodec) (credentials : List Credential) :
    CredentialTask → Prop
  | .refresh task => task.Coherent jwt credentials
  | .write (.called new) => new.credential ∈ credentials
  | .write _ => True

/-- A coherent task stays coherent when more credentials are known. -/
theorem CredentialTask.Coherent.mono {jwt : JwtCodec} {task : CredentialTask}
    {old new : List Credential} (h : task.Coherent jwt old) (hsub : old ⊆ new) :
    task.Coherent jwt new := by
  cases task with
  | refresh task =>
    obtain ⟨hprovider, hlease, hread, hanswered⟩ := h
    refine ⟨hprovider, fun lease hmem => (hlease lease hmem).mono hsub, ?_, ?_⟩
    · exact fun current hmem => hsub (hread current hmem)
    · exact fun current token hphase => hsub (hanswered current token hphase)
  | write phase =>
    cases phase with
    | called write => exact hsub h
    | reloading | finished | dropped => trivial

/-- A write that is over holds nothing. -/
theorem CredentialTask.coherent_after {jwt : JwtCodec} {credentials : List Credential}
    (result : Except SqliteError ℕ) :
    (CredentialTask.write (.after result)).Coherent jwt credentials := by
  cases result with
  | error => trivial
  | ok n =>
    unfold WritePhase.after
    split
    · trivial
    · next hok =>
      cases hok
      split <;> trivial

namespace RefreshTask

/-- A refresh has its reading no longer once its `UPDATE` has run. -/
theorem inFlight_resultAfter (task : RefreshTask) (n : ℕ) :
    (task.resultAfter n).inFlight = none := by
  unfold resultAfter
  split
  · rfl
  · split <;> rfl

variable {jwt : JwtCodec} {task : RefreshTask} {credentials : List Credential}

/-- A refresh that holds its lease alone. -/
theorem Coherent.of_lease (h : task.Coherent jwt credentials) {phase : RefreshPhase}
    (hphase : phase.inFlight = none) : { task with phase := phase }.Coherent jwt credentials where
  provider := h.provider
  lease := h.lease
  read := by
    intro current hread
    rw [hphase] at hread
    cases hread
  answered := by
    rintro current token rfl
    cases hphase

/-- A refresh that goes on with what it has read, before or after the answer. -/
theorem Coherent.of_read (h : task.Coherent jwt credentials) {phase : RefreshPhase}
    (hphase : phase.inFlight = task.phase.inFlight)
    (hanswered : ∀ current token, phase ≠ .answered current token) :
    { task with phase := phase }.Coherent jwt credentials where
  provider := h.provider
  lease := h.lease
  read := by
    intro current hread
    rw [hphase] at hread
    exact h.read current hread
  answered current token heq := absurd heq (hanswered current token)

/-- The account that is written is that of the response's credential. -/
theorem accountFor_eq {current : CurrentCredential} {token : TokenResponse}
    (h : ∀ lease ∈ task.lease, jwt.accountIdFromJwt token.accessToken = none →
      lease.provider.accountId = current.accountId) :
    task.accountFor jwt current token =
      (current.successor jwt task.providerId token).accountId := by
  unfold accountFor CurrentCredential.successor
  cases hjwt : jwt.accountIdFromJwt token.accessToken with
  | some accountId => rfl
  | none =>
    cases hlease : task.lease with
    | none => rfl
    | some lease => exact h lease hlease hjwt

end RefreshTask

namespace CredentialNode

variable {affinityHash : String → String} {ttl : Int} {jwt : JwtCodec} {s t : CredentialNode}
  {a : CredentialStep}

/-- Before a refresh stores a token response that names no account, its lease has the account of
the row that it read, unless the row has changed. -/
def keepsAccount (jwt : JwtCodec) (s : CredentialNode) : CredentialStep → Bool
  | .write i _ =>
    match s.refresh? i with
    | some ⟨providerId, some lease, .answered current token⟩ =>
      (jwt.accountIdFromJwt token.accessToken).isSome ||
        lease.provider.accountId = current.accountId ||
        (s.db.credential? providerId).map Credential.refreshToken ≠ some current.refreshToken
    | _ => true
  | _ => true

/-- No call has started and no lease is out. The credentials of the rows and of the snapshot were
supplied. -/
structure Loaded (s : CredentialNode) : Prop where
  tasks : s.tasks = []
  leases : s.leases = []
  rows : ∀ row ∈ s.db.providers, row.credential ∈ s.credentials
  snapshot : ∀ row ∈ s.balancer.providers, row.credential ∈ s.credentials

/-- **The invariant**: all that the node holds is of supplied credentials. -/
structure Coherent (jwt : JwtCodec) (s : CredentialNode) : Prop where
  rows : ∀ row ∈ s.db.providers, row.credential ∈ s.credentials
  snapshot : ∀ row ∈ s.balancer.providers, row.credential ∈ s.credentials
  leases : ∀ lease ∈ s.leases, lease.IsOfOne s.credentials
  tasks : ∀ task ∈ s.tasks, task.Coherent jwt s.credentials

namespace Coherent

/-- A refresh of a coherent node is coherent. -/
theorem refresh (h : Coherent jwt s) {i : ℕ} {task : RefreshTask} (hi : s.refresh? i = some task) :
    task.Coherent jwt s.credentials :=
  h.tasks _ (List.mem_of_getElem? (refresh?_eq_some.mp hi))

/-- A coherent task may be started. -/
theorem start (h : Coherent jwt s) {task : CredentialTask}
    (htask : task.Coherent jwt s.credentials) : Coherent jwt (s.start task) where
  rows := h.rows
  snapshot := h.snapshot
  leases := h.leases
  tasks := by
    intro found hfound
    rcases List.mem_append.mp hfound with hfound | hfound
    · exact h.tasks found hfound
    · rw [List.mem_singleton.mp hfound]
      exact htask

/-- A task may be replaced by a coherent one. -/
theorem set (h : Coherent jwt s) {i : ℕ} {task : CredentialTask}
    (htask : task.Coherent jwt s.credentials) :
    Coherent jwt { s with tasks := s.tasks.set i task } where
  rows := h.rows
  snapshot := h.snapshot
  leases := h.leases
  tasks := by
    intro found hfound
    rcases List.mem_or_eq_of_mem_set hfound with hfound | rfl
    · exact h.tasks found hfound
    · exact htask

/-- A refresh may go on as a coherent one. -/
theorem move (h : Coherent jwt s) {i : ℕ} {task after : RefreshTask}
    (hafter : after.Coherent jwt s.credentials) : Coherent jwt (s.move i task after) := by
  have hset : Coherent jwt { s with tasks := s.tasks.set i (.refresh after) } := h.set hafter
  exact ⟨hset.rows, hset.snapshot, hset.leases, hset.tasks⟩

/-- Another credential is supplied. -/
theorem record (h : Coherent jwt s) (credential : Credential) :
    Coherent jwt { s with credentials := credential :: s.credentials } where
  rows row hrow := List.mem_cons_of_mem _ (h.rows row hrow)
  snapshot row hrow := List.mem_cons_of_mem _ (h.snapshot row hrow)
  leases lease hlease := (h.leases lease hlease).mono (List.subset_cons_self _ _)
  tasks task htask := (h.tasks task htask).mono (List.subset_cons_self _ _)

/-- An event at the token endpoint. -/
theorem log (h : Coherent jwt s) (events : List EndpointEvent) :
    Coherent jwt { s with log := events } := ⟨h.rows, h.snapshot, h.leases, h.tasks⟩

/-- The snapshot is loaded from the database. -/
theorem reload (h : Coherent jwt s) :
    Coherent jwt { s with balancer := s.balancer.reloadProviders s.db } where
  rows := h.rows
  snapshot row hrow := h.rows row (Database.mem_selectProviders.mp hrow)
  leases := h.leases
  tasks := h.tasks

/-- A statement runs, and the credentials in the rows were supplied. -/
theorem setDb (h : Coherent jwt s) {db : Database}
    (hdb : ∀ id credential, db.credential? id = some credential →
      s.db.credential? id = some credential ∨ credential ∈ s.credentials) :
    Coherent jwt { s with db := db } where
  rows := by
    intro row hrow
    rcases hdb row.id row.credential (Database.credential?_of_mem hrow) with hold | hnew
    · obtain ⟨old, hfound, heq⟩ := Option.map_eq_some_iff.mp hold
      rw [← heq]
      exact h.rows old (Table.mem_of_find? hfound)
    · exact hnew
  snapshot := h.snapshot
  leases := h.leases
  tasks := h.tasks

end Coherent

/-- A lease from a snapshot of supplied credentials. -/
theorem Coherent.selected (h : Coherent jwt s) {now : Int} {userId : String} {allProviders : Bool}
    {affinity excluded : Option String} {lease : Lease} {balancer : Balancer}
    (hselect : s.balancer.select affinityHash ttl now userId allProviders affinity excluded =
      .ok (lease, balancer)) :
    Coherent jwt { s with balancer := balancer, leases := s.leases ++ [lease] } where
  rows := h.rows
  snapshot := by
    rw [(Balancer.select_frame hselect).1]
    exact h.snapshot
  leases := by
    intro found hfound
    rcases List.mem_append.mp hfound with hfound | hfound
    · exact h.leases found hfound
    · rw [List.mem_singleton.mp hfound]
      obtain ⟨heligible, htoken, -⟩ := Balancer.select_mem_eligible hselect
      have hrow := h.snapshot lease.provider (Balancer.mem_eligible.mp heligible).1
      exact ⟨_, hrow, rfl, htoken.symm, rfl⟩
  tasks := h.tasks

/-- The row that a refresh stores in still has the redeemed token, so its lease has the account of
the row that was read. -/
theorem account_of_keepsAccount {i : ℕ} {now : Int} {task : RefreshTask} {lease : Lease}
    {current : CurrentCredential} {token : TokenResponse} (hi : s.refresh? i = some task)
    (hphase : task.phase = .answered current token) (hlease : task.lease = some lease)
    (hok : s.keepsAccount jwt (.write i now) = true)
    (htoken : (s.db.credential? task.providerId).map Credential.refreshToken =
      some current.refreshToken)
    (hjwt : jwt.accountIdFromJwt token.accessToken = none) :
    lease.provider.accountId = current.accountId := by
  obtain ⟨providerId, taskLease, phase⟩ := task
  cases hphase
  cases hlease
  simpa [keepsAccount, hi, hjwt, htoken] using hok

/-- The lease that a refresh returns after it stored a token response. -/
theorem coherent_leaseAfter {task : RefreshTask} {current : CurrentCredential}
    {token : TokenResponse} {credentials : List Credential}
    (h : task.Coherent jwt credentials) (hphase : task.phase = .answered current token)
    (haccount : task.accountFor jwt current token =
      (current.successor jwt task.providerId token).accountId) (n : ℕ) :
    { task with lease := task.leaseAfter jwt, phase := task.resultAfter n }.Coherent jwt
      credentials := by
  have hafter : task.leaseAfter jwt = task.lease.map fun lease =>
      lease.withToken token (task.accountFor jwt current token)
        (current.readAt + token.expiresIn) := by
    rw [RefreshTask.leaseAfter, hphase]
  refine ⟨?_, ?_, ?_, ?_⟩
  · intro lease hlease
    obtain ⟨old, hold, rfl⟩ := Option.map_eq_some_iff.mp (hafter ▸ hlease)
    exact h.provider old hold
  · intro lease hlease
    obtain ⟨old, hold, rfl⟩ := Option.map_eq_some_iff.mp (hafter ▸ hlease)
    exact ⟨_, h.answered current token hphase, (h.provider old hold).symm, rfl, haccount.symm⟩
  · intro read hread
    rw [RefreshTask.inFlight_resultAfter] at hread
    cases hread
  · intro read response hresponse
    have hnone := task.inFlight_resultAfter n
    rw [show task.resultAfter n = _ from hresponse] at hnone
    cases hnone

/-- **A refresh stores and returns the fields of one credential.** -/
theorem Coherent.stored (h : Coherent jwt s) {i : ℕ} {now : Int} {task : RefreshTask}
    {current : CurrentCredential} {token : TokenResponse} {stmt : Statement} {db : Database}
    {n : ℕ} (hi : s.refresh? i = some task) (hphase : task.phase = .answered current token)
    (hstmt : stmt.StoresToken task.providerId current.refreshToken token
      (task.accountFor jwt current token))
    (hexec : stmt.exec s.db = .ok (db, n)) (hok : s.keepsAccount jwt (.write i now) = true) :
    Coherent jwt ({ s with db := db }.move i task
      { task with
        lease := if n = 0 then task.lease else task.leaseAfter jwt
        phase := task.resultAfter n }) := by
  have htask := h.refresh hi
  have hcount := hstmt.count_eq_zero_iff hexec
  have hcredential := hstmt.credential? hexec
  by_cases htoken : (s.db.credential? task.providerId).map Credential.refreshToken =
      some current.refreshToken
  · have haccount : task.accountFor jwt current token =
        (current.successor jwt task.providerId token).accountId :=
      RefreshTask.accountFor_eq fun lease hlease hjwt =>
        account_of_keepsAccount hi hphase hlease hok htoken hjwt
    have hdb : Coherent jwt { s with db := db } := by
      apply h.setDb
      intro id credential hfound
      rw [hcredential] at hfound
      split at hfound
      · right
        obtain rfl := Option.some.inj hfound
        rw [haccount]
        exact htask.answered current token hphase
      · exact .inl hfound
    rw [if_neg fun hzero => hcount.mp hzero htoken]
    exact hdb.move (coherent_leaseAfter htask hphase haccount n)
  · have hdb : Coherent jwt { s with db := db } := by
      apply h.setDb
      intro id credential hfound
      rw [hcredential, if_neg fun hcond => htoken hcond.2] at hfound
      exact .inl hfound
    rw [if_pos (hcount.mpr htoken)]
    exact hdb.move (htask.of_lease (task.inFlight_resultAfter n))

/-- A replacement or a creation stores what was supplied. -/
theorem Coherent.wrote (h : Coherent jwt s) {i : ℕ} {write : CredentialWrite}
    (hi : s.tasks[i]? = some (.write (.called write))) : Coherent jwt (s.runWrite i write) := by
  have hwrite : write.credential ∈ s.credentials := h.tasks _ (List.mem_of_getElem? hi)
  unfold runWrite
  split
  · next db n hexec =>
    obtain ⟨hothers, hself⟩ := CredentialWrite.credential?_of_exec hexec
    have hdb : Coherent jwt { s with db := db } := by
      apply h.setDb
      intro id credential hfound
      by_cases heq : id = write.credential.providerId
      · subst heq
        rcases hself with hself | ⟨hgone, -⟩
        · right
          rw [hself] at hfound
          cases hfound
          exact hwrite
        · rw [hgone] at hfound
          cases hfound
      · exact .inl (hothers id heq ▸ hfound)
    exact hdb.set (CredentialTask.coherent_after _)
  · exact h.set (CredentialTask.coherent_after _)

/-- **Every step keeps the fields of a credential together.** -/
theorem Moves.coherent (h : Moves affinityHash ttl jwt s a t) (hs : Coherent jwt s)
    (hok : s.keepsAccount jwt a = true) : Coherent jwt t := by
  cases h with
  | rejected => exact hs
  | selected hselect => exact hs.selected hselect
  | executed hkeep hexec =>
    exact hs.setDb fun id credential hfound =>
      .inl (Statement.credential?_of_keepsTokens hkeep hexec hfound)
  | @calledWithLease a lease phase hlease hphase =>
    apply hs.start
    have htask : RefreshTask.Coherent jwt ⟨lease.provider.id, some lease, .waiting⟩
        s.credentials := by
      refine ⟨?_, ?_, nofun, nofun⟩
      · rintro found ⟨⟩
        rfl
      · rintro found ⟨⟩
        exact hs.leases lease hlease
    rcases hphase with rfl | rfl
    · exact htask
    · exact htask.of_lease rfl
  | called providerId =>
    have htask : RefreshTask.Coherent jwt ⟨providerId, none, .waiting⟩ s.credentials := by
      constructor
      · rintro lease ⟨⟩
      · rintro lease ⟨⟩
      · rintro current ⟨⟩
      · rintro current token ⟨⟩
    exact hs.start htask
  | refusedWrite error => exact hs.start trivial
  | supplied htoken => exact (hs.record _).start List.mem_cons_self
  | locked hi | missing hi | dropped hi =>
    apply hs.move
    exact (hs.refresh hi).of_lease rfl
  | @renewed i now task lease row hi hphase hlease hrow =>
    have hid : row.id = task.providerId := Table.key_of_find? hrow
    have hprovider : lease.provider.id = task.providerId := (hs.refresh hi).provider lease hlease
    have hmem := hs.rows row (Table.mem_of_find? hrow)
    apply hs.move
    refine ⟨?_, ?_, nofun, nofun⟩
    · rintro found ⟨⟩
      exact hprovider
    · rintro found ⟨⟩
      exact ⟨_, hmem, hid.trans hprovider.symm, rfl, rfl⟩
  | @read i now task row hi hphase hrow =>
    have hid : row.id = task.providerId := Table.key_of_find? hrow
    have hmem := hs.rows row (Table.mem_of_find? hrow)
    obtain ⟨hprovider, hlease, -, -⟩ := hs.refresh hi
    apply hs.move
    refine ⟨hprovider, hlease, ?_, nofun⟩
    rintro current ⟨⟩
    exact hid ▸ hmem
  | sent hi hphase =>
    apply (hs.log _).move
    exact (hs.refresh hi).of_read (by rw [hphase]; rfl) nofun
  | @answered i task current token hi hphase =>
    obtain ⟨hprovider, hlease, hread, -⟩ := hs.refresh hi
    have hrecord := (hs.record (current.successor jwt task.providerId token)).log
      (.redeemed current.refreshToken :: s.log)
    apply hrecord.move
    refine ⟨hprovider, fun lease hmem => ?_, ?_, ?_⟩
    · exact (hlease lease hmem).mono (List.subset_cons_self _ _)
    · rintro found ⟨⟩
      exact List.mem_cons_of_mem _ (hread current (by rw [hphase]; rfl))
    · rintro found response ⟨⟩
      exact List.mem_cons_self
  | refused error hi hphase hafter =>
    apply hs.move
    rcases hafter with rfl | rfl
    · exact (hs.refresh hi).of_read (by rw [hphase]; rfl) nofun
    · exact (hs.refresh hi).of_lease rfl
  | stored hi hphase hstmt hexec => exact hs.stored hi hphase hstmt hexec hok
  | @marked i now task current error stmt db n hi hphase hstmt hexec =>
    subst hstmt
    have hdb : Coherent jwt { s with db := db } := by
      apply hs.setDb
      intro id credential hfound
      rw [Statement.credential?_of_refreshFailed hexec] at hfound
      exact .inl hfound
    apply hdb.move
    exact (hs.refresh hi).of_lease rfl
  | wrote hi => exact hs.wrote hi
  | reloaded hi =>
    apply hs.reload.move
    exact (hs.refresh hi).of_lease rfl
  | reloadedWrite hi => exact hs.reload.set trivial
  | droppedWrite hi => exact hs.set trivial

/-- The invariant holds once the node is loaded. -/
theorem Loaded.coherent (h : s.Loaded) : Coherent jwt s where
  rows := h.rows
  snapshot := h.snapshot
  leases := by simp [h.leases]
  tasks := by simp [h.tasks]

/-- **The fields of a credential stay together.** If `refresh_if_needed` never falls back to the
account of a lease that is not that of the row it read, every row has the three fields of one
supplied credential, and every lease that `refresh_if_needed` returns with `Ok` has the access token
and the account of one. -/
theorem credentials_stay_together {steps : List CredentialStep} (hs : s.Loaded)
    (hok : Transition.Guarded (step affinityHash ttl jwt)
      (fun s a => s.keepsAccount jwt a = true) s steps)
    (hrun : s.run affinityHash ttl jwt steps = some t) :
    (∀ row ∈ t.db.providers, row.credential ∈ t.credentials) ∧
      ∀ {i task lease}, t.refresh? i = some task → task.lease = some lease →
        task.phase = .finished (.ok ()) → lease.IsOfOne t.credentials := by
  have hcoherent : Coherent jwt t := by
    apply Transition.invariant_of_guarded _ hok hrun hs.coherent
    intro s' a t' hs' hok' hstep
    exact (moves_of_step hstep).coherent hs' hok'
  refine ⟨hcoherent.rows, ?_⟩
  intro i task lease hi hlease _
  exact (hcoherent.refresh hi).lease lease hlease

/-- The provider starts with its one credential. -/
theorem loaded_loaded : loaded.Loaded := ⟨rfl, rfl, by decide, by decide⟩

/-- A refresh on a fresh lease, whose response names no account. -/
def refreshOnLease : List CredentialStep :=
  [.select 50 "owner" false none none, .refreshIfNeeded 0 60, .lock 0, .read 0 60, .send 0,
    .answer 0 (.body (some ⟨"opaque", "r2", 3600⟩)), .write 0 61, .reload 0]

/-- The statement at this run: the lease that is returned is of one credential. -/
theorem credentials_stay_together_refreshOnLease :
    ∃ task lease, (loaded.after id 3600 accountCodec refreshOnLease).refresh? 0 = some task ∧
      task.lease = some lease ∧ task.phase = .finished (.ok ()) ∧
      lease.IsOfOne (loaded.after id 3600 accountCodec refreshOnLease).credentials := by
  have hok : Transition.Guarded (step id 3600 accountCodec)
      (fun s a => s.keepsAccount accountCodec a = true) loaded refreshOnLease := by decide
  have hrun : loaded.run id 3600 accountCodec refreshOnLease =
      some (loaded.after id 3600 accountCodec refreshOnLease) := rfl
  obtain ⟨-, htogether⟩ := credentials_stay_together loaded_loaded hok hrun
  exact ⟨_, _, rfl, rfl, rfl, htogether (i := 0) rfl rfl rfl⟩

/-- A replacement commits between the selection of a lease and its refresh. The new access token
has no expiry, so the refresh redeems the new refresh token. -/
def refreshOnStaleLease : List CredentialStep :=
  [.select 50 "owner" false none none, .refreshIfNeeded 0 60,
    .replaceTokens "p" "name" accountToken "r2" 61, .write 1 61, .lock 0, .read 0 62, .send 0,
    .answer 0 (.body (some ⟨"opaque", "r3", 3600⟩)), .write 0 63, .reload 0]

/-- The account of the stale lease is stored, and returned, with the new tokens. -/
theorem staleLease_mixes_credentials :
    ∃ t task lease, loaded.run id 3600 accountCodec refreshOnStaleLease = some t ∧
      (∃ row ∈ t.db.providers, row.credential ∉ t.credentials) ∧
      t.refresh? 0 = some task ∧ task.lease = some lease ∧ task.phase = .finished (.ok ()) ∧
      ¬ lease.IsOfOne t.credentials := by
  refine ⟨loaded.after id 3600 accountCodec refreshOnStaleLease, _, _, rfl, by decide, rfl, rfl,
    rfl, ?_⟩
  rintro ⟨credential, hmem, hfields⟩
  revert credential
  decide

end CredentialNode

end OpenAiLb
