import OpenAiLb.TokenRedemption

/-!
# How far a refresh has come

What one step of the credential calls can do to a refresh: whether it sends its request or
receives its tokens, whether it takes the lock, and whether the credential of its provider
changes. Futures may be dropped at any point.
-/

namespace OpenAiLb

/-- The refresh token has left for the endpoint. -/
def RefreshPhase.hasSent : RefreshPhase → Bool
  | waiting | locked | read _ => false
  | _ => true

/-- The endpoint may have issued tokens to the call that it has not stored. -/
def RefreshPhase.mayOwe : RefreshPhase → Bool
  | sent _ | answered _ _ => true
  | _ => false

/-- The number of the call that acts in a step. -/
def CredentialStep.actor : CredentialStep → Option ℕ
  | .lock i | .read i _ | .send i | .answer i _ | .write i _ | .reload i | .drop i => some i
  | _ => none

/-- A statement of another handler that does not delete the provider keeps its credential. -/
theorem Statement.credential?_of_keepsTokens_ne {stmt : Statement} {db db' : Database} {n : ℕ}
    {id : String} (hkeep : stmt.keepsTokens = true) (hne : stmt ≠ .deleteProvider id)
    (h : stmt.exec db = .ok (db', n)) : db'.credential? id = db.credential? id := by
  rw [Database.credential?, provider?_of_exec h, Database.credential?]
  have hupdate : (∀ row, (stmt.set row).credential = row.credential) →
      ((db.provider? id).map stmt.update).map Provider.credential =
        (db.provider? id).map Provider.credential := by
    intro hset
    rw [Option.map_map]
    congr 1
    exact funext (credential_update hset)
  cases stmt with
  | refreshProvider | refreshIfNeeded | refreshFailed | replaceTokens | createProvider =>
    cases hkeep
  | deleteProvider gone =>
    have hother : id ≠ gone := fun heq => hne (heq ▸ rfl)
    rw [rowAfter, if_neg hother]
  | rename | setEnabled | createGrant | deleteGrant => exact hupdate fun row => rfl

namespace CredentialNode

variable {affinityHash : String → String} {ttl : Int} {jwt : JwtCodec} {s t : CredentialNode}
  {a : CredentialStep}

/-- A call that does not act stays where it is. -/
theorem Moves.refresh?_of_ne (h : Moves affinityHash ttl jwt s a t) {i : ℕ} {task : RefreshTask}
    (hi : s.refresh? i = some task) (hne : a.actor ≠ some i) : t.refresh? i = some task := by
  have htask := refresh?_eq_some.mp hi
  apply refresh?_eq_some.mpr
  have hother : ∀ {j}, (CredentialStep.lock j).actor ≠ some i → j ≠ i :=
    fun hactor heq => hactor (congrArg some heq)
  cases h with
  | rejected | selected | executed => exact htask
  | calledWithLease | called | refusedWrite | supplied => exact Tasks.start_other htask
  | locked | missing | renewed | read | sent | answered | refused | stored | marked | reloaded
  | reloadedWrite | dropped | droppedWrite => exact Tasks.set_other (hother hne) htask
  | wrote =>
    unfold runWrite
    split <;> exact Tasks.set_other (hother hne) htask

/-- The credential of a provider changes only by a deletion, a write or the `UPDATE` of a refresh
of that provider. -/
theorem Moves.credential?_eq (h : Moves affinityHash ttl jwt s a t) {id : String}
    (hdelete : a ≠ .execute (.deleteProvider id))
    (hwrite : ∀ i now write, a = .write i now → s.tasks[i]? = some (.write (.called write)) →
      write.credential.providerId ≠ id)
    (hstore : ∀ i now task current token, a = .write i now → s.refresh? i = some task →
      task.phase = .answered current token → task.providerId ≠ id) :
    t.db.credential? id = s.db.credential? id := by
  cases h with
  | rejected | selected | calledWithLease | called | refusedWrite | supplied | locked | missing
  | renewed | read | sent | answered | refused | reloaded | reloadedWrite | dropped
  | droppedWrite => rfl
  | executed hkeep hexec =>
    exact Statement.credential?_of_keepsTokens_ne hkeep (fun heq => hdelete (heq ▸ rfl)) hexec
  | @stored i now task current token stmt db n hi hphase hstmt hexec =>
    change db.credential? id = _
    rw [hstmt.credential? hexec, if_neg]
    rintro ⟨rfl, -⟩
    exact hstore i now task current token rfl hi hphase rfl
  | @marked i now task current error stmt db n hi hphase hstmt hexec =>
    subst hstmt
    exact Statement.credential?_of_refreshFailed hexec id
  | @wrote i now write hi =>
    have hne := hwrite i now write rfl hi
    unfold runWrite
    split
    · next db n hexec => exact (CredentialWrite.credential?_of_exec hexec).1 id (Ne.symm hne)
    · rfl

/-- What a refresh has done in the last step, as far as it has tokens to store: nothing, it has
none, its request has left, or its answer has arrived. -/
inductive Progress (s : CredentialNode) (a : CredentialStep) (j : ℕ) (found : RefreshTask) : Prop
  | stayed (hj : s.refresh? j = some found)
  | settled (hphase : found.phase.mayOwe = false)
  | left {task : RefreshTask} {current : CurrentCredential} (hj : s.refresh? j = some task)
    (hphase : task.phase = .read current) (hfound : found.phase = .sent current)
  | arrived {task : RefreshTask} {current : CurrentCredential} {token : TokenResponse}
    (hj : s.refresh? j = some task) (hid : task.providerId = found.providerId)
    (hphase : task.phase = .sent current) (ha : a = .answer j (.body (some token)))
    (htoken : tokenRequest (.body (some token)) = .ok token)

/-- A call that starts has no tokens to store. -/
theorem Progress.of_start {new : CredentialTask} {j : ℕ} {found : RefreshTask}
    (hnew : ∀ task, new = .refresh task → task.phase.mayOwe = false)
    (hj : (s.start new).refresh? j = some found) : Progress s a j found := by
  rcases Tasks.of_start (refresh?_eq_some.mp hj) with hj | ⟨-, heq⟩
  · exact .stayed (refresh?_eq_some.mpr hj)
  · exact .settled (hnew found heq.symm)

/-- A call that moves, and the calls that stay. -/
theorem Progress.of_set {i j : ℕ} {old new : CredentialTask} {found : RefreshTask}
    (hi : s.tasks[i]? = some old) (hj : (s.tasks.set i new)[j]? = some (.refresh found))
    (hnew : ∀ after, new = .refresh after → Progress s a i after) : Progress s a j found := by
  rcases Tasks.of_set hi hj with ⟨rfl, heq⟩ | ⟨-, hj⟩
  · exact hnew found heq.symm
  · exact .stayed (refresh?_eq_some.mpr hj)

/-- The result of a refresh is no token to store. -/
theorem mayOwe_resultAfter (task : RefreshTask) (n : ℕ) :
    (task.resultAfter n).mayOwe = false := by
  have hover : (task.resultAfter n).isOver = true := RefreshTask.isOver_resultAfter
  cases hphase : task.resultAfter n <;> simp_all [RefreshPhase.isOver, RefreshPhase.mayOwe]

/-- **How a step can change what a refresh has to store.** -/
theorem Moves.progress (h : Moves affinityHash ttl jwt s a t) {j : ℕ} {found : RefreshTask}
    (hj : t.refresh? j = some found) : Progress s a j found := by
  have hfound := refresh?_eq_some.mp hj
  cases h with
  | rejected | selected | executed => exact .stayed hj
  | calledWithLease hlease hphase =>
    refine Progress.of_start ?_ hj
    rintro task ⟨⟩
    rcases hphase with rfl | rfl <;> rfl
  | called providerId =>
    refine Progress.of_start ?_ hj
    rintro task ⟨⟩
    rfl
  | refusedWrite | supplied =>
    refine Progress.of_start (s := s) ?_ hj
    rintro task ⟨⟩
  | locked hi | missing hi | renewed hi | read hi | marked hi | reloaded hi | dropped hi =>
    refine Progress.of_set (refresh?_eq_some.mp hi) hfound ?_
    rintro after ⟨⟩
    exact .settled rfl
  | sent hi hphase =>
    refine Progress.of_set (refresh?_eq_some.mp hi) hfound ?_
    rintro after ⟨⟩
    exact .left hi hphase rfl
  | answered hi hphase htoken =>
    refine Progress.of_set (refresh?_eq_some.mp hi) hfound ?_
    rintro after ⟨⟩
    exact .arrived hi rfl hphase rfl htoken
  | refused error hi hphase hafter =>
    refine Progress.of_set (refresh?_eq_some.mp hi) hfound ?_
    rintro after ⟨⟩
    rcases hafter with rfl | rfl <;> exact .settled rfl
  | stored hi =>
    refine Progress.of_set (refresh?_eq_some.mp hi) hfound ?_
    rintro after ⟨⟩
    exact .settled (mayOwe_resultAfter ..)
  | @wrote i now write hi =>
    have hrun : (s.runWrite i write).tasks[j]? = some (.refresh found) := hfound
    unfold runWrite at hrun
    split at hrun <;>
    · refine Progress.of_set hi hrun ?_
      rintro after ⟨⟩
  | reloadedWrite hi | droppedWrite hi =>
    refine Progress.of_set hi hfound ?_
    rintro after ⟨⟩

/-- A refresh that has moved. -/
theorem refresh?_move {i : ℕ} {task after : RefreshTask} (hi : s.refresh? i = some task) :
    (s.move i task after).refresh? i = some after :=
  refresh?_eq_some.mpr (Tasks.set_self (refresh?_eq_some.mp hi))

/-- The other refreshes when one moves. -/
theorem refresh?_move_ne {i j : ℕ} {task after : RefreshTask} (hne : j ≠ i) :
    (s.move i task after).refresh? j = s.refresh? j := by
  simp only [refresh?, move, List.getElem?_set_ne (Ne.symm hne)]

/-- The refresh with this number has sent its request. -/
def HasSent (s : CredentialNode) (i : ℕ) : Prop :=
  ∃ task, s.refresh? i = some task ∧ task.phase.hasSent = true

/-- A refresh that has sent its request stays so when another task starts. -/
theorem HasSent.start {i : ℕ} (h : s.HasSent i) (new : CredentialTask) :
    (s.start new).HasSent i := by
  obtain ⟨task, hi, hphase⟩ := h
  exact ⟨task, refresh?_eq_some.mpr (Tasks.start_other (refresh?_eq_some.mp hi)), hphase⟩

/-- A refresh that has sent its request stays so when it moves. -/
theorem HasSent.move {i j : ℕ} {task after : RefreshTask} (h : s.HasSent i)
    (hj : s.refresh? j = some task)
    (hphase : task.phase.hasSent = true → after.phase.hasSent = true) :
    (s.move j task after).HasSent i := by
  obtain ⟨found, hi, hsent⟩ := h
  by_cases heq : j = i
  · subst heq
    obtain rfl : task = found := Option.some.inj (hj.symm.trans hi)
    exact ⟨after, refresh?_move hj, hphase hsent⟩
  · exact ⟨found, refresh?_eq_some.mpr (Tasks.set_other heq (refresh?_eq_some.mp hi)), hsent⟩

/-- A refresh that has sent its request stays so when a write goes on. -/
theorem HasSent.set {i j : ℕ} {old new : WritePhase} (h : s.HasSent i)
    (hj : s.tasks[j]? = some (.write old)) :
    { s with tasks := s.tasks.set j (.write new) }.HasSent i := by
  obtain ⟨found, hi, hsent⟩ := h
  have hne : j ≠ i := by
    rintro rfl
    rw [refresh?_eq_some, hj] at hi
    cases hi
  exact ⟨found, refresh?_eq_some.mpr (Tasks.set_other hne (refresh?_eq_some.mp hi)), hsent⟩

/-- **A request that has left does not come back.** -/
theorem Moves.hasSent (h : Moves affinityHash ttl jwt s a t) {i : ℕ} (hs : s.HasSent i) :
    t.HasSent i := by
  cases h with
  | rejected | selected | executed => exact hs
  | calledWithLease | called | refusedWrite => exact hs.start _
  | supplied => exact HasSent.start hs _
  | locked hj hphase | missing hj hphase | renewed hj hphase | read hj hphase =>
    exact hs.move hj fun hsent => by rw [hphase] at hsent; cases hsent
  | sent hj | answered hj | marked hj | reloaded hj | dropped hj =>
    exact HasSent.move hs hj fun _ => rfl
  | refused error hj hphase hafter =>
    exact hs.move hj fun _ => by rcases hafter with rfl | rfl <;> rfl
  | @stored j now task current token stmt db n hj =>
    refine HasSent.move hs hj fun _ => ?_
    have hover : (task.resultAfter n).isOver = true := RefreshTask.isOver_resultAfter
    cases hphase : task.resultAfter n <;> simp_all [RefreshPhase.isOver, RefreshPhase.hasSent]
  | wrote hj =>
    unfold runWrite
    split
    · exact HasSent.set hs hj
    · exact hs.set hj
  | reloadedWrite hj => exact HasSent.set hs hj
  | droppedWrite hj => exact hs.set hj

/-- An accepted answer is received. -/
theorem answer_of_step {i : ℕ} {task : RefreshTask} {current : CurrentCredential}
    {token : TokenResponse} (hi : s.refresh? i = some task) (hphase : task.phase = .sent current)
    (htoken : tokenRequest (.body (some token)) = .ok token)
    (h : s.step affinityHash ttl jwt (.answer i (.body (some token))) = some t) :
    t.db = s.db ∧ t.refresh? i = some { task with phase := .answered current token } := by
  simp only [step, hi, hphase, Option.bind_some, receiveAnswer, htoken, Option.some.injEq] at h
  subst h
  exact ⟨rfl, refresh?_eq_some.mpr (Tasks.set_self (refresh?_eq_some.mp hi))⟩

/-- The tokens are stored in a row that still has the redeemed one. -/
theorem store_of_step {i : ℕ} {now : Int} {task : RefreshTask} {current : CurrentCredential}
    {token : TokenResponse} {redeemed : Credential} (hi : s.refresh? i = some task)
    (hphase : task.phase = .answered current token)
    (hrow : s.db.credential? task.providerId = some redeemed)
    (hredeemed : redeemed.refreshToken = current.refreshToken)
    (h : s.step affinityHash ttl jwt (.write i now) = some t) :
    t.db.credential? task.providerId = some ⟨task.providerId, token.accessToken,
        token.refreshToken, task.accountFor jwt current token⟩ ∧
      (∃ after, t.refresh? i = some after ∧ after.phase.mayOwe = false) ∧
      ∀ j, j ≠ i → t.refresh? j = s.refresh? j := by
  simp only [step, refresh?_eq_some.mp hi] at h
  obtain ⟨stmt, hstmt, rfl⟩ := Option.map_eq_some_iff.mp h
  have hstores := RefreshTask.storesToken_of_statement hphase hstmt
  unfold writeRow
  split
  · next db n hexec =>
    refine ⟨?_, ⟨_, refresh?_move (s := { s with db := db }) hi, mayOwe_resultAfter task n⟩,
      fun j hne => refresh?_move_ne (s := { s with db := db }) hne⟩
    have hafter := hstores.credential? hexec task.providerId
    rw [hrow, if_pos ⟨rfl, congrArg some hredeemed⟩] at hafter
    exact hafter
  · next error hexec => obtain ⟨at', rfl | rfl⟩ := hstores <;> cases hexec

/-- The future of a refresh is dropped. -/
theorem drop_of_step {i : ℕ} {task : RefreshTask} (hi : s.refresh? i = some task)
    (h : s.step affinityHash ttl jwt (.drop i) = some t) :
    t.db = s.db ∧ t.refresh? i = some { task with phase := .dropped } ∧
      ∀ j, j ≠ i → t.refresh? j = s.refresh? j := by
  simp only [step, refresh?_eq_some.mp hi, Option.some.injEq] at h
  subst h
  exact ⟨rfl, refresh?_move hi, fun j hne => refresh?_move_ne hne⟩

/-- A refresh that holds the lock after a step has not moved, or it is the one that has moved, and
it held the lock before or has found it free. -/
def LockStep (s t : CredentialNode) (j : ℕ) (found : RefreshTask) : Prop :=
  s.refresh? j = some found ∨
    ((∀ i other, i ≠ j → t.refresh? i = some other → s.refresh? i = some other) ∧
      ∃ task, s.refresh? j = some task ∧ task.providerId = found.providerId ∧
        (task.phase.holdsLock = true ∨ task.providerId ∉ s.locks))

/-- A refresh moves. -/
theorem lockStep_of_move {i j : ℕ} {task after found : RefreshTask}
    (hi : s.refresh? i = some task) (hid : after.providerId = task.providerId)
    (hlock : after.phase.holdsLock = true →
      task.phase.holdsLock = true ∨ task.providerId ∉ s.locks)
    (hj : (s.move i task after).refresh? j = some found)
    (hheld : found.phase.holdsLock = true) : LockStep s (s.move i task after) j found := by
  have hset := refresh?_eq_some.mp hi
  rcases Tasks.of_set hset (refresh?_eq_some.mp hj) with ⟨rfl, heq⟩ | ⟨-, hj⟩
  · cases heq
    refine .inr ⟨fun k other hne hk => ?_, task, hi, hid.symm, hlock hheld⟩
    rcases Tasks.of_set hset (refresh?_eq_some.mp hk) with ⟨heq, -⟩ | ⟨-, hk⟩
    · exact absurd heq hne
    · exact refresh?_eq_some.mpr hk
  · exact .inl (refresh?_eq_some.mpr hj)

/-- A call starts without the lock. -/
theorem lockStep_of_start {new : CredentialTask} {j : ℕ} {found : RefreshTask}
    (hnew : ∀ task, new = .refresh task → task.phase.holdsLock = false)
    (hj : (s.start new).refresh? j = some found) (hheld : found.phase.holdsLock = true) :
    LockStep s t j found := by
  rcases Tasks.of_start (refresh?_eq_some.mp hj) with hj | ⟨-, heq⟩
  · exact .inl (refresh?_eq_some.mpr hj)
  · rw [hnew found heq.symm] at hheld
    cases hheld

/-- A write moves. -/
theorem lockStep_of_set {i j : ℕ} {old new : WritePhase} {found : RefreshTask}
    (hi : s.tasks[i]? = some (.write old))
    (hj : (s.tasks.set i (.write new))[j]? = some (.refresh found)) : LockStep s t j found := by
  rcases Tasks.of_set hi hj with ⟨-, heq⟩ | ⟨-, hj⟩
  · cases heq
  · exact .inl (refresh?_eq_some.mpr hj)

/-- **How a step can give a refresh the lock.** -/
theorem Moves.lockStep (h : Moves affinityHash ttl jwt s a t) {j : ℕ} {found : RefreshTask}
    (hj : t.refresh? j = some found) (hheld : found.phase.holdsLock = true) :
    LockStep s t j found := by
  cases h with
  | rejected | selected | executed => exact .inl hj
  | calledWithLease hlease hphase =>
    refine lockStep_of_start ?_ hj hheld
    rintro task ⟨⟩
    rcases hphase with rfl | rfl <;> rfl
  | called providerId =>
    refine lockStep_of_start ?_ hj hheld
    rintro task ⟨⟩
    rfl
  | refusedWrite | supplied =>
    refine lockStep_of_start (s := s) ?_ hj hheld
    rintro task ⟨⟩
  | locked hi hphase hfree => exact lockStep_of_move hi rfl (fun _ => .inr hfree) hj hheld
  | missing hi hphase | renewed hi hphase | read hi hphase | sent hi hphase
  | answered hi hphase | refused error hi hphase | stored hi hphase | marked hi hphase
  | reloaded hi hphase =>
    exact lockStep_of_move (s := s) hi rfl (fun _ => .inl (by rw [hphase]; rfl)) hj hheld
  | dropped hi => exact lockStep_of_move hi rfl nofun hj hheld
  | @wrote i now write hi =>
    have hrun : (s.runWrite i write).tasks[j]? = some (.refresh found) := refresh?_eq_some.mp hj
    unfold runWrite at hrun
    split at hrun <;> exact lockStep_of_set hi hrun
  | reloadedWrite hi | droppedWrite hi => exact lockStep_of_set hi (refresh?_eq_some.mp hj)

/-- **The lock keeps refreshes of one provider apart**, also when futures are dropped. -/
theorem Moves.exclusive (h : Moves affinityHash ttl jwt s a t) (hheld : Held s)
    (halone : Exclusive s) : Exclusive t := by
  intro i j task other hi hj htask hother hid
  by_contra hne
  rcases h.lockStep hi htask with hsi | ⟨honly, before, hbefore, hsame, hlock⟩
  · rcases h.lockStep hj hother with hsj | ⟨-, before, hbefore, hsame, hlock⟩
    · exact hne (halone i j task other hsi hsj htask hother hid)
    · rcases hlock with hlock | hfree
      · exact hne (halone i j task before hsi hbefore htask hlock (hid.trans hsame.symm))
      · exact hfree (hsame.trans hid.symm ▸ hheld i task hsi htask)
  · have hsj := honly j other (Ne.symm hne) hj
    rcases hlock with hlock | hfree
    · exact hne (halone i j before other hbefore hsj hlock hother (hsame.trans hid))
    · exact hfree (hsame.trans hid ▸ hheld j other hsj hother)

end CredentialNode

end OpenAiLb
