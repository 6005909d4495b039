import OpenAiLb.Library.Tasks
import OpenAiLb.Revocable

/-!
# Revocations reach every later selection

A handler revokes in the database and then reloads. The database stays without the
revoked entry, and the handler's own store takes it out of the cache. From then on only
a store of an older copy can bring it back. When no store does, a selection that starts
later reads cells without the entry and does not return it.
-/

namespace OpenAiLb

namespace CacheNode

/-- The step commits a statement that brings the entry back. -/
def restores (target : Revocable) (s : CacheNode) (a : CacheStep) : Bool :=
  (s.next? a).any fun (instr, _) =>
    match instr with
    | .execute stmt => target.restoredBy stmt
    | _ => false

/-- The step stores a copy that still has the entry, over a cell that has it no more, while the
database has it no more either. -/
def revives (target : Revocable) (s : CacheNode) (a : CacheStep) : Bool :=
  (s.next? a).any fun (instr, task) =>
    (target.publishes instr task).getD false && !target.inCache s.balancer &&
      !target.inDatabase s.db

/-- The step commits a revocation of the entry. -/
def revokes (target : Revocable) (s : CacheNode) (a : CacheStep) : Bool :=
  (s.next? a).any fun (instr, _) =>
    match instr with
    | .execute stmt => target.revokedBy stmt
    | _ => false

end CacheNode

namespace Revocable

/-- The rest of a task reads the entry's cell from the database and stores what it read, or it
stores a copy that does not have the entry. `listed` says whether the copy has it now. -/
def repairs (target : Revocable) : List Instruction → Bool → Bool
  | [], _ => false
  | instr :: rest, listed =>
    (target.storesCopy instr && !listed) ||
      target.repairs rest
        (if target.selects instr then false else if target.loads instr then true else listed)

/-- The rest of a task chooses from a copy only after reading the entry's cell, or from a copy
that does not have the entry. -/
def choosesFresh (target : Revocable) : List Instruction → Bool → Bool
  | [], _ => true
  | .choose _ :: rest, listed => !listed && target.choosesFresh rest listed
  | instr :: rest, listed =>
    target.choosesFresh rest (listed && !(target.selects instr || target.loads instr))

/-- A reload repairs whatever the copy holds, and so does every task that ends with one. -/
theorem repairs_of_suffix {target : Revocable} {code : List Instruction}
    (h : reloadCode <:+ code) (listed : Bool) : target.repairs code listed = true := by
  obtain ⟨first, rfl⟩ := h
  induction first generalizing listed with
  | nil => cases target <;> rfl
  | cons instr rest ih =>
    rw [List.cons_append, repairs, ih, Bool.or_true]

/-- Code without a choice never chooses. -/
theorem choosesFresh_of_no_choice {target : Revocable} {code : List Instruction}
    (h : ∀ request, .choose request ∉ code) (listed : Bool) :
    target.choosesFresh code listed = true := by
  induction code generalizing listed with
  | nil => rfl
  | cons instr rest ih =>
    have hrest : ∀ request, .choose request ∉ rest :=
      fun request hmem => h request (List.mem_cons_of_mem _ hmem)
    cases instr with
    | choose request => exact absurd List.mem_cons_self (h request)
    | _ => exact ih hrest _

/-- The task that a step advances stores the copy as it was read: the copy is what it publishes. -/
theorem publishes_of_storesCopy {target : Revocable} {instr : Instruction} {task : CacheTask}
    (h : target.storesCopy instr = true) :
    target.publishes instr task = some (target.inCopy task) := by
  cases target with
  | provider id =>
    cases instr with
    | storeProviders edit =>
      cases edit with
      | keep => rfl
      | _ => cases h
    | _ => cases h
  | grant id userId =>
    cases instr with
    | storeGrants forgotten =>
      cases forgotten with
      | none => simp [publishes, inCopy, listedIn, keptGrants]
      | some _ => cases h
    | _ => cases h

end Revocable

/-- Code that commits a statement ends with a reload. -/
def EndsWithReload (code : List Instruction) : Prop :=
  ∀ stmt, .execute stmt ∈ code → reloadCode <:+ code

namespace EndsWithReload

/-- Empty code commits nothing. -/
theorem nil : EndsWithReload [] := fun _ h => absurd h List.not_mem_nil

/-- Every operation that commits a statement ends with a reload. -/
theorem code (operation : CacheOperation) : EndsWithReload operation.code := by
  intro stmt hmem
  cases operation with
  | handler stmts => exact List.suffix_append _ _
  | reloadProviders | observe | forgetProvider | maintain | select =>
    simp [CacheOperation.code, reloadCode, forgetCode] at hmem

/-- The reload is still to come after the statement. -/
theorem suffix_of_execute {stmt : Statement} {rest : List Instruction}
    (h : EndsWithReload (.execute stmt :: rest)) : reloadCode <:+ rest := by
  rcases List.suffix_cons_iff.mp (h stmt List.mem_cons_self) with heq | hsuffix
  · cases heq
  · exact hsuffix

/-- What is left after one instruction still ends with a reload. -/
theorem tail {instr : Instruction} {rest : List Instruction}
    (h : EndsWithReload (instr :: rest)) : EndsWithReload rest := by
  intro stmt hmem
  rcases List.suffix_cons_iff.mp (h stmt (List.mem_cons_of_mem _ hmem)) with heq | hsuffix
  · cases heq
    simp at hmem
  · exact hsuffix

end EndsWithReload

namespace CacheNode

variable {affinityHash : String → String} {ttl : Int} {target : Revocable} {s t : CacheNode}
  {a : CacheStep}

/-- Every task that commits a statement reloads afterwards. -/
theorem endsWithReload_step (h : ∀ task ∈ s.tasks, EndsWithReload task.code)
    (hstep : s.step affinityHash ttl a = some t) : ∀ task ∈ t.tasks, EndsWithReload task.code := by
  rcases step_cases hstep with ⟨operation, rfl, rfl⟩ |
    ⟨i, advanced, instr, rest, db, balancer, after, rfl, htask, hcode, hexec, rfl⟩ |
    ⟨i, aborted, rfl, htask, rfl⟩
  · intro task hmem
    rcases List.mem_append.mp hmem with hold | hnew
    · exact h task hold
    · rw [List.mem_singleton.mp hnew]
      exact .code operation
  · intro task hmem
    rcases List.mem_or_eq_of_mem_set hmem with hold | rfl
    · exact h task hold
    · have hbefore : EndsWithReload (instr :: rest) :=
        hcode ▸ h advanced (List.mem_of_getElem? htask)
      rcases Instruction.code_of_exec hexec with ⟨hsame, -⟩ | ⟨hnone, -⟩
      · rw [hsame]
        exact hbefore.tail
      · rw [hnone]
        exact .nil
  · intro task hmem
    rcases List.mem_or_eq_of_mem_set hmem with hold | rfl
    · exact h task hold
    · exact .nil

/-- A step that neither restores nor revives the entry keeps it out of the database. -/
theorem inDatabase_step (hgone : target.inDatabase s.db = false)
    (hkeep : s.restores target a = false) (hstep : s.step affinityHash ttl a = some t) :
    target.inDatabase t.db = false := by
  rcases step_cases hstep with ⟨operation, rfl, rfl⟩ |
    ⟨i, advanced, instr, rest, db, balancer, after, rfl, htask, hcode, hexec, rfl⟩ |
    ⟨i, aborted, rfl, htask, rfl⟩
  · exact hgone
  · refine Revocable.inDatabase_of_instruction hexec ?_ hgone
    rintro stmt rfl
    simpa [restores, next?_advance htask hcode] using hkeep
  · exact hgone

/-- A step that does not revive the entry keeps it out of the cache. -/
theorem inCache_step (hgone : target.inDatabase s.db = false)
    (hcache : target.inCache s.balancer = false) (hfresh : s.revives target a = false)
    (hstep : s.step affinityHash ttl a = some t) : target.inCache t.balancer = false := by
  rcases step_cases hstep with ⟨operation, rfl, rfl⟩ |
    ⟨i, advanced, instr, rest, db, balancer, after, rfl, htask, hcode, hexec, rfl⟩ |
    ⟨i, aborted, rfl, htask, rfl⟩
  · exact hcache
  · have hpublished :
        (target.publishes instr { advanced with code := rest }).getD false = false := by
      simpa [revives, next?_advance htask hcode, hcache, hgone] using hfresh
    have hcell := Revocable.inCache_of_exec target hexec
    rw [hcell, hcache]
    exact hpublished
  · exact hcache

/-- The task failed, or it is still going to take the entry out of the cache. -/
def Repairing (target : Revocable) (task : CacheTask) : Prop :=
  (task.code = [] ∧ task.failed = true) ∨ target.repairs task.code (target.inCopy task) = true

/-- The instruction brings the repair closer, or completes it. -/
theorem repairing_exec {instr : Instruction} {rest : List Instruction} {task after : CacheTask}
    {db db' : Database} {b b' : Balancer} (hcode : task.code = instr :: rest)
    (hgone : target.inDatabase db = false) (h : Repairing target task)
    (hexec : instr.exec affinityHash ttl db b { task with code := rest } = some (db', b', after)) :
    target.inCache b = false ∨ target.inCache b' = false ∨ Repairing target after := by
  rcases h with ⟨hnone, -⟩ | hrepairs
  · rw [hnone] at hcode
    cases hcode
  rw [hcode, Revocable.repairs, Bool.or_eq_true, Bool.and_eq_true, Bool.not_eq_true'] at hrepairs
  rcases hrepairs with ⟨hstores, hcopy⟩ | hrest
  · have hcell := Revocable.inCache_of_exec target hexec
    rw [Revocable.publishes_of_storesCopy hstores] at hcell
    have hstored : target.inCache b' = false := hcell.trans hcopy
    exact .inr (.inl hstored)
  · have hcopy := Revocable.inCopy_of_exec target hexec
    rcases Instruction.code_of_exec hexec with ⟨hsame, -⟩ | hfailed
    · cases hcache : target.inCache b with
      | false => exact .inl rfl
      | true =>
        have hlisted : target.inCopy after =
            if target.selects instr then false
            else if target.loads instr then true else target.inCopy task := by
          rw [hcopy, hgone, hcache]
          rfl
        have hafter : target.repairs after.code (target.inCopy after) = true := by
          rw [hsame, hlisted]
          exact hrest
        exact .inr (.inr (.inr hafter))
    · exact .inr (.inr (.inl hfailed))

/-- **From the revoking statement on**: the entry is out of the database, and it is out of the
cache as soon as the task that revoked it has repaired the cache. -/
structure Withdrawing (target : Revocable) (i : ℕ) (s : CacheNode) : Prop where
  database : target.inDatabase s.db = false
  repair : ∃ task, s.tasks[i]? = some task ∧
    (target.inCache s.balancer = false ∨ Repairing target task)

/-- The step neither restores nor revives the entry. -/
def Leaves (target : Revocable) (s : CacheNode) (a : CacheStep) : Prop :=
  s.restores target a = false ∧ s.revives target a = false

instance (target : Revocable) (s : CacheNode) (a : CacheStep) : Decidable (s.Leaves target a) :=
  inferInstanceAs (Decidable (_ ∧ _))

/-- **Step lemma**: the entry stays out of the database, and its repair goes on. -/
theorem withdrawing_step {i : ℕ} (h : Withdrawing target i s) (hok : s.Leaves target a)
    (hstep : s.step affinityHash ttl a = some t) : Withdrawing target i t := by
  have hdatabase := inDatabase_step h.database hok.1 hstep
  have hcache : target.inCache s.balancer = false → target.inCache t.balancer = false :=
    fun hcache => inCache_step h.database hcache hok.2 hstep
  refine ⟨hdatabase, ?_⟩
  obtain ⟨task, htask, hrepair⟩ := h.repair
  rcases step_cases hstep with ⟨operation, rfl, rfl⟩ |
    ⟨j, advanced, instr, rest, db, balancer, after, rfl, hadvanced, hcode, hexec, rfl⟩ |
    ⟨j, aborted, rfl, haborted, rfl⟩
  · exact ⟨task, Tasks.start_other htask, hrepair⟩
  · by_cases heq : j = i
    · subst heq
      have hsame : advanced = task := Option.some.inj (hadvanced.symm.trans htask)
      subst hsame
      refine ⟨after, Tasks.set_self htask, ?_⟩
      rcases hrepair with hgone | hrepairing
      · exact .inl (hcache hgone)
      · rcases repairing_exec hcode h.database hrepairing hexec with hgone | hgone | hafter
        · exact .inl (hcache hgone)
        · exact .inl hgone
        · exact .inr hafter
    · exact ⟨task, Tasks.set_other heq htask, hrepair.imp_left hcache⟩
  · by_cases heq : j = i
    · subst heq
      exact ⟨aborted.fail, Tasks.set_self htask, .inr (.inl ⟨rfl, rfl⟩)⟩
    · exact ⟨task, Tasks.set_other heq htask, hrepair⟩

/-- The state right after a revoking statement. -/
theorem withdrawing_of_revokes {i : ℕ} (hreload : ∀ task ∈ s.tasks, EndsWithReload task.code)
    (hrevokes : s.revokes target (.advance i) = true)
    (hstep : s.step affinityHash ttl (.advance i) = some t) : Withdrawing target i t := by
  rcases step_cases hstep with ⟨operation, hlabel, -⟩ |
    ⟨j, task, instr, rest, db, balancer, after, hlabel, htask, hcode, hexec, rfl⟩ |
    ⟨j, aborted, hlabel, -, -⟩
  · cases hlabel
  · cases hlabel
    simp only [revokes, next?_advance htask hcode, Option.any_some] at hrevokes
    split at hrevokes
    · next stmt =>
      have hsuffix : reloadCode <:+ rest := by
        have hends := hreload task (List.mem_of_getElem? htask)
        rw [hcode] at hends
        exact hends.suffix_of_execute
      have hrepairing : Repairing target after := by
        rcases Instruction.code_of_exec hexec with ⟨hsame, -⟩ | hfailed
        · right
          rw [hsame]
          exact Revocable.repairs_of_suffix hsuffix _
        · exact .inl hfailed
      have htarget : target.inDatabase db = false := by
        obtain ⟨db', n, hstmt⟩ := Revocable.exec_of_revokedBy s.db hrevokes
        simp only [Instruction.exec, hstmt] at hexec
        cases hexec
        exact Revocable.inDatabase_of_revokedBy hstmt hrevokes
      exact ⟨htarget, after, Tasks.set_self htask, .inr hrepairing⟩
    · cases hrevokes
  · cases hlabel

/-- **From the return of the revoking handler on**: the entry is out of the database and of the
cache, and the tasks that start from now on read cells that do not have it. -/
structure Withdrawn (target : Revocable) (first : ℕ) (s : CacheNode) : Prop where
  database : target.inDatabase s.db = false
  cache : target.inCache s.balancer = false
  tasks : ∀ i task, first ≤ i → s.tasks[i]? = some task →
    target.choosesFresh task.code (target.inCopy task) = true ∧
      ∀ request lease, task.leased = some (request, lease) → ¬ target.Covers request lease

/-- When the revoking handler returns, it has repaired the cache. -/
theorem Withdrawing.withdrawn {i : ℕ} (h : Withdrawing target i s)
    (hreturned : ∃ task, s.tasks[i]? = some task ∧ task.ReturnedOk) :
    Withdrawn target s.tasks.length s := by
  obtain ⟨task, htask, hcode, hok⟩ := hreturned
  obtain ⟨repairing, hrepairing, hrepair⟩ := h.repair
  have hsame : repairing = task := Option.some.inj (hrepairing.symm.trans htask)
  subst hsame
  refine ⟨h.database, ?_, fun j later hle hlater => ?_⟩
  · rcases hrepair with hgone | ⟨-, hfailed⟩ | hrepairs
    · exact hgone
    · rw [hok] at hfailed
      cases hfailed
    · rw [hcode] at hrepairs
      cases hrepairs
  · have hlength := (List.getElem?_eq_some_iff.mp hlater).1
    omega

/-- A task that starts now has nothing in its copies and chooses only after reading. -/
theorem choosesFresh_start (target : Revocable) (operation : CacheOperation) :
    target.choosesFresh operation.code (target.inCopy (.start operation.code)) = true := by
  cases operation with
  | select request =>
    have hempty : target.inCopy (.start (CacheOperation.select request).code) = false := by
      cases target <;> rfl
    rw [hempty]
    rfl
  | reloadProviders | observe | forgetProvider | maintain =>
    refine Revocable.choosesFresh_of_no_choice (fun request hmem => ?_) _
    simp [CacheOperation.code, reloadCode, forgetCode] at hmem
  | handler stmts =>
    refine Revocable.choosesFresh_of_no_choice (fun request hmem => ?_) _
    rcases List.mem_append.mp hmem with hstmt | hreload
    · obtain ⟨stmt, -, hin⟩ := List.mem_flatMap.mp hstmt
      cases stmt <;> simp [Statement.code, reloadCode, forgetCode] at hin
    · simp [reloadCode] at hreload

/-- A later task stays fresh, and a lease that it takes now is not covered. -/
theorem choosesFresh_exec {instr : Instruction} {rest : List Instruction} {task after : CacheTask}
    {db db' : Database} {b b' : Balancer} (hdatabase : target.inDatabase db = false)
    (hcache : target.inCache b = false)
    (hfresh : target.choosesFresh (instr :: rest) (target.inCopy task) = true)
    (hleased : ∀ request lease, task.leased = some (request, lease) →
      ¬ target.Covers request lease)
    (hexec : instr.exec affinityHash ttl db b { task with code := rest } = some (db', b', after)) :
    target.choosesFresh after.code (target.inCopy after) = true ∧
      ∀ request lease, after.leased = some (request, lease) → ¬ target.Covers request lease := by
  have hcopied : target.inCopy after =
      (target.inCopy task && !(target.selects instr || target.loads instr)) := by
    have hcopy := Revocable.inCopy_of_exec target hexec
    rw [hcopy, hdatabase, hcache]
    cases target.selects instr <;> cases target.loads instr <;>
      simp [Revocable.inCopy]
  have hrest : target.choosesFresh rest (target.inCopy after) = true ∧
      ∀ request, instr = .choose request → target.inCopy task = false := by
    cases instr with
    | choose request =>
      simp only [Revocable.choosesFresh, Bool.and_eq_true, Bool.not_eq_true'] at hfresh
      have hnone : target.inCopy after = false := by
        rw [hcopied, hfresh.1, Bool.false_and]
      have hsame : target.inCopy after = target.inCopy task := hnone.trans hfresh.1.symm
      rw [hsame]
      exact ⟨hfresh.2, fun _ _ => hfresh.1⟩
    | _ =>
      rw [hcopied]
      refine ⟨hfresh, fun request heq => ?_⟩
      cases heq
  constructor
  · rcases Instruction.code_of_exec hexec with ⟨hsame, -⟩ | ⟨hnone, -⟩
    · rw [hsame]
      exact hrest.1
    · rw [hnone]
      rfl
  · exact Revocable.not_covers_of_exec hexec hrest.2 hleased

/-- **Step lemma**: the entry stays out of the database and of the cache. -/
theorem withdrawn_step {first : ℕ} (h : Withdrawn target first s) (hok : s.Leaves target a)
    (hstep : s.step affinityHash ttl a = some t) : Withdrawn target first t := by
  refine ⟨inDatabase_step h.database hok.1 hstep,
    inCache_step h.database h.cache hok.2 hstep, fun j later hle hlater => ?_⟩
  rcases step_cases hstep with ⟨operation, rfl, rfl⟩ |
    ⟨i, task, instr, rest, db, balancer, after, rfl, htask, hcode, hexec, rfl⟩ |
    ⟨i, aborted, rfl, haborted, rfl⟩
  · rcases Tasks.of_start hlater with hold | ⟨-, rfl⟩
    · exact h.tasks j later hle hold
    · exact ⟨choosesFresh_start target operation, fun _ _ hleased => by cases hleased⟩
  · rcases Tasks.of_set htask hlater with ⟨rfl, rfl⟩ | ⟨-, hold⟩
    · obtain ⟨hfresh, hleased⟩ := h.tasks j task hle htask
      rw [hcode] at hfresh
      exact choosesFresh_exec h.database h.cache hfresh hleased hexec
    · exact h.tasks j later hle hold
  · rcases Tasks.of_set haborted hlater with ⟨rfl, rfl⟩ | ⟨-, hold⟩
    · exact ⟨rfl, (h.tasks j aborted hle haborted).2⟩
    · exact h.tasks j later hle hold

/-- **A revocation reaches every later selection.** A handler commits a revocation and returns
`Ok`; nothing restores the entry from the commit on, and no store puts an older copy with the entry
over a cell without it. Then no selection that starts after the return takes a lease that uses the
entry. -/
theorem revocation_reaches_selections {s₀ s₁ s₂ s₃ s₄ : CacheNode}
    {before between later : List CacheStep} {i r : ℕ} {task : CacheTask} {request : SelectRequest}
    {lease : Lease} (hstart : s₀.tasks = []) (hbefore : s₀.run affinityHash ttl before = some s₁)
    (hrevokes : s₁.revokes target (.advance i) = true)
    (hcommit : s₁.step affinityHash ttl (.advance i) = some s₂)
    (hbetween : s₂.run affinityHash ttl between = some s₃)
    (hreturned : ∃ handler, s₃.tasks[i]? = some handler ∧ handler.ReturnedOk)
    (hlater : s₃.run affinityHash ttl later = some s₄)
    (hok : Transition.Guarded (step affinityHash ttl) (Leaves target) s₂ (between ++ later))
    (hstarted : s₃.tasks.length ≤ r) (htask : s₄.tasks[r]? = some task)
    (hleased : task.leased = some (request, lease)) : ¬ target.Covers request lease := by
  have hreload : ∀ task ∈ s₁.tasks, EndsWithReload task.code :=
    Transition.invariant_of_run endsWithReload_step hbefore (by simp [hstart])
  obtain ⟨hokBetween, hokLater⟩ := hok.of_append hbetween
  have hwithdrawing : Withdrawing target i s₃ :=
    Transition.invariant_of_guarded withdrawing_step hokBetween hbetween
      (withdrawing_of_revokes hreload hrevokes hcommit)
  have hwithdrawn : Withdrawn target s₃.tasks.length s₄ :=
    Transition.invariant_of_guarded withdrawn_step hokLater hlater
      (hwithdrawing.withdrawn hreturned)
  exact (hwithdrawn.tasks r task hstarted htask).2 request lease hleased

/-- The node with one loaded provider and no task. -/
def loaded : CacheNode := ⟨Node.loaded.db, Node.loaded.balancer, []⟩

/-- A request of the owner of the loaded provider. -/
def ownerRequest : SelectRequest := ⟨101, "owner", false, none, none⟩

/-- The rest of a handler of one statement, once the statement is committed. -/
def handlerReload : List CacheStep := [.advance 1, .advance 1, .advance 1, .advance 1]

/-- A selection of the owner, as the third task. -/
def ownerSelection : List CacheStep :=
  [.start (.select ownerRequest), .advance 2, .advance 2, .advance 2]

/-- A handler has created a second provider when another one is about to disable the first. -/
def secondCreated : List CacheStep :=
  [.start (.handler [.createProvider "q" "name" "account" "access" "refresh" none 20 "owner"]),
    .advance 0, .advance 0, .advance 0, .advance 0, .advance 0,
    .start (.handler [.setEnabled "p" false 100])]

/-- The node right after the first of two providers was disabled in the database. -/
def firstDisabled : CacheNode := loaded.after id 3600 (secondCreated ++ [.advance 1])

/-- The node after a selection that starts once the handler has returned. -/
def afterSelection : CacheNode := firstDisabled.after id 3600 (handlerReload ++ ownerSelection)

/-- The statement at this run: the owner gets a lease, and it is not on the disabled provider. -/
theorem revocation_reaches_ownerSelection :
    ∃ task lease, afterSelection.tasks[2]? = some task ∧
      task.leased = some (ownerRequest, lease) ∧
      ¬ (Revocable.provider "p").Covers ownerRequest lease := by
  have hbefore : loaded.run id 3600 secondCreated = some (loaded.after id 3600 secondCreated) := rfl
  have hreturned : ∃ handler,
      (firstDisabled.after id 3600 handlerReload).tasks[1]? = some handler ∧ handler.ReturnedOk :=
    ⟨_, rfl, by decide⟩
  have hok : Transition.Guarded (step id 3600) (Leaves (.provider "p")) firstDisabled
      (handlerReload ++ ownerSelection) := by decide
  have hlater : (firstDisabled.after id 3600 handlerReload).run id 3600 ownerSelection =
      some afterSelection := rfl
  exact ⟨_, _, rfl, rfl, revocation_reaches_selections rfl hbefore rfl rfl rfl hreturned hlater hok
    (Nat.le_refl 2) rfl rfl⟩

/-- A reload has selected the rows when a handler is about to disable the provider. -/
def staleReload : List CacheStep :=
  [.start .reloadProviders, .advance 0, .start (.handler [.setEnabled "p" false 100])]

/-- The node right after the provider was disabled in the database. -/
def staleDisabled : CacheNode := loaded.after id 3600 (staleReload ++ [.advance 1])

/-- The earlier reload stores its copy after the handler has returned: the disabled provider is
selected again. -/
theorem stale_store_revives_provider :
    ∃ s₁ s₂ s₃ s₄ task lease,
      loaded.run id 3600 staleReload = some s₁ ∧
      s₁.revokes (.provider "p") (.advance 1) = true ∧
      s₁.step id 3600 (.advance 1) = some s₂ ∧
      s₂.run id 3600 handlerReload = some s₃ ∧
      (∃ handler, s₃.tasks[1]? = some handler ∧ handler.ReturnedOk) ∧
      s₃.run id 3600 ([.advance 0, .advance 0, .advance 0] ++ ownerSelection) = some s₄ ∧
      Transition.Guarded (step id 3600) (fun s a => s.restores (.provider "p") a = false) s₂
        (handlerReload ++ ([.advance 0, .advance 0, .advance 0] ++ ownerSelection)) ∧
      s₄.tasks[2]? = some task ∧ task.leased = some (ownerRequest, lease) ∧
      (Revocable.provider "p").Covers ownerRequest lease :=
  ⟨_, staleDisabled, _, _, _, _, rfl, rfl, rfl, rfl, ⟨_, rfl, by decide⟩, rfl, by decide, rfl, rfl,
    rfl⟩

end CacheNode

end OpenAiLb
