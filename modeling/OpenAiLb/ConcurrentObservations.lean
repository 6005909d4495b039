import OpenAiLb.CacheTasks
import OpenAiLb.Library.Tasks
import OpenAiLb.Observation
import OpenAiLb.Routing

/-!
# Concurrent observations

`observe` loads the snapshot, edits its copy and stores the copy;
`recover_cached_providers` does the same. The pending map is updated under the lock of
its entry, the snapshot is not: a store that falls between the load and the store of
another task is erased by it. Where no observation is stored there, the snapshot shows
every observation that was stored, and so does every copy that is still to be stored.
-/

namespace OpenAiLb

/-- A call of `observe`: the provider and the update. -/
abbrev ObserveCall := String × ProviderUpdate

namespace Snapshot

variable {snapshot : Snapshot} {now : Int} {call : ObserveCall} {id : String}
  {update : ProviderUpdate}

/-- The provider has a row that no admin has disabled. -/
def Enabled (id : String) (snapshot : Snapshot) : Prop :=
  ∃ row, snapshot.find? id = some row ∧ row.manualDisabled = false

/-- The row of the observed provider has the status and the deadline of the observation, or its
cooldown has expired by `now` and the row is active. An update without a status says nothing
about either. -/
def Shows (now : Int) (call : ObserveCall) (snapshot : Snapshot) : Prop :=
  ∀ status, call.2.status = some status → ∃ row, snapshot.find? call.1 = some row ∧
    ((row.status = status ∧ row.cooldownUntil = call.2.cooldownUntil) ∨
      status = .cooldown ∧ (∃ deadline, call.2.cooldownUntil = some deadline ∧ deadline ≤ now) ∧
        row.status = .active ∧ row.cooldownUntil = none)

/-- An observation disables nothing. -/
theorem Enabled.observe (h : snapshot.Enabled id) (providerId : String)
    (update : ProviderUpdate) : (snapshot.observe providerId update).Enabled id := by
  obtain ⟨row, hrow, henabled⟩ := h
  rw [Enabled, find?_observe, hrow]
  refine ⟨_, rfl, ?_⟩
  split
  · rwa [observeRow_manualDisabled]
  · exact henabled

/-- The recovery disables nothing. -/
theorem Enabled.recover (h : snapshot.Enabled id) (now : Int) :
    (snapshot.recover now).Enabled id := by
  obtain ⟨row, hrow, henabled⟩ := h
  rw [Enabled, find?_recover, hrow]
  refine ⟨_, rfl, ?_⟩
  rwa [recoverRow_manualDisabled]

/-- A stored observation of an enabled provider is shown. -/
theorem Enabled.shows_observe (h : snapshot.Enabled call.1) :
    (snapshot.observe call.1 call.2).Shows now call := by
  obtain ⟨row, hrow, henabled⟩ := h
  intro status hstatus
  rw [find?_observe, hrow]
  refine ⟨observeRow call.2 row, by simp, .inl ?_⟩
  constructor
  · simp [observeRow, henabled, hstatus]
  · simp [observeRow, henabled, hstatus]

/-- An observation of another provider is shown as before. -/
theorem Shows.observe (h : snapshot.Shows now call) (hne : call.1 ≠ id) :
    (snapshot.observe id update).Shows now call := by
  intro status hstatus
  obtain ⟨row, hrow, hshown⟩ := h status hstatus
  refine ⟨row, ?_, hshown⟩
  rw [find?_observe, hrow, Option.map_some, if_neg hne]

/-- The recovery changes only what has expired. -/
theorem Shows.recover (h : snapshot.Shows now call) : (snapshot.recover now).Shows now call := by
  intro status hstatus
  obtain ⟨row, hrow, hshown⟩ := h status hstatus
  rw [find?_recover, hrow]
  refine ⟨recoverRow now row, rfl, ?_⟩
  unfold recoverRow
  split
  · next hexpired =>
    right
    simp only [isExpiredCooldown, Bool.and_eq_true, decide_eq_true_eq] at hexpired
    obtain ⟨⟨-, hcooldown⟩, hdeadline⟩ := hexpired
    obtain ⟨hstatus', huntil⟩ | ⟨-, -, hactive, -⟩ := hshown
    · rw [huntil] at hdeadline
      obtain ⟨deadline, hsome, hle⟩ := (Option.any_eq_true _ _).mp hdeadline
      exact ⟨hstatus'.symm.trans hcooldown, ⟨deadline, hsome, by simpa using hle⟩, rfl, rfl⟩
    · rw [hactive] at hcooldown
      exact absurd hcooldown (by decide)
  · exact hshown

end Snapshot

/-- `recover_cached_providers`, the end of `maintain`. -/
def recoverCode (now : Int) : List Instruction := [.loadProviders, .storeProviders (.recover now)]

/-- The code of concurrent calls of `observe` and one `recover_cached_providers`. -/
def observingCode (calls : List ObserveCall) (now : Int) : List (List Instruction) :=
  calls.map (fun call => (CacheOperation.observe call.1 call.2).code) ++ [recoverCode now]

/-- The task has loaded the snapshot and is about to store its copy. -/
def CacheTask.holdsSnapshot (task : CacheTask) : Bool :=
  match task.code with
  | .storeProviders _ :: _ => true
  | _ => false

/-- The instruction stores an observation that names a status. -/
def Instruction.storesStatus : Instruction → Bool
  | .storeProviders (.observe _ update) => update.status.isSome
  | _ => false

namespace CacheNode

variable {affinityHash : String → String} {ttl now : Int} {calls : List ObserveCall}
  {s t : CacheNode} {i : ℕ} {task after : CacheTask} {instr : Instruction}
  {rest : List Instruction} {snapshot : Snapshot}

/-- Calls of `observe` and one `recover_cached_providers`, none of which has run. -/
def observing (db : Database) (b : Balancer) (calls : List ObserveCall) (now : Int) : CacheNode :=
  ⟨db, b, (observingCode calls now).map .start⟩

/-- No observation with a status is stored between the load and the store of another task. -/
def StoresAlone (s : CacheNode) : CacheStep → Prop
  | .advance i => (s.next? (.advance i)).any (fun next => next.1.storesStatus) = true →
    (s.tasks.eraseIdx i).any CacheTask.holdsSnapshot = false
  | .start _ | .abort _ => True

instance (s : CacheNode) : ∀ a, Decidable (s.StoresAlone a)
  | .advance _ => inferInstanceAs (Decidable (_ → _))
  | .start _ | .abort _ => inferInstanceAs (Decidable True)

/-- A snapshot that is cached, or that a task is about to edit and to store. -/
inductive Current (s : CacheNode) : Snapshot → Prop
  | cached : Current s s.balancer.providers
  | held {i : ℕ} {task : CacheTask} (htask : s.tasks[i]? = some task)
      (hholds : task.holdsSnapshot = true) : Current s task.providers

/-- What concurrent observations keep. -/
structure Observing (calls : List ObserveCall) (now : Int) (s : CacheNode) : Prop where
  length : s.tasks.length = calls.length + 1
  /-- A task runs its own code. -/
  code : ∀ (i : ℕ) (task : CacheTask), s.tasks[i]? = some task →
    ∃ code, (observingCode calls now)[i]? = some code ∧ task.code <:+ code
  enabled : ∀ snapshot, s.Current snapshot → ∀ call ∈ calls, snapshot.Enabled call.1
  /-- A stored observation is shown, also by the copies that are still to be stored. -/
  shown : ∀ (i : ℕ) call (task : CacheTask), calls[i]? = some call → s.tasks[i]? = some task →
    task.code.length ≤ 1 → ∀ snapshot, s.Current snapshot → snapshot.Shows now call

/-- **What a task does next**: it loads the snapshot, stores its observation, records the update,
or stores the recovered snapshot. -/
theorem instruction_cases {code : List Instruction}
    (hcode : (observingCode calls now)[i]? = some code) (hsuffix : instr :: rest <:+ code) :
    (instr = .loadProviders ∧ (calls[i]?.isSome = true → 1 < rest.length)) ∨
    (∃ call, calls[i]? = some call ∧ instr = .storeProviders (.observe call.1 call.2) ∧
      rest = [.recordUpdate call.1 call.2]) ∨
    (∃ call, calls[i]? = some call ∧ instr = .recordUpdate call.1 call.2 ∧ rest = []) ∨
    (calls[i]? = none ∧ instr = .storeProviders (.recover now) ∧ rest = []) := by
  by_cases hlt : i < calls.length
  · have hcall : calls[i]? = some calls[i] := List.getElem?_eq_getElem hlt
    rw [observingCode, List.getElem?_append_left (by simpa using hlt), List.getElem?_map, hcall]
      at hcode
    obtain rfl := Option.some.inj hcode
    simp only [CacheOperation.code, List.suffix_cons_iff, List.cons.injEq, List.suffix_nil,
      reduceCtorEq, or_false] at hsuffix
    obtain ⟨rfl, rfl⟩ | ⟨rfl, rfl⟩ | ⟨rfl, rfl⟩ := hsuffix
    · exact .inl ⟨rfl, fun _ => by simp⟩
    · exact .inr (.inl ⟨_, hcall, rfl, rfl⟩)
    · exact .inr (.inr (.inl ⟨_, hcall, rfl, rfl⟩))
  · have hnone : calls[i]? = none := List.getElem?_eq_none (by omega)
    rw [observingCode, List.getElem?_append_right (by simpa using hlt)] at hcode
    rw [recoverCode, List.getElem?_singleton] at hcode
    split at hcode
    · obtain rfl := Option.some.inj hcode
      simp only [List.suffix_cons_iff, List.cons.injEq, List.suffix_nil, reduceCtorEq,
        or_false] at hsuffix
      obtain ⟨rfl, rfl⟩ | ⟨rfl, rfl⟩ := hsuffix
      · exact .inl ⟨rfl, fun hsome => by simp [hnone] at hsome⟩
      · exact .inr (.inr (.inr ⟨hnone, rfl, rfl⟩))
    · cases hcode

/-- The start meets the invariant. -/
theorem observing_start {db : Database} {b : Balancer}
    (henabled : ∀ call ∈ calls, b.providers.Enabled call.1) :
    Observing calls now (observing db b calls now) := by
  have hcode (i : ℕ) (task : CacheTask) (htask : (observing db b calls now).tasks[i]? = some task) :
      ∃ code, (observingCode calls now)[i]? = some code ∧ task = .start code := by
    rw [observing, List.getElem?_map] at htask
    obtain ⟨code, hcode, rfl⟩ := Option.map_eq_some_iff.mp htask
    exact ⟨code, hcode, rfl⟩
  constructor
  · simp [observing, observingCode]
  · intro i task htask
    obtain ⟨code, hcode, rfl⟩ := hcode i task htask
    exact ⟨code, hcode, List.suffix_rfl⟩
  · intro snapshot hcurrent
    cases hcurrent with
    | cached => exact henabled
    | held htask hholds =>
      obtain ⟨code, hcode, rfl⟩ := hcode _ _ htask
      have hmem : code ∈ observingCode calls now := List.mem_of_getElem? hcode
      simp only [observingCode, CacheOperation.code, recoverCode, List.mem_append, List.mem_map,
        List.mem_singleton] at hmem
      obtain ⟨call, -, rfl⟩ | rfl := hmem
      · cases hholds
      · cases hholds
  · intro i call task hcall htask hlength
    obtain ⟨code, hcode, rfl⟩ := hcode i task htask
    have hlt : i < calls.length := (List.getElem?_eq_some_iff.mp hcall).1
    rw [observingCode, List.getElem?_append_left (by simpa using hlt), List.getElem?_map, hcall]
      at hcode
    obtain rfl := Option.some.inj hcode
    simp [CacheTask.start, CacheOperation.code] at hlength

/-- A snapshot that is current after a step of task `i`. -/
theorem current_set {db : Database} {b : Balancer} (htask : s.tasks[i]? = some task)
    (h : (CacheNode.mk db b (s.tasks.set i after)).Current snapshot) :
    snapshot = b.providers ∨ (after.holdsSnapshot = true ∧ snapshot = after.providers) ∨
      ∃ other ∈ s.tasks.eraseIdx i, other.holdsSnapshot = true ∧ s.Current snapshot := by
  cases h with
  | cached => exact .inl rfl
  | held hfound hholds =>
    obtain ⟨rfl, rfl⟩ | ⟨hne, hother⟩ := Tasks.of_set htask hfound
    · exact .inr (.inl ⟨hholds, rfl⟩)
    · exact .inr (.inr ⟨_, List.mem_eraseIdx_iff_getElem?.mpr ⟨_, hne, hother⟩, hholds,
        .held hother hholds⟩)

/-- A step keeps the number of the tasks and runs each on its own code. -/
theorem Observing.code_set (h : Observing calls now s) (htask : s.tasks[i]? = some task)
    (hcode : task.code = instr :: rest) (hafter : after.code = rest) (j : ℕ) (found : CacheTask)
    (hfound : (s.tasks.set i after)[j]? = some found) :
    ∃ code, (observingCode calls now)[j]? = some code ∧ found.code <:+ code := by
  obtain ⟨rfl, rfl⟩ | ⟨-, hother⟩ := Tasks.of_set htask hfound
  · obtain ⟨code, hown, hsuffix⟩ := h.code _ _ htask
    rw [hcode] at hsuffix
    exact ⟨code, hown, hafter ▸ (List.suffix_cons instr rest).trans hsuffix⟩
  · exact h.code j found hother

/-- A step that stores nothing keeps the invariant: every snapshot that is current after it was
current before. -/
theorem Observing.of_current {b : Balancer} (h : Observing calls now s)
    (htask : s.tasks[i]? = some task) (hcode : task.code = instr :: rest)
    (hafter : after.code = rest) (hrest : calls[i]?.isSome = true → rest.length ≤ 1 → rest = [])
    (hcurrent : ∀ snapshot, (CacheNode.mk s.db b (s.tasks.set i after)).Current snapshot →
      s.Current snapshot) :
    Observing calls now ⟨s.db, b, s.tasks.set i after⟩ := by
  refine ⟨by simpa using h.length, h.code_set htask hcode hafter,
    fun snapshot hs => h.enabled snapshot (hcurrent snapshot hs), ?_⟩
  intro j call found hcall hfound hlength snapshot hs
  obtain ⟨rfl, rfl⟩ | ⟨-, hother⟩ := Tasks.of_set htask hfound
  · rw [hafter] at hlength
    have hnil : rest = [] := hrest (by rw [hcall]; rfl) hlength
    have hold : task.code.length ≤ 1 := by simp [hcode, hnil]
    exact h.shown j call task hcall htask hold snapshot (hcurrent snapshot hs)
  · exact h.shown j call found hcall hother hlength snapshot (hcurrent snapshot hs)

/-- Loading the snapshot keeps the invariant. -/
theorem Observing.load (h : Observing calls now s) (htask : s.tasks[i]? = some task)
    (hcode : task.code = .loadProviders :: rest)
    (hrest : calls[i]?.isSome = true → 1 < rest.length) :
    Observing calls now ⟨s.db, s.balancer,
      s.tasks.set i { task with code := rest, providers := s.balancer.providers }⟩ := by
  refine h.of_current htask hcode rfl (fun hsome hle => ?_) fun snapshot hs => ?_
  · have hlt := hrest hsome
    omega
  · obtain rfl | ⟨-, rfl⟩ | ⟨_, -, -, hcurrent⟩ := current_set htask hs
    · exact .cached
    · exact .cached
    · exact hcurrent

/-- Storing an observation keeps the invariant when no other task holds a copy that lacks it. -/
theorem Observing.storeObservation {call : ObserveCall} (h : Observing calls now s)
    (hdistinct : (calls.map Prod.fst).Nodup) (htask : s.tasks[i]? = some task)
    (hcode : task.code =
      [.storeProviders (.observe call.1 call.2), .recordUpdate call.1 call.2])
    (hcall : calls[i]? = some call)
    (halone : call.2.status.isSome = true →
      (s.tasks.eraseIdx i).any CacheTask.holdsSnapshot = false) :
    Observing calls now
      ⟨s.db, { s.balancer with providers := task.providers.observe call.1 call.2 },
        s.tasks.set i { task with code := [.recordUpdate call.1 call.2] }⟩ := by
  have hheld : s.Current task.providers := .held htask (by rw [CacheTask.holdsSnapshot, hcode])
  refine ⟨by simpa using h.length, h.code_set htask hcode rfl, ?_, ?_⟩
  · intro snapshot hs other hother
    obtain rfl | ⟨hholds, -⟩ | ⟨_, -, -, hcurrent⟩ := current_set htask hs
    · exact (h.enabled _ hheld other hother).observe call.1 call.2
    · cases hholds
    · exact h.enabled snapshot hcurrent other hother
  · intro j other found hother hfound hlength snapshot hs
    obtain ⟨rfl, rfl⟩ | ⟨hne, hold⟩ := Tasks.of_set htask hfound
    · obtain rfl : call = other := Option.some.inj (hcall.symm.trans hother)
      obtain rfl | ⟨hholds, -⟩ | ⟨holder, hmem, hholds, -⟩ := current_set htask hs
      · exact (h.enabled _ hheld call (List.mem_of_getElem? hcall)).shows_observe
      · cases hholds
      · -- Another task holds a copy, so the update has no status that it could lack.
        intro status hstatus
        have hnone := List.any_eq_false.mp (halone (by rw [hstatus]; rfl)) holder hmem
        exact absurd hholds hnone
    · have hdiffer : other.1 ≠ call.1 := by
        intro heq
        have hj : (calls.map Prod.fst)[j]? = some other.1 := by rw [List.getElem?_map, hother]; rfl
        have hi : (calls.map Prod.fst)[i]? = some other.1 := by
          rw [List.getElem?_map, hcall, heq]
          rfl
        have hlt : j < (calls.map Prod.fst).length := (List.getElem?_eq_some_iff.mp hj).1
        exact hne ((List.getElem?_inj hlt hdistinct).mp (hj.trans hi.symm))
      obtain rfl | ⟨hholds, -⟩ | ⟨_, -, -, hcurrent⟩ := current_set htask hs
      · exact (h.shown j other found hother hold hlength _ hheld).observe hdiffer
      · cases hholds
      · exact h.shown j other found hother hold hlength snapshot hcurrent

/-- Storing the recovered snapshot keeps the invariant. -/
theorem Observing.storeRecovery (h : Observing calls now s) (htask : s.tasks[i]? = some task)
    (hcode : task.code = [.storeProviders (.recover now)]) (hcall : calls[i]? = none) :
    Observing calls now ⟨s.db, { s.balancer with providers := task.providers.recover now },
      s.tasks.set i { task with code := [] }⟩ := by
  have hheld : s.Current task.providers := .held htask (by rw [CacheTask.holdsSnapshot, hcode])
  refine ⟨by simpa using h.length, h.code_set htask hcode rfl, ?_, ?_⟩
  · intro snapshot hs other hother
    obtain rfl | ⟨hholds, -⟩ | ⟨_, -, -, hcurrent⟩ := current_set htask hs
    · exact (h.enabled _ hheld other hother).recover now
    · cases hholds
    · exact h.enabled snapshot hcurrent other hother
  · intro j other found hother hfound hlength snapshot hs
    obtain ⟨rfl, rfl⟩ | ⟨-, hold⟩ := Tasks.of_set htask hfound
    · simp [hcall] at hother
    · obtain rfl | ⟨hholds, -⟩ | ⟨_, -, -, hcurrent⟩ := current_set htask hs
      · exact (h.shown j other found hother hold hlength _ hheld).recover
      · cases hholds
      · exact h.shown j other found hother hold hlength snapshot hcurrent

/-- Recording the update leaves the snapshots alone. -/
theorem Observing.record {call : ObserveCall} (h : Observing calls now s)
    (htask : s.tasks[i]? = some task) (hcode : task.code = [.recordUpdate call.1 call.2]) :
    Observing calls now
      ⟨s.db, { s.balancer with
          providerUpdates := Balancer.recordUpdate s.balancer.providerUpdates call.1 call.2 },
        s.tasks.set i { task with code := [] }⟩ := by
  refine h.of_current htask hcode rfl (fun _ _ => rfl) fun snapshot hs => ?_
  obtain rfl | ⟨hholds, -⟩ | ⟨_, -, -, hcurrent⟩ := current_set htask hs
  · exact .cached
  · cases hholds
  · exact hcurrent

/-- One step of the scheduler keeps the invariant. -/
theorem Observing.step (h : Observing calls now s) (hdistinct : (calls.map Prod.fst).Nodup)
    (halone : s.StoresAlone (.advance i))
    (hstep : s.step affinityHash ttl (.advance i) = some t) : Observing calls now t := by
  obtain ⟨_, habsurd, -⟩ | ⟨_, task, instr, rest, db, b, after, heq, htask, hcode, hexec, rfl⟩ |
    ⟨_, _, habsurd, -⟩ := step_cases hstep
  · cases habsurd
  · cases heq
    obtain ⟨code, hown, hsuffix⟩ := h.code i task htask
    rw [hcode] at hsuffix
    obtain ⟨rfl, hrest⟩ | ⟨call, hcall, rfl, rfl⟩ | ⟨call, hcall, rfl, rfl⟩ | ⟨hcall, rfl, rfl⟩ :=
      instruction_cases hown hsuffix
    · have hload := h.load htask hcode hrest
      cases hexec
      exact hload
    · have hstore := h.storeObservation hdistinct htask hcode hcall fun hstatus => halone <| by
        rw [next?_advance htask hcode]
        exact hstatus
      cases hexec
      exact hstore
    · have hrecord := h.record htask hcode
      cases hexec
      exact hrecord
    · have hstore := h.storeRecovery htask hcode hcall
      cases hexec
      exact hstore
  · cases habsurd

/-- **Concurrent observations.** Any number of calls of `observe` on different enabled providers
and one `recover_cached_providers` interleave. When no observation with a status is stored
between the load and the store of another task, the snapshot shows every observation in the end. -/
theorem observations_shown {db : Database} {b : Balancer} {schedule : List ℕ}
    (hdistinct : (calls.map Prod.fst).Nodup)
    (henabled : ∀ call ∈ calls, b.providers.Enabled call.1)
    (halone : Transition.Guarded (CacheNode.step affinityHash ttl) StoresAlone
      (observing db b calls now) (schedule.map .advance))
    (hrun : (observing db b calls now).run affinityHash ttl (schedule.map .advance) = some t)
    (hfinished : ∀ task ∈ t.tasks, task.code = []) :
    ∀ call ∈ calls, t.balancer.providers.Shows now call := by
  have hadvance : ∀ a ∈ schedule.map CacheStep.advance, ∃ i, a = .advance i := by
    intro a ha
    obtain ⟨i, -, rfl⟩ := List.mem_map.mp ha
    exact ⟨i, rfl⟩
  have hend : Observing calls now t := by
    refine Transition.invariant_of_guarded (fun h hok hstep => ?_) (halone.and_of_mem hadvance)
      hrun (observing_start henabled)
    obtain ⟨⟨i, rfl⟩, halone⟩ := hok
    exact h.step hdistinct halone hstep
  intro call hmem
  obtain ⟨i, hlt, hcall⟩ := List.mem_iff_getElem.mp hmem
  have htasks : i < t.tasks.length := by
    have hlength := hend.length
    omega
  have hcode : t.tasks[i].code = [] := hfinished _ (List.getElem_mem htasks)
  exact hend.shown i call t.tasks[i] (List.getElem?_eq_some_iff.mpr ⟨hlt, hcall⟩)
    (List.getElem?_eq_getElem htasks) (by simp [hcode]) _ .cached

/-- A balancer with two enabled providers. -/
def twoProviders : Balancer :=
  { Balancer.default with
    providers := ⟨[Balancer.ownedProvider "p" "u", Balancer.ownedProvider "q" "u"], by decide⟩ }

/-- The provider `p` rejects its token. -/
def rejectionCall : ObserveCall := ("p", authErrorUpdate 401 "\x7b\x7d" 50)

/-- The provider `q` names the end of its cooldown. -/
def cooldownCall : ObserveCall := ("q", usageLimitUpdate "c" "\x7b\x7d" 50 200)

/-- Both providers answer. -/
def twoCalls : List ObserveCall := [rejectionCall, cooldownCall]

/-- The two calls are different. -/
theorem twoCalls_distinct : (twoCalls.map Prod.fst).Nodup := by decide

/-- The providers of the two calls are enabled. -/
theorem twoCalls_enabled : ∀ call ∈ twoCalls, twoProviders.providers.Enabled call.1 := by
  intro call hcall
  simp only [twoCalls, List.mem_cons, List.not_mem_nil, or_false] at hcall
  obtain rfl | rfl := hcall
  · exact ⟨_, rfl, rfl⟩
  · exact ⟨_, rfl, rfl⟩

/-- The second call starts after the first has stored, and the recovery comes last. -/
def sequential : CacheNode :=
  (observing Database.empty twoProviders twoCalls 100).after id 60
    ([0, 0, 1, 0, 1, 1, 2, 2].map .advance)

/-- The statement at this run. -/
theorem observations_shown_sequential :
    sequential.balancer.providers.Shows 100 rejectionCall ∧
      sequential.balancer.providers.Shows 100 cooldownCall := by
  have hrun : (observing Database.empty twoProviders twoCalls 100).run id 60
      ([0, 0, 1, 0, 1, 1, 2, 2].map .advance) = some sequential :=
    Transition.run_eq_some_after (by decide)
  have hshown := observations_shown twoCalls_distinct twoCalls_enabled (by decide) hrun (by decide)
  exact ⟨hshown rejectionCall (by simp [twoCalls]), hshown cooldownCall (by simp [twoCalls])⟩

/-- The second call loads before the first has stored, and stores after it: the first observation
is gone when all have finished. -/
theorem observe_erases_observation :
    (twoCalls.map Prod.fst).Nodup ∧
    (∀ call ∈ twoCalls, twoProviders.providers.Enabled call.1) ∧
    ∃ t, (observing Database.empty twoProviders twoCalls 100).run id 60
        ([0, 1, 0, 1, 0, 1, 2, 2].map .advance) = some t ∧
      (∀ task ∈ t.tasks, task.code = []) ∧
      ¬ ∀ call ∈ twoCalls, t.balancer.providers.Shows 100 call := by
  refine ⟨twoCalls_distinct, twoCalls_enabled, _, Transition.run_eq_some_after (by decide),
    by decide, fun hshown => ?_⟩
  obtain ⟨row, hrow, hshows⟩ := hshown rejectionCall (by simp [twoCalls]) .authError rfl
  have hactive : row = Balancer.ownedProvider "p" "u" := (Option.some.inj hrow).symm
  subst hactive
  obtain ⟨hstatus, -⟩ | ⟨hstatus, -⟩ := hshows
  · exact absurd hstatus (by decide)
  · exact absurd hstatus (by decide)

end CacheNode

end OpenAiLb
