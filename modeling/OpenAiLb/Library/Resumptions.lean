import OpenAiLb.Library.Stoppable
import OpenAiLb.Library.Transition

/-!
# Computations that others may come in between

A handler of a server makes one access to the shared state after the other, and between two of
them other handlers make theirs. `Resumption` is such a handler: each access is atomic, it sees
the state as the others have left it, and what comes next depends on what it saw. A pool runs any
number of handlers in any order. `Keeps` says that each access of a handler restores an invariant,
whatever state the others have left in which it holds, and a pool of handlers that keep an invariant
one by one keeps it. A handler that its caller abandons is one that takes no more steps.
-/

/-- A computation that returns, or makes one atomic access and goes on with what it saw. -/
inductive Resumption (ε σ α : Type) where
  | returned (result : Except ε α)
  | access (write : σ → σ) (next : σ → Resumption ε σ α)

namespace Resumption

variable {ε σ α β γ κ : Type}

/-- One computation after the other; an error ends the first one and the second one. -/
def bind : Resumption ε σ α → (α → Resumption ε σ β) → Resumption ε σ β
  | returned (.ok a), f => f a
  | returned (.error e), _ => returned (.error e)
  | access write next, f => access write fun s => bind (next s) f

instance : Monad (Resumption ε σ) where
  pure a := returned (.ok a)
  bind := bind

/-- Stop with an error. -/
def fail (e : ε) : Resumption ε σ α := returned (.error e)

/-- An answer that is there already. -/
def await (answer : Except ε α) : Resumption ε σ α := returned answer

/-- Read the state. -/
def read (view : σ → α) : Resumption ε σ α := access id fun s => returned (.ok (view s))

/-- Read and write the state in one access. -/
def statement (f : σ → α × σ) : Resumption ε σ α :=
  access (fun s => (f s).2) fun s => returned (.ok (f s).1)

/-- A whole computation in one access: what a transaction is to the others. -/
def atomic (x : EStateM ε σ α) : Resumption ε σ α :=
  access
    (fun s => match x s with
      | .ok _ t | .error _ t => t)
    fun s => match x s with
      | .ok a _ => returned (.ok a)
      | .error e _ => returned (.error e)

/-- The result and the state when nobody comes in between. -/
def alone : Resumption ε σ α → σ → Except ε α × σ
  | returned result, s => (result, s)
  | access write next, s => (next s).alone (write s)

section Alone

variable {τ : Type} {view : σ → τ}

/-- A sequence that runs alone runs its parts one after the other. -/
theorem alone_bind (x : Resumption ε σ α) (f : α → Resumption ε σ β) (s : σ) :
    (x >>= f).alone s = match x.alone s with
      | (.ok a, t) => (f a).alone t
      | (.error e, t) => (.error e, t) := by
  change (bind x f).alone s = _
  induction x generalizing s with
  | returned result =>
    cases result with
    | ok a => rfl
    | error e => rfl
  | access write next ih => exact ih s (write s)

/-- An end as a computation on a part of the state sees it. -/
def seen (view : σ → τ) : Except ε α × σ → EStateM.Result ε τ α
  | (.ok a, t) => .ok a (view t)
  | (.error e, t) => .error e (view t)

/-- When nobody comes in between, the computation is this one on a part of the state. -/
def Agrees (view : σ → τ) (x : Resumption ε σ α) (y : EStateM ε τ α) : Prop :=
  ∀ s, seen view (x.alone s) = y (view s)

namespace Agrees

/-- Returning a value agrees with returning it. -/
theorem pure (a : α) :
    Agrees view (Pure.pure a : Resumption ε σ α) (Pure.pure a) := fun _ => rfl

/-- Failing agrees with failing. -/
theorem fail (e : ε) :
    Agrees view (Resumption.fail e : Resumption ε σ α) (throw e) := fun _ => rfl

/-- Waiting for an answer agrees with waiting for it. -/
theorem await (answer : Except ε α) :
    Agrees view (Resumption.await answer) (Stoppable.await answer) := by
  intro s
  cases answer with
  | ok a => rfl
  | error e => rfl

/-- Sequences agree if their parts do. -/
theorem bind {x : Resumption ε σ α} {y : EStateM ε τ α} {f : α → Resumption ε σ β}
    {g : α → EStateM ε τ β} (hx : Agrees view x y) (hf : ∀ a, Agrees view (f a) (g a)) :
    Agrees view (x >>= f) (y >>= g) := by
  intro s
  have hfirst := hx s
  rw [alone_bind]
  rcases hrun : x.alone s with ⟨a | e, t⟩
  · rw [hrun] at hfirst
    exact (Stoppable.run_bind_of_error hfirst.symm).symm
  · rw [hrun] at hfirst
    exact (hf _ t).trans (Stoppable.run_bind_of_ok hfirst.symm).symm

/-- A transaction on a part of the state. -/
theorem atomic {put : σ → τ → σ} (y : EStateM ε τ α) (hput : ∀ s t, view (put s t) = t) :
    Agrees view (Resumption.atomic (Stoppable.onPart view put y)) y := by
  intro s
  unfold Resumption.atomic Stoppable.onPart alone seen
  dsimp only
  cases y (view s) with
  | ok a t => exact congrArg _ (hput s t)
  | error e t => exact congrArg _ (hput s t)

end Agrees

end Alone

/-- From every state in which the invariant holds, each access restores it; a value that is returned
is in `post`. -/
def Keeps (inv : σ → Prop) (post : α → Prop) : Resumption ε σ α → Prop
  | returned (.ok a) => post a
  | returned (.error _) => True
  | access write next => ∀ s, inv s → inv (write s) ∧ Keeps inv post (next s)

namespace Keeps

variable {inv : σ → Prop} {mid : α → Prop} {post : β → Prop}

/-- What an access of a computation does. -/
theorem of_access {write : σ → σ} {next : σ → Resumption ε σ β}
    (h : Keeps inv post (access write next)) {s : σ} (hs : inv s) :
    inv (write s) ∧ Keeps inv post (next s) := h s hs

/-- Returning a value keeps the invariant. -/
theorem pure {b : β} (h : post b) : Keeps inv post (Pure.pure b : Resumption ε σ β) := h

/-- So does failing. -/
theorem fail (e : ε) : Keeps inv post (Resumption.fail e : Resumption ε σ β) := trivial

/-- So does waiting for an answer, which is then known. -/
theorem await (answer : Except ε β) :
    Keeps inv (fun b => answer = .ok b) (Resumption.await answer : Resumption ε σ β) := by
  cases answer with
  | ok b => exact rfl
  | error e => exact trivial

/-- So does reading, and what is read is as the invariant says. -/
theorem read {view : σ → β} (h : ∀ s, inv s → post (view s)) :
    Keeps inv post (Resumption.read view : Resumption ε σ β) :=
  fun s hs => ⟨hs, h s hs⟩

/-- A statement keeps the invariant if its change of the state does. -/
theorem statement {f : σ → β × σ} (hwrite : ∀ s, inv s → inv (f s).2)
    (h : ∀ s, inv s → post (f s).1) :
    Keeps inv post (Resumption.statement f : Resumption ε σ β) :=
  fun s hs => ⟨hwrite s hs, h s hs⟩

/-- A transaction, by its triple. -/
theorem atomic {x : EStateM ε σ β}
    (h : Stoppable.Ensures inv x (fun b s => inv s ∧ post b) fun _ s => inv s) :
    Keeps inv post (Resumption.atomic x) := by
  intro s hs
  have hends := h s hs
  dsimp only
  cases hrun : x s with
  | ok b t =>
    rw [hrun] at hends
    exact hends
  | error e t =>
    rw [hrun] at hends
    exact ⟨hends, trivial⟩

/-- **Sequencing.** The others come in between, but they restore the invariant. -/
theorem bind {x : Resumption ε σ α} {f : α → Resumption ε σ β} (hx : Keeps inv mid x)
    (hf : ∀ a, mid a → Keeps inv post (f a)) : Keeps inv post (x >>= f) := by
  change Keeps inv post (Resumption.bind x f)
  induction x with
  | returned result =>
    cases result with
    | ok a => exact hf a hx
    | error e => exact trivial
  | access write next ih => exact fun s hs => ⟨(hx s hs).1, ih s (hx s hs).2⟩

/-- **Consequence.** -/
theorem imp {post' : β → Prop} {x : Resumption ε σ β} (h : Keeps inv post' x)
    (himp : ∀ b, post' b → post b) : Keeps inv post x := by
  induction x with
  | returned result =>
    cases result with
    | ok b => exact himp b h
    | error e => exact trivial
  | access write next ih => exact fun s hs => ⟨(h s hs).1, ih s (h s hs).2⟩

end Keeps

-- From here on the rules are used, and nothing looks into a computation.
attribute [irreducible] Keeps

/-- The shared state, and the computations in the order in which they started. -/
structure Pool (ε σ α : Type) where
  state : σ
  tasks : List (Resumption ε σ α)

/-- A computation starts, or makes its next access. -/
inductive Move (κ : Type) where
  | start (c : κ)
  | advance (i : ℕ)

namespace Pool

/-- One step of a pool. -/
def step (program : κ → Resumption ε σ α) (p : Pool ε σ α) : Move κ → Option (Pool ε σ α)
  | .start c => some { p with tasks := p.tasks ++ [program c] }
  | .advance i =>
    match p.tasks[i]? with
    | some (.access write next) => some ⟨write p.state, p.tasks.set i (next p.state)⟩
    | _ => none

variable {program : κ → Resumption ε σ α} {inv : σ → Prop} {post : α → Prop}
  {p q : Pool ε σ α}

/-- The invariant holds, and every task keeps it. -/
structure Sound (inv : σ → Prop) (post : α → Prop) (p : Pool ε σ α) : Prop where
  state : inv p.state
  tasks : ∀ task ∈ p.tasks, Keeps inv post task

/-- **Step.** A start of a computation that keeps the invariant, or an access of any of them. -/
theorem Sound.step {move : Move κ} (h : Sound inv post p)
    (hstart : ∀ c, move = .start c → Keeps inv post (program c))
    (hstep : p.step program move = some q) : Sound inv post q := by
  cases move with
  | start c =>
    obtain rfl := Option.some.inj hstep
    refine ⟨h.state, fun task htask => ?_⟩
    rcases List.mem_append.mp htask with hold | hnew
    · exact h.tasks task hold
    · obtain rfl := List.mem_singleton.mp hnew
      exact hstart c rfl
  | advance i =>
    unfold Pool.step at hstep
    dsimp only at hstep
    split at hstep
    · next write next hi =>
      obtain rfl := Option.some.inj hstep
      obtain ⟨hwrite, hnext⟩ := (h.tasks _ (List.mem_of_getElem? hi)).of_access h.state
      refine ⟨hwrite, fun task htask => ?_⟩
      rcases List.mem_or_eq_of_mem_set htask with hold | rfl
      · exact h.tasks task hold
      · exact hnext
    · cases hstep

/-- **Run.** Computations that keep an invariant one by one keep it together, in any order of their
accesses. -/
theorem sound_of_run {s : σ} {moves : List (Move κ)} (hs : inv s)
    (hstart : ∀ c, .start c ∈ moves → Keeps inv post (program c))
    (hrun : Transition.run (step program) ⟨s, []⟩ moves = some q) : Sound inv post q := by
  have hany : Transition.Guarded (step program) (fun _ _ => True) ⟨s, []⟩ moves :=
    Transition.guarded_of_forall (fun _ _ => trivial) _ _
  have hok := hany.and_of_mem fun move (hmove : move ∈ moves) => hmove
  have hsound : Sound inv post (⟨s, []⟩ : Pool ε σ α) := ⟨hs, nofun⟩
  refine Transition.invariant_of_guarded (fun {p move q} h hmem hstep => ?_) hok hrun hsound
  refine h.step (fun c hc => ?_) hstep
  subst hc
  exact hstart c hmem.1

end Pool

end Resumption
