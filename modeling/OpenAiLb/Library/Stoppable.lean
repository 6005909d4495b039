import Mathlib.Logic.Basic

/-!
# Computations that may stop early

A computation owns a state and returns a value, or it stops with an exit: an error that
is handed on, a cancellation at the point where it waits, or a panic. Whatever it stops
with, its state is there to be cleaned up. `Ensures` is the triple for such
computations, with one postcondition for the value and one for the exit.
-/

namespace Stoppable

/-- Why a computation stopped before its end. -/
inductive Exit (ε π : Type) where
  | error (e : ε)
  /-- The caller dropped the computation while it was waiting. -/
  | cancelled
  | panicked (p : π)
  deriving DecidableEq

variable {ε σ α β : Type}

/-- Wait for an answer of the outside; the state is not touched. -/
def await (answer : Except ε α) : EStateM ε σ α := fun s =>
  match answer with
  | .ok a => .ok a s
  | .error e => .error e s

/-- From every state in `pre`, the computation returns in `post` or stops in `exit`. -/
def Ensures (pre : σ → Prop) (x : EStateM ε σ α) (post : α → σ → Prop)
    (exit : ε → σ → Prop) : Prop :=
  ∀ s, pre s →
    match x s with
    | .ok a t => post a t
    | .error e t => exit e t

namespace Ensures

variable {pre pre' : σ → Prop} {mid : α → σ → Prop} {post post' : β → σ → Prop}
  {exit exit' : ε → σ → Prop}

/-- What holds after a run that returns. -/
theorem of_ok {x : EStateM ε σ β} (h : Ensures pre x post exit) {s t : σ} {b : β} (hs : pre s)
    (hrun : x s = .ok b t) : post b t := by
  have hends := h s hs
  rw [hrun] at hends
  exact hends

/-- What holds after a run that fails. -/
theorem of_error {x : EStateM ε σ β} (h : Ensures pre x post exit) {s t : σ} {e : ε} (hs : pre s)
    (hrun : x s = .error e t) : exit e t := by
  have hends := h s hs
  rw [hrun] at hends
  exact hends

/-- **Sequencing.** -/
theorem bind {x : EStateM ε σ α} {f : α → EStateM ε σ β} (hx : Ensures pre x mid exit)
    (hf : ∀ a, Ensures (mid a) (f a) post exit) : Ensures pre (x >>= f) post exit := by
  intro s hs
  have hfirst := hx s hs
  have hrun : (x >>= f) s = match x s with
      | .ok a t => f a t
      | .error e t => .error e t := rfl
  rw [hrun]
  cases hxs : x s with
  | ok a t =>
    rw [hxs] at hfirst
    exact hf a t hfirst
  | error e t =>
    rw [hxs] at hfirst
    exact hfirst

/-- **Consequence.** -/
theorem imp {x : EStateM ε σ β} (h : Ensures pre' x post' exit') (hpre : ∀ s, pre s → pre' s)
    (hpost : ∀ b s, post' b s → post b s) (hexit : ∀ e s, exit' e s → exit e s) :
    Ensures pre x post exit := by
  intro s hs
  have hends := h s (hpre s hs)
  cases hxs : x s with
  | ok b t =>
    rw [hxs] at hends
    exact hpost b t hends
  | error e t =>
    rw [hxs] at hends
    exact hexit e t hends

/-- A fact about the starting state may be used while the triple is proved. -/
theorem of_pre {x : EStateM ε σ β} (h : ∀ s, pre s → Ensures (fun t => t = s) x post exit) :
    Ensures pre x post exit :=
  fun s hs => h s hs s rfl

/-- Reading the state names it. -/
theorem get_bind {f : σ → EStateM ε σ β}
    (h : ∀ s, pre s → Ensures (fun t => t = s) (f s) post exit) :
    Ensures pre (get >>= f) post exit :=
  fun s hs => h s hs s rfl

end Ensures

section Primitives

variable {pre : σ → Prop} {post : α → σ → Prop} {exit : ε → σ → Prop}

/-- Returning a value ensures what holds of the value. -/
theorem ensures_pure {a : α} (h : ∀ s, pre s → post a s) : Ensures pre (pure a) post exit :=
  fun s hs => h s hs

/-- Failing ensures what holds at the exit. -/
theorem ensures_throw {e : ε} (h : ∀ s, pre s → exit e s) :
    Ensures pre (throw e : EStateM ε σ α) post exit :=
  fun s hs => h s hs

/-- Changing the state ensures what holds of the new state. -/
theorem ensures_modify {f : σ → σ} {post : PUnit → σ → Prop} (h : ∀ s, pre s → post ⟨⟩ (f s)) :
    Ensures pre (modify f : EStateM ε σ PUnit) post exit :=
  fun s hs => h s hs

/-- An answer of the outside keeps the state. -/
theorem ensures_await {answer : Except ε α} (hok : ∀ a s, answer = .ok a → pre s → post a s)
    (herror : ∀ e s, answer = .error e → pre s → exit e s) :
    Ensures pre (await answer) post exit := by
  intro s hs
  cases answer with
  | ok a => exact hok a s rfl hs
  | error e => exact herror e s rfl hs

/-- A handler takes over where the computation stopped, in the state that it left. -/
theorem ensures_tryCatch {x : EStateM ε σ α} {handle : ε → EStateM ε σ α}
    {stopped : ε → σ → Prop} (hx : Ensures pre x post stopped)
    (hhandle : ∀ e, Ensures (stopped e) (handle e) post exit) :
    Ensures pre (tryCatch x handle) post exit := by
  intro s hs
  have hfirst := hx s hs
  have hrun : (tryCatch x handle : EStateM ε σ α) s = match x s with
      | .ok a t => .ok a t
      | .error e t => handle e t := by
    change EStateM.tryCatch x handle s = _
    unfold EStateM.tryCatch
    cases x s <;> rfl
  rw [hrun]
  cases hxs : x s with
  | ok a t =>
    rw [hxs] at hfirst
    exact hfirst
  | error e t =>
    rw [hxs] at hfirst
    exact hhandle e t hfirst

end Primitives

section Runs

variable {x : EStateM ε σ α} {f : α → EStateM ε σ β} {s t : σ}

/-- A sequence goes on where its first part has returned. -/
theorem run_bind_of_ok {a : α} (h : x s = .ok a t) : (x >>= f) s = f a t := by
  show (match x s with
    | .ok a t => f a t
    | .error e t => .error e t) = f a t
  rw [h]

/-- A sequence stops where its first part has stopped. -/
theorem run_bind_of_error {e : ε} (h : x s = .error e t) : (x >>= f) s = .error e t := by
  show (match x s with
    | .ok a t => f a t
    | .error e t => .error e t) = .error e t
  rw [h]

/-- A sequence has returned where both parts have. -/
theorem run_bind_eq_ok {b : β} :
    (x >>= f) s = .ok b t ↔ ∃ a u, x s = .ok a u ∧ f a u = .ok b t := by
  cases hx : x s with
  | ok a u =>
    rw [run_bind_of_ok hx]
    constructor
    · exact fun h => ⟨a, u, rfl, h⟩
    · rintro ⟨a, u, h, hf⟩
      cases h
      exact hf
  | error e u =>
    rw [run_bind_of_error hx]
    constructor
    · nofun
    · rintro ⟨a, u, h, -⟩
      cases h

/-- A sequence without a state has returned where both parts have. -/
theorem bind_eq_ok {y : Except ε α} {g : α → Except ε β} {b : β} :
    (y >>= g) = .ok b ↔ ∃ a, y = .ok a ∧ g a = .ok b := by
  cases y with
  | error e =>
    constructor
    · nofun
    · rintro ⟨a, h, -⟩
      cases h
  | ok a =>
    constructor
    · exact fun h => ⟨a, rfl, h⟩
    · rintro ⟨a, h, hg⟩
      cases h
      exact hg

/-- An answer without a state that is mapped was there before. -/
theorem map_eq_ok {y : Except ε α} {g : α → β} {b : β} :
    y.map g = .ok b ↔ ∃ a, y = .ok a ∧ g a = b := by
  cases y with
  | error e =>
    constructor
    · nofun
    · rintro ⟨a, h, -⟩
      cases h
  | ok a =>
    constructor
    · exact fun h => ⟨a, rfl, Except.ok.inj h⟩
    · rintro ⟨a', h, rfl⟩
      obtain rfl := Except.ok.inj h
      rfl

/-- A check in front of a sequence has passed. -/
theorem check_bind_eq_ok {y : Except ε Unit} {z : Except ε β} {b : β} :
    (do y; z) = .ok b ↔ y = .ok () ∧ z = .ok b := by
  rw [bind_eq_ok]
  constructor
  · rintro ⟨⟨⟩, hy, hz⟩
    exact ⟨hy, hz⟩
  · rintro ⟨hy, hz⟩
    exact ⟨(), hy, hz⟩

/-- An answer of the outside is waited for in one state. -/
theorem await_eq_ok {answer : Except ε α} {a : α} :
    await answer s = .ok a t ↔ answer = .ok a ∧ t = s := by
  cases answer with
  | ok b => simp [await, eq_comm]
  | error e => simp [await]

end Runs

/-- Run a computation on a part of the state. -/
def onPart {τ : Type} (part : σ → τ) (put : σ → τ → σ) (x : EStateM ε τ α) :
    EStateM ε σ α := fun s =>
  match x (part s) with
  | .ok a t => .ok a (put s t)
  | .error e t => .error e (put s t)

/-- The computation keeps what `view` shows of the state, however it ends. -/
def Keeps {τ : Type} (view : σ → τ) (x : EStateM ε σ α) : Prop :=
  ∀ seen, Ensures (fun s => view s = seen) x (fun _ t => view t = seen) fun _ t => view t = seen

namespace Keeps

variable {τ : Type} {view : σ → τ}

/-- Returning a value keeps the view. -/
theorem pure (a : α) : Keeps view (Pure.pure a : EStateM ε σ α) :=
  fun _ => ensures_pure fun _ hs => hs

/-- So does failing. -/
theorem throw (e : ε) : Keeps view (MonadExcept.throw e : EStateM ε σ α) :=
  fun _ => ensures_throw fun _ hs => hs

/-- So does waiting for an answer. -/
theorem await (answer : Except ε α) : Keeps view (Stoppable.await answer) :=
  fun _ => ensures_await (fun _ _ _ hs => hs) fun _ _ _ hs => hs

/-- So does a change that the view does not show. -/
theorem modify {f : σ → σ} (hf : ∀ s, view (f s) = view s) :
    Keeps view (modify f : EStateM ε σ PUnit) :=
  fun _ => ensures_modify fun s hs => (hf s).trans hs

/-- A sequence keeps the view if its parts do. -/
theorem bind {x : EStateM ε σ α} {f : α → EStateM ε σ β} (hx : Keeps view x)
    (hf : ∀ a, Keeps view (f a)) : Keeps view (x >>= f) :=
  fun seen => (hx seen).bind fun a => hf a seen

/-- What a view shows beside the part is kept by every computation on the part. -/
theorem onPart {κ : Type} {part : σ → κ} {put : σ → κ → σ} (x : EStateM ε κ α)
    (hput : ∀ s t, view (put s t) = view s) : Keeps view (Stoppable.onPart part put x) := by
  intro seen s hs
  unfold Stoppable.onPart
  cases x (part s) with
  | ok a t => exact (hput s t).trans hs
  | error e t => exact (hput s t).trans hs

/-- After a new state, its view is what the rest starts from. -/
theorem set_bind (view : σ → τ) {pre : σ → Prop} {post : β → σ → Prop} {exit : ε → σ → Prop} {t : σ}
    {f : PUnit → EStateM ε σ β} {seen : τ} (ht : view t = seen)
    (hf : ∀ u, Ensures (fun s => view s = seen) (f u) post exit) :
    Ensures pre (set t >>= f) post exit :=
  fun _ _ => hf ⟨⟩ t ht

/-- Where the computation stops or returns, the view is the one of its beginning. -/
theorem of_ok {x : EStateM ε σ α} (h : Keeps view x) {s t : σ} {a : α} (hrun : x s = .ok a t) :
    view t = view s :=
  (h (view s)).of_ok rfl hrun

/-- The view is kept when the run fails as well. -/
theorem of_error {x : EStateM ε σ α} (h : Keeps view x) {s t : σ} {e : ε}
    (hrun : x s = .error e t) : view t = view s :=
  (h (view s)).of_error rfl hrun

end Keeps

/-- A result as it looks through a view of the state. -/
def seenThrough {τ : Type} (view : σ → τ) : EStateM.Result ε σ α → EStateM.Result ε τ α
  | .ok a s => .ok a (view s)
  | .error e s => .error e (view s)

/-- Seen through the view, the first computation does what the second one does. -/
def Refines {τ : Type} (view : σ → τ) (x : EStateM ε σ α) (y : EStateM ε τ α) : Prop :=
  ∀ s, y (view s) = seenThrough view (x s)

namespace Refines

variable {τ : Type} {view : σ → τ}

/-- Returning a value refines returning it. -/
theorem pure (a : α) : Refines view (Pure.pure a : EStateM ε σ α) (Pure.pure a) := fun _ => rfl

/-- Waiting for an answer refines waiting for it. -/
theorem await (answer : Except ε α) : Refines view (Stoppable.await answer)
    (Stoppable.await answer) := by
  intro s
  cases answer with
  | ok a => rfl
  | error e => rfl

/-- Refinement of a sequence; the second part may use how the first one has returned. -/
theorem bind {x : EStateM ε σ α} {y : EStateM ε τ α} {f : α → EStateM ε σ β}
    {g : α → EStateM ε τ β} (hx : Refines view x y)
    (hf : ∀ a s t, x s = .ok a t → Refines view (f a) (g a)) :
    Refines view (x >>= f) (y >>= g) := by
  intro s
  have hy := hx s
  cases hrun : x s with
  | ok a t =>
    rw [hrun] at hy
    rw [run_bind_of_ok hrun, run_bind_of_ok hy]
    exact hf a s t hrun t
  | error e t =>
    rw [hrun] at hy
    rw [run_bind_of_error hrun, run_bind_of_error hy]
    rfl

/-- A first part that only computes a value may be left out. -/
theorem bind_right {x : EStateM ε σ β} {y : EStateM ε τ α} {g : α → EStateM ε τ β} {a : α}
    (hy : Refines view (Pure.pure a) y) (hx : Refines view x (g a)) :
    Refines view x (y >>= g) := by
  intro s
  rw [run_bind_of_ok (hy s)]
  exact hx s

end Refines

end Stoppable
