import Mathlib.Data.List.Basic
import Mathlib.Data.Option.Basic

/-!
# Runs of a partial labelled step

A concurrent component is given by one partial step function: a label names the
operation that acts next, and `none` means that the operation cannot act in that
state. A run is a list of labels. This file proves the induction over runs once,
for invariants, for runs whose steps all meet a side condition, and for two
systems that run side by side.
-/

namespace Transition

variable {σ τ α : Type*}

/-- Execute the labels from left to right; `none` as soon as one step is refused. -/
def run (step : σ → α → Option σ) : σ → List α → Option σ
  | s, [] => some s
  | s, a :: labels => (step s a).bind fun t => run step t labels

@[simp] theorem run_nil (step : σ → α → Option σ) (s : σ) : run step s [] = some s := rfl

/-- A run takes its first step, then the rest. -/
@[simp] theorem run_cons (step : σ → α → Option σ) (s : σ) (a : α) (labels : List α) :
    run step s (a :: labels) = (step s a).bind fun t => run step t labels := rfl

/-- A run of a concatenation is a run of the first part followed by one of the second. -/
theorem run_append (step : σ → α → Option σ) (s : σ) (first second : List α) :
    run step s (first ++ second) = (run step s first).bind fun t => run step t second := by
  induction first generalizing s with
  | nil => rfl
  | cons a labels ih =>
    rw [List.cons_append, run_cons, run_cons, Option.bind_assoc]
    congr 1
    funext t
    exact ih t

/-- A nonempty run starts with one step. -/
theorem run_cons_eq_some {step : σ → α → Option σ} {s t : σ} {a : α} {labels : List α}
    (h : run step s (a :: labels) = some t) :
    ∃ m, step s a = some m ∧ run step m labels = some t :=
  Option.bind_eq_some_iff.mp h

/-- Every step of the run meets `ok`, which sees the state before the step and its label. -/
def Guarded (step : σ → α → Option σ) (ok : σ → α → Prop) : σ → List α → Prop
  | _, [] => True
  | s, a :: labels => ok s a ∧ ∀ t, step s a = some t → Guarded step ok t labels

/-- A decidable side condition can be checked along a run. -/
instance decidableGuarded (step : σ → α → Option σ) (ok : σ → α → Prop)
    [∀ s a, Decidable (ok s a)] : ∀ s labels, Decidable (Guarded step ok s labels)
  | _, [] => inferInstanceAs (Decidable True)
  | s, a :: labels =>
    have := fun t => decidableGuarded step ok t labels
    inferInstanceAs (Decidable (ok s a ∧ ∀ t ∈ step s a, Guarded step ok t labels))

/-- The state after a run, for runs that are not refused. -/
def after (step : σ → α → Option σ) (s : σ) (labels : List α) : σ := (run step s labels).getD s

/-- A run that can be made ends in the state after it. -/
theorem run_eq_some_after {step : σ → α → Option σ} {s : σ} {labels : List α}
    (h : (run step s labels).isSome = true) : run step s labels = some (after step s labels) := by
  obtain ⟨t, ht⟩ := Option.isSome_iff_exists.mp h
  rw [after, ht, Option.getD_some]

/-- The trivial side condition is met by every run. -/
theorem guarded_of_forall {step : σ → α → Option σ} {ok : σ → α → Prop}
    (h : ∀ s a, ok s a) (s : σ) (labels : List α) : Guarded step ok s labels := by
  induction labels generalizing s with
  | nil => trivial
  | cons a labels ih => exact ⟨h s a, fun t _ => ih t⟩

/-- A side condition may be weakened step by step. -/
theorem Guarded.imp {step : σ → α → Option σ} {ok ok' : σ → α → Prop}
    (himp : ∀ s a, ok s a → ok' s a) {s : σ} {labels : List α}
    (h : Guarded step ok s labels) : Guarded step ok' s labels := by
  induction labels generalizing s with
  | nil => trivial
  | cons a labels ih => exact ⟨himp s a h.1, fun t ht => ih (h.2 t ht)⟩

/-- A condition on the labels alone joins a side condition. -/
theorem Guarded.and_of_mem {step : σ → α → Option σ} {ok : σ → α → Prop} {only : α → Prop}
    {s : σ} {labels : List α} (h : Guarded step ok s labels) (hmem : ∀ a ∈ labels, only a) :
    Guarded step (fun s a => only a ∧ ok s a) s labels := by
  induction labels generalizing s with
  | nil => trivial
  | cons a labels ih =>
    exact ⟨⟨hmem a List.mem_cons_self, h.1⟩,
      fun t ht => ih (h.2 t ht) fun b hb => hmem b (List.mem_cons_of_mem a hb)⟩

/-- The side condition holds along both parts of a concatenated run. -/
theorem Guarded.of_append {step : σ → α → Option σ} {ok : σ → α → Prop} {s t : σ}
    {first second : List α} (h : Guarded step ok s (first ++ second))
    (hrun : run step s first = some t) :
    Guarded step ok s first ∧ Guarded step ok t second := by
  induction first generalizing s with
  | nil =>
    obtain rfl : s = t := by simpa using hrun
    exact ⟨trivial, h⟩
  | cons a labels ih =>
    obtain ⟨m, hm, hrest⟩ := run_cons_eq_some hrun
    refine ⟨⟨h.1, fun u hu => ?_⟩, (ih (h.2 m hm) hrest).2⟩
    obtain rfl : m = u := Option.some.inj (hm.symm.trans hu)
    exact (ih (h.2 m hm) hrest).1

/-- **Invariant rule.** What one admissible step preserves, every admissible run preserves. -/
theorem invariant_of_guarded {step : σ → α → Option σ} {ok : σ → α → Prop} {inv : σ → Prop}
    (hstep : ∀ {s a t}, inv s → ok s a → step s a = some t → inv t)
    {s t : σ} {labels : List α} (hok : Guarded step ok s labels)
    (hrun : run step s labels = some t) (hs : inv s) : inv t := by
  induction labels generalizing s with
  | nil =>
    obtain rfl : s = t := by simpa using hrun
    exact hs
  | cons a labels ih =>
    obtain ⟨m, hm, hrest⟩ := run_cons_eq_some hrun
    exact ih (hok.2 m hm) hrest (hstep hs hok.1 hm)

/-- **Invariant rule** without a side condition on the steps. -/
theorem invariant_of_run {step : σ → α → Option σ} {inv : σ → Prop}
    (hstep : ∀ {s a t}, inv s → step s a = some t → inv t)
    {s t : σ} {labels : List α} (hrun : run step s labels = some t) (hs : inv s) : inv t := by
  have hok : Guarded step (fun _ _ => True) s labels :=
    guarded_of_forall (fun _ _ => trivial) s labels
  exact invariant_of_guarded (fun h _ hstepped => hstep h hstepped) hok hrun hs

/-- **History rule.** What one step preserves of a state and the labels so far, a run preserves. -/
theorem history_of_run {step : σ → α → Option σ} {p : List α → σ → Prop}
    (hstep : ∀ {before s a t}, p before s → step s a = some t → p (before ++ [a]) t)
    {s t : σ} {labels : List α} (hrun : run step s labels = some t) (hs : p [] s) :
    p labels t := by
  suffices hfrom : ∀ before, p before s → p (before ++ labels) t from hfrom [] hs
  clear hs
  induction labels generalizing s with
  | nil =>
    intro before hbefore
    obtain rfl : s = t := by simpa using hrun
    rwa [List.append_nil]
  | cons a labels ih =>
    intro before hbefore
    obtain ⟨m, hm, hrest⟩ := run_cons_eq_some hrun
    rw [← List.singleton_append, ← List.append_assoc]
    exact ih hrest (before ++ [a]) (hstep hbefore hm)

/-- **Exact guards.** If a step under an invariant leads to a good state exactly from a good state
and under its side condition, then a run does exactly if every step meets the side condition. -/
theorem good_iff_guarded {step : σ → α → Option σ} {ok : σ → α → Prop} {inv good : σ → Prop}
    (hinv : ∀ {s a t}, inv s → step s a = some t → inv t)
    (hstep : ∀ {s a t}, inv s → step s a = some t → (good t ↔ good s ∧ ok s a))
    {s t : σ} {labels : List α} (hs : inv s) (hrun : run step s labels = some t) :
    good t ↔ good s ∧ Guarded step ok s labels := by
  induction labels generalizing s with
  | nil =>
    obtain rfl : s = t := by simpa using hrun
    exact (and_iff_left trivial).symm
  | cons a labels ih =>
    obtain ⟨m, hm, hrest⟩ := run_cons_eq_some hrun
    have hguarded : Guarded step ok s (a :: labels) ↔ ok s a ∧ Guarded step ok m labels := by
      refine and_congr_right fun _ => ⟨fun h => h m hm, fun h u hu => ?_⟩
      obtain rfl : m = u := Option.some.inj (hm.symm.trans hu)
      exact h
    rw [ih (hinv hs hm) hrest, hstep hs hm, hguarded, and_assoc]

/-- A total specification follows a run: it sees each state before its step. -/
def follow (step : σ → α → Option σ) (spec : σ → τ → α → τ) : σ → τ → List α → τ
  | _, t, [] => t
  | s, t, a :: labels => (step s a).elim t fun s' => follow step spec s' (spec s t a) labels

/-- **Simulation rule.** A relation between a state and the specification that every admissible
step keeps holds at the end of every admissible run. -/
theorem simulation_of_guarded {step : σ → α → Option σ} {ok : σ → α → Prop}
    {spec : σ → τ → α → τ} {rel : σ → τ → Prop}
    (hstep : ∀ {s a s' t}, rel s t → ok s a → step s a = some s' → rel s' (spec s t a))
    {s s' : σ} {t : τ} {labels : List α} (hok : Guarded step ok s labels)
    (hrun : run step s labels = some s') (h : rel s t) : rel s' (follow step spec s t labels) := by
  induction labels generalizing s t with
  | nil =>
    obtain rfl : s = s' := by simpa using hrun
    exact h
  | cons a labels ih =>
    obtain ⟨m, hm, hrest⟩ := run_cons_eq_some hrun
    simpa [follow, hm] using ih (hok.2 m hm) hrest (hstep h hok.1 hm)

/-- A specification that sees the labels alone is a fold over them. -/
theorem follow_eq_foldl {step : σ → α → Option σ} {s s' : σ} {labels : List α}
    (spec : τ → α → τ) (t : τ) (hrun : run step s labels = some s') :
    follow step (fun _ => spec) s t labels = labels.foldl spec t := by
  induction labels generalizing s t with
  | nil => rfl
  | cons a labels ih =>
    obtain ⟨m, hm, hrest⟩ := run_cons_eq_some hrun
    simpa [follow, hm] using ih (spec t a) hrest

end Transition
