import OpenAiLb.Library.Transition

/-!
# Erasing invisible labels

Some steps of a run can be observed: they show an output. The other labels are invisible
if a run shows the same outputs without them. For this it is enough that a relation between the
two runs is kept by an invisible step on one side and by a visible step on both.
-/

namespace Transition

variable {σ τ α β : Type*}

/-- What a run shows: the output of each step that has one, taken before the step. -/
def outputs (step : σ → α → Option σ) (out : σ → α → Option β) : σ → List α → List β
  | _, [] => []
  | s, a :: labels =>
    (out s a).toList ++ (step s a).elim [] fun t => outputs step out t labels

/-- What a run puts out: its first step, then the rest. -/
theorem outputs_cons {step : σ → α → Option σ} {out : σ → α → Option β} {s t : σ} {a : α}
    (h : step s a = some t) (labels : List α) :
    outputs step out s (a :: labels) = (out s a).toList ++ outputs step out t labels := by
  simp [outputs, h]

/-- **Erasure rule.** A run whose invisible steps keep the relation, and whose visible steps are
matched with the same output, can be followed without its invisible steps. -/
theorem erase_invisible {step : σ → α → Option σ} {step' : τ → α → Option τ}
    {out : σ → α → Option β} {out' : τ → α → Option β} {visible : α → Bool}
    {rel : σ → τ → Prop}
    (hinvisible : ∀ {s a t s'}, rel s s' → visible a = false → step s a = some t →
      out s a = none ∧ rel t s')
    (hvisible : ∀ {s a t s'}, rel s s' → visible a = true → step s a = some t →
      out s a = out' s' a ∧ ∃ t', step' s' a = some t' ∧ rel t t')
    {s t : σ} {s' : τ} {labels : List α} (hrel : rel s s') (hrun : run step s labels = some t) :
    outputs step out s labels = outputs step' out' s' (labels.filter visible) ∧
      ∃ t', run step' s' (labels.filter visible) = some t' ∧ rel t t' := by
  induction labels generalizing s s' with
  | nil =>
    obtain rfl : s = t := by simpa using hrun
    exact ⟨rfl, s', rfl, hrel⟩
  | cons a labels ih =>
    obtain ⟨m, hm, hrest⟩ := run_cons_eq_some hrun
    rw [outputs_cons hm]
    cases hvis : visible a with
    | false =>
      obtain ⟨hout, hkept⟩ := hinvisible hrel hvis hm
      rw [List.filter_cons_of_neg (by simp [hvis]), hout]
      exact ih hkept hrest
    | true =>
      obtain ⟨hout, m', hm', hkept⟩ := hvisible hrel hvis hm
      obtain ⟨houts, t', hrun', hend⟩ := ih hkept hrest
      rw [List.filter_cons_of_pos hvis, outputs_cons hm', hout, houts]
      exact ⟨rfl, t', by rw [run_cons, hm', Option.bind_some, hrun'], hend⟩

end Transition
