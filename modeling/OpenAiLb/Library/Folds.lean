import Mathlib.Data.List.Induction

/-!
# Loops over lists

A loop that goes through a list once is a fold. What every turn keeps, knowing what came before and
what comes after, holds at the end. A value that each item either replaces or leaves alone is the
one of the last item that replaces it.
-/

namespace Folds

variable {σ α β γ : Type*} {step : σ → α → σ} {items : List α} {s : σ}

/-- **The rule of a loop**: what holds of nothing and the first state, and is kept by each turn, holds
of all items and the last state. -/
theorem of_foldl {p : List α → σ → Prop} (hs : p [] s)
    (hstep : ∀ before item after s, items = before ++ item :: after → p before s →
      p (before ++ [item]) (step s item)) :
    p items (items.foldl step s) := by
  have hprefix : ∀ before after, items = before ++ after → p before (before.foldl step s) := by
    intro before
    induction before using List.reverseRecOn with
    | nil => exact fun _ _ => hs
    | append_singleton before item ih =>
      intro after heq
      rw [List.append_assoc, List.singleton_append] at heq
      rw [List.foldl_append]
      exact hstep before item after _ heq (ih _ heq)
  exact hprefix items [] (List.append_nil items).symm

/-- **The last item that mentions a field decides it.** -/
theorem last_of_foldl {field : σ → γ} {mentioned : α → Option β} {value : β → γ}
    (hstep : ∀ s item, field (step s item) = ((mentioned item).map value).getD (field s))
    (items : List α) (s : σ) :
    field (items.foldl step s) =
      ((items.filterMap mentioned).getLast?.map value).getD (field s) := by
  refine of_foldl (p := fun items t =>
    field t = ((items.filterMap mentioned).getLast?.map value).getD (field s)) rfl ?_
  intro before item after t _ hbefore
  rw [hstep, List.filterMap_append, List.filterMap_cons, List.filterMap_nil]
  cases mentioned item with
  | none => simpa using hbefore
  | some b => simp

end Folds
