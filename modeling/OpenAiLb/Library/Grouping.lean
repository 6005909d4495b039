import Mathlib.Algebra.BigOperators.Group.List.Basic

/-!
# Sums over groups

Rows are grouped by a key. Summing over the rows of each group, and then over the groups, is
summing over all rows.
-/

namespace Grouping

variable {ρ κ M : Type*} [AddCommMonoid M] [DecidableEq κ]

/-- The rows of a group. -/
def group (key : ρ → κ) (k : κ) (rows : List ρ) : List ρ := rows.filter fun row => key row = k

/-- One key among different ones has its value in the sum, the others nothing. -/
theorem sum_single {keys : List κ} (hnodup : keys.Nodup) {k : κ} (hmem : k ∈ keys) (x : M) :
    (keys.map fun other => if k = other then x else 0).sum = x := by
  induction keys with
  | nil => cases hmem
  | cons first rest ih =>
    rw [List.nodup_cons] at hnodup
    rw [List.map_cons, List.sum_cons]
    rcases List.mem_cons.mp hmem with rfl | hrest
    · have hzero : (rest.map fun other => if k = other then x else 0).sum = 0 := by
        refine List.sum_eq_zero fun y hy => ?_
        obtain ⟨other, hother, rfl⟩ := List.mem_map.mp hy
        refine if_neg ?_
        rintro rfl
        exact hnodup.1 hother
      rw [if_pos rfl, hzero, add_zero]
    · have hne : k ≠ first := by
        rintro rfl
        exact hnodup.1 hrest
      rw [if_neg hne, ih hnodup.2 hrest, zero_add]

/-- **The groups add up to all rows**, if each row has its key among the keys. -/
theorem sum_groups (key : ρ → κ) (f : ρ → M) {keys : List κ} (hnodup : keys.Nodup)
    {rows : List ρ} (hmem : ∀ row ∈ rows, key row ∈ keys) :
    (keys.map fun k => ((group key k rows).map f).sum).sum = (rows.map f).sum := by
  induction rows with
  | nil =>
    refine List.sum_eq_zero fun y hy => ?_
    obtain ⟨k, -, rfl⟩ := List.mem_map.mp hy
    rfl
  | cons row rows ih =>
    have hrest := ih fun other hother => hmem other (List.mem_cons_of_mem _ hother)
    have hfirst := sum_single hnodup (hmem row List.mem_cons_self) (f row)
    have hgroup : ∀ k, ((group key k (row :: rows)).map f).sum =
        (if key row = k then f row else 0) + ((group key k rows).map f).sum := by
      intro k
      unfold group
      by_cases hk : key row = k
      · simp [hk]
      · simp [hk]
    simp only [hgroup]
    rw [List.sum_map_add, hfirst, hrest, List.map_cons, List.sum_cons]

end Grouping
