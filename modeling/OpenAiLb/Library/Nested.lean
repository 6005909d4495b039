import Mathlib.Data.List.Sort

/-!
# Positions in nested lists

The elements of a list of lists have positions, a pair of indices. Reading the lists one after the
other is going through the positions in their order.
-/

namespace Nested

/-- The order of positions: by the outer index, then by the inner one. -/
def Before (p q : ℕ × ℕ) : Prop := p.1 < q.1 ∨ p.1 = q.1 ∧ p.2 < q.2

/-- The same order, without being strict. -/
def AtMost (p q : ℕ × ℕ) : Prop := p.1 < q.1 ∨ p.1 = q.1 ∧ p.2 ≤ q.2

instance decidableAtMost : DecidableRel AtMost := fun p q =>
  inferInstanceAs (Decidable (p.1 < q.1 ∨ p.1 = q.1 ∧ p.2 ≤ q.2))

instance irreflBefore : Std.Irrefl Before where
  irrefl p h := by
    unfold Before at h
    omega

instance antisymmBefore : Std.Antisymm Before where
  antisymm p q h h' := by
    unfold Before at h h'
    omega

instance totalAtMost : Std.Total AtMost where
  total p q := by
    unfold AtMost
    omega

instance transAtMost : IsTrans (ℕ × ℕ) AtMost where
  trans p q r h h' := by
    unfold AtMost at *
    omega

/-- What comes at most there, and is another position, comes before. -/
theorem before_of_atMost {p q : ℕ × ℕ} (h : AtMost p q) (hne : p ≠ q) : Before p q := by
  have hdiffer : p.1 = q.1 → p.2 ≠ q.2 := fun h h' => hne (Prod.ext h h')
  unfold AtMost at h
  unfold Before
  omega

/-- **Sorted positions without repetition** are in their order. -/
theorem pairwise_before {positions : List (ℕ × ℕ)} (hsorted : positions.Pairwise AtMost)
    (hnodup : positions.Nodup) : positions.Pairwise Before :=
  hsorted.imp₂ (fun _ _ => before_of_atMost) hnodup

section Positions

variable {α : Type*} {lists : List (List α)}

/-- The elements under their positions. -/
def positions (lists : List (List α)) : List ((ℕ × ℕ) × α) :=
  lists.zipIdx.flatMap fun inner => inner.1.zipIdx.map fun entry => ((inner.2, entry.2), entry.1)

/-- The positions of nested lists are those at which there is an element. -/
theorem mem_positions {i j : ℕ} {a : α} :
    ((i, j), a) ∈ positions lists ↔ (lists[i]?.bind fun inner => inner[j]?) = some a := by
  unfold positions
  rw [List.mem_flatMap, Option.bind_eq_some_iff]
  constructor
  · rintro ⟨⟨inner, i'⟩, hinner, hmem⟩
    obtain ⟨⟨a', j'⟩, hentry, heq⟩ := List.mem_map.mp hmem
    cases heq
    exact ⟨inner, List.mem_zipIdx_iff_getElem?.mp hinner, List.mem_zipIdx_iff_getElem?.mp hentry⟩
  · rintro ⟨inner, hinner, hentry⟩
    exact ⟨(inner, i), List.mem_zipIdx_iff_getElem?.mpr hinner,
      List.mem_map.mpr ⟨(a, j), List.mem_zipIdx_iff_getElem?.mpr hentry, rfl⟩⟩

/-- **The elements, from the first position to the last.** -/
theorem map_snd_positions (lists : List (List α)) :
    (positions lists).map Prod.snd = lists.flatten := by
  have hinner : ∀ inner : List α × ℕ,
      (inner.1.zipIdx.map fun entry => ((inner.2, entry.2), entry.1)).map Prod.snd = inner.1 := by
    intro inner
    rw [List.map_map]
    exact List.zipIdx_map_fst 0 inner.1
  unfold positions
  rw [List.map_flatMap]
  simp only [hinner]
  rw [List.flatMap_def]
  exact congrArg List.flatten (List.zipIdx_map_fst 0 lists)

/-- The positions are in their order. -/
theorem pairwise_positions (lists : List (List α)) :
    ((positions lists).map Prod.fst).Pairwise Before := by
  have hindices : ∀ {β : Type _} (l : List β),
      l.zipIdx.Pairwise fun x y => x.2 < y.2 := by
    intro β l
    refine List.pairwise_map.mp ?_
    rw [List.zipIdx_map_snd]
    exact List.pairwise_lt_range'
  unfold positions
  rw [List.pairwise_map, List.pairwise_flatMap]
  constructor
  · intro inner _
    refine List.pairwise_map.mpr ((hindices inner.1).imp ?_)
    exact fun hlt => .inr ⟨rfl, hlt⟩
  · refine (hindices lists).imp ?_
    intro inner inner' hlt entry hentry entry' hentry'
    obtain ⟨_, -, rfl⟩ := List.mem_map.mp hentry
    obtain ⟨_, -, rfl⟩ := List.mem_map.mp hentry'
    exact .inl hlt

end Positions

end Nested
