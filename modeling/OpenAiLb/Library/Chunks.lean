import Mathlib.Data.List.Basic
import OpenAiLb.Library.Folds

/-!
# A list that comes in chunks

A list is fed chunk by chunk. `Cut` is what is kept of it by a component that stops copying at a
limit, and `Reads` what was passed on by one that reads it back in pieces of any positive length.
-/

namespace Chunks

variable {σ α : Type*} {limit position count : ℕ} {kept all contents : List α} {exceeds : Bool}
  {pieces : List (List α)}

/-- What one chunk preserves holds after all of them. -/
theorem sound_of_foldl {step : σ → List α → σ} {sound : σ → List α → Prop} {s : σ}
    (hstep : ∀ {s all} chunk, sound s all → sound (step s chunk) (all ++ chunk))
    (hs : sound s []) (chunks : List (List α)) :
    sound (chunks.foldl step s) chunks.flatten := by
  refine Folds.of_foldl (p := fun chunks s => sound s chunks.flatten) hs ?_
  intro before chunk after s _ hbefore
  rw [List.flatten_concat]
  exact hstep chunk hbefore

/-- What is kept of a list up to a limit, and whether the list goes on. -/
structure Cut (limit : ℕ) (kept : List α) (exceeds : Bool) (all : List α) : Prop where
  kept_eq : kept = all.take limit
  exceeds_iff : exceeds = true ↔ limit < all.length

/-- Nothing has been kept of an empty text. -/
theorem Cut.nil : Cut limit ([] : List α) false [] where
  kept_eq := List.take_nil.symm
  exceeds_iff := by simp

/-- Copying as much of a chunk as there is room for is the cut of the longer list. -/
theorem Cut.append (h : Cut limit kept exceeds all) (chunk : List α)
    (hcount : count = min (limit - kept.length) chunk.length) :
    Cut limit (kept ++ chunk.take count) (exceeds || count < chunk.length) (all ++ chunk) := by
  have hlength : kept.length = min limit all.length := by rw [h.kept_eq, List.length_take]
  refine ⟨?_, ?_⟩
  · have hroom : chunk.take count = chunk.take (limit - all.length) := by
      by_cases hfits : all.length ≤ limit
      · have hrest : limit - kept.length = limit - all.length := by omega
        rw [hcount, hrest, ← List.take_eq_take_min]
      · have hfull : count = 0 := by omega
        have hover : limit - all.length = 0 := by omega
        rw [hfull, hover]
    rw [List.take_append, hroom, h.kept_eq]
  · rw [Bool.or_eq_true, decide_eq_true_eq, h.exceeds_iff, List.length_append]
    omega

/-- The flag of a cut. -/
theorem Cut.exceeds_eq (h : Cut limit kept exceeds all) :
    exceeds = decide (limit < all.length) := by
  rw [Bool.eq_iff_iff, decide_eq_true_eq, h.exceeds_iff]

/-- What a reader passed on: the list up to its position, in pieces that are not empty. -/
structure Reads (contents : List α) (position : ℕ) (pieces : List (List α)) : Prop where
  position_le : position ≤ contents.length
  flatten_eq : pieces.flatten = contents.take position
  ne_nil : ∀ piece ∈ pieces, piece ≠ []

/-- At the beginning nothing has been read. -/
theorem Reads.nil (contents : List α) : Reads contents 0 [] where
  position_le := Nat.zero_le _
  flatten_eq := rfl
  ne_nil := by simp

/-- A positive number of elements is read. -/
theorem Reads.next (h : Reads contents position pieces) (hcount : 0 < count)
    (hend : position + count ≤ contents.length) :
    Reads contents (position + count) (pieces ++ [(contents.drop position).take count]) where
  position_le := hend
  flatten_eq := by rw [List.flatten_concat, h.flatten_eq, List.take_add]
  ne_nil := by
    intro piece hpiece
    rcases List.mem_append.mp hpiece with hbefore | hlast
    · exact h.ne_nil piece hbefore
    · rw [List.mem_singleton.mp hlast]
      apply List.ne_nil_of_length_pos
      rw [List.length_take, List.length_drop]
      omega

/-- A reader that is at the end passed the whole list on. -/
theorem Reads.complete (h : Reads contents contents.length pieces) : pieces.flatten = contents := by
  rw [h.flatten_eq, List.take_length]

/-- There are at most as many pieces as elements. -/
theorem Reads.length_le (h : Reads contents position pieces) : pieces.length ≤ contents.length := by
  have hpieces : pieces.length ≤ (pieces.map List.length).sum := by
    have hne := h.ne_nil
    clear h
    induction pieces with
    | nil => exact Nat.le_refl 0
    | cons piece pieces ih =>
      have hpiece := List.length_pos_iff.mpr (hne piece List.mem_cons_self)
      have hrest := ih fun piece hmem => hne piece (List.mem_cons_of_mem _ hmem)
      rw [List.length_cons, List.map_cons, List.sum_cons]
      omega
  rw [← List.length_flatten, h.flatten_eq, List.length_take] at hpieces
  omega

end Chunks
