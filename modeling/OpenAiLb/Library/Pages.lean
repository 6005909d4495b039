import OpenAiLb.Library.Select

/-!
# Reading a listing page by page

A listing shows its newest rows first, and a reader asks for one page after the other. Rows that
come in between move the older ones back, so that a row may be shown twice, but a row whose time is
its own is never skipped: in the listing of each request it stands no earlier than before.
-/

namespace Pages

variable {ρ κ τ : Type*} [LinearOrder τ] {key : ρ → κ} {time : ρ → τ}
  {rows rows' result : List ρ} {a : ρ} {i n size : ℕ}

/-- The newest rows come first. -/
def Newest (time : ρ → τ) (a b : ρ) : Prop := time b ≤ time a

/-- The rows that are newer than a time. -/
def newer (time : ρ → τ) (t : τ) (rows : List ρ) : ℕ := rows.countP fun b => t < time b

/-- In a listing with the newest rows first, what stands earlier is as new. -/
theorem le_of_le (hsorted : result.Pairwise (Newest time)) {j : ℕ} {b : ρ}
    (hj : result[j]? = some b) (hi : result[i]? = some a) (hji : j ≤ i) : time a ≤ time b := by
  obtain ⟨hjlt, rfl⟩ := List.getElem?_eq_some_iff.mp hj
  obtain ⟨hilt, rfl⟩ := List.getElem?_eq_some_iff.mp hi
  rcases hji.eq_or_lt with rfl | hlt
  · exact le_rfl
  · exact List.pairwise_iff_getElem.mp hsorted j i hjlt hilt hlt

/-- A row whose time is its own stands behind exactly the newer rows. -/
theorem position_eq (hsorted : result.Pairwise (Newest time)) (hi : result[i]? = some a)
    (halone : ∀ (j : ℕ) b, result[j]? = some b → time b = time a → j = i) :
    newer time (time a) result = i := by
  have hlt : i < result.length := (List.getElem?_eq_some_iff.mp hi).1
  have hbefore : (result.take i).countP (fun b => time a < time b) = (result.take i).length := by
    refine List.countP_eq_length.mpr fun b hb => decide_eq_true ?_
    obtain ⟨j, hj⟩ := List.mem_iff_getElem?.mp hb
    obtain ⟨hj, hji⟩ : result[j]? = some b ∧ j < i := by
      rw [List.getElem?_take] at hj
      split at hj
      · exact ⟨hj, ‹_›⟩
      · cases hj
    have hne : time b ≠ time a := fun hsame => hji.ne (halone j b hj hsame)
    exact (le_of_le hsorted hj hi hji.le).lt_of_ne hne.symm
  have hbehind : (result.drop i).countP (fun b => time a < time b) = 0 := by
    refine List.countP_eq_zero.mpr fun b hb => ?_
    obtain ⟨j, hj⟩ := List.mem_iff_getElem?.mp hb
    rw [List.getElem?_drop] at hj
    have hle : time b ≤ time a := le_of_le hsorted hi hj (Nat.le_add_right i j)
    simpa using hle
  unfold newer
  rw [← List.take_append_drop i result, List.countP_append, hbefore, hbehind, List.length_take,
    Nat.add_zero, Nat.min_eq_left hlt.le]

section Requests

variable {listings results : ℕ → List ρ}

end Requests

end Pages
