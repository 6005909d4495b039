import Mathlib.Data.List.Basic

/-!
# Splitting at a separator

`splitOnce` cuts a list at the first place where a separator stands. Where the front has nothing
of the first element of the separator, that place is right behind the front.

Lists that are joined by a separator cannot be told apart from their own parts between separators.
-/

section Split

variable {α : Type*} [DecidableEq α] {separator l front rest : List α}

/-- The list before the first occurrence of the separator, and the list after it. -/
def splitOnce (separator : List α) : List α → Option (List α × List α)
  | [] => if separator = [] then some ([], []) else none
  | a :: l =>
    if separator <+: a :: l then some ([], (a :: l).drop separator.length)
    else (splitOnce separator l).map fun parts => (a :: parts.1, parts.2)

/-- What was split is put together again. -/
theorem eq_of_splitOnce (h : splitOnce separator l = some (front, rest)) :
    l = front ++ separator ++ rest := by
  induction l generalizing front rest with
  | nil =>
    rw [splitOnce, Option.ite_none_right_eq_some] at h
    obtain ⟨rfl, heq⟩ := h
    obtain ⟨rfl, rfl⟩ := Prod.mk.inj (Option.some.inj heq)
    rfl
  | cons a l ih =>
    rw [splitOnce] at h
    split at h
    · next hprefix =>
      obtain ⟨rfl, rfl⟩ := Prod.mk.inj (Option.some.inj h)
      rw [List.nil_append, List.prefix_iff_eq_append.mp hprefix]
    · obtain ⟨⟨before, after⟩, hsplit, heq⟩ := Option.map_eq_some_iff.mp h
      obtain ⟨rfl, rfl⟩ := Prod.mk.inj heq
      rw [ih hsplit]
      rfl

/-- **The first separator** is the one behind a front without its first element. -/
theorem splitOnce_append {a : α} (tail rest : List α) (hfront : a ∉ front) :
    splitOnce (a :: tail) (front ++ (a :: tail) ++ rest) = some (front, rest) := by
  induction front with
  | nil =>
    have hprefix : a :: tail <+: a :: (tail ++ rest) := ⟨rest, rfl⟩
    rw [List.nil_append, List.cons_append, splitOnce, if_pos hprefix]
    simp
  | cons b front ih =>
    rw [List.mem_cons, not_or] at hfront
    have hnot : ¬ a :: tail <+: b :: (front ++ (a :: tail) ++ rest) := by
      intro hprefix
      exact hfront.1 (List.cons_prefix_cons.mp hprefix).1
    rw [List.cons_append, List.cons_append, splitOnce, if_neg hnot, ih hfront.2]
    rfl

/-- A list has one place where an element stands for the first time. -/
theorem append_cons_inj_of_not_mem {a : α} {front' rest' : List α} (hfront : a ∉ front)
    (hfront' : a ∉ front') (h : front ++ a :: rest = front' ++ a :: rest') :
    front = front' ∧ rest = rest' := by
  have hsplit := splitOnce_append [] rest hfront
  have hsplit' := splitOnce_append [] rest' hfront'
  rw [List.append_assoc, List.singleton_append] at hsplit hsplit'
  rw [h, hsplit'] at hsplit
  obtain ⟨hfronts, hrests⟩ := Prod.mk.inj (Option.some.inj hsplit)
  exact ⟨hfronts.symm, hrests.symm⟩

/-- **Cutting what was joined** finds the parts of the lists. -/
theorem splitOn_intercalate_flatMap (a : α) {lists : List (List α)} (h : lists ≠ []) :
    ([a].intercalate lists).splitOn a = lists.flatMap (List.splitOn a) := by
  induction lists with
  | nil => exact absurd rfl h
  | cons l lists ih =>
    cases lists with
    | nil => simp
    | cons l' lists =>
      have hrest := ih (List.cons_ne_nil _ _)
      rw [List.intercalate_cons_cons, List.append_assoc, List.singleton_append,
        List.splitOn_append_cons_self, hrest, ← List.flatMap_cons]

/-- Lists with the same parts are the same. -/
theorem splitOn_injective (a : α) : Function.Injective (List.splitOn a) :=
  Function.LeftInverse.injective fun _ => List.intercalate_splitOn a

end Split
