import Mathlib.Data.List.Basic

/-!
# Following links

A list is linked when each element names the one after it. Following the links from an element
then visits what comes from there on, once each and in order, and stops at the end.
-/

namespace Links

variable {α : Type*} {next : α → Option α} {items : List α} {fuel i : ℕ}

/-- Follow the links, at most this often. -/
def walk (next : α → Option α) : ℕ → α → List α
  | 0, _ => []
  | fuel + 1, a => a :: (next a).elim [] (walk next fuel)

/-- **Following the links** of a linked list from one of its elements. -/
theorem walk_eq_drop (hnext : ∀ (i : ℕ) a, items[i]? = some a → next a = items[i + 1]?)
    {a : α} (ha : items[i]? = some a) (hfuel : items.length ≤ fuel + i) :
    walk next fuel a = items.drop i := by
  induction fuel generalizing i a with
  | zero =>
    have hi : i < items.length := (List.getElem?_eq_some_iff.mp ha).1
    omega
  | succ fuel ih =>
    obtain ⟨hi, hget⟩ := List.getElem?_eq_some_iff.mp ha
    rw [walk, hnext i a ha, List.drop_eq_getElem_cons hi, hget]
    cases hrest : items[i + 1]? with
    | none =>
      rw [Option.elim_none, List.drop_eq_nil_of_le (List.getElem?_eq_none_iff.mp hrest)]
    | some b => rw [Option.elim_some, ih hrest (by omega)]

end Links
