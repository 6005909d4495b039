import Mathlib.Data.List.Basic

/-!
# Shares of a resource

Owners in a list hold shares of one resource. What they hold together changes as little
as the one owner that a step replaces, and is bounded by a bound on each of them.
-/

namespace Shares

variable {ω : Type*} {share bound : ω → ℕ} {owners : List ω} {old new : ω} {i : ℕ}

/-- What all owners hold together. -/
def total (share : ω → ℕ) : List ω → ℕ
  | [] => 0
  | owner :: owners => share owner + total share owners

@[simp] theorem total_nil (share : ω → ℕ) : total share [] = 0 := rfl

@[simp] theorem total_cons (share : ω → ℕ) (owner : ω) (owners : List ω) :
    total share (owner :: owners) = share owner + total share owners := rfl

/-- The shares of two lists of owners add up. -/
@[simp] theorem total_append (share : ω → ℕ) (first second : List ω) :
    total share (first ++ second) = total share first + total share second := by
  induction first with
  | nil => rw [List.nil_append, total_nil, Nat.zero_add]
  | cons owner rest ih => rw [List.cons_append, total_cons, total_cons, ih, Nat.add_assoc]

/-- When one owner is replaced by another, the total changes by the difference of their shares. -/
theorem total_set (share : ω → ℕ) (new : ω) (hold : owners[i]? = some old) :
    total share (owners.set i new) + share old = total share owners + share new := by
  induction owners generalizing i with
  | nil => cases hold
  | cons owner rest ih =>
    cases i with
    | zero =>
      obtain rfl : owner = old := Option.some.inj hold
      rw [List.set_cons_zero, total_cons, total_cons]
      omega
    | succ i =>
      have hrest := ih (i := i) hold
      rw [List.set_cons_succ, total_cons, total_cons]
      omega

/-- A bound on every share bounds the total. -/
theorem total_le_total (h : ∀ owner ∈ owners, share owner ≤ bound owner) :
    total share owners ≤ total bound owners := by
  induction owners with
  | nil => exact Nat.le_refl _
  | cons owner rest ih =>
    have hfirst := h owner List.mem_cons_self
    have hrest := ih fun owner howner => h owner (List.mem_cons_of_mem _ howner)
    rw [total_cons, total_cons]
    omega

/-- The total of equal shares. -/
theorem total_congr (h : ∀ owner ∈ owners, share owner = bound owner) :
    total share owners = total bound owners := by
  refine Nat.le_antisymm (total_le_total fun owner howner => Nat.le_of_eq (h owner howner)) ?_
  exact total_le_total fun owner howner => Nat.le_of_eq (h owner howner).symm

/-- The total of two kinds of shares. -/
theorem total_add (share bound : ω → ℕ) (owners : List ω) :
    total (fun owner => share owner + bound owner) owners =
      total share owners + total bound owners := by
  induction owners with
  | nil => rfl
  | cons owner rest ih =>
    rw [total_cons, total_cons, total_cons, ih]
    omega

/-- The total of multiples. -/
theorem total_mul (n : ℕ) (share : ω → ℕ) (owners : List ω) :
    total (fun owner => n * share owner) owners = n * total share owners := by
  induction owners with
  | nil => rfl
  | cons owner rest ih => rw [total_cons, total_cons, ih, Nat.mul_add]

end Shares
