import Mathlib.Data.List.Rotate
import Mathlib.Data.List.Nodup

/-!
# Taking turns

A scheduler that walks a list from a moving position and takes the first element whose counter
is least keeps the counters level, whatever the positions are. When nothing is counted it takes
the element at its position, and positions that go up by one go around the list.
-/

section FirstLeast

variable {α : Type*} {f g : α → ℕ} {l : List α} {a : α}

/-- The first element of the list with the least counter. -/
def FirstLeast (f : α → ℕ) (l : List α) (a : α) : Prop :=
  ∃ before after, l = before ++ a :: after ∧ (∀ b ∈ before, f a < f b) ∧ ∀ b ∈ after, f a ≤ f b

/-- The first least element is an element. -/
theorem FirstLeast.mem (h : FirstLeast f l a) : a ∈ l := by
  rcases h with ⟨before, after, rfl, -⟩
  exact List.mem_append_right _ List.mem_cons_self

/-- None is less than the first least element. -/
theorem FirstLeast.le (h : FirstLeast f l a) : ∀ b ∈ l, f a ≤ f b := by
  rcases h with ⟨before, after, rfl, hbefore, hafter⟩
  intro b hb
  rcases List.mem_append.mp hb with hb | hb
  · exact (hbefore b hb).le
  · rcases List.mem_cons.mp hb with rfl | hb
    · exact le_refl _
    · exact hafter b hb

/-- Among equal counters it is the first element. -/
theorem FirstLeast.head? (h : FirstLeast f l a) (heq : ∀ b ∈ l, f b = f a) : l.head? = some a := by
  rcases h with ⟨before, after, rfl, hbefore, -⟩
  cases before with
  | nil => rfl
  | cons b before =>
    have hlt := hbefore b List.mem_cons_self
    have hsame := heq b List.mem_cons_self
    omega

/-- The counters of any two elements differ by one at most. -/
def Level (f : α → ℕ) (l : List α) : Prop := ∀ a ∈ l, ∀ b ∈ l, f a ≤ f b + 1

/-- **Counting a least element** keeps the counters level. -/
theorem Level.count (h : Level f l) (hmem : a ∈ l) (hleast : ∀ b ∈ l, f a ≤ f b)
    (hcount : ∀ b ∈ l, g b = f b ∨ (f b = f a ∧ g b = f b + 1)) : Level g l := by
  intro b hb c hc
  have hbelow := h b hb a hmem
  have hbc := h b hb c hc
  have habove := hleast c hc
  have hcountb := hcount b hb
  have hcountc := hcount c hc
  omega

end FirstLeast

section Rounds

variable {α : Type*}

/-- The elements at the positions from `start` on, the list taken around and around. -/
def around (l : List α) (start : ℕ) (turns : ℕ) : List α :=
  (List.range turns).filterMap fun i => l[(start + i) % l.length]?

/-- One more turn. -/
theorem around_succ (l : List α) (start turns : ℕ) :
    around l start (turns + 1) =
      (l[start % l.length]?).toList ++ around l (start + 1) turns := by
  unfold around
  rw [List.range_succ_eq_map, List.filterMap_cons, List.filterMap_map]
  have hshift : ((fun i => l[(start + i) % l.length]?) ∘ Nat.succ) =
      fun i => l[(start + 1 + i) % l.length]? := by
    funext i
    rw [Function.comp_apply, Nat.add_assoc, Nat.add_comm 1 i]
  rw [hshift, Nat.add_zero]
  cases l[start % l.length]? <;> rfl

/-- Going around in two parts. -/
theorem around_add (l : List α) (start first second : ℕ) :
    around l start (first + second) = around l start first ++ around l (start + first) second := by
  unfold around
  rw [List.range_add, List.filterMap_append, List.filterMap_map]
  congr 2
  funext i
  rw [Function.comp_apply, Nat.add_assoc]

/-- A start that wraps at a multiple of the length is at the same place. -/
theorem around_mod {l : List α} {range : ℕ} (hdvd : l.length ∣ range) (start turns : ℕ) :
    around l (start % range) turns = around l start turns := by
  unfold around
  congr 1
  funext i
  rw [Nat.add_mod, Nat.mod_mod_of_dvd start hdvd, ← Nat.add_mod]

/-- The elements of a list, read one by one. -/
theorem filterMap_getElem?_range (l : List α) :
    (List.range l.length).filterMap (fun i => l[i]?) = l := by
  induction l with
  | nil => rfl
  | cons a l ih =>
    rw [List.length_cons, List.range_succ_eq_map, List.filterMap_cons, List.filterMap_map]
    exact congrArg (a :: ·) ih

/-- One round is the list, rotated. -/
theorem around_length (l : List α) (start : ℕ) : around l start l.length = l.rotate start := by
  have hread := filterMap_getElem?_range (l.rotate start)
  rw [List.length_rotate] at hread
  rw [← hread]
  refine List.filterMap_congr fun i hi => ?_
  rw [List.getElem?_rotate (List.mem_range.mp hi), Nat.add_comm]

/-- **In `k` rounds each element has `k` turns.** -/
theorem count_around [DecidableEq α] {l : List α} {a : α} (hnodup : l.Nodup) (hmem : a ∈ l)
    (start k : ℕ) : (around l start (k * l.length)).count a = k := by
  induction k generalizing start with
  | zero =>
    rw [Nat.zero_mul]
    rfl
  | succ k ih =>
    have hround : (l.rotate start).count a = 1 := by
      rw [(List.rotate_perm l start).count_eq]
      exact List.count_eq_one_of_mem hnodup hmem
    rw [Nat.succ_mul, Nat.add_comm, around_add, List.count_append, around_length, ih, hround,
      Nat.add_comm]

end Rounds
