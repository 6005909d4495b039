import Mathlib.Data.List.AList
import Mathlib.Data.List.Nodup

/-!
# Association lists as concurrent maps

A concurrent hash map is an association list with unique keys. A reader that
iterates over the map sees its entries as a list of pairs in some order; the facts
below say that a lookup in such a list does not depend on the order, and how
`retain` filters the map.
-/

namespace Assoc

variable {κ ν : Type*} [DecidableEq κ]

/-- The entries of a map as pairs. -/
def pairs (m : AList fun _ : κ => ν) : List (κ × ν) := m.entries.map fun entry => (entry.1, entry.2)

/-- The first entry of a key is found. -/
@[simp] theorem lookup_cons_self (k : κ) (v : ν) (rest : List (κ × ν)) :
    ((k, v) :: rest).lookup k = some v := by
  rw [List.lookup_cons, beq_self_eq_true]

/-- An entry of another key is passed over. -/
theorem lookup_cons_ne {k k' : κ} (h : k ≠ k') (v : ν) (rest : List (κ × ν)) :
    ((k', v) :: rest).lookup k = rest.lookup k := by
  rw [List.lookup_cons, beq_eq_false_iff_ne.mpr h]

/-- A key that does not occur has no value. -/
theorem lookup_eq_none_of_not_mem {k : κ} {l : List (κ × ν)} (h : k ∉ l.map Prod.fst) :
    l.lookup k = none := by
  induction l with
  | nil => rfl
  | cons entry rest ih =>
    obtain ⟨k', v⟩ := entry
    rw [List.map_cons, List.mem_cons, not_or] at h
    rw [lookup_cons_ne h.1, ih h.2]

/-- A value that is found stands in the list. -/
theorem mem_of_lookup {k : κ} {v : ν} {l : List (κ × ν)} (h : l.lookup k = some v) :
    (k, v) ∈ l := by
  induction l with
  | nil => cases h
  | cons entry rest ih =>
    obtain ⟨k', v'⟩ := entry
    by_cases heq : k = k'
    · subst heq
      rw [lookup_cons_self] at h
      cases h
      exact List.mem_cons_self
    · rw [lookup_cons_ne heq] at h
      exact List.mem_cons_of_mem _ (ih h)

/-- Where the keys are different, an entry of the list is found. -/
theorem lookup_of_mem {k : κ} {v : ν} {l : List (κ × ν)} (hnodup : (l.map Prod.fst).Nodup)
    (h : (k, v) ∈ l) : l.lookup k = some v := by
  induction l with
  | nil => cases h
  | cons entry rest ih =>
    obtain ⟨k', v'⟩ := entry
    rw [List.map_cons, List.nodup_cons] at hnodup
    obtain heq | hmem := List.mem_cons.mp h
    · cases heq
      exact lookup_cons_self k v rest
    · have hne : k ≠ k' := by
        rintro rfl
        exact hnodup.1 (List.mem_map.mpr ⟨(k, v), hmem, rfl⟩)
      rw [lookup_cons_ne hne, ih hnodup.2 hmem]

/-- With unique keys the order of the pairs does not matter for a lookup. -/
theorem lookup_perm {l l' : List (κ × ν)} (hperm : l.Perm l') (hnodup : (l.map Prod.fst).Nodup)
    (k : κ) : l.lookup k = l'.lookup k := by
  have hnodup' : (l'.map Prod.fst).Nodup := (hperm.map Prod.fst).nodup_iff.mp hnodup
  cases h : l.lookup k with
  | some v => exact (lookup_of_mem hnodup' (hperm.mem_iff.mp (mem_of_lookup h))).symm
  | none =>
    cases h' : l'.lookup k with
    | none => rfl
    | some v => simp [lookup_of_mem hnodup (hperm.mem_iff.mpr (mem_of_lookup h'))] at h

omit [DecidableEq κ] in
/-- The keys of a map are different. -/
theorem nodup_pairs (m : AList fun _ : κ => ν) : ((pairs m).map Prod.fst).Nodup := by
  have h := m.keys_nodup
  rw [AList.keys, List.keys] at h
  simpa [pairs, Function.comp_def] using h

/-- The pairs of a map are what its lookup finds. -/
theorem mem_pairs {m : AList fun _ : κ => ν} {k : κ} {v : ν} :
    (k, v) ∈ pairs m ↔ m.lookup k = some v := by
  rw [← Option.mem_def, AList.mem_lookup_iff]
  constructor
  · intro h
    obtain ⟨entry, hmem, heq⟩ := List.mem_map.mp h
    cases heq
    exact hmem
  · intro h
    exact List.mem_map.mpr ⟨⟨k, v⟩, h, rfl⟩

/-- A lookup in the pairs of a map is a lookup in the map. -/
theorem lookup_pairs (m : AList fun _ : κ => ν) (k : κ) : (pairs m).lookup k = m.lookup k := by
  cases h : m.lookup k with
  | some v => exact lookup_of_mem (nodup_pairs m) (mem_pairs.mpr h)
  | none =>
    cases h' : (pairs m).lookup k with
    | none => rfl
    | some v => simp [mem_pairs.mp (mem_of_lookup h')] at h

/-- Whatever order an iteration takes, a lookup in what it saw is a lookup in the map. -/
theorem lookup_of_perm_pairs {m : AList fun _ : κ => ν} {l : List (κ × ν)}
    (hperm : l.Perm (pairs m)) (k : κ) : l.lookup k = m.lookup k := by
  rw [lookup_perm hperm ((hperm.map Prod.fst).nodup_iff.mpr (nodup_pairs m)), lookup_pairs]

/-- Keep the entries whose value satisfies `p`. -/
def retain (p : ν → Bool) (m : AList fun _ : κ => ν) : AList fun _ : κ => ν where
  entries := m.entries.filter fun entry => p entry.2
  nodupKeys := m.nodupKeys.sublist List.filter_sublist

/-- A lookup in what `retain` keeps. -/
theorem lookup_retain (p : ν → Bool) (m : AList fun _ : κ => ν) (k : κ) :
    (retain p m).lookup k = (m.lookup k).filter p := by
  have hmem (v : ν) : (retain p m).lookup k = some v ↔ m.lookup k = some v ∧ p v = true := by
    rw [← Option.mem_def, ← Option.mem_def, AList.mem_lookup_iff, AList.mem_lookup_iff]
    exact List.mem_filter
  ext v
  rw [hmem, Option.filter_eq_some_iff]

end Assoc
