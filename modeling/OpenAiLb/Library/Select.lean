import OpenAiLb.Library.Table
import Mathlib.Data.List.Perm.Basic
import Mathlib.Data.List.Dedup
import Mathlib.Data.List.Sort
import Mathlib.Order.Basic

/-!
# Reading tables

What a `SELECT` returns is a list of rows whose order is open where `ORDER BY` leaves it
open. Two tables that agree on the rows of a condition give the same results for it.
-/

/-- A result of `SELECT .. ORDER BY`: all the rows, in an order that `le` allows. -/
def OrderedBy {ρ : Type*} (le : ρ → ρ → Prop) (rows result : List ρ) : Prop :=
  result.Perm rows ∧ result.Pairwise le

section Ordered

variable {ρ : Type*} {le : ρ → ρ → Prop} {rows rows' result result' : List ρ}

/-- The order in which the rows are found does not matter. -/
theorem orderedBy_congr (h : rows.Perm rows') :
    OrderedBy le rows result ↔ OrderedBy le rows' result := by
  constructor
  · rintro ⟨hperm, hsorted⟩
    exact ⟨hperm.trans h, hsorted⟩
  · rintro ⟨hperm, hsorted⟩
    exact ⟨hperm.trans h.symm, hsorted⟩

section Keys

variable {κ : Type*} {before : κ → κ → Prop} {key : ρ → κ}

/-- What the order compares comes in one sequence only. -/
theorem OrderedBy.map_eq (hanti : ∀ a b, before a b → before b a → a = b)
    (h : OrderedBy (fun a b => before (key a) (key b)) rows result)
    (h' : OrderedBy (fun a b => before (key a) (key b)) rows result') :
    result.map key = result'.map key := by
  have hperm : (result.map key).Perm (result'.map key) := (h.1.trans h'.1.symm).map key
  have hsorted : (result.map key).Pairwise before := List.pairwise_map.mpr h.2
  have hsorted' : (result'.map key).Pairwise before := List.pairwise_map.mpr h'.2
  exact hperm.eq_of_pairwise (fun a b _ _ => hanti a b) hsorted hsorted'

/-- Where the order tells the rows apart, there is one result. -/
theorem OrderedBy.unique (hanti : ∀ a b, before a b → before b a → a = b)
    (h : OrderedBy (fun a b => before (key a) (key b)) rows result)
    (h' : OrderedBy (fun a b => before (key a) (key b)) rows result')
    (hkey : ∀ a ∈ rows, ∀ b ∈ rows, key a = key b → a = b) : result = result' := by
  refine (h.1.trans h'.1.symm).eq_of_pairwise ?_ h.2 h'.2
  intro a b ha hb hab hba
  exact hkey a (h.1.mem_iff.mp ha) b (h'.1.mem_iff.mp hb) (hanti _ _ hab hba)

end Keys

/-- Sorting finds a result. -/
theorem orderedBy_mergeSort {κ : Type*} [LinearOrder κ] (key : ρ → κ) (rows : List ρ) :
    OrderedBy (fun a b => key a ≤ key b) rows (rows.mergeSort fun a b => key a ≤ key b) := by
  refine ⟨List.mergeSort_perm rows _, ?_⟩
  have hsorted : (rows.mergeSort fun a b => decide (key a ≤ key b)).Pairwise
      fun a b => decide (key a ≤ key b) = true := by
    refine List.pairwise_mergeSort ?_ ?_ rows
    · intro a b c hab hbc
      simp only [decide_eq_true_eq] at hab hbc ⊢
      exact hab.trans hbc
    · intro a b
      simpa using le_total (key a) (key b)
  exact hsorted.imp fun h => by simpa using h

/-- Where the order tells the rows apart, sorting does not depend on how the rows come. -/
theorem mergeSort_congr {le : ρ → ρ → Bool} (htrans : ∀ a b c, le a b → le b c → le a c)
    (htotal : ∀ a b, le a b || le b a)
    (hanti : ∀ a ∈ rows, ∀ b ∈ rows, le a b → le b a → a = b) (h : rows.Perm rows') :
    rows.mergeSort le = rows'.mergeSort le := by
  have hperm : (rows.mergeSort le).Perm (rows'.mergeSort le) :=
    (List.mergeSort_perm rows le).trans (h.trans (List.mergeSort_perm rows' le).symm)
  refine hperm.eq_of_pairwise ?_ (List.pairwise_mergeSort htrans htotal rows)
    (List.pairwise_mergeSort htrans htotal rows')
  intro a b ha hb hab hba
  refine hanti a (List.mem_mergeSort.mp ha) b ?_ hab hba
  exact h.mem_iff.mpr (List.mem_mergeSort.mp hb)

end Ordered

/-- `LIMIT limit OFFSET offset`. -/
def page {ρ : Type*} (limit offset : ℕ) (rows : List ρ) : List ρ := (rows.drop offset).take limit

/-- `GROUP BY`: each key with its rows. -/
def groupBy {ρ κ : Type*} [DecidableEq κ] (key : ρ → κ) (rows : List ρ) : List (κ × List ρ) :=
  (rows.map key).dedup.map fun k => (k, rows.filter fun row => key row = k)

namespace Table

variable {κ ρ : Type*} {key : ρ → κ} {s t : Table key}

/-- The rows of a table are different rows. -/
theorem nodup_rows (t : Table key) : t.rows.Nodup := t.nodup.of_map key

/-- Two tables that agree on the rows of a condition select the same rows by it. -/
theorem perm_filter {p : ρ → Bool} (h : ∀ r, p r = true → (r ∈ s ↔ r ∈ t)) :
    (s.rows.filter p).Perm (t.rows.filter p) := by
  refine (List.perm_ext_iff_of_nodup (s.nodup_rows.filter p) (t.nodup_rows.filter p)).mpr ?_
  intro r
  simp only [List.mem_filter, mem_rows]
  constructor
  · rintro ⟨hmem, hp⟩
    exact ⟨(h r hp).mp hmem, hp⟩
  · rintro ⟨hmem, hp⟩
    exact ⟨(h r hp).mpr hmem, hp⟩

/-- The same for rows that are also converted, when nothing comes from the other rows. -/
theorem perm_filterMap {α : Type*} {p : ρ → Bool} {f g : ρ → Option α}
    (h : ∀ r, p r = true → (r ∈ s ↔ r ∈ t))
    (hout : ∀ r, p r = false → f r = none ∧ g r = none)
    (heq : ∀ r ∈ s, p r = true → f r = g r) :
    (s.rows.filterMap f).Perm (t.rows.filterMap g) := by
  have hskip : ∀ (rows : List ρ) (f : ρ → Option α), (∀ r, p r = false → f r = none) →
      rows.filterMap f = (rows.filter p).filterMap f := by
    intro rows f hf
    rw [List.filterMap_filter]
    refine List.filterMap_congr fun r _ => ?_
    cases hp : p r with
    | true => simp
    | false => simp [hf r hp]
  rw [hskip s.rows f fun r hr => (hout r hr).1, hskip t.rows g fun r hr => (hout r hr).2]
  have hfg : (s.rows.filter p).filterMap f = (s.rows.filter p).filterMap g :=
    List.filterMap_congr fun r hr =>
      heq r (List.mem_filter.mp hr).1 (List.mem_filter.mp hr).2
  rw [hfg]
  exact (perm_filter h).filterMap g

/-- Two tables that agree on the row of a key find the same row. -/
theorem find?_congr [DecidableEq κ] {k : κ} (h : ∀ r, key r = k → (r ∈ s ↔ r ∈ t)) :
    s.find? k = t.find? k := by
  cases hs : s.find? k with
  | some r =>
    obtain ⟨hmem, hkey⟩ := find?_eq_some_iff.mp hs
    exact (find?_eq_some_iff.mpr ⟨(h r hkey).mp hmem, hkey⟩).symm
  | none =>
    refine (find?_eq_none_iff.mpr fun hk => ?_).symm
    obtain ⟨r, hmem, hkey⟩ := mem_keys.mp hk
    exact find?_eq_none_iff.mp hs (mem_keys.mpr ⟨r, (h r hkey).mpr hmem, hkey⟩)

end Table
