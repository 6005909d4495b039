import Mathlib.Data.List.Basic
import Mathlib.Data.List.Nodup
import Mathlib.Data.Option.Basic

/-!
# Tables with a primary key

A table is a list of rows in which no two rows share a key. The uniqueness of
the key is part of the type, so every statement below builds a well-formed table
and no later proof re-establishes it.
-/

/-- Rows under a primary key. `rows` is in insertion order. -/
structure Table {κ ρ : Type*} (key : ρ → κ) where
  /-- The rows of the table. -/
  rows : List ρ
  /-- The primary key is unique. -/
  nodup : (rows.map key).Nodup

namespace Table

variable {κ ρ : Type*} {key : ρ → κ}

instance : Membership ρ (Table key) := ⟨fun t r => r ∈ t.rows⟩

instance [DecidableEq ρ] : DecidableEq (Table key) := fun s t =>
  decidable_of_iff (s.rows = t.rows)
    ⟨fun h => by cases s; cases t; cases h; rfl, fun h => by rw [h]⟩

/-- Two tables with the same rows are equal. -/
theorem ext {s t : Table key} (h : s.rows = t.rows) : s = t := by
  cases s
  cases t
  cases h
  rfl

/-- The empty table. -/
def empty : Table key := ⟨[], List.nodup_nil⟩

@[simp] theorem mem_rows {t : Table key} {r : ρ} : r ∈ t.rows ↔ r ∈ t := Iff.rfl

@[simp] theorem not_mem_empty (r : ρ) : r ∉ (empty : Table key) := List.not_mem_nil

/-- The keys in use. -/
def keys (t : Table key) : List κ := t.rows.map key

/-- The keys are those of the rows. -/
theorem mem_keys {t : Table key} {k : κ} : k ∈ t.keys ↔ ∃ r ∈ t, key r = k := List.mem_map

/-- The key of a row is in use. -/
theorem key_mem_keys {t : Table key} {r : ρ} (h : r ∈ t) : key r ∈ t.keys :=
  List.mem_map_of_mem h

/-- Two rows with the same key are the same row. -/
theorem eq_of_key_eq {t : Table key} {r r' : ρ} (h : r ∈ t) (h' : r' ∈ t)
    (hkey : key r = key r') : r = r' :=
  List.inj_on_of_nodup_map t.nodup h h' hkey

section Lookup

variable [DecidableEq κ]

/-- `SELECT ... WHERE key = k`. -/
def find? (t : Table key) (k : κ) : Option ρ := t.rows.find? fun r => key r = k

/-- The row of a key is found. -/
theorem find?_eq_some_iff {t : Table key} {k : κ} {r : ρ} :
    t.find? k = some r ↔ r ∈ t ∧ key r = k := by
  constructor
  · intro h
    exact ⟨List.mem_of_find?_eq_some h, by simpa using List.find?_some h⟩
  · rintro ⟨hmem, rfl⟩
    cases hfound : t.find? (key r) with
    | none =>
      have hnone := List.find?_eq_none.mp hfound r hmem
      simp at hnone
    | some r' =>
      have hmem' : r' ∈ t := List.mem_of_find?_eq_some hfound
      have hkey : key r' = key r := by simpa using List.find?_some hfound
      rw [eq_of_key_eq hmem' hmem hkey]

/-- No row is found exactly if the key is not in use. -/
theorem find?_eq_none_iff {t : Table key} {k : κ} : t.find? k = none ↔ k ∉ t.keys := by
  simp [find?, keys, List.find?_eq_none]

/-- Each row is found under its key. -/
theorem find?_of_mem {t : Table key} {r : ρ} (h : r ∈ t) : t.find? (key r) = some r :=
  find?_eq_some_iff.mpr ⟨h, rfl⟩

/-- What is found is a row. -/
theorem mem_of_find? {t : Table key} {k : κ} {r : ρ} (h : t.find? k = some r) : r ∈ t :=
  (find?_eq_some_iff.mp h).1

/-- What is found has the key. -/
theorem key_of_find? {t : Table key} {k : κ} {r : ρ} (h : t.find? k = some r) : key r = k :=
  (find?_eq_some_iff.mp h).2

/-- Something is found exactly if the key is in use. -/
theorem find?_isSome_iff {t : Table key} {k : κ} : (t.find? k).isSome ↔ k ∈ t.keys := by
  rw [← not_iff_not, Bool.not_eq_true, Option.isSome_eq_false_iff, Option.isNone_iff_eq_none,
    find?_eq_none_iff]

@[simp] theorem find?_empty (k : κ) : (empty : Table key).find? k = none := rfl

/-- A statement about one key matches no row exactly when the row of the key does not match. -/
theorem countP_eq_zero_iff (t : Table key) (k : κ) {p q : ρ → Bool}
    (hp : ∀ r, p r = (decide (key r = k) && q r)) :
    t.rows.countP p = 0 ↔ ∀ r, t.find? k = some r → q r = false := by
  rw [List.countP_eq_zero]
  constructor
  · intro h r hr
    obtain ⟨hmem, hkey⟩ := find?_eq_some_iff.mp hr
    have hnot := h r hmem
    rw [hp, hkey] at hnot
    simpa using hnot
  · intro h r hmem
    rw [hp]
    by_cases hkey : key r = k
    · simp [hkey, h r (find?_eq_some_iff.mpr ⟨hmem, hkey⟩)]
    · simp [hkey]

end Lookup

/-- Replace every row; the key of a row may not change. -/
def map (t : Table key) (f : ρ → ρ) (hf : ∀ r, key (f r) = key r) : Table key where
  rows := t.rows.map f
  nodup := by
    rw [List.map_map, show key ∘ f = key from funext hf]
    exact t.nodup

@[simp] theorem rows_map (t : Table key) (f : ρ → ρ) (hf : ∀ r, key (f r) = key r) :
    (t.map f hf).rows = t.rows.map f := rfl

/-- Replacing rows keeps the keys. -/
@[simp] theorem keys_map (t : Table key) (f : ρ → ρ) (hf : ∀ r, key (f r) = key r) :
    (t.map f hf).keys = t.keys := by
  simp [keys, show key ∘ f = key from funext hf]

/-- The rows after every row was replaced. -/
@[simp] theorem mem_map {t : Table key} {f : ρ → ρ} {hf : ∀ r, key (f r) = key r} {r : ρ} :
    r ∈ t.map f hf ↔ ∃ r' ∈ t, f r' = r := List.mem_map

/-- A lookup after every row was replaced. -/
theorem find?_map [DecidableEq κ] (t : Table key) (f : ρ → ρ) (hf : ∀ r, key (f r) = key r)
    (k : κ) : (t.map f hf).find? k = (t.find? k).map f := by
  simp only [find?, rows_map, List.find?_map]
  congr 2
  funext r
  simp [hf r]

/-- A function that fixes every row changes nothing. -/
theorem map_eq_self {t : Table key} {f : ρ → ρ} {hf : ∀ r, key (f r) = key r}
    (h : ∀ r ∈ t, f r = r) : t.map f hf = t :=
  ext <| (List.map_congr_left h).trans (List.map_id' t.rows)

/-- Keep the rows that satisfy `p`; `DELETE ... WHERE q` keeps those that do not satisfy `q`. -/
def filter (t : Table key) (p : ρ → Bool) : Table key where
  rows := t.rows.filter p
  nodup := t.nodup.sublist (List.filter_sublist.map key)

/-- The rows that are kept. -/
@[simp] theorem mem_filter {t : Table key} {p : ρ → Bool} {r : ρ} :
    r ∈ t.filter p ↔ r ∈ t ∧ p r = true := List.mem_filter

/-- A lookup among the rows that were kept. -/
theorem find?_filter [DecidableEq κ] (t : Table key) (p : ρ → Bool) (k : κ) :
    (t.filter p).find? k = (t.find? k).filter p := by
  cases h : (t.filter p).find? k with
  | none =>
    cases hk : t.find? k with
    | none => rfl
    | some r =>
      obtain ⟨hmem, hkey⟩ := find?_eq_some_iff.mp hk
      have hr : p r = false := by
        by_contra hp
        have hin : r ∈ t.filter p := mem_filter.mpr ⟨hmem, by simpa using hp⟩
        exact find?_eq_none_iff.mp h (hkey ▸ key_mem_keys hin)
      simp [Option.filter, hr]
  | some r =>
    obtain ⟨hmem, hkey⟩ := find?_eq_some_iff.mp h
    obtain ⟨hmem, hp⟩ := mem_filter.mp hmem
    rw [find?_eq_some_iff.mpr ⟨hmem, hkey⟩]
    simp [Option.filter, hp]

/-- `UPDATE ... SET f WHERE p`. -/
def updateWhere (t : Table key) (p : ρ → Bool) (f : ρ → ρ) (hf : ∀ r, key (f r) = key r) :
    Table key :=
  t.map (fun r => if p r then f r else r) fun r => by split <;> simp [hf]

/-- The rows after an update. -/
theorem mem_updateWhere (t : Table key) (p : ρ → Bool) (f : ρ → ρ) (hf : ∀ r, key (f r) = key r)
    {r : ρ} : r ∈ t.updateWhere p f hf ↔ ∃ r' ∈ t, (if p r' then f r' else r') = r := mem_map

/-- An update keeps the keys. -/
@[simp] theorem keys_updateWhere (t : Table key) (p : ρ → Bool) (f : ρ → ρ)
    (hf : ∀ r, key (f r) = key r) : (t.updateWhere p f hf).keys = t.keys := keys_map ..

/-- A lookup after an update. -/
theorem find?_updateWhere [DecidableEq κ] (t : Table key) (p : ρ → Bool) (f : ρ → ρ)
    (hf : ∀ r, key (f r) = key r) (k : κ) :
    (t.updateWhere p f hf).find? k = (t.find? k).map fun r => if p r then f r else r :=
  find?_map ..

/-- An update that matches no row changes nothing. -/
theorem updateWhere_of_forall {t : Table key} {p : ρ → Bool} {f : ρ → ρ}
    {hf : ∀ r, key (f r) = key r} (h : ∀ r ∈ t, p r = false) : t.updateWhere p f hf = t :=
  map_eq_self fun r hr => by simp [h r hr]

section Insert

variable [DecidableEq κ]

omit [DecidableEq κ] in
/-- A row with a key of its own may be appended. -/
theorem nodup_concat {t : Table key} {r : ρ} (h : key r ∉ t.keys) :
    ((t.rows ++ [r]).map key).Nodup := by
  rw [List.map_append, List.nodup_append]
  refine ⟨t.nodup, List.nodup_singleton _, ?_⟩
  rintro k hk k' hk' rfl
  obtain rfl : k = key r := by simpa using hk'
  exact h hk

/-- `INSERT`: refused when the key is taken. -/
def insert? (t : Table key) (r : ρ) : Option (Table key) :=
  if h : key r ∈ t.keys then none
  else some
    { rows := t.rows ++ [r]
      nodup := nodup_concat h }

/-- An insertion fails exactly if the key is in use. -/
theorem insert?_eq_none_iff {t : Table key} {r : ρ} : t.insert? r = none ↔ key r ∈ t.keys := by
  unfold insert?
  split <;> simp_all

/-- An inserted row comes last. -/
theorem rows_of_insert? {t t' : Table key} {r : ρ} (h : t.insert? r = some t') :
    t'.rows = t.rows ++ [r] := by
  unfold insert? at h
  split at h
  · cases h
  · cases h; rfl

/-- The rows after an insertion. -/
theorem mem_of_insert? {t t' : Table key} {r x : ρ} (h : t.insert? r = some t') :
    x ∈ t' ↔ x ∈ t ∨ x = r := by
  rw [← mem_rows, rows_of_insert? h]
  simp

/-- The key of an inserted row was free. -/
theorem key_not_mem_of_insert? {t t' : Table key} {r : ρ} (h : t.insert? r = some t') :
    key r ∉ t.keys := fun hmem => by simp [insert?_eq_none_iff.mpr hmem] at h

/-- The keys after an insertion. -/
theorem keys_of_insert? {t t' : Table key} {r : ρ} (h : t.insert? r = some t') :
    t'.keys = t.keys ++ [key r] := by
  simp [keys, rows_of_insert? h]

/-- A lookup after an insertion. -/
theorem find?_of_insert? {t t' : Table key} {r : ρ} (h : t.insert? r = some t') (k : κ) :
    t'.find? k = if k = key r then some r else t.find? k := by
  split
  · next hk =>
    subst hk
    exact find?_of_mem ((mem_of_insert? h).mpr (.inr rfl))
  · next hk =>
    simp only [find?, rows_of_insert? h, List.find?_append]
    rw [List.find?_singleton, if_neg (by simpa using Ne.symm hk), Option.or_none]

/-- `INSERT ... ON CONFLICT(key) DO UPDATE` that replaces the whole row. -/
def upsert (t : Table key) (r : ρ) : Table key :=
  if h : key r ∈ t.keys then
    t.map (fun x => if key x = key r then r else x) fun x => by
      split
      · next hx => exact hx.symm
      · rfl
  else
    { rows := t.rows ++ [r]
      nodup := nodup_concat h }

/-- An upsert adds no other row. -/
theorem mem_of_mem_upsert {t : Table key} {r x : ρ} (h : x ∈ t.upsert r) : x ∈ t ∨ x = r := by
  unfold upsert at h
  split at h
  · obtain ⟨y, hy, hyx⟩ := mem_map.mp h
    split at hyx
    · exact .inr hyx.symm
    · exact .inl (hyx ▸ hy)
  · simpa [← mem_rows] using h

/-- A lookup after an upsert. -/
theorem find?_upsert (t : Table key) (r : ρ) (k : κ) :
    (t.upsert r).find? k = if k = key r then some r else t.find? k := by
  unfold upsert
  split
  · next hmem =>
    rw [find?_map]
    split
    · next hk =>
      subst hk
      obtain ⟨x, hx, hkey⟩ := mem_keys.mp hmem
      rw [← hkey, find?_of_mem hx, Option.map_some, if_pos rfl]
    · next hk =>
      cases hfound : t.find? k with
      | none => rfl
      | some x => rw [Option.map_some, if_neg (by rwa [key_of_find? hfound])]
  · next hmem =>
    split
    · next hk =>
      subst hk
      have hnone : t.find? (key r) = none := find?_eq_none_iff.mpr hmem
      rw [find?] at hnone
      simp [find?, hnone]
    · next hk =>
      have hne : key r ≠ k := Ne.symm hk
      simp [find?, List.find?_append, hne]

end Insert

end Table
