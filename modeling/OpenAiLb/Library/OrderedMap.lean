import OpenAiLb.Library.Table

/-!
# Maps in insertion order

A map is a table of pairs: setting a key replaces its value where it stands, or appends it. Two
levels of maps are read as one list of entries under pairs of keys. Where every element of a list
changes the value of its key, the value of a key depends on the elements with this key only.
-/

/-- A map that keeps the order of insertion. -/
abbrev OrderedMap (κ ν : Type*) := Table (Prod.fst : κ × ν → κ)

namespace OrderedMap

variable {κ ι ν : Type*} [DecidableEq κ] [DecidableEq ι]

/-- The value of a key. -/
def get (m : OrderedMap κ ν) (k : κ) : Option ν := (m.find? k).map Prod.snd

/-- Replace the value of a key, or append it. -/
def set (m : OrderedMap κ ν) (k : κ) (v : ν) : OrderedMap κ ν := m.upsert (k, v)

/-- The values, in the order of their keys. -/
def values (m : OrderedMap κ ν) : List ν := m.rows.map Prod.snd

variable {m : OrderedMap κ ν} {k k' : κ} {v : ν}

@[simp] theorem get_empty (k : κ) : get (Table.empty : OrderedMap κ ν) k = none := rfl

/-- The value of a key is the one in its entry. -/
theorem get_eq_some_iff : get m k = some v ↔ (k, v) ∈ m := by
  unfold get
  constructor
  · intro h
    obtain ⟨entry, hfound, rfl⟩ := Option.map_eq_some_iff.mp h
    obtain ⟨hmem, rfl⟩ := Table.find?_eq_some_iff.mp hfound
    exact hmem
  · intro h
    rw [show m.find? k = some (k, v) from Table.find?_of_mem h]
    rfl

/-- A key without entry has no value. -/
theorem get_eq_none_iff : get m k = none ↔ k ∉ m.keys := by
  rw [get, Option.map_eq_none_iff, Table.find?_eq_none_iff]

/-- The value of a key after a key was set. -/
theorem get_set (m : OrderedMap κ ν) (k k' : κ) (v : ν) :
    get (set m k v) k' = if k' = k then some v else get m k' := by
  rw [get, set, Table.find?_upsert]
  split
  · rfl
  · rfl

omit [DecidableEq κ] in
/-- The keys, if the values know them. -/
theorem map_values {id : ν → κ} (h : ∀ entry ∈ m, id entry.2 = entry.1) :
    (values m).map id = m.keys := by
  unfold values Table.keys
  rw [List.map_map]
  exact List.map_congr_left h

/-- Setting a key adds it to the keys. -/
theorem mem_keys_set : k' ∈ (set m k v).keys ↔ k' ∈ m.keys ∨ k = k' := by
  rw [← not_iff_not, ← get_eq_none_iff, get_set, not_or, ← get_eq_none_iff]
  by_cases hk : k' = k
  · simp [hk]
  · rw [if_neg hk]
    exact ⟨fun hnone => ⟨hnone, Ne.symm hk⟩, And.left⟩

section Entries

variable {μ : Type*} (inner : μ → OrderedMap ι ν)

/-- The entries of a map whose values have maps of their own, under pairs of keys. -/
def entries (m : OrderedMap κ μ) : List ((κ × ι) × ν) :=
  m.rows.flatMap fun row => (inner row.2).rows.map fun entry => ((row.1, entry.1), entry.2)

/-- The value under a pair of keys. -/
def get₂ (m : OrderedMap κ μ) (k : κ) (i : ι) : Option ν :=
  (get m k).bind fun x => get (inner x) i

variable {inner} {m : OrderedMap κ μ}

/-- The entries of a nested map are what can be read from it. -/
theorem mem_entries {k : κ} {i : ι} {v : ν} :
    ((k, i), v) ∈ entries inner m ↔ get₂ inner m k i = some v := by
  unfold entries get₂
  rw [List.mem_flatMap, Option.bind_eq_some_iff]
  constructor
  · rintro ⟨⟨k', x⟩, hrow, hmem⟩
    obtain ⟨⟨i', v'⟩, hentry, heq⟩ := List.mem_map.mp hmem
    cases heq
    exact ⟨x, get_eq_some_iff.mpr hrow, get_eq_some_iff.mpr hentry⟩
  · rintro ⟨x, hrow, hentry⟩
    exact ⟨(k, x), get_eq_some_iff.mp hrow,
      List.mem_map.mpr ⟨(i, v), get_eq_some_iff.mp hentry, rfl⟩⟩

omit [DecidableEq κ] [DecidableEq ι] in
/-- **Every pair of keys has one entry.** -/
theorem nodup_entries : ((entries inner m).map Prod.fst).Nodup := by
  have hkeys : (entries inner m).map Prod.fst =
      m.rows.flatMap fun row => (inner row.2).rows.map fun entry => (row.1, entry.1) := by
    simp [entries, List.map_flatMap, Function.comp_def]
  rw [hkeys, List.nodup_flatMap]
  constructor
  · intro row _
    have hinjective : Function.Injective (Prod.mk row.1 : ι → κ × ι) :=
      fun _ _ heq => (Prod.mk.inj heq).2
    simpa [Function.comp_def] using (inner row.2).nodup.map hinjective
  · refine (List.pairwise_map.mp m.nodup).imp ?_
    intro first second hne pair hfirst hsecond
    obtain ⟨_, -, rfl⟩ := List.mem_map.mp hfirst
    obtain ⟨_, -, heq⟩ := List.mem_map.mp hsecond
    exact hne (congrArg Prod.fst heq).symm

end Entries

section Accumulate

variable {ε : Type*} (key : ε → κ) (update : Option ν → ε → ν)

/-- Change the value of the key of each element. -/
def accumulate (m : OrderedMap κ ν) (elements : List ε) : OrderedMap κ ν :=
  elements.foldl (fun m e => set m (key e) (update (get m (key e)) e)) m

/-- **The value of a key** is made by the elements with this key, in their order. -/
theorem get_accumulate (m : OrderedMap κ ν) (elements : List ε) (k : κ) :
    get (accumulate key update m elements) k =
      (elements.filter fun e => key e = k).foldl (fun v e => some (update v e)) (get m k) := by
  induction elements generalizing m with
  | nil => rfl
  | cons e elements ih =>
    rw [accumulate, List.foldl_cons]
    change get (accumulate key update _ elements) k = _
    rw [ih, get_set]
    by_cases hk : key e = k
    · subst hk
      rw [if_pos rfl, List.filter_cons_of_pos (by simp), List.foldl_cons]
    · rw [if_neg (Ne.symm hk), List.filter_cons_of_neg (by simpa using hk)]

end Accumulate

end OrderedMap
