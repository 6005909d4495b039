import OpenAiLb.Library.Grouping
import OpenAiLb.UsagePivot

/-!
# The cells of the usage pivot

As long as no column key is the name of a property that plain objects inherit, each pair of keys
has a record of its own, which holds the sums over the rows with these keys. A column key such as
`constructor` finds a function instead, which all table rows share and which holds `NaN`.
-/

namespace OpenAiLb.Web

open Grouping

namespace JsNumber

/-- The sum with one more number. -/
theorem sum_concat (numbers : List Binary64) (x : Binary64) :
    sum (numbers ++ [x]) = (sum numbers).add (some x) := by
  rw [sum, List.foldl_append]
  rfl

/-- Integers that stay below 53 bits add up exactly. -/
theorem foldl_intCast (numbers : List ℤ) (n : ℤ)
    (h : |n| + (numbers.map fun z => |z|).sum < 2 ^ 53) :
    (numbers.map fun z : ℤ => Binary64.finite (z : ℚ)).foldl (fun sum x => add sum (some x))
        (some (.finite n)) =
      some (.finite ((n + numbers.sum : ℤ) : ℚ)) := by
  induction numbers generalizing n with
  | nil => simp
  | cons z rest ih =>
    rw [List.map_cons, List.sum_cons] at h
    have hrest : 0 ≤ (rest.map fun z => |z|).sum := by
      refine List.sum_nonneg fun y hy => ?_
      obtain ⟨w, -, rfl⟩ := List.mem_map.mp hy
      exact abs_nonneg w
    have habs : |n + z| ≤ |n| + |z| := abs_add_le n z
    have hadd : add (some (.finite n)) (some (.finite z)) =
        some (.finite ((n + z : ℤ) : ℚ)) := Binary64.add_intCast (by omega)
    rw [List.map_cons, List.foldl_cons, hadd, ih (n + z) (by omega), List.sum_cons, add_assoc]

/-- A sum of integers that are small enough together is exact. -/
theorem sum_intCast {numbers : List ℤ} (h : (numbers.map fun z => |z|).sum < 2 ^ 53) :
    sum (numbers.map fun z : ℤ => Binary64.finite (z : ℚ)) =
      some (.finite ((numbers.sum : ℤ) : ℚ)) := by
  have hfold := foldl_intCast numbers 0 (by simpa using h)
  simpa [sum] using hfold

end JsNumber

namespace Realm

variable {realm : Realm} {i : ℕ} {record : UsageMetric → JsNumber} {row : UsageRow}

/-- Changing a record in place. -/
theorem modify_eq_set (h : realm.records[i]? = some record)
    (f : (UsageMetric → JsNumber) → UsageMetric → JsNumber) :
    realm.records.modify i f = realm.records.set i (f record) := by
  refine List.ext_getElem? fun j => ?_
  rw [List.getElem?_modify, List.getElem?_set]
  by_cases hij : i = j
  · subst hij
    obtain ⟨hlt, heq⟩ := List.getElem?_eq_some_iff.mp h
    simp [hlt, heq]
  · simp [hij]

/-- Adding some of the metrics to a record. -/
theorem foldl_write_record (h : realm.records[i]? = some record) (metrics : List UsageMetric)
    (hnodup : metrics.Nodup) :
    metrics.foldl (fun realm metric => realm.write (.record i) metric
        ((realm.read (.record i) metric).add (some (row.metric metric)))) realm =
      { realm with
        records := realm.records.set i fun metric =>
          if metric ∈ metrics then (record metric).add (some (row.metric metric))
          else record metric } := by
  induction metrics generalizing realm record with
  | nil =>
    obtain ⟨hlt, rfl⟩ := List.getElem?_eq_some_iff.mp h
    simp
  | cons metric rest ih =>
    rw [List.nodup_cons] at hnodup
    have hread : realm.read (.record i) metric = record metric := by rw [read, h, Option.elim_some]
    have hwrite : realm.write (.record i) metric ((record metric).add (some (row.metric metric))) =
        { realm with
          records := realm.records.set i
            (Function.update record metric ((record metric).add (some (row.metric metric)))) } := by
      rw [write, modify_eq_set h]
    have hlt := (List.getElem?_eq_some_iff.mp h).1
    rw [List.foldl_cons, hread, hwrite,
      ih (by rw [List.getElem?_set_self hlt]) hnodup.2, List.set_set]
    congr 2
    funext other
    by_cases heq : other = metric
    · subst heq
      simp [hnodup.1]
    · simp [heq]

/-- **Adding a row to a record** changes this record only. -/
theorem addRow_record (row : UsageRow) (h : realm.records[i]? = some record) :
    realm.addRow (.record i) row =
      { realm with
        records := realm.records.set i fun metric =>
          (record metric).add (some (row.metric metric)) } := by
  have hmem : ∀ metric, metric ∈ usageMetrics := by
    intro metric
    cases metric <;> decide
  rw [addRow, foldl_write_record h usageMetrics (by decide)]
  simp only [hmem, if_true]

end Realm

/-- The keys of the cell of a row. -/
def cellKey (rowDimensions columnDimensions : List PivotDimension) (row : UsageRow) :
    String × String := (usagePivotKey row rowDimensions, usagePivotKey row columnDimensions)

/-- What the rows with a pair of keys add up to. -/
def cellSums (rowDimensions columnDimensions : List PivotDimension) (rows : List UsageRow)
    (keys : String × String) (metric : UsageMetric) : JsNumber :=
  JsNumber.sum ((group (cellKey rowDimensions columnDimensions) keys rows).map (·.metric metric))

namespace PivotState

/-- The own property of the cells of a table row. -/
def cellAt (s : PivotState) (rowId columnId : String) : Option Cell :=
  OrderedMap.get₂ PivotTableRow.cells s.grouped rowId columnId

section Store

variable {rowDimensions columnDimensions : List PivotDimension} {label : UsageRow → String}
  {s : PivotState} {row : UsageRow}

/-- The cells of the table row of a row, which may be new. -/
theorem get_cells (s : PivotState) (row : UsageRow) (rowId columnId : String) :
    OrderedMap.get ((OrderedMap.get s.grouped rowId).getD ⟨rowId, row, .empty⟩).cells columnId =
      s.cellAt rowId columnId := by
  unfold cellAt OrderedMap.get₂
  cases OrderedMap.get s.grouped rowId with
  | none => rfl
  | some pivotRow => rfl

/-- The cell of the row is there. -/
theorem step_of_cell {cell : Cell} (h : s.cellAt (usagePivotKey row rowDimensions)
      (usagePivotKey row columnDimensions) = some cell) :
    s.step rowDimensions columnDimensions label row =
      .ok (s.store rowDimensions columnDimensions label row s.realm cell) := by
  rw [← s.get_cells row] at h
  unfold step Realm.get
  dsimp only
  rw [h]

/-- Neither the cell of the row is there nor an inherited property. -/
theorem step_of_fresh (h : s.cellAt (usagePivotKey row rowDimensions)
      (usagePivotKey row columnDimensions) = none)
    (hinherited : s.realm.inherited (usagePivotKey row columnDimensions) = none) :
    s.step rowDimensions columnDimensions label row =
      .ok (s.store rowDimensions columnDimensions label row
        { s.realm with records := s.realm.records ++ [fun _ => some (.finite 0)] }
        (.record s.realm.records.length)) := by
  rw [← s.get_cells row] at h
  unfold step Realm.get
  dsimp only
  rw [h]
  dsimp only
  rw [hinherited]

/-- The table row of the row has its cell, and the other cells are as before. -/
theorem cellAt_store (s : PivotState) (row : UsageRow) (realm : Realm) (cell : Cell)
    (keys : String × String) :
    (s.store rowDimensions columnDimensions label row realm cell).cellAt keys.1 keys.2 =
      if keys = cellKey rowDimensions columnDimensions row ∧ keys.2 ≠ "__proto__" then some cell
      else s.cellAt keys.1 keys.2 := by
  obtain ⟨rowId, columnId⟩ := keys
  have hcells := s.get_cells row (usagePivotKey row rowDimensions) columnId
  unfold cellAt OrderedMap.get₂ store at *
  dsimp only
  rw [OrderedMap.get_set]
  by_cases hrow : rowId = usagePivotKey row rowDimensions
  · subst hrow
    rw [if_pos rfl, Option.bind_some, setCell]
    simp only [cellKey, Prod.mk.injEq, true_and]
    by_cases hproto : usagePivotKey row columnDimensions = "__proto__"
    · rw [if_pos hproto, hcells, if_neg]
      rintro ⟨rfl, hne⟩
      exact hne hproto
    · rw [if_neg hproto, OrderedMap.get_set, hcells]
      by_cases hcolumn : columnId = usagePivotKey row columnDimensions
      · subst hcolumn
        rw [if_pos rfl, if_pos ⟨rfl, hproto⟩]
      · rw [if_neg hcolumn, if_neg fun h => hcolumn h.1]
  · rw [if_neg hrow, if_neg]
    rintro ⟨heq, -⟩
    exact hrow (Prod.mk.inj heq).1

/-- **What a turn of the loop does**: it stores the row in the cell that is there, in an object
that is inherited, or in a new record. -/
theorem step_cases {next : PivotState}
    (h : s.step rowDimensions columnDimensions label row = .ok next) :
    ∃ realm cell, next = s.store rowDimensions columnDimensions label row realm cell ∧
      realm.prototype = s.realm.prototype ∧
      (s.cellAt (usagePivotKey row rowDimensions) (usagePivotKey row columnDimensions) =
          some cell ∨
        s.realm.inherited (usagePivotKey row columnDimensions) = some (.cell cell) ∨
        (s.realm.inherited (usagePivotKey row columnDimensions) = none ∧
          ∃ i, cell = .record i)) := by
  cases hcell : s.cellAt (usagePivotKey row rowDimensions) (usagePivotKey row columnDimensions) with
  | some cell =>
    rw [step_of_cell hcell] at h
    exact ⟨_, _, (Except.ok.inj h).symm, rfl, .inl rfl⟩
  | none =>
    cases hinherited : s.realm.inherited (usagePivotKey row columnDimensions) with
    | none =>
      rw [step_of_fresh hcell hinherited] at h
      exact ⟨_, _, (Except.ok.inj h).symm, rfl, .inr (.inr ⟨rfl, _, rfl⟩)⟩
    | some found =>
      rw [← s.get_cells row] at hcell
      unfold step Realm.get at h
      dsimp only at h
      rw [hcell] at h
      dsimp only at h
      rw [hinherited] at h
      cases found with
      | number x => cases h
      | cell cell => exact ⟨_, _, (Except.ok.inj h).symm, rfl, .inr (.inl rfl)⟩

/-- **The rule of the loop.** -/
theorem run_keeps {p : PivotState → Prop}
    (hstep : ∀ s row next, p s →
      s.step rowDimensions columnDimensions label row = .ok next → p next)
    {rows : List UsageRow} {s final : PivotState} (hs : p s)
    (h : s.run rowDimensions columnDimensions label rows = .ok final) : p final := by
  induction rows generalizing s with
  | nil =>
    cases h
    exact hs
  | cons row rows ih =>
    rw [run] at h
    cases hnext : s.step rowDimensions columnDimensions label row with
    | error error =>
      rw [hnext] at h
      cases h
    | ok next =>
      rw [hnext] at h
      exact ih (hstep s row next hs hnext) h

/-- Table rows are found under their id. -/
def Labelled (s : PivotState) : Prop := ∀ entry ∈ s.grouped, entry.2.id = entry.1

/-- A step labels the row and the column that it fills. -/
theorem Labelled.step {next : PivotState} (h : s.Labelled)
    (hstep : s.step rowDimensions columnDimensions label row = .ok next) : next.Labelled := by
  obtain ⟨realm, cell, rfl, -, -⟩ := step_cases hstep
  intro entry hentry
  rcases Table.mem_of_mem_upsert hentry with hold | rfl
  · exact h entry hold
  · dsimp only
    cases hfound : OrderedMap.get s.grouped (usagePivotKey row rowDimensions) with
    | none => rfl
    | some pivotRow => exact h _ (OrderedMap.get_eq_some_iff.mp hfound)

end Store

end PivotState

section Sound

variable {rowDimensions columnDimensions : List PivotDimension} {label : UsageRow → String}
  {start : Realm} {done : List UsageRow} {owners : List (String × String)} {s : PivotState}
  {row : UsageRow}

/-- **The invariant of the loop** while no column key is inherited: each record has an owner, the
pair of keys whose cell it is, and holds the sums of the rows of its owner. -/
structure PivotState.Sound (rowDimensions columnDimensions : List PivotDimension) (start : Realm)
    (done : List UsageRow) (owners : List (String × String)) (s : PivotState) : Prop where
  prototype : s.realm.prototype = start.prototype
  length : s.realm.records.length = owners.length
  nodup : owners.Nodup
  mem_owners : ∀ keys, keys ∈ owners ↔
    ∃ row ∈ done, cellKey rowDimensions columnDimensions row = keys
  owned : ∀ keys ∈ owners, s.cellAt keys.1 keys.2 = some (.record (owners.idxOf keys))
  free : ∀ keys : String × String, keys ∉ owners → s.cellAt keys.1 keys.2 = none
  sums : ∀ (i : ℕ) (keys : String × String), owners[i]? = some keys →
    s.realm.records[i]? = some (cellSums rowDimensions columnDimensions done keys)

/-- At the start every cell holds the sum of no numbers. -/
theorem PivotState.sound_start (rowDimensions columnDimensions : List PivotDimension)
    (start : Realm) :
    (PivotState.start start).Sound rowDimensions columnDimensions start [] [] where
  prototype := rfl
  length := rfl
  nodup := List.nodup_nil
  mem_owners keys := by simp
  owned := by
    rintro keys ⟨⟩
  free keys _ := rfl
  sums := by
    rintro i keys ⟨⟩

/-- Another row adds to the sums of its own keys. -/
theorem cellSums_concat (done : List UsageRow) (row : UsageRow) (keys : String × String)
    (metric : UsageMetric) :
    cellSums rowDimensions columnDimensions (done ++ [row]) keys metric =
      if cellKey rowDimensions columnDimensions row = keys then
        (cellSums rowDimensions columnDimensions done keys metric).add (some (row.metric metric))
      else cellSums rowDimensions columnDimensions done keys metric := by
  unfold cellSums group
  rw [List.filter_append]
  by_cases hkeys : cellKey rowDimensions columnDimensions row = keys
  · rw [if_pos hkeys, List.filter_cons_of_pos (by simpa using hkeys), List.filter_nil,
      List.map_append]
    exact JsNumber.sum_concat _ _
  · rw [if_neg hkeys, List.filter_cons_of_neg (by simpa using hkeys), List.filter_nil,
      List.append_nil]

namespace PivotState.Sound

/-- The row is stored in the record of its keys. -/
theorem store (h : s.Sound rowDimensions columnDimensions start done owners)
    (hproto : usagePivotKey row columnDimensions ≠ "__proto__") {realm : Realm}
    {owners' : List (String × String)} (hprototype : realm.prototype = start.prototype)
    (hlength : realm.records.length = owners'.length) (hnodup : owners'.Nodup)
    (hmem : ∀ keys, keys ∈ owners' ↔
      keys ∈ owners ∨ keys = cellKey rowDimensions columnDimensions row)
    (hindex : ∀ keys ∈ owners, owners'.idxOf keys = owners.idxOf keys)
    (hsums : ∀ (i : ℕ) (keys : String × String), owners'[i]? = some keys →
      realm.records[i]? = some (cellSums rowDimensions columnDimensions done keys)) :
    Sound rowDimensions columnDimensions start (done ++ [row]) owners'
      (s.store rowDimensions columnDimensions label row realm
        (.record (owners'.idxOf (cellKey rowDimensions columnDimensions row)))) := by
  have howned : cellKey rowDimensions columnDimensions row ∈ owners' := (hmem _).mpr (.inr rfl)
  have hat : owners'[owners'.idxOf (cellKey rowDimensions columnDimensions row)]? =
      some (cellKey rowDimensions columnDimensions row) := List.getElem?_idxOf howned
  have hadded := Realm.addRow_record row (hsums _ _ hat)
  refine ⟨?_, ?_, hnodup, ?_, ?_, ?_, ?_⟩
  · rw [PivotState.store, hadded]
    exact hprototype
  · rw [PivotState.store, hadded]
    exact List.length_set.trans hlength
  · intro keys
    rw [hmem, h.mem_owners]
    simp [or_and_right, exists_or, eq_comm]
  · intro keys hnew
    rw [cellAt_store]
    by_cases hkeys : keys = cellKey rowDimensions columnDimensions row
    · subst hkeys
      rw [if_pos ⟨rfl, hproto⟩]
    · have hold : keys ∈ owners := ((hmem keys).mp hnew).resolve_right hkeys
      rw [if_neg fun h => hkeys h.1, h.owned keys hold, hindex keys hold]
  · intro keys hnew
    rw [hmem, not_or] at hnew
    rw [cellAt_store, if_neg fun h => hnew.2 h.1, h.free keys hnew.1]
  · intro i keys howner
    rw [PivotState.store, hadded]
    have hsum := hsums i keys howner
    by_cases hkeys : cellKey rowDimensions columnDimensions row = keys
    · subst hkeys
      have hi : owners'.idxOf (cellKey rowDimensions columnDimensions row) = i := by
        obtain ⟨hlt, heq⟩ := List.getElem?_eq_some_iff.mp howner
        rw [← heq]
        exact hnodup.idxOf_getElem i hlt
      have hlt : i < realm.records.length := (List.getElem?_eq_some_iff.mp hsum).1
      rw [hi, List.getElem?_set_self hlt]
      congr 1
      funext metric
      rw [cellSums_concat, if_pos rfl]
    · have hne : owners'.idxOf (cellKey rowDimensions columnDimensions row) ≠ i := by
        rintro rfl
        exact hkeys (Option.some.inj (hat.symm.trans howner))
      rw [List.getElem?_set_ne hne, hsum]
      congr 1
      funext metric
      rw [cellSums_concat, if_neg hkeys]

/-- **One turn of the loop** for a row whose column key is not inherited. -/
theorem step (h : s.Sound rowDimensions columnDimensions start done owners)
    (hfree : start.inherited (usagePivotKey row columnDimensions) = none) :
    ∃ owners' s', s.step rowDimensions columnDimensions label row = .ok s' ∧
      s'.Sound rowDimensions columnDimensions start (done ++ [row]) owners' := by
  have hproto : usagePivotKey row columnDimensions ≠ "__proto__" := by
    intro heq
    rw [heq] at hfree
    cases hfree
  have hinherited : s.realm.inherited (usagePivotKey row columnDimensions) = none := by
    rw [Realm.inherited, h.prototype]
    exact hfree
  by_cases howned : cellKey rowDimensions columnDimensions row ∈ owners
  · have hcell := h.owned _ howned
    refine ⟨owners, _, step_of_cell hcell, h.store hproto h.prototype h.length h.nodup ?_
      (fun _ _ => rfl) h.sums⟩
    intro keys
    refine ⟨.inl, ?_⟩
    rintro (hkeys | rfl)
    · exact hkeys
    · exact howned
  · have hcell := h.free _ howned
    have hstep : s.step rowDimensions columnDimensions label row = .ok (s.store rowDimensions
        columnDimensions label row
        { s.realm with records := s.realm.records ++ [fun _ => some (.finite 0)] }
        (.record s.realm.records.length)) := step_of_fresh hcell hinherited
    have hlast : (owners ++ [cellKey rowDimensions columnDimensions row]).idxOf
        (cellKey rowDimensions columnDimensions row) = s.realm.records.length := by
      rw [List.idxOf_append_of_notMem howned, List.idxOf_cons_self, Nat.add_zero, h.length]
    have hempty : cellSums rowDimensions columnDimensions done
        (cellKey rowDimensions columnDimensions row) = fun _ => some (.finite 0) := by
      have hgroup : group (cellKey rowDimensions columnDimensions)
          (cellKey rowDimensions columnDimensions row) done = [] := by
        refine List.filter_eq_nil_iff.mpr fun other hother => ?_
        intro heq
        exact howned ((h.mem_owners _).mpr ⟨other, hother, by simpa using heq⟩)
      funext metric
      rw [cellSums, hgroup]
      rfl
    rw [← hlast] at hstep
    refine ⟨owners ++ [cellKey rowDimensions columnDimensions row], _, hstep,
      h.store hproto h.prototype ?_ ?_ ?_ ?_ ?_⟩
    · rw [List.length_append, List.length_append, h.length]
      rfl
    · refine h.nodup.append (List.nodup_singleton _) ?_
      intro keys hkeys hnew
      obtain rfl := List.mem_singleton.mp hnew
      exact howned hkeys
    · intro keys
      rw [List.mem_append, List.mem_singleton]
    · exact fun keys hkeys => List.idxOf_append_of_mem hkeys
    · intro i keys howner
      by_cases hlt : i < owners.length
      · rw [List.getElem?_append_left hlt] at howner
        rw [List.getElem?_append_left (by rw [h.length]; exact hlt)]
        exact h.sums i keys howner
      · have hi : i = owners.length := by
          have hle := (List.getElem?_eq_some_iff.mp howner).1
          rw [List.length_append, List.length_singleton] at hle
          omega
        subst hi
        rw [List.getElem?_append_right (Nat.le_refl _), Nat.sub_self] at howner
        obtain rfl : cellKey rowDimensions columnDimensions row = keys := Option.some.inj howner
        rw [List.getElem?_append_right (by rw [h.length]), h.length, Nat.sub_self, hempty]
        rfl

/-- **The loop** over rows whose column keys are not inherited. -/
theorem run {rows : List UsageRow}
    (h : s.Sound rowDimensions columnDimensions start done owners)
    (hfree : ∀ row ∈ rows, start.inherited (usagePivotKey row columnDimensions) = none) :
    ∃ owners' s', s.run rowDimensions columnDimensions label rows = .ok s' ∧
      s'.Sound rowDimensions columnDimensions start (done ++ rows) owners' := by
  induction rows generalizing s done owners with
  | nil => exact ⟨owners, s, rfl, by rwa [List.append_nil]⟩
  | cons row rows ih =>
    obtain ⟨owners', s', hstep, hsound⟩ : ∃ owners' s',
        s.step rowDimensions columnDimensions label row = .ok s' ∧
          s'.Sound rowDimensions columnDimensions start (done ++ [row]) owners' :=
      h.step (hfree row List.mem_cons_self)
    obtain ⟨owners'', s'', hrun, hfinal⟩ :=
      ih hsound fun other hother => hfree other (List.mem_cons_of_mem _ hother)
    refine ⟨owners'', s'', ?_, ?_⟩
    · rw [PivotState.run, hstep]
      exact hrun
    · rwa [List.append_assoc] at hfinal

end PivotState.Sound

end Sound

section Inherited

variable {rowDimensions columnDimensions : List PivotDimension} {label : UsageRow → String}
  {start realm realm' : Realm} {s next : PivotState} {row : UsageRow} {key : String}

/-- What is inherited stays inherited when metrics are added to `Object.prototype`. -/
theorem Realm.inherited_mono
    (h : ∀ metric, (realm.prototype metric).isSome = true → (realm'.prototype metric).isSome = true)
    (hkey : (realm.inherited key).isSome = true) : (realm'.inherited key).isSome = true := by
  unfold inherited at *
  split
  · rfl
  · next hproto =>
    rw [if_neg hproto] at hkey
    split
    · rfl
    · next hfunction =>
      rw [if_neg hfunction] at hkey
      cases hmetric : usageMetrics.find? fun metric => metric.property = key with
      | none =>
        rw [hmetric] at hkey
        cases hkey
      | some metric =>
        rw [hmetric, Option.bind_some, Option.isSome_map] at hkey
        rw [Option.bind_some, Option.isSome_map]
        exact h metric hkey

/-- `Object.prototype` has the metrics that it had, and all of them when it is the cell itself. -/
theorem Realm.isSome_prototype_addRow (realm : Realm) (cell : Cell) (row : UsageRow)
    (metric : UsageMetric) :
    ((realm.addRow cell row).prototype metric).isSome = true ↔
      (realm.prototype metric).isSome = true ∨ cell = .objectPrototype := by
  have hmetric : metric ∈ usageMetrics := by cases metric <;> decide
  have hfold : ∀ (metrics : List UsageMetric) (realm : Realm),
      ((metrics.foldl (fun realm metric => realm.write cell metric
        ((realm.read cell metric).add (some (row.metric metric)))) realm).prototype metric).isSome =
          true ↔ (realm.prototype metric).isSome = true ∨
            cell = .objectPrototype ∧ metric ∈ metrics := by
    intro metrics
    induction metrics with
    | nil => simp
    | cons first rest ih =>
      intro realm
      rw [List.foldl_cons, ih]
      cases cell with
      | record i => simp [write]
      | function name => simp [write]
      | objectPrototype =>
        by_cases hfirst : metric = first
        · simp [write, hfirst]
        · simp [write, hfirst]
  rw [addRow, hfold, and_iff_left hmetric]

/-- An inherited object is no record. -/
theorem Realm.not_record_of_inherited {cell : Cell} (h : realm.inherited key = some (.cell cell))
    (i : ℕ) : cell ≠ .record i := by
  rintro rfl
  unfold inherited at h
  split at h
  · cases h
  · split at h
    · cases h
    · obtain ⟨metric, -, hfound⟩ := Option.bind_eq_some_iff.mp h
      obtain ⟨x, -, heq⟩ := Option.map_eq_some_iff.mp hfound
      cases heq

/-- **An inherited name never has a record**, in any run. -/
structure PivotState.Foreign (start : Realm) (s : PivotState) : Prop where
  inherited : ∀ key, (start.inherited key).isSome = true → (s.realm.inherited key).isSome = true
  cells : ∀ keys : String × String, (start.inherited keys.2).isSome = true →
    ∀ i, s.cellAt keys.1 keys.2 ≠ some (.record i)

/-- At the start no cell has a record. -/
theorem PivotState.foreign_start (start : Realm) : (PivotState.start start).Foreign start where
  inherited key hkey := Realm.inherited_mono (fun _ h => h) hkey
  cells keys _ i := by
    rintro ⟨⟩

/-- **Step lemma**: a step gives an inherited name no record. -/
theorem PivotState.Foreign.step (h : s.Foreign start)
    (hstep : s.step rowDimensions columnDimensions label row = .ok next) : next.Foreign start := by
  obtain ⟨realm, cell, rfl, hprototype, hcell⟩ := step_cases hstep
  refine ⟨fun key hkey => ?_, fun keys hkey i => ?_⟩
  · refine Realm.inherited_mono (fun metric hmetric => ?_) (h.inherited key hkey)
    exact (realm.isSome_prototype_addRow cell row metric).mpr (.inl (by rwa [hprototype]))
  · rw [cellAt_store]
    split
    · next hkeys =>
      obtain ⟨rfl, -⟩ := hkeys
      intro heq
      obtain rfl := Option.some.inj heq
      rcases hcell with hown | hinherited | ⟨hnone, -⟩
      · exact h.cells _ hkey i hown
      · exact Realm.not_record_of_inherited hinherited i rfl
      · have hsome := h.inherited _ hkey
        rw [cellKey, hnone] at hsome
        cases hsome
    · exact h.cells keys hkey i

end Inherited

/-- The cells of all table rows, under the keys of row and column. -/
def UsagePivot.entries (pivot : UsagePivot) : List ((String × String) × Cell) :=
  pivot.rows.flatMap fun pivotRow =>
    pivotRow.cells.rows.map fun own => ((pivotRow.id, own.1), own.2)

/-- **The pivot conserves the usage**: each pair of keys that a row has is the place of one cell,
a record that belongs to this place only and holds the sums of the rows with these keys; and the
cells add up to the rows, for numbers that are added exactly. -/
structure UsagePivot.Conserves (rowDimensions columnDimensions : List PivotDimension)
    (rows : List UsageRow) (pivot : UsagePivot) : Prop where
  keys : ∀ keys, keys ∈ pivot.entries.map Prod.fst ↔
    ∃ row ∈ rows, cellKey rowDimensions columnDimensions row = keys
  unique : (pivot.entries.map Prod.fst).Nodup
  owned : ∀ entry ∈ pivot.entries, ∃ i < pivot.realm.records.length, entry.2 = .record i
  unshared : (pivot.entries.map Prod.snd).Nodup
  values : ∀ entry ∈ pivot.entries, ∀ metric,
    pivot.realm.read entry.2 metric = cellSums rowDimensions columnDimensions rows entry.1 metric
  totals : ∀ (metric : UsageMetric) (count : UsageRow → ℤ),
    (∀ row ∈ rows, row.metric metric = .finite (count row)) →
    (rows.map fun row => |count row|).sum < 2 ^ 53 →
    ∃ cells : List ℤ,
      (pivot.entries.map fun entry => pivot.realm.read entry.2 metric) =
        cells.map (fun n : ℤ => some (.finite (n : ℚ))) ∧
      cells.sum = (rows.map count).sum

section Result

variable {rowDimensions columnDimensions : List PivotDimension} {label : UsageRow → String}
  {localeCompare : String → String → Int} {realm : Realm} {rows : List UsageRow}
  {s : PivotState} {owners : List (String × String)} {pivot : UsagePivot}

/-- The cells of the result are those of the loop. -/
theorem PivotState.Labelled.entries_eq (h : s.Labelled) (columns : List PivotColumn)
    (realm : Realm) :
    UsagePivot.entries ⟨OrderedMap.values s.grouped, columns, realm⟩ =
      OrderedMap.entries PivotTableRow.cells s.grouped := by
  unfold UsagePivot.entries OrderedMap.entries OrderedMap.values
  rw [List.flatMap_map]
  refine List.flatMap_congr fun entry hentry => ?_
  rw [h entry hentry]

/-- The result comes from the last state of the loop. -/
theorem pivotUsageRows_eq_ok
    (h : pivotUsageRows rowDimensions columnDimensions label localeCompare realm rows = .ok pivot) :
    ∃ s, (PivotState.start realm).run rowDimensions columnDimensions label rows = .ok s ∧
      pivot.rows = OrderedMap.values s.grouped ∧
      pivot.columns.Perm (OrderedMap.values s.columns) ∧ pivot.realm = s.realm ∧
      pivot.entries = OrderedMap.entries PivotTableRow.cells s.grouped := by
  unfold pivotUsageRows at h
  cases hrun : (PivotState.start realm).run rowDimensions columnDimensions label rows with
  | error error =>
    rw [hrun] at h
    cases h
  | ok s =>
    rw [hrun] at h
    cases h
    have hlabelled : s.Labelled := PivotState.run_keeps (fun s row next h hstep => h.step hstep)
      (fun entry hentry => absurd hentry (Table.not_mem_empty entry)) hrun
    exact ⟨s, rfl, rfl, List.mergeSort_perm _ _, rfl, hlabelled.entries_eq _ _⟩

/-- The cells under the invariant. -/
theorem PivotState.Sound.mem_entries
    (h : s.Sound rowDimensions columnDimensions realm rows owners)
    (hentries : pivot.entries = OrderedMap.entries PivotTableRow.cells s.grouped)
    (keys : String × String) (cell : Cell) :
    (keys, cell) ∈ pivot.entries ↔ keys ∈ owners ∧ cell = .record (owners.idxOf keys) := by
  obtain ⟨rowId, columnId⟩ := keys
  rw [hentries, OrderedMap.mem_entries]
  change s.cellAt rowId columnId = some cell ↔ _
  by_cases howned : (rowId, columnId) ∈ owners
  · rw [h.owned _ howned]
    simp [howned, eq_comm]
  · rw [h.free _ howned]
    simp [howned]

/-- **Exact sums**: cells that hold the sums of their rows add up to all rows. -/
theorem exact_totals {entries : List ((String × String) × Cell)} {metric : UsageMetric}
    (read : Cell → JsNumber) {count : UsageRow → ℤ} (hunique : (entries.map Prod.fst).Nodup)
    (hkeys : ∀ row ∈ rows, cellKey rowDimensions columnDimensions row ∈ entries.map Prod.fst)
    (hvalues : ∀ entry ∈ entries,
      read entry.2 = cellSums rowDimensions columnDimensions rows entry.1 metric)
    (hcount : ∀ row ∈ rows, row.metric metric = .finite (count row))
    (hsafe : (rows.map fun row => |count row|).sum < 2 ^ 53) :
    ∃ cells : List ℤ,
      (entries.map fun entry => read entry.2) =
        cells.map (fun n : ℤ => some (.finite (n : ℚ))) ∧
      cells.sum = (rows.map count).sum := by
  refine ⟨entries.map fun entry =>
    ((group (cellKey rowDimensions columnDimensions) entry.1 rows).map count).sum, ?_, ?_⟩
  · rw [List.map_map]
    refine List.map_congr_left fun entry hentry => ?_
    rw [hvalues entry hentry, cellSums]
    have hexact : (group (cellKey rowDimensions columnDimensions) entry.1 rows).map
          (·.metric metric) =
        ((group (cellKey rowDimensions columnDimensions) entry.1 rows).map count).map
          fun n : ℤ => Binary64.finite (n : ℚ) := by
      rw [List.map_map]
      exact List.map_congr_left fun row hrow => hcount row (List.mem_filter.mp hrow).1
    rw [hexact]
    refine JsNumber.sum_intCast ?_
    rw [List.map_map]
    refine lt_of_le_of_lt ?_ hsafe
    refine List.Sublist.sum_le_sum (List.filter_sublist.map _) ?_
    rintro n hn
    obtain ⟨row, -, rfl⟩ := List.mem_map.mp hn
    exact abs_nonneg (count row)
  · have hsum := sum_groups (cellKey rowDimensions columnDimensions) count hunique hkeys
    rw [List.map_map] at hsum
    exact hsum

/-- A state under the invariant has the cells that the result is to have. -/
theorem PivotState.Sound.conserves
    (h : s.Sound rowDimensions columnDimensions realm rows owners)
    (hrealm : pivot.realm = s.realm)
    (hentries : pivot.entries = OrderedMap.entries PivotTableRow.cells s.grouped) :
    pivot.Conserves rowDimensions columnDimensions rows := by
  have hmem := h.mem_entries hentries
  have hkeys : ∀ keys, keys ∈ pivot.entries.map Prod.fst ↔
      ∃ row ∈ rows, cellKey rowDimensions columnDimensions row = keys := by
    intro keys
    rw [← h.mem_owners, List.mem_map]
    constructor
    · rintro ⟨⟨keys, cell⟩, hentry, rfl⟩
      exact ((hmem keys cell).mp hentry).1
    · exact fun howned => ⟨(keys, _), (hmem keys _).mpr ⟨howned, rfl⟩, rfl⟩
  have hunique : (pivot.entries.map Prod.fst).Nodup := by
    rw [hentries]
    exact OrderedMap.nodup_entries
  have hvalues : ∀ entry ∈ pivot.entries, ∀ metric, pivot.realm.read entry.2 metric =
      cellSums rowDimensions columnDimensions rows entry.1 metric := by
    rintro ⟨keys, cell⟩ hentry metric
    obtain ⟨howned, rfl⟩ := (hmem keys cell).mp hentry
    rw [hrealm, Realm.read, h.sums _ keys (List.getElem?_idxOf howned)]
    rfl
  refine ⟨hkeys, hunique, ?_, ?_, hvalues, fun metric count hcount hsafe => ?_⟩
  · rintro ⟨keys, cell⟩ hentry
    obtain ⟨howned, rfl⟩ := (hmem keys cell).mp hentry
    refine ⟨owners.idxOf keys, ?_, rfl⟩
    rw [hrealm, h.length]
    exact List.idxOf_lt_length_of_mem howned
  · -- The place of a record is that of its owner.
    refine List.Nodup.map_on ?_ hunique.of_map
    rintro ⟨keys, cell⟩ hentry ⟨keys', cell'⟩ hentry' heq
    obtain ⟨howned, rfl⟩ := (hmem keys cell).mp hentry
    obtain ⟨howned', rfl⟩ := (hmem keys' cell').mp hentry'
    have hindex : owners.idxOf keys = owners.idxOf keys' := Cell.record.inj heq
    obtain rfl : keys = keys' := (List.idxOf_inj howned).mp hindex
    rfl
  · exact exact_totals (fun cell => pivot.realm.read cell metric) hunique
      (fun row hrow => (hkeys _).mpr ⟨row, hrow, rfl⟩)
      (fun entry hentry => hvalues entry hentry metric) hcount hsafe

/-- A row under an inherited name has no record of its own. -/
theorem not_conserves_of_inherited
    (h : pivotUsageRows rowDimensions columnDimensions label localeCompare realm rows = .ok pivot)
    {row : UsageRow} (hrow : row ∈ rows)
    (hinherited : realm.inherited (usagePivotKey row columnDimensions) ≠ none) :
    ¬ pivot.Conserves rowDimensions columnDimensions rows := by
  intro hconserves
  obtain ⟨s, hrun, -, -, -, hentries⟩ := pivotUsageRows_eq_ok h
  have hforeign : s.Foreign realm := PivotState.run_keeps (fun s row next h hstep => h.step hstep)
    (PivotState.foreign_start realm) hrun
  obtain ⟨⟨keys, cell⟩, hentry, hkeys⟩ :=
    List.mem_map.mp ((hconserves.keys _).mpr ⟨row, hrow, rfl⟩)
  obtain ⟨i, -, rfl⟩ := hconserves.owned _ hentry
  obtain rfl : keys = cellKey rowDimensions columnDimensions row := hkeys
  rw [hentries, cellKey, OrderedMap.mem_entries] at hentry
  have hsome : (realm.inherited (usagePivotKey row columnDimensions)).isSome = true :=
    Option.isSome_iff_ne_none.mpr hinherited
  exact hforeign.cells (cellKey rowDimensions columnDimensions row) hsome i hentry

end Result

/-- **The usage pivot.** It returns a result that conserves the usage exactly if no column key of
a row is the name of a property that plain objects inherit. -/
theorem pivot_conserves_iff (rowDimensions columnDimensions : List PivotDimension)
    (label : UsageRow → String) (localeCompare : String → String → Int) (realm : Realm)
    (rows : List UsageRow) :
    (∃ pivot, pivotUsageRows rowDimensions columnDimensions label localeCompare realm rows =
        .ok pivot ∧ pivot.Conserves rowDimensions columnDimensions rows) ↔
      ∀ row ∈ rows, realm.inherited (usagePivotKey row columnDimensions) = none := by
  constructor
  · rintro ⟨pivot, hok, hconserves⟩ row hrow
    by_contra hinherited
    exact not_conserves_of_inherited hok hrow hinherited hconserves
  · intro hfree
    obtain ⟨owners, s, hrun, hsound⟩ :=
      (PivotState.sound_start rowDimensions columnDimensions realm).run hfree
    have hok : pivotUsageRows rowDimensions columnDimensions label localeCompare realm rows =
        .ok _ := congrArg (Except.map _) hrun
    obtain ⟨s', hrun', -, -, hrealm, hentries⟩ := pivotUsageRows_eq_ok hok
    obtain rfl : s = s' := Except.ok.inj (hrun.symm.trans hrun')
    exact ⟨_, hok, hsound.conserves hrealm hentries⟩

/-- A row of the usage with ten requests for a model. -/
def usageOfModel (userId model : String) : UsageRow where
  userId := userId
  userEmail := none
  userName := none
  consumerId := "c"
  consumerName := "laptop"
  consumerPrefix := "sk-1"
  model := model
  date := "2026-07-01"
  metric metric := if metric = .requests then .finite 10 else .finite 0

/-- The objects when the page has loaded. -/
def pristineRealm : Realm := ⟨fun _ => none, fun _ _ => none, []⟩

/-- Two users ask for a model `constructor`. The cells of both table rows are the function
`Object`, and its `requests` is `NaN`. -/
theorem inherited_name_loses_usage :
    ∃ pivot, pivotUsageRows [.user] [.model] UsageRow.model (fun _ _ => 0) pristineRealm
        [usageOfModel "u1" "constructor", usageOfModel "u2" "constructor"] = .ok pivot ∧
      pivot.entries = [(("u1", "constructor"), .function "constructor"),
        (("u2", "constructor"), .function "constructor")] ∧
      pivot.realm.read (.function "constructor") .requests = none ∧
      ¬ pivot.Conserves [.user] [.model]
        [usageOfModel "u1" "constructor", usageOfModel "u2" "constructor"] := by
  have hok : ∃ pivot, pivotUsageRows [.user] [.model] UsageRow.model (fun _ _ => 0) pristineRealm
      [usageOfModel "u1" "constructor", usageOfModel "u2" "constructor"] = .ok pivot := ⟨_, rfl⟩
  obtain ⟨pivot, hok⟩ := hok
  refine ⟨pivot, hok, ?_, ?_, not_conserves_of_inherited hok List.mem_cons_self (by decide)⟩
  · cases hok
    rfl
  · cases hok
    rfl

end OpenAiLb.Web
