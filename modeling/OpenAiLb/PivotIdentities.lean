import OpenAiLb.Library.Split
import OpenAiLb.PivotCells

/-!
# Who shares a row of the usage pivot

The pivot groups the usage by labels. The labels of two users may be the same, and those of one
user may differ: whose usage shares a table row is decided by the texts, and agrees with the
identities exactly if the texts do. There is a pivot at all unless a cell is looked up under the
name of a metric that `Object.prototype` has been given.
-/

namespace OpenAiLb.Web

/-- What a dimension stands for: the user and the consumer themselves, whatever they are called. -/
def usageIdentity (row : UsageRow) : PivotDimension → String
  | .user => row.userId
  | .consumer => row.consumerId
  | .model => row.model
  | .date => row.date

/-- Two rows of the usage agree on what the dimensions stand for. -/
def SameIdentity (dimensions : List PivotDimension) (row other : UsageRow) : Prop :=
  ∀ dimension ∈ dimensions, usageIdentity row dimension = usageIdentity other dimension

/-- Two rows of the usage are added to the same table row, the one with the key of both. -/
def UsagePivot.SameTableRow (rowDimensions : List PivotDimension) (pivot : UsagePivot)
    (row other : UsageRow) : Prop :=
  ∃ pivotRow ∈ pivot.rows, pivotRow.id = usagePivotKey row rowDimensions ∧
    pivotRow.id = usagePivotKey other rowDimensions

/-- Two rows of the usage are added to the same column. -/
def UsagePivot.SameColumn (columnDimensions : List PivotDimension) (pivot : UsagePivot)
    (row other : UsageRow) : Prop :=
  ∃ column ∈ pivot.columns, column.id = usagePivotKey row columnDimensions ∧
    column.id = usagePivotKey other columnDimensions

/-- What `usagePivotKey` puts between the labels. -/
def keySeparator : Char := Char.ofNat 0x1f

/-- The labels of a row, cut where they contain the separator themselves. -/
def labelParts (row : UsageRow) (dimensions : List PivotDimension) : List (List Char) :=
  dimensions.flatMap fun dimension =>
    (usageDimensionLabel row dimension).toList.splitOn keySeparator

/-- Two rows of the usage have the same label on each dimension. -/
def SameLabels (dimensions : List PivotDimension) (row other : UsageRow) : Prop :=
  ∀ dimension ∈ dimensions,
    usageDimensionLabel row dimension = usageDimensionLabel other dimension

/-- A label contains the separator, and cut there the labels are the same texts in the same
order. -/
def SameParts (dimensions : List PivotDimension) (row other : UsageRow) : Prop :=
  (∃ dimension ∈ dimensions, keySeparator ∈ (usageDimensionLabel row dimension).toList ∨
    keySeparator ∈ (usageDimensionLabel other dimension).toList) ∧
  labelParts row dimensions = labelParts other dimensions

/-- There is one dimension, and the labels are empty and `total`. -/
def EmptyBesideTotal (dimensions : List PivotDimension) (row other : UsageRow) : Prop :=
  ∃ dimension, dimensions = [dimension] ∧ usageDimensionLabel row dimension = "" ∧
    usageDimensionLabel other dimension = "total"

/-- Two rows of the usage read the same: they have the same labels, or labels that the separator or
the text for an empty key confuses. -/
def LooksAlike (dimensions : List PivotDimension) (row other : UsageRow) : Prop :=
  SameLabels dimensions row other ∨ SameParts dimensions row other ∨
    EmptyBesideTotal dimensions row other ∨ EmptyBesideTotal dimensions other row

/-- The labels tell the rows apart that differ in identity, and only these. -/
def LabelsIdentify (dimensions : List PivotDimension) (rows : List UsageRow) : Prop :=
  ∀ row ∈ rows, ∀ other ∈ rows,
    (LooksAlike dimensions row other ↔ SameIdentity dimensions row other)

/-- A row has no cell in its table row yet, and under its column key `Object.prototype` has a
number: a metric that was there before, or that a row with the column key `__proto__` has
written. -/
def FindsNumber (rowDimensions columnDimensions : List PivotDimension) (realm : Realm)
    (before : List UsageRow) (row : UsageRow) : Prop :=
  (∀ earlier ∈ before, cellKey rowDimensions columnDimensions earlier ≠
    cellKey rowDimensions columnDimensions row) ∧
  ∃ metric : UsageMetric, usagePivotKey row columnDimensions = metric.property ∧
    ((realm.prototype metric).isSome = true ∨
      ∃ earlier ∈ before, usagePivotKey earlier columnDimensions = "__proto__")

/-- No row finds a number where its cell is looked up. -/
def FindsNoNumber (rowDimensions columnDimensions : List PivotDimension) (realm : Realm)
    (rows : List UsageRow) : Prop :=
  ∀ before row after, rows = before ++ row :: after →
    ¬ FindsNumber rowDimensions columnDimensions realm before row

section Keys

variable {dimensions : List PivotDimension} {row other : UsageRow}

/-- The labels, joined, have the parts of the labels. -/
theorem splitOn_labels (row : UsageRow) (h : dimensions ≠ []) :
    ("\x1f".intercalate (dimensions.map (usageDimensionLabel row))).toList.splitOn keySeparator =
      labelParts row dimensions := by
  have hseparator : "\x1f".toList = [keySeparator] := by decide
  have hlabels : (dimensions.map (usageDimensionLabel row)).map String.toList ≠ [] := by
    simpa using h
  rw [String.toList_intercalate, hseparator, splitOn_intercalate_flatMap _ hlabels,
    List.flatMap_map, List.flatMap_map]
  rfl

/-- The parts of a key: a single empty part reads `total`. -/
theorem splitOn_usagePivotKey (row : UsageRow) (h : dimensions ≠ []) :
    (usagePivotKey row dimensions).toList.splitOn keySeparator =
      if labelParts row dimensions = [[]] then ["total".toList] else labelParts row dimensions := by
  have hparts := splitOn_labels row h
  unfold usagePivotKey orText
  rw [Option.elim_some]
  by_cases hempty : "\x1f".intercalate (dimensions.map (usageDimensionLabel row)) = ""
  · rw [hempty] at hparts
    rw [if_pos hempty, if_pos (hparts.symm.trans (by decide))]
    decide
  · rw [if_neg hempty, if_neg, hparts]
    intro hblank
    rw [hblank] at hparts
    have hnil : List.splitOn keySeparator [] = [[]] := by decide
    have htext := splitOn_injective keySeparator (hparts.trans hnil.symm)
    exact hempty (String.toList_eq_nil_iff.mp htext)

/-- There is one part exactly if there is one dimension, and its label is that part. -/
theorem labelParts_eq_singleton_iff (text : String) (h : keySeparator ∉ text.toList) :
    labelParts row dimensions = [text.toList] ↔
      ∃ dimension, dimensions = [dimension] ∧ usageDimensionLabel row dimension = text := by
  have htext : text.toList.splitOn keySeparator = [text.toList] := List.splitOn_eq_singleton h
  constructor
  · intro hparts
    rcases dimensions with _ | ⟨first, _ | ⟨second, rest⟩⟩
    · cases hparts
    · rw [labelParts, List.flatMap_singleton, ← htext] at hparts
      exact ⟨first, rfl, String.toList_inj.mp (splitOn_injective keySeparator hparts)⟩
    · -- Each of two labels has a part.
      have hlength := congrArg List.length hparts
      have hfirst := List.length_pos_of_ne_nil
        (List.splitOn_ne_nil keySeparator (usageDimensionLabel row first).toList)
      have hsecond := List.length_pos_of_ne_nil
        (List.splitOn_ne_nil keySeparator (usageDimensionLabel row second).toList)
      rw [labelParts, List.flatMap_cons, List.flatMap_cons, List.length_append, List.length_append,
        List.length_singleton] at hlength
      omega
  · rintro ⟨dimension, rfl, rfl⟩
    rw [labelParts, List.flatMap_singleton, htext]

/-- The parts of two rows are the same exactly if the labels are, or a separator stands in them. -/
theorem labelParts_eq_iff :
    labelParts row dimensions = labelParts other dimensions ↔
      SameLabels dimensions row other ∨ SameParts dimensions row other := by
  constructor
  · intro hparts
    by_cases hsplit : ∃ dimension ∈ dimensions,
        keySeparator ∈ (usageDimensionLabel row dimension).toList ∨
          keySeparator ∈ (usageDimensionLabel other dimension).toList
    · exact .inr ⟨hsplit, hparts⟩
    · left
      push Not at hsplit
      have hwhole : ∀ row : UsageRow, (∀ dimension ∈ dimensions,
          keySeparator ∉ (usageDimensionLabel row dimension).toList) →
          labelParts row dimensions =
            dimensions.map fun dimension => (usageDimensionLabel row dimension).toList := by
        intro row h
        rw [List.map_eq_flatMap, labelParts]
        exact List.flatMap_congr fun dimension hmem => List.splitOn_eq_singleton (h dimension hmem)
      rw [hwhole row fun dimension hmem => (hsplit dimension hmem).1,
        hwhole other fun dimension hmem => (hsplit dimension hmem).2, List.map_inj_left] at hparts
      exact fun dimension hmem => String.toList_inj.mp (hparts dimension hmem)
  · rintro (hlabels | ⟨-, hparts⟩)
    · exact List.flatMap_congr fun dimension hmem => by rw [hlabels dimension hmem]
    · exact hparts

/-- The parts of an empty label beside one that reads `total`. -/
theorem emptyBesideTotal_iff : EmptyBesideTotal dimensions row other ↔
    labelParts row dimensions = [[]] ∧ labelParts other dimensions = ["total".toList] := by
  have hempty : labelParts row dimensions = [[]] ↔
      ∃ dimension, dimensions = [dimension] ∧ usageDimensionLabel row dimension = "" :=
    labelParts_eq_singleton_iff "" (by decide)
  rw [hempty, labelParts_eq_singleton_iff "total" (by decide)]
  constructor
  · rintro ⟨dimension, rfl, hrow, hother⟩
    exact ⟨⟨dimension, rfl, hrow⟩, dimension, rfl, hother⟩
  · rintro ⟨⟨dimension, rfl, hrow⟩, dimension', heq, hother⟩
    obtain ⟨rfl, -⟩ := List.cons.inj heq
    exact ⟨dimension, rfl, hrow, hother⟩

/-- Replacing one value by another confuses these two. -/
theorem replaced_eq_iff {α : Type*} [DecidableEq α] {old new a b : α} :
    (if a = old then new else a) = (if b = old then new else b) ↔
      a = b ∨ (a = old ∧ b = new) ∨ (b = old ∧ a = new) := by
  by_cases ha : a = old
  · by_cases hb : b = old
    · simp [ha, hb]
    · grind
  · by_cases hb : b = old
    · simp [ha, hb]
    · simp [ha, hb]

/-- **The key of a row** is what the row looks like. -/
theorem usagePivotKey_eq_iff (dimensions : List PivotDimension) (row other : UsageRow) :
    usagePivotKey row dimensions = usagePivotKey other dimensions ↔
      LooksAlike dimensions row other := by
  rcases eq_or_ne dimensions [] with rfl | h
  · exact iff_of_true rfl (.inl nofun)
  · rw [← String.toList_inj, ← (splitOn_injective keySeparator).eq_iff,
      splitOn_usagePivotKey row h, splitOn_usagePivotKey other h, LooksAlike, ← or_assoc,
      ← labelParts_eq_iff, emptyBesideTotal_iff, emptyBesideTotal_iff]
    exact replaced_eq_iff

end Keys

namespace PivotState

variable {rowDimensions columnDimensions : List PivotDimension} {label : UsageRow → String}
  {s final : PivotState} {row : UsageRow} {rows : List UsageRow}

/-- Keys that each turn of the loop adds are in the end those of the rows. -/
theorem run_keys {keys : PivotState → List String} {key : UsageRow → String}
    (hstep : ∀ s row next, s.step rowDimensions columnDimensions label row = .ok next →
      ∀ k, k ∈ keys next ↔ k ∈ keys s ∨ key row = k)
    (h : s.run rowDimensions columnDimensions label rows = .ok final) (k : String) :
    k ∈ keys final ↔ k ∈ keys s ∨ ∃ row ∈ rows, key row = k := by
  induction rows generalizing s with
  | nil =>
    cases h
    simp
  | cons row rows ih =>
    rw [run] at h
    cases hnext : s.step rowDimensions columnDimensions label row with
    | error error =>
      rw [hnext] at h
      cases h
    | ok next =>
      rw [hnext] at h
      rw [ih h, hstep s row next hnext, or_assoc]
      simp

/-- The table rows after a turn of the loop. -/
theorem mem_grouped_step {next : PivotState}
    (h : s.step rowDimensions columnDimensions label row = .ok next) (k : String) :
    k ∈ next.grouped.keys ↔ k ∈ s.grouped.keys ∨ usagePivotKey row rowDimensions = k := by
  obtain ⟨realm, cell, rfl, -, -⟩ := step_cases h
  exact OrderedMap.mem_keys_set

/-- The columns after a turn of the loop. -/
theorem mem_columns_step {next : PivotState}
    (h : s.step rowDimensions columnDimensions label row = .ok next) (k : String) :
    k ∈ next.columns.keys ↔ k ∈ s.columns.keys ∨ usagePivotKey row columnDimensions = k := by
  obtain ⟨realm, cell, rfl, -, -⟩ := step_cases h
  exact OrderedMap.mem_keys_set

/-- Columns are found under their id. -/
def ColumnsLabelled (s : PivotState) : Prop := ∀ entry ∈ s.columns, entry.2.id = entry.1

/-- A step labels the column that it fills. -/
theorem ColumnsLabelled.step {next : PivotState} (h : s.ColumnsLabelled)
    (hstep : s.step rowDimensions columnDimensions label row = .ok next) :
    next.ColumnsLabelled := by
  obtain ⟨realm, cell, rfl, -, -⟩ := step_cases hstep
  intro entry hentry
  rcases Table.mem_of_mem_upsert hentry with hold | rfl
  · exact h entry hold
  · rfl

end PivotState

section Exceptions

variable {rowDimensions columnDimensions : List PivotDimension} {label : UsageRow → String}
  {start realm : Realm} {s next : PivotState} {row : UsageRow} {done rows : List UsageRow}
  {key : String}

/-- The numbers that are inherited are the metrics of `Object.prototype`. -/
theorem Realm.inherited_eq_number_iff : (∃ x, realm.inherited key = some (.number x)) ↔
    ∃ metric : UsageMetric, key = metric.property ∧ (realm.prototype metric).isSome = true := by
  constructor
  · rintro ⟨x, hx⟩
    unfold inherited at hx
    split at hx
    · cases hx
    · split at hx
      · cases hx
      · obtain ⟨metric, hmetric, hfound⟩ := Option.bind_eq_some_iff.mp hx
        obtain ⟨number, hnumber, -⟩ := Option.map_eq_some_iff.mp hfound
        have hproperty := List.find?_some hmetric
        refine ⟨metric, (of_decide_eq_true hproperty).symm, ?_⟩
        rw [hnumber]
        rfl
  · rintro ⟨metric, rfl, hmetric⟩
    obtain ⟨number, hnumber⟩ := Option.isSome_iff_exists.mp hmetric
    have hinherited : realm.inherited metric.property = (realm.prototype metric).map .number := by
      cases metric <;> rfl
    rw [hinherited, hnumber]
    exact ⟨number, rfl⟩

/-- `Object.prototype` is inherited under one name. -/
theorem Realm.eq_objectPrototype_iff {cell : Cell} (h : realm.inherited key = some (.cell cell)) :
    cell = .objectPrototype ↔ key = "__proto__" := by
  unfold inherited at h
  split at h
  · next hproto =>
    cases h
    exact iff_of_true rfl hproto
  · next hproto =>
    split at h
    · cases h
      exact iff_of_false nofun hproto
    · obtain ⟨metric, -, hfound⟩ := Option.bind_eq_some_iff.mp h
      obtain ⟨x, -, heq⟩ := Option.map_eq_some_iff.mp hfound
      cases heq

/-- What the rows so far have left: the metrics of `Object.prototype`, and a cell for each pair of
keys but those with `__proto__`. -/
structure PivotState.Follows (rowDimensions columnDimensions : List PivotDimension) (start : Realm)
    (done : List UsageRow) (s : PivotState) : Prop where
  prototype : ∀ metric, (s.realm.prototype metric).isSome = true ↔
    (start.prototype metric).isSome = true ∨
      ∃ row ∈ done, usagePivotKey row columnDimensions = "__proto__"
  cells : ∀ keys : String × String, (s.cellAt keys.1 keys.2).isSome = true ↔
    keys.2 ≠ "__proto__" ∧ ∃ row ∈ done, cellKey rowDimensions columnDimensions row = keys
  own : ∀ keys : String × String, s.cellAt keys.1 keys.2 ≠ some .objectPrototype

/-- Nothing is left at the start but what was in the realm. -/
theorem PivotState.follows_start (start : Realm) :
    (PivotState.start start).Follows rowDimensions columnDimensions start [] where
  prototype metric := by
    simp [PivotState.start]
  cells keys := by
    have hnone : (PivotState.start start).cellAt keys.1 keys.2 = none := rfl
    simp [hnone]
  own keys := nofun

/-- The cell that a turn stores a row in is `Object.prototype` for one column key. -/
theorem PivotState.Follows.cell_eq_iff (h : s.Follows rowDimensions columnDimensions start done)
    {cell : Cell}
    (hcell : s.cellAt (usagePivotKey row rowDimensions) (usagePivotKey row columnDimensions) =
        some cell ∨
      s.realm.inherited (usagePivotKey row columnDimensions) = some (.cell cell) ∨
      (s.realm.inherited (usagePivotKey row columnDimensions) = none ∧ ∃ i, cell = .record i)) :
    cell = .objectPrototype ↔ usagePivotKey row columnDimensions = "__proto__" := by
  rcases hcell with hown | hinherited | ⟨hnone, i, rfl⟩
  · have hsome := (h.cells (cellKey rowDimensions columnDimensions row)).mp (by
      rw [cellKey, hown]
      rfl)
    refine iff_of_false ?_ hsome.1
    rintro rfl
    exact h.own (cellKey rowDimensions columnDimensions row) hown
  · exact Realm.eq_objectPrototype_iff hinherited
  · refine iff_of_false (by simp) fun hproto => ?_
    rw [hproto] at hnone
    cases hnone

/-- What one turn of the loop leaves. -/
theorem PivotState.Follows.step (h : s.Follows rowDimensions columnDimensions start done)
    (hstep : s.step rowDimensions columnDimensions label row = .ok next) :
    next.Follows rowDimensions columnDimensions start (done ++ [row]) := by
  obtain ⟨realm, cell, rfl, hprototype, hcell⟩ := step_cases hstep
  have hproto := h.cell_eq_iff hcell
  refine ⟨fun metric => ?_, fun keys => ?_, fun keys => ?_⟩
  · have hadded := realm.isSome_prototype_addRow cell row metric
    rw [hprototype, h.prototype metric, hproto, or_assoc] at hadded
    rw [show (s.store rowDimensions columnDimensions label row realm cell).realm =
      realm.addRow cell row from rfl, hadded]
    simp [or_and_right, exists_or]
  · rw [cellAt_store]
    by_cases hkeys : keys = cellKey rowDimensions columnDimensions row ∧ keys.2 ≠ "__proto__"
    · rw [if_pos hkeys]
      exact iff_of_true rfl ⟨hkeys.2, row, by simp, hkeys.1.symm⟩
    · rw [if_neg hkeys, h.cells keys]
      refine and_congr_right fun hne => ?_
      have hother : cellKey rowDimensions columnDimensions row ≠ keys :=
        fun heq => hkeys ⟨heq.symm, hne⟩
      simp [or_and_right, exists_or, hother]
  · rw [cellAt_store]
    split
    · next hkeys =>
      obtain ⟨rfl, hne⟩ := hkeys
      exact fun heq => hne (hproto.mp (Option.some.inj heq))
    · exact h.own keys

/-- Without a cell, a turn of the loop throws exactly if a number is inherited. -/
theorem PivotState.exists_step_iff_of_none
    (h : s.cellAt (usagePivotKey row rowDimensions) (usagePivotKey row columnDimensions) = none) :
    (∃ next, s.step rowDimensions columnDimensions label row = .ok next) ↔
      ¬ ∃ x, s.realm.inherited (usagePivotKey row columnDimensions) = some (.number x) := by
  rw [← s.get_cells row] at h
  unfold PivotState.step Realm.get
  dsimp only
  rw [h]
  dsimp only
  cases s.realm.inherited (usagePivotKey row columnDimensions) with
  | none => exact iff_of_true ⟨_, rfl⟩ nofun
  | some found =>
    cases found with
    | cell cell => exact iff_of_true ⟨_, rfl⟩ nofun
    | number x => exact iff_of_false nofun fun hnone => hnone ⟨x, rfl⟩

/-- A turn of the loop throws exactly for a row that finds a number. -/
theorem PivotState.Follows.exists_step_iff
    (h : s.Follows rowDimensions columnDimensions start done) (label : UsageRow → String)
    (row : UsageRow) :
    (∃ next, s.step rowDimensions columnDimensions label row = .ok next) ↔
      ¬ FindsNumber rowDimensions columnDimensions start done row := by
  have hcells := h.cells (cellKey rowDimensions columnDimensions row)
  cases hcell : s.cellAt (usagePivotKey row rowDimensions) (usagePivotKey row columnDimensions) with
  | some cell =>
    rw [cellKey, hcell] at hcells
    obtain ⟨-, earlier, hearlier, hkeys⟩ := hcells.mp rfl
    exact iff_of_true ⟨_, step_of_cell hcell⟩ fun hfinds => hfinds.1 earlier hearlier hkeys
  | none =>
    rw [cellKey, hcell] at hcells
    rw [exists_step_iff_of_none hcell, Realm.inherited_eq_number_iff, not_iff_not]
    constructor
    · rintro ⟨metric, hkey, hmetric⟩
      refine ⟨fun earlier hearlier hkeys => ?_, metric, hkey, (h.prototype metric).mp hmetric⟩
      have hne : metric.property ≠ "__proto__" := by cases metric <;> decide
      exact Bool.false_ne_true (hcells.mpr ⟨hkey ▸ hne, earlier, hearlier, hkeys⟩)
    · rintro ⟨-, metric, hkey, hmetric⟩
      exact ⟨metric, hkey, (h.prototype metric).mpr hmetric⟩

/-- The loop goes through exactly if no row finds a number. -/
theorem PivotState.Follows.exists_run_iff
    (h : s.Follows rowDimensions columnDimensions start done) (label : UsageRow → String)
    (rows : List UsageRow) :
    (∃ final, s.run rowDimensions columnDimensions label rows = .ok final) ↔
      ∀ before row after, rows = before ++ row :: after →
        ¬ FindsNumber rowDimensions columnDimensions start (done ++ before) row := by
  induction rows generalizing s done with
  | nil => exact iff_of_true ⟨s, rfl⟩ fun before row after heq => by simp at heq
  | cons row rows ih =>
    have hstep := h.exists_step_iff label row
    rw [PivotState.run]
    cases hnext : s.step rowDimensions columnDimensions label row with
    | error e =>
      rw [hnext] at hstep
      refine iff_of_false (by simp) fun hall => ?_
      obtain ⟨next, hok⟩ := hstep.mpr (by simpa using hall [] row rows rfl)
      cases hok
    | ok next =>
      dsimp only
      rw [ih (h.step hnext)]
      constructor
      · intro hall before row' after heq
        rcases before with _ | ⟨first, before⟩
        · obtain ⟨rfl, rfl⟩ := List.cons.inj heq
          rw [List.append_nil]
          exact hstep.mp ⟨next, hnext⟩
        · obtain ⟨rfl, rfl⟩ := List.cons.inj heq
          simpa using hall before row' after rfl
      · intro hall before row' after heq
        simpa using hall (row :: before) row' after (congrArg (row :: ·) heq)

/-- **There is a pivot** exactly if no row finds a number. -/
theorem exists_pivot_iff (rowDimensions columnDimensions : List PivotDimension)
    (label : UsageRow → String) (localeCompare : String → String → Int) (realm : Realm)
    (rows : List UsageRow) :
    (∃ pivot, pivotUsageRows rowDimensions columnDimensions label localeCompare realm rows =
      .ok pivot) ↔ FindsNoNumber rowDimensions columnDimensions realm rows := by
  have hstart : (PivotState.start realm).Follows rowDimensions columnDimensions realm [] :=
    PivotState.follows_start realm
  refine Iff.trans ?_ (hstart.exists_run_iff label rows)
  unfold pivotUsageRows
  cases (PivotState.start realm).run rowDimensions columnDimensions label rows with
  | error e => exact iff_of_false nofun nofun
  | ok final => exact iff_of_true ⟨_, rfl⟩ ⟨final, rfl⟩

end Exceptions

section Result

variable {rowDimensions columnDimensions : List PivotDimension} {label : UsageRow → String}
  {localeCompare : String → String → Int} {realm : Realm} {rows : List UsageRow}
  {pivot : UsagePivot}

/-- **The table rows** have the keys of the rows of the usage, each once. -/
theorem tableRow_ids
    (h : pivotUsageRows rowDimensions columnDimensions label localeCompare realm rows = .ok pivot) :
    (pivot.rows.map PivotTableRow.id).Nodup ∧ ∀ id, id ∈ pivot.rows.map PivotTableRow.id ↔
      ∃ row ∈ rows, usagePivotKey row rowDimensions = id := by
  obtain ⟨s, hrun, hrows, -, -, -⟩ := pivotUsageRows_eq_ok h
  have hlabelled : s.Labelled := PivotState.run_keeps (fun s row next h hstep => h.step hstep)
    (fun entry hentry => absurd hentry (Table.not_mem_empty entry)) hrun
  have hkeys := PivotState.run_keys (fun s row next => PivotState.mem_grouped_step) hrun
  rw [hrows, OrderedMap.map_values hlabelled]
  refine ⟨s.grouped.nodup, fun id => (hkeys id).trans (or_iff_right ?_)⟩
  exact List.not_mem_nil

/-- **The columns** have the column keys of the rows of the usage, each once. -/
theorem column_ids
    (h : pivotUsageRows rowDimensions columnDimensions label localeCompare realm rows = .ok pivot) :
    (pivot.columns.map PivotColumn.id).Nodup ∧ ∀ id, id ∈ pivot.columns.map PivotColumn.id ↔
      ∃ row ∈ rows, usagePivotKey row columnDimensions = id := by
  obtain ⟨s, hrun, -, hcolumns, -, -⟩ := pivotUsageRows_eq_ok h
  have hlabelled : s.ColumnsLabelled :=
    PivotState.run_keeps (fun s row next h hstep => h.step hstep)
      (fun entry hentry => absurd hentry (Table.not_mem_empty entry)) hrun
  have hkeys := PivotState.run_keys (fun s row next => PivotState.mem_columns_step) hrun
  have hids := hcolumns.map PivotColumn.id
  rw [OrderedMap.map_values hlabelled] at hids
  refine ⟨hids.nodup_iff.mpr s.columns.nodup, fun id => ?_⟩
  rw [hids.mem_iff, hkeys id]
  exact or_iff_right List.not_mem_nil

/-- Two rows of the usage have the same entry among those with their keys, if the keys agree. -/
theorem exists_entry_iff {ν : Type*} {entries : List ν} {id : ν → String}
    {dimensions : List PivotDimension}
    (hids : ∀ k, k ∈ entries.map id ↔ ∃ row ∈ rows, usagePivotKey row dimensions = k)
    {row : UsageRow} (hrow : row ∈ rows) (other : UsageRow) :
    (∃ entry ∈ entries, id entry = usagePivotKey row dimensions ∧
      id entry = usagePivotKey other dimensions) ↔ LooksAlike dimensions row other := by
  rw [← usagePivotKey_eq_iff]
  constructor
  · rintro ⟨entry, -, hid, hother⟩
    exact hid.symm.trans hother
  · intro heq
    obtain ⟨entry, hmem, hid⟩ := List.mem_map.mp ((hids _).mpr ⟨row, hrow, rfl⟩)
    exact ⟨entry, hmem, hid, hid.trans heq⟩

/-- Rows of the usage share a table row exactly if they look alike. -/
theorem sameTableRow_iff
    (h : pivotUsageRows rowDimensions columnDimensions label localeCompare realm rows = .ok pivot)
    {row other : UsageRow} (hrow : row ∈ rows) :
    pivot.SameTableRow rowDimensions row other ↔ LooksAlike rowDimensions row other :=
  exists_entry_iff (tableRow_ids h).2 hrow other

/-- Rows of the usage share a column exactly if they look alike. -/
theorem sameColumn_iff
    (h : pivotUsageRows rowDimensions columnDimensions label localeCompare realm rows = .ok pivot)
    {row other : UsageRow} (hrow : row ∈ rows) :
    pivot.SameColumn columnDimensions row other ↔ LooksAlike columnDimensions row other :=
  exists_entry_iff (column_ids h).2 hrow other

end Result

/-- **Different users are kept apart**: two rows of the usage share a table row, and a column, if
and only if they are about the same users, consumers, models and dates. -/
def UsagePivot.Separates (rowDimensions columnDimensions : List PivotDimension)
    (rows : List UsageRow) (pivot : UsagePivot) : Prop :=
  ∀ row ∈ rows, ∀ other ∈ rows,
    (pivot.SameTableRow rowDimensions row other ↔ SameIdentity rowDimensions row other) ∧
    (pivot.SameColumn columnDimensions row other ↔ SameIdentity columnDimensions row other)

/-- A pivot keeps users, consumers, models and dates apart exactly if the labels do. -/
theorem separates_iff {rowDimensions columnDimensions : List PivotDimension}
    {label : UsageRow → String} {localeCompare : String → String → Int} {realm : Realm}
    {rows : List UsageRow} {pivot : UsagePivot}
    (h : pivotUsageRows rowDimensions columnDimensions label localeCompare realm rows =
      .ok pivot) :
    pivot.Separates rowDimensions columnDimensions rows ↔
      LabelsIdentify rowDimensions rows ∧ LabelsIdentify columnDimensions rows := by
  constructor
  · intro hseparates
    refine ⟨fun row hrow other hother => ?_, fun row hrow other hother => ?_⟩
    · exact (sameTableRow_iff h hrow).symm.trans (hseparates row hrow other hother).1
    · exact (sameColumn_iff h hrow).symm.trans (hseparates row hrow other hother).2
  · rintro ⟨hrows, hcolumns⟩ row hrow other hother
    exact ⟨(sameTableRow_iff h hrow).trans (hrows row hrow other hother),
      (sameColumn_iff h hrow).trans (hcolumns row hrow other hother)⟩

/-- **The usage pivot** is there and keeps users, consumers, models and dates apart exactly if the
labels do and no row finds a number where its cell is looked up. -/
theorem pivot_separates_iff (rowDimensions columnDimensions : List PivotDimension)
    (label : UsageRow → String) (localeCompare : String → String → Int) (realm : Realm)
    (rows : List UsageRow) :
    (∃ pivot, pivotUsageRows rowDimensions columnDimensions label localeCompare realm rows =
        .ok pivot ∧ pivot.Separates rowDimensions columnDimensions rows) ↔
      FindsNoNumber rowDimensions columnDimensions realm rows ∧
        LabelsIdentify rowDimensions rows ∧ LabelsIdentify columnDimensions rows := by
  rw [← exists_pivot_iff rowDimensions columnDimensions label localeCompare]
  constructor
  · rintro ⟨pivot, hok, hseparates⟩
    exact ⟨⟨pivot, hok⟩, (separates_iff hok).mp hseparates⟩
  · rintro ⟨⟨pivot, hok⟩, hlabels⟩
    exact ⟨pivot, hok, (separates_iff hok).mpr hlabels⟩

/-- A row of the usage of a user who is called Ann. -/
def usageOfAnn (userId date : String) : UsageRow :=
  { usageOfModel userId "m" with userName := some "Ann", date := date }

/-- Two users who are called Ann share their table row. -/
theorem same_name_merges_users :
    ∃ pivot, pivotUsageRows [.user] [.model] UsageRow.model (fun _ _ => 0) pristineRealm
        [usageOfAnn "u1" "2026-07-01", usageOfAnn "u2" "2026-07-01"] = .ok pivot ∧
      pivot.rows.map PivotTableRow.id = ["Ann"] ∧
      pivot.SameTableRow [.user] (usageOfAnn "u1" "2026-07-01") (usageOfAnn "u2" "2026-07-01") ∧
      ¬ SameIdentity [.user] (usageOfAnn "u1" "2026-07-01") (usageOfAnn "u2" "2026-07-01") := by
  refine ⟨_, rfl, rfl, ⟨_, List.mem_singleton_self _, rfl, rfl⟩, ?_⟩
  intro hsame
  have hid : "u1" = "u2" := hsame .user (List.mem_singleton_self _)
  exact absurd hid (by decide)

end OpenAiLb.Web
