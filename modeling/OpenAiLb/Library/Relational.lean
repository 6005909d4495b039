import Mathlib.Data.List.Forall2
import Mathlib.Data.List.Nodup

/-!
# Tables with named columns

A database is a schema, which gives each table its columns and constraints, and the rows of each
table. A change of the schema renames and adds tables and columns; where the rows follow it, the
constraints and the foreign keys that held before hold afterwards, and what a query reads of the old
columns is read of the new ones.
-/

namespace Relational

/-- A value of a column. -/
inductive Value where
  | null
  | integer (n : Int)
  | text (s : String)
  | blob (bytes : List UInt8)
  deriving DecidableEq

/-- A row gives each column its value. -/
abbrev Row := String → Value

/-- A condition on a row. -/
inductive Condition where
  | always
  | equals (column : String) (value : Value)
  | isNull (column : String)
  | isNotNull (column : String)
  | and (p q : Condition)
  deriving DecidableEq

namespace Condition

/-- The condition holds of the row. Null equals nothing. -/
def holds (row : Row) : Condition → Bool
  | always => true
  | equals column value => value ≠ .null && row column = value
  | isNull column => row column = .null
  | isNotNull column => row column ≠ .null
  | and p q => p.holds row && q.holds row

/-- The columns that it reads. -/
def columns : Condition → List String
  | always => []
  | equals column _ => [column]
  | isNull column => [column]
  | isNotNull column => [column]
  | and p q => p.columns ++ q.columns

/-- The condition on renamed columns. -/
def rename (f : String → String) : Condition → Condition
  | always => always
  | equals column value => equals (f column) value
  | isNull column => isNull (f column)
  | isNotNull column => isNotNull (f column)
  | and p q => and (p.rename f) (q.rename f)

/-- A condition holds of a row under new names as it did before. -/
theorem holds_rename {f : String → String} {row row' : Row} {p : Condition}
    (h : ∀ c ∈ p.columns, row' (f c) = row c) : (p.rename f).holds row' = p.holds row := by
  induction p with
  | always => rfl
  | equals column value =>
    unfold rename holds
    rw [h column (List.mem_singleton_self _)]
  | isNull column =>
    unfold rename holds
    rw [h column (List.mem_singleton_self _)]
  | isNotNull column =>
    unfold rename holds
    rw [h column (List.mem_singleton_self _)]
  | and p q ihp ihq =>
    unfold rename holds
    rw [ihp fun c hc => h c (List.mem_append_left _ hc),
      ihq fun c hc => h c (List.mem_append_right _ hc)]

end Condition

/-- The declaration of a column. `allowed` is a check against a list of values, `references` the
table and column of a foreign key. -/
structure Column where
  name : String
  notNull : Bool
  allowed : Option (List Value)
  default : Value
  references : Option (String × String)
  deriving DecidableEq

namespace Column

/-- A column without constraints. -/
def named (name : String) : Column := ⟨name, false, none, .null, none⟩

/-- `NOT NULL`. -/
def required (column : Column) : Column := { column with notNull := true }

/-- `CHECK(column IN values)`. -/
def oneOf (column : Column) (values : List Value) : Column := { column with allowed := some values }

/-- `DEFAULT value`. -/
def byDefault (column : Column) (value : Value) : Column := { column with default := value }

/-- `REFERENCES table(name)`. -/
def refersTo (column : Column) (table name : String) : Column :=
  { column with references := some (table, name) }

end Column

/-- The column takes the value. A check does not see nulls. -/
def Column.admits (column : Column) (value : Value) : Bool :=
  (!column.notNull || value ≠ .null) &&
    column.allowed.all fun values => value = .null || value ∈ values

/-- A column admits a value that is not null where it must not be, and that is one of the allowed
ones. -/
theorem Column.admits_iff {column : Column} {value : Value} :
    column.admits value = true ↔ (column.notNull = true → value ≠ .null) ∧
      ∀ values, column.allowed = some values → value = .null ∨ value ∈ values := by
  unfold Column.admits
  rw [Bool.and_eq_true, Option.all_eq_true]
  refine and_congr ?_ (forall₂_congr fun values _ => by rw [Bool.or_eq_true, decide_eq_true_eq,
    decide_eq_true_eq])
  cases column.notNull with
  | false => simp
  | true => simp only [Bool.not_true, Bool.false_or, decide_eq_true_eq, forall_const]

/-- An index. A unique one has an entry for each row that meets its condition and has no null in its
columns. -/
structure Index where
  name : String
  columns : List String
  unique : Bool
  condition : Condition
  deriving DecidableEq

/-- The entries of an index. -/
def Index.entries (index : Index) (rows : List Row) : List (List Value) :=
  ((rows.filter fun row => index.condition.holds row).map fun row => index.columns.map row).filter
    fun values => .null ∉ values

/-- The columns of a table, its primary key and its indexes. -/
structure Heading where
  columns : List Column
  key : List String
  indexes : List Index
  deriving DecidableEq

namespace Heading

/-- The names of the columns. -/
def names (heading : Heading) : List String := heading.columns.map Column.name

/-- The constraints of a table on its rows. -/
structure Valid (heading : Heading) (rows : List Row) : Prop where
  admits : ∀ row ∈ rows, ∀ column ∈ heading.columns, column.admits (row column.name) = true
  key : (rows.map fun row => heading.key.map row).Nodup
  unique : ∀ index ∈ heading.indexes, index.unique = true → (index.entries rows).Nodup

instance (heading : Heading) (rows : List Row) : Decidable (heading.Valid rows) :=
  decidable_of_iff
    ((∀ row ∈ rows, ∀ column ∈ heading.columns, column.admits (row column.name) = true) ∧
      (rows.map fun row => heading.key.map row).Nodup ∧
        ∀ index ∈ heading.indexes, index.unique = true → (index.entries rows).Nodup)
    ⟨fun h => ⟨h.1, h.2.1, h.2.2⟩, fun h => ⟨h.1, h.2, h.3⟩⟩

/-- No rows are valid under every heading. -/
theorem valid_nil (heading : Heading) : heading.Valid [] :=
  ⟨fun _ h => absurd h List.not_mem_nil, List.nodup_nil, fun _ _ _ => List.nodup_nil⟩

end Heading

/-- The tables by name. -/
abbrev Schema := List (String × Heading)

/-- A database. -/
structure Database where
  schema : Schema
  rows : String → List Row

namespace Database

/-- Every table meets its constraints. -/
def Valid (db : Database) : Prop := ∀ entry ∈ db.schema, entry.2.Valid (db.rows entry.1)

/-- Every foreign key that is not null finds its row. -/
def References (db : Database) : Prop :=
  ∀ entry ∈ db.schema, ∀ column ∈ entry.2.columns, ∀ target, column.references = some target →
    ∀ row ∈ db.rows entry.1, row column.name ≠ .null →
      ∃ other ∈ db.rows target.1, other target.2 = row column.name

/-- The rows with a foreign key that is not null and finds no row, once for each such key. -/
def violations (db : Database) : List Row :=
  db.schema.flatMap fun entry => entry.2.columns.flatMap fun column =>
    column.references.elim [] fun target => (db.rows entry.1).filter fun row =>
      row column.name ≠ .null &&
        !(db.rows target.1).any fun other => other target.2 = row column.name

/-- Without violations every reference is kept. -/
theorem violations_eq_nil {db : Database} : db.violations = [] ↔ db.References := by
  unfold violations References
  simp only [List.flatMap_eq_nil_iff]
  refine forall₂_congr fun entry _ => forall₂_congr fun column _ => ?_
  cases column.references with
  | none => simp
  | some target => simp [List.filter_eq_nil_iff]

/-- `SELECT columns FROM table`. -/
def project (db : Database) (table : String) (columns : List String) : List (List Value) :=
  (db.rows table).map fun row => columns.map row

end Database

/-- Where a change of the schema brings the tables and their columns. -/
structure Renaming where
  table : String → String
  column : String → String → String

/-- The renaming that changes nothing. -/
def Renaming.same : Renaming := ⟨id, fun _ => id⟩

/-- A row after the change: the old columns have their values, the new ones their defaults. -/
def RowFollows (f : String → String) (heading heading' : Heading) (row row' : Row) : Prop :=
  (∀ c ∈ heading.names, row' (f c) = row c) ∧
    ∀ column ∈ heading'.columns, column.name ∉ heading.names.map f →
      row' column.name = column.default

/-- The rows of a table after the change, one for one. -/
def RowsFollow (f : String → String) (heading heading' : Heading) (rows rows' : List Row) : Prop :=
  List.Forall₂ (RowFollows f heading heading') rows rows'

/-- A column of the new table, with the constraints of an old one or with an admissible default. -/
def Column.follows (f : String → String) (heading : Heading) (column : Column) : Bool :=
  (heading.columns.any fun old =>
    f old.name = column.name && (!column.notNull || old.notNull) &&
      column.allowed.all fun values => old.allowed.any fun before => before.all (· ∈ values)) ||
  (column.name ∉ heading.names.map f && column.admits column.default)

/-- The constraints of the new table are constraints of the old one. -/
def Heading.follows (f : String → String) (heading heading' : Heading) : Bool :=
  (heading'.columns.all fun column => column.follows f heading) &&
    heading'.key = heading.key.map f && heading.key.all (· ∈ heading.names) &&
      heading'.indexes.all fun index =>
        !index.unique ||
          heading.indexes.any fun old =>
            old.unique && index.columns = old.columns.map f &&
              index.condition = old.condition.rename f && old.columns.all (· ∈ heading.names) &&
                old.condition.columns.all (· ∈ heading.names)

section Tables

variable {f : String → String} {heading heading' : Heading} {rows rows' : List Row}

/-- What a query reads of the old columns is read of the new ones. -/
theorem RowsFollow.map_eq (h : RowsFollow f heading heading' rows rows') {columns : List String}
    (hcolumns : ∀ c ∈ columns, c ∈ heading.names) :
    (rows'.map fun row => (columns.map f).map row) = rows.map fun row => columns.map row := by
  induction h with
  | nil => rfl
  | cons hrow _ ih =>
    rw [List.map_cons, List.map_cons, ih, List.map_map]
    congr 1
    exact List.map_congr_left fun c hc => hrow.1 c (hcolumns c hc)

/-- The entries of an index. -/
theorem RowsFollow.entries_eq (h : RowsFollow f heading heading' rows rows') {index old : Index}
    (hcolumns : index.columns = old.columns.map f)
    (hcondition : index.condition = old.condition.rename f)
    (hold : ∀ c ∈ old.columns, c ∈ heading.names)
    (hreads : ∀ c ∈ old.condition.columns, c ∈ heading.names) :
    index.entries rows' = old.entries rows := by
  have hselected : ((rows'.filter fun row => (old.condition.rename f).holds row).map
      fun row => (old.columns.map f).map row) =
        (rows.filter fun row => old.condition.holds row).map fun row => old.columns.map row := by
    induction h with
    | nil => rfl
    | @cons row row' rest rest' hrow _ ih =>
      have hholds : (old.condition.rename f).holds row' = old.condition.holds row :=
        Condition.holds_rename fun c hc => hrow.1 c (hreads c hc)
      have hvalues : (old.columns.map f).map row' = old.columns.map row := by
        rw [List.map_map]
        exact List.map_congr_left fun c hc => hrow.1 c (hold c hc)
      rw [List.filter_cons, List.filter_cons, hholds]
      split
      · rw [List.map_cons, List.map_cons, ih, hvalues]
      · exact ih
  unfold Index.entries
  rw [hcolumns, hcondition, hselected]

/-- A new row comes from an old one. -/
theorem RowsFollow.exists_row (h : RowsFollow f heading heading' rows rows') {row' : Row}
    (hrow' : row' ∈ rows') : ∃ row ∈ rows, RowFollows f heading heading' row row' := by
  induction h with
  | nil => cases hrow'
  | @cons row other rest rest' hrow _ ih =>
    rcases List.mem_cons.mp hrow' with rfl | hrow'
    · exact ⟨row, List.mem_cons_self, hrow⟩
    · obtain ⟨found, hfound, hfollows⟩ := ih hrow'
      exact ⟨found, List.mem_cons_of_mem _ hfound, hfollows⟩

/-- An old row goes on in a new one. -/
theorem RowsFollow.exists_row' (h : RowsFollow f heading heading' rows rows') {row : Row}
    (hrow : row ∈ rows) : ∃ row' ∈ rows', RowFollows f heading heading' row row' := by
  induction h with
  | nil => cases hrow
  | @cons other row' rest rest' hfollows _ ih =>
    rcases List.mem_cons.mp hrow with rfl | hrow
    · exact ⟨row', List.mem_cons_self, hfollows⟩
    · obtain ⟨found, hfound, hfollows⟩ := ih hrow
      exact ⟨found, List.mem_cons_of_mem _ hfound, hfollows⟩

/-- A column that follows an old one admits its values. -/
theorem Column.admits_of_follows {column : Column} {row row' : Row}
    (hcolumn : column.follows f heading = true)
    (hmem : column ∈ heading'.columns) (hrow : RowFollows f heading heading' row row')
    (hadmits : ∀ old ∈ heading.columns, old.admits (row old.name) = true) :
    column.admits (row' column.name) = true := by
  unfold Column.follows at hcolumn
  simp only [Bool.or_eq_true, List.any_eq_true, Bool.and_eq_true, decide_eq_true_eq] at hcolumn
  rcases hcolumn with ⟨old, hold, ⟨hname, hnull⟩, hallowed⟩ | ⟨hnew, hdefault⟩
  · have hvalue : row' column.name = row old.name := by
      rw [← hname]
      exact hrow.1 old.name (List.mem_map_of_mem hold)
    have hadmitted := hadmits old hold
    unfold Column.admits at hadmitted ⊢
    rw [Bool.and_eq_true] at hadmitted ⊢
    rw [hvalue]
    constructor
    · cases hcolumnNull : column.notNull with
      | false => rfl
      | true =>
        have hold : old.notNull = true := by simpa [hcolumnNull] using hnull
        simpa [hold] using hadmitted.1
    · cases hvalues : column.allowed with
      | none => rfl
      | some values =>
        rw [hvalues, Option.all_some, Option.any_eq_true] at hallowed
        obtain ⟨before, hbefore, hsubset⟩ := hallowed
        have hin := hadmitted.2
        rw [hbefore, Option.all_some, Bool.or_eq_true, decide_eq_true_eq, decide_eq_true_eq] at hin
        rw [Option.all_some, Bool.or_eq_true, decide_eq_true_eq, decide_eq_true_eq]
        refine hin.imp_right fun hmem => ?_
        simpa using List.all_eq_true.mp hsubset _ hmem
  · rwa [hrow.2 column hmem hnew]

/-- **The constraints** that held of the old rows hold of the new ones. -/
theorem Heading.Valid.follow (h : heading.Valid rows)
    (hheading : heading.follows f heading' = true)
    (hrows : RowsFollow f heading heading' rows rows') : heading'.Valid rows' := by
  unfold Heading.follows at hheading
  simp only [Bool.and_eq_true, decide_eq_true_eq, List.all_eq_true] at hheading
  obtain ⟨⟨⟨hcolumns, hkey⟩, hnames⟩, hindexes⟩ := hheading
  constructor
  · intro row' hrow' column hcolumn
    obtain ⟨row, hrow, hfollow⟩ := hrows.exists_row hrow'
    exact Column.admits_of_follows (hcolumns column hcolumn) hcolumn hfollow (h.admits row hrow)
  · rw [hkey, hrows.map_eq hnames]
    exact h.key
  · intro index hindex hunique
    have hfollows := hindexes index hindex
    simp only [hunique, Bool.not_true, Bool.false_or, List.any_eq_true, Bool.and_eq_true,
      decide_eq_true_eq, List.all_eq_true] at hfollows
    obtain ⟨old, hold, ⟨⟨⟨hold_unique, hentries⟩, hcondition⟩, hnamed⟩, hreads⟩ := hfollows
    rw [hrows.entries_eq hentries hcondition hnamed hreads]
    exact h.unique old hold hold_unique

end Tables

/-- The table that becomes a table of this name. -/
def Renaming.source (ρ : Renaming) (schema : Schema) (table : String) :
    Option (String × Heading) :=
  schema.find? fun entry => ρ.table entry.1 = table

/-- The foreign key of a column is new and null, or an old one whose target went the same way. -/
def Column.refers (ρ : Renaming) (schema schema' : Schema) (entry : String × Heading)
    (column : Column) : Bool :=
  column.references.all fun target =>
    (column.name ∉ entry.2.names.map (ρ.column entry.1) && column.default = .null) ||
    entry.2.columns.any fun old =>
      ρ.column entry.1 old.name = column.name &&
        old.references.any fun before =>
          ρ.column before.1 before.2 = target.2 && schema'.any (fun other => other.1 = target.1) &&
            (ρ.source schema target.1).any fun found =>
              found.1 = before.1 && before.2 ∈ found.2.names

/-- The new schema has the constraints and the foreign keys of the old one, and none of its own on
old rows. -/
def Schema.follows (ρ : Renaming) (schema schema' : Schema) : Bool :=
  schema'.all fun entry' =>
    match ρ.source schema entry'.1 with
    | some entry => entry.2.follows (ρ.column entry.1) entry'.2 &&
        entry'.2.columns.all fun column => column.refers ρ schema schema' entry
    | none => true

/-- The rows of all tables go where the change of the schema brings them. New tables are empty. -/
def Database.Follows (ρ : Renaming) (db db' : Database) : Prop :=
  ∀ entry' ∈ db'.schema,
    match ρ.source db.schema entry'.1 with
    | some entry =>
      RowsFollow (ρ.column entry.1) entry.2 entry'.2 (db.rows entry.1) (db'.rows entry'.1)
    | none => db'.rows entry'.1 = []

namespace Database.Follows

variable {ρ : Renaming} {db db' : Database}

/-- The rows of a table follow those of the table it comes from. -/
theorem rows (h : Follows ρ db db') {entry entry' : String × Heading}
    (hentry' : entry' ∈ db'.schema) (hsource : ρ.source db.schema entry'.1 = some entry) :
    RowsFollow (ρ.column entry.1) entry.2 entry'.2 (db.rows entry.1) (db'.rows entry'.1) := by
  have hrows := h entry' hentry'
  rwa [hsource] at hrows

/-- **A query** reads of the new tables what it read of the old ones. -/
theorem project_eq (h : Follows ρ db db') {entry entry' : String × Heading}
    (hentry' : entry' ∈ db'.schema) (hsource : ρ.source db.schema entry'.1 = some entry)
    {columns : List String} (hcolumns : ∀ c ∈ columns, c ∈ entry.2.names) :
    db'.project entry'.1 (columns.map (ρ.column entry.1)) = db.project entry.1 columns :=
  (h.rows hentry' hsource).map_eq hcolumns

/-- **The constraints** survive the change. -/
theorem valid (h : Follows ρ db db') (hcheck : Schema.follows ρ db.schema db'.schema = true)
    (hvalid : db.Valid) : db'.Valid := by
  intro entry' hentry'
  have hentry := List.all_eq_true.mp hcheck entry' hentry'
  cases hsource : ρ.source db.schema entry'.1 with
  | none =>
    have hempty := h entry' hentry'
    rw [hsource] at hempty
    have hempty : db'.rows entry'.1 = [] := hempty
    rw [hempty]
    exact entry'.2.valid_nil
  | some entry =>
    rw [hsource] at hentry
    have hmem : entry ∈ db.schema := List.mem_of_find?_eq_some hsource
    exact (hvalid entry hmem).follow (Bool.and_eq_true_iff.mp hentry).1 (h.rows hentry' hsource)

/-- **The foreign keys** survive the change. -/
theorem references (h : Follows ρ db db') (hcheck : Schema.follows ρ db.schema db'.schema = true)
    (hreferences : db.References) : db'.References := by
  intro entry' hentry' column hcolumn target htarget row' hrow' hvalue
  have hentry := List.all_eq_true.mp hcheck entry' hentry'
  cases hsource : ρ.source db.schema entry'.1 with
  | none =>
    have hempty := h entry' hentry'
    rw [hsource] at hempty
    have hempty : db'.rows entry'.1 = [] := hempty
    rw [hempty] at hrow'
    cases hrow'
  | some entry =>
    rw [hsource] at hentry
    obtain ⟨row, hrow, hfollow⟩ := (h.rows hentry' hsource).exists_row hrow'
    have hrefers := List.all_eq_true.mp (Bool.and_eq_true_iff.mp hentry).2 column hcolumn
    unfold Column.refers at hrefers
    simp only [htarget, Option.all_some, Bool.or_eq_true, Bool.and_eq_true, decide_eq_true_eq,
      List.any_eq_true, Option.any_eq_true] at hrefers
    rcases hrefers with ⟨hnew, hdefault⟩ |
      ⟨old, hold, hname, before, hbefore, ⟨hcolumn', other', hother', htable⟩, found, hfound, hkey⟩
    · exact absurd ((hfollow.2 column hcolumn hnew).trans hdefault) hvalue
    · have hkept : row' column.name = row old.name := by
        rw [← hname]
        exact hfollow.1 old.name (List.mem_map_of_mem hold)
      obtain ⟨other, hother, hreferred⟩ := hreferences entry (List.mem_of_find?_eq_some hsource)
        old hold before hbefore row hrow (hkept ▸ hvalue)
      rw [← htable] at hfound
      obtain ⟨row'', hrow'', hfollow'⟩ :=
        (h.rows hother' hfound).exists_row' (hkey.1 ▸ hother)
      refine ⟨row'', htable ▸ hrow'', ?_⟩
      rw [← hcolumn', ← hkey.1, hfollow'.1 before.2 hkey.2, hreferred, hkept]

end Database.Follows

end Relational
