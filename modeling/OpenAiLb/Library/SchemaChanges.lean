import OpenAiLb.Library.Relational
import OpenAiLb.Library.Transition

/-!
# Scripts that change a schema

The statements of a migration: tables and columns are created, renamed and dropped, and rows are
copied and rewritten. A statement is refused when the schema does not allow it or when a constraint
would be violated. Foreign keys are not enforced while a script runs.
-/

namespace Relational

/-- What a statement asks the machine for: the time, and fresh random names by number. -/
structure Environment where
  now : Int
  random : ℕ → String

/-- An expression over a row. -/
inductive Expr where
  | column (name : String)
  | literal (value : Value)
  | now
  | random
  | coalesce (x y : Expr)
  /-- `(SELECT column FROM table WHERE condition)`, of one row. -/
  | select (table column : String) (condition : Condition)
  deriving DecidableEq

/-- The value of an expression on the row with this number. -/
def Expr.eval (env : Environment) (db : Database) (number : ℕ) (row : Row) : Expr → Value
  | column name => row name
  | literal value => value
  | now => .integer env.now
  | random => .text (env.random number)
  | coalesce x y =>
    if x.eval env db number row = .null then y.eval env db number row
    else x.eval env db number row
  | select table c condition =>
    ((db.rows table).find? fun row => condition.holds row).elim .null fun row => row c

/-- A statement. -/
inductive Statement where
  | createTable (name : String) (heading : Heading) (ifNotExists : Bool)
  | dropTable (name : String)
  | renameTable (old new : String)
  | renameColumn (table old new : String)
  | addColumn (table : String) (column : Column)
  | createIndex (table : String) (index : Index) (ifNotExists : Bool)
  | dropIndex (name : String)
  | insertValues (table : String) (rows : List (List (String × Expr))) (orIgnore : Bool)
  | insertSelect (table : String) (values : List (String × Expr)) (source : String)
    (condition : Condition)
  | update (table : String) (values : List (String × Expr)) (condition : Condition)
  deriving DecidableEq

namespace Schema

/-- The names of the tables. -/
def tables (schema : Schema) : List String := schema.map Prod.fst

/-- The table of this name. -/
def heading? (schema : Schema) (table : String) : Option Heading :=
  (schema.find? fun entry => entry.1 = table).map Prod.snd

/-- The names of the indexes. -/
def indexNames (schema : Schema) : List String :=
  schema.flatMap fun entry => entry.2.indexes.map Index.name

/-- The schema with another heading of one table. -/
def modify (schema : Schema) (table : String) (f : Heading → Heading) : Schema :=
  schema.map fun entry => (entry.1, if entry.1 = table then f entry.2 else entry.2)

end Schema

namespace Heading

/-- The heading with renamed columns. -/
def rename (f : String → String) (heading : Heading) : Heading where
  columns := heading.columns.map fun column => { column with name := f column.name }
  key := heading.key.map f
  indexes := heading.indexes.map fun index =>
    { index with columns := index.columns.map f, condition := index.condition.rename f }

/-- The heading with foreign keys to renamed tables and columns. -/
def retarget (ρ : Renaming) (heading : Heading) : Heading :=
  { heading with
    columns := heading.columns.map fun column =>
      { column with
        references := column.references.map fun target =>
          (ρ.table target.1, ρ.column target.1 target.2) } }

/-- A row of these values, with the defaults of the other columns. -/
def row (heading : Heading) (values : List (String × Value)) : Row := fun c =>
  (values.lookup c).getD ((heading.columns.find? fun column => column.name = c).elim .null
    Column.default)

/-- The names of a heading after a renaming. -/
@[simp] theorem names_rename (f : String → String) (heading : Heading) :
    (heading.rename f).names = heading.names.map f := by
  simp [rename, names]

/-- New targets of the references change no name. -/
@[simp] theorem names_retarget (ρ : Renaming) (heading : Heading) :
    (heading.retarget ρ).names = heading.names := by
  simp [retarget, names]

end Heading

/-- The schema with renamed tables and columns. -/
def Schema.rename (ρ : Renaming) (schema : Schema) : Schema :=
  schema.map fun entry => (ρ.table entry.1, (entry.2.rename (ρ.column entry.1)).retarget ρ)

namespace Statement

/-- Where the statement brings the tables and columns. -/
def moves : Statement → Renaming
  | renameTable old new => ⟨fun table => if table = old then new else table, fun _ column => column⟩
  | renameColumn table old new =>
    ⟨id, fun other column => if other = table ∧ column = old then new else column⟩
  | _ => .same

/-- The values of a statement are for columns of the table. -/
def named (schema : Schema) (table : String) (values : List (String × Expr)) : Bool :=
  (schema.heading? table).any fun heading => values.all fun value => value.1 ∈ heading.names

/-- What the statement does to the schema, where it allows the statement. -/
def onSchema (schema : Schema) : Statement → Option Schema
  | createTable name heading ifNotExists =>
    if name ∈ schema.tables then if ifNotExists then some schema else none
    else some (schema ++ [(name, heading)])
  | dropTable name =>
    if name ∈ schema.tables then some (schema.filter fun entry => entry.1 ≠ name) else none
  | renameTable old new =>
    if old ∈ schema.tables ∧ new ∉ schema.tables then
      some (schema.rename (renameTable old new).moves)
    else none
  | renameColumn table old new =>
    if (schema.heading? table).any fun heading => old ∈ heading.names && new ∉ heading.names then
      some (schema.rename (renameColumn table old new).moves)
    else none
  | addColumn table column =>
    if (schema.heading? table).any fun heading => column.name ∉ heading.names &&
        column.admits column.default then
      some (schema.modify table fun heading =>
        { heading with columns := heading.columns ++ [column] })
    else none
  | createIndex table index ifNotExists =>
    if index.name ∈ schema.indexNames then if ifNotExists then some schema else none
    else if (schema.heading? table).any fun heading =>
        (index.columns ++ index.condition.columns).all (· ∈ heading.names) then
      some (schema.modify table fun heading =>
        { heading with indexes := heading.indexes ++ [index] })
    else none
  | dropIndex name =>
    some (schema.map fun entry =>
      (entry.1, { entry.2 with indexes := entry.2.indexes.filter fun index => index.name ≠ name }))
  | insertValues table rows _ => if rows.all (named schema table) then some schema else none
  | insertSelect table values source _ =>
    if named schema table values ∧ source ∈ schema.tables then some schema else none
  | update table values _ => if named schema table values then some schema else none

/-- One row more, or none where it would violate a constraint. -/
def insertOrIgnore (heading : Heading) (rows : List Row) (row : Row) : List Row :=
  if heading.Valid (rows ++ [row]) then rows ++ [row] else rows

/-- What the statement does to the rows. -/
def onRows (env : Environment) (db : Database) : Statement → String → List Row
  | createTable name _ _ =>
    if name ∈ db.schema.tables then db.rows else Function.update db.rows name []
  | dropTable name => Function.update db.rows name []
  | renameTable old new => fun table =>
    if table = new then db.rows old else if table = old then [] else db.rows table
  | renameColumn table old new => Function.update db.rows table ((db.rows table).map fun row c =>
      if c = new then row old else if c = old then .null else row c)
  | addColumn table column => Function.update db.rows table
      ((db.rows table).map fun row => Function.update row column.name column.default)
  | createIndex _ _ _ => db.rows
  | dropIndex _ => db.rows
  | insertValues table rows orIgnore =>
    match db.schema.heading? table with
    | none => db.rows
    | some heading =>
      let inserted := rows.map fun values =>
        heading.row (values.map fun value => (value.1, value.2.eval env db 0 fun _ => .null))
      Function.update db.rows table
        (if orIgnore then inserted.foldl (insertOrIgnore heading) (db.rows table)
        else db.rows table ++ inserted)
  | insertSelect table values source condition =>
    match db.schema.heading? table with
    | none => db.rows
    | some heading =>
      Function.update db.rows table (db.rows table ++
        ((db.rows source).filter fun row => condition.holds row).zipIdx.map fun found =>
          heading.row (values.map fun value => (value.1, value.2.eval env db found.2 found.1)))
  | update table values condition => Function.update db.rows table
      ((db.rows table).map fun row =>
        if condition.holds row then fun c =>
          ((values.lookup c).map fun value => value.eval env db 0 row).getD (row c)
        else row)

/-- The table whose constraints the statement checks. -/
def checked : Statement → Option String
  | createIndex table _ _ => some table
  | insertValues table _ _ => some table
  | insertSelect table _ _ _ => some table
  | update table _ _ => some table
  | _ => none

/-- The checked table meets its constraints. -/
def Passes (statement : Statement) (db : Database) : Prop :=
  ∀ table ∈ statement.checked, ∀ heading ∈ db.schema.heading? table, heading.Valid (db.rows table)

instance (statement : Statement) (db : Database) : Decidable (statement.Passes db) :=
  inferInstanceAs (Decidable (∀ table ∈ statement.checked,
    ∀ heading ∈ db.schema.heading? table, heading.Valid (db.rows table)))

/-- Execute a statement, unless it is refused. -/
def exec (env : Environment) (db : Database) (statement : Statement) : Option Database :=
  (statement.onSchema db.schema).bind fun schema =>
    let after : Database := ⟨schema, statement.onRows env db⟩
    if statement.Passes after then some after else none

end Statement

/-- Execute a script. -/
abbrev run (env : Environment) (db : Database) (script : List Statement) : Option Database :=
  Transition.run (Statement.exec env) db script

/-- What a script does to the schema. -/
abbrev schemaAfter (schema : Schema) (script : List Statement) : Option Schema :=
  Transition.run Statement.onSchema schema script

section Follows

variable {ρ : Renaming} {db db' : Database} {f : String → String} {heading heading' : Heading}
  {rows : List Row}

/-- Rows that a function takes along. -/
theorem RowsFollow.map {φ : Row → Row}
    (h : ∀ row ∈ rows, RowFollows f heading heading' row (φ row)) :
    RowsFollow f heading heading' rows (rows.map φ) := by
  unfold RowsFollow
  rw [List.forall₂_map_right_iff, List.forall₂_same]
  exact h

/-- Rows that stay, under columns with the same names. -/
theorem RowsFollow.same (hf : ∀ c, f c = c) (hnames : heading'.names = heading.names)
    (rows : List Row) : RowsFollow f heading heading' rows rows := by
  unfold RowsFollow
  rw [List.forall₂_same]
  refine fun row _ => ⟨fun c _ => by rw [hf], fun column hcolumn hnew => absurd ?_ hnew⟩
  rw [funext hf]
  show column.name ∈ heading.names.map id
  rw [List.map_id, ← hnames]
  exact List.mem_map_of_mem hcolumn

/-- A table that becomes one of this name, when no other does. -/
theorem source_eq_some (hnodup : (db.schema.map fun entry => ρ.table entry.1).Nodup)
    {entry : String × Heading} (hentry : entry ∈ db.schema) {table : String}
    (htable : ρ.table entry.1 = table) : ρ.source db.schema table = some entry := by
  unfold Renaming.source
  cases hfound : db.schema.find? fun entry => ρ.table entry.1 = table with
  | none => exact absurd (List.find?_eq_none.mp hfound entry hentry) (by simpa using htable)
  | some found =>
    have hsame : ρ.table found.1 = table := by simpa using List.find?_some hfound
    exact congrArg some
      (List.inj_on_of_nodup_map hnodup (List.mem_of_find?_eq_some hfound) hentry
        (hsame.trans htable.symm))

/-- The heading of a table. -/
theorem Schema.heading?_of_mem {schema : Schema} (hnodup : schema.tables.Nodup)
    {entry : String × Heading} (hentry : entry ∈ schema) :
    schema.heading? entry.1 = some entry.2 := by
  have hsource := @source_eq_some .same ⟨schema, fun _ => []⟩ hnodup entry hentry entry.1 rfl
  exact congrArg (Option.map Prod.snd) hsource

/-- Every table of the new schema comes from one that goes there, or is new and empty. -/
theorem Database.follows_of_entries (hnodup : (db.schema.map fun entry => ρ.table entry.1).Nodup)
    (h : ∀ entry' ∈ db'.schema,
      (∃ entry ∈ db.schema, ρ.table entry.1 = entry'.1 ∧
        RowsFollow (ρ.column entry.1) entry.2 entry'.2 (db.rows entry.1) (db'.rows entry'.1)) ∨
      ((∀ entry ∈ db.schema, ρ.table entry.1 ≠ entry'.1) ∧ db'.rows entry'.1 = [])) :
    db.Follows ρ db' := by
  intro entry' hentry'
  rcases h entry' hentry' with ⟨entry, hentry, htable, hrows⟩ | ⟨hnew, hempty⟩
  · rw [source_eq_some hnodup hentry htable]
    exact hrows
  · have hnone : ρ.source db.schema entry'.1 = none :=
      List.find?_eq_none.mpr fun entry hentry => by simpa using hnew entry hentry
    rw [hnone]
    exact hempty

end Follows

namespace Statement

/-- The statement changes the schema and copies no rows. -/
def isChange : Statement → Bool
  | createTable .. => true
  | dropTable .. => true
  | renameTable .. => true
  | renameColumn .. => true
  | addColumn .. => true
  | createIndex .. => true
  | dropIndex .. => true
  | _ => false

section Changes

variable {env : Environment} {db : Database} {schema : Schema}

/-- The tables keep their names, unless one is renamed to a free name. -/
theorem nodup_moves {statement : Statement} (hnodup : db.schema.tables.Nodup)
    (hschema : statement.onSchema db.schema = some schema) :
    (db.schema.map fun entry => statement.moves.table entry.1).Nodup := by
  have hplain : (db.schema.map fun entry => entry.1).Nodup := hnodup
  cases statement with
  | renameTable old new =>
    rw [onSchema, Option.ite_none_right_eq_some] at hschema
    obtain ⟨hfree, -⟩ := hschema
    have hmap : (db.schema.tables.map (renameTable old new).moves.table).Nodup := by
      refine hnodup.map_on fun x hx y hy hsame => ?_
      have hsame : (if x = old then new else x) = if y = old then new else y := hsame
      split at hsame
      · next hold =>
        split at hsame
        · next hold' => rw [hold, hold']
        · exact absurd (hsame ▸ hy) hfree.2
      · split at hsame
        · exact absurd (hsame ▸ hx) hfree.2
        · exact hsame
    rwa [Schema.tables, List.map_map] at hmap
  | _ => exact hplain

/-- **A change of the schema** takes the rows along. -/
theorem follows_of_isChange {statement : Statement} (hchange : statement.isChange = true)
    (hnodup : db.schema.tables.Nodup) (hschema : statement.onSchema db.schema = some schema) :
    db.Follows statement.moves ⟨schema, statement.onRows env db⟩ := by
  refine Database.follows_of_entries (nodup_moves hnodup hschema) ?_
  cases statement with
  | createTable name heading ifNotExists =>
    rw [onSchema] at hschema
    by_cases hname : name ∈ db.schema.tables
    · rw [if_pos hname, Option.ite_none_right_eq_some] at hschema
      obtain rfl := Option.some.inj hschema.2
      intro entry hentry
      refine .inl ⟨entry, hentry, rfl, ?_⟩
      rw [onRows, if_pos hname]
      exact .same (fun _ => rfl) rfl _
    · rw [if_neg hname] at hschema
      obtain rfl := Option.some.inj hschema
      intro entry hentry
      rw [onRows, if_neg hname]
      rcases List.mem_append.mp hentry with hentry | hentry
      · have hne : entry.1 ≠ name := fun h => hname (h ▸ List.mem_map_of_mem hentry)
        refine .inl ⟨entry, hentry, rfl, ?_⟩
        dsimp only
        rw [Function.update_of_ne hne]
        exact .same (fun _ => rfl) rfl _
      · obtain rfl := List.mem_singleton.mp hentry
        refine .inr ⟨fun other hother h => hname ?_, Function.update_self ..⟩
        have h : other.1 = name := h
        exact h ▸ List.mem_map_of_mem hother
  | dropTable name =>
    rw [onSchema, Option.ite_none_right_eq_some] at hschema
    obtain rfl := Option.some.inj hschema.2
    intro entry hentry
    obtain ⟨hentry, hne⟩ := List.mem_filter.mp hentry
    refine .inl ⟨entry, hentry, rfl, ?_⟩
    rw [onRows]
    dsimp only
    rw [Function.update_of_ne (by simpa using hne)]
    exact .same (fun _ => rfl) rfl _
  | renameTable old new =>
    rw [onSchema, Option.ite_none_right_eq_some] at hschema
    obtain ⟨hfree, hschema⟩ := hschema
    obtain rfl := Option.some.inj hschema
    intro entry' hentry'
    obtain ⟨entry, hentry, rfl⟩ := List.mem_map.mp hentry'
    have hne : entry.1 ≠ new := fun h => hfree.2 (h ▸ List.mem_map_of_mem hentry)
    refine .inl ⟨entry, hentry, rfl, ?_⟩
    have hrows : (renameTable old new).onRows env db ((renameTable old new).moves.table entry.1) =
        db.rows entry.1 := by
      show (if (if entry.1 = old then new else entry.1) = new then db.rows old
        else if (if entry.1 = old then new else entry.1) = old then []
          else db.rows (if entry.1 = old then new else entry.1)) = db.rows entry.1
      by_cases hold : entry.1 = old
      · rw [if_pos hold, if_pos rfl, hold]
      · rw [if_neg hold, if_neg hne, if_neg hold]
    dsimp only
    rw [hrows]
    exact .same (fun _ => rfl) (by simp [moves]) _
  | renameColumn table old new =>
    rw [onSchema, Option.ite_none_right_eq_some] at hschema
    obtain ⟨hfree, hschema⟩ := hschema
    obtain rfl := Option.some.inj hschema
    intro entry' hentry'
    obtain ⟨entry, hentry, rfl⟩ := List.mem_map.mp hentry'
    refine .inl ⟨entry, hentry, rfl, ?_⟩
    show RowsFollow _ _ _ (db.rows entry.1) (Function.update db.rows table _ entry.1)
    by_cases htable : entry.1 = table
    · subst htable
      rw [Schema.heading?_of_mem hnodup hentry, Option.any_some, Bool.and_eq_true,
        decide_eq_true_eq, decide_eq_true_eq] at hfree
      rw [Function.update_self]
      refine .map fun row _ => ⟨fun c hc => ?_, fun column hcolumn hnew => absurd ?_ hnew⟩
      · have hne : c ≠ new := fun h => hfree.2 (h ▸ hc)
        by_cases hold : c = old
        · have hmoved : (renameColumn entry.1 old new).moves.column entry.1 c = new :=
            if_pos ⟨rfl, hold⟩
          dsimp only
          rw [hmoved, if_pos rfl, hold]
        · have hmoved : (renameColumn entry.1 old new).moves.column entry.1 c = c :=
            if_neg fun h => hold h.2
          dsimp only
          rw [hmoved, if_neg hne, if_neg hold]
      · rw [← Heading.names_rename, ← Heading.names_retarget]
        exact List.mem_map_of_mem hcolumn
    · rw [Function.update_of_ne htable]
      have hsame : ∀ c, (renameColumn table old new).moves.column entry.1 c = c := fun c =>
        if_neg fun h => htable h.1
      refine .same hsame ?_ _
      rw [Heading.names_retarget, Heading.names_rename, funext hsame, List.map_id']
  | addColumn table column =>
    rw [onSchema, Option.ite_none_right_eq_some] at hschema
    obtain ⟨hfree, hschema⟩ := hschema
    obtain rfl := Option.some.inj hschema
    intro entry' hentry'
    obtain ⟨entry, hentry, rfl⟩ := List.mem_map.mp hentry'
    refine .inl ⟨entry, hentry, rfl, ?_⟩
    show RowsFollow _ _ _ (db.rows entry.1) (Function.update db.rows table _ entry.1)
    by_cases htable : entry.1 = table
    · subst htable
      rw [Schema.heading?_of_mem hnodup hentry, Option.any_some, Bool.and_eq_true,
        decide_eq_true_eq] at hfree
      rw [Function.update_self, if_pos rfl]
      refine .map fun row _ => ⟨fun c hc => ?_, fun new hnew hfresh => ?_⟩
      · have hne : c ≠ column.name := fun h => hfree.1 (h ▸ hc)
        exact Function.update_of_ne hne _ _
      · rcases List.mem_append.mp hnew with hnew | hnew
        · refine absurd ?_ hfresh
          show new.name ∈ entry.2.names.map id
          rw [List.map_id]
          exact List.mem_map_of_mem hnew
        · obtain rfl := List.mem_singleton.mp hnew
          exact Function.update_self ..
    · rw [Function.update_of_ne htable, if_neg htable]
      exact .same (fun _ => rfl) rfl _
  | createIndex table index ifNotExists =>
    rw [onSchema] at hschema
    by_cases hname : index.name ∈ db.schema.indexNames
    · rw [if_pos hname, Option.ite_none_right_eq_some] at hschema
      obtain rfl := Option.some.inj hschema.2
      exact fun entry hentry => .inl ⟨entry, hentry, rfl, .same (fun _ => rfl) rfl _⟩
    · rw [if_neg hname, Option.ite_none_right_eq_some] at hschema
      obtain rfl := Option.some.inj hschema.2
      intro entry' hentry'
      obtain ⟨entry, hentry, rfl⟩ := List.mem_map.mp hentry'
      refine .inl ⟨entry, hentry, rfl, .same (fun _ => rfl) ?_ _⟩
      dsimp only
      split <;> rfl
  | dropIndex name =>
    obtain rfl := Option.some.inj hschema
    intro entry' hentry'
    obtain ⟨entry, hentry, rfl⟩ := List.mem_map.mp hentry'
    exact .inl ⟨entry, hentry, rfl, .same (fun _ => rfl) rfl _⟩
  | _ => cases hchange

/-- **A change of the schema** is carried out, when it keeps the constraints. -/
theorem exec_of_isChange {statement : Statement} (hchange : statement.isChange = true)
    (hnodup : db.schema.tables.Nodup) (hschema : statement.onSchema db.schema = some schema)
    (hcheck : Schema.follows statement.moves db.schema schema = true) (hvalid : db.Valid) :
    statement.exec env db = some ⟨schema, statement.onRows env db⟩ := by
  have hfollows := @follows_of_isChange env _ _ _ hchange hnodup hschema
  have hafter : Database.Valid ⟨schema, statement.onRows env db⟩ := hfollows.valid hcheck hvalid
  have hpasses : statement.Passes ⟨schema, statement.onRows env db⟩ := by
    intro table _ heading hheading
    obtain ⟨entry, hentry, rfl⟩ := Option.map_eq_some_iff.mp hheading
    have hname : entry.1 = table := by simpa using List.find?_some hentry
    exact hname ▸ hafter entry (List.mem_of_find?_eq_some hentry)
  unfold exec
  rw [hschema, Option.bind_some, if_pos hpasses]

end Changes

end Statement

end Relational
