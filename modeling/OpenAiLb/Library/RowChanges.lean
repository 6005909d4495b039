import OpenAiLb.Library.SchemaScripts

/-!
# Statements that write rows

An insertion or an update writes the rows of one table. It is carried out when the new rows meet the
constraints of their table. The foreign keys of the database hold afterwards, when those of the new
rows find their target and no value that another table refers to is lost.
-/

namespace Relational

/-- The database with other rows of one table. -/
def Database.withRows (db : Database) (table : String) (rows : List Row) : Database :=
  { db with rows := Function.update db.rows table rows }

/-- No foreign key refers to the table. -/
def Schema.unreferenced (schema : Schema) (table : String) : Bool :=
  schema.all fun entry => entry.2.columns.all fun column =>
    column.references.all fun target => target.1 ≠ table

section Writes

variable {env : Environment} {db : Database} {table : String} {heading : Heading}
  {rows : List Row}

@[simp] theorem Database.withRows_schema (db : Database) (table : String) (rows : List Row) :
    (db.withRows table rows).schema = db.schema := rfl

@[simp] theorem Database.withRows_rows_self (db : Database) (table : String) (rows : List Row) :
    (db.withRows table rows).rows table = rows := Function.update_self ..

/-- Setting the rows of a table leaves the other tables alone. -/
theorem Database.withRows_rows_of_ne {other : String} (h : other ≠ table) (rows : List Row) :
    (db.withRows table rows).rows other = db.rows other := Function.update_of_ne h _ _

/-- The constraints are those of the written table. -/
theorem Database.Valid.withRows (h : db.Valid)
    (hnew : ∀ heading, (table, heading) ∈ db.schema → heading.Valid rows) :
    (db.withRows table rows).Valid := by
  intro entry hentry
  by_cases htable : entry.1 = table
  · subst htable
    rw [Database.withRows_rows_self]
    exact hnew entry.2 hentry
  · rw [Database.withRows_rows_of_ne htable]
    exact h entry hentry

/-- **The foreign keys** hold after a write that keeps the values that other tables refer to. -/
theorem Database.References.withRows (h : db.References)
    (hkept : ∀ entry ∈ db.schema, ∀ column ∈ entry.2.columns, ∀ c,
      column.references = some (table, c) → ∀ row ∈ db.rows table, ∃ row' ∈ rows, row' c = row c)
    (hnew : ∀ heading, (table, heading) ∈ db.schema → ∀ column ∈ heading.columns, ∀ target,
      column.references = some target → ∀ row ∈ rows, row column.name ≠ .null →
        ∃ other ∈ db.rows target.1, other target.2 = row column.name) :
    (db.withRows table rows).References := by
  have hfound : ∀ entry ∈ db.schema, ∀ column ∈ entry.2.columns, ∀ target,
      column.references = some target → ∀ value, (∃ other ∈ db.rows target.1,
        other target.2 = value) →
          ∃ other ∈ (db.withRows table rows).rows target.1, other target.2 = value := by
    rintro entry hentry column hcolumn ⟨other, c⟩ htarget value ⟨found, hfound, rfl⟩
    by_cases hother : other = table
    · subst hother
      rw [Database.withRows_rows_self]
      exact hkept entry hentry column hcolumn c htarget found hfound
    · rw [Database.withRows_rows_of_ne hother]
      exact ⟨found, hfound, rfl⟩
  intro entry hentry column hcolumn target htarget row hrow hvalue
  refine hfound entry hentry column hcolumn target htarget _ ?_
  by_cases htable : entry.1 = table
  · subst htable
    rw [Database.withRows_rows_self] at hrow
    exact hnew entry.2 hentry column hcolumn target htarget row hrow hvalue
  · rw [Database.withRows_rows_of_ne htable] at hrow
    exact h entry hentry column hcolumn target htarget row hrow hvalue

/-- Of the written table the columns that the new rows have as the old ones are kept, and all of
another table. -/
theorem Database.Keeps.withRows {kept : Names}
    (h : ∀ entry ∈ kept, entry.1 = table → ∀ columns : List String, (∀ c ∈ columns, c ∈ entry.2) →
      (rows.map fun row => columns.map row) = (db.rows table).map fun row => columns.map row) :
    db.Keeps kept .same (db.withRows table rows) := by
  intro entry hentry columns hcolumns
  rw [show (Renaming.same.column entry.1) = id from rfl, List.map_id]
  show (((db.withRows table rows).rows entry.1).map fun row => columns.map row) = _
  by_cases htable : entry.1 = table
  · have hsame := h entry hentry htable columns hcolumns
    unfold Database.project
    rw [htable, Database.withRows_rows_self, hsame]
  · rw [Database.withRows_rows_of_ne htable]
    rfl

/-- **A statement that writes a table** is carried out, when the new rows meet its constraints. -/
theorem Statement.exec_of_withRows {statement : Statement} (hnodup : db.schema.tables.Nodup)
    (hheading : (table, heading) ∈ db.schema) (hchecked : statement.checked = some table)
    (hschema : statement.onSchema db.schema = some db.schema)
    (hrows : statement.onRows env db = Function.update db.rows table rows)
    (hnew : heading.Valid rows) :
    statement.exec env db = some (db.withRows table rows) := by
  have hpasses : statement.Passes (db.withRows table rows) := by
    intro other hother found hfound
    obtain rfl := Option.some.inj (hchecked.symm.trans hother)
    obtain rfl := Option.some.inj ((Schema.heading?_of_mem hnodup hheading).symm.trans hfound)
    rw [Database.withRows_rows_self]
    exact hnew
  unfold Statement.exec
  rw [hschema, Option.bind_some, hrows]
  exact if_pos hpasses

/-- A statement that succeeds has changed the schema and written its rows. -/
theorem Statement.of_exec {statement : Statement} {db' : Database}
    (h : statement.exec env db = some db') :
    statement.onSchema db.schema = some db'.schema ∧ db'.rows = statement.onRows env db := by
  obtain ⟨schema, hschema, h⟩ := Option.bind_eq_some_iff.mp h
  rw [Option.ite_none_right_eq_some] at h
  rw [← Option.some.inj h.2]
  exact ⟨hschema, rfl⟩

/-- A script that succeeds has changed the schema. -/
theorem schema_of_run {script : List Statement} {db' : Database}
    (h : run env db script = some db') : schemaAfter db.schema script = some db'.schema := by
  induction script generalizing db with
  | nil => rw [← Option.some.inj h]; rfl
  | cons statement rest ih =>
    obtain ⟨mid, hmid, hrest⟩ := Transition.run_cons_eq_some h
    rw [schemaAfter, Transition.run_cons, (Statement.of_exec hmid).1]
    exact ih hrest

/-- Fewer rows meet the constraints that all of them meet. -/
theorem Heading.Valid.sublist {rows' : List Row} (h : heading.Valid rows)
    (hsub : rows'.Sublist rows) : heading.Valid rows' where
  admits := fun row hrow => h.admits row (hsub.subset hrow)
  key := h.key.sublist (hsub.map _)
  unique := fun index hindex hunique =>
    (h.unique index hindex hunique).sublist (((hsub.filter _).map _).filter _)

/-- `INSERT OR IGNORE` ignores nothing, when all rows together meet the constraints. -/
theorem foldl_insertOrIgnore {inserted : List Row} (h : heading.Valid (rows ++ inserted)) :
    inserted.foldl (Statement.insertOrIgnore heading) rows = rows ++ inserted := by
  induction inserted generalizing rows with
  | nil => rw [List.foldl_nil, List.append_nil]
  | cons row rest ih =>
    have happend : rows ++ row :: rest = (rows ++ [row]) ++ rest := List.append_cons ..
    rw [happend] at h ⊢
    have hfirst : Statement.insertOrIgnore heading rows row = rows ++ [row] :=
      if_pos (h.sublist (List.sublist_append_left ..))
    rw [List.foldl_cons, hfirst]
    exact ih h

/-- The foreign keys do not see a table without references from or to it. -/
theorem Database.References.withRows_of_unreferenced (h : db.References)
    (hto : db.schema.unreferenced table = true)
    (hfrom : ∀ heading, (table, heading) ∈ db.schema →
      ∀ column ∈ heading.columns, column.references = none) :
    (db.withRows table rows).References := by
  refine h.withRows (fun entry hentry column hcolumn c htarget => ?_)
    fun heading hheading column hcolumn target htarget => ?_
  · have hother := List.all_eq_true.mp
      (List.all_eq_true.mp hto entry hentry) column hcolumn
    rw [htarget, Option.all_some] at hother
    simp at hother
  · rw [hfrom heading hheading column hcolumn] at htarget
    cases htarget

end Writes

end Relational
