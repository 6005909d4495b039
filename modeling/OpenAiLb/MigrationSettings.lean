import OpenAiLb.Migrations

/-!
# What an upgrade does to the settings

The settings of a database are rows of one table. A migration inserts a setting, or replaces a value
that is the default of an earlier version; every other statement leaves the settings alone. A part
of an upgrade carries a database when its statements succeed and the rest is as it was.
-/

namespace Migrations

open Relational

/-- The values of the settings. -/
abbrev Settings := String → Option Value

/-- `SELECT value FROM app_meta WHERE key=?`. -/
def setting? (db : Database) : Settings := fun key =>
  if "app_meta" ∈ db.schema.tables then
    ((db.rows "app_meta").find? fun row => row "key" = .text key).map fun row => row "value"
  else none

/-- What an action makes of the settings. -/
def Action.onSettings (s : Settings) : Action → Settings
  | settings defaults => fun key => (s key).or ((defaults.lookup key).map Value.text)
  | setting key value => Function.update s key (some (.text value))
  | rewrite key old new => fun other =>
    if other = key ∧ s other = some (.text old) then some (.text new) else s other
  | _ => s

/-- The settings that an action inserts. -/
def Action.inserted : Action → List String
  | settings defaults => defaults.map Prod.fst
  | setting key _ => [key]
  | _ => []

/-- Where an action brings the tables and columns. -/
def Action.moves : Action → Renaming
  | parts list => Part.path list
  | _ => .same

/-- Where actions bring the tables and columns. -/
def path (actions : List Action) : Renaming :=
  actions.foldr (fun action ρ => action.moves.trans ρ) .same

/-- An action renames tables. -/
def Action.renames : Action → Bool
  | parts list => list.any Part.renames
  | _ => false

/-- The table in which an action writes rows. -/
def Action.written : Action → Option String
  | parts _ => none
  | settings _ => some "app_meta"
  | setting .. => some "app_meta"
  | rewrite .. => some "app_meta"
  | singleRoot => none
  | backfillOwner => some "providers"
  | openCircuits => some "provider_circuit_events"

/-- The actions succeed on a database. The constraints and foreign keys hold afterwards, the kept
columns are read where they went, and the settings are those that the actions make. -/
structure Carries (env : Environment) (actions : List Action) (kept : Names) (db db' : Database) :
    Prop where
  run : run env db (actions.flatMap Action.script) = some db'
  valid : db'.Valid
  references : db'.References
  keeps : db.Keeps kept (path actions) db'
  settings : setting? db' = actions.foldl Action.onSettings (setting? db)
  vacant : ∀ table, (∀ action ∈ actions, action.renames = false ∧ action.written ≠ some table) →
    db.Vacant table → db'.Vacant table

section Carries

variable {env : Environment} {kept : Names} {db db' db'' : Database}

/-- Where two lists of actions take the tables and columns. -/
theorem path_append (first second : List Action) :
    path (first ++ second) = (path first).trans (path second) := by
  induction first with
  | nil => rfl
  | cons action rest ih =>
    show action.moves.trans (path (rest ++ second)) = _
    rw [ih]
    rfl

/-- Nothing needs to be carried when no action is left. -/
theorem Carries.nil (hvalid : db.Valid) (hreferences : db.References) :
    Carries env [] kept db db :=
  ⟨rfl, hvalid, hreferences, .refl kept db, rfl, fun _ _ h => h⟩

/-- One part of an upgrade after the other. -/
theorem Carries.append {first second : List Action} (h : Carries env first kept db db')
    (h' : Carries env second ((path first).names kept) db' db'') :
    Carries env (first ++ second) kept db db'' where
  run := by
    rw [List.flatMap_append]
    exact run_append h.run h'.run
  valid := h'.valid
  references := h'.references
  keeps := by
    rw [path_append]
    exact h.keeps.trans h'.keeps
  settings := by
    rw [List.foldl_append, ← h.settings]
    exact h'.settings
  vacant := fun table hsame hvacant =>
    h'.vacant table (fun action haction => hsame action (List.mem_append_right _ haction))
      (h.vacant table (fun action haction => hsame action (List.mem_append_left _ haction)) hvacant)

end Carries

section Settings

variable {db db' : Database}

/-- Without the table there are no settings. -/
theorem setting?_of_vacant (h : db.Vacant "app_meta") : setting? db = fun _ => none := by
  funext key
  unfold setting?
  split
  · next htable => rw [h htable, List.find?_nil, Option.map_none]
  · rfl

/-- The settings are read off the columns of the table. -/
theorem setting?_of_project (htable : "app_meta" ∈ db.schema.tables)
    (htable' : "app_meta" ∈ db'.schema.tables)
    (h : db'.project "app_meta" ["key", "value"] = db.project "app_meta" ["key", "value"]) :
    setting? db' = setting? db := by
  have hread : ∀ rows : List Row, ∀ key : String,
      ((rows.find? fun row => row "key" = .text key).map fun row => row "value") =
        ((rows.map fun row => ["key", "value"].map row).find? fun values =>
          values.head? = some (.text key)).bind fun values => values[1]? := by
    intro rows key
    rw [List.find?_map, Option.bind_map]
    rw [Option.map_eq_bind]
    congr 2
    funext row
    simp
  funext key
  unfold setting?
  rw [if_pos htable, if_pos htable', hread, hread]
  unfold Database.project at h
  rw [h]

/-- The rows of `app_meta` are valid if their columns are filled in and their keys are different. -/
theorem valid_appMeta_iff {rows : List Row} : appMeta.Valid rows ↔
    (∀ row ∈ rows, row "key" ≠ .null ∧ row "value" ≠ .null ∧ row "updated_at" ≠ .null) ∧
      (rows.map fun row => row "key").Nodup := by
  have hkeys : (rows.map fun row => appMeta.key.map row) =
      (rows.map fun row => row "key").map fun value => [value] := by
    rw [List.map_map]
    rfl
  constructor
  · intro h
    refine ⟨fun row hrow => ?_, ?_⟩
    · have hadmits := h.admits row hrow
      simp only [appMeta, List.forall_mem_cons] at hadmits
      simpa [Column.admits_iff, Column.required, Column.named] using hadmits
    · exact ((hkeys ▸ h.key).of_map _)
  · rintro ⟨hadmits, hkey⟩
    refine ⟨fun row hrow => ?_, ?_, fun index hindex => by cases hindex⟩
    · have hrow := hadmits row hrow
      simp only [appMeta, List.forall_mem_cons]
      simpa [Column.admits_iff, Column.required, Column.named] using hrow
    · rw [hkeys]
      exact hkey.map fun x y h => List.head_eq_of_cons_eq h

end Settings

/-- The row that inserts a setting. -/
def insertedRow (env : Environment) (db : Database) (key value : String) : Row :=
  appMeta.row ((settingRow key value).map fun value =>
    (value.1, value.2.eval env db 0 fun _ => .null))

instance (entry : String × Heading) (schema : Schema) : Decidable (entry ∈ schema) :=
  List.instDecidableMemOfLawfulBEq entry schema

/-- What is needed of a schema to write settings. -/
def writable (schema : Schema) : Bool :=
  schema.tables.Nodup && ("app_meta", appMeta) ∈ schema && schema.unreferenced "app_meta"

section Writes

variable {env : Environment} {kept : Names} {db : Database} {schema : Schema}

@[simp] theorem insertedRow_key (key value : String) :
    insertedRow env db key value "key" = .text key := rfl

@[simp] theorem insertedRow_value (key value : String) :
    insertedRow env db key value "value" = .text value := rfl

/-- A new setting has the time of its insertion. -/
theorem insertedRow_updatedAt (key value : String) :
    insertedRow env db key value "updated_at" = .integer env.now := rfl

/-- **A statement that writes settings** succeeds, when the new rows meet the constraints. -/
theorem carries_of_rows {action : Action} {statement : Statement} {rows : List Row}
    (hwritable : writable db.schema = true) (hvalid : db.Valid) (hreferences : db.References)
    (hkept : ∀ entry ∈ kept, entry.1 ≠ "app_meta") (hscript : action.script = [statement])
    (hmoves : action.moves = .same) (hwritten : action.written = some "app_meta")
    (hchecked : statement.checked = some "app_meta")
    (hschema : statement.onSchema db.schema = some db.schema)
    (hrows : statement.onRows env db = Function.update db.rows "app_meta" rows)
    (hnew : appMeta.Valid rows)
    (hsettings : setting? (db.withRows "app_meta" rows) = action.onSettings (setting? db)) :
    Carries env [action] kept db (db.withRows "app_meta" rows) := by
  unfold writable at hwritable
  simp only [Bool.and_eq_true, decide_eq_true_eq] at hwritable
  obtain ⟨⟨hnodup, hmem⟩, hunreferenced⟩ := hwritable
  have hheading : ∀ heading, ("app_meta", heading) ∈ db.schema → heading = appMeta := by
    intro heading h
    exact (Prod.mk.inj (List.inj_on_of_nodup_map hnodup h hmem rfl)).2
  refine ⟨?_, hvalid.withRows fun heading h => hheading heading h ▸ hnew,
    hreferences.withRows_of_unreferenced hunreferenced fun heading h column hcolumn => ?_, ?_,
    hsettings, fun table htable => ?_⟩
  · have hexec := Statement.exec_of_withRows hnodup hmem hchecked hschema hrows hnew
    rw [List.flatMap_singleton, hscript, Relational.run, Transition.run_cons, hexec]
    rfl
  · rw [hheading heading h] at hcolumn
    revert column
    decide
  · have hpath : path [action] = .same := by
      unfold path
      rw [List.foldr_cons, List.foldr_nil, hmoves]
      rfl
    rw [hpath]
    exact .withRows fun entry hentry htable => absurd htable (hkept entry hentry)
  · have hother := (htable action (List.mem_singleton_self _)).2
    rw [hwritten] at hother
    exact fun hvacant hmem =>
      (Database.withRows_rows_of_ne (fun h => hother (congrArg some h.symm)) _).trans (hvacant hmem)

/-- The settings table, in a schema where settings are written. -/
theorem mem_tables_of_writable (hwritable : writable schema = true) :
    "app_meta" ∈ schema.tables ∧ schema.heading? "app_meta" = some appMeta := by
  unfold writable at hwritable
  simp only [Bool.and_eq_true, decide_eq_true_eq] at hwritable
  exact ⟨List.mem_map_of_mem hwritable.1.2, Schema.heading?_of_mem hwritable.1.1 hwritable.1.2⟩

/-- Settings can be inserted, and the schema stays the same. -/
theorem onSchema_insertSettings (hwritable : writable schema = true)
    (rows : List (String × String)) (orIgnore : Bool) :
    (Statement.insertValues "app_meta" (rows.map fun setting => settingRow setting.1 setting.2)
      orIgnore).onSchema schema = some schema := by
  refine if_pos (List.all_eq_true.mpr fun values hvalues => ?_)
  obtain ⟨setting, -, rfl⟩ := List.mem_map.mp hvalues
  rw [Statement.named, (mem_tables_of_writable hwritable).2]
  rfl

/-- A setting can be rewritten, and the schema stays the same. -/
theorem onSchema_rewriteSetting (hwritable : writable schema = true) (key old new : String) :
    (Statement.update "app_meta" [("value", .literal (.text new)), ("updated_at", .now)]
      (.and (.equals "key" (.text key)) (.equals "value" (.text old)))).onSchema schema =
        some schema := by
  refine if_pos ?_
  rw [Statement.named, (mem_tables_of_writable hwritable).2]
  rfl

/-- A setting is read from the first row with its key. -/
theorem setting?_withRows (hwritable : writable db.schema = true) (rows : List Row) (key : String) :
    setting? (db.withRows "app_meta" rows) key =
      (rows.find? fun row => row "key" = .text key).map fun row => row "value" := by
  unfold setting?
  rw [Database.withRows_schema, if_pos (mem_tables_of_writable hwritable).1,
    Database.withRows_rows_self]

/-- The same of the rows that the table has. -/
theorem setting?_of_writable (hwritable : writable db.schema = true) (key : String) :
    setting? db key =
      ((db.rows "app_meta").find? fun row => row "key" = .text key).map fun row => row "value" :=
  if_pos (mem_tables_of_writable hwritable).1

/-- The constraints of the settings table hold of its rows. -/
theorem valid_settings (hwritable : writable db.schema = true) (hvalid : db.Valid) :
    appMeta.Valid (db.rows "app_meta") := by
  unfold writable at hwritable
  simp only [Bool.and_eq_true, decide_eq_true_eq] at hwritable
  exact hvalid _ hwritable.1.2

/-- **A new setting** is inserted. -/
theorem carries_setting {key value : String} (hwritable : writable db.schema = true)
    (hvalid : db.Valid) (hreferences : db.References)
    (hkept : ∀ entry ∈ kept, entry.1 ≠ "app_meta") (habsent : setting? db key = none) :
    ∃ db', db'.schema = db.schema ∧ Carries env [.setting key value] kept db db' := by
  obtain ⟨-, hheading⟩ := mem_tables_of_writable hwritable
  let rows := db.rows "app_meta" ++ [insertedRow env db key value]
  have hfree : (db.rows "app_meta").find? (fun row => row "key" = .text key) = none := by
    rwa [setting?_of_writable hwritable, Option.map_eq_none_iff] at habsent
  refine ⟨db.withRows "app_meta" rows, rfl, carries_of_rows hwritable hvalid hreferences hkept
    rfl rfl rfl rfl (onSchema_insertSettings hwritable [(key, value)] false) ?_ ?_ ?_⟩
  · rw [Statement.onRows, hheading]
    rfl
  · obtain ⟨hnulls, hkeys⟩ := valid_appMeta_iff.mp (valid_settings hwritable hvalid)
    refine valid_appMeta_iff.mpr ⟨fun row hrow => ?_, ?_⟩
    · rcases List.mem_append.mp hrow with hrow | hrow
      · exact hnulls row hrow
      · obtain rfl := List.mem_singleton.mp hrow
        rw [insertedRow_key, insertedRow_value, insertedRow_updatedAt]
        exact ⟨by simp, by simp, by simp⟩
    · rw [List.map_append, List.map_singleton, insertedRow_key]
      refine List.nodup_append.mpr ⟨hkeys, List.nodup_singleton _, fun x hx y hy => ?_⟩
      obtain ⟨row, hrow, rfl⟩ := List.mem_map.mp hx
      have hother := List.find?_eq_none.mp hfree row hrow
      rw [List.mem_singleton.mp hy]
      simpa using hother
  · funext other
    rw [setting?_withRows hwritable, List.find?_append, Action.onSettings]
    by_cases hother : other = key
    · subst hother
      rw [hfree, Option.none_or, Function.update_self]
      simp
    · rw [Function.update_of_ne hother, setting?_of_writable hwritable]
      simp [Ne.symm hother]

/-- The settings of a new table. -/
theorem carries_settings {defaults : List (String × String)} (hwritable : writable db.schema = true)
    (hvalid : db.Valid) (hreferences : db.References)
    (hkept : ∀ entry ∈ kept, entry.1 ≠ "app_meta") (hempty : db.rows "app_meta" = [])
    (hnodup : (defaults.map Prod.fst).Nodup) :
    ∃ db', db'.schema = db.schema ∧ Carries env [.settings defaults] kept db db' := by
  obtain ⟨-, hheading⟩ := mem_tables_of_writable hwritable
  let rows := defaults.map fun setting => insertedRow env db setting.1 setting.2
  have hrows : appMeta.Valid rows := by
    refine valid_appMeta_iff.mpr ⟨fun row hrow => ?_, ?_⟩
    · obtain ⟨setting, -, rfl⟩ := List.mem_map.mp hrow
      rw [insertedRow_key, insertedRow_value, insertedRow_updatedAt]
      exact ⟨by simp, by simp, by simp⟩
    · rw [List.map_map]
      have hkeys := hnodup.map (f := Value.text) fun x y h => Value.text.inj h
      rwa [List.map_map] at hkeys
  refine ⟨db.withRows "app_meta" rows, rfl, carries_of_rows hwritable hvalid hreferences hkept
    rfl rfl rfl rfl (onSchema_insertSettings hwritable defaults true) ?_ hrows ?_⟩
  · rw [Statement.onRows, hheading]
    dsimp only
    rw [if_pos rfl, hempty, List.map_map, foldl_insertOrIgnore hrows]
    rfl
  · funext key
    rw [setting?_withRows hwritable, Action.onSettings]
    dsimp only
    rw [setting?_of_writable hwritable, hempty, List.find?_nil, Option.map_none, Option.none_or]
    show ((defaults.map _).find? _).map _ = _
    clear hrows hnodup
    induction defaults with
    | nil => rfl
    | cons setting rest ih =>
      rw [List.map_cons, List.find?_cons, List.lookup_cons, insertedRow_key]
      by_cases hkey : key = setting.1
      · rw [hkey, beq_self_eq_true]
        simp
      · rw [beq_eq_false_iff_ne.mpr hkey]
        have hother : ¬Value.text setting.1 = .text key := fun h => hkey (Value.text.inj h).symm
        rw [decide_eq_false hother]
        exact ih

/-- The rows after a default value is replaced. -/
def rewrittenRow (env : Environment) (db : Database) (key old new : String) (row : Row) : Row :=
  if (Condition.and (.equals "key" (.text key)) (.equals "value" (.text old))).holds row then
    fun c => ((List.lookup c [("value", Expr.literal (.text new)), ("updated_at", .now)]).map
      fun value => value.eval env db 0 row).getD (row c)
  else row

/-- Rewriting keeps the key. -/
theorem rewrittenRow_key (key old new : String) (row : Row) :
    rewrittenRow env db key old new row "key" = row "key" := by
  unfold rewrittenRow
  split <;> rfl

/-- Rewriting replaces the one value of the one key. -/
theorem rewrittenRow_value (key old new : String) (row : Row) :
    rewrittenRow env db key old new row "value" =
      if row "key" = .text key ∧ row "value" = .text old then .text new else row "value" := by
  have hholds :
      (Condition.and (.equals "key" (.text key)) (.equals "value" (.text old))).holds row = true ↔
        row "key" = .text key ∧ row "value" = .text old := by
    simp [Condition.holds]
  unfold rewrittenRow
  by_cases h : row "key" = .text key ∧ row "value" = .text old
  · rw [if_pos h, if_pos (hholds.mpr h)]
    rfl
  · rw [if_neg h, if_neg fun h' => h (hholds.mp h')]

/-- Rewriting keeps the time filled in. -/
theorem rewrittenRow_updatedAt {key old new : String} {row : Row} (h : row "updated_at" ≠ .null) :
    rewrittenRow env db key old new row "updated_at" ≠ .null := by
  unfold rewrittenRow
  split
  · show Value.integer env.now ≠ .null
    simp
  · exact h

/-- **The default of an earlier version** is replaced, and no other value. -/
theorem carries_rewrite {key old new : String} (hwritable : writable db.schema = true)
    (hvalid : db.Valid) (hreferences : db.References)
    (hkept : ∀ entry ∈ kept, entry.1 ≠ "app_meta") :
    ∃ db', db'.schema = db.schema ∧ Carries env [.rewrite key old new] kept db db' := by
  let rows := (db.rows "app_meta").map (rewrittenRow env db key old new)
  refine ⟨db.withRows "app_meta" rows, rfl, carries_of_rows hwritable hvalid hreferences hkept
    rfl rfl rfl rfl (onSchema_rewriteSetting hwritable key old new) rfl ?_ ?_⟩
  · obtain ⟨hnulls, hkeys⟩ := valid_appMeta_iff.mp (valid_settings hwritable hvalid)
    refine valid_appMeta_iff.mpr ⟨fun row' hrow' => ?_, ?_⟩
    · obtain ⟨row, hrow, rfl⟩ := List.mem_map.mp hrow'
      obtain ⟨hkey, hvalue, hupdated⟩ := hnulls row hrow
      rw [rewrittenRow_key, rewrittenRow_value]
      refine ⟨hkey, ?_, rewrittenRow_updatedAt hupdated⟩
      split
      · simp
      · exact hvalue
    · rw [List.map_map]
      simpa only [Function.comp_def, rewrittenRow_key] using hkeys
  · funext other
    rw [setting?_withRows hwritable, Action.onSettings]
    dsimp only
    rw [setting?_of_writable hwritable, List.find?_map]
    simp only [Function.comp_def, rewrittenRow_key]
    cases hfound : (db.rows "app_meta").find? fun row => row "key" = .text other with
    | none => simp
    | some row =>
      have hkey : row "key" = .text other := by simpa using List.find?_some hfound
      simp only [Option.map_some, rewrittenRow_value, hkey, Value.text.injEq, Option.some.injEq]
      split <;> rfl

end Writes

end Migrations
