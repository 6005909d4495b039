import OpenAiLb.Library.SchemaChanges

/-!
# Parts of migration scripts

Some scripts change a table in ways that one statement cannot: a table with other constraints is
created, filled with the rows of the old one and renamed, and a new table gets its indexes. These
parts take the rows along as single statements do. Rows that a script writes are checked by the
constraints of their table alone; what they mean for foreign keys is shown here.
-/

namespace Relational

/-- `CREATE TABLE temporary`, `INSERT INTO temporary SELECT * FROM table`, `DROP TABLE table` and
`ALTER TABLE temporary RENAME TO table`. -/
def rebuild (table temporary : String) (heading : Heading) : List Statement :=
  [.createTable temporary heading false,
    .insertSelect temporary (heading.names.map fun c => (c, .column c)) table .always,
    .dropTable table,
    .renameTable temporary table]

/-- `CREATE TABLE table` and `CREATE INDEX index ON table`. -/
def newTable (table : String) (heading : Heading) (indexes : List Index) : List Statement :=
  .createTable table heading false :: indexes.map fun index => .createIndex table index false

section Parts

variable {env : Environment} {db : Database} {schema : Schema} {table : String}

/-- Scripts run one after the other. -/
theorem run_append {first second : List Statement} {mid after : Database}
    (hfirst : run env db first = some mid) (hsecond : run env mid second = some after) :
    run env db (first ++ second) = some after := by
  have happend := Transition.run_append (Statement.exec env) db first second
  rw [show Transition.run (Statement.exec env) db first = some mid from hfirst] at happend
  exact happend.trans hsecond

/-- The value of a column in a row that is built from a function. -/
theorem lookup_map_self {α : Type*} {names : List String} {f : String → α} {c : String}
    (hc : c ∈ names) : (names.map fun name => (name, f name)).lookup c = some (f c) := by
  induction names with
  | nil => cases hc
  | cons name rest ih =>
    rw [List.map_cons, List.lookup_cons]
    by_cases hname : c = name
    · rw [hname, beq_self_eq_true]
    · rw [beq_eq_false_iff_ne.mpr hname]
      exact ih ((List.mem_cons.mp hc).resolve_left hname)

/-- A copied row has the values of the old one. -/
theorem row_copy {heading : Heading} {row : Row} {c : String} (hc : c ∈ heading.names) :
    heading.row (heading.names.map fun name => (name, row name)) c = row c := by
  unfold Heading.row
  rw [lookup_map_self hc, Option.getD_some]

/-- The rows that a copy inserts. -/
theorem copied_rows (heading : Heading) (rows : List Row) :
    ((rows.filter fun row => Condition.always.holds row).zipIdx.map fun found =>
      heading.row ((heading.names.map fun c => (c, Expr.column c)).map fun value =>
        (value.1, value.2.eval env db found.2 found.1))) =
      rows.map fun row => heading.row (heading.names.map fun c => (c, row c)) := by
  have hfirst : ∀ φ : Row → Row, (rows.zipIdx.map fun found => φ found.1) = rows.map φ := by
    intro φ
    rw [← List.zipIdx_map_fst 0 rows, List.map_map, List.zipIdx_map_fst]
    rfl
  have hall : (rows.filter fun row => Condition.always.holds row) = rows :=
    List.filter_eq_self.mpr fun _ _ => rfl
  rw [hall, ← hfirst]
  refine List.map_congr_left fun found _ => ?_
  rw [List.map_map]
  rfl

/-- A new table with its indexes: the rows of the other tables stay, and it is empty. -/
theorem run_indexes {indexes : List Index} (hempty : db.rows table = [])
    (hschema : schemaAfter db.schema (indexes.map fun index => .createIndex table index false) =
      some schema) :
    run env db (indexes.map fun index => .createIndex table index false) =
      some ⟨schema, db.rows⟩ ∧
    ∀ entry' ∈ schema, ∃ entry ∈ db.schema,
      entry.1 = entry'.1 ∧ entry'.2.names = entry.2.names := by
  induction indexes generalizing db with
  | nil =>
    obtain rfl := Option.some.inj hschema
    exact ⟨rfl, fun entry hentry => ⟨entry, hentry, rfl, rfl⟩⟩
  | cons index rest ih =>
    obtain ⟨mid, hmid, hrest⟩ := Transition.run_cons_eq_some hschema
    have hexec : (Statement.createIndex table index false).exec env db = some ⟨mid, db.rows⟩ := by
      have hpasses : (Statement.createIndex table index false).Passes ⟨mid, db.rows⟩ := by
        rintro other ⟨⟩ heading -
        dsimp only
        rw [hempty]
        exact heading.valid_nil
      unfold Statement.exec
      rw [hmid, Option.bind_some]
      exact if_pos hpasses
    obtain ⟨hrun, hentries⟩ := @ih ⟨mid, db.rows⟩ hempty hrest
    constructor
    · rw [List.map_cons, run, Transition.run_cons, hexec]
      exact hrun
    · intro entry' hentry'
      obtain ⟨entry, hentry, hname, hnames⟩ := hentries entry' hentry'
      rw [Statement.onSchema] at hmid
      split at hmid
      · cases hmid
      · rw [Option.ite_none_right_eq_some] at hmid
        obtain rfl := Option.some.inj hmid.2
        obtain ⟨first, hfirst, rfl⟩ := List.mem_map.mp hentry
        refine ⟨first, hfirst, hname, hnames.trans ?_⟩
        dsimp only
        split <;> rfl

/-- **A new table** with its indexes is empty; the rows of the other tables stay. -/
theorem run_newTable {heading : Heading} {indexes : List Index} (hnodup : db.schema.tables.Nodup)
    (hschema : schemaAfter db.schema (newTable table heading indexes) = some schema) :
    ∃ db', run env db (newTable table heading indexes) = some db' ∧ db'.schema = schema ∧
      db.Follows .same db' := by
  obtain ⟨created, hcreated, hindexes⟩ := Transition.run_cons_eq_some hschema
  have hname : table ∉ db.schema.tables := by
    intro hmem
    rw [Statement.onSchema, if_pos hmem] at hcreated
    cases hcreated
  have hcreate : created = db.schema ++ [(table, heading)] := by
    rw [Statement.onSchema, if_neg hname] at hcreated
    exact (Option.some.inj hcreated).symm
  subst hcreate
  let after : Database :=
    ⟨db.schema ++ [(table, heading)], Function.update db.rows table []⟩
  have hexec : (Statement.createTable table heading false).exec env db = some after := by
    unfold Statement.exec
    rw [hcreated, Option.bind_some, if_pos (by rintro other ⟨⟩), Statement.onRows, if_neg hname]
  obtain ⟨hrun, hentries⟩ :=
    @run_indexes env after _ table indexes (Function.update_self ..) hindexes
  refine ⟨⟨schema, after.rows⟩, ?_, rfl, Database.follows_of_entries hnodup ?_⟩
  · rw [newTable, run, Transition.run_cons, hexec]
    exact hrun
  · intro entry' hentry'
    obtain ⟨entry, hentry, hsame, hnames⟩ := hentries entry' hentry'
    rcases List.mem_append.mp hentry with hentry | hentry
    · have hne : entry'.1 ≠ table := fun h => hname (h ▸ hsame ▸ List.mem_map_of_mem hentry)
      refine .inl ⟨entry, hentry, hsame, ?_⟩
      show RowsFollow _ _ _ (db.rows entry.1) (Function.update db.rows table [] entry'.1)
      rw [Function.update_of_ne hne, hsame]
      exact .same (fun _ => rfl) hnames _
    · obtain rfl := List.mem_singleton.mp hentry
      refine .inr ⟨fun other hother h => hname ?_, ?_⟩
      · have h : other.1 = table := h.trans hsame.symm
        exact h ▸ List.mem_map_of_mem hother
      · show Function.update db.rows table [] entry'.1 = []
        rw [← hsame, Function.update_self]

/-- The rows of a rebuilt table. -/
theorem rowsFollow_copy {old heading heading' : Heading}
    (hsame : ∀ c, c ∈ old.names ↔ c ∈ heading.names) (hnames : heading'.names = heading.names)
    (rows : List Row) :
    RowsFollow id old heading' rows
      (rows.map fun row => heading.row (heading.names.map fun c => (c, row c))) := by
  refine .map fun row _ => ⟨fun c hc => row_copy ((hsame c).mp hc), fun column hcolumn hnew => ?_⟩
  refine absurd ?_ hnew
  rw [List.map_id, hsame, ← hnames]
  exact List.mem_map_of_mem hcolumn

/-- **A rebuilt table** has the rows of the old one under the new constraints. -/
theorem run_rebuild {temporary : String} {old heading : Heading} (hnodup : db.schema.tables.Nodup)
    (hvalid : db.Valid) (hold : (table, old) ∈ db.schema)
    (hcheck : old.follows id heading = true) (hsame : ∀ c, c ∈ old.names ↔ c ∈ heading.names)
    (hschema : schemaAfter db.schema (rebuild table temporary heading) = some schema) :
    ∃ db', run env db (rebuild table temporary heading) = some db' ∧ db'.schema = schema ∧
      db.Follows .same db' := by
  obtain ⟨created, hcreated, hschema⟩ := Transition.run_cons_eq_some hschema
  obtain ⟨copied, hcopied, hschema⟩ := Transition.run_cons_eq_some hschema
  obtain ⟨dropped, hdropped, hschema⟩ := Transition.run_cons_eq_some hschema
  obtain ⟨renamed, hrenamed, hschema⟩ := Transition.run_cons_eq_some hschema
  obtain rfl := Option.some.inj hschema
  have htable : table ∈ db.schema.tables := List.mem_map_of_mem hold
  have hfree : temporary ∉ db.schema.tables := by
    intro hmem
    rw [Statement.onSchema, if_pos hmem] at hcreated
    cases hcreated
  have hne : table ≠ temporary := fun h => hfree (h ▸ htable)
  have hcreate : created = db.schema ++ [(temporary, heading)] := by
    rw [Statement.onSchema, if_neg hfree] at hcreated
    exact (Option.some.inj hcreated).symm
  have hcopy : copied = created := by
    rw [Statement.onSchema, Option.ite_none_right_eq_some] at hcopied
    exact (Option.some.inj hcopied.2).symm
  have hdrop : dropped = created.filter fun entry => entry.1 ≠ table := by
    rw [Statement.onSchema, Option.ite_none_right_eq_some, hcopy] at hdropped
    exact (Option.some.inj hdropped.2).symm
  have hrename : renamed = dropped.rename (Statement.renameTable temporary table).moves := by
    rw [Statement.onSchema, Option.ite_none_right_eq_some] at hrenamed
    exact (Option.some.inj hrenamed.2).symm
  subst hcreate hcopy
  have hnodup' : (db.schema ++ [(temporary, heading)]).tables.Nodup := by
    rw [Schema.tables, List.map_append]
    refine List.nodup_append.mpr ⟨hnodup, List.nodup_singleton _, fun x hx y hy h => ?_⟩
    have hx' : x = temporary := h.trans (List.mem_singleton.mp hy)
    exact hfree (hx' ▸ hx)
  have hheading : Schema.heading? (db.schema ++ [(temporary, heading)]) temporary = some heading :=
    Schema.heading?_of_mem hnodup' (List.mem_append_right _ (List.mem_singleton_self _))
  let copy := (db.rows table).map fun row => heading.row (heading.names.map fun c => (c, row c))
  let empty : Database :=
    ⟨db.schema ++ [(temporary, heading)], Function.update db.rows temporary []⟩
  let filled : Database := ⟨empty.schema, Function.update empty.rows temporary copy⟩
  let single : Database := ⟨dropped, Function.update filled.rows table []⟩
  have hcreateExec : (Statement.createTable temporary heading false).exec env db = some empty := by
    unfold Statement.exec
    rw [hcreated, Option.bind_some, if_pos (by rintro other ⟨⟩), Statement.onRows, if_neg hfree]
  have hrows : (Statement.insertSelect temporary (heading.names.map fun c => (c, .column c)) table
      .always).onRows env empty = filled.rows := by
    have hsource : empty.rows table = db.rows table := Function.update_of_ne hne _ _
    have htarget : empty.rows temporary = [] := Function.update_self ..
    rw [Statement.onRows, hheading]
    dsimp only
    rw [copied_rows, hsource, htarget]
    rfl
  have hfillExec : (Statement.insertSelect temporary (heading.names.map fun c => (c, .column c))
      table .always).exec env empty = some filled := by
    have hpasses : (Statement.insertSelect temporary (heading.names.map fun c => (c, .column c))
        table .always).Passes filled := by
      rintro other ⟨⟩ found hfound
      obtain rfl := Option.some.inj (hheading.symm.trans hfound)
      show heading.Valid (Function.update empty.rows temporary copy temporary)
      rw [Function.update_self]
      exact (hvalid _ hold).follow hcheck (rowsFollow_copy hsame rfl _)
    unfold Statement.exec
    rw [hcopied, Option.bind_some, hrows]
    exact if_pos hpasses
  have hdropExec : (Statement.dropTable table).exec env filled = some single := by
    unfold Statement.exec
    rw [hdropped, Option.bind_some, if_pos (by rintro other ⟨⟩), Statement.onRows]
  let final : Database := ⟨renamed, (Statement.renameTable temporary table).onRows env single⟩
  have hrenameExec : (Statement.renameTable temporary table).exec env single = some final := by
    unfold Statement.exec
    rw [hrenamed, Option.bind_some, if_pos (by rintro other ⟨⟩)]
  refine ⟨final, ?_, rfl, Database.follows_of_entries hnodup ?_⟩
  · rw [rebuild, run, Transition.run_cons, hcreateExec, Option.bind_some, Transition.run_cons,
      hfillExec, Option.bind_some, Transition.run_cons, hdropExec, Option.bind_some,
      Transition.run_cons, hrenameExec]
    rfl
  · intro entry' hentry'
    rw [show final.schema = renamed from rfl, hrename, hdrop] at hentry'
    obtain ⟨entry, hentry, rfl⟩ := List.mem_map.mp hentry'
    obtain ⟨hentry, hother⟩ := List.mem_filter.mp hentry
    have hother : entry.1 ≠ table := by simpa using hother
    rcases List.mem_append.mp hentry with hentry | hentry
    · have hkept : entry.1 ≠ temporary := fun h => hfree (h ▸ List.mem_map_of_mem hentry)
      have hname : (Statement.renameTable temporary table).moves.table entry.1 = entry.1 :=
        if_neg hkept
      refine .inl ⟨entry, hentry, hname.symm, ?_⟩
      have hrows : final.rows entry.1 = db.rows entry.1 := by
        show (if entry.1 = table then single.rows temporary
          else if entry.1 = temporary then [] else single.rows entry.1) = db.rows entry.1
        rw [if_neg hother, if_neg hkept]
        show Function.update filled.rows table [] entry.1 = db.rows entry.1
        rw [Function.update_of_ne hother]
        show Function.update empty.rows temporary copy entry.1 = db.rows entry.1
        rw [Function.update_of_ne hkept]
        exact Function.update_of_ne hkept _ _
      rw [hname, hrows]
      exact .same (fun _ => rfl) (by simp [Statement.moves]) _
    · obtain rfl := List.mem_singleton.mp hentry
      have hname : (Statement.renameTable temporary table).moves.table temporary = table :=
        if_pos rfl
      refine .inl ⟨(table, old), hold, hname.symm, ?_⟩
      have hrows : final.rows table = copy := by
        show (if table = table then single.rows temporary
          else if table = temporary then [] else single.rows table) = copy
        rw [if_pos rfl]
        show Function.update filled.rows table [] temporary = copy
        rw [Function.update_of_ne hne.symm]
        exact Function.update_self ..
      dsimp only
      rw [hname, hrows]
      exact rowsFollow_copy hsame (by simp [Statement.moves]) _

end Parts

/-- Tables and columns that are read. -/
abbrev Names := List (String × List String)

/-- All of these names are among the others. -/
def Within (fewer names : Names) : Prop :=
  ∀ entry ∈ fewer, ∃ found ∈ names, found.1 = entry.1 ∧ ∀ c ∈ entry.2, c ∈ found.2

instance (fewer names : Names) : Decidable (Within fewer names) :=
  inferInstanceAs (Decidable (∀ entry ∈ fewer, ∃ found ∈ names, found.1 = entry.1 ∧
    ∀ c ∈ entry.2, c ∈ found.2))

/-- The names after a renaming. -/
def Renaming.names (ρ : Renaming) (kept : Names) : Names :=
  kept.map fun entry => (ρ.table entry.1, entry.2.map (ρ.column entry.1))

/-- One renaming after the other. -/
def Renaming.trans (ρ ρ' : Renaming) : Renaming where
  table := fun table => ρ'.table (ρ.table table)
  column := fun table c => ρ'.column (ρ.table table) (ρ.column table c)

/-- The schema has these tables and columns. -/
def Schema.covers (schema : Schema) (kept : Names) : Bool :=
  kept.all fun entry => (schema.heading? entry.1).any fun heading =>
    entry.2.all (· ∈ heading.names)

/-- What was read of these tables is read under their new names. -/
def Database.Keeps (kept : Names) (ρ : Renaming) (db db' : Database) : Prop :=
  ∀ entry ∈ kept, ∀ columns : List String, (∀ c ∈ columns, c ∈ entry.2) →
    db'.project (ρ.table entry.1) (columns.map (ρ.column entry.1)) = db.project entry.1 columns

section Keeps

variable {kept : Names} {ρ ρ' : Renaming} {db db' db'' : Database}

/-- A schema that covers the names has their table with their columns. -/
theorem Schema.exists_of_covers {schema : Schema} (h : schema.covers kept = true)
    {entry : String × List String} (hentry : entry ∈ kept) :
    ∃ heading, (entry.1, heading) ∈ schema ∧ ∀ c ∈ entry.2, c ∈ heading.names := by
  obtain ⟨heading, hheading, hcolumns⟩ :=
    (Option.any_eq_true _ _).mp (List.all_eq_true.mp h entry hentry)
  obtain ⟨found, hfound, rfl⟩ := Option.map_eq_some_iff.mp hheading
  have hname : found.1 = entry.1 := by simpa using List.find?_some hfound
  exact ⟨found.2, hname ▸ List.mem_of_find?_eq_some hfound, by simpa using hcolumns⟩

/-- Names are within themselves. -/
theorem Within.refl (names : Names) : Within names names := fun entry hentry =>
  ⟨entry, hentry, rfl, fun _ hc => hc⟩

/-- Being within is transitive. -/
theorem Within.trans {first second third : Names} (h : Within first second)
    (h' : Within second third) : Within first third := by
  intro entry hentry
  obtain ⟨found, hfound, hname, hcolumns⟩ := h entry hentry
  obtain ⟨last, hlast, hname', hcolumns'⟩ := h' found hfound
  exact ⟨last, hlast, hname'.trans hname, fun c hc => hcolumns' c (hcolumns c hc)⟩

/-- Renaming keeps names within each other. -/
theorem Within.names {fewer names : Names} (h : Within fewer names) (ρ : Renaming) :
    Within (ρ.names fewer) (ρ.names names) := by
  intro entry' hentry'
  obtain ⟨entry, hentry, rfl⟩ := List.mem_map.mp hentry'
  obtain ⟨found, hfound, hname, hcolumns⟩ := h entry hentry
  refine ⟨_, List.mem_map_of_mem hfound, congrArg ρ.table hname, fun c hc => ?_⟩
  obtain ⟨c, hmem, rfl⟩ := List.mem_map.mp hc
  rw [hname]
  exact List.mem_map_of_mem (hcolumns c hmem)

/-- A database keeps all its rows. -/
theorem Database.Keeps.refl (kept : Names) (db : Database) : db.Keeps kept .same db := by
  intro entry _ columns _
  rw [show (Renaming.same.column entry.1) = id from rfl, List.map_id]
  rfl

/-- Renaming twice. -/
theorem Renaming.names_trans (ρ ρ' : Renaming) (kept : Names) :
    (ρ.trans ρ').names kept = ρ'.names (ρ.names kept) := by
  unfold Renaming.names
  rw [List.map_map]
  refine List.map_congr_left fun entry _ => ?_
  dsimp only [Function.comp]
  rw [List.map_map]
  rfl

/-- One script after the other. -/
theorem Database.Keeps.trans (h : Database.Keeps kept ρ db db')
    (h' : Database.Keeps (ρ.names kept) ρ' db' db'') :
    Database.Keeps kept (ρ.trans ρ') db db'' := by
  intro entry hentry columns hcolumns
  have hlater := h' _ (List.mem_map_of_mem hentry) (columns.map (ρ.column entry.1)) fun c hc => by
    obtain ⟨c, hmem, rfl⟩ := List.mem_map.mp hc
    exact List.mem_map_of_mem (hcolumns c hmem)
  rw [List.map_map] at hlater
  exact hlater.trans (h entry hentry columns hcolumns)

/-- Rows that go where a change of the schema brings them are read there. -/
theorem Database.Follows.keeps (h : Database.Follows ρ db db')
    (hnodup : (db.schema.map fun entry => ρ.table entry.1).Nodup)
    (hcovers : db.schema.covers kept = true) (hcovers' : db'.schema.covers (ρ.names kept) = true) :
    Database.Keeps kept ρ db db' := by
  intro entry hentry columns hcolumns
  obtain ⟨heading, hheading, hnames⟩ := Schema.exists_of_covers hcovers hentry
  obtain ⟨heading', hheading', -⟩ :=
    Schema.exists_of_covers hcovers' (List.mem_map_of_mem hentry)
  exact h.project_eq hheading' (source_eq_some hnodup hheading rfl) fun c hc =>
    hnames c (hcolumns c hc)

/-- Fewer names are kept when more are. -/
theorem Database.Keeps.mono (h : Database.Keeps kept ρ db db') {fewer : Names}
    (hfewer : Within fewer kept) : Database.Keeps fewer ρ db db' := by
  intro entry hentry columns hcolumns
  obtain ⟨found, hfound, hname, hnames⟩ := hfewer entry hentry
  have hkept := h found hfound columns fun c hc => hnames c (hcolumns c hc)
  rwa [hname] at hkept

/-- The table does not exist or has no rows. -/
def Database.Vacant (db : Database) (table : String) : Prop :=
  table ∈ db.schema.tables → db.rows table = []

/-- A table that is not there before is empty afterwards. -/
theorem Database.Follows.vacant (h : Database.Follows ρ db db') (hsame : ρ.table = id)
    {table : String} (hvacant : db.Vacant table) : db'.Vacant table := by
  intro htable
  obtain ⟨entry', hentry', rfl⟩ := List.mem_map.mp htable
  have hrows := h entry' hentry'
  cases hsource : ρ.source db.schema entry'.1 with
  | none => rwa [hsource] at hrows
  | some entry =>
    rw [hsource] at hrows
    have hname : entry.1 = entry'.1 := by simpa [hsame] using List.find?_some hsource
    have hempty : db.rows entry.1 = [] := by
      rw [hname]
      exact hvacant (hname ▸ List.mem_map_of_mem (List.mem_of_find?_eq_some hsource))
    dsimp only at hrows
    rw [hempty] at hrows
    exact List.forall₂_nil_left_iff.mp hrows

end Keeps

/-- A part of a script that takes the rows along. -/
inductive Part where
  | change (statement : Statement)
  | newTable (table : String) (heading : Heading) (indexes : List Index)
  | rebuild (table temporary : String) (heading : Heading)

namespace Part

/-- Its statements. -/
def script : Part → List Statement
  | change statement => [statement]
  | newTable table heading indexes => Relational.newTable table heading indexes
  | rebuild table temporary heading => Relational.rebuild table temporary heading

/-- Where it brings the tables and columns. -/
def moves : Part → Renaming
  | change statement => statement.moves
  | newTable .. => .same
  | rebuild .. => .same

/-- It renames a table. -/
def renames : Part → Bool
  | change (.renameTable ..) => true
  | _ => false

/-- What can be seen of its safety without the rows. -/
def safe (schema : Schema) : Part → Bool
  | change statement => statement.isChange
  | newTable .. => true
  | rebuild table _ heading =>
    (schema.heading? table).any fun old => old.follows id heading &&
      old.names.all (· ∈ heading.names) && heading.names.all (· ∈ old.names)

/-- A part on the schema and on the names that are to be kept, when it is safe for the rows. -/
def onNames (state : Schema × Names) (part : Part) : Option (Schema × Names) :=
  (schemaAfter state.1 part.script).bind fun schema =>
    if state.1.tables.Nodup ∧ part.safe state.1 = true ∧
        (state.1.map fun entry => part.moves.table entry.1).Nodup ∧
          Schema.follows part.moves state.1 schema = true ∧
            schema.covers (part.moves.names state.2) = true then
      some (schema, part.moves.names state.2)
    else none

/-- Where the parts of a script bring the tables and columns. -/
def path (parts : List Part) : Renaming :=
  parts.foldr (fun part ρ => part.moves.trans ρ) .same

variable {env : Environment} {db : Database} {schema : Schema}

/-- A part that renames nothing leaves the tables where they are. -/
theorem moves_table {part : Part} (h : part.renames = false) : part.moves.table = id := by
  cases part with
  | change statement => cases statement <;> first | rfl | cases h
  | newTable => rfl
  | rebuild => rfl

/-- **A safe part** takes the rows along. -/
theorem run_script {part : Part} (hnodup : db.schema.tables.Nodup) (hvalid : db.Valid)
    (hsafe : part.safe db.schema = true)
    (hfollows : Schema.follows part.moves db.schema schema = true)
    (hschema : schemaAfter db.schema part.script = some schema) :
    ∃ db', run env db part.script = some db' ∧ db'.schema = schema ∧ db.Follows part.moves db' := by
  cases part with
  | change statement =>
    obtain ⟨after, hafter, hdone⟩ := Transition.run_cons_eq_some hschema
    obtain rfl := Option.some.inj hdone
    refine ⟨⟨after, statement.onRows env db⟩, ?_, rfl,
      Statement.follows_of_isChange hsafe hnodup hafter⟩
    rw [script, run, Transition.run_cons,
      Statement.exec_of_isChange hsafe hnodup hafter hfollows hvalid]
    rfl
  | newTable table heading indexes => exact run_newTable hnodup hschema
  | rebuild table temporary heading =>
    unfold safe at hsafe
    obtain ⟨old, hold, hcheck⟩ := (Option.any_eq_true _ _).mp hsafe
    simp only [Bool.and_eq_true, List.all_eq_true, decide_eq_true_eq] at hcheck
    obtain ⟨found, hfound, rfl⟩ := Option.map_eq_some_iff.mp hold
    have hname : found.1 = table := by simpa using List.find?_some hfound
    exact run_rebuild hnodup hvalid (hname ▸ List.mem_of_find?_eq_some hfound) hcheck.1.1
      (fun c => ⟨hcheck.1.2 c, hcheck.2 c⟩) hschema

/-- The names go where the parts bring them. -/
theorem names_of_run {parts : List Part} {kept kept' : Names} {schema schema' : Schema}
    (hparts : Transition.run onNames (schema, kept) parts = some (schema', kept')) :
    kept' = (path parts).names kept := by
  induction parts generalizing schema kept with
  | nil =>
    obtain ⟨-, rfl⟩ := Prod.mk.inj (Option.some.inj hparts)
    unfold Renaming.names
    refine (List.map_id' _).symm.trans (List.map_congr_left fun entry _ => ?_)
    show entry = (entry.1, entry.2.map id)
    rw [List.map_id]
  | cons part rest ih =>
    obtain ⟨mid, hmid, hrest⟩ := Transition.run_cons_eq_some hparts
    obtain ⟨after, -, hsome⟩ := Option.bind_eq_some_iff.mp hmid
    rw [Option.ite_none_right_eq_some] at hsome
    obtain rfl := Option.some.inj hsome.2
    rw [ih hrest, ← Renaming.names_trans]
    rfl

/-- The names that are kept are there at the end. -/
theorem covers_of_run {parts : List Part} {kept kept' : Names} {schema schema' : Schema}
    (hcovers : schema.covers kept = true)
    (hparts : Transition.run onNames (schema, kept) parts = some (schema', kept')) :
    schema'.covers kept' = true := by
  induction parts generalizing schema kept with
  | nil =>
    obtain ⟨rfl, rfl⟩ := Prod.mk.inj (Option.some.inj hparts)
    exact hcovers
  | cons part rest ih =>
    obtain ⟨mid, hmid, hrest⟩ := Transition.run_cons_eq_some hparts
    obtain ⟨after, -, hsome⟩ := Option.bind_eq_some_iff.mp hmid
    rw [Option.ite_none_right_eq_some] at hsome
    obtain rfl := Option.some.inj hsome.2
    exact ih hsome.1.2.2.2.2 hrest

/-- **A script of safe parts** succeeds on every database with the schema that meets its
constraints. The constraints and the foreign keys hold afterwards, and the columns are read under
their new names. -/
theorem run_flatMap {parts : List Part} {kept kept' : Names} (hvalid : db.Valid)
    (hreferences : db.References) (hcovers : db.schema.covers kept = true)
    (hparts : Transition.run onNames (db.schema, kept) parts = some (schema, kept')) :
    ∃ db', run env db (parts.flatMap script) = some db' ∧ db'.schema = schema ∧ db'.Valid ∧
      db'.References ∧ db.Keeps kept (path parts) db' ∧
        (parts.any renames = false → ∀ table, db.Vacant table → db'.Vacant table) := by
  induction parts generalizing db kept with
  | nil =>
    obtain ⟨rfl, rfl⟩ := Prod.mk.inj (Option.some.inj hparts)
    exact ⟨db, rfl, rfl, hvalid, hreferences, .refl kept db, fun _ _ h => h⟩
  | cons part rest ih =>
    obtain ⟨mid, hmid, hrest⟩ := Transition.run_cons_eq_some hparts
    obtain ⟨after, hafter, hsome⟩ := Option.bind_eq_some_iff.mp hmid
    rw [Option.ite_none_right_eq_some] at hsome
    obtain ⟨⟨hnodup, hsafe, hmoves, hfollows, hcovers'⟩, hsome⟩ := hsome
    obtain rfl := Option.some.inj hsome
    obtain ⟨first, hrun, rfl, hfirst⟩ := @run_script env _ _ _ hnodup hvalid hsafe hfollows hafter
    obtain ⟨db', hrun', hschema, hvalid', hreferences', hkeeps, hvacant⟩ :=
      ih (hfirst.valid hfollows hvalid) (hfirst.references hfollows hreferences) hcovers' hrest
    refine ⟨db', run_append hrun hrun', hschema, hvalid', hreferences',
      (hfirst.keeps hmoves hcovers hcovers').trans hkeeps, fun hsame table h => ?_⟩
    rw [List.any_cons, Bool.or_eq_false_iff] at hsame
    exact hvacant hsame.2 table (hfirst.vacant (moves_table hsame.1) h)

end Part

end Relational
