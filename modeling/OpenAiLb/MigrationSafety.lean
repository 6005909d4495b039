import OpenAiLb.MigrationSettings

/-!
# Upgrades of the database

Every migration is carried out on every database with the schema of its version that meets the
constraints and has no dangling foreign key. What depends on the schema alone is checked once for
each migration; the rows matter only for the settings, the root, the owners and the circuit events.
-/

namespace Migrations

open Relational

/-- The columns of the settings. -/
abbrev settingNames : String × List String := ("app_meta", ["key", "value"])

/-- At most one user is root. -/
def SingleRoot (db : Database) : Prop :=
  ((db.project "users" ["role"]).filter (· = [.text "root"])).length ≤ 1

section Parts

variable {env : Environment} {kept kept' : Names} {db : Database} {schema : Schema}
  {list : List Part}

/-- **The parts of a script** before there are settings. -/
theorem carries_parts_of_vacant (hvalid : db.Valid) (hreferences : db.References)
    (hcovers : db.schema.covers kept = true) (hvacant : db.Vacant "app_meta")
    (hnames : list.any Part.renames = false)
    (hlist : Transition.run Part.onNames (db.schema, kept) list = some (schema, kept')) :
    ∃ db', db'.schema = schema ∧ Carries env [.parts list] kept db db' := by
  obtain ⟨db', hrun, hschema, hvalid', hreferences', hkeeps, hempty⟩ :=
    @Part.run_flatMap env _ _ _ _ _ hvalid hreferences hcovers hlist
  refine ⟨db', hschema, ?_, hvalid', hreferences', hkeeps, ?_, fun table _ => hempty hnames table⟩
  · rw [List.flatMap_singleton]
    exact hrun
  · rw [setting?_of_vacant (hempty hnames _ hvacant)]
    exact (setting?_of_vacant hvacant).symm

/-- **The parts of a script** leave the settings alone. -/
theorem carries_parts (hvalid : db.Valid) (hreferences : db.References)
    (hcovers : db.schema.covers (settingNames :: kept) = true)
    (hlist : Transition.run Part.onNames (db.schema, settingNames :: kept) list =
      some (schema, settingNames :: kept')) :
    ∃ db', db'.schema = schema ∧ Carries env [.parts list] kept db db' := by
  obtain ⟨db', hrun, rfl, hvalid', hreferences', hkeeps, hempty⟩ :=
    @Part.run_flatMap env _ _ _ _ _ hvalid hreferences hcovers hlist
  have hcovers' := Part.covers_of_run hcovers hlist
  have hsettings := (List.cons.inj (Part.names_of_run hlist)).1
  have hmem : ∀ {schema : Schema} {kept : Names},
      schema.covers (settingNames :: kept) = true → "app_meta" ∈ schema.tables := by
    intro schema kept h
    obtain ⟨heading, hheading, -⟩ := Schema.exists_of_covers h List.mem_cons_self
    exact List.mem_map_of_mem hheading
  refine ⟨db', rfl, ?_, hvalid', hreferences', ?_, ?_, fun table htable => ?_⟩
  · rw [List.flatMap_singleton]
    exact hrun
  · exact hkeeps.mono fun entry hentry =>
      ⟨entry, List.mem_cons_of_mem _ hentry, rfl, fun _ hc => hc⟩
  · have hproject := hkeeps settingNames List.mem_cons_self ["key", "value"] fun c hc => hc
    rw [← (Prod.mk.inj hsettings).1, ← (Prod.mk.inj hsettings).2] at hproject
    exact setting?_of_project (hmem hcovers) (hmem hcovers') hproject
  · exact hempty (htable _ (List.mem_singleton_self _)).1 table

end Parts

section SingleRoot

variable {env : Environment} {kept : Names} {db : Database} {schema : Schema}

/-- The index of roots has one entry for each of them. -/
theorem entries_usersSingleRoot (h : SingleRoot db) :
    (usersSingleRoot.entries (db.rows "users")).Nodup := by
  have hlength : (usersSingleRoot.entries (db.rows "users")).length ≤ 1 := by
    refine Nat.le_trans (List.length_filter_le _ _) ?_
    unfold SingleRoot Database.project at h
    rw [List.filter_map, List.length_map] at h
    rw [List.length_map]
    refine le_of_eq_of_le (congrArg List.length (List.filter_congr fun row _ => ?_)) h
    simp [usersSingleRoot, Condition.holds]
  generalize usersSingleRoot.entries (db.rows "users") = entries at hlength
  rcases entries with _ | ⟨entry, _ | ⟨second, rest⟩⟩
  · exact List.nodup_nil
  · exact List.nodup_singleton entry
  · simp at hlength

/-- **The index of roots** can be made, when there is at most one. -/
theorem carries_singleRoot (hvalid : db.Valid) (hreferences : db.References)
    (hroot : SingleRoot db)
    (hschema : (Statement.createIndex "users" usersSingleRoot false).onSchema db.schema =
      some schema) :
    ∃ db', db'.schema = schema ∧ Carries env [.singleRoot] kept db db' := by
  have hmodify : schema = db.schema.modify "users" fun heading =>
      { heading with indexes := heading.indexes ++ [usersSingleRoot] } := by
    rw [Statement.onSchema] at hschema
    split at hschema
    · cases hschema
    · rw [Option.ite_none_right_eq_some] at hschema
      exact (Option.some.inj hschema.2).symm
  have hentry : ∀ entry' ∈ schema, ∃ entry ∈ db.schema, entry.1 = entry'.1 ∧
      entry'.2.columns = entry.2.columns := by
    intro entry' hentry'
    rw [hmodify] at hentry'
    obtain ⟨entry, hentry, rfl⟩ := List.mem_map.mp hentry'
    refine ⟨entry, hentry, rfl, ?_⟩
    dsimp only
    split <;> rfl
  have hvalid' : Database.Valid ⟨schema, db.rows⟩ := by
    intro entry' hentry'
    rw [show Database.schema ⟨schema, db.rows⟩ = schema from rfl, hmodify] at hentry'
    obtain ⟨entry, hentry, rfl⟩ := List.mem_map.mp hentry'
    have hbefore := hvalid entry hentry
    dsimp only
    split
    · next husers =>
      refine ⟨hbefore.admits, hbefore.key, fun index hindex hunique => ?_⟩
      rcases List.mem_append.mp hindex with hindex | hindex
      · exact hbefore.unique index hindex hunique
      · rw [List.mem_singleton.mp hindex, husers]
        exact entries_usersSingleRoot hroot
    · exact hbefore
  have hpasses :
      (Statement.createIndex "users" usersSingleRoot false).Passes ⟨schema, db.rows⟩ := by
    intro table _ heading hheading
    obtain ⟨entry, hentry, rfl⟩ := Option.map_eq_some_iff.mp hheading
    have hname : entry.1 = table := by simpa using List.find?_some hentry
    exact hname ▸ hvalid' entry (List.mem_of_find?_eq_some hentry)
  have hexec : (Statement.createIndex "users" usersSingleRoot false).exec env db =
      some ⟨schema, db.rows⟩ := by
    unfold Statement.exec
    rw [hschema, Option.bind_some]
    exact if_pos hpasses
  have htables : schema.tables = db.schema.tables := by
    rw [hmodify, Schema.modify, Schema.tables, List.map_map]
    rfl
  refine ⟨⟨schema, db.rows⟩, rfl, ?_, hvalid', ?_, fun entry _ columns _ => ?_, ?_, ?_⟩
  · rw [List.flatMap_singleton, Action.script, Relational.run, Transition.run_cons, hexec]
    rfl
  · intro entry' hentry' column hcolumn
    obtain ⟨entry, hentry, hname, hcolumns⟩ := hentry entry' hentry'
    rw [← hname]
    exact hreferences entry hentry column (hcolumns ▸ hcolumn)
  · show Database.project ⟨schema, db.rows⟩ entry.1 (columns.map id) = db.project entry.1 columns
    rw [List.map_id]
    rfl
  · funext key
    show setting? ⟨schema, db.rows⟩ key = setting? db key
    unfold setting?
    dsimp only
    rw [htables]
  · intro table _ hvacant htable
    exact hvacant (htables ▸ htable)

end SingleRoot

/-- What is needed of a schema to give providers to the root. -/
def ownable (schema : Schema) : Bool :=
  schema.tables.Nodup &&
    ((schema.heading? "providers").any fun heading =>
      heading.key = ["id"] && heading.indexes.all (fun index => !index.unique) &&
        "owner_id" ∈ heading.names && heading.columns.all fun column =>
          column.name ≠ "owner_id" || !column.notNull && column.allowed = none &&
            column.references = some ("users", "id")) &&
    schema.all fun entry => entry.2.columns.all fun column =>
      column.references ≠ some ("providers", "owner_id")

/-- The id of the root, or null. -/
def rootOf (db : Database) : Value :=
  ((db.rows "users").find? fun row =>
    (Condition.equals "role" (.text "root")).holds row).elim .null fun row => row "id"

/-- A provider after the owners are filled in. -/
def ownedRow (db : Database) (row : Row) : Row :=
  if row "owner_id" = .null then Function.update row "owner_id" (rootOf db) else row

section Owners

variable {env : Environment} {kept : Names} {db : Database} {schema : Schema}

/-- The owners can be filled in, and the schema stays the same. -/
theorem onSchema_backfillOwner (hownable : ownable schema = true) :
    (Statement.update "providers" [("owner_id", rootId)] (.isNull "owner_id")).onSchema schema =
      some schema := by
  unfold ownable at hownable
  simp only [Bool.and_eq_true, Option.any_eq_true, decide_eq_true_eq] at hownable
  obtain ⟨⟨-, heading, hfound, ⟨-, hnamed⟩, -⟩, -⟩ := hownable
  refine if_pos ?_
  rw [Statement.named, hfound]
  simpa using hnamed

/-- Filling in the owners changes the rows of the providers only. -/
theorem onRows_backfillOwner (env : Environment) (db : Database) :
    (Statement.update "providers" [("owner_id", rootId)] (.isNull "owner_id")).onRows env db =
      Function.update db.rows "providers" ((db.rows "providers").map (ownedRow db)) := by
  unfold Statement.onRows
  refine congrArg (Function.update db.rows "providers") (List.map_congr_left fun row _ => ?_)
  unfold ownedRow
  have hholds : (Condition.isNull "owner_id").holds row = true ↔ row "owner_id" = .null :=
    decide_eq_true_iff
  by_cases h : row "owner_id" = .null
  · rw [if_pos h, if_pos (hholds.mpr h)]
    funext c
    by_cases hc : c = "owner_id"
    · subst hc
      rw [Function.update_self]
      rfl
    · rw [Function.update_of_ne hc, List.lookup_cons, beq_eq_false_iff_ne.mpr hc]
      rfl
  · rw [if_neg h, if_neg fun h' => h (hholds.mp h')]

/-- Filling in the owner leaves the other columns alone. -/
theorem ownedRow_of_ne {c : String} (hc : c ≠ "owner_id") (row : Row) :
    ownedRow db row c = row c := by
  unfold ownedRow
  split
  · exact Function.update_of_ne hc _ _
  · rfl

/-- A root that is found is a user. -/
theorem exists_user_of_rootOf (h : rootOf db ≠ .null) :
    ∃ user ∈ db.rows "users", user "id" = rootOf db := by
  unfold rootOf at h ⊢
  cases hfound : (db.rows "users").find? fun row =>
      (Condition.equals "role" (.text "root")).holds row with
  | none =>
    rw [hfound] at h
    exact absurd rfl h
  | some user => exact ⟨user, List.mem_of_find?_eq_some hfound, rfl⟩

/-- **Providers without an owner** go to the root. -/
theorem carries_backfillOwner (hownable : ownable db.schema = true) (hvalid : db.Valid)
    (hreferences : db.References)
    (hkept : ∀ entry ∈ kept, entry.1 = "providers" → "owner_id" ∉ entry.2) :
    ∃ db', db'.schema = db.schema ∧ Carries env [.backfillOwner] kept db db' := by
  have hschema := onSchema_backfillOwner hownable
  unfold ownable at hownable
  simp only [Bool.and_eq_true, decide_eq_true_eq, Option.any_eq_true, List.all_eq_true,
    Bool.not_eq_true', Bool.or_eq_true] at hownable
  obtain ⟨⟨hnodup, heading, hfound, ⟨⟨hkey, hindexes⟩, hnamed⟩, hcolumns⟩, htargets⟩ := hownable
  obtain ⟨entry, hentry, rfl⟩ := Option.map_eq_some_iff.mp hfound
  have hname : entry.1 = "providers" := by simpa using List.find?_some hentry
  have hmem : ("providers", entry.2) ∈ db.schema := hname ▸ List.mem_of_find?_eq_some hentry
  have hold : entry.2.Valid (db.rows "providers") := hvalid _ hmem
  let rows := (db.rows "providers").map (ownedRow db)
  have hnew : entry.2.Valid rows := by
    refine ⟨fun row' hrow' column hcolumn => ?_, ?_, fun index hindex hunique => ?_⟩
    · obtain ⟨row, hrow, rfl⟩ := List.mem_map.mp hrow'
      rcases hcolumns column hcolumn with hother | ⟨⟨hnull, hallowed⟩, -⟩
      · rw [ownedRow_of_ne hother]
        exact hold.admits row hrow column hcolumn
      · rw [Column.admits_iff, hnull, hallowed]
        exact ⟨fun h => (by cases h), fun _ h => (by cases h)⟩
    · have hsame : (rows.map fun row => ["id"].map row) =
          (db.rows "providers").map fun row => ["id"].map row := by
        rw [List.map_map]
        refine List.map_congr_left fun row _ => ?_
        show [ownedRow db row "id"] = [row "id"]
        rw [ownedRow_of_ne (by decide)]
      rw [hkey, hsame]
      exact hkey ▸ hold.key
    · rw [hindexes index hindex] at hunique
      cases hunique
  have hheading : ∀ heading, ("providers", heading) ∈ db.schema → heading = entry.2 := by
    intro heading h
    exact (Prod.mk.inj (List.inj_on_of_nodup_map hnodup h hmem rfl)).2
  refine ⟨db.withRows "providers" rows, rfl, ?_, hvalid.withRows fun heading h =>
    hheading heading h ▸ hnew, ?_, ?_, ?_, fun table htable => ?_⟩
  · have hexec := Statement.exec_of_withRows hnodup hmem rfl hschema (onRows_backfillOwner env db)
      hnew
    rw [List.flatMap_singleton, Action.script, Relational.run, Transition.run_cons, hexec]
    rfl
  · refine hreferences.withRows (fun other hother column hcolumn c hc row hrow => ?_)
      fun heading h column hcolumn target htarget row' hrow' hvalue => ?_
    · have hne : c ≠ "owner_id" := fun h => htargets other hother column hcolumn (h ▸ hc)
      exact ⟨_, List.mem_map_of_mem hrow, ownedRow_of_ne hne row⟩
    · rw [hheading heading h] at hcolumn
      obtain ⟨row, hrow, rfl⟩ := List.mem_map.mp hrow'
      have hbefore := hreferences _ hmem column hcolumn target htarget row hrow
      by_cases howner : column.name = "owner_id"
      · have husers := ((hcolumns column hcolumn).resolve_left fun h => h howner).2
        obtain rfl := Option.some.inj (htarget.symm.trans husers)
        rw [howner] at hvalue hbefore ⊢
        unfold ownedRow at hvalue ⊢
        split at hvalue
        · next hnull =>
          rw [if_pos hnull, Function.update_self]
          rw [Function.update_self] at hvalue
          exact exists_user_of_rootOf hvalue
        · next hset =>
          rw [if_neg hset]
          exact hbefore hset
      · rw [ownedRow_of_ne howner] at hvalue ⊢
        exact hbefore hvalue
  · exact .withRows fun other hother htable columns hcolumns => by
      rw [List.map_map]
      refine List.map_congr_left fun row _ => List.map_congr_left fun c hc => ?_
      exact ownedRow_of_ne (fun h => hkept other hother htable (h ▸ hcolumns c hc)) row
  · funext key
    show setting? (db.withRows "providers" rows) key = setting? db key
    unfold setting?
    rw [Database.withRows_schema, Database.withRows_rows_of_ne (by decide)]
  · have hother := (htable _ (List.mem_singleton_self _)).2
    exact fun hvacant hmem => (Database.withRows_rows_of_ne
      (fun h => hother (congrArg some h.symm)) _).trans (hvacant hmem)

end Owners

/-- The table of circuit events with its indexes. -/
def circuitEvents : Heading :=
  { providerCircuitEvents with
    indexes := [⟨"provider_circuit_events_provider_time_idx", ["provider_id", "opened_at"], false,
        .always⟩,
      ⟨"provider_circuit_events_open_provider_idx", ["provider_id"], true, .isNull "closed_at"⟩] }

/-- What is needed of a schema to open circuit events. -/
def circuitable (schema : Schema) : Bool :=
  schema.tables.Nodup && ("provider_circuit_events", circuitEvents) ∈ schema &&
    schema.unreferenced "provider_circuit_events" &&
      (schema.heading? "providers").any fun heading =>
        heading.key = ["id"] && heading.columns.any (fun column =>
          column.name = "id" && column.notNull) && heading.columns.any fun column =>
            column.name = "updated_at" && column.notNull

/-- The providers that are cooling down. -/
def coolingProviders (db : Database) : List Row :=
  (db.rows "providers").filter fun row => coolingDown.holds row

/-- The circuit event of a provider. -/
def circuitRow (env : Environment) (db : Database) (found : Row × ℕ) : Row :=
  circuitEvents.row (circuitEvent.map fun value => (value.1, value.2.eval env db found.2 found.1))

section Circuits

variable {env : Environment} {kept : Names} {db : Database} {schema : Schema}

@[simp] theorem circuitRow_id (found : Row × ℕ) :
    circuitRow env db found "id" = .text (env.random found.2) := rfl

@[simp] theorem circuitRow_providerId (found : Row × ℕ) :
    circuitRow env db found "provider_id" = found.1 "id" := rfl

/-- The cause of the event is the error of the provider, if there is one. -/
theorem circuitRow_cause (found : Row × ℕ) : circuitRow env db found "cause" =
    if found.1 "last_error" = .null then .text "rate limited" else found.1 "last_error" := rfl

/-- The limits of the event are those of the provider, if there are any. -/
theorem circuitRow_rateLimitJson (found : Row × ℕ) : circuitRow env db found "rate_limit_json" =
    if found.1 "rate_limit_json" = .null then .text "\x7b\x7d" else found.1 "rate_limit_json" := rfl

/-- The event was opened when the provider was last used, or else last changed. -/
theorem circuitRow_openedAt (found : Row × ℕ) : circuitRow env db found "opened_at" =
    if found.1 "last_used_at" = .null then found.1 "updated_at" else found.1 "last_used_at" := rfl

@[simp] theorem circuitRow_cooldownUntil (found : Row × ℕ) :
    circuitRow env db found "cooldown_until" = found.1 "cooldown_until" := rfl

@[simp] theorem circuitRow_closedAt (found : Row × ℕ) :
    circuitRow env db found "closed_at" = .null := rfl

/-- The circuit events can be written, and the schema stays the same. -/
theorem onSchema_openCircuits (hcircuitable : circuitable schema = true) :
    (Statement.insertSelect "provider_circuit_events" circuitEvent "providers"
      coolingDown).onSchema schema = some schema := by
  unfold circuitable at hcircuitable
  simp only [Bool.and_eq_true, decide_eq_true_eq, Option.any_eq_true] at hcircuitable
  obtain ⟨⟨⟨hnodup, hmem⟩, -⟩, heading, hfound, -⟩ := hcircuitable
  obtain ⟨entry, hentry, -⟩ := Option.map_eq_some_iff.mp hfound
  have hname : entry.1 = "providers" := by simpa using List.find?_some hentry
  refine if_pos ⟨?_, hname ▸ List.mem_map_of_mem (List.mem_of_find?_eq_some hentry)⟩
  rw [Statement.named, Schema.heading?_of_mem hnodup hmem]
  rfl

/-- Writing the circuit events fills their table only, with one event for each cooling provider. -/
theorem onRows_openCircuits (hheading : db.schema.heading? "provider_circuit_events" =
    some circuitEvents) (hempty : db.rows "provider_circuit_events" = []) :
    (Statement.insertSelect "provider_circuit_events" circuitEvent "providers" coolingDown).onRows
        env db =
      Function.update db.rows "provider_circuit_events"
        ((coolingProviders db).zipIdx.map (circuitRow env db)) := by
  rw [Statement.onRows, hheading]
  dsimp only
  rw [hempty, List.nil_append]
  rfl

/-- **The circuit events** meet the constraints of their table. -/
theorem valid_circuits {heading : Heading} (hrandom : Function.Injective env.random)
    (hold : heading.Valid (db.rows "providers")) (hkey : heading.key = ["id"])
    (hid : ∀ row ∈ db.rows "providers", row "id" ≠ .null)
    (hupdated : ∀ row ∈ db.rows "providers", row "updated_at" ≠ .null) :
    circuitEvents.Valid ((coolingProviders db).zipIdx.map (circuitRow env db)) := by
  have hfound : ∀ found ∈ (coolingProviders db).zipIdx, found.1 ∈ db.rows "providers" ∧
      found.1 "cooldown_until" ≠ .null := by
    intro found hmem
    have hsource : found.1 ∈ coolingProviders db :=
      List.fst_mem_of_mem_zipIdx hmem
    obtain ⟨hprovider, hholds⟩ := List.mem_filter.mp hsource
    unfold coolingDown at hholds
    simp only [Condition.holds, Bool.and_eq_true, decide_eq_true_eq] at hholds
    exact ⟨hprovider, hholds.2⟩
  refine ⟨fun row hrow => ?_, ?_, ?_⟩
  · obtain ⟨found, hmem, rfl⟩ := List.mem_map.mp hrow
    obtain ⟨hprovider, hdeadline⟩ := hfound found hmem
    have hcause : circuitRow env db found "cause" ≠ .null := by
      rw [circuitRow_cause]
      split
      · simp
      · assumption
    have hlimits : circuitRow env db found "rate_limit_json" ≠ .null := by
      rw [circuitRow_rateLimitJson]
      split
      · simp
      · assumption
    have hopened : circuitRow env db found "opened_at" ≠ .null := by
      rw [circuitRow_openedAt]
      split
      · exact hupdated _ hprovider
      · assumption
    simp only [circuitEvents, providerCircuitEvents, List.forall_mem_cons]
    simpa [Column.admits_iff, Column.required, Column.named, Column.refersTo, hcause, hlimits,
      hopened, hdeadline] using hid _ hprovider
  · rw [List.map_map]
    have hnumbers : ((coolingProviders db).zipIdx.map Prod.snd).Nodup := by
      rw [List.zipIdx_map_snd]
      exact List.nodup_range' _
    have hids := hnumbers.map (f := fun n => [Value.text (env.random n)]) fun x y h =>
      hrandom (Value.text.inj (List.head_eq_of_cons_eq h))
    rwa [List.map_map] at hids
  · rintro index hindex hunique
    rcases List.mem_cons.mp hindex with rfl | hindex
    · cases hunique
    obtain rfl := List.mem_singleton.mp hindex
    have hproviders : (((coolingProviders db).zipIdx.map (circuitRow env db)).map fun row =>
        ["provider_id"].map row) = (coolingProviders db).map fun row => ["id"].map row := by
      rw [List.map_map, ← List.zipIdx_map_fst 0 (coolingProviders db), List.map_map,
        List.zipIdx_map_fst]
      rfl
    have hids := hkey ▸ hold.key
    refine List.Nodup.sublist ?_ hids
    refine (List.filter_sublist.trans (List.filter_sublist.map _)).trans ?_
    dsimp only
    rw [hproviders]
    exact List.filter_sublist.map _

/-- **The circuit events of the cooldowns** are inserted into the new table. -/
theorem carries_openCircuits (hrandom : Function.Injective env.random)
    (hcircuitable : circuitable db.schema = true) (hvalid : db.Valid)
    (hreferences : db.References) (hempty : db.rows "provider_circuit_events" = [])
    (hkept : ∀ entry ∈ kept, entry.1 ≠ "provider_circuit_events") :
    ∃ db', db'.schema = db.schema ∧ Carries env [.openCircuits] kept db db' := by
  have hschema := onSchema_openCircuits hcircuitable
  unfold circuitable at hcircuitable
  simp only [Bool.and_eq_true, decide_eq_true_eq, Option.any_eq_true, List.any_eq_true]
    at hcircuitable
  obtain ⟨⟨⟨hnodup, hmem⟩, hunreferenced⟩, heading, hfound, ⟨hkey, idColumn, hidMem, hidName,
    hidNull⟩, updatedColumn, hupdatedMem, hupdatedName, hupdatedNull⟩ := hcircuitable
  obtain ⟨entry, hentry, rfl⟩ := Option.map_eq_some_iff.mp hfound
  have hname : entry.1 = "providers" := by simpa using List.find?_some hentry
  have hproviders : ("providers", entry.2) ∈ db.schema :=
    hname ▸ List.mem_of_find?_eq_some hentry
  have hold : entry.2.Valid (db.rows "providers") := hvalid _ hproviders
  have hnotNull : ∀ row ∈ db.rows "providers", row "id" ≠ .null ∧ row "updated_at" ≠ .null := by
    intro row hrow
    have hid := (Column.admits_iff.mp (hold.admits row hrow idColumn hidMem)).1 hidNull
    have hupdated :=
      (Column.admits_iff.mp (hold.admits row hrow updatedColumn hupdatedMem)).1 hupdatedNull
    rw [hidName] at hid
    rw [hupdatedName] at hupdated
    exact ⟨hid, hupdated⟩
  have hnew := @valid_circuits env _ _ hrandom hold hkey (fun row hrow => (hnotNull row hrow).1)
    fun row hrow => (hnotNull row hrow).2
  have hheading := Schema.heading?_of_mem hnodup hmem
  have hunique : ∀ heading, ("provider_circuit_events", heading) ∈ db.schema →
      heading = circuitEvents := by
    intro heading h
    exact (Prod.mk.inj (List.inj_on_of_nodup_map hnodup h hmem rfl)).2
  refine ⟨db.withRows "provider_circuit_events" _, rfl, ?_, hvalid.withRows fun heading h =>
    hunique heading h ▸ hnew, ?_, ?_, ?_, fun table htable => ?_⟩
  · have hexec := Statement.exec_of_withRows hnodup hmem rfl hschema
      (@onRows_openCircuits env _ hheading hempty) hnew
    rw [List.flatMap_singleton, Action.script, Relational.run, Transition.run_cons, hexec]
    rfl
  · refine hreferences.withRows (fun other hother column hcolumn c hc row hrow => ?_)
      fun heading h column hcolumn target htarget row' hrow' _ => ?_
    · rw [hempty] at hrow
      cases hrow
    · rw [hunique heading h] at hcolumn
      obtain ⟨found, hfound, rfl⟩ := List.mem_map.mp hrow'
      have hprovider := List.mem_of_mem_filter (List.fst_mem_of_mem_zipIdx hfound)
      have hcolumns : ∀ column ∈ circuitEvents.columns, ∀ target, column.references = some target →
          column.name = "provider_id" ∧ target = ("providers", "id") := by
        simp only [circuitEvents, providerCircuitEvents, List.forall_mem_cons]
        simp [Column.required, Column.named, Column.refersTo]
      obtain ⟨hcolumnName, rfl⟩ := hcolumns column hcolumn target htarget
      rw [hcolumnName, circuitRow_providerId]
      exact ⟨found.1, hprovider, rfl⟩
  · exact .withRows fun other hother htable => absurd htable (hkept other hother)
  · funext key
    show setting? (db.withRows "provider_circuit_events" _) key = setting? db key
    unfold setting?
    rw [Database.withRows_schema, Database.withRows_rows_of_ne (by decide)]
  · have hother := (htable _ (List.mem_singleton_self _)).2
    exact fun hvacant hmem => (Database.withRows_rows_of_ne
      (fun h => hother (congrArg some h.symm)) _).trans (hvacant hmem)

end Circuits

/-- An action on the schema and on the names that are kept, when the schema allows the action. -/
def Action.onNames (state : Schema × Names) : Action → Option (Schema × Names)
  | parts list =>
    if state.1.covers [settingNames] then
      (Transition.run Part.onNames (state.1, settingNames :: state.2) list).bind fun after =>
        match after.2 with
        | [] => none
        | first :: kept => if first = settingNames then some (after.1, kept) else none
    else if "app_meta" ∈ state.1.tables ∨ list.any Part.renames then none
    else Transition.run Part.onNames state list
  | settings defaults =>
    if writable state.1 ∧ (∀ entry ∈ state.2, entry.1 ≠ "app_meta") ∧
        (defaults.map Prod.fst).Nodup then
      some state
    else none
  | setting .. =>
    if writable state.1 ∧ ∀ entry ∈ state.2, entry.1 ≠ "app_meta" then some state else none
  | rewrite .. =>
    if writable state.1 ∧ ∀ entry ∈ state.2, entry.1 ≠ "app_meta" then some state else none
  | singleRoot =>
    ((Statement.createIndex "users" usersSingleRoot false).onSchema state.1).bind fun schema =>
      if schema.covers state.2 then some (schema, state.2) else none
  | backfillOwner =>
    if ownable state.1 ∧ ∀ entry ∈ state.2, entry.1 = "providers" → "owner_id" ∉ entry.2 then
      some state
    else none
  | openCircuits =>
    if circuitable state.1 ∧ ∀ entry ∈ state.2, entry.1 ≠ "provider_circuit_events" then some state
    else none

/-- What an action needs of the rows. -/
def Action.Ready (db : Database) : Action → Prop
  | settings _ => db.Vacant "app_meta"
  | setting key _ => setting? db key = none
  | singleRoot => SingleRoot db
  | openCircuits => db.Vacant "provider_circuit_events"
  | _ => True

section Actions

variable {env : Environment} {kept kept' : Names} {db : Database} {schema : Schema}

/-- Without a renaming the names stay the same. -/
theorem names_same (kept : Names) : Renaming.same.names kept = kept := by
  unfold Renaming.names
  refine (List.map_congr_left fun entry _ => ?_).trans (List.map_id' kept)
  show (entry.1, entry.2.map id) = entry
  rw [List.map_id]

/-- **An action** that is ready is carried out. -/
theorem carries_action {action : Action} (hrandom : Function.Injective env.random)
    (hvalid : db.Valid) (hreferences : db.References) (hcovers : db.schema.covers kept = true)
    (hready : action.Ready db)
    (hstep : action.onNames (db.schema, kept) = some (schema, kept')) :
    ∃ db', db'.schema = schema ∧ schema.covers kept' = true ∧
      kept' = (path [action]).names kept ∧ Carries env [action] kept db db' := by
  cases action with
  | parts list =>
    rw [Action.onNames] at hstep
    by_cases htracked : db.schema.covers [settingNames] = true
    · rw [if_pos htracked] at hstep
      obtain ⟨after, hafter, hnames⟩ := Option.bind_eq_some_iff.mp hstep
      obtain ⟨afterSchema, afterNames⟩ := after
      cases afterNames with
      | nil => cases hnames
      | cons first rest =>
        rw [Option.ite_none_right_eq_some] at hnames
        obtain ⟨rfl, hnames⟩ := hnames
        obtain ⟨rfl, rfl⟩ := Prod.mk.inj (Option.some.inj hnames)
        have hall : db.schema.covers (settingNames :: kept) = true := by
          unfold Schema.covers at htracked hcovers ⊢
          rw [List.all_cons, hcovers, Bool.and_true]
          rwa [List.all_cons, List.all_nil, Bool.and_true] at htracked
        obtain ⟨db', hschema, hcarries⟩ :=
          @carries_parts env _ _ _ _ _ hvalid hreferences hall hafter
        have hcovers' := Part.covers_of_run hall hafter
        unfold Schema.covers at hcovers'
        rw [List.all_cons, Bool.and_eq_true] at hcovers'
        exact ⟨db', hschema, hcovers'.2, (List.cons.inj (Part.names_of_run hafter)).2, hcarries⟩
    · rw [if_neg htracked] at hstep
      split at hstep
      · cases hstep
      · next hnew =>
        rw [not_or] at hnew
        obtain ⟨db', hschema, hcarries⟩ := @carries_parts_of_vacant env _ _ _ _ _ hvalid hreferences
          hcovers (fun h => absurd h hnew.1) (Bool.eq_false_iff.mpr hnew.2) hstep
        exact ⟨db', hschema, Part.covers_of_run hcovers hstep, Part.names_of_run hstep, hcarries⟩
  | settings defaults =>
    rw [Action.onNames, Option.ite_none_right_eq_some] at hstep
    obtain ⟨⟨hwritable, hkept, hnodup⟩, hstep⟩ := hstep
    obtain ⟨rfl, rfl⟩ := Prod.mk.inj (Option.some.inj hstep)
    obtain ⟨db', hschema, hcarries⟩ := @carries_settings env _ _ _ hwritable hvalid hreferences
      hkept (hready (mem_tables_of_writable hwritable).1) hnodup
    exact ⟨db', hschema, hcovers, (names_same _).symm, hcarries⟩
  | setting key value =>
    rw [Action.onNames, Option.ite_none_right_eq_some] at hstep
    obtain ⟨⟨hwritable, hkept⟩, hstep⟩ := hstep
    obtain ⟨rfl, rfl⟩ := Prod.mk.inj (Option.some.inj hstep)
    obtain ⟨db', hschema, hcarries⟩ := @carries_setting env _ _ _ value hwritable
      hvalid hreferences hkept hready
    exact ⟨db', hschema, hcovers, (names_same _).symm, hcarries⟩
  | rewrite key old new =>
    rw [Action.onNames, Option.ite_none_right_eq_some] at hstep
    obtain ⟨⟨hwritable, hkept⟩, hstep⟩ := hstep
    obtain ⟨rfl, rfl⟩ := Prod.mk.inj (Option.some.inj hstep)
    obtain ⟨db', hschema, hcarries⟩ := @carries_rewrite env _ _ key old new
      hwritable hvalid hreferences hkept
    exact ⟨db', hschema, hcovers, (names_same _).symm, hcarries⟩
  | singleRoot =>
    rw [Action.onNames] at hstep
    obtain ⟨after, hafter, hnames⟩ := Option.bind_eq_some_iff.mp hstep
    rw [Option.ite_none_right_eq_some] at hnames
    obtain ⟨hcovers', hnames⟩ := hnames
    obtain ⟨rfl, rfl⟩ := Prod.mk.inj (Option.some.inj hnames)
    obtain ⟨db', hschema, hcarries⟩ := @carries_singleRoot env _ _ _ hvalid hreferences hready
      hafter
    exact ⟨db', hschema, hcovers', (names_same _).symm, hcarries⟩
  | backfillOwner =>
    rw [Action.onNames, Option.ite_none_right_eq_some] at hstep
    obtain ⟨⟨hownable, hkept⟩, hstep⟩ := hstep
    obtain ⟨rfl, rfl⟩ := Prod.mk.inj (Option.some.inj hstep)
    obtain ⟨db', hschema, hcarries⟩ := @carries_backfillOwner env _ _ hownable hvalid
      hreferences hkept
    exact ⟨db', hschema, hcovers, (names_same _).symm, hcarries⟩
  | openCircuits =>
    rw [Action.onNames, Option.ite_none_right_eq_some] at hstep
    obtain ⟨⟨hcircuitable, hkept⟩, hstep⟩ := hstep
    obtain ⟨rfl, rfl⟩ := Prod.mk.inj (Option.some.inj hstep)
    have hmem : "provider_circuit_events" ∈ db.schema.tables := by
      unfold circuitable at hcircuitable
      simp only [Bool.and_eq_true, decide_eq_true_eq] at hcircuitable
      exact List.mem_map_of_mem hcircuitable.1.1.2
    obtain ⟨db', hschema, hcarries⟩ := @carries_openCircuits env _ _ hrandom hcircuitable hvalid
      hreferences (hready hmem) hkept
    exact ⟨db', hschema, hcovers, (names_same _).symm, hcarries⟩

/-- **Actions** are carried out one after the other, when each is ready after those before it. -/
theorem carries_actions {actions : List Action} (hrandom : Function.Injective env.random)
    (hvalid : db.Valid) (hreferences : db.References) (hcovers : db.schema.covers kept = true)
    (hsteps : Transition.run Action.onNames (db.schema, kept) actions = some (schema, kept'))
    (hready : ∀ first action rest, actions = first ++ action :: rest → ∀ mid,
      Carries env first kept db mid → action.Ready mid) :
    ∃ db', db'.schema = schema ∧ kept' = (path actions).names kept ∧
      Carries env actions kept db db' := by
  induction actions generalizing db kept with
  | nil =>
    obtain ⟨rfl, rfl⟩ := Prod.mk.inj (Option.some.inj hsteps)
    exact ⟨db, rfl, (names_same _).symm, .nil hvalid hreferences⟩
  | cons action rest ih =>
    obtain ⟨⟨schema', names⟩, hstep, hrest⟩ := Transition.run_cons_eq_some hsteps
    obtain ⟨mid, rfl, hcovers', rfl, hcarries⟩ := carries_action hrandom hvalid hreferences hcovers
      (hready [] action rest rfl db (.nil hvalid hreferences)) hstep
    obtain ⟨db', hschema, hnames, hcarries'⟩ := ih hcarries.valid hcarries.references hcovers'
      hrest fun first other later hsplit last hlast =>
        hready (action :: first) other later (by rw [hsplit]; rfl) last (hcarries.append hlast)
    refine ⟨db', hschema, ?_, hcarries.append hcarries'⟩
    rw [hnames, ← Renaming.names_trans]
    rfl

end Actions

section Schemas

variable {kept kept' : Names} {schema schema' : Schema}

/-- The schema after two scripts. -/
theorem schemaAfter_append (schema : Schema) (first second : List Statement) :
    schemaAfter schema (first ++ second) = (schemaAfter schema first).bind fun mid =>
      schemaAfter mid second :=
  Transition.run_append ..

/-- The schema after a list of parts is the one that their names lead to. -/
theorem schemaAfter_parts {list : List Part}
    (h : Transition.run Part.onNames (schema, kept) list = some (schema', kept')) :
    schemaAfter schema (list.flatMap Part.script) = some schema' := by
  induction list generalizing schema kept with
  | nil => exact congrArg some (Prod.mk.inj (Option.some.inj h)).1
  | cons part rest ih =>
    obtain ⟨mid, hmid, hrest⟩ := Transition.run_cons_eq_some h
    obtain ⟨after, hafter, hsome⟩ := Option.bind_eq_some_iff.mp hmid
    rw [Option.ite_none_right_eq_some] at hsome
    obtain rfl := Option.some.inj hsome.2
    rw [List.flatMap_cons, schemaAfter_append, hafter]
    exact ih hrest

/-- What an action does to the schema is what its statements do. -/
theorem schemaAfter_action {action : Action}
    (h : action.onNames (schema, kept) = some (schema', kept')) :
    schemaAfter schema action.script = some schema' := by
  have hsingle : ∀ {statement : Statement}, statement.onSchema schema = some schema' →
      schemaAfter schema [statement] = some schema' := by
    intro statement hstatement
    rw [schemaAfter, Transition.run_cons, hstatement]
    rfl
  cases action with
  | parts list =>
    rw [Action.onNames] at h
    split at h
    · obtain ⟨⟨after, names⟩, hafter, hnames⟩ := Option.bind_eq_some_iff.mp h
      cases names with
      | nil => cases hnames
      | cons first rest =>
        rw [Option.ite_none_right_eq_some] at hnames
        obtain ⟨rfl, -⟩ := Prod.mk.inj (Option.some.inj hnames.2)
        exact schemaAfter_parts hafter
    · split at h
      · cases h
      · exact schemaAfter_parts h
  | settings defaults =>
    rw [Action.onNames, Option.ite_none_right_eq_some] at h
    obtain ⟨rfl, -⟩ := Prod.mk.inj (Option.some.inj h.2)
    exact hsingle (onSchema_insertSettings h.1.1 defaults true)
  | setting key value =>
    rw [Action.onNames, Option.ite_none_right_eq_some] at h
    obtain ⟨rfl, -⟩ := Prod.mk.inj (Option.some.inj h.2)
    exact hsingle (onSchema_insertSettings h.1.1 [(key, value)] false)
  | rewrite key old new =>
    rw [Action.onNames, Option.ite_none_right_eq_some] at h
    obtain ⟨rfl, -⟩ := Prod.mk.inj (Option.some.inj h.2)
    exact hsingle (onSchema_rewriteSetting h.1.1 key old new)
  | singleRoot =>
    rw [Action.onNames] at h
    obtain ⟨after, hafter, hnames⟩ := Option.bind_eq_some_iff.mp h
    rw [Option.ite_none_right_eq_some] at hnames
    obtain ⟨rfl, -⟩ := Prod.mk.inj (Option.some.inj hnames.2)
    exact hsingle hafter
  | backfillOwner =>
    rw [Action.onNames, Option.ite_none_right_eq_some] at h
    obtain ⟨rfl, -⟩ := Prod.mk.inj (Option.some.inj h.2)
    exact hsingle (onSchema_backfillOwner h.1.1)
  | openCircuits =>
    rw [Action.onNames, Option.ite_none_right_eq_some] at h
    obtain ⟨rfl, -⟩ := Prod.mk.inj (Option.some.inj h.2)
    exact hsingle (onSchema_openCircuits h.1.1)

/-- The schema after a list of actions is the one that their names lead to. -/
theorem schemaAfter_actions {actions : List Action}
    (h : Transition.run Action.onNames (schema, kept) actions = some (schema', kept')) :
    schemaAfter schema (actions.flatMap Action.script) = some schema' := by
  induction actions generalizing schema kept with
  | nil => exact congrArg some (Prod.mk.inj (Option.some.inj h)).1
  | cons action rest ih =>
    obtain ⟨⟨mid, names⟩, hmid, hrest⟩ := Transition.run_cons_eq_some h
    rw [List.flatMap_cons, schemaAfter_append, schemaAfter_action hmid]
    exact ih hrest

end Schemas

end Migrations
