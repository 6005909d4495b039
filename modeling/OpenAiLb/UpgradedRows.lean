import OpenAiLb.Upgrades

/-!
# Owners and circuit events after an upgrade

Two migrations write rows that later code relies on. A database that had no owners has each provider
owned by its root afterwards; a database without circuit events has one open event for each provider
that was cooling down. Both are still so after the migrations that follow.
-/

namespace Migrations

open Relational

/-- What is told of the circuit event of a provider in cooldown. -/
def openCircuit (provider : Row) : List Value :=
  [provider "id",
    if provider "last_error" = .null then .text "rate limited" else provider "last_error",
    if provider "rate_limit_json" = .null then .text "\x7b\x7d" else provider "rate_limit_json",
    if provider "last_used_at" = .null then provider "updated_at" else provider "last_used_at",
    provider "cooldown_until", .null, .null]

section Rows

variable {env : Environment} {db db' : Database} {kept : Names} {after : Schema × Names}

/-- **The providers** belong to the root after the migration that introduces owners. -/
theorem owners_of_run (h : run env db (providerOwnership.flatMap Action.script) = some db') :
    ∀ provider ∈ db'.rows "providers", provider "owner_id" = rootOf db' := by
  obtain ⟨added, hadded, h⟩ := Transition.run_cons_eq_some h
  obtain ⟨filled, hfilled, h⟩ := Transition.run_cons_eq_some h
  obtain ⟨indexed, hindexed, h⟩ := Transition.run_cons_eq_some h
  obtain ⟨granted, hgranted, h⟩ := Transition.run_cons_eq_some h
  obtain ⟨last, hlast, h⟩ := Transition.run_cons_eq_some h
  obtain rfl := Option.some.inj h
  have hrows : ∀ table, table ≠ "provider_grants" → last.rows table = filled.rows table := by
    intro table htable
    have hgrants : granted.rows table = indexed.rows table := by
      rw [(Statement.of_exec hgranted).2, Statement.onRows]
      split
      · rfl
      · exact Function.update_of_ne htable _ _
    rw [(Statement.of_exec hlast).2, Statement.onRows, hgrants, (Statement.of_exec hindexed).2,
      Statement.onRows]
  have hfilledRows := (Statement.of_exec hfilled).2
  rw [onRows_backfillOwner] at hfilledRows
  have husers : last.rows "users" = added.rows "users" := by
    rw [hrows _ (by decide), hfilledRows]
    exact Function.update_of_ne (by decide) _ _
  have hroot : rootOf last = rootOf added := by
    unfold rootOf
    rw [husers]
  intro provider hprovider
  rw [hrows _ (by decide), hfilledRows, Function.update_self] at hprovider
  obtain ⟨row, hrow, rfl⟩ := List.mem_map.mp hprovider
  rw [(Statement.of_exec hadded).2, Statement.onRows, Function.update_self] at hrow
  obtain ⟨before, -, rfl⟩ := List.mem_map.mp hrow
  have hnull : Function.update before "owner_id" Value.null "owner_id" = .null :=
    Function.update_self ..
  show ownedRow added (Function.update before "owner_id" Value.null) "owner_id" = rootOf last
  unfold ownedRow
  rw [if_pos hnull, Function.update_self, hroot]

/-- **The cooldowns** have their events after the migration that introduces them. -/
theorem circuits_of_run
    (h : run env db (providerCircuitEventsTable.flatMap Action.script) = some db')
    (hsafe : Transition.run Action.onNames (db.schema, kept) providerCircuitEventsTable =
      some after) :
    db'.project "provider_circuit_events" ["provider_id", "cause", "rate_limit_json", "opened_at",
      "cooldown_until", "closed_at", "resolution"] = (coolingProviders db').map openCircuit := by
  obtain ⟨⟨schema, names⟩, hparts, hsafe⟩ := Transition.run_cons_eq_some hsafe
  obtain ⟨_, hopen, -⟩ := Transition.run_cons_eq_some hsafe
  rw [Action.onNames, Option.ite_none_right_eq_some] at hopen
  have hcircuitable := hopen.1.1
  obtain ⟨created, hcreated, h⟩ := Transition.run_cons_eq_some h
  obtain ⟨timed, htimed, h⟩ := Transition.run_cons_eq_some h
  obtain ⟨indexed, hindexed, h⟩ := Transition.run_cons_eq_some h
  obtain ⟨last, hlast, h⟩ := Transition.run_cons_eq_some h
  obtain rfl := Option.some.inj h
  have hschema : indexed.schema = schema := by
    have hrun : run env db [Statement.createTable "provider_circuit_events" providerCircuitEvents
        false, .createIndex "provider_circuit_events" ⟨"provider_circuit_events_provider_time_idx",
          ["provider_id", "opened_at"], false, .always⟩ false,
        .createIndex "provider_circuit_events" ⟨"provider_circuit_events_open_provider_idx",
          ["provider_id"], true, .isNull "closed_at"⟩ false] = some indexed := by
      rw [run, Transition.run_cons, hcreated, Option.bind_some, Transition.run_cons, htimed,
        Option.bind_some, Transition.run_cons, hindexed]
      rfl
    exact Option.some.inj ((schema_of_run hrun).symm.trans (schemaAfter_action hparts))
  have hempty : indexed.rows "provider_circuit_events" = [] := by
    have hnew : "provider_circuit_events" ∉ db.schema.tables := by
      intro hmem
      have hrefused := (Statement.of_exec hcreated).1
      rw [Statement.onSchema, if_pos hmem] at hrefused
      cases hrefused
    rw [(Statement.of_exec hindexed).2, Statement.onRows, (Statement.of_exec htimed).2,
      Statement.onRows, (Statement.of_exec hcreated).2, Statement.onRows, if_neg hnew]
    exact Function.update_self ..
  have hheading : indexed.schema.heading? "provider_circuit_events" = some circuitEvents := by
    rw [hschema]
    unfold circuitable at hcircuitable
    simp only [Bool.and_eq_true, decide_eq_true_eq] at hcircuitable
    exact Schema.heading?_of_mem hcircuitable.1.1.1 hcircuitable.1.1.2
  have hrows := (Statement.of_exec hlast).2
  rw [onRows_openCircuits hheading hempty] at hrows
  have hproviders : coolingProviders last = coolingProviders indexed := by
    unfold coolingProviders
    rw [hrows, Function.update_of_ne (by decide)]
  unfold Database.project
  rw [hrows, Function.update_self, hproviders, List.map_map]
  have hfirst : (coolingProviders indexed).map openCircuit =
      (coolingProviders indexed).zipIdx.map fun found => openCircuit found.1 := by
    rw [← List.zipIdx_map_fst 0 (coolingProviders indexed), List.map_map, List.zipIdx_map_fst]
    rfl
  rw [hfirst]
  rfl

/-- The root is read off the columns of the users. -/
theorem rootOf_of_project
    (h : db'.project "users" ["id", "role"] = db.project "users" ["id", "role"]) :
    rootOf db' = rootOf db := by
  have hread : ∀ rows : List Row,
      ((rows.find? fun row => (Condition.equals "role" (.text "root")).holds row).elim .null
        fun row => row "id") =
        ((rows.map fun row => ["id", "role"].map row).find? fun values =>
          values[1]? = some (.text "root")).elim .null fun values => values.headD .null := by
    intro rows
    rw [List.find?_map]
    have hholds : (fun row : Row => (Condition.equals "role" (.text "root")).holds row) =
        ((fun values : List Value => decide (values[1]? = some (.text "root"))) ∘
          fun row : Row => ["id", "role"].map row) := by
      funext row
      simp [Condition.holds]
    rw [hholds]
    cases rows.find? _ <;> rfl
  unfold rootOf
  unfold Database.project at h
  rw [hread, hread, h]

end Rows

section Upgrade

variable {env : Environment} {start : Schema} {version target : ℕ} {db db' : Database}
  {migration : List Action}

/-- An upgrade goes through each pending migration. -/
theorem exists_through (hstart : start ∈ starts) (hrandom : Function.Injective env.random)
    (h : Installed start version db) (htarget : version ≤ target)
    (hmigration : migrations[target]? = some migration) :
    ∃ before after db', Installed start target before ∧
      run env before (migration.flatMap Action.script) = some after ∧
      Installed start (target + 1) after ∧
      Carries env (migrations.drop (target + 1)).flatten (keptAt after.schema) after db' ∧
      connectWithOptions env version db = .ok db' := by
  obtain ⟨hlt, rfl⟩ := List.getElem?_eq_some_iff.mp hmigration
  obtain ⟨before, hbefore, hfirst, hwithin⟩ :=
    @exists_upgrade env start version db hstart hrandom (target - version) (by omega) h
  rw [Nat.add_sub_cancel' htarget] at hbefore
  obtain ⟨after, hafter, hcarries, hwithin'⟩ := exists_carries hstart hrandom hbefore hmigration
  obtain ⟨db', -, hlast, -⟩ :=
    @exists_upgrade env start (target + 1) after hstart hrandom (migrations.length - (target + 1))
      (by omega) hafter
  rw [← List.length_drop, List.take_length] at hlast
  have hsplit : (migrations.drop version).flatten =
      ((migrations.drop version).take (target - version)).flatten ++
        (migrations[target] ++ (migrations.drop (target + 1)).flatten) := by
    rw [← List.flatten_cons, ← List.drop_eq_getElem_cons hlt, ← List.flatten_append]
    congr 1
    have hdrop := List.take_append_drop (target - version) (migrations.drop version)
    rwa [List.drop_drop, Nat.add_sub_cancel' htarget, eq_comm] at hdrop
  have hall : Carries env (migrations.drop version).flatten (keptAt db.schema) db db' := by
    rw [hsplit]
    exact hfirst.append ((hcarries.append (hlast.mono hwithin')).mono hwithin)
  exact ⟨before, after, db', hbefore, hcarries.run, hafter, hlast,
    connectWithOptions_of_carries hall⟩

/-- The owners and the users are where they were, from the migration that introduces owners on. -/
theorem project_after_owners {after : Database} (hstart : start ∈ starts)
    (hafter : schemaAt start 14 = some after.schema)
    (hcarries : Carries env (migrations.drop 14).flatten (keptAt after.schema) after db') :
    db'.project "providers" ["owner_id"] = after.project "providers" ["owner_id"] ∧
      db'.project "users" ["id", "role"] = after.project "users" ["id", "role"] := by
  have hcovers : after.schema.covers [("providers", ["owner_id"]), ("users", ["id", "role"])] =
      true := by
    have hall : ∀ start ∈ starts, (schemaAt start 14).all fun schema =>
        schema.covers [("providers", ["owner_id"]), ("users", ["id", "role"])] := by decide
    have hthis := hall start hstart
    rwa [hafter] at hthis
  have hpath : (path (migrations.drop 14).flatten).table "providers" = "providers" ∧
      ["owner_id"].map ((path (migrations.drop 14).flatten).column "providers") = ["owner_id"] ∧
        (path (migrations.drop 14).flatten).table "users" = "users" ∧
          ["id", "role"].map ((path (migrations.drop 14).flatten).column "users") =
            ["id", "role"] := by decide
  have hkeeps := hcarries.keeps
  generalize path (migrations.drop 14).flatten = ρ at hkeeps hpath
  obtain ⟨hproviders, howner, husers, hid⟩ := hpath
  obtain ⟨providers, hprovidersMem, hownerMem⟩ :=
    Schema.exists_of_covers hcovers List.mem_cons_self
  obtain ⟨users, husersMem, hidMem⟩ :=
    Schema.exists_of_covers hcovers (List.mem_cons_of_mem _ List.mem_cons_self)
  have hfirst := hkeeps ("providers", providers.names)
    (List.mem_map_of_mem (List.mem_filter.mpr ⟨hprovidersMem, by simp⟩)) ["owner_id"] hownerMem
  have hsecond := hkeeps ("users", users.names)
    (List.mem_map_of_mem (List.mem_filter.mpr ⟨husersMem, by simp⟩)) ["id", "role"] hidMem
  rw [hproviders, howner] at hfirst
  rw [husers, hid] at hsecond
  exact ⟨hfirst, hsecond⟩

/-- **After an upgrade** from a version without owners each provider belongs to the root, if there
is one, and to nobody otherwise; and after an upgrade from a version without circuit events each
provider in cooldown with a deadline has one open event, and there are no others. -/
theorem connectWithOptions_owners_and_circuits (env : Environment) (start : Schema) (version : ℕ)
    (db db' : Database) (hstart : start ∈ starts) (hrandom : Function.Injective env.random)
    (h : Installed start version db) (hconnect : connectWithOptions env version db = .ok db') :
    (version ≤ 13 → ∀ provider ∈ db'.rows "providers", provider "owner_id" = rootOf db') ∧
    (version ≤ 26 → db'.project "provider_circuit_events" ["provider_id", "cause",
      "rate_limit_json", "opened_at", "cooldown_until", "closed_at", "resolution"] =
        (coolingProviders db').map openCircuit) := by
  constructor
  · intro hversion
    obtain ⟨before, after, last, -, hrun, hafter, hcarries, hlast⟩ :=
      exists_through hstart hrandom h hversion rfl
    obtain rfl := Except.ok.inj (hlast.symm.trans hconnect)
    obtain ⟨hproviders, husers⟩ := project_after_owners hstart hafter.schema hcarries
    intro provider hprovider
    have hmem : [provider "owner_id"] ∈ after.project "providers" ["owner_id"] := by
      rw [← hproviders]
      exact List.mem_map_of_mem hprovider
    obtain ⟨before, hbefore, hsame⟩ := List.mem_map.mp hmem
    have howner : before "owner_id" = provider "owner_id" := List.head_eq_of_cons_eq hsame
    rw [← howner, owners_of_run hrun before hbefore, rootOf_of_project husers]
  · intro hversion
    obtain ⟨before, after, last, hbefore, hrun, -, hcarries, hlast⟩ :=
      exists_through hstart hrandom h hversion rfl
    obtain rfl := Except.ok.inj (hlast.symm.trans hconnect)
    have hnothing := hcarries.run
    rw [show (migrations.drop (26 + 1)).flatten = [] from rfl] at hnothing
    obtain rfl := Option.some.inj hnothing
    obtain ⟨schema', hstep, -⟩ := exists_onSchema hstart hbefore.schema
      (show migrations[26]? = some _ from rfl)
    obtain ⟨after', hsafe, -⟩ := Option.bind_eq_some_iff.mp hstep
    exact circuits_of_run hrun hsafe

/-- A row with these values, and null in the other columns. -/
def rowOf (values : List (String × Value)) : Row := fun c => (values.lookup c).getD .null

/-- A database without owners, with a root and a provider that is cooling down. -/
def ownerlessFixture : Database where
  schema := (schemaAt [] 13).getD []
  rows := fun table =>
    if table = "users" then
      [rowOf [("id", .text "root"), ("role", .text "root"), ("created_at", .integer 1),
        ("provider_access", .integer 1)]]
    else if table = "providers" then
      [rowOf [("id", .text "provider"), ("name", .text "cooling"), ("account_id", .text "account"),
        ("access_token", .text "access"), ("refresh_token", .text "refresh"),
        ("status", .text "cooldown"), ("manual_disabled", .integer 0),
        ("cooldown_until", .integer 100), ("last_error", .text "limit"), ("created_at", .integer 3),
        ("updated_at", .integer 4)]]
    else []

/-- It is one of version 13. -/
theorem installed_ownerlessFixture : Installed [] 13 ownerlessFixture where
  schema := rfl
  valid := by
    unfold Database.Valid
    decide
  references := by
    rw [← Database.violations_eq_nil, ← List.length_eq_zero_iff]
    decide
  root := fun hversion => absurd hversion (by decide)
  absent := fun key _ => rfl

/-- The provider belongs to the root afterwards, and its cooldown is an open event. -/
theorem ownerlessFixture_owners :
    ∃ db', connectWithOptions unaryNames 13 ownerlessFixture = .ok db' ∧
      (∀ provider ∈ db'.rows "providers", provider "owner_id" = .text "root") ∧
      db'.project "provider_circuit_events" ["provider_id", "cause", "rate_limit_json", "opened_at",
        "cooldown_until", "closed_at", "resolution"] =
          [[.text "provider", .text "limit", .text "\x7b\x7d", .integer 4, .integer 100, .null,
            .null]] := by
  have hseen : (connectWithOptions unaryNames 13 ownerlessFixture).toOption.map
      (fun db' => (rootOf db', (coolingProviders db').map openCircuit)) =
        some (.text "root", [[.text "provider", .text "limit", .text "\x7b\x7d", .integer 4,
          .integer 100, .null, .null]]) := by decide
  have hstart : [] ∈ starts := List.mem_cons_self
  cases hconnect : connectWithOptions unaryNames 13 ownerlessFixture with
  | error e =>
    rw [hconnect] at hseen
    cases hseen
  | ok db' =>
    rw [hconnect] at hseen
    obtain ⟨hroot, hcooling⟩ := Prod.mk.inj (Option.some.inj hseen)
    obtain ⟨howners, hcircuits⟩ := connectWithOptions_owners_and_circuits unaryNames [] 13
      ownerlessFixture db' hstart unaryNames_injective installed_ownerlessFixture hconnect
    exact ⟨db', rfl, fun provider hprovider =>
      (howners (by decide) provider hprovider).trans hroot, (hcircuits (by decide)).trans hcooling⟩

end Upgrade

end Migrations
