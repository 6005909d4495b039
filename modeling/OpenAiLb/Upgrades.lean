import OpenAiLb.MigrationSafety
import Mathlib.Data.List.Flatten

/-!
# Upgrades from every version

A database of any version, new or of version 0.1 or later, becomes one of the current version when
it is opened. The checks that depend on the schema are evaluated once along all migrations; the
upgrade from a version in between is the rest of that walk.
-/

namespace Migrations

open Relational

/-- The tables whose rows an upgrade keeps, with their columns. -/
def keptAt (schema : Schema) : Names :=
  (schema.filter fun entry => entry.1 ∉ ["app_meta", "oauth_flows"]).map fun entry =>
    (entry.1, entry.2.names)

/-- A migration on the schema, when it is safe for every database with this schema. -/
def onSchema (schema : Schema) (migration : List Action) : Option Schema :=
  (Transition.run Action.onNames (schema, keptAt schema) migration).bind fun after =>
    if schema.tables.Nodup ∧ Within after.2 (keptAt after.1) then some after.1 else none

/-- The schemas that a database can have before its first migration. -/
def starts : List Schema := [[], legacy]

/-- A database that has seen the migrations before this version. -/
structure Installed (start : Schema) (version : ℕ) (db : Database) : Prop where
  schema : schemaAt start version = some db.schema
  valid : db.Valid
  references : db.References
  root : version < 2 → "users" ∈ db.schema.tables → SingleRoot db
  absent : ∀ key ∈ (migrations.drop version).flatten.flatMap Action.inserted,
    setting? db key = none

section Walk

variable {start schema schema' : Schema} {version : ℕ}

/-- A schema from which all migrations are safe for the schemas that they meet. -/
structure SafeStart where
  schema : Schema
  safe : (Transition.run onSchema schema migrations).isSome = true

/-- A new file. -/
def freshStart : SafeStart := ⟨[], by decide +kernel⟩

/-- A file of version 0.1. -/
def legacyStart : SafeStart := ⟨legacy, by decide +kernel⟩

/-- **All migrations** are safe from every start. -/
theorem walk (hstart : start ∈ starts) :
    (Transition.run onSchema start migrations).isSome = true := by
  rcases List.mem_cons.mp hstart with rfl | hstart
  · exact freshStart.safe
  · rw [List.mem_singleton.mp hstart]
    exact legacyStart.safe

/-- A walk through the migrations leads to the schema after their scripts. -/
theorem schemaAfter_walk {list : List (List Action)}
    (h : Transition.run onSchema schema list = some schema') :
    schemaAfter schema (list.flatten.flatMap Action.script) = some schema' := by
  induction list generalizing schema with
  | nil => exact h
  | cons migration rest ih =>
    obtain ⟨mid, hmid, hrest⟩ := Transition.run_cons_eq_some h
    obtain ⟨⟨after, names⟩, hafter, hsome⟩ := Option.bind_eq_some_iff.mp hmid
    rw [Option.ite_none_right_eq_some] at hsome
    obtain rfl := Option.some.inj hsome.2
    rw [List.flatten_cons, List.flatMap_append, schemaAfter_append, schemaAfter_actions hafter]
    exact ih hrest

/-- The schema of a version allows its migration, and the result is that of the next version. -/
theorem exists_onSchema (hstart : start ∈ starts) (hschema : schemaAt start version = some schema)
    {migration : List Action} (hmigration : migrations[version]? = some migration) :
    ∃ schema', onSchema schema migration = some schema' ∧
      schemaAt start (version + 1) = some schema' := by
  obtain ⟨final, hfinal⟩ := Option.isSome_iff_exists.mp (walk hstart)
  have hsplit := Transition.run_append onSchema start (migrations.take version)
    (migrations.drop version)
  rw [List.take_append_drop, hfinal] at hsplit
  obtain ⟨before, hbefore, hrest⟩ := Option.bind_eq_some_iff.mp hsplit.symm
  obtain rfl := Option.some.inj (hschema.symm.trans (schemaAfter_walk hbefore))
  obtain ⟨hlt, rfl⟩ := List.getElem?_eq_some_iff.mp hmigration
  rw [List.drop_eq_getElem_cons hlt] at hrest
  obtain ⟨schema', hstep, -⟩ := Transition.run_cons_eq_some hrest
  refine ⟨schema', hstep, schemaAfter_walk ?_⟩
  rw [List.take_succ_eq_append_getElem hlt, Transition.run_append, hbefore, Option.bind_some,
    Transition.run_cons, hstep]
  rfl

end Walk

section Steps

variable {env : Environment} {start schema : Schema} {version : ℕ} {db : Database}
  {migration : List Action}

/-- A schema covers the names that are kept of it. -/
theorem covers_keptAt (hnodup : schema.tables.Nodup) : schema.covers (keptAt schema) = true := by
  refine List.all_eq_true.mpr fun entry hentry => ?_
  obtain ⟨found, hfound, rfl⟩ := List.mem_map.mp hentry
  rw [Schema.heading?_of_mem hnodup (List.mem_of_mem_filter hfound), Option.any_some]
  exact List.all_eq_true.mpr fun c hc => decide_eq_true hc

/-- A setting that no action inserts stays absent. -/
theorem foldl_onSettings_eq_none {actions : List Action} {s : Settings} {key : String}
    (hkey : key ∉ actions.flatMap Action.inserted) (hs : s key = none) :
    actions.foldl Action.onSettings s key = none := by
  induction actions generalizing s with
  | nil => exact hs
  | cons action rest ih =>
    rw [List.flatMap_cons, List.mem_append, not_or] at hkey
    refine ih hkey.2 ?_
    cases action with
    | settings defaults =>
      have hlookup : defaults.lookup key = none := by
        rw [List.lookup_eq_none_iff]
        intro setting hsetting
        have hne : key ≠ setting.1 := fun h => hkey.1 (h ▸ List.mem_map_of_mem hsetting)
        simpa using hne
      show (s key).or ((defaults.lookup key).map Value.text) = none
      rw [hs, hlookup]
      rfl
    | setting other value =>
      have hne : key ≠ other := fun h => hkey.1 (h ▸ List.mem_singleton_self _)
      show Function.update s other _ key = none
      rw [Function.update_of_ne hne, hs]
    | rewrite other old new =>
      show (if key = other ∧ s key = some (.text old) then some (.text new) else s key) = none
      rw [hs, if_neg fun h => by cases h.2]
    | _ => exact hs

/-- The defaults of earlier versions that an upgrade replaces. -/
def historicalDefaults : List (String × Value) :=
  [("request_archive_retention_days", .text "7"), ("image_body_limit", .text "4194304")]

/-- An action replaces no value but a default of an earlier version. -/
def Action.rewritesDefault : Action → Bool
  | rewrite key old _ => (key, .text old) ∈ historicalDefaults
  | _ => true

/-- A value that is no default of an earlier version stays. -/
theorem foldl_onSettings_eq_some {actions : List Action} {s : Settings} {key : String}
    {value : Value} (hs : s key = some value) (hkey : key ∉ actions.flatMap Action.inserted)
    (hactions : ∀ action ∈ actions, action.rewritesDefault = true)
    (hvalue : (key, value) ∉ historicalDefaults) :
    actions.foldl Action.onSettings s key = some value := by
  induction actions generalizing s with
  | nil => exact hs
  | cons action rest ih =>
    rw [List.flatMap_cons, List.mem_append, not_or] at hkey
    refine ih ?_ hkey.2 fun other hother => hactions other (List.mem_cons_of_mem _ hother)
    have haction := hactions action List.mem_cons_self
    cases action with
    | settings defaults =>
      show (s key).or ((defaults.lookup key).map Value.text) = some value
      rw [hs, Option.some_or]
    | setting other _ =>
      have hne : key ≠ other := fun h => hkey.1 (h ▸ List.mem_singleton_self _)
      show Function.update s other _ key = some value
      rw [Function.update_of_ne hne, hs]
    | rewrite other old new =>
      show (if key = other ∧ s key = some (.text old) then some (.text new) else s key) = some value
      rw [hs, if_neg]
      rintro ⟨rfl, h⟩
      obtain rfl := Option.some.inj h
      exact hvalue (of_decide_eq_true haction)
    | _ => exact hs

/-- An action of the migrations rewrites no setting but a default. -/
theorem rewritesDefault_of_mem {action : Action} (h : action ∈ migrations.flatten) :
    action.rewritesDefault = true := by
  have hall : ∀ action ∈ migrations.flatten, action.rewritesDefault = true := by decide
  exact hall action h

/-- No setting is inserted twice. -/
theorem nodup_inserted : (migrations.flatten.flatMap Action.inserted).Nodup := by decide

/-- The settings that are still to be inserted: those of the next migration, then the others. -/
theorem inserted_drop (hmigration : migrations[version]? = some migration) :
    (migrations.drop version).flatten.flatMap Action.inserted =
      migration.flatMap Action.inserted ++
        (migrations.drop (version + 1)).flatten.flatMap Action.inserted := by
  obtain ⟨hlt, rfl⟩ := List.getElem?_eq_some_iff.mp hmigration
  rw [List.drop_eq_getElem_cons hlt, List.flatten_cons, List.flatMap_append]

/-- The next migration inserts no setting twice, and no later one inserts it again. -/
theorem nodup_inserted_drop (hmigration : migrations[version]? = some migration) :
    (migration.flatMap Action.inserted ++
      (migrations.drop (version + 1)).flatten.flatMap Action.inserted).Nodup := by
  have hnodup := nodup_inserted
  rw [← List.take_append_drop version migrations, List.flatten_append, List.flatMap_append,
    inserted_drop hmigration] at hnodup
  exact (List.nodup_append.mp hnodup).2.1

/-- The actions that look at the rows stand in the first two migrations and in the last. -/
def Action.stands (version : ℕ) : Action → Bool
  | settings _ => version = 0
  | singleRoot => version = 1
  | openCircuits => version = 26
  | _ => true

/-- An action stands in a migration where it may. -/
theorem stands_of_mem {action : Action} (hmigration : migrations[version]? = some migration)
    (haction : action ∈ migration) : action.stands version = true := by
  have hall : ∀ found ∈ migrations.zipIdx, ∀ action ∈ found.1, action.stands found.2 = true := by
    decide
  exact hall (migration, version) (List.mk_mem_zipIdx_iff_getElem?.mpr hmigration) action haction

/-- Before the second of two actions stands the first one only. -/
theorem eq_singleton_of_pair {first second other : Action} {before rest : List Action}
    (h : [first, second] = before ++ other :: rest) (hother : other ≠ first) :
    before = [first] := by
  match before, h with
  | [], h => exact absurd (List.cons.inj h).1.symm hother
  | [_], h => rw [(List.cons.inj h).1]
  | _ :: _ :: before, h =>
    have hnil := (List.cons.inj (List.cons.inj h).2).2
    simp at hnil

/-- What carries some rows carries fewer. -/
theorem Carries.mono {actions : List Action} {kept fewer : Names} {db' : Database}
    (h : Carries env actions kept db db')
    (hfewer : Within fewer kept) : Carries env actions fewer db db' :=
  { h with keeps := h.keeps.mono hfewer }

/-- The roles are kept where the users are. -/
theorem SingleRoot.of_keeps {ρ : Renaming} {db' : Database} (h : SingleRoot db)
    (hkeeps : db.Keeps (keptAt db.schema) ρ db')
    (hcovers : db.schema.covers [("users", ["role"])] = true) (htable : ρ.table "users" = "users")
    (hcolumn : ρ.column "users" "role" = "role") : SingleRoot db' := by
  obtain ⟨heading, hheading, hrole⟩ := Schema.exists_of_covers hcovers (List.mem_singleton_self _)
  have hkept : ("users", heading.names) ∈ keptAt db.schema :=
    List.mem_map_of_mem (List.mem_filter.mpr ⟨hheading, by simp⟩)
  have hproject := hkeeps _ hkept ["role"] hrole
  rw [htable, List.map_singleton, hcolumn] at hproject
  unfold SingleRoot
  rw [hproject]
  exact h

/-- Without users there is no second root. -/
theorem SingleRoot.of_vacant (h : db.Vacant "users") (husers : "users" ∈ db.schema.tables) :
    SingleRoot db := by
  unfold SingleRoot Database.project
  rw [h husers]
  exact Nat.zero_le _

/-- Each action of a migration is ready when its turn comes. -/
theorem ready (hstart : start ∈ starts) (h : Installed start version db)
    (hmigration : migrations[version]? = some migration) {first rest : List Action}
    {action : Action} (hsplit : migration = first ++ action :: rest) {mid : Database}
    (hmid : Carries env first (keptAt db.schema) db mid) : action.Ready mid := by
  have hmember : action ∈ migration := by simp [hsplit]
  have hstands := stands_of_mem hmigration hmember
  cases action with
  | settings defaults =>
    obtain rfl : version = 0 := of_decide_eq_true hstands
    obtain rfl := Option.some.inj hmigration
    have hfirst := eq_singleton_of_pair hsplit (by simp)
    refine hmid.vacant "app_meta" (fun other hother => ?_) fun hmem => absurd hmem ?_
    · rw [hfirst] at hother
      obtain rfl := List.mem_singleton.mp hother
      exact ⟨rfl, by simp [Action.written]⟩
    · have hall : ∀ start ∈ starts, "app_meta" ∉ start.tables := by decide
      exact Option.some.inj h.schema ▸ hall start hstart
  | setting key value =>
    show setting? mid key = none
    rw [hmid.settings]
    have hnodup := (List.nodup_append.mp (nodup_inserted_drop hmigration)).1
    rw [hsplit, List.flatMap_append, List.flatMap_cons] at hnodup
    refine foldl_onSettings_eq_none (fun hbefore => ?_) (h.absent key ?_)
    · exact (List.nodup_append.mp hnodup).2.2 key hbefore key
        (List.mem_append_left _ (List.mem_singleton_self _)) rfl
    · rw [inserted_drop hmigration, hsplit, List.flatMap_append, List.flatMap_cons]
      simp [Action.inserted]
  | singleRoot =>
    obtain rfl : version = 1 := of_decide_eq_true hstands
    obtain rfl := Option.some.inj hmigration
    have hfirst := eq_singleton_of_pair hsplit (by simp)
    have hcovers : db.schema.covers [("users", ["role"])] = true := by
      have hall : ∀ start ∈ starts, (schemaAt start 1).all fun schema =>
          schema.covers [("users", ["role"])] := by decide
      have hthis := hall start hstart
      rwa [h.schema] at hthis
    obtain ⟨heading, hheading, -⟩ := Schema.exists_of_covers hcovers (List.mem_singleton_self _)
    refine (h.root (by omega) (List.mem_map_of_mem hheading)).of_keeps hmid.keeps hcovers ?_ ?_
    · rw [hfirst]
      rfl
    · rw [hfirst]
      rfl
  | openCircuits =>
    obtain rfl : version = 26 := of_decide_eq_true hstands
    obtain rfl := Option.some.inj hmigration
    have hfirst := eq_singleton_of_pair hsplit (by simp)
    refine hmid.vacant _ (fun other hother => ?_) fun hmem => absurd hmem ?_
    · rw [hfirst] at hother
      obtain rfl := List.mem_singleton.mp hother
      exact ⟨rfl, by simp [Action.written]⟩
    · have hall : ∀ start ∈ starts, (schemaAt start 26).all fun schema =>
          "provider_circuit_events" ∉ schema.tables := by decide
      have hthis := hall start hstart
      rw [h.schema] at hthis
      exact of_decide_eq_true hthis
  | _ => trivial

/-- **One migration** brings a database from its version to the next. -/
theorem exists_carries (hstart : start ∈ starts) (hrandom : Function.Injective env.random)
    (h : Installed start version db) (hmigration : migrations[version]? = some migration) :
    ∃ db', Installed start (version + 1) db' ∧ Carries env migration (keptAt db.schema) db db' ∧
      Within ((path migration).names (keptAt db.schema)) (keptAt db'.schema) := by
  obtain ⟨schema', hstep, hschema'⟩ := exists_onSchema hstart h.schema hmigration
  obtain ⟨⟨after, names⟩, hafter, hsome⟩ := Option.bind_eq_some_iff.mp hstep
  rw [Option.ite_none_right_eq_some] at hsome
  obtain ⟨⟨hnodup, hwithin⟩, hsome⟩ := hsome
  obtain rfl := Option.some.inj hsome
  obtain ⟨db', rfl, rfl, hcarries⟩ := carries_actions hrandom h.valid h.references
    (covers_keptAt hnodup) hafter fun first action rest hsplit mid hmid =>
      ready hstart h hmigration hsplit hmid
  refine ⟨db', ⟨hschema', hcarries.valid, hcarries.references, fun hversion husers => ?_,
    fun key hkey => ?_⟩, hcarries, hwithin⟩
  · obtain rfl : version = 0 := by omega
    obtain rfl := Option.some.inj hmigration
    by_cases hmem : "users" ∈ db.schema.tables
    · have hcovers : db.schema.covers [("users", ["role"])] = true := by
        have hall : ∀ start ∈ starts, "users" ∈ start.tables →
            start.covers [("users", ["role"])] = true := by decide
        exact Option.some.inj h.schema ▸ hall start hstart (Option.some.inj h.schema ▸ hmem)
      exact (h.root (by omega) hmem).of_keeps hcarries.keeps hcovers rfl rfl
    · refine .of_vacant (hcarries.vacant "users" (fun action haction => ?_)
        fun hmem' => absurd hmem' hmem) husers
      rcases List.mem_cons.mp haction with rfl | haction
      · exact ⟨rfl, by simp [Action.written]⟩
      · obtain rfl := List.mem_singleton.mp haction
        exact ⟨rfl, by simp [Action.written]⟩
  · rw [hcarries.settings]
    have hlater := (List.nodup_append.mp (nodup_inserted_drop hmigration)).2.2
    refine foldl_onSettings_eq_none (fun hbefore => hlater key hbefore key hkey rfl)
      (h.absent key ?_)
    rw [inserted_drop hmigration]
    exact List.mem_append_right _ hkey

/-- **The next migrations** bring a database from its version to a later one. -/
theorem exists_upgrade (hstart : start ∈ starts) (hrandom : Function.Injective env.random)
    {n : ℕ} (hn : version + n ≤ migrations.length) (h : Installed start version db) :
    ∃ db', Installed start (version + n) db' ∧
      Carries env ((migrations.drop version).take n).flatten (keptAt db.schema) db db' ∧
      Within ((path ((migrations.drop version).take n).flatten).names (keptAt db.schema))
        (keptAt db'.schema) := by
  induction n generalizing version db with
  | zero =>
    refine ⟨db, h, ?_⟩
    rw [List.take_zero]
    exact ⟨.nil h.valid h.references, by
      rw [show path ([] : List (List Action)).flatten = .same from rfl, names_same]
      exact .refl _⟩
  | succ n ih =>
    have hlt : version < migrations.length := by omega
    obtain ⟨mid, hmid, hcarries, hwithin⟩ :=
      exists_carries hstart hrandom h (List.getElem?_eq_getElem hlt)
    obtain ⟨db', hdb', hrest, hwithin'⟩ := ih (by omega) hmid
    refine ⟨db', by rwa [Nat.add_right_comm, Nat.add_assoc] at hdb', ?_⟩
    rw [List.drop_eq_getElem_cons hlt, List.take_succ_cons, List.flatten_cons]
    refine ⟨hcarries.append (hrest.mono hwithin), ?_⟩
    rw [path_append, Renaming.names_trans]
    exact (hwithin.names _).trans hwithin'

end Steps

section Upgrade

variable {env : Environment} {start : Schema} {version : ℕ} {db : Database}

/-- The columns that a migrated database has kept are among its own. -/
theorem connectWithOptions_of_carries {kept : Names} {db' : Database}
    (h : Carries env (migrations.drop version).flatten kept db db') :
    connectWithOptions env version db = .ok db' := by
  unfold connectWithOptions pending
  rw [h.run]
  dsimp only
  rw [if_pos (List.length_eq_zero_iff.mpr (Database.violations_eq_nil.mpr h.references))]

/-- **Opening a database** of any version succeeds. It has the current schema afterwards, and its
constraints and foreign keys hold. Each column of each table is read where the migrations brought
it, apart from the dropped authorization flows; and the settings are those of before, with the
settings of later versions and with two defaults of earlier versions replaced. What an operator has
set stays. -/
theorem connectWithOptions_upgrades (env : Environment) (start : Schema) (version : ℕ)
    (db : Database) (hstart : start ∈ starts) (hversion : version ≤ migrations.length)
    (hrandom : Function.Injective env.random) (h : Installed start version db) :
    ∃ db', connectWithOptions env version db = .ok db' ∧
      Installed start migrations.length db' ∧
      Within ((path (migrations.drop version).flatten).names (keptAt db.schema))
        (keptAt db'.schema) ∧
      db.Keeps (keptAt db.schema) (path (migrations.drop version).flatten) db' ∧
      setting? db' = (migrations.drop version).flatten.foldl Action.onSettings (setting? db) ∧
      ∀ key value, setting? db key = some value → (key, value) ∉ historicalDefaults →
        setting? db' key = some value := by
  obtain ⟨db', hdb', hcarries, hwithin⟩ := exists_upgrade hstart hrandom
    (Nat.le_of_eq (Nat.add_sub_cancel' hversion)) h
  rw [Nat.add_sub_cancel' hversion] at hdb'
  rw [← List.length_drop, List.take_length] at hcarries hwithin
  refine ⟨db', connectWithOptions_of_carries hcarries, hdb', hwithin, hcarries.keeps,
    hcarries.settings, fun key value hkey hvalue => ?_⟩
  rw [hcarries.settings]
  refine foldl_onSettings_eq_some hkey (fun hlater => ?_) (fun action haction => ?_) hvalue
  · rw [h.absent key hlater] at hkey
    cases hkey
  · refine rewritesDefault_of_mem ?_
    rw [← List.take_append_drop version migrations, List.flatten_append]
    exact List.mem_append_right _ haction

/-- An environment whose names are all different. -/
def unaryNames : Environment := ⟨0, fun n => String.ofList (List.replicate n 'a')⟩

/-- Names of different lengths are different. -/
theorem unaryNames_injective : Function.Injective unaryNames.random := by
  intro m n h
  have hlists := congrArg String.toList h
  simp only [unaryNames, String.toList_ofList] at hlists
  simpa using congrArg List.length hlists

/-- A database of version 0.1 with a row in each table. -/
def legacyFixture : Database where
  schema := legacy
  rows := fun table =>
    if table = "users" then
      [(usersWithRoles ["admin", "user"]).row [("id", .text "legacy-admin"),
        ("email", .text "admin@example.com"), ("role", .text "admin"), ("created_at", .integer 1)]]
    else if table = "api_keys" then
      [apiKeys.row [("id", .text "key"), ("user_id", .text "legacy-admin"),
        ("name", .text "legacy"), ("prefix", .text "sk-old"), ("secret_hash", .text "hash"),
        ("created_at", .integer 2)]]
    else if table = "oauth_flows" then
      [oauthFlows.row [("state_hash", .text "flow"), ("verifier_enc", .text "verifier"),
        ("created_by", .text "legacy-admin"), ("expires_at", .integer 100)]]
    else if table = "admin_audit" then
      [adminAudit.row [("id", .text "audit"), ("admin_user_id", .text "legacy-admin"),
        ("action", .text "legacy.action"), ("created_at", .integer 6)]]
    else if table = "channels" then
      [channels.row [("id", .text "channel"), ("name", .text "legacy"),
        ("account_id", .text "account"), ("access_enc", .text "access"),
        ("refresh_enc", .text "refresh"), ("created_at", .integer 3), ("updated_at", .integer 3)]]
    else if table = "affinities" then
      [affinities.row [("affinity_hash", .text "affinity"), ("channel_id", .text "channel"),
        ("expires_at", .integer 100), ("updated_at", .integer 4)]]
    else if table = "api_calls" then
      [apiCalls.row [("id", .text "call"), ("request_id", .text "request"),
        ("api_key_id", .text "key"), ("user_id", .text "legacy-admin"),
        ("channel_id", .text "channel"), ("method", .text "POST"), ("path", .text "/v1/responses"),
        ("status", .integer 200), ("latency_ms", .integer 5), ("created_at", .integer 5)]]
    else []

/-- The fixture is a database of version 0.1. -/
theorem installed_legacyFixture : Installed legacy 0 legacyFixture where
  schema := rfl
  valid := by
    unfold Database.Valid
    decide
  references := by
    rw [← Database.violations_eq_nil, ← List.length_eq_zero_iff]
    decide
  root := by
    unfold SingleRoot
    decide
  absent := fun key _ => by
    rw [setting?_of_vacant fun h => absurd h (by decide)]

/-- The statement for the fixture: the migrated provider has the tokens of its channel. -/
theorem legacyFixture_connects :
    ∃ db', connectWithOptions unaryNames 0 legacyFixture = .ok db' ∧
      db'.project "providers" ["access_token", "refresh_token"] =
        [[.text "access", .text "refresh"]] := by
  obtain ⟨db', hconnect, -, -, hkeeps, -⟩ := connectWithOptions_upgrades unaryNames
    legacy 0 legacyFixture (by simp [starts]) (by decide) unaryNames_injective
    installed_legacyFixture
  refine ⟨db', hconnect, ?_⟩
  have hmem : ("channels", channels.names) ∈ keptAt legacyFixture.schema := by decide
  have hkept := hkeeps _ hmem ["access_enc", "refresh_enc"] (by decide)
  have hpath : (path (migrations.drop 0).flatten).table "channels" = "providers" ∧
      ["access_enc", "refresh_enc"].map ((path (migrations.drop 0).flatten).column "channels") =
        ["access_token", "refresh_token"] := by decide
  have hbefore : legacyFixture.project "channels" ["access_enc", "refresh_enc"] =
      [[.text "access", .text "refresh"]] := by decide
  generalize path (migrations.drop 0).flatten = ρ at hkept hpath
  rw [hpath.1, hpath.2] at hkept
  exact hkept.trans hbefore

end Upgrade

end Migrations
