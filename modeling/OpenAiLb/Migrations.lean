import OpenAiLb.Library.RowChanges

/-!
# The migrations of the database

The scripts under `migrations`, in the order of their versions, and the connection that carries out
those that a database file has not seen yet. Types of columns, orders of indexes, triggers and what
a foreign key does on deletion are left out; a text key is not null, as in every statement of the
program, although SQLite does not enforce it. A database of version 0.1 has seen no migration, but
has tables.
-/

namespace Migrations

open Relational Column

/-- What a script does at one place. -/
inductive Action where
  /-- Tables, columns and indexes, and the copy of a table that is rebuilt. -/
  | parts (list : List Part)
  /-- `INSERT OR IGNORE INTO app_meta(key,value,updated_at) VALUES …`. -/
  | settings (defaults : List (String × String))
  /-- `INSERT INTO app_meta(key,value,updated_at) VALUES(key,value,unixepoch())`. -/
  | setting (key value : String)
  /-- `UPDATE app_meta SET value=new,updated_at=unixepoch() WHERE key=key AND value=old`. -/
  | rewrite (key old new : String)
  /-- The statement that lets no second root in. -/
  | singleRoot
  /-- The statement that gives providers without an owner to the root. -/
  | backfillOwner
  /-- The statement that opens a circuit event for each cooldown. -/
  | openCircuits

/-- The values of a setting. -/
def settingRow (key value : String) : List (String × Expr) :=
  [("key", .literal (.text key)), ("value", .literal (.text value)), ("updated_at", .now)]

/-- `CREATE UNIQUE INDEX users_single_root ON users(role) WHERE role='root'`. -/
def usersSingleRoot : Index := ⟨"users_single_root", ["role"], true, .equals "role" (.text "root")⟩

/-- `(SELECT id FROM users WHERE role = 'root')`. -/
def rootId : Expr := .select "users" "id" (.equals "role" (.text "root"))

/-- `status = 'cooldown' AND cooldown_until IS NOT NULL`. -/
def coolingDown : Condition :=
  .and (.equals "status" (.text "cooldown")) (.isNotNull "cooldown_until")

/-- The values of the circuit event of a provider in cooldown. -/
def circuitEvent : List (String × Expr) :=
  [("id", .random), ("provider_id", .column "id"),
    ("cause", .coalesce (.column "last_error") (.literal (.text "rate limited"))),
    ("rate_limit_json", .coalesce (.column "rate_limit_json") (.literal (.text "\x7b\x7d"))),
    ("opened_at", .coalesce (.column "last_used_at") (.column "updated_at")),
    ("cooldown_until", .column "cooldown_until")]

/-- The statements of an action. -/
def Action.script : Action → List Statement
  | parts list => list.flatMap Part.script
  | settings defaults =>
    [.insertValues "app_meta" (defaults.map fun setting => settingRow setting.1 setting.2) true]
  | setting key value => [.insertValues "app_meta" [settingRow key value] false]
  | rewrite key old new =>
    [.update "app_meta" [("value", .literal (.text new)), ("updated_at", .now)]
      (.and (.equals "key" (.text key)) (.equals "value" (.text old)))]
  | singleRoot => [.createIndex "users" usersSingleRoot false]
  | backfillOwner => [.update "providers" [("owner_id", rootId)] (.isNull "owner_id")]
  | openCircuits => [.insertSelect "provider_circuit_events" circuitEvent "providers" coolingDown]

/-- An index that is not unique. -/
def index (table name : String) (columns : List String) : Part :=
  .change (.createIndex table ⟨name, columns, false, .always⟩ false)

/-- `CREATE INDEX IF NOT EXISTS`. -/
def indexIfNotExists (table name : String) (columns : List String) : Part :=
  .change (.createIndex table ⟨name, columns, false, .always⟩ true)

/-- `ALTER TABLE table ADD COLUMN column`. -/
def add (table : String) (column : Column) : Part := .change (.addColumn table column)

/-- `CHECK(name IN (0,1))`. -/
def flag (name : String) : Column := (named name).required.oneOf [.integer 0, .integer 1]

/-- `INTEGER NOT NULL DEFAULT 0`. -/
def count (name : String) : Column := (named name).required.byDefault (.integer 0)

section Tables

/-- The settings. -/
def appMeta : Heading :=
  ⟨[(named "key").required, (named "value").required, (named "updated_at").required], ["key"], []⟩

/-- The table of users, with these roles. -/
def usersWithRoles (roles : List String) : Heading :=
  ⟨[(named "id").required, named "email", named "display_name",
    (named "role").required.oneOf (roles.map Value.text), (named "created_at").required],
    ["id"], []⟩

/-- The keys, which later are the consumers. -/
def apiKeys : Heading :=
  ⟨[(named "id").required, (named "user_id").required.refersTo "users" "id",
    (named "name").required, (named "prefix").required, (named "secret_hash").required,
    (named "created_at").required, named "last_used_at", named "revoked_at"], ["id"],
    [⟨"sqlite_autoindex_api_keys_2", ["secret_hash"], true, .always⟩]⟩

/-- The channels, which later are the providers. -/
def channels : Heading :=
  ⟨[(named "id").required, (named "name").required, (named "account_id").required,
    (named "access_enc").required, (named "refresh_enc").required, named "expires_at",
    (named "status").required.byDefault (.text "active"), count "manual_disabled",
    named "cooldown_until", named "rate_limit_json", named "last_error", named "last_used_at",
    (named "created_at").required, (named "updated_at").required], ["id"], []⟩

/-- The OAuth flows, until they are kept in memory. -/
def oauthFlows : Heading :=
  ⟨[(named "state_hash").required, (named "verifier_enc").required,
    (named "created_by").required.refersTo "users" "id", (named "expires_at").required],
    ["state_hash"], []⟩

/-- The affinities. -/
def affinities : Heading :=
  ⟨[(named "affinity_hash").required, (named "channel_id").required.refersTo "channels" "id",
    (named "expires_at").required, (named "updated_at").required], ["affinity_hash"], []⟩

/-- The calls. -/
def apiCalls : Heading :=
  ⟨[(named "id").required, (named "request_id").required,
    (named "api_key_id").required.refersTo "api_keys" "id",
    (named "user_id").required.refersTo "users" "id",
    (named "channel_id").refersTo "channels" "id", (named "method").required,
    (named "path").required, named "model", (named "status").required,
    (named "latency_ms").required, count "input_tokens", count "output_tokens",
    count "cached_tokens", named "error", named "client_ip", (named "created_at").required],
    ["id"], []⟩

/-- What administrators have done. -/
def adminAudit : Heading :=
  ⟨[(named "id").required, (named "admin_user_id").required.refersTo "users" "id",
    (named "action").required, named "target_id", named "client_ip",
    (named "created_at").required], ["id"], []⟩

/-- The archives of the calls. -/
def requestArchives : Heading :=
  ⟨[(named "api_call_id").required.refersTo "api_calls" "id",
    (named "request_headers_json").required, (named "request_body").required,
    flag "request_body_truncated", named "response_headers_json", named "response_body",
    flag "response_body_truncated", (named "created_at").required], ["api_call_id"], []⟩

/-- Which users may use the providers of others. -/
def providerGrants : Heading :=
  ⟨[(named "provider_id").required.refersTo "providers" "id",
    (named "user_id").required.refersTo "users" "id", (named "created_at").required],
    ["provider_id", "user_id"], []⟩

/-- The calls, as the table is rebuilt. -/
def apiCallsWithConsumerDelete : Heading :=
  ⟨[(named "id").required, (named "request_id").required, named "thread_id",
    (named "consumer_id").required.refersTo "consumers" "id",
    (named "user_id").required.refersTo "users" "id",
    (named "provider_id").refersTo "providers" "id", named "affinity_hash",
    named "affinity_source", (named "method").required, (named "path").required, named "model",
    (named "status").required, named "first_byte_latency_ms", (named "latency_ms").required,
    count "input_tokens", count "output_tokens", count "cached_tokens", named "error",
    named "client_ip", (named "created_at").required], ["id"], []⟩

/-- The circuit events of the providers. -/
def providerCircuitEvents : Heading :=
  ⟨[(named "id").required, (named "provider_id").required.refersTo "providers" "id",
    (named "cause").required, (named "rate_limit_json").required, (named "opened_at").required,
    (named "cooldown_until").required, named "closed_at", named "resolution"], ["id"], []⟩

end Tables

section Scripts

/-- The settings of a new database. -/
def initialSettings : List (String × String) :=
  [("setup_complete", "false"), ("auth_issuer", ""), ("auth_audience", ""),
    ("upstream_base", "https://chatgpt.com/backend-api/codex"), ("image_host_model", "gpt-5.4"),
    ("oauth_authorize_url", "https://auth.openai.com/oauth/authorize"),
    ("oauth_token_url", "https://auth.openai.com/oauth/token"),
    ("oauth_redirect_uri", "http://localhost:1455/auth/callback"),
    ("oauth_client_id", "app_EMoamEEZ73f0CkXaXp7hrann"), ("response_body_limit", "2097152"),
    ("image_body_limit", "4194304"), ("audio_body_limit", "536870912"),
    ("affinity_ttl_seconds", "86400")]

/-- The tables of a new database. -/
def initialTables : List Part :=
  [.change (.createTable "app_meta" appMeta true),
    .change (.createTable "users" (usersWithRoles ["root", "admin", "user"]) true),
    .change (.createTable "api_keys" apiKeys true),
    indexIfNotExists "api_keys" "api_keys_user_idx" ["user_id", "created_at"],
    .change (.createTable "channels" channels true),
    indexIfNotExists "channels" "channels_available_idx"
      ["manual_disabled", "status", "cooldown_until"],
    .change (.createTable "oauth_flows" oauthFlows true),
    .change (.createTable "affinities" affinities true),
    indexIfNotExists "affinities" "affinities_expiry_idx" ["expires_at"],
    .change (.createTable "api_calls" apiCalls true),
    indexIfNotExists "api_calls" "api_calls_key_time_idx" ["api_key_id", "created_at"],
    indexIfNotExists "api_calls" "api_calls_user_time_idx" ["user_id", "created_at"],
    .change (.createTable "admin_audit" adminAudit true),
    indexIfNotExists "admin_audit" "admin_audit_time_idx" ["created_at"]]

/-- `20260716000000_initial`. -/
def initial : List Action := [.parts initialTables, .settings initialSettings]

/-- `20260716000001_root_role`. -/
def rootRole : List Action :=
  [.parts [.rebuild "users" "users_with_root" (usersWithRoles ["root", "admin", "user"])],
    .singleRoot]

/-- `20260716000002_request_archives`. -/
def requestArchivesTable : List Action :=
  [.parts [.newTable "request_archives" requestArchives
      [⟨"request_archives_created_at_idx", ["created_at"], false, .always⟩]],
    .setting "request_archive_retention_days" "7"]

/-- `20260716000003_plaintext_channel_tokens`. -/
def plaintextChannelTokens : List Action :=
  [.parts [.change (.renameColumn "channels" "access_enc" "access_token"),
      .change (.renameColumn "channels" "refresh_enc" "refresh_token")],
    .setting "channel_tokens_plaintext" "false"]

/-- `20260716000004_channel_history_on_delete`. -/
def channelHistoryOnDelete : List Action :=
  [.parts [.rebuild "api_calls" "api_calls_with_nullable_channel" apiCalls,
    index "api_calls" "api_calls_key_time_idx" ["api_key_id", "created_at"],
    index "api_calls" "api_calls_user_time_idx" ["user_id", "created_at"]]]

/-- `20260716000005_user_channel_access`. -/
def userChannelAccess : List Action :=
  [.parts [add "users" ((flag "channel_access").byDefault (.integer 0))]]

/-- `20260716000006_remove_oauth_flows`. -/
def removeOauthFlows : List Action := [.parts [.change (.dropTable "oauth_flows")]]

/-- `20260717000007_api_call_affinity`. -/
def apiCallAffinity : List Action :=
  [.parts [add "api_calls" (named "affinity_hash"), add "api_calls" (named "affinity_source"),
    index "api_calls" "api_calls_affinity_time_idx" ["affinity_hash", "created_at"]]]

/-- `20260717000008_usage_window_index`. -/
def usageWindowIndex : List Action :=
  [.parts [indexIfNotExists "api_calls" "api_calls_created_at_idx" ["created_at"]]]

/-- `20260717000009_provider_consumer_domain`. -/
def providerConsumerDomain : List Action :=
  [.parts [.change (.renameTable "channels" "providers"),
    .change (.renameTable "api_keys" "consumers"),
    .change (.renameColumn "users" "channel_access" "provider_access"),
    .change (.renameColumn "affinities" "channel_id" "provider_id"),
    .change (.renameColumn "api_calls" "api_key_id" "consumer_id"),
    .change (.renameColumn "api_calls" "channel_id" "provider_id"),
    .change (.dropIndex "api_keys_user_idx"), .change (.dropIndex "channels_available_idx"),
    .change (.dropIndex "api_calls_key_time_idx"),
    index "consumers" "consumers_user_idx" ["user_id", "created_at"],
    index "providers" "providers_available_idx" ["manual_disabled", "status", "cooldown_until"],
    index "api_calls" "api_calls_consumer_time_idx" ["consumer_id", "created_at"]]]

/-- `20260717000010_archive_retention_24h`. -/
def archiveRetention24h : List Action := [.rewrite "request_archive_retention_days" "7" "1"]

/-- `20260717000011_consumer_request_archive`. -/
def consumerRequestArchive : List Action :=
  [.parts [add "consumers" ((flag "request_archive").byDefault (.integer 0))]]

/-- `20260717000013_thread_id`. -/
def threadId : List Action :=
  [.parts [add "api_calls" (named "thread_id"),
    index "api_calls" "api_calls_thread_time_idx" ["thread_id", "created_at"]]]

/-- `20260717000014_provider_ownership`. -/
def providerOwnership : List Action :=
  [.parts [add "providers" ((named "owner_id").refersTo "users" "id")], .backfillOwner,
    .parts [index "providers" "providers_owner_idx" ["owner_id", "created_at"],
      .newTable "provider_grants" providerGrants
        [⟨"provider_grants_user_idx", ["user_id", "provider_id"], false, .always⟩]]]

/-- `20260718000015_first_byte_latency`. -/
def firstByteLatency : List Action :=
  [.parts [add "api_calls" (named "first_byte_latency_ms")]]

/-- `20260718000016_consumer_delete_cascade`. -/
def consumerDeleteCascade : List Action :=
  [.parts [.rebuild "api_calls" "api_calls_with_consumer_delete" apiCallsWithConsumerDelete,
    index "api_calls" "api_calls_consumer_time_idx" ["consumer_id", "created_at"],
    index "api_calls" "api_calls_user_time_idx" ["user_id", "created_at"],
    index "api_calls" "api_calls_affinity_time_idx" ["affinity_hash", "created_at"],
    index "api_calls" "api_calls_created_at_idx" ["created_at"],
    index "api_calls" "api_calls_thread_time_idx" ["thread_id", "created_at"]]]

/-- `20260718000017_audit_body_sizes`. -/
def auditBodySizes : List Action :=
  [.parts [add "api_calls" (count "request_bytes"), add "api_calls" (count "response_bytes")]]

/-- `20260720000018_audit_reasoning_effort`. -/
def auditReasoningEffort : List Action := [.parts [add "api_calls" (named "reasoning_effort")]]

/-- `20260725000019_user_display_name_override`. -/
def userDisplayNameOverride : List Action :=
  [.parts [add "users" ((flag "display_name_overridden").byDefault (.integer 0))]]

/-- `20260730000020_audit_transport_sizes`. -/
def auditTransportSizes : List Action :=
  [.parts [add "api_calls" (count "request_transport_bytes"),
    add "api_calls" (count "response_transport_bytes")]]

/-- `20260730000021_audit_compression_headers`. -/
def auditCompressionHeaders : List Action :=
  [.parts [add "api_calls" (named "downstream_accept_encoding"),
    add "api_calls" (named "downstream_content_encoding"),
    add "api_calls" (named "upstream_accept_encoding"),
    add "api_calls" (named "upstream_content_encoding")]]

/-- `20260731000019_upstream_openai_beta`. -/
def upstreamOpenaiBeta : List Action := [.setting "upstream_openai_beta" ""]

/-- `20260731000022_audit_header_hops`. -/
def auditHeaderHops : List Action :=
  [.parts [add "request_archives" (named "upstream_request_headers_json"),
    add "request_archives" (named "downstream_response_headers_json")]]

/-- `20260805000001_reference_image_payload`. -/
def referenceImagePayload : List Action := [.rewrite "image_body_limit" "4194304" "16777216"]

/-- `20260805000023_audit_upstream_http_version`. -/
def auditUpstreamHttpVersion : List Action :=
  [.parts [add "api_calls" (named "upstream_http_version")]]

/-- `20260807000024_audit_cost`. -/
def auditCost : List Action := [.parts [add "api_calls" (named "cost_usd_nanos")]]

/-- `20260808000025_provider_circuit_events`. -/
def providerCircuitEventsTable : List Action :=
  [.parts [.newTable "provider_circuit_events" providerCircuitEvents
      [⟨"provider_circuit_events_provider_time_idx", ["provider_id", "opened_at"], false, .always⟩,
        ⟨"provider_circuit_events_open_provider_idx", ["provider_id"], true,
          .isNull "closed_at"⟩]],
    .openCircuits]

/-- The migrations in the order of their versions. -/
def migrations : List (List Action) :=
  [initial, rootRole, requestArchivesTable, plaintextChannelTokens, channelHistoryOnDelete,
    userChannelAccess, removeOauthFlows, apiCallAffinity, usageWindowIndex, providerConsumerDomain,
    archiveRetention24h, consumerRequestArchive, threadId, providerOwnership, firstByteLatency,
    consumerDeleteCascade, auditBodySizes, auditReasoningEffort, userDisplayNameOverride,
    auditTransportSizes, auditCompressionHeaders, upstreamOpenaiBeta, auditHeaderHops,
    referenceImagePayload, auditUpstreamHttpVersion, auditCost, providerCircuitEventsTable]

end Scripts

/-- Why a connection fails. -/
inductive ConnectError where
  | migration
  | foreignKeys (violations : ℕ)
  deriving DecidableEq

/-- The statements of the migrations from this one on. -/
def pending (version : ℕ) : List Statement :=
  (migrations.drop version).flatten.flatMap Action.script

/-- `connect_with_options` on a database that has seen the migrations before this version. -/
def connectWithOptions (env : Environment) (version : ℕ) (db : Database) :
    Except ConnectError Database :=
  match run env db (pending version) with
  | none => .error .migration
  | some migrated =>
    if migrated.violations.length = 0 then .ok migrated
    else .error (.foreignKeys migrated.violations.length)

/-- The tables of version 0.1, which has no settings and no root. -/
def legacy : Schema :=
  [("users", usersWithRoles ["admin", "user"]), ("api_keys", apiKeys), ("channels", channels),
    ("oauth_flows", oauthFlows), ("affinities", affinities), ("api_calls", apiCalls),
    ("admin_audit", adminAudit)]

/-- The schema after the migrations before this version, from a new file or from version 0.1. -/
def schemaAt (start : Schema) (version : ℕ) : Option Schema :=
  schemaAfter start ((migrations.take version).flatten.flatMap Action.script)

end Migrations
