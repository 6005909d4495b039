import OpenAiLb.TenantScope
import OpenAiLb.Library.Grouping
import Mathlib.Algebra.BigOperators.Group.List.Lemmas
import Mathlib.Algebra.Order.Ring.Int

/-!
# What the usage adds up to

`usage_rows` groups the calls of a period. Each call is counted in one row, and only there, so that
the rows together give the totals of the period; `dashboard` shows the same totals of a tenant,
apart from the calls of the very second in which the period begins.
-/

namespace OpenAiLb

/-- The numbers of a usage row. -/
inductive UsageColumn where
  | requests
  | inputTokens
  | cachedTokens
  | outputTokens
  | networkTransportBytes
  | costUsdNanos
  deriving DecidableEq

namespace UsageColumn

/-- What one call adds to a number. -/
def ofCall : UsageColumn → ApiCall → Int
  | requests, _ => 1
  | inputTokens, call => call.inputTokens
  | cachedTokens, call => call.cachedTokens
  | outputTokens, call => call.outputTokens
  | networkTransportBytes, call => call.requestTransportBytes + call.responseTransportBytes
  | costUsdNanos, call => call.costUsdNanos.getD 0

/-- The number in a row. -/
def ofRow : UsageColumn → UsageRow → Int
  | requests, row => row.requests
  | inputTokens, row => row.inputTokens
  | cachedTokens, row => row.cachedTokens
  | outputTokens, row => row.outputTokens
  | networkTransportBytes, row => row.networkTransportBytes
  | costUsdNanos, row => row.costUsdNanos

end UsageColumn

/-- The columns that a row is grouped by. -/
def UsageRow.key (row : UsageRow) : UsageKey where
  userId := row.userId
  userEmail := row.userEmail
  userName := row.userName
  consumerId := row.consumerId
  consumerName := row.consumerName
  consumerPrefix := row.consumerPrefix
  model := row.model
  date := some row.date

section Sums

/-- An addition that does not overflow gives the sum. -/
theorem eq_add_of_checkedAdd {a b s : Int} (h : checkedAdd a b = some s) : s = a + b := by
  unfold checkedAdd at h
  split at h
  · exact (Option.some.inj h).symm
  · cases h

/-- A sum that does not overflow is the sum. -/
theorem eq_sum_of_sumInts {values : List Int} {s : Int} (h : sumInts values = some s) :
    s = values.sum := by
  have hfrom : ∀ {start : Int}, values.foldlM checkedAdd start = some s →
      s = start + values.sum := by
    clear h
    induction values with
    | nil =>
      intro start h
      rw [List.sum_nil, add_zero]
      exact (Option.some.inj h).symm
    | cons value rest ih =>
      intro start h
      obtain ⟨next, hnext, hrest⟩ := Option.bind_eq_some_iff.mp h
      rw [ih hrest, eq_add_of_checkedAdd hnext, List.sum_cons, add_assoc]
  rw [hfrom h, zero_add]

/-- `mapM` in `Option`, element by element. -/
theorem forall₂_of_mapM {α β : Type} {f : α → Option β} {xs : List α} {ys : List β}
    (h : xs.mapM f = some ys) : List.Forall₂ (fun x y => f x = some y) xs ys := by
  induction xs generalizing ys with
  | nil =>
    rw [List.mapM_nil] at h
    obtain rfl := Option.some.inj h
    exact .nil
  | cons x xs ih =>
    rw [List.mapM_cons] at h
    obtain ⟨y, hy, h⟩ := Option.bind_eq_some_iff.mp h
    obtain ⟨rest, hrest, h⟩ := Option.bind_eq_some_iff.mp h
    obtain rfl := Option.some.inj h
    exact .cons hy (ih hrest)

/-- `mapM` with a function that only ever returns one value. -/
theorem eq_map_of_mapM {α β : Type} {f : α → Option β} {g : α → β} {xs : List α} {ys : List β}
    (h : xs.mapM f = some ys) (hf : ∀ x y, f x = some y → y = g x) : ys = xs.map g := by
  have hall := forall₂_of_mapM h
  clear h
  induction hall with
  | nil => rfl
  | cons hxy _ ih => rw [hf _ _ hxy, ih, List.map_cons]

/-- The prices of the priced calls add up to those of all calls. -/
theorem sum_costs (calls : List ApiCall) : (calls.filterMap ApiCall.costUsdNanos).sum =
    (calls.map fun call => call.costUsdNanos.getD 0).sum := by
  induction calls with
  | nil => rfl
  | cons call rest ih =>
    rw [List.map_cons, List.sum_cons, ← ih]
    cases hcost : call.costUsdNanos with
    | none => rw [List.filterMap_cons_none hcost, Option.getD_none, zero_add]
    | some cost => rw [List.filterMap_cons_some hcost, List.sum_cons, Option.getD_some]

end Sums

/-- **One usage row** has the key of its group and its totals. -/
theorem usageRow_eq_some {group : UsageKey × List (UsageKey × ApiCall)} {row : UsageRow}
    (h : usageRow group = some row) : row.key = group.1 ∧
      ∀ column : UsageColumn, column.ofRow row =
        (group.2.map fun found => column.ofCall found.2).sum := by
  obtain ⟨key, found⟩ := group
  unfold usageRow at h
  obtain ⟨date, hdate, h⟩ := Option.bind_eq_some_iff.mp h
  obtain ⟨input, hinput, h⟩ := Option.bind_eq_some_iff.mp h
  obtain ⟨cached, hcached, h⟩ := Option.bind_eq_some_iff.mp h
  obtain ⟨output, houtput, h⟩ := Option.bind_eq_some_iff.mp h
  obtain ⟨bytes, hbytes, h⟩ := Option.bind_eq_some_iff.mp h
  obtain ⟨transport, htransport, h⟩ := Option.bind_eq_some_iff.mp h
  obtain ⟨cost, hcost, h⟩ := Option.bind_eq_some_iff.mp h
  obtain rfl := Option.some.inj h
  have htotal : bytes = (found.map Prod.snd).map fun call =>
      call.requestTransportBytes + call.responseTransportBytes :=
    eq_map_of_mapM hbytes fun _ _ => eq_add_of_checkedAdd
  constructor
  · unfold UsageRow.key
    rw [← hdate]
  · intro column
    cases column with
    | requests =>
      show (((found.map Prod.snd).length : ℕ) : Int) = (found.map fun _ => (1 : Int)).sum
      simp
    | inputTokens =>
      show input = _
      rw [eq_sum_of_sumInts hinput, List.map_map]
      rfl
    | cachedTokens =>
      show cached = _
      rw [eq_sum_of_sumInts hcached, List.map_map]
      rfl
    | outputTokens =>
      show output = _
      rw [eq_sum_of_sumInts houtput, List.map_map]
      rfl
    | networkTransportBytes =>
      show transport = _
      rw [eq_sum_of_sumInts htransport, htotal, List.map_map]
      rfl
    | costUsdNanos =>
      show cost = _
      rw [eq_sum_of_sumInts hcost, sum_costs, List.map_map]
      rfl

/-- The counts of calls in the answer of `dashboard`. -/
structure DashboardCalls where
  calls24h : ℕ
  errors24h : ℕ
  costUsdNanos24h : Int
  deriving DecidableEq

namespace ConsoleDatabase

/-- The calls that a row of the usage counts. -/
def countedIn (db : ConsoleDatabase) (date : Int → Option String) (user : UserIdentity)
    (since : Int) (row : UsageRow) : List ApiCall :=
  db.records.apiCalls.rows.filter fun call =>
    usageFilter user since call && db.usageJoin date call = some (row.key, call)

/-- The calls that `dashboard` counts: those of the user after a time. -/
def dashboardCalls (db : ConsoleDatabase) (user : UserIdentity) (since : Int) : List ApiCall :=
  db.records.apiCalls.rows.filter fun call => call.userId = user.id && since < call.createdAt

/-- The calls of the user at a time. -/
def callsAt (db : ConsoleDatabase) (user : UserIdentity) (time : Int) : List ApiCall :=
  db.records.apiCalls.rows.filter fun call => call.userId = user.id && call.createdAt = time

/-- `dashboard`: what it answers about the calls, when its queries run in one second. It fails when
the sum overflows. -/
def dashboard (db : ConsoleDatabase) (user : UserIdentity) (now : Int) : Option DashboardCalls := do
  let calls := db.dashboardCalls user (now - 86400)
  let cost ← sumInts (calls.filterMap ApiCall.costUsdNanos)
  return {
    calls24h := calls.length
    errors24h := calls.countP fun call => 400 ≤ call.status
    costUsdNanos24h := cost }

section Totals

variable {db : ConsoleDatabase} {date : Int → Option String} {user : UserIdentity} {since : Int}
  {rows : List UsageRow}

/-- Every call has its user and its consumer. -/
theorem exists_usageJoin {call : ApiCall} (hcall : call ∈ db.records.apiCalls)
    (date : Int → Option String) : ∃ key, db.usageJoin date call = some (key, call) := by
  have huser : call.userId ∈ db.users.keys := db.usersKnown ▸ db.records.callsUser call hcall
  obtain ⟨row, hrow⟩ := Option.isSome_iff_exists.mp (Table.find?_isSome_iff.mpr huser)
  obtain ⟨consumer, hconsumer⟩ := Option.isSome_iff_exists.mp
    (Table.find?_isSome_iff.mpr (db.records.callsConsumer call hcall))
  unfold usageJoin
  rw [hrow, hconsumer]
  exact ⟨_, rfl⟩

/-- The calls that are found with one key. -/
theorem map_filter_usageMatches (key : UsageKey) :
    ((db.usageMatches date user since).filter fun found => found.1 = key).map Prod.snd =
      db.records.apiCalls.rows.filter fun call =>
        usageFilter user since call && db.usageJoin date call = some (key, call) := by
  have hkeyed : ∀ calls : List ApiCall, (∀ call ∈ calls, call ∈ db.records.apiCalls) →
      ((calls.filterMap (db.usageJoin date)).filter fun found => found.1 = key).map Prod.snd =
        calls.filter fun call => db.usageJoin date call = some (key, call) := by
    intro calls hcalls
    induction calls with
    | nil => rfl
    | cons call rest ih =>
      obtain ⟨found, hfound⟩ := exists_usageJoin (hcalls call List.mem_cons_self) date
      have hrest := ih fun other hother => hcalls other (List.mem_cons_of_mem _ hother)
      rw [List.filterMap_cons_some hfound]
      by_cases hkey : found = key
      · rw [List.filter_cons_of_pos (by simpa using hkey), List.map_cons, hrest,
          List.filter_cons_of_pos (by simp [hfound, hkey])]
      · rw [List.filter_cons_of_neg (by simpa using hkey), hrest,
          List.filter_cons_of_neg (by simp [hfound, hkey])]
  unfold usageMatches
  rw [hkeyed _ fun call hcall => (List.mem_filter.mp hcall).1, List.filter_filter]
  exact List.filter_congr fun call _ => Bool.and_comm _ _

/-- All calls of the period are found. -/
theorem map_usageMatches : (db.usageMatches date user since).map Prod.snd =
    db.records.apiCalls.rows.filter (usageFilter user since) := by
  have hall : ∀ calls : List ApiCall, (∀ call ∈ calls, call ∈ db.records.apiCalls) →
      (calls.filterMap (db.usageJoin date)).map Prod.snd = calls := by
    intro calls hcalls
    induction calls with
    | nil => rfl
    | cons call rest ih =>
      obtain ⟨found, hfound⟩ := exists_usageJoin (hcalls call List.mem_cons_self) date
      rw [List.filterMap_cons_some hfound, List.map_cons,
        ih fun other hother => hcalls other (List.mem_cons_of_mem _ hother)]
  exact hall _ fun call hcall => (List.mem_filter.mp hcall).1

/-- The rows of an answer, before they are sorted, and the groups they come from. -/
theorem groups_of_usageRows (h : db.UsageRows date user since (some rows)) :
    ∃ found unsorted, found.Perm (db.usageMatches date user since) ∧
      List.Forall₂ (fun group row => usageRow group = some row) (groupBy Prod.fst found) unsorted ∧
      OrderedBy (fun a b : UsageRow => a.date ≤ b.date) unsorted rows := by
  obtain ⟨found, hfound, h⟩ := h
  cases hgroups : (groupBy Prod.fst found).mapM usageRow with
  | none =>
    rw [hgroups] at h
    cases h
  | some unsorted =>
    rw [hgroups] at h
    obtain ⟨sorted, hsorted, hrows⟩ := h
    obtain rfl := Option.some.inj hrows
    exact ⟨found, unsorted, hfound, forall₂_of_mapM hgroups, hsorted⟩

/-- The keys of the rows are the keys of the groups. -/
theorem keys_of_groups {groups : List (UsageKey × List (UsageKey × ApiCall))}
    {unsorted : List UsageRow}
    (h : List.Forall₂ (fun group row => usageRow group = some row) groups unsorted) :
    unsorted.map UsageRow.key = groups.map Prod.fst := by
  induction h with
  | nil => rfl
  | cons hrow _ ih => rw [List.map_cons, List.map_cons, ih, (usageRow_eq_some hrow).1]

/-- Each row comes from a group. -/
theorem exists_group {groups : List (UsageKey × List (UsageKey × ApiCall))}
    {unsorted : List UsageRow} {row : UsageRow}
    (h : List.Forall₂ (fun group row => usageRow group = some row) groups unsorted)
    (hrow : row ∈ unsorted) : ∃ group ∈ groups, usageRow group = some row := by
  induction h with
  | nil => cases hrow
  | cons hhead _ ih =>
    rcases List.mem_cons.mp hrow with rfl | hrow
    · exact ⟨_, List.mem_cons_self, hhead⟩
    · obtain ⟨group, hgroup, hvalue⟩ := ih hrow
      exact ⟨group, List.mem_cons_of_mem _ hgroup, hvalue⟩

/-- Each row counts the calls of its key. -/
theorem ofRow_eq (h : db.UsageRows date user since (some rows)) {row : UsageRow} (hrow : row ∈ rows)
    (column : UsageColumn) :
    column.ofRow row = ((db.countedIn date user since row).map column.ofCall).sum := by
  obtain ⟨found, unsorted, hfound, hgroups, hsorted⟩ := groups_of_usageRows h
  obtain ⟨group, hgroup, hvalue⟩ := exists_group hgroups (hsorted.1.mem_iff.mp hrow)
  obtain ⟨hkey, htotal⟩ := usageRow_eq_some hvalue
  obtain ⟨key, -, rfl⟩ := List.mem_map.mp hgroup
  have hkey : row.key = key := hkey
  calc column.ofRow row
      = ((found.filter fun other => other.1 = key).map fun other => column.ofCall other.2).sum :=
        htotal column
    _ = (((db.usageMatches date user since).filter fun other => other.1 = key).map
          fun other => column.ofCall other.2).sum :=
        ((hfound.filter _).map _).sum_eq
    _ = ((db.countedIn date user since row).map column.ofCall).sum := by
        unfold countedIn
        rw [hkey, ← map_filter_usageMatches, List.map_map]
        rfl

/-- Different rows have different keys. -/
theorem nodup_keys (h : db.UsageRows date user since (some rows)) :
    (rows.map UsageRow.key).Nodup := by
  obtain ⟨found, unsorted, -, hgroups, hsorted⟩ := groups_of_usageRows h
  refine (hsorted.1.map UsageRow.key).nodup_iff.mpr ?_
  rw [keys_of_groups hgroups]
  unfold groupBy
  rw [List.map_map]
  exact (List.map_id _).symm ▸ List.nodup_dedup _

/-- The key of a call of the period is the key of a row. -/
theorem exists_row (h : db.UsageRows date user since (some rows)) {call : ApiCall}
    (hcall : call ∈ db.records.apiCalls) (hfilter : usageFilter user since call = true) :
    ∃ row ∈ rows, db.usageJoin date call = some (row.key, call) := by
  obtain ⟨found, unsorted, hfound, hgroups, hsorted⟩ := groups_of_usageRows h
  obtain ⟨key, hkey⟩ := exists_usageJoin hcall date
  have hmem : (key, call) ∈ found :=
    hfound.mem_iff.mpr (List.mem_filterMap.mpr ⟨call, List.mem_filter.mpr ⟨hcall, hfilter⟩, hkey⟩)
  have hkeys : key ∈ unsorted.map UsageRow.key := by
    rw [keys_of_groups hgroups]
    unfold groupBy
    rw [List.map_map]
    exact List.mem_map.mpr
      ⟨key, List.mem_dedup.mpr (List.mem_map.mpr ⟨_, hmem, rfl⟩), rfl⟩
  obtain ⟨row, hrow, rfl⟩ := List.mem_map.mp hkeys
  exact ⟨row, hsorted.1.mem_iff.mpr hrow, hkey⟩

/-- All rows together count all calls of the period. -/
theorem sum_ofRow (h : db.UsageRows date user since (some rows)) (column : UsageColumn) :
    (rows.map column.ofRow).sum =
      ((db.records.apiCalls.rows.filter (usageFilter user since)).map column.ofCall).sum := by
  obtain ⟨found, unsorted, hfound, hgroups, hsorted⟩ := groups_of_usageRows h
  have hrows : unsorted.map column.ofRow = (groupBy Prod.fst found).map fun group =>
      (group.2.map fun other => column.ofCall other.2).sum := by
    clear hsorted
    generalize groupBy Prod.fst found = groups at hgroups
    induction hgroups with
    | nil => rfl
    | cons hrow _ ih => rw [List.map_cons, List.map_cons, ih, (usageRow_eq_some hrow).2]
  have hmem : ∀ other ∈ found, other.1 ∈ (found.map Prod.fst).dedup := fun other hother =>
    List.mem_dedup.mpr (List.mem_map_of_mem hother)
  calc (rows.map column.ofRow).sum
      = (unsorted.map column.ofRow).sum := (hsorted.1.map _).sum_eq
    _ = ((found.map Prod.fst).dedup.map fun k =>
          ((Grouping.group Prod.fst k found).map fun other => column.ofCall other.2).sum).sum := by
        rw [hrows]
        unfold groupBy
        rw [List.map_map]
        rfl
    _ = (found.map fun other => column.ofCall other.2).sum :=
        Grouping.sum_groups Prod.fst _ (List.nodup_dedup _) hmem
    _ = ((db.usageMatches date user since).map fun other => column.ofCall other.2).sum :=
        (hfound.map _).sum_eq
    _ = ((db.records.apiCalls.rows.filter (usageFilter user since)).map column.ofCall).sum := by
        rw [← @map_usageMatches db date, List.map_map]
        rfl

/-- What a tenant's calls of the period add up to: those that `dashboard` counts, and those of the
first second. -/
theorem sum_of_tenant (huser : isAdmin user = false) (column : UsageColumn) :
    ((db.records.apiCalls.rows.filter (usageFilter user since)).map column.ofCall).sum =
      ((db.dashboardCalls user since).map column.ofCall).sum +
        ((db.callsAt user since).map column.ofCall).sum := by
  unfold dashboardCalls callsAt
  induction db.records.apiCalls.rows with
  | nil => rfl
  | cons call rest ih =>
    have hfilter : usageFilter user since call =
        (decide (since ≤ call.createdAt) && decide (call.userId = user.id)) := by
      unfold usageFilter
      rw [huser, Bool.false_or]
    by_cases howner : call.userId = user.id
    · rcases lt_trichotomy since call.createdAt with hlt | heq | hgt
      · rw [List.filter_cons_of_pos (by simp [hfilter, howner, hlt.le]),
          List.filter_cons_of_pos (by simp [howner, hlt]),
          List.filter_cons_of_neg (by simp [hlt.ne']), List.map_cons, List.map_cons,
          List.sum_cons, List.sum_cons, ih, add_assoc]
      · rw [List.filter_cons_of_pos (by rw [hfilter]; simp [howner, heq]),
          List.filter_cons_of_neg (by simp [heq]),
          List.filter_cons_of_pos (by simp [howner, heq]), List.map_cons, List.map_cons,
          List.sum_cons, List.sum_cons, ih]
        exact add_left_comm _ _ _
      · rw [List.filter_cons_of_neg (by simp [hfilter, hgt.not_ge]),
          List.filter_cons_of_neg (by simp [hgt.le]),
          List.filter_cons_of_neg (by simp [hgt.ne]), ih]
    · rw [List.filter_cons_of_neg (by simp [hfilter, howner]),
        List.filter_cons_of_neg (by simp [howner]),
        List.filter_cons_of_neg (by simp [howner]), ih]

/-- What the dashboard counts. -/
theorem of_dashboard {now : Int} {answer : DashboardCalls}
    (h : db.dashboard user now = some answer) :
    (answer.calls24h : Int) =
        ((db.dashboardCalls user (now - 86400)).map UsageColumn.requests.ofCall).sum ∧
      answer.costUsdNanos24h =
        ((db.dashboardCalls user (now - 86400)).map UsageColumn.costUsdNanos.ofCall).sum := by
  obtain ⟨cost, hcost, h⟩ := Option.bind_eq_some_iff.mp h
  obtain rfl := Option.some.inj h
  constructor
  · show (((db.dashboardCalls user (now - 86400)).length : ℕ) : Int) =
      ((db.dashboardCalls user (now - 86400)).map fun _ => (1 : Int)).sum
    simp
  · exact (eq_sum_of_sumInts hcost).trans (sum_costs _)

/-- **The usage conserves the calls.** Each call of the period that the user may see is counted in
exactly one row, each row has the totals of the calls it counts, the rows together have the totals
of the period, and they come in the order of their dates. A tenant's requests and costs of a day are
those of the dashboard and of the calls in the first second of the day. -/
theorem usage_conserves (h : db.UsageRows date user since (some rows)) :
    (∀ call ∈ db.records.apiCalls, usageFilter user since call = true →
      ∃! row, row ∈ rows ∧ call ∈ db.countedIn date user since row) ∧
    (∀ row ∈ rows, ∀ column : UsageColumn,
      column.ofRow row = ((db.countedIn date user since row).map column.ofCall).sum) ∧
    (∀ column : UsageColumn, (rows.map column.ofRow).sum =
      ((db.records.apiCalls.rows.filter (usageFilter user since)).map column.ofCall).sum) ∧
    rows.Pairwise (fun a b => a.date ≤ b.date) ∧
    ∀ now answer, isAdmin user = false → since = now - 86400 →
      db.dashboard user now = some answer →
      (rows.map UsageColumn.requests.ofRow).sum =
          answer.calls24h + (db.callsAt user since).length ∧
        (rows.map UsageColumn.costUsdNanos.ofRow).sum =
          answer.costUsdNanos24h +
            ((db.callsAt user since).map UsageColumn.costUsdNanos.ofCall).sum := by
  refine ⟨fun call hcall hfilter => ?_, fun row hrow column => ofRow_eq h hrow column,
    fun column => sum_ofRow h column, ?_, fun now answer huser hsince hanswer => ?_⟩
  · obtain ⟨row, hrow, hjoin⟩ := exists_row h hcall hfilter
    refine ⟨row, ⟨hrow, List.mem_filter.mpr ⟨hcall, by simp [hfilter, hjoin]⟩⟩, ?_⟩
    rintro other ⟨hother, hcounted⟩
    have hboth := (List.mem_filter.mp hcounted).2
    rw [Bool.and_eq_true, decide_eq_true_eq] at hboth
    have hkey : other.key = row.key := by
      have hsame := Option.some.inj (hboth.2.symm.trans hjoin)
      exact congrArg Prod.fst hsame
    exact List.inj_on_of_nodup_map (nodup_keys h) hother hrow hkey
  · obtain ⟨found, unsorted, -, -, hsorted⟩ := groups_of_usageRows h
    exact hsorted.2
  · subst hsince
    obtain ⟨hcalls, hcost⟩ := of_dashboard hanswer
    have hrequests : ((db.callsAt user (now - 86400)).length : Int) =
        ((db.callsAt user (now - 86400)).map UsageColumn.requests.ofCall).sum := by
      show _ = ((db.callsAt user (now - 86400)).map fun _ => (1 : Int)).sum
      simp
    constructor
    · rw [sum_ofRow h, sum_of_tenant huser, hcalls, hrequests]
    · rw [sum_ofRow h, sum_of_tenant huser, hcost]

/-- A row of the usage of the busy tenant. -/
def busyRow (model : String) (requests : ℕ) : UsageRow where
  userId := "a"
  userEmail := none
  userName := none
  consumerId := "key-a"
  consumerName := "shared-name"
  consumerPrefix := "sk-lb"
  model := model
  date := "1970-01-01"
  requests := requests
  inputTokens := 100 * requests
  cachedTokens := 0
  outputTokens := 0
  networkTransportBytes := 0
  costUsdNanos := 7 * requests

/-- Five calls of one day with two models: each is in one of two rows, and the dashboard counts all
but the one of the first second. -/
theorem usage_conserves_busyTenant :
    (∀ call ∈ (busyTenant 5).records.apiCalls,
      ∃! row, row ∈ [busyRow "gpt-5-mini" 2, busyRow "gpt-5" 3] ∧
        call ∈ (busyTenant 5).countedIn (fun _ => some "1970-01-01") tenantA 0 row) ∧
      (busyTenant 5).dashboard tenantA 86400 = some ⟨4, 0, 28⟩ ∧
        ([busyRow "gpt-5-mini" 2, busyRow "gpt-5" 3].map UsageColumn.requests.ofRow).sum = 4 + 1 ∧
          ([busyRow "gpt-5-mini" 2, busyRow "gpt-5" 3].map UsageColumn.costUsdNanos.ofRow).sum =
            28 + 7 := by
  have hgroups : (groupBy Prod.fst ((busyTenant 5).usageMatches
      (fun _ => some "1970-01-01") tenantA 0)).mapM usageRow =
        some [busyRow "gpt-5-mini" 2, busyRow "gpt-5" 3] := by decide
  have hanswer : (busyTenant 5).UsageRows (fun _ => some "1970-01-01") tenantA 0
      (some [busyRow "gpt-5-mini" 2, busyRow "gpt-5" 3]) := by
    refine ⟨_, .refl _, ?_⟩
    rw [hgroups]
    exact ⟨_, ⟨.refl _, by decide⟩, rfl⟩
  have hdashboard : (busyTenant 5).dashboard tenantA 86400 = some ⟨4, 0, 28⟩ := by decide
  obtain ⟨hcounted, -, -, -, hday⟩ := usage_conserves hanswer
  obtain ⟨hrequests, hcost⟩ := hday 86400 ⟨4, 0, 28⟩ (by decide) (by decide) hdashboard
  have hfilter : ∀ call ∈ (List.range 5).map callAt, usageFilter tenantA 0 call = true := by decide
  exact ⟨fun call hcall => hcounted call hcall (hfilter call hcall), hdashboard, hrequests, hcost⟩

end Totals

end ConsoleDatabase

end OpenAiLb
