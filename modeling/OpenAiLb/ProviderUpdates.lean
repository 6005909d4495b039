import OpenAiLb.ProviderHandlers

/-!
# Updating a provider

A manager may rename a provider, enable or disable it and have its credential refreshed in one call.
The first two are statements of their own, which are committed before the token endpoint is asked,
and the snapshot is loaded only after all of them. A refresh that fails ends the call in between.
-/

namespace OpenAiLb

open Stoppable

/-- The columns that `update_provider` is about: `name`, `status`, `manual_disabled` and
`cooldown_until`. -/
def Provider.settings (row : Provider) : String × ProviderStatus × Bool × Option Int :=
  (row.name, row.status, row.manualDisabled, row.cooldownUntil)

/-- The row after the first two statements of `update_provider`. -/
def Provider.updated (input : Console.ProviderUpdate) (renamedAt enabledAt : Int)
    (row : Provider) : Provider :=
  let row := (input.name.filter fun name => trim name ≠ "").elim row
    fun name => row.rename (trim name) renamedAt
  input.enabled.elim row fun enabled => row.setEnabled enabled enabledAt

namespace ConsoleNode

variable (s : ConsoleNode) (id : String)

/-- The snapshot and the row have the same settings. -/
def Agrees : Prop :=
  (s.cached id).map Provider.settings = (s.row id).map Provider.settings

/-- The node after an `UPDATE providers`. -/
def afterUpdate (stmt : Statement) : ConsoleNode :=
  s.withRouting (s.routing.updateProviders stmt.applies stmt.set stmt.set_id) rfl

/-- The node after the first two statements of `update_provider`. -/
def written (input : Console.ProviderUpdate) (renamedAt enabledAt : Int) : ConsoleNode :=
  let s := (input.name.filter fun name => trim name ≠ "").elim s
    fun name => s.afterUpdate (.rename id (trim name) renamedAt)
  input.enabled.elim s fun enabled => s.afterUpdate (.setEnabled id enabled enabledAt)

end ConsoleNode

namespace Refreshing

variable (r : Refreshing) (id : String) (s : ConsoleNode)

/-- The node when the token endpoint has answered, for a refresh of the row `row`. -/
def answered (row : Provider) : ConsoleNode :=
  r.requesting ((r.waiting s).sending (refreshForm r.clientId row.refreshToken))

/-- What others do while the call waits leaves the settings of the provider alone. They may replace
its tokens, load the snapshot and do anything to other rows. -/
structure LeavesSettings : Prop where
  waiting : ∀ s, ((r.waiting s).row id).map Provider.settings = (s.row id).map Provider.settings
  requesting : ∀ s,
    ((r.requesting s).row id).map Provider.settings = (s.row id).map Provider.settings

/-- The node when the refresh has waited for the lock and for the token endpoint. -/
def ended : ConsoleNode := ((r.waiting s).row id).elim (r.waiting s) (r.answered s)

/-- The token endpoint issues tokens, and nobody replaces the refresh token meanwhile. -/
def Succeeds : Prop :=
  (∃ token, tokenRequest r.answer = .ok token) ∧
    ((r.ended id s).row id).map Provider.refreshToken =
      ((r.waiting s).row id).map Provider.refreshToken

end Refreshing

section AllOrNothing

/-- The row has the name and the setting that are requested; a blank name is no request. -/
structure HasSettings (input : Console.ProviderUpdate) (row : Provider) : Prop where
  name : ∀ text ∈ input.name, trim text ≠ "" → row.name = trim text
  enabled : ∀ enabled ∈ input.enabled, row.manualDisabled = !enabled ∧
    row.status = (if enabled then .active else .disabled) ∧ row.cooldownUntil = none

/-- The row shows every change that was requested. -/
structure ShowsUpdate (input : Console.ProviderUpdate) (answer : TokenAnswer) (row : Provider) :
    Prop extends HasSettings input row where
  refresh : input.refresh = some true → ∃ token, tokenRequest answer = .ok token ∧
    row.accessToken = token.accessToken ∧ row.refreshToken = token.refreshToken

variable (jwt : JwtCodec) (call : ConsoleCall) (id : String) (stamp : Stamp)
  (input : Console.ProviderUpdate) (renamedAt enabledAt : Int) (r : Refreshing) (s : ConsoleNode)

/-- **All or nothing**: after a success the row shows every change that was requested and the
snapshot agrees with it; after an error, which for a manager is one of the refresh, the settings are
as before the call and the snapshot agrees with them. -/
def UpdatesAllOrNothing : Prop :=
  match updateProvider jwt call id stamp input renamedAt enabledAt r s with
  | .ok _ t => (∃ row, t.row id = some row ∧ ShowsUpdate input r.answer row) ∧ t.Agrees id
  | .error _ t => ∀ userId, call.verified = .ok userId → s.Manages userId id →
      (t.row id).map Provider.settings = (s.row id).map Provider.settings ∧ t.Agrees id

variable {jwt call id stamp input renamedAt enabledAt r s} {userId : String} {row : Provider}

/-- The first two statements change the settings unless the row has them already. -/
theorem settings_updated_iff :
    (row.updated input renamedAt enabledAt).settings = row.settings ↔ HasSettings input row := by
  obtain ⟨name, enabled, refresh⟩ := input
  have hname : (∀ text ∈ name, trim text ≠ "" → row.name = trim text) ↔
      ∀ text ∈ name.filter (fun name => trim name ≠ ""), row.name = trim text := by
    simp [Option.mem_def, Option.filter_eq_some_iff, and_imp]
  have hiff : HasSettings ⟨name, enabled, refresh⟩ row ↔
      (∀ text ∈ name.filter (fun name => trim name ≠ ""), row.name = trim text) ∧
      ∀ b ∈ enabled, row.manualDisabled = !b ∧
        row.status = (if b then .active else .disabled) ∧ row.cooldownUntil = none :=
    ⟨fun h => ⟨hname.mp h.name, h.enabled⟩, fun h => ⟨hname.mpr h.1, h.2⟩⟩
  rw [hiff]
  unfold Provider.updated Provider.settings
  dsimp only
  cases name.filter fun name => trim name ≠ "" with
  | none =>
    cases enabled with
    | none => simp
    | some b =>
      simp only [Option.elim_none, Option.elim_some, Provider.setEnabled, Prod.mk.injEq]
      simp [eq_comm, and_left_comm]
  | some text =>
    cases enabled with
    | none => simp [Provider.rename, eq_comm]
    | some b =>
      simp only [Option.elim_some, Provider.setEnabled, Provider.rename, Prod.mk.injEq]
      simp [eq_comm, and_left_comm]

/-- An `UPDATE` runs without an error. -/
theorem executeOnProviders_of_update {stmt : Statement} {affected : ℕ}
    (h : stmt.exec s.routing =
      .ok (s.routing.updateProviders stmt.applies stmt.set stmt.set_id, affected)) :
    executeOnProviders stmt s = .ok affected (s.afterUpdate stmt) := by
  unfold executeOnProviders
  split
  · next db n hexec =>
    cases h.symm.trans hexec
    rfl
  · next e hexec =>
    rw [h] at hexec
    cases hexec

/-- The row after an update. -/
theorem row_afterUpdate (stmt : Statement) :
    (s.afterUpdate stmt).row id = (s.row id).map stmt.update :=
  Database.provider?_updateProviders ..

/-- The first two statements rewrite the row. -/
theorem row_written : (s.written id input renamedAt enabledAt).row id =
    (s.row id).map (Provider.updated input renamedAt enabledAt) := by
  have hkey : ∀ row ∈ s.row id, row.id = id := fun row hrow => Table.key_of_find? hrow
  unfold ConsoleNode.written Provider.updated
  cases hrow : s.row id with
  | none =>
    cases input.name.filter fun name => trim name ≠ "" <;> cases input.enabled <;>
      simp [row_afterUpdate, hrow]
  | some row =>
    have hid := hkey row hrow
    cases input.name.filter fun name => trim name ≠ "" <;> cases input.enabled <;>
      simp [row_afterUpdate, hrow, Statement.update, Statement.applies, Statement.set, hid,
        Provider.rename]

/-- What is left to do after the first two statements. -/
def finishUpdate (jwt : JwtCodec) (id : String) (refresh : Bool) (r : Refreshing) :
    Console ConsoleReply := do
  if refresh then
    refreshProvider jwt id r
  reload
  pure (json (.object [("ok", .bool true)]))

/-- A provider is written, and then its tokens are refreshed if this is asked for. -/
theorem writeProvider_run : writeProvider jwt id input renamedAt enabledAt r s =
    finishUpdate jwt id (input.refresh.getD false) r (s.written id input renamedAt enabledAt) := by
  unfold writeProvider ConsoleNode.written
  cases input.name.filter fun name => trim name ≠ "" <;> cases input.enabled <;> rfl

/-- The statement of a refresh finds its row unless the refresh token was replaced. -/
theorem affected_refreshProvider {db : Database} {refresh accountId : String}
    {token : TokenResponse} {now : Int} :
    (db.providers.rows.filter
        (Statement.refreshProvider id refresh token accountId now).applies).length = 0 ↔
      (db.provider? id).map Provider.refreshToken ≠ some refresh := by
  rw [List.length_eq_zero_iff, List.filter_eq_nil_iff]
  constructor
  · intro hnone hsome
    obtain ⟨row, hrow, hrefresh⟩ := Option.map_eq_some_iff.mp hsome
    refine hnone row (Table.mem_of_find? hrow) ?_
    simp [Statement.applies, Table.key_of_find? hrow, hrefresh]
  · intro hne row hmem happlies
    simp only [Statement.applies, Bool.and_eq_true, decide_eq_true_eq] at happlies
    refine hne ?_
    have hfound := Table.find?_of_mem hmem
    rw [happlies.1] at hfound
    rw [Database.provider?, hfound, Option.map_some, happlies.2]

/-- The tokens are written unless the refresh token was replaced. -/
theorem writeTokens_cases (s : ConsoleNode) (token : TokenResponse) {now : Int} :
    ((s.row id).map Provider.refreshToken ≠ some row.refreshToken ∧
      ∃ e t, writeTokens jwt id now row token s = .error e t ∧ t.row id = s.row id ∧
        t.cached id = s.cached id) ∨
    ((s.row id).map Provider.refreshToken = some row.refreshToken ∧
      ∃ accountId t, writeTokens jwt id now row token s = .ok () t ∧
        t.row id = (s.row id).map (Provider.refreshedByOperator token accountId now)) := by
  set accountId := (jwt.accountIdFromJwt token.accessToken).getD row.accountId with haccount
  set stmt := Statement.refreshProvider id row.refreshToken token accountId now with hstmt
  have hexecute : executeOnProviders stmt s =
      .ok (s.routing.providers.rows.filter stmt.applies).length (s.afterUpdate stmt) :=
    executeOnProviders_of_update rfl
  have hrun : writeTokens jwt id now row token s =
      (do
        if (s.routing.providers.rows.filter stmt.applies).length = 0 then
          throw (.unavailable "provider credential changed during refresh")
        reload : Console Unit) (s.afterUpdate stmt) := by
    unfold writeTokens
    exact run_bind_of_ok hexecute
  have haffected := @affected_refreshProvider id s.routing row.refreshToken accountId token now
  rw [← hstmt] at haffected
  rw [hrun]
  by_cases hzero : (s.routing.providers.rows.filter stmt.applies).length = 0
  · have hnone : ∀ row ∈ s.routing.providers, stmt.applies row = false := by
      intro row hmem
      simpa using List.filter_eq_nil_iff.mp (List.length_eq_zero_iff.mp hzero) row hmem
    refine .inl ⟨haffected.mp hzero,
      .unavailable "provider credential changed during refresh", s.afterUpdate stmt, ?_, ?_, rfl⟩
    · rw [if_pos hzero]
      rfl
    · exact congrArg (Database.provider? · id) (Database.updateProviders_of_forall hnone)
  · have hkept : (s.row id).map Provider.refreshToken = some row.refreshToken :=
      not_not.mp (haffected.not.mp hzero)
    refine .inr ⟨hkept, accountId, (s.afterUpdate stmt).reloaded, ?_, ?_⟩
    · rw [if_neg hzero]
      rfl
    · change (s.afterUpdate stmt).row id = _
      rw [row_afterUpdate]
      cases hfound : s.row id with
      | none => rfl
      | some found =>
        have hid : found.id = id := Table.key_of_find? hfound
        rw [hfound, Option.map_some, Option.some_inj] at hkept
        simp [Statement.update, Statement.applies, Statement.set, hstmt, hid, hkept]

/-- **What a refresh comes to**: it fails and leaves everything as the others left it, or it writes
the new tokens. -/
theorem refreshProvider_cases (jwt : JwtCodec) (hrow : (r.waiting s).row id = some row) :
    (¬ r.Succeeds id s ∧ ∃ e t, refreshProvider jwt id r s = .error e t ∧
      t.row id = (r.ended id s).row id ∧ t.cached id = (r.ended id s).cached id) ∨
    (r.Succeeds id s ∧ ∃ token accountId t, tokenRequest r.answer = .ok token ∧
      refreshProvider jwt id r s = .ok () t ∧
      t.row id = ((r.ended id s).row id).map
        (Provider.refreshedByOperator token accountId r.now)) := by
  have hended : r.ended id s = r.answered s row := by
    unfold Refreshing.ended
    rw [hrow]
    rfl
  have hrun : refreshProvider jwt id r s =
      (requestTokens r row >>= writeTokens jwt id r.now row) (r.waiting s) := by
    have hlock : (modify r.waiting : Console Unit) s = .ok () (r.waiting s) := rfl
    have hread : (get : Console ConsoleNode) (r.waiting s) = .ok (r.waiting s) (r.waiting s) := rfl
    unfold refreshProvider
    rw [run_bind_of_ok hlock, run_bind_of_ok hread, hrow]
  have hasked : requestTokens r row (r.waiting s) =
      await (tokenRequest r.answer) (r.ended id s) := by
    rw [hended]
    rfl
  unfold Refreshing.Succeeds
  rw [hrun, hrow, Option.map_some]
  cases hanswer : tokenRequest r.answer with
  | error e =>
    rw [hanswer] at hasked
    refine .inl ⟨?_, e, r.ended id s, run_bind_of_error hasked, rfl, rfl⟩
    rintro ⟨⟨token, htoken⟩, -⟩
    cases htoken
  | ok token =>
    rw [hanswer] at hasked
    rw [run_bind_of_ok hasked]
    rcases writeTokens_cases (r.ended id s) token with ⟨hlost, hfailed⟩ | ⟨hkept, hwritten⟩
    · exact .inl ⟨fun h => hlost h.2, hfailed⟩
    · obtain ⟨accountId, t, hok, ht⟩ := hwritten
      exact .inr ⟨⟨⟨token, rfl⟩, hkept⟩, token, accountId, t, rfl, hok, ht⟩

/-- The result of an audited operation is that of the operation, and the row of `admin_audit` is
all that it adds. -/
theorem audited_run {α : Type} {user : UserIdentity} {action : String} (x : Console α) :
    (∃ a t u, x s = .ok a t ∧ audited call user action id stamp x s = .ok a u ∧
      u.row id = t.row id ∧ u.cached id = t.cached id) ∨
    (∃ e t u, x s = .error e t ∧ audited call user action id stamp x s = .error e u ∧
      u.row id = t.row id ∧ u.cached id = t.cached id) := by
  cases hx : x s with
  | ok a t =>
    have hattempt : attempt x s = .ok (.ok a) t := by
      unfold attempt
      rw [hx]
    refine .inl ⟨a, t, _, rfl, run_bind_of_ok hattempt, rfl, rfl⟩
  | error e t =>
    have hattempt : attempt x s = .ok (.error e) t := by
      unfold attempt
      rw [hx]
    refine .inr ⟨e, t, _, rfl, run_bind_of_ok hattempt, rfl, rfl⟩

/-- What a manager comes to. -/
theorem updateProvider_of_manages (hverified : call.verified = .ok userId)
    (hmanages : s.Manages userId id) :
    updateProvider jwt call id stamp input renamedAt enabledAt r s =
      audited call (Users.identity (s.caller userId call.loginAt)) "provider.update" id stamp
        (writeProvider jwt id input renamedAt enabledAt r) (s.login userId call.loginAt) := by
  unfold updateProvider
  rw [run_bind_of_ok (onAccounts_browserIdentity hverified),
    run_bind_of_ok (requireProviderManager_of_manages hmanages)]

/-- What everybody else comes to. -/
theorem updateProvider_of_not_manages (jwt : JwtCodec) (stamp : Stamp)
    (input : Console.ProviderUpdate) (renamedAt enabledAt : Int) (r : Refreshing)
    (hcaller : ∀ userId, call.verified = .ok userId → ¬ s.Manages userId id) :
    ∃ e t, updateProvider jwt call id stamp input renamedAt enabledAt r s = .error e t := by
  unfold updateProvider
  cases hverified : call.verified with
  | error e =>
    have hrefused : onAccounts (browserIdentity call) s = .error e (s.withAccounts s.accounts) := by
      unfold onAccounts onPart browserIdentity
      rw [hverified]
      rfl
    exact ⟨e, _, run_bind_of_error hrefused⟩
  | ok userId =>
    exact ⟨_, _, guarded_of_not_manages hverified (hcaller userId hverified)⟩

/-- The settings of a row decide whether it has the requested ones. -/
theorem HasSettings.of_settings {other : Provider} (h : HasSettings input row)
    (hsame : other.settings = row.settings) : HasSettings input other := by
  simp only [Provider.settings, Prod.mk.injEq] at hsame
  obtain ⟨hname, hstatus, hdisabled, hcooldown⟩ := hsame
  refine ⟨?_, ?_⟩
  · rw [hname]
    exact h.name
  · rw [hstatus, hdisabled, hcooldown]
    exact h.enabled

/-- The first two statements write what is requested. -/
theorem hasSettings_updated : HasSettings input (row.updated input renamedAt enabledAt) := by
  refine ⟨?_, ?_⟩
  · intro text htext hblank
    have hfilter : input.name.filter (fun name => trim name ≠ "") = some text := by
      rw [Option.filter_eq_some_iff]
      exact ⟨htext, by simpa using hblank⟩
    unfold Provider.updated
    rw [hfilter]
    cases input.enabled with
    | none => rfl
    | some enabled => rfl
  · intro enabled henabled
    obtain henabled : input.enabled = some enabled := henabled
    unfold Provider.updated
    rw [henabled]
    exact ⟨rfl, rfl, rfl⟩

/-- The new tokens leave a requested setting as it is. -/
theorem HasSettings.refreshed (h : HasSettings input row) (token : TokenResponse)
    (accountId : String) (now : Int) :
    HasSettings input (row.refreshedByOperator token accountId now) := by
  refine ⟨h.name, ?_⟩
  intro enabled henabled
  have hdisabled := (h.enabled enabled henabled).1
  refine ⟨hdisabled, ?_, rfl⟩
  unfold Provider.refreshedByOperator
  dsimp only
  rw [hdisabled]
  cases enabled <;> rfl

/-- Loading the snapshot makes it agree. -/
theorem agrees_reloaded : s.reloaded.Agrees id :=
  congrArg (Option.map Provider.settings) (Database.find?_selectProviders s.routing id)

/-- The two statements about the settings, and then the refresh. -/
theorem writeProvider_cases (jwt : JwtCodec) (input : Console.ProviderUpdate)
    (renamedAt enabledAt : Int) (hr : r.LeavesSettings id) (hrow : s.row id = some row) :
    let written := s.written id input renamedAt enabledAt
    (input.refresh = some true ∧ ¬ r.Succeeds id written ∧
      ∃ e t, writeProvider jwt id input renamedAt enabledAt r s = .error e t ∧
        (t.row id).map Provider.settings = some (row.updated input renamedAt enabledAt).settings ∧
        (t.Agrees id ↔ (r.ended id written).Agrees id)) ∨
    ((input.refresh = some true → r.Succeeds id written) ∧
      ∃ a t, writeProvider jwt id input renamedAt enabledAt r s = .ok a t ∧
        (∃ row, t.row id = some row ∧ ShowsUpdate input r.answer row) ∧ t.Agrees id) := by
  intro written
  have hwritten : written.row id = some (row.updated input renamedAt enabledAt) := by
    rw [row_written, hrow]
    rfl
  rw [writeProvider_run]
  by_cases hrefresh : input.refresh = some true
  · have hlocked := hr.waiting written
    rw [hwritten] at hlocked
    obtain ⟨locked, hlockedRow, hlockedSettings⟩ := Option.map_eq_some_iff.mp hlocked
    have hended : ((r.ended id written).row id).map Provider.settings =
        some (row.updated input renamedAt enabledAt).settings := by
      unfold Refreshing.ended
      rw [hlockedRow]
      exact (hr.requesting _).trans (hlocked)
    have hfinish : finishUpdate jwt id (input.refresh.getD false) r written =
        (refreshProvider jwt id r >>= fun _ => do
          reload
          pure (json (.object [("ok", .bool true)]))) written := by
      rw [hrefresh]
      rfl
    rw [hfinish]
    rcases refreshProvider_cases jwt hlockedRow with
      ⟨hfails, e, t, hrun, htRow, htCached⟩ | ⟨hsucceeds, token, accountId, t, htoken, hrun, htRow⟩
    · refine .inl ⟨hrefresh, hfails, e, t, run_bind_of_error hrun, ?_, ?_⟩
      · rw [htRow, hended]
      · unfold ConsoleNode.Agrees
        rw [htRow, htCached]
    · refine .inr ⟨fun _ => hsucceeds, _, t.reloaded, run_bind_of_ok hrun, ?_, agrees_reloaded⟩
      obtain ⟨last, hlast, hlastSettings⟩ := Option.map_eq_some_iff.mp hended
      have hshows := (hasSettings_updated.of_settings hlastSettings).refreshed token accountId r.now
      refine ⟨last.refreshedByOperator token accountId r.now, ?_, hshows, ?_⟩
      · change t.row id = _
        rw [htRow, hlast]
        rfl
      · exact fun _ => ⟨token, htoken, rfl, rfl⟩
  · have hfalse : input.refresh.getD false = false := by
      cases hsome : input.refresh with
      | none => rfl
      | some refresh =>
        cases refresh with
        | false => rfl
        | true => exact absurd hsome hrefresh
    rw [hfalse]
    refine .inr ⟨fun h => absurd h hrefresh, _, written.reloaded, rfl, ?_, agrees_reloaded⟩
    exact ⟨_, hwritten, hasSettings_updated, fun h => absurd h hrefresh⟩

/-- **When an update of a provider is all or nothing**: unless a manager asks for a refresh that
fails, and the name or the setting that he asks for as well is a new one, or the snapshot differs
from the row when the refresh ends. -/
theorem updates_all_or_nothing_iff (jwt : JwtCodec) (call : ConsoleCall) (id : String)
    (stamp : Stamp) (input : Console.ProviderUpdate) (renamedAt enabledAt : Int) (r : Refreshing)
    (s : ConsoleNode) (hr : r.LeavesSettings id) :
    UpdatesAllOrNothing jwt call id stamp input renamedAt enabledAt r s ↔
      ∀ userId row, call.verified = .ok userId → s.Manages userId id → s.row id = some row →
        input.refresh = some true →
        let written := (s.login userId call.loginAt).written id input renamedAt enabledAt
        r.Succeeds id written ∨ (HasSettings input row ∧ (r.ended id written).Agrees id) := by
  by_cases hcaller : ∃ userId, call.verified = .ok userId ∧ s.Manages userId id
  · obtain ⟨userId, hverified, hmanages⟩ := hcaller
    have hmanaged : ∃ row, s.row id = some row := by
      obtain ⟨row, hrow, -⟩ := hmanages
      exact ⟨row, hrow⟩
    obtain ⟨row, hrow⟩ := hmanaged
    -- The conditions on the caller are those of this manager.
    have hcondition : (∀ userId row, call.verified = .ok userId → s.Manages userId id →
        s.row id = some row → input.refresh = some true →
        let written := (s.login userId call.loginAt).written id input renamedAt enabledAt
        r.Succeeds id written ∨ (HasSettings input row ∧ (r.ended id written).Agrees id)) ↔
      (input.refresh = some true →
        let written := (s.login userId call.loginAt).written id input renamedAt enabledAt
        r.Succeeds id written ∨ (HasSettings input row ∧ (r.ended id written).Agrees id)) := by
      constructor
      · exact fun h => h userId row hverified hmanages hrow
      · intro h other otherRow hother _ hotherRow
        obtain rfl := Except.ok.inj (hverified.symm.trans hother)
        obtain rfl := Option.some.inj (hrow.symm.trans hotherRow)
        exact h
    rw [hcondition]
    have hcases := writeProvider_cases (s := s.login userId call.loginAt) jwt input renamedAt
      enabledAt hr hrow
    dsimp only at hcases ⊢
    unfold UpdatesAllOrNothing
    rw [updateProvider_of_manages hverified hmanages]
    rcases @audited_run call id stamp (s.login userId call.loginAt) _
        (Users.identity (s.caller userId call.loginAt)) "provider.update"
        (writeProvider jwt id input renamedAt enabledAt r) with
      ⟨a, t, u, hwrite, haudited, huRow, huCached⟩ | ⟨e, t, u, hwrite, haudited, huRow, huCached⟩
    · rw [haudited]
      rcases hcases with ⟨-, -, e, t', hfailed, -⟩ | ⟨hsucceeds, a', t', hok, hshows, hagrees⟩
      · cases hfailed.symm.trans hwrite
      · obtain ⟨rfl, rfl⟩ := EStateM.Result.ok.inj (hwrite.symm.trans hok)
        dsimp only
        unfold ConsoleNode.Agrees at hagrees ⊢
        rw [huRow, huCached]
        exact iff_of_true ⟨hshows, hagrees⟩ fun h => .inl (hsucceeds h)
    · rw [haudited]
      rcases hcases with
        ⟨hrefresh, hfails, e', t', hfailed, hsettings, hagrees⟩ | ⟨-, a, t', hok, -⟩
      · obtain ⟨rfl, rfl⟩ := EStateM.Result.error.inj (hwrite.symm.trans hfailed)
        dsimp only
        have huAgrees : u.Agrees id ↔ t.Agrees id := by
          unfold ConsoleNode.Agrees
          rw [huRow, huCached]
        rw [huAgrees, hagrees, huRow, hsettings, hrow, Option.map_some, Option.some_inj,
          settings_updated_iff]
        constructor
        · exact fun h _ => .inr (h userId hverified hmanages)
        · exact fun h _ _ _ => (h hrefresh).resolve_left hfails
      · cases hok.symm.trans hwrite
  · refine iff_of_true ?_ ?_
    · obtain ⟨e, t, hrun⟩ := updateProvider_of_not_manages jwt stamp input renamedAt enabledAt r
        fun userId hverified hmanages => hcaller ⟨userId, hverified, hmanages⟩
      unfold UpdatesAllOrNothing
      rw [hrun]
      intro userId hverified hmanages
      exact absurd ⟨userId, hverified, hmanages⟩ hcaller
    · intro userId row hverified hmanages
      exact absurd ⟨userId, hverified, hmanages⟩ hcaller

/-- A refresh that the token endpoint refuses, with nobody else around. -/
def refusedRefresh : Refreshing := ⟨fun s => s, fun s => s, .refused 400, "client", 3⟩

/-- The owner asks for a new name and a refresh, and the token endpoint refuses. -/
theorem refused_refresh_iff :
    UpdatesAllOrNothing noJwt ⟨.ok "owner", 2, "ip"⟩ "p" ⟨"a", 3⟩ ⟨some "new", none, some true⟩ 2 2
        refusedRefresh sharedNode ↔
      ∀ userId row, (.ok "owner" : Except AppError String) = .ok userId →
        sharedNode.Manages userId "p" → sharedNode.row "p" = some row →
        (some true : Option Bool) = some true →
        let written := (sharedNode.login userId 2).written "p" ⟨some "new", none, some true⟩ 2 2
        refusedRefresh.Succeeds "p" written ∨
          (HasSettings ⟨some "new", none, some true⟩ row ∧
            (refusedRefresh.ended "p" written).Agrees "p") :=
  updates_all_or_nothing_iff noJwt ⟨.ok "owner", 2, "ip"⟩ "p" ⟨"a", 3⟩ ⟨some "new", none, some true⟩
    2 2 refusedRefresh sharedNode ⟨fun _ => rfl, fun _ => rfl⟩

/-- The call fails, the row has the new name, and the snapshot the old one. -/
theorem refused_refresh_renames :
    (∃ e t, updateProvider noJwt ⟨.ok "owner", 2, "ip"⟩ "p" ⟨"a", 3⟩ ⟨some "new", none, some true⟩
        2 2 refusedRefresh sharedNode = .error e t ∧ e.status = 400 ∧
        (t.row "p").map Provider.name = some "new" ∧
        (t.cached "p").map Provider.name = some "shared") ∧
      ¬ UpdatesAllOrNothing noJwt ⟨.ok "owner", 2, "ip"⟩ "p" ⟨"a", 3⟩
        ⟨some "new", none, some true⟩ 2 2 refusedRefresh sharedNode := by
  constructor
  · exact ⟨_, _, rfl, rfl, by decide, by decide⟩
  · intro h
    have hmanages : sharedNode.Manages "owner" "p" := ⟨ownedProvider, by decide, .inr rfl⟩
    exact absurd (h "owner" rfl hmanages).1 (by decide)

end AllOrNothing

end OpenAiLb
