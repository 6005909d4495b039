import OpenAiLb.Library.Tasks
import OpenAiLb.Library.Transition
import OpenAiLb.SettingsRestart

/-!
# Concurrent setups

Several calls of `setup` may race. Each looks whether a setup is required, asks the verifier of its
own issuer and audience for its caller, and looks again in an immediate transaction, which makes the
caller the root and stores the issuer and the audience. The verifier and the configuration in memory
follow in steps of their own. Meanwhile users log in, and their rows are updated.
-/

namespace OpenAiLb

open Stoppable Transition

/-- A statement of a login or of `update_user` on `users`. -/
inductive UsersStatement where
  | register (id : String) (now : Int)
  | setDisplayName (id displayName : String)
  | setRole (id : String) (role : Users.AssignableRole)
  | setProviderAccess (id : String) (providerAccess : Bool)

/-- Execute a statement. -/
def UsersStatement.exec (users : Users) : UsersStatement → Users
  | register id now => users.register id now
  | setDisplayName id displayName => users.setDisplayName id displayName
  | setRole id role => users.setRole id role
  | setProviderAccess id providerAccess => users.setProviderAccess id providerAccess

/-- No such statement makes a root or takes one away. -/
theorem UsersStatement.isRoot_exec {users : Users} {id : String} (statement : UsersStatement) :
    (statement.exec users).IsRoot id ↔ users.IsRoot id := by
  cases statement with
  | register => exact Users.isRoot_register
  | setDisplayName => exact Users.isRoot_setDisplayName
  | setRole => exact Users.isRoot_setRole
  | setProviderAccess => exact Users.isRoot_setProviderAccess

section Writers

variable {α β : Type}

/-- The users are those of the beginning after some such statements. -/
def Accounts.WrittenFrom (users : Users) (s : Accounts) : Prop :=
  ∃ statements : List UsersStatement, s.users = statements.foldl UsersStatement.exec users

/-- However the computation ends, it has executed such statements on the users, and nothing else. -/
def WritesUsers (x : Managing α) : Prop :=
  ∀ users, Ensures (Accounts.WrittenFrom users) x (fun _ => Accounts.WrittenFrom users)
    fun _ => Accounts.WrittenFrom users

/-- One more statement. -/
theorem Accounts.WrittenFrom.exec {users : Users} {s : Accounts} (h : s.WrittenFrom users)
    (statement : UsersStatement) :
    Accounts.WrittenFrom users { s with users := statement.exec s.users } := by
  obtain ⟨statements, hs⟩ := h
  refine ⟨statements ++ [statement], ?_⟩
  rw [List.foldl_append, ← hs]
  rfl

namespace WritesUsers

/-- Waiting for an answer executes no statement. -/
theorem await (answer : Except AppError α) : WritesUsers (Stoppable.await answer) :=
  fun _ => ensures_await (fun _ _ _ hs => hs) fun _ _ _ hs => hs

/-- Nor does failing. -/
theorem throw (e : AppError) : WritesUsers (MonadExcept.throw e : Managing α) :=
  fun _ => ensures_throw fun _ hs => hs

/-- A sequence executes the statements of its parts. -/
theorem bind {x : Managing α} {f : α → Managing β} (hx : WritesUsers x)
    (hf : ∀ a, WritesUsers (f a)) : WritesUsers (x >>= f) :=
  fun users => (hx users).bind fun a => hf a users

/-- An entry of the audit is no statement on the users. -/
theorem audit (call : ConsoleCall) (adminUserId action : String) (targetId : Option String)
    (stamp : Stamp) : WritesUsers (writeAdminAudit call adminUserId action targetId stamp) :=
  fun _ => ensures_modify fun _ hs => hs

/-- A statement on the users is one of theirs. -/
theorem execute (p : User → Bool) (statement : UsersStatement) :
    WritesUsers (executeOnUsers p fun users => statement.exec users) :=
  fun _ _ hs => hs.exec statement

/-- An optional update executes what the update does, or nothing. -/
theorem forSome {update : α → Managing Unit} (h : ∀ value, WritesUsers (update value))
    (field : Option α) : WritesUsers (OpenAiLb.forSome field update) := by
  cases field with
  | none => exact fun _ => ensures_pure fun _ hs => hs
  | some value => exact h value

/-- A statement that has to match a row, and its row of `admin_audit`. -/
theorem executeOrThrow {p : User → Bool} {e : AppError} {rest : Managing Unit}
    (statement : UsersStatement) (hrest : WritesUsers rest) :
    WritesUsers (do
      let affected ← executeOnUsers p fun users => statement.exec users
      if affected = 0 then
        MonadExcept.throw e
      rest) := by
  refine (execute p statement).bind fun affected => ?_
  split
  · exact (throw e).bind fun _ => hrest
  · exact hrest

end WritesUsers

variable (call : ConsoleCall)

/-- A login registers its user. -/
theorem writesUsers_browserIdentity : WritesUsers (browserIdentity call) := by
  refine (WritesUsers.await call.verified).bind fun userId users => ?_
  refine Ensures.get_bind fun s hs => ?_
  have hset : Ensures (fun t => t = s)
      (set ({ s with users := s.users.register userId call.loginAt } : Accounts) : Managing Unit)
      (fun _ => Accounts.WrittenFrom users) fun _ => Accounts.WrittenFrom users :=
    fun _ _ => hs.exec (.register userId call.loginAt)
  exact hset.bind fun _ => WritesUsers.await _ users

/-- **`update_user` executes such statements only**, however far it comes. -/
theorem writesUsers_updateUser (id : String) (input : UpdateUser) (stamps : Fin 3 → Stamp) :
    WritesUsers (updateUser call id input stamps) := by
  refine (writesUsers_browserIdentity call).bind fun admin => ?_
  refine (WritesUsers.await _).bind fun _ => ?_
  have hwrite : ∀ displayName, WritesUsers
      (writeFields call admin id displayName input.role input.providerAccess stamps) := by
    intro displayName
    refine (WritesUsers.forSome (fun displayName => ?_) displayName).bind fun _ =>
      (WritesUsers.forSome (fun role => ?_) input.role).bind fun _ =>
        WritesUsers.forSome (fun providerAccess => ?_) input.providerAccess
    · exact .executeOrThrow (.setDisplayName id displayName) (.audit _ _ _ _ _)
    · refine (WritesUsers.await _).bind fun _ => ?_
      split
      · exact .throw _
      · next role _ => exact .executeOrThrow (.setRole id role) (.audit _ _ _ _ _)
    · exact .executeOrThrow (.setProviderAccess id providerAccess) (.audit _ _ _ _ _)
  split
  · exact (WritesUsers.throw _).bind fun _ => (WritesUsers.await _).bind hwrite
  · exact (WritesUsers.await _).bind hwrite

end Writers

/-- Whom a setup has made the root, and the audience that it has accepted. -/
structure Decision where
  audience : String
  identityId : String
  deriving DecidableEq

/-- How far a call of `setup` has come. -/
inductive SetupPhase where
  | started
  /-- A setup is required and the audience is accepted. -/
  | checked (audience : String)
  | verified (decision : Decision)
  | committed (decision : Decision)
  /-- The verifier is installed. -/
  | installed (decision : Decision)
  /-- The configuration in memory was cloned. -/
  | loaded (decision : Decision) (config : Config)
  | returned (result : Except AppError Decision)
  /-- The caller went away. -/
  | cancelled

/-- A call of `setup`. -/
structure SetupTask where
  input : SetupInput
  phase : SetupPhase

/-- What the calls share, and the calls in the order in which they started. -/
structure SetupRace where
  node : SettingsNode
  tasks : List SetupTask

/-- A call starts or takes its next step, or a user logs in or is updated. -/
inductive SetupAction where
  | start (input : SetupInput)
  | check (i : ℕ)
  /-- The verifier of the new issuer and audience answers with the user of the token. -/
  | verify (i : ℕ) (answer : Except AppError String)
  | commit (i : ℕ) (now : Int)
  | install (i : ℕ)
  | load (i : ℕ)
  | store (i : ℕ)
  | cancel (i : ℕ)
  | users (statement : UsersStatement)

/-- The checks of `setup` before it asks the verifier. -/
def checkSetup (m : AppMeta) (input : SetupInput) : Except AppError String := do
  requireSetup m
  requiredSetting "Auth Mini audience" input.authAudience

namespace SetupRace

/-- The node, with a call in another phase. -/
def move (s : SetupRace) (node : SettingsNode) (i : ℕ) (input : SetupInput) (phase : SetupPhase) :
    SetupRace := ⟨node, s.tasks.set i ⟨input, phase⟩⟩

/-- One step. -/
def step (s : SetupRace) : SetupAction → Option SetupRace
  | .start input => some { s with tasks := s.tasks ++ [⟨input, .started⟩] }
  | .check i =>
    match s.tasks[i]? with
    | some ⟨input, .started⟩ =>
      match checkSetup s.node.appMeta input with
      | .ok audience => some (s.move s.node i input (.checked audience))
      | .error e => some (s.move s.node i input (.returned (.error e)))
    | _ => none
  | .verify i answer =>
    match s.tasks[i]? with
    | some ⟨input, .checked audience⟩ =>
      match answer with
      | .ok identityId => some (s.move s.node i input (.verified ⟨audience, identityId⟩))
      | .error e => some (s.move s.node i input (.returned (.error e)))
    | _ => none
  | .commit i now =>
    match s.tasks[i]? with
    | some ⟨input, .verified d⟩ =>
      match setupTransaction d.identityId input.issuer d.audience now s.node with
      | .ok node => some (s.move node i input (.committed d))
      | .error e => some (s.move s.node i input (.returned (.error e)))
    | _ => none
  | .install i =>
    match s.tasks[i]? with
    | some ⟨input, .committed d⟩ => some <|
      s.move { s.node with verifier := some ⟨input.issuer, d.audience⟩ } i input (.installed d)
    | _ => none
  | .load i =>
    match s.tasks[i]? with
    | some ⟨input, .installed d⟩ => some (s.move s.node i input (.loaded d s.node.config))
    | _ => none
  | .store i =>
    match s.tasks[i]? with
    | some ⟨input, .loaded d config⟩ => some <|
      s.move { s.node with config := config.afterSetup input.issuer d.audience } i input
        (.returned (.ok d))
    | _ => none
  | .cancel i =>
    match s.tasks[i]? with
    | some ⟨_, .returned _⟩ => none
    | some ⟨input, _⟩ => some (s.move s.node i input .cancelled)
    | none => none
  | .users statement => some { s with
      node := { s.node with
        accounts := { s.node.accounts with users := statement.exec s.node.accounts.users } } }

end SetupRace

section Alone

variable {c : SetupCall} {node node' : SettingsNode}

/-- The steps of a call that nobody comes in between. -/
def SetupCall.steps (c : SetupCall) : List SetupAction :=
  [.start c.input, .check 0, .verify 0 c.candidate, .commit 0 c.now, .install 0, .load 0, .store 0]

/-- **The steps are those of the handler**: one call alone leaves what `setup` leaves. -/
theorem run_steps_of_setup {answer : Value} (h : setup c node = .ok answer node') :
    ∃ d, run SetupRace.step ⟨node, []⟩ c.steps =
      some ⟨node', [⟨c.input, .returned (.ok d)⟩]⟩ := by
  obtain ⟨audience, identityId, committed, hrequired, haudience, hcandidate, hcommitted, rfl⟩ :=
    setup_eq_ok h
  have hcheck : checkSetup node.appMeta c.input = .ok audience :=
    bind_eq_ok.mpr ⟨(), hrequired, haudience⟩
  refine ⟨⟨audience, identityId⟩, ?_⟩
  simp [SetupCall.steps, SetupRace.step, SetupRace.move, hcheck, hcandidate, hcommitted]

end Alone

section Steps

/-- What the next step of a call makes of the node and of the phase. -/
inductive SetupPhase.Moves (node : SettingsNode) (input : SetupInput) :
    SetupPhase → SettingsNode → SetupPhase → Prop where
  | check {audience : String} (h : checkSetup node.appMeta input = .ok audience) :
    Moves node input .started node (.checked audience)
  | verify {audience identityId : String} :
    Moves node input (.checked audience) node (.verified ⟨audience, identityId⟩)
  | commit {d : Decision} {now : Int} {committed : SettingsNode}
    (h : setupTransaction d.identityId input.issuer d.audience now node = .ok committed) :
    Moves node input (.verified d) committed (.committed d)
  | install {d : Decision} : Moves node input (.committed d)
    { node with verifier := some ⟨input.issuer, d.audience⟩ } (.installed d)
  | load {d : Decision} : Moves node input (.installed d) node (.loaded d node.config)
  | store {d : Decision} {config : Config} : Moves node input (.loaded d config)
    { node with config := config.afterSetup input.issuer d.audience } (.returned (.ok d))
  | fail {phase : SetupPhase} {e : AppError} (h : ∀ result, phase ≠ .returned result) :
    Moves node input phase node (.returned (.error e))
  | cancel {phase : SetupPhase} (h : ∀ result, phase ≠ .returned result) :
    Moves node input phase node .cancelled

/-- A call that has returned does not move. -/
theorem SetupPhase.Moves.not_returned {node node' : SettingsNode} {input : SetupInput}
    {phase new : SetupPhase} (h : phase.Moves node input node' new)
    (result : Except AppError Decision) : phase ≠ .returned result := by
  cases h with
  | check => rintro ⟨⟩
  | verify => rintro ⟨⟩
  | commit => rintro ⟨⟩
  | install => rintro ⟨⟩
  | load => rintro ⟨⟩
  | store => rintro ⟨⟩
  | fail h => exact h result
  | cancel h => exact h result

variable {s t : SetupRace}

/-- **What a step can do**: a call starts, users are written, or one call moves. -/
theorem SetupRace.step_cases {action : SetupAction} (hstep : s.step action = some t) :
    (∃ input, t = { s with tasks := s.tasks ++ [⟨input, .started⟩] }) ∨
    (∃ statement : UsersStatement, t = { s with node := { s.node with
      accounts := { s.node.accounts with users := statement.exec s.node.accounts.users } } }) ∨
    ∃ i input phase node new, s.tasks[i]? = some ⟨input, phase⟩ ∧
      phase.Moves s.node input node new ∧ t = s.move node i input new := by
  unfold SetupRace.step at hstep
  cases action with
  | start input => exact .inl ⟨input, (Option.some.inj hstep).symm⟩
  | users statement => exact .inr (.inl ⟨statement, (Option.some.inj hstep).symm⟩)
  | check i =>
    dsimp only at hstep
    split at hstep
    · next input hold =>
      split at hstep
      · next audience hok =>
        exact .inr (.inr ⟨i, input, _, _, _, hold, .check hok, (Option.some.inj hstep).symm⟩)
      · next e _ =>
        exact .inr (.inr ⟨i, input, _, _, _, hold, .fail (by rintro _ ⟨⟩),
          (Option.some.inj hstep).symm⟩)
    · cases hstep
  | verify i answer =>
    dsimp only at hstep
    split at hstep
    · next input audience hold =>
      split at hstep
      · next identityId =>
        exact .inr (.inr ⟨i, input, _, _, _, hold, .verify, (Option.some.inj hstep).symm⟩)
      · next e =>
        exact .inr (.inr ⟨i, input, _, _, _, hold, .fail (by rintro _ ⟨⟩),
          (Option.some.inj hstep).symm⟩)
    · cases hstep
  | commit i now =>
    dsimp only at hstep
    split at hstep
    · next input d hold =>
      split at hstep
      · next node hcommit =>
        exact .inr (.inr ⟨i, input, _, _, _, hold, .commit hcommit,
          (Option.some.inj hstep).symm⟩)
      · next e _ =>
        exact .inr (.inr ⟨i, input, _, _, _, hold, .fail (by rintro _ ⟨⟩),
          (Option.some.inj hstep).symm⟩)
    · cases hstep
  | install i =>
    dsimp only at hstep
    split at hstep
    · next input d hold =>
      exact .inr (.inr ⟨i, input, _, _, _, hold, .install, (Option.some.inj hstep).symm⟩)
    · cases hstep
  | load i =>
    dsimp only at hstep
    split at hstep
    · next input d hold =>
      exact .inr (.inr ⟨i, input, _, _, _, hold, .load, (Option.some.inj hstep).symm⟩)
    · cases hstep
  | store i =>
    dsimp only at hstep
    split at hstep
    · next input d config hold =>
      exact .inr (.inr ⟨i, input, _, _, _, hold, .store, (Option.some.inj hstep).symm⟩)
    · cases hstep
  | cancel i =>
    dsimp only at hstep
    split at hstep
    · cases hstep
    · next input phase hnot hold =>
      exact .inr (.inr ⟨i, input, phase, _, _, hold, .cancel fun result h => hnot result h,
        (Option.some.inj hstep).symm⟩)
    · cases hstep

/-- What a call has returned does not change. -/
theorem SetupRace.returned_step {i : ℕ} {input : SetupInput} {result : Except AppError Decision}
    {action : SetupAction} (hi : s.tasks[i]? = some ⟨input, .returned result⟩)
    (hstep : s.step action = some t) : t.tasks[i]? = some ⟨input, .returned result⟩ := by
  obtain ⟨started, rfl⟩ | ⟨statement, rfl⟩ | ⟨j, other, phase, node, new, hj, hmoves, rfl⟩ :=
    SetupRace.step_cases hstep
  · exact Tasks.start_other hi
  · exact hi
  · refine Tasks.set_other ?_ hi
    rintro rfl
    have hphase := congrArg SetupTask.phase (Option.some.inj (hj.symm.trans hi))
    exact hmoves.not_returned result hphase

end Steps

/-- The call has committed its transaction. -/
def SetupPhase.isDecided : SetupPhase → Bool
  | committed _ | installed _ | loaded _ _ | returned (.ok _) => true
  | started | checked _ | verified _ | returned (.error _) | cancelled => false

section Invariant

/-- What the transaction of a call leaves in the database. -/
structure SetupStored (start node : SettingsNode) (input : SetupInput) (d : Decision) : Prop where
  complete : node.appMeta.value "setup_complete" = some "true"
  issuer : node.appMeta.value "auth_issuer" = some input.issuer
  audience : node.appMeta.value "auth_audience" = some d.audience
  root : node.accounts.users.IsRoot d.identityId
  providers : node.routing = start.routing.adoptProviders d.identityId

/-- The call has accepted the audience of its input. -/
def Accepts (input : SetupInput) (audience : String) : Prop :=
  requiredSetting "Auth Mini audience" input.authAudience = .ok audience

/-- What holds of the node in each phase of a call. -/
def SetupPhase.Holds (start node : SettingsNode) (input : SetupInput) : SetupPhase → Prop
  | started | cancelled | returned (.error _) => True
  | checked audience => Accepts input audience
  | verified d => Accepts input d.audience
  | committed d => Accepts input d.audience ∧ SetupStored start node input d
  | installed d | loaded d _ => Accepts input d.audience ∧ SetupStored start node input d ∧
      node.verifier = some ⟨input.issuer, d.audience⟩
  | returned (.ok d) => Accepts input d.audience ∧ SetupStored start node input d ∧
      node.verifier = some ⟨input.issuer, d.audience⟩ ∧ node.config.setupComplete = true ∧
      node.config.authIssuer = some input.issuer ∧ node.config.authAudience = some d.audience

/-- What holds after any number of steps: at most one call has committed, the node is as its phase
says, and before that the providers are those of the beginning. -/
structure SetupInvariant (start : SettingsNode) (s : SetupRace) : Prop where
  keys : ∀ key ∈ ["setup_complete", "auth_issuer", "auth_audience"],
    ∃ text, s.node.appMeta.value key = some text
  providers : s.node.appMeta.value "setup_complete" ≠ some "true" →
    s.node.routing = start.routing
  holds : ∀ (i : ℕ) task, s.tasks[i]? = some task → task.phase.Holds start s.node task.input
  once : ∀ (i j : ℕ) task other, s.tasks[i]? = some task → s.tasks[j]? = some other →
    task.phase.isDecided = true → other.phase.isDecided = true → i = j

variable {start node : SettingsNode} {s t : SetupRace} {input : SetupInput} {phase new : SetupPhase}
  {i : ℕ} {d : Decision}

/-- A call that has committed finds the setup complete. -/
theorem SetupPhase.Holds.complete (h : phase.Holds start node input)
    (hdecided : phase.isDecided = true) :
    node.appMeta.value "setup_complete" = some "true" := by
  cases phase with
  | committed d => exact h.2.complete
  | installed d => exact h.2.1.complete
  | loaded d config => exact h.2.1.complete
  | returned result =>
    cases result with
    | ok d => exact h.2.1.complete
    | error e => cases hdecided
  | started => cases hdecided
  | checked audience => cases hdecided
  | verified d => cases hdecided
  | cancelled => cases hdecided

/-- A call that has not committed does not look at the node. -/
theorem SetupPhase.Holds.of_not_decided {other : SettingsNode} (h : phase.Holds start node input)
    (hdecided : phase.isDecided = false) : phase.Holds start other input := by
  cases phase with
  | committed d => cases hdecided
  | installed d => cases hdecided
  | loaded d config => cases hdecided
  | returned result =>
    cases result with
    | ok d => cases hdecided
    | error e => trivial
  | started => trivial
  | checked audience => exact h
  | verified d => exact h
  | cancelled => trivial

/-- **A call moves** to a phase that holds in the new node. If the node has changed, or the phase is
the first one after the commit, no other call has committed. -/
theorem SetupInvariant.move (h : SetupInvariant start s)
    (hold : s.tasks[i]? = some ⟨input, phase⟩)
    (hkeys : ∀ key ∈ ["setup_complete", "auth_issuer", "auth_audience"],
      ∃ text, node.appMeta.value key = some text)
    (hproviders : node.appMeta.value "setup_complete" ≠ some "true" → node.routing = start.routing)
    (hnew : new.Holds start node input)
    (hothers : (node = s.node ∧ new.isDecided = false) ∨
      ∀ (j : ℕ) task, j ≠ i → s.tasks[j]? = some task → task.phase.isDecided = false) :
    SetupInvariant start (s.move node i input new) where
  keys := hkeys
  providers := hproviders
  holds := by
    intro j task hj
    rcases Tasks.of_set hold hj with ⟨rfl, rfl⟩ | ⟨hne, hbefore⟩
    · exact hnew
    · rcases hothers with ⟨rfl, -⟩ | hothers
      · exact h.holds j task hbefore
      · exact (h.holds j task hbefore).of_not_decided (hothers j task hne hbefore)
  once := by
    intro j k task other hj hk hdecided hdecided'
    rcases Tasks.of_set hold hj with ⟨rfl, rfl⟩ | ⟨hne, hbefore⟩ <;>
      rcases Tasks.of_set hold hk with ⟨rfl, rfl⟩ | ⟨hne', hbefore'⟩
    · rfl
    · rcases hothers with ⟨-, hnot⟩ | hothers
      · cases hdecided.symm.trans hnot
      · cases hdecided'.symm.trans (hothers k other hne' hbefore')
    · rcases hothers with ⟨-, hnot⟩ | hothers
      · cases hdecided'.symm.trans hnot
      · cases hdecided.symm.trans (hothers j task hne hbefore)
    · exact h.once j k task other hbefore hbefore' hdecided hdecided'

/-- A step of one call before its commit, or to its failure, leaves the node as it is. -/
theorem SetupInvariant.quiet (h : SetupInvariant start s)
    (hold : s.tasks[i]? = some ⟨input, phase⟩) (hnew : new.Holds start s.node input)
    (hdecided : new.isDecided = false) : SetupInvariant start (s.move s.node i input new) :=
  h.move hold h.keys h.providers hnew (.inl ⟨rfl, hdecided⟩)

/-- Beside a call that has committed there is no other one. -/
theorem SetupInvariant.others (h : SetupInvariant start s)
    (hold : s.tasks[i]? = some ⟨input, phase⟩) (hdecided : phase.isDecided = true) :
    ∀ (j : ℕ) task, j ≠ i → s.tasks[j]? = some task → task.phase.isDecided = false := by
  intro j task hne hj
  rw [← Bool.not_eq_true]
  exact fun h' => hne (h.once j i task _ hj hold h' hdecided)

/-- As long as a setup is required, no call has committed. -/
theorem SetupInvariant.undecided (h : SetupInvariant start s)
    (hrequired : requireSetup s.node.appMeta = .ok ()) (j : ℕ) (task : SetupTask)
    (hj : s.tasks[j]? = some task) : task.phase.isDecided = false := by
  obtain ⟨text, htext, hne⟩ := requireSetup_eq_ok.mp hrequired
  rw [← Bool.not_eq_true]
  intro hdecided
  have hcomplete := (h.holds j task hj).complete hdecided
  exact hne (Option.some.inj (htext.symm.trans hcomplete))

/-- **Commit.** The transaction goes through for one call only. -/
theorem SetupInvariant.commit (h : SetupInvariant start s)
    (hold : s.tasks[i]? = some ⟨input, .verified d⟩) {now : Int}
    (hcommit : setupTransaction d.identityId input.issuer d.audience now s.node = .ok node) :
    SetupInvariant start (s.move node i input (.committed d)) := by
  obtain ⟨hrequired, users, hcrown, rfl⟩ := setupTransaction_eq_ok hcommit
  have hrow : ∀ key text, key ∈ ["setup_complete", "auth_issuer", "auth_audience"] →
      (setupValues input.issuer d.audience).lookup key = some text →
      (s.node.appMeta.writeAll (setupValues input.issuer d.audience) now).value key =
        some text := by
    intro key text hkey hlookup
    obtain ⟨old, hold⟩ := h.keys key hkey
    rw [AppMeta.value_writeAll (nodup_keys_setup _ _), hold, hlookup]
    rfl
  have hcomplete := hrow "setup_complete" "true" (by simp) rfl
  have hissuer := hrow "auth_issuer" input.issuer (by simp) rfl
  have haudience := hrow "auth_audience" d.audience (by simp) rfl
  have hproviders : s.node.routing = start.routing := by
    obtain ⟨text, htext, hne⟩ := requireSetup_eq_ok.mp hrequired
    refine h.providers ?_
    rw [htext]
    exact fun h' => hne (Option.some.inj h')
  refine h.move hold ?_ ?_ ⟨h.holds i _ hold, ?_⟩
    (.inr fun j task _ hj => h.undecided hrequired j task hj)
  · intro key hkey
    simp only [List.mem_cons, List.not_mem_nil, or_false] at hkey
    rcases hkey with rfl | rfl | rfl
    · exact ⟨_, hcomplete⟩
    · exact ⟨_, hissuer⟩
    · exact ⟨_, haudience⟩
  · exact fun hne => absurd hcomplete hne
  · exact ⟨hcomplete, hissuer, haudience, Users.isRoot_crown hcrown,
      congrArg (Database.adoptProviders · d.identityId) hproviders⟩

/-- **Install.** The verifier is that of the call that has committed. -/
theorem SetupInvariant.install (h : SetupInvariant start s)
    (hold : s.tasks[i]? = some ⟨input, .committed d⟩) :
    SetupInvariant start
      (s.move { s.node with verifier := some ⟨input.issuer, d.audience⟩ } i input
        (.installed d)) := by
  obtain ⟨haccepts, hstored⟩ := h.holds i _ hold
  refine h.move hold h.keys h.providers ⟨haccepts, ?_, rfl⟩ (.inr (h.others hold rfl))
  exact ⟨hstored.complete, hstored.issuer, hstored.audience, hstored.root, hstored.providers⟩

/-- **Store.** So is the configuration in memory. -/
theorem SetupInvariant.store (h : SetupInvariant start s) {config : Config}
    (hold : s.tasks[i]? = some ⟨input, .loaded d config⟩) :
    SetupInvariant start
      (s.move { s.node with config := config.afterSetup input.issuer d.audience } i input
        (.returned (.ok d))) := by
  obtain ⟨haccepts, hstored, hverifier⟩ := h.holds i _ hold
  refine h.move hold h.keys h.providers ⟨haccepts, ?_, hverifier, rfl, rfl, rfl⟩
    (.inr (h.others hold rfl))
  exact ⟨hstored.complete, hstored.issuer, hstored.audience, hstored.root, hstored.providers⟩

/-- A clone of the configuration changes nothing. -/
theorem SetupInvariant.load (h : SetupInvariant start s)
    (hold : s.tasks[i]? = some ⟨input, .installed d⟩) :
    SetupInvariant start (s.move s.node i input (.loaded d s.node.config)) :=
  h.move hold h.keys h.providers (h.holds i _ hold) (.inr (h.others hold rfl))

/-- What holds of a call does not depend on who logs in, as long as the root stays. -/
theorem SetupPhase.Holds.users (h : phase.Holds start node input) (statement : UsersStatement) :
    phase.Holds start { node with
      accounts := { node.accounts with users := statement.exec node.accounts.users } } input := by
  have hstored : ∀ d, SetupStored start node input d → SetupStored start { node with
      accounts := { node.accounts with users := statement.exec node.accounts.users } } input d :=
    fun d hstored => ⟨hstored.complete, hstored.issuer, hstored.audience,
      statement.isRoot_exec.mpr hstored.root, hstored.providers⟩
  cases phase with
  | committed d => exact ⟨h.1, hstored d h.2⟩
  | installed d => exact ⟨h.1, hstored d h.2.1, h.2.2⟩
  | loaded d config => exact ⟨h.1, hstored d h.2.1, h.2.2⟩
  | returned result =>
    cases result with
    | ok d => exact ⟨h.1, hstored d h.2.1, h.2.2⟩
    | error e => trivial
  | started => trivial
  | checked audience => exact h
  | verified d => exact h
  | cancelled => trivial

/-- **Start.** A call that has just started has decided nothing. -/
theorem SetupInvariant.arrival (h : SetupInvariant start s) (input : SetupInput) :
    SetupInvariant start { s with tasks := s.tasks ++ [⟨input, .started⟩] } where
  keys := h.keys
  providers := h.providers
  holds := Tasks.forall_start h.holds trivial
  once := by
    intro j k task other hj hk hdecided hdecided'
    rcases Tasks.of_start hj with hbefore | ⟨-, rfl⟩
    · rcases Tasks.of_start hk with hbefore' | ⟨-, rfl⟩
      · exact h.once j k task other hbefore hbefore' hdecided hdecided'
      · cases hdecided'
    · cases hdecided

/-- **Users.** A login and a statement of `update_user` keep the invariant. -/
theorem SetupInvariant.users (h : SetupInvariant start s) (statement : UsersStatement) :
    SetupInvariant start { s with node := { s.node with
      accounts := { s.node.accounts with users := statement.exec s.node.accounts.users } } } where
  keys := h.keys
  providers := h.providers
  holds := fun j task hj => (h.holds j task hj).users statement
  once := h.once

/-- **Step.** Every step keeps the invariant. -/
theorem SetupInvariant.step (h : SetupInvariant start s) {action : SetupAction}
    (hstep : s.step action = some t) : SetupInvariant start t := by
  obtain ⟨input, rfl⟩ | ⟨statement, rfl⟩ | ⟨i, input, phase, node, new, hold, hmoves, rfl⟩ :=
    SetupRace.step_cases hstep
  · exact h.arrival input
  · exact h.users statement
  · cases hmoves with
    | check hok =>
      obtain ⟨_, -, haccepts⟩ := bind_eq_ok.mp hok
      exact h.quiet hold haccepts rfl
    | verify => exact h.quiet hold (h.holds i _ hold) rfl
    | commit hcommit => exact h.commit hold hcommit
    | install => exact h.install hold
    | load => exact h.load hold
    | store => exact h.store hold
    | fail => exact h.quiet hold trivial rfl
    | cancel => exact h.quiet hold trivial rfl

/-- A process that starts, before any call of `setup`. -/
theorem setupInvariant_start (hstart : Config.load start.appMeta = .ok start.config) :
    SetupInvariant start ⟨start, []⟩ where
  keys := by
    have hsetup := (Config.load_eq_ok_iff.mp hstart).1
    have hexists : ∀ {α : Type} {key : String} {parse : String → Option α} {a : α},
        (start.appMeta.value key).bind parse = some a →
          ∃ text, start.appMeta.value key = some text := by
      intro α key parse a hread
      obtain ⟨text, htext, -⟩ := Option.bind_eq_some_iff.mp hread
      exact ⟨text, htext⟩
    intro key hkey
    simp only [List.mem_cons, List.not_mem_nil, or_false] at hkey
    rcases hkey with rfl | rfl | rfl
    · exact hexists hsetup.setupComplete
    · exact hexists hsetup.authIssuer
    · exact hexists hsetup.authAudience
  providers := fun _ => rfl
  holds := by simp
  once := by simp

end Invariant

section Decided

/-- The setup of this input has made this user the root, once and for all. -/
structure SetupDecided (start node : SettingsNode) (input : SetupInput) (identityId : String) :
    Prop where
  root : ∀ user ∈ node.accounts.users.table, user.role = .root ↔ user.id = identityId
  exists_root : node.accounts.users.IsRoot identityId
  /-- The providers are those of the beginning; the ones without an owner have the root as owner. -/
  providers : ∀ id, node.routing.provider? id = (start.routing.provider? id).map fun row =>
    { row with ownerId := some (row.ownerId.getD identityId) }
  complete : node.appMeta.value "setup_complete" = some "true" ∧ node.config.setupComplete = true
  issuer : node.appMeta.value "auth_issuer" = some input.issuer ∧
    node.config.authIssuer = some input.issuer
  audience : node.appMeta.value "auth_audience" = some (trim input.authAudience) ∧
    node.config.authAudience = some (trim input.authAudience)
  verifier : node.verifier = some ⟨input.issuer, trim input.authAudience⟩

/-- The providers after the transaction of a setup. -/
theorem provider?_adoptProviders (db : Database) (ownerId id : String) :
    (db.adoptProviders ownerId).provider? id = (db.provider? id).map fun row =>
      { row with ownerId := some (row.ownerId.getD ownerId) } := by
  unfold Database.adoptProviders
  rw [Database.provider?_updateProviders]
  congr 1
  funext row
  cases howner : row.ownerId with
  | none => simp
  | some owner =>
    have hrow : { row with ownerId := some owner } = row := by rw [← howner]
    exact hrow.symm

variable {s t : SetupRace} {input : SetupInput} {i : ℕ}

/-- A call that has succeeded has decided the setup. -/
theorem SetupInvariant.decided {start : SettingsNode} {d : Decision} (h : SetupInvariant start s)
    (hi : s.tasks[i]? = some ⟨input, .returned (.ok d)⟩) :
    SetupDecided start s.node input d.identityId := by
  obtain ⟨haccepts, hstored, hverifier, hcomplete, hissuer, haudience⟩ := h.holds i _ hi
  have htrim : d.audience = trim input.authAudience := (requiredSetting_ne_empty haccepts).1
  have hstoredAudience := hstored.audience
  rw [htrim] at hstoredAudience hverifier haudience
  refine ⟨hstored.root.role_eq_root_iff, hstored.root, ?_, ⟨hstored.complete, hcomplete⟩,
    ⟨hstored.issuer, hissuer⟩, ⟨hstoredAudience, haudience⟩, hverifier⟩
  intro id
  rw [hstored.providers]
  exact provider?_adoptProviders _ _ _

/-- **Setup is decided once.** In every run of concurrent setups, logins and updates of users, a
setup that has succeeded is the only one that ever does, and from then on everything is as that one
has decided. -/
theorem setup_decided_once {start : SettingsNode} {first second : List SetupAction}
    (hstart : Config.load start.appMeta = .ok start.config)
    (hfirst : run SetupRace.step ⟨start, []⟩ first = some s)
    (hsecond : run SetupRace.step s second = some t) {d : Decision}
    (hi : s.tasks[i]? = some ⟨input, .returned (.ok d)⟩) :
    (∀ (j : ℕ) other d', t.tasks[j]? = some ⟨other, .returned (.ok d')⟩ → j = i) ∧
      SetupDecided start t.node input d.identityId := by
  have hkeeps : ∀ {s t : SetupRace} {actions : List SetupAction},
      run SetupRace.step s actions = some t → SetupInvariant start s → SetupInvariant start t :=
    fun hrun h => invariant_of_run (fun h hstep => h.step hstep) hrun h
  have hinvariant : SetupInvariant start t :=
    hkeeps hsecond (hkeeps hfirst (setupInvariant_start hstart))
  have hkept : ∀ {s t : SetupRace} {action : SetupAction},
      s.tasks[i]? = some ⟨input, .returned (.ok d)⟩ → s.step action = some t →
        t.tasks[i]? = some ⟨input, .returned (.ok d)⟩ := SetupRace.returned_step
  have hlater : t.tasks[i]? = some ⟨input, .returned (.ok d)⟩ :=
    invariant_of_run hkept hsecond hi
  refine ⟨?_, hinvariant.decided hlater⟩
  intro j other d' hj
  exact hinvariant.once j i _ _ hj hlater rfl rfl

/-- Two setups race, and a user logs in before the first one commits. -/
def racingSetups : List SetupAction :=
  [.start plainSetup.input, .start slashedSetup.input, .check 1, .check 0, .verify 0 (.ok "root"),
    .verify 1 (.ok "second"), .users (.register "guest" 1), .commit 0 2, .install 0, .commit 1 3,
    .load 0, .store 0]

/-- The loser logs in, and somebody tries to take the root its role and to promote another one. -/
def laterUpdates : List SetupAction :=
  [.users (.register "second" 4), .users (.setRole "root" ⟨.user, by decide⟩),
    .users (.setRole "second" ⟨.admin, by decide⟩)]

/-- The statement for these runs. -/
theorem setup_decided_once_racing :
    ∃ s t, run SetupRace.step ⟨newInstallation, []⟩ racingSetups = some s ∧
      run SetupRace.step s laterUpdates = some t ∧
      s.tasks[1]? = some ⟨slashedSetup.input, .returned (.error setupIsComplete)⟩ ∧
      (∀ (j : ℕ) other d', t.tasks[j]? = some ⟨other, .returned (.ok d')⟩ → j = 0) ∧
      SetupDecided newInstallation t.node plainSetup.input "root" := by
  have hruns : ∃ s t, run SetupRace.step ⟨newInstallation, []⟩ racingSetups = some s ∧
      run SetupRace.step s laterUpdates = some t ∧
      s.tasks[1]? = some ⟨slashedSetup.input, .returned (.error setupIsComplete)⟩ ∧
      s.tasks[0]? =
        some ⟨plainSetup.input, .returned (.ok ⟨"https://app.example.com", "root"⟩)⟩ :=
    ⟨_, _, rfl, rfl, rfl, rfl⟩
  obtain ⟨s, t, hfirst, hsecond, hlost, hwon⟩ := hruns
  exact ⟨s, t, hfirst, hsecond, hlost, setup_decided_once rfl hfirst hsecond hwon⟩

end Decided

end OpenAiLb
