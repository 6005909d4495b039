import OpenAiLb.Library.Tasks
import OpenAiLb.Library.Transition
import OpenAiLb.SettingsRestart

/-!
# Concurrent updates of the settings

A call of `update_settings` commits its texts, then clones the configuration in memory, and stores
the clone with its own settings. Nothing ties the order of the stores to that of the commits. The
memory agrees with the database as long as no call stores after the one whose texts are there.
-/

namespace OpenAiLb

open Transition

/-- How far a call of `update_settings` has come after its checks. -/
inductive SettingsPhase where
  | checked
  | committed
  /-- The configuration in memory was cloned. -/
  | loaded (config : Config)
  | stored
  deriving DecidableEq

/-- The transaction is committed, and the configuration not yet stored. -/
def SettingsPhase.isPending : SettingsPhase → Bool
  | committed | loaded _ => true
  | checked | stored => false

/-- A call of `update_settings` with the settings that it has accepted. -/
structure SettingsTask where
  settings : Settings
  normal : settings.Normal
  phase : SettingsPhase

/-- What the calls share, and the calls in the order in which they started. -/
structure SettingsRace where
  appMeta : AppMeta
  config : Config
  tasks : List SettingsTask

/-- A call passes its checks, or takes its next step. -/
inductive SettingsAction where
  | start (input : UpdateSettings)
  | commit (i : ℕ) (now : Int)
  | load (i : ℕ)
  | store (i : ℕ)

section Races

variable (parse : String → Option Url)

/-- One step of the calls. -/
def SettingsRace.step (s : SettingsRace) : SettingsAction → Option SettingsRace
  | .start input =>
    match h : validateSettings parse input with
    | .ok settings =>
      some { s with tasks := s.tasks ++ [⟨settings, validateSettings_eq_ok h, .checked⟩] }
    | .error _ => none
  | .commit i now =>
    match s.tasks[i]? with
    | some ⟨settings, h, .checked⟩ => some { s with
        appMeta := s.appMeta.writeAll settings.values now
        tasks := s.tasks.set i ⟨settings, h, .committed⟩ }
    | _ => none
  | .load i =>
    match s.tasks[i]? with
    | some ⟨settings, h, .committed⟩ =>
      some { s with tasks := s.tasks.set i ⟨settings, h, .loaded s.config⟩ }
    | _ => none
  | .store i =>
    match s.tasks[i]? with
    | some ⟨settings, h, .loaded config⟩ => some { s with
        config := { config with toSettings := settings }
        tasks := s.tasks.set i ⟨settings, h, .stored⟩ }
    | _ => none

/-- The steps of a call that nobody comes in between. -/
def SettingsCall.steps (c : SettingsCall) : List SettingsAction :=
  [.start c.input, .commit 0 c.now, .load 0, .store 0]

section Alone

variable {parse} {c : SettingsCall} {m : AppMeta} {config : Config} {settings : Settings}

/-- The node after the steps of one call. -/
def SettingsCall.last (c : SettingsCall) (m : AppMeta) (config : Config) (settings : Settings)
    (hnormal : settings.Normal) : SettingsRace :=
  ⟨m.writeAll settings.values c.now, { config with toSettings := settings },
    [⟨settings, hnormal, .stored⟩]⟩

/-- A call whose input is valid may start. -/
theorem step_start (hvalid : validateSettings parse c.input = .ok settings) :
    SettingsRace.step parse ⟨m, config, []⟩ (.start c.input) =
      some ⟨m, config, [⟨settings, validateSettings_eq_ok hvalid, .checked⟩]⟩ := by
  simp only [SettingsRace.step]
  split
  · next other hother =>
    obtain rfl := Except.ok.inj (hvalid.symm.trans hother)
    rfl
  · next e herror => cases hvalid.symm.trans herror

/-- A call that runs alone reaches its end. -/
theorem run_steps (hvalid : validateSettings parse c.input = .ok settings) :
    run (SettingsRace.step parse) ⟨m, config, []⟩ c.steps =
      some (c.last m config settings (validateSettings_eq_ok hvalid)) := by
  unfold SettingsCall.steps
  rw [run_cons, step_start hvalid]
  rfl

/-- **The steps are those of the handler**: one call alone leaves what `update_settings` leaves. -/
theorem run_steps_of_updateSettings {node node' : SettingsNode} {answer : Value}
    (h : updateSettings parse c node = .ok answer node') :
    ∃ t, run (SettingsRace.step parse) ⟨node.appMeta, node.config, []⟩ c.steps = some t ∧
      t.appMeta = node'.appMeta ∧ t.config = node'.config := by
  obtain ⟨settings, hvalid, hmeta, hconfig⟩ := updateSettings_eq_ok h
  exact ⟨_, run_steps hvalid, hmeta.symm, hconfig.symm⟩

end Alone

/-- A call stores its settings only if they are those in the database, or if another call whose
settings are there has yet to store them. -/
def StoresInOrder (s : SettingsRace) : SettingsAction → Prop
  | .store i => ∀ task ∈ s.tasks[i]?, Config.ReadsSettings s.appMeta task.settings ∨
      ∃ other ∈ s.tasks.eraseIdx i, other.phase.isPending ∧
        Config.ReadsSettings s.appMeta other.settings
  | _ => True

/-- A call that nobody comes in between stores in order. -/
theorem guarded_steps {parse : String → Option Url} {c : SettingsCall} {m : AppMeta}
    {config : Config} {settings : Settings} (hvalid : validateSettings parse c.input = .ok settings)
    (hread : Config.ReadsSettings m config.toSettings) :
    Guarded (SettingsRace.step parse) StoresInOrder ⟨m, config, []⟩ c.steps := by
  refine ⟨trivial, fun s1 h1 => ⟨trivial, fun s2 h2 => ⟨trivial, fun s3 h3 => ⟨?_, ?_⟩⟩⟩⟩
  · obtain rfl := Option.some.inj ((step_start hvalid).symm.trans h1)
    obtain rfl := Option.some.inj h2
    obtain rfl := Option.some.inj h3
    rintro task htask
    obtain rfl := Option.some.inj htask
    exact .inl (readsSettings_writeAll hread (validateSettings_eq_ok hvalid))
  · exact fun _ _ => trivial

/-- What holds after any number of steps: the memory agrees with the database, or a call whose
settings are in the database has yet to store them. -/
structure RaceInvariant (s : SettingsRace) : Prop where
  setup : ∃ config, Config.ReadsSetup s.appMeta config
  settings : Config.ReadsSettings s.appMeta s.config.toSettings ∨
    ∃ (j : ℕ) (task : SettingsTask), s.tasks[j]? = some task ∧ task.phase.isPending ∧
      Config.ReadsSettings s.appMeta task.settings

variable {parse} {s t : SettingsRace} {i : ℕ}

/-- The database always holds some settings. -/
theorem RaceInvariant.exists_settings (h : RaceInvariant s) :
    ∃ settings, Config.ReadsSettings s.appMeta settings := by
  rcases h.settings with hmemory | ⟨-, task, -, -, htask⟩
  · exact ⟨_, hmemory⟩
  · exact ⟨_, htask⟩

/-- A commit leaves its own call to store what is in the database. -/
theorem RaceInvariant.commit (h : RaceInvariant s) {settings : Settings}
    (hnormal : settings.Normal) {now : Int}
    (hold : s.tasks[i]? = some ⟨settings, hnormal, .checked⟩) :
    RaceInvariant { s with
      appMeta := s.appMeta.writeAll settings.values now
      tasks := s.tasks.set i ⟨settings, hnormal, .committed⟩ } := by
  obtain ⟨old, hread⟩ := h.exists_settings
  obtain ⟨config, hsetup⟩ := h.setup
  refine ⟨⟨_, readsSetup_writeAll.mpr hsetup⟩, .inr ⟨i, _, Tasks.set_self hold, rfl, ?_⟩⟩
  exact readsSettings_writeAll hread hnormal

/-- A clone of the configuration changes nothing. -/
theorem RaceInvariant.load (h : RaceInvariant s) {settings : Settings} (hnormal : settings.Normal)
    (hold : s.tasks[i]? = some ⟨settings, hnormal, .committed⟩) :
    RaceInvariant { s with tasks := s.tasks.set i ⟨settings, hnormal, .loaded s.config⟩ } := by
  refine ⟨h.setup, ?_⟩
  rcases h.settings with hmemory | ⟨j, task, hj, hpending, hread⟩
  · exact .inl hmemory
  · right
    by_cases heq : i = j
    · subst heq
      obtain rfl := Option.some.inj (hold.symm.trans hj)
      exact ⟨i, _, Tasks.set_self hold, rfl, hread⟩
    · exact ⟨j, task, Tasks.set_other heq hj, hpending, hread⟩

/-- A store in order leaves the memory as the database, or another call to make it so. -/
theorem RaceInvariant.store (h : RaceInvariant s) {settings : Settings} (hnormal : settings.Normal)
    {config : Config} (hold : s.tasks[i]? = some ⟨settings, hnormal, .loaded config⟩)
    (hordered : StoresInOrder s (.store i)) :
    RaceInvariant { s with
      config := { config with toSettings := settings }
      tasks := s.tasks.set i ⟨settings, hnormal, .stored⟩ } := by
  refine ⟨h.setup, ?_⟩
  rcases hordered _ hold with hown | ⟨other, hmem, hpending, hread⟩
  · exact .inl hown
  · obtain ⟨j, hne, hj⟩ := List.mem_eraseIdx_iff_getElem?.mp hmem
    exact .inr ⟨j, other, Tasks.set_other hne.symm hj, hpending, hread⟩

/-- **Step.** A step in order keeps the invariant. -/
theorem RaceInvariant.step (h : RaceInvariant s) {action : SettingsAction}
    (hordered : StoresInOrder s action) (hstep : s.step parse action = some t) :
    RaceInvariant t := by
  cases action with
  | start input =>
    simp only [SettingsRace.step] at hstep
    split at hstep
    · obtain rfl := Option.some.inj hstep
      refine ⟨h.setup, ?_⟩
      rcases h.settings with hmemory | ⟨j, task, hj, hpending, hread⟩
      · exact .inl hmemory
      · exact .inr ⟨j, task, Tasks.start_other hj, hpending, hread⟩
    · cases hstep
  | commit i now =>
    simp only [SettingsRace.step] at hstep
    split at hstep
    · next settings hnormal hold =>
      obtain rfl := Option.some.inj hstep
      exact h.commit hnormal hold
    · cases hstep
  | load i =>
    simp only [SettingsRace.step] at hstep
    split at hstep
    · next settings hnormal hold =>
      obtain rfl := Option.some.inj hstep
      exact h.load hnormal hold
    · cases hstep
  | store i =>
    simp only [SettingsRace.step] at hstep
    split at hstep
    · next settings hnormal config hold =>
      obtain rfl := Option.some.inj hstep
      exact h.store hnormal hold hordered
    · cases hstep

/-- **When the memory and the database agree on the settings**: in every run of concurrent calls in
which every store is in order, as soon as no call is between its commit and its store. -/
theorem settings_agree (parse : String → Option Url) {s t : SettingsRace}
    {actions : List SettingsAction} (hstart : Config.load s.appMeta = .ok s.config)
    (hordered : Guarded (SettingsRace.step parse) StoresInOrder s actions)
    (hrun : run (SettingsRace.step parse) s actions = some t)
    (hreturned : ∀ task ∈ t.tasks, task.phase.isPending = false) :
    ∃ config, Config.load t.appMeta = .ok config ∧ config.toSettings = t.config.toSettings := by
  obtain ⟨hsetup, hsettings⟩ := Config.load_eq_ok_iff.mp hstart
  have hinvariant : RaceInvariant t :=
    invariant_of_guarded (fun h hok hstep => h.step hok hstep) hordered hrun
      ⟨⟨s.config, hsetup⟩, .inl hsettings⟩
  obtain ⟨config, hsetup'⟩ := hinvariant.setup
  have hmemory : Config.ReadsSettings t.appMeta t.config.toSettings := by
    rcases hinvariant.settings with hmemory | ⟨j, task, hj, hpending, -⟩
    · exact hmemory
    · rw [hreturned task (List.mem_of_getElem? hj)] at hpending
      cases hpending
  refine ⟨{ config with toSettings := t.config.toSettings }, ?_, rfl⟩
  exact Config.load_eq_ok_iff.mpr ⟨⟨hsetup'.1, hsetup'.2, hsetup'.3⟩, hmemory⟩

/-- The process of a new installation. -/
def newRace : SettingsRace := ⟨migratedMeta, migratedConfig, []⟩

/-- Every URL is accepted. -/
def anyUrl : String → Option Url := fun _ => some ⟨"https", some "host"⟩

/-- Another call of `update_settings`, with the days of the archive. -/
def retentionUpdate (days : Int) : UpdateSettings :=
  { headerUpdate.input with requestArchiveRetentionDays := days }

/-- Two calls whose stores come in another order than their commits. -/
def storedOutOfOrder : List SettingsAction :=
  [.start (retentionUpdate 7), .start (retentionUpdate 30), .commit 0 2, .commit 1 3, .load 1,
    .store 1, .load 0, .store 0]

/-- Two calls that overlap, and whose stores come in the order of their commits. -/
def storedInOrder : List SettingsAction :=
  [.start (retentionUpdate 7), .start (retentionUpdate 30), .commit 0 2, .load 0, .commit 1 3,
    .load 1, .store 0, .store 1]

/-- The first call stores while the second, whose settings are in the database, has yet to. -/
theorem guarded_storedInOrder :
    Guarded (SettingsRace.step anyUrl) StoresInOrder newRace storedInOrder := by
  have hread := (Config.load_eq_ok_iff.mp
    (show Config.load migratedMeta = .ok migratedConfig from rfl)).2
  have hfirst := validateSettings_eq_ok
    (show validateSettings anyUrl (retentionUpdate 7) = .ok _ from rfl)
  have hsecond := validateSettings_eq_ok
    (show validateSettings anyUrl (retentionUpdate 30) = .ok _ from rfl)
  refine ⟨trivial, fun s1 h1 => ⟨trivial, fun s2 h2 => ⟨trivial, fun s3 h3 => ⟨trivial,
    fun s4 h4 => ⟨trivial, fun s5 h5 => ⟨trivial, fun s6 h6 => ?_⟩⟩⟩⟩⟩⟩
  obtain rfl := Option.some.inj h1
  obtain rfl := Option.some.inj h2
  obtain rfl := Option.some.inj h3
  obtain rfl := Option.some.inj h4
  obtain rfl := Option.some.inj h5
  obtain rfl := Option.some.inj h6
  have hdatabase : Config.ReadsSettings ((migratedMeta.writeAll _ 2).writeAll _ 3) _ :=
    readsSettings_writeAll (readsSettings_writeAll hread hfirst) hsecond
  refine ⟨fun task htask => ?_, fun s7 h7 => ⟨fun task htask => ?_, fun _ _ => trivial⟩⟩
  · exact .inr ⟨_, List.mem_cons_self, rfl, hdatabase⟩
  · obtain rfl := Option.some.inj h7
    obtain rfl := Option.some.inj htask
    exact .inl hdatabase

/-- The statement at these calls: both end with the 30 days of the second. -/
theorem settings_agree_overlapping :
    ∃ t config, run (SettingsRace.step anyUrl) newRace storedInOrder = some t ∧
      t.config.requestArchiveRetentionDays = 30 ∧
      Config.load t.appMeta = .ok config ∧ config.toSettings = t.config.toSettings := by
  obtain ⟨config, hload, hsame⟩ := settings_agree anyUrl rfl guarded_storedInOrder rfl (by decide)
  exact ⟨_, config, rfl, rfl, hload, hsame⟩

/-- The process runs on 7 days, and the database says 30. -/
theorem stores_out_of_order :
    ∃ t config, run (SettingsRace.step anyUrl) newRace storedOutOfOrder = some t ∧
      (∀ task ∈ t.tasks, task.phase = .stored) ∧ Config.load t.appMeta = .ok config ∧
      t.config.requestArchiveRetentionDays = 7 ∧ config.requestArchiveRetentionDays = 30 := by
  refine ⟨_, _, rfl, ?_, rfl, rfl, rfl⟩
  decide

end Races

end OpenAiLb
