import VasalAgent.Agent.Permits

/-!
# Reloading the configuration

On `SIGHUP` the configuration file is read again and its hot-reloadable part is
published on the runtime watch channel.  The semaphore of the task manager is
built once, from the limit that is published when the manager is built, and no
reload reaches it: the published limit and the enforced one agree only as long
as no reload changes `max_concurrent`.
-/

namespace VasalAgent.Agent

open VasalAgent.Async
open VasalAgent.Protocol
open VasalAgent.Task
open VasalAgent.Transport

/-! ## Configuration -/

structure AgentSection where
  logLevel : String
  deriving DecidableEq, Repr

structure HeartbeatSection where
  intervalSec : Nat
  deriving DecidableEq, Repr

structure AuditSection where
  batchSize : Nat
  flushIntervalSec : Nat
  deriving DecidableEq, Repr

structure ShellSection where
  maxConcurrent : Nat
  deriving DecidableEq, Repr

structure UnitsSection where
  healthCheckIntervalSec : Nat
  deriving DecidableEq, Repr

/-- The part of `Config` that a reload reads. -/
structure Config where
  agent : AgentSection
  heartbeat : HeartbeatSection
  audit : AuditSection
  shell : ShellSection
  units : UnitsSection
  deriving DecidableEq, Repr

structure RuntimeConfig where
  logLevel : String
  maxConcurrent : Nat
  heartbeatIntervalSec : Nat
  healthCheckIntervalSec : Nat
  auditBatchSize : Nat
  auditFlushIntervalSec : Nat
  deriving DecidableEq, Repr

def Config.runtime (config : Config) : RuntimeConfig where
  logLevel := config.agent.logLevel
  maxConcurrent := config.shell.maxConcurrent
  heartbeatIntervalSec := config.heartbeat.intervalSec
  healthCheckIntervalSec := config.units.healthCheckIntervalSec
  auditBatchSize := config.audit.batchSize
  auditFlushIntervalSec := config.audit.flushIntervalSec

/-! ## The handler -/

/-- The full configuration and the last value of the runtime watch channel. -/
structure Settings where
  full : Config
  runtime : RuntimeConfig
  deriving DecidableEq, Repr

def Settings.initial (config : Config) : Settings := ⟨config, config.runtime⟩

/-- One round of the `SIGHUP` handler; a file that does not load changes nothing. -/
def Settings.reload (settings : Settings) : Except Error Config → Settings
  | .ok new =>
      if settings.full.runtime ≠ new.runtime then ⟨new, new.runtime⟩
      else ⟨new, settings.runtime⟩
  | .error _ => settings

/-- The channel carries the runtime part of the configuration in force. -/
theorem runtime_reload {settings : Settings} (h : settings.runtime = settings.full.runtime)
    (loaded : Except Error Config) :
    (settings.reload loaded).runtime = (settings.reload loaded).full.runtime := by
  cases loaded with
  | error e => exact h
  | ok new =>
      simp only [Settings.reload]
      split
      next => rfl
      next hsame => rw [h, not_not.mp hsame]

/-! ## Runs with reloads -/

structure Reloading (agent : AgentConfig) where
  pool : Pool agent.system
  settings : Settings

section Reloads

variable {agent : AgentConfig}

/-- `TaskManager::new` reads the limit once. -/
def Reloading.initial (config : Config) : Reloading agent where
  pool := Pool.initial (Shared.initial (Settings.initial config).runtime.maxConcurrent)
  settings := Settings.initial config

/-- The agent moves, or a reload for which `allowed` holds happens. -/
inductive ReloadStep (allowed : Settings → Except Error Config → Prop) :
    Reloading agent → Reloading agent → Prop
  | move {state : Reloading agent} {next : Pool agent.system}
      (step : Step (Policy.free agent.system) state.pool next) :
      ReloadStep allowed state { state with pool := next }
  | sighup {state : Reloading agent} {loaded : Except Error Config}
      (hallowed : allowed state.settings loaded) :
      ReloadStep allowed state { state with settings := state.settings.reload loaded }

abbrev ReloadRun (allowed : Settings → Except Error Config → Prop) :
    Reloading agent → Reloading agent → Prop :=
  Relation.ReflTransGen (ReloadStep allowed)

theorem ReloadRun.pool {allowed : Settings → Except Error Config → Prop}
    {first last : Reloading agent} (run : ReloadRun allowed first last) :
    Run (Policy.free agent.system) first.pool last.pool := by
  induction run with
  | refl => exact .refl
  | tail _ step ih =>
      cases step with
      | move step => exact ih.tail step
      | sighup _ => exact ih

theorem reloadRun_of_run {allowed : Settings → Except Error Config → Prop}
    {first last : Pool agent.system} (settings : Settings)
    (run : Run (Policy.free agent.system) first last) :
    ReloadRun allowed (⟨first, settings⟩ : Reloading agent) ⟨last, settings⟩ := by
  induction run with
  | refl => exact .refl
  | tail _ step ih => exact ih.tail (.move step)

/-! ## The law -/

/-- A waiting task begins exactly while fewer than the published limit execute. -/
structure LimitEffective (state : Reloading agent) : Prop where
  begins : ∀ {i body cont shared}, RunsBody state.pool i body (.call .acquire cont) →
    perform agent state.pool.shared .acquire () = some ((), shared) →
    executing state.pool < state.settings.runtime.maxConcurrent
  granted : ∀ {i body cont}, RunsBody state.pool i body (.call .acquire cont) →
    executing state.pool < state.settings.runtime.maxConcurrent →
    ∃ shared, perform agent state.pool.shared .acquire () = some ((), shared)

/-- A reload leaves `max_concurrent` as it is. -/
def keepsLimit (settings : Settings) (loaded : Except Error Config) : Prop :=
  ∀ new, loaded = .ok new → new.shell.maxConcurrent = settings.full.shell.maxConcurrent

theorem keepsLimit_reload {settings : Settings} {loaded : Except Error Config}
    (h : keepsLimit settings loaded) :
    (settings.reload loaded).full.shell.maxConcurrent =
      settings.full.shell.maxConcurrent := by
  cases loaded with
  | error e => rfl
  | ok new =>
      simp only [Settings.reload]
      split <;> exact h new rfl

theorem limit_of_run {config : Config} {last : Reloading agent}
    (run : ReloadRun keepsLimit (Reloading.initial config) last) :
    last.settings.runtime = last.settings.full.runtime ∧
      last.settings.full.shell.maxConcurrent = config.shell.maxConcurrent := by
  induction run with
  | refl => exact ⟨rfl, rfl⟩
  | tail _ step ih =>
      cases step with
      | move _ => exact ih
      | sighup hkeeps =>
          exact ⟨runtime_reload ih.1 _, (keepsLimit_reload hkeeps).trans ih.2⟩

theorem acquire_isSome {s : Shared} :
    (∃ shared, perform agent s .acquire () = some ((), shared)) ↔ 0 < s.permits := by
  simp [perform]

theorem limitEffective_of_keepsLimit {config : Config} {last : Reloading agent}
    (run : ReloadRun keepsLimit (Reloading.initial config) last) :
    LimitEffective last := by
  obtain ⟨hruntime, hlimit⟩ := limit_of_run run
  have hpool : Run (Policy.free agent.system)
      (Pool.initial (Shared.initial config.shell.maxConcurrent)) last.pool := run.pool
  have hbalance := balance_run hpool
  rw [← executing_count hpool.projects] at hbalance
  have hpublished : last.settings.runtime.maxConcurrent = config.shell.maxConcurrent := by
    rw [hruntime]
    exact hlimit
  refine ⟨fun _ hperform => ?_, fun _ hfewer => ?_⟩
  · have hpermits := acquire_isSome.mp ⟨_, hperform⟩
    omega
  · exact acquire_isSome.mpr (by omega)

end Reloads

/-! ## A limit that is ignored -/

def sampleConfig (maxConcurrent : Nat) : Config where
  agent := ⟨"info"⟩
  heartbeat := ⟨30⟩
  audit := ⟨100, 10⟩
  shell := ⟨maxConcurrent⟩
  units := ⟨60⟩

/-- Two tasks are submitted and the first one gets its permit. -/
def oneExecuting : List (Label sampleAgent.system) :=
  submittedTwice ++ List.replicate 2 (.fire 2 obliging) ++ [.fire 1 obliging]

/-- The state after `oneExecuting` and a reload from one limit to another. -/
def reloadedTo (before after : Nat) (pool : Pool sampleAgent.system) :
    Reloading sampleAgent where
  pool
  settings := (Settings.initial (sampleConfig before)).reload (.ok (sampleConfig after))

theorem reloadedTo_run {allowed : Settings → Except Error Config → Prop} {before : Nat}
    (after : Nat) {pool : Pool sampleAgent.system}
    (h : (Pool.initial (Shared.initial before)).script oneExecuting = some pool)
    (hallowed : allowed (Settings.initial (sampleConfig before))
      (.ok (sampleConfig after))) :
    ReloadRun allowed (Reloading.initial (sampleConfig before))
      (reloadedTo before after pool) :=
  .tail (reloadRun_of_run _ (Pool.run_of_script h (Pool.follows_free _ _)))
    (.sighup hallowed)

/-- A lowered limit lets a task begin; a raised one keeps a task waiting. -/
theorem reload_ignored :
    (∃ state : Reloading sampleAgent,
      ReloadRun (fun _ _ => True) (Reloading.initial (sampleConfig 2)) state ∧
        ¬ LimitEffective state) ∧
      ∃ state : Reloading sampleAgent,
        ReloadRun (fun _ _ => True) (Reloading.initial (sampleConfig 1)) state ∧
          ¬ LimitEffective state := by
  refine ⟨⟨_, reloadedTo_run 1 (Option.some_get (by decide)).symm trivial, ?_⟩,
    ⟨_, reloadedTo_run 2 (Option.some_get (by decide)).symm trivial, ?_⟩⟩
  · intro h
    have hbegins := h.begins (i := 3) rfl rfl
    exact absurd hbegins (by decide)
  · intro h
    obtain ⟨shared, hperform⟩ := h.granted (i := 3) rfl (by decide)
    cases hperform

theorem limitEffective_reloaded :
    ∃ state : Reloading sampleAgent,
      ReloadRun keepsLimit (Reloading.initial (sampleConfig 1)) state ∧
        executing state.pool = 1 ∧ LimitEffective state := by
  have hkeeps : keepsLimit (Settings.initial (sampleConfig 1)) (.ok (sampleConfig 1)) := by
    rintro new ⟨⟩
    rfl
  have run := reloadedTo_run 1 (Option.some_get (by decide)).symm hkeeps
  exact ⟨_, run, by decide, limitEffective_of_keepsLimit run⟩

end VasalAgent.Agent
