import VasalAgent.Task.Shell
import VasalAgent.Task.Sidecar

/-!
# Task routing

`task::router` and `task::continuous`.  The match over the executor that the
source writes out in `execute_oneshot`, `execute_tick` and twice in
`chain::execute` is `dispatch`.
-/

namespace VasalAgent.Task

open VasalAgent.Async
open VasalAgent.Protocol

def runExecutor (socketDir : String) (origin : Origin) (exec : ExecTask)
    (creds : ResolvedCredentials) (cancel : Token) : Prog ExecSig TaskResult :=
  match exec.executor with
  | .shell => Shell.execute origin exec creds cancel
  | .sidecar =>
      Sidecar.execute origin exec.id (exec.target.getD "unknown")
        (exec.method.getD "submit") exec.payload exec.credentials creds
        exec.timeoutMs socketDir cancel

def dispatch (socketDir : String) (origin : Origin) (exec : ExecTask)
    (creds : ResolvedCredentials) (cancel : Token) : Prog ExecSig TaskResult := do
  await (.enter origin exec cancel)
  runExecutor socketDir origin exec creds cancel

theorem dispatch_eq (socketDir : String) (origin : Origin) (exec : ExecTask)
    (creds : ResolvedCredentials) (cancel : Token) :
    dispatch socketDir origin exec creds cancel =
      Prog.call (S := ExecSig) (.enter origin exec cancel)
        fun _ => runExecutor socketDir origin exec creds cancel := rfl

/-! ## One-shot tasks -/

/-- `router::execute_oneshot`. -/
def executeOneshot (socketDir : String) (origin : Origin) (exec : ExecTask)
    (cancel : Token) : Prog ExecSig TaskResult := do
  match ← Credential.resolveEager origin exec.credentials with
  | .error e => do
      let time ← elapsed origin .unresolved
      makeResult origin exec.id .failed none "" e.toString time (some e.toString)
  | .ok creds => dispatch socketDir origin exec creds cancel

/-! ## Continuous tasks -/

namespace Continuous

def defaultIntervalMs : Nat := 30000

/-- `format!("{:?}", status)`. -/
def statusText : TaskResultStatus → String
  | .success => "Success"
  | .failed => "Failed"
  | .cancelled => "Cancelled"
  | .timeout => "Timeout"
  | .rolledBack => "RolledBack"

/-- A `u64` read as an `i64`. -/
def toI64 (value : Nat) : Int :=
  if value % 2 ^ 64 < 2 ^ 63 then Int.ofNat (value % 2 ^ 64)
  else Int.ofNat (value % 2 ^ 64) - 2 ^ 64

def tickRow (result : TaskResult) : TaskResultRow where
  taskId := result.taskId.toString
  chainId := none
  stepIndex := none
  status := statusText result.status
  exitCode := result.exitCode
  stdout := result.stdout
  stderr := result.stderr
  durationMs := toI64 result.durationMs
  createdAt := toI64 result.timestamp

/-- `record_tick`: a failed write is only logged. -/
def recordTick (n : Nat) (result : TaskResult) : Prog ExecSig Unit := do
  let _ ← await (.recordTick n (tickRow result))
  pure ()

/-- `execute_tick`. -/
def executeTick (socketDir : String) (n : Nat) (exec : ExecTask)
    (creds : ResolvedCredentials) (cancel : Token) : Prog ExecSig TaskResult :=
  dispatch socketDir (.tick n) exec creds cancel

/-- One tick: the result that is recorded and kept as the last one. -/
def tick (socketDir : String) (exec : ExecTask) (cancel : Token) (n : Nat) :
    Prog ExecSig TaskResult := do
  match ← Credential.resolveEager (.tick n) exec.credentials with
  | .error e => do
      let time ← elapsed (.tick n) .unresolved
      let result ← makeResult (.tick n) exec.id .failed none "" e.toString time
        (some e.toString)
      recordTick n result
      pure result
  | .ok creds => do
      let result ← executeTick socketDir n exec creds (.child cancel)
      recordTick n result
      pure result

/-- The loop of `continuous::run` before tick `n`, for at most `fuel` ticks. -/
def loop (socketDir : String) (exec : ExecTask) (cancel shutdown : Token) :
    Nat → Nat → TaskResult → Prog ExecSig TaskResult
  | 0, _, _ => .hang
  | fuel + 1, n, lastResult => do
      match ← await (.selectTick n cancel shutdown
          (exec.intervalMs.getD defaultIntervalMs)) with
      | .cancelled => makeResult (.tick n) exec.id .cancelled none "" "" 0 none
      | .shutdown => pure lastResult
      | .slept => do
          let result ← tick socketDir exec cancel n
          loop socketDir exec cancel shutdown fuel (n + 1) result

/-- `continuous::run`. -/
def run (socketDir : String) (exec : ExecTask) (cancel shutdown : Token)
    (fuel : Nat) : Prog ExecSig TaskResult := do
  let lastResult ← makeResult .exec exec.id .success none "" "" 0 none
  loop socketDir exec cancel shutdown fuel 0 lastResult

end Continuous

/-- `router::execute_exec`; `fuel` bounds the ticks of a continuous task. -/
def executeExec (socketDir : String) (exec : ExecTask) (cancel shutdown : Token)
    (fuel : Nat) : Prog ExecSig TaskResult :=
  match exec.kind with
  | .oneshot => executeOneshot socketDir .exec exec cancel
  | .continuous => Continuous.run socketDir exec cancel shutdown fuel

/-! ## Unit tasks -/

def routedSuccess (taskId : Uuid) (stdout : String) : Prog ExecSig TaskResult := do
  let time ← elapsed .exec .result
  makeResult .exec taskId .success none stdout "" time none

/-- `router::route_task`. -/
def routeTask (task : Task) : Prog ExecSig TaskResult :=
  match task with
  | .install install =>
      routedSuccess install.id ("installed unit " ++ install.unit.name)
  | .upgrade upgrade =>
      routedSuccess upgrade.id
        ("upgraded unit " ++ upgrade.unitName ++ " to " ++ upgrade.targetVersion)
  | .remove remove => routedSuccess remove.id ("removed unit " ++ remove.unitName)
  | .selfUpgrade upgrade => do
      match ← await (.selfUpgrade upgrade.artifact.url upgrade.artifact.sha256
          upgrade.targetVersion) with
      | .ok _ =>
          routedSuccess upgrade.id
            ("self-upgrade to " ++ upgrade.targetVersion ++
              " prepared — restart required")
      | .error e => do
          let time ← elapsed .exec .result
          makeResult .exec upgrade.id .failed none "" e.toString time
            (some e.toString)
  | .exec _ | .cancel _ => do
      let time ← elapsed .exec .result
      makeResult .exec task.id .failed none "" "internal routing error" time
        (some "exec/cancel should not reach route_task")

end VasalAgent.Task
