import VasalAgent.Agent.Effects
import VasalAgent.Task.Chain

/-!
# Task manager

`task::TaskManager`: what `submit` and `submit_chain` do before they return, and
the three futures they spawn.
-/

namespace VasalAgent.Agent

open VasalAgent.Async
open VasalAgent.Protocol
open VasalAgent.Task
open VasalAgent.Transport

/--
The part of a `TaskManager` that its futures capture.  `resultTx` says whether
there is a result channel, and `ticks` bounds the ticks of a continuous task.
-/
structure TaskManager where
  socketDir : String
  resultTx : Bool
  ticks : Nat

def shutdownToken : Token := .root 0

/-- The `n`th token that a submission creates. -/
def taskToken (n : Nat) : Token := .root (n + 1)

def audit (event : AuditEvent) (taskId : Option String) (detail : AuditDetail) :
    Prog AgentSig Unit :=
  lift (record event taskId detail)

/-! ## Results -/

/-- A `u32` read as an `i32`. -/
def toI32 (value : Nat) : Int :=
  if value % 2 ^ 32 < 2 ^ 31 then Int.ofNat (value % 2 ^ 32)
  else Int.ofNat (value % 2 ^ 32) - 2 ^ 32

def resultToJournalRow (result : TaskResult) : TaskResultRow where
  taskId := result.taskId.toString
  chainId := result.chainId.map Uuid.toString
  stepIndex := result.stepIndex.map toI32
  status := Continuous.statusText result.status
  exitCode := result.exitCode
  stdout := result.stdout
  stderr := result.stderr
  durationMs := Continuous.toI64 result.durationMs
  createdAt := Continuous.toI64 result.timestamp

def eventType : TaskResultStatus → AuditEvent
  | .success => .taskCompleted
  | .failed => .taskFailed
  | .cancelled => .taskCancelled
  | .timeout => .taskTimeout
  | .rolledBack => .taskFailed

namespace TaskManager

variable (m : TaskManager)

/-- A failed write of the journal is ignored. -/
def journal (result : TaskResult) : Prog AgentSig Unit := do
  let _ ← call (.recordTaskResult (resultToJournalRow result))
  pure ()

def send (result : TaskResult) : Prog AgentSig Unit :=
  if m.resultTx then call (.sendResult result) else pure ()

def deregister (id : Uuid) : Prog AgentSig Unit := do
  call (.removeActive id)
  call .updateCounts

/-! ## Spawned futures -/

/-- The future of `spawn_exec`; the permit is dropped at its end. -/
def runExec (exec : ExecTask) (cancelToken : Nat) : Prog AgentSig Unit := do
  call .acquire
  let result ← lift (executeExec m.socketDir exec (taskToken cancelToken)
    shutdownToken m.ticks)
  journal result
  audit (eventType result.status) (some exec.id.toString) (.result result)
  m.send result
  deregister exec.id
  call .release

/-- The future of `spawn_routed`. -/
def runRouted (task : Protocol.Task) : Prog AgentSig Unit := do
  let result ← lift (routeTask task)
  journal result
  m.send result
  deregister task.id

def report : List TaskResult → Prog AgentSig Unit
  | [] => pure ()
  | result :: rest => do
      journal result
      m.send result
      report rest

/-- The future of `submit_chain`. -/
def runChain (chain : TaskChain) (cancelToken : Nat) : Prog AgentSig Unit := do
  call .acquire
  let results ← lift (Chain.execute m.socketDir chain (taskToken cancelToken))
  m.report results
  deregister chain.id
  call .release

def runBody : Body → Prog AgentSig Unit
  | .exec exec cancelToken => m.runExec exec cancelToken
  | .routed task _ => m.runRouted task
  | .chain chain cancelToken => m.runChain chain cancelToken

end TaskManager

/-! ## Submission -/

/-- Register a fresh token under `id`, publish the counts, spawn the future. -/
def register (id : Uuid) (kind : TaskKindTag) (body : Nat → Body) :
    Prog AgentSig Unit := do
  let cancelToken ← call .newToken
  call (.insertActive id ⟨cancelToken, kind⟩)
  call .updateCounts
  call (.spawn (body cancelToken))

def kindTag : ExecKind → TaskKindTag
  | .oneshot => .oneshot
  | .continuous => .continuous

def spawnExec (exec : ExecTask) : Prog AgentSig Unit :=
  register exec.id (kindTag exec.kind) (.exec exec)

def spawnRouted (task : Protocol.Task) : Prog AgentSig Unit :=
  register task.id .oneshot (.routed task)

def handleCancel (targetTaskId : Uuid) : Prog AgentSig Unit := do
  let _ ← call (.cancelActive targetTaskId)
  pure ()

/-- `TaskManager::submit`; it never fails. -/
def submit (task : Protocol.Task) : Prog AgentSig Unit := do
  call (.submit (.single task))
  audit .taskReceived (some task.id.toString) (.task task)
  match task with
  | .cancel cancel => handleCancel cancel.targetTaskId
  | .exec exec => spawnExec exec
  | .install _ | .upgrade _ | .remove _ | .selfUpgrade _ => spawnRouted task

/-- `TaskManager::submit_chain`; it never fails. -/
def submitChain (chain : TaskChain) : Prog AgentSig Unit := do
  call (.submit (.chain chain))
  audit .taskReceived (some chain.id.toString) (.chain chain.steps.length)
  register chain.id .oneshot (.chain chain)

def submitWork : ReceivedWork → Prog AgentSig Unit
  | .single task => submit task
  | .chain chain => submitChain chain

end VasalAgent.Agent
