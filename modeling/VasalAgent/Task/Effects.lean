import VasalAgent.Async.Prog
import VasalAgent.Protocol.Sidecar
import VasalAgent.Protocol.Task

/-!
# Calls of the task executors

Every await point and every effect of `task::{shell, sidecar, router, chain,
continuous}` and of `credential` is a call.  A call names the place it is made
for (`Origin`), so that no two calls of one execution are the same call.
-/

namespace VasalAgent.Task

open VasalAgent.Async
open VasalAgent.Protocol

/-- `vasal_core::Error`; errors of libraries are kept as their text. -/
inductive Error where
  | config (message : String)
  | state (message : String)
  | io (message : String)
  | transport (message : String)
  | auth (message : String)
  | protocol (message : String)
  | http (message : String)
  | json (message : String)
  | task (message : String)
  | unit (message : String)
  | sha256Mismatch (expected actual : String)
  | join (message : String)
  deriving DecidableEq, Repr, Inhabited

def Error.toString : Error → String
  | .config message => "configuration: " ++ message
  | .state message => "state store: " ++ message
  | .io message => "I/O: " ++ message
  | .transport message => "transport: " ++ message
  | .auth message => "authentication: " ++ message
  | .protocol message => "protocol: " ++ message
  | .http message => "HTTP: " ++ message
  | .json message => "JSON: " ++ message
  | .task message => "task: " ++ message
  | .unit message => "unit management: " ++ message
  | .sha256Mismatch expected actual =>
      "SHA-256 mismatch: expected " ++ expected ++ ", got " ++ actual
  | .join message => "join: " ++ message

/-! ## Cancellation tokens -/

/-- A `CancellationToken`: a fresh one, or the child of another. -/
inductive Token where
  | root (id : Nat)
  | child (parent : Token)
  deriving DecidableEq, Repr

namespace Token

/-- Cancelling a token cancels its descendants, also those created later. -/
def isCancelled (roots : Nat → Bool) : Token → Bool
  | .root id => roots id
  | .child parent => parent.isCancelled roots

end Token

/-! ## Places and answers -/

inductive Origin where
  | exec
  | tick (n : Nat)
  | step (idx : Nat)
  | rollback (idx : Nat)
  deriving DecidableEq, Repr

inductive CallSite where
  | submit
  | status (pollIndex : Nat)
  | cancel
  deriving DecidableEq, Repr

inductive ClockSite where
  | unresolved
  | result
  | poll (pollIndex : Nat)
  deriving DecidableEq, Repr

inductive Stream where
  | stdout
  | stderr
  deriving DecidableEq, Repr

abbrev ResolvedCredentials := List (String × String)

/-- The shell process to start: `/bin/sh -c script`. -/
structure Command where
  script : String
  env : ResolvedCredentials
  workingDir : Option String
  deriving DecidableEq, Repr

/-- `ExitStatus::code`; `none` when a signal ended the process. -/
abbrev ExitStatus := Option Int

def ExitStatus.success (status : ExitStatus) : Bool := status == some 0

/-- The branch taken by the `select!` of `shell::execute`. -/
inductive ShellWake where
  | cancelled
  | timedOut
  | exited (status : Except String ExitStatus)
  deriving Inhabited

/-- The branch taken by the `select!` of `poll_until_complete`. -/
inductive PollWake where
  | cancelled
  | slept
  deriving DecidableEq, Repr, Inhabited

/-- The branch taken by the `select!` of `continuous::run`. -/
inductive TickWake where
  | cancelled
  | shutdown
  | slept
  deriving DecidableEq, Repr, Inhabited

/-! ## Rows of the state store -/

structure TaskResultRow where
  taskId : String
  chainId : Option String
  stepIndex : Option Int
  status : String
  exitCode : Option Int
  stdout : String
  stderr : String
  durationMs : Int
  createdAt : Int
  deriving DecidableEq, Repr

/-- The event names of `audit::event` that the task code records. -/
inductive AuditEvent where
  | taskReceived
  | taskCompleted
  | taskFailed
  | taskCancelled
  | taskTimeout
  | chainStarted
  | chainCompleted
  | chainRollback
  | agentStarted
  | agentShutdown
  deriving DecidableEq, Repr

def AuditEvent.text : AuditEvent → String
  | .taskReceived => "task.received"
  | .taskCompleted => "task.completed"
  | .taskFailed => "task.failed"
  | .taskCancelled => "task.cancelled"
  | .taskTimeout => "task.timeout"
  | .chainStarted => "chain.started"
  | .chainCompleted => "chain.completed"
  | .chainRollback => "chain.rollback"
  | .agentStarted => "agent.started"
  | .agentShutdown => "agent.shutdown"

/-- The value recorded as `detail`, before it is printed as JSON. -/
inductive AuditDetail where
  | task (task : Task)
  | chain (steps : Nat)
  | result (result : TaskResult)
  | steps (count : Nat)
  | stepsCompleted (count : Nat)
  | rollback (strategy : RollbackStrategy) (failedStep : Nat)
  | agent

/-! ## Calls -/

inductive ExecOp where
  /-- `credential::resolve_one` for the reference at position `index`. -/
  | resolveOne (origin : Origin) (index : Nat) (ref : CredentialRef)
  /-- Marks that `task` is handed to `shell::execute` or `sidecar::execute`. -/
  | enter (origin : Origin) (task : ExecTask) (token : Token)
  | spawnShell (origin : Origin) (command : Command)
  | selectShell (origin : Origin) (token : Token) (timeoutMs : Nat)
  | killWait (origin : Origin)
  | joinOutput (origin : Origin) (stream : Stream)
  | spill (origin : Origin) (stream : Stream) (bytes : List UInt8)
  | connect (origin : Origin) (site : CallSite) (socketPath : String)
  | sendFrame (origin : Origin) (site : CallSite) (request : Request)
  | nextFrame (origin : Origin) (site : CallSite)
  | selectPoll (origin : Origin) (pollIndex : Nat) (token : Token) (delayMs : Nat)
  | elapsed (origin : Origin) (site : ClockSite)
  | nowMs (origin : Origin)
  | isCancelled (idx : Nat) (token : Token)
  | selectTick (n : Nat) (token shutdown : Token) (intervalMs : Nat)
  | recordTick (n : Nat) (row : TaskResultRow)
  | audit (event : AuditEvent) (taskId : Option String) (detail : AuditDetail)
  /-- `self_upgrade::execute`. -/
  | selfUpgrade (url sha256 targetVersion : String)

/-- A frame that is read: none at end of stream, else a read error or a body,
which parses as a response or does not. -/
abbrev FrameAnswer := Option (Except String (Except String Response))

abbrev ExecOp.Ans : ExecOp → Type
  | .resolveOne .. => Except Error String
  | .enter .. => Unit
  | .spawnShell .. => Except String Unit
  | .selectShell .. => ShellWake
  | .killWait .. => Unit
  | .joinOutput .. => List UInt8
  | .spill .. => String
  | .connect .. => Except String Unit
  | .sendFrame .. => Except String Unit
  | .nextFrame .. => FrameAnswer
  | .selectPoll .. => PollWake
  | .elapsed .. => Nat
  | .nowMs .. => Int
  | .isCancelled .. => Bool
  | .selectTick .. => TickWake
  | .recordTick .. => Except String Unit
  | .audit .. => Unit
  | .selfUpgrade .. => Except Error Unit

abbrev ExecSig : Signature := ⟨ExecOp, ExecOp.Ans⟩

instance (op : ExecOp) : Inhabited op.Ans := by cases op <;> exact inferInstance

def await (op : ExecOp) : Prog ExecSig op.Ans := Prog.perform (S := ExecSig) op

@[simp] theorem await_bind {α : Type} (op : ExecOp)
    (rest : op.Ans → Prog ExecSig α) :
    (await op >>= rest) = Prog.call (S := ExecSig) op rest := rfl

/-- Nanoseconds since the executor's `start`. -/
def elapsed (origin : Origin) (site : ClockSite) : Prog ExecSig Nat :=
  await (.elapsed origin site)

def record (event : AuditEvent) (taskId : Option String)
    (detail : AuditDetail) : Prog ExecSig Unit :=
  await (.audit event taskId detail)

def nanosPerMilli : Nat := 1000000

/-- `router::make_result`. -/
def makeResult (origin : Origin) (taskId : Uuid) (status : TaskResultStatus)
    (exitCode : Option Int) (stdout stderr : String) (elapsed : Nat)
    (error : Option String) : Prog ExecSig TaskResult := do
  let now ← await (.nowMs origin)
  pure {
    taskId
    chainId := none
    stepIndex := none
    status
    exitCode
    stdout
    stderr
    durationMs := elapsed / nanosPerMilli % 2 ^ 64
    timestamp := Int.toNat (now % 2 ^ 64)
    error }

end VasalAgent.Task
