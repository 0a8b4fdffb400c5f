import VasalAgent.Task.Router
import VasalAgent.Transport.Poll

/-!
# Calls of the agent

The calls of `TaskManager` and of the main loop, next to those of the executors:
each critical section on `active_tasks`, each channel operation and each poll of
a branch of the main `select!` is one call.
-/

namespace VasalAgent.Agent

open VasalAgent.Async
open VasalAgent.Protocol
open VasalAgent.Task
open VasalAgent.Transport

inductive TaskKindTag where
  | oneshot
  | continuous
  deriving DecidableEq, Repr

/-- The cancel token is given by its number. -/
structure ActiveTask where
  cancelToken : Nat
  kind : TaskKindTag
  deriving DecidableEq, Repr

inductive Body where
  | exec (exec : ExecTask) (cancelToken : Nat)
  | routed (task : Protocol.Task) (cancelToken : Nat)
  | chain (chain : TaskChain) (cancelToken : Nat)

def Body.id : Body → Uuid
  | .exec task _ => task.id
  | .routed task _ => task.id
  | .chain c _ => c.id

def Body.cancelToken : Body → Nat
  | .exec _ token => token
  | .routed _ token => token
  | .chain _ token => token

inductive AgentOp where
  | exec (op : ExecOp)
  /-- Marks the call of `submit` or `submit_chain`. -/
  | submit (work : ReceivedWork)
  | newToken
  | insertActive (id : Uuid) (entry : ActiveTask)
  | removeActive (id : Uuid)
  /-- The critical section of `handle_cancel`; the answer is the token found. -/
  | cancelActive (id : Uuid)
  | updateCounts
  | spawn (body : Body)
  | acquire
  | release
  | recordTaskResult (row : TaskResultRow)
  | sendResult (result : TaskResult)
  | openRecv
  | pollShutdown
  | pollResult
  | pollRecv
  | dropRecv
  | tryRecv
  /-- `transport.send_result`. -/
  | forward (result : TaskResult)
  | joinBackground

abbrev AgentOp.Ans : AgentOp → Type
  | .exec op => op.Ans
  | .newToken => Nat
  | .cancelActive _ => Option Nat
  | .recordTaskResult _ => Except String Unit
  | .pollShutdown => Bool
  | .pollResult => Option TaskResult
  | .pollRecv => Option (Except Error (List ReceivedWork))
  | .tryRecv => Option TaskResult
  | .forward _ => Except Error Unit
  | _ => Unit

abbrev AgentSig : Signature := ⟨AgentOp, AgentOp.Ans⟩

instance (op : AgentOp) : Inhabited op.Ans := by cases op <;> exact inferInstance

def call (op : AgentOp) : Prog AgentSig op.Ans := Prog.perform (S := AgentSig) op

def lift {α : Type} : Prog ExecSig α → Prog AgentSig α
  | .ret value => .ret value
  | .call op next => .call (.exec op) fun ans => lift (next ans)
  | .hang => .hang

end VasalAgent.Agent
