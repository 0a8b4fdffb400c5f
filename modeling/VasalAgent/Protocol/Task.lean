import Mathlib.Algebra.Group.Int.Defs
import Mathlib.Algebra.Group.Nat.Defs
import VasalAgent.Protocol.Json

/-!
# Task dispatch types

The records of `vasal-protocol`: credentials, managed units, tasks, chains and
results.  Tag maps are association lists.
-/

namespace VasalAgent.Protocol

structure Uuid where
  value : BitVec 128
  deriving DecidableEq, Repr

namespace Uuid

def hexDigits (id : Uuid) : List Char :=
  (List.range 32).map fun i =>
    Nat.digitChar (id.value.toNat / 16 ^ (31 - i) % 16)

/-- The hyphenated lower-case form of `Display`. -/
def toString (id : Uuid) : String :=
  let digits := id.hexDigits
  String.ofList
    (digits.take 8 ++ '-' :: ((digits.drop 8).take 4 ++
      '-' :: ((digits.drop 12).take 4 ++ '-' :: ((digits.drop 16).take 4 ++
        '-' :: digits.drop 20))))

end Uuid

/-! ## Credentials -/

inductive ResolveMode where
  | eager
  | lazy
  deriving DecidableEq, Repr

inductive CredentialProvider where
  | http (endpoint : String)
  | sidecar (endpoint method : String)
  deriving DecidableEq, Repr

structure CredentialRef where
  name : String
  resolve : ResolveMode
  provider : CredentialProvider
  params : Option Json
  deriving Repr

namespace CredentialRef

def resolveJson : ResolveMode → Json
  | .eager => .str "eager"
  | .lazy => .str "lazy"

def providerJson : CredentialProvider → Json
  | .http endpoint =>
      Json.ofFields [("type", .str "http"), ("endpoint", .str endpoint)]
  | .sidecar endpoint method =>
      Json.ofFields [("type", .str "sidecar"), ("endpoint", .str endpoint),
        ("method", .str method)]

/-- `serde_json::to_value`; an absent `params` is skipped. -/
def toValue (ref : CredentialRef) : Json :=
  Json.ofFields
    ([("name", .str ref.name), ("resolve", resolveJson ref.resolve),
      ("provider", providerJson ref.provider)] ++
      ref.params.toList.map fun params => ("params", params))

end CredentialRef

/-! ## Managed units -/

inductive UnitKind where
  | sidecar
  | package
  deriving DecidableEq, Repr

inductive UnitState where
  | installed
  | running
  | stopped
  | absent
  deriving DecidableEq, Repr

structure Artifact where
  url : String
  sha256 : String
  deriving DecidableEq, Repr

structure HealthCheck where
  command : String
  timeoutMs : Nat
  deriving DecidableEq, Repr

structure ManagedUnit where
  name : String
  kind : UnitKind
  version : String
  artifact : Artifact
  state : UnitState
  healthCheck : Option HealthCheck
  config : Option Json
  socketPath : Option String
  deriving Repr

/-! ## Tasks -/

inductive Priority where
  | critical
  | high
  | normal
  | low
  deriving DecidableEq, Repr

inductive Executor where
  | shell
  | sidecar
  deriving DecidableEq, Repr

inductive ExecKind where
  | oneshot
  | continuous
  deriving DecidableEq, Repr

abbrev Tags := List (String × String)

structure ExecTask where
  id : Uuid
  priority : Priority
  tags : Tags
  kind : ExecKind
  executor : Executor
  target : Option String
  method : Option String
  payload : Json
  intervalMs : Option Nat
  timeoutMs : Nat
  credentials : List CredentialRef
  deriving Repr

structure CancelTask where
  id : Uuid
  priority : Priority
  tags : Tags
  targetTaskId : Uuid
  deriving Repr

structure InstallTask where
  id : Uuid
  priority : Priority
  tags : Tags
  unit : ManagedUnit
  deriving Repr

structure RollbackSpec where
  version : String
  artifact : Artifact
  deriving DecidableEq, Repr

structure UpgradeTask where
  id : Uuid
  priority : Priority
  tags : Tags
  unitName : String
  targetVersion : String
  artifact : Artifact
  rollback : Option RollbackSpec
  deriving Repr

structure RemoveTask where
  id : Uuid
  priority : Priority
  tags : Tags
  unitName : String
  purge : Bool
  deriving Repr

structure SelfUpgradeTask where
  id : Uuid
  priority : Priority
  tags : Tags
  targetVersion : String
  artifact : Artifact
  rollback : Option RollbackSpec
  deriving Repr

inductive Task where
  | exec (task : ExecTask)
  | cancel (task : CancelTask)
  | install (task : InstallTask)
  | upgrade (task : UpgradeTask)
  | remove (task : RemoveTask)
  | selfUpgrade (task : SelfUpgradeTask)
  deriving Repr

def Task.id : Task → Uuid
  | .exec task => task.id
  | .cancel task => task.id
  | .install task => task.id
  | .upgrade task => task.id
  | .remove task => task.id
  | .selfUpgrade task => task.id

/-! ## Chains -/

inductive RollbackStrategy where
  | rollbackFailed
  | rollbackAll
  deriving DecidableEq, Repr

structure ChainStep where
  task : ExecTask
  rollback : Option ExecTask
  deriving Repr

structure TaskChain where
  id : Uuid
  steps : List ChainStep
  onFailure : RollbackStrategy
  tags : Tags
  deriving Repr

/-! ## Results -/

inductive TaskResultStatus where
  | success
  | failed
  | cancelled
  | timeout
  | rolledBack
  deriving DecidableEq, Repr

/-- `stepIndex` is a `u32`, `durationMs` and `timestamp` are `u64`. -/
structure TaskResult where
  taskId : Uuid
  chainId : Option Uuid
  stepIndex : Option Nat
  status : TaskResultStatus
  exitCode : Option Int
  stdout : String
  stderr : String
  durationMs : Nat
  timestamp : Nat
  error : Option String
  deriving DecidableEq, Repr

def TaskResult.untimed (result : TaskResult) : TaskResult :=
  { result with durationMs := 0, timestamp := 0 }

end VasalAgent.Protocol
