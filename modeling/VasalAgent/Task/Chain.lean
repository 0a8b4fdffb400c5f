import VasalAgent.Task.Router

/-!
# Chain executor

`task::chain`: the steps of a chain one after another, and the rollbacks when a
step fails.
-/

namespace VasalAgent.Task.Chain

open VasalAgent.Async
open VasalAgent.Protocol

/-- The indices whose rollback is due after step `failed` failed. -/
def rollbackRange : RollbackStrategy → Nat → List Nat
  | .rollbackFailed, failed => [failed]
  | .rollbackAll, failed => (List.range (failed + 1)).reverse

/-- One iteration of the rollback loop; whatever happens, the loop goes on. -/
def rollbackStep (socketDir : String) (chain : TaskChain) (cancel : Token)
    (idx : Nat) : Prog ExecSig Unit :=
  match chain.steps[idx]?.bind ChainStep.rollback with
  | none => pure ()
  | some rollbackTask => do
      match ← Credential.resolveEager (.rollback idx) rollbackTask.credentials with
      | .error _ => pure ()
      | .ok creds => do
          let _ ← dispatch socketDir (.rollback idx) rollbackTask creds
            (.child cancel)
          pure ()

def rollbackLoop (socketDir : String) (chain : TaskChain) (cancel : Token) :
    List Nat → Prog ExecSig Unit
  | [] => pure ()
  | idx :: rest => do
      rollbackStep socketDir chain cancel idx
      rollbackLoop socketDir chain cancel rest

/-- `chain::run_rollbacks`. -/
def runRollbacks (socketDir : String) (chain : TaskChain) (failedStepIdx : Nat)
    (cancel : Token) : Prog ExecSig Unit := do
  record .chainRollback (some chain.id.toString)
    (.rollback chain.onFailure failedStepIdx)
  rollbackLoop socketDir chain cancel
    (rollbackRange chain.onFailure failedStepIdx)

/-- Label a step's result with its chain; the index is cast to `u32`. -/
def label (chain : TaskChain) (idx : Nat) (result : TaskResult) : TaskResult :=
  { result with chainId := some chain.id, stepIndex := some (idx % 2 ^ 32) }

/-- The tail after the loop, reached from its end and from the cancel check. -/
def complete (chain : TaskChain) (results : List TaskResult) :
    Prog ExecSig (List TaskResult) := do
  record .chainCompleted (some chain.id.toString)
    (.stepsCompleted results.length)
  pure results

/-- The loop of `chain::execute` over the steps from `idx` on. -/
def executeFrom (socketDir : String) (chain : TaskChain) (cancel : Token) :
    Nat → List ChainStep → List TaskResult → Prog ExecSig (List TaskResult)
  | _, [], results => complete chain results
  | idx, step :: rest, results => do
      if ← await (.isCancelled idx cancel) then
        complete chain results
      else do
        match ← Credential.resolveEager (.step idx) step.task.credentials with
        | .error e => do
            let result ← makeResult (.step idx) step.task.id .failed none ""
              e.toString 0 (some e.toString)
            runRollbacks socketDir chain idx cancel
            pure (results ++ [label chain idx result])
        | .ok creds => do
            let result ← dispatch socketDir (.step idx) step.task creds
              (.child cancel)
            if result.status = .success then
              executeFrom socketDir chain cancel (idx + 1) rest
                (results ++ [label chain idx result])
            else do
              runRollbacks socketDir chain idx cancel
              pure (results ++ [label chain idx result])

/-- `chain::execute`. -/
def execute (socketDir : String) (chain : TaskChain) (cancel : Token) :
    Prog ExecSig (List TaskResult) := do
  record .chainStarted (some chain.id.toString) (.steps chain.steps.length)
  executeFrom socketDir chain cancel 0 chain.steps []

end VasalAgent.Task.Chain
