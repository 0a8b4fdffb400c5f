import VasalAgent.Sdk.EndToEnd
import VasalAgent.Serde.Pretty

/-!
# `echo-ctrl` behind its socket

The handler of `echo-ctrl`, served by the SDK and called by `sidecar::execute`.  The texts
are the ones `serde_json` prints and reads, so a task's parameters can be followed from the
request to the output of the task.
-/

namespace VasalAgent.Sidecars.EchoCtrl

open VasalAgent.Async
open VasalAgent.Protocol
open VasalAgent.Sdk
open VasalAgent.Serde (Lawful depth depthLimit pretty)
open VasalAgent.Task

/-- `EchoHandler`; it leaves `status` and `cancel` to the trait. -/
def handler (version : String) : (op : HandlerOp) → op.Ans
  | .health => ⟨.ok, some version, none, none⟩
  | .submit params => .ok (.completed (pretty 0 params) "" false)
  | .status _ => .error (.methodNotFound "status")
  | .cancel _ => .error (.methodNotFound "cancel")

section Submission

variable {params : Json}

theorem transmits_echoed (version : String)
    (hfits : (payload (submitResponse (handler version) params).toTree).length ≤
      maxMessageSize) :
    Transmits textSerde (submitResponse (handler version) params).toTree :=
  transmits_submitResponse _ rfl hfits

variable {version : String} {oracle : (op : ExecOp) → op.Ans} {origin : Origin} {taskId : Uuid}
  {target : String} {payload : Json} {credRefs : List CredentialRef}
  {resolvedCreds : ResolvedCredentials} {timeoutMs : Nat} {socketDir : String} {cancel : Token}
  {toServer toClient : List Bytes}

def sampleParams : Json := .obj [("action", .str "ping")]

def sampleAnswer : Bytes := written textSerde (submitResponse (handler "0.1.0") sampleParams).toTree

def sampleClient : (op : ExecOp) → op.Ans
  | .connect .. => .ok ()
  | .sendFrame .. => .ok ()
  | .nextFrame _ .submit => readResponse textSerde [sampleAnswer]
  | op => (sampleWorld exitsZero none).oracle op

end Submission

end VasalAgent.Sidecars.EchoCtrl
