import VasalAgent.Units.Lifecycle

/-!
# Footprints

Which calls the parts of `install`, `upgrade` and `probe_sidecar` make, whatever they are
answered.
-/

namespace VasalAgent.Units

open VasalAgent.Async
open VasalAgent.Protocol
open VasalAgent.Task (Error)

section Rules

variable {α β : Type} {allowed : UnitOp → Prop}

theorem uses_call {op : UnitOp} (h : allowed op) : (call op).Uses allowed :=
  ⟨h, fun _ => trivial⟩

theorem uses_converted {wrap : String → Error} {p : Prog UnitSig (Except String α)}
    (h : p.Uses allowed) : (converted wrap p).Uses allowed :=
  h.bind fun result => by cases result <;> trivial

end Rules

def UnitOp.downloads : UnitOp → Prop
  | .get _ | .bytes _ => True
  | _ => False

def UnitOp.untars : UnitOp → Prop
  | .createDirAll _ | .write .. => True
  | .status program _ => program = "tar"
  | _ => False

def UnitOp.extracts : UnitOp → Prop
  | .write .. | .setPermissions .. | .status .. => True
  | _ => False

def UnitOp.probes (socket : String) : UnitOp → Prop
  | .instant | .sleep _ => True
  | .callRaw path _ _ => path = socket
  | _ => False

def UnitOp.launches (socket : String) : UnitOp → Prop
  | .spawn _ args => args = ["--socket", socket]
  | _ => False

def UnitOp.kills : UnitOp → Prop
  | .sleep _ => True
  | .status program _ => program = "kill"
  | _ => False

section Parts

variable {digest : List UInt8 → String} {unitName socketDir installDir version : String}
  {bytes : List UInt8}

theorem uses_fetch {what : String} {artifact : Artifact} :
    (fetch digest what unitName artifact).Uses UnitOp.downloads := by
  refine Prog.Uses.orReturn (uses_converted (uses_call trivial)) fun status => ?_
  split
  · refine Prog.Uses.orReturn (uses_converted (uses_call trivial)) fun bytes => ?_
    split <;> trivial
  · trivial

theorem uses_extractArtifact {urlLower : String} :
    (extractArtifact urlLower bytes installDir unitName version).Uses UnitOp.extracts := by
  unfold extractArtifact
  split
  · refine Prog.Uses.orReturn (uses_converted (uses_call trivial)) fun _ => ?_
    refine Prog.Uses.orReturn (uses_converted (uses_call trivial)) fun status => ?_
    split <;> trivial
  · refine Prog.Uses.orReturn (uses_converted (uses_call trivial)) fun _ => ?_
    exact uses_converted (uses_call trivial)

theorem uses_unpack : (unpack unitName version installDir bytes).Uses UnitOp.untars :=
  Prog.Uses.orReturn (uses_converted (uses_call trivial)) fun _ =>
    Prog.Uses.orReturn (uses_converted (uses_call trivial)) fun _ =>
      Prog.Uses.orReturn (uses_converted (uses_call rfl)) fun _ => trivial

theorem uses_startSidecar {binaryPath socket : String} :
    (startSidecar binaryPath socket).Uses (UnitOp.launches socket) :=
  Prog.Uses.orReturn (uses_converted (uses_call rfl)) fun _ => trivial

theorem uses_terminate (pid pauseMs : Nat) : (terminate pid pauseMs).Uses UnitOp.kills :=
  Prog.Uses.bind (uses_call rfl) fun _ => uses_call trivial

theorem uses_stopCurrent (current : UnitRow) : (stopCurrent current).Uses UnitOp.kills := by
  unfold stopCurrent
  split
  · exact uses_terminate _ _
  · trivial

theorem uses_checkSidecar :
    (checkSidecar socketDir unitName).Uses
      (UnitOp.probes (socketPathFor socketDir unitName)) := by
  refine ⟨rfl, fun answer => ?_⟩
  cases answer <;> trivial

theorem uses_probeFrom {deadline : Nat} (rounds : Nat) :
    (probeFrom socketDir unitName deadline rounds).Uses
      (UnitOp.probes (socketPathFor socketDir unitName)) := by
  induction rounds with
  | zero => trivial
  | succ rounds ih =>
      refine Prog.Uses.bind (uses_call trivial) fun now => ?_
      split
      · trivial
      · apply uses_checkSidecar.bind
        rintro ⟨health, error⟩
        dsimp only
        split
        · trivial
        · exact Prog.Uses.bind (uses_call trivial) fun _ => ih

theorem uses_probeSidecar {timeoutSec : Nat} :
    (probeSidecar socketDir unitName timeoutSec).Uses
      (UnitOp.probes (socketPathFor socketDir unitName)) :=
  Prog.Uses.bind (uses_call trivial) fun _ => uses_probeFrom _

end Parts

end VasalAgent.Units
