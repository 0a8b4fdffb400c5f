import VasalAgent.Async.Crash
import VasalAgent.Serde.Pretty
import VasalAgent.Store.Disk
import VasalAgent.Task.Sidecar
import VasalAgent.Transport.Poll

/-!
# Upgrading the agent itself

`self_upgrade`: download and verify a binary, keep a copy of the present one and a note of
the pending upgrade, put the new binary in place; find the note after the restart, and
put the copy back.
-/

namespace VasalAgent.SelfUpgrade

open VasalAgent.Async
open VasalAgent.Serde
open VasalAgent.Store
open VasalAgent.Task (Error)
open VasalAgent.Task.Sidecar (joinPath)
open VasalAgent.Transport (HttpStatus)

/-! ## Calls -/

inductive UpgradeOp where
  | get (url : String)
  | bytes (url : String)
  | currentExe
  | nowMs
  | file (op : FileOp String (List UInt8))

abbrev UpgradeOp.Ans : UpgradeOp → Type
  | .get _ => Except String HttpStatus
  | .bytes _ => Except String (List UInt8)
  | .currentExe => Except String String
  | .nowMs => Int
  | .file op => op.Ans

abbrev UpgradeSig : Signature := ⟨UpgradeOp, UpgradeOp.Ans⟩

def call (op : UpgradeOp) : Prog UpgradeSig op.Ans := Prog.perform (S := UpgradeSig) op

/-- The `?` operator, with the conversion of the error. -/
abbrev orReturn {α β : Type} (wrap : String → Error) (p : Prog UpgradeSig (Except String α))
    (rest : α → Prog UpgradeSig (Except Error β)) : Prog UpgradeSig (Except Error β) :=
  Prog.orReturn (fun e => .error (wrap e)) p rest

/-! ## The note of a pending upgrade -/

structure PendingUpgrade where
  targetVersion : String
  previousVersion : String
  rollbackPath : String
  initiatedAt : Int
  deriving DecidableEq, Repr

def i64 : Codec Int := .integer (-2 ^ 63) (2 ^ 63) (by decide) (by decide)

def PendingUpgrade.record : Record PendingUpgrade :=
  Record.equiv
    (.cons (.required "target_version" .string)
      (.cons (.required "previous_version" .string)
        (.cons (.required "rollback_path" .string)
          (.cons (.required "initiated_at" i64) .nil rfl) rfl) rfl) rfl)
    ⟨fun (targetVersion, previousVersion, rollbackPath, initiatedAt, _) =>
        ⟨targetVersion, previousVersion, rollbackPath, initiatedAt⟩,
      fun pending => (pending.targetVersion, pending.previousVersion, pending.rollbackPath,
        pending.initiatedAt, ()),
      fun _ => rfl, fun _ => rfl⟩

/-- The bytes of `serde_json::to_string_pretty`. -/
def PendingUpgrade.toFile (pending : PendingUpgrade) : List UInt8 :=
  (PendingUpgrade.record.toPretty pending).toUTF8.data.toList

def stateFile : String := "pending-upgrade.json"

def statePath (dataDir : String) : String := joinPath dataDir stateFile

def backupPath (dataDir currentVersion : String) : String :=
  joinPath dataDir ("vasal." ++ currentVersion ++ ".bak")

def newPath (dataDir : String) : String := joinPath dataDir "vasal.new"

/-! ## Programs -/

def decodeText (bytes : List UInt8) : Except String String :=
  match String.fromUTF8? ⟨bytes.toArray⟩ with
  | none => .error "stream did not contain valid UTF-8"
  | some text => .ok text

/-- What was read, as text. -/
def decoded {S : Signature} (read : Prog S (Except String (List UInt8))) :
    Prog S (Except String String) :=
  Prog.orReturn .error read fun bytes => pure (decodeText bytes)

/-- `std::fs::read_to_string`. -/
def readToString (path : String) : Prog UpgradeSig (Except String String) :=
  decoded (call (.file (.read path)))

/-- `check_pending`; whether the note could be removed is not looked at. -/
def checkPending (dataDir : String) : Prog UpgradeSig (Option PendingUpgrade) := do
  let path := statePath dataDir
  if ← call (.file (.pathExists path)) then
    match ← readToString path with
    | .error _ => do
        let _ ← call (.file (.remove path))
        pure none
    | .ok content =>
        match PendingUpgrade.record.codec.fromText content with
        | some state => do
            let _ ← call (.file (.remove path))
            pure (some state)
        | none => do
            let _ ← call (.file (.remove path))
            pure none
  else pure none

def unknownExe (e : String) : Error := .io ("cannot determine current executable path: " ++ e)

/-- `execute`, once the artifact is verified and the executable is known. -/
def replace (targetVersion currentVersion dataDir : String) (bytes : List UInt8)
    (currentExe : String) : Prog UpgradeSig (Except Error Unit) :=
  let backup := backupPath dataDir currentVersion
  orReturn .io (call (.file (.copy currentExe backup))) fun _ => do
    let now ← call .nowMs
    let state : PendingUpgrade := ⟨targetVersion, currentVersion, backup, now⟩
    orReturn .io (call (.file (.write (statePath dataDir) state.toFile))) fun _ =>
      orReturn .io (call (.file (.write (newPath dataDir) bytes))) fun _ =>
        orReturn .io (call (.file (.setPermissions (newPath dataDir) 0o755))) fun _ =>
          orReturn .io (call (.file (.rename (newPath dataDir) currentExe))) fun _ =>
            pure (.ok ())

/-- `execute`; `digest` is the SHA-256 in hexadecimal. -/
def execute (digest : List UInt8 → String)
    (artifactUrl expectedSha256 targetVersion currentVersion dataDir : String) :
    Prog UpgradeSig (Except Error Unit) :=
  orReturn .http (call (.get artifactUrl)) fun status =>
    if status.isSuccess then
      orReturn .http (call (.bytes artifactUrl)) fun bytes =>
        if digest bytes ≠ expectedSha256 then
          pure (.error (.sha256Mismatch expectedSha256 (digest bytes)))
        else
          orReturn unknownExe (call .currentExe) fun currentExe =>
            replace targetVersion currentVersion dataDir bytes currentExe
    else
      pure (.error (.transport ("artifact download returned HTTP " ++ status.text)))

/-- `rollback`. -/
def rollback (pending : PendingUpgrade) : Prog UpgradeSig (Except Error Unit) :=
  orReturn unknownExe (call .currentExe) fun currentExe => do
    if ← call (.file (.pathExists pending.rollbackPath)) then
      orReturn .io (call (.file (.rename pending.rollbackPath currentExe))) fun _ =>
        pure (.ok ())
    else pure (.error (.unit "rollback binary not found"))

/-! ## The machine around them -/

abbrev Files := Disk String (List UInt8)

/-- What the agent is given: the bytes behind the URL, and where it was started from. -/
structure Machine where
  artifact : List UInt8
  exe : String

namespace Machine

variable (m : Machine)

/-- Every call can fail; `now_ms` is an `i64`, and each process is started from `m.exe`. -/
def serves : Environment UpgradeSig Files := fun disk event after =>
  match event with
  | ⟨.file op, ans⟩ => FileOp.step disk ⟨op, ans⟩ after
  | ⟨.bytes _, .ok bytes⟩ => bytes = m.artifact ∧ after = disk
  | ⟨.currentExe, .ok path⟩ => path = m.exe ∧ after = disk
  | ⟨.nowMs, now⟩ => (-2 ^ 63 ≤ now ∧ now < 2 ^ 63) ∧ after = disk
  | _ => after = disk

/-- Every file operation that can be performed is performed, and the executable is known. -/
def performs : Environment UpgradeSig Files := fun disk event after =>
  m.serves disk event after ∧
    match event with
    | ⟨.file op, ans⟩ => FileOp.goesWell disk ⟨op, ans⟩
    | ⟨.currentExe, ans⟩ => ans = .ok m.exe
    | _ => True

end Machine

/-- A call that is cut short. -/
def torn (disk : Files) (op : UpgradeOp) (after : Files) : Prop :=
  match op with
  | .file op => FileOp.torn disk op after
  | _ => after = disk

end VasalAgent.SelfUpgrade
