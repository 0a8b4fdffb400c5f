import VasalAgent.Units.Health

/-!
# Installing and upgrading units

`unit::{install, upgrade}`: download an artifact, verify it, extract it, start the
sidecar and write the row.  `digest` is the SHA-256 of some bytes in hexadecimal.
-/

namespace VasalAgent.Units

open VasalAgent.Async
open VasalAgent.Protocol
open VasalAgent.Task (Error)
open VasalAgent.Task.Sidecar (joinPath)

/-- `unit::unit_to_row`. -/
def unitToRow (unit : ManagedUnit) (now : Int) : UnitRow where
  name := unit.name
  kind :=
    match unit.kind with
    | .sidecar => "sidecar"
    | .package => "package"
  version := unit.version
  state :=
    match unit.state with
    | .running => "running"
    | .installed => "installed"
    | .stopped => "stopped"
    | .absent => "absent"
  health := none
  healthError := none
  pid := none
  socketPath := unit.socketPath
  configJson := unit.config.map Json.render
  updatedAt := now

section Artifacts

variable (digest : List UInt8 → String)

/-- The download with which `install`, `upgrade` and `perform_rollback` begin. -/
def fetch (what unitName : String) (artifact : Artifact) :
    Prog UnitSig (Except Error (List UInt8)) :=
  orReturn (converted .http (call (.get artifact.url))) fun status =>
    if status.isSuccess then
      orReturn (converted .http (call (.bytes artifact.url))) fun bytes =>
        if digest bytes ≠ artifact.sha256 then
          pure (.error (.sha256Mismatch artifact.sha256 (digest bytes)))
        else pure (.ok bytes)
    else
      pure (.error (.unit (what ++ " download for " ++ unitName ++ " returned HTTP " ++
        status.text)))

end Artifacts

/-! ## Extraction -/

/-- An entry of `FORMATS`. -/
structure Format where
  extensions : List String
  fileExt : String
  program : String
  flag : String
  deriving DecidableEq, Repr

def formats : List Format :=
  [⟨[".tar.gz", ".tgz"], "tar.gz", "tar", "xzf"⟩,
    ⟨[".tar.xz", ".txz"], "tar.xz", "tar", "xJf"⟩,
    ⟨[".tar.bz2", ".tbz2"], "tar.bz2", "tar", "xjf"⟩,
    ⟨[".deb"], "deb", "dpkg-deb", "--extract"⟩,
    ⟨[".zip"], "zip", "unzip", "-o"⟩]

def Format.args (format : Format) (artifactPath installDir : String) : List String :=
  if format.program = "tar" then [format.flag, artifactPath, "-C", installDir]
  else if format.program = "unzip" then [format.flag, artifactPath, "-d", installDir]
  else [format.flag, artifactPath, installDir]

def runExtract (program : String) (args : List String) (unitName : String) :
    Prog UnitSig (Except Error Unit) :=
  orReturn (converted .io (call (.status program args))) fun status =>
    if status.success then pure (.ok ())
    else
      pure (.error (.unit ("failed to extract artifact for " ++ unitName ++ ": " ++ program ++
        " exited with " ++ debugCode status)))

def extractArtifact (urlLower : String) (bytes : List UInt8)
    (installDir unitName version : String) :
    Prog UnitSig (Except Error Unit) :=
  match formats.find? fun format => format.extensions.any fun ext => urlLower.endsWith ext with
  | some format =>
      let artifactPath := joinPath installDir (unitName ++ "-" ++ version ++ "." ++ format.fileExt)
      orReturn (converted .io (call (.write artifactPath bytes))) fun _ =>
        runExtract format.program (format.args artifactPath installDir) unitName
  | none =>
      let binaryPath := joinPath installDir unitName
      orReturn (converted .io (call (.write binaryPath bytes))) fun _ =>
        converted .io (call (.setPermissions binaryPath 0o755))

/-! ## Install -/

def persist (row : UnitRow) : Prog UnitSig (Except Error Unit) :=
  call (.upsertUnit row)

/-- The sidecar is started on its socket; the answer is its process id. -/
def startSidecar (binaryPath socket : String) : Prog UnitSig (Except Error Nat) :=
  orReturn (converted .io (call (.spawn binaryPath ["--socket", socket]))) fun pid =>
    pure (.ok (pid.getD 0))

def install (digest : List UInt8 → String) (unit : ManagedUnit) (cacheDir socketDir : String) :
    Prog UnitSig (Except Error Unit) :=
  let installDir := joinPath cacheDir unit.name
  orReturn (fetch digest "artifact" unit.name unit.artifact) fun bytes =>
  orReturn (converted .io (call (.createDirAll installDir))) fun _ =>
  orReturn (extractArtifact unit.artifact.url.toLower bytes installDir unit.name unit.version)
    fun _ => do
      let now ← call .nowMs
      let row := unitToRow unit now
      match unit.kind with
      | .sidecar => do
          let binaryPath := joinPath installDir unit.name
          let socket := socketPathFor socketDir unit.name
          if ← call (.pathExists binaryPath) then
            orReturn (startSidecar binaryPath socket) fun pid =>
              persist { row with pid := some pid, socketPath := some socket, state := "running" }
          else persist { row with state := "installed" }
      | .package => persist { row with state := "installed" }

/-! ## Upgrade -/

/-- `kill -TERM`, whose outcome is ignored, and a pause. -/
def terminate (pid pauseMs : Nat) : Prog UnitSig Unit := do
  let _ ← call (.status "kill" ["-TERM", Nat.repr pid])
  call (.sleep pauseMs)

/-- Upgrades and rollbacks unpack a `tar.gz`, whatever the URL ends with. -/
def unpack (unitName version installDir : String) (bytes : List UInt8) :
    Prog UnitSig (Except Error Bool) :=
  let path := joinPath installDir (unitName ++ "-" ++ version ++ ".tar.gz")
  orReturn (converted .io (call (.createDirAll installDir))) fun _ =>
  orReturn (converted .io (call (.write path bytes))) fun _ =>
  orReturn (converted .io (call (.status "tar" ["xzf", path, "-C", installDir]))) fun status =>
    pure (.ok status.success)

section Upgrade

variable (digest : List UInt8 → String) (unitName cacheDir socketDir : String)

/-- The row of a unit at another version. -/
def UnitRow.atVersion (row : UnitRow) (version : String) (now : Int) : UnitRow :=
  { row with version, updatedAt := now }

def UnitRow.started (row : UnitRow) (pid : Nat) : UnitRow :=
  { row with pid := some pid, state := "running" }

def performRollback (rollback : RollbackSpec) : Prog UnitSig (Except Error Unit) :=
  let installDir := joinPath cacheDir unitName
  orReturn (fetch digest "rollback artifact" unitName rollback.artifact) fun bytes =>
  orReturn (unpack unitName rollback.version installDir bytes) fun extracted =>
    if extracted then
      orReturn (call (.getUnit unitName)) fun current =>
        match current with
        | none => pure (.ok ())
        | some current => do
            let now ← call .nowMs
            let row := current.atVersion rollback.version now
            if row.kind = "sidecar" then do
              let binaryPath := joinPath installDir unitName
              if ← call (.pathExists binaryPath) then
                orReturn (startSidecar binaryPath (socketPathFor socketDir unitName)) fun pid =>
                  persist (row.started pid)
              else persist row
            else persist row
    else
      pure (.error (.unit ("failed to extract rollback artifact for " ++ unitName)))

/-- The end of a failed upgrade. -/
def giveUp (rollback : Option RollbackSpec) (message : String) :
    Prog UnitSig (Except Error Unit) :=
  match rollback with
  | some spec =>
      orReturn (performRollback digest unitName cacheDir socketDir spec) fun _ =>
        pure (.error (.unit message))
  | none => pure (.error (.unit message))

def stopCurrent (current : UnitRow) : Prog UnitSig Unit :=
  match current.pid with
  | some pid => terminate pid 2000
  | none => pure ()

/-- The new version has been extracted. -/
def startUpgraded (rollback : Option RollbackSpec) (row : UnitRow) :
    Prog UnitSig (Except Error Unit) :=
  if row.kind = "sidecar" then do
    let binaryPath := joinPath (joinPath cacheDir unitName) unitName
    if ← call (.pathExists binaryPath) then
      orReturn (startSidecar binaryPath (socketPathFor socketDir unitName)) fun pid => do
        if ← probeSidecar socketDir unitName 10 then persist (row.started pid)
        else do
          terminate pid 1000
          giveUp digest unitName cacheDir socketDir rollback
            ("health check failed after upgrade: " ++ unitName)
    else persist row
  else persist row

def upgrade (targetVersion : String) (artifact : Artifact) (rollback : Option RollbackSpec) :
    Prog UnitSig (Except Error Unit) :=
  orReturn (fetch digest "artifact" unitName artifact) fun bytes =>
  orReturn (call (.getUnit unitName)) fun current =>
    match current with
    | none => pure (.error (.unit ("unit not found: " ++ unitName)))
    | some current => do
        stopCurrent current
        orReturn (unpack unitName targetVersion (joinPath cacheDir unitName) bytes) fun extracted =>
          if extracted then do
            let now ← call .nowMs
            startUpgraded digest unitName cacheDir socketDir rollback
              (current.atVersion targetVersion now)
          else
            giveUp digest unitName cacheDir socketDir rollback
              ("failed to extract artifact for " ++ unitName)

end Upgrade

end VasalAgent.Units
