import VasalAgent.Protocol.JsonRpc
import VasalAgent.Serde.Record
import VasalAgent.Serde.Text
import VasalAgent.Task.Shell
import VasalAgent.Units.Effects

/-!
# Health checks

`unit::health`: ask a sidecar over its socket, run the command of a package, and
write what has changed back into the table.
-/

namespace VasalAgent.Units

open VasalAgent.Async
open VasalAgent.Protocol
open VasalAgent.Serde
open VasalAgent.Task (Error)

/-! ## The answer of a sidecar -/

def healthStatusCodec : Codec HealthStatus :=
  .enumeration false [.ok, .degraded, .unhealthy] HealthStatus.text
    (by rintro (_ | _) <;> simp) (by rintro (_ | _) (_ | _) <;> simp [HealthStatus.text])

def healthResponseRecord : Record HealthResponse :=
  Record.equiv
    (.cons (.required "status" healthStatusCodec) <|
     .cons (.optional "version" .string Codec.solid_string) <|
     .cons (.optional "error" .string Codec.solid_string) <|
     .cons (.optional "metadata" .value Codec.solid_value) .nil)
    ⟨fun (status, version, error, metadata, _) => ⟨status, version, error, metadata⟩,
      fun response => (response.status, response.version, response.error, response.metadata, ()),
      fun _ => rfl, fun _ => rfl⟩

/-- What `check_sidecar` makes of a response. -/
def sidecarHealth (response : Response) : String × Option String :=
  match response.result.bind healthResponseRecord.codec.decode with
  | some health =>
      match health.status with
      | .ok => ("ok", none)
      | .degraded => ("degraded", health.error)
      | .unhealthy => ("unhealthy", health.error)
  | none =>
      match response.error with
      | some error => ("unhealthy", some error.message)
      | none => ("ok", none)

def checkSidecar (socketDir unitName : String) : Prog UnitSig (String × Option String) := do
  match ← call (.callRaw (socketPathFor socketDir unitName) "health" none) with
  | .ok response => pure (sidecarHealth response)
  | .error e => pure ("unhealthy", some e.toString)

/-! ## The command of a package -/

def defaultCheckTimeoutMs : Nat := 5000

/-- `Value::as_u64`. -/
def asU64? : Json → Option Nat
  | .num (.int value) => if 0 ≤ value ∧ value < 2 ^ 64 then some value.toNat else none
  | _ => none

/-- The command of the health check and its timeout, if the configuration has one. -/
def checkCommand (configJson : Option String) : Option (String × Nat) := do
  let config ← Codec.value.fromText (← configJson)
  let check ← config.get? "health_check"
  let command ← (check.get? "command").bind Json.asStr?
  pure (command, ((check.get? "timeout_ms").bind asU64?).getD defaultCheckTimeoutMs)

def packageHealth : Option (Except String Output) → String × Option String
  | some (.ok output) =>
      if output.status.success then ("ok", none)
      else
        ("unhealthy", some ("exit code " ++ debugCode output.status ++ ": " ++
          String.ofList (Transport.trim (Text.fromUtf8Lossy output.stderr))))
  | some (.error e) => ("unhealthy", some e)
  | none => ("unhealthy", some "health check timed out")

def checkPackage (unit : UnitRow) : Prog UnitSig (String × Option String) :=
  match checkCommand unit.configJson with
  | none => pure ("ok", none)
  | some (command, timeoutMs) => do
      let result ← call (.output command timeoutMs)
      pure (packageHealth result)

/-! ## The checker -/

/-- The row with its new health. -/
def UnitRow.withHealth (unit : UnitRow) (health : String) (healthError : Option String)
    (updatedAt : Int) : UnitRow :=
  { unit with health := some health, healthError, updatedAt }

/-- A row is written back when its health has changed; a failed write is ignored. -/
def writeBack (unit : UnitRow) (health : String × Option String) : Prog UnitSig Unit :=
  if unit.health ≠ some health.1 ∨ unit.healthError ≠ health.2 then do
    let now ← call .nowMs
    let _ ← call (.upsertUnit (unit.withHealth health.1 health.2 now))
    pure ()
  else pure ()

def checkUnit (socketDir : String) (unit : UnitRow) : Prog UnitSig Unit :=
  if unit.state ≠ "running" ∧ unit.state ≠ "installed" then pure ()
  else if unit.kind = "sidecar" then do
    let health ← checkSidecar socketDir unit.name
    writeBack unit health
  else if unit.kind = "package" then do
    let health ← checkPackage unit
    writeBack unit health
  else pure ()

def checkUnits (socketDir : String) : List UnitRow → Prog UnitSig Unit
  | [] => pure ()
  | unit :: rest => do
      checkUnit socketDir unit
      checkUnits socketDir rest

/-- One pass over the table. -/
def pass (socketDir : String) : Prog UnitSig Unit := do
  match ← call .listUnits with
  | .error _ => pure ()
  | .ok units => checkUnits socketDir units

/-- `health::run`, for at most `fuel` passes. -/
def run (socketDir : String) : Nat → Prog UnitSig Unit
  | 0 => .hang
  | fuel + 1 => do
      let seconds ← call .checkInterval
      match ← call (.selectCheck seconds) with
      | .shutdown => pure ()
      | .slept => do
          pass socketDir
          run socketDir fuel

/-! ## Probing after an upgrade -/

def nanosPerSecond : Nat := 1000000000

def probeDelayMs : Nat := 500

def probeFrom (socketDir unitName : String) (deadline : Nat) : Nat → Prog UnitSig Bool
  | 0 => .hang
  | fuel + 1 => do
      let now ← call .instant
      if deadline ≤ now then pure false
      else do
        let (health, _) ← checkSidecar socketDir unitName
        if health = "ok" ∨ health = "degraded" then pure true
        else do
          call (.sleep probeDelayMs)
          probeFrom socketDir unitName deadline fuel

/-- `probe_sidecar`, for at most `rounds` rounds. -/
def probeRounds (socketDir unitName : String) (timeoutSec rounds : Nat) : Prog UnitSig Bool := do
  let now ← call .instant
  probeFrom socketDir unitName (now + timeoutSec * nanosPerSecond) rounds

/-- `probe_sidecar`; every round but the last sleeps, so that two rounds per second are enough. -/
def probeSidecar (socketDir unitName : String) (timeoutSec : Nat) : Prog UnitSig Bool :=
  probeRounds socketDir unitName timeoutSec (timeoutSec * 2 + 1)

end VasalAgent.Units
