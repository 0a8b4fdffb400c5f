import VasalAgent.Store.Table
import VasalAgent.Task.Sidecar
import VasalAgent.Transport.Poll

/-!
# Calls of the unit management

The table of managed units in the state store, and every await point and effect of
`unit::{install, upgrade, health}`.  A task that is routed makes calls of its own
(`route`).
-/

namespace VasalAgent.Units

open VasalAgent.Async
open VasalAgent.Protocol
open VasalAgent.Task (Error ExecOp ExecSig ExitStatus)
open VasalAgent.Transport (HttpStatus)

/-! ## The table -/

/-- A row of `units`; kind, state and health are texts there. -/
structure UnitRow where
  name : String
  kind : String
  version : String
  state : String
  health : Option String
  healthError : Option String
  pid : Option Nat
  socketPath : Option String
  configJson : Option String
  updatedAt : Int
  deriving DecidableEq, Repr

/-- `units`, whose primary key is the name. -/
abbrev UnitTable := Store.Table UnitRow.name

/-! ## Calls -/

/-- What a process wrote and how it ended. -/
structure Output where
  status : ExitStatus
  stderr : List UInt8
  deriving DecidableEq, Repr

/-- The branch taken by the `select!` of `health::run`. -/
inductive CheckWake where
  | shutdown
  | slept
  deriving DecidableEq, Repr, Inhabited

inductive UnitOp where
  | get (url : String)
  | bytes (url : String)
  | createDirAll (path : String)
  | write (path : String) (bytes : List UInt8)
  | setPermissions (path : String) (mode : Nat)
  | pathExists (path : String)
  /-- `Command::status`. -/
  | status (program : String) (args : List String)
  /-- `Command::spawn`, with the process id if there is one. -/
  | spawn (program : String) (args : List String)
  /-- `Command::output` of `/bin/sh -c script`, unless the timeout comes first. -/
  | output (script : String) (timeoutMs : Nat)
  | sleep (millis : Nat)
  /-- `Instant::now`, in nanoseconds. -/
  | instant
  | nowMs
  /-- `task::sidecar::call_raw`. -/
  | callRaw (socketPath method : String) (params : Option Json)
  | checkInterval
  | selectCheck (seconds : Nat)
  | upsertUnit (row : UnitRow)
  | getUnit (name : String)
  | listUnits
  | removeUnit (name : String)
  | route (op : ExecOp)

abbrev UnitOp.Ans : UnitOp → Type
  | .get _ => Except String HttpStatus
  | .bytes _ => Except String (List UInt8)
  | .createDirAll _ => Except String Unit
  | .write .. => Except String Unit
  | .setPermissions .. => Except String Unit
  | .pathExists _ => Bool
  | .status .. => Except String ExitStatus
  | .spawn .. => Except String (Option Nat)
  | .output .. => Option (Except String Output)
  | .sleep _ => Unit
  | .instant => Nat
  | .nowMs => Int
  | .callRaw .. => Except Error Response
  | .checkInterval => Nat
  | .selectCheck _ => CheckWake
  | .upsertUnit _ => Except Error Unit
  | .getUnit _ => Except Error (Option UnitRow)
  | .listUnits => Except Error (List UnitRow)
  | .removeUnit _ => Except Error Unit
  | .route op => op.Ans

abbrev UnitSig : Signature := ⟨UnitOp, UnitOp.Ans⟩

instance (op : UnitOp) : Inhabited op.Ans := by cases op <;> exact inferInstance

def call (op : UnitOp) : Prog UnitSig op.Ans := Prog.perform (S := UnitSig) op

/-- The `?` operator. -/
abbrev orReturn {α β : Type} (p : Prog UnitSig (Except Error α))
    (rest : α → Prog UnitSig (Except Error β)) : Prog UnitSig (Except Error β) :=
  Prog.orReturn .error p rest

/-- A library error under the variant of `Error` that `From` gives it. -/
def converted {α : Type} (wrap : String → Error) (p : Prog UnitSig (Except String α)) :
    Prog UnitSig (Except Error α) := do
  match ← p with
  | .error e => pure (.error (wrap e))
  | .ok value => pure (.ok value)

/-- `unit::socket_path_for`. -/
def socketPathFor (socketDir unitName : String) : String :=
  Task.Sidecar.joinPath socketDir (unitName ++ ".sock")

/-- `format!("{:?}", status.code())`. -/
def debugCode : ExitStatus → String
  | none => "None"
  | some code => "Some(" ++ toString code ++ ")"

/-! ## Effect on the table -/

/-- A store call that fails leaves the table as it is. -/
def applyEvent (table : UnitTable) : Event UnitSig → UnitTable
  | ⟨.upsertUnit row, .ok _⟩ => table.upsert row
  | ⟨.removeUnit name, .ok _⟩ => table.remove name
  | _ => table

def tableAfter (table : UnitTable) (events : List (Event UnitSig)) : UnitTable :=
  events.foldl applyEvent table

end VasalAgent.Units
