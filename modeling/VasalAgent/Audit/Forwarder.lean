import Mathlib.Data.List.Sort
import VasalAgent.Async.Pool
import VasalAgent.Task.Router
import VasalAgent.Transport.Poll

/-!
# Audit log and forwarder

The table `audit_log` of `state::StateStore` and `audit::{run_forwarder,
flush_once}`.  Each statement on the table is one call; `mark_forwarded` runs one
`UPDATE` an id, outside a transaction.

A crash is a forwarder that makes no further call.  A restart is a new one, and
`sequential` lets only the last one started go on.
-/

namespace VasalAgent.Audit

open VasalAgent.Async
open VasalAgent.Protocol
open VasalAgent.Task (Error)
open VasalAgent.Task.Continuous (toI64)
open VasalAgent.Transport (HttpStatus)

/-! ## The table -/

structure AuditRow where
  id : Int
  timestamp : Int
  eventType : String
  taskId : Option String
  detailJson : String
  deriving DecidableEq, Repr

structure StoredRow where
  row : AuditRow
  forwarded : Bool
  deriving DecidableEq, Repr

/-- `lastId` is the largest id that `AUTOINCREMENT` has given out. -/
structure AuditLog where
  rows : List StoredRow
  lastId : Int

namespace AuditLog

def empty : AuditLog := ⟨[], 0⟩

/-- `append_audit`, with the id that the row gets. -/
def append (log : AuditLog) (row : AuditRow) : Option AuditLog :=
  if log.lastId < row.id then some ⟨log.rows ++ [⟨row, false⟩], row.id⟩ else none

def unforwarded (log : AuditLog) : List AuditRow :=
  (log.rows.filter fun stored => !stored.forwarded).map StoredRow.row

/-- `pending_audit_events`: ordered by id; a negative limit is none. -/
def pendingAuditEvents (log : AuditLog) (limit : Nat) : List AuditRow :=
  let pending := log.unforwarded.insertionSort fun a b => a.id ≤ b.id
  if toI64 limit < 0 then pending else pending.take (toI64 limit).toNat

/-- `UPDATE audit_log SET forwarded = 1 WHERE id = ?1`. -/
def mark (log : AuditLog) (id : Int) : AuditLog :=
  { log with
    rows := log.rows.map fun stored =>
      if stored.row.id = id then { stored with forwarded := true } else stored }

end AuditLog

/-! ## Calls -/

inductive FlushWake where
  | shutdown
  | slept
  deriving DecidableEq, Repr, Inhabited

/-- The part of the runtime configuration that the forwarder reads. -/
structure FlushConfig where
  auditFlushIntervalSec : Nat
  auditBatchSize : Nat
  deriving DecidableEq, Repr, Inhabited

inductive AuditOp where
  | runtime
  | selectFlush (intervalSec : Nat)
  | sleep (seconds : Nat)
  | pendingAuditEvents (limit : Nat)
  /-- `events` are the rows that the payload was made from. -/
  | post (endpoint : String) (events : List AuditRow) (payload : List Json)
  | prepareMark
  | mark (id : Int)

abbrev AuditOp.Ans : AuditOp → Type
  | .runtime => FlushConfig
  | .selectFlush _ => FlushWake
  | .sleep _ => Unit
  | .pendingAuditEvents _ => Except Error (List AuditRow)
  | .post .. => Except String HttpStatus
  | .prepareMark => Except Error Unit
  | .mark _ => Except Error Unit

abbrev AuditSig : Signature := ⟨AuditOp, AuditOp.Ans⟩

instance (op : AuditOp) : Inhabited op.Ans := by cases op <;> exact inferInstance

def call (op : AuditOp) : Prog AuditSig op.Ans := Prog.perform (S := AuditSig) op

/-! ## The forwarder -/

structure Forwarder where
  endpoint : String
  /-- `serde_json::from_str` on the detail of a row. -/
  parseDetail : String → Option Json

namespace Forwarder

variable (f : Forwarder)

def entry (row : AuditRow) : Json :=
  Json.ofFields [("timestamp", .num (.int row.timestamp)), ("event_type", .str row.eventType),
    ("task_id", (row.taskId.map Json.str).getD .null),
    ("detail", (f.parseDetail row.detailJson).getD .null)]

def markLoop : List Int → Prog AuditSig (Except Error Unit)
  | [] => pure (.ok ())
  | id :: rest => do
      match ← call (.mark id) with
      | .error e => pure (.error e)
      | .ok _ => markLoop rest

def markForwarded (ids : List Int) : Prog AuditSig (Except Error Unit) :=
  if ids.isEmpty then pure (.ok ())
  else do
    match ← call .prepareMark with
    | .error e => pure (.error e)
    | .ok _ => markLoop ids

/-- `flush_once` from the request on. -/
def postEvents (events : List AuditRow) : Prog AuditSig (Except Error Nat) := do
  match ← call (.post f.endpoint events (events.map f.entry)) with
  | .error e => pure (.error (.http e))
  | .ok status =>
      if !status.isSuccess then
        pure (.error (.transport ("audit endpoint returned HTTP " ++ status.text)))
      else do
        match ← markForwarded (events.map AuditRow.id) with
        | .error e => pure (.error e)
        | .ok _ => pure (.ok events.length)

def flushOnce (batchSize : Nat) : Prog AuditSig (Except Error Nat) := do
  match ← call (.pendingAuditEvents batchSize) with
  | .error e => pure (.error e)
  | .ok events => if events.isEmpty then pure (.ok 0) else f.postEvents events

/-- The loop of `run_forwarder`, for at most `fuel` rounds; the backoff is in seconds. -/
def loop : Nat → Nat → Prog AuditSig Unit
  | 0, _ => .hang
  | fuel + 1, backoff => do
      let config ← call .runtime
      match ← call (.selectFlush config.auditFlushIntervalSec) with
      | .shutdown => do
          let _ ← f.flushOnce config.auditBatchSize
          pure ()
      | .slept => do
          match ← f.flushOnce config.auditBatchSize with
          | .ok _ => loop fuel 1
          | .error _ => do
              call (.sleep backoff)
              loop fuel (min (backoff * 2) 60)

def runForwarder (fuel : Nat) : Prog AuditSig Unit := f.loop fuel 1

end Forwarder

/-! ## The system -/

inductive Job where
  | forwarder (fuel : Nat)
  | flush (batchSize : Nat)
  deriving DecidableEq, Repr

namespace Forwarder

variable (f : Forwarder)

def program : Job → Prog AuditSig Unit
  | .forwarder fuel => f.runForwarder fuel
  | .flush batchSize => do
      let _ ← f.flushOnce batchSize
      pure ()

/-- A statement succeeds or leaves the table as it was. -/
def perform (log : AuditLog) : (op : AuditOp) → op.Ans → Option (op.Ans × AuditLog)
  | .pendingAuditEvents limit, .ok _ => some (.ok (log.pendingAuditEvents limit), log)
  | .mark id, .ok _ => some (.ok (), log.mark id)
  | _, ans => some (ans, log)

def system : System AuditSig where
  Job := Job
  Shared := AuditLog
  Env := AuditRow
  program := f.program
  perform := perform
  spawned _ := none
  external _ := true
  environment := AuditLog.append

/-- One flush at a time: a forwarder that was followed by another makes no call. -/
def sequential : Policy f.system where
  start _ _ := True
  fire pool i _ := i + 1 = pool.futures.length
  env _ _ := True

end Forwarder

end VasalAgent.Audit
