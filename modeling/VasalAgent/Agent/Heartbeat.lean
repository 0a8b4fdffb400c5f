import VasalAgent.Agent.Registration
import VasalAgent.Async.History
import VasalAgent.Protocol.TaskCodec
import VasalAgent.Serde.Text
import VasalAgent.Units.Vocabulary

/-!
# Heartbeats

`heartbeat::run`: sleep, read the clock, the counts and the unit table, and post
what was read.  Whatever the units and the tasks went through, the control plane
reads each posted body back as a heartbeat that says what was read right before it,
without units where the table could not be read.
-/

namespace VasalAgent.Agent

open VasalAgent.Async
open VasalAgent.Protocol
open VasalAgent.Serde
open VasalAgent.Transport (HttpStatus)
open VasalAgent.Units (UnitRow UnitTable healthStatusCodec)

/-! ## The payload -/

structure UnitReport where
  name : String
  kind : UnitKind
  version : String
  state : String
  health : Option HealthStatus
  pid : Option Nat
  healthError : Option String
  deriving DecidableEq, Repr

structure Heartbeat where
  agentId : Uuid
  agentVersion : String
  uptimeSec : Nat
  timestamp : Nat
  units : List UnitReport
  activeTasks : ActiveTaskCounts
  deriving DecidableEq, Repr

theorem solid_healthStatus : healthStatusCodec.Solid := by
  intro json value _ _
  simp [healthStatusCodec, Codec.enumeration]

theorem solid_u32 : u32.Solid := Codec.solid_natural _ _

def UnitReport.record : Record UnitReport :=
  Record.equiv
    (.cons (.required "name" .string) <|
     .cons (.required "kind" (UnitKind.codec false)) <|
     .cons (.required "version" .string) <|
     .cons (.required "state" .string) <|
     .cons (.optional "health" healthStatusCodec solid_healthStatus) <|
     .cons (.optional "pid" u32 solid_u32) <|
     .cons (.optional "health_error" .string Codec.solid_string) .nil)
    ⟨fun (name, kind, version, state, health, pid, healthError, _) =>
        ⟨name, kind, version, state, health, pid, healthError⟩,
      fun report => (report.name, report.kind, report.version, report.state, report.health,
        report.pid, report.healthError, ()),
      fun _ => rfl, fun _ => rfl⟩

def ActiveTaskCounts.record : Record ActiveTaskCounts :=
  Record.equiv
    (.cons (.required "oneshot" u32) <|
     .cons (.required "continuous" u32) <|
     .cons (.required "total" u32) .nil)
    ⟨fun (oneshot, continuous, total, _) => ⟨oneshot, continuous, total⟩,
      fun counts => (counts.oneshot, counts.continuous, counts.total, ()),
      fun _ => rfl, fun _ => rfl⟩

def ActiveTaskCounts.zero : ActiveTaskCounts := ⟨0, 0, 0⟩

theorem ActiveTaskCounts.valid_zero : ActiveTaskCounts.record.Valid .zero :=
  ⟨Nat.two_pow_pos 32, Nat.two_pow_pos 32, Nat.two_pow_pos 32, trivial⟩

def Heartbeat.record : Record Heartbeat :=
  Record.equiv
    (.cons (.required "agent_id" Uuid.codec) <|
     .cons (.required "agent_version" .string) <|
     .cons (.required "uptime_sec" u64) <|
     .cons (.required "timestamp" u64) <|
     .cons (.withDefault "units" (.list UnitReport.record.codec) [] (by simp [Codec.list])) <|
     .cons (.withDefault "active_tasks" ActiveTaskCounts.record.codec .zero
       ActiveTaskCounts.valid_zero) .nil)
    ⟨fun (agentId, agentVersion, uptimeSec, timestamp, units, activeTasks, _) =>
        ⟨agentId, agentVersion, uptimeSec, timestamp, units, activeTasks⟩,
      fun beat => (beat.agentId, beat.agentVersion, beat.uptimeSec, beat.timestamp, beat.units,
        beat.activeTasks, ()),
      fun _ => rfl, fun _ => rfl⟩

/-- The tree that is printed, each struct with its fields in their order. -/
def Heartbeat.tree (beat : Heartbeat) : Json :=
  .obj [("agent_id", .str beat.agentId.toString), ("agent_version", .str beat.agentVersion),
    ("uptime_sec", u64.encode beat.uptimeSec), ("timestamp", u64.encode beat.timestamp),
    ("units", .arr (beat.units.map fun report => .obj (UnitReport.record.write report))),
    ("active_tasks", .obj (ActiveTaskCounts.record.write beat.activeTasks))]

/-- The body of `RequestBuilder::json`. -/
def Heartbeat.body (beat : Heartbeat) : List UInt8 :=
  beat.tree.render.toUTF8.data.toList

section Payload

theorem decode_write {α : Type} (r : Record α) {value : α} (h : r.Valid value) :
    r.codec.decode (.obj (r.write value)) = some value :=
  r.read_write h

theorem decode_tree {beat : Heartbeat} (h : Heartbeat.record.Valid beat) :
    Heartbeat.record.codec.decode beat.tree = some beat := by
  obtain ⟨hid, -, huptime, htimestamp, hunits, hcounts, -⟩ := h
  have hlist : (Codec.list UnitReport.record.codec).decode
      (.arr (beat.units.map fun report => .obj (UnitReport.record.write report))) =
        some beat.units :=
    UnitReport.record.codec.mapM_decode fun report hreport => decode_write _ (hunits report hreport)
  have hactive := decode_write ActiveTaskCounts.record hcounts
  rw [Heartbeat.tree, Record.decode_obj, Heartbeat.record]
  refine Record.read_equiv beat ?_
  refine Record.read_cons (StructField.read_of_values _ rfl (Uuid.codec.decode_encode hid)) ?_
  refine Record.read_cons (StructField.read_of_values _ rfl rfl) ?_
  refine Record.read_cons (StructField.read_of_values _ rfl (u64.decode_encode huptime)) ?_
  refine Record.read_cons (StructField.read_of_values _ rfl (u64.decode_encode htimestamp)) ?_
  refine Record.read_cons (StructField.read_of_values _ rfl hlist) ?_
  exact Record.read_cons (StructField.read_of_values _ rfl hactive) rfl

theorem depth_unitReport (report : UnitReport) :
    depth (.obj (UnitReport.record.write report)) = 1 := by
  obtain ⟨name, kind, version, state, health, pid, healthError⟩ := report
  cases health <;> cases pid <;> cases healthError <;> rfl

theorem depth_tree (beat : Heartbeat) : depth beat.tree ≤ depthLimit := by
  have hunits : depth (.arr (beat.units.map fun report =>
      .obj (UnitReport.record.write report))) ≤ 2 := by
    rw [depth, Nat.add_le_add_iff_right, depthItems_le, List.forall_mem_map]
    exact fun report _ => Nat.le_of_eq (depth_unitReport report)
  have hcounts : depth (.obj (ActiveTaskCounts.record.write beat.activeTasks)) = 1 := rfl
  have hwhole : depth beat.tree ≤ 3 := by
    rw [Heartbeat.tree, depth, Nat.add_le_add_iff_right, depthFields_le]
    simp only [List.forall_mem_cons, hcounts]
    exact ⟨by simp [depth], by simp [depth], Nat.zero_le _, Nat.zero_le _, hunits, by simp⟩
  exact Nat.le_trans hwhole (by decide)

theorem readable_write {α : Type} (r : Record α) {value : α} (h : r.Valid value) :
    Readable (.obj (r.write value)) :=
  .obj fun field hfield => (r.lawful_write h field hfield).readable

theorem readable_tree {beat : Heartbeat} (h : Heartbeat.record.Valid beat) :
    Readable beat.tree := by
  obtain ⟨-, -, huptime, htimestamp, hunits, hcounts, -⟩ := h
  have hreports : ∀ json ∈ beat.units.map (fun report => Json.obj (UnitReport.record.write report)),
      Readable json := by
    simp only [List.forall_mem_map]
    exact fun report hreport => readable_write _ (hunits report hreport)
  refine .obj ?_
  simp only [List.forall_mem_cons]
  exact ⟨.str _, .str _, (u64.lawful_encode huptime).readable,
    (u64.lawful_encode htimestamp).readable, .arr hreports,
    readable_write ActiveTaskCounts.record hcounts, by simp⟩

theorem fromSlice_body {beat : Heartbeat} (h : Heartbeat.record.Valid beat) :
    Heartbeat.record.codec.fromSlice beat.body = some beat := by
  rw [Heartbeat.body, Codec.fromSlice_render _ (readable_tree h) (depth_tree beat)]
  exact decode_tree h

end Payload

/-! ## The sender -/

inductive BeatWake where
  | shutdown
  | slept
  deriving DecidableEq, Repr

inductive BeatOp where
  /-- `heartbeat_interval_sec` of the runtime configuration. -/
  | interval
  | selectBeat (seconds : Nat)
  | uptime
  /-- The counts that the task manager has published. -/
  | activeTasks
  | listUnits
  | nowMs
  | post (endpoint : String) (body : List UInt8)

abbrev BeatOp.Ans : BeatOp → Type
  | .interval => Nat
  | .selectBeat _ => BeatWake
  | .uptime => UInt64
  | .activeTasks => ActiveTaskCounts
  | .listUnits => Except Task.Error (List UnitRow)
  | .nowMs => Int
  | .post .. => Except String HttpStatus

abbrev BeatSig : Signature := ⟨BeatOp, BeatOp.Ans⟩

def callBeat (op : BeatOp) : Prog BeatSig op.Ans := Prog.perform (S := BeatSig) op

/-- An unknown kind counts as a package and an unknown health as unhealthy. -/
def unitReport (row : UnitRow) : UnitReport where
  name := row.name
  kind := if row.kind = "sidecar" then .sidecar else .package
  version := row.version
  state := row.state
  health := row.health.map fun health =>
    if health = "ok" then .ok else if health = "degraded" then .degraded else .unhealthy
  pid := row.pid
  healthError := row.healthError

/-- A table that cannot be read is reported as empty. -/
def unitReports : Except Task.Error (List UnitRow) → List UnitReport
  | .ok rows => rows.map unitReport
  | .error _ => []

structure Sender where
  agentId : Uuid
  agentVersion : String
  endpoint : String

namespace Sender

variable (sender : Sender)

def heartbeat (uptime : UInt64) (active : ActiveTaskCounts)
    (listed : Except Task.Error (List UnitRow)) (now : Int) : Heartbeat where
  agentId := sender.agentId
  agentVersion := sender.agentVersion
  uptimeSec := uptime.toNat
  timestamp := Int.toNat (now % 2 ^ 64)
  units := unitReports listed
  activeTasks := active

/-- What follows the sleep; whether the control plane took the heartbeat is only logged. -/
def beat : Prog BeatSig Unit := do
  let uptime ← callBeat .uptime
  let active ← callBeat .activeTasks
  let listed ← callBeat .listUnits
  let now ← callBeat .nowMs
  let _ ← callBeat (.post sender.endpoint (sender.heartbeat uptime active listed now).body)
  pure ()

/-- `heartbeat::run`, for at most `fuel` heartbeats. -/
def run : Nat → Prog BeatSig Unit
  | 0 => .hang
  | fuel + 1 => do
      let seconds ← callBeat .interval
      match ← callBeat (.selectBeat seconds) with
      | .shutdown => pure ()
      | .slept => do
          sender.beat
          run fuel

end Sender

/-! ## What is posted -/

def Running (earlier : List (Event BeatSig)) : Prop :=
  ∀ seconds, ⟨.selectBeat seconds, .shutdown⟩ ∉ earlier

/-- What one round of the loop has read. -/
structure Readings where
  seconds : Nat
  uptime : UInt64
  active : ActiveTaskCounts
  listed : Except Task.Error (List UnitRow)
  now : Int

def Readings.events (r : Readings) : List (Event BeatSig) :=
  [⟨.interval, r.seconds⟩, ⟨.selectBeat r.seconds, .slept⟩, ⟨.uptime, r.uptime⟩,
    ⟨.activeTasks, r.active⟩, ⟨.listUnits, r.listed⟩, ⟨.nowMs, r.now⟩]

/-- Nothing is called after the shutdown, and a body is posted right after such readings. -/
def PostedAfter (endpoint : String) (good : Readings → List UInt8 → Prop)
    (earlier : List (Event BeatSig)) (event : Event BeatSig) : Prop :=
  Running earlier ∧ ∀ target body answer, event = ⟨.post target body, answer⟩ →
    target = endpoint ∧ ∃ r : Readings, r.events <:+ earlier ∧ good r body

def Sender.sends (sender : Sender) (r : Readings) (body : List UInt8) : Prop :=
  body = (sender.heartbeat r.uptime r.active r.listed r.now).body

section Sending

variable {sender : Sender}

theorem postedAfter_reading {endpoint : String} {good : Readings → List UInt8 → Prop}
    {earlier : List (Event BeatSig)} {event : Event BeatSig}
    (h : Running earlier) (hpost : ∀ target body, event.1 ≠ .post target body) :
    PostedAfter endpoint good earlier event := by
  refine ⟨h, ?_⟩
  rintro target body answer rfl
  exact absurd rfl (hpost target body)

theorem Running.snoc {earlier : List (Event BeatSig)} (h : Running earlier)
    (event : Event BeatSig) (hevent : ∀ seconds, event ≠ ⟨.selectBeat seconds, .shutdown⟩) :
    Running (earlier ++ [event]) := by
  intro seconds hmem
  rcases List.mem_append.mp hmem with hmem | hmem
  · exact h seconds hmem
  · exact hevent seconds (List.mem_singleton.mp hmem).symm

theorem goodAfter_reading {op : BeatOp} {next : op.Ans → Prog BeatSig Unit}
    {prior : List (Event BeatSig)} (h : Running prior)
    (hpost : ∀ endpoint body, op ≠ .post endpoint body)
    (hselect : ∀ seconds, op ≠ .selectBeat seconds)
    (hnext : ∀ ans, Running (prior ++ [⟨op, ans⟩]) →
      (next ans).GoodAfter (PostedAfter sender.endpoint sender.sends) (prior ++ [⟨op, ans⟩])) :
    (Prog.call op next : Prog BeatSig Unit).GoodAfter
      (PostedAfter sender.endpoint sender.sends) prior := by
  refine fun ans => ⟨postedAfter_reading h hpost, hnext ans (h.snoc _ fun seconds heq => ?_)⟩
  exact hselect seconds (congrArg Sigma.fst heq)

theorem run_postedAfter (fuel : Nat) {prior : List (Event BeatSig)} (h : Running prior) :
    (sender.run fuel).GoodAfter (PostedAfter sender.endpoint sender.sends) prior := by
  induction fuel generalizing prior with
  | zero => trivial
  | succ fuel ih =>
      refine goodAfter_reading h (by simp) (by simp) fun seconds h => ?_
      intro wake
      refine ⟨postedAfter_reading h (by simp), ?_⟩
      cases wake with
      | shutdown => trivial
      | slept =>
          have h := h.snoc ⟨.selectBeat seconds, .slept⟩ (by simp)
          refine goodAfter_reading h (by simp) (by simp) fun uptime h => ?_
          refine goodAfter_reading h (by simp) (by simp) fun active h => ?_
          refine goodAfter_reading h (by simp) (by simp) fun listed h => ?_
          refine goodAfter_reading h (by simp) (by simp) fun now h => ?_
          intro answer
          refine ⟨⟨h, ?_⟩, ih (h.snoc _ (by simp))⟩
          rintro _ _ _ ⟨⟩
          refine ⟨rfl, ⟨seconds, uptime, active, listed, now⟩, ⟨prior, ?_⟩, rfl⟩
          simp [Readings.events]

end Sending

/-! ## What is told about the units -/

/-- Every column that a report has, as the table has it. -/
structure UnitReport.Describes (report : UnitReport) (row : UnitRow) : Prop where
  name : report.name = row.name
  kind : report.kind.text = row.kind
  version : report.version = row.version
  state : report.state = row.state
  health : report.health.map HealthStatus.text = row.health
  pid : report.pid = row.pid
  healthError : report.healthError = row.healthError

theorem describes_unitReport {row : UnitRow} (h : row.Lawful) : (unitReport row).Describes row where
  name := rfl
  kind := by
    rcases h.kind with hkind | hkind <;> simp [unitReport, hkind, UnitKind.text]
  version := rfl
  state := rfl
  health := by
    cases hhealth : row.health with
    | none => simp [unitReport, hhealth]
    | some health =>
        have hmem := h.health health hhealth
        simp only [List.mem_cons, List.not_mem_nil, or_false] at hmem
        rcases hmem with rfl | rfl | rfl <;> simp [unitReport, hhealth, HealthStatus.text]
  pid := rfl
  healthError := rfl

theorem valid_unitReport {row : UnitRow} (h : row.Lawful) :
    UnitReport.record.Valid (unitReport row) := by
  have hhealth : (Codec.option healthStatusCodec solid_healthStatus).Valid
      (unitReport row).health := by
    cases (unitReport row).health with
    | none => trivial
    | some health => exact ⟨trivial, by simp [healthStatusCodec, Codec.enumeration]⟩
  have hpid : (Codec.option u32 solid_u32).Valid row.pid := by
    cases hrow : row.pid with
    | none => trivial
    | some pid => exact ⟨h.pid pid hrow, Json.noConfusion⟩
  have herror : (Codec.option .string Codec.solid_string).Valid row.healthError := by
    cases row.healthError with
    | none => trivial
    | some error => exact ⟨trivial, Json.noConfusion⟩
  exact ⟨trivial, trivial, trivial, trivial, hhealth, hpid, herror, trivial⟩

theorem Registry.valid_counts (active : Registry) :
    ActiveTaskCounts.record.Valid active.counts :=
  ⟨Nat.mod_lt _ (Nat.two_pow_pos 32), Nat.mod_lt _ (Nat.two_pow_pos 32),
    Nat.mod_lt _ (Nat.two_pow_pos 32), trivial⟩

theorem valid_counts_of_run {agent : AgentConfig} {π : Policy agent.system} {maxConcurrent : Nat}
    {pool : Pool agent.system}
    (run : Run π (Pool.initial (Shared.initial maxConcurrent)) pool) :
    ActiveTaskCounts.record.Valid pool.shared.counts := by
  refine run.invariant
    (I := fun pool : Pool agent.system => ActiveTaskCounts.record.Valid pool.shared.counts)
    ActiveTaskCounts.valid_zero fun {before _} step h => ?_
  cases step with
  | start _ _ => exact h
  | env henv _ => exact (environment_outside henv).counts ▸ h
  | @fire i job op next proposal ans shared hfuture hperform allowed =>
      change ActiveTaskCounts.record.Valid shared.counts
      rw [(perform_meters hperform).2]
      cases op with
      | updateCounts => exact before.shared.active.valid_counts
      | _ => exact h

theorem valid_heartbeat (sender : Sender) (uptime : UInt64) {active : ActiveTaskCounts}
    (hactive : ActiveTaskCounts.record.Valid active) {listed : Except Task.Error (List UnitRow)}
    (hlisted : ∀ rows, listed = .ok rows → ∀ row ∈ rows, row.Lawful) (now : Int) :
    Heartbeat.record.Valid (sender.heartbeat uptime active listed now) := by
  refine ⟨trivial, trivial, UInt64.toNat_lt uptime, ?_, ?_, hactive, trivial⟩
  · change Int.toNat (now % 2 ^ 64) < 2 ^ 64
    omega
  · change ∀ report ∈ unitReports listed, UnitReport.record.Valid report
    cases listed with
    | error e => exact fun report hreport => absurd hreport List.not_mem_nil
    | ok rows =>
        change ∀ report ∈ rows.map unitReport, UnitReport.record.Valid report
        rw [List.forall_mem_map]
        exact fun row hrow => valid_unitReport (hlisted rows rfl row hrow)

/-- A heartbeat of this agent says what was read. -/
structure Heartbeat.Tells (sender : Sender) (r : Readings) (beat : Heartbeat) : Prop where
  agentId : beat.agentId = sender.agentId
  agentVersion : beat.agentVersion = sender.agentVersion
  uptimeSec : beat.uptimeSec = r.uptime.toNat
  timestamp : (beat.timestamp : Int) = r.now % 2 ^ 64
  activeTasks : beat.activeTasks = r.active
  listed : ∀ rows, r.listed = .ok rows → List.Forall₂ UnitReport.Describes beat.units rows
  unlisted : ∀ e, r.listed = .error e → beat.units = []

/-- The control plane reads this body as a heartbeat that says what was read. -/
def ReadAs (sender : Sender) (r : Readings) (body : List UInt8) : Prop :=
  ∃ beat, Heartbeat.record.codec.fromSlice body = some beat ∧ beat.Tells sender r

theorem tells_heartbeat (sender : Sender) {r : Readings}
    (hlisted : ∀ rows, r.listed = .ok rows → ∀ row ∈ rows, row.Lawful) :
    (sender.heartbeat r.uptime r.active r.listed r.now).Tells sender r where
  agentId := rfl
  agentVersion := rfl
  uptimeSec := rfl
  timestamp := Int.toNat_of_nonneg (Int.emod_nonneg _ (by decide))
  activeTasks := rfl
  listed rows hrows := by
    change List.Forall₂ UnitReport.Describes (unitReports r.listed) rows
    rw [hrows, unitReports, List.forall₂_map_left_iff, List.forall₂_same]
    exact fun row hrow => describes_unitReport (hlisted rows hrows row hrow)
  unlisted e he := by
    change unitReports r.listed = []
    rw [he, unitReports]

section Read

variable {setup : Units.Setup} {agent : AgentConfig}

/-- The unit tables and the task counts that a run of the loop sees are those of a running agent. -/
structure Observes (setup : Units.Setup) (agent : AgentConfig) (table : UnitTable)
    (maxConcurrent : Nat) (events : List (Event BeatSig)) : Prop where
  units : ∀ rows, ⟨.listUnits, .ok rows⟩ ∈ events →
    ∃ pool : Pool setup.system, Run (Units.fittingPids setup) (Pool.initial table) pool ∧
      rows = pool.shared.rows
  tasks : ∀ active, ⟨.activeTasks, active⟩ ∈ events →
    ∃ pool : Pool agent.system, Run (Policy.free agent.system)
      (Pool.initial (Shared.initial maxConcurrent)) pool ∧ active = pool.shared.counts

/--
Whatever the units and the tasks went through, nothing is called after the shutdown
and the control plane reads each heartbeat back as what was read right before it.
-/
theorem heartbeats_read {table : UnitTable} (htable : Units.LawfulTable table)
    {maxConcurrent : Nat} {sender : Sender} {fuel : Nat} {events : List (Event BeatSig)}
    {rest : Prog BeatSig Unit} (h : Prog.Steps (sender.run fuel) events rest)
    (hobserves : Observes setup agent table maxConcurrent events) :
    Pool.EachAfter (PostedAfter sender.endpoint (ReadAs sender)) events := by
  have hposted := (run_postedAfter fuel fun _ => List.not_mem_nil).eachAfter h
  intro earlier event later heq
  obtain ⟨hrunning, hpost⟩ := hposted earlier event later heq
  refine ⟨hrunning, fun target body answer hevent => ?_⟩
  obtain ⟨hendpoint, r, hsuffix, rfl⟩ := hpost target body answer hevent
  refine ⟨hendpoint, r, hsuffix, ?_⟩
  have hmem : ∀ reading ∈ r.events, reading ∈ events := fun reading hreading => by
    rw [heq]
    exact List.mem_append_left _ (hsuffix.subset hreading)
  obtain ⟨tasks, tasksRun, hcounts⟩ := hobserves.tasks r.active (hmem _ (by simp [Readings.events]))
  have hactive : ActiveTaskCounts.record.Valid r.active := hcounts ▸ valid_counts_of_run tasksRun
  have hlisted : ∀ rows, r.listed = .ok rows → ∀ row ∈ rows, row.Lawful := by
    intro rows hrows
    obtain ⟨units, unitsRun, rfl⟩ := hobserves.units rows
      (hmem _ (by simp [Readings.events, hrows]))
    exact Units.rows_lawful htable unitsRun
  exact ⟨_, fromSlice_body (valid_heartbeat sender r.uptime hactive hlisted r.now),
    tells_heartbeat sender hlisted⟩

end Read

/-! ## A table that is read once and then not any more -/

def sampleSender : Sender := ⟨⟨7⟩, "0.1.0", "https://cp/heartbeat"⟩

def readOnce : Readings := ⟨10, 60, ⟨1, 0, 1⟩, .ok [Units.sampleRow.withHealth "ok" none 5], 5⟩

def readFailed : Readings := ⟨10, 70, ⟨1, 0, 1⟩, .error (.state "database is locked"), 15⟩

def Sender.round (sender : Sender) (r : Readings) : List (Event BeatSig) :=
  r.events ++ [⟨.post sender.endpoint (sender.heartbeat r.uptime r.active r.listed r.now).body,
    .error "refused"⟩]

def twoRounds : List (Event BeatSig) :=
  sampleSender.round readOnce ++ sampleSender.round readFailed

theorem steps_twoRounds : Prog.Steps (sampleSender.run 3) twoRounds (sampleSender.run 1) :=
  .call (.call (.call (.call (.call (.call (.call (.call (.call (.call (.call (.call (.call
    (.call (.refl _))))))))))))))

/-- A package has been found healthy, and one task is running. -/
theorem observes_twoRounds :
    Observes Units.sampleSetup sampleAgent Units.sampleTable 1 twoRounds where
  units rows hrows := by
    have heq : rows = [Units.sampleRow.withHealth "ok" none 5] := by
      simpa [twoRounds, Sender.round, Readings.events, readOnce, readFailed] using hrows
    let labels := Units.checkedOnce ++ [.fire 0 Units.agreeable]
    have follows : Pool.Follows (Units.fittingPids Units.sampleSetup) Units.sampleStart labels := by
      refine .cons trivial rfl ?_
      iterate 5 refine .cons (Pool.allows_performed rfl rfl trivial) rfl ?_
      trivial
    exact ⟨(Units.sampleStart.script labels).get rfl, Pool.run_script follows, heq⟩
  tasks active hactive := by
    have heq : active = ⟨1, 0, 1⟩ := by
      simpa [twoRounds, Sender.round, Readings.events, readOnce, readFailed] using hactive
    exact ⟨(sampleStart.script submittedOnce).get rfl, Pool.run_script_free _, heq⟩

theorem heartbeats_read_twice :
    Prog.Steps (sampleSender.run 3) twoRounds (sampleSender.run 1) ∧
      Pool.EachAfter (PostedAfter "https://cp/heartbeat" (ReadAs sampleSender)) twoRounds := by
  have htable : Units.LawfulTable Units.sampleTable := by
    intro row hrow
    cases List.mem_singleton.mp hrow
    exact ⟨.inr rfl, by decide, nofun, nofun, nofun⟩
  exact ⟨steps_twoRounds, heartbeats_read htable steps_twoRounds observes_twoRounds⟩

end VasalAgent.Agent
