import VasalAgent.Protocol.Task
import VasalAgent.Serde.Record
import VasalAgent.Serde.Text

/-!
# Serialization of the dispatch types

The derived serializers and deserializers of tasks, chains and results, with every
type that occurs in them.  The fields stand in the order of the source, each with
its default and its skip rule; `buffered` says whether a value is read through the
buffer of a tagged enum around it.
-/

namespace VasalAgent.Protocol

open VasalAgent.Serde

/-! ## Identifiers -/

namespace Uuid

def ofDigits (digits : List Nat) : Nat := digits.foldl (fun value digit => value * 16 + digit) 0

/-- `parse_simple`, once the length is known. -/
def parseSimple (chars : List Char) : Option Uuid :=
  (chars.mapM hexDigit?).map fun digits => ⟨BitVec.ofNat 128 (ofDigits digits)⟩

/-- `parse_hyphenated`, once the length is known. -/
def parseHyphenated (chars : List Char) : Option Uuid :=
  if chars[8]? = some '-' ∧ chars[13]? = some '-' ∧ chars[18]? = some '-' ∧
      chars[23]? = some '-' then
    parseSimple (chars.take 8 ++ ((chars.drop 9).take 4 ++ ((chars.drop 14).take 4 ++
      ((chars.drop 19).take 4 ++ chars.drop 24))))
  else none

/-- `Uuid::try_parse`: the simple, hyphenated, braced and URN forms. -/
def parse (text : String) : Option Uuid :=
  let chars := text.toList
  if chars.length = 32 then parseSimple chars
  else if chars.length = 36 then parseHyphenated chars
  else if chars.length = 38 ∧ chars.head? = some '\x7b' ∧ chars.getLast? = some '\x7d' then
    parseHyphenated ((chars.drop 1).take 36)
  else if chars.length = 45 ∧ chars.take 9 = "urn:uuid:".toList then
    parseHyphenated (chars.drop 9)
  else none

theorem ofDigits_range (value n : Nat) :
    ofDigits ((List.range n).map fun i => value / 16 ^ (n - 1 - i) % 16) = value % 16 ^ n := by
  induction n generalizing value with
  | zero => simp [ofDigits, Nat.mod_one]
  | succ n ih =>
      have hdigits : (List.range n).map (fun i => value / 16 ^ (n + 1 - 1 - i) % 16) =
          (List.range n).map fun i => value / 16 / 16 ^ (n - 1 - i) % 16 := by
        apply List.map_congr_left
        intro i hi
        have hpow : n + 1 - 1 - i = (n - 1 - i) + 1 := by
          have := List.mem_range.mp hi
          omega
        rw [hpow, Nat.pow_succ', Nat.div_div_eq_div_mul]
      have hlast : value / 16 ^ (n + 1 - 1 - n) % 16 = value % 16 := by simp
      have hfold := ih (value / 16)
      rw [List.range_succ, List.map_append, List.map_singleton, hdigits, hlast]
      rw [ofDigits] at hfold ⊢
      rw [List.foldl_append, hfold, Nat.pow_succ', Nat.mod_mul]
      simp
      omega

theorem parseSimple_hexDigits (id : Uuid) : parseSimple id.hexDigits = some id := by
  have hdigits : id.hexDigits.mapM hexDigit? =
      some ((List.range 32).map fun i => id.value.toNat / 16 ^ (31 - i) % 16) := by
    rw [hexDigits]
    generalize List.range 32 = positions
    induction positions with
    | nil => rfl
    | cons i rest ih =>
        rw [List.map_cons, List.mapM_cons, ih, hexDigit?_digitChar (Nat.mod_lt _ (by decide))]
        rfl
  have hpow : (16 : Nat) ^ 32 = 2 ^ 128 := by decide
  have hvalue : id.value.toNat % 16 ^ 32 = id.value.toNat := by
    rw [hpow]
    exact Nat.mod_eq_of_lt id.value.isLt
  rw [parseSimple, hdigits, Option.map_some, ofDigits_range id.value.toNat 32, hvalue]
  simp

theorem parseHyphenated_groups {a b c d e : List Char} (ha : a.length = 8) (hb : b.length = 4)
    (hc : c.length = 4) (hd : d.length = 4) :
    parseHyphenated (a ++ '-' :: (b ++ '-' :: (c ++ '-' :: (d ++ '-' :: e)))) =
      parseSimple (a ++ (b ++ (c ++ (d ++ e)))) := by
  have hdrop {group : List Char} {n : Nat} (h : group.length = n) (k : Nat) (hk : n ≤ k) :
      group.drop k = [] :=
    List.drop_eq_nil_of_le (by omega)
  simp [parseHyphenated, List.getElem?_append, List.drop_append, ha, hb, hc, hd,
    hdrop ha, hdrop hb, hdrop hc, hdrop hd]

theorem length_hexDigits (id : Uuid) : id.hexDigits.length = 32 := by
  simp [hexDigits]

theorem parse_toString (id : Uuid) : parse id.toString = some id := by
  have hlength := id.length_hexDigits
  have hdigits := id.parseSimple_hexDigits
  rw [toString, parse]
  generalize id.hexDigits = digits at hlength hdigits
  have hgroups : digits.take 8 ++ ((digits.drop 8).take 4 ++ ((digits.drop 12).take 4 ++
      ((digits.drop 16).take 4 ++ digits.drop 20))) = digits := by
    have hnext (start count : Nat) :
        (digits.drop start).take count ++ digits.drop (start + count) = digits.drop start := by
      rw [← List.drop_drop, List.take_append_drop]
    rw [hnext 16 4, hnext 12 4, hnext 8 4, List.take_append_drop]
  simp only [String.toList_ofList]
  rw [if_neg (by simp [hlength]), if_pos (by simp [hlength]),
    parseHyphenated_groups (by simp [hlength]) (by simp [hlength]) (by simp [hlength])
      (by simp [hlength]), hgroups, hdigits]

def codec : Codec Uuid where
  decode json := json.asStr?.bind parse
  encode id := .str id.toString
  Valid _ := True
  decode_encode _ := by simp [Json.asStr?, parse_toString]
  valid_of_decode _ := trivial
  lawful_encode _ := .str _

theorem solid_codec : codec.Solid := by
  intro json value _ _
  simp [codec]

end Uuid

/-! ## Scalars -/

def u32 : Codec Nat := .natural (2 ^ 32)

def u64 : Codec Nat := .natural (2 ^ 64)

def i32 : Codec Int := .integer (-2 ^ 31) (2 ^ 31)

/-! ## Credentials -/

namespace ResolveMode

def text : ResolveMode → String
  | .eager => "eager"
  | .lazy => "lazy"

def codec (buffered : Bool) : Codec ResolveMode :=
  .enumeration buffered [.eager, .lazy] text (by rintro (_ | _) <;> simp)
    (by rintro (_ | _) (_ | _) <;> simp [text])

end ResolveMode

namespace CredentialProvider

def httpFields : Record (String × Unit) :=
  .cons (.required "endpoint" .string) .nil

def sidecarFields : Record (String × String × Unit) :=
  .cons (.required "endpoint" .string) <|
  .cons (.required "method" .string) .nil

def variants : Variants CredentialProvider :=
  (Variants.or (.single "http" httpFields) (.single "sidecar" sidecarFields)).equiv
    { toFun
        | .inl (endpoint, _) => .http endpoint
        | .inr (endpoint, method, _) => .sidecar endpoint method
      invFun
        | .http endpoint => .inl (endpoint, ())
        | .sidecar endpoint method => .inr (endpoint, method, ())
      left_inv := by rintro (_ | _) <;> rfl
      right_inv := by rintro (_ | _) <;> rfl }

def codec (buffered : Bool) : Codec CredentialProvider := variants.codec "type" buffered

end CredentialProvider

namespace CredentialRef

def record (buffered : Bool) : Record CredentialRef :=
  Record.equiv
    (.cons (.required "name" .string) <|
     .cons (.required "resolve" (ResolveMode.codec buffered)) <|
     .cons (.required "provider" (CredentialProvider.codec buffered)) <|
     .cons (.optional "params" .value Codec.solid_value) .nil)
    ⟨fun (name, resolve, provider, params, _) => ⟨name, resolve, provider, params⟩,
      fun ref => (ref.name, ref.resolve, ref.provider, ref.params, ()),
      fun _ => rfl, fun _ => rfl⟩

end CredentialRef

/-! ## Managed units -/

namespace UnitKind

def text : UnitKind → String
  | .sidecar => "sidecar"
  | .package => "package"

def codec (buffered : Bool) : Codec UnitKind :=
  .enumeration buffered [.sidecar, .package] text (by rintro (_ | _) <;> simp)
    (by rintro (_ | _) (_ | _) <;> simp [text])

end UnitKind

namespace UnitState

def text : UnitState → String
  | .installed => "installed"
  | .running => "running"
  | .stopped => "stopped"
  | .absent => "absent"

def codec (buffered : Bool) : Codec UnitState :=
  .enumeration buffered [.installed, .running, .stopped, .absent] text
    (by rintro (_ | _) <;> simp) (by rintro (_ | _) (_ | _) <;> simp [text])

end UnitState

def Artifact.record : Record Artifact :=
  Record.equiv
    (.cons (.required "url" .string) <|
     .cons (.required "sha256" .string) .nil)
    ⟨fun (url, sha256, _) => ⟨url, sha256⟩, fun artifact => (artifact.url, artifact.sha256, ()),
      fun _ => rfl, fun _ => rfl⟩

def HealthCheck.defaultTimeoutMs : Nat := 5000

theorem HealthCheck.defaultTimeoutMs_lt : HealthCheck.defaultTimeoutMs < 2 ^ 64 := by decide

def HealthCheck.record : Record HealthCheck :=
  Record.equiv
    (.cons (.required "command" .string) <|
     .cons (.withDefault "timeout_ms" u64 HealthCheck.defaultTimeoutMs
       HealthCheck.defaultTimeoutMs_lt) .nil)
    ⟨fun (command, timeoutMs, _) => ⟨command, timeoutMs⟩,
      fun check => (check.command, check.timeoutMs, ()), fun _ => rfl, fun _ => rfl⟩

def ManagedUnit.record (buffered : Bool) : Record ManagedUnit :=
  Record.equiv
    (.cons (.required "name" .string) <|
     .cons (.required "kind" (UnitKind.codec buffered)) <|
     .cons (.required "version" .string) <|
     .cons (.required "artifact" Artifact.record.codec) <|
     .cons (.withDefault "state" (UnitState.codec buffered) .absent trivial) <|
     .cons (.optional "health_check" HealthCheck.record.codec HealthCheck.record.solid_codec) <|
     .cons (.optional "config" .value Codec.solid_value) <|
     .cons (.optional "socket_path" .string Codec.solid_string) .nil)
    ⟨fun (name, kind, version, artifact, state, healthCheck, config, socketPath, _) =>
        ⟨name, kind, version, artifact, state, healthCheck, config, socketPath⟩,
      fun unit => (unit.name, unit.kind, unit.version, unit.artifact, unit.state,
        unit.healthCheck, unit.config, unit.socketPath, ()),
      fun _ => rfl, fun _ => rfl⟩

/-! ## Tasks -/

namespace Priority

def text : Priority → String
  | .critical => "critical"
  | .high => "high"
  | .normal => "normal"
  | .low => "low"

def codec (buffered : Bool) : Codec Priority :=
  .enumeration buffered [.critical, .high, .normal, .low] text
    (by rintro (_ | _) <;> simp) (by rintro (_ | _) (_ | _) <;> simp [text])

end Priority

namespace Executor

def text : Executor → String
  | .shell => "shell"
  | .sidecar => "sidecar"

def codec (buffered : Bool) : Codec Executor :=
  .enumeration buffered [.shell, .sidecar] text (by rintro (_ | _) <;> simp)
    (by rintro (_ | _) (_ | _) <;> simp [text])

end Executor

namespace ExecKind

def text : ExecKind → String
  | .oneshot => "oneshot"
  | .continuous => "continuous"

def codec (buffered : Bool) : Codec ExecKind :=
  .enumeration buffered [.oneshot, .continuous] text (by rintro (_ | _) <;> simp)
    (by rintro (_ | _) (_ | _) <;> simp [text])

end ExecKind

section Fields

variable (buffered : Bool)

/-- The fields `id`, `priority` and `tags` that every task begins with. -/
def idField : StructField Uuid := .required "id" Uuid.codec

def priorityField : StructField Priority :=
  .withDefault "priority" (Priority.codec buffered) .normal trivial

def tagsField : StructField Tags := .withDefault "tags" .dictionary [] .nil

def ExecTask.record : Record ExecTask :=
  Record.equiv
    (.cons idField <|
     .cons (priorityField buffered) <|
     .cons tagsField <|
     .cons (.required "kind" (ExecKind.codec buffered)) <|
     .cons (.required "executor" (Executor.codec buffered)) <|
     .cons (.optional "target" .string Codec.solid_string) <|
     .cons (.optional "method" .string Codec.solid_string) <|
     .cons (.withDefault "payload" .value .null .null) <|
     .cons (.optional "interval_ms" u64 (Codec.solid_natural _ _)) <|
     .cons (.required "timeout_ms" u64) <|
     .cons (.withDefault "credentials" (.list (CredentialRef.record buffered).codec) []
       (by simp [Codec.list])) .nil)
    ⟨fun (id, priority, tags, kind, executor, target, method, payload, intervalMs, timeoutMs,
        credentials, _) =>
        ⟨id, priority, tags, kind, executor, target, method, payload, intervalMs, timeoutMs,
          credentials⟩,
      fun task => (task.id, task.priority, task.tags, task.kind, task.executor, task.target,
        task.method, task.payload, task.intervalMs, task.timeoutMs, task.credentials, ()),
      fun _ => rfl, fun _ => rfl⟩

def CancelTask.record : Record CancelTask :=
  Record.equiv
    (.cons idField <|
     .cons (priorityField buffered) <|
     .cons tagsField <|
     .cons (.required "target_task_id" Uuid.codec) .nil)
    ⟨fun (id, priority, tags, targetTaskId, _) => ⟨id, priority, tags, targetTaskId⟩,
      fun task => (task.id, task.priority, task.tags, task.targetTaskId, ()),
      fun _ => rfl, fun _ => rfl⟩

def InstallTask.record : Record InstallTask :=
  Record.equiv
    (.cons idField <|
     .cons (priorityField buffered) <|
     .cons tagsField <|
     .cons (.required "unit" (ManagedUnit.record buffered).codec) .nil)
    ⟨fun (id, priority, tags, unit, _) => ⟨id, priority, tags, unit⟩,
      fun task => (task.id, task.priority, task.tags, task.unit, ()),
      fun _ => rfl, fun _ => rfl⟩

def RollbackSpec.record : Record RollbackSpec :=
  Record.equiv
    (.cons (.required "version" .string) <|
     .cons (.required "artifact" Artifact.record.codec) .nil)
    ⟨fun (version, artifact, _) => ⟨version, artifact⟩,
      fun spec => (spec.version, spec.artifact, ()), fun _ => rfl, fun _ => rfl⟩

def rollbackField : StructField (Option RollbackSpec) :=
  .optional "rollback" RollbackSpec.record.codec RollbackSpec.record.solid_codec

def UpgradeTask.record : Record UpgradeTask :=
  Record.equiv
    (.cons idField <|
     .cons (priorityField buffered) <|
     .cons tagsField <|
     .cons (.required "unit_name" .string) <|
     .cons (.required "target_version" .string) <|
     .cons (.required "artifact" Artifact.record.codec) <|
     .cons rollbackField .nil)
    ⟨fun (id, priority, tags, unitName, targetVersion, artifact, rollback, _) =>
        ⟨id, priority, tags, unitName, targetVersion, artifact, rollback⟩,
      fun task => (task.id, task.priority, task.tags, task.unitName, task.targetVersion,
        task.artifact, task.rollback, ()),
      fun _ => rfl, fun _ => rfl⟩

def RemoveTask.record : Record RemoveTask :=
  Record.equiv
    (.cons idField <|
     .cons (priorityField buffered) <|
     .cons tagsField <|
     .cons (.required "unit_name" .string) <|
     .cons (.withDefault "purge" .bool false trivial) .nil)
    ⟨fun (id, priority, tags, unitName, purge, _) => ⟨id, priority, tags, unitName, purge⟩,
      fun task => (task.id, task.priority, task.tags, task.unitName, task.purge, ()),
      fun _ => rfl, fun _ => rfl⟩

def SelfUpgradeTask.record : Record SelfUpgradeTask :=
  Record.equiv
    (.cons idField <|
     .cons (priorityField buffered) <|
     .cons tagsField <|
     .cons (.required "target_version" .string) <|
     .cons (.required "artifact" Artifact.record.codec) <|
     .cons rollbackField .nil)
    ⟨fun (id, priority, tags, targetVersion, artifact, rollback, _) =>
        ⟨id, priority, tags, targetVersion, artifact, rollback⟩,
      fun task => (task.id, task.priority, task.tags, task.targetVersion, task.artifact,
        task.rollback, ()),
      fun _ => rfl, fun _ => rfl⟩

end Fields

/-- The content of each variant has been buffered. -/
def Task.variants : Variants Task :=
  Variants.equiv
    (.or (.single "exec" (ExecTask.record true)) <|
     .or (.single "cancel" (CancelTask.record true)) <|
     .or (.single "install" (InstallTask.record true)) <|
     .or (.single "upgrade" (UpgradeTask.record true)) <|
     .or (.single "remove" (RemoveTask.record true)) <|
     .single "self_upgrade" (SelfUpgradeTask.record true))
    { toFun
        | .inl task => .exec task
        | .inr (.inl task) => .cancel task
        | .inr (.inr (.inl task)) => .install task
        | .inr (.inr (.inr (.inl task))) => .upgrade task
        | .inr (.inr (.inr (.inr (.inl task)))) => .remove task
        | .inr (.inr (.inr (.inr (.inr task)))) => .selfUpgrade task
      invFun
        | .exec task => .inl task
        | .cancel task => .inr (.inl task)
        | .install task => .inr (.inr (.inl task))
        | .upgrade task => .inr (.inr (.inr (.inl task)))
        | .remove task => .inr (.inr (.inr (.inr (.inl task))))
        | .selfUpgrade task => .inr (.inr (.inr (.inr (.inr task))))
      left_inv := by rintro (_ | _ | _ | _ | _ | _) <;> rfl
      right_inv := by rintro (_ | _) <;> rfl }

def Task.codec : Codec Task := Task.variants.codec "type" false

/-! ## Chains -/

namespace RollbackStrategy

def text : RollbackStrategy → String
  | .rollbackFailed => "rollback_failed"
  | .rollbackAll => "rollback_all"

def codec : Codec RollbackStrategy :=
  .enumeration false [.rollbackFailed, .rollbackAll] text (by rintro (_ | _) <;> simp)
    (by rintro (_ | _) (_ | _) <;> simp [text])

end RollbackStrategy

def ChainStep.record : Record ChainStep :=
  Record.equiv
    (.cons (.required "task" (ExecTask.record false).codec) <|
     .cons (.optional "rollback" (ExecTask.record false).codec
       (ExecTask.record false).solid_codec) .nil)
    ⟨fun (task, rollback, _) => ⟨task, rollback⟩, fun step => (step.task, step.rollback, ()),
      fun _ => rfl, fun _ => rfl⟩

def TaskChain.record : Record TaskChain :=
  Record.equiv
    (.cons idField <|
     .cons (.required "steps" (.list ChainStep.record.codec)) <|
     .cons (.withDefault "on_failure" RollbackStrategy.codec .rollbackAll trivial) <|
     .cons tagsField .nil)
    ⟨fun (id, steps, onFailure, tags, _) => ⟨id, steps, onFailure, tags⟩,
      fun chain => (chain.id, chain.steps, chain.onFailure, chain.tags, ()),
      fun _ => rfl, fun _ => rfl⟩

def TaskChain.codec : Codec TaskChain := TaskChain.record.codec

/-! ## Results -/

namespace TaskResultStatus

def text : TaskResultStatus → String
  | .success => "success"
  | .failed => "failed"
  | .cancelled => "cancelled"
  | .timeout => "timeout"
  | .rolledBack => "rolled_back"

def codec : Codec TaskResultStatus :=
  .enumeration false [.success, .failed, .cancelled, .timeout, .rolledBack] text
    (by rintro (_ | _) <;> simp) (by rintro (_ | _) (_ | _) <;> simp [text])

end TaskResultStatus

def TaskResult.record : Record TaskResult :=
  Record.equiv
    (.cons (.required "task_id" Uuid.codec) <|
     .cons (.optional "chain_id" Uuid.codec Uuid.solid_codec) <|
     .cons (.optional "step_index" u32 (Codec.solid_natural _ _)) <|
     .cons (.required "status" TaskResultStatus.codec) <|
     .cons (.optional "exit_code" i32 (Codec.solid_integer _ _ _ _)) <|
     .cons (.withDefault "stdout" .string "" trivial) <|
     .cons (.withDefault "stderr" .string "" trivial) <|
     .cons (.required "duration_ms" u64) <|
     .cons (.required "timestamp" u64) <|
     .cons (.optional "error" .string Codec.solid_string) .nil)
    ⟨fun (taskId, chainId, stepIndex, status, exitCode, stdout, stderr, durationMs, timestamp,
        error, _) =>
        ⟨taskId, chainId, stepIndex, status, exitCode, stdout, stderr, durationMs, timestamp,
          error⟩,
      fun result => (result.taskId, result.chainId, result.stepIndex, result.status,
        result.exitCode, result.stdout, result.stderr, result.durationMs, result.timestamp,
        result.error, ()),
      fun _ => rfl, fun _ => rfl⟩

def TaskResult.codec : Codec TaskResult := TaskResult.record.codec

/-! ## Re-encoding -/

/-- What has been decoded is serialized to a value that decodes to it again. -/
theorem reencoding_stable (v : Json) :
    (∀ task, Task.codec.decode v = some task →
      Task.codec.decode (Task.codec.encode task) = some task) ∧
    (∀ chain, TaskChain.codec.decode v = some chain →
      TaskChain.codec.decode (TaskChain.codec.encode chain) = some chain) ∧
    (∀ result, TaskResult.codec.decode v = some result →
      TaskResult.codec.decode (TaskResult.codec.encode result) = some result) :=
  ⟨fun _ => Task.codec.stable, fun _ => TaskChain.codec.stable,
    fun _ => TaskResult.codec.stable⟩

/-- The identifier in another form than the one that is printed. -/
def sampleRemove : Json :=
  .obj [("purge", .bool true), ("id", .str "00000000000000000000000000000ABC"),
    ("extra", .null), ("tags", .obj [("b", .str "2"), ("a", .str "1")]), ("unit_name", .str "u"),
    ("priority", .obj [("low", .obj [])]), ("type", .str "remove")]

def sampleRemoveTask : Task :=
  .remove ⟨⟨0xABC⟩, .low, [("a", "1"), ("b", "2")], "u", true⟩

theorem reencoding_remove :
    Task.codec.decode sampleRemove = some sampleRemoveTask ∧
      Task.codec.decode (Task.codec.encode sampleRemoveTask) = some sampleRemoveTask :=
  have hdecode : Task.codec.decode sampleRemove = some sampleRemoveTask := by rfl
  ⟨hdecode, (reencoding_stable sampleRemove).1 _ hdecode⟩

end VasalAgent.Protocol
