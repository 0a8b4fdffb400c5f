import VasalAgent.Task.Internal
import VasalAgent.Task.Sidecar
import VasalAgent.Units.Footprint

/-!
# Where the sidecars listen

The agent starts a sidecar with `--socket` and a path, and looks for it at that path. Each of
the repository's sidecars reads its arguments in its own way: `echo-ctrl` takes the first one,
`ebpf-observer` the second one, `sql-ctrl` goes through all of them and knows no `--socket`.
-/

namespace VasalAgent.Sidecars

open VasalAgent.Async
open VasalAgent.Protocol
open VasalAgent.Task
open VasalAgent.Units
open VasalAgent.Task.Sidecar (joinPath ne_joinPath)

/-! ## The argument parsers -/

namespace EchoCtrl

def defaultSocket : String := "/run/vasal/echo-ctrl.sock"

/-- The `socket_path` of `main`: `args` starts with the program's own name. -/
def socketPath (args : List String) : String := args[1]?.getD defaultSocket

end EchoCtrl

namespace EbpfObserver

def socketPath (args : List String) : String :=
  args[2]?.getD "/run/vasal/ebpf-observer.sock"

end EbpfObserver

namespace SqlCtrl

def defaultSocket : String := "/run/vasal/sql-ctrl.sock"

structure Options where
  dsn : Option String := none
  socketPath : String := defaultSocket
  deriving DecidableEq, Repr

/-- A process that ended before it served: its exit code and what it wrote to `stderr`. -/
structure Exit where
  code : Nat
  lines : List String
  deriving DecidableEq, Repr

def unknownArgument (other : String) : Exit :=
  { code := 1
    lines := ["unknown argument: " ++ other,
      "usage: sql-ctrl [--dsn <database_path>] [<socket_path>]"] }

/-- The argument loop of `main`, after the program's name. -/
def parseArgs (options : Options) : List String → Except Exit Options
  | [] => .ok options
  -- `--dsn` takes whatever follows it, and nothing at the end of the arguments
  | ["--dsn"] => .ok { options with dsn := none }
  | "--dsn" :: value :: rest => parseArgs { options with dsn := some value } rest
  | arg :: rest =>
      if arg.startsWith "-" then .error (unknownArgument arg)
      else parseArgs { options with socketPath := arg } rest

/-- The options of `main`: `args` starts with the program's own name. -/
def options (args : List String) : Except Exit Options := parseArgs {} args.tail

end SqlCtrl

inductive Program
  | echoCtrl
  | sqlCtrl
  | ebpfObserver
  deriving DecidableEq, Repr

/-- The socket a sidecar serves when it is started with `args`, if it gets to serve. -/
def Program.listensOn (args : List String) : Program → Option String
  | .echoCtrl => some (EchoCtrl.socketPath args)
  | .sqlCtrl => (SqlCtrl.options args).toOption.map SqlCtrl.Options.socketPath
  | .ebpfObserver => some (EbpfObserver.socketPath args)

/-- Whatever `sql-ctrl` is started with, it serves its default socket or an argument that is
no flag. -/
theorem SqlCtrl.socketPath_of_parseArgs {options parsed : SqlCtrl.Options}
    {args : List String} (h : SqlCtrl.parseArgs options args = .ok parsed) :
    parsed.socketPath = options.socketPath ∨
      parsed.socketPath ∈ args ∧ parsed.socketPath.startsWith "-" = false := by
  -- the induction follows the loop: a `--dsn` and its value are one round
  fun_induction SqlCtrl.parseArgs options args with
  | case1 options =>
      cases h
      exact .inl rfl
  | case2 options =>
      cases h
      exact .inl rfl
  | case3 options value rest ih =>
      obtain hsame | ⟨hmem, hflag⟩ := ih h
      · exact .inl hsame
      · exact .inr ⟨List.mem_cons_of_mem _ (List.mem_cons_of_mem _ hmem), hflag⟩
  | case4 => cases h
  | case5 options arg rest _ _ hflag ih =>
      obtain hsame | ⟨hmem, hother⟩ := ih h
      · rw [hsame]
        exact .inr ⟨List.mem_cons_self, Bool.eq_false_iff.mpr hflag⟩
      · exact .inr ⟨List.mem_cons_of_mem _ hmem, hother⟩

/-! ## The agent's side -/

/-- A start passes `--socket` with `socket`, a call goes to `socket`. -/
def StartsAndCalls (socket : String) : UnitOp → Prop
  | .spawn _ args => args = ["--socket", socket]
  | .callRaw path _ _ => path = socket
  | _ => True

def ConnectsTo (socket : String) : ExecOp → Prop
  | .connect _ _ path => path = socket
  | _ => True

section Agent

variable {digest : List UInt8 → String} {unitName cacheDir socketDir : String}

theorem startsAndCalls_fetch {what : String} {artifact : Artifact} {socket : String} :
    (fetch digest what unitName artifact).Uses (StartsAndCalls socket) :=
  uses_fetch.mono fun op _ => by cases op <;> trivial

theorem startsAndCalls_unpack {version installDir socket : String} {bytes : List UInt8} :
    (unpack unitName version installDir bytes).Uses (StartsAndCalls socket) :=
  uses_unpack.mono fun op _ => by cases op <;> trivial

theorem startsAndCalls_startSidecar {binaryPath socket : String} :
    (startSidecar binaryPath socket).Uses (StartsAndCalls socket) :=
  uses_startSidecar.mono fun op _ => by cases op <;> trivial

theorem startsAndCalls_kills {α : Type} {p : Prog UnitSig α} {socket : String}
    (h : p.Uses UnitOp.kills) : p.Uses (StartsAndCalls socket) :=
  h.mono fun op _ => by cases op <;> trivial

theorem startsAndCalls_install (unit : ManagedUnit) :
    (install digest unit cacheDir socketDir).Uses
      (StartsAndCalls (socketPathFor socketDir unit.name)) := by
  refine Prog.Uses.orReturn startsAndCalls_fetch fun bytes => ?_
  refine Prog.Uses.orReturn (uses_converted (uses_call trivial)) fun _ => ?_
  have hextract : (extractArtifact unit.artifact.url.toLower bytes (joinPath cacheDir unit.name)
      unit.name unit.version).Uses (StartsAndCalls (socketPathFor socketDir unit.name)) :=
    uses_extractArtifact.mono fun op _ => by cases op <;> trivial
  refine Prog.Uses.orReturn hextract fun _ => Prog.Uses.bind (uses_call trivial) fun now => ?_
  cases unit.kind with
  | package => exact uses_call trivial
  | sidecar =>
      refine Prog.Uses.bind (uses_call trivial) fun present => ?_
      cases present with
      | false => exact uses_call trivial
      | true => exact Prog.Uses.orReturn startsAndCalls_startSidecar fun pid => uses_call trivial

theorem startsAndCalls_performRollback (rollback : RollbackSpec) :
    (performRollback digest unitName cacheDir socketDir rollback).Uses
      (StartsAndCalls (socketPathFor socketDir unitName)) := by
  refine Prog.Uses.orReturn startsAndCalls_fetch fun bytes => ?_
  refine Prog.Uses.orReturn startsAndCalls_unpack fun extracted => ?_
  cases extracted with
  | false => trivial
  | true =>
      refine Prog.Uses.orReturn (uses_call trivial) fun current => ?_
      cases current with
      | none => trivial
      | some current =>
          refine Prog.Uses.bind (uses_call trivial) fun now => ?_
          dsimp only
          split
          · refine Prog.Uses.bind (uses_call trivial) fun present => ?_
            cases present with
            | false => exact uses_call trivial
            | true =>
                exact Prog.Uses.orReturn startsAndCalls_startSidecar fun pid => uses_call trivial
          · exact uses_call trivial

theorem startsAndCalls_giveUp (rollback : Option RollbackSpec) (message : String) :
    (giveUp digest unitName cacheDir socketDir rollback message).Uses
      (StartsAndCalls (socketPathFor socketDir unitName)) := by
  cases rollback with
  | none => trivial
  | some rollback =>
      exact Prog.Uses.orReturn (startsAndCalls_performRollback rollback) fun _ => trivial

theorem startsAndCalls_startUpgraded (rollback : Option RollbackSpec) (row : UnitRow) :
    (startUpgraded digest unitName cacheDir socketDir rollback row).Uses
      (StartsAndCalls (socketPathFor socketDir unitName)) := by
  unfold startUpgraded
  split
  · refine Prog.Uses.bind (uses_call trivial) fun present => ?_
    cases present with
    | false => exact uses_call trivial
    | true =>
        refine Prog.Uses.orReturn startsAndCalls_startSidecar fun pid => ?_
        have hprobe : (probeSidecar socketDir unitName 10).Uses
            (StartsAndCalls (socketPathFor socketDir unitName)) :=
          uses_probeSidecar.mono fun op _ => by cases op <;> trivial
        refine hprobe.bind fun healthy => ?_
        cases healthy with
        | true => exact uses_call trivial
        | false =>
            exact (startsAndCalls_kills (uses_terminate _ _)).bind fun _ =>
              startsAndCalls_giveUp rollback _
  · exact uses_call trivial

theorem startsAndCalls_upgrade (targetVersion : String) (artifact : Artifact)
    (rollback : Option RollbackSpec) :
    (upgrade digest unitName cacheDir socketDir targetVersion artifact rollback).Uses
      (StartsAndCalls (socketPathFor socketDir unitName)) := by
  refine Prog.Uses.orReturn startsAndCalls_fetch fun bytes => ?_
  refine Prog.Uses.orReturn (uses_call trivial) fun current => ?_
  cases current with
  | none => trivial
  | some current =>
      refine (startsAndCalls_kills (uses_stopCurrent current)).bind fun _ => ?_
      refine Prog.Uses.orReturn startsAndCalls_unpack fun extracted => ?_
      cases extracted with
      | false => exact startsAndCalls_giveUp rollback _
      | true =>
          exact Prog.Uses.bind (uses_call trivial) fun now =>
            startsAndCalls_startUpgraded rollback _

theorem connectsTo_call (origin : Origin) (site : CallSite) (socket method : String)
    (params : Option Json) : AllowsCall (ConnectsTo socket) origin site socket method params :=
  ⟨rfl, trivial, trivial⟩

theorem connectsTo_polling (origin : Origin) (id socket : String) :
    AllowsPolling (ConnectsTo socket) origin id socket :=
  { elapsed := fun _ => trivial
    nowMs := trivial
    select := fun _ _ _ => trivial
    status := fun _ => connectsTo_call ..
    cancel := connectsTo_call .. }

theorem connectsTo_execute (origin : Origin) (taskId : Uuid) (target method : String)
    (payload : Json) (credRefs : List CredentialRef) (creds : ResolvedCredentials)
    (timeoutMs : Nat) (cancel : Token) :
    (Task.Sidecar.execute origin taskId target method payload credRefs creds timeoutMs socketDir
      cancel).Uses (ConnectsTo (socketPathFor socketDir target)) :=
  uses_sidecar_of (connectsTo_call ..) (fun _ => connectsTo_polling ..) ..

end Agent

/-! ## Agreement -/

/-- The arguments a sidecar finds when the agent starts it on `socket`. -/
def launched (binaryPath socket : String) : List String := [binaryPath, "--socket", socket]

theorem SqlCtrl.options_launched (binaryPath socket : String) :
    SqlCtrl.options (launched binaryPath socket) = .error (unknownArgument "--socket") := by
  have hflag : "--socket".startsWith "-" = true := by
    rw [String.startsWith_string_iff]
    simp
  simp [SqlCtrl.options, launched, SqlCtrl.parseArgs, hflag]

theorem listensOn_launched (binaryPath socket : String) (program : Program) :
    program.listensOn (launched binaryPath socket) =
      match program with
      | .echoCtrl => some "--socket"
      | .sqlCtrl => none
      | .ebpfObserver => some socket := by
  cases program with
  | echoCtrl => rfl
  | sqlCtrl => simp [Program.listensOn, SqlCtrl.options_launched, Except.toOption]
  | ebpfObserver => rfl

theorem socketPathFor_ne_flag (socketDir unitName : String) :
    "--socket" ≠ socketPathFor socketDir unitName := by
  refine ne_joinPath (by simp) ?_
  rw [String.toList_append, List.getLast?_append_of_ne_nil _ (by simp)]
  simp

/-- Installs, upgrades and rollbacks start a unit with `--socket` and the path of its socket,
and the agent's calls for the unit go to that path. Of the three sidecars only
`ebpf-observer` then listens there. -/
theorem sidecar_listens_iff (program : Program) (unit : ManagedUnit)
    (binaryPath socketDir : String) :
    (∀ (digest : List UInt8 → String) (cacheDir : String),
      (install digest unit cacheDir socketDir).Uses
        (StartsAndCalls (socketPathFor socketDir unit.name))) ∧
    (∀ (digest : List UInt8 → String) (cacheDir targetVersion : String)
        (artifact : Artifact) (rollback : Option RollbackSpec),
      (upgrade digest unit.name cacheDir socketDir targetVersion artifact rollback).Uses
        (StartsAndCalls (socketPathFor socketDir unit.name))) ∧
    (∀ (origin : Origin) (taskId : Uuid) (method : String) (payload : Json)
        (credRefs : List CredentialRef) (creds : ResolvedCredentials) (timeoutMs : Nat)
        (cancel : Token),
      (Task.Sidecar.execute origin taskId unit.name method payload credRefs creds timeoutMs
        socketDir cancel).Uses (ConnectsTo (socketPathFor socketDir unit.name))) ∧
    (program.listensOn (launched binaryPath (socketPathFor socketDir unit.name)) =
          some (socketPathFor socketDir unit.name) ↔
        program = .ebpfObserver) := by
  refine ⟨fun _ _ => startsAndCalls_install unit,
    fun _ _ _ _ rollback => startsAndCalls_upgrade _ _ rollback,
    fun _ _ _ _ _ _ _ _ => connectsTo_execute .., ?_⟩
  rw [listensOn_launched]
  cases program with
  | echoCtrl =>
      simp only [Option.some.injEq, reduceCtorEq, iff_false]
      exact socketPathFor_ne_flag socketDir unit.name
  | sqlCtrl => simp
  | ebpfObserver => simp

/-- Started by the agent, `echo-ctrl` serves a socket named `--socket` and `sql-ctrl` exits. -/
theorem sidecar_started_deaf :
    Program.echoCtrl.listensOn (launched "/cache/echo-ctrl/echo-ctrl"
        (socketPathFor "/run/vasal" "echo-ctrl")) = some "--socket" ∧
      "--socket" ≠ socketPathFor "/run/vasal" "echo-ctrl" ∧
      Program.sqlCtrl.listensOn (launched "/cache/sql-ctrl/sql-ctrl"
        (socketPathFor "/run/vasal" "sql-ctrl")) = none ∧
      SqlCtrl.options (launched "/cache/sql-ctrl/sql-ctrl"
        (socketPathFor "/run/vasal" "sql-ctrl")) = .error
          { code := 1
            lines := ["unknown argument: --socket",
              "usage: sql-ctrl [--dsn <database_path>] [<socket_path>]"] } := by
  refine ⟨rfl, socketPathFor_ne_flag _ _, listensOn_launched _ _ .sqlCtrl, ?_⟩
  rw [SqlCtrl.options_launched, SqlCtrl.unknownArgument]
  simp

end VasalAgent.Sidecars
