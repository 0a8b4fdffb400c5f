import VasalAgent.Task.Effects
import VasalAgent.Text.Utf8

/-!
# Shell executor

`task::shell`: start `/bin/sh -c script`, race the process against its timeout
and its cancellation token, collect what it wrote.
-/

namespace VasalAgent.Task.Shell

open VasalAgent.Async
open VasalAgent.Protocol
open VasalAgent.Text (fromUtf8Lossy)

/-! ## Output -/

def maxOutputSize : Nat := 16 * 1024 * 1024

/-- `truncate_output`; the answer to `spill` is the path of the spill file. -/
def truncateOutput (origin : Origin) (stream : Stream) (bytes : List UInt8) :
    Prog ExecSig String :=
  if bytes.length ≤ maxOutputSize then pure (fromUtf8Lossy bytes)
  else do
    let spillPath ← await (.spill origin stream bytes)
    pure (fromUtf8Lossy (bytes.take maxOutputSize) ++
      "\n... [truncated — full output (" ++ Nat.repr bytes.length ++
        " bytes) at " ++ spillPath ++ "]")

/-! ## Execution -/

def missingScript : String := "missing 'script' field in payload"

def script? (exec : ExecTask) : Option String :=
  (exec.payload.get? "script").bind Json.asStr?

def command (exec : ExecTask) (creds : ResolvedCredentials)
    (script : String) : Command where
  script
  env := creds
  workingDir := (exec.payload.get? "working_dir").bind Json.asStr?

def exited (origin : Origin) (exec : ExecTask) :
    Except String ExitStatus → Prog ExecSig TaskResult
  | .ok status => do
      let stdoutBytes ← await (.joinOutput origin .stdout)
      let stderrBytes ← await (.joinOutput origin .stderr)
      let stdout ← truncateOutput origin .stdout stdoutBytes
      let stderr ← truncateOutput origin .stderr stderrBytes
      let exitCode := status.getD (-1)
      let time ← elapsed origin .result
      makeResult origin exec.id
        (if ExitStatus.success status then .success else .failed)
        (some exitCode) stdout stderr time
        (if ExitStatus.success status then none
          else some ("exit code " ++ toString exitCode))
  | .error e => do
      let time ← elapsed origin .result
      makeResult origin exec.id .failed none "" e time
        (some ("failed to wait for shell: " ++ e))

def awoken (origin : Origin) (exec : ExecTask) :
    ShellWake → Prog ExecSig TaskResult
  | .cancelled => do
      await (.killWait origin)
      let time ← elapsed origin .result
      makeResult origin exec.id .cancelled none "" "" time none
  | .timedOut => do
      await (.killWait origin)
      let time ← elapsed origin .result
      makeResult origin exec.id .timeout none "" "" time
        (some ("timeout after " ++ Nat.repr exec.timeoutMs ++ "ms"))
  | .exited status => exited origin exec status

def supervise (origin : Origin) (exec : ExecTask) (cancel : Token) :
    Prog ExecSig TaskResult := do
  let wake ← await (.selectShell origin cancel exec.timeoutMs)
  awoken origin exec wake

/-- `shell::execute`. -/
def execute (origin : Origin) (exec : ExecTask) (creds : ResolvedCredentials)
    (cancel : Token) : Prog ExecSig TaskResult :=
  match script? exec with
  | none => do
      let time ← elapsed origin .result
      makeResult origin exec.id .failed none "" missingScript time
        (some missingScript)
  | some script => do
      match ← await (.spawnShell origin (command exec creds script)) with
      | .error e => do
          let time ← elapsed origin .result
          makeResult origin exec.id .failed none "" e time
            (some ("failed to spawn shell: " ++ e))
      | .ok _ => supervise origin exec cancel

end VasalAgent.Task.Shell
