import VasalAgent.Task.Effects

/-!
# Credentials and the sidecar executor

`credential` and `task::sidecar`: resolve the eager credentials of a task, call
a sidecar over its socket, poll an accepted submission until it ends.
-/

namespace VasalAgent.Task

open VasalAgent.Async
open VasalAgent.Protocol

/-! ## Credentials -/

namespace Credential

/-- `HashMap::insert`. -/
def insert (creds : ResolvedCredentials) (name value : String) :
    ResolvedCredentials :=
  (name, value) :: creds.filter fun entry => entry.1 != name

/-- The loop of `resolve_eager` over the references from position `index` on. -/
def resolveFrom (origin : Origin) : Nat → List CredentialRef →
    ResolvedCredentials → Prog ExecSig (Except Error ResolvedCredentials)
  | _, [], creds => pure (.ok creds)
  | index, ref :: rest, creds =>
      match ref.resolve with
      | .lazy => resolveFrom origin (index + 1) rest creds
      | .eager => do
          match ← await (.resolveOne origin index ref) with
          | .error e => pure (.error e)
          | .ok value =>
              resolveFrom origin (index + 1) rest (insert creds ref.name value)

/-- `credential::resolve_eager`. -/
def resolveEager (origin : Origin) (refs : List CredentialRef) :
    Prog ExecSig (Except Error ResolvedCredentials) :=
  resolveFrom origin 0 refs []

/-- `credential::lazy_credentials_as_json`. -/
def lazyCredentialsAsJson (refs : List CredentialRef) : Json :=
  let deferred := refs.filter fun ref => ref.resolve = .lazy
  if deferred.isEmpty then .null else .arr (deferred.map CredentialRef.toValue)

end Credential

/-! ## Sidecar calls -/

namespace Sidecar

/-- `Path::join`: an absolute second part replaces the first. -/
def joinPath (dir name : String) : String :=
  if name.startsWith "/" then name
  else if dir = "" || dir.endsWith "/" then dir ++ name
  else dir ++ "/" ++ name

/-- `sidecar::call_raw`. -/
def callRaw (origin : Origin) (site : CallSite) (socketPath method : String)
    (params : Option Json) : Prog ExecSig (Except Error Response) := do
  match ← await (.connect origin site socketPath) with
  | .error e =>
      pure (.error (.transport
        ("failed to connect to sidecar at " ++ socketPath ++ ": " ++ e)))
  | .ok _ => do
      let request := Request.new method params (.integer 1)
      match ← await (.sendFrame origin site request) with
      | .error e => pure (.error (.transport ("failed to send to sidecar: " ++ e)))
      | .ok _ => do
          match ← await (.nextFrame origin site) with
          | none =>
              pure (.error (.transport
                "sidecar closed connection without responding"))
          | some (.error e) =>
              pure (.error (.transport ("failed to read sidecar response: " ++ e)))
          | some (.ok (.error e)) => pure (.error (.json e))
          | some (.ok (.ok response)) => pure (.ok response)

def rpcFailure (origin : Origin) (taskId : Uuid) (err : ErrorObject) :
    Prog ExecSig TaskResult := do
  let time ← elapsed origin .result
  makeResult origin taskId .failed none ""
    ("[" ++ toString err.code ++ "] " ++ err.message) time (some err.message)

/-! ## Polling -/

def pollDelaysMs : List Nat := [0, 100, 200, 500, 1000]

def pollDelay (pollIndex : Nat) : Nat := pollDelaysMs.getD pollIndex 1000

/-- The least time slept before the loop head of iteration `pollIndex`. -/
def pollDelaySum : Nat → Nat
  | 0 => 0
  | pollIndex + 1 => pollDelaySum pollIndex + pollDelay pollIndex

/-- Enough iterations for a clock on which sleeping takes its time. -/
def pollBudget (timeoutMs : Nat) : Nat := timeoutMs / 100 + 3

section Poll

variable (origin : Origin) (agentTaskId : Uuid) (sidecarTaskId socketPath : String)
  (timeoutMs : Nat) (cancel : Token)

def stopPolling (status : TaskResultStatus) (error : Option String) :
    Prog ExecSig TaskResult := do
  let _ ← callRaw origin .cancel socketPath "cancel"
    (some (taskIdParams sidecarTaskId))
  let time ← elapsed origin .result
  makeResult origin agentTaskId status none "" "" time error

/-- What an answered `status` call decides; `none` keeps polling. -/
def statusResult (response : Response) : Option (Prog ExecSig TaskResult) :=
  match response.error with
  | some err => some (rpcFailure origin agentTaskId err)
  | none =>
      match StatusResponse.fromValue (response.result.getD .null) with
      | .error _ => none
      | .ok .running => none
      | .ok (.completed stdout stderr _) => some do
          let time ← elapsed origin .result
          makeResult origin agentTaskId .success none stdout stderr time none
      | .ok (.failed error stderr) => some do
          let time ← elapsed origin .result
          makeResult origin agentTaskId .failed none "" stderr time (some error)
      | .ok .cancelled => some do
          let time ← elapsed origin .result
          makeResult origin agentTaskId .cancelled none "" "" time none

/-- The first poll is not delayed and does not look at the token. -/
def pollSleep (pollIndex : Nat) : Prog ExecSig PollWake :=
  if 0 < pollDelay pollIndex then
    await (.selectPoll origin pollIndex cancel (pollDelay pollIndex))
  else pure .slept

/-- The loop of `poll_until_complete` from iteration `pollIndex` on. -/
def pollFrom : Nat → Nat → Prog ExecSig TaskResult
  | 0, _ => .hang
  | fuel + 1, pollIndex => do
      let time ← elapsed origin (.poll pollIndex)
      if timeoutMs * nanosPerMilli ≤ time then
        stopPolling origin agentTaskId sidecarTaskId socketPath .timeout
          (some ("timeout after " ++ Nat.repr timeoutMs ++ "ms"))
      else do
        match ← pollSleep origin cancel pollIndex with
        | .cancelled =>
            stopPolling origin agentTaskId sidecarTaskId socketPath .cancelled none
        | .slept => do
            match ← callRaw origin (.status pollIndex) socketPath "status"
                (some (taskIdParams sidecarTaskId)) with
            | .error _ => pollFrom fuel (pollIndex + 1)
            | .ok response =>
                match statusResult origin agentTaskId response with
                | some done => done
                | none => pollFrom fuel (pollIndex + 1)

/-- `poll_until_complete`. -/
def pollUntilComplete : Prog ExecSig TaskResult :=
  pollFrom origin agentTaskId sidecarTaskId socketPath timeoutMs cancel
    (pollBudget timeoutMs) 0

end Poll

/-! ## Execution -/

/-- The parameters sent: the payload with the credentials put in, when it is an object. -/
def submitParams (payload : Json) (credRefs : List CredentialRef)
    (resolvedCreds : ResolvedCredentials) : Json :=
  match payload with
  | .obj fields =>
      let fields :=
        if resolvedCreds.isEmpty then fields
        else Json.insertKey "_credentials"
          (Json.ofFields (resolvedCreds.map fun entry => (entry.1, .str entry.2)))
          fields
      let deferred := Credential.lazyCredentialsAsJson credRefs
      if deferred.isNull then .obj fields
      else .obj (Json.insertKey "_lazy_credentials" deferred fields)
  | other => other

def submitted (origin : Origin) (taskId : Uuid) (socketPath : String)
    (timeoutMs : Nat) (cancel : Token) (response : Response) :
    Prog ExecSig TaskResult :=
  match response.error with
  | some err => rpcFailure origin taskId err
  | none =>
      let value := response.result.getD .null
      match SubmitResponse.fromValue value with
      | .error e => do
          let time ← elapsed origin .result
          makeResult origin taskId .failed none value.render e.toString time
            (some ("failed to parse sidecar response: " ++ e.toString))
      | .ok (.completed stdout stderr _) => do
          let time ← elapsed origin .result
          makeResult origin taskId .success none stdout stderr time none
      | .ok (.failed error stderr) => do
          let time ← elapsed origin .result
          makeResult origin taskId .failed none "" stderr time (some error)
      | .ok (.accepted sidecarTaskId) =>
          pollUntilComplete origin taskId sidecarTaskId socketPath timeoutMs cancel

/-- `sidecar::execute`. -/
def execute (origin : Origin) (taskId : Uuid) (target method : String)
    (payload : Json) (credRefs : List CredentialRef)
    (resolvedCreds : ResolvedCredentials) (timeoutMs : Nat) (socketDir : String)
    (cancel : Token) : Prog ExecSig TaskResult := do
  let socketPath := joinPath socketDir (target ++ ".sock")
  let params := submitParams payload credRefs resolvedCreds
  match ← callRaw origin .submit socketPath method (some params) with
  | .error e => do
      let time ← elapsed origin .result
      makeResult origin taskId .failed none "" e.toString time
        (some ("sidecar " ++ target ++ ": " ++ e.toString))
  | .ok response =>
      submitted origin taskId socketPath timeoutMs cancel response

/-! ## Joined paths -/

theorem endsWith_iff (text ending : String) :
    text.endsWith ending = true ↔ ending.toList <:+ text.toList := by
  rw [← String.endsWith_toSlice, String.Slice.endsWith_string_iff, String.copy_toSlice]

theorem joinPath_injective {dir first second : String} (hfirst : first.startsWith "/" = false)
    (hsecond : second.startsWith "/" = false) (h : joinPath dir first = joinPath dir second) :
    first = second := by
  simp only [joinPath, hfirst, hsecond, Bool.false_eq_true, if_false] at h
  split at h
  · exact (String.append_right_inj _).mp h
  · exact (String.append_right_inj _).mp h

theorem relative_of_head {name : String} {c : Char} {rest : List Char}
    (h : name.toList = c :: rest) (hc : c ≠ '/') : name.startsWith "/" = false := by
  rw [String.startsWith_string_eq_false_iff, h]
  intro hprefix
  have hslash : "/".toList = ['/'] := by simp
  rw [hslash, List.cons_prefix_cons] at hprefix
  exact hc hprefix.1.symm

/-- A path ends as the name that was joined last. -/
theorem getLast?_joinPath (dir : String) {name : String} (h : name.toList ≠ []) :
    (joinPath dir name).toList.getLast? = name.toList.getLast? := by
  unfold joinPath
  split
  · rfl
  · split <;> rw [String.toList_append, List.getLast?_append_of_ne_nil _ h]

theorem ne_joinPath {path dir name : String} (hname : name.toList ≠ [])
    (h : path.toList.getLast? ≠ name.toList.getLast?) : path ≠ joinPath dir name := by
  rintro rfl
  exact h (getLast?_joinPath dir hname)

end Sidecar

end VasalAgent.Task
