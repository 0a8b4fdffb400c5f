import VasalAgent.Task.Chain

/-!
# Calls made inside the executors

The shell and sidecar executors and the credential resolution make only
`internal` calls.  In particular they hand no task to an executor, record no
audit event and write no row.
-/

namespace VasalAgent.Task

open VasalAgent.Async
open VasalAgent.Protocol

/-- The calls made on behalf of one execution, after it was handed over. -/
def ExecOp.internal (origin : Origin) : ExecOp → Prop
  | .resolveOne o .. => o = origin
  | .spawnShell o .. => o = origin
  | .selectShell o .. => o = origin
  | .killWait o => o = origin
  | .joinOutput o .. => o = origin
  | .spill o .. => o = origin
  | .connect o .. => o = origin
  | .sendFrame o .. => o = origin
  | .nextFrame o .. => o = origin
  | .selectPoll o .. => o = origin
  | .elapsed o .. => o = origin
  | .nowMs o => o = origin
  | _ => False

/-- The internal calls of the executor itself, once the credentials are resolved. -/
def ExecOp.executing (origin : Origin) : ExecOp → Prop
  | .resolveOne .. => False
  | op => op.internal origin

variable {origin : Origin}

theorem uses_internal {α : Type} {p : Prog ExecSig α} (h : p.Uses (ExecOp.executing origin)) :
    p.Uses (ExecOp.internal origin) := by
  refine h.mono fun op hop => ?_
  cases op <;> first | exact hop | exact hop.elim

theorem uses_makeResult (taskId : Uuid) (status : TaskResultStatus)
    (exitCode : Option Int) (stdout stderr : String) (time : Nat)
    (error : Option String) :
    (makeResult origin taskId status exitCode stdout stderr time error).Uses
      (ExecOp.executing origin) :=
  ⟨rfl, fun _ => trivial⟩

/-- The shape of nearly every exit: read the stopwatch, build the result. -/
theorem uses_timedResult (site : ClockSite) (taskId : Uuid)
    (status : TaskResultStatus) (exitCode : Option Int) (stdout stderr : String)
    (error : Option String) :
    (elapsed origin site >>= fun time =>
      makeResult origin taskId status exitCode stdout stderr time error).Uses
      (ExecOp.executing origin) :=
  ⟨rfl, fun _ => uses_makeResult ..⟩

theorem uses_resolveEager (refs : List CredentialRef) :
    (Credential.resolveEager origin refs).Uses (ExecOp.internal origin) := by
  unfold Credential.resolveEager
  generalize 0 = index
  generalize ([] : ResolvedCredentials) = creds
  induction refs generalizing index creds with
  | nil => trivial
  | cons ref rest ih =>
      rw [Credential.resolveFrom]
      cases ref.resolve with
      | lazy => exact ih _ _
      | eager =>
          refine ⟨rfl, fun ans => ?_⟩
          cases ans with
          | error e => trivial
          | ok value => exact ih _ _

theorem uses_truncateOutput (stream : Stream) (bytes : List UInt8) :
    (Shell.truncateOutput origin stream bytes).Uses (ExecOp.executing origin) := by
  unfold Shell.truncateOutput
  split
  · trivial
  · exact ⟨rfl, fun _ => trivial⟩

theorem uses_exited (exec : ExecTask) (status : Except String ExitStatus) :
    (Shell.exited origin exec status).Uses (ExecOp.executing origin) := by
  cases status with
  | error e => exact uses_timedResult ..
  | ok status =>
      refine ⟨rfl, fun stdoutBytes => ⟨rfl, fun stderrBytes => ?_⟩⟩
      refine (uses_truncateOutput _ _).bind fun stdout => ?_
      refine (uses_truncateOutput _ _).bind fun stderr => ?_
      exact uses_timedResult ..

theorem uses_supervise (exec : ExecTask) (cancel : Token) :
    (Shell.supervise origin exec cancel).Uses (ExecOp.executing origin) := by
  refine ⟨rfl, fun wake => ?_⟩
  cases wake with
  | cancelled => exact ⟨rfl, fun _ => uses_timedResult ..⟩
  | timedOut => exact ⟨rfl, fun _ => uses_timedResult ..⟩
  | exited status => exact uses_exited exec status

theorem uses_shell (exec : ExecTask) (creds : ResolvedCredentials)
    (cancel : Token) :
    (Shell.execute origin exec creds cancel).Uses (ExecOp.executing origin) := by
  unfold Shell.execute
  split
  · exact uses_timedResult ..
  · refine ⟨rfl, fun ans => ?_⟩
    cases ans with
    | error e => exact uses_timedResult ..
    | ok started => exact uses_supervise exec cancel

/-! ## Polling -/

section Polling

variable {allowed : ExecOp → Prop} {id socketPath : String}

/-- The three calls of one request. -/
structure AllowsCall (allowed : ExecOp → Prop) (origin : Origin) (site : CallSite)
    (socketPath method : String) (params : Option Json) : Prop where
  connect : allowed (.connect origin site socketPath)
  send : allowed (.sendFrame origin site (.new method params (.integer 1)))
  next : allowed (.nextFrame origin site)

/-- The calls of the polling of the sidecar's task `id`. -/
structure AllowsPolling (allowed : ExecOp → Prop) (origin : Origin)
    (id socketPath : String) : Prop where
  elapsed : ∀ site, allowed (.elapsed origin site)
  nowMs : allowed (.nowMs origin)
  select : ∀ pollIndex token delayMs, allowed (.selectPoll origin pollIndex token delayMs)
  status : ∀ pollIndex,
    AllowsCall allowed origin (.status pollIndex) socketPath "status" (some (taskIdParams id))
  cancel : AllowsCall allowed origin .cancel socketPath "cancel" (some (taskIdParams id))

theorem AllowsCall.uses {site : CallSite} {method : String} {params : Option Json}
    (h : AllowsCall allowed origin site socketPath method params) :
    (Sidecar.callRaw origin site socketPath method params).Uses allowed := by
  refine ⟨h.connect, fun connected => ?_⟩
  cases connected with
  | error e => trivial
  | ok _ =>
      refine ⟨h.send, fun sent => ?_⟩
      cases sent with
      | error e => trivial
      | ok _ =>
          refine ⟨h.next, fun frame => ?_⟩
          rcases frame with _ | _ | _ | _ <;> trivial

namespace AllowsPolling

variable (h : AllowsPolling allowed origin id socketPath)
include h

theorem uses_result (taskId : Uuid) (status : TaskResultStatus) (stdout stderr : String)
    (error : Option String) :
    (Task.elapsed origin .result >>= fun time =>
      makeResult origin taskId status none stdout stderr time error).Uses allowed :=
  ⟨h.elapsed _, fun _ => ⟨h.nowMs, fun _ => trivial⟩⟩

theorem uses_stopPolling (taskId : Uuid) (status : TaskResultStatus)
    (error : Option String) :
    (Sidecar.stopPolling origin taskId id socketPath status error).Uses allowed :=
  h.cancel.uses.bind fun _ => h.uses_result ..

theorem uses_statusResult {taskId : Uuid} {response : Response}
    {done : Prog ExecSig TaskResult}
    (hdone : Sidecar.statusResult origin taskId response = some done) :
    done.Uses allowed := by
  unfold Sidecar.statusResult at hdone
  split at hdone
  · cases hdone
    exact h.uses_result ..
  · split at hdone <;> cases hdone <;> exact h.uses_result ..

theorem uses_pollSleep (cancel : Token) (pollIndex : Nat) :
    (Sidecar.pollSleep origin cancel pollIndex).Uses allowed := by
  unfold Sidecar.pollSleep
  split
  · exact ⟨h.select .., fun _ => trivial⟩
  · trivial

theorem uses_pollFrom (taskId : Uuid) (timeoutMs : Nat) (cancel : Token)
    (fuel pollIndex : Nat) :
    (Sidecar.pollFrom origin taskId id socketPath timeoutMs cancel fuel pollIndex).Uses
      allowed := by
  induction fuel generalizing pollIndex with
  | zero => trivial
  | succ fuel ih =>
      refine Prog.Uses.bind (p := Task.elapsed origin (.poll pollIndex))
        ⟨h.elapsed _, fun _ => trivial⟩ fun time => ?_
      split
      · exact h.uses_stopPolling ..
      · refine (h.uses_pollSleep cancel pollIndex).bind fun wake => ?_
        cases wake with
        | cancelled => exact h.uses_stopPolling ..
        | slept =>
            refine (h.status pollIndex).uses.bind fun answer => ?_
            cases answer with
            | error e => exact ih _
            | ok response =>
                cases hdone : Sidecar.statusResult origin taskId response with
                | none => simpa only [hdone] using ih _
                | some done => simpa only [hdone] using h.uses_statusResult hdone

end AllowsPolling

end Polling

theorem executing_call (site : CallSite) (socketPath method : String)
    (params : Option Json) :
    AllowsCall (ExecOp.executing origin) origin site socketPath method params :=
  ⟨rfl, rfl, rfl⟩

theorem executing_polling (id socketPath : String) :
    AllowsPolling (ExecOp.executing origin) origin id socketPath :=
  ⟨fun _ => rfl, rfl, fun _ _ _ => rfl, fun _ => executing_call .., executing_call ..⟩

/-- The calls of `sidecar::execute` are those of the submission and of any polling. -/
theorem uses_submitted_of {allowed : ExecOp → Prop} {socketPath : String}
    (h : ∀ id, AllowsPolling allowed origin id socketPath) (taskId : Uuid) (timeoutMs : Nat)
    (cancel : Token) (response : Response) :
    (Sidecar.submitted origin taskId socketPath timeoutMs cancel response).Uses allowed := by
  unfold Sidecar.submitted
  split
  · exact (h "").uses_result ..
  · dsimp only
    split
    · exact (h "").uses_result ..
    · exact (h "").uses_result ..
    · exact (h "").uses_result ..
    · exact (h _).uses_pollFrom ..

theorem uses_submitted (taskId : Uuid) (socketPath : String) (timeoutMs : Nat)
    (cancel : Token) (response : Response) :
    (Sidecar.submitted origin taskId socketPath timeoutMs cancel response).Uses
      (ExecOp.executing origin) :=
  uses_submitted_of (fun _ => executing_polling ..) ..

theorem uses_sidecar_of {allowed : ExecOp → Prop} {target method socketDir : String}
    {payload : Json} {credRefs : List CredentialRef} {resolvedCreds : ResolvedCredentials}
    (hsubmit : AllowsCall allowed origin .submit (Sidecar.joinPath socketDir (target ++ ".sock"))
      method (some (Sidecar.submitParams payload credRefs resolvedCreds)))
    (hpolling : ∀ id, AllowsPolling allowed origin id
      (Sidecar.joinPath socketDir (target ++ ".sock")))
    (taskId : Uuid) (timeoutMs : Nat) (cancel : Token) :
    (Sidecar.execute origin taskId target method payload credRefs resolvedCreds timeoutMs
      socketDir cancel).Uses allowed := by
  refine hsubmit.uses.bind fun answer => ?_
  cases answer with
  | error e => exact (hpolling "").uses_result ..
  | ok response => exact uses_submitted_of hpolling ..

theorem uses_sidecar (taskId : Uuid) (target method : String) (payload : Json)
    (credRefs : List CredentialRef) (resolvedCreds : ResolvedCredentials)
    (timeoutMs : Nat) (socketDir : String) (cancel : Token) :
    (Sidecar.execute origin taskId target method payload credRefs resolvedCreds
      timeoutMs socketDir cancel).Uses (ExecOp.executing origin) :=
  uses_sidecar_of (executing_call ..) (fun _ => executing_polling ..) ..

theorem uses_runExecutor (socketDir : String) (exec : ExecTask)
    (creds : ResolvedCredentials) (cancel : Token) :
    (runExecutor socketDir origin exec creds cancel).Uses
      (ExecOp.executing origin) := by
  unfold runExecutor
  cases exec.executor with
  | shell => exact uses_shell ..
  | sidecar => exact uses_sidecar ..

/-! ## Attempts -/

/-- The calls of one attempt at a task: neither polls nor records of what contains it. -/
def ExecOp.isAttempt : ExecOp → Prop
  | .isCancelled .. | .selectTick .. | .audit .. | .selfUpgrade .. => False
  | _ => True

theorem uses_attempt {α : Type} {p : Prog ExecSig α}
    (h : p.Uses (ExecOp.internal origin)) : p.Uses ExecOp.isAttempt := by
  refine h.mono fun op hop => ?_
  cases op <;> first | exact hop | trivial

theorem uses_dispatch (socketDir : String) (origin : Origin) (exec : ExecTask)
    (creds : ResolvedCredentials) (cancel : Token) :
    (dispatch socketDir origin exec creds cancel).Uses ExecOp.isAttempt :=
  ⟨trivial, fun _ => uses_attempt (uses_internal (uses_runExecutor ..))⟩

theorem uses_oneshot (socketDir : String) (origin : Origin) (exec : ExecTask)
    (cancel : Token) :
    (executeOneshot socketDir origin exec cancel).Uses ExecOp.isAttempt := by
  refine (uses_attempt (uses_resolveEager _)).bind fun resolved => ?_
  cases resolved with
  | error e => exact uses_attempt (uses_internal (uses_timedResult ..))
  | ok creds => exact uses_dispatch ..

theorem uses_recordTick (n : Nat) (result : TaskResult) :
    (Continuous.recordTick n result).Uses ExecOp.isAttempt :=
  ⟨trivial, fun _ => trivial⟩

theorem uses_tick (socketDir : String) (exec : ExecTask) (cancel : Token) (n : Nat) :
    (Continuous.tick socketDir exec cancel n).Uses ExecOp.isAttempt := by
  refine (uses_attempt (uses_resolveEager _)).bind fun resolved => ?_
  cases resolved with
  | error e =>
      refine ⟨trivial, fun time => ?_⟩
      refine (uses_attempt (uses_internal (uses_makeResult ..))).bind fun result => ?_
      exact (uses_recordTick n result).bind fun _ => trivial
  | ok creds =>
      refine (uses_dispatch ..).bind fun result => ?_
      exact (uses_recordTick n result).bind fun _ => trivial

end VasalAgent.Task
