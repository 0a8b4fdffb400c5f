import VasalAgent.Async.Monitor
import VasalAgent.Task.Internal

/-!
# Well-formed results

What a consumer of a `TaskResult` relies on: its status, its error and its exit
code fit together.  An exit code is there only when the process of a shell task
has been waited for, and it decides the status.

The executors are followed along the paths whose answers satisfy `assume`; at the
end that is the history of a future, so that the wait for the process is in it.
-/

namespace VasalAgent.Task

open VasalAgent.Async
open VasalAgent.Protocol

/--
A result of the task with the id.  `waited` are the exit codes with which a process
of the task has been waited for.
-/
structure WellFormed (id : Uuid) (waited : Int → Prop) (result : TaskResult) : Prop where
  taskId : result.taskId = id
  quiet : result.status = .success ∨ result.status = .cancelled → result.error = none
  loud : result.status = .failed ∨ result.status = .timeout → result.error.isSome
  exitCode : ∀ code, result.exitCode = some code →
    waited code ∧ result.status = if code = 0 then .success else .failed
  forward : result.status ≠ .rolledBack

theorem WellFormed.mono {id : Uuid} {waited wider : Int → Prop} {result : TaskResult}
    (h : WellFormed id waited result) (hwider : ∀ code, waited code → wider code) :
    WellFormed id wider result where
  taskId := h.taskId
  quiet := h.quiet
  loud := h.loud
  exitCode code hcode := ⟨hwider code (h.exitCode code hcode).1, (h.exitCode code hcode).2⟩
  forward := h.forward

/-- The status and the error of a result without an exit code. -/
def plain : TaskResultStatus → Option String → Bool
  | .success, none => true
  | .cancelled, none => true
  | .failed, some _ => true
  | .timeout, some _ => true
  | _, _ => false

/-! ## Executors -/

section Executors

variable {assume : Event ExecSig → Prop} {origin : Origin} {id : Uuid} {waited : Int → Prop}

/-- A process was waited for, and `code` is made from its exit status. -/
def Waited (assume : Event ExecSig → Prop) (origin : Origin) (code : Int) : Prop :=
  ∃ token timeoutMs status,
    assume ⟨.selectShell origin token timeoutMs, .exited (.ok status)⟩ ∧
      code = Option.getD status (-1)

theorem yields_makeResult {status : TaskResultStatus} {stdout stderr : String} {time : Nat}
    {error : Option String} (h : plain status error = true) :
    (makeResult origin id status none stdout stderr time error).Yields assume
      (WellFormed id waited) := by
  intro now _
  constructor <;> cases status <;> cases error <;> simp [plain] at h ⊢

theorem yields_timedResult {site : ClockSite} {status : TaskResultStatus}
    {stdout stderr : String} {error : Option String} (h : plain status error = true) :
    (elapsed origin site >>= fun time =>
      makeResult origin id status none stdout stderr time error).Yields assume
      (WellFormed id waited) :=
  fun _ _ => yields_makeResult h

theorem success_iff (status : ExitStatus) :
    status.success = true ↔ Option.getD status (-1) = 0 := by
  cases status with
  | none => simp [ExitStatus.success]
  | some code => simp [ExitStatus.success]

theorem yields_exited {exec : ExecTask} {status : Except String ExitStatus}
    (hwaited : ∀ exit, status = .ok exit → waited (Option.getD exit (-1))) :
    (Shell.exited origin exec status).Yields assume (WellFormed exec.id waited) := by
  cases status with
  | error e => exact yields_timedResult rfl
  | ok exit =>
      apply (Prog.yields_any _).bind
      intro stdoutBytes _
      apply (Prog.yields_any _).bind
      intro stderrBytes _
      apply (Prog.yields_any _).bind
      intro stdout _
      apply (Prog.yields_any _).bind
      intro stderr _ time _ now _
      have hcode := hwaited exit rfl
      cases hsuccess : exit.success with
      | true =>
          have hzero := (success_iff exit).mp hsuccess
          constructor <;> simp [hzero]
          rwa [← hzero]
      | false =>
          have hnonzero : Option.getD exit (-1) ≠ 0 := by
            simp [← success_iff, hsuccess]
          constructor <;> simp [hnonzero, hcode]

theorem yields_shell {exec : ExecTask} {creds : ResolvedCredentials} {cancel : Token} :
    (Shell.execute origin exec creds cancel).Yields assume
      (WellFormed exec.id (Waited assume origin)) := by
  unfold Shell.execute
  split
  · exact yields_timedResult rfl
  · intro ans _
    cases ans with
    | error e => exact yields_timedResult rfl
    | ok started =>
        intro wake hwake
        cases wake with
        | cancelled => exact fun _ _ => yields_timedResult rfl
        | timedOut => exact fun _ _ => yields_timedResult rfl
        | exited status =>
            apply yields_exited
            rintro exit rfl
            exact ⟨_, _, exit, hwake, rfl⟩

theorem yields_stopPolling {sidecarTaskId socketPath : String} {status : TaskResultStatus}
    {error : Option String} (h : plain status error = true) :
    (Sidecar.stopPolling origin id sidecarTaskId socketPath status error).Yields assume
      (WellFormed id waited) := by
  apply (Prog.yields_any _).bind
  intro answer _
  exact yields_timedResult h

theorem yields_statusResult {response : Response} {done : Prog ExecSig TaskResult}
    (h : Sidecar.statusResult origin id response = some done) :
    done.Yields assume (WellFormed id waited) := by
  unfold Sidecar.statusResult at h
  split at h
  · cases h
    exact yields_timedResult rfl
  · split at h <;> cases h <;> exact yields_timedResult rfl

theorem yields_pollFrom {sidecarTaskId socketPath : String} {timeoutMs : Nat}
    {cancel : Token} (fuel pollIndex : Nat) :
    (Sidecar.pollFrom origin id sidecarTaskId socketPath timeoutMs cancel fuel
      pollIndex).Yields assume (WellFormed id waited) := by
  induction fuel generalizing pollIndex with
  | zero => trivial
  | succ fuel ih =>
      rw [Sidecar.pollFrom]
      apply (Prog.yields_any _).bind
      intro time _
      split
      · exact yields_stopPolling rfl
      · apply (Prog.yields_any _).bind
        intro wake _
        cases wake with
        | cancelled => exact yields_stopPolling rfl
        | slept =>
            apply (Prog.yields_any _).bind
            intro answer _
            cases answer with
            | error e => exact ih _
            | ok response =>
                cases hdone : Sidecar.statusResult origin id response with
                | none => simpa only [hdone] using ih _
                | some done => simpa only [hdone] using yields_statusResult hdone

theorem yields_sidecar {target method : String} {payload : Json}
    {credRefs : List CredentialRef} {resolvedCreds : ResolvedCredentials}
    {timeoutMs : Nat} {socketDir : String} {cancel : Token} :
    (Sidecar.execute origin id target method payload credRefs resolvedCreds timeoutMs
      socketDir cancel).Yields assume (WellFormed id waited) := by
  apply (Prog.yields_any _).bind
  intro answer _
  cases answer with
  | error e => exact yields_timedResult rfl
  | ok response =>
      change (Sidecar.submitted ..).Yields _ _
      unfold Sidecar.submitted
      split
      · exact yields_timedResult rfl
      · dsimp only
        split
        · exact yields_timedResult rfl
        · exact yields_timedResult rfl
        · exact yields_timedResult rfl
        · exact yields_pollFrom _ _

end Executors

/-! ## Tasks -/

section Tasks

variable {assume : Event ExecSig → Prop} {origin : Origin} {socketDir : String}
  {exec : ExecTask} {cancel shutdown : Token}

/-- The exit codes of a task: those of its shell processes. -/
def Exited (assume : Event ExecSig → Prop) (exec : ExecTask) (origin : Origin) (code : Int) :
    Prop :=
  exec.executor = .shell ∧ Waited assume origin code

/-- A result of the task, from the execution at `origin`. -/
abbrev ResultOf (assume : Event ExecSig → Prop) (exec : ExecTask) (origin : Origin) :
    TaskResult → Prop :=
  WellFormed exec.id (Exited assume exec origin)

theorem yields_dispatch {creds : ResolvedCredentials} :
    (dispatch socketDir origin exec creds cancel).Yields assume
      (ResultOf assume exec origin) := by
  intro _ _
  change (runExecutor socketDir origin exec creds cancel).Yields _ _
  unfold runExecutor
  cases hexecutor : exec.executor with
  | shell =>
      apply yields_shell.mono
      intro result hresult
      exact hresult.mono fun code hcode => ⟨hexecutor, hcode⟩
  | sidecar => exact yields_sidecar

theorem yields_executeOneshot :
    (executeOneshot socketDir origin exec cancel).Yields assume
      (ResultOf assume exec origin) := by
  apply (Prog.yields_any _).bind
  intro resolved _
  cases resolved with
  | error e => exact yields_timedResult rfl
  | ok creds => exact yields_dispatch

theorem yields_routeTask (task : Task) :
    (routeTask task).Yields assume (WellFormed task.id fun _ => False) := by
  cases task with
  | selfUpgrade upgrade =>
      intro ans _
      cases ans with
      | ok _ => exact yields_timedResult rfl
      | error e => exact yields_timedResult rfl
  | _ => exact yields_timedResult rfl

/-! ### Ticks -/

/-- A row that is written for a tick has been made from a result of the tick. -/
def TickOf (assume : Event ExecSig → Prop) (exec : ExecTask) : Event ExecSig → Prop
  | ⟨.recordTick n row, _⟩ =>
      ∃ result, row = Continuous.tickRow result ∧ ResultOf assume exec (.tick n) result
  | _ => True

def ExecOp.unticked : ExecOp → Prop
  | .recordTick .. => False
  | _ => True

theorem unticked_of_internal {op : ExecOp} (h : op.internal origin) : op.unticked := by
  cases op <;> trivial

theorem tickOf_unticked {op : ExecOp} {ans : op.Ans} (h : op.unticked) :
    TickOf assume exec ⟨op, ans⟩ := by
  cases op <;> trivial

theorem unticked_dispatch {creds : ResolvedCredentials} :
    (dispatch socketDir origin exec creds cancel).Uses ExecOp.unticked :=
  ⟨trivial, fun _ => (uses_internal (uses_runExecutor ..)).mono fun _ => unticked_of_internal⟩

theorem unticked_resolveEager (refs : List CredentialRef) :
    (Credential.resolveEager origin refs).Uses ExecOp.unticked :=
  (uses_resolveEager refs).mono fun _ => unticked_of_internal

theorem unticked_executeOneshot :
    (executeOneshot socketDir origin exec cancel).Uses ExecOp.unticked := by
  apply (unticked_resolveEager _).bind
  intro resolved
  cases resolved with
  | error e => exact (uses_internal (uses_timedResult ..)).mono fun _ => unticked_of_internal
  | ok creds => exact unticked_dispatch

theorem checked_internal {α : Type} {post : α → Prop} {p : Prog ExecSig α}
    (h : p.Yields assume post) (huses : p.Uses (ExecOp.internal origin)) :
    p.Ensures assume (Monitor.checking (TickOf assume exec)) (fun value _ => post value) () :=
  h.checked huses fun _ _ hop => tickOf_unticked (unticked_of_internal hop)

theorem checked_recordTick {n : Nat} {result : TaskResult}
    (h : ResultOf assume exec (.tick n) result) :
    (Continuous.recordTick n result).Ensures assume (Monitor.checking (TickOf assume exec))
      (fun _ _ => True) () := by
  intro ans _
  have hcall : TickOf assume exec ⟨.recordTick n (Continuous.tickRow result), ans⟩ :=
    ⟨result, rfl, h⟩
  exact ⟨(), Monitor.checking_of_good hcall (), trivial⟩

theorem checked_tick {n : Nat} :
    (Continuous.tick socketDir exec cancel n).Ensures assume
      (Monitor.checking (TickOf assume exec))
      (fun result _ => ResultOf assume exec (.tick n) result) () := by
  have hrecord (result : TaskResult) (hresult : ResultOf assume exec (.tick n) result) :
      (Continuous.recordTick n result >>= fun _ => pure result).Ensures assume
        (Monitor.checking (TickOf assume exec))
        (fun result _ => ResultOf assume exec (.tick n) result) () :=
    (checked_recordTick hresult).bind fun _ _ _ => hresult
  apply (checked_internal (Prog.yields_any _) (uses_resolveEager _)).bind
  intro resolved _ _
  cases resolved with
  | error e =>
      apply (checked_internal (p := elapsed (.tick n) .unresolved) (Prog.yields_any _)
        ⟨rfl, fun _ => trivial⟩).bind
      intro time _ _
      have hfailed : (makeResult (.tick n) exec.id .failed none "" e.toString time
          (some e.toString)).Yields assume (ResultOf assume exec (.tick n)) :=
        yields_makeResult rfl
      apply (checked_internal hfailed (uses_internal (uses_makeResult ..))).bind
      intro result _ hresult
      exact hrecord result hresult
  | ok creds =>
      apply (yields_dispatch.checked unticked_dispatch fun _ _ => tickOf_unticked).bind
      intro result _ hresult
      exact hrecord result hresult

/-- A result of one of the executions of a task. -/
def Reports (assume : Event ExecSig → Prop) (exec : ExecTask) (result : TaskResult) : Prop :=
  ∃ origin, ResultOf assume exec origin result

theorem checked_loop (fuel n : Nat) {lastResult : TaskResult}
    (hlast : Reports assume exec lastResult) :
    (Continuous.loop socketDir exec cancel shutdown fuel n lastResult).Ensures assume
      (Monitor.checking (TickOf assume exec)) (fun result _ => Reports assume exec result)
      () := by
  induction fuel generalizing n lastResult with
  | zero => trivial
  | succ fuel ih =>
      intro wake _
      refine ⟨(), Monitor.checking_of_good trivial (), ?_⟩
      cases wake with
      | cancelled =>
          have hcancelled : (makeResult (.tick n) exec.id .cancelled none "" "" 0 none).Yields
              assume (Reports assume exec) :=
            (yields_makeResult rfl).mono fun result hresult => ⟨.tick n, hresult⟩
          exact checked_internal hcancelled (uses_internal (uses_makeResult ..))
      | shutdown => exact hlast
      | slept =>
          apply checked_tick.bind
          intro result _ hresult
          exact ih (n + 1) ⟨.tick n, hresult⟩

theorem checked_executeExec {fuel : Nat} :
    (executeExec socketDir exec cancel shutdown fuel).Ensures assume
      (Monitor.checking (TickOf assume exec)) (fun result _ => Reports assume exec result)
      () := by
  unfold executeExec
  cases exec.kind with
  | oneshot =>
      have hyields : (executeOneshot socketDir .exec exec cancel).Yields assume
          (Reports assume exec) :=
        yields_executeOneshot.mono fun result hresult => ⟨.exec, hresult⟩
      exact hyields.checked unticked_executeOneshot fun _ _ => tickOf_unticked
  | continuous =>
      have hfirst : (makeResult .exec exec.id .success none "" "" 0 none).Yields assume
          (ResultOf assume exec .exec) :=
        yields_makeResult rfl
      apply (checked_internal hfirst (uses_internal (uses_makeResult ..))).bind
      intro result _ hresult
      exact checked_loop fuel 0 ⟨.exec, hresult⟩

end Tasks

/-! ## Chains -/

section Chains

variable {assume : Event ExecSig → Prop} {socketDir : String} {chain : TaskChain}
  {cancel : Token}

/-- A result of a step of the chain, with the labels of the step. -/
def StepReports (assume : Event ExecSig → Prop) (chain : TaskChain) (result : TaskResult) :
    Prop :=
  ∃ idx step, chain.steps[idx]? = some step ∧
    ResultOf assume step.task (.step idx) result ∧
    result.chainId = some chain.id ∧ result.stepIndex = some (idx % 2 ^ 32)

theorem stepReports_label {idx : Nat} {step : ChainStep} {result : TaskResult}
    (hstep : chain.steps[idx]? = some step)
    (h : ResultOf assume step.task (.step idx) result) :
    StepReports assume chain (Chain.label chain idx result) :=
  ⟨idx, step, hstep, ⟨h.taskId, h.quiet, h.loud, h.exitCode, h.forward⟩, rfl, rfl⟩

theorem yields_stepReports (idx : Nat) (steps : List ChainStep) (results : List TaskResult)
    (hsteps : chain.steps.drop idx = steps)
    (hresults : ∀ result ∈ results, StepReports assume chain result) :
    (Chain.executeFrom socketDir chain cancel idx steps results).Yields assume
      fun all => ∀ result ∈ all, StepReports assume chain result := by
  induction steps generalizing idx results with
  | nil => exact fun _ _ => hresults
  | cons step rest ih =>
      have hstep : chain.steps[idx]? = some step := by
        rw [← List.head?_drop, hsteps]
        rfl
      have hrest : chain.steps.drop (idx + 1) = rest := by
        rw [← List.tail_drop, hsteps]
        rfl
      have hlast (result : TaskResult) (h : ResultOf assume step.task (.step idx) result) :
          ∀ other ∈ results ++ [Chain.label chain idx result],
            StepReports assume chain other := by
        simp only [List.forall_mem_append, List.forall_mem_singleton]
        exact ⟨hresults, stepReports_label hstep h⟩
      intro seen _
      cases seen with
      | true => exact fun _ _ => hresults
      | false =>
          apply (Prog.yields_any (Credential.resolveEager ..)).bind
          intro resolved _
          cases resolved with
          | error e =>
              have hfailed : (makeResult (.step idx) step.task.id .failed none "" e.toString 0
                  (some e.toString)).Yields assume (ResultOf assume step.task (.step idx)) :=
                yields_makeResult rfl
              apply hfailed.bind
              intro result hresult
              exact (Prog.yields_any _).bind fun _ _ => hlast result hresult
          | ok creds =>
              apply yields_dispatch.bind
              intro result hresult
              split
              · exact ih (idx + 1) _ hrest (hlast result hresult)
              · exact (Prog.yields_any _).bind fun _ _ => hlast result hresult

theorem unticked_rollbackLoop (idxs : List Nat) :
    (Chain.rollbackLoop socketDir chain cancel idxs).Uses ExecOp.unticked := by
  induction idxs with
  | nil => trivial
  | cons idx rest ih =>
      apply Prog.Uses.bind _ fun _ => ih
      unfold Chain.rollbackStep
      split
      · trivial
      · apply (unticked_resolveEager _).bind
        intro resolved
        cases resolved with
        | error e => trivial
        | ok creds => exact unticked_dispatch.bind fun _ => trivial

theorem unticked_executeFrom (idx : Nat) (steps : List ChainStep) (results : List TaskResult) :
    (Chain.executeFrom socketDir chain cancel idx steps results).Uses ExecOp.unticked := by
  have hrollbacks (failed : Nat) (all : List TaskResult) :
      (Chain.runRollbacks socketDir chain failed cancel >>= fun _ => pure all).Uses
        ExecOp.unticked :=
    Prog.Uses.bind ⟨trivial, fun _ => unticked_rollbackLoop _⟩ fun _ => trivial
  induction steps generalizing idx results with
  | nil => exact ⟨trivial, fun _ => trivial⟩
  | cons step rest ih =>
      refine ⟨trivial, fun seen => ?_⟩
      cases seen with
      | true => exact ⟨trivial, fun _ => trivial⟩
      | false =>
          apply (unticked_resolveEager _).bind
          intro resolved
          cases resolved with
          | error e =>
              apply ((uses_internal (uses_makeResult ..)).mono fun _ => unticked_of_internal).bind
              exact fun result => hrollbacks idx _
          | ok creds =>
              apply unticked_dispatch.bind
              intro result
              split
              · exact ih (idx + 1) _
              · exact hrollbacks idx _

theorem yields_chain :
    (Chain.execute socketDir chain cancel).Yields assume
      fun all => ∀ result ∈ all, StepReports assume chain result :=
  fun _ _ => yields_stepReports 0 chain.steps [] rfl (by simp)

theorem unticked_chain : (Chain.execute socketDir chain cancel).Uses ExecOp.unticked :=
  ⟨trivial, fun _ => unticked_executeFrom 0 chain.steps []⟩

theorem unticked_routeTask (task : Task) : (routeTask task).Uses ExecOp.unticked := by
  have hresult (taskId : Uuid) (status : TaskResultStatus) (exitCode : Option Int)
      (stdout stderr : String) (error : Option String) :
      (elapsed .exec .result >>= fun time =>
        makeResult .exec taskId status exitCode stdout stderr time error).Uses
        ExecOp.unticked :=
    (uses_internal (uses_timedResult ..)).mono fun _ => unticked_of_internal
  cases task with
  | selfUpgrade upgrade =>
      refine ⟨trivial, fun ans => ?_⟩
      cases ans with
      | ok _ => exact hresult ..
      | error e => exact hresult ..
  | _ => exact hresult ..

end Chains

end VasalAgent.Task
