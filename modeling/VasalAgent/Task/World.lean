import VasalAgent.Task.Internal

/-!
# Outcome oracles

A `World` fixes the outcome of every call an execution can make, and the
moments at which each cancellation token is seen cancelled.  Since a call names
its place, fixing the outcome by place loses no behaviour of a chain.  The
clock is one on which sleeping takes its time, so every poll loop ends.
-/

namespace VasalAgent.Task

open VasalAgent.Async
open VasalAgent.Protocol

/-- The moments of a chain execution at which its token matters. -/
inductive Moment where
  | head (idx : Nat)
  | handover (origin : Origin)
  deriving DecidableEq, Repr

/-- Steps run upwards, rollbacks after them and downwards. -/
def Moment.le : Moment → Moment → Prop
  | .head i, .head j => i ≤ j
  | .head i, .handover (.step j) => i ≤ j
  | .head _, .handover (.rollback _) => True
  | .handover (.step i), .head j => i < j
  | .handover (.step i), .handover (.step j) => i ≤ j
  | .handover (.step _), .handover (.rollback _) => True
  | .handover (.rollback i), .handover (.rollback j) => j ≤ i
  | _, _ => False

structure World where
  resolveOne : Origin → Nat → CredentialRef → Except Error String
  spawnShell : Origin → Command → Except String Unit
  wakeShell : Origin → ShellWake
  output : Origin → Stream → List UInt8
  spillPath : Origin → Stream → String
  connect : Origin → CallSite → Except String Unit
  sendFrame : Origin → CallSite → Except String Unit
  nextFrame : Origin → CallSite → FrameAnswer
  wakePoll : Origin → Nat → PollWake
  wakeTick : Nat → TickWake
  elapsed : Origin → ClockSite → Nat
  nowMs : Origin → Int
  recordTick : Nat → Except String Unit
  selfUpgrade : Except Error Unit
  /-- Whether the token with this root is cancelled at a moment. -/
  cancelled : Nat → Moment → Bool
  elapsed_poll : ∀ origin pollIndex,
    Sidecar.pollDelaySum pollIndex * nanosPerMilli ≤
      elapsed origin (.poll pollIndex)
  cancelled_mono : ∀ id {first later : Moment}, first.le later →
    cancelled id first = true → cancelled id later = true

namespace World

variable (W : World)

def tokenCancelled (moment : Moment) (token : Token) : Bool :=
  token.isCancelled fun id => W.cancelled id moment

@[simp] theorem tokenCancelled_child (moment : Moment) (parent : Token) :
    W.tokenCancelled moment (.child parent) = W.tokenCancelled moment parent := rfl

theorem tokenCancelled_mono {first later : Moment} (h : first.le later)
    {token : Token} (hc : W.tokenCancelled first token = true) :
    W.tokenCancelled later token = true := by
  induction token with
  | root id => exact W.cancelled_mono id h hc
  | child parent ih => exact ih hc

def oracle : (op : ExecOp) → op.Ans
  | .resolveOne origin index ref => W.resolveOne origin index ref
  | .enter .. => ()
  | .spawnShell origin command => W.spawnShell origin command
  | .selectShell origin .. => W.wakeShell origin
  | .killWait _ => ()
  | .joinOutput origin stream => W.output origin stream
  | .spill origin stream _ => W.spillPath origin stream
  | .connect origin site _ => W.connect origin site
  | .sendFrame origin site _ => W.sendFrame origin site
  | .nextFrame origin site => W.nextFrame origin site
  | .selectPoll origin pollIndex .. => W.wakePoll origin pollIndex
  | .elapsed origin site => W.elapsed origin site
  | .nowMs origin => W.nowMs origin
  | .isCancelled idx token => W.tokenCancelled (.head idx) token
  | .selectTick n .. => W.wakeTick n
  | .recordTick n _ => W.recordTick n
  | .audit .. => ()
  | .selfUpgrade .. => W.selfUpgrade

/-! ## Programs that return -/

def Returns {α : Type} (p : Prog ExecSig α) : Prop :=
  ∃ value, p.run W.oracle = some value

section Returns

variable {W}

theorem Returns.ret {α : Type} (value : α) :
    W.Returns (.ret value : Prog ExecSig α) := ⟨value, rfl⟩

theorem Returns.bind_value {α β : Type} {p : Prog ExecSig α}
    {rest : α → Prog ExecSig β} {value : α}
    (first : p.run W.oracle = some value) (second : W.Returns (rest value)) :
    W.Returns (p >>= rest) := by
  obtain ⟨result, hresult⟩ := second
  exact ⟨result, by rw [Prog.run_bind, first, Option.bind_some, hresult]⟩

theorem Returns.bind {α β : Type} {p : Prog ExecSig α}
    {rest : α → Prog ExecSig β} (first : W.Returns p)
    (second : ∀ value, W.Returns (rest value)) : W.Returns (p >>= rest) := by
  obtain ⟨value, hvalue⟩ := first
  exact .bind_value hvalue (second value)

theorem Returns.await {α : Type} {op : ExecOp} {rest : op.Ans → Prog ExecSig α}
    (h : ∀ ans, W.Returns (rest ans)) : W.Returns (await op >>= rest) :=
  h (W.oracle op)

end Returns

theorem returns_makeResult (origin : Origin) (taskId : Uuid)
    (status : TaskResultStatus) (exitCode : Option Int) (stdout stderr : String)
    (time : Nat) (error : Option String) :
    W.Returns (makeResult origin taskId status exitCode stdout stderr time error) :=
  ⟨_, rfl⟩

theorem returns_timedResult (origin : Origin) (site : ClockSite) (taskId : Uuid)
    (status : TaskResultStatus) (exitCode : Option Int) (stdout stderr : String)
    (error : Option String) :
    W.Returns (Task.elapsed origin site >>= fun time =>
      makeResult origin taskId status exitCode stdout stderr time error) :=
  ⟨_, rfl⟩

theorem returns_resolveEager (origin : Origin) (refs : List CredentialRef) :
    W.Returns (Credential.resolveEager origin refs) := by
  unfold Credential.resolveEager
  generalize 0 = index
  generalize ([] : ResolvedCredentials) = creds
  induction refs generalizing index creds with
  | nil => exact .ret _
  | cons ref rest ih =>
      rw [Credential.resolveFrom]
      cases ref.resolve with
      | lazy => exact ih _ _
      | eager =>
          refine Returns.await fun ans => ?_
          cases ans with
          | error e => exact .ret _
          | ok value => exact ih _ _

theorem returns_truncateOutput (origin : Origin) (stream : Stream)
    (bytes : List UInt8) :
    W.Returns (Shell.truncateOutput origin stream bytes) := by
  unfold Shell.truncateOutput
  split
  · exact .ret _
  · exact ⟨_, rfl⟩

theorem returns_shell (origin : Origin) (exec : ExecTask)
    (creds : ResolvedCredentials) (cancel : Token) :
    W.Returns (Shell.execute origin exec creds cancel) := by
  unfold Shell.execute
  split
  · exact W.returns_timedResult ..
  · refine Returns.await fun started => ?_
    cases started with
    | error e => exact W.returns_timedResult ..
    | ok _ =>
        refine Returns.await fun wake => ?_
        cases wake with
        | cancelled => exact Returns.await fun _ => W.returns_timedResult ..
        | timedOut => exact Returns.await fun _ => W.returns_timedResult ..
        | exited status =>
            cases status with
            | error e => exact W.returns_timedResult ..
            | ok status =>
                refine Returns.await fun stdoutBytes => ?_
                refine Returns.await fun stderrBytes => ?_
                refine (W.returns_truncateOutput ..).bind fun stdout => ?_
                refine (W.returns_truncateOutput ..).bind fun stderr => ?_
                exact W.returns_timedResult ..

theorem returns_callRaw (origin : Origin) (site : CallSite)
    (socketPath method : String) (params : Option Json) :
    W.Returns (Sidecar.callRaw origin site socketPath method params) := by
  refine Returns.await fun connected => ?_
  cases connected with
  | error e => exact .ret _
  | ok _ =>
      refine Returns.await fun sent => ?_
      cases sent with
      | error e => exact .ret _
      | ok _ =>
          refine Returns.await fun frame => ?_
          rcases frame with _ | _ | _ | _ <;> exact .ret _

theorem returns_stopPolling (origin : Origin) (agentTaskId : Uuid)
    (sidecarTaskId socketPath : String) (status : TaskResultStatus)
    (error : Option String) :
    W.Returns (Sidecar.stopPolling origin agentTaskId sidecarTaskId socketPath
      status error) :=
  (W.returns_callRaw ..).bind fun _ => W.returns_timedResult ..

theorem returns_statusResult {origin : Origin} {agentTaskId : Uuid}
    {response : Response} {done : Prog ExecSig TaskResult}
    (h : Sidecar.statusResult origin agentTaskId response = some done) :
    W.Returns done := by
  unfold Sidecar.statusResult at h
  split at h
  · cases h
    exact W.returns_timedResult ..
  · split at h <;> cases h <;> exact W.returns_timedResult ..

theorem returns_pollSleep (origin : Origin) (cancel : Token) (pollIndex : Nat) :
    W.Returns (Sidecar.pollSleep origin cancel pollIndex) := by
  unfold Sidecar.pollSleep
  split
  · exact ⟨_, rfl⟩
  · exact .ret _

theorem pollDelay_ge (pollIndex : Nat) : 100 ≤ Sidecar.pollDelay (pollIndex + 1) := by
  rcases pollIndex with _ | _ | _ | _ | pollIndex <;>
    simp [Sidecar.pollDelay, Sidecar.pollDelaysMs]

theorem pollDelaySum_ge (pollIndex : Nat) :
    100 * pollIndex ≤ Sidecar.pollDelaySum (pollIndex + 1) := by
  induction pollIndex with
  | zero => simp
  | succ pollIndex ih =>
      have hdelay := pollDelay_ge pollIndex
      rw [Sidecar.pollDelaySum]
      omega

/--
The poll loop returns when its fuel reaches the iteration at whose head the
timeout has certainly elapsed.
-/
theorem returns_pollFrom (origin : Origin) (agentTaskId : Uuid)
    (sidecarTaskId socketPath : String) (timeoutMs : Nat) (cancel : Token)
    (fuel pollIndex : Nat)
    (hfuel : timeoutMs + 100 ≤ 100 * (fuel + pollIndex)) :
    W.Returns (Sidecar.pollFrom origin agentTaskId sidecarTaskId socketPath
      timeoutMs cancel (fuel + 1) pollIndex) := by
  induction fuel generalizing pollIndex with
  | zero =>
      obtain ⟨previous, rfl⟩ : ∃ previous, pollIndex = previous + 1 :=
        ⟨pollIndex - 1, by omega⟩
      have hslept := W.elapsed_poll origin (previous + 1)
      have hsum := pollDelaySum_ge previous
      have hover : timeoutMs * nanosPerMilli ≤
          W.elapsed origin (.poll (previous + 1)) :=
        Nat.le_trans (Nat.mul_le_mul_right _ (by omega)) hslept
      have hclock : (Task.elapsed origin (.poll (previous + 1))).run W.oracle =
          some (W.elapsed origin (.poll (previous + 1))) := rfl
      refine Returns.bind_value hclock ?_
      rw [if_pos hover]
      exact W.returns_stopPolling ..
  | succ fuel ih =>
      have hnext := ih (pollIndex + 1) (by omega)
      refine Returns.bind (p := Task.elapsed origin (.poll pollIndex)) ⟨_, rfl⟩
        fun time => ?_
      split
      · exact W.returns_stopPolling ..
      · refine (W.returns_pollSleep ..).bind fun wake => ?_
        cases wake with
        | cancelled => exact W.returns_stopPolling ..
        | slept =>
            refine (W.returns_callRaw ..).bind fun answer => ?_
            cases answer with
            | error e => exact hnext
            | ok response =>
                cases hdone : Sidecar.statusResult origin agentTaskId response with
                | none => simpa only [hdone] using hnext
                | some done => simpa only [hdone] using W.returns_statusResult hdone

theorem returns_sidecar (origin : Origin) (taskId : Uuid) (target method : String)
    (payload : Json) (credRefs : List CredentialRef)
    (resolvedCreds : ResolvedCredentials) (timeoutMs : Nat) (socketDir : String)
    (cancel : Token) :
    W.Returns (Sidecar.execute origin taskId target method payload credRefs
      resolvedCreds timeoutMs socketDir cancel) := by
  refine (W.returns_callRaw ..).bind fun answer => ?_
  cases answer with
  | error e => exact W.returns_timedResult ..
  | ok response =>
      change W.Returns (Sidecar.submitted ..)
      unfold Sidecar.submitted
      split
      · exact W.returns_timedResult ..
      · dsimp only
        split
        · exact W.returns_timedResult ..
        · exact W.returns_timedResult ..
        · exact W.returns_timedResult ..
        · exact W.returns_pollFrom _ _ _ _ _ _ (timeoutMs / 100 + 2) 0 (by omega)

theorem returns_dispatch (socketDir : String) (origin : Origin) (exec : ExecTask)
    (creds : ResolvedCredentials) (cancel : Token) :
    W.Returns (dispatch socketDir origin exec creds cancel) := by
  refine Returns.await fun _ => ?_
  unfold runExecutor
  cases exec.executor with
  | shell => exact W.returns_shell ..
  | sidecar => exact W.returns_sidecar ..

/-! ## The token does not reach the oracle -/

theorem run_pollFrom_token (origin : Origin) (agentTaskId : Uuid)
    (sidecarTaskId socketPath : String) (timeoutMs : Nat) (first second : Token)
    (fuel pollIndex : Nat) :
    (Sidecar.pollFrom origin agentTaskId sidecarTaskId socketPath timeoutMs first
      fuel pollIndex).run W.oracle =
    (Sidecar.pollFrom origin agentTaskId sidecarTaskId socketPath timeoutMs second
      fuel pollIndex).run W.oracle := by
  induction fuel generalizing pollIndex with
  | zero => rfl
  | succ fuel ih =>
      have hsleep : (Sidecar.pollSleep origin first pollIndex).run W.oracle =
          (Sidecar.pollSleep origin second pollIndex).run W.oracle := by
        unfold Sidecar.pollSleep
        split <;> rfl
      rw [Sidecar.pollFrom, Sidecar.pollFrom, Prog.run_bind, Prog.run_bind]
      congr 1
      funext time
      split
      · rfl
      · rw [Prog.run_bind, Prog.run_bind, hsleep]
        congr 1
        funext wake
        cases wake with
        | cancelled => rfl
        | slept =>
            rw [Prog.run_bind, Prog.run_bind]
            congr 1
            funext answer
            cases answer with
            | error e => exact ih _
            | ok response =>
                cases hdone : Sidecar.statusResult origin agentTaskId response with
                | none => simpa only [hdone] using ih _
                | some done => simp only [hdone]

theorem run_supervise_token (origin : Origin) (exec : ExecTask)
    (first second : Token) :
    (Shell.supervise origin exec first).run W.oracle =
      (Shell.supervise origin exec second).run W.oracle := by
  have hawoken (token : Token) :
      (Shell.supervise origin exec token).run W.oracle =
        (Shell.awoken origin exec (W.wakeShell origin)).run W.oracle := rfl
  rw [hawoken, hawoken]

theorem run_dispatch_token (socketDir : String) (origin : Origin)
    (exec : ExecTask) (creds : ResolvedCredentials) (first second : Token) :
    (dispatch socketDir origin exec creds first).run W.oracle =
      (dispatch socketDir origin exec creds second).run W.oracle := by
  rw [dispatch_eq, dispatch_eq, Prog.run_call, Prog.run_call]
  unfold runExecutor
  cases exec.executor with
  | shell =>
      dsimp only
      unfold Shell.execute
      split
      · rfl
      · rw [Prog.run_bind, Prog.run_bind]
        congr 1
        funext started
        cases started with
        | error e => rfl
        | ok _ => exact W.run_supervise_token ..
  | sidecar =>
      dsimp only
      unfold Sidecar.execute
      rw [Prog.run_bind, Prog.run_bind]
      congr 1
      funext answer
      cases answer with
      | error e => rfl
      | ok response =>
          dsimp only
          unfold Sidecar.submitted
          split
          · rfl
          · dsimp only
            split
            · rfl
            · rfl
            · rfl
            · exact W.run_pollFrom_token ..

end World

end VasalAgent.Task
