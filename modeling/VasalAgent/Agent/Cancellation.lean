import VasalAgent.Agent.Registration
import VasalAgent.Async.Guard

/-!
# Starts after a cancel

The executors look at their token at few places: a chain at the head of each
iteration, a continuous task between two ticks, a one-shot task never before it
starts.  A cancel that lands while a future can still start something before it
looks again comes too late; apart from that nothing is started after it.
-/

namespace VasalAgent.Agent

open VasalAgent.Async
open VasalAgent.Protocol
open VasalAgent.Task
open VasalAgent.Transport

/-! ## The guard -/

def isForward : Origin → Prop
  | .rollback _ => False
  | _ => True

/-- The spawn of a shell and the submission to a sidecar, rollbacks excepted. -/
def startsExec : ExecOp → Prop
  | .spawnShell origin _ => isForward origin
  | .sendFrame origin .submit _ => isForward origin
  | _ => False

def starts : AgentOp → Prop
  | .exec op => startsExec op
  | _ => False

/-- The token is looked at by a chain before a step and between two ticks. -/
def cancelGuard (token : Token) : Guard ExecSig where
  start := startsExec
  check
    | .isCancelled _ looked => looked = token
    | .selectTick _ looked _ _ => looked = token
    | _ => False
  stop
    | .isCancelled _ _, seen => seen = true
    | .selectTick .., wake => wake = .cancelled
    | _, _ => False

def agentGuard (n : Nat) : Guard AgentSig where
  start := starts
  check
    | .exec op => (cancelGuard (taskToken n)).check op
    | _ => False
  stop
    | .exec op, ans => (cancelGuard (taskToken n)).stop op ans
    | _, _ => False

/-! ## Executors keep to it -/

section Executors

variable {token : Token} {origin : Origin} {α : Type}

abbrev Unchecked (token : Token) (p : Prog ExecSig α) : Prop :=
  p.Uses fun op => ¬ (cancelGuard token).check op

theorem unchecked_attempt {p : Prog ExecSig α} (h : p.Uses ExecOp.isAttempt) :
    Unchecked token p := by
  refine h.mono fun op hop hcheck => ?_
  cases op <;> first | exact hop | exact hcheck

theorem unchecked_internal {p : Prog ExecSig α} (h : p.Uses (ExecOp.internal origin)) :
    Unchecked token p :=
  unchecked_attempt (uses_attempt h)

theorem unchecked_rollbackStep (socketDir : String) (chain : TaskChain)
    (cancel : Token) (idx : Nat) :
    Unchecked token (Chain.rollbackStep socketDir chain cancel idx) := by
  unfold Chain.rollbackStep
  split
  · trivial
  · refine (unchecked_internal (uses_resolveEager _)).bind fun resolved => ?_
    cases resolved with
    | error e => trivial
    | ok creds => exact (unchecked_attempt (uses_dispatch ..)).bind fun _ => trivial

theorem unchecked_abort (socketDir : String) (chain : TaskChain) (cancel : Token)
    (idx : Nat) (results : List TaskResult) :
    Unchecked token (Chain.abort socketDir chain cancel idx results) := by
  have hloop (indices : List Nat) :
      Unchecked token (Chain.rollbackLoop socketDir chain cancel indices) := by
    induction indices with
    | nil => trivial
    | cons idx rest ih => exact (unchecked_rollbackStep ..).bind fun _ => ih
  have hrollbacks : Unchecked token (Chain.runRollbacks socketDir chain idx cancel) :=
    ⟨id, fun _ => hloop _⟩
  exact hrollbacks.bind fun _ => trivial

theorem unchecked_step (socketDir : String) (cancel : Token) (idx : Nat)
    (step : ChainStep) :
    Unchecked token (Chain.attempt socketDir cancel idx step) := by
  refine (unchecked_internal (uses_resolveEager _)).bind fun resolved => ?_
  cases resolved with
  | error e => exact unchecked_internal (uses_internal (uses_makeResult ..))
  | ok creds => exact unchecked_attempt (uses_dispatch ..)

theorem quiet_makeResult (origin : Origin) (taskId : Uuid) (status : TaskResultStatus)
    (exitCode : Option Int) (stdout stderr : String) (time : Nat)
    (error : Option String) :
    (cancelGuard token).Quiet
      (makeResult origin taskId status exitCode stdout stderr time error) :=
  ⟨id, fun _ => trivial⟩

theorem guarded_loop (socketDir : String) (exec : ExecTask) (shutdown : Token)
    (fuel n : Nat) (lastResult : TaskResult) :
    (cancelGuard token).Guarded
      (Continuous.loop socketDir exec token shutdown fuel n lastResult) := by
  induction fuel generalizing n lastResult with
  | zero => trivial
  | succ fuel ih =>
      refine Guard.guarded_check (fun wake hstop => ?_) (fun wake _ => ?_)
      · obtain rfl : wake = .cancelled := hstop
        exact quiet_makeResult ..
      · cases wake with
        | cancelled => exact Guard.guarded_of_quiet (quiet_makeResult ..)
        | shutdown => trivial
        | slept =>
            exact Guard.guarded_bind (unchecked_attempt (uses_tick ..)) fun result => ih _ _

theorem guarded_exec (socketDir : String) (exec : ExecTask) (shutdown : Token)
    (fuel : Nat) :
    (cancelGuard token).Guarded (executeExec socketDir exec token shutdown fuel) := by
  unfold executeExec
  cases exec.kind with
  | oneshot => exact Guard.guarded_of_unchecked (unchecked_attempt (uses_oneshot ..))
  | continuous =>
      exact Guard.guarded_bind (unchecked_internal (uses_internal (uses_makeResult ..)))
        fun _ => guarded_loop ..

theorem quiet_complete (chain : TaskChain) (results : List TaskResult) :
    (cancelGuard token).Quiet (Chain.complete chain results) :=
  ⟨id, fun _ => trivial⟩

theorem guarded_executeFrom (socketDir : String) (chain : TaskChain) (idx : Nat)
    (steps : List ChainStep) (results : List TaskResult) :
    (cancelGuard token).Guarded
      (Chain.executeFrom socketDir chain token idx steps results) := by
  induction steps generalizing idx results with
  | nil => exact Guard.guarded_of_quiet (quiet_complete ..)
  | cons step rest ih =>
      rw [Chain.executeFrom_cons]
      refine Guard.guarded_check (fun seen hstop => ?_) (fun seen hgo => ?_)
      · obtain rfl : seen = true := hstop
        exact quiet_complete ..
      · obtain rfl : seen = false := Bool.eq_false_iff.mpr hgo
        refine Guard.guarded_bind (unchecked_step ..) fun result => ?_
        split
        · exact ih _ _
        · exact Guard.guarded_of_unchecked (unchecked_abort ..)

theorem guarded_chain (socketDir : String) (chain : TaskChain) :
    (cancelGuard token).Guarded (Chain.execute socketDir chain token) :=
  ⟨fun _ => guarded_executeFrom .., fun hcheck => hcheck.elim⟩

end Executors

/-! ## Futures keep to it -/

section Futures

variable {n : Nat} {α : Type}

theorem quiet_lift {p : Prog ExecSig α} (h : (cancelGuard (taskToken n)).Quiet p) :
    (agentGuard n).Quiet (lift p) := by
  induction p with
  | ret value => trivial
  | call op next ih => exact ⟨h.1, fun ans => ih ans (h.2 ans)⟩
  | hang => trivial

theorem guarded_lift {p : Prog ExecSig α} (h : (cancelGuard (taskToken n)).Guarded p) :
    (agentGuard n).Guarded (lift p) := by
  induction p with
  | ret value => trivial
  | call op next ih =>
      exact ⟨fun ans => ih ans (h.1 ans),
        fun hcheck ans hstop => quiet_lift (h.2 hcheck ans hstop)⟩
  | hang => trivial

theorem quiet_journal (result : TaskResult) :
    (agentGuard n).Quiet (TaskManager.journal result) :=
  ⟨id, fun _ => trivial⟩

theorem quiet_send (m : TaskManager) (result : TaskResult) :
    (agentGuard n).Quiet (m.send result) := by
  unfold TaskManager.send
  split
  · exact ⟨id, fun _ => trivial⟩
  · trivial

theorem quiet_deregister (id : Uuid) :
    (agentGuard n).Quiet (TaskManager.deregister id) :=
  ⟨fun h => h, fun _ => ⟨fun h => h, fun _ => trivial⟩⟩

theorem quiet_report (m : TaskManager) (results : List TaskResult) :
    (agentGuard n).Quiet (m.report results) := by
  induction results with
  | nil => trivial
  | cons result rest ih =>
      exact (quiet_journal result).bind fun _ => (quiet_send m result).bind fun _ => ih

theorem quiet_routeTask (task : Protocol.Task) :
    (cancelGuard (taskToken n)).Quiet (routeTask task) := by
  have htimed (taskId : Uuid) (status : TaskResultStatus) (stdout stderr : String)
      (error : Option String) :
      (cancelGuard (taskToken n)).Quiet (Task.elapsed .exec .result >>= fun time =>
        makeResult .exec taskId status none stdout stderr time error) :=
    ⟨id, fun _ => quiet_makeResult ..⟩
  cases task with
  | install _ | upgrade _ | remove _ | exec _ | cancel _ => exact htimed ..
  | selfUpgrade upgrade =>
      refine ⟨id, fun ans => ?_⟩
      cases ans with
      | ok _ => exact htimed ..
      | error e => exact htimed ..

theorem guarded_runBody (m : TaskManager) (body : Body) :
    (agentGuard body.cancelToken).Guarded (m.runBody body) := by
  cases body with
  | exec exec token =>
      refine ⟨fun _ => ?_, fun hcheck => hcheck.elim⟩
      refine (guarded_lift (guarded_exec ..)).bind_quiet fun result => ?_
      refine (quiet_journal result).bind fun _ => ?_
      refine Prog.Uses.bind (p := audit ..) ⟨id, fun _ => trivial⟩ fun _ => ?_
      refine (quiet_send m result).bind fun _ => ?_
      exact (quiet_deregister exec.id).bind fun _ => ⟨id, fun _ => trivial⟩
  | routed task token =>
      refine (guarded_lift (Guard.guarded_of_quiet (quiet_routeTask task))).bind_quiet
        fun result => ?_
      refine (quiet_journal result).bind fun _ => ?_
      exact (quiet_send m result).bind fun _ => quiet_deregister task.id
  | chain chain token =>
      refine ⟨fun _ => ?_, fun hcheck => hcheck.elim⟩
      refine (guarded_lift (guarded_chain ..)).bind_quiet fun results => ?_
      refine (quiet_report m results).bind fun _ => ?_
      exact (quiet_deregister chain.id).bind fun _ => ⟨id, fun _ => trivial⟩

end Futures

/-! ## What a stopped future reports -/

section Reports

variable {token : Token}

/-- The submission fails when it must not be sent. -/
theorem callRaw_heeds (socketPath method : String) (params : Option Json) :
    (Sidecar.callRaw .exec .submit socketPath method params).Yields
      (cancelGuard token).Heeds fun answer => ∃ e, answer = .error e := by
  refine fun connected _ => ?_
  cases connected with
  | error e => exact ⟨_, rfl⟩
  | ok _ => exact fun _ hheeds => absurd trivial hheeds.1

theorem oneshot_heeds (socketDir : String) (exec : ExecTask) :
    (executeOneshot socketDir .exec exec token).Yields (cancelGuard token).Heeds
      fun result => result.status ≠ .success := by
  have hfailed : TaskResultStatus.failed ≠ .success := by decide
  refine (Prog.yields_any _).bind fun resolved _ => ?_
  cases resolved with
  | error e => exact fun _ _ _ _ => hfailed
  | ok creds =>
      refine fun _ _ => ?_
      change (runExecutor socketDir .exec exec creds token).Yields _ _
      unfold runExecutor
      cases exec.executor with
      | shell =>
          dsimp only
          unfold Shell.execute
          split
          · exact fun _ _ _ _ => hfailed
          · exact fun _ hheeds => absurd trivial hheeds.1
      | sidecar =>
          refine Prog.Yields.bind (callRaw_heeds _ _ _) fun answer hanswer => ?_
          obtain ⟨e, rfl⟩ := hanswer
          exact fun _ _ _ _ => hfailed

theorem continuous_heeds (socketDir : String) (exec : ExecTask) (shutdown : Token)
    (fuel : Nat) :
    (Continuous.run socketDir exec token shutdown fuel).Yields
      (cancelGuard token).Heeds fun result => result.status ≠ .success := by
  refine (Prog.yields_any _).bind fun lastResult _ => ?_
  cases fuel with
  | zero => trivial
  | succ fuel =>
      refine fun wake hheeds => ?_
      obtain rfl : wake = .cancelled := hheeds.2 rfl
      have hcancelled : TaskResultStatus.cancelled ≠ .success := by decide
      exact fun _ _ => hcancelled

theorem chain_heeds (socketDir : String) (chain : TaskChain) :
    (Chain.execute socketDir chain token).Yields (cancelGuard token).Heeds
      fun results => results = [] := by
  refine fun _ _ => ?_
  change (Chain.executeFrom socketDir chain token 0 chain.steps []).Yields _ _
  cases chain.steps with
  | nil => exact fun _ _ => rfl
  | cons step rest =>
      refine fun seen hheeds => ?_
      obtain rfl : seen = true := hheeds.2 rfl
      exact fun _ _ => rfl

def reportsSuccess : Event AgentSig → Bool
  | ⟨.recordTaskResult row, _⟩ => row.status = Continuous.statusText .success
  | ⟨.sendResult result, _⟩ => result.status = .success
  | _ => false

def noSuccess : Monitor AgentSig Unit :=
  fun _ event => if reportsSuccess event then none else some ()

variable {assume : Event AgentSig → Prop} {result : TaskResult}

theorem statusText_ne_success {status : TaskResultStatus} (h : status ≠ .success) :
    Continuous.statusText status ≠ Continuous.statusText .success := by
  cases status with
  | success => exact absurd rfl h
  | _ => decide

theorem journal_noSuccess (h : result.status ≠ .success) :
    (TaskManager.journal result).Ensures assume noSuccess (fun _ q => q = ()) () := by
  have htext : (resultToJournalRow result).status ≠ Continuous.statusText .success :=
    statusText_ne_success h
  exact fun _ _ => ⟨(), by simp [noSuccess, reportsSuccess, htext], rfl⟩

theorem send_noSuccess (m : TaskManager) (h : result.status ≠ .success) :
    (m.send result).Ensures assume noSuccess (fun _ q => q = ()) () := by
  unfold TaskManager.send
  split
  · exact fun _ _ => ⟨(), by simp [noSuccess, reportsSuccess, h], rfl⟩
  · exact rfl

theorem deregister_noSuccess (id : Uuid) :
    (TaskManager.deregister id).Ensures assume noSuccess (fun _ q => q = ()) () :=
  fun _ _ => ⟨(), rfl, fun _ _ => ⟨(), rfl, rfl⟩⟩

theorem runExec_noSuccess (m : TaskManager) (exec : ExecTask) (n : Nat) :
    (m.runExec exec n).Ensures (agentGuard n).Heeds noSuccess (fun _ _ => True) () := by
  have hyields : (executeExec m.socketDir exec (taskToken n) shutdownToken m.ticks).Yields
      (cancelGuard (taskToken n)).Heeds fun result => result.status ≠ .success := by
    unfold executeExec
    cases exec.kind with
    | oneshot => exact oneshot_heeds _ _
    | continuous => exact continuous_heeds _ _ _ _
  refine fun _ _ => ⟨(), rfl, ?_⟩
  refine (lift_ensures_yields (fun _ _ => rfl) hyields).bind fun result _ hresult => ?_
  refine (journal_noSuccess hresult.2).andThen fun _ => ?_
  refine Prog.Ensures.andThen (p := audit ..) (fun _ _ => ⟨(), rfl, rfl⟩) fun _ => ?_
  refine (send_noSuccess m hresult.2).andThen fun _ => ?_
  exact (deregister_noSuccess exec.id).andThen fun _ _ _ => ⟨(), rfl, trivial⟩

theorem runChain_noSuccess (m : TaskManager) (chain : TaskChain) (n : Nat) :
    (m.runChain chain n).Ensures (agentGuard n).Heeds noSuccess (fun _ _ => True) () := by
  refine fun _ _ => ⟨(), rfl, ?_⟩
  have hyields : (Chain.execute m.socketDir chain (taskToken n)).Yields
      (cancelGuard (taskToken n)).Heeds fun results => results = [] := chain_heeds _ _
  refine (lift_ensures_yields (fun _ _ => rfl) hyields).bind fun results _ hresults => ?_
  rw [hresults.2]
  exact (deregister_noSuccess chain.id).andThen fun _ _ _ => ⟨(), rfl, trivial⟩

theorem not_reportsSuccess {events : List (Event AgentSig)} {q : Unit}
    (h : noSuccess.after () events = some q) :
    ∀ event ∈ events, reportsSuccess event = false := by
  induction events with
  | nil => simp
  | cons event rest ih =>
      rw [Monitor.after_cons, noSuccess] at h
      split at h
      next => cases h
      next hevent =>
          intro other hother
          rcases List.mem_cons.mp hother with rfl | hlater
          · exact Bool.eq_false_iff.mpr hevent
          · exact ih h other hlater

end Reports

/-! ## Cancelled tokens -/

/-- `handle_cancel` found the token `n` under `id`. -/
def cancelEvent (id : Uuid) (n : Nat) : Event AgentSig := ⟨.cancelActive id, some n⟩

theorem cancelledToken?_eq_some {event : Event AgentSig} {n : Nat} :
    cancelledToken? event = some n ↔ ∃ id, event = cancelEvent id n := by
  constructor
  · intro h
    obtain ⟨op, ans⟩ := event
    cases op with
    | cancelActive id =>
        obtain rfl : ans = some n := h
        exact ⟨id, rfl⟩
    | _ => cases h
  · rintro ⟨id, rfl⟩
    rfl

theorem taskCancelled_congr {s s' : Shared} (h : s'.cancelled = s.cancelled) :
    s'.taskCancelled = s.taskCancelled := by
  funext n
  rw [Shared.taskCancelled, Shared.taskCancelled, h]

theorem perform_cancelled {agent : AgentConfig} {s s' : Shared} {op : AgentOp}
    {proposal ans : op.Ans} (h : perform agent s op proposal = some (ans, s'))
    (n : Nat) :
    s'.taskCancelled n = true ↔
      s.taskCancelled n = true ∨ ∃ id, (⟨op, ans⟩ : Event AgentSig) = cancelEvent id n := by
  rw [← cancelledToken?_eq_some, Shared.taskCancelled, Shared.taskCancelled,
    (perform_effect h).cancelled]
  simp [or_comm]

/-! ## The policy -/

section Policy

variable {agent : AgentConfig}

/--
A cancel reaches a future only when it is not about to start something, and the
`select!` of a continuous task takes the branch of its cancelled token.
-/
def timelyCancel (agent : AgentConfig) : Policy agent.system where
  start _ _ := True
  fire pool _ event :=
    match event with
    | ⟨.cancelActive _, some n⟩ => ∀ i body rest,
        RunsBody pool i body rest → body.cancelToken = n →
        ¬ (agentGuard n).Armed rest
    | ⟨.spawn body, _⟩ => pool.shared.taskCancelled body.cancelToken = true →
        ¬ (agentGuard body.cancelToken).Armed (agent.manager.runBody body)
    | ⟨.exec (.selectTick _ token _ _), wake⟩ =>
        token.isCancelled pool.shared.isCancelled = true → wake = .cancelled
    | _ => True
  env _ _ := True

theorem stop_of_cancelled {pool : Pool agent.system} {i n : Nat} {op : AgentOp}
    {proposal ans : op.Ans} {shared : Shared}
    (hperform : perform agent pool.shared op proposal = some (ans, shared))
    (allowed : (timelyCancel agent).fire pool i ⟨op, ans⟩)
    (hcancelled : pool.shared.taskCancelled n = true)
    (hcheck : (agentGuard n).check op) : (agentGuard n).stop op ans := by
  cases op with
  | exec op =>
      cases op with
      | isCancelled idx token =>
          obtain rfl : token = taskToken n := hcheck
          cases hperform
          exact hcancelled
      | selectTick tick token shutdown interval =>
          obtain rfl : token = taskToken n := hcheck
          exact allowed hcancelled
      | _ => exact hcheck.elim
  | _ => exact hcheck.elim

structure Timely (pool : Pool agent.system) : Prop where
  guarded : ∀ {i body rest}, RunsBody pool i body rest →
    (agentGuard body.cancelToken).Guarded rest
  calm : ∀ {i body rest}, RunsBody pool i body rest →
    pool.shared.taskCancelled body.cancelToken = true →
    ¬ (agentGuard body.cancelToken).Armed rest
  seen : ∀ {k id n}, (k, cancelEvent id n) ∈ pool.log →
    pool.shared.taskCancelled n = true
  heeds : ∀ {c m : Nat} {k id i event body rest}, RunsBody pool i body rest →
    pool.log[c]? = some (k, cancelEvent id body.cancelToken) →
    pool.log[m]? = some (i, event) → c < m →
    (agentGuard body.cancelToken).Heeds event

theorem timely_initial (shared : Shared) :
    Timely (Pool.initial shared : Pool agent.system) := by
  constructor <;> simp [RunsBody, Pool.initial]

section Fire

variable {pool : Pool agent.system} {i : Nat} {job : Job} {op : AgentOp}
  {cont : op.Ans → Prog AgentSig Unit} {proposal ans : op.Ans} {shared : Shared}
  (hfuture : pool.futures[i]? = some ⟨job, .call (S := AgentSig) op cont⟩)
  (hperform : perform agent pool.shared op proposal = some (ans, shared))
  (allowed : (timelyCancel agent).fire pool i ⟨op, ans⟩)

include hfuture hperform allowed

/-- What is known of the future that fires, when its token is cancelled. -/
theorem Timely.fires (h : Timely pool) {body : Body} (hjob : job = .body body)
    (hnow : shared.taskCancelled body.cancelToken = true) :
    (agentGuard body.cancelToken).Heeds ⟨op, ans⟩ ∧
      ¬ (agentGuard body.cancelToken).Armed (cont ans) := by
  subst hjob
  refine (h.guarded hfuture).step ?_ fun hcheck => ?_
  · rcases (perform_cancelled hperform _).mp hnow with hold | ⟨id, hevent⟩
    · exact h.calm hfuture hold
    · cases hevent
      exact allowed i body _ hfuture rfl
  · rcases (perform_cancelled hperform _).mp hnow with hold | ⟨id, hevent⟩
    · exact stop_of_cancelled hperform allowed hold hcheck
    · cases hevent
      exact hcheck.elim

theorem Timely.calm_advance (h : Timely pool) {j : Nat} {body : Body}
    {rest : Prog AgentSig Unit}
    (hruns : RunsBody (pool.advance i job ⟨op, ans⟩ (cont ans) shared) j body rest)
    (hnow : shared.taskCancelled body.cancelToken = true) :
    ¬ (agentGuard body.cancelToken).Armed rest := by
  rcases runsBody_advance hfuture hruns with ⟨-, hjob, rfl⟩ | ⟨-, hspawn, rfl⟩ | hold
  · exact (h.fires hfuture hperform allowed hjob hnow).2
  · obtain rfl : op = .spawn body := hspawn
    rcases (perform_cancelled hperform _).mp hnow with hbefore | ⟨id, hevent⟩
    · exact allowed hbefore
    · cases congrArg Sigma.fst hevent
  · rcases (perform_cancelled hperform _).mp hnow with hbefore | ⟨id, hevent⟩
    · exact h.calm hold hbefore
    · cases hevent
      exact allowed j body rest hold rfl

/-- A later entry of the log is an old one, or the call that fires. -/
theorem Timely.heeds_advance (h : Timely pool) (hprojects : pool.Projects)
    {c m k j : Nat} {id : Uuid} {event : Event AgentSig} {body : Body}
    {rest : Prog AgentSig Unit}
    (hruns : RunsBody (pool.advance i job ⟨op, ans⟩ (cont ans) shared) j body rest)
    (hc : (pool.advance i job ⟨op, ans⟩ (cont ans) shared).log[c]? =
      some (k, cancelEvent id body.cancelToken))
    (hm : (pool.advance i job ⟨op, ans⟩ (cont ans) shared).log[m]? = some (j, event))
    (hlt : c < m) : (agentGuard body.cancelToken).Heeds event := by
  have hi : i < pool.futures.length := (List.getElem?_eq_some_iff.mp hfuture).1
  have hmle : m ≤ pool.log.length := by
    rcases Pool.getElem?_log_advance.mp hm with hmold | ⟨hmlast, -⟩
    · exact Nat.le_of_lt (List.getElem?_eq_some_iff.mp hmold).1
    · omega
  have hcold : pool.log[c]? = some (k, cancelEvent id body.cancelToken) := by
    rcases Pool.getElem?_log_advance.mp hc with hcold | ⟨hclast, -⟩
    · exact hcold
    · omega
  rcases Pool.getElem?_log_advance.mp hm with hmold | ⟨-, hentry⟩
  · have hj : j < pool.futures.length := hprojects.known _ (List.mem_of_getElem? hmold)
    rcases runsBody_advance hfuture hruns with ⟨rfl, rfl, -⟩ | ⟨rfl, -⟩ | hold
    · exact h.heeds hfuture hcold hmold hlt
    · exact absurd hj (Nat.lt_irrefl _)
    · exact h.heeds hold hcold hmold hlt
  · cases hentry
    have hbefore := h.seen (List.mem_of_getElem? hcold)
    have hnow := (perform_cancelled hperform _).mpr (.inl hbefore)
    rcases runsBody_advance hfuture hruns with ⟨-, hjob, -⟩ | ⟨rfl, -⟩ | hold
    · exact (h.fires hfuture hperform allowed hjob hnow).1
    · exact absurd hi (Nat.lt_irrefl _)
    · rw [RunsBody, hfuture] at hold
      cases hold
      exact (h.fires hfuture hperform allowed rfl hnow).1

end Fire

theorem timely_step {pool next : Pool agent.system}
    (step : Step (timelyCancel agent) pool next) (hprojects : pool.Projects)
    (h : Timely pool) : Timely next := by
  cases step with
  | @start job hexternal allowed =>
      have hold {i : Nat} {body : Body} {rest : Prog AgentSig Unit}
          (hruns : RunsBody (pool.launch job) i body rest) :
          RunsBody pool i body rest := (runsBody_launch hexternal).mp hruns
      exact ⟨fun hruns => h.guarded (hold hruns), fun hruns => h.calm (hold hruns),
        h.seen, fun hruns => h.heeds (hold hruns)⟩
  | env henv allowed =>
      have hsame := taskCancelled_congr (environment_outside henv).cancelled
      refine ⟨h.guarded, fun hruns hnow => ?_, fun hmem => ?_, h.heeds⟩
      · rw [hsame] at hnow
        exact h.calm hruns hnow
      · rw [hsame]
        exact h.seen hmem
  | @fire i job op cont proposal ans shared hfuture hperform allowed =>
      refine ⟨fun hruns => ?_, h.calm_advance hfuture hperform allowed,
        fun {k id n} hmem => ?_, h.heeds_advance hfuture hperform allowed hprojects⟩
      · rcases runsBody_advance hfuture hruns with ⟨-, rfl, rfl⟩ | ⟨-, -, rfl⟩ | hold
        · exact (h.guarded hfuture).1 ans
        · exact guarded_runBody agent.manager _
        · exact h.guarded hold
      · rw [Pool.advance, List.mem_append, List.mem_singleton] at hmem
        rcases hmem with hold | hnew
        · exact (perform_cancelled hperform n).mpr (.inl (h.seen hold))
        · exact (perform_cancelled hperform n).mpr
            (.inr ⟨id, (congrArg Prod.snd hnew).symm⟩)

/-! ## The law -/

structure NoLateStart (pool : Pool agent.system) : Prop where
  /-- Entry `c` of the log cancels the token of future `i`, entry `m` is later. -/
  started : ∀ {c m : Nat} {k id i event body rest}, RunsBody pool i body rest →
    pool.log[c]? = some (k, cancelEvent id body.cancelToken) →
    pool.log[m]? = some (i, event) → c < m → ¬ starts event.1
  /-- The token is cancelled before the future has a permit. -/
  queued : ∀ {c : Nat} {k id i body rest}, RunsBody pool i body rest →
    (∀ task n, body ≠ .routed task n) →
    pool.log[c]? = some (k, cancelEvent id body.cancelToken) →
    (∀ m < c, pool.log[m]? ≠ some (i, ⟨.acquire, ()⟩)) →
    ∀ event ∈ pool.history i, ¬ starts event.1 ∧ reportsSuccess event = false

theorem first_acquire {pool : Pool agent.system} (hprojects : pool.Projects) {i : Nat}
    {body : Body} {rest : Prog AgentSig Unit} (hruns : RunsBody pool i body rest)
    (hbody : ∀ task n, body ≠ .routed task n) {event : Event AgentSig}
    (hevent : event ∈ pool.history i) :
    ∃ tail, pool.history i = ⟨.acquire, ()⟩ :: tail := by
  have hsteps := hprojects.steps i _ hruns
  generalize pool.history i = events at hsteps hevent
  cases body with
  | routed task n => exact absurd rfl (hbody task n)
  | exec exec n | chain chain n =>
      cases hsteps with
      | refl => cases hevent
      | call hrest => exact ⟨_, rfl⟩

/-- A future whose token was cancelled before its permit heeds it throughout. -/
theorem heeds_of_queued {pool : Pool agent.system} (hprojects : pool.Projects)
    (h : Timely pool) {c k i : Nat} {id : Uuid} {body : Body}
    {rest : Prog AgentSig Unit} (hruns : RunsBody pool i body rest)
    (hbody : ∀ task n, body ≠ .routed task n)
    (hc : pool.log[c]? = some (k, cancelEvent id body.cancelToken))
    (hqueued : ∀ m < c, pool.log[m]? ≠ some (i, ⟨.acquire, ()⟩)) :
    ∀ event ∈ pool.history i, (agentGuard body.cancelToken).Heeds event := by
  intro event hevent
  obtain ⟨m, hm⟩ := List.mem_iff_getElem?.mp (Pool.mem_history.mp hevent)
  rcases Nat.lt_trichotomy c m with hlt | rfl | hgt
  · exact h.heeds hruns hc hm hlt
  · -- a body makes no cancel
    have hcalls := (uses_runBody agent.manager body).steps
      (hprojects.steps i _ hruns) event hevent
    rw [hc] at hm
    cases hm
    exact hcalls.elim
  · obtain ⟨tail, htail⟩ := first_acquire hprojects hruns hbody hevent
    obtain ⟨first, hfirst, hentry⟩ := Pool.exists_first_entry htail hm
    exact absurd hentry (hqueued first (by omega))

theorem noLateStart_of_timelyCancel {maxConcurrent : Nat} {pool : Pool agent.system}
    (run : Run (timelyCancel agent) (Pool.initial (Shared.initial maxConcurrent)) pool) :
    NoLateStart pool := by
  have hprojects := run.projects
  have htimely : Timely pool :=
    (run.invariant_of_projects (Pool.initial_projects _) (timely_initial _) timely_step).2
  refine ⟨fun hruns hc hm hlt => (htimely.heeds hruns hc hm hlt).1,
    fun {c k id i body rest} hruns hbody hc hqueued event hevent => ?_⟩
  have hheeds := heeds_of_queued hprojects htimely hruns hbody hc hqueued
  refine ⟨(hheeds event hevent).1, ?_⟩
  have hensures : (agent.manager.runBody body).Ensures
      (agentGuard body.cancelToken).Heeds noSuccess (fun _ _ => True) () := by
    cases body with
    | routed task n => exact absurd rfl (hbody task n)
    | exec exec n => exact runExec_noSuccess agent.manager exec n
    | chain chain n => exact runChain_noSuccess agent.manager chain n
  obtain ⟨q, hq, -⟩ := hensures.steps (hprojects.steps i _ hruns) hheeds
  exact not_reportsSuccess hq event hevent

end Policy

/-! ## A task cancelled while it waits -/

def cancelWork (target : BitVec 128) : ReceivedWork :=
  .single (.cancel ⟨⟨100⟩, .normal, [], ⟨target⟩⟩)

/-- The task waits for a permit, it is cancelled, and then it starts. -/
def cancelledQueued : List (Label sampleAgent.system) :=
  .start (.call sampleWork) :: List.replicate 6 (.fire 0 obliging) ++
    .start (.call (cancelWork 1)) :: List.replicate 3 (.fire 2 obliging) ++
    List.replicate 3 (.fire 1 obliging)

def cancelledPool : Pool sampleAgent.system :=
  (sampleStart.script cancelledQueued).get rfl

theorem queued_task_starts :
    ∃ pool, Run (Policy.free sampleAgent.system) sampleStart pool ∧
      ¬ NoLateStart pool := by
  refine ⟨cancelledPool,
    Pool.run_script_free _, ?_⟩
  intro h
  have hruns : RunsBody cancelledPool 1 (.exec (sampleTask 1) 0) _ := rfl
  have hcancel : cancelledPool.log[8]? = some (2, cancelEvent ⟨1⟩ 0) := rfl
  have hspawn : cancelledPool.log[11]? =
      some (1, ⟨.exec (.spawnShell .exec ⟨"true", [], none⟩), .ok ()⟩) := rfl
  exact h.started hruns hcancel hspawn (by decide) trivial

/-! A chain that waits looks at its token before it starts anything. -/

theorem waiting_chain_not_armed :
    ¬ (agentGuard 0).Armed (sampleAgent.manager.runBody (.chain sampleChain 0)) := by
  intro h
  rcases Guard.armed_call.mp h with hstart | ⟨-, _, h⟩
  · exact hstart
  rcases Guard.armed_call.mp h with hstart | ⟨-, _, h⟩
  · exact hstart
  rcases Guard.armed_call.mp h with hstart | ⟨hcheck, -⟩
  · exact hstart
  · exact hcheck rfl

/-- The chain is cancelled while it waits; then it gets its permit and ends. -/
def cancelledChain : List (Label sampleAgent.system) :=
  .start (.call (.chain sampleChain)) :: List.replicate 6 (.fire 0 obliging) ++
    .start (.call (cancelWork 9)) :: List.replicate 3 (.fire 2 obliging) ++
    List.replicate 4 (.fire 1 obliging)

theorem cancelledChain_follows :
    Pool.Follows (timelyCancel sampleAgent) sampleStart cancelledChain := by
  refine .cons trivial rfl ?_
  iterate 5 refine .cons (Pool.allows_fire _ rfl fun _ => trivial) rfl ?_
  refine .cons (Pool.allows_fire _ rfl fun _ h => by cases h) rfl ?_
  refine .cons trivial rfl ?_
  iterate 2 refine .cons (Pool.allows_fire _ rfl fun _ => trivial) rfl ?_
  refine .cons (Pool.allows_fire _ rfl fun found => ?_) rfl ?_
  · cases found with
    | none => trivial
    | some n =>
        -- The only spawned future is the chain, which has not yet run.
        rintro (_ | _ | _ | i) body rest hruns rfl
        · cases hruns
        · cases hruns
          exact waiting_chain_not_armed
        · cases hruns
        · cases hruns
  iterate 4 refine .cons (Pool.allows_fire _ rfl fun _ => trivial) rfl ?_
  trivial

theorem noLateStart_cancelledChain :
    ∃ pool, Run (timelyCancel sampleAgent) sampleStart pool ∧ NoLateStart pool ∧
      pool.log[8]? = some (2, cancelEvent ⟨9⟩ 0) := by
  have run : Run (timelyCancel sampleAgent) sampleStart
      ((sampleStart.script cancelledChain).get rfl) :=
    Pool.run_script cancelledChain_follows
  exact ⟨_, run, noLateStart_of_timelyCancel run, rfl⟩

end VasalAgent.Agent
