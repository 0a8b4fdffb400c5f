import VasalAgent.Agent.Dispatch
import VasalAgent.Agent.Pipeline
import VasalAgent.Task.WellFormed

/-!
# Audit trail of a task

`submit` records `task.received` and then spawns a future; the terminal event is
recorded inside the future, next to the journal and the send.  The trail of a
submission is put together from both: `Announced` says what stands before a
spawn in the program that makes it, `submittedBy_of_runsBody` which spawn a
future comes from, and the notes of a finished future give the rest.
-/

namespace VasalAgent.Agent

open VasalAgent.Async
open VasalAgent.Protocol
open VasalAgent.Task
open VasalAgent.Transport

/-- Event type and task id of an audit row. -/
def auditRow? : Event AgentSig → Option (AuditEvent × Option String)
  | ⟨.exec (.audit event taskId _), _⟩ => some (event, taskId)
  | _ => none

/-! ## Before the spawn -/

def Body.received : Body → AuditDetail
  | .exec task _ => .task (.exec task)
  | .routed task _ => .task task
  | .chain c _ => .chain c.steps.length

def Body.kind : Body → TaskKindTag
  | .exec task _ => kindTag task.kind
  | _ => .oneshot

/-- The calls of the submission that spawns `body`, up to the spawn. -/
def Body.announcement (body : Body) : List (Event AgentSig) :=
  [⟨.submit body.work, ()⟩,
    ⟨.exec (.audit .taskReceived (some body.id.toString) body.received), ()⟩,
    ⟨.newToken, body.cancelToken⟩,
    ⟨.insertActive body.id ⟨body.cancelToken, body.kind⟩, ()⟩,
    ⟨.updateCounts, ()⟩]

def spawnEvent (body : Body) : Event AgentSig := ⟨.spawn body, ()⟩

/-- Every spawn comes right after the other calls of its submission. -/
def Announced (events : List (Event AgentSig)) : Prop :=
  ∀ before body after, events = before ++ spawnEvent body :: after →
    body.announcement <:+ before

theorem announced_of_no_spawn {events : List (Event AgentSig)}
    (h : ∀ body, spawnEvent body ∉ events) : Announced events := by
  intro before body after heq
  exact absurd (by simp [heq]) (h body)

theorem announced_append (first second : List (Event AgentSig)) (hfirst : Announced first)
    (hsecond : Announced second) : Announced (first ++ second) := by
  intro before body after heq
  rcases List.append_eq_append_iff.mp heq with ⟨mid, rfl, hmid⟩ | ⟨mid, rfl, hmid⟩
  · exact (hsecond mid body after hmid).trans (List.suffix_append _ _)
  · cases mid with
    | nil =>
        have hnone : body.announcement <:+ [] := hsecond [] body after hmid.symm
        exact hnone.trans List.nil_suffix
    | cons event mid =>
        cases hmid
        exact hfirst before body mid rfl

theorem announced_spawn (body : Body) : Announced (body.announcement ++ [spawnEvent body]) := by
  intro before other after heq
  rcases List.eq_nil_or_concat after with rfl | ⟨init, last, rfl⟩
  · obtain ⟨rfl, hspawn⟩ := List.append_inj' heq rfl
    cases hspawn
    exact List.suffix_refl _
  · have hcut : body.announcement ++ [spawnEvent body] =
        (before ++ spawnEvent other :: init) ++ [last] := by
      rw [heq, List.concat_eq_append, List.append_assoc, List.cons_append]
    have hmem : spawnEvent other ∈ body.announcement := by
      rw [(List.append_inj' hcut rfl).1]
      simp
    simp [Body.announcement, spawnEvent] at hmem

section Programs

/-- The straight line from `submit` to the spawn, cut anywhere. -/
theorem traces_submission {work : ReceivedWork} {id : Uuid} {detail : AuditDetail}
    {kind : TaskKindTag} {mk : Nat → Body}
    (hmk : ∀ token, (mk token).announcement =
      [⟨.submit work, ()⟩, ⟨.exec (.audit .taskReceived (some id.toString) detail), ()⟩,
        ⟨.newToken, token⟩, ⟨.insertActive id ⟨token, kind⟩, ()⟩, ⟨.updateCounts, ()⟩]) :
    (call (.submit work) >>= fun _ =>
      audit .taskReceived (some id.toString) detail >>= fun _ =>
        register id kind mk).Traces Announced := by
  intro events q hsteps
  rcases hsteps with _ | hsteps
  · exact announced_of_no_spawn (by simp)
  rcases hsteps with _ | hsteps
  · exact announced_of_no_spawn (by simp [spawnEvent])
  rcases hsteps with _ | @⟨_, _, token, _, _, hsteps⟩
  · exact announced_of_no_spawn (by simp [spawnEvent])
  rcases hsteps with _ | hsteps
  · exact announced_of_no_spawn (by simp [spawnEvent])
  rcases hsteps with _ | hsteps
  · exact announced_of_no_spawn (by simp [spawnEvent])
  rcases hsteps with _ | hsteps
  · exact announced_of_no_spawn (by simp [spawnEvent])
  rcases hsteps with _ | hsteps
  have h := announced_spawn (mk token)
  rw [hmk] at h
  exact h

def AgentOp.spawnless : AgentOp → Prop
  | .spawn _ => False
  | _ => True

theorem traces_of_spawnless {α : Type} {p : Prog AgentSig α}
    (h : p.Uses AgentOp.spawnless) : p.Traces Announced :=
  h.traces fun _ hevents => announced_of_no_spawn fun _ hmem => hevents _ hmem

theorem traces_of_loop {α : Type} {p : Prog AgentSig α} (h : p.Uses AgentOp.isLoop) :
    p.Traces Announced := by
  refine traces_of_spawnless (h.mono fun op hop => ?_)
  cases op <;> first | exact hop | trivial

theorem traces_submitWork (work : ReceivedWork) : (submitWork work).Traces Announced := by
  cases work with
  | chain chain => exact traces_submission fun _ => rfl
  | single task =>
      cases task with
      | cancel cancel =>
          exact traces_of_spawnless
            ⟨trivial, fun _ => ⟨trivial, fun _ => ⟨trivial, fun _ => trivial⟩⟩⟩
      | _ => exact traces_submission fun _ => rfl

theorem traces_submitAll (items : List ReceivedWork) :
    (submitAll items).Traces Announced := by
  induction items with
  | nil => exact traces_of_spawnless trivial
  | cons work rest ih => exact (traces_submitWork work).bind announced_append fun _ => ih

theorem traces_mainLoop (polls fuel : Nat) : (mainLoop polls fuel).Traces Announced := by
  induction fuel with
  | zero => exact traces_of_spawnless trivial
  | succ fuel ih =>
      refine (traces_of_loop (uses_loop (uses_select polls))).bind announced_append fun wake => ?_
      cases wake with
      | shutdown => exact traces_of_spawnless trivial
      | result result =>
          exact (traces_of_loop (uses_loop (uses_forward result))).bind announced_append fun _ => ih
      | work work =>
          cases work with
          | error e => exact ih
          | ok items => exact (traces_submitAll items).bind announced_append fun _ => ih

theorem traces_run (fuel : Nat) : (run fuel).Traces Announced := by
  refine (traces_of_loop (uses_audit ..)).bind announced_append fun _ => ?_
  refine (traces_mainLoop fuel fuel).bind announced_append fun _ => ?_
  refine (traces_of_loop (uses_loop (uses_drain fuel))).bind announced_append fun _ => ?_
  refine (traces_of_loop (uses_audit ..)).bind announced_append fun _ => ?_
  exact traces_of_spawnless ⟨trivial, fun _ => trivial⟩

theorem traces_program (agent : AgentConfig) (job : Job) :
    (agent.program job).Traces Announced := by
  cases job with
  | main => exact traces_run agent.rounds
  | call work => exact traces_submitWork work
  | body body =>
      refine traces_of_spawnless ((uses_runBody agent.manager body).mono fun op hop => ?_)
      cases op <;> first | exact hop.elim | trivial

end Programs

/-! ## Which submission a future comes from -/

section Submissions

variable {agent : AgentConfig} {pool : Pool agent.system} {i j : Nat} {body : Body}

/-- Future `j` was spawned by future `i`, at the end of a submission of `body`. -/
structure SubmittedBy (pool : Pool agent.system) (i j : Nat) (body : Body) : Prop where
  split : ∃ earlier later, pool.log = earlier ++ (i, spawnEvent body) :: later ∧
    (∀ entry ∈ earlier, entry.1 ≠ j) ∧ body.announcement <:+ Pool.shareOf earlier i

/-- The spawn of `j` stands in the log before all calls of `j`. -/
def SpawnedIn (pool : Pool agent.system) (j : Nat) (body : Body) : Prop :=
  ∃ i earlier later, pool.log = earlier ++ (i, spawnEvent body) :: later ∧
    ∀ entry ∈ earlier, entry.1 ≠ j

theorem SpawnedIn.advance {job : Job} {event : Event AgentSig} {rest : Prog AgentSig Unit}
    {shared : Shared} (h : SpawnedIn pool j body) :
    SpawnedIn (pool.advance i job event rest shared) j body := by
  obtain ⟨k, earlier, later, hlog, hearlier⟩ := h
  refine ⟨k, earlier, later ++ [(i, event)], ?_, hearlier⟩
  simp [Pool.advance, hlog]

theorem spawnedIn_step {π : Policy agent.system} {next : Pool agent.system}
    (step : Step π pool next) (hprojects : pool.Projects)
    (h : ∀ {j body rest}, RunsBody pool j body rest → SpawnedIn pool j body)
    {rest : Prog AgentSig Unit} (hruns : RunsBody next j body rest) :
    SpawnedIn next j body := by
  cases step with
  | start hexternal allowed => exact h ((runsBody_launch hexternal).mp hruns)
  | env henv allowed => exact h hruns
  | @fire i job op cont proposal ans shared hfuture hperform allowed =>
      rcases runsBody_advance hfuture hruns with ⟨rfl, rfl, -⟩ | ⟨rfl, hspawn, -⟩ | hold
      · exact (h hfuture).advance
      · cases hspawn
        refine ⟨i, pool.log, [], rfl, fun entry hentry => ?_⟩
        exact Nat.ne_of_lt (hprojects.known entry hentry)
      · exact (h hold).advance

theorem spawnedIn_of_run {π : Policy agent.system} {shared : Shared}
    (run : Run π (Pool.initial shared) pool) {rest : Prog AgentSig Unit}
    (hruns : RunsBody pool j body rest) : SpawnedIn pool j body := by
  have hall := run.invariant_of_projects
    (I := fun pool => ∀ {j body rest}, RunsBody pool j body rest → SpawnedIn pool j body)
    (Pool.initial_projects _) (fun h => by simp [RunsBody, Pool.initial] at h)
    fun step hprojects h => spawnedIn_step step hprojects h
  exact hall.2 hruns

theorem submittedBy_of_run {π : Policy agent.system} {shared : Shared}
    (run : Run π (Pool.initial shared) pool) {rest : Prog AgentSig Unit}
    (hruns : RunsBody pool j body rest) : ∃ i, SubmittedBy pool i j body := by
  have hprojects := run.projects
  obtain ⟨i, earlier, later, hlog, hearlier⟩ := spawnedIn_of_run run hruns
  have hi : i < pool.futures.length := hprojects.known (i, spawnEvent body) (by simp [hlog])
  have hannounced := traces_program agent _
    (hprojects.steps i _ (List.getElem?_eq_getElem hi))
  exact ⟨i, earlier, later, hlog, hearlier, hannounced _ body _ (Pool.history_split hlog)⟩

end Submissions

/-! ## Inside the future -/

section Futures

def ExecOp.unaudited : ExecOp → Prop
  | .audit .. => False
  | _ => True

theorem uses_unaudited {α : Type} {p : Prog ExecSig α} (h : p.Uses ExecOp.isAttempt) :
    p.Uses ExecOp.unaudited := by
  refine h.mono fun op hop => ?_
  cases op <;> first | exact hop | trivial

theorem unaudited_loop (socketDir : String) (exec : ExecTask) (cancel shutdown : Token)
    (fuel n : Nat) (lastResult : TaskResult) :
    (Continuous.loop socketDir exec cancel shutdown fuel n lastResult).Uses
      ExecOp.unaudited := by
  induction fuel generalizing n lastResult with
  | zero => trivial
  | succ fuel ih =>
      refine ⟨trivial, fun wake => ?_⟩
      cases wake with
      | cancelled => exact ⟨trivial, fun _ => trivial⟩
      | shutdown => trivial
      | slept => exact (uses_unaudited (uses_tick ..)).bind fun result => ih _ _

theorem unaudited_executeExec (socketDir : String) (exec : ExecTask)
    (cancel shutdown : Token) (fuel : Nat) :
    (executeExec socketDir exec cancel shutdown fuel).Uses ExecOp.unaudited := by
  unfold executeExec
  cases exec.kind with
  | oneshot => exact uses_unaudited (uses_oneshot ..)
  | continuous => exact ⟨trivial, fun _ => unaudited_loop ..⟩

theorem unaudited_routeTask (task : Protocol.Task) :
    (routeTask task).Uses ExecOp.unaudited := by
  have htimed (taskId : Uuid) (status : TaskResultStatus) (stdout stderr : String)
      (error : Option String) :
      (Task.elapsed .exec .result >>= fun time =>
        makeResult .exec taskId status none stdout stderr time error).Uses
          ExecOp.unaudited :=
    ⟨trivial, fun _ => ⟨trivial, fun _ => trivial⟩⟩
  cases task with
  | selfUpgrade upgrade =>
      refine ⟨trivial, fun done => ?_⟩
      cases done <;> exact htimed ..
  | _ => exact htimed ..

theorem auditless_lift {α : Type} {p : Prog ExecSig α} (h : p.Uses ExecOp.unaudited) :
    (lift p).Emits auditRow? [] := by
  intro events value hsteps
  obtain ⟨inner, rfl, hinner⟩ := steps_lift_ret hsteps
  rw [List.filterMap_map, List.filterMap_eq_nil_iff]
  rintro ⟨op, ans⟩ hmem
  have hop := h.steps hinner _ hmem
  cases op <;> first | rfl | exact hop.elim

variable {m : TaskManager}

theorem auditless_journal (result : TaskResult) :
    (TaskManager.journal result).Emits auditRow? [] :=
  Prog.emits_silent (fun _ => rfl) fun _ => Prog.emits_ret _

theorem auditless_send (result : TaskResult) : (m.send result).Emits auditRow? [] := by
  unfold TaskManager.send
  split
  · exact Prog.emits_silent (fun _ => rfl) fun _ => Prog.emits_ret _
  · exact Prog.emits_ret _

theorem auditless_deregister (id : Uuid) :
    (TaskManager.deregister id).Emits auditRow? [] :=
  Prog.emits_silent (fun _ => rfl) fun _ =>
    Prog.emits_silent (fun _ => rfl) fun _ => Prog.emits_ret _

/-- What goes to the journal and, where there is a channel, to the control plane. -/
def TaskManager.reports (m : TaskManager) (result : TaskResult) : List PipelineEvent :=
  .journal (resultToJournalRow result) :: if m.resultTx then [.send result] else []

theorem emits_sent (result : TaskResult) :
    (m.send result).Emits pipelineEvent? (if m.resultTx then [.send result] else []) := by
  unfold TaskManager.send
  split
  · exact Prog.emits_call (fun _ => rfl) fun _ => Prog.emits_ret _
  · exact Prog.emits_ret _

variable {events : List (Event AgentSig)}

/-- What the future of an exec task does with its result. -/
def TaskManager.afterExec (m : TaskManager) (exec : ExecTask) (result : TaskResult) :
    Prog AgentSig Unit := do
  TaskManager.journal result
  audit (eventType result.status) (some exec.id.toString) (.result result)
  m.send result
  TaskManager.deregister exec.id
  call .release

theorem runExec_eq (exec : ExecTask) (n : Nat) :
    m.runExec exec n = .call (S := AgentSig) .acquire fun _ =>
      lift (executeExec m.socketDir exec (taskToken n) shutdownToken m.ticks) >>=
        m.afterExec exec := rfl

theorem emits_afterExec (exec : ExecTask) (result : TaskResult) :
    (m.afterExec exec result).Emits pipelineEvent?
      (m.reports result ++ [.remove exec.id]) := by
  refine (emits_journal result).bind fun _ => ?_
  refine Prog.emits_silent (fun _ => rfl) fun _ => ?_
  refine (emits_sent result).bind fun _ => ?_
  refine (emits_deregister exec.id).bind fun _ => ?_
  exact Prog.emits_silent (fun _ => rfl) fun _ => Prog.emits_ret _

theorem audits_afterExec (exec : ExecTask) (result : TaskResult) :
    (m.afterExec exec result).Emits auditRow?
      [(eventType result.status, some exec.id.toString)] := by
  refine (auditless_journal result).bind fun _ => ?_
  refine Prog.emits_call (fun _ => rfl) fun _ => ?_
  refine (auditless_send result).bind fun _ => ?_
  refine (auditless_deregister exec.id).bind fun _ => ?_
  exact Prog.emits_silent (fun _ => rfl) fun _ => Prog.emits_ret _

/-- The terminal events of a task and the statuses of its results. -/
inductive Agrees : AuditEvent → TaskResultStatus → Prop
  | completed : Agrees .taskCompleted .success
  | failed : Agrees .taskFailed .failed
  | cancelled : Agrees .taskCancelled .cancelled
  | timeout : Agrees .taskTimeout .timeout

theorem agrees_eventType {status : TaskResultStatus} (h : status ≠ .rolledBack) :
    Agrees (eventType status) status := by
  cases status with
  | rolledBack => exact absurd rfl h
  | _ => constructor

theorem forward_of_steps {exec : ExecTask} {n : Nat} {result : TaskResult}
    (h : Prog.Steps (lift (executeExec m.socketDir exec (taskToken n) shutdownToken m.ticks))
      events (.ret result)) : result.status ≠ .rolledBack := by
  obtain ⟨inner, -, hinner⟩ := steps_lift_ret h
  have hchecked : (executeExec m.socketDir exec (taskToken n) shutdownToken m.ticks).Ensures
      (fun _ => True) _ _ () := checked_executeExec
  obtain ⟨-, -, origin, hresult⟩ := hchecked.steps hinner fun _ _ => trivial
  exact hresult.forward

theorem notes_runExec {exec : ExecTask} {n : Nat}
    (h : Prog.Steps (m.runExec exec n) events (.ret ())) :
    ∃ result, Agrees (eventType result.status) result.status ∧
      events.filterMap pipelineEvent? = m.reports result ++ [.remove exec.id] ∧
      events.filterMap auditRow? = [(eventType result.status, some exec.id.toString)] := by
  rw [runExec_eq] at h
  cases h with
  | @call _ _ ans tail _ hrest =>
      obtain ⟨first, second, result, rfl, hfirst, hsecond⟩ := hrest.bind_ret
      refine ⟨result, agrees_eventType (forward_of_steps hfirst), ?_, ?_⟩
      · rw [List.filterMap_cons_none rfl, List.filterMap_append, emits_lift _ hfirst,
          emits_afterExec exec result hsecond, List.nil_append]
      · rw [List.filterMap_cons_none rfl, List.filterMap_append,
          auditless_lift (unaudited_executeExec ..) hfirst,
          audits_afterExec exec result hsecond, List.nil_append]

theorem auditless_runRouted (task : Protocol.Task) :
    (m.runRouted task).Emits auditRow? [] := by
  refine (auditless_lift (unaudited_routeTask task)).bind fun result => ?_
  refine (auditless_journal result).bind fun _ => ?_
  exact (auditless_send result).bind fun _ => auditless_deregister task.id

end Futures

/-! ## Runs -/

section Runs

variable {agent : AgentConfig} {pool : Pool agent.system}

/-- The audit rows of a submission, those of its future last. -/
def auditTrail (pool : Pool agent.system) (j : Nat) (body : Body) :
    List (AuditEvent × Option String) :=
  body.announcement.filterMap auditRow? ++ (pool.history j).filterMap auditRow?

/--
The trail of a submission is its `task.received` and one terminal event, which agrees
with the result that its future journaled and sent.
-/
structure AuditComplete (pool : Pool agent.system) (j : Nat) (body : Body) : Prop where
  submitted : ∃ i, SubmittedBy pool i j body
  terminal : ∃ result event, Agrees event result.status ∧
    (pool.history j).filterMap pipelineEvent? =
      agent.manager.reports result ++ [.remove body.id] ∧
    auditTrail pool j body =
      [(.taskReceived, some body.id.toString), (event, some body.id.toString)]

/-- A task, as opposed to a chain, that the future runs. -/
def Body.isTask : Body → Prop
  | .chain .. => False
  | _ => True

def Body.isExec : Body → Prop
  | .exec .. => True
  | _ => False

theorem auditComplete_iff {shared : Shared}
    (run : Run (Policy.free agent.system) (Pool.initial shared) pool) {j : Nat} {body : Body}
    (htask : body.isTask) (hfinished : RunsBody pool j body (.ret ())) :
    AuditComplete pool j body ↔ body.isExec := by
  have hsteps := run.projects.steps j _ hfinished
  cases body with
  | chain chain n => exact htask.elim
  | exec exec n =>
      obtain ⟨result, hagrees, hpipeline, haudit⟩ := notes_runExec hsteps
      refine ⟨fun _ => trivial, fun _ =>
        ⟨submittedBy_of_run run hfinished, result, _, hagrees, hpipeline, ?_⟩⟩
      rw [auditTrail, haudit]
      rfl
  | routed task n =>
      refine ⟨fun h => ?_, fun h => h.elim⟩
      obtain ⟨result, event, -, -, htrail⟩ := h.terminal
      -- The trail stops after `task.received`.
      rw [auditTrail, auditless_runRouted task hsteps] at htrail
      cases htrail

theorem auditComplete_ranOnce :
    ∃ pool, Run (Policy.free sampleAgent.system) sampleStart pool ∧
      RunsBody pool 1 (.exec (sampleTask 1) 0) (.ret ()) ∧
      AuditComplete pool 1 (.exec (sampleTask 1) 0) := by
  have run : Run (Policy.free sampleAgent.system) sampleStart
      ((sampleStart.script ranOnce).get rfl) :=
    Pool.run_script_free _
  have htask : (Body.exec (sampleTask 1) 0).isTask := trivial
  exact ⟨_, run, rfl, (auditComplete_iff run htask rfl).mpr trivial⟩

def sampleRemoval : RemoveTask where
  id := ⟨7⟩
  priority := .normal
  tags := []
  unitName := "web"
  purge := false

/-- A removal is submitted and its future runs to its end. -/
def removedOnce : List (Label sampleAgent.system) :=
  .start (.call (.single (.remove sampleRemoval))) ::
    List.replicate 6 (.fire 0 obliging) ++ List.replicate 6 (.fire 1 obliging)

theorem removal_without_terminal :
    ∃ pool, Run (Policy.free sampleAgent.system) sampleStart pool ∧
      RunsBody pool 1 (.routed (.remove sampleRemoval) 0) (.ret ()) ∧
      auditTrail pool 1 (.routed (.remove sampleRemoval) 0) =
        [(.taskReceived, some sampleRemoval.id.toString)] ∧
      ¬ AuditComplete pool 1 (.routed (.remove sampleRemoval) 0) := by
  have run : Run (Policy.free sampleAgent.system) sampleStart
      ((sampleStart.script removedOnce).get rfl) :=
    Pool.run_script_free _
  have htrail : auditTrail ((sampleStart.script removedOnce).get rfl) 1
      (.routed (.remove sampleRemoval) 0) =
        [(.taskReceived, some sampleRemoval.id.toString)] := rfl
  refine ⟨_, run, rfl, htrail, fun h => ?_⟩
  obtain ⟨result, event, -, -, hcomplete⟩ := h.terminal
  rw [htrail] at hcomplete
  cases hcomplete

end Runs

end VasalAgent.Agent
