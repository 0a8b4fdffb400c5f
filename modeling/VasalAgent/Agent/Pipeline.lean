import VasalAgent.Agent.Registration
import VasalAgent.Task.Results

/-!
# Result pipeline

A spawned future journals each result, sends it on the result channel and takes
its entry out of the registry, in that order and once each.  The three futures
are written separately in the source; each is shown to put its results through
the same stages, and `Run.projects` carries this to every interleaving.
-/

namespace VasalAgent.Agent

open VasalAgent.Async
open VasalAgent.Protocol
open VasalAgent.Task
open VasalAgent.Transport

/-! ## What the pipeline sees -/

inductive PipelineEvent where
  | journal (row : TaskResultRow)
  | send (result : TaskResult)
  | remove (id : Uuid)
  deriving DecidableEq

/-- Ticks are journaled by a call of their own and left out. -/
def pipelineEvent? : Event AgentSig → Option PipelineEvent
  | ⟨.recordTaskResult row, _⟩ => some (.journal row)
  | ⟨.sendResult result, _⟩ => some (.send result)
  | ⟨.removeActive id, _⟩ => some (.remove id)
  | _ => none

/-- Where a result goes before the entry of its task is removed. -/
def reported (result : TaskResult) : List PipelineEvent :=
  [.journal (resultToJournalRow result), .send result]

/-! ## Executors inside a future -/

def execEvent (event : Event ExecSig) : Event AgentSig := ⟨.exec event.1, event.2⟩

theorem steps_lift {α : Type} {p : Prog ExecSig α} {events : List (Event AgentSig)}
    {q : Prog AgentSig α} (h : Prog.Steps (lift p) events q) :
    ∃ inner p', events = inner.map execEvent ∧ q = lift p' ∧ Prog.Steps p inner p' := by
  induction p generalizing events with
  | ret value =>
      cases h
      exact ⟨[], _, rfl, rfl, .refl _⟩
  | call op next ih =>
      cases h with
      | refl => exact ⟨[], _, rfl, rfl, .refl _⟩
      | @call _ _ ans tail _ hrest =>
          obtain ⟨inner, p', rfl, rfl, hsteps⟩ := ih ans hrest
          exact ⟨⟨op, ans⟩ :: inner, p', rfl, rfl, .call hsteps⟩
  | hang =>
      cases h
      exact ⟨[], _, rfl, rfl, .refl _⟩

theorem steps_lift_ret {α : Type} {p : Prog ExecSig α}
    {events : List (Event AgentSig)} {value : α}
    (h : Prog.Steps (lift p) events (.ret value)) :
    ∃ inner, events = inner.map execEvent ∧ Prog.Steps p inner (.ret value) := by
  obtain ⟨inner, p', hevents, hret, hsteps⟩ := steps_lift h
  cases p' with
  | ret other =>
      cases hret
      exact ⟨inner, hevents, hsteps⟩
  | call op next => cases hret
  | hang => cases hret

theorem emits_lift {α : Type} (p : Prog ExecSig α) : (lift p).Emits pipelineEvent? [] := by
  refine (uses_lift p).emits fun op ans hop => ?_
  cases op with
  | exec op => rfl
  | _ => cases hop

/-! ## Futures -/

section Futures

variable {m : TaskManager}

theorem emits_journal (result : TaskResult) :
    (TaskManager.journal result).Emits pipelineEvent? [.journal (resultToJournalRow result)] :=
  Prog.emits_call (fun _ => rfl) fun _ => Prog.emits_ret _

theorem emits_send (htx : m.resultTx = true) (result : TaskResult) :
    (m.send result).Emits pipelineEvent? [.send result] := by
  rw [TaskManager.send, if_pos htx]
  exact Prog.emits_call (fun _ => rfl) fun _ => Prog.emits_ret _

theorem emits_deregister (id : Uuid) :
    (TaskManager.deregister id).Emits pipelineEvent? [.remove id] := by
  refine Prog.emits_call (fun _ => rfl) fun _ => ?_
  exact Prog.emits_silent (fun _ => rfl) fun _ => Prog.emits_ret _

theorem emits_report (htx : m.resultTx = true) (results : List TaskResult) :
    (m.report results).Emits pipelineEvent? (results.flatMap reported) := by
  induction results with
  | nil => exact Prog.emits_ret _
  | cons result rest ih =>
      exact (emits_journal result).bind fun _ => (emits_send htx result).bind fun _ => ih

/--
The calls of a future that has returned: first those of its executor, which
returned `value`, and around them those that put `out` into the pipeline.
-/
structure Finished {α : Type} (executor : Prog ExecSig α) (value : α)
    (out : List PipelineEvent) (events : List (Event AgentSig)) : Prop where
  executed : ∃ inner, Prog.Steps executor inner (.ret value) ∧
    inner.map execEvent <:+: events
  emitted : events.filterMap pipelineEvent? = out

theorem finished_of_emits {α : Type} {executor : Prog ExecSig α}
    {rest : α → Prog AgentSig Unit} {out : α → List PipelineEvent}
    {events : List (Event AgentSig)}
    (hsteps : Prog.Steps (lift executor >>= rest) events (.ret ()))
    (hrest : ∀ value, (rest value).Emits pipelineEvent? (out value)) :
    ∃ value, Finished executor value (out value) events := by
  obtain ⟨first, second, value, rfl, hfirst, hsecond⟩ := hsteps.bind_ret
  obtain ⟨inner, rfl, hinner⟩ := steps_lift_ret hfirst
  refine ⟨value, ⟨inner, hinner, ?_⟩, ?_⟩
  · exact (List.prefix_append _ _).isInfix
  · rw [List.filterMap_append, emits_lift executor hfirst, hrest value hsecond]
    rfl

theorem finished_acquired {α : Type} {executor : Prog ExecSig α}
    {out : α → List PipelineEvent} {events : List (Event AgentSig)}
    (h : ∃ value, Finished executor value (out value) events) :
    ∃ value, Finished executor value (out value) (⟨.acquire, ()⟩ :: events) := by
  obtain ⟨value, ⟨inner, hinner, hpart⟩, hemitted⟩ := h
  exact ⟨value, ⟨inner, hinner, hpart.trans (List.suffix_cons _ _).isInfix⟩, hemitted⟩

variable {events : List (Event AgentSig)}

theorem finished_runExec (htx : m.resultTx = true) {exec : ExecTask} {n : Nat}
    (h : Prog.Steps (m.runExec exec n) events (.ret ())) :
    ∃ result, Finished (executeExec m.socketDir exec (taskToken n) shutdownToken m.ticks)
      result (reported result ++ [.remove exec.id]) events := by
  cases h with
  | @call _ _ ans tail _ rest =>
      refine finished_acquired (finished_of_emits rest fun result => ?_)
      refine (emits_journal result).bind fun _ => ?_
      refine Prog.Emits.bind (p := audit ..) (emits_lift _) fun _ => ?_
      refine (emits_send htx result).bind fun _ => ?_
      refine (emits_deregister exec.id).bind fun _ => ?_
      exact Prog.emits_silent (fun _ => rfl) fun _ => Prog.emits_ret _

theorem finished_runRouted (htx : m.resultTx = true) {task : Protocol.Task}
    (h : Prog.Steps (m.runRouted task) events (.ret ())) :
    ∃ result, Finished (routeTask task) result
      (reported result ++ [.remove task.id]) events :=
  finished_of_emits h fun result =>
    (emits_journal result).bind fun _ =>
      (emits_send htx result).bind fun _ => emits_deregister task.id

theorem finished_runChain (htx : m.resultTx = true) {chain : TaskChain} {n : Nat}
    (h : Prog.Steps (m.runChain chain n) events (.ret ())) :
    ∃ results, Finished (Chain.execute m.socketDir chain (taskToken n)) results
      (results.flatMap reported ++ [.remove chain.id]) events := by
  cases h with
  | @call _ _ ans tail _ rest =>
      refine finished_acquired (finished_of_emits rest fun results => ?_)
      refine (emits_report htx results).bind fun _ => ?_
      refine (emits_deregister chain.id).bind fun _ => ?_
      exact Prog.emits_silent (fun _ => rfl) fun _ => Prog.emits_ret _

end Futures

/-! ## Runs -/

/--
Exactly once, journal before send before removal: the whole share that a
finished future has in the pipeline, and no other future has a share.
-/
structure ReportedOnce {agent : AgentConfig} (pool : Pool agent.system) : Prop where
  exec : ∀ {i exec n}, RunsBody pool i (.exec exec n) (.ret ()) →
    ∃ result, result.taskId = exec.id ∧
      Finished (executeExec agent.manager.socketDir exec (taskToken n) shutdownToken
        agent.manager.ticks) result
        [.journal (resultToJournalRow result), .send result, .remove exec.id]
        (pool.history i)
  routed : ∀ {i task n}, RunsBody pool i (.routed task n) (.ret ()) →
    ∃ result, result.taskId = task.id ∧
      Finished (routeTask task) result
        [.journal (resultToJournalRow result), .send result, .remove task.id]
        (pool.history i)
  chain : ∀ {i chain n}, RunsBody pool i (.chain chain n) (.ret ()) →
    ∃ results, results.map TaskResult.taskId <+: chain.steps.map (·.task.id) ∧
      Finished (Chain.execute agent.manager.socketDir chain (taskToken n)) results
        (results.flatMap reported ++ [.remove chain.id]) (pool.history i)
  attributed : ∀ {i event}, (i, event) ∈ pool.log → (pipelineEvent? event).isSome →
    ∃ body rest, RunsBody pool i body rest

theorem Finished.yields {α : Type} {executor : Prog ExecSig α} {value : α}
    {out : List PipelineEvent} {events : List (Event AgentSig)}
    (h : Finished executor value out events) {post : α → Prop}
    (hyields : executor.Yields (fun _ => True) post) : post value := by
  obtain ⟨inner, hinner, -⟩ := h.executed
  exact hyields.steps hinner fun _ _ => trivial

theorem not_control_of_pipelineEvent {event : Event AgentSig}
    (h : (pipelineEvent? event).isSome) : ¬ event.1.isControl := by
  obtain ⟨op, ans⟩ := event
  cases op <;> first | exact not_false | cases h

variable {agent : AgentConfig} {pool : Pool agent.system}

theorem body_of_pipelineEvent (hprojects : pool.Projects) {i : Nat}
    {event : Event AgentSig} (hentry : (i, event) ∈ pool.log)
    (hevent : (pipelineEvent? event).isSome) : ∃ body rest, RunsBody pool i body rest := by
  obtain ⟨⟨job, rest⟩, hfuture⟩ : ∃ future, pool.futures[i]? = some future :=
    ⟨_, List.getElem?_eq_getElem (hprojects.known _ hentry)⟩
  have hsteps := hprojects.steps i _ hfuture
  have hmem : event ∈ pool.history i := Pool.mem_history.mpr hentry
  have hreport := not_control_of_pipelineEvent hevent
  cases job with
  | main => exact absurd ((uses_run agent.rounds).steps hsteps event hmem) hreport
  | call work => exact absurd ((uses_submitWork work).steps hsteps event hmem) hreport
  | body body => exact ⟨body, rest, hfuture⟩

theorem reportedOnce_of_receiver (htx : agent.manager.resultTx = true)
    {shared : Shared} (run : Run (Policy.free agent.system) (Pool.initial shared) pool) :
    ReportedOnce pool := by
  have hprojects := run.projects
  refine ⟨fun hruns => ?_, fun hruns => ?_, fun hruns => ?_,
    body_of_pipelineEvent hprojects⟩
  · obtain ⟨result, hfinished⟩ := finished_runExec htx (hprojects.steps _ _ hruns)
    exact ⟨result, hfinished.yields names_executeExec, hfinished⟩
  · obtain ⟨result, hfinished⟩ := finished_runRouted htx (hprojects.steps _ _ hruns)
    exact ⟨result, hfinished.yields (names_routeTask _), hfinished⟩
  · obtain ⟨results, hfinished⟩ := finished_runChain htx (hprojects.steps _ _ hruns)
    exact ⟨results, hfinished.yields (yields_execute _), hfinished⟩

/-- One task is submitted and its future runs to its end. -/
def ranOnce : List (Label sampleAgent.system) :=
  submittedOnce ++ List.replicate 14 (.fire 1 obliging)

theorem reportedOnce_ranOnce :
    ∃ pool, Run (Policy.free sampleAgent.system) sampleStart pool ∧
      RunsBody pool 1 (.exec (sampleTask 1) 0) (.ret ()) ∧ ReportedOnce pool := by
  have run : Run (Policy.free sampleAgent.system) sampleStart
      ((sampleStart.script ranOnce).get rfl) :=
    Pool.run_script_free _
  exact ⟨_, run, rfl, reportedOnce_of_receiver rfl run⟩

end VasalAgent.Agent
