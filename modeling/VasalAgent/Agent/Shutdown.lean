import VasalAgent.Agent.Dispatch
import VasalAgent.Agent.Pipeline

/-!
# Shutdown

After the shutdown signal the main loop drains the result channel, waits for the
heartbeat, audit and health tasks and returns; the process exits.  It does not
wait for the futures of the `TaskManager`.
-/

namespace VasalAgent.Agent

open VasalAgent.Async
open VasalAgent.Protocol
open VasalAgent.Task
open VasalAgent.Transport

/-! ## What is kept -/

def journalFails : Event AgentSig → Bool
  | ⟨.recordTaskResult _, .error _⟩ => true
  | ⟨.exec (.recordTick _ _), .error _⟩ => true
  | _ => false

variable {agent : AgentConfig}

/-- Future `i` has a result in the journal, or one that was handed to the transport. -/
def Recorded (pool : Pool agent.system) (i : Nat) : Prop :=
  (∃ event ∈ pool.history i, ∃ row ∈ pool.shared.journal, journaled? event = some row) ∨
    ∃ result ∈ pool.shared.forwarded, ⟨.sendResult result, ()⟩ ∈ pool.history i

/-- The state in which `run` has just returned; with it the process exits. -/
structure Exits (pool : Pool agent.system) : Prop where
  returned : pool.futures[0]? = some ⟨.main, .ret ()⟩
  last : pool.log.getLast? = some (0, ⟨.joinBackground, ()⟩)

/-- When `run` returns, the `k`th submission has run as future `k + 1` and is recorded. -/
def NothingLost (pool : Pool agent.system) : Prop :=
  Exits pool → ∀ k work, ((submissions pool).filter spawnsFuture)[k]? = some work →
    ∃ body rest, RunsBody pool (k + 1) body rest ∧ body.work = work ∧ Recorded pool (k + 1)

/-! ## Policies -/

/-- Only the main loop is started, and writes of the journal succeed. -/
def writable (agent : AgentConfig) : Policy agent.system where
  start _ _ := False
  fire _ _ event := journalFails event = false
  env _ _ := True

def Keeps (event : Event AgentSig) : Prop :=
  journalFails event = false ∧
    match event with
    | ⟨.submit (.chain chain), _⟩ => chain.steps ≠ []
    | ⟨.exec op, ans⟩ => StartsLive ⟨op, ans⟩
    | _ => True

/--
As `writable`; moreover a chain has steps and is not cancelled before its first
one, and `run` returns only when every spawned future has.
-/
def awaited (agent : AgentConfig) : Policy agent.system where
  start _ _ := False
  fire pool _ event := Keeps event ∧
    (event.1 = .joinBackground → ∀ i body rest, RunsBody pool i body rest → rest = .ret ())
  env _ _ := True

/-! ## Runs -/

section Runs

variable {pool next : Pool agent.system}

structure Kept (pool : Pool agent.system) : Prop where
  keeps : ∀ entry ∈ pool.log, Keeps entry.2
  journal : ∀ entry ∈ pool.log, ∀ row, journaled? entry.2 = some row →
    row ∈ pool.shared.journal
  joined : pool.log.getLast? = some (0, ⟨.joinBackground, ()⟩) →
    ∀ i body rest, RunsBody pool i body rest → rest = .ret ()
  dispatched : ∃ round bodies, Dispatched pool round bodies ∧
    (pool.log.getLast? = some (0, ⟨.joinBackground, ()⟩) → round.carrying = none)

theorem kept_start (shared : Shared) :
    Kept ((Pool.initial shared : Pool agent.system).launch .main) :=
  ⟨by simp [Pool.initial, Pool.launch], by simp [Pool.initial, Pool.launch],
    by simp [Pool.initial, Pool.launch],
    ⟨.idle, [], dispatched_start shared, fun _ => rfl⟩⟩

theorem joins_of_last {i : Nat} {job : Job} {event : Event AgentSig}
    {rest : Prog AgentSig Unit} {shared : Shared}
    (h : (pool.advance i job event rest shared).log.getLast? =
      some (0, ⟨.joinBackground, ()⟩)) :
    i = 0 ∧ event = ⟨.joinBackground, ()⟩ := by
  simpa [Pool.advance] using h

theorem kept_step (step : Step (awaited agent) pool next) (hprojects : pool.Projects)
    (h : Kept pool) : Kept next := by
  obtain ⟨round, bodies, hdispatched, hcarrying⟩ := h.dispatched
  cases step with
  | start hexternal allowed => exact allowed.elim
  | env henv allowed =>
      refine ⟨h.keeps, fun entry hentry row hrow => ?_, h.joined, round, bodies,
        ⟨hdispatched.jobs, hdispatched.stage, hdispatched.spawned⟩, hcarrying⟩
      rw [(environment_outside henv).journal]
      exact h.journal entry hentry row hrow
  | @fire i job op cont proposal ans shared hfuture hperform allowed =>
      have hentry {entry : Nat × Event AgentSig}
          (hmem : entry ∈ pool.log ++ [(i, ⟨op, ans⟩)]) :
          entry ∈ pool.log ∨ entry = (i, ⟨op, ans⟩) := by
        simpa using hmem
      refine ⟨fun entry hmem => ?_, fun entry hmem row hrow => ?_, fun hlast => ?_, ?_⟩
      · rcases hentry hmem with hold | rfl
        · exact h.keeps entry hold
        · exact allowed.1
      · change row ∈ shared.journal
        rw [(perform_effect hperform).journal, List.mem_append]
        rcases hentry hmem with hold | rfl
        · exact .inl (h.journal entry hold row hrow)
        · exact .inr (by rw [hrow]; exact List.mem_singleton_self row)
      · -- what `join!` leaves was there before
        obtain ⟨rfl, hevent⟩ := joins_of_last hlast
        have hop : op = .joinBackground := congrArg Sigma.fst hevent
        intro j body rest hruns
        rcases runsBody_advance hfuture hruns with ⟨-, hjob, -⟩ | ⟨-, hspawn, -⟩ | hold
        · rcases hdispatched.future hfuture with ⟨-, hmain⟩ | ⟨hne, -⟩
          · rw [hmain] at hjob
            cases hjob
          · exact absurd rfl hne
        · cases hop.symm.trans hspawn
        · exact allowed.2 hop j body rest hold
      · rcases hdispatched.future hfuture with ⟨rfl, -⟩ | ⟨hi, body, -, rfl⟩
        · obtain ⟨after, hdispatches, hafter⟩ := hdispatched.main_step hprojects hfuture ans
          refine ⟨after, _, hafter, fun hlast => ?_⟩
          cases (joins_of_last hlast).2
          cases hdispatches with
          | join => rfl
          | other hneutral => cases hneutral
        · exact ⟨round, bodies, (hdispatched.body_step hprojects hi hfuture ans).2,
            fun hlast => absurd (joins_of_last hlast).1 hi⟩

theorem kept_run {shared : Shared}
    (run : Run (awaited agent) ((Pool.initial shared).launch .main) pool) :
    pool.Projects ∧ Kept pool :=
  Run.invariant_of_projects run (projects_start shared) (kept_start shared) kept_step

/-- A journal stage of the pipeline is a write that succeeded. -/
theorem Kept.recorded (h : Kept pool) {i : Nat} {row : TaskResultRow}
    (hrow : .journal row ∈ (pool.history i).filterMap pipelineEvent?) :
    Recorded pool i := by
  obtain ⟨⟨op, ans⟩, hevent, hstage⟩ := List.mem_filterMap.mp hrow
  have hlog := Pool.mem_history.mp hevent
  cases op with
  | recordTaskResult other =>
      cases hstage
      cases ans with
      | error e => cases (h.keeps _ hlog).1
      | ok _ => exact .inl ⟨_, hevent, row, h.journal _ hlog row rfl, rfl⟩
  | _ => cases hstage

theorem Kept.journals (h : Kept pool) (hprojects : pool.Projects)
    (htx : agent.manager.resultTx = true) {i : Nat} {body : Body}
    (hruns : RunsBody pool i body (.ret ()))
    (hchain : ∀ chain n, body = .chain chain n → chain.steps ≠ []) :
    ∃ row, .journal row ∈ (pool.history i).filterMap pipelineEvent? := by
  have hsteps := hprojects.steps _ _ hruns
  cases body with
  | exec exec n =>
      obtain ⟨result, hfinished⟩ := finished_runExec htx hsteps
      exact ⟨resultToJournalRow result, by simp [hfinished.emitted, reported]⟩
  | routed task n =>
      obtain ⟨result, hfinished⟩ := finished_runRouted htx hsteps
      exact ⟨resultToJournalRow result, by simp [hfinished.emitted, reported]⟩
  | chain chain n =>
      obtain ⟨results, hfinished⟩ := finished_runChain htx hsteps
      obtain ⟨inner, hinner, hpart⟩ := hfinished.executed
      have hlive : ∀ event ∈ inner, StartsLive event := fun event hevent =>
        (h.keeps _ (Pool.mem_history.mp
          (hpart.subset (List.mem_map_of_mem hevent)))).2
      have hresults : results ≠ [] :=
        (yields_nonempty (hchain chain n rfl)).steps hinner hlive
      obtain ⟨result, rest, rfl⟩ := List.exists_cons_of_ne_nil hresults
      exact ⟨resultToJournalRow result, by simp [hfinished.emitted, reported]⟩

theorem Kept.steps_ne_nil (h : Kept pool) {chain : TaskChain}
    (hmem : .chain chain ∈ submissions pool) : chain.steps ≠ [] := by
  obtain ⟨⟨i, op, ans⟩, hentry, hsubmitted⟩ := List.mem_filterMap.mp hmem
  cases op with
  | submit work =>
      cases hsubmitted
      exact (h.keeps _ hentry).2
  | _ => cases hsubmitted

theorem nothingLost_of_awaited (htx : agent.manager.resultTx = true) {shared : Shared}
    (run : Run (awaited agent) ((Pool.initial shared).launch .main) pool) :
    NothingLost pool := by
  obtain ⟨hprojects, hkept⟩ := kept_run run
  obtain ⟨round, bodies, hdispatched, hcarrying⟩ := hkept.dispatched
  intro hexits k work hwork
  rw [hdispatched.spawned, hcarrying hexits.last, Option.toList_none, List.append_nil,
    List.getElem?_map, Option.map_eq_some_iff] at hwork
  obtain ⟨body, hbody, rfl⟩ := hwork
  obtain ⟨rest, hruns⟩ := hdispatched.runsBody hbody
  obtain rfl : rest = .ret () := hkept.joined hexits.last _ _ _ hruns
  have hsubmitted : body.work ∈ submissions pool := by
    have hmem : body.work ∈ (submissions pool).filter spawnsFuture := by
      rw [hdispatched.spawned, List.mem_append]
      exact .inl (List.mem_map_of_mem (List.mem_of_getElem? hbody))
    exact (List.mem_filter.mp hmem).1
  obtain ⟨row, hrow⟩ := hkept.journals hprojects htx hruns fun chain n heq => by
    subst heq
    exact hkept.steps_ne_nil hsubmitted
  exact ⟨body, _, hruns, rfl, hkept.recorded hrow⟩

end Runs

/-! ## A task that is lost -/

def shutDown : List (Label pollingAgent.system) :=
  [.fire 0 obliging, .env .shutdown] ++ List.replicate 5 (.fire 0 obliging)

theorem shutdown_loses_task :
    ∃ pool, Run (writable pollingAgent) pollingStart pool ∧ ¬ NothingLost pool := by
  have hanswered : Pool.Follows (writable pollingAgent) pollingStart answeredOnce := by
    iterate 5 refine .cons (Pool.allows_fire _ rfl fun _ => rfl) rfl ?_
    iterate 5 refine .cons trivial rfl ?_
    trivial
  have hfollows : Pool.Follows (writable pollingAgent) (fetched (.ok [sampleWork]))
      (submittedItem ++ shutDown) := by
    iterate 10 refine .cons (Pool.allows_fire _ rfl fun _ => rfl) rfl ?_
    refine .cons trivial rfl ?_
    iterate 5 refine .cons (Pool.allows_fire _ rfl fun _ => rfl) rfl ?_
    trivial
  refine ⟨((fetched (.ok [sampleWork])).script (submittedItem ++ shutDown)).get rfl,
    (run_answeredOnce hanswered).trans (Pool.run_script hfollows), fun h => ?_⟩
  obtain ⟨body, rest, -, -, hrecorded⟩ := h ⟨rfl, rfl⟩ 0 sampleWork rfl
  -- the future of the task has not made a single call
  rcases hrecorded with ⟨event, hevent, -⟩ | ⟨result, -, hevent⟩
  · exact List.not_mem_nil hevent
  · exact List.not_mem_nil hevent

/-- The future runs to its end before the signal comes; its result is forwarded. -/
def ranThenShutDown : List (Label pollingAgent.system) :=
  submittedItem ++ List.replicate 14 (.fire 1 obliging) ++ shutDown ++
    List.replicate 2 (.fire 0 obliging)

def AgentOp.joins : AgentOp → Bool
  | .joinBackground => true
  | _ => false

theorem awaited_fire {agent : AgentConfig} {pool : Pool agent.system} {i : Nat}
    {event : Event AgentSig} (hkeeps : Keeps event) (hjoins : event.1.joins = false) :
    (awaited agent).fire pool i event := by
  refine ⟨hkeeps, fun heq => ?_⟩
  rw [heq] at hjoins
  cases hjoins

theorem answeredOnce_awaited :
    Pool.Follows (awaited pollingAgent) pollingStart answeredOnce := by
  iterate 5
    refine .cons (Pool.allows_fire _ rfl fun _ => awaited_fire ⟨rfl, trivial⟩ rfl) rfl ?_
  iterate 5 refine .cons trivial rfl ?_
  trivial

theorem ranThenShutDown_follows :
    Pool.Follows (awaited pollingAgent) (fetched (.ok [sampleWork])) ranThenShutDown := by
  iterate 9
    refine .cons (Pool.allows_fire _ rfl fun _ => awaited_fire ⟨rfl, trivial⟩ rfl) rfl ?_
  iterate 14
    refine .cons (Pool.allows_performed rfl rfl (awaited_fire ⟨rfl, trivial⟩ rfl)) rfl ?_
  refine .cons (Pool.allows_fire _ rfl fun _ => awaited_fire ⟨rfl, trivial⟩ rfl) rfl ?_
  refine .cons trivial rfl ?_
  iterate 6
    refine .cons (Pool.allows_fire _ rfl fun _ => awaited_fire ⟨rfl, trivial⟩ rfl) rfl ?_
  refine .cons (Pool.allows_fire _ rfl fun _ => ⟨⟨rfl, trivial⟩, ?_⟩) rfl trivial
  rintro - (_ | _ | i) body rest hruns
  · cases hruns
  · cases hruns
    rfl
  · cases hruns

theorem nothingLost_ranThenShutDown :
    ∃ pool, Run (awaited pollingAgent) pollingStart pool ∧ Exits pool ∧
      NothingLost pool := by
  have run : Run (awaited pollingAgent) pollingStart
      (((fetched (.ok [sampleWork])).script ranThenShutDown).get rfl) :=
    (run_answeredOnce answeredOnce_awaited).trans (Pool.run_script ranThenShutDown_follows)
  exact ⟨_, run, ⟨rfl, rfl⟩, nothingLost_of_awaited rfl run⟩

end VasalAgent.Agent
