import VasalAgent.Agent.Reload
import VasalAgent.Agent.WellFormed

/-!
# Who waits for whom

Two calls of the agent can find nothing to do: the `acquire` of a permit and the
`send` on the bounded result channel.  A task that waits for a permit waits for
one that executes, an executing task waits at most for room in the channel, and
the main loop, which makes that room, never waits.  So the waiting ends, unless
the semaphore was built with no permit at all: then no exec task and no chain
ever makes a call, and no reload changes that.
-/

namespace VasalAgent.Agent

open VasalAgent.Async
open VasalAgent.Protocol
open VasalAgent.Task
open VasalAgent.Transport

/-! ## Calls that cannot complete -/

/-- What a call needs of the state, if it cannot complete there. -/
inductive Lacks (s : Shared) : AgentOp → Prop
  | permit (h : s.permits = 0) : Lacks s .acquire
  | room {result : TaskResult} (h : channelCapacity ≤ s.channel.length) :
      Lacks s (.sendResult result)

section Calls

variable {agent : AgentConfig} {s s' : Shared}

/-- No `select!` of an executor refuses an answer that cancels nothing. -/
theorem execAnswer_sampleWorld (s : Shared) (op : ExecOp) :
    (s.execAnswer op ((sampleWorld exitsZero none).oracle op)).isSome := by
  cases op <;> rfl

theorem lacks_of_blocked {op : AgentOp}
    (h : ∀ proposal, perform agent s op proposal = none) : Lacks s op := by
  cases op with
  | acquire =>
      have hnone := h ()
      simp only [perform, ite_eq_right_iff, reduceCtorEq, imp_false] at hnone
      exact .permit (by omega)
  | sendResult result =>
      have hnone := h ()
      simp only [perform, ite_eq_right_iff, reduceCtorEq, imp_false] at hnone
      exact .room (by omega)
  | exec op =>
      have hnone := h ((sampleWorld exitsZero none).oracle op)
      have hsome := execAnswer_sampleWorld s op
      simp only [perform, Option.map_eq_none_iff] at hnone
      rw [hnone] at hsome
      cases hsome
  -- the other calls complete in every state, whatever is answered
  | _ => cases h default

theorem blocked_of_lacks {op : AgentOp} (h : Lacks s op) (proposal : op.Ans) :
    perform agent s op proposal = none := by
  cases h with
  | permit h => simp [perform, h]
  | room h => simp [perform, Nat.not_lt_of_ge h]

theorem Lacks.not_control {op : AgentOp} (h : Lacks s op) : ¬ op.isControl := by
  cases h <;> exact id

theorem channel_perform {op : AgentOp} {proposal ans : op.Ans}
    (h : perform agent s op proposal = some (ans, s'))
    (hle : s.channel.length ≤ channelCapacity) : s'.channel.length ≤ channelCapacity := by
  have hchannel := congrArg List.length (performs_of_perform h).channel.1
  rw [List.length_append, List.length_append] at hchannel
  cases op with
  | sendResult result =>
      simp only [perform, Option.ite_none_right_eq_some] at h
      obtain ⟨hroom, h⟩ := h
      cases h
      simp only [List.length_append, List.length_singleton]
      omega
  | _ =>
      simp only [sentResult?, Option.toList_none, List.length_nil] at hchannel
      omega

end Calls

/-! ## Futures that wait -/

section Pools

variable {agent : AgentConfig} {maxConcurrent : Nat} {pool : Pool agent.system} {i : Nat}

/-- Future `i` has made a call that cannot complete. -/
def Blocked (pool : Pool agent.system) (i : Nat) : Prop :=
  ∃ job op next, pool.futures[i]? = some ⟨job, .call op next⟩ ∧
    ∀ proposal, perform agent pool.shared op proposal = none

theorem channel_run (run : Run (Policy.free agent.system)
    (Pool.initial (Shared.initial maxConcurrent)) pool) :
    pool.shared.channel.length ≤ channelCapacity := by
  refine run.invariant
    (I := fun pool : Pool agent.system => pool.shared.channel.length ≤ channelCapacity)
    (Nat.zero_le _) fun step h => ?_
  cases step with
  | start hexternal allowed => exact h
  | env henv allowed =>
      rw [(environment_channel henv).1]
      exact h
  | fire hfuture hperform allowed => exact channel_perform hperform h

theorem not_control_of_next (hprojects : pool.Projects) {job : Job} {op : AgentOp}
    {next : op.Ans → Prog AgentSig Unit}
    (hfuture : pool.futures[i]? = some ⟨job, .call op next⟩) (hlacks : Lacks pool.shared op) :
    ∃ body, job = .body body := by
  -- the main loop and the submissions make neither of the two calls
  have hcontrol (huses : (agent.program job).Uses AgentOp.isControl) (ans : op.Ans) : False := by
    have hsteps := (hprojects.steps i _ hfuture).snoc ans
    have hop := huses.steps hsteps ⟨op, ans⟩ (by simp)
    exact hlacks.not_control hop
  have hans : Nonempty op.Ans := by
    cases hlacks <;> exact ⟨()⟩
  cases job with
  | body body => exact ⟨body, rfl⟩
  | main => exact (hcontrol (uses_run agent.rounds) hans.some).elim
  | call work => exact (hcontrol (uses_submitWork work) hans.some).elim

theorem history_of_acquire (hprojects : pool.Projects) {body : Body}
    {next : Unit → Prog AgentSig Unit} (hruns : RunsBody pool i body (.call .acquire next)) :
    body.gated = true ∧ pool.history i = [] := by
  have hsteps : Prog.Steps (agent.manager.runBody body) (pool.history i ++ [⟨.acquire, ()⟩])
      (next ()) :=
    (hprojects.steps i _ hruns).snoc ()
  have hgated : body.gated = true := by
    by_contra hne
    have hungated : body.gated = false := Bool.eq_false_of_not_eq_true hne
    have hjob : ∀ other, Job.body body = .body other → other.gated = false := by
      rintro other ⟨⟩
      exact hungated
    have hnone := exempt_of_steps hjob hsteps ⟨.acquire, ()⟩ (by simp)
    cases hnone
  refine ⟨hgated, ?_⟩
  have hheld := heldAround_of_steps hgated hsteps
  generalize hevents : pool.history i ++ [⟨.acquire, ()⟩] = events at hheld
  generalize next () = rest at hheld
  cases hheld with
  | waiting hrest => simp at hevents
  | @holding calls _ hcalls hrest =>
      cases hhistory : pool.history i with
      | nil => rfl
      | cons first later =>
          rw [hhistory, List.cons_append, List.cons.injEq] at hevents
          have hpermit := hcalls ⟨.acquire, ()⟩ (by simp [← hevents.2])
          cases hpermit
  | @finished calls hcalls hremoved =>
      have hlast := congrArg List.getLast? hevents
      rw [← List.cons_append, List.getLast?_concat, List.getLast?_concat] at hlast
      cases hlast

theorem history_of_executing (h : Executing pool i = true) : pool.history i ≠ [] := by
  intro hnil
  rw [Executing, hnil] at h
  cases hfuture : pool.futures[i]? <;> simp [hfuture, isExecuting] at h

theorem exists_executing (h : 0 < executing pool) : ∃ j, Executing pool j = true := by
  by_contra hnone
  have hzero : executing pool = 0 :=
    Nat.count_of_forall_not fun j _ hj => hnone ⟨j, hj⟩
  omega

/-! ## No deadlock -/

/--
Who waits, and for what: a spawned future, for room in a full channel, or at its
beginning for the permit of a future that executes and does not wait itself.
-/
structure DeadlockFree (pool : Pool agent.system) : Prop where
  spawned : ∀ {i}, Blocked pool i → ∃ body rest, RunsBody pool i body rest
  waits : ∀ {i}, Blocked pool i →
    pool.shared.channel.length = channelCapacity ∨
      pool.history i = [] ∧ ∃ j, Executing pool j = true ∧ ¬ Blocked pool j

theorem full_of_blocked_executing (hprojects : pool.Projects)
    (hle : pool.shared.channel.length ≤ channelCapacity)
    (hexecuting : Executing pool i = true) (h : Blocked pool i) :
    pool.shared.channel.length = channelCapacity := by
  obtain ⟨job, op, next, hfuture, hblocked⟩ := h
  have hlacks := lacks_of_blocked hblocked
  obtain ⟨body, rfl⟩ := not_control_of_next hprojects hfuture hlacks
  cases hlacks with
  | permit hzero =>
      exact absurd (history_of_acquire hprojects hfuture).2 (history_of_executing hexecuting)
  | room hfull => exact Nat.le_antisymm hle hfull

theorem deadlockFree_of_run (hpos : 0 < maxConcurrent)
    (run : Run (Policy.free agent.system)
      (Pool.initial (Shared.initial maxConcurrent)) pool) :
    DeadlockFree pool := by
  have hprojects := run.projects
  have hle := channel_run run
  refine ⟨fun hi => ?_, fun {i} hi => ?_⟩
  · obtain ⟨job, op, next, hfuture, hblocked⟩ := hi
    obtain ⟨body, rfl⟩ := not_control_of_next hprojects hfuture (lacks_of_blocked hblocked)
    exact ⟨body, _, hfuture⟩
  · obtain ⟨job, op, next, hfuture, hblocked⟩ := hi
    have hlacks := lacks_of_blocked hblocked
    obtain ⟨body, rfl⟩ := not_control_of_next hprojects hfuture hlacks
    cases hlacks with
    | room hfull => exact .inl (Nat.le_antisymm hle hfull)
    | permit hzero =>
        -- no permit is left, so some future has it
        have hbalance := balance_run run
        rw [← executing_count hprojects] at hbalance
        obtain ⟨j, hj⟩ := exists_executing (show 0 < executing pool by omega)
        by_cases hwaits : Blocked pool j
        · exact .inl (full_of_blocked_executing hprojects hle hj hwaits)
        · exact .inr ⟨(history_of_acquire hprojects hfuture).2, j, hj, hwaits⟩

/-- The second of two tasks waits while the first has the one permit. -/
theorem deadlockFree_waiting :
    ∃ pool, Run (Policy.free sampleAgent.system) sampleStart pool ∧ 0 < 1 ∧
      Blocked pool 3 ∧ DeadlockFree pool := by
  have run : Run (Policy.free sampleAgent.system) sampleStart
      ((sampleStart.script oneExecuting).get rfl) :=
    Pool.run_script_free _
  refine ⟨_, run, Nat.one_pos, ⟨_, .acquire, _, rfl, fun _ => rfl⟩, ?_⟩
  exact deadlockFree_of_run Nat.one_pos run

end Pools

/-! ## No permit at all -/

section Zero

variable {agent : AgentConfig}

theorem not_acquired {pool : Pool agent.system}
    (run : Run (Policy.free agent.system) (Pool.initial (Shared.initial 0)) pool) :
    ∀ entry ∈ pool.log, entry.2.1.isAcquire = false := by
  have hinvariant := run.invariant_of_projects
    (I := fun pool : Pool agent.system => permitHolders pool + pool.shared.permits = 0 ∧
      ∀ entry ∈ pool.log, entry.2.1.isAcquire = false)
    (Pool.initial_projects _) ⟨rfl, fun entry hentry => absurd hentry List.not_mem_nil⟩
    fun {before _} step hprojects h => ⟨balance_step step hprojects h.1, ?_⟩
  · exact hinvariant.2.2
  · cases step with
    | start _ _ => exact h.2
    | env _ _ => exact h.2
    | @fire i job op cont proposal ans shared hfuture hperform allowed =>
        intro entry hentry
        rcases List.mem_append.mp hentry with hold | hnew
        · exact h.2 entry hold
        · rw [List.mem_singleton] at hnew
          subst hnew
          cases op with
          | acquire =>
              have hzero : before.shared.permits = 0 := by omega
              simp [perform, hzero] at hperform
          | _ => rfl

/-- The future of an exec task or a chain stands before its first call and waits. -/
def Starved (pool : Pool agent.system) (i : Nat) (body : Body) : Prop :=
  RunsBody pool i body (agent.manager.runBody body) ∧ pool.history i = [] ∧ Blocked pool i

theorem starved_of_run {pool : Pool agent.system} {i : Nat} {body : Body}
    {rest : Prog AgentSig Unit}
    (run : Run (Policy.free agent.system) (Pool.initial (Shared.initial 0)) pool)
    (hruns : RunsBody pool i body rest) (hgated : body.gated = true) : Starved pool i body := by
  have hprojects := run.projects
  have hsteps : Prog.Steps (agent.manager.runBody body) (pool.history i) rest :=
    hprojects.steps i _ hruns
  have hnone (event : Event AgentSig) (hevent : event ∈ pool.history i) :
      event.1.isAcquire = false :=
    not_acquired run _ (Pool.mem_history.mp hevent)
  have hnil : pool.history i = [] := by
    have hheld := heldAround_of_steps hgated hsteps
    generalize pool.history i = events at hheld hnone
    cases hheld with
    | waiting _ => rfl
    | holding _ _ => cases hnone ⟨.acquire, ()⟩ (by simp)
    | finished _ _ => cases hnone ⟨.acquire, ()⟩ (by simp)
  rw [hnil] at hsteps
  cases hsteps.eq_of_nil
  have hzero : pool.shared.permits = 0 := by
    have hbalance := balance_run run
    omega
  have hwaits : Blocked pool i := by
    rw [runBody_eq, if_pos hgated] at hruns
    exact ⟨.body body, .acquire, _, hruns, blocked_of_lacks (.permit hzero)⟩
  exact ⟨hruns, hnil, hwaits⟩

/-- A limit of zero stops every exec task and every chain for good, reloads or not. -/
theorem starved_of_reloads {config : Config} {last : Reloading agent} {i : Nat} {body : Body}
    {rest : Prog AgentSig Unit} (hzero : config.shell.maxConcurrent = 0)
    (run : ReloadRun (fun _ _ => True) (Reloading.initial config) last)
    (hruns : RunsBody last.pool i body rest) (hgated : body.gated = true) :
    Starved last.pool i body := by
  have hpool : Run (Policy.free agent.system)
      (Pool.initial (Shared.initial config.shell.maxConcurrent)) last.pool := run.pool
  rw [hzero] at hpool
  exact starved_of_run hpool hruns hgated

/-- A task is submitted to an agent without permits, which then reloads a limit of two. -/
theorem starved_reloaded :
    ∃ last : Reloading sampleAgent,
      ReloadRun (fun _ _ => True) (Reloading.initial (sampleConfig 0)) last ∧
        last.settings.runtime.maxConcurrent = 2 ∧
        Starved last.pool 1 (.exec (sampleTask 1) 0) := by
  have hpool : Run (Policy.free sampleAgent.system) (Pool.initial (Shared.initial 0))
      (((Pool.initial (Shared.initial 0)).script submittedOnce).get rfl) :=
    Pool.run_script_free _
  have run : ReloadRun (fun _ _ => True) (Reloading.initial (sampleConfig 0))
      (reloadedTo 0 2 (((Pool.initial (Shared.initial 0)).script submittedOnce).get rfl)) :=
    .tail (reloadRun_of_run _ hpool) (.sighup trivial)
  exact ⟨_, run, rfl, starved_of_reloads rfl run rfl rfl⟩

end Zero

end VasalAgent.Agent
