import VasalAgent.Agent.Registration
import VasalAgent.Async.Ledger

/-!
# Tasks that are out of reach

Two submissions with one id share one entry of `active_tasks`: the second one overwrites it,
and whichever task ends first takes it out.  Either way a task that still runs is left
without an entry, and no cancellation reaches it again.
-/

namespace VasalAgent.Agent

open VasalAgent.Async
open VasalAgent.Async.Ownership
open VasalAgent.Protocol
open VasalAgent.Task

variable {agent : AgentConfig}

abbrev ledger (pool : Pool agent.system) : Ledger Nat Uuid :=
  ⟨stages pool, pool.shared.owner, pool.shared.nextToken, pool.shared.cancelled⟩

theorem ledger_eq {pool : Pool agent.system} {stage : Nat → Option (Stage Uuid)}
    {owner : Uuid → Option Nat} {next : Nat} {cancelled : List Nat}
    (hstage : stages pool = stage) (howner : pool.shared.owner = owner)
    (hnext : pool.shared.nextToken = next) (hcancelled : pool.shared.cancelled = cancelled) :
    ledger pool = ⟨stage, owner, next, cancelled⟩ := by
  rw [ledger, hstage, howner, hnext, hcancelled]

theorem moves_of_step {π : Policy agent.system} {pool next : Pool agent.system}
    (step : Step π pool next) (hprojects : pool.Projects) :
    Moves (ledger pool) (ledger next) := by
  cases step with
  | @start job hexternal allowed =>
      have hidle : firstStage job = .idle := by
        cases job with
        | body body => cases hexternal
        | _ => rfl
      have hstages : stages (pool.launch job) =
          Function.update (stages pool) pool.futures.length (some .idle) := by
        rw [stages, Pool.stage_launch _ _ hprojects, hidle]
      rw [ledger_eq hstages rfl rfl rfl]
      exact .join (Pool.stage_length ..)
  | @env event shared henv allowed =>
      have houtside := environment_outside henv
      have hsame : ledger ({ pool with shared } : Pool agent.system) = ledger pool :=
        ledger_eq rfl (Shared.owner_congr houtside.active) houtside.nextToken houtside.cancelled
      rw [hsame]
      exact .same
  | @fire i job op cont proposal ans shared hfuture hperform allowed =>
      obtain ⟨q, q', hq, hq'⟩ :=
        hprojects.accepts (program_registration agent) hfuture ans
      have heffect := perform_effect hperform
      have hsingle (hspawned : spawned op = none) :
          stages (pool.advance i job ⟨op, ans⟩ (cont ans) shared) =
            Function.update (stages pool) i (some q') :=
        Pool.stage_advance_single _ _ hprojects hfuture hq hq' hspawned
      -- most calls leave the stage, the registry, the counter and the cancelled tokens alone
      have hneutral (hsame : pool.shared.active.after ⟨op, ans⟩ = pool.shared.active)
          (htokens : drawnTokens ⟨op, ans⟩ = 0) (hnone : cancelledToken? ⟨op, ans⟩ = none)
          (hspawned : spawned op = none) (hstage : q = q') :
          Moves (ledger pool) (ledger (pool.advance i job ⟨op, ans⟩ (cont ans) shared)) := by
        have hstages : stages (pool.advance i job ⟨op, ans⟩ (cont ans) shared) = stages pool := by
          rw [hsingle hspawned, ← hstage, ← hq, Function.update_eq_self]
        rw [ledger_eq hstages (Shared.owner_congr (heffect.active.trans hsame))
          (heffect.nextToken.trans (by rw [htokens, Nat.add_zero]))
          (heffect.cancelled.trans (by rw [hnone]))]
        exact .same
      cases op with
      | newToken =>
          obtain ⟨rfl, rfl⟩ : q = .idle ∧ q' = .fresh ans := by
            simpa [registration, eq_comm] using hq'
          cases hperform
          rw [ledger_eq (hsingle rfl) rfl rfl rfl]
          exact .draw hq
      | insertActive id entry =>
          obtain ⟨rfl, rfl⟩ : q = .fresh entry.cancelToken ∧
              q' = .holding id entry.cancelToken := by
            simpa [registration, eq_comm] using hq'
          cases hperform
          rw [ledger_eq (hsingle rfl) (Shared.owner_insert id entry) rfl rfl]
          exact .enter hq
      | removeActive id =>
          obtain ⟨token, rfl, rfl⟩ : ∃ token, q = .holding id token ∧ q' = .idle := by
            cases q with
            | holding held token => simpa [registration, eq_comm] using hq'
            | _ => cases hq'
          cases hperform
          rw [ledger_eq (hsingle rfl) (Shared.owner_erase id) rfl rfl]
          exact .leave hq
      | spawn body =>
          obtain ⟨rfl, rfl⟩ : q = .holding body.id body.cancelToken ∧ q' = .idle := by
            simpa [registration, eq_comm] using hq'
          have hspawn : stages (pool.advance i job ⟨.spawn body, ans⟩ (cont ans) shared) =
              Function.update (Function.update (stages pool) pool.futures.length
                (some (.holding body.id body.cancelToken))) i (some .idle) :=
            Pool.stage_advance_spawn _ _ hprojects hfuture hq hq' rfl
          cases hperform
          rw [ledger_eq hspawn rfl rfl rfl]
          exact .handOver hq (Pool.stage_length ..)
      | cancelActive id =>
          have hstages : stages (pool.advance i job ⟨.cancelActive id, ans⟩ (cont ans) shared) =
              stages pool := by
            rw [hsingle rfl, ← Option.some.inj hq', ← hq, Function.update_eq_self]
          simp only [AgentConfig.system, perform, Shared.cancelActive] at hperform
          split at hperform
          next entry hlookup =>
              have howner : pool.shared.owner id = some entry.cancelToken := by
                rw [Shared.owner, hlookup, Option.map_some]
              cases hperform
              rw [ledger_eq hstages rfl rfl rfl]
              exact .cancel howner
          next =>
              cases hperform
              rw [ledger_eq hstages rfl rfl rfl]
              exact .same
      | _ => exact hneutral rfl rfl rfl rfl (Option.some.inj hq')

/-- Also when ids repeat, a token stands under no id but its task's. -/
theorem orderly_run {maxConcurrent : Nat} {pool : Pool agent.system}
    (run : Run (Policy.free agent.system) (Pool.initial (Shared.initial maxConcurrent)) pool) :
    Orderly (ledger pool) := by
  have hinitial : Orderly (ledger (Pool.initial (Shared.initial maxConcurrent) :
      Pool agent.system)) := Orderly.empty []
  exact (run.invariant_of_projects (I := fun pool : Pool agent.system => Orderly (ledger pool))
    (Pool.initial_projects _) hinitial fun step hprojects =>
      (moves_of_step step hprojects).orderly).2

theorem displaced_run {pool later : Pool agent.system} {token : Nat} (hprojects : pool.Projects)
    (h : Displaced (ledger pool) token) (run : Run (Policy.free agent.system) pool later) :
    Displaced (ledger later) token ∧
      (token ∈ later.shared.cancelled ↔ token ∈ pool.shared.cancelled) := by
  refine (run.invariant_of_projects (I := fun last : Pool agent.system =>
    Displaced (ledger last) token ∧ (token ∈ last.shared.cancelled ↔ token ∈ pool.shared.cancelled))
    hprojects ⟨h, Iff.rfl⟩ fun step hprojects hlast => ?_).2
  obtain ⟨hdisplaced, hsame⟩ := (moves_of_step step hprojects).displaced hlast.1
  exact ⟨hdisplaced, hsame.trans hlast.2⟩

/--
A task that is running and whose entry is not its own, because a task with its id overwrote
it or took it out: no cancellation reaches the task any more, whatever is submitted later.
-/
theorem out_of_reach {maxConcurrent i : Nat} {pool later : Pool agent.system} {body : Body}
    (hreached : Run (Policy.free agent.system) (Pool.initial (Shared.initial maxConcurrent)) pool)
    (hrunning : Unfinished pool i body)
    (hentry : pool.shared.owner body.id ≠ some body.cancelToken)
    (run : Run (Policy.free agent.system) pool later) :
    (∀ id, later.shared.owner id ≠ some body.cancelToken) ∧
      later.shared.taskCancelled body.cancelToken = pool.shared.taskCancelled body.cancelToken := by
  have hprojects := hreached.projects
  have hdisplaced := (orderly_run hreached).displaced (hrunning.stage hprojects) hentry
  obtain ⟨hlater, hsame⟩ := displaced_run hprojects hdisplaced run
  refine ⟨hlater.gone, ?_⟩
  rw [Shared.taskCancelled, Shared.taskCancelled, Bool.eq_iff_iff, List.contains_iff_mem,
    List.contains_iff_mem, hsame]

/-- The id is submitted a second time and then cancelled. -/
def cancelledTwice : List (Label sampleAgent.system) :=
  .start (.call (.single (.cancel ⟨⟨7⟩, .normal, [], ⟨1⟩⟩))) ::
    List.replicate 3 (.fire 3 obliging)

theorem out_of_reach_resubmitted :
    ∃ pool later : Pool sampleAgent.system,
      Run (Policy.free sampleAgent.system) sampleStart pool ∧
      Run (Policy.free sampleAgent.system) pool later ∧
      Unfinished pool 1 (.exec (sampleTask 1) 0) ∧ later.shared.taskCancelled 1 = true ∧
      later.shared.taskCancelled 0 = false := by
  have hreached : Run (Policy.free sampleAgent.system) sampleStart
      ((sampleStart.script submittedTwice).get rfl) := Pool.run_script_free _
  have hrunning : Unfinished ((sampleStart.script submittedTwice).get rfl) 1
      (.exec (sampleTask 1) 0) := ⟨⟨_, rfl⟩, List.not_mem_nil⟩
  have run : Run (Policy.free sampleAgent.system) ((sampleStart.script submittedTwice).get rfl)
      ((((sampleStart.script submittedTwice).get rfl).script cancelledTwice).get rfl) :=
    Pool.run_script_free _
  obtain ⟨-, hsame⟩ := out_of_reach hreached hrunning (by decide) run
  exact ⟨_, _, hreached, run, hrunning, rfl, hsame.trans rfl⟩

end VasalAgent.Agent
