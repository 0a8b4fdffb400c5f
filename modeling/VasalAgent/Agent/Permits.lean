import VasalAgent.Agent.Registration
import VasalAgent.Async.Holders

/-!
# Permits

The semaphore of the task manager.  An exec task or a chain makes all its calls
between the `acquire` and the `release` of one permit; a routed task never asks
for one.  In every state of every run the permits that are left and the futures
that hold one add up to the number the semaphore was built with.
-/

namespace VasalAgent.Agent

open VasalAgent.Async
open VasalAgent.Protocol
open VasalAgent.Task
open VasalAgent.Transport

/-! ## Stages of a permit -/

inductive Permit where
  /-- A future that never asks for a permit. -/
  | exempt
  | waiting
  | holding
  | done
  deriving DecidableEq, Repr

def AgentOp.isPermit : AgentOp → Bool
  | .acquire => true
  | .release => true
  | _ => false

def permit : Monitor AgentSig Permit
  | .waiting, ⟨.acquire, _⟩ => some .holding
  | .holding, ⟨.release, _⟩ => some .done
  | .exempt, ⟨op, _⟩ => if op.isPermit then none else some .exempt
  | .holding, ⟨op, _⟩ => if op.isPermit then none else some .holding
  | _, _ => none

def firstPermit : Job → Permit
  | .body body => if body.gated then .waiting else .exempt
  | _ => .exempt

def Permit.held : Permit → Bool
  | .holding => true
  | _ => false

section Programs

theorem permit_exempt {op : AgentOp} {ans : op.Ans} (h : op.isPermit = false) :
    permit .exempt ⟨op, ans⟩ = some .exempt := by
  simp [permit, h]

theorem permit_holding {op : AgentOp} {ans : op.Ans} (h : op.isPermit = false) :
    permit .holding ⟨op, ans⟩ = some .holding := by
  cases op <;> first | rfl | cases h

theorem not_permit_of_control {op : AgentOp} (h : op.isControl) : op.isPermit = false := by
  cases op <;> first | exact h.elim | rfl

theorem not_permit_of_report {op : AgentOp} (h : op.isReport) : op.isPermit = false := by
  cases op <;> first | exact h.elim | rfl

theorem control_permit {p : Prog AgentSig Unit} (h : p.Uses AgentOp.isControl) :
    p.Ensures (fun _ => True) permit (fun _ q => q.held = false) .exempt := by
  have hstay : p.Ensures (fun _ => True) permit (fun _ q => q = .exempt) .exempt :=
    h.ensures fun op ans hop _ => permit_exempt (not_permit_of_control hop)
  refine hstay.mono fun _ q hq => ?_
  rw [hq]
  rfl

/-- The stage between the `acquire` and the `release` of a body, if it has them. -/
def Permit.inside (gated : Bool) : Permit := if gated then .holding else .exempt

theorem permit_inside (gated : Bool) {op : AgentOp} {ans : op.Ans} (h : op.isPermit = false) :
    permit (.inside gated) ⟨op, ans⟩ = some (.inside gated) := by
  cases gated with
  | true => exact permit_holding h
  | false => exact permit_exempt h

theorem runBody_permit (m : TaskManager) (body : Body) :
    (m.runBody body).Ensures (fun _ => True) permit (fun _ q => q.held = false)
      (firstPermit (.body body)) := by
  have hreport (op : AgentOp) (ans : op.Ans) (hop : op.isReport) :
      permit (.inside body.gated) ⟨op, ans⟩ = some (.inside body.gated) :=
    permit_inside body.gated (not_permit_of_report hop)
  have hbody : (m.runBody body).Ensures (fun _ => True) permit
      (fun _ q => q = if body.gated then .done else .exempt) (firstPermit (.body body)) := by
    apply runBody_ensures m _ hreport (permit_inside _ rfl) (permit_inside _ rfl)
    · cases hgated : body.gated <;> simp [Permit.inside, permit]
    · cases hgated : body.gated <;> simp [Permit.inside, firstPermit, hgated, permit]
  apply hbody.mono
  intro _ q hq
  cases hgated : body.gated <;> simp [hq, hgated, Permit.held]

theorem program_permit (agent : AgentConfig) (job : Job) :
    (agent.program job).Ensures (fun _ => True) permit (fun _ q => q.held = false)
      (firstPermit job) := by
  cases job with
  | main => exact control_permit (uses_run agent.rounds)
  | call work => exact control_permit (uses_submitWork work)
  | body body => exact runBody_permit agent.manager body

end Programs

/-! ## Balance -/

section Balance

variable {agent : AgentConfig}

abbrev permitHolders (pool : Pool agent.system) : Nat :=
  pool.holders permit firstPermit Permit.held

theorem firstPermit_held (job : Job) : (firstPermit job).held = false := by
  cases job with
  | body body =>
      rw [firstPermit]
      split <;> rfl
  | _ => rfl

theorem permit_taken {q q' : Permit} {op : AgentOp} {ans : op.Ans}
    (h : permit q ⟨op, ans⟩ = some q') :
    q'.held.toNat + permitsReturned op = q.held.toNat + permitsTaken op := by
  cases op <;> cases q <;> cases h <;> rfl

theorem balance_step {π : Policy agent.system} {maxConcurrent : Nat}
    {pool next : Pool agent.system} (step : Step π pool next) (hprojects : pool.Projects)
    (h : permitHolders pool + pool.shared.permits = maxConcurrent) :
    permitHolders next + next.shared.permits = maxConcurrent := by
  cases step with
  | @start job hexternal allowed =>
      rw [permitHolders, Pool.holders_launch hprojects (firstPermit_held job)]
      exact h
  | env henv allowed =>
      rw [(environment_outside henv).permits]
      exact h
  | @fire i job op cont proposal ans shared hfuture hperform allowed =>
      obtain ⟨q, q', hq, hq'⟩ := hprojects.accepts (program_permit agent) hfuture ans
      have hholders : permitHolders (pool.advance i job ⟨op, ans⟩ (cont ans) shared) +
          q.held.toNat = permitHolders pool + q'.held.toNat :=
        Pool.holders_advance hprojects hfuture hq hq' fun job _ => firstPermit_held job
      have htaken := permit_taken hq'
      have hpermits := (perform_meters hperform).1
      change permitHolders (pool.advance i job ⟨op, ans⟩ (cont ans) shared) +
        shared.permits = maxConcurrent
      omega

theorem balance_run {π : Policy agent.system} {maxConcurrent : Nat}
    {pool : Pool agent.system}
    (run : Run π (Pool.initial (Shared.initial maxConcurrent)) pool) :
    permitHolders pool + pool.shared.permits = maxConcurrent := by
  have hinitial : permitHolders (Pool.initial (Shared.initial maxConcurrent) :
      Pool agent.system) + maxConcurrent = maxConcurrent := by
    rw [permitHolders, Pool.holders_initial, Nat.zero_add]
  exact (Run.invariant_of_projects
    (I := fun pool : Pool agent.system =>
      permitHolders pool + pool.shared.permits = maxConcurrent)
    run (Pool.initial_projects _) hinitial balance_step).2

end Balance

/-! ## The law -/

def AgentOp.isAcquire : AgentOp → Bool
  | .acquire => true
  | _ => false

theorem isPermit_of_isAcquire {op : AgentOp} (h : op.isAcquire = true) :
    op.isPermit = true := by
  cases op <;> first | rfl | cases h

/-- A future is past its `acquire` and has not returned. -/
def isExecuting (history : List (Event AgentSig)) (rest : Prog AgentSig Unit) : Bool :=
  history.any (fun event => event.1.isAcquire) && !rest.returned

/--
How a permit is held around the calls of a future that deregisters `id`: nothing
is called before the `acquire`, everything is called between the two, and the
`release` is the last call, after the entry of the future was removed.
-/
inductive HeldAround (id : Uuid) : List (Event AgentSig) → Prog AgentSig Unit → Prop
  | waiting {rest : Prog AgentSig Unit} : rest.returned = false → HeldAround id [] rest
  | holding {calls : List (Event AgentSig)} {rest : Prog AgentSig Unit} :
      (∀ event ∈ calls, event.1.isPermit = false) → rest.returned = false →
      HeldAround id (⟨.acquire, ()⟩ :: calls) rest
  | finished {calls : List (Event AgentSig)} :
      (∀ event ∈ calls, event.1.isPermit = false) →
      ⟨.removeActive id, ()⟩ ∈ calls →
      HeldAround id (⟨.acquire, ()⟩ :: (calls ++ [⟨.release, ()⟩])) (.ret ())

section Law

variable {agent : AgentConfig}

def Executing (pool : Pool agent.system) (i : Nat) : Bool :=
  pool.futures[i]?.any fun future => isExecuting (pool.history i) future.rest

def executing (pool : Pool agent.system) : Nat :=
  Nat.count (fun i => Executing pool i = true) pool.futures.length

structure PermitsHeld (maxConcurrent : Nat) (pool : Pool agent.system) : Prop where
  bounded : executing pool ≤ maxConcurrent
  balanced : executing pool + pool.shared.permits = maxConcurrent
  gated : ∀ {i body rest}, RunsBody pool i body rest → body.gated = true →
    HeldAround body.id (pool.history i) rest
  exempt : ∀ {i future}, pool.futures[i]? = some future →
    (∀ body, future.job = .body body → body.gated = false) →
    ∀ event ∈ pool.history i, event.1.isPermit = false

theorem uses_inner (m : TaskManager) (body : Body) :
    (m.work body >>= fun _ => TaskManager.deregister body.id).Uses
      (fun op : AgentOp => op.isPermit = false) :=
  ((uses_work m body).mono fun _ => not_permit_of_report).bind fun _ =>
    ⟨rfl, fun _ => ⟨rfl, fun _ => trivial⟩⟩

theorem heldAround_of_steps {m : TaskManager} {body : Body} (hgated : body.gated = true)
    {events : List (Event AgentSig)} {rest : Prog AgentSig Unit}
    (h : Prog.Steps (m.runBody body) events rest) : HeldAround body.id events rest := by
  rw [runBody_eq, if_pos hgated] at h
  rcases h.bracket_cases with ⟨rfl, hrest⟩ | ⟨_, calls, p, rfl, hp, hrest⟩ |
    ⟨_, calls, _, rfl, hcalls, rfl⟩
  · exact .waiting hrest
  · exact .holding ((uses_inner m body).steps hp) hrest
  · have hremove : ⟨.removeActive body.id, ()⟩ ∈ calls := by
      obtain ⟨first, last, _, rfl, -, hlast⟩ := hcalls.bind_ret
      cases hlast with
      | call _ => exact List.mem_append_right _ List.mem_cons_self
    exact .finished ((uses_inner m body).steps hcalls) hremove

theorem exempt_of_steps {job : Job} (hjob : ∀ body, job = .body body → body.gated = false)
    {events : List (Event AgentSig)} {rest : Prog AgentSig Unit}
    (h : Prog.Steps (agent.program job) events rest) :
    ∀ event ∈ events, event.1.isPermit = false := by
  cases job with
  | main =>
      intro event hevent
      exact not_permit_of_control ((uses_run agent.rounds).steps h event hevent)
  | call work =>
      intro event hevent
      exact not_permit_of_control ((uses_submitWork work).steps h event hevent)
  | body body =>
      have hungated := hjob body rfl
      change Prog.Steps (agent.manager.runBody body) events rest at h
      rw [runBody_eq, hungated] at h
      exact (uses_inner agent.manager body).steps h

theorem stage_of_heldAround {id : Uuid} {events : List (Event AgentSig)}
    {rest : Prog AgentSig Unit} (h : HeldAround id events rest) :
    (permit.after .waiting events).any Permit.held = isExecuting events rest := by
  have hstay {calls : List (Event AgentSig)}
      (hcalls : ∀ event ∈ calls, event.1.isPermit = false) :
      permit.after .holding calls = some .holding :=
    permit.after_neutral fun event hevent => permit_holding (hcalls event hevent)
  cases h with
  | waiting _ => rfl
  | @holding calls rest hcalls hrest =>
      have hafter : permit.after .waiting (⟨.acquire, ()⟩ :: calls) = some .holding :=
        hstay hcalls
      rw [hafter, isExecuting, hrest]
      rfl
  | @finished calls hcalls _ =>
      have hafter : permit.after .waiting (⟨.acquire, ()⟩ :: (calls ++ [⟨.release, ()⟩])) =
          some .done :=
        permit.after_append (hstay hcalls) _
      rw [hafter, isExecuting]
      simp [Permit.held, Prog.returned]

theorem executing_eq {pool : Pool agent.system} (hprojects : pool.Projects) (i : Nat) :
    Executing pool i = pool.holder permit firstPermit Permit.held i := by
  rw [Executing, Pool.holder, Pool.stage]
  cases hfuture : pool.futures[i]? with
  | none => rfl
  | some future =>
      obtain ⟨job, rest⟩ := future
      have hsteps := hprojects.steps i _ hfuture
      rw [Option.any_some, Option.bind_some]
      by_cases hgated : ∃ body, job = .body body ∧ body.gated = true
      · obtain ⟨body, rfl, hgated⟩ := hgated
        rw [firstPermit, if_pos hgated]
        exact (stage_of_heldAround (heldAround_of_steps hgated hsteps)).symm
      · have hjob : ∀ body, job = .body body → body.gated = false := by
          intro body heq
          by_contra hne
          exact hgated ⟨body, heq, Bool.eq_true_of_not_eq_false hne⟩
        have hcalls := exempt_of_steps hjob hsteps
        have hfirst : firstPermit job = .exempt := by
          cases job with
          | body body => rw [firstPermit, hjob body rfl, if_neg Bool.false_ne_true]
          | _ => rfl
        have hafter : permit.after .exempt (pool.history i) = some .exempt :=
          permit.after_neutral fun event hevent => permit_exempt (hcalls event hevent)
        have hnone : (pool.history i).any (fun event => event.1.isAcquire) = false := by
          rw [List.any_eq_false]
          intro event hevent hacquire
          have hpermit := isPermit_of_isAcquire hacquire
          rw [hcalls event hevent] at hpermit
          cases hpermit
        rw [hfirst, hafter, isExecuting, hnone]
        rfl

theorem executing_count {pool : Pool agent.system} (hprojects : pool.Projects) :
    executing pool = permitHolders pool :=
  count_congr fun i _ => executing_eq hprojects i

theorem permitsHeld_of_run {maxConcurrent : Nat} {pool : Pool agent.system}
    (run : Run (Policy.free agent.system)
      (Pool.initial (Shared.initial maxConcurrent)) pool) :
    PermitsHeld maxConcurrent pool := by
  have hprojects := run.projects
  have hbalance := balance_run run
  have hcount := executing_count hprojects
  refine ⟨by omega, by omega, fun hruns hgated => ?_, fun hfuture hjob => ?_⟩
  · exact heldAround_of_steps hgated (hprojects.steps _ _ hruns)
  · exact exempt_of_steps hjob (hprojects.steps _ _ hfuture)

/-- While the one permit is held, a second task waits. -/
theorem permitsHeld_waiting :
    ∃ pool, Run (Policy.free sampleAgent.system) sampleStart pool ∧
      executing pool = 1 ∧ PermitsHeld 1 pool := by
  have run : Run (Policy.free sampleAgent.system) sampleStart
      ((sampleStart.script (submittedTwice ++ [.fire 1 obliging])).get rfl) :=
    Pool.run_script_free _
  exact ⟨_, run, by decide, permitsHeld_of_run run⟩

end Law

end VasalAgent.Agent
