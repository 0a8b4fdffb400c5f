import Mathlib.Data.List.Induction
import VasalAgent.Agent.Programs
import VasalAgent.Agent.System
import VasalAgent.Async.Ownership
import VasalAgent.Task.ChainLaws

/-!
# The registry of active tasks

Who owns an entry of `active_tasks`: the submitting call from its insertion until
it spawns the future, then the future until it takes the entry out.  As long as
no id is registered twice at a time, the registry is sound in every state of
every run; two submissions with one id break it.
-/

namespace VasalAgent.Agent

open VasalAgent.Async
open VasalAgent.Async.Ownership
open VasalAgent.Protocol
open VasalAgent.Task
open VasalAgent.Transport

/-! ## Stages of registration -/

def registration : Monitor AgentSig (Stage Uuid)
  | stage, ⟨.newToken, token⟩ =>
      if stage = .idle then some (.fresh token) else none
  | stage, ⟨.insertActive id entry, _⟩ =>
      if stage = .fresh entry.cancelToken then
        some (.holding id entry.cancelToken)
      else none
  | stage, ⟨.spawn body, _⟩ =>
      if stage = .holding body.id body.cancelToken then some .idle else none
  | .holding held _, ⟨.removeActive id, _⟩ => if held = id then some .idle else none
  | _, ⟨.removeActive _, _⟩ => none
  | stage, _ => some stage

def firstStage : Job → Stage Uuid
  | .body body => .holding body.id body.cancelToken
  | _ => .idle

section Programs

variable (m : TaskManager)

theorem register_registration (id : Uuid) (kind : TaskKindTag) (body : Nat → Body)
    (hid : ∀ token, (body token).id = id)
    (htoken : ∀ token, (body token).cancelToken = token) :
    (register id kind body).Ensures (fun _ => True) registration
      (fun _ q => q = .idle) .idle := by
  refine fun token _ => ⟨.fresh token, rfl, ?_⟩
  refine fun _ _ => ⟨.holding id token, by simp [registration], ?_⟩
  refine fun _ _ => ⟨.holding id token, rfl, ?_⟩
  exact fun _ _ => ⟨.idle, by simp [registration, hid, htoken], rfl⟩

theorem submitWork_registration (work : ReceivedWork) :
    (submitWork work).Ensures (fun _ => True) registration
      (fun _ q => q = .idle) .idle := by
  cases work with
  | chain chain =>
      refine fun _ _ => ⟨.idle, rfl, ?_⟩
      refine (lift_ensures (fun _ _ _ => rfl) _ _).andThen fun _ => ?_
      exact register_registration _ _ _ (fun _ => rfl) (fun _ => rfl)
  | single task =>
      refine fun _ _ => ⟨.idle, rfl, ?_⟩
      refine (lift_ensures (fun _ _ _ => rfl) _ _).andThen fun _ => ?_
      cases task with
      | cancel cancel => exact fun _ _ => ⟨.idle, rfl, rfl⟩
      | exec exec => exact register_registration _ _ _ (fun _ => rfl) (fun _ => rfl)
      | install _ | upgrade _ | remove _ | selfUpgrade _ =>
          exact register_registration _ _ _ (fun _ => rfl) (fun _ => rfl)

theorem runBody_registration (body : Body) :
    (m.runBody body).Ensures (fun _ => True) registration (fun _ q => q = .idle)
      (.holding body.id body.cancelToken) := by
  have hpermit : registration (.holding body.id body.cancelToken) ⟨.acquire, ()⟩ =
      some (.holding body.id body.cancelToken) := rfl
  have hremove : registration (.holding body.id body.cancelToken)
      ⟨.removeActive body.id, ()⟩ = some .idle := by simp [registration]
  have hcounts : registration .idle ⟨.updateCounts, ()⟩ = some .idle := rfl
  refine runBody_ensures m ?_ (fun op ans hop => ?_) hremove hcounts ?_
  · cases body.gated
    · rfl
    · exact hpermit
  · cases op <;> first | exact hop.elim | rfl
  · cases body.gated <;> rfl

theorem run_registration (fuel : Nat) :
    (run fuel).Ensures (fun _ => True) registration (fun _ q => q = .idle) .idle := by
  refine run_ensures (fun op ans hop => ?_) submitWork_registration fuel
  cases op <;> first | rfl | exact hop.elim

theorem program_registration (agent : AgentConfig) (job : Job) :
    (agent.program job).Ensures (fun _ => True) registration (fun _ q => q = .idle)
      (firstStage job) := by
  cases job with
  | main => exact run_registration agent.rounds
  | call work => exact submitWork_registration work
  | body body => exact runBody_registration agent.manager body

end Programs

/-! ## What a stage says about a history -/

section Histories

variable {id : Uuid} {token : Nat} {q : Stage Uuid} {events : List (Event AgentSig)}

/-- A body that has taken its entry out takes none out. -/
theorem idle_after (hbody : ∀ event ∈ events, AgentOp.isBody id event.1)
    (h : registration.after .idle events = some q) : q = .idle := by
  induction events with
  | nil =>
      cases h
      rfl
  | cons event rest ih =>
      have hevent := hbody event (by simp)
      have hrest := fun other hother => hbody other (List.mem_cons_of_mem event hother)
      obtain ⟨op, ans⟩ := event
      cases op with
      | exec _ | acquire | release | recordTaskResult _ | sendResult _
        | updateCounts => exact ih hrest h
      | removeActive other => cases h
      | _ => exact hevent.elim

/-- A body holds its entry until it takes it out. -/
theorem holding_after (hbody : ∀ event ∈ events, AgentOp.isBody id event.1)
    (h : registration.after (.holding id token) events = some q) :
    q = .holding id token ∧ ⟨.removeActive id, ()⟩ ∉ events ∨
      q = .idle ∧ ⟨.removeActive id, ()⟩ ∈ events := by
  induction events with
  | nil =>
      cases h
      exact .inl ⟨rfl, List.not_mem_nil⟩
  | cons event rest ih =>
      have hevent := hbody event (by simp)
      have hrest := fun other hother => hbody other (List.mem_cons_of_mem event hother)
      obtain ⟨op, ans⟩ := event
      cases op with
      | exec _ | acquire | release | recordTaskResult _ | sendResult _
        | updateCounts => simpa using ih hrest h
      | removeActive other =>
          obtain rfl : other = id := hevent
          rw [Monitor.after_cons] at h
          simp only [registration, if_true, Option.bind_some] at h
          exact .inr ⟨idle_after hrest h, List.mem_cons_self⟩
      | _ => exact hevent.elim

/-- Who holds an entry from the start of `events` or has inserted it since. -/
theorem inserted_of_holding (first : Stage Uuid)
    (h : registration.after first events = some (.holding id token)) :
    first = .holding id token ∨
      ∃ before kind after,
        events = before ++ ⟨.insertActive id ⟨token, kind⟩, ()⟩ :: after ∧
        ∀ body, ⟨.spawn body, ()⟩ ∉ after := by
  induction events using List.reverseRecOn with
  | nil =>
      cases h
      exact .inl rfl
  | append_singleton init event ih =>
      rw [Monitor.after_concat] at h
      obtain ⟨q, hq, hlast⟩ := Option.bind_eq_some_iff.mp h
      obtain ⟨op, ans⟩ := event
      -- a call that leaves the stage alone can follow the insertion
      have hneutral (hsame : q = .holding id token)
          (hop : ∀ body, op ≠ .spawn body) :
          first = .holding id token ∨ ∃ before kind after,
            init ++ [⟨op, ans⟩] =
              before ++ ⟨.insertActive id ⟨token, kind⟩, ()⟩ :: after ∧
            ∀ body, ⟨.spawn body, ()⟩ ∉ after := by
        subst hsame
        rcases ih hq with hfirst | ⟨before, kind, after, rfl, hafter⟩
        · exact .inl hfirst
        · refine .inr ⟨before, kind, after ++ [⟨op, ans⟩], by simp, ?_⟩
          intro body hmem
          rcases List.mem_append.mp hmem with hold | hnew
          · exact hafter body hold
          · cases List.mem_singleton.mp hnew
            exact hop body rfl
      cases op with
      | newToken => simp [registration] at hlast
      | insertActive other entry =>
          simp only [registration] at hlast
          split at hlast
          · cases hlast
            exact .inr ⟨init, entry.kind, [], rfl, by simp⟩
          · cases hlast
      | spawn body => simp [registration] at hlast
      | removeActive other =>
          cases q with
          | holding held t => simp [registration] at hlast
          | idle => cases hlast
          | fresh t => cases hlast
      | _ =>
          cases hlast
          exact hneutral rfl (by simp)

end Histories

/-! ## Soundness -/

def Shared.owner (s : Shared) (id : Uuid) : Option Nat :=
  (s.active.lookup id).map ActiveTask.cancelToken

namespace Shared

variable {s s' : Shared}

theorem owner_congr (h : s'.active = s.active) : s'.owner = s.owner := by
  funext id
  rw [owner, owner, h]

theorem owner_insert (id : Uuid) (entry : ActiveTask) :
    owner { s with active := s.active.insert id entry } =
      Function.update s.owner id (some entry.cancelToken) := by
  funext other
  rw [Function.update_apply]
  split
  next heq => rw [heq, owner, AList.lookup_insert, Option.map_some]
  next hne => rw [owner, AList.lookup_insert_ne hne, owner]

theorem owner_erase (id : Uuid) :
    owner { s with active := s.active.erase id } = Function.update s.owner id none := by
  funext other
  rw [Function.update_apply]
  split
  next heq => rw [heq, owner, AList.lookup_erase, Option.map_none]
  next hne => rw [owner, AList.lookup_erase_ne hne, owner]

end Shared

section Soundness

variable {agent : AgentConfig}

/-- Future `i` runs `body` and has not deregistered it. -/
def Unfinished (pool : Pool agent.system) (i : Nat) (body : Body) : Prop :=
  (∃ rest, RunsBody pool i body rest) ∧
    ⟨.removeActive body.id, ()⟩ ∉ pool.history i

/-- Future `i` has registered the token and has not yet spawned the future. -/
def Registering (pool : Pool agent.system) (i : Nat) (id : Uuid) (token : Nat) : Prop :=
  ∃ before kind after,
    pool.history i = before ++ ⟨.insertActive id ⟨token, kind⟩, ()⟩ :: after ∧
    ∀ body, ⟨.spawn body, ()⟩ ∉ after

structure RegistrySound (pool : Pool agent.system) : Prop where
  registered : ∀ i body, Unfinished pool i body →
    pool.shared.owner body.id = some body.cancelToken
  own : ∀ i j body other, Unfinished pool i body → Unfinished pool j other →
    body.cancelToken = other.cancelToken → i = j
  cancellable : ∀ i body, Unfinished pool i body → ∀ proposal ans shared,
    perform agent pool.shared (.cancelActive body.id) proposal = some (ans, shared) →
    shared.taskCancelled body.cancelToken = true
  live : ∀ id token, pool.shared.owner id = some token →
    (∃ i body, Unfinished pool i body ∧ body.id = id ∧ body.cancelToken = token) ∨
      ∃ i, Registering pool i id token

/-- No id is registered while it is registered. -/
def freshIds (agent : AgentConfig) : Policy agent.system where
  start _ _ := True
  fire pool _ event :=
    match event with
    | ⟨.insertActive id _, _⟩ => pool.shared.active.lookup id = none
    | _ => True
  env _ _ := True

abbrev stages (pool : Pool agent.system) : Nat → Option (Stage Uuid) :=
  pool.stage registration firstStage

theorem registry_step {pool next : Pool agent.system}
    (step : Step (freshIds agent) pool next) (hprojects : pool.Projects)
    (h : Sound (stages pool) pool.shared.owner pool.shared.nextToken) :
    Sound (stages next) next.shared.owner next.shared.nextToken := by
  cases step with
  | @start job hexternal allowed =>
      have hidle : firstStage job = .idle := by
        cases job with
        | body body => cases hexternal
        | _ => rfl
      rw [stages, Pool.stage_launch _ _ hprojects, hidle]
      exact h.join (Pool.stage_length ..)
  | env henv allowed =>
      have houtside := environment_outside henv
      rw [Shared.owner_congr houtside.active, houtside.nextToken]
      exact h
  | @fire i job op cont proposal ans shared hfuture hperform allowed =>
      obtain ⟨q, q', hq, hq'⟩ :=
        hprojects.accepts (program_registration agent) hfuture ans
      have hsingle (hspawned : spawned op = none) :
          stages (pool.advance i job ⟨op, ans⟩ (cont ans) shared) =
            Function.update (stages pool) i (some q') :=
        Pool.stage_advance_single _ _ hprojects hfuture hq hq' hspawned
      -- most calls leave the stage, the registry and the counter alone
      have hneutral (hsame : pool.shared.active.after ⟨op, ans⟩ = pool.shared.active)
          (htokens : drawnTokens ⟨op, ans⟩ = 0) (hspawned : spawned op = none)
          (hstage : q = q') :
          Sound (stages (pool.advance i job ⟨op, ans⟩ (cont ans) shared))
            shared.owner shared.nextToken := by
        have heffect := perform_effect hperform
        rw [hsingle hspawned, ← hstage, ← hq, Function.update_eq_self,
          Shared.owner_congr (heffect.active.trans hsame), heffect.nextToken, htokens]
        exact h
      cases op with
      | newToken =>
          obtain ⟨rfl, rfl⟩ : q = .idle ∧ q' = .fresh ans := by
            simpa [registration, eq_comm] using hq'
          cases hperform
          rw [hsingle rfl]
          exact h.draw hq
      | insertActive id entry =>
          obtain ⟨rfl, rfl⟩ : q = .fresh entry.cancelToken ∧
              q' = .holding id entry.cancelToken := by
            simpa [registration, eq_comm] using hq'
          have hfree : pool.shared.owner id = none := by
            rw [Shared.owner, allowed, Option.map_none]
          cases hperform
          rw [hsingle rfl]
          refine Eq.mp ?_ (h.enter hq hfree)
          rw [← Shared.owner_insert]
          rfl
      | removeActive id =>
          obtain ⟨token, rfl, rfl⟩ : ∃ token, q = .holding id token ∧ q' = .idle := by
            cases q with
            | holding held token => simpa [registration, eq_comm] using hq'
            | _ => cases hq'
          cases hperform
          rw [hsingle rfl]
          refine Eq.mp ?_ (h.leave hq)
          rw [← Shared.owner_erase]
          rfl
      | spawn body =>
          obtain ⟨rfl, rfl⟩ : q = .holding body.id body.cancelToken ∧ q' = .idle := by
            simpa [registration, eq_comm] using hq'
          have hspawn : stages (pool.advance i job ⟨.spawn body, ans⟩ (cont ans) shared) =
              Function.update (Function.update (stages pool) pool.futures.length
                (some (.holding body.id body.cancelToken))) i (some .idle) :=
            Pool.stage_advance_spawn _ _ hprojects hfuture hq hq' rfl
          cases hperform
          rw [hspawn]
          exact h.handOver hq (Pool.stage_length ..)
      | _ => exact hneutral rfl rfl rfl (Option.some.inj hq')

theorem registry_run {maxConcurrent : Nat} {pool : Pool agent.system}
    (run : Run (freshIds agent) (Pool.initial (Shared.initial maxConcurrent)) pool) :
    Sound (stages pool) pool.shared.owner pool.shared.nextToken := by
  have hinitial : Sound (stages (Pool.initial (Shared.initial maxConcurrent) :
      Pool agent.system)) (Shared.initial maxConcurrent).owner 0 := Sound.empty
  exact (Run.invariant_of_projects
    (I := fun pool : Pool agent.system =>
      Sound (stages pool) pool.shared.owner pool.shared.nextToken)
    run (Pool.initial_projects _) hinitial registry_step).2

/-! ## The law -/

theorem Unfinished.stage {pool : Pool agent.system} {i : Nat} {body : Body}
    (hprojects : pool.Projects) (h : Unfinished pool i body) :
    stages pool i = some (.holding body.id body.cancelToken) := by
  obtain ⟨⟨rest, hfuture⟩, hremove⟩ := h
  obtain ⟨q, hq, -⟩ := hprojects.stage_eq (program_registration agent) hfuture
  have hevents := (uses_runBody agent.manager body).steps
    (hprojects.steps i _ hfuture)
  have hafter := hq
  rw [Pool.stage, hfuture, Option.bind_some] at hafter
  rcases holding_after hevents hafter with ⟨rfl, -⟩ | ⟨-, hremoved⟩
  · exact hq
  · exact absurd hremoved hremove

theorem holder_cases {pool : Pool agent.system} {i : Nat} {id : Uuid} {token : Nat}
    (hprojects : pool.Projects) (h : stages pool i = some (.holding id token)) :
    (∃ body, Unfinished pool i body ∧ body.id = id ∧ body.cancelToken = token) ∨
      Registering pool i id token := by
  obtain ⟨⟨job, rest⟩, hfuture, hafter⟩ := Option.bind_eq_some_iff.mp h
  cases job with
  | body body =>
      have hevents := (uses_runBody agent.manager body).steps
        (hprojects.steps i _ hfuture)
      rcases holding_after hevents hafter with ⟨hsame, hremove⟩ | ⟨hidle, -⟩
      · cases hsame
        exact .inl ⟨body, ⟨⟨rest, hfuture⟩, hremove⟩, rfl, rfl⟩
      · cases hidle
  | _ =>
      rcases inserted_of_holding _ hafter with hfirst | hinserted
      · cases hfirst
      · exact .inr hinserted

end Soundness

/-! ## Two submissions with one id -/

def obliging : (op : AgentOp) → op.Ans
  | .exec op => (sampleWorld exitsZero none).oracle op
  | .recordTaskResult _ | .forward _ => .ok ()
  | _ => default

def sampleAgent : AgentConfig where
  manager := ⟨"/run", true, 1⟩
  recvTasks := .hang
  rounds := 3

def sampleStart : Pool sampleAgent.system := Pool.initial (Shared.initial 1)

def sampleWork : ReceivedWork := .single (.exec (sampleTask 1))

/-- A task is submitted; while it waits its id is submitted again. -/
def submittedTwice : List (Label sampleAgent.system) :=
  .start (.call sampleWork) :: List.replicate 6 (.fire 0 obliging) ++
    .start (.call sampleWork) :: List.replicate 4 (.fire 2 obliging)

/-- One task is submitted and waits for a permit. -/
def submittedOnce : List (Label sampleAgent.system) :=
  .start (.call sampleWork) :: List.replicate 6 (.fire 0 obliging)

theorem submittedOnce_follows :
    Pool.Follows (freshIds sampleAgent) sampleStart submittedOnce := by
  refine .cons trivial rfl ?_
  iterate 3 refine .cons (Pool.allows_fire _ rfl fun _ => trivial) rfl ?_
  refine .cons (Pool.allows_fire _ rfl fun _ => rfl) rfl ?_
  iterate 2 refine .cons (Pool.allows_fire _ rfl fun _ => trivial) rfl ?_
  trivial

end VasalAgent.Agent
