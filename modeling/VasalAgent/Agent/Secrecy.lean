import VasalAgent.Agent.WellFormed
import VasalAgent.Task.Secrecy

/-!
# Credentials and what the agent records

Two runs of the agent that differ in nothing but the values of resolved
credentials write the same journal, record the same audit log and send the same
results to the control plane.
-/

namespace VasalAgent.Agent

open VasalAgent.Async
open VasalAgent.Protocol
open VasalAgent.Task
open VasalAgent.Transport

/-! ## What may differ -/

inductive AgentOp.Alike : AgentOp → AgentOp → Prop
  | same (op : AgentOp) : Alike op op
  | exec {op op' : ExecOp} (h : op.Alike op') : Alike (.exec op) (.exec op')

inductive AgentAlike : Event AgentSig → Event AgentSig → Prop
  | same (event : Event AgentSig) : AgentAlike event event
  | exec {event event' : Event ExecSig} (h : ExecAlike event event') :
      AgentAlike ⟨.exec event.1, event.2⟩ ⟨.exec event'.1, event'.2⟩

def agentSecrecy : Likeness AgentSig where
  calls := AgentOp.Alike
  events := AgentAlike

theorem AgentAlike.of_exec {op op' : ExecOp} {ans : op.Ans} {ans' : op'.Ans}
    (h : AgentAlike ⟨.exec op, ans⟩ ⟨.exec op', ans'⟩) : ExecAlike ⟨op, ans⟩ ⟨op', ans'⟩ := by
  cases h with
  | same => exact .same _
  | exec h => exact h

def AgentOp.resolves : AgentOp → Prop
  | .exec op => op.resolves
  | _ => False

theorem AgentAlike.answer {event event' : Event AgentSig} (h : AgentAlike event event')
    (hop : ¬ event.1.resolves) : HEq event.2 event'.2 := by
  cases h with
  | same => rfl
  | exec h => exact h.answer hop

theorem plainCall {op : AgentOp} (h : ¬ op.resolves) : agentSecrecy.Plain op where
  call := .same op
  answer halike := eq_of_heq (halike.answer h)

/-! ## Programs -/

section Programs

variable {α β : Type} {m : TaskManager}

/-- A program that behaves the same whatever the credentials are. -/
abbrev Discreet (p : Prog AgentSig α) : Prop := p.Related agentSecrecy Eq p

theorem related_lift {R : α → β → Prop} {p : Prog ExecSig α} {q : Prog ExecSig β}
    (h : Hides R p q) : (lift p).Related agentSecrecy R (lift q) := by
  induction p generalizing q with
  | ret value =>
      cases q with
      | ret value' => exact h
      | call op' next' => exact h.elim
      | hang => exact h.elim
  | call op next ih =>
      cases q with
      | ret value' => exact h.elim
      | call op' next' =>
          exact ⟨.exec h.1, fun ans ans' halike => ih ans (h.2 ans ans' halike.of_exec)⟩
      | hang => exact h.elim
  | hang =>
      cases q with
      | ret value' => exact h.elim
      | call op' next' => exact h.elim
      | hang => trivial

theorem discreet_call {op : AgentOp} {next : op.Ans → Prog AgentSig α} (hop : ¬ op.resolves)
    (h : ∀ ans, Discreet (next ans)) : Discreet (.call op next) :=
  Prog.related_call (plainCall hop) h

theorem discreet_own {p : Prog AgentSig α} (h : p.Uses AgentOp.isOwn) : Discreet p := by
  refine Prog.related_self (h.mono fun op hop => plainCall ?_)
  cases op with
  | exec op => cases op <;> first | exact id | exact hop.elim False.elim False.elim
  | _ => exact id

theorem discreet_journal (result : TaskResult) : Discreet (TaskManager.journal result) :=
  discreet_call id fun _ => rfl

theorem discreet_send (result : TaskResult) : Discreet (m.send result) := by
  unfold TaskManager.send
  split
  · exact discreet_call id fun _ => rfl
  · exact rfl

theorem discreet_report (results : List TaskResult) : Discreet (m.report results) := by
  induction results with
  | nil => exact rfl
  | cons result rest ih =>
      apply (discreet_journal result).bind
      rintro _ _ -
      apply (discreet_send result).bind
      rintro _ _ -
      exact ih

theorem discreet_deregister (id : Uuid) : Discreet (TaskManager.deregister id) :=
  discreet_call (fun h => h) fun _ => discreet_call (fun h => h) fun _ => rfl

theorem discreet_work (body : Body) : Discreet (m.work body) := by
  cases body with
  | exec exec n =>
      apply (related_lift (secretive_executeExec m.ticks)).bind
      rintro result _ rfl
      apply (discreet_journal result).bind
      rintro _ _ -
      apply (related_lift (secretive_record ..)).bind
      rintro _ _ -
      exact discreet_send result
  | routed task n =>
      apply (related_lift (secretive_routeTask task)).bind
      rintro result _ rfl
      apply (discreet_journal result).bind
      rintro _ _ -
      exact discreet_send result
  | chain chain n =>
      apply (related_lift secretive_chain).bind
      rintro results _ rfl
      exact discreet_report results

theorem discreet_runBody (body : Body) : Discreet (m.runBody body) := by
  have hinner : Discreet (m.work body >>= fun _ => TaskManager.deregister body.id) :=
    (discreet_work body).bind fun _ _ _ => discreet_deregister body.id
  rw [runBody_eq]
  split
  · refine discreet_call id fun _ => hinner.bind fun _ _ _ => ?_
    exact discreet_call id fun _ => rfl
  · exact hinner

theorem discreet_program (agent : AgentConfig) (job : Job) : Discreet (agent.program job) := by
  cases job with
  | main => exact discreet_own (own_run agent.rounds)
  | call work => exact discreet_own (own_of_submission (submission_submitWork work))
  | body body => exact discreet_runBody body

end Programs

/-! ## Runs -/

/-- Neither the state nor an answer drawn from it depends on a credential. -/
theorem perform_alike {agent : AgentConfig} {s t t' : Shared} {op op' : AgentOp}
    {proposal ans : op.Ans} {proposal' ans' : op'.Ans}
    (h : AgentAlike ⟨op, proposal⟩ ⟨op', proposal'⟩)
    (hperform : perform agent s op proposal = some (ans, t))
    (hperform' : perform agent s op' proposal' = some (ans', t')) :
    AgentAlike ⟨op, ans⟩ ⟨op', ans'⟩ ∧ t = t' := by
  cases h with
  | same =>
      rw [hperform] at hperform'
      cases hperform'
      exact ⟨.same _, rfl⟩
  | exec h =>
      cases h with
      | same =>
          rw [hperform] at hperform'
          cases hperform'
          exact ⟨.same _, rfl⟩
      | resolved origin index ref value value' =>
          cases hperform
          cases hperform'
          exact ⟨.exec (.resolved origin index ref value value'), rfl⟩
      | spawnShell origin exec script hnames started =>
          cases hperform
          cases hperform'
          exact ⟨.exec (.spawnShell origin exec script hnames started), rfl⟩
      | submit origin method payload refs hnames sent =>
          cases hperform
          cases hperform'
          exact ⟨.exec (.submit origin method payload refs hnames sent), rfl⟩

theorem respects_secrecy (agent : AgentConfig) : agent.system.Respects agentSecrecy where
  programs := discreet_program agent
  perform := perform_alike
  spawned h := by
    cases h with
    | same => rfl
    | exec h => rfl

section Records

variable {agent : AgentConfig}

/-- A row of the audit log; its time is the clock's. -/
def audited? : Event AgentSig → Option (AuditEvent × Option String × AuditDetail)
  | ⟨.exec (.audit event taskId detail), _⟩ => some (event, taskId, detail)
  | _ => none

def auditLog (pool : Pool agent.system) : List (AuditEvent × Option String × AuditDetail) :=
  pool.log.filterMap fun entry => audited? entry.2

def sentResults (pool : Pool agent.system) : List TaskResult :=
  pool.log.filterMap fun entry => sentResult? entry.2

/-- What store and control plane get of two runs is the same. -/
structure SameRecords (first second : Pool agent.system) : Prop where
  journal : first.shared.journal = second.shared.journal
  audit : auditLog first = auditLog second
  sent : sentResults first = sentResults second
  forwarded : first.shared.forwarded = second.shared.forwarded

/-- An event that is noted only of calls without credentials is noted of both runs. -/
theorem note_eq_of_alike {γ : Type} {note : Event AgentSig → Option γ}
    (hresolve : ∀ origin index ref ans, note ⟨.exec (.resolveOne origin index ref), ans⟩ = none)
    (hspawn : ∀ origin command ans, note ⟨.exec (.spawnShell origin command), ans⟩ = none)
    (hsend : ∀ origin site request ans,
      note ⟨.exec (.sendFrame origin site request), ans⟩ = none)
    {event event' : Event AgentSig} (h : AgentAlike event event') :
    note event = note event' := by
  cases h with
  | same => rfl
  | exec h =>
      cases h with
      | same => rfl
      | resolved => rw [hresolve, hresolve]
      | spawnShell => rw [hspawn, hspawn]
      | submit => rw [hsend, hsend]

/--
The twin runs have one schedule, and in both of them the world answers alike: it
may differ in the values of credentials that are resolved, and nowhere else.
-/
theorem sameRecords_of_twinRun {shared : Shared} {first second : Pool agent.system}
    (run : TwinRun agentSecrecy (Pool.initial shared, Pool.initial shared) (first, second)) :
    SameRecords first second := by
  have hlockstep := run.lockstep (respects_secrecy agent)
  constructor
  · rw [hlockstep.shared]
  · apply hlockstep.notes_eq
    intro event event' halike
    exact note_eq_of_alike (fun _ _ _ _ => rfl) (fun _ _ _ => rfl) (fun _ _ _ _ => rfl) halike
  · apply hlockstep.notes_eq
    intro event event' halike
    exact note_eq_of_alike (fun _ _ _ _ => rfl) (fun _ _ _ => rfl) (fun _ _ _ _ => rfl) halike
  · rw [hlockstep.shared]

end Records

/-! ## Two secrets -/

def secretTask : ExecTask :=
  { sampleTask 1 with credentials := [⟨"TOKEN", .eager, .http "/token", none⟩] }

/-- Every credential resolves to the secret. -/
def handing (secret : String) : (op : AgentOp) → op.Ans
  | .exec (.resolveOne ..) => .ok secret
  | op => obliging op

def ranWith (secret : String) : List (Label sampleAgent.system) :=
  .start (.call (.single (.exec secretTask))) ::
    (List.replicate 6 (.fire 0 (handing secret)) ++
      List.replicate 15 (.fire 1 (handing secret)))

def shellEnv? : Event AgentSig → Option ResolvedCredentials
  | ⟨.exec (.spawnShell _ command), _⟩ => some command.env
  | _ => none

def shellEnvs (pool : Pool sampleAgent.system) : List ResolvedCredentials :=
  pool.log.filterMap fun entry => shellEnv? entry.2

theorem handing_alike (secret secret' : String) (op op' : AgentOp) (h : op.Alike op') :
    AgentAlike ⟨op, handing secret op⟩ ⟨op', handing secret' op'⟩ := by
  have hsame (op : AgentOp) :
      AgentAlike ⟨op, handing secret op⟩ ⟨op, handing secret' op⟩ := by
    cases op with
    | exec op =>
        cases op with
        | resolveOne origin index ref => exact .exec (.resolved origin index ref _ _)
        | _ => exact .same _
    | _ => exact .same _
  cases h with
  | same => exact hsame op
  | exec h =>
      cases h with
      | same => exact hsame _
      | spawnShell origin exec script hnames =>
          exact .exec (.spawnShell origin exec script hnames _)
      | submit origin method payload refs hnames =>
          exact .exec (.submit origin method payload refs hnames _)

theorem alike_ranWith (secret secret' : String) :
    (ranWith secret).Forall₂ (Label.Alike agentSecrecy) (ranWith secret') := by
  have hfire (i n : Nat) :
      (List.replicate n (.fire i (handing secret))).Forall₂
        (Label.Alike (Y := sampleAgent.system) agentSecrecy)
        (List.replicate n (.fire i (handing secret'))) := by
    induction n with
    | zero => exact .nil
    | succ n ih => exact .cons (.fire i (handing_alike secret secret')) ih
  exact .cons (.start _) (List.rel_append (hfire 0 6) (hfire 1 15))

/-- The shell gets different tokens, and the records are the same. -/
theorem sameRecords_ranWith :
    ∃ first second,
      Run (Policy.free sampleAgent.system) sampleStart first ∧
      Run (Policy.free sampleAgent.system) sampleStart second ∧
      TwinRun agentSecrecy (sampleStart, sampleStart) (first, second) ∧
      shellEnvs first = [[("TOKEN", "swordfish")]] ∧
      shellEnvs second = [[("TOKEN", "open sesame")]] ∧
      first.shared.journal.map TaskResultRow.exitCode = [some 0] ∧
      SameRecords first second := by
  have run : TwinRun agentSecrecy (sampleStart, sampleStart)
      ((sampleStart.script (ranWith "swordfish")).get rfl,
        (sampleStart.script (ranWith "open sesame")).get rfl) :=
    twinRun_of_scripts (alike_ranWith _ _) (Option.some_get _).symm (Option.some_get _).symm
  exact ⟨_, _, run.runs.1, run.runs.2, run, rfl, rfl, rfl, sameRecords_of_twinRun run⟩

end VasalAgent.Agent
