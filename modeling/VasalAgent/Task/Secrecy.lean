import VasalAgent.Async.Relational
import VasalAgent.Task.Internal

/-!
# Resolved credentials stay inside the executors

Two executions of one task whose credentials resolve to different values make the
same calls, with two exceptions: the environment of the shell process and the
parameters of the submission to a sidecar carry the values.  As long as process
and sidecar answer the same, the results are equal.
-/

namespace VasalAgent.Task

open VasalAgent.Async
open VasalAgent.Protocol

/-! ## What may differ -/

/-- Credentials of the same names, whatever their values. -/
def SameNames (creds creds' : ResolvedCredentials) : Prop :=
  creds.map Prod.fst = creds'.map Prod.fst

/-- The request with which `sidecar::execute` submits. -/
abbrev submission (method : String) (payload : Json) (refs : List CredentialRef)
    (creds : ResolvedCredentials) : Request :=
  .new method (some (Sidecar.submitParams payload refs creds)) (.integer 1)

/-- The same call, but for the values of the credentials it carries. -/
inductive ExecOp.Alike : ExecOp → ExecOp → Prop
  | same (op : ExecOp) : Alike op op
  | spawnShell (origin : Origin) (exec : ExecTask) (script : String)
      {creds creds' : ResolvedCredentials} (h : SameNames creds creds') :
      Alike (.spawnShell origin (Shell.command exec creds script))
        (.spawnShell origin (Shell.command exec creds' script))
  | submit (origin : Origin) (method : String) (payload : Json) (refs : List CredentialRef)
      {creds creds' : ResolvedCredentials} (h : SameNames creds creds') :
      Alike (.sendFrame origin .submit (submission method payload refs creds))
        (.sendFrame origin .submit (submission method payload refs creds'))

/--
Like calls with the same answer; only the value of a credential that was resolved
may be another.
-/
inductive ExecAlike : Event ExecSig → Event ExecSig → Prop
  | same (event : Event ExecSig) : ExecAlike event event
  | resolved (origin : Origin) (index : Nat) (ref : CredentialRef) (value value' : String) :
      ExecAlike ⟨.resolveOne origin index ref, .ok value⟩
        ⟨.resolveOne origin index ref, .ok value'⟩
  | spawnShell (origin : Origin) (exec : ExecTask) (script : String)
      {creds creds' : ResolvedCredentials} (h : SameNames creds creds')
      (started : Except String Unit) :
      ExecAlike ⟨.spawnShell origin (Shell.command exec creds script), started⟩
        ⟨.spawnShell origin (Shell.command exec creds' script), started⟩
  | submit (origin : Origin) (method : String) (payload : Json) (refs : List CredentialRef)
      {creds creds' : ResolvedCredentials} (h : SameNames creds creds')
      (sent : Except String Unit) :
      ExecAlike ⟨.sendFrame origin .submit (submission method payload refs creds), sent⟩
        ⟨.sendFrame origin .submit (submission method payload refs creds'), sent⟩

def execSecrecy : Likeness ExecSig where
  calls := ExecOp.Alike
  events := ExecAlike

def ExecOp.resolves : ExecOp → Prop
  | .resolveOne .. => True
  | _ => False

theorem ExecAlike.answer {event event' : Event ExecSig} (h : ExecAlike event event')
    (hop : ¬ event.1.resolves) : HEq event.2 event'.2 := by
  cases h with
  | same => rfl
  | resolved => exact absurd trivial hop
  | spawnShell => rfl
  | submit => rfl

theorem plain_of_not_resolves {op : ExecOp} (h : ¬ op.resolves) : execSecrecy.Plain op where
  call := .same op
  answer halike := eq_of_heq (halike.answer h)

/-! ## Executors -/

section Executors

variable {α β : Type} {origin : Origin} {creds creds' : ResolvedCredentials}

abbrev Hides (R : α → β → Prop) (p : Prog ExecSig α) (q : Prog ExecSig β) : Prop :=
  p.Related execSecrecy R q

theorem hides_executing {p : Prog ExecSig α} (h : p.Uses (ExecOp.executing origin)) :
    Hides Eq p p := by
  refine Prog.related_self (h.mono fun op hop => plain_of_not_resolves ?_)
  cases op <;> first | exact fun hresolves => hresolves | exact hop.elim

theorem hides_call {R : α → β → Prop} {op : ExecOp} {next : op.Ans → Prog ExecSig α}
    {next' : op.Ans → Prog ExecSig β} (hop : ¬ op.resolves)
    (h : ∀ ans, Hides R (next ans) (next' ans)) :
    Hides R (.call op next) (.call op next') :=
  Prog.related_call (plain_of_not_resolves hop) h

/-! ### Resolution -/

theorem SameNames.insert (h : SameNames creds creds') (name value value' : String) :
    SameNames (Credential.insert creds name value) (Credential.insert creds' name value') := by
  have hfilter : ∀ creds : ResolvedCredentials,
      (creds.filter fun entry => entry.1 != name).map Prod.fst =
        (creds.map Prod.fst).filter fun other => other != name := by
    intro creds
    rw [List.filter_map]
    rfl
  unfold SameNames at h ⊢
  simp only [Credential.insert, List.map_cons, hfilter, h]

/-- The same error, or credentials of the same names. -/
inductive ResolvedAlike :
    Except Error ResolvedCredentials → Except Error ResolvedCredentials → Prop
  | error (e : Error) : ResolvedAlike (.error e) (.error e)
  | ok {creds creds' : ResolvedCredentials} (h : SameNames creds creds') :
      ResolvedAlike (.ok creds) (.ok creds')

theorem hides_resolveFrom (index : Nat) (refs : List CredentialRef)
    (h : SameNames creds creds') :
    Hides ResolvedAlike (Credential.resolveFrom origin index refs creds)
      (Credential.resolveFrom origin index refs creds') := by
  induction refs generalizing index creds creds' with
  | nil => exact .ok h
  | cons ref rest ih =>
      rw [Credential.resolveFrom, Credential.resolveFrom]
      cases ref.resolve with
      | lazy => exact ih _ h
      | eager =>
          refine ⟨.same _, fun ans ans' halike => ?_⟩
          cases halike with
          | resolved _ _ _ value value' => exact ih _ (h.insert ref.name value value')
          | same =>
              cases ans with
              | error e => exact .error e
              | ok value => exact ih _ (h.insert ref.name value value)

theorem hides_resolveEager (refs : List CredentialRef) :
    Hides ResolvedAlike (Credential.resolveEager origin refs)
      (Credential.resolveEager origin refs) :=
  hides_resolveFrom 0 refs rfl

/-! ### Execution -/

theorem hides_shell (exec : ExecTask) (cancel : Token) (h : SameNames creds creds') :
    Hides Eq (Shell.execute origin exec creds cancel)
      (Shell.execute origin exec creds' cancel) := by
  unfold Shell.execute
  cases Shell.script? exec with
  | none => exact hides_executing (uses_timedResult ..)
  | some script =>
      refine ⟨.spawnShell origin exec script h, fun ans ans' halike => ?_⟩
      cases eq_of_heq (halike.answer id)
      cases ans with
      | error e => exact hides_executing (uses_timedResult ..)
      | ok started => exact hides_executing (uses_supervise exec cancel)

/-- The submission to a sidecar; `callRaw` puts nothing of the request in its errors. -/
theorem hides_submission (socketPath method : String) (payload : Json)
    (refs : List CredentialRef) (h : SameNames creds creds') :
    Hides Eq
      (Sidecar.callRaw origin .submit socketPath method
        (some (Sidecar.submitParams payload refs creds)))
      (Sidecar.callRaw origin .submit socketPath method
        (some (Sidecar.submitParams payload refs creds'))) := by
  refine hides_call id fun connected => ?_
  cases connected with
  | error e => exact rfl
  | ok _ =>
      refine ⟨.submit origin method payload refs h, fun sent sent' halike => ?_⟩
      cases eq_of_heq (halike.answer id)
      cases sent with
      | error e => exact rfl
      | ok _ =>
          refine hides_call id fun frame => ?_
          rcases frame with _ | _ | _ | _ <;> exact rfl

theorem hides_sidecar (taskId : Uuid) (target method : String) (payload : Json)
    (refs : List CredentialRef) (timeoutMs : Nat) (socketDir : String) (cancel : Token)
    (h : SameNames creds creds') :
    Hides Eq
      (Sidecar.execute origin taskId target method payload refs creds timeoutMs socketDir cancel)
      (Sidecar.execute origin taskId target method payload refs creds' timeoutMs socketDir
        cancel) := by
  apply (hides_submission _ method payload refs h).bind
  rintro answer _ rfl
  cases answer with
  | error e => exact hides_executing (uses_timedResult ..)
  | ok response => exact hides_executing (uses_submitted ..)

theorem hides_dispatch (socketDir : String) (exec : ExecTask) (cancel : Token)
    (h : SameNames creds creds') :
    Hides Eq (dispatch socketDir origin exec creds cancel)
      (dispatch socketDir origin exec creds' cancel) := by
  refine hides_call id fun _ => ?_
  unfold runExecutor
  cases exec.executor with
  | shell => exact hides_shell exec cancel h
  | sidecar => exact hides_sidecar _ _ _ _ _ _ _ _ h

end Executors

/-! ## Tasks and chains -/

section Tasks

variable {socketDir : String} {exec : ExecTask} {chain : TaskChain} {cancel shutdown : Token}

/-- A program that behaves the same whatever the credentials are. -/
abbrev Secretive {α : Type} (p : Prog ExecSig α) : Prop := Hides Eq p p

theorem secretive_oneshot {origin : Origin} :
    Secretive (executeOneshot socketDir origin exec cancel) := by
  apply (hides_resolveEager exec.credentials).bind
  rintro _ _ (e | hcreds)
  · exact hides_executing (uses_timedResult ..)
  · exact hides_dispatch socketDir exec cancel hcreds

theorem secretive_recordTick (n : Nat) (result : TaskResult) :
    Secretive (Continuous.recordTick n result) :=
  hides_call id fun _ => rfl

theorem secretive_tick (n : Nat) : Secretive (Continuous.tick socketDir exec cancel n) := by
  apply (hides_resolveEager exec.credentials).bind
  rintro _ _ (e | hcreds)
  · refine hides_call id fun time => ?_
    apply (hides_executing (uses_makeResult ..)).bind
    rintro result _ rfl
    exact (secretive_recordTick n result).bind fun _ _ _ => rfl
  · apply (hides_dispatch socketDir exec (.child cancel) hcreds).bind
    rintro result _ rfl
    exact (secretive_recordTick n result).bind fun _ _ _ => rfl

theorem secretive_loop (fuel n : Nat) (lastResult : TaskResult) :
    Secretive (Continuous.loop socketDir exec cancel shutdown fuel n lastResult) := by
  induction fuel generalizing n lastResult with
  | zero => trivial
  | succ fuel ih =>
      rw [Continuous.loop]
      refine hides_call id fun wake => ?_
      cases wake with
      | cancelled => exact hides_executing (uses_makeResult ..)
      | shutdown => exact rfl
      | slept =>
          apply (secretive_tick n).bind
          rintro result _ rfl
          exact ih (n + 1) result

theorem secretive_executeExec (fuel : Nat) :
    Secretive (executeExec socketDir exec cancel shutdown fuel) := by
  unfold executeExec
  cases exec.kind with
  | oneshot => exact secretive_oneshot
  | continuous =>
      apply (hides_executing (uses_makeResult ..)).bind
      rintro lastResult _ rfl
      exact secretive_loop fuel 0 lastResult

theorem secretive_record (event : AuditEvent) (taskId : Option String) (detail : AuditDetail) :
    Secretive (record event taskId detail) :=
  hides_call id fun _ => rfl

theorem secretive_rollbackStep (idx : Nat) :
    Secretive (Chain.rollbackStep socketDir chain cancel idx) := by
  unfold Chain.rollbackStep
  cases chain.steps[idx]?.bind ChainStep.rollback with
  | none => exact rfl
  | some rollbackTask =>
      apply (hides_resolveEager rollbackTask.credentials).bind
      rintro _ _ (e | hcreds)
      · exact rfl
      · apply (hides_dispatch socketDir rollbackTask (.child cancel) hcreds).bind
        exact fun _ _ _ => rfl

theorem secretive_rollbackLoop (idxs : List Nat) :
    Secretive (Chain.rollbackLoop socketDir chain cancel idxs) := by
  induction idxs with
  | nil => exact rfl
  | cons idx rest ih => exact (secretive_rollbackStep idx).bind fun _ _ _ => ih

theorem secretive_runRollbacks (failedStepIdx : Nat) :
    Secretive (Chain.runRollbacks socketDir chain failedStepIdx cancel) :=
  (secretive_record ..).bind fun _ _ _ => secretive_rollbackLoop _

theorem secretive_complete (results : List TaskResult) :
    Secretive (Chain.complete chain results) :=
  (secretive_record ..).bind fun _ _ _ => rfl

theorem secretive_executeFrom (idx : Nat) (steps : List ChainStep)
    (results : List TaskResult) :
    Secretive (Chain.executeFrom socketDir chain cancel idx steps results) := by
  induction steps generalizing idx results with
  | nil => exact secretive_complete results
  | cons step rest ih =>
      rw [Chain.executeFrom]
      refine hides_call id fun stopped => ?_
      cases stopped with
      | true => exact secretive_complete results
      | false =>
          apply (hides_resolveEager step.task.credentials).bind
          rintro _ _ (e | hcreds)
          · apply (hides_executing (uses_makeResult ..)).bind
            rintro result _ rfl
            exact (secretive_runRollbacks idx).bind fun _ _ _ => rfl
          · apply (hides_dispatch socketDir step.task (.child cancel) hcreds).bind
            rintro result _ rfl
            split
            · exact ih (idx + 1) _
            · exact (secretive_runRollbacks idx).bind fun _ _ _ => rfl

theorem secretive_chain : Secretive (Chain.execute socketDir chain cancel) :=
  (secretive_record ..).bind fun _ _ _ => secretive_executeFrom 0 chain.steps []

/-- The other tasks resolve no credentials. -/
theorem secretive_routeTask (task : Task) : Secretive (routeTask task) := by
  have hsuccess (id : Uuid) (stdout : String) : Secretive (routedSuccess id stdout) :=
    hides_executing (uses_timedResult ..)
  cases task with
  | install install => exact hsuccess ..
  | upgrade upgrade => exact hsuccess ..
  | remove remove => exact hsuccess ..
  | selfUpgrade upgrade =>
      refine hides_call id fun upgraded => ?_
      cases upgraded with
      | ok _ => exact hsuccess ..
      | error e => exact hides_executing (uses_timedResult ..)
  | exec exec => exact hides_executing (uses_timedResult ..)
  | cancel cancel => exact hides_executing (uses_timedResult ..)

end Tasks

end VasalAgent.Task
