import VasalAgent.Agent.Main
import VasalAgent.Async.Monitor

/-!
# Calls of the agent's programs

Which calls the executors and the main loop make, and what a monitor has to
accept of them.
-/

namespace VasalAgent.Agent

open VasalAgent.Async
open VasalAgent.Protocol
open VasalAgent.Task
open VasalAgent.Transport

/-! ## Executors -/

def AgentOp.isExec : AgentOp → Prop
  | .exec _ => True
  | _ => False

theorem uses_lift {α : Type} (p : Prog ExecSig α) : (lift p).Uses AgentOp.isExec := by
  induction p with
  | ret value => trivial
  | call op next ih => exact ⟨trivial, ih⟩
  | hang => trivial

theorem lift_ensures_yields {α Q : Type} {assume : Event AgentSig → Prop}
    {monitor : Monitor AgentSig Q} {post : α → Prop} {p : Prog ExecSig α} {q : Q}
    (hneutral : ∀ op ans, monitor q ⟨.exec op, ans⟩ = some q)
    (h : p.Yields (fun event => assume ⟨.exec event.1, event.2⟩) post) :
    (lift p).Ensures assume monitor (fun value q' => q' = q ∧ post value) q := by
  induction p with
  | ret value => exact ⟨rfl, h⟩
  | call op next ih =>
      exact fun ans hans => ⟨q, hneutral op ans, ih ans (h ans hans)⟩
  | hang => trivial

/-- A monitor of the executors' calls carries over to one that treats them alike. -/
theorem lift_ensures_of {α Q : Type} {assume : Event AgentSig → Prop}
    {inner : Monitor ExecSig Q} {monitor : Monitor AgentSig Q} {post : α → Q → Prop}
    {p : Prog ExecSig α} {q : Q}
    (hmonitor : ∀ q op ans q', inner q ⟨op, ans⟩ = some q' →
      monitor q ⟨.exec op, ans⟩ = some q')
    (h : p.Ensures (fun event => assume ⟨.exec event.1, event.2⟩) inner post q) :
    (lift p).Ensures assume monitor post q := by
  induction p generalizing q with
  | ret value => exact h
  | call op next ih =>
      intro ans hans
      obtain ⟨q', hq', hnext⟩ := h ans hans
      exact ⟨q', hmonitor q op ans q' hq', ih ans hnext⟩
  | hang => trivial

theorem lift_ensures {α Q : Type} {monitor : Monitor AgentSig Q}
    (hneutral : ∀ q op ans, monitor q ⟨.exec op, ans⟩ = some q) (p : Prog ExecSig α)
    (q : Q) :
    (lift p).Ensures (fun _ => True) monitor (fun _ q' => q' = q) q :=
  (lift_ensures_yields (hneutral q) (Prog.yields_any p)).mono fun _ _ h => h.1

/-! ## Spawned futures -/

/-- The calls of a spawned future until it deregisters itself, the permit apart. -/
def AgentOp.isReport : AgentOp → Prop
  | .exec _ => True
  | .recordTaskResult _ => True
  | .sendResult _ => True
  | _ => False

theorem uses_lift_report {α : Type} (p : Prog ExecSig α) :
    (lift p).Uses AgentOp.isReport := by
  refine (uses_lift p).mono fun op hop => ?_
  cases op <;> trivial

theorem uses_journal (result : TaskResult) :
    (TaskManager.journal result).Uses AgentOp.isReport :=
  ⟨trivial, fun _ => trivial⟩

theorem uses_send (m : TaskManager) (result : TaskResult) :
    (m.send result).Uses AgentOp.isReport := by
  unfold TaskManager.send
  split
  · exact ⟨trivial, fun _ => trivial⟩
  · trivial

theorem uses_report (m : TaskManager) (results : List TaskResult) :
    (m.report results).Uses AgentOp.isReport := by
  induction results with
  | nil => trivial
  | cons result rest ih =>
      exact (uses_journal result).bind fun _ => (uses_send m result).bind fun _ => ih

/-- The calls of the future that deregisters `id`. -/
def AgentOp.isBody (id : Uuid) : AgentOp → Prop
  | .exec _ => True
  | .acquire => True
  | .release => True
  | .recordTaskResult _ => True
  | .sendResult _ => True
  | .removeActive other => other = id
  | .updateCounts => True
  | _ => False

section Bodies

variable {id : Uuid}

theorem uses_body_of_report {α : Type} {p : Prog AgentSig α}
    (h : p.Uses AgentOp.isReport) : p.Uses (AgentOp.isBody id) := by
  refine h.mono fun op hop => ?_
  cases op <;> first | exact hop.elim | trivial

theorem uses_deregister (id : Uuid) :
    (TaskManager.deregister id).Uses (AgentOp.isBody id) :=
  ⟨rfl, fun _ => ⟨trivial, fun _ => trivial⟩⟩

/-- Routed tasks run without a permit. -/
def Body.gated : Body → Bool
  | .routed _ _ => false
  | _ => true

/-- What a spawned future does until it deregisters itself, the permit apart. -/
def TaskManager.work (m : TaskManager) : Body → Prog AgentSig Unit
  | .exec exec cancelToken =>
      lift (executeExec m.socketDir exec (taskToken cancelToken) shutdownToken m.ticks) >>=
        fun result => TaskManager.journal result >>= fun _ =>
          audit (eventType result.status) (some exec.id.toString) (.result result) >>=
            fun _ => m.send result
  | .routed task _ =>
      lift (routeTask task) >>= fun result =>
        TaskManager.journal result >>= fun _ => m.send result
  | .chain chain cancelToken =>
      lift (Chain.execute m.socketDir chain (taskToken cancelToken)) >>= m.report

/-- The three futures have one shape: the work, then the deregistration. -/
theorem runBody_eq (m : TaskManager) (body : Body) :
    m.runBody body =
      if body.gated then
        Prog.bracket (S := AgentSig) .acquire .release
          (m.work body >>= fun _ => TaskManager.deregister body.id)
      else m.work body >>= fun _ => TaskManager.deregister body.id := by
  cases body with
  | exec exec token =>
      simp only [Body.gated, if_true, TaskManager.work, Prog.bracket, Prog.bind_assoc]
      rfl
  | routed task token =>
      simp only [Body.gated, Bool.false_eq_true, if_false, TaskManager.work,
        Prog.bind_assoc]
      rfl
  | chain chain token =>
      simp only [Body.gated, if_true, TaskManager.work, Prog.bracket, Prog.bind_assoc]
      rfl

theorem uses_work (m : TaskManager) (body : Body) :
    (m.work body).Uses AgentOp.isReport := by
  cases body with
  | exec exec token =>
      refine (uses_lift_report _).bind fun result => ?_
      refine (uses_journal result).bind fun _ => ?_
      exact (uses_lift_report _).bind fun _ => uses_send m result
  | routed task token =>
      refine (uses_lift_report _).bind fun result => ?_
      exact (uses_journal result).bind fun _ => uses_send m result
  | chain chain token => exact (uses_lift_report _).bind fun results => uses_report m results

theorem uses_runBody (m : TaskManager) (body : Body) :
    (m.runBody body).Uses (AgentOp.isBody body.id) := by
  have hinner : (m.work body >>= fun _ => TaskManager.deregister body.id).Uses
      (AgentOp.isBody body.id) :=
    (uses_body_of_report (uses_work m body)).bind fun _ => uses_deregister body.id
  rw [runBody_eq]
  split
  · exact ⟨trivial, fun _ => hinner.bind fun _ => ⟨trivial, fun _ => trivial⟩⟩
  · exact hinner

/--
What a monitor has to accept of a body: the permit around everything else, calls
that leave the state `q` alone, and the deregistration.
-/
theorem runBody_ensures {Q : Type} {monitor : Monitor AgentSig Q} (m : TaskManager)
    {body : Body} {first q mid r last : Q}
    (hacquire : if body.gated then monitor first ⟨.acquire, ()⟩ = some q else first = q)
    (hreport : ∀ op ans, AgentOp.isReport op → monitor q ⟨op, ans⟩ = some q)
    (hremove : monitor q ⟨.removeActive body.id, ()⟩ = some mid)
    (hcounts : monitor mid ⟨.updateCounts, ()⟩ = some r)
    (hrelease : if body.gated then monitor r ⟨.release, ()⟩ = some last else r = last) :
    (m.runBody body).Ensures (fun _ => True) monitor (fun _ q' => q' = last) first := by
  have hwork : (m.work body).Ensures (fun _ => True) monitor (fun _ q' => q' = q) q :=
    (uses_work m body).ensures fun op ans hop _ => hreport op ans hop
  have hinner : (m.work body >>= fun _ => TaskManager.deregister body.id).Ensures
      (fun _ => True) monitor (fun _ q' => q' = r) q :=
    hwork.andThen fun _ => fun _ _ => ⟨mid, hremove, fun _ _ => ⟨r, hcounts, rfl⟩⟩
  rw [runBody_eq]
  split
  next hgated =>
      rw [if_pos hgated] at hacquire hrelease
      exact fun _ _ => ⟨q, hacquire, hinner.andThen fun _ => fun _ _ => ⟨last, hrelease, rfl⟩⟩
  next hgated =>
      rw [if_neg hgated] at hacquire hrelease
      subst hacquire hrelease
      exact hinner

end Bodies

/-! ## Main loop -/

/-- The calls of the main loop, but for what it records and submits. -/
def AgentOp.isRound : AgentOp → Prop
  | .openRecv => True
  | .pollShutdown => True
  | .pollResult => True
  | .pollRecv => True
  | .dropRecv => True
  | .tryRecv => True
  | .forward _ => True
  | .joinBackground => True
  | _ => False

def AgentOp.isLoop : AgentOp → Prop
  | .exec _ => True
  | op => op.isRound

theorem uses_loop {α : Type} {p : Prog AgentSig α} (h : p.Uses AgentOp.isRound) :
    p.Uses AgentOp.isLoop := by
  refine h.mono fun op hop => ?_
  cases op <;> first | exact hop | exact hop.elim

theorem uses_pollBranches (fuel : Nat) : (pollBranches fuel).Uses AgentOp.isRound := by
  induction fuel with
  | zero => trivial
  | succ fuel ih =>
      refine ⟨trivial, fun ready => ?_⟩
      cases ready with
      | true => exact ⟨trivial, fun _ => trivial⟩
      | false =>
          refine ⟨trivial, fun result => ?_⟩
          cases result with
          | some result => exact ⟨trivial, fun _ => trivial⟩
          | none =>
              refine ⟨trivial, fun work => ?_⟩
              cases work with
              | some work => trivial
              | none => exact ih

theorem uses_select (fuel : Nat) : (select fuel).Uses AgentOp.isRound :=
  ⟨trivial, fun _ => uses_pollBranches fuel⟩

theorem uses_forward (result : TaskResult) : (forward result).Uses AgentOp.isRound :=
  ⟨trivial, fun _ => trivial⟩

theorem uses_audit (event : AuditEvent) (taskId : Option String)
    (detail : AuditDetail) : (audit event taskId detail).Uses AgentOp.isLoop :=
  ⟨trivial, fun _ => trivial⟩

theorem uses_drain (fuel : Nat) : (drain fuel).Uses AgentOp.isRound := by
  induction fuel with
  | zero => trivial
  | succ fuel ih =>
      refine ⟨trivial, fun result => ?_⟩
      cases result with
      | none => trivial
      | some result => exact (uses_forward result).bind fun _ => ih

section Run

variable {Q : Type} {monitor : Monitor AgentSig Q} {q : Q}
  (hloop : ∀ op ans, AgentOp.isLoop op → monitor q ⟨op, ans⟩ = some q)
  (hsubmit : ∀ work,
    (submitWork work).Ensures (fun _ => True) monitor (fun _ q' => q' = q) q)

include hsubmit in
theorem submitAll_ensures (items : List ReceivedWork) :
    (submitAll items).Ensures (fun _ => True) monitor (fun _ q' => q' = q) q := by
  induction items with
  | nil => rfl
  | cons work rest ih => exact (hsubmit work).andThen fun _ => ih

include hloop in
theorem loop_ensures {α : Type} {p : Prog AgentSig α} (h : p.Uses AgentOp.isLoop) :
    p.Ensures (fun _ => True) monitor (fun _ q' => q' = q) q :=
  h.ensures fun op ans hop _ => hloop op ans hop

include hloop hsubmit

theorem mainLoop_ensures (polls fuel : Nat) :
    (mainLoop polls fuel).Ensures (fun _ => True) monitor (fun _ q' => q' = q) q := by
  induction fuel with
  | zero => trivial
  | succ fuel ih =>
      refine (loop_ensures hloop (uses_loop (uses_select polls))).andThen fun wake => ?_
      cases wake with
      | shutdown => rfl
      | result result =>
          exact (loop_ensures hloop (uses_loop (uses_forward result))).andThen fun _ => ih
      | work work =>
          cases work with
          | error e => exact ih
          | ok items => exact (submitAll_ensures hsubmit items).andThen fun _ => ih

/-- A monitor in whose state the main loop's own calls and submissions are neutral. -/
theorem run_ensures (fuel : Nat) :
    (run fuel).Ensures (fun _ => True) monitor (fun _ q' => q' = q) q := by
  refine (loop_ensures hloop (uses_audit ..)).andThen fun _ => ?_
  refine (mainLoop_ensures hloop hsubmit fuel fuel).andThen fun _ => ?_
  refine (loop_ensures hloop (uses_loop (uses_drain fuel))).andThen fun _ => ?_
  refine (loop_ensures hloop (uses_audit ..)).andThen fun _ => ?_
  exact fun ans _ => ⟨q, hloop .joinBackground ans trivial, rfl⟩

end Run

/-! ## Control -/

/-- The calls of `submit` and `submit_chain`. -/
def AgentOp.isSubmission : AgentOp → Prop
  | .exec (.audit ..) => True
  | .submit _ => True
  | .newToken => True
  | .insertActive _ _ => True
  | .cancelActive _ => True
  | .updateCounts => True
  | .spawn _ => True
  | _ => False

/-- The calls that the agent makes outside the futures it spawns. -/
def AgentOp.isOwn (op : AgentOp) : Prop := op.isSubmission ∨ op.isRound

/-- All calls but those that only a spawned future makes. -/
def AgentOp.isControl : AgentOp → Prop
  | .acquire => False
  | .release => False
  | .removeActive _ => False
  | .recordTaskResult _ => False
  | .sendResult _ => False
  | _ => True

section Control

theorem control_of_own {op : AgentOp} (h : op.isOwn) : op.isControl := by
  cases op <;> first | trivial | exact h.elim id id

theorem submission_audit (event : AuditEvent) (taskId : Option String) (detail : AuditDetail) :
    (audit event taskId detail).Uses AgentOp.isSubmission :=
  ⟨trivial, fun _ => trivial⟩

theorem submission_register (id : Uuid) (kind : TaskKindTag) (body : Nat → Body) :
    (register id kind body).Uses AgentOp.isSubmission :=
  ⟨trivial, fun _ => ⟨trivial, fun _ => ⟨trivial, fun _ =>
    ⟨trivial, fun _ => trivial⟩⟩⟩⟩

theorem submission_submitWork (work : ReceivedWork) :
    (submitWork work).Uses AgentOp.isSubmission := by
  cases work with
  | single task =>
      refine ⟨trivial, fun _ => ?_⟩
      refine (submission_audit ..).bind fun _ => ?_
      cases task with
      | cancel cancel => exact ⟨trivial, fun _ => trivial⟩
      | _ => exact submission_register ..
  | chain chain =>
      refine ⟨trivial, fun _ => ?_⟩
      exact (submission_audit ..).bind fun _ => submission_register ..

theorem submission_submitAll (items : List ReceivedWork) :
    (submitAll items).Uses AgentOp.isSubmission := by
  induction items with
  | nil => trivial
  | cons work rest ih => exact (submission_submitWork work).bind fun _ => ih

section Own

variable {α : Type} {p : Prog AgentSig α}

theorem own_of_submission (h : p.Uses AgentOp.isSubmission) : p.Uses AgentOp.isOwn :=
  h.mono fun _ => .inl

theorem own_of_round (h : p.Uses AgentOp.isRound) : p.Uses AgentOp.isOwn :=
  h.mono fun _ => .inr

end Own

theorem own_mainLoop (polls fuel : Nat) : (mainLoop polls fuel).Uses AgentOp.isOwn := by
  induction fuel with
  | zero => trivial
  | succ fuel ih =>
      refine (own_of_round (uses_select polls)).bind fun wake => ?_
      cases wake with
      | shutdown => trivial
      | result result => exact (own_of_round (uses_forward result)).bind fun _ => ih
      | work work =>
          cases work with
          | error e => exact ih
          | ok items => exact (own_of_submission (submission_submitAll items)).bind fun _ => ih

theorem own_run (fuel : Nat) : (run fuel).Uses AgentOp.isOwn := by
  refine (own_of_submission (submission_audit ..)).bind fun _ => ?_
  refine (own_mainLoop fuel fuel).bind fun _ => ?_
  refine (own_of_round (uses_drain fuel)).bind fun _ => ?_
  refine (own_of_submission (submission_audit ..)).bind fun _ => ?_
  exact ⟨.inr trivial, fun _ => trivial⟩

theorem uses_submitWork (work : ReceivedWork) : (submitWork work).Uses AgentOp.isControl :=
  (submission_submitWork work).mono fun _ h => control_of_own (.inl h)

theorem uses_run (fuel : Nat) : (run fuel).Uses AgentOp.isControl :=
  (own_run fuel).mono fun _ => control_of_own

end Control

end VasalAgent.Agent
