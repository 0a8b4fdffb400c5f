import VasalAgent.Task.World

/-!
# What a chain execution does

Against a fixed world a chain either runs a prefix of its steps, all of them
successful, and leaves the loop at its end or at a cancel check, or it fails at
one step and runs the rollbacks.  `execute_cases` says so, with the results,
the tasks handed to an executor and the audit events of each case.
-/

namespace VasalAgent.Task

open VasalAgent.Async
open VasalAgent.Protocol

/-! ## Reading a trace -/

structure Call where
  origin : Origin
  task : ExecTask
  token : Token

/-- What is read off a trace: hand-overs and audit events. -/
inductive Note where
  | handed (call : Call)
  | recorded (event : AuditEvent)

def note? : Event ExecSig → Option Note
  | ⟨.enter origin task token, _⟩ => some (.handed ⟨origin, task, token⟩)
  | ⟨.audit event _ _, _⟩ => some (.recorded event)
  | _ => none

def notes (events : List (Event ExecSig)) : List Note :=
  events.filterMap note?

def Note.call? : Note → Option Call
  | .handed call => some call
  | .recorded _ => none

def Note.event? : Note → Option AuditEvent
  | .handed _ => none
  | .recorded event => some event

/-- The tasks handed to `shell::execute` or `sidecar::execute`, in order. -/
def executorCalls (events : List (Event ExecSig)) : List Call :=
  (notes events).filterMap Note.call?

/-- The events passed to `audit::record`, in order. -/
def auditTrail (events : List (Event ExecSig)) : List AuditEvent :=
  (notes events).filterMap Note.event?

@[simp] theorem notes_append (first second : List (Event ExecSig)) :
    notes (first ++ second) = notes first ++ notes second :=
  List.filterMap_append

theorem calls_handed (calls : List Call) :
    (calls.map Note.handed).filterMap Note.call? = calls := by
  induction calls with
  | nil => rfl
  | cons call rest ih => exact congrArg (call :: ·) ih

theorem events_handed (calls : List Call) :
    (calls.map Note.handed).filterMap Note.event? = [] := by
  induction calls with
  | nil => rfl
  | cons call rest ih => exact ih

theorem read_recorded (first last : List Call) (event : AuditEvent) :
    let made := first.map Note.handed ++ .recorded event :: last.map Note.handed
    made.filterMap Note.call? = first ++ last ∧
      made.filterMap Note.event? = [event] := by
  intro made
  constructor
  · rw [List.filterMap_append, List.filterMap_cons_none rfl, calls_handed, calls_handed]
  · rw [List.filterMap_append, events_handed]
    exact congrArg (event :: ·) (events_handed last)

theorem notes_internal {origin : Origin} {events : List (Event ExecSig)}
    (h : ∀ event ∈ events, ExecOp.internal origin event.1) :
    notes events = [] := by
  rw [notes, List.filterMap_eq_nil_iff]
  rintro ⟨op, ans⟩ hevent
  have hop := h _ hevent
  cases op <;> first | rfl | exact hop.elim

/-! ## One step -/

namespace Chain

/-- Resolve the credentials of a step and hand it to its executor. -/
def attempt (socketDir : String) (cancel : Token) (idx : Nat)
    (step : ChainStep) : Prog ExecSig TaskResult := do
  match ← Credential.resolveEager (.step idx) step.task.credentials with
  | .error e =>
      makeResult (.step idx) step.task.id .failed none "" e.toString 0
        (some e.toString)
  | .ok creds =>
      dispatch socketDir (.step idx) step.task creds (.child cancel)

/-- A failed step: roll back and return what was collected. -/
def abort (socketDir : String) (chain : TaskChain) (cancel : Token) (idx : Nat)
    (results : List TaskResult) : Prog ExecSig (List TaskResult) := do
  runRollbacks socketDir chain idx cancel
  pure results

/--
The two abort sites of the loop are one: unresolved credentials give a result
whose status is not `success`.
-/
theorem executeFrom_cons (socketDir : String) (chain : TaskChain)
    (cancel : Token) (idx : Nat) (step : ChainStep) (rest : List ChainStep)
    (results : List TaskResult) :
    executeFrom socketDir chain cancel idx (step :: rest) results =
      (await (.isCancelled idx cancel) >>= fun seen =>
        if seen then complete chain results
        else attempt socketDir cancel idx step >>= fun result =>
          if result.status = .success then
            executeFrom socketDir chain cancel (idx + 1) rest
              (results ++ [label chain idx result])
          else
            abort socketDir chain cancel idx
              (results ++ [label chain idx result])) := by
  rw [executeFrom, attempt]
  refine congrArg (Prog.call (S := ExecSig) (.isCancelled idx cancel)) ?_
  funext seen
  cases seen with
  | true => rfl
  | false =>
      change (Credential.resolveEager _ _ >>= _) =
        ((Credential.resolveEager _ _ >>= _) >>= _)
      rw [Prog.bind_assoc]
      congr 1
      funext resolved
      cases resolved <;> rfl

end Chain

/-! ## Values against a world -/

namespace World

variable (W : World)

def value {α : Type} (p : Prog ExecSig α) (h : W.Returns p) : α :=
  (p.run W.oracle).get (by obtain ⟨value, hvalue⟩ := h; simp [hvalue])

theorem run_eq_value {α : Type} {p : Prog ExecSig α} (h : W.Returns p) :
    p.run W.oracle = some (W.value p h) := by
  simp [value]

def credentials (origin : Origin) (refs : List CredentialRef) :
    Except Error ResolvedCredentials :=
  W.value (Credential.resolveEager origin refs) (W.returns_resolveEager origin refs)

/-- The eager credentials of a task resolve when they are asked for at `origin`. -/
def resolves (origin : Origin) (refs : List CredentialRef) : Bool :=
  (W.credentials origin refs).isOk

theorem run_resolveEager (origin : Origin) (refs : List CredentialRef) :
    (Credential.resolveEager origin refs).run W.oracle =
      some (W.credentials origin refs) :=
  W.run_eq_value _

theorem notes_resolveEager (origin : Origin) (refs : List CredentialRef) :
    notes ((Credential.resolveEager origin refs).trace W.oracle) = [] :=
  notes_internal ((uses_resolveEager refs).trace W.oracle)

theorem notes_dispatch (socketDir : String) (origin : Origin) (exec : ExecTask)
    (creds : ResolvedCredentials) (cancel : Token) :
    notes ((dispatch socketDir origin exec creds cancel).trace W.oracle) =
      [.handed ⟨origin, exec, cancel⟩] := by
  have huses : (runExecutor socketDir origin exec creds cancel).Uses
      (ExecOp.internal origin) := uses_internal (uses_runExecutor ..)
  have hinner := notes_internal (huses.trace W.oracle)
  rw [dispatch_eq, Prog.trace_call]
  exact congrArg (_ :: ·) hinner

section Chain

variable (socketDir : String) (chain : TaskChain) (cancel : Token)

theorem returns_attempt (idx : Nat) (step : ChainStep) :
    W.Returns (Chain.attempt socketDir cancel idx step) := by
  refine (W.returns_resolveEager ..).bind fun resolved => ?_
  cases resolved with
  | error e => exact W.returns_makeResult ..
  | ok creds => exact W.returns_dispatch ..

def stepOutcome (idx : Nat) (step : ChainStep) : TaskResult :=
  W.value (Chain.attempt socketDir cancel idx step)
    (W.returns_attempt socketDir cancel idx step)

def stepResult (idx : Nat) (step : ChainStep) : TaskResult :=
  Chain.label chain idx (W.stepOutcome socketDir cancel idx step)

def stepCall (idx : Nat) (step : ChainStep) : List Call :=
  if W.resolves (.step idx) step.task.credentials then
    [⟨.step idx, step.task, .child cancel⟩]
  else []

theorem run_attempt (idx : Nat) (step : ChainStep) :
    (Chain.attempt socketDir cancel idx step).run W.oracle =
      some (W.stepOutcome socketDir cancel idx step) :=
  W.run_eq_value _

theorem notes_attempt (idx : Nat) (step : ChainStep) :
    notes ((Chain.attempt socketDir cancel idx step).trace W.oracle) =
      (W.stepCall cancel idx step).map Note.handed := by
  rw [Chain.attempt, Prog.trace_bind _ (W.run_resolveEager _ _), notes_append,
    notes_resolveEager, List.nil_append, stepCall, resolves]
  cases W.credentials (.step idx) step.task.credentials with
  | error e => rfl
  | ok creds => exact W.notes_dispatch ..

/-- Unresolved credentials make a step fail. -/
theorem resolves_of_success {idx : Nat} {step : ChainStep}
    (h : (W.stepOutcome socketDir cancel idx step).status = .success) :
    W.resolves (.step idx) step.task.credentials = true := by
  have hrun := W.run_attempt socketDir cancel idx step
  rw [Chain.attempt, Prog.run_bind, run_resolveEager, Option.bind_some] at hrun
  unfold resolves
  cases hcreds : W.credentials (.step idx) step.task.credentials with
  | ok creds => rfl
  | error e =>
      rw [hcreds] at hrun
      have houtcome := Option.some.inj hrun
      rw [← houtcome] at h
      cases h

/-! ## Rollbacks -/

/-- The rollback of index `idx`, when there is one and its credentials resolve. -/
def rollbackCall (idx : Nat) : Option Call :=
  (chain.steps[idx]?.bind ChainStep.rollback).bind fun task =>
    if W.resolves (.rollback idx) task.credentials then
      some ⟨.rollback idx, task, .child cancel⟩
    else none

def rollbackCalls (failed : Nat) : List Call :=
  (Chain.rollbackRange chain.onFailure failed).filterMap
    (W.rollbackCall chain cancel)

theorem run_rollbackStep (idx : Nat) :
    (Chain.rollbackStep socketDir chain cancel idx).run W.oracle = some () := by
  unfold Chain.rollbackStep
  split
  · rfl
  · rw [Prog.run_bind, run_resolveEager, Option.bind_some]
    split
    · rfl
    · rw [Prog.run_bind, W.run_eq_value (W.returns_dispatch ..)]
      rfl

theorem notes_rollbackStep (idx : Nat) :
    notes ((Chain.rollbackStep socketDir chain cancel idx).trace W.oracle) =
      (W.rollbackCall chain cancel idx).toList.map Note.handed := by
  unfold Chain.rollbackStep rollbackCall
  cases chain.steps[idx]?.bind ChainStep.rollback with
  | none => rfl
  | some task =>
      dsimp only [Option.bind_some]
      rw [Prog.trace_bind _ (W.run_resolveEager _ _), notes_append,
        notes_resolveEager, List.nil_append, resolves]
      cases W.credentials (.rollback idx) task.credentials with
      | error e => rfl
      | ok creds =>
          dsimp only
          rw [Prog.trace_bind _ (W.run_eq_value (W.returns_dispatch ..)),
            notes_append, notes_dispatch]
          rfl

theorem run_rollbackLoop (indices : List Nat) :
    (Chain.rollbackLoop socketDir chain cancel indices).run W.oracle = some () := by
  induction indices with
  | nil => rfl
  | cons idx rest ih =>
      rw [Chain.rollbackLoop, Prog.run_bind, run_rollbackStep]
      exact ih

/-- Neither a failed rollback nor unresolved credentials stop the loop. -/
theorem notes_rollbackLoop (indices : List Nat) :
    notes ((Chain.rollbackLoop socketDir chain cancel indices).trace W.oracle) =
      (indices.filterMap (W.rollbackCall chain cancel)).map Note.handed := by
  induction indices with
  | nil => rfl
  | cons idx rest ih =>
      rw [Chain.rollbackLoop, Prog.trace_bind _ (W.run_rollbackStep ..),
        notes_append, notes_rollbackStep, ih, List.filterMap_cons]
      cases W.rollbackCall chain cancel idx <;> rfl

theorem run_abort (idx : Nat) (results : List TaskResult) :
    (Chain.abort socketDir chain cancel idx results).run W.oracle =
      some results := by
  have hloop := W.run_rollbackLoop socketDir chain cancel
    (Chain.rollbackRange chain.onFailure idx)
  change ((Chain.rollbackLoop socketDir chain cancel _ >>= fun _ =>
    (pure results : Prog ExecSig _)).run W.oracle) = _
  rw [Prog.run_bind, hloop]
  rfl

theorem notes_abort (idx : Nat) (results : List TaskResult) :
    notes ((Chain.abort socketDir chain cancel idx results).trace W.oracle) =
      .recorded .chainRollback ::
        (W.rollbackCalls chain cancel idx).map Note.handed := by
  have hloop := W.notes_rollbackLoop socketDir chain cancel
    (Chain.rollbackRange chain.onFailure idx)
  change notes (_ :: (Chain.rollbackLoop socketDir chain cancel _ >>= fun _ =>
    (pure results : Prog ExecSig _)).trace W.oracle) = _
  rw [Prog.trace_bind _ (W.run_rollbackLoop ..), ← List.cons_append, notes_append]
  change Note.recorded .chainRollback :: _ ++ [] = _
  rw [List.append_nil]
  exact congrArg (_ :: ·) hloop

/-! ## Cases -/

/-- The first `n` steps are started and succeed. -/
def Succeeds (n : Nat) : Prop :=
  ∀ i step, i < n → chain.steps[i]? = some step →
    W.tokenCancelled (.head i) cancel = false ∧
      (W.stepOutcome socketDir cancel i step).status = .success

/-- The loop is left by the cancel check of iteration `n`. -/
def CutAt (n : Nat) : Prop :=
  W.Succeeds socketDir chain cancel n ∧ n < chain.steps.length ∧
    W.tokenCancelled (.head n) cancel = true

/-- Step `k` is the first that does not succeed. -/
def FailsAt (k : Nat) : Prop :=
  W.Succeeds socketDir chain cancel k ∧
    W.tokenCancelled (.head k) cancel = false ∧
    ∃ step, chain.steps[k]? = some step ∧
      (W.stepOutcome socketDir cancel k step).status ≠ .success

def firstResults (n : Nat) : List TaskResult :=
  (chain.steps.take n).mapIdx (W.stepResult socketDir chain cancel)

def firstCalls (n : Nat) : List Call :=
  ((chain.steps.take n).mapIdx (W.stepCall cancel)).flatten

section Prefix

variable {socketDir chain cancel} {n : Nat} {step : ChainStep}

theorem mapIdx_take_succ {β : Type} (f : Nat → ChainStep → β)
    {steps : List ChainStep} (h : steps[n]? = some step) :
    (steps.take (n + 1)).mapIdx f = (steps.take n).mapIdx f ++ [f n step] := by
  have hn : n < steps.length := (List.getElem?_eq_some_iff.mp h).1
  rw [List.take_add_one, h, Option.toList_some, List.mapIdx_concat,
    List.length_take_of_le (Nat.le_of_lt hn)]

theorem firstResults_succ (h : chain.steps[n]? = some step) :
    W.firstResults socketDir chain cancel (n + 1) =
      W.firstResults socketDir chain cancel n ++
        [W.stepResult socketDir chain cancel n step] :=
  mapIdx_take_succ _ h

theorem firstCalls_succ (h : chain.steps[n]? = some step) :
    W.firstCalls chain cancel (n + 1) =
      W.firstCalls chain cancel n ++ W.stepCall cancel n step := by
  rw [firstCalls, mapIdx_take_succ _ h, List.flatten_append, List.flatten_singleton]
  rfl

theorem Succeeds.succ {W : World} (h : W.Succeeds socketDir chain cancel n)
    (hstep : chain.steps[n]? = some step)
    (hhead : W.tokenCancelled (.head n) cancel = false)
    (hok : (W.stepOutcome socketDir cancel n step).status = .success) :
    W.Succeeds socketDir chain cancel (n + 1) := by
  intro i other hi hother
  rcases Nat.lt_succ_iff_lt_or_eq.mp hi with hlt | rfl
  · exact h i other hlt hother
  · rw [hstep] at hother
    cases hother
    exact ⟨hhead, hok⟩

end Prefix

/-- The two ways a chain execution ends, with its results and its notes. -/
inductive Outcome : Option (List TaskResult) → List Note → Prop
  | done (n : Nat) (hok : W.Succeeds socketDir chain cancel n)
      (hend : n = chain.steps.length ∨ W.CutAt socketDir chain cancel n) :
      Outcome (some (W.firstResults socketDir chain cancel n))
        ((W.firstCalls chain cancel n).map Note.handed ++
          [.recorded .chainCompleted])
  | failed (k : Nat) (hfails : W.FailsAt socketDir chain cancel k) :
      Outcome (some (W.firstResults socketDir chain cancel (k + 1)))
        ((W.firstCalls chain cancel (k + 1)).map Note.handed ++
          .recorded .chainRollback ::
            (W.rollbackCalls chain cancel k).map Note.handed)

section Iteration

variable (idx : Nat) (step : ChainStep) (rest : List ChainStep)
  (results : List TaskResult)

theorem executeFrom_started
    (hhead : W.tokenCancelled (.head idx) cancel = false) :
    let tail :=
      if (W.stepOutcome socketDir cancel idx step).status = .success then
        Chain.executeFrom socketDir chain cancel (idx + 1) rest
          (results ++ [W.stepResult socketDir chain cancel idx step])
      else
        Chain.abort socketDir chain cancel idx
          (results ++ [W.stepResult socketDir chain cancel idx step])
    let p := Chain.executeFrom socketDir chain cancel idx (step :: rest) results
    p.run W.oracle = tail.run W.oracle ∧
      notes (p.trace W.oracle) =
        (W.stepCall cancel idx step).map Note.handed ++
          notes (tail.trace W.oracle) := by
  intro tail p
  have hp : p = _ := Chain.executeFrom_cons ..
  have hattempt := W.run_attempt socketDir cancel idx step
  have hanswer : W.oracle (.isCancelled idx cancel) = false := hhead
  rw [hp, await_bind, Prog.run_call, Prog.trace_call, hanswer, if_neg (by simp),
    Prog.run_bind, Prog.trace_bind _ hattempt, hattempt, Option.bind_some]
  refine ⟨rfl, ?_⟩
  rw [← List.cons_append, notes_append]
  exact congrArg (· ++ _) (W.notes_attempt ..)

theorem executeFrom_cut (hhead : W.tokenCancelled (.head idx) cancel = true) :
    let p := Chain.executeFrom socketDir chain cancel idx (step :: rest) results
    p.run W.oracle = some results ∧
      notes (p.trace W.oracle) = [.recorded .chainCompleted] := by
  intro p
  have hp : p = _ := Chain.executeFrom_cons ..
  have hanswer : W.oracle (.isCancelled idx cancel) = true := hhead
  rw [hp, await_bind, Prog.run_call, Prog.trace_call, hanswer, if_pos rfl]
  exact ⟨rfl, rfl⟩

end Iteration

theorem executeFrom_outcome (idx : Nat) (rest : List ChainStep)
    (hrest : chain.steps.drop idx = rest) (hle : idx ≤ chain.steps.length)
    (hok : W.Succeeds socketDir chain cancel idx) :
    let p := Chain.executeFrom socketDir chain cancel idx rest
      (W.firstResults socketDir chain cancel idx)
    W.Outcome socketDir chain cancel (p.run W.oracle)
      ((W.firstCalls chain cancel idx).map Note.handed ++
        notes (p.trace W.oracle)) := by
  induction rest generalizing idx with
  | nil =>
      have hlen : idx = chain.steps.length :=
        Nat.le_antisymm hle (List.drop_eq_nil_iff.mp hrest)
      exact .done idx hok (.inl hlen)
  | cons step rest ih =>
      have hstep : chain.steps[idx]? = some step := by
        rw [← List.head?_drop, hrest, List.head?_cons]
      have hlt : idx < chain.steps.length := (List.getElem?_eq_some_iff.mp hstep).1
      have hdrop : chain.steps.drop (idx + 1) = rest := by
        rw [← List.tail_drop, hrest, List.tail_cons]
      intro p
      cases hhead : W.tokenCancelled (.head idx) cancel with
      | true =>
          obtain ⟨hrun, hnotes⟩ := W.executeFrom_cut socketDir chain cancel idx step
            rest (W.firstResults socketDir chain cancel idx) hhead
          rw [hrun, hnotes]
          exact .done idx hok (.inr ⟨hok, hlt, hhead⟩)
      | false =>
          obtain ⟨hrun, hnotes⟩ := W.executeFrom_started socketDir chain cancel idx
            step rest (W.firstResults socketDir chain cancel idx) hhead
          rw [hrun, hnotes, ← List.append_assoc, ← List.map_append,
            ← W.firstCalls_succ hstep, ← W.firstResults_succ hstep]
          split
          next hsuccess =>
              exact ih (idx + 1) hdrop hlt (hok.succ hstep hhead hsuccess)
          next hfailed =>
              rw [run_abort, notes_abort]
              exact .failed idx ⟨hok, hhead, step, hstep, hfailed⟩

theorem execute_outcome :
    ∃ made, W.Outcome socketDir chain cancel
        ((Chain.execute socketDir chain cancel).run W.oracle) made ∧
      notes ((Chain.execute socketDir chain cancel).trace W.oracle) =
        .recorded .chainStarted :: made := by
  refine ⟨_, W.executeFrom_outcome socketDir chain cancel 0 chain.steps rfl
    (Nat.zero_le _) ?_, rfl⟩
  intro i step hi
  exact absurd hi (Nat.not_lt_zero i)

/-- What an execution returns, hands over and records, by the way it ends. -/
theorem execute_cases :
    let p := Chain.execute socketDir chain cancel
    (∃ n, W.Succeeds socketDir chain cancel n ∧
      (n = chain.steps.length ∨ W.CutAt socketDir chain cancel n) ∧
      p.run W.oracle = some (W.firstResults socketDir chain cancel n) ∧
      executorCalls (p.trace W.oracle) = W.firstCalls chain cancel n ∧
      auditTrail (p.trace W.oracle) = [.chainStarted, .chainCompleted]) ∨
    (∃ k, W.FailsAt socketDir chain cancel k ∧
      p.run W.oracle = some (W.firstResults socketDir chain cancel (k + 1)) ∧
      executorCalls (p.trace W.oracle) =
        W.firstCalls chain cancel (k + 1) ++ W.rollbackCalls chain cancel k ∧
      auditTrail (p.trace W.oracle) = [.chainStarted, .chainRollback]) := by
  intro p
  obtain ⟨made, houtcome, hmade⟩ := W.execute_outcome socketDir chain cancel
  have hcalls : executorCalls (p.trace W.oracle) = made.filterMap Note.call? := by
    rw [executorCalls, hmade, List.filterMap_cons_none rfl]
  have hevents : auditTrail (p.trace W.oracle) =
      .chainStarted :: made.filterMap Note.event? := by
    rw [auditTrail, hmade]
    rfl
  generalize hrun : p.run W.oracle = result at houtcome
  cases houtcome with
  | done n hok hend =>
      obtain ⟨hread, hread'⟩ :=
        read_recorded (W.firstCalls chain cancel n) [] .chainCompleted
      rw [List.append_nil] at hread
      exact .inl ⟨n, hok, hend, rfl, hcalls.trans hread,
        hevents.trans (congrArg _ hread')⟩
  | failed k hfails =>
      obtain ⟨hread, hread'⟩ := read_recorded (W.firstCalls chain cancel (k + 1))
        (W.rollbackCalls chain cancel k) .chainRollback
      exact .inr ⟨k, hfails, rfl, hcalls.trans hread,
        hevents.trans (congrArg _ hread')⟩

end Chain

end World

end VasalAgent.Task
