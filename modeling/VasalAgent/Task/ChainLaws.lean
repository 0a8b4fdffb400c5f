import Mathlib.Data.List.Nodup
import VasalAgent.Task.ChainRuns

/-!
# Laws of chain execution

Which rollbacks run and in which order, how the results compare with one-shot
execution, and when a chain that did not finish says so.
-/

namespace VasalAgent.Task

open VasalAgent.Async
open VasalAgent.Protocol

def Call.rollbackIdx? (call : Call) : Option Nat :=
  match call.origin with
  | .rollback idx => some idx
  | _ => none

/-- The indices whose rollback was executed, in order. -/
def rollbackIndices (calls : List Call) : List Nat :=
  calls.filterMap Call.rollbackIdx?

namespace World

variable {W : World} {socketDir : String} {chain : TaskChain} {cancel : Token}
  {n i k : Nat}

/-! ## The cases exclude each other -/

theorem Succeeds.le_of_cutAt (h : W.Succeeds socketDir chain cancel n)
    (hcut : W.CutAt socketDir chain cancel i) : n ≤ i := by
  by_contra hlt
  have hhead := (h i _ (by omega) (List.getElem?_eq_getElem hcut.2.1)).1
  rw [hcut.2.2] at hhead
  cases hhead

theorem Succeeds.le_of_failsAt (h : W.Succeeds socketDir chain cancel n)
    (hfails : W.FailsAt socketDir chain cancel k) : n ≤ k := by
  by_contra hlt
  obtain ⟨-, -, step, hstep, hstatus⟩ := hfails
  exact hstatus (h k step (by omega) hstep).2

theorem CutAt.not_failsAt (hcut : W.CutAt socketDir chain cancel i)
    (hfails : W.FailsAt socketDir chain cancel k) : False := by
  have heq : i = k := Nat.le_antisymm (hcut.1.le_of_failsAt hfails)
    (hfails.1.le_of_cutAt hcut)
  subst heq
  have hhead := hfails.2.1
  rw [hcut.2.2] at hhead
  cases hhead

/-! ## Prefixes -/

theorem getElem?_firstResults (n i : Nat) :
    (W.firstResults socketDir chain cancel n)[i]? =
      if i < n then
        chain.steps[i]?.map (W.stepResult socketDir chain cancel i)
      else none := by
  rw [firstResults, List.getElem?_mapIdx, List.getElem?_take]
  split <;> rfl

theorem length_firstResults (h : n ≤ chain.steps.length) :
    (W.firstResults socketDir chain cancel n).length = n := by
  rw [firstResults, List.length_mapIdx, List.length_take_of_le h]

theorem Succeeds.status {r : TaskResult} (h : W.Succeeds socketDir chain cancel n)
    (hr : r ∈ W.firstResults socketDir chain cancel n) : r.status = .success := by
  obtain ⟨i, hi⟩ := List.mem_iff_getElem?.mp hr
  rw [getElem?_firstResults] at hi
  split at hi
  next hlt =>
      obtain ⟨step, hstep, rfl⟩ := Option.map_eq_some_iff.mp hi
      exact (h i step hlt hstep).2
  next => cases hi

theorem mem_firstCalls {call : Call} :
    call ∈ W.firstCalls chain cancel n ↔
      ∃ i step, i < n ∧ chain.steps[i]? = some step ∧
        call ∈ W.stepCall cancel i step := by
  rw [firstCalls, List.mem_flatten]
  constructor
  · rintro ⟨calls, hcalls, hcall⟩
    obtain ⟨i, hi⟩ := List.mem_iff_getElem?.mp hcalls
    rw [List.getElem?_mapIdx, List.getElem?_take] at hi
    split at hi
    next hlt =>
        obtain ⟨step, hstep, rfl⟩ := Option.map_eq_some_iff.mp hi
        exact ⟨i, step, hlt, hstep, hcall⟩
    next => cases hi
  · rintro ⟨i, step, hlt, hstep, hcall⟩
    refine ⟨W.stepCall cancel i step, List.mem_iff_getElem?.mpr ⟨i, ?_⟩, hcall⟩
    rw [List.getElem?_mapIdx, List.getElem?_take, if_pos hlt, hstep]
    rfl

theorem mem_stepCall {call : Call} {step : ChainStep} :
    call ∈ W.stepCall cancel i step ↔
      W.resolves (.step i) step.task.credentials = true ∧
        call = ⟨.step i, step.task, .child cancel⟩ := by
  unfold stepCall
  split <;> simp_all

theorem rollbackIndices_append (first second : List Call) :
    rollbackIndices (first ++ second) =
      rollbackIndices first ++ rollbackIndices second :=
  List.filterMap_append

theorem rollbackIndices_firstCalls :
    rollbackIndices (W.firstCalls chain cancel n) = [] := by
  rw [rollbackIndices, List.filterMap_eq_nil_iff]
  intro call hcall
  obtain ⟨i, step, -, -, hstep⟩ := mem_firstCalls.mp hcall
  rw [(mem_stepCall.mp hstep).2]
  rfl

/-! ## Rollbacks -/

theorem rollbackCall_idx {call : Call}
    (h : W.rollbackCall chain cancel i = some call) :
    call.rollbackIdx? = some i := by
  obtain ⟨task, -, htask⟩ := Option.bind_eq_some_iff.mp h
  split at htask
  · cases htask
    rfl
  · cases htask

theorem rollbackIndices_filterMap (indices : List Nat) :
    rollbackIndices (indices.filterMap (W.rollbackCall chain cancel)) =
      indices.filter fun i => (W.rollbackCall chain cancel i).isSome := by
  induction indices with
  | nil => rfl
  | cons i rest ih =>
      rw [List.filterMap_cons, List.filter_cons]
      cases hcall : W.rollbackCall chain cancel i with
      | none => exact ih
      | some call =>
          rw [rollbackIndices, List.filterMap_cons, rollbackCall_idx hcall]
          exact congrArg (i :: ·) ih

theorem rollbackRange_decreasing (strategy : RollbackStrategy) (k : Nat) :
    (Chain.rollbackRange strategy k).Pairwise (· > ·) := by
  cases strategy with
  | rollbackFailed => exact List.pairwise_singleton _ _
  | rollbackAll =>
      rw [Chain.rollbackRange, List.pairwise_reverse]
      exact List.pairwise_lt_range

theorem rollbackIndices_decreasing :
    (rollbackIndices (W.rollbackCalls chain cancel k)).Pairwise (· > ·) := by
  rw [rollbackCalls, rollbackIndices_filterMap]
  exact (rollbackRange_decreasing _ _).filter _

theorem not_success_of_failsAt (h : W.FailsAt socketDir chain cancel k) :
    ∃ r, (W.firstResults socketDir chain cancel (k + 1))[k]? = some r ∧
      r.status ≠ .success := by
  obtain ⟨-, -, step, hstep, hstatus⟩ := h
  refine ⟨W.stepResult socketDir chain cancel k step, ?_, hstatus⟩
  rw [getElem?_firstResults, if_pos (Nat.lt_succ_self k), hstep]
  rfl

theorem FailsAt.eq_of_not_success {r : TaskResult}
    (h : W.FailsAt socketDir chain cancel k)
    (hr : (W.firstResults socketDir chain cancel (k + 1))[i]? = some r)
    (hstatus : r.status ≠ .success) : i = k := by
  rw [getElem?_firstResults] at hr
  split at hr
  next hlt =>
      obtain ⟨step, hstep, rfl⟩ := Option.map_eq_some_iff.mp hr
      by_contra hne
      exact hstatus (h.1 i step (by omega) hstep).2
  next => cases hr

variable (W socketDir chain cancel)

end World

/--
Every shell process ends as `wake` says and every credential resolves.  With
`cancelledFrom = some n` the token is cancelled before the check of step `n`.
-/
def sampleWorld (wake : Origin → ShellWake) (cancelledFrom : Option Nat) : World where
  resolveOne _ _ _ := .ok ""
  spawnShell _ _ := .ok ()
  wakeShell := wake
  output _ _ := []
  spillPath _ _ := ""
  connect _ _ := .ok ()
  sendFrame _ _ := .ok ()
  nextFrame _ _ := none
  wakePoll _ _ := .slept
  wakeTick _ := .slept
  elapsed _ site :=
    match site with
    | .poll pollIndex => Sidecar.pollDelaySum pollIndex * nanosPerMilli
    | _ => 0
  nowMs _ := 0
  recordTick _ := .ok ()
  selfUpgrade := .ok ()
  cancelled _ moment :=
    match cancelledFrom, moment with
    | some n, .head i => n ≤ i
    | some n, .handover (.step i) => n ≤ i
    | some _, .handover (.rollback _) => true
    | _, _ => false
  elapsed_poll _ _ := Nat.le_refl _
  cancelled_mono := by
    intro _ first later hle
    cases cancelledFrom with
    | none => simp
    | some n =>
        rcases first with i | ⟨_ | _ | i | i⟩ <;>
          rcases later with j | ⟨_ | _ | j | j⟩ <;>
          simp_all [Moment.le] <;> omega

def sampleTask (id : BitVec 128) : ExecTask where
  id := ⟨id⟩
  priority := .normal
  tags := []
  kind := .oneshot
  executor := .shell
  target := none
  method := none
  payload := .obj [("script", .str "true")]
  intervalMs := none
  timeoutMs := 1000
  credentials := []

def sampleChain : TaskChain where
  id := ⟨9⟩
  steps := [⟨sampleTask 1, some (sampleTask 2)⟩, ⟨sampleTask 3, none⟩]
  onFailure := .rollbackAll
  tags := []

def exitsZero : Origin → ShellWake := fun _ => .exited (.ok (some 0))

namespace World

variable (W : World) (socketDir : String) (chain : TaskChain) (cancel : Token)

/-! ## Chains and one-shot tasks -/

/-- Inside a chain a step ends as `execute_oneshot` would end it. -/
theorem stepOutcome_oneshot (token : Token) (idx : Nat) (step : ChainStep) :
    ∃ reference,
      (executeOneshot socketDir (.step idx) step.task token).run W.oracle =
        some reference ∧
      (W.stepOutcome socketDir cancel idx step).untimed = reference.untimed := by
  have hrun := W.run_attempt socketDir cancel idx step
  rw [Chain.attempt, Prog.run_bind, run_resolveEager, Option.bind_some] at hrun
  rw [executeOneshot, Prog.run_bind, run_resolveEager, Option.bind_some]
  cases hcreds : W.credentials (.step idx) step.task.credentials with
  | error e =>
      rw [hcreds] at hrun
      refine ⟨_, rfl, ?_⟩
      rw [← Option.some.inj hrun]
      rfl
  | ok creds =>
      rw [hcreds] at hrun
      exact ⟨_, (W.run_dispatch_token ..).trans hrun, rfl⟩

theorem firstResults_oneshot (hlen : chain.steps.length < 2 ^ 32)
    (token : Token) (n : Nat) {i : Nat} {r : TaskResult}
    (hr : (W.firstResults socketDir chain cancel n)[i]? = some r) :
    ∃ step reference, chain.steps[i]? = some step ∧
      (executeOneshot socketDir (.step i) step.task token).run W.oracle =
        some reference ∧
      r.untimed =
        { reference.untimed with chainId := some chain.id, stepIndex := some i } := by
  rw [getElem?_firstResults] at hr
  split at hr
  next hlt =>
      obtain ⟨step, hstep, rfl⟩ := Option.map_eq_some_iff.mp hr
      obtain ⟨reference, hrun, heq⟩ :=
        W.stepOutcome_oneshot socketDir cancel token i step
      have hi : i < chain.steps.length := (List.getElem?_eq_some_iff.mp hstep).1
      have hindex : i % 2 ^ 32 = i := Nat.mod_eq_of_lt (by omega)
      refine ⟨step, reference, hstep, hrun, ?_⟩
      rw [← heq, stepResult, Chain.label, hindex]
      rfl
  next => cases hr

/-- A result of a step is there only when its cancel check passed. -/
theorem head_of_succeeds {n i : Nat} (hok : W.Succeeds socketDir chain cancel n)
    (hn : n ≤ chain.steps.length) (hi : i < n) :
    W.tokenCancelled (.head i) cancel = false :=
  (hok i _ hi (List.getElem?_eq_getElem (by omega))).1

/-- The results are those of the first `m` steps, all heads before were passed. -/
theorem execute_first :
    ∃ m ≤ chain.steps.length,
      (Chain.execute socketDir chain cancel).run W.oracle =
        some (W.firstResults socketDir chain cancel m) ∧
      (∀ i < m, W.tokenCancelled (.head i) cancel = false) ∧
      (∀ i r, (W.firstResults socketDir chain cancel m)[i]? = some r → i + 1 < m →
        r.status = .success) ∧
      (m = chain.steps.length ∨
        (∃ r, (W.firstResults socketDir chain cancel m)[m - 1]? = some r ∧
          r.status ≠ .success) ∨
        W.tokenCancelled (.head m) cancel = true) := by
  rcases W.execute_cases socketDir chain cancel with
    ⟨n, hok, hend, hrun, -, -⟩ | ⟨k, hfails, hrun, -, -⟩
  · have hn : n ≤ chain.steps.length := by
      rcases hend with rfl | hcut
      · exact Nat.le_refl _
      · exact Nat.le_of_lt hcut.2.1
    refine ⟨n, hn, hrun, fun i hi => W.head_of_succeeds _ _ _ hok hn hi, ?_, ?_⟩
    · intro i r hr _
      exact hok.status (List.mem_of_getElem? hr)
    · rcases hend with heq | hcut
      · exact .inl heq
      · exact .inr (.inr hcut.2.2)
  · have hk : k < chain.steps.length := by
      obtain ⟨-, -, step, hstep, -⟩ := hfails
      exact (List.getElem?_eq_some_iff.mp hstep).1
    refine ⟨k + 1, hk, hrun, fun i hi => ?_, fun i r hr hi => ?_, ?_⟩
    · rcases Nat.lt_succ_iff_lt_or_eq.mp hi with hlt | rfl
      · exact W.head_of_succeeds _ _ _ hfails.1 (by omega) hlt
      · exact hfails.2.1
    · by_contra hstatus
      have := hfails.eq_of_not_success hr hstatus
      omega
    · exact .inr (.inl (not_success_of_failsAt hfails))

theorem results_match_oneshot (hlen : chain.steps.length < 2 ^ 32)
    (token : Token) :
    ∃ results,
      (Chain.execute socketDir chain cancel).run W.oracle = some results ∧
      results.length ≤ chain.steps.length ∧
      (∀ i r, results[i]? = some r →
        W.tokenCancelled (.head i) cancel = false ∧
        ∃ step reference, chain.steps[i]? = some step ∧
          (executeOneshot socketDir (.step i) step.task token).run W.oracle =
            some reference ∧
          r.untimed = { reference.untimed with
            chainId := some chain.id, stepIndex := some i }) ∧
      (∀ i r, results[i]? = some r → i + 1 < results.length →
        r.status = .success) ∧
      (results.length = chain.steps.length ∨
        (∃ r, results.getLast? = some r ∧ r.status ≠ .success) ∨
        W.tokenCancelled (.head results.length) cancel = true) ∧
      (W.tokenCancelled (.head 0) cancel = true → results = []) := by
  obtain ⟨m, hm, hrun, hheads, hstatus, hend⟩ := W.execute_first socketDir chain cancel
  have hcount : (W.firstResults socketDir chain cancel m).length = m :=
    length_firstResults hm
  refine ⟨_, hrun, by omega, fun i r hr => ?_, fun i r hr hi => ?_, ?_, fun hhead => ?_⟩
  · have hi : i < m := by
      rw [← hcount]
      exact (List.getElem?_eq_some_iff.mp hr).1
    exact ⟨hheads i hi, W.firstResults_oneshot _ _ _ hlen token m hr⟩
  · exact hstatus i r hr (by omega)
  · rw [hcount, List.getLast?_eq_getElem?, hcount]
    exact hend
  · rcases Nat.eq_zero_or_pos m with rfl | hpos
    · rfl
    · have hpassed := hheads 0 hpos
      rw [hhead] at hpassed
      cases hpassed

theorem results_match_oneshot_sample :
    ∃ results,
      (Chain.execute "/run" sampleChain (.root 0)).run
        (sampleWorld exitsZero none).oracle = some results ∧
      ∀ i r, results[i]? = some r → ∃ step reference,
        sampleChain.steps[i]? = some step ∧
        (executeOneshot "/run" (.step i) step.task (.root 0)).run
          (sampleWorld exitsZero none).oracle = some reference ∧
        r.untimed = { reference.untimed with
          chainId := some sampleChain.id, stepIndex := some i } := by
  obtain ⟨results, hrun, -, hresults, -⟩ :=
    results_match_oneshot (sampleWorld exitsZero none) "/run" sampleChain (.root 0)
      (by decide) (.root 0)
  exact ⟨results, hrun, fun i r hr => (hresults i r hr).2⟩

/-! ## Chains that are cut -/

/-- Every step has a result, and it is successful. -/
def Complete (results : List TaskResult) : Prop :=
  ∀ i < chain.steps.length, ∃ r, results[i]? = some r ∧ r.status = .success

/-- Unless the chain is complete, what was executed was rolled back, once. -/
def AllOrRolledBack : Prop :=
  ∃ results,
    (Chain.execute socketDir chain cancel).run W.oracle = some results ∧
    let calls := executorCalls
      ((Chain.execute socketDir chain cancel).trace W.oracle)
    (¬ Complete chain results →
      ∀ i step task, chain.steps[i]? = some step →
        (∃ call ∈ calls, call.origin = .step i) →
        step.rollback = some task →
        W.resolves (.rollback i) task.credentials = true →
        (rollbackIndices calls).count i = 1)

section Cut

variable {W socketDir chain cancel} {n i j k : Nat} {step : ChainStep}
  {task : ExecTask}

theorem complete_firstResults
    (hok : W.Succeeds socketDir chain cancel chain.steps.length) :
    Complete chain (W.firstResults socketDir chain cancel chain.steps.length) := by
  intro i hi
  have hstep := List.getElem?_eq_getElem hi
  refine ⟨W.stepResult socketDir chain cancel i chain.steps[i], ?_,
    (hok i _ hi hstep).2⟩
  rw [getElem?_firstResults, if_pos hi, hstep]
  rfl

theorem CutAt.not_complete (hcut : W.CutAt socketDir chain cancel n) :
    ¬ Complete chain (W.firstResults socketDir chain cancel n) := by
  intro hcomplete
  obtain ⟨r, hr, -⟩ := hcomplete n hcut.2.1
  rw [getElem?_firstResults, if_neg (Nat.lt_irrefl n)] at hr
  cases hr

theorem FailsAt.not_complete (hfails : W.FailsAt socketDir chain cancel k) :
    ¬ Complete chain (W.firstResults socketDir chain cancel (k + 1)) := by
  intro hcomplete
  obtain ⟨r, hr, hstatus⟩ := not_success_of_failsAt hfails
  obtain ⟨-, -, step, hstep, -⟩ := hfails
  obtain ⟨r', hr', hsuccess⟩ :=
    hcomplete k (List.getElem?_eq_some_iff.mp hstep).1
  rw [hr] at hr'
  cases hr'
  exact hstatus hsuccess

theorem FailsAt.execute (hfails : W.FailsAt socketDir chain cancel k) :
    let p := Chain.execute socketDir chain cancel
    p.run W.oracle = some (W.firstResults socketDir chain cancel (k + 1)) ∧
      executorCalls (p.trace W.oracle) =
        W.firstCalls chain cancel (k + 1) ++ W.rollbackCalls chain cancel k ∧
      auditTrail (p.trace W.oracle) = [.chainStarted, .chainRollback] := by
  intro p
  rcases W.execute_cases socketDir chain cancel with
    ⟨n, hok, hend, -⟩ | ⟨m, hfails', hrun, hcalls, hevents⟩
  · rcases hend with rfl | hcut
    · have hle := hok.le_of_failsAt hfails
      obtain ⟨-, -, step, hstep, -⟩ := hfails
      have hlt := (List.getElem?_eq_some_iff.mp hstep).1
      omega
    · exact (hcut.not_failsAt hfails).elim
  · obtain rfl : m = k := Nat.le_antisymm (hfails'.1.le_of_failsAt hfails)
      (hfails.1.le_of_failsAt hfails')
    exact ⟨hrun, hcalls, hevents⟩

theorem CutAt.execute (hcut : W.CutAt socketDir chain cancel n) :
    let p := Chain.execute socketDir chain cancel
    p.run W.oracle = some (W.firstResults socketDir chain cancel n) ∧
      executorCalls (p.trace W.oracle) = W.firstCalls chain cancel n ∧
      auditTrail (p.trace W.oracle) = [.chainStarted, .chainCompleted] := by
  intro p
  rcases W.execute_cases socketDir chain cancel with
    ⟨m, hok, hend, hrun, hcalls, hevents⟩ | ⟨k, hfails, -⟩
  · have hle : m ≤ n := hok.le_of_cutAt hcut
    have heq : m = n := by
      rcases hend with hlen | hcut'
      · have := hcut.2.1
        omega
      · exact Nat.le_antisymm hle (hcut.1.le_of_cutAt hcut')
    subst heq
    exact ⟨hrun, hcalls, hevents⟩
  · exact (hcut.not_failsAt hfails).elim

theorem Succeeds.executed (hok : W.Succeeds socketDir chain cancel n)
    (hj : j < n) (hstep : chain.steps[j]? = some step) :
    ∃ call ∈ W.firstCalls chain cancel n, call.origin = .step j := by
  have hresolves := W.resolves_of_success socketDir cancel (hok j step hj hstep).2
  exact ⟨_, mem_firstCalls.mpr ⟨j, step, hj, hstep,
    mem_stepCall.mpr ⟨hresolves, rfl⟩⟩, rfl⟩

theorem lt_of_mem_firstCalls {call : Call}
    (hcall : call ∈ W.firstCalls chain cancel n) (horigin : call.origin = .step i) :
    i < n := by
  obtain ⟨j, other, hj, -, hmem⟩ := mem_firstCalls.mp hcall
  rw [(mem_stepCall.mp hmem).2] at horigin
  cases horigin
  exact hj

theorem rollbackCall_isSome (hstep : chain.steps[i]? = some step)
    (hrollback : step.rollback = some task) :
    (W.rollbackCall chain cancel i).isSome =
      W.resolves (.rollback i) task.credentials := by
  rw [rollbackCall, hstep, Option.bind_some, hrollback, Option.bind_some]
  split <;> simp_all

theorem CutAt.not_allOrRolledBack (hcut : W.CutAt socketDir chain cancel n)
    (hj : j < n) (hstep : chain.steps[j]? = some step)
    (hrollback : step.rollback = some task)
    (hresolves : W.resolves (.rollback j) task.credentials = true) :
    ¬ W.AllOrRolledBack socketDir chain cancel := by
  rintro ⟨results, hrun, hall⟩
  obtain ⟨hrun', hcalls, -⟩ := hcut.execute
  rw [hrun'] at hrun
  cases hrun
  have hcount := hall hcut.not_complete j step task hstep
  rw [hcalls, rollbackIndices_firstCalls, List.count_nil] at hcount
  have hzero := hcount (hcut.1.executed hj hstep) hrollback hresolves
  exact absurd hzero (by omega)

/-- Step 0 succeeds and the chain is cancelled before step 1. -/
theorem sampleChain_cutAt :
    (sampleWorld exitsZero (some 1)).CutAt "/run" sampleChain (.root 0) 1 := by
  refine ⟨?_, by decide, by decide⟩
  intro i step hi hstep
  obtain rfl : i = 0 := by omega
  cases hstep
  exact ⟨rfl, rfl⟩

theorem cut_chain_not_rolledBack :
    ¬ (sampleWorld exitsZero (some 1)).AllOrRolledBack "/run" sampleChain
      (.root 0) :=
  sampleChain_cutAt.not_allOrRolledBack Nat.zero_lt_one rfl rfl rfl

theorem count_rollbackIndices (hall : chain.onFailure = .rollbackAll)
    (hi : i ≤ k) (hsome : (W.rollbackCall chain cancel i).isSome = true) :
    (rollbackIndices (W.rollbackCalls chain cancel k)).count i = 1 := by
  refine List.count_eq_one_of_mem ?_ ?_
  · exact rollbackIndices_decreasing.imp fun h => Nat.ne_of_gt h
  · rw [rollbackCalls, rollbackIndices_filterMap, hall, List.mem_filter]
    refine ⟨?_, hsome⟩
    rw [Chain.rollbackRange, List.mem_reverse, List.mem_range]
    omega

end Cut

theorem allOrRolledBack_iff (hall : chain.onFailure = .rollbackAll) :
    W.AllOrRolledBack socketDir chain cancel ↔
      ∀ n, W.CutAt socketDir chain cancel n →
        ∀ j step task, j < n → chain.steps[j]? = some step →
          step.rollback = some task →
          W.resolves (.rollback j) task.credentials = false := by
  constructor
  · intro h n hcut j step task hj hstep hrollback
    by_contra hresolves
    exact hcut.not_allOrRolledBack hj hstep hrollback (by simpa using hresolves) h
  · intro h
    rcases W.execute_cases socketDir chain cancel with
      ⟨n, hok, hend, hrun, hcalls, -⟩ | ⟨k, hfails, hrun, hcalls, -⟩
    · refine ⟨_, hrun, fun hincomplete i step task hstep hexecuted hrollback
        hresolves => ?_⟩
      rcases hend with rfl | hcut
      · exact absurd (complete_firstResults hok) hincomplete
      · obtain ⟨call, hcall, horigin⟩ := hexecuted
        rw [hcalls] at hcall
        have hfalse := h n hcut i step task (lt_of_mem_firstCalls hcall horigin)
          hstep hrollback
        rw [hresolves] at hfalse
        cases hfalse
    · refine ⟨_, hrun, fun _ i step task hstep hexecuted hrollback hresolves => ?_⟩
      obtain ⟨call, hcall, horigin⟩ := hexecuted
      rw [hcalls, List.mem_append] at hcall
      have hi : i ≤ k := by
        rcases hcall with hforward | hback
        · exact Nat.lt_succ_iff.mp (lt_of_mem_firstCalls hforward horigin)
        · obtain ⟨j, -, hj⟩ := List.mem_filterMap.mp hback
          have hidx := rollbackCall_idx hj
          rw [Call.rollbackIdx?, horigin] at hidx
          cases hidx
      rw [hcalls, rollbackIndices_append, rollbackIndices_firstCalls,
        List.nil_append]
      exact count_rollbackIndices hall hi
        ((rollbackCall_isSome hstep hrollback).trans hresolves)

def secondFails : Origin → ShellWake
  | .step 1 => .exited (.ok (some 1))
  | _ => .exited (.ok (some 0))

theorem allOrRolledBack_failed :
    (sampleWorld secondFails none).FailsAt "/run" sampleChain (.root 0) 1 ∧
      (sampleWorld secondFails none).AllOrRolledBack "/run" sampleChain (.root 0) := by
  refine ⟨⟨?_, rfl, _, rfl, ?_⟩, (allOrRolledBack_iff _ _ _ _ rfl).mpr ?_⟩
  · intro i step hi hstep
    obtain rfl : i = 0 := by omega
    cases hstep
    exact ⟨rfl, rfl⟩
  · exact fun h => TaskResultStatus.noConfusion h
  · intro n hcut
    exact absurd hcut.2.2 (by simp [tokenCancelled, Token.isCancelled, sampleWorld])

/-! ## Tokens of rollbacks -/

/-- No rollback is handed over with a token that is already cancelled. -/
def RollbackTokensLive : Prop :=
  ∀ call ∈ executorCalls ((Chain.execute socketDir chain cancel).trace W.oracle),
    ∀ i, call.origin = .rollback i →
      W.tokenCancelled (.handover call.origin) call.token = false

section Tokens

variable {W socketDir chain cancel} {n i j k : Nat}

theorem rollbackCall_eq {call : Call}
    (h : W.rollbackCall chain cancel i = some call) :
    call.origin = .rollback i ∧ call.token = .child cancel := by
  obtain ⟨task, -, htask⟩ := Option.bind_eq_some_iff.mp h
  split at htask
  · cases htask
    exact ⟨rfl, rfl⟩
  · cases htask

theorem rollbackCalls_token {call : Call}
    (h : call ∈ W.rollbackCalls chain cancel k) : call.token = .child cancel := by
  obtain ⟨i, -, hi⟩ := List.mem_filterMap.mp h
  exact (rollbackCall_eq hi).2

theorem mem_rollbackIndices :
    i ∈ rollbackIndices (W.rollbackCalls chain cancel k) ↔
      ∃ call ∈ W.rollbackCalls chain cancel k, call.origin = .rollback i := by
  rw [rollbackIndices, List.mem_filterMap]
  refine exists_congr fun call => and_congr_right fun _ => ?_
  unfold Call.rollbackIdx?
  cases call.origin <;> simp

theorem last_le_of_mem (hlast :
      (rollbackIndices (W.rollbackCalls chain cancel k)).getLast? = some i)
    (hj : j ∈ rollbackIndices (W.rollbackCalls chain cancel k)) : i ≤ j := by
  obtain ⟨init, hinit⟩ := List.getLast?_eq_some_iff.mp hlast
  have hdecreasing :
      (rollbackIndices (W.rollbackCalls chain cancel k)).Pairwise (· > ·) :=
    rollbackIndices_decreasing
  rw [hinit, List.pairwise_append] at hdecreasing
  rw [hinit, List.mem_append, List.mem_singleton] at hj
  rcases hj with hmem | rfl
  · exact Nat.le_of_lt (hdecreasing.2.2 j hmem i (by simp))
  · exact Nat.le_refl _

end Tokens

theorem rollbackTokensLive_iff :
    W.RollbackTokensLive socketDir chain cancel ↔
      ∀ k i, W.FailsAt socketDir chain cancel k →
        (rollbackIndices (W.rollbackCalls chain cancel k)).getLast? = some i →
        W.tokenCancelled (.handover (.rollback i)) cancel = false := by
  constructor
  · intro h k i hfails hlast
    obtain ⟨call, hcall, horigin⟩ :=
      mem_rollbackIndices.mp (List.mem_of_getLast? hlast)
    obtain ⟨-, hcalls, -⟩ := hfails.execute
    have hlive := h call (by simp [hcalls, hcall]) i horigin
    rwa [horigin, rollbackCalls_token hcall, tokenCancelled_child] at hlive
  · intro h call hcall i horigin
    have hforward (n : Nat) (hmem : call ∈ W.firstCalls chain cancel n) : False := by
      obtain ⟨j, step, -, -, hstep⟩ := mem_firstCalls.mp hmem
      rw [(mem_stepCall.mp hstep).2] at horigin
      cases horigin
    rcases W.execute_cases socketDir chain cancel with
      ⟨n, -, -, -, hcalls, -⟩ | ⟨k, hfails, -, hcalls, -⟩
    · rw [hcalls] at hcall
      exact (hforward n hcall).elim
    · rw [hcalls, List.mem_append] at hcall
      rcases hcall with hmem | hmem
      · exact (hforward _ hmem).elim
      · have hi : i ∈ rollbackIndices (W.rollbackCalls chain cancel k) :=
          mem_rollbackIndices.mpr ⟨call, hmem, horigin⟩
        obtain ⟨last, hlast⟩ := Option.isSome_iff_exists.mp
          (List.getLast?_isSome.mpr (List.ne_nil_of_mem hi))
        have hlive := h k last hfails hlast
        rw [horigin, rollbackCalls_token hmem, tokenCancelled_child]
        -- a token that is cancelled stays cancelled until the last rollback
        by_contra hcancelled
        have horder : Moment.le (.handover (.rollback i))
            (.handover (.rollback last)) := last_le_of_mem hlast hi
        have hlater := W.tokenCancelled_mono horder (by simpa using hcancelled)
        rw [hlive] at hlater
        cases hlater

/-- Step 0 is cancelled while it runs; its rollback gets the cancelled token. -/
theorem cancelled_step_kills_rollback :
    ¬ (sampleWorld (fun _ => .cancelled) (some 1)).RollbackTokensLive "/run"
      sampleChain (.root 0) := by
  intro hlive
  have hfails : (sampleWorld (fun _ => .cancelled) (some 1)).FailsAt "/run"
      sampleChain (.root 0) 0 := by
    refine ⟨fun i _ hi => absurd hi (Nat.not_lt_zero i), rfl, _, rfl, ?_⟩
    exact fun h => TaskResultStatus.noConfusion h
  obtain ⟨-, hcalls, -⟩ := hfails.execute
  have hmem : ⟨.rollback 0, sampleTask 2, .child (.root 0)⟩ ∈
      (sampleWorld (fun _ => .cancelled) (some 1)).rollbackCalls sampleChain
        (.root 0) 0 := List.mem_singleton.mpr rfl
  have hfalse := hlive _ (hcalls ▸ List.mem_append_right _ hmem) 0 rfl
  exact absurd hfalse (by decide)

/-! ## What a truncated chain reports -/

/-- A chain that did not finish shows it, in its results and in the audit. -/
def TruncationShows : Prop :=
  ∃ results,
    (Chain.execute socketDir chain cancel).run W.oracle = some results ∧
    let trail := auditTrail ((Chain.execute socketDir chain cancel).trace W.oracle)
    (¬ Complete chain results →
      (∃ r ∈ results, r.status ≠ .success) ∧ .chainCompleted ∉ trail) ∧
    (Complete chain results → trail.count .chainCompleted = 1)

variable {W socketDir chain cancel} in
/-- The cancel check leaves the loop towards `chain.completed`. -/
theorem CutAt.not_truncationShows {n : Nat}
    (hcut : W.CutAt socketDir chain cancel n) :
    ¬ W.TruncationShows socketDir chain cancel := by
  rintro ⟨results, hrun, hshows, -⟩
  obtain ⟨hrun', -, hevents⟩ := hcut.execute
  rw [hrun'] at hrun
  cases hrun
  have habsent := (hshows hcut.not_complete).2
  rw [hevents] at habsent
  exact habsent (by simp)

theorem cut_chain_looks_successful :
    ¬ (sampleWorld exitsZero (some 1)).TruncationShows "/run" sampleChain
      (.root 0) :=
  sampleChain_cutAt.not_truncationShows

theorem truncationShows_iff :
    W.TruncationShows socketDir chain cancel ↔
      ∀ n, ¬ W.CutAt socketDir chain cancel n := by
  constructor
  · intro h n hcut
    exact hcut.not_truncationShows h
  · intro h
    rcases W.execute_cases socketDir chain cancel with
      ⟨n, hok, hend, hrun, -, hevents⟩ | ⟨k, hfails, hrun, -, hevents⟩
    · rcases hend with rfl | hcut
      · refine ⟨_, hrun, fun hincomplete => ?_, fun _ => ?_⟩
        · exact absurd (complete_firstResults hok) hincomplete
        · rw [hevents]
          rfl
      · exact absurd hcut (h n)
    · refine ⟨_, hrun, fun _ => ⟨?_, ?_⟩, fun hcomplete => ?_⟩
      · obtain ⟨r, hr, hstatus⟩ := not_success_of_failsAt hfails
        exact ⟨r, List.mem_of_getElem? hr, hstatus⟩
      · rw [hevents]
        simp
      · exact absurd hcomplete hfails.not_complete

end World

end VasalAgent.Task
