import VasalAgent.Agent.AuditTrail

/-!
# Accounting of continuous tasks

`continuous::run` journals every tick inside its loop, and `spawn_exec` journals what the
loop returns.  A cancelled loop returns a result of its own.  A loop that is shut down
returns that of its last tick, which is then journaled a second time, or the success it
started with if there was none (`continuous_accounting`).
-/

namespace VasalAgent.Agent

open VasalAgent.Async
open VasalAgent.Protocol
open VasalAgent.Task

/-! ## What is seen of a run -/

inductive TickEntry where
  | woke (wake : TickWake)
  | tick (n : Nat) (row : TaskResultRow)
  | final (row : TaskResultRow)
  | reported (result : TaskResult)

def execEntry? : Event ExecSig → Option TickEntry
  | ⟨.selectTick .., wake⟩ => some (.woke wake)
  | ⟨.recordTick n row, _⟩ => some (.tick n row)
  | ⟨.audit _ _ (.result result), _⟩ => some (.reported result)
  | _ => none

def tickEntry? : Event AgentSig → Option TickEntry
  | ⟨.exec op, ans⟩ => execEntry? ⟨op, ans⟩
  | ⟨.recordTaskResult row, _⟩ => some (.final row)
  | _ => none

/-- How a continuous run ends: with a result made for it, or with the last one it has. -/
inductive Ending where
  | cancelled (result : TaskResult)
  | shutdown

namespace Ending

def wake : Ending → TickWake
  | .cancelled _ => .cancelled
  | .shutdown => .shutdown

/-- The tick whose result is returned after `ticks` ticks. -/
def source (ticks : Nat) : Ending → Option Nat
  | .cancelled _ => none
  | .shutdown => if ticks = 0 then none else some (ticks - 1)

/-- The result that is returned; `initial` is the one the loop starts with. -/
def final (initial : TaskResult) (results : List TaskResult) (ending : Ending) : TaskResult :=
  match ending with
  | .cancelled result => result
  | .shutdown => ((ending.source results.length).bind fun n => results[n]?).getD initial

end Ending

/-- The entries of the ticks with these results, the first of which is tick `n`. -/
def ticked : Nat → List TaskResult → List TickEntry
  | _, [] => []
  | n, result :: rest =>
      .woke .slept :: .tick n (Continuous.tickRow result) :: ticked (n + 1) rest

/-! ## Ticks -/

/-- The calls of one attempt, which leave no entry. -/
def unseen : ExecOp → Prop
  | .selectTick .. | .recordTick .. | .audit .. => False
  | _ => True

theorem unseen_of_internal {origin : Origin} {op : ExecOp} (h : op.internal origin) :
    unseen op := by
  cases op <;> trivial

theorem emits_unseen {α : Type} {p : Prog ExecSig α} (h : p.Uses unseen) :
    p.Emits execEntry? [] :=
  h.emits fun op _ hop => by cases op <;> first | rfl | exact hop.elim

section Ticks

variable {socketDir : String} {exec : ExecTask} {cancel shutdown : Token}
  {events : List (Event ExecSig)}

theorem emits_recordTick (n : Nat) (result : TaskResult) :
    (Continuous.recordTick n result).Emits execEntry? [.tick n (Continuous.tickRow result)] :=
  Prog.emits_call (fun _ => rfl) fun _ => Prog.emits_ret _

/-- A tick ends with the one row of the result it returns. -/
theorem entries_recorded {n : Nat} {p : Prog ExecSig TaskResult} {value : TaskResult}
    (hp : p.Uses unseen)
    (h : Prog.Steps (p >>= fun result => do
      Continuous.recordTick n result
      pure result) events (.ret value)) :
    events.filterMap execEntry? = [.tick n (Continuous.tickRow value)] := by
  obtain ⟨first, second, result, rfl, hfirst, hsecond⟩ := h.bind_ret
  obtain ⟨_, _, _, rfl, hrecord, hret⟩ := hsecond.bind_ret
  cases hret
  simp [emits_unseen hp hfirst, emits_recordTick n value hrecord]

theorem entries_tick {n : Nat} {value : TaskResult}
    (h : Prog.Steps (Continuous.tick socketDir exec cancel n) events (.ret value)) :
    events.filterMap execEntry? = [.tick n (Continuous.tickRow value)] := by
  obtain ⟨first, second, resolved, rfl, hfirst, hsecond⟩ := Prog.Steps.bind_ret h
  have hresolve : (Credential.resolveEager (.tick n) exec.credentials).Uses unseen :=
    (uses_resolveEager _).mono fun _ => unseen_of_internal
  rw [List.filterMap_append, emits_unseen hresolve hfirst, List.nil_append]
  cases resolved with
  | error e =>
      -- the source records inside the branch: the same program, grouped to the left
      have hfailed : (do
          let time ← Task.elapsed (.tick n) .unresolved
          makeResult (.tick n) exec.id .failed none "" e.toString time (some e.toString) :
            Prog ExecSig TaskResult).Uses unseen :=
        ⟨trivial, fun _ => ⟨trivial, fun _ => trivial⟩⟩
      exact entries_recorded hfailed hsecond
  | ok creds =>
      refine entries_recorded ?_ hsecond
      refine ⟨trivial, fun _ => (uses_internal (uses_runExecutor ..)).mono ?_⟩
      exact fun _ => unseen_of_internal

/-! ## The loop -/

theorem final_cons (initial result : TaskResult) (results : List TaskResult) (ending : Ending) :
    ending.final initial (result :: results) = ending.final result results := by
  cases ending with
  | cancelled r => rfl
  | shutdown =>
      cases results with
      | nil => rfl
      | cons next rest => simp [Ending.final, Ending.source]

/-- What a loop that returns did: its ticks, and then the wake that ended it. -/
theorem entries_loop {fuel n : Nat} {lastResult value : TaskResult}
    (h : Prog.Steps (Continuous.loop socketDir exec cancel shutdown fuel n lastResult) events
      (.ret value)) :
    ∃ (results : List TaskResult) (ending : Ending),
      events.filterMap execEntry? = ticked n results ++ [.woke ending.wake] ∧
      value = ending.final lastResult results ∧
      ∀ result, ending = .cancelled result → result.status = .cancelled := by
  induction fuel generalizing n lastResult events with
  | zero => cases h
  | succ fuel ih =>
      rw [Continuous.loop] at h
      cases h with
      | @call _ _ wake tail _ hrest =>
      cases wake with
      | cancelled =>
          cases hrest with
          | call hret =>
          cases hret
          exact ⟨[], .cancelled _, rfl, rfl, by rintro _ ⟨⟩; rfl⟩
      | shutdown =>
          cases hrest
          exact ⟨[], .shutdown, rfl, rfl, by rintro _ ⟨⟩⟩
      | slept =>
          obtain ⟨first, second, result, rfl, hfirst, hsecond⟩ :=
            Prog.Steps.bind_ret (p := Continuous.tick socketDir exec cancel n) hrest
          obtain ⟨results, ending, hentries, hvalue, hcancelled⟩ := ih hsecond
          refine ⟨result :: results, ending, ?_, ?_, hcancelled⟩
          · change TickEntry.woke .slept :: (first ++ second).filterMap execEntry? = _
            rw [List.filterMap_append, entries_tick hfirst, hentries]
            rfl
          · rw [hvalue, final_cons]

theorem entries_run {fuel : Nat} {value : TaskResult}
    (h : Prog.Steps (Continuous.run socketDir exec cancel shutdown fuel) events (.ret value)) :
    ∃ (initial : TaskResult) (results : List TaskResult) (ending : Ending),
      initial.status = .success ∧
      events.filterMap execEntry? = ticked 0 results ++ [.woke ending.wake] ∧
      value = ending.final initial results ∧
      ∀ result, ending = .cancelled result → result.status = .cancelled := by
  cases h with
  | call hrest =>
      obtain ⟨results, ending, hentries, hvalue, hcancelled⟩ := entries_loop hrest
      exact ⟨_, results, ending, rfl, hentries, hvalue, hcancelled⟩

end Ticks

/-! ## The future of the task -/

section Future

variable {m : TaskManager} {exec : ExecTask} {n : Nat} {events : List (Event AgentSig)}

theorem entries_lift {α : Type} {p : Prog ExecSig α} {value : α}
    (h : Prog.Steps (lift p) events (.ret value)) :
    ∃ inner, Prog.Steps p inner (.ret value) ∧
      events.filterMap tickEntry? = inner.filterMap execEntry? := by
  obtain ⟨inner, rfl, hinner⟩ := steps_lift_ret h
  exact ⟨inner, hinner, List.filterMap_map ..⟩

theorem entries_afterExec (result : TaskResult) :
    (m.afterExec exec result).Emits tickEntry?
      [.final (resultToJournalRow result), .reported result] := by
  refine Prog.emits_call (fun _ => rfl) fun _ => ?_
  refine Prog.emits_call (fun _ => rfl) fun _ => ?_
  have hsend : (m.send result).Emits tickEntry? [] := by
    unfold TaskManager.send
    split
    · exact Prog.emits_silent (fun _ => rfl) fun _ => Prog.emits_ret _
    · exact Prog.emits_ret _
  refine hsend.bind fun _ => ?_
  refine Prog.emits_silent (fun _ => rfl) fun _ => ?_
  refine Prog.emits_silent (fun _ => rfl) fun _ => ?_
  exact Prog.emits_silent (fun _ => rfl) fun _ => Prog.emits_ret _

/-- Whose result each write of the journal records: a tick's, or one made at the end. -/
def journalings (results : List TaskResult) (ending : Ending) : List (Option Nat) :=
  (List.range results.length).map some ++ [ending.source results.length]

/-- The accounting of a run with these ticks that ended so. -/
structure Accounted (initial : TaskResult) (results : List TaskResult) (ending : Ending) :
    Prop where
  once : ∀ k < results.length, (journalings results ending).count (some k) = 1
  cancelled : ending.wake = .cancelled → (ending.final initial results).status = .cancelled
  success : (ending.final initial results).status = .success →
    ∃ last, results.getLast? = some last ∧ last.status = .success

theorem count_journalings (results : List TaskResult) (ending : Ending) {k : Nat}
    (h : k < results.length) :
    (journalings results ending).count (some k) =
      1 + if ending.source results.length = some k then 1 else 0 := by
  have hrange : ((List.range results.length).map some).count (some k) = 1 :=
    List.count_eq_one_of_mem (List.nodup_range.map fun _ _ => Option.some.inj) (by simp [h])
  rw [journalings, List.count_append, hrange, List.count_singleton]
  simp

theorem accounted_cancelled (initial : TaskResult) (results : List TaskResult)
    {result : TaskResult} (h : result.status = .cancelled) :
    Accounted initial results (.cancelled result) where
  once k hk := by simp [count_journalings _ _ hk, Ending.source]
  cancelled _ := h
  success hsuccess := by simp [Ending.final, h] at hsuccess

theorem not_accounted_shutdown {initial : TaskResult} (results : List TaskResult)
    (h : initial.status = .success) : ¬ Accounted initial results .shutdown := by
  intro haccounted
  cases hresults : results with
  | nil =>
      subst hresults
      obtain ⟨last, hlast, -⟩ := haccounted.success h
      cases hlast
  | cons result rest =>
      have honce := haccounted.once rest.length (by simp [hresults])
      rw [count_journalings _ _ (by simp [hresults])] at honce
      simp [hresults, Ending.source] at honce

/-- The run was ended by the shutdown of the agent. -/
def ShutDown (events : List (Event AgentSig)) : Prop :=
  .woke .shutdown ∈ events.filterMap tickEntry?

theorem woke_not_mem_ticked (n : Nat) (results : List TaskResult) :
    TickEntry.woke .shutdown ∉ ticked n results := by
  induction results generalizing n with
  | nil => exact List.not_mem_nil
  | cons result rest ih => simp [ticked, ih]

/--
Every continuous task that runs to its end journals its ticks in order and then the result
that ended it.  The accounting is right if and only if it was not ended by the shutdown.
-/
theorem continuous_accounting (hkind : exec.kind = .continuous)
    (h : Prog.Steps (m.runExec exec n) events (.ret ())) :
    ∃ (initial : TaskResult) (results : List TaskResult) (ending : Ending),
      events.filterMap tickEntry? = ticked 0 results ++ [.woke ending.wake,
        .final (resultToJournalRow (ending.final initial results)),
        .reported (ending.final initial results)] ∧
      (Accounted initial results ending ↔ ¬ ShutDown events) := by
  rw [runExec_eq, executeExec, hkind] at h
  cases h with
  | @call _ _ ans tail _ hrest =>
      obtain ⟨first, second, final, rfl, hfirst, hsecond⟩ := hrest.bind_ret
      obtain ⟨inner, hinner, hentries⟩ := entries_lift hfirst
      obtain ⟨initial, results, ending, hinitial, hrun, rfl, hcancelled⟩ := entries_run hinner
      have hall : (⟨.acquire, ans⟩ :: (first ++ second) : List (Event AgentSig)).filterMap
          tickEntry? = ticked 0 results ++ [.woke ending.wake,
            .final (resultToJournalRow (ending.final initial results)),
            .reported (ending.final initial results)] := by
        rw [List.filterMap_cons_none rfl, List.filterMap_append, hentries, hrun,
          entries_afterExec _ hsecond, List.append_assoc]
        rfl
      refine ⟨initial, results, ending, hall, ?_⟩
      rw [ShutDown, hall]
      cases ending with
      | cancelled result =>
          have haccounted := accounted_cancelled initial results (hcancelled result rfl)
          simp [haccounted, woke_not_mem_ticked, Ending.wake]
      | shutdown =>
          have hnot := not_accounted_shutdown results hinitial
          simp [hnot, Ending.wake]

end Future

/-! ## Runs of one task -/

def continuousTask : ExecTask := { sampleTask 1 with kind := .continuous }

def quietManager : TaskManager := ⟨"/run", false, 3⟩

/-- Every tick succeeds, and wake `n` ends the loop as `wake` says. -/
def tickOracle (wake : Nat → TickWake) : (op : AgentOp) → op.Ans
  | .exec (.selectTick n ..) => wake n
  | op => obliging op

def endsAfter (ticks : Nat) (ending : TickWake) (n : Nat) : TickWake :=
  if n < ticks then .slept else ending

def sampleResult (status : TaskResultStatus) (exitCode : Option Int) : TaskResult :=
  ⟨⟨1⟩, none, none, status, exitCode, "", "", 0, 0, none⟩

theorem steps_endsAfter (ticks : Nat) (ending : TickWake)
    (h : (quietManager.runExec continuousTask 0).run (tickOracle (endsAfter ticks ending)) =
      some ()) :
    Prog.Steps (quietManager.runExec continuousTask 0)
      ((quietManager.runExec continuousTask 0).trace (tickOracle (endsAfter ticks ending)))
      (.ret ()) :=
  Prog.steps_of_run h

theorem continuous_accounting_cancelled :
    ∃ (initial : TaskResult) (results : List TaskResult) (ending : Ending),
      ((quietManager.runExec continuousTask 0).trace
          (tickOracle (endsAfter 1 .cancelled))).filterMap tickEntry? =
        ticked 0 results ++ [.woke ending.wake,
          .final (resultToJournalRow (ending.final initial results)),
          .reported (ending.final initial results)] ∧
      (Accounted initial results ending ↔
        ¬ ShutDown ((quietManager.runExec continuousTask 0).trace
          (tickOracle (endsAfter 1 .cancelled)))) :=
  continuous_accounting rfl (steps_endsAfter 1 .cancelled rfl)

/--
Shut down after one tick, the run journals its result twice; shut down before the first,
it ends in a success.
-/
theorem shutdown_miscounts :
    (∃ events, Prog.Steps (quietManager.runExec continuousTask 0) events (.ret ()) ∧
      events.filterMap tickEntry? =
        [.woke .slept, .tick 0 (Continuous.tickRow (sampleResult .success (some 0))),
          .woke .shutdown, .final (Continuous.tickRow (sampleResult .success (some 0))),
          .reported (sampleResult .success (some 0))] ∧
      ¬ Accounted (sampleResult .success none) [sampleResult .success (some 0)] .shutdown) ∧
    ∃ events, Prog.Steps (quietManager.runExec continuousTask 0) events (.ret ()) ∧
      events.filterMap tickEntry? =
        [.woke .shutdown, .final (Continuous.tickRow (sampleResult .success none)),
          .reported (sampleResult .success none)] ∧
      ¬ Accounted (sampleResult .success none) [] .shutdown := by
  constructor
  · exact ⟨_, steps_endsAfter 1 .shutdown rfl, rfl,
      not_accounted_shutdown _ rfl⟩
  · exact ⟨_, steps_endsAfter 0 .shutdown rfl, rfl,
      not_accounted_shutdown _ rfl⟩

end VasalAgent.Agent
