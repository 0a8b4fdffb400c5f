import VasalAgent.Task.ChainLaws

/-!
# Polling a sidecar

What `poll_until_complete` does on every clock on which sleeping takes its time, for
every sequence of answers and every moment of cancellation.  The answers to the calls
are given by an oracle; the outcome of the `status` call of an iteration is what
`call_raw` makes of them.
-/

namespace VasalAgent.Task.Sidecar

open VasalAgent.Async
open VasalAgent.Protocol

/-! ## Outcomes of a status call -/

inductive StatusOutcome where
  | transportError
  | rpcError (err : ErrorObject)
  | unparsable
  | running
  | completed (stdout stderr : String)
  | failed (error stderr : String)
  | cancelled

def StatusOutcome.ofAnswer : Except Error Response → StatusOutcome
  | .error _ => .transportError
  | .ok response =>
      match response.error with
      | some err => .rpcError err
      | none =>
          match StatusResponse.fromValue (response.result.getD .null) with
          | .error _ => .unparsable
          | .ok .running => .running
          | .ok (.completed stdout stderr _) => .completed stdout stderr
          | .ok (.failed error stderr) => .failed error stderr
          | .ok .cancelled => .cancelled

/-- What a result says, its times apart. -/
structure Verdict where
  status : TaskResultStatus
  stdout : String
  stderr : String
  error : Option String

/-- What an outcome dictates; `none` for those that never end the polling. -/
def StatusOutcome.verdict : StatusOutcome → Option Verdict
  | .rpcError err =>
      some ⟨.failed, "", "[" ++ toString err.code ++ "] " ++ err.message, some err.message⟩
  | .completed stdout stderr => some ⟨.success, stdout, stderr, none⟩
  | .failed error stderr => some ⟨.failed, "", stderr, some error⟩
  | .cancelled => some ⟨.cancelled, "", "", none⟩
  | .transportError | .unparsable | .running => none

def Verdict.ofResult (result : TaskResult) : Verdict :=
  ⟨result.status, result.stdout, result.stderr, result.error⟩

def report (origin : Origin) (taskId : Uuid) (verdict : Verdict) : Prog ExecSig TaskResult := do
  let time ← elapsed origin .result
  makeResult origin taskId verdict.status none verdict.stdout verdict.stderr time verdict.error

theorem statusResult_eq (origin : Origin) (taskId : Uuid) (response : Response) :
    statusResult origin taskId response =
      (StatusOutcome.ofAnswer (.ok response)).verdict.map (report origin taskId) := by
  simp only [statusResult, StatusOutcome.ofAnswer]
  cases response.error with
  | some err => rfl
  | none =>
      dsimp only
      rcases StatusResponse.fromValue (response.result.getD .null) with
        e | _ | ⟨stdout, stderr, truncated⟩ | ⟨error, stderr⟩ | _ <;> rfl

/-! ## Remote calls against an oracle -/

/-- What is seen of the remote calls of a program. -/
inductive Wire where
  | opened (site : CallSite)
  | refused (site : CallSite)
  | sent (site : CallSite) (request : Request)

def wireNote : Event ExecSig → Option Wire
  | ⟨.connect _ site _, .ok _⟩ => some (.opened site)
  | ⟨.connect _ site _, .error _⟩ => some (.refused site)
  | ⟨.sendFrame _ site request, _⟩ => some (.sent site request)
  | _ => none

section Does

variable {oracle : (op : ExecOp) → op.Ans} {α β : Type}

/-- The program returns `value`, and `wires` is what is seen of its remote calls. -/
structure Does (oracle : (op : ExecOp) → op.Ans) (p : Prog ExecSig α) (value : α)
    (wires : List Wire) : Prop where
  run : p.run oracle = some value
  trace : (p.trace oracle).filterMap wireNote = wires

theorem Does.bind {p : Prog ExecSig α} {rest : α → Prog ExecSig β} {value : α} {result : β}
    {first second : List Wire} (hp : Does oracle p value first)
    (hrest : Does oracle (rest value) result second) :
    Does oracle (p >>= rest) result (first ++ second) where
  run := by rw [Prog.run_bind, hp.run, Option.bind_some, hrest.run]
  trace := by
    rw [Prog.trace_bind (S := ExecSig) oracle hp.run, List.filterMap_append, hp.trace, hrest.trace]

theorem does_ret (value : α) : Does oracle (.ret value : Prog ExecSig α) value [] := ⟨rfl, rfl⟩

theorem Does.call {op : ExecOp} {ans : op.Ans} {rest : op.Ans → Prog ExecSig β} {result : β}
    {wires : List Wire} (hans : oracle op = ans) (hrest : Does oracle (rest ans) result wires) :
    Does oracle (await op >>= rest) result ((wireNote ⟨op, ans⟩).toList ++ wires) := by
  subst hans
  refine ⟨hrest.run, ?_⟩
  rw [await_bind, Prog.trace_call, List.filterMap_cons, hrest.trace]
  cases wireNote ⟨op, oracle op⟩ <;> rfl

theorem Does.silent {op : ExecOp} {ans : op.Ans} {rest : op.Ans → Prog ExecSig β} {result : β}
    {wires : List Wire} (hans : oracle op = ans) (hop : wireNote ⟨op, ans⟩ = none)
    (hrest : Does oracle (rest ans) result wires) :
    Does oracle (await op >>= rest) result wires := by
  have h := Does.call hans hrest
  rwa [hop] at h

end Does

section Polling

variable (oracle : (op : ExecOp) → op.Ans) (origin : Origin) (socketPath : String)

/-- A remote call about the task `id` of the sidecar. -/
def rpc (site : CallSite) (method id : String) : List Wire :=
  match oracle (.connect origin site socketPath) with
  | .ok _ => [.opened site, .sent site (.new method (some (taskIdParams id)) (.integer 1))]
  | .error _ => [.refused site]

theorem does_callRaw (site : CallSite) (method id : String) :
    ∃ answer, Does oracle (callRaw origin site socketPath method (some (taskIdParams id))) answer
      (rpc oracle origin socketPath site method id) := by
  unfold rpc
  cases hconnect : oracle (.connect origin site socketPath) with
  | error e => exact ⟨_, Does.call hconnect (does_ret _)⟩
  | ok _ =>
      cases hsend : oracle (.sendFrame origin site
          (.new method (some (taskIdParams id)) (.integer 1))) with
      | error e => exact ⟨_, Does.call hconnect (Does.call hsend (does_ret _))⟩
      | ok _ =>
          rcases hnext : oracle (.nextFrame origin site) with _ | _ | _ | _ <;>
            exact ⟨_, Does.call hconnect (Does.call hsend (Does.call hnext (does_ret _)))⟩

theorem does_report (taskId : Uuid) (verdict : Verdict) :
    ∃ result, Does oracle (report origin taskId verdict) result [] ∧
      Verdict.ofResult result = verdict :=
  ⟨_, Does.call rfl (Does.call rfl (does_ret _)), rfl⟩

theorem does_stopPolling (taskId : Uuid) (id : String) (status : TaskResultStatus)
    (error : Option String) :
    ∃ result, Does oracle (stopPolling origin taskId id socketPath status error) result
        (rpc oracle origin socketPath .cancel "cancel" id) ∧
      Verdict.ofResult result = ⟨status, "", "", error⟩ := by
  obtain ⟨answer, hcall⟩ := does_callRaw oracle origin socketPath .cancel "cancel" id
  obtain ⟨result, hreport, hverdict⟩ := does_report oracle origin taskId ⟨status, "", "", error⟩
  refine ⟨result, ?_, hverdict⟩
  rw [← List.append_nil (rpc ..)]
  exact hcall.bind hreport

/-! ## The loop -/

variable (cancel : Token) (id : String) (timeoutMs : Nat)

/-- The time since `start` at the head of an iteration. -/
def headTime (pollIndex : Nat) : Nat := oracle (.elapsed origin (.poll pollIndex))

def wakeAt (pollIndex : Nat) : PollWake :=
  if 0 < pollDelay pollIndex then
    oracle (.selectPoll origin pollIndex cancel (pollDelay pollIndex))
  else .slept

/-- The outcome of the `status` call of an iteration. -/
def outcomeAt (pollIndex : Nat) : Option StatusOutcome :=
  ((callRaw origin (.status pollIndex) socketPath "status" (some (taskIdParams id))).run
    oracle).map StatusOutcome.ofAnswer

def verdictAt (pollIndex : Nat) : Option Verdict :=
  (outcomeAt oracle origin socketPath id pollIndex).bind StatusOutcome.verdict

inductive Ending where
  | decided (verdict : Verdict)
  | timedOut
  | tokenCancelled

def Ending.verdict : Ending → Verdict
  | .decided verdict => verdict
  | .timedOut => ⟨.timeout, "", "", some ("timeout after " ++ Nat.repr timeoutMs ++ "ms")⟩
  | .tokenCancelled => ⟨.cancelled, "", "", none⟩

/-- The remote calls after the last `status` call. -/
def Ending.wires : Ending → List Wire
  | .decided _ => []
  | .timedOut | .tokenCancelled => rpc oracle origin socketPath .cancel "cancel" id

/-- From iteration `pollIndex` on, polling ends after so many `status` calls. -/
inductive Polls : Nat → Nat → Ending → Prop where
  | timedOut {pollIndex : Nat}
      (htime : timeoutMs * nanosPerMilli ≤ headTime oracle origin pollIndex) :
      Polls pollIndex 0 .timedOut
  | cancelled {pollIndex : Nat}
      (htime : ¬ timeoutMs * nanosPerMilli ≤ headTime oracle origin pollIndex)
      (hwake : wakeAt oracle origin cancel pollIndex = .cancelled) :
      Polls pollIndex 0 .tokenCancelled
  | decided {pollIndex : Nat} {verdict : Verdict}
      (htime : ¬ timeoutMs * nanosPerMilli ≤ headTime oracle origin pollIndex)
      (hwake : wakeAt oracle origin cancel pollIndex = .slept)
      (hverdict : verdictAt oracle origin socketPath id pollIndex = some verdict) :
      Polls pollIndex 1 (.decided verdict)
  | next {pollIndex calls : Nat} {ending : Ending}
      (htime : ¬ timeoutMs * nanosPerMilli ≤ headTime oracle origin pollIndex)
      (hwake : wakeAt oracle origin cancel pollIndex = .slept)
      (hverdict : verdictAt oracle origin socketPath id pollIndex = none)
      (rest : Polls (pollIndex + 1) calls ending) :
      Polls pollIndex (calls + 1) ending

/-- The remote calls of so many iterations. -/
def statusWires (pollIndex : Nat) : Nat → List Wire
  | 0 => []
  | calls + 1 =>
      rpc oracle origin socketPath (.status pollIndex) "status" id ++
        statusWires (pollIndex + 1) calls

variable {oracle origin socketPath cancel id timeoutMs}

theorem does_pollSleep (pollIndex : Nat) :
    Does oracle (pollSleep origin cancel pollIndex) (wakeAt oracle origin cancel pollIndex) [] := by
  unfold pollSleep wakeAt
  split
  · exact ⟨rfl, rfl⟩
  · exact does_ret _

/-- An iteration, with the answers of the oracle put in. -/
theorem does_head {taskId : Uuid} {pollIndex fuel : Nat} {result : TaskResult}
    {wires : List Wire}
    (h : Does oracle
      (if timeoutMs * nanosPerMilli ≤ headTime oracle origin pollIndex then
        stopPolling origin taskId id socketPath .timeout
          (some ("timeout after " ++ Nat.repr timeoutMs ++ "ms"))
      else
        match wakeAt oracle origin cancel pollIndex with
        | .cancelled => stopPolling origin taskId id socketPath .cancelled none
        | .slept => do
            match ← callRaw origin (.status pollIndex) socketPath "status"
                (some (taskIdParams id)) with
            | .error _ =>
                pollFrom origin taskId id socketPath timeoutMs cancel fuel (pollIndex + 1)
            | .ok response =>
                match statusResult origin taskId response with
                | some done => done
                | none =>
                    pollFrom origin taskId id socketPath timeoutMs cancel fuel (pollIndex + 1))
      result wires) :
    Does oracle (pollFrom origin taskId id socketPath timeoutMs cancel (fuel + 1) pollIndex)
      result wires := by
  have htime : oracle (.elapsed origin (.poll pollIndex)) = headTime oracle origin pollIndex := rfl
  refine Does.silent htime rfl ?_
  split at h
  · next hover =>
      rw [if_pos hover]
      exact h
  · next hover =>
      rw [if_neg hover]
      exact (does_pollSleep pollIndex).bind h

/-- The `status` call of an iteration, and what its outcome makes of the loop. -/
theorem does_status {taskId : Uuid} {pollIndex : Nat} {again : Prog ExecSig TaskResult}
    {result : TaskResult} {wires : List Wire}
    (h : Does oracle
      (match verdictAt oracle origin socketPath id pollIndex with
        | some verdict => report origin taskId verdict
        | none => again) result wires) :
    Does oracle
      (do
        match ← callRaw origin (.status pollIndex) socketPath "status"
            (some (taskIdParams id)) with
        | .error _ => again
        | .ok response =>
            match statusResult origin taskId response with
            | some done => done
            | none => again)
      result (rpc oracle origin socketPath (.status pollIndex) "status" id ++ wires) := by
  obtain ⟨answer, hcall⟩ := does_callRaw oracle origin socketPath (.status pollIndex) "status" id
  have hverdict : verdictAt oracle origin socketPath id pollIndex =
      (StatusOutcome.ofAnswer answer).verdict := by
    rw [verdictAt, outcomeAt, hcall.run]
    rfl
  rw [hverdict] at h
  refine hcall.bind ?_
  cases answer with
  | error e => exact h
  | ok response =>
      dsimp only
      rw [statusResult_eq]
      cases hdone : (StatusOutcome.ofAnswer (.ok response)).verdict with
      | none =>
          rw [hdone] at h
          exact h
      | some verdict =>
          rw [hdone] at h
          exact h

theorem does_pollFrom (taskId : Uuid) {pollIndex calls fuel : Nat} {ending : Ending}
    (h : Polls oracle origin socketPath cancel id timeoutMs pollIndex calls ending)
    (hfuel : calls < fuel) :
    ∃ result, Does oracle
        (pollFrom origin taskId id socketPath timeoutMs cancel fuel pollIndex) result
        (statusWires oracle origin socketPath id pollIndex calls ++
          ending.wires oracle origin socketPath id) ∧
      Verdict.ofResult result = ending.verdict timeoutMs := by
  induction h generalizing fuel with
  | timedOut htime =>
      obtain ⟨fuel, rfl⟩ := Nat.exists_eq_succ_of_ne_zero (Nat.ne_zero_of_lt hfuel)
      obtain ⟨result, hstop, hverdict⟩ := does_stopPolling oracle origin socketPath taskId id
        .timeout (some ("timeout after " ++ Nat.repr timeoutMs ++ "ms"))
      refine ⟨result, does_head ?_, hverdict⟩
      rw [if_pos htime]
      exact hstop
  | cancelled htime hwake =>
      obtain ⟨fuel, rfl⟩ := Nat.exists_eq_succ_of_ne_zero (Nat.ne_zero_of_lt hfuel)
      obtain ⟨result, hstop, hverdict⟩ := does_stopPolling oracle origin socketPath taskId id
        .cancelled none
      refine ⟨result, does_head ?_, hverdict⟩
      rw [if_neg htime, hwake]
      exact hstop
  | @decided pollIndex verdict htime hwake hverdict =>
      obtain ⟨fuel, rfl⟩ := Nat.exists_eq_succ_of_ne_zero (Nat.ne_zero_of_lt hfuel)
      obtain ⟨result, hreport, hresult⟩ := does_report oracle origin taskId verdict
      refine ⟨result, does_head ?_, hresult⟩
      rw [if_neg htime, hwake, statusWires, List.append_assoc]
      apply does_status
      rw [hverdict]
      exact hreport
  | @next pollIndex calls ending htime hwake hverdict rest ih =>
      obtain ⟨fuel, rfl⟩ := Nat.exists_eq_succ_of_ne_zero (Nat.ne_zero_of_lt hfuel)
      obtain ⟨result, hrest, hresult⟩ := ih (Nat.lt_of_succ_lt_succ hfuel)
      refine ⟨result, does_head ?_, hresult⟩
      rw [if_neg htime, hwake, statusWires, List.append_assoc]
      apply does_status
      rw [hverdict]
      exact hrest

/-! ## Termination -/

variable (oracle origin) in
/-- Between two loop heads the delay has been slept. -/
def SleepsTakeTime : Prop :=
  ∀ pollIndex, headTime oracle origin pollIndex + pollDelay pollIndex * nanosPerMilli ≤
    headTime oracle origin (pollIndex + 1)

theorem SleepsTakeTime.headTime_ge (h : SleepsTakeTime oracle origin) (pollIndex : Nat) :
    pollDelaySum pollIndex * nanosPerMilli ≤ headTime oracle origin pollIndex := by
  induction pollIndex with
  | zero => simp [pollDelaySum]
  | succ pollIndex ih =>
      have hslept := h pollIndex
      rw [pollDelaySum, Nat.add_mul]
      omega

variable (socketPath cancel id timeoutMs) in
/-- `budget` reaches an iteration at whose head the timeout has certainly elapsed. -/
theorem exists_polls (h : SleepsTakeTime oracle origin) (budget pollIndex : Nat)
    (hbudget : timeoutMs + 100 ≤ 100 * (budget + pollIndex)) :
    ∃ calls ending, calls ≤ budget ∧
      Polls oracle origin socketPath cancel id timeoutMs pollIndex calls ending := by
  induction budget generalizing pollIndex with
  | zero =>
      refine ⟨0, .timedOut, Nat.le_refl 0, .timedOut ?_⟩
      obtain ⟨previous, rfl⟩ : ∃ previous, pollIndex = previous + 1 := ⟨pollIndex - 1, by omega⟩
      have hsum := World.pollDelaySum_ge previous
      refine Nat.le_trans (Nat.mul_le_mul_right _ ?_) (h.headTime_ge (previous + 1))
      omega
  | succ budget ih =>
      by_cases htime : timeoutMs * nanosPerMilli ≤ headTime oracle origin pollIndex
      · exact ⟨0, _, Nat.zero_le _, .timedOut htime⟩
      cases hwake : wakeAt oracle origin cancel pollIndex with
      | cancelled => exact ⟨0, _, Nat.zero_le _, .cancelled htime hwake⟩
      | slept =>
          cases hverdict : verdictAt oracle origin socketPath id pollIndex with
          | some verdict => exact ⟨1, _, by omega, .decided htime hwake hverdict⟩
          | none =>
              obtain ⟨calls, ending, hcalls, hrest⟩ := ih (pollIndex + 1) (by omega)
              exact ⟨calls + 1, ending, by omega, .next htime hwake hverdict hrest⟩

/-! ## What ends the polling -/

variable (oracle origin socketPath id timeoutMs) in
/--
Why polling ended after so many `status` calls: the outcome of the last call is the first that
dictates a result; or none of them does, and the timeout has elapsed at the next loop head or
the token is cancelled there.
-/
def Ending.Explained (cancelled : Nat → Prop) (calls : Nat) : Ending → Prop
  | .decided verdict =>
      ∃ last, calls = last + 1 ∧
        (∀ pollIndex < last, verdictAt oracle origin socketPath id pollIndex = none) ∧
        verdictAt oracle origin socketPath id last = some verdict
  | .timedOut =>
      (∀ pollIndex < calls, verdictAt oracle origin socketPath id pollIndex = none) ∧
        timeoutMs * nanosPerMilli ≤ headTime oracle origin calls
  | .tokenCancelled =>
      (∀ pollIndex < calls, verdictAt oracle origin socketPath id pollIndex = none) ∧
        cancelled calls

theorem Polls.explained {cancelled : Nat → Prop} {first calls : Nat} {ending : Ending}
    (htoken : ∀ pollIndex, wakeAt oracle origin cancel pollIndex = .cancelled → cancelled pollIndex)
    (h : Polls oracle origin socketPath cancel id timeoutMs first calls ending)
    (hbefore : ∀ pollIndex < first, verdictAt oracle origin socketPath id pollIndex = none) :
    ending.Explained oracle origin socketPath id timeoutMs cancelled (first + calls) := by
  induction h with
  | timedOut htime => exact ⟨hbefore, htime⟩
  | cancelled htime hwake => exact ⟨hbefore, htoken _ hwake⟩
  | decided htime hwake hverdict => exact ⟨_, rfl, hbefore, hverdict⟩
  | @next pollIndex calls ending htime hwake hverdict rest ih =>
      have hnext := ih fun earlier hearlier => by
        rcases Nat.lt_succ_iff_lt_or_eq.mp hearlier with hlt | rfl
        · exact hbefore earlier hlt
        · exact hverdict
      rwa [Nat.add_right_comm, Nat.add_assoc] at hnext

/--
On every clock on which sleeping takes its time, polling returns after at most
`1 + ⌈timeout_ms / 100⌉` status calls.  Its result is dictated by the first outcome that is an
error response or a terminal status; if there is none it is that of a timeout or of a cancelled
token, and then, and only then, the sidecar is asked once, at last, to cancel its task.
-/
theorem poll_until_complete_ends (taskId : Uuid) {cancelled : Nat → Prop}
    (hclock : SleepsTakeTime oracle origin)
    (htoken : ∀ pollIndex, oracle (.selectPoll origin pollIndex cancel (pollDelay pollIndex)) =
      .cancelled → cancelled pollIndex) :
    ∃ (result : TaskResult) (calls : Nat) (ending : Ending),
      Does oracle (pollUntilComplete origin taskId id socketPath timeoutMs cancel) result
        (statusWires oracle origin socketPath id 0 calls ++
          ending.wires oracle origin socketPath id) ∧
      calls ≤ 1 + (timeoutMs + 99) / 100 ∧
      Verdict.ofResult result = ending.verdict timeoutMs ∧
      ending.Explained oracle origin socketPath id timeoutMs cancelled calls := by
  obtain ⟨calls, ending, hcalls, hpolls⟩ :=
    exists_polls socketPath cancel id timeoutMs hclock (1 + (timeoutMs + 99) / 100) 0 (by omega)
  have hfuel : calls < pollBudget timeoutMs := by
    rw [pollBudget]
    omega
  obtain ⟨result, hdoes, hresult⟩ := does_pollFrom taskId hpolls hfuel
  have hwake (pollIndex : Nat) (h : wakeAt oracle origin cancel pollIndex = .cancelled) :
      cancelled pollIndex := by
    unfold wakeAt at h
    split at h
    · exact htoken pollIndex h
    · cases h
  have hexplained := hpolls.explained hwake (by simp)
  rw [Nat.zero_add] at hexplained
  exact ⟨result, calls, ending, hdoes, hcalls, hresult, hexplained⟩

end Polling

/-- A sidecar that cannot be reached, and a clock that shows what was slept. -/
def unreachable : (op : ExecOp) → op.Ans
  | .elapsed _ (.poll pollIndex) => pollDelaySum pollIndex * nanosPerMilli
  | .selectPoll .. => .slept
  | .connect .. => .error "connection refused"
  | op => (sampleWorld exitsZero none).oracle op

theorem poll_until_complete_unreachable :
    ∃ (result : TaskResult) (calls : Nat) (ending : Ending),
      Does unreachable (pollUntilComplete .exec ⟨1⟩ "7" "/run/db.sock" 250 (.root 1)) result
        (statusWires unreachable .exec "/run/db.sock" "7" 0 calls ++
          ending.wires unreachable .exec "/run/db.sock" "7") ∧
      calls ≤ 1 + (250 + 99) / 100 ∧ Verdict.ofResult result = ending.verdict 250 ∧
      ending.Explained unreachable .exec "/run/db.sock" "7" 250 (fun _ => False) calls := by
  apply poll_until_complete_ends
  · intro pollIndex
    exact Nat.le_of_eq (Nat.add_mul ..).symm
  · intro pollIndex hcancelled
    cases hcancelled

end VasalAgent.Task.Sidecar
