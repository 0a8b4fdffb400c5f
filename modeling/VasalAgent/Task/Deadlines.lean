import VasalAgent.Task.ChainLaws

/-!
# Deadlines of the executors

Once its time is up or its token is cancelled an executor should return on its own.  The
`select!` of the shell executor sees to that, but not the reading of the pipes after it,
which lasts as long as any descendant of the script keeps them open.  The sidecar executor
waits for the sidecar in every call it makes, the one that asks it to cancel included, so
that only a socket that refuses connections lets it go (`deadlines_honoured`).
-/

namespace VasalAgent.Task

open VasalAgent.Async
open VasalAgent.Protocol

/-- What an executor finds around it from some moment on. -/
structure Situation where
  /-- The task's token is cancelled. -/
  cancelled : Bool
  /-- `timeout_ms` has elapsed. -/
  timedOut : Bool
  /-- Some process keeps this pipe open. -/
  held : Stream → Bool
  /-- The sidecar's socket refuses connections. -/
  refused : Bool
  /-- The buffer of a new connection has room for a request. -/
  takes : Bool

namespace Situation

variable (s : Situation) (timeoutMs : Nat)

def due : Prop := s.cancelled = true ∨ s.timedOut = true

/--
The answers that can come without the processes of a script and without the sidecar, which
reads what the buffer does not hold and sends or closes.  A token that is cancelled is seen
before a sleep that begins.
-/
def ready : (op : ExecOp) → op.Ans → Prop
  | .selectShell .., .cancelled => s.cancelled = true
  | .selectShell .., .timedOut => s.timedOut = true
  | .selectShell .., .exited _ => False
  | .joinOutput _ stream, _ => s.held stream = false
  | .connect .., .ok _ => s.refused = false
  | .connect .., .error _ => s.refused = true
  | .sendFrame .., .ok _ => s.takes = true
  | .sendFrame .., .error _ => False
  | .nextFrame .., _ => False
  | .selectPoll .., .cancelled => s.cancelled = true
  | .selectPoll .., .slept => s.cancelled = false
  | .elapsed _ (.poll pollIndex), time =>
      Sidecar.pollDelaySum pollIndex * nanosPerMilli ≤ time ∧
        (s.timedOut = true → timeoutMs * nanosPerMilli ≤ time)
  | _, _ => True

/-- A clock on which sleeping takes its time. -/
def keepsTime : Event ExecSig → Prop
  | ⟨.elapsed _ (.poll pollIndex), time⟩ =>
      Sidecar.pollDelaySum pollIndex * nanosPerMilli ≤ time
  | _ => True

/-- All that is left returns by itself within `n` calls. -/
abbrev Returns {α : Type} (n : Nat) (p : Prog ExecSig α) : Prop :=
  p.EscapesWithin (S := ExecSig) (s.ready timeoutMs) n

/-- No answer to this call is anyone's to give. -/
def Free (op : ExecOp) : Prop := ∀ ans, s.ready timeoutMs op ans

end Situation

/-! ## What an executor still has to do -/

namespace ExecOp

def selects : ExecOp → Bool
  | .selectShell .. => true
  | _ => false

def reads (stream : Stream) : ExecOp → Bool
  | .joinOutput _ other => other == stream
  | _ => false

def connects : ExecOp → Bool
  | .connect .. => true
  | _ => false

end ExecOp

/-- No call of this kind is ahead. -/
abbrev Avoids {α : Type} (kind : ExecOp → Bool) (p : Prog ExecSig α) : Prop :=
  p.Uses fun op => kind op = false

/-- A connection is open: a request is being sent or its answer is awaited. -/
def InCall {α : Type} : Prog ExecSig α → Prop
  | .call (.sendFrame ..) _ => True
  | .call (.nextFrame ..) _ => True
  | _ => False

namespace Situation

variable {s : Situation} {timeoutMs : Nat} {α : Type} {A : Event ExecSig → Prop}

/-- The select is ahead, or no pipe that is still to be read is held. -/
def Unheld (s : Situation) (p : Prog ExecSig α) : Prop :=
  ¬ Avoids ExecOp.selects p ∨ ∀ stream, s.held stream = true → Avoids (ExecOp.reads stream) p

/-- No connection is open and none will be. -/
def Unconnected (s : Situation) (p : Prog ExecSig α) : Prop :=
  ¬ InCall p ∧ (s.refused = true ∨ Avoids ExecOp.connects p)

/-- Under `holds` a state returns within seven calls, and otherwise by itself never. -/
def Exact (s : Situation) (timeoutMs : Nat) (holds : Prog ExecSig α → Prop)
    (p : Prog ExecSig α) : Prop :=
  (holds p → s.Returns timeoutMs 7 p) ∧ ∀ n, s.Returns timeoutMs n p → holds p

theorem exact_of_returns {holds : Prog ExecSig α → Prop} {p : Prog ExecSig α} {n : Nat}
    (hn : n ≤ 7) (hreturns : s.Returns timeoutMs n p) (hholds : holds p) :
    s.Exact timeoutMs holds p :=
  ⟨fun _ => hreturns.mono hn, fun _ _ => hholds⟩

theorem exact_of_stuck {holds : Prog ExecSig α → Prop} {p : Prog ExecSig α}
    (hstuck : ∀ n, ¬ s.Returns timeoutMs n p) (hholds : ¬ holds p) :
    s.Exact timeoutMs holds p :=
  ⟨fun h => absurd h hholds, fun n h => absurd h (hstuck n)⟩

/-! ## The end of an execution -/

theorem unheld_of_free {p : Prog ExecSig α} (h : p.Uses (s.Free timeoutMs)) : s.Unheld p := by
  refine .inr fun stream hheld => h.mono fun op hfree => ?_
  cases op with
  | joinOutput origin other =>
      have hother : s.held other = false := hfree []
      simp only [ExecOp.reads, beq_eq_false_iff_ne, ne_eq]
      rintro rfl
      simp [hheld] at hother
  | _ => rfl

theorem unconnected_of_free {p : Prog ExecSig α} (h : p.Uses (s.Free timeoutMs)) :
    s.Unconnected p := by
  constructor
  · intro hcall
    cases p with
    | call op next =>
        cases op with
        | sendFrame origin site request => exact (h.1 (.error "")).elim
        | nextFrame origin site => exact (h.1 none).elim
        | _ => exact hcall
    | _ => exact hcall
  · refine .inr (h.mono fun op hfree => ?_)
    cases op with
    | connect origin site path =>
        have hopen : s.refused = false := hfree (.ok ())
        have hrefused : s.refused = true := hfree (.error "")
        simp [hopen] at hrefused
    | _ => rfl

/-- What makes none but free calls returns by itself from all its states. -/
theorem exact_of_free {holds : Prog ExecSig α → Prop} {p : Prog ExecSig α} {n : Nat} (hn : n ≤ 7)
    (hfree : ∀ q : Prog ExecSig α, q.Uses (s.Free timeoutMs) → holds q)
    (hreturns : s.Returns timeoutMs n p) (huses : p.Uses (s.Free timeoutMs)) :
    p.Everywhere (s.Exact timeoutMs holds) A :=
  (hreturns.everywhere huses).mono fun q hq => exact_of_returns hn hq.1 (hfree q hq.2)

section Result

variable {origin : Origin} (taskId : Uuid) (status : TaskResultStatus) (exitCode : Option Int)
  (stdout stderr : String) (error : Option String)

theorem returns_result :
    s.Returns timeoutMs 2 (elapsed origin .result >>= fun time =>
      makeResult origin taskId status exitCode stdout stderr time error) :=
  ⟨⟨0, trivial⟩, fun _ _ => ⟨⟨0, trivial⟩, fun _ _ => trivial⟩⟩

theorem free_result :
    (elapsed origin .result >>= fun time => makeResult origin taskId status exitCode stdout
      stderr time error).Uses (s.Free timeoutMs) :=
  ⟨fun _ => trivial, fun _ => ⟨fun _ => trivial, fun _ => trivial⟩⟩

theorem exact_result {holds : Prog ExecSig TaskResult → Prop}
    (hfree : ∀ q : Prog ExecSig TaskResult, q.Uses (s.Free timeoutMs) → holds q) :
    (elapsed origin .result >>= fun time => makeResult origin taskId status exitCode stdout
      stderr time error).Everywhere (s.Exact timeoutMs holds) A :=
  exact_of_free (by omega) hfree (returns_result ..) (free_result ..)

end Result

/-! ## The shell executor -/

section Shell

variable {origin : Origin}

theorem returns_truncateOutput {n : Nat} (stream : Stream) (bytes : List UInt8)
    {rest : String → Prog ExecSig α} (h : ∀ text, s.Returns timeoutMs n (rest text)) :
    s.Returns timeoutMs (n + 1) (Shell.truncateOutput origin stream bytes >>= rest) := by
  unfold Shell.truncateOutput
  split
  · exact (h _).mono (Nat.le_succ n)
  · exact ⟨⟨"", trivial⟩, fun _ _ => h _⟩

theorem free_truncateOutput (stream : Stream) (bytes : List UInt8) :
    (Shell.truncateOutput origin stream bytes).Uses (s.Free timeoutMs) := by
  unfold Shell.truncateOutput
  split
  · trivial
  · exact ⟨fun _ => trivial, fun _ => trivial⟩

theorem avoids_selects_of_free {p : Prog ExecSig α} (h : p.Uses (s.Free timeoutMs)) :
    Avoids ExecOp.selects p := by
  refine h.mono fun op hfree => ?_
  cases op with
  | selectShell origin token timeoutMs => exact (hfree (.exited (.error ""))).elim
  | _ => rfl

section Join

variable {stream : Stream} {rest : List UInt8 → Prog ExecSig α}

theorem stuck_join (hheld : s.held stream = true) (n : Nat) :
    ¬ s.Returns timeoutMs n (.call (.joinOutput origin stream) rest) := by
  refine Prog.not_escapesWithin_of_stuck (fun _ hready => ?_) n
  have hclosed : s.held stream = false := hready
  simp [hheld] at hclosed

theorem not_unheld_join (hheld : s.held stream = true)
    (hselects : ∀ bytes, Avoids ExecOp.selects (rest bytes)) :
    ¬ s.Unheld (.call (.joinOutput origin stream) rest) := by
  rintro (hahead | hunread)
  · exact hahead ⟨rfl, hselects⟩
  · simpa [ExecOp.reads] using (hunread stream hheld).1

/-- At a held pipe an executor that has left its select is stuck. -/
theorem exact_join (hselects : ∀ bytes, Avoids ExecOp.selects (rest bytes))
    (hclosed : s.held stream = false →
      s.Exact timeoutMs s.Unheld (.call (.joinOutput origin stream) rest))
    (hrest : ∀ bytes, (rest bytes).Everywhere (s.Exact timeoutMs s.Unheld) A) :
    Prog.Everywhere (s.Exact timeoutMs s.Unheld) A
      (.call (.joinOutput origin stream) rest) := by
  refine ⟨?_, fun bytes _ => hrest bytes⟩
  cases hheld : s.held stream with
  | true => exact exact_of_stuck (stuck_join hheld) (not_unheld_join hheld hselects)
  | false => exact hclosed hheld

end Join

section Collect

variable (origin) in
/-- What follows the exit of the process: its output is read and cut, then handed to `ends`. -/
def collect (ends : String → String → Prog ExecSig α) : Prog ExecSig α := do
  let stdoutBytes ← await (.joinOutput origin .stdout)
  let stderrBytes ← await (.joinOutput origin .stderr)
  let stdout ← Shell.truncateOutput origin .stdout stdoutBytes
  let stderr ← Shell.truncateOutput origin .stderr stderrBytes
  ends stdout stderr

variable {ends : String → String → Prog ExecSig α}
  (hreturns : ∀ stdout stderr, s.Returns timeoutMs 2 (ends stdout stderr))
  (hfree : ∀ stdout stderr, (ends stdout stderr).Uses (s.Free timeoutMs))

include hreturns hfree in
theorem exact_collect :
    (collect origin ends).Everywhere (s.Exact timeoutMs s.Unheld) A := by
  have hcut : ∀ stdoutBytes stderrBytes, s.Returns timeoutMs 4
      (Shell.truncateOutput origin .stdout stdoutBytes >>= fun stdout =>
        Shell.truncateOutput origin .stderr stderrBytes >>= fun stderr => ends stdout stderr) :=
    fun _ _ => returns_truncateOutput _ _ fun stdout =>
      returns_truncateOutput _ _ fun stderr => hreturns stdout stderr
  have hcutFree : ∀ stdoutBytes stderrBytes,
      (Shell.truncateOutput origin .stdout stdoutBytes >>= fun stdout =>
        Shell.truncateOutput origin .stderr stderrBytes >>= fun stderr =>
          ends stdout stderr).Uses (s.Free timeoutMs) :=
    fun _ _ => (free_truncateOutput _ _).bind fun stdout =>
      (free_truncateOutput _ _).bind fun stderr => hfree stdout stderr
  have hselects := fun stdoutBytes stderrBytes =>
    avoids_selects_of_free (hcutFree stdoutBytes stderrBytes)
  refine exact_join (fun _ => ⟨rfl, hselects _⟩) (fun hstdout => ?_) fun stdoutBytes =>
    exact_join (hselects _) (fun hstderr => ?_) fun stderrBytes => ?_
  · cases hstderr : s.held .stderr with
    | true =>
        refine exact_of_stuck (Prog.not_escapesWithin_call [] hstdout (stuck_join hstderr)) ?_
        rintro (hahead | hunread)
        · exact hahead ⟨rfl, fun _ => ⟨rfl, hselects _⟩⟩
        · simpa [ExecOp.reads] using ((hunread .stderr hstderr).2 []).1
    | false =>
        refine exact_of_returns (n := 6) (by omega)
          ⟨⟨[], hstdout⟩, fun _ _ => ⟨⟨[], hstderr⟩, fun _ _ => hcut _ _⟩⟩ ?_
        exact unheld_of_free ⟨fun _ => hstdout, fun _ => ⟨fun _ => hstderr, hcutFree _⟩⟩
  · exact exact_of_returns (n := 5) (by omega) ⟨⟨[], hstderr⟩, fun _ _ => hcut _ _⟩
      (unheld_of_free ⟨fun _ => hstderr, hcutFree _⟩)
  · exact exact_of_free (n := 4) (by omega) (fun _ => unheld_of_free) (hcut _ _) (hcutFree _ _)

end Collect

variable (exec : ExecTask)

theorem exact_exited (status : Except String ExitStatus) :
    (Shell.exited origin exec status).Everywhere (s.Exact timeoutMs s.Unheld) A := by
  cases status with
  | error e => exact exact_result _ _ _ _ _ _ fun _ => unheld_of_free
  | ok status => exact exact_collect (fun _ _ => returns_result ..) fun _ _ => free_result ..

theorem exact_killed (status : TaskResultStatus) (error : Option String) :
    (await (.killWait origin) >>= fun _ => elapsed origin .result >>= fun time =>
      makeResult origin exec.id status none "" "" time error).Everywhere
        (s.Exact timeoutMs s.Unheld) A :=
  exact_of_free (n := 3) (by omega) (fun _ => unheld_of_free)
    ⟨⟨(), trivial⟩, fun _ _ => returns_result ..⟩ ⟨fun _ => trivial, fun _ => free_result ..⟩

theorem returns_supervise (hdue : s.due) (cancel : Token) :
    s.Returns timeoutMs 4 (Shell.supervise origin exec cancel) := by
  constructor
  · rcases hdue with hcancelled | htimedOut
    · exact ⟨.cancelled, hcancelled⟩
    · exact ⟨.timedOut, htimedOut⟩
  · intro wake hready
    cases wake with
    | cancelled => exact ⟨⟨(), trivial⟩, fun _ _ => returns_result ..⟩
    | timedOut => exact ⟨⟨(), trivial⟩, fun _ _ => returns_result ..⟩
    | exited status => exact hready.elim

theorem not_avoids_supervise (cancel : Token) :
    ¬ Avoids ExecOp.selects (Shell.supervise origin exec cancel) :=
  fun h => Bool.noConfusion h.1

theorem exact_supervise (hdue : s.due) (cancel : Token) :
    (Shell.supervise origin exec cancel).Everywhere (s.Exact timeoutMs s.Unheld) A := by
  refine ⟨?_, fun wake _ => ?_⟩
  · exact exact_of_returns (by omega) (returns_supervise exec hdue cancel)
      (.inl (not_avoids_supervise exec cancel))
  · cases wake with
    | cancelled => exact exact_killed ..
    | timedOut => exact exact_killed ..
    | exited status => exact exact_exited ..

theorem exact_shell (hdue : s.due) (creds : ResolvedCredentials) (cancel : Token) :
    (Shell.execute origin exec creds cancel).Everywhere (s.Exact timeoutMs s.Unheld)
      A := by
  unfold Shell.execute
  split
  · exact exact_result _ _ _ _ _ _ fun _ => unheld_of_free
  · refine ⟨exact_of_returns (n := 5) (by omega) ⟨⟨.ok (), trivial⟩, fun spawned _ => ?_⟩ ?_,
      fun spawned _ => ?_⟩
    · cases spawned with
      | error e => exact (returns_result ..).mono (by decide)
      | ok _ => exact returns_supervise exec hdue cancel
    · exact .inl fun h => not_avoids_supervise exec cancel (h.2 (.ok ()))
    · cases spawned with
      | error e => exact exact_result _ _ _ _ _ _ fun _ => unheld_of_free
      | ok _ => exact exact_supervise exec hdue cancel

end Shell

/-! ## The sidecar executor -/

section Sidecar

variable {origin : Origin}

theorem elapsed_bind (site : ClockSite) (rest : Nat → Prog ExecSig α) :
    (elapsed origin site >>= rest) = .call (.elapsed origin site) rest := rfl

section Call

variable {site : CallSite} {socketPath method : String} {params : Option Json}
  {rest : Except Error Response → Prog ExecSig α}

theorem stuck_nextFrame {next : FrameAnswer → Prog ExecSig α} (n : Nat) :
    ¬ s.Returns timeoutMs n (.call (.nextFrame origin site) next) :=
  Prog.not_escapesWithin_of_stuck (fun _ hready => hready) n

theorem not_avoids_callRaw :
    ¬ Avoids ExecOp.connects
      (Sidecar.callRaw origin site socketPath method params >>= rest) :=
  fun h => Bool.noConfusion h.1

/-- A call that finds no listener is over at once. -/
theorem returns_callRaw {n : Nat} (hrefused : s.refused = true)
    (hrest : ∀ e, s.Returns timeoutMs n (rest (.error e))) :
    s.Returns timeoutMs (n + 1)
      (Sidecar.callRaw origin site socketPath method params >>= rest) := by
  refine ⟨⟨.error "", hrefused⟩, fun connected hready => ?_⟩
  cases connected with
  | error e => exact hrest _
  | ok _ =>
      have hopen : s.refused = false := hready
      simp [hrefused] at hopen

theorem stuck_sendFrame (request : Request) (n : Nat)
    {next : Except String Unit → Prog ExecSig α}
    (hnext : ∀ n, ¬ s.Returns timeoutMs n (next (.ok ()))) :
    ¬ s.Returns timeoutMs n (.call (.sendFrame origin site request) next) := by
  cases htakes : s.takes with
  | true => exact Prog.not_escapesWithin_call (Except.ok ()) htakes hnext n
  | false =>
      refine Prog.not_escapesWithin_of_stuck (fun sent hready => ?_) n
      cases sent with
      | error e => exact hready
      | ok _ =>
          have hroom : s.takes = true := hready
          simp [htakes] at hroom

theorem stuck_callRaw (hopen : s.refused = false) (n : Nat) :
    ¬ s.Returns timeoutMs n
      (Sidecar.callRaw origin site socketPath method params >>= rest) := by
  refine Prog.not_escapesWithin_call (Except.ok ()) hopen (fun n => ?_) n
  exact stuck_sendFrame _ n stuck_nextFrame

/-- A state that is in no call but has one ahead. -/
theorem exact_of_ahead {p : Prog ExecSig α} {n : Nat} (hn : n ≤ 7) (hcall : ¬ InCall p)
    (hahead : ¬ Avoids ExecOp.connects p)
    (hreturns : s.refused = true → s.Returns timeoutMs n p)
    (hstuck : s.refused = false → ∀ n, ¬ s.Returns timeoutMs n p) :
    s.Exact timeoutMs s.Unconnected p := by
  cases hrefused : s.refused with
  | true => exact exact_of_returns hn (hreturns hrefused) ⟨hcall, .inl hrefused⟩
  | false =>
      refine exact_of_stuck (hstuck hrefused) ?_
      rintro ⟨-, hrefused' | havoids⟩
      · simp [hrefused] at hrefused'
      · exact hahead havoids

theorem exact_callRaw {n : Nat} (hn : n ≤ 6)
    (herror : s.refused = true → ∀ e, s.Returns timeoutMs n (rest (.error e)))
    (hrest : ∀ answer, (rest answer).Everywhere (s.Exact timeoutMs s.Unconnected) keepsTime) :
    (Sidecar.callRaw origin site socketPath method params >>= rest).Everywhere
      (s.Exact timeoutMs s.Unconnected) keepsTime := by
  refine ⟨?_, fun connected _ => ?_⟩
  · exact exact_of_ahead (Nat.succ_le_succ hn) (fun h => h) not_avoids_callRaw
      (fun hrefused => returns_callRaw hrefused (herror hrefused)) stuck_callRaw
  cases connected with
  | error e => exact hrest _
  | ok _ =>
      refine ⟨?_, fun sent _ => ?_⟩
      · exact exact_of_stuck (fun n => stuck_sendFrame _ n stuck_nextFrame) fun h => h.1 trivial
      cases sent with
      | error e => exact hrest _
      | ok _ =>
          refine ⟨exact_of_stuck stuck_nextFrame fun h => h.1 trivial, fun frame _ => ?_⟩
          rcases frame with _ | _ | _ | _ <;> exact hrest _

end Call

variable (taskId : Uuid)

theorem exact_end (status : TaskResultStatus) (exitCode : Option Int) (stdout stderr : String)
    (error : Option String) :
    (elapsed origin .result >>= fun time => makeResult origin taskId status exitCode stdout
      stderr time error).Everywhere (s.Exact timeoutMs s.Unconnected) keepsTime :=
  exact_result _ _ _ _ _ _ fun _ => unconnected_of_free

theorem exact_statusResult {response : Response} {done : Prog ExecSig TaskResult}
    (h : Sidecar.statusResult origin taskId response = some done) :
    done.Everywhere (s.Exact timeoutMs s.Unconnected) keepsTime := by
  unfold Sidecar.statusResult at h
  split at h
  · cases h
    exact exact_end ..
  · split at h <;> cases h <;> exact exact_end ..

variable (sidecarTaskId socketPath : String) (cancel : Token)

section Stop

variable (status : TaskResultStatus) (error : Option String)

theorem returns_stopPolling (hrefused : s.refused = true) :
    s.Returns timeoutMs 3
      (Sidecar.stopPolling origin taskId sidecarTaskId socketPath status error) :=
  returns_callRaw hrefused fun _ => returns_result ..

theorem exact_stopPolling :
    (Sidecar.stopPolling origin taskId sidecarTaskId socketPath status error).Everywhere
      (s.Exact timeoutMs s.Unconnected) keepsTime :=
  exact_callRaw (n := 2) (by omega) (fun _ _ => returns_result ..) fun _ => exact_end ..

end Stop

variable (s timeoutMs origin) in
/-- The clock can be read at a loop head. -/
theorem ready_head (pollIndex : Nat) :
    ∃ time : Nat, s.ready timeoutMs (.elapsed origin (.poll pollIndex)) time := by
  refine ⟨(Sidecar.pollDelaySum pollIndex + timeoutMs) * nanosPerMilli, ?_, fun _ => ?_⟩
  · exact Nat.mul_le_mul_right _ (by omega)
  · exact Nat.mul_le_mul_right _ (by omega)

section Sleep

variable {pollIndex : Nat} {rest : PollWake → Prog ExecSig α}

variable (origin pollIndex) in
theorem stuck_pollSleep (h : ∀ wake n, ¬ s.Returns timeoutMs n (rest wake)) (n : Nat) :
    ¬ s.Returns timeoutMs n (Sidecar.pollSleep origin cancel pollIndex >>= rest) := by
  unfold Sidecar.pollSleep
  split
  · cases hcancelled : s.cancelled with
    | true => exact Prog.not_escapesWithin_call PollWake.cancelled hcancelled (h _) n
    | false => exact Prog.not_escapesWithin_call PollWake.slept hcancelled (h _) n
  · exact h .slept n

theorem exact_pollSleep {n : Nat} (hn : n ≤ 6)
    (hreturns : s.refused = true → ∀ wake, s.Returns timeoutMs n (rest wake))
    (hstuck : s.refused = false → ∀ wake n, ¬ s.Returns timeoutMs n (rest wake))
    (hahead : ¬ Avoids ExecOp.connects (rest .slept))
    (hrest : ∀ wake, (rest wake).Everywhere (s.Exact timeoutMs s.Unconnected) keepsTime) :
    (Sidecar.pollSleep origin cancel pollIndex >>= rest).Everywhere
      (s.Exact timeoutMs s.Unconnected) keepsTime := by
  have hstuck' := fun hopen n => stuck_pollSleep origin cancel pollIndex (hstuck hopen) n
  unfold Sidecar.pollSleep at hstuck' ⊢
  split
  · rename_i hdelay
    rw [if_pos hdelay] at hstuck'
    refine ⟨exact_of_ahead (Nat.succ_le_succ hn) (fun h => h) (fun h => hahead (h.2 .slept))
      (fun hrefused => ⟨?_, fun wake _ => hreturns hrefused wake⟩) hstuck',
      fun wake _ => hrest wake⟩
    cases hcancelled : s.cancelled with
    | true => exact ⟨.cancelled, hcancelled⟩
    | false => exact ⟨.slept, hcancelled⟩
  · exact hrest .slept

end Sleep

section Poll

/-- At a later loop head the clock or the token is seen before the sidecar is called again. -/
theorem returns_laterPoll (hdue : s.due) (hrefused : s.refused = true) (fuel pollIndex : Nat) :
    s.Returns timeoutMs 5 (Sidecar.pollFrom origin taskId sidecarTaskId socketPath timeoutMs
      cancel (fuel + 1) (pollIndex + 1)) := by
  have hdelay : 0 < Sidecar.pollDelay (pollIndex + 1) :=
    Nat.lt_of_lt_of_le (by decide) (World.pollDelay_ge pollIndex)
  rw [Sidecar.pollFrom, elapsed_bind]
  refine .call (ready_head ..) fun time hready => ?_
  split
  · exact (returns_stopPolling _ _ _ _ _ hrefused).mono (by decide)
  · rename_i htime
    have hcancelled : s.cancelled = true :=
      hdue.resolve_right fun htimedOut => htime (hready.2 htimedOut)
    rw [Sidecar.pollSleep, if_pos hdelay]
    refine ⟨⟨.cancelled, hcancelled⟩, fun wake hwake => ?_⟩
    cases wake with
    | cancelled => exact returns_stopPolling _ _ _ _ _ hrefused
    | slept =>
        have hnot : s.cancelled = false := hwake
        simp [hcancelled] at hnot

theorem returns_firstPoll (hdue : s.due) (hrefused : s.refused = true) (fuel : Nat) :
    s.Returns timeoutMs 7 (Sidecar.pollFrom origin taskId sidecarTaskId socketPath timeoutMs
      cancel (fuel + 2) 0) := by
  rw [Sidecar.pollFrom, elapsed_bind]
  refine .call (ready_head ..) fun time _ => ?_
  split
  · exact (returns_stopPolling _ _ _ _ _ hrefused).mono (by decide)
  · exact returns_callRaw hrefused fun _ => returns_laterPoll _ _ _ _ hdue hrefused fuel 0

theorem stuck_pollFrom (hopen : s.refused = false) (fuel pollIndex n : Nat) :
    ¬ s.Returns timeoutMs n (Sidecar.pollFrom origin taskId sidecarTaskId socketPath timeoutMs
      cancel (fuel + 1) pollIndex) := by
  obtain ⟨time, hready⟩ := ready_head s timeoutMs origin pollIndex
  rw [Sidecar.pollFrom, elapsed_bind]
  refine Prog.not_escapesWithin_call time hready (fun n => ?_) n
  split
  · exact stuck_callRaw hopen n
  · refine stuck_pollSleep origin cancel pollIndex (fun wake n => ?_) n
    cases wake <;> exact stuck_callRaw hopen n

theorem not_avoids_pollFrom (fuel pollIndex : Nat) :
    ¬ Avoids ExecOp.connects (Sidecar.pollFrom origin taskId sidecarTaskId socketPath timeoutMs
      cancel (fuel + 1) pollIndex) := by
  rw [Sidecar.pollFrom, elapsed_bind]
  intro h
  have hstop := ((Prog.uses_call _ _).mp h).2 (timeoutMs * nanosPerMilli)
  dsimp only at hstop
  rw [if_pos (Nat.le_refl _)] at hstop
  exact not_avoids_callRaw hstop

variable (s timeoutMs origin) in
theorem exact_pollHead (fuel pollIndex : Nat)
    (hreturns : s.refused = true → s.Returns timeoutMs 7 (Sidecar.pollFrom origin taskId
      sidecarTaskId socketPath timeoutMs cancel (fuel + 1) pollIndex)) :
    s.Exact timeoutMs s.Unconnected (Sidecar.pollFrom origin taskId sidecarTaskId socketPath
      timeoutMs cancel (fuel + 1) pollIndex) :=
  exact_of_ahead (Nat.le_refl _) (fun h => h) (not_avoids_pollFrom _ _ _ _ _ _) hreturns
    fun hopen => stuck_pollFrom _ _ _ _ hopen _ _

/-- The clock of a poll loop runs out before its fuel. -/
theorem exact_pollFrom (hdue : s.due) (fuel pollIndex : Nat)
    (hfuel : timeoutMs + 100 ≤ 100 * (fuel + pollIndex)) :
    (Sidecar.pollFrom origin taskId sidecarTaskId socketPath timeoutMs cancel (fuel + 1)
      pollIndex).Everywhere (s.Exact timeoutMs s.Unconnected) keepsTime := by
  induction fuel generalizing pollIndex with
  | zero =>
      obtain ⟨previous, rfl⟩ : ∃ previous, pollIndex = previous + 1 := ⟨pollIndex - 1, by omega⟩
      have hhead := exact_pollHead s timeoutMs origin taskId sidecarTaskId socketPath cancel 0
        (previous + 1) fun hrefused =>
          (returns_laterPoll _ _ _ _ hdue hrefused 0 previous).mono (by decide)
      rw [Sidecar.pollFrom, elapsed_bind] at hhead ⊢
      refine .call hhead fun time htime => ?_
      have hover : timeoutMs * nanosPerMilli ≤ time := by
        have hsum := World.pollDelaySum_ge previous
        exact Nat.le_trans (Nat.mul_le_mul_right _ (by omega)) htime
      rw [if_pos hover]
      exact exact_stopPolling ..
  | succ fuel ih =>
      have hhead := exact_pollHead s timeoutMs origin taskId sidecarTaskId socketPath cancel
        (fuel + 1) pollIndex fun hrefused => by
          cases pollIndex with
          | zero => exact returns_firstPoll _ _ _ _ hdue hrefused fuel
          | succ previous =>
              exact (returns_laterPoll _ _ _ _ hdue hrefused _ previous).mono (by decide)
      have hlater := ih (pollIndex + 1) (by omega)
      rw [Sidecar.pollFrom, elapsed_bind] at hhead ⊢
      refine .call hhead fun time _ => ?_
      split
      · exact exact_stopPolling ..
      · refine exact_pollSleep (n := 6) cancel (by omega) ?_ ?_ not_avoids_callRaw fun wake => ?_
        · intro hrefused wake
          cases wake with
          | cancelled => exact (returns_stopPolling _ _ _ _ _ hrefused).mono (by decide)
          | slept =>
              exact returns_callRaw hrefused fun _ =>
                returns_laterPoll _ _ _ _ hdue hrefused fuel pollIndex
        · intro hopen wake n
          cases wake <;> exact stuck_callRaw hopen n
        · cases wake with
          | cancelled => exact exact_stopPolling ..
          | slept =>
              refine exact_callRaw (n := 5) (by omega)
                (fun hrefused _ => returns_laterPoll _ _ _ _ hdue hrefused fuel pollIndex)
                fun answer => ?_
              cases answer with
              | error e => exact hlater
              | ok response =>
                  cases hdone : Sidecar.statusResult origin taskId response with
                  | none => simpa only [hdone] using hlater
                  | some done => simpa only [hdone] using exact_statusResult taskId hdone

end Poll

theorem exact_sidecar (hdue : s.due) (target method : String) (payload : Json)
    (credRefs : List CredentialRef) (resolvedCreds : ResolvedCredentials) (socketDir : String) :
    (Sidecar.execute origin taskId target method payload credRefs resolvedCreds timeoutMs
      socketDir cancel).Everywhere (s.Exact timeoutMs s.Unconnected) keepsTime := by
  refine exact_callRaw (n := 2) (by omega) (fun _ _ => returns_result ..) fun answer => ?_
  cases answer with
  | error e => exact exact_end ..
  | ok response =>
      dsimp only
      unfold Sidecar.submitted
      split
      · exact exact_end ..
      · dsimp only
        split
        · exact exact_end ..
        · exact exact_end ..
        · exact exact_end ..
        · exact exact_pollFrom _ _ _ _ hdue (timeoutMs / 100 + 2) 0 (by omega)

end Sidecar

end Situation

/-! ## Reachable states -/

/-- Everything that can end a task has happened, and its peers do nothing more. -/
def deserted : Situation := ⟨true, true, fun _ => true, false, true⟩

/-- The same after the sidecar has closed its socket. -/
def closed : Situation := { deserted with refused := true }

/-- A script that exits and leaves a process behind, to which its pipes are passed on. -/
def leavingTask : ExecTask :=
  { sampleTask 1 with payload := .obj [("script", .str "sleep 1000000 &")] }

def startedRun : List (Event ExecSig) :=
  [⟨.spawnShell .exec ⟨"sleep 1000000 &", [], none⟩, .ok ()⟩]

def exitedRun : List (Event ExecSig) :=
  startedRun ++ [⟨.selectShell .exec (.root 1) 1000, .exited (.ok (some 0))⟩]

def storeSocket : String := Sidecar.joinPath "/run" ("store" ++ ".sock")

/-- A sidecar that has taken the submission. -/
def submittedRun : List (Event ExecSig) :=
  [⟨.connect .exec .submit storeSocket, .ok ()⟩,
    ⟨.sendFrame .exec .submit (.new "submit" (some .null) (.integer 1)), .ok ()⟩]

/-- A sidecar that has accepted the submission. -/
def acceptedRun : List (Event ExecSig) :=
  submittedRun ++ [⟨.nextFrame .exec .submit, some (.ok (.ok ⟨"2.0",
    some (.obj [("status", .str "accepted"), ("task_id", .str "job")]), none, .integer 1⟩))⟩]

end VasalAgent.Task
