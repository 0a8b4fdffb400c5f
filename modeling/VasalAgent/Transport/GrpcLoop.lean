import Mathlib.Algebra.GroupWithZero.Nat
import VasalAgent.Transport.GrpcBackoff

/-!
# Reconnecting from the main loop

The main loop of the agent over a gRPC transport.  Only a failed attempt to
connect is followed by a sleep: when a stream ends or breaks, `recv_tasks` returns
and the loop calls it again at once, and a result that is ready cuts the sleep
short.  As long as neither happens, an attempt that follows a failed one has been
waited for.
-/

namespace VasalAgent.Transport

open VasalAgent.Async
open VasalAgent.Protocol

/-! ## The loop -/

namespace GrpcTransport

variable (t : GrpcTransport)

/--
At most `fuel` rounds.  `results` is what the result channel gives: the
`recv_tasks` future is dropped for the next of them, or for the shutdown signal
when there is none.  Received work is handed to the task manager, which does not
use the transport, and an error is only logged.
-/
def mainLoop : Nat → List TaskResult → Prog GrpcSig Unit
  | 0, _ => .hang
  | fuel + 1, results => do
      match ← t.recvTasks with
      | .ready _ => mainLoop fuel results
      | .dropped =>
          match results with
          | [] => pure ()
          | result :: rest => do
              let _ ← sendResult result
              mainLoop fuel rest

abbrev loop : System GrpcSig where
  Job := Nat × List TaskResult
  Shared := GrpcShared
  Env := GrpcEnv
  program job := t.mainLoop job.1 job.2
  perform := GrpcShared.perform
  spawned _ := none
  external _ := true
  environment := GrpcShared.environment

end GrpcTransport

/-! ## Pacing -/

def isAttempt : Event GrpcSig → Bool
  | ⟨.connect _, _⟩ => true
  | _ => false

/-- The stream that is read is over. -/
def endsStream : Event GrpcSig → Bool
  | ⟨.message, .ready (.ok none)⟩ => true
  | ⟨.message, .ready (.error _)⟩ => true
  | _ => false

/-- A failed attempt, a stream end or a stream error. -/
def endsConnection (event : Event GrpcSig) : Bool :=
  attempt? event == some false || endsStream event

/-- The seconds that a call has slept; a sleep that is dropped counts for nothing. -/
def slept : Event GrpcSig → Nat
  | ⟨.sleep seconds, .ready _⟩ => seconds
  | _ => 0

def cutShort : Event GrpcSig → Bool
  | ⟨.sleep _, .dropped⟩ => true
  | _ => false

/-- Between the end of a connection and the next attempt there is a delay. -/
def Paced (events : List (Event GrpcSig)) : Prop :=
  ∀ before ended between attempt after,
    events = before ++ ended :: (between ++ attempt :: after) →
    endsConnection ended = true → isAttempt attempt = true →
    (∀ event ∈ between, isAttempt event = false) →
    GrpcTransport.initialBackoff ≤ (between.map slept).sum

/-! ## The programs -/

inductive Pace where
  | calm
  /-- An attempt has failed. -/
  | failed
  | due (seconds : Nat)
  deriving DecidableEq, Repr

/-- The pace after a call that decides an attempt, or does not. -/
def Pace.ofAttempt : Option Bool → Pace
  | some false => .failed
  | _ => .calm

def pacing : Monitor GrpcSig Pace
  | .calm, event => some (.ofAttempt (attempt? event))
  | .failed, ⟨.dropChannel _, _⟩ => some .failed
  | .failed, ⟨.backOff, backoff⟩ => some (.due backoff)
  | .due backoff, ⟨.unlock, _⟩ => some (.due backoff)
  | .due backoff, ⟨.sleep seconds, _⟩ => if seconds = backoff then some .calm else none
  | _, _ => none

section Programs

variable (t : GrpcTransport)

open VasalAgent.Task (Error)

def Pace.ofConnect : Awaited (Except Error Nat) → Pace
  | .ready (.error _) => .failed
  | _ => .calm

theorem connect_pacing :
    t.connect.Ensures (fun _ => True) pacing (fun outcome q => q = .ofConnect outcome) .calm := by
  rintro (⟨e | _⟩ | _) -
  · exact ⟨.failed, rfl, rfl⟩
  · refine ⟨.calm, rfl, fun channel _ => ⟨.calm, rfl, ?_⟩⟩
    rintro (⟨e | _⟩ | _) -
    · exact ⟨.failed, rfl, fun _ _ => ⟨.failed, rfl, rfl⟩⟩
    · refine ⟨.calm, rfl, ?_⟩
      rintro (⟨e | _⟩ | _) -
      · exact ⟨.failed, rfl, fun _ _ => ⟨.failed, rfl, rfl⟩⟩
      · exact ⟨.calm, rfl, rfl⟩
      · exact ⟨.calm, rfl, fun _ _ => ⟨.calm, rfl, rfl⟩⟩
    · exact ⟨.calm, rfl, fun _ _ => ⟨.calm, rfl, rfl⟩⟩
  · exact ⟨.calm, rfl, rfl⟩

theorem readStream_pacing :
    t.readStream.Ensures (fun _ => True) pacing (fun _ q => q = .calm) .calm := by
  rintro (⟨e | _ | msg⟩ | _) -
  · exact ⟨.calm, rfl, fun _ _ => ⟨.calm, rfl, fun _ _ => ⟨.calm, rfl, rfl⟩⟩⟩
  · exact ⟨.calm, rfl, fun _ _ => ⟨.calm, rfl, fun _ _ => ⟨.calm, rfl, rfl⟩⟩⟩
  · exact ⟨.calm, rfl, fun _ _ => ⟨.calm, rfl, rfl⟩⟩
  · exact ⟨.calm, rfl, fun _ _ => ⟨.calm, rfl, rfl⟩⟩

theorem recvTasks_pacing :
    t.recvTasks.Ensures (fun _ => True) pacing (fun _ q => q = .calm) .calm := by
  rintro (_ | _) -
  · refine ⟨.calm, rfl, ?_⟩
    rintro (_ | _) -
    · refine ⟨.calm, rfl, (connect_pacing t).bind ?_⟩
      rintro (⟨e | channel⟩ | _) _ rfl
      · -- the sleep is as long as the backoff that was read
        refine fun backoff _ => ⟨.due backoff, rfl, fun _ _ => ⟨.due backoff, rfl, ?_⟩⟩
        rintro (_ | _) - <;> exact ⟨.calm, if_pos rfl, rfl⟩
      · exact fun _ _ => ⟨.calm, rfl, readStream_pacing t⟩
      · exact fun _ _ => ⟨.calm, rfl, rfl⟩
    · exact ⟨.calm, rfl, readStream_pacing t⟩
  · exact ⟨.calm, rfl, rfl⟩

theorem sendResult_pacing (result : TaskResult) :
    (GrpcTransport.sendResult result).Ensures (fun _ => True) pacing
      (fun _ q => q = .calm) .calm := by
  rintro (_ | _) -
  · refine ⟨.calm, rfl, ?_⟩
    rintro (_ | channel) -
    · exact ⟨.calm, rfl, fun _ _ => ⟨.calm, rfl, rfl⟩⟩
    · refine ⟨.calm, rfl, fun _ _ => ⟨.calm, rfl, ?_⟩⟩
      rintro (⟨e | _⟩ | _) - <;> exact ⟨.calm, rfl, rfl⟩
  · exact ⟨.calm, rfl, rfl⟩

theorem mainLoop_pacing (fuel : Nat) (results : List TaskResult) :
    (t.mainLoop fuel results).Ensures (fun _ => True) pacing (fun _ q => q = .calm) .calm := by
  induction fuel generalizing results with
  | zero => trivial
  | succ fuel ih =>
      apply (recvTasks_pacing t).andThen
      rintro (work | _)
      · exact ih results
      · cases results with
        | nil => simp
        | cons result rest =>
            apply (sendResult_pacing result).andThen
            intro outcome
            exact ih rest

end Programs

/-! ## From the monitor to the delay -/

/-- A call after which the loop still waits before it connects again. -/
def Steady (event : Event GrpcSig) : Prop := endsStream event = false ∧ cutShort event = false

/-- What is read from `backoff`. -/
def BacksOff : Event GrpcSig → Prop
  | ⟨.backOff, backoff⟩ => GrpcTransport.initialBackoff ≤ backoff
  | _ => True

section Delay

variable {q : Pace} {event : Event GrpcSig} {events : List (Event GrpcSig)}

theorem pacing_due {backoff : Nat} (h : pacing (.due backoff) event = some q) :
    q = .due backoff ∨ q = .calm ∧ ∃ ans, event = ⟨.sleep backoff, ans⟩ := by
  obtain ⟨op, ans⟩ := event
  cases op with
  | unlock =>
      simp [pacing] at h
      simp [h]
  | sleep seconds =>
      simp only [pacing, Option.ite_none_right_eq_some, Option.some.injEq] at h
      simp [← h.1, ← h.2]
  | _ => simp [pacing] at h

theorem pacing_failed (h : pacing .failed event = some q) :
    q = .failed ∨ ∃ backoff, q = .due backoff ∧ event = ⟨.backOff, backoff⟩ := by
  obtain ⟨op, ans⟩ := event
  cases op with
  | dropChannel channel =>
      simp [pacing] at h
      simp [h]
  | backOff =>
      simp [pacing] at h
      simp [h]
  | _ => simp [pacing] at h

theorem calm_of_decides {q' : Pace} (h : pacing q event = some q')
    (hdecides : endsConnection event = true ∨ isAttempt event = true) : q = .calm := by
  obtain ⟨op, ans⟩ := event
  cases q with
  | calm => rfl
  | failed =>
      cases op <;> simp [pacing] at h <;>
        simp [endsConnection, endsStream, isAttempt, attempt?] at hdecides
  | due backoff =>
      cases op <;> simp [pacing] at h <;>
        simp [endsConnection, endsStream, isAttempt, attempt?] at hdecides

theorem slept_of_due {backoff : Nat} (h : pacing.after (.due backoff) events = some .calm)
    (hsteady : ∀ event ∈ events, Steady event) : backoff ≤ (events.map slept).sum := by
  induction events with
  | nil => simp [Monitor.after] at h
  | cons event rest ih =>
      simp only [List.forall_mem_cons] at hsteady
      obtain ⟨q, hq, hrest⟩ := pacing.after_cons_inv h
      simp only [List.map_cons, List.sum_cons]
      rcases pacing_due hq with rfl | ⟨rfl, ans, rfl⟩
      · have hlater := ih hrest hsteady.2
        omega
      · have hslept : slept ⟨.sleep backoff, ans⟩ = backoff := by
          cases ans with
          | ready _ => rfl
          | dropped => simp [Steady, cutShort] at hsteady
        omega

theorem slept_of_failed (h : pacing.after .failed events = some .calm)
    (hsteady : ∀ event ∈ events, Steady event) (hbacks : ∀ event ∈ events, BacksOff event) :
    GrpcTransport.initialBackoff ≤ (events.map slept).sum := by
  induction events with
  | nil => simp [Monitor.after] at h
  | cons event rest ih =>
      simp only [List.forall_mem_cons] at hsteady hbacks
      obtain ⟨q, hq, hrest⟩ := pacing.after_cons_inv h
      simp only [List.map_cons, List.sum_cons]
      rcases pacing_failed hq with rfl | ⟨backoff, rfl, rfl⟩
      · have hlater := ih hrest hsteady.2 hbacks.2
        omega
      · have hslept := slept_of_due hrest hsteady.2
        have hbackoff : GrpcTransport.initialBackoff ≤ backoff := hbacks.1
        omega

theorem paced_of_accepted (h : pacing.after .calm events = some q)
    (hsteady : ∀ event ∈ events, Steady event) (hbacks : ∀ event ∈ events, BacksOff event) :
    Paced events := by
  rintro before ended between attempt after rfl hended hattempt -
  simp only [List.forall_mem_append, List.forall_mem_cons] at hsteady hbacks
  obtain ⟨-, hstill, hbetween, -⟩ := hsteady
  -- a steady end of a connection is a failed attempt
  have hfailed : attempt? ended = some false := by
    simpa [endsConnection, hstill.1] using hended
  obtain ⟨q₁, -, h₁⟩ := pacing.after_append_inv h
  obtain ⟨q₂, hfail, h₂⟩ := pacing.after_cons_inv h₁
  obtain ⟨q₃, hmid, h₃⟩ := pacing.after_append_inv h₂
  obtain ⟨q₄, hconnect, -⟩ := pacing.after_cons_inv h₃
  have hfirst : q₁ = .calm := calm_of_decides hfail (.inl hended)
  have hlast : q₃ = .calm := calm_of_decides hconnect (.inr hattempt)
  subst hfirst hlast
  simp [pacing, hfailed, Pace.ofAttempt] at hfail
  subst hfail
  exact slept_of_failed hmid hbetween hbacks.2.2.1

end Delay

/-! ## Runs -/

section Runs

variable {t : GrpcTransport} {pool next : Pool t.loop}

/-- No stream ends or breaks, and no sleep is cut short. -/
abbrev GrpcTransport.undisturbed (t : GrpcTransport) : Policy t.loop where
  start _ _ := True
  fire _ _ event := Steady event
  env _ _ := True

structure Waiting (pool : Pool t.loop) : Prop where
  backoff : GrpcTransport.initialBackoff ≤ pool.shared.backoff
  steady : ∀ entry ∈ pool.log, Steady entry.2
  backsOff : ∀ entry ∈ pool.log, BacksOff entry.2

theorem Performs.backsOff {shared next : GrpcShared} {event : Event GrpcSig}
    (h : Performs shared event next)
    (hbackoff : GrpcTransport.initialBackoff ≤ shared.backoff) :
    BacksOff event ∧ GrpcTransport.initialBackoff ≤ next.backoff := by
  cases h with
  | backOff =>
      simp only [GrpcTransport.initialBackoff, GrpcTransport.maxBackoff, BacksOff] at *
      omega
  | install n => simp [BacksOff]
  | _ => simp [BacksOff, hbackoff]

theorem waiting_step (step : Step t.undisturbed pool next) (h : Waiting pool) :
    Waiting next := by
  cases step with
  | start hexternal allowed => exact ⟨h.backoff, h.steady, h.backsOff⟩
  | env henv allowed =>
      have hframe := (affects_of_environment henv).backoff
      exact ⟨hframe ▸ h.backoff, h.steady, h.backsOff⟩
  | @fire i job op cont proposal ans shared hfuture hperform allowed =>
      obtain ⟨hbacks, hbackoff⟩ := (performs_of_perform hperform).backsOff h.backoff
      constructor
      · exact hbackoff
      · simp only [Pool.advance, List.forall_mem_append, List.forall_mem_singleton]
        exact ⟨h.steady, allowed⟩
      · simp only [Pool.advance, List.forall_mem_append, List.forall_mem_singleton]
        exact ⟨h.backsOff, hbacks⟩

/-- Each of the loops that run over the transport is paced. -/
theorem paced_of_undisturbed (run : Run t.undisturbed (Pool.initial .initial) pool) (i : Nat) :
    Paced (pool.history i) := by
  have hwaiting : Waiting pool :=
    run.invariant ⟨Nat.le_refl _, by simp [Pool.initial], by simp [Pool.initial]⟩ waiting_step
  have hlog {event : Event GrpcSig} (hevent : event ∈ pool.history i) : (i, event) ∈ pool.log :=
    Pool.mem_history.mp hevent
  cases hfuture : pool.futures[i]? with
  | none =>
      have hnone : pool.history i = [] :=
        run.projects.history_new (List.getElem?_eq_none_iff.mp hfuture)
      simp [hnone, Paced]
  | some future =>
      obtain ⟨q, hq, -⟩ := (mainLoop_pacing t future.job.1 future.job.2).steps
        (run.projects.steps i future hfuture) fun _ _ => trivial
      apply paced_of_accepted hq
      · intro event hevent
        exact hwaiting.steady _ (hlog hevent)
      · intro event hevent
        exact hwaiting.backsOff _ (hlog hevent)

end Runs

/-! ## Reconnecting without a delay -/

section Sample

abbrev loopStart : Pool sampleGrpc.loop := Pool.initial .initial

/-- The control plane accepts the connection and closes it; the loop connects again. -/
def acceptedAndClosed : List (Label sampleGrpc.loop) :=
  .start (2, []) :: List.replicate 13 (.fire 0 (answering (.ready (.ok none))))

/-- The attempt fails, and a result is ready before the sleep is over. -/
def sleepCutShort : List (Label sampleGrpc.loop) :=
  .start (2, [sampleResult]) :: List.replicate 12 (.fire 0 refusing)

theorem reconnect_unpaced :
    (∃ pool, Run (Policy.free sampleGrpc.loop) loopStart pool ∧
      (pool.history 0).countP endsStream = 1 ∧ ¬ Paced (pool.history 0)) ∧
    (∃ pool, Run (Policy.free sampleGrpc.loop) loopStart pool ∧
      (pool.history 0).countP endsStream = 0 ∧ ¬ Paced (pool.history 0)) := by
  constructor
  · have run : Run (Policy.free sampleGrpc.loop) loopStart
        ((loopStart.script acceptedAndClosed).get rfl) :=
      Pool.run_script_free _
    refine ⟨_, run, rfl, fun h => ?_⟩
    have hdelay := h (((loopStart.script acceptedAndClosed).get rfl).history 0 |>.take 7)
      ⟨.message, .ready (.ok none)⟩
      [⟨.disconnect, ()⟩, ⟨.unlock, ()⟩, ⟨.lock, .ready ()⟩, ⟨.isConnected, false⟩]
      ⟨.connect "http://cp", .ready (.ok ())⟩ [] rfl rfl rfl (by simp [isAttempt])
    simp [slept, GrpcTransport.initialBackoff] at hdelay
  · have run : Run (Policy.free sampleGrpc.loop) loopStart
        ((loopStart.script sleepCutShort).get rfl) :=
      Pool.run_script_free _
    refine ⟨_, run, rfl, fun h => ?_⟩
    have hdelay := h (((loopStart.script sleepCutShort).get rfl).history 0 |>.take 2)
      ⟨.connect "http://cp", .ready (.error "refused")⟩
      [⟨.backOff, (1 : Nat)⟩, ⟨.unlock, ()⟩, ⟨.sleep 1, .dropped⟩, ⟨.lock, .ready ()⟩,
        ⟨.outboundTx, (none : Option Nat)⟩, ⟨.unlock, ()⟩, ⟨.lock, .ready ()⟩,
        ⟨.isConnected, false⟩]
      ⟨.connect "http://cp", .ready (.error "refused")⟩ [] rfl rfl rfl (by simp [isAttempt])
    simp [slept, GrpcTransport.initialBackoff] at hdelay

/-- Nobody listens; the sleep of a failed attempt is over when the loop goes on. -/
def refused : (op : GrpcOp) → op.Ans
  | .sleep _ => .ready ()
  | op => refusing op

def refusedAndRetried : List (Label sampleGrpc.loop) :=
  .start (2, []) :: List.replicate 9 (.fire 0 refused)

theorem paced_refused :
    ∃ pool, Run sampleGrpc.undisturbed loopStart pool ∧
      (pool.history 0).countP isAttempt = 2 ∧ Paced (pool.history 0) := by
  have follows : Pool.Follows sampleGrpc.undisturbed loopStart refusedAndRetried := by
    refine .cons trivial rfl ?_
    iterate 9 refine .cons (Pool.allows_performed rfl rfl ⟨rfl, rfl⟩) rfl ?_
    trivial
  have run : Run sampleGrpc.undisturbed loopStart
      ((loopStart.script refusedAndRetried).get rfl) :=
    Pool.run_script follows
  exact ⟨_, run, rfl, paced_of_undisturbed run 0⟩

end Sample

end VasalAgent.Transport
