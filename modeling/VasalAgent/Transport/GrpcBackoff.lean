import Mathlib.Algebra.Group.Nat.Defs
import VasalAgent.Transport.GrpcDelivery

/-!
# The connection state of the gRPC transport

What `recv_tasks` and `send_result` leave behind: both halves of the connection
or neither, and a `backoff` that goes by the number of failed attempts since the
last successful one.  A future that is dropped at an await point is inside the
mutex or outside it as any other, so the account is kept for the one future
inside and passed on with the mutex.
-/

namespace VasalAgent.Transport

open VasalAgent.Async
open VasalAgent.Protocol
open VasalAgent.Task (Error)

/-! ## Attempts -/

/-- How an attempt to connect has turned out, at the call that decides it. -/
def attempt? : Event GrpcSig → Option Bool
  | ⟨.connect _, .ready (.error _)⟩ => some false
  | ⟨.send _ (.hello _), .ready (.error _)⟩ => some false
  | ⟨.taskStream _, .ready (.error _)⟩ => some false
  | ⟨.taskStream _, .ready (.ok _)⟩ => some true
  | _ => none

def countAttempt (n : Nat) (event : Event GrpcSig) : Nat :=
  match attempt? event with
  | some true => 0
  | some false => n + 1
  | none => n

/-- The failed attempts since the last successful one. -/
def failures (events : List (Event GrpcSig)) : Nat := events.foldl countAttempt 0

@[simp] theorem failures_concat (events : List (Event GrpcSig)) (event : Event GrpcSig) :
    failures (events ++ [event]) = countAttempt (failures events) event := by
  simp [failures]

/-- In seconds, after `n` failures. -/
def delay (n : Nat) : Nat := min (2 ^ n) GrpcTransport.maxBackoff

theorem delay_succ (n : Nat) : delay (n + 1) = min (delay n * 2) GrpcTransport.maxBackoff := by
  simp only [delay, GrpcTransport.maxBackoff, Nat.pow_succ]
  omega

/-! ## Phases -/

/-- `MutexStage`, with what a future inside the mutex still has to record. -/
inductive Phase where
  | outside
  | inside
  | unconnected
  /-- The attempt has failed, and `backoff` is not yet doubled. -/
  | failed
  /-- The stream is open, and not yet installed. -/
  | opened
  | connected
  deriving DecidableEq, Repr

def Phase.mutex : Phase → MutexStage
  | .outside => .outside
  | .inside => .inside
  | .unconnected => .unconnected
  | .failed => .unconnected
  | .opened => .unconnected
  | .connected => .inside

/-- The phase that follows a call of an attempt which opens the stream at best at its end. -/
def Phase.ofAttempt : Awaited (Except String Unit) → Phase
  | .ready (.error _) => .failed
  | _ => .unconnected

def Phase.ofStream : Awaited (Except String Unit) → Phase
  | .ready (.ok _) => .opened
  | .ready (.error _) => .failed
  | .dropped => .unconnected

/-- The calls that a future makes in its phases. -/
inductive Phase.Moves : Phase → Event GrpcSig → Phase → Prop
  | refused : Moves .outside ⟨.lock, .dropped⟩ .outside
  | lock : Moves .outside ⟨.lock, .ready ()⟩ .inside
  | sendResult (k : Nat) (result : TaskResult) (ans : Awaited (Except String Unit)) :
      Moves .outside ⟨.send k (.taskResult result), ans⟩ .outside
  | sleep (seconds : Nat) (ans : Awaited Unit) : Moves .outside ⟨.sleep seconds, ans⟩ .outside
  | found : Moves .inside ⟨.isConnected, true⟩ .connected
  | missing : Moves .inside ⟨.isConnected, false⟩ .unconnected
  | disconnect : Moves .inside ⟨.disconnect, ()⟩ .inside
  | outboundTx (tx : Option Nat) : Moves .inside ⟨.outboundTx, tx⟩ .inside
  | unlock : Moves .inside ⟨.unlock, ()⟩ .outside
  | connect (endpoint : String) (ans : Awaited (Except String Unit)) :
      Moves .unconnected ⟨.connect endpoint, ans⟩ (.ofAttempt ans)
  | channel (k : Nat) : Moves .unconnected ⟨.channel, k⟩ .unconnected
  | sendHello (k : Nat) (hello : AgentHello) (ans : Awaited (Except String Unit)) :
      Moves .unconnected ⟨.send k (.hello hello), ans⟩ (.ofAttempt ans)
  | taskStream (k : Nat) (ans : Awaited (Except String Unit)) :
      Moves .unconnected ⟨.taskStream k, ans⟩ (.ofStream ans)
  | dropUnused (k : Nat) : Moves .unconnected ⟨.dropChannel k, ()⟩ .unconnected
  | giveUp : Moves .unconnected ⟨.unlock, ()⟩ .outside
  | dropFailed (k : Nat) : Moves .failed ⟨.dropChannel k, ()⟩ .failed
  | backOff (seconds : Nat) : Moves .failed ⟨.backOff, seconds⟩ .unconnected
  | install (k : Nat) : Moves .opened ⟨.install k, ()⟩ .connected
  | message (ans : GrpcOp.message.Ans) : Moves .connected ⟨.message, ans⟩ .inside

theorem Phase.Moves.deterministic {q q' other : Phase} {event : Event GrpcSig}
    (h : q.Moves event q') (hother : q.Moves event other) : other = q' := by
  cases h <;> cases hother <;> rfl

noncomputable def phase : Monitor GrpcSig Phase := .ofMoves Phase.Moves

theorem moves_of_phase {q q' : Phase} {event : Event GrpcSig} (h : phase q event = some q') :
    q.Moves event q' :=
  Monitor.move_of_ofMoves h

theorem Phase.Moves.phase {q q' : Phase} {event : Event GrpcSig} (h : q.Moves event q') :
    phase q event = some q' :=
  Monitor.ofMoves_of_move h fun _ => h.deterministic

theorem guarding_of_phase (q : Phase) (event : Event GrpcSig) (q' : Phase)
    (h : phase q event = some q') : guarding q.mutex event = some q'.mutex := by
  cases moves_of_phase h with
  | connect endpoint ans => rcases ans with ⟨_ | _⟩ | _ <;> rfl
  | sendHello k hello ans => rcases ans with ⟨_ | _⟩ | _ <;> rfl
  | taskStream k ans => rcases ans with ⟨_ | _⟩ | _ <;> rfl
  | _ => rfl

section Programs

variable (t : GrpcTransport)

/-- The phase in which `connect` leaves a future. -/
def Phase.ofConnect : Awaited (Except Error Nat) → Phase
  | .ready (.ok _) => .opened
  | .ready (.error _) => .failed
  | .dropped => .unconnected

theorem connect_phase :
    t.connect.Ensures (fun _ => True) phase (fun outcome q => q = .ofConnect outcome)
      .unconnected := by
  rintro (⟨e | _⟩ | _) -
  · exact ⟨.failed, (Phase.Moves.connect _ _).phase, rfl⟩
  · refine ⟨.unconnected, (Phase.Moves.connect _ _).phase, fun channel _ => ?_⟩
    refine ⟨.unconnected, (Phase.Moves.channel _).phase, ?_⟩
    have hdropped : ∃ q, phase .failed ⟨.dropChannel channel, ()⟩ = some q ∧ q = .failed :=
      ⟨.failed, (Phase.Moves.dropFailed _).phase, rfl⟩
    have hunused : ∃ q, phase .unconnected ⟨.dropChannel channel, ()⟩ = some q ∧
        q = .unconnected :=
      ⟨.unconnected, (Phase.Moves.dropUnused _).phase, rfl⟩
    rintro (⟨e | _⟩ | _) -
    · exact ⟨.failed, (Phase.Moves.sendHello _ _ _).phase, fun _ _ => hdropped⟩
    · refine ⟨.unconnected, (Phase.Moves.sendHello _ _ _).phase, ?_⟩
      rintro (⟨e | _⟩ | _) -
      · exact ⟨.failed, (Phase.Moves.taskStream _ _).phase, fun _ _ => hdropped⟩
      · exact ⟨.opened, (Phase.Moves.taskStream _ _).phase, rfl⟩
      · exact ⟨.unconnected, (Phase.Moves.taskStream _ _).phase, fun _ _ => hunused⟩
    · exact ⟨.unconnected, (Phase.Moves.sendHello _ _ _).phase, fun _ _ => hunused⟩
  · exact ⟨.unconnected, (Phase.Moves.connect _ _).phase, rfl⟩

theorem unlock_phase : ∃ q, phase .inside ⟨.unlock, ()⟩ = some q ∧ q = .outside :=
  ⟨.outside, Phase.Moves.unlock.phase, rfl⟩

theorem readStream_phase :
    t.readStream.Ensures (fun _ => True) phase (fun _ q => q = .outside) .connected := by
  have hdisconnect : ∃ q, phase .inside ⟨.disconnect, ()⟩ = some q ∧
      ∀ ans : Unit, True → ∃ q', phase q ⟨.unlock, ans⟩ = some q' ∧ q' = .outside :=
    ⟨.inside, Phase.Moves.disconnect.phase, fun _ _ => unlock_phase⟩
  rintro (⟨e | _ | msg⟩ | _) -
  · exact ⟨.inside, (Phase.Moves.message _).phase, fun _ _ => hdisconnect⟩
  · exact ⟨.inside, (Phase.Moves.message _).phase, fun _ _ => hdisconnect⟩
  · exact ⟨.inside, (Phase.Moves.message _).phase, fun _ _ => unlock_phase⟩
  · exact ⟨.inside, (Phase.Moves.message _).phase, fun _ _ => unlock_phase⟩

theorem recvTasks_phase :
    t.recvTasks.Ensures (fun _ => True) phase (fun _ q => q = .outside) .outside := by
  rintro (_ | _) -
  · refine ⟨.inside, Phase.Moves.lock.phase, ?_⟩
    rintro (_ | _) -
    · refine ⟨.unconnected, Phase.Moves.missing.phase, (connect_phase t).bind ?_⟩
      rintro (⟨e | channel⟩ | _) _ rfl
      · refine fun backoff _ => ⟨.unconnected, (Phase.Moves.backOff _).phase, fun _ _ => ?_⟩
        refine ⟨.outside, Phase.Moves.giveUp.phase, ?_⟩
        rintro (_ | _) - <;> exact ⟨.outside, (Phase.Moves.sleep _ _).phase, rfl⟩
      · exact fun _ _ => ⟨.connected, (Phase.Moves.install _).phase, readStream_phase t⟩
      · exact fun _ _ => ⟨.outside, Phase.Moves.giveUp.phase, rfl⟩
    · exact ⟨.connected, Phase.Moves.found.phase, readStream_phase t⟩
  · exact ⟨.outside, Phase.Moves.refused.phase, rfl⟩

theorem sendResult_phase (result : TaskResult) :
    (GrpcTransport.sendResult result).Ensures (fun _ => True) phase
      (fun _ q => q = .outside) .outside := by
  rintro (_ | _) -
  · refine ⟨.inside, Phase.Moves.lock.phase, ?_⟩
    rintro (_ | channel) -
    · exact ⟨.inside, (Phase.Moves.outboundTx _).phase, fun _ _ => unlock_phase⟩
    · refine ⟨.inside, (Phase.Moves.outboundTx _).phase, fun _ _ => ?_⟩
      refine ⟨.outside, Phase.Moves.unlock.phase, ?_⟩
      rintro (⟨e | _⟩ | _) - <;> exact ⟨.outside, (Phase.Moves.sendResult _ _ _).phase, rfl⟩
  · exact ⟨.outside, Phase.Moves.refused.phase, rfl⟩

theorem program_phase (job : GrpcJob) :
    (t.system.program job).Ensures (fun _ => True) phase (fun _ q => q = .outside)
      .outside := by
  cases job with
  | recv => exact (recvTasks_phase t).andThen (by simp)
  | send result => exact (sendResult_phase result).andThen (by simp)

end Programs

/-! ## The account -/

/-- What a future in a phase, after `n` failures, can say about the connection. -/
def Phase.Account (n : Nat) (shared : GrpcShared) : Phase → Prop
  | .failed => ∃ m, n = m + 1 ∧ shared.backoff = delay m
  | .opened => n = 0
  | .connected => shared.backoff = delay n ∧ shared.inboundStream.isSome
  | _ => shared.backoff = delay n

section Step

variable {shared next : GrpcShared} {event : Event GrpcSig} {q q' : Phase} {n : Nat}

/-- A call keeps the account of the future that makes it. -/
theorem Performs.account (h : Performs shared event next) (hphase : phase q event = some q')
    (haccount : Phase.Account n shared q) : Phase.Account (countAttempt n event) next q' := by
  cases moves_of_phase hphase with
  | connect endpoint ans =>
      cases h
      rcases ans with ⟨_ | _⟩ | _
      · exact ⟨n, rfl, haccount⟩
      · exact haccount
      · exact haccount
  | sendHello k hello ans =>
      rcases ans with ⟨_ | _⟩ | _
      · cases h
        exact ⟨n, rfl, haccount⟩
      · cases h <;> exact haccount
      · cases h
        exact haccount
  | taskStream k ans =>
      cases h
      rcases ans with ⟨_ | _⟩ | _
      · exact ⟨n, rfl, haccount⟩
      · rfl
      · exact haccount
  | found =>
      cases h with
      | isConnected hconnected =>
          exact ⟨haccount, (Bool.and_eq_true_iff.mp hconnected.symm).1⟩
  | backOff seconds =>
      cases h
      obtain ⟨m, rfl, hbackoff⟩ := haccount
      change min (shared.backoff * 2) GrpcTransport.maxBackoff = delay (m + 1)
      rw [hbackoff, delay_succ]
  | install k =>
      cases h
      obtain rfl : n = 0 := haccount
      exact ⟨rfl, rfl⟩
  | message ans =>
      cases h with
      | message => exact haccount.1
      | ended => exact (endStream_backoff shared).trans haccount.1
  | _ => cases h <;> exact haccount

/-- A call outside the mutex is no attempt, and leaves the connection alone. -/
theorem Performs.outside (h : Performs shared event next)
    (hphase : phase .outside event = some q') :
    countAttempt n event = n ∧ next.backoff = shared.backoff ∧
      next.inboundStream = shared.inboundStream := by
  cases moves_of_phase hphase <;> cases h <;> exact ⟨rfl, rfl, rfl⟩

end Step

/-! ## Runs -/

section Runs

variable {t : GrpcTransport} {pool next : Pool t.system}

abbrev events (pool : Pool t.system) : List (Event GrpcSig) := pool.log.map Prod.snd

noncomputable abbrev phaseOf (pool : Pool t.system) (i : Nat) : Option Phase :=
  pool.stage phase (fun _ => .outside) i

/-- The account is with the future in the mutex, or with the mutex when it is free. -/
structure Kept (pool : Pool t.system) : Prop where
  exclusive : Exclusive pool
  inside : ∀ i q, phaseOf pool i = some q → q.mutex.held = true →
    Phase.Account (failures (events pool)) pool.shared q
  free : pool.shared.permits = 1 → Phase.Account (failures (events pool)) pool.shared .outside

theorem guarding_stage {i : Nat} {q : Phase} (h : phaseOf pool i = some q) :
    pool.stage guarding firstStage i = some q.mutex :=
  Pool.stage_map guarding_of_phase h

theorem Kept.launch (h : Kept pool) (hprojects : pool.Projects) (job : GrpcJob) :
    Kept (pool.launch job) where
  exclusive := h.exclusive.launch hprojects job
  inside i q hi hheld := by
    rw [phaseOf, Pool.stage_launch _ _ hprojects, Function.update_apply] at hi
    split at hi
    · simp at hi
      simp [← hi, Phase.mutex, MutexStage.held] at hheld
    · exact h.inside i q hi hheld
  free := h.free

theorem Phase.Account.frame {n : Nat} {shared shared' : GrpcShared} {q : Phase}
    (h : Phase.Account n shared q) (hbackoff : shared'.backoff = shared.backoff)
    (hstream : shared'.inboundStream = shared.inboundStream) : Phase.Account n shared' q := by
  cases q <;> simpa [Phase.Account, hbackoff, hstream] using h

theorem Affects.backoff {shared next : GrpcShared} {event : GrpcEnv}
    (h : Affects shared event next) : next.backoff = shared.backoff := by
  cases h <;> simp

theorem Kept.env (h : Kept pool) {event : GrpcEnv} {shared : GrpcShared}
    (haffects : Affects pool.shared event shared) : Kept { pool with shared } where
  exclusive := h.exclusive.env haffects
  inside i q hi hheld :=
    (h.inside i q hi hheld).frame haffects.backoff haffects.frame.2.2
  free hpermits := by
    apply Phase.Account.frame _ haffects.backoff haffects.frame.2.2
    exact h.free (haffects.frame.1 ▸ hpermits)

section Fire

variable {i : Nat} {job : GrpcJob} {old rest : Prog GrpcSig Unit} {event : Event GrpcSig}
  {shared : GrpcShared} {q q' : Phase}

theorem events_advance : events (pool.advance i job event rest shared) =
    events pool ++ [event] := by
  simp [events, Pool.advance]

theorem eq_outside_of_free (hfree : q.mutex.held = false) : q = .outside := by
  cases q <;> simp [Phase.mutex, MutexStage.held] at hfree ⊢

theorem holder_of_held {j : Nat} (hq : phaseOf pool j = some q)
    (hheld : q.mutex.held = true) :
    pool.holder guarding firstStage MutexStage.held j = true := by
  simp [Pool.holder, guarding_stage hq, hheld]

/-- The account of the future that moves, unless another future is in the mutex. -/
theorem Kept.account (h : Kept pool) (hq : phaseOf pool i = some q)
    (hmine : q.mutex.held = true ∨ pool.shared.permits = 1) :
    Phase.Account (failures (events pool)) pool.shared q := by
  rcases hmine with hheld | hfree
  · exact h.inside i q hq hheld
  · cases hheld : q.mutex.held with
    | true => exact h.inside i q hq hheld
    | false => rw [eq_outside_of_free hheld]; exact h.free hfree

theorem Kept.fire (h : Kept pool) (hprojects : pool.Projects)
    (hfuture : pool.futures[i]? = some ⟨job, old⟩) (hq : phaseOf pool i = some q)
    (hq' : phase q event = some q') (hperforms : Performs pool.shared event shared) :
    Kept (pool.advance i job event rest shared) := by
  have hguarding : guarding q.mutex event = some q'.mutex := guarding_of_phase q event q' hq'
  have hexclusive : Exclusive (pool.advance i job event rest shared) :=
    h.exclusive.fire hprojects hfuture (guarding_stage hq) hguarding hperforms
  have hmutex := h.exclusive.mutex
  have hpermits := hperforms.permits hguarding
  have hstage : phaseOf (pool.advance i job event rest shared) =
      Function.update (phaseOf pool) i (some q') :=
    Pool.stage_advance_single phase _ hprojects hfuture hq hq' rfl
  have hmine (hown : 1 ≤ q'.mutex.held.toNat + shared.permits) :
      Phase.Account (failures (events (pool.advance i job event rest shared))) shared q' := by
    rw [events_advance, failures_concat]
    apply hperforms.account hq' (h.account hq _)
    cases hheld : q.mutex.held with
    | true => simp
    | false =>
        right
        simp only [hheld, Bool.toNat_false] at hpermits
        omega
  refine ⟨hexclusive, fun j p hj hheld => ?_, fun hfree => ?_⟩
  · rw [hstage, Function.update_apply] at hj
    split at hj
    next heq =>
        cases hj
        apply hmine
        simp [hheld]
    next hne =>
        -- another future is in the mutex, so this one is outside
        have hout : q = .outside := by
          apply eq_outside_of_free
          by_contra hown
          apply hne
          apply Pool.holder_unique (by omega : guards pool ≤ 1)
          · exact holder_of_held hj hheld
          · exact holder_of_held hq (by simpa using hown)
        subst hout
        obtain ⟨hcount, hbackoff, hstream⟩ := hperforms.outside hq'
        rw [events_advance, failures_concat, hcount]
        exact (h.inside j p hj hheld).frame hbackoff hstream
  · have hself : phaseOf (pool.advance i job event rest shared) i = some q' := by
      rw [hstage, Function.update_self]
    have hleft : q' = .outside := by
      apply eq_outside_of_free
      by_contra hheld
      have hpos : 0 < guards (pool.advance i job event rest shared) :=
        Pool.holders_pos (holder_of_held hself (by simpa using hheld))
      have hlast := hexclusive.mutex
      omega
    subst hleft
    apply hmine
    change shared.permits = 1 at hfree
    omega

end Fire

theorem kept_step {π : Policy t.system} (step : Step π pool next) (hprojects : pool.Projects)
    (h : Kept pool) : Kept next := by
  cases step with
  | start hexternal allowed => exact h.launch hprojects _
  | env henv allowed => exact h.env (affects_of_environment henv)
  | @fire i job op cont proposal ans shared hfuture hperform allowed =>
      obtain ⟨q, q', hq, hq'⟩ := hprojects.accepts (program_phase t) hfuture ans
      exact h.fire hprojects hfuture hq hq' (performs_of_perform hperform)

theorem kept_initial : Kept (Pool.initial .initial : Pool t.system) where
  exclusive := exclusive_initial
  inside i q hi := by simp [phaseOf, Pool.stage, Pool.initial] at hi
  free _ := rfl

/-! ## The law -/

/--
Both halves of the connection are there or neither, and a future that goes to read
finds the stream.  `backoff` goes by the failures as soon as the mutex is free,
which it is between calls.
-/
structure ConnectionState (pool : Pool t.system) : Prop where
  paired : pool.shared.inboundStream.isSome = pool.shared.outboundTx.isSome
  present : ∀ (i : Nat) (job : GrpcJob) (next : GrpcOp.message.Ans → Prog GrpcSig Unit),
    pool.futures[i]? = some ⟨job, .call .message next⟩ → pool.shared.inboundStream.isSome
  free : (∀ future ∈ pool.futures, future.rest.returned = true) → pool.shared.permits = 1
  backoff : pool.shared.permits = 1 →
    pool.shared.backoff = min (2 ^ failures (events pool)) GrpcTransport.maxBackoff

theorem connectionState_of_run
    (run : Run (Policy.free t.system) (Pool.initial .initial) pool) :
    ConnectionState pool := by
  obtain ⟨hprojects, hkept⟩ : pool.Projects ∧ Kept pool :=
    run.invariant_of_projects (Pool.initial_projects _) kept_initial kept_step
  constructor
  · rw [hkept.exclusive.paired]
  · intro i job cont hfuture
    obtain ⟨q, q', hq, hq'⟩ := hprojects.accepts (program_phase t) hfuture .dropped
    cases moves_of_phase hq'
    exact (hkept.inside i _ hq rfl).2
  · intro hreturned
    have hnone : guards pool = 0 := by
      apply Pool.holders_returned hprojects _ hreturned
      intro job
      exact (program_guarding t job).mono fun _ q hq => by simp [hq, MutexStage.held]
    have hmutex := hkept.exclusive.mutex
    omega
  · exact hkept.free

end Runs

/-! ## A control plane that refuses -/

section Sample

/-- Nobody listens, and a future that sleeps is dropped. -/
def refusing : (op : GrpcOp) → op.Ans
  | .connect _ => .ready (.error "refused")
  | .sleep _ => .dropped
  | op => answering acknowledged op

def refusedTwice : List (Label sampleGrpc.system) :=
  .start .recv :: (List.replicate 6 (.fire 0 refusing) ++
    .start .recv :: List.replicate 6 (.fire 1 refusing))

theorem connectionState_refusedTwice :
    ∃ pool, Run (Policy.free sampleGrpc.system) grpcStart pool ∧
      pool.shared.permits = 1 ∧ failures (events pool) = 2 ∧ pool.shared.backoff = 4 ∧
      ConnectionState pool := by
  have run : Run (Policy.free sampleGrpc.system) grpcStart
      ((grpcStart.script refusedTwice).get rfl) :=
    Pool.run_script_free _
  exact ⟨_, run, rfl, rfl, rfl, connectionState_of_run run⟩

end Sample

end VasalAgent.Transport
