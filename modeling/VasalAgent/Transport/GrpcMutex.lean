import VasalAgent.Async.Holders
import VasalAgent.Transport.Grpc

/-!
# The mutex of the gRPC transport

`Performs` says once what each call does to the shared state.  The connection is
set up and given up only inside the mutex, and by a future that has itself found
it absent; so the two halves of the connection come and go together, whatever
else runs and wherever a `recv_tasks` future is dropped.
-/

namespace VasalAgent.Transport

open VasalAgent.Async
open VasalAgent.Protocol
open VasalAgent.Task (Error)

/-! ## What a call does -/

inductive Performs (shared : GrpcShared) : Event GrpcSig → GrpcShared → Prop
  | unlocked : Performs shared ⟨.lock, .dropped⟩ shared
  | lock {permits : Nat} (hpermits : shared.permits = permits + 1) :
      Performs shared ⟨.lock, .ready ()⟩ { shared with permits }
  | unlock : Performs shared ⟨.unlock, ()⟩ { shared with permits := shared.permits + 1 }
  | isConnected {connected : Bool}
      (hconnected : connected = (shared.inboundStream.isSome && shared.outboundTx.isSome)) :
      Performs shared ⟨.isConnected, connected⟩ shared
  | connect (endpoint : String) (ans : Awaited (Except String Unit)) :
      Performs shared ⟨.connect endpoint, ans⟩ shared
  | channel : Performs shared ⟨.channel, shared.created⟩
      { shared.setChannel shared.created ⟨[], .streaming⟩ with created := shared.created + 1 }
  | unsent {n : Nat} {msg : AgentMessage} {ans : Awaited (Except String Unit)}
      (hans : ans ≠ .ready (.ok ())) : Performs shared ⟨.send n msg, ans⟩ shared
  | send (n : Nat) (msg : AgentMessage) :
      Performs shared ⟨.send n msg, .ready (.ok ())⟩ (shared.setChannel n
        ⟨(shared.channels n).queue ++ [msg], (shared.channels n).receiver⟩)
  | taskStream (n : Nat) (ans : Awaited (Except String Unit)) :
      Performs shared ⟨.taskStream n, ans⟩ shared
  | dropChannel (n : Nat) :
      Performs shared ⟨.dropChannel n, ()⟩ (shared.setChannel n ⟨[], .dropped⟩)
  | install (n : Nat) : Performs shared ⟨.install n, ()⟩ { shared with
      outboundTx := some n
      inboundStream := some n
      backoff := GrpcTransport.initialBackoff }
  | backOff : Performs shared ⟨.backOff, shared.backoff⟩ { shared with
      backoff := min (shared.backoff * 2) GrpcTransport.maxBackoff }
  | sleep (seconds : Nat) (ans : Awaited Unit) : Performs shared ⟨.sleep seconds, ans⟩ shared
  | message (ans : GrpcOp.message.Ans) : Performs shared ⟨.message, ans⟩ shared
  | ended (ans : GrpcOp.message.Ans) : Performs shared ⟨.message, ans⟩ shared.endStream
  | disconnect : Performs shared ⟨.disconnect, ()⟩
      { shared with outboundTx := none, inboundStream := none }
  | outboundTx : Performs shared ⟨.outboundTx, shared.outboundTx⟩ shared

theorem performs_send {shared next : GrpcShared} {n : Nat} {msg : AgentMessage}
    {ans : Awaited (Except String Unit)} (h : shared.send n msg = some (ans, next)) :
    Performs shared ⟨.send n msg, ans⟩ next := by
  simp only [GrpcShared.send] at h
  split at h
  · cases h
    exact .unsent (by simp)
  · split at h
    · cases h
      exact .send n msg
    · cases h

theorem performs_of_perform {shared next : GrpcShared} {op : GrpcOp} {proposal ans : op.Ans}
    (h : shared.perform op proposal = some (ans, next)) : Performs shared ⟨op, ans⟩ next := by
  cases op with
  | lock =>
      cases proposal with
      | dropped =>
          cases h
          exact .unlocked
      | ready _ =>
          simp only [GrpcShared.perform] at h
          split at h
          next hpos =>
              cases h
              exact .lock (Nat.sub_add_cancel hpos).symm
          next => cases h
  | send n msg =>
      cases proposal with
      | dropped =>
          cases h
          exact .unsent (by simp)
      | ready _ => exact performs_send h
  | message =>
      rcases proposal with ⟨e | _ | msg⟩ | _ <;> cases h
      · apply Performs.ended
      · apply Performs.ended
      · apply Performs.message
      · apply Performs.message
  | isConnected =>
      cases h
      exact .isConnected rfl
  | _ =>
      cases h
      constructor

section Frames

variable (shared : GrpcShared) (n : Nat) (channel : Channel)

@[simp] theorem setChannel_permits :
    (shared.setChannel n channel).permits = shared.permits := rfl

@[simp] theorem setChannel_outboundTx :
    (shared.setChannel n channel).outboundTx = shared.outboundTx := rfl

@[simp] theorem setChannel_inboundStream :
    (shared.setChannel n channel).inboundStream = shared.inboundStream := rfl

@[simp] theorem setChannel_backoff :
    (shared.setChannel n channel).backoff = shared.backoff := rfl

@[simp] theorem setChannel_delivered :
    (shared.setChannel n channel).delivered = shared.delivered := rfl

@[simp] theorem endStream_permits : shared.endStream.permits = shared.permits := by
  unfold GrpcShared.endStream
  split <;> simp

@[simp] theorem endStream_outboundTx : shared.endStream.outboundTx = shared.outboundTx := by
  unfold GrpcShared.endStream
  split <;> simp

@[simp] theorem endStream_inboundStream :
    shared.endStream.inboundStream = shared.inboundStream := by
  unfold GrpcShared.endStream
  split <;> simp

@[simp] theorem endStream_backoff : shared.endStream.backoff = shared.backoff := by
  unfold GrpcShared.endStream
  split <;> simp

@[simp] theorem endStream_delivered : shared.endStream.delivered = shared.delivered := by
  unfold GrpcShared.endStream
  split <;> simp

end Frames

/-- What the environment does: it takes a message from a channel, or the channel. -/
inductive Affects (shared : GrpcShared) : GrpcEnv → GrpcShared → Prop
  | deliver {n : Nat} {msg : AgentMessage} {rest : List AgentMessage} {receiver : Receiver}
      (hchannel : shared.channels n = ⟨msg :: rest, receiver⟩) :
      Affects shared (.deliver n) { shared.setChannel n ⟨rest, receiver⟩ with
        delivered := shared.delivered ++ [msg] }
  | hangUp (n : Nat) : Affects shared (.hangUp n) (shared.setChannel n ⟨[], .dropped⟩)

theorem affects_of_environment {shared next : GrpcShared} {event : GrpcEnv}
    (h : shared.environment event = some next) : Affects shared event next := by
  cases event with
  | deliver n =>
      simp only [GrpcShared.environment] at h
      split at h
      next hchannel =>
          cases h
          exact .deliver hchannel
      next => cases h
  | hangUp n =>
      cases h
      exact .hangUp n

theorem Affects.frame {shared next : GrpcShared} {event : GrpcEnv}
    (h : Affects shared event next) :
    next.permits = shared.permits ∧ next.outboundTx = shared.outboundTx ∧
      next.inboundStream = shared.inboundStream := by
  cases h <;> simp

/-! ## Stages -/

/-- Where a future is with respect to the mutex. -/
inductive MutexStage where
  | outside
  | inside
  /-- Inside, after it has found the connection absent. -/
  | unconnected
  deriving DecidableEq, Repr

def MutexStage.held : MutexStage → Bool
  | .outside => false
  | _ => true

def guarding : Monitor GrpcSig MutexStage
  | .outside, ⟨.lock, .dropped⟩ => some .outside
  | .outside, ⟨.lock, .ready _⟩ => some .inside
  | .outside, ⟨.send _ _, _⟩ => some .outside
  | .outside, ⟨.sleep _, _⟩ => some .outside
  | .inside, ⟨.isConnected, connected⟩ => some (if connected then .inside else .unconnected)
  | .inside, ⟨.message, _⟩ => some .inside
  | .inside, ⟨.disconnect, _⟩ => some .inside
  | .inside, ⟨.outboundTx, _⟩ => some .inside
  | .inside, ⟨.unlock, _⟩ => some .outside
  | .unconnected, ⟨.connect _, _⟩ => some .unconnected
  | .unconnected, ⟨.channel, _⟩ => some .unconnected
  | .unconnected, ⟨.send _ (.hello _), _⟩ => some .unconnected
  | .unconnected, ⟨.taskStream _, _⟩ => some .unconnected
  | .unconnected, ⟨.dropChannel _, _⟩ => some .unconnected
  | .unconnected, ⟨.backOff, _⟩ => some .unconnected
  | .unconnected, ⟨.install _, _⟩ => some .inside
  | .unconnected, ⟨.unlock, _⟩ => some .outside
  | _, _ => none

/-- The calls that set up a connection. -/
def GrpcOp.setsUp : GrpcOp → Bool
  | .channel => true
  | .dropChannel _ => true
  | .install _ => true
  | _ => false

theorem unconnected_of_setsUp {q q' : MutexStage} {op : GrpcOp} {ans : op.Ans}
    (h : guarding q ⟨op, ans⟩ = some q') (hop : op.setsUp = true) : q = .unconnected := by
  cases op with
  | channel => cases q <;> first | rfl | cases h
  | dropChannel n => cases q <;> first | rfl | cases h
  | install n => cases q <;> first | rfl | cases h
  | _ => cases hop

section Programs

variable (t : GrpcTransport)

theorem connect_guarding :
    t.connect.Ensures (fun _ => True) guarding (fun _ q => q = .unconnected)
      .unconnected := by
  have hdrop (n : Nat) (outcome : Awaited (Except Error Nat)) :
      (grpc (.dropChannel n) >>= fun _ => pure outcome).Ensures (fun _ => True) guarding
        (fun _ q => q = .unconnected) .unconnected :=
    fun _ _ => ⟨_, rfl, rfl⟩
  rintro (⟨e | _⟩ | _) -
  · exact ⟨_, rfl, rfl⟩
  · refine ⟨_, rfl, fun n _ => ⟨_, rfl, ?_⟩⟩
    rintro (⟨e | _⟩ | _) -
    · exact ⟨_, rfl, hdrop n _⟩
    · refine ⟨_, rfl, ?_⟩
      rintro (⟨e | _⟩ | _) -
      · exact ⟨_, rfl, hdrop n _⟩
      · exact ⟨_, rfl, rfl⟩
      · exact ⟨_, rfl, hdrop n _⟩
    · exact ⟨_, rfl, hdrop n _⟩
  · exact ⟨_, rfl, rfl⟩

theorem readStream_guarding :
    t.readStream.Ensures (fun _ => True) guarding (fun _ q => q = .outside) .inside := by
  rintro (⟨e | _ | msg⟩ | _) -
  · exact ⟨_, rfl, fun _ _ => ⟨_, rfl, fun _ _ => ⟨_, rfl, rfl⟩⟩⟩
  · exact ⟨_, rfl, fun _ _ => ⟨_, rfl, fun _ _ => ⟨_, rfl, rfl⟩⟩⟩
  · exact ⟨_, rfl, fun _ _ => ⟨_, rfl, rfl⟩⟩
  · exact ⟨_, rfl, fun _ _ => ⟨_, rfl, rfl⟩⟩

theorem recvTasks_guarding :
    t.recvTasks.Ensures (fun _ => True) guarding (fun _ q => q = .outside) .outside := by
  rintro (_ | _) -
  · refine ⟨_, rfl, fun connected _ => ⟨_, rfl, ?_⟩⟩
    cases connected with
    | true => exact readStream_guarding t
    | false =>
        refine (connect_guarding t).andThen fun outcome => ?_
        rcases outcome with ⟨e | n⟩ | _
        · intro backoff _
          refine ⟨_, rfl, fun _ _ => ⟨_, rfl, ?_⟩⟩
          rintro (_ | _) - <;> exact ⟨_, rfl, rfl⟩
        · exact fun _ _ => ⟨_, rfl, readStream_guarding t⟩
        · exact fun _ _ => ⟨_, rfl, rfl⟩
  · exact ⟨_, rfl, rfl⟩

theorem sendResult_guarding (result : TaskResult) :
    (GrpcTransport.sendResult result).Ensures (fun _ => True) guarding
      (fun _ q => q = .outside) .outside := by
  rintro (_ | _) -
  · refine ⟨_, rfl, fun tx _ => ⟨_, rfl, fun _ _ => ⟨_, rfl, ?_⟩⟩⟩
    cases tx with
    | none => rfl
    | some n => rintro (⟨e | _⟩ | _) - <;> exact ⟨_, rfl, rfl⟩
  · exact ⟨_, rfl, rfl⟩

theorem program_guarding (job : GrpcJob) :
    (t.system.program job).Ensures (fun _ => True) guarding (fun _ q => q = .outside)
      .outside := by
  cases job with
  | recv => exact (recvTasks_guarding t).andThen fun _ => rfl
  | send result => exact (sendResult_guarding result).andThen fun _ => rfl

end Programs

/-! ## One call -/

section Step

variable {shared next : GrpcShared} {event : Event GrpcSig} {q q' : MutexStage}

/-- The permit of the mutex is with the futures inside or in the mutex. -/
theorem Performs.permits (h : Performs shared event next)
    (hguard : guarding q event = some q') :
    q'.held.toNat + next.permits = q.held.toNat + shared.permits := by
  cases h with
  | lock hpermits =>
      cases q <;> simp [guarding] at hguard
      simp [← hguard, MutexStage.held, hpermits]
      omega
  | isConnected hconnected =>
      cases q <;> simp [guarding] at hguard
      subst hguard
      split <;> simp [MutexStage.held]
  | unsent hans =>
      rename_i msg _
      cases q <;> cases msg <;> simp [guarding] at hguard <;> simp [← hguard, MutexStage.held]
  | send n msg =>
      cases q <;> cases msg <;> simp [guarding] at hguard <;> simp [← hguard, MutexStage.held]
  | unlock =>
      cases q <;> simp [guarding] at hguard <;> simp [← hguard, MutexStage.held] <;> omega
  | _ =>
      cases q <;> simp [guarding] at hguard
      simp [← hguard, MutexStage.held]

/-- Both halves of the connection are there, or neither. -/
theorem Performs.paired (h : Performs shared event next)
    (hpaired : shared.inboundStream = shared.outboundTx) :
    next.inboundStream = next.outboundTx := by
  cases h <;> simp [hpaired]

/-- Only a call that sets up a connection makes one. -/
theorem Performs.absent (h : Performs shared event next) (hop : event.1.setsUp = false)
    (habsent : shared.outboundTx = none) : next.outboundTx = none := by
  cases h with
  | install n => simp [GrpcOp.setsUp] at hop
  | _ => simp [habsent]

/-- A future gets to the stage `unconnected`, or stays there, without a connection. -/
theorem Performs.unconnected (h : Performs shared event next)
    (hguard : guarding q event = some .unconnected)
    (hpaired : shared.inboundStream = shared.outboundTx)
    (habsent : q = .unconnected → shared.outboundTx = none) : next.outboundTx = none := by
  cases h with
  | isConnected hconnected =>
      cases q <;> simp [guarding] at hguard
      simpa [hpaired, hguard] using hconnected
  | install n => cases q <;> simp [guarding] at hguard
  | unsent hans =>
      rename_i msg _
      cases q <;> cases msg <;> simp [guarding] at hguard
      simp [habsent]
  | _ => cases q <;> simp [guarding] at hguard <;> simp [habsent]

end Step

/-! ## Runs -/

section Runs

variable {t : GrpcTransport} {pool next : Pool t.system}

abbrev firstStage : GrpcJob → MutexStage := fun _ => .outside

abbrev guards (pool : Pool t.system) : Nat := pool.holders guarding firstStage MutexStage.held

/-- At most one future is in the mutex, and what it has seen there still holds. -/
structure Exclusive (pool : Pool t.system) : Prop where
  mutex : guards pool + pool.shared.permits = 1
  paired : pool.shared.inboundStream = pool.shared.outboundTx
  absent : ∀ i, pool.stage guarding firstStage i = some .unconnected →
    pool.shared.outboundTx = none

theorem holder_of_unconnected {i : Nat}
    (h : pool.stage guarding firstStage i = some .unconnected) :
    pool.holder guarding firstStage MutexStage.held i = true := by
  simp [Pool.holder, h, MutexStage.held]

theorem Exclusive.launch (h : Exclusive pool) (hprojects : pool.Projects) (job : GrpcJob) :
    Exclusive (pool.launch job) where
  mutex := by
    have hguards : guards (pool.launch job) = guards pool :=
      Pool.holders_launch hprojects rfl
    rw [hguards]
    exact h.mutex
  paired := h.paired
  absent i hi := by
    rw [Pool.stage_launch _ _ hprojects, Function.update_apply] at hi
    split at hi
    · simp at hi
    · exact h.absent i hi

theorem Exclusive.env (h : Exclusive pool) {event : GrpcEnv} {shared : GrpcShared}
    (haffects : Affects pool.shared event shared) : Exclusive { pool with shared } := by
  obtain ⟨hpermits, htx, hstream⟩ := haffects.frame
  refine ⟨?_, by simp [htx, hstream, h.paired], fun i hi => ?_⟩
  · change guards pool + shared.permits = 1
    rw [hpermits]
    exact h.mutex
  · simp [htx, h.absent i hi]

section Fire

variable {i : Nat} {job : GrpcJob} {old rest : Prog GrpcSig Unit} {event : Event GrpcSig}
  {shared : GrpcShared} {q q' : MutexStage}

theorem Exclusive.absent_at (h : Exclusive pool)
    (hq : pool.stage guarding firstStage i = some q) (hstage : q = .unconnected) :
    pool.shared.outboundTx = none := by
  apply h.absent i
  rw [hq, hstage]

theorem Exclusive.fire (h : Exclusive pool) (hprojects : pool.Projects)
    (hfuture : pool.futures[i]? = some ⟨job, old⟩)
    (hq : pool.stage guarding firstStage i = some q) (hq' : guarding q event = some q')
    (hperforms : Performs pool.shared event shared) :
    Exclusive (pool.advance i job event rest shared) where
  mutex := by
    have hguards : guards (pool.advance i job event rest shared) + q.held.toNat =
        guards pool + q'.held.toNat :=
      Pool.holders_advance hprojects hfuture hq hq' fun _ _ => rfl
    have hpermits := hperforms.permits hq'
    have hmutex := h.mutex
    change guards (pool.advance i job event rest shared) + shared.permits = 1
    omega
  paired := hperforms.paired h.paired
  absent j hj := by
    rw [Pool.stage_advance_single guarding firstStage hprojects hfuture hq hq' rfl,
      Function.update_apply] at hj
    split at hj
    next heq =>
        cases hj
        exact hperforms.unconnected hq' h.paired (h.absent_at hq)
    next hne =>
        -- a second future inside the mutex cannot set up a connection
        apply hperforms.absent _ (h.absent j hj)
        by_contra hop
        have hsetsUp : event.1.setsUp = true := by simpa using hop
        have hi : pool.stage guarding firstStage i = some .unconnected :=
          unconnected_of_setsUp hq' hsetsUp ▸ hq
        have hone : guards pool ≤ 1 := by
          have hmutex := h.mutex
          omega
        apply hne
        exact Pool.holder_unique hone (holder_of_unconnected hj) (holder_of_unconnected hi)

end Fire

theorem exclusive_step {π : Policy t.system} (step : Step π pool next)
    (hprojects : pool.Projects) (h : Exclusive pool) : Exclusive next := by
  cases step with
  | start hexternal allowed => exact h.launch hprojects _
  | env henv allowed => exact h.env (affects_of_environment henv)
  | @fire i job op cont proposal ans shared hfuture hperform allowed =>
      obtain ⟨q, q', hq, hq'⟩ := hprojects.accepts (program_guarding t) hfuture ans
      exact h.fire hprojects hfuture hq hq' (performs_of_perform hperform)

theorem exclusive_initial : Exclusive (Pool.initial .initial : Pool t.system) where
  mutex := rfl
  paired := rfl
  absent _ _ := rfl

end Runs

end VasalAgent.Transport
