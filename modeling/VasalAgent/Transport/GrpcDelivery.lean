import VasalAgent.Transport.GrpcMutex

/-!
# Delivery of results over gRPC

A result counts as reported once it is in the outbound channel.  It stays
accounted for, delivered or queued on the channel that is connected, as long as
no connection is given up with a result queued and no result goes to a channel
that was given up (`lossless`).  The transport itself ensures neither.
-/

namespace VasalAgent.Transport

open VasalAgent.Async
open VasalAgent.Protocol
open VasalAgent.Task (Error)

/-! ## Results -/

def AgentMessage.result? : AgentMessage → Option TaskResult
  | .taskResult result => some result
  | .hello _ => none

def results (messages : List AgentMessage) : List TaskResult :=
  messages.filterMap AgentMessage.result?

/-- The result that a send has put into a channel. -/
def acceptedResult? : Event GrpcSig → Option TaskResult
  | ⟨.send _ msg, .ready (.ok _)⟩ => msg.result?
  | _ => none

def accepted (events : List (Event GrpcSig)) : List TaskResult :=
  events.filterMap acceptedResult?

namespace GrpcShared

variable (shared : GrpcShared)

def queued (n : Nat) : List TaskResult := results (shared.channels n).queue

/-- The results on the channel that is connected. -/
def outbound : List TaskResult := shared.outboundTx.elim [] shared.queued

/--
No connection is given up while a result is queued on it, and a result is put
only into the channel that is connected.
-/
def Lossless : Event GrpcSig → Prop
  | ⟨.disconnect, _⟩ => shared.outbound = []
  | ⟨.send n (.taskResult _), .ready (.ok _)⟩ => shared.outboundTx = some n
  | _ => True

/-- A channel goes only when no result is queued on it. -/
def LosslessEnv : GrpcEnv → Prop
  | .deliver _ => True
  | .hangUp n => shared.queued n = []

end GrpcShared

def GrpcTransport.lossless (t : GrpcTransport) : Policy t.system where
  start _ _ := True
  fire pool _ event := pool.shared.Lossless event
  env pool event := pool.shared.LosslessEnv event

/-! ## Accounting -/

/-- Every accepted result is delivered or on the channel that is connected. -/
structure Accounted (shared : GrpcShared) (reported : List TaskResult) : Prop where
  stray : ∀ n, shared.outboundTx ≠ some n → shared.queued n = []
  balanced : reported.Perm (results shared.delivered ++ shared.outbound)

section Step

variable {shared next : GrpcShared} {reported reported' : List TaskResult} {n : Nat}

theorem results_append (first second : List AgentMessage) :
    results (first ++ second) = results first ++ results second :=
  List.filterMap_append

theorem results_singleton (msg : AgentMessage) : results [msg] = msg.result?.toList := by
  cases msg <;> rfl

theorem queued_setChannel (channel : Channel) (m : Nat) :
    (shared.setChannel n channel).queued m =
      if m = n then results channel.queue else shared.queued m := by
  simp only [GrpcShared.queued, GrpcShared.setChannel, Function.update_apply]
  split <;> rfl

theorem queued_setChannel_same {channel : Channel}
    (h : results channel.queue = shared.queued n) :
    (shared.setChannel n channel).queued = shared.queued := by
  funext m
  rw [queued_setChannel]
  split
  next heq => rw [h, heq]
  next => rfl

theorem queued_endStream : shared.endStream.queued = shared.queued := by
  unfold GrpcShared.endStream
  split
  · rfl
  · exact queued_setChannel_same rfl

theorem outbound_of_connected (htx : shared.outboundTx = some n) :
    shared.outbound = shared.queued n := by
  simp [GrpcShared.outbound, htx]

theorem outbound_of_absent (htx : shared.outboundTx = none) : shared.outbound = [] := by
  simp [GrpcShared.outbound, htx]

theorem accounted_initial : Accounted .initial [] where
  stray _ _ := rfl
  balanced := .nil

theorem Accounted.queued_of_absent (h : Accounted shared reported)
    (habsent : shared.outboundTx = none) (n : Nat) : shared.queued n = [] := by
  apply h.stray
  simp [habsent]

/-- No result moves. -/
theorem Accounted.congr (h : Accounted shared reported)
    (htx : next.outboundTx = shared.outboundTx) (hqueued : next.queued = shared.queued)
    (hdelivered : results next.delivered = results shared.delivered) :
    Accounted next reported where
  stray := by
    rw [htx, hqueued]
    exact h.stray
  balanced := by
    rw [hdelivered, GrpcShared.outbound, htx, hqueued]
    exact h.balanced

/-- Only the queue of the connected channel and what is delivered change. -/
theorem Accounted.exchange (h : Accounted shared reported)
    (hconnected : shared.outboundTx = some n) (htx : next.outboundTx = shared.outboundTx)
    (hqueued : ∀ m, m ≠ n → next.queued m = shared.queued m)
    (hbalanced : reported'.Perm (results next.delivered ++ next.queued n)) :
    Accounted next reported' where
  stray m hm := by
    rw [htx] at hm
    have hmn : m ≠ n := by
      rintro rfl
      exact hm hconnected
    rw [hqueued m hmn]
    exact h.stray m hm
  balanced := by
    rw [outbound_of_connected (htx.trans hconnected)]
    exact hbalanced

/-- A connection without results is given up. -/
theorem Accounted.disconnect (h : Accounted shared reported) (hnone : shared.outbound = []) :
    Accounted { shared with outboundTx := none, inboundStream := none } reported where
  stray m _ := by
    by_cases hm : shared.outboundTx = some m
    · exact (outbound_of_connected hm).symm.trans hnone
    · exact h.stray m hm
  balanced := by
    have hbalanced := h.balanced
    rw [hnone] at hbalanced
    exact hbalanced

/-- Without a connection no channel has a result, the one that is installed included. -/
theorem Accounted.install (h : Accounted shared reported)
    (habsent : shared.outboundTx = none) (backoff : Nat) :
    Accounted { shared with outboundTx := some n, inboundStream := some n, backoff }
      reported where
  stray m _ := h.queued_of_absent habsent m
  balanced := by
    have houtbound : shared.outbound = shared.queued n := by
      rw [h.queued_of_absent habsent n, outbound_of_absent habsent]
    have hbalanced := h.balanced
    rw [houtbound] at hbalanced
    exact hbalanced

/-- A message is put into a channel, a result only into the one that is connected. -/
theorem Accounted.enqueue (h : Accounted shared reported) {msg : AgentMessage}
    (hresult : ∀ result, msg = .taskResult result → shared.outboundTx = some n)
    (receiver : Receiver) :
    Accounted (shared.setChannel n ⟨(shared.channels n).queue ++ [msg], receiver⟩)
      (reported ++ results [msg]) := by
  have hnew : results ((shared.channels n).queue ++ [msg]) =
      shared.queued n ++ results [msg] :=
    results_append _ _
  cases msg with
  | hello hello =>
      have hnone : results [.hello hello] = [] := rfl
      rw [hnone, List.append_nil] at hnew ⊢
      exact h.congr rfl (queued_setChannel_same hnew) rfl
  | taskResult result =>
      have htx := hresult result rfl
      have hbalanced := h.balanced.append_right (results [.taskResult result])
      rw [outbound_of_connected htx, List.append_assoc] at hbalanced
      apply h.exchange htx (setChannel_outboundTx _ _ _)
      · intro m hm
        rw [queued_setChannel, if_neg hm]
      · rw [queued_setChannel, if_pos rfl, hnew, setChannel_delivered]
        exact hbalanced

/-- The stream of a channel takes its first message. -/
theorem Accounted.deliver (h : Accounted shared reported) {msg : AgentMessage}
    {rest : List AgentMessage} (hqueue : (shared.channels n).queue = msg :: rest)
    (htx : next.outboundTx = shared.outboundTx)
    (hqueued : ∀ m, next.queued m = if m = n then results rest else shared.queued m)
    (hdelivered : next.delivered = shared.delivered ++ [msg]) : Accounted next reported := by
  have hcons : shared.queued n = results [msg] ++ results rest := by
    rw [GrpcShared.queued, hqueue, ← results_append, List.singleton_append]
  by_cases hconnected : shared.outboundTx = some n
  · have hbalanced := h.balanced
    rw [outbound_of_connected hconnected, hcons, ← List.append_assoc] at hbalanced
    apply h.exchange hconnected htx
    · intro m hm
      rw [hqueued, if_neg hm]
    · rw [hqueued, if_pos rfl, hdelivered, results_append]
      exact hbalanced
  · -- a channel that is not connected has no result to deliver
    have hstray := h.stray n hconnected
    have hnone : results [msg] = [] ∧ results rest = [] := by
      simpa [hcons] using hstray
    apply h.congr htx
    · funext m
      rw [hqueued]
      split
      next heq => rw [heq, hnone.2, hstray]
      next => rfl
    · simp [hdelivered, results_append, hnone.1]

theorem Accounted.env {event : GrpcEnv} (h : Accounted shared reported)
    (hallowed : shared.LosslessEnv event) (haffects : Affects shared event next) :
    Accounted next reported := by
  cases haffects with
  | deliver hchannel =>
      exact h.deliver (by rw [hchannel]) rfl (queued_setChannel _) rfl
  | hangUp n => exact h.congr rfl (queued_setChannel_same hallowed.symm) rfl

theorem Accounted.silent {event : Event GrpcSig} (h : Accounted next reported)
    (hnone : acceptedResult? event = none) :
    Accounted next (reported ++ (acceptedResult? event).toList) := by
  simpa [hnone] using h

/-- One call, made where the mutex allows it. -/
theorem Accounted.fire {event : Event GrpcSig} {q q' : MutexStage}
    (h : Accounted shared reported) (hguard : guarding q event = some q')
    (habsent : q = .unconnected → shared.outboundTx = none)
    (hallowed : shared.Lossless event) (hperforms : Performs shared event next) :
    Accounted next (reported ++ (acceptedResult? event).toList) := by
  cases hperforms with
  | channel =>
      have hempty := h.queued_of_absent (habsent (unconnected_of_setsUp hguard rfl))
      apply Accounted.silent _ rfl
      exact h.congr rfl (queued_setChannel_same (hempty _).symm) rfl
  | dropChannel n =>
      have hempty := h.queued_of_absent (habsent (unconnected_of_setsUp hguard rfl))
      apply Accounted.silent _ rfl
      exact h.congr rfl (queued_setChannel_same (hempty n).symm) rfl
  | install n =>
      apply Accounted.silent _ rfl
      exact h.install (habsent (unconnected_of_setsUp hguard rfl)) _
  | send n msg =>
      have hresult : ∀ result, msg = .taskResult result → shared.outboundTx = some n := by
        rintro result rfl
        exact hallowed
      have hnext := h.enqueue hresult (shared.channels n).receiver
      rw [results_singleton] at hnext
      exact hnext
  | unsent hans =>
      apply h.silent
      rename_i ans
      rcases ans with ⟨e | _⟩ | _
      · rfl
      · exact absurd rfl hans
      · rfl
  | disconnect => exact (h.disconnect hallowed).silent rfl
  | ended ans =>
      apply Accounted.silent _ rfl
      apply h.congr <;> simp [queued_endStream]
  | _ =>
      apply Accounted.silent _ rfl
      exact h.congr rfl rfl rfl

end Step

/-! ## Runs -/

section Runs

variable {t : GrpcTransport} {pool next : Pool t.system}

theorem accepted_concat (log : List (Nat × Event GrpcSig)) (i : Nat) (event : Event GrpcSig) :
    accepted ((log ++ [(i, event)]).map Prod.snd) =
      accepted (log.map Prod.snd) ++ (acceptedResult? event).toList := by
  cases h : acceptedResult? event <;> simp [accepted, h]

theorem accounted_step (step : Step t.lossless pool next) (hprojects : pool.Projects)
    (hexclusive : Exclusive pool)
    (h : Accounted pool.shared (accepted (pool.log.map Prod.snd))) :
    Accounted next.shared (accepted (next.log.map Prod.snd)) := by
  cases step with
  | start hexternal allowed => exact h
  | env henv allowed => exact h.env allowed (affects_of_environment henv)
  | @fire i job op cont proposal ans shared hfuture hperform allowed =>
      obtain ⟨q, q', hq, hq'⟩ := hprojects.accepts (program_guarding t) hfuture ans
      have hfire := h.fire hq' (hexclusive.absent_at hq) allowed (performs_of_perform hperform)
      rw [← accepted_concat pool.log i] at hfire
      exact hfire

theorem accounted_of_run (run : Run t.lossless (Pool.initial .initial) pool) :
    Accounted pool.shared (accepted (pool.log.map Prod.snd)) := by
  have hall := run.invariant_of_projects
    (I := fun pool => Exclusive pool ∧
      Accounted pool.shared (accepted (pool.log.map Prod.snd)))
    (Pool.initial_projects _) ⟨exclusive_initial, accounted_initial⟩ fun step hprojects h =>
      ⟨exclusive_step step hprojects h.1, accounted_step step hprojects h.1 h.2⟩
  exact hall.2.2

end Runs

/-! ## The law -/

section Law

variable {t : GrpcTransport} {pool : Pool t.system}

/-- `send_result`, as future `i` has run it, has returned `Ok`. -/
def ReturnedOk (pool : Pool t.system) (i : Nat) (result : TaskResult) : Prop :=
  Prog.Steps (GrpcTransport.sendResult result) (pool.history i) (.ret (.ready (.ok ())))

/--
The results for which `send_result` returned `Ok`, counted by call, are those that
the control plane has got and those on the channel that is connected.
-/
structure ResultsKept (pool : Pool t.system) : Prop where
  kept : (accepted (pool.log.map Prod.snd)).Perm
    (results (pool.shared.delivered) ++ pool.shared.outbound)
  reported : ∀ {i result rest}, pool.futures[i]? = some ⟨.send result, rest⟩ →
    (ReturnedOk pool i result ∧ accepted (pool.history i) = [result]) ∨
      (¬ ReturnedOk pool i result ∧ accepted (pool.history i) = [])
  received : ∀ {i rest}, pool.futures[i]? = some ⟨.recv, rest⟩ →
    accepted (pool.history i) = []

/-- A call of `send_result` puts its result into a channel and then returns `Ok`. -/
theorem accepted_sendResult {result : TaskResult} {events : List (Event GrpcSig)}
    {rest : Prog GrpcSig (Awaited (Except Error Unit))}
    (h : Prog.Steps (GrpcTransport.sendResult result) events rest) :
    (accepted events = [] ∧ rest ≠ .ret (.ready (.ok ()))) ∨
      (accepted events = [result] ∧ rest = .ret (.ready (.ok ()))) := by
  cases h with
  | refl => exact .inl ⟨rfl, nofun⟩
  | @call _ _ locked _ _ h =>
      cases locked with
      | dropped =>
          cases h
          exact .inl ⟨rfl, nofun⟩
      | ready _ =>
          cases h with
          | refl => exact .inl ⟨rfl, nofun⟩
          | @call _ _ tx _ _ h =>
              cases h with
              | refl => exact .inl ⟨rfl, nofun⟩
              | call h =>
                  cases tx with
                  | none =>
                      cases h
                      exact .inl ⟨rfl, nofun⟩
                  | some n =>
                      cases h with
                      | refl => exact .inl ⟨rfl, nofun⟩
                      | @call _ _ sent _ _ h =>
                          rcases sent with ⟨e | _⟩ | _
                          · cases h
                            exact .inl ⟨rfl, nofun⟩
                          · cases h
                            exact .inr ⟨rfl, rfl⟩
                          · cases h
                            exact .inl ⟨rfl, nofun⟩

/-- The calls that put no result into a channel. -/
def GrpcOp.sendsNoResult (op : GrpcOp) : Prop := ∀ ans, acceptedResult? ⟨op, ans⟩ = none

theorem uses_connect : t.connect.Uses GrpcOp.sendsNoResult := by
  have hdrop (n : Nat) (outcome : Awaited (Except Error Nat)) :
      (grpc (.dropChannel n) >>= fun _ => pure outcome).Uses GrpcOp.sendsNoResult :=
    ⟨fun _ => rfl, fun _ => trivial⟩
  refine ⟨fun _ => rfl, fun connected => ?_⟩
  rcases connected with ⟨e | _⟩ | _
  · trivial
  · refine ⟨fun _ => rfl, fun n => ⟨?_, fun sent => ?_⟩⟩
    · rintro (⟨e | _⟩ | _) <;> rfl
    · rcases sent with ⟨e | _⟩ | _
      · exact hdrop n _
      · refine ⟨fun _ => rfl, fun opened => ?_⟩
        rcases opened with ⟨e | _⟩ | _
        · exact hdrop n _
        · trivial
        · exact hdrop n _
      · exact hdrop n _
  · trivial

theorem uses_readStream : t.readStream.Uses GrpcOp.sendsNoResult := by
  refine ⟨fun _ => rfl, fun message => ?_⟩
  rcases message with ⟨e | _ | msg⟩ | _
  · exact ⟨fun _ => rfl, fun _ => ⟨fun _ => rfl, fun _ => trivial⟩⟩
  · exact ⟨fun _ => rfl, fun _ => ⟨fun _ => rfl, fun _ => trivial⟩⟩
  · exact ⟨fun _ => rfl, fun _ => trivial⟩
  · exact ⟨fun _ => rfl, fun _ => trivial⟩

theorem uses_recvTasks : t.recvTasks.Uses GrpcOp.sendsNoResult := by
  refine ⟨fun _ => rfl, fun locked => ?_⟩
  cases locked with
  | dropped => trivial
  | ready _ =>
      refine ⟨fun _ => rfl, fun connected => ?_⟩
      cases connected with
      | true => exact uses_readStream
      | false =>
          refine uses_connect.bind fun outcome => ?_
          rcases outcome with ⟨e | n⟩ | _
          · refine ⟨fun _ => rfl, fun _ => ⟨fun _ => rfl, fun _ => ⟨fun _ => rfl, ?_⟩⟩⟩
            rintro (_ | _) <;> trivial
          · exact ⟨fun _ => rfl, fun _ => uses_readStream⟩
          · exact ⟨fun _ => rfl, fun _ => trivial⟩

theorem reported_of_steps {result : TaskResult} {rest : Prog GrpcSig Unit} {i : Nat}
    (h : Prog.Steps (t.program (.send result)) (pool.history i) rest) :
    (ReturnedOk pool i result ∧ accepted (pool.history i) = [result]) ∨
      (¬ ReturnedOk pool i result ∧ accepted (pool.history i) = []) := by
  obtain ⟨p', hp⟩ := h.of_discard
  rcases accepted_sendResult hp with ⟨hnone, -⟩ | ⟨hsome, rfl⟩
  · right
    refine ⟨fun hreturned => ?_, hnone⟩
    rcases accepted_sendResult hreturned with ⟨-, hnot⟩ | ⟨hsome, -⟩
    · exact hnot rfl
    · simp [hnone] at hsome
  · left
    exact ⟨hp, hsome⟩

theorem accepted_recvTasks {rest : Prog GrpcSig Unit} {events : List (Event GrpcSig)}
    (h : Prog.Steps (t.program .recv) events rest) : accepted events = [] := by
  obtain ⟨p', hp⟩ := h.of_discard
  rw [accepted, List.filterMap_eq_nil_iff]
  rintro ⟨op, ans⟩ hevent
  exact uses_recvTasks.steps hp _ hevent ans

theorem resultsKept_of_lossless (run : Run t.lossless (Pool.initial .initial) pool) :
    ResultsKept pool where
  kept := (accounted_of_run run).balanced
  reported hfuture := reported_of_steps (run.projects.steps _ _ hfuture)
  received hfuture := accepted_recvTasks (run.projects.steps _ _ hfuture)

end Law

/-! ## A stream that breaks -/

section Sample

def sampleGrpc : GrpcTransport where
  endpoint := "http://cp"
  agentId := "agent"
  agentVersion := "1"
  codec := ⟨fun _ => .error "", fun _ => .error ""⟩

def sampleResult : TaskResult where
  taskId := ⟨1⟩
  chainId := none
  stepIndex := none
  status := .success
  exitCode := some 0
  stdout := ""
  stderr := ""
  durationMs := 0
  timestamp := 0
  error := none

/-- The control plane takes every call, and `message` comes over the stream. -/
def answering (message : GrpcOp.message.Ans) : (op : GrpcOp) → op.Ans
  | .connect _ | .send .. | .taskStream _ => .ready (.ok ())
  | .message => message
  | _ => default

abbrev grpcStart : Pool sampleGrpc.system := Pool.initial .initial

def acknowledged : GrpcOp.message.Ans := .ready (.ok (some ⟨some (.ack ⟨true, ""⟩)⟩))

/-- `recv_tasks` connects and reads a message; `send_result` enqueues a result. -/
def sentOnce : List (Label sampleGrpc.system) :=
  .start .recv :: (List.replicate 9 (.fire 0 (answering acknowledged)) ++
    .start (.send sampleResult) :: List.replicate 4 (.fire 1 (answering acknowledged)))

/-- The stream breaks before it has taken anything. -/
def brokenStream : List (Label sampleGrpc.system) :=
  .start .recv :: List.replicate 4 (.fire 2 (answering (.ready (.error "reset"))))

/-- The stream takes the hello and the result, and then ends. -/
def endedStream : List (Label sampleGrpc.system) :=
  .env (.deliver 0) :: .env (.deliver 0) :: .start .recv ::
    List.replicate 4 (.fire 2 (answering (.ready (.ok none))))

/-- `send_result` has returned `Ok` for a result that is nowhere any more. -/
theorem result_lost :
    ∃ pool, Run (Policy.free sampleGrpc.system) grpcStart pool ∧
      ReturnedOk pool 1 sampleResult ∧
      results pool.shared.delivered = [] ∧ pool.shared.outbound = [] ∧
      ¬ ResultsKept pool := by
  have run : Run (Policy.free sampleGrpc.system) grpcStart
      ((grpcStart.script (sentOnce ++ brokenStream)).get rfl) :=
    Pool.run_script_free _
  refine ⟨_, run, .call (.call (.call (.call (.refl _)))), rfl, rfl, fun h => ?_⟩
  have hlength := h.kept.length_eq
  cases hlength

theorem sentOnce_follows :
    Pool.Follows sampleGrpc.lossless grpcStart (sentOnce ++ endedStream) := by
  refine .cons trivial rfl ?_
  iterate 9 refine .cons (Pool.allows_performed rfl rfl trivial) rfl ?_
  refine .cons trivial rfl ?_
  iterate 3 refine .cons (Pool.allows_performed rfl rfl trivial) rfl ?_
  refine .cons (Pool.allows_performed rfl rfl rfl) rfl ?_
  iterate 3 refine .cons trivial rfl ?_
  iterate 3 refine .cons (Pool.allows_performed rfl rfl trivial) rfl ?_
  refine .cons (Pool.allows_performed rfl rfl rfl) rfl ?_
  trivial

theorem resultsKept_ended :
    ∃ pool, Run sampleGrpc.lossless grpcStart pool ∧ ReturnedOk pool 1 sampleResult ∧
      results pool.shared.delivered = [sampleResult] ∧ pool.shared.outboundTx = none ∧
      ResultsKept pool := by
  have run : Run sampleGrpc.lossless grpcStart
      ((grpcStart.script (sentOnce ++ endedStream)).get rfl) :=
    Pool.run_script sentOnce_follows
  exact ⟨_, run, .call (.call (.call (.call (.refl _)))), rfl, rfl,
    resultsKept_of_lossless run⟩

end Sample

end VasalAgent.Transport
