import Mathlib.Data.List.AList
import VasalAgent.Agent.Main
import VasalAgent.Async.Pool

/-!
# The agent as a pool of futures

The state that the futures share, what each call does to it, and what the world
around the agent may do between two calls.
-/

namespace VasalAgent.Agent

open VasalAgent.Async
open VasalAgent.Protocol
open VasalAgent.Task
open VasalAgent.Transport

structure ActiveTaskCounts where
  oneshot : Nat
  continuous : Nat
  total : Nat
  deriving DecidableEq, Repr

abbrev Registry := AList fun _ : Uuid => ActiveTask

def Registry.count (active : Registry) (kind : TaskKindTag) : Nat :=
  active.entries.countP fun entry => entry.2.kind = kind

/-- The counts are cast to `u32`. -/
def Registry.counts (active : Registry) : ActiveTaskCounts where
  oneshot := active.count .oneshot % 2 ^ 32
  continuous := active.count .continuous % 2 ^ 32
  total := (active.count .oneshot % 2 ^ 32 + active.count .continuous % 2 ^ 32) % 2 ^ 32

/-! ## The control plane's side -/

structure HttpResponse where
  status : HttpStatus
  body : String
  deriving DecidableEq, Repr

/--
One `recv_tasks` future: whether its request has reached the control plane, the
response produced for it, and whether the future was dropped.
-/
structure Exchange where
  reached : Bool
  response : Option HttpResponse
  dropped : Bool
  deriving DecidableEq, Repr

/-! ## Shared state -/

structure Shared where
  active : Registry
  nextToken : Nat
  /-- The cancelled task tokens. -/
  cancelled : List Nat
  shutdown : Bool
  permits : Nat
  counts : ActiveTaskCounts
  journal : List TaskResultRow
  channel : List TaskResult
  forwarded : List TaskResult
  /-- The `recv_tasks` future of the main `select!`. -/
  slot : Option (Prog HttpSig (Except Error (List ReceivedWork)))
  /-- The exchanges of all `recv_tasks` futures; the last is the slot's. -/
  exchanges : List Exchange

def channelCapacity : Nat := 256

namespace Shared

def initial (maxConcurrent : Nat) : Shared where
  active := ∅
  nextToken := 0
  cancelled := []
  shutdown := false
  permits := maxConcurrent
  counts := ⟨0, 0, 0⟩
  journal := []
  channel := []
  forwarded := []
  slot := none
  exchanges := []

def taskCancelled (s : Shared) (n : Nat) : Bool := s.cancelled.contains n

/-- Whether a root token is cancelled: the shutdown token or a task token. -/
def isCancelled (s : Shared) : Nat → Bool
  | 0 => s.shutdown
  | n + 1 => s.taskCancelled n

/-- The answer of an executor's call, where the state does not exclude it. -/
def execAnswer (s : Shared) : (op : ExecOp) → op.Ans → Option op.Ans
  | .isCancelled _ token, _ => some (token.isCancelled s.isCancelled)
  | .selectShell _ token _, .cancelled =>
      if token.isCancelled s.isCancelled then some .cancelled else none
  | .selectPoll _ _ token _, .cancelled =>
      if token.isCancelled s.isCancelled then some .cancelled else none
  | .selectTick _ token _ _, .cancelled =>
      if token.isCancelled s.isCancelled then some .cancelled else none
  | .selectTick _ _ shutdown _, .shutdown =>
      if shutdown.isCancelled s.isCancelled then some .shutdown else none
  | _, proposal => some proposal

def write (s : Shared) (row : TaskResultRow) : Except String Unit → Shared
  | .ok _ => { s with journal := s.journal ++ [row] }
  | .error _ => s

/-- What an executor's call writes to the state: the ticks in the journal. -/
def execEffect (s : Shared) : (op : ExecOp) → op.Ans → Shared
  | .recordTick _ row, ans => s.write row ans
  | _, _ => s

def cancelActive (s : Shared) (id : Uuid) : Option Nat × Shared :=
  match s.active.lookup id with
  | some entry =>
      (some entry.cancelToken,
        { s with cancelled := entry.cancelToken :: s.cancelled })
  | none => (none, s)

def receive (s : Shared) : Option TaskResult × Shared :=
  match s.channel with
  | [] => (none, s)
  | result :: rest => (some result, { s with channel := rest })

/-- A finished `recv_tasks` future gives its work, once. -/
def pollRecv (s : Shared) : Option (Except Error (List ReceivedWork)) × Shared :=
  match s.slot with
  | some (.ret work) => (some work, { s with slot := none })
  | _ => (none, s)

def modifyLast (s : Shared) (change : Exchange → Exchange) : Shared :=
  { s with exchanges := s.exchanges.modifyLast change }

def openRecv (s : Shared)
    (recv : Prog HttpSig (Except Error (List ReceivedWork))) : Shared :=
  { s with slot := some recv, exchanges := s.exchanges ++ [⟨false, none, false⟩] }

def dropRecv (s : Shared) : Shared :=
  { s.modifyLast fun exchange => { exchange with dropped := true } with slot := none }

end Shared

/-! ## Calls -/

structure AgentConfig where
  manager : TaskManager
  recvTasks : Prog HttpSig (Except Error (List ReceivedWork))
  /-- A bound on the rounds of the main loop. -/
  rounds : Nat

def perform (agent : AgentConfig) (s : Shared) :
    (op : AgentOp) → op.Ans → Option (op.Ans × Shared)
  | .exec op, proposal =>
      (s.execAnswer op proposal).map fun ans => (ans, s.execEffect op ans)
  | .submit _, _ => some ((), s)
  | .newToken, _ => some (s.nextToken, { s with nextToken := s.nextToken + 1 })
  | .insertActive id entry, _ =>
      some ((), { s with active := s.active.insert id entry })
  | .removeActive id, _ => some ((), { s with active := s.active.erase id })
  | .cancelActive id, _ => some (s.cancelActive id)
  | .updateCounts, _ => some ((), { s with counts := s.active.counts })
  | .spawn _, _ => some ((), s)
  | .acquire, _ =>
      if 0 < s.permits then some ((), { s with permits := s.permits - 1 }) else none
  | .release, _ => some ((), { s with permits := s.permits + 1 })
  | .recordTaskResult row, proposal => some (proposal, s.write row proposal)
  | .sendResult result, _ =>
      if s.channel.length < channelCapacity then
        some ((), { s with channel := s.channel ++ [result] })
      else none
  | .openRecv, _ => some ((), s.openRecv agent.recvTasks)
  | .pollShutdown, _ => some (s.shutdown, s)
  | .pollResult, _ => some s.receive
  | .pollRecv, _ => some s.pollRecv
  | .dropRecv, _ => some ((), s.dropRecv)
  | .tryRecv, _ => some s.receive
  | .forward result, proposal =>
      some (proposal, { s with forwarded := s.forwarded ++ [result] })
  | .joinBackground, _ => some ((), s)

/-! ### Effects -/

/-- What a call that has completed did to the state. -/
inductive Performs (agent : AgentConfig) (s : Shared) : Event AgentSig → Shared → Prop
  | exec (op : ExecOp) (ans : op.Ans) : Performs agent s ⟨.exec op, ans⟩ (s.execEffect op ans)
  | submit (work : ReceivedWork) : Performs agent s ⟨.submit work, ()⟩ s
  | spawn (body : Body) : Performs agent s ⟨.spawn body, ()⟩ s
  | pollShutdown : Performs agent s ⟨.pollShutdown, s.shutdown⟩ s
  | joinBackground : Performs agent s ⟨.joinBackground, ()⟩ s
  | newToken :
      Performs agent s ⟨.newToken, s.nextToken⟩ { s with nextToken := s.nextToken + 1 }
  | insertActive (id : Uuid) (entry : ActiveTask) :
      Performs agent s ⟨.insertActive id entry, ()⟩ { s with active := s.active.insert id entry }
  | removeActive (id : Uuid) :
      Performs agent s ⟨.removeActive id, ()⟩ { s with active := s.active.erase id }
  | cancelActive (id : Uuid) (token : Nat) :
      Performs agent s ⟨.cancelActive id, some token⟩ { s with cancelled := token :: s.cancelled }
  | cancelUnknown (id : Uuid) : Performs agent s ⟨.cancelActive id, none⟩ s
  | updateCounts : Performs agent s ⟨.updateCounts, ()⟩ { s with counts := s.active.counts }
  | acquire (h : 0 < s.permits) :
      Performs agent s ⟨.acquire, ()⟩ { s with permits := s.permits - 1 }
  | release : Performs agent s ⟨.release, ()⟩ { s with permits := s.permits + 1 }
  | record (row : TaskResultRow) (written : Except String Unit) :
      Performs agent s ⟨.recordTaskResult row, written⟩ (s.write row written)
  | send (result : TaskResult) :
      Performs agent s ⟨.sendResult result, ()⟩ { s with channel := s.channel ++ [result] }
  | openRecv : Performs agent s ⟨.openRecv, ()⟩ (s.openRecv agent.recvTasks)
  | dropRecv : Performs agent s ⟨.dropRecv, ()⟩ s.dropRecv
  | pollResult {result : TaskResult} {rest : List TaskResult} (h : s.channel = result :: rest) :
      Performs agent s ⟨.pollResult, some result⟩ { s with channel := rest }
  | pollNothing : Performs agent s ⟨.pollResult, none⟩ s
  | tryRecv {result : TaskResult} {rest : List TaskResult} (h : s.channel = result :: rest) :
      Performs agent s ⟨.tryRecv, some result⟩ { s with channel := rest }
  | tryNothing : Performs agent s ⟨.tryRecv, none⟩ s
  | receive {work : Except Error (List ReceivedWork)} (h : s.slot = some (.ret work)) :
      Performs agent s ⟨.pollRecv, some work⟩ { s with slot := none }
  | unready : Performs agent s ⟨.pollRecv, none⟩ s
  | forward (result : TaskResult) (sent : Except Error Unit) :
      Performs agent s ⟨.forward result, sent⟩ { s with forwarded := s.forwarded ++ [result] }

theorem performs_of_perform {agent : AgentConfig} {s s' : Shared} {op : AgentOp}
    {proposal ans : op.Ans} (h : perform agent s op proposal = some (ans, s')) :
    Performs agent s ⟨op, ans⟩ s' := by
  cases op with
  | exec op =>
      obtain ⟨_, _, heq⟩ := Option.map_eq_some_iff.mp h
      cases heq
      exact .exec op ans
  | cancelActive id =>
      simp only [perform, Shared.cancelActive] at h
      split at h <;> cases h
      · exact .cancelActive id _
      · exact .cancelUnknown id
  | acquire | sendResult =>
      simp only [perform, Option.ite_none_right_eq_some] at h
      obtain ⟨hroom, h⟩ := h
      cases h
      constructor
      try exact hroom
  | pollResult | tryRecv =>
      simp only [perform, Shared.receive] at h
      split at h <;> cases h
      · constructor
      · constructor
        assumption
  | pollRecv =>
      simp only [perform, Shared.pollRecv] at h
      split at h <;> cases h
      · constructor
        assumption
      · constructor
  | _ =>
      cases h
      constructor

def Registry.after (active : Registry) : Event AgentSig → Registry
  | ⟨.insertActive id entry, _⟩ => active.insert id entry
  | ⟨.removeActive id, _⟩ => active.erase id
  | _ => active

def drawnTokens : Event AgentSig → Nat
  | ⟨.newToken, _⟩ => 1
  | _ => 0

def cancelledToken? : Event AgentSig → Option Nat
  | ⟨.cancelActive _, found⟩ => found
  | _ => none

def journaled? : Event AgentSig → Option TaskResultRow
  | ⟨.recordTaskResult row, .ok _⟩ => some row
  | ⟨.exec (.recordTick _ row), .ok _⟩ => some row
  | _ => none

def touchesSlot : Event AgentSig → Bool
  | ⟨.openRecv, _⟩ => true
  | ⟨.dropRecv, _⟩ => true
  | ⟨.pollRecv, some _⟩ => true
  | _ => false

/-- What a call may change of the state that the other modules follow. -/
structure Effect (s : Shared) (event : Event AgentSig) (s' : Shared) : Prop where
  active : s'.active = s.active.after event
  nextToken : s'.nextToken = s.nextToken + drawnTokens event
  cancelled : s'.cancelled = (cancelledToken? event).toList ++ s.cancelled
  journal : s'.journal = s.journal ++ (journaled? event).toList
  slot : touchesSlot event = false → s'.slot = s.slot ∧ s'.exchanges = s.exchanges

theorem Performs.effect {agent : AgentConfig} {s s' : Shared} {event : Event AgentSig}
    (h : Performs agent s event s') : Effect s event s' := by
  cases h with
  | exec op ans =>
      cases op with
      | recordTick n row =>
          cases ans <;> constructor <;> simp [Registry.after, drawnTokens, cancelledToken?,
            journaled?, Shared.execEffect, Shared.write]
      | _ => constructor <;> simp [Registry.after, drawnTokens, cancelledToken?, journaled?,
          Shared.execEffect]
  | record row written =>
      cases written <;> constructor <;> simp [Registry.after, drawnTokens, cancelledToken?,
        journaled?, Shared.write]
  | _ => constructor <;> simp [Registry.after, drawnTokens, cancelledToken?, journaled?,
      touchesSlot, Shared.openRecv, Shared.dropRecv, Shared.modifyLast]

theorem perform_effect {agent : AgentConfig} {s s' : Shared} {op : AgentOp}
    {proposal ans : op.Ans} (h : perform agent s op proposal = some (ans, s')) :
    Effect s ⟨op, ans⟩ s' :=
  (performs_of_perform h).effect

/-! ### Permits and counts -/

def permitsTaken : AgentOp → Nat
  | .acquire => 1
  | _ => 0

def permitsReturned : AgentOp → Nat
  | .release => 1
  | _ => 0

def Registry.published (active : Registry) (counts : ActiveTaskCounts) :
    AgentOp → ActiveTaskCounts
  | .updateCounts => active.counts
  | _ => counts

theorem Performs.meters {agent : AgentConfig} {s s' : Shared} {event : Event AgentSig}
    (h : Performs agent s event s') :
    s'.permits + permitsTaken event.1 = s.permits + permitsReturned event.1 ∧
      s'.counts = s.active.published s.counts event.1 := by
  cases h with
  | exec op ans =>
      cases op with
      | recordTick n row => cases ans <;> simp [Shared.execEffect, Shared.write, permitsTaken,
          permitsReturned, Registry.published]
      | _ => simp [Shared.execEffect, permitsTaken, permitsReturned, Registry.published]
  | record row written => cases written <;> simp [Shared.write, permitsTaken, permitsReturned,
      Registry.published]
  | acquire h =>
      simp only [permitsTaken, permitsReturned, Registry.published, and_true]
      omega
  | _ => simp [permitsTaken, permitsReturned, Registry.published, Shared.openRecv,
      Shared.dropRecv, Shared.modifyLast]

theorem perform_meters {agent : AgentConfig} {s s' : Shared} {op : AgentOp}
    {proposal ans : op.Ans} (h : perform agent s op proposal = some (ans, s')) :
    s'.permits + permitsTaken op = s.permits + permitsReturned op ∧
      s'.counts = s.active.published s.counts op :=
  (performs_of_perform h).meters

/-! ## Environment -/

inductive Env where
  /-- The shutdown signal. -/
  | shutdown
  /-- The `recv_tasks` future makes one step; the answer is a proposal. -/
  | recv (proposal : (op : HttpOp) → op.Ans)
  /-- The request of the `recv_tasks` future reaches the control plane. -/
  | reach
  /-- The control plane produces its response to the `index`th request. -/
  | produce (index : Nat) (response : HttpResponse)

/-- What the agent sees of an exchange: an answer needs a response. -/
def httpAnswer (response : Option HttpResponse) : (op : HttpOp) → op.Ans → Option op.Ans
  | .get _, .ok _ => response.map fun response => .ok response.status
  | .text, .ok _ => response.map fun response => .ok response.body
  | _, proposal => some proposal

def environment (s : Shared) : Env → Option Shared
  | .shutdown => some { s with shutdown := true }
  | .recv proposal =>
      match s.slot, s.exchanges.getLast? with
      | some (.call op next), some exchange =>
          (httpAnswer exchange.response op (proposal op)).map fun ans =>
            { s with slot := some (next ans) }
      | _, _ => none
  | .reach =>
      match s.slot with
      | some (.call (.get _) _) =>
          some (s.modifyLast fun exchange => { exchange with reached := true })
      | _ => none
  | .produce index response =>
      match s.exchanges[index]? with
      | some ⟨true, none, dropped⟩ =>
          some { s with
            exchanges := s.exchanges.set index ⟨true, some response, dropped⟩ }
      | _ => none

/-- The world outside does not touch what only calls change. -/
structure Outside (s s' : Shared) : Prop where
  active : s'.active = s.active
  nextToken : s'.nextToken = s.nextToken
  cancelled : s'.cancelled = s.cancelled
  journal : s'.journal = s.journal
  permits : s'.permits = s.permits
  counts : s'.counts = s.counts

theorem environment_outside {s s' : Shared} {event : Env}
    (h : environment s event = some s') : Outside s s' := by
  cases event with
  | shutdown =>
      cases h
      exact ⟨rfl, rfl, rfl, rfl, rfl, rfl⟩
  | recv proposal =>
      simp only [environment] at h
      split at h
      · obtain ⟨ans, -, rfl⟩ := Option.map_eq_some_iff.mp h
        exact ⟨rfl, rfl, rfl, rfl, rfl, rfl⟩
      · cases h
  | reach | produce _ _ =>
      simp only [environment] at h
      split at h
      · cases h
        exact ⟨rfl, rfl, rfl, rfl, rfl, rfl⟩
      · cases h

/-! ## The system -/

inductive Job where
  | main
  | call (work : ReceivedWork)
  | body (body : Body)

def AgentConfig.program (agent : AgentConfig) : Job → Prog AgentSig Unit
  | .main => run agent.rounds
  | .call work => submitWork work
  | .body body => agent.manager.runBody body

def spawned : AgentOp → Option Job
  | .spawn body => some (.body body)
  | _ => none

/-- `submit`, `submit_chain` and `run` are called from outside. -/
def Job.external : Job → Bool
  | .body _ => false
  | _ => true

abbrev AgentConfig.system (agent : AgentConfig) : System AgentSig where
  Job := Job
  Shared := Shared
  Env := Env
  program := agent.program
  perform := perform agent
  spawned := spawned
  external := Job.external
  environment := environment

/-- Future `i` runs `body` and `rest` is left of it. -/
abbrev RunsBody {agent : AgentConfig} (pool : Pool agent.system) (i : Nat)
    (body : Body) (rest : Prog AgentSig Unit) : Prop :=
  pool.futures[i]? = some ⟨.body body, rest⟩

section RunsBody

variable {agent : AgentConfig} {pool : Pool agent.system} {i j : Nat} {body : Body}
  {rest : Prog AgentSig Unit} {job : Job}

theorem runsBody_launch (hexternal : job.external = true) :
    RunsBody (pool.launch job) i body rest ↔ RunsBody pool i body rest := by
  rw [RunsBody, Pool.getElem?_launch]
  split
  next heq =>
      constructor
      · intro h
        cases h
        cases hexternal
      · intro h
        rw [heq, RunsBody, List.getElem?_eq_none (Nat.le_refl _)] at h
        cases h
  next => rfl

/-- A body of the next pool fired, was spawned, or was there. -/
theorem runsBody_advance {event : Event AgentSig} {old left : Prog AgentSig Unit}
    {shared : Shared} (hfuture : pool.futures[i]? = some ⟨job, old⟩)
    (h : RunsBody (pool.advance i job event left shared) j body rest) :
    (j = i ∧ job = .body body ∧ rest = left) ∨
      (j = pool.futures.length ∧ event.1 = .spawn body ∧
        rest = agent.manager.runBody body) ∨
      RunsBody pool j body rest := by
  rw [RunsBody, Pool.getElem?_advance hfuture] at h
  split at h
  next heq =>
      cases h
      exact .inl ⟨heq, rfl, rfl⟩
  next =>
      split at h
      next heq =>
          obtain ⟨spawnedJob, hspawned, hspawnedJob⟩ := Option.map_eq_some_iff.mp h
          cases hspawnedJob
          obtain ⟨op, ans⟩ := event
          cases op with
          | spawn other =>
              cases hspawned
              exact .inr (.inl ⟨heq, rfl, rfl⟩)
          | _ => cases hspawned
      next => exact .inr (.inr h)

end RunsBody

end VasalAgent.Agent
