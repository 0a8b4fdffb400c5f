import VasalAgent.Agent.Registration
import VasalAgent.Transport.WorkItems

/-!
# Dispatch

What the main loop does with the work it receives.  A monitor follows one round:
whether a `recv_tasks` future is open, which received items are still to be
submitted, and which submission still has to spawn its future.  Two conservation
laws follow from each call that it accepts: received items are submitted in
order (`Dispatches.left`), and a submitted item becomes a spawned future
(`Dispatches.carrying`).
-/

namespace VasalAgent.Agent

open VasalAgent.Async
open VasalAgent.Protocol
open VasalAgent.Task
open VasalAgent.Transport

/-- A `Cancel` is a command to the manager; all other work runs in a future. -/
def spawnsFuture : ReceivedWork → Bool
  | .single (.cancel _) => false
  | _ => true

def Body.work : Body → ReceivedWork
  | .exec task _ => .single (.exec task)
  | .routed task _ => .single task
  | .chain c _ => .chain c

def received : Except Error (List ReceivedWork) → List ReceivedWork
  | .ok items => items
  | .error _ => []

/-! ## Rounds -/

structure Round where
  /-- A `recv_tasks` future is open. -/
  polling : Bool
  left : List ReceivedWork
  carrying : Option ReceivedWork

def Round.idle : Round := ⟨false, [], none⟩

open Classical in
noncomputable def dispatch (round : Round) : Event AgentSig → Option Round
  | ⟨.openRecv, _⟩ =>
      match round with
      | ⟨false, [], none⟩ => some ⟨true, [], none⟩
      | _ => none
  | ⟨.dropRecv, _⟩ =>
      match round with
      | ⟨true, [], none⟩ => some .idle
      | _ => none
  | ⟨.pollRecv, some work⟩ =>
      match round with
      | ⟨true, [], none⟩ => some ⟨false, received work, none⟩
      | _ => none
  | ⟨.submit work, _⟩ =>
      match round with
      | ⟨false, next :: left, none⟩ =>
          if next = work then
            some ⟨false, left, if spawnsFuture work then some work else none⟩
          else none
      | _ => none
  | ⟨.spawn body, _⟩ =>
      match round with
      | ⟨false, left, some work⟩ =>
          if work = body.work then some ⟨false, left, none⟩ else none
      | _ => none
  | ⟨.joinBackground, _⟩ =>
      match round with
      | ⟨false, [], none⟩ => some .idle
      | _ => none
  | _ => some round

/-- The calls that a round is about. -/
def isRoundCall : Event AgentSig → Bool
  | ⟨.openRecv, _⟩ | ⟨.dropRecv, _⟩ | ⟨.pollRecv, some _⟩ | ⟨.submit _, _⟩
  | ⟨.spawn _, _⟩ | ⟨.joinBackground, _⟩ => true
  | _ => false

/-- The calls that `dispatch` accepts, and what they do to the round. -/
inductive Dispatches : Round → Event AgentSig → Round → Prop
  | openRecv : Dispatches .idle ⟨.openRecv, ()⟩ ⟨true, [], none⟩
  | dropRecv : Dispatches ⟨true, [], none⟩ ⟨.dropRecv, ()⟩ .idle
  | receive (work : Except Error (List ReceivedWork)) :
      Dispatches ⟨true, [], none⟩ ⟨.pollRecv, some work⟩ ⟨false, received work, none⟩
  | submit (work : ReceivedWork) (left : List ReceivedWork) :
      Dispatches ⟨false, work :: left, none⟩ ⟨.submit work, ()⟩
        ⟨false, left, if spawnsFuture work then some work else none⟩
  | spawn (body : Body) (left : List ReceivedWork) :
      Dispatches ⟨false, left, some body.work⟩ ⟨.spawn body, ()⟩ ⟨false, left, none⟩
  | join : Dispatches .idle ⟨.joinBackground, ()⟩ .idle
  | other {round : Round} {event : Event AgentSig} (h : isRoundCall event = false) :
      Dispatches round event round

theorem dispatches_of_dispatch {round next : Round} {event : Event AgentSig}
    (h : dispatch round event = some next) : Dispatches round event next := by
  obtain ⟨op, ans⟩ := event
  cases op with
  | openRecv =>
      simp only [dispatch] at h
      split at h
      · cases h
        exact .openRecv
      · cases h
  | dropRecv =>
      simp only [dispatch] at h
      split at h
      · cases h
        exact .dropRecv
      · cases h
  | joinBackground =>
      simp only [dispatch] at h
      split at h
      · cases h
        exact .join
      · cases h
  | pollRecv =>
      cases ans with
      | none =>
          cases h
          exact .other rfl
      | some work =>
          simp only [dispatch] at h
          split at h
          · cases h
            exact .receive work
          · cases h
  | submit work =>
      simp only [dispatch] at h
      split at h
      · split at h
        next heq =>
            cases h
            cases heq
            exact .submit work _
        next => cases h
      · cases h
  | spawn body =>
      simp only [dispatch] at h
      split at h
      · split at h
        next heq =>
            cases h
            cases heq
            exact .spawn body _
        next => cases h
      · cases h
  | _ =>
      cases h
      exact .other rfl

/-! ## Conservation -/

def submitted? : Event AgentSig → Option ReceivedWork
  | ⟨.submit work, _⟩ => some work
  | _ => none

def receivedBy : Event AgentSig → List ReceivedWork
  | ⟨.pollRecv, some work⟩ => received work
  | _ => []

def spawnedBody? : Event AgentSig → Option Body
  | ⟨.spawn body, _⟩ => some body
  | _ => none

section Conservation

variable {round next : Round} {event : Event AgentSig}

theorem neutral_of_not_roundCall (h : isRoundCall event = false) :
    submitted? event = none ∧ receivedBy event = [] ∧ spawnedBody? event = none := by
  obtain ⟨op, ans⟩ := event
  cases op with
  | pollRecv =>
      cases ans with
      | none => exact ⟨rfl, rfl, rfl⟩
      | some work => cases h
  | submit work => cases h
  | spawn body => cases h
  | _ => exact ⟨rfl, rfl, rfl⟩

theorem Dispatches.left (h : Dispatches round event next) :
    round.left ++ receivedBy event = (submitted? event).toList ++ next.left := by
  cases h with
  | other hneutral =>
      obtain ⟨hsubmitted, hreceived, -⟩ := neutral_of_not_roundCall hneutral
      simp [hsubmitted, hreceived]
  | _ => simp [receivedBy, submitted?, Round.idle]

theorem Dispatches.carrying (h : Dispatches round event next) :
    round.carrying.toList ++ (submitted? event).toList.filter spawnsFuture =
      (spawnedBody? event).toList.map Body.work ++ next.carrying.toList := by
  cases h with
  | submit work left =>
      cases hspawns : spawnsFuture work <;> simp [spawnedBody?, submitted?, hspawns]
  | other hneutral =>
      obtain ⟨hsubmitted, -, hspawned⟩ := neutral_of_not_roundCall hneutral
      simp [hsubmitted, hspawned]
  | _ => simp [spawnedBody?, submitted?, Round.idle]

end Conservation

/-! ## Programs -/

section Programs

theorem register_dispatch {work : ReceivedWork} (left : List ReceivedWork) (id : Uuid)
    (kind : TaskKindTag) (body : Nat → Body) (hwork : ∀ token, (body token).work = work) :
    (register id kind body).Ensures (fun _ => True) dispatch
      (fun _ q => q = ⟨false, left, none⟩) ⟨false, left, some work⟩ := by
  refine fun token _ => ⟨_, rfl, fun _ _ => ⟨_, rfl, fun _ _ => ⟨_, rfl, ?_⟩⟩⟩
  exact fun _ _ => ⟨_, if_pos (hwork token).symm, rfl⟩

theorem submitWork_dispatch (work : ReceivedWork) (left : List ReceivedWork) :
    (submitWork work).Ensures (fun _ => True) dispatch
      (fun _ q => q = ⟨false, left, none⟩) ⟨false, work :: left, none⟩ := by
  cases work with
  | chain chain =>
      refine fun _ _ => ⟨_, if_pos rfl, ?_⟩
      refine (lift_ensures (fun _ _ _ => rfl) _ _).andThen fun _ => ?_
      exact register_dispatch left _ _ _ fun _ => rfl
  | single task =>
      refine fun _ _ => ⟨_, if_pos rfl, ?_⟩
      refine (lift_ensures (fun _ _ _ => rfl) _ _).andThen fun _ => ?_
      cases task with
      | cancel cancel => exact fun _ _ => ⟨_, rfl, rfl⟩
      | _ => exact register_dispatch left _ _ _ fun _ => rfl

theorem submitAll_dispatch (items : List ReceivedWork) :
    (submitAll items).Ensures (fun _ => True) dispatch
      (fun _ q => q = .idle) ⟨false, items, none⟩ := by
  induction items with
  | nil => rfl
  | cons work rest ih => exact (submitWork_dispatch work rest).andThen fun _ => ih

def MainWake.items : MainWake → List ReceivedWork
  | .work answer => received answer
  | _ => []

theorem pollBranches_dispatch (fuel : Nat) :
    (pollBranches fuel).Ensures (fun _ => True) dispatch
      (fun wake q => q = ⟨false, wake.items, none⟩) ⟨true, [], none⟩ := by
  induction fuel with
  | zero => trivial
  | succ fuel ih =>
      refine fun ready _ => ⟨_, rfl, ?_⟩
      cases ready with
      | true => exact fun _ _ => ⟨_, rfl, rfl⟩
      | false =>
          refine fun result _ => ⟨_, rfl, ?_⟩
          cases result with
          | some result => exact fun _ _ => ⟨_, rfl, rfl⟩
          | none =>
              refine fun work _ => ?_
              cases work with
              | some work => exact ⟨_, rfl, rfl⟩
              | none => exact ⟨_, rfl, ih⟩

theorem mainLoop_dispatch (polls fuel : Nat) :
    (mainLoop polls fuel).Ensures (fun _ => True) dispatch
      (fun _ q => q = .idle) .idle := by
  induction fuel with
  | zero => trivial
  | succ fuel ih =>
      have hselect : (select polls).Ensures (fun _ => True) dispatch
          (fun wake q => q = ⟨false, wake.items, none⟩) .idle :=
        fun _ _ => ⟨_, rfl, pollBranches_dispatch polls⟩
      refine hselect.bind fun wake q hq => ?_
      subst hq
      cases wake with
      | shutdown => rfl
      | result result => exact fun _ _ => ⟨_, rfl, ih⟩
      | work work =>
          cases work with
          | error e => exact ih
          | ok items => exact (submitAll_dispatch items).andThen fun _ => ih

theorem drain_dispatch (fuel : Nat) :
    (drain fuel).Ensures (fun _ => True) dispatch (fun _ q => q = .idle) .idle := by
  induction fuel with
  | zero => trivial
  | succ fuel ih =>
      refine fun result _ => ⟨_, rfl, ?_⟩
      cases result with
      | none => rfl
      | some result => exact fun _ _ => ⟨_, rfl, ih⟩

theorem run_dispatch (fuel : Nat) :
    (run fuel).Ensures (fun _ => True) dispatch (fun _ q => q = .idle) .idle := by
  refine (lift_ensures (fun _ _ _ => rfl) _ _).andThen fun _ => ?_
  refine (mainLoop_dispatch fuel fuel).andThen fun _ => ?_
  refine (drain_dispatch fuel).andThen fun _ => ?_
  refine (lift_ensures (fun _ _ _ => rfl) _ _).andThen fun _ => ?_
  exact fun _ _ => ⟨_, rfl, rfl⟩

/-- A direct call of the manager is like a round with one item. -/
def firstRound : Job → Round
  | .call work => ⟨false, [work], none⟩
  | _ => .idle

theorem program_dispatch (agent : AgentConfig) (job : Job) :
    (agent.program job).Ensures (fun _ => True) dispatch (fun _ q => q = .idle)
      (firstRound job) := by
  cases job with
  | main => exact run_dispatch agent.rounds
  | call work => exact submitWork_dispatch work []
  | body body =>
      refine (uses_runBody agent.manager body).ensures fun op ans hop _ => ?_
      cases op <;> first | rfl | exact hop.elim

end Programs

/-! ## Pools with one main loop -/

section Pools

variable {agent : AgentConfig} {pool : Pool agent.system}

def submissions (pool : Pool agent.system) : List ReceivedWork :=
  pool.log.filterMap fun entry => submitted? entry.2

/--
Future 0 is the main loop, in the given round; the others were spawned for its
submissions, in their order.
-/
structure Dispatched (pool : Pool agent.system) (round : Round) (bodies : List Body) :
    Prop where
  jobs : pool.futures.map Future.job = .main :: bodies.map .body
  stage : pool.stage dispatch firstRound 0 = some round
  spawned : (submissions pool).filter spawnsFuture =
    bodies.map Body.work ++ round.carrying.toList

theorem dispatched_start (shared : Shared) :
    Dispatched ((Pool.initial shared : Pool agent.system).launch .main) .idle [] :=
  ⟨rfl, rfl, rfl⟩

theorem projects_start (shared : Shared) :
    ((Pool.initial shared : Pool agent.system).launch .main).Projects := by
  have hinitial : (Pool.initial shared : Pool agent.system).Projects :=
    Pool.initial_projects _
  have step : Step (Policy.free agent.system) (Pool.initial shared)
      ((Pool.initial shared).launch .main) := .start rfl trivial
  exact step.projects hinitial

theorem spawned_eq (agent : AgentConfig) (event : Event AgentSig) :
    agent.system.spawned event.1 = (spawnedBody? event).map .body := by
  obtain ⟨op, ans⟩ := event
  cases op <;> rfl

theorem submissions_advance {i : Nat} {job : Job} {event : Event AgentSig}
    {rest : Prog AgentSig Unit} {shared : Shared} :
    submissions (pool.advance i job event rest shared) =
      submissions pool ++ (submitted? event).toList := by
  simp only [submissions, Pool.advance, List.filterMap_append]
  cases hsubmitted : submitted? event <;> simp [hsubmitted]

variable {round : Round} {bodies : List Body}

theorem Dispatched.future (h : Dispatched pool round bodies) {i : Nat} {job : Job}
    {rest : Prog AgentSig Unit} (hfuture : pool.futures[i]? = some ⟨job, rest⟩) :
    (i = 0 ∧ job = .main) ∨ (i ≠ 0 ∧ ∃ body ∈ bodies, job = .body body) := by
  have hjob : (pool.futures.map Future.job)[i]? = some job := by
    rw [List.getElem?_map, hfuture]
    rfl
  rw [h.jobs] at hjob
  cases i with
  | zero => exact .inl ⟨rfl, (Option.some.inj hjob).symm⟩
  | succ k =>
      rw [List.getElem?_cons_succ, List.getElem?_map, Option.map_eq_some_iff] at hjob
      obtain ⟨body, hbody, rfl⟩ := hjob
      exact .inr ⟨Nat.succ_ne_zero k, body, List.mem_of_getElem? hbody, rfl⟩

theorem Dispatched.runsBody (h : Dispatched pool round bodies) {k : Nat} {body : Body}
    (hbody : bodies[k]? = some body) : ∃ rest, RunsBody pool (k + 1) body rest := by
  have hjob : (pool.futures.map Future.job)[k + 1]? = some (.body body) := by
    rw [h.jobs, List.getElem?_cons_succ, List.getElem?_map, hbody]
    rfl
  rw [List.getElem?_map, Option.map_eq_some_iff] at hjob
  obtain ⟨⟨job, rest⟩, hfuture, rfl⟩ := hjob
  exact ⟨rest, hfuture⟩

section Fire

variable {i : Nat} {job : Job} {op : AgentOp} {cont : op.Ans → Prog AgentSig Unit}
  {shared : Shared}

theorem Dispatched.main_step (h : Dispatched pool round bodies)
    (hprojects : pool.Projects)
    (hfuture : pool.futures[0]? = some ⟨job, .call (S := AgentSig) op cont⟩)
    (ans : op.Ans) :
    ∃ next, Dispatches round ⟨op, ans⟩ next ∧
      Dispatched (pool.advance 0 job ⟨op, ans⟩ (cont ans) shared) next
        (bodies ++ (spawnedBody? ⟨op, ans⟩).toList) := by
  obtain ⟨q, next, hq, hnext⟩ :=
    hprojects.accepts (program_dispatch agent) hfuture ans
  obtain rfl : round = q := Option.some.inj (h.stage.symm.trans hq)
  have hdispatches := dispatches_of_dispatch hnext
  refine ⟨next, hdispatches, ?_, ?_, ?_⟩
  · rw [Pool.jobs_advance hfuture, h.jobs, spawned_eq agent ⟨op, ans⟩]
    cases spawnedBody? ⟨op, ans⟩ <;> simp
  · rw [Pool.stage_advance dispatch firstRound hprojects hfuture hq hnext, if_pos rfl]
  · rw [submissions_advance, List.filter_append, h.spawned, List.append_assoc,
      hdispatches.carrying, List.map_append, List.append_assoc]

theorem Dispatched.body_step (h : Dispatched pool round bodies)
    (hprojects : pool.Projects) (hi : i ≠ 0) {body : Body}
    (hfuture : pool.futures[i]? = some ⟨.body body, .call (S := AgentSig) op cont⟩)
    (ans : op.Ans) :
    op.isBody body.id ∧
      Dispatched (pool.advance i (.body body) ⟨op, ans⟩ (cont ans) shared) round bodies := by
  have hsteps := (hprojects.steps i _ hfuture).snoc ans
  have hop : op.isBody body.id :=
    (uses_runBody agent.manager body).steps hsteps ⟨op, ans⟩ (by simp)
  have hneutral : isRoundCall ⟨op, ans⟩ = false := by
    cases op <;> first | rfl | exact hop.elim
  obtain ⟨hsubmitted, -, hspawned⟩ := neutral_of_not_roundCall hneutral
  obtain ⟨q, next, hq, hnext⟩ :=
    hprojects.accepts (program_dispatch agent) hfuture ans
  refine ⟨hop, ?_, ?_, ?_⟩
  · rw [Pool.jobs_advance hfuture, h.jobs, spawned_eq agent ⟨op, ans⟩, hspawned]
    simp
  · have hlength : 0 ≠ pool.futures.length := by
      have := congrArg List.length h.jobs
      simp only [List.length_map, List.length_cons] at this
      omega
    rw [Pool.stage_advance dispatch firstRound hprojects hfuture hq hnext,
      if_neg hi.symm, if_neg hlength, h.stage]
  · rw [submissions_advance, hsubmitted, Option.toList_none, List.append_nil, h.spawned]

end Fire

end Pools

/-! ## A polling agent -/

def wireCodec : Codec := jsonCodec fun _ => "not a list of tasks"

def pollingAgent : AgentConfig where
  manager := ⟨"/run", true, 1⟩
  recvTasks := recvTasks wireCodec ⟨"cp", 5⟩
  rounds := 3

def pollingStart : Pool pollingAgent.system :=
  (Pool.initial (Shared.initial 1)).launch .main

def delivering : (op : HttpOp) → op.Ans
  | .sleep _ => ()
  | .get _ => .ok ⟨200, "200 OK"⟩
  | .text => .ok ""

def sampleBody : String := (Json.arr [sampleWork.encode]).render

def sampleResponse : HttpResponse := ⟨⟨200, "200 OK"⟩, sampleBody⟩

section Body

theorem decoded_sampleWork : sampleWork.Decoded :=
  ⟨.obj [("executor", .str "shell"), ("id", .str "00000000000000000000000000000001"),
    ("kind", .str "oneshot"), ("payload", .obj [("script", .str "true")]),
    ("timeout_ms", .num (.int 1000)), ("type", .str "exec")], by rfl⟩

theorem spelled_sampleWork : ∀ item ∈ [sampleWork.encode], Serde.Spelled item :=
  List.forall_mem_singleton.mpr (sampleWork.lawful_encode decoded_sampleWork).readable.spelled

theorem within_sampleWork :
    ∀ item ∈ [sampleWork.encode], Serde.Within (Serde.depthLimit - 1) item :=
  List.forall_mem_singleton.mpr (by decide +kernel)

theorem settled_sampleWork : [sampleWork.encode].map Serde.settled = [sampleWork.encode] := by
  rw [List.map_singleton, (sampleWork.lawful_encode decoded_sampleWork).settled_eq]

theorem items_sampleBody : wireCodec.items sampleBody = .ok [sampleWork.encode] := by
  rw [wireCodec, sampleBody, items_render _ spelled_sampleWork, if_pos within_sampleWork,
    settled_sampleWork]

theorem decodeItem_sampleWork : decodeItem wireCodec sampleWork.encode = some sampleWork :=
  decodeItem_encode _ decoded_sampleWork

theorem decode_sampleBody : decode wireCodec sampleBody = .ok [sampleWork] := by
  rw [wireCodec, sampleBody, decode_render _ spelled_sampleWork, if_pos within_sampleWork,
    settled_sampleWork, List.filterMap_cons_some (decodeItem_encode _ decoded_sampleWork),
    List.filterMap_nil]

end Body

/-- The first poll of the agent is answered, and the body is read. -/
def answeredOnce : List (Label pollingAgent.system) :=
  List.replicate 5 (.fire 0 obliging) ++
    [.env (.recv delivering), .env .reach, .env (.produce 0 sampleResponse),
      .env (.recv delivering), .env (.recv delivering)]

/-- The poll has come back with the work. -/
def fetched (work : Except Error (List ReceivedWork)) : Pool pollingAgent.system :=
  let pool := (pollingStart.script answeredOnce).get rfl
  { pool with shared := { pool.shared with slot := some (.ret work) } }

theorem run_answeredOnce {π : Policy pollingAgent.system}
    (h : Pool.Follows π pollingStart answeredOnce) :
    Run π pollingStart (fetched (.ok [sampleWork])) := by
  have hscript : pollingStart.script answeredOnce =
      some (fetched (decode wireCodec sampleBody)) := rfl
  rw [decode_sampleBody] at hscript
  exact Pool.run_of_script hscript h

/-- The item is submitted. -/
def submittedItem : List (Label pollingAgent.system) := List.replicate 9 (.fire 0 obliging)

end VasalAgent.Agent
