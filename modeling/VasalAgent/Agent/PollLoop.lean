import Mathlib.Data.List.ModifyLast
import VasalAgent.Agent.Dispatch

/-!
# Polling for work

The main loop over the poll transport, seen from both ends of an exchange.  The
control plane hands out items when it produces a response; the agent has them
once they are submitted.  The `select!` of the main loop drops a `recv_tasks`
future that loses against a task's result, wherever that future is suspended.
-/

namespace VasalAgent.Agent

open VasalAgent.Async
open VasalAgent.Protocol
open VasalAgent.Task
open VasalAgent.Transport

/-! ## Items -/

section Items

variable (codec : Codec)

def responseItems (response : HttpResponse) : List Json :=
  if response.status.isSuccess then
    if trim response.body = [] || trim response.body = ['[', ']'] then []
    else
      match codec.items response.body with
      | .ok items => items
      | .error _ => []
  else []

def exchangeItems (exchange : Exchange) : List Json :=
  match exchange.response with
  | some response => responseItems codec response
  | none => []

/-- The items that the control plane has handed out. -/
def producedItems (s : Shared) : List Json := s.exchanges.flatMap (exchangeItems codec)

/-- A 2xx response parses, and so do its items. -/
structure WellFormed (response : HttpResponse) : Prop where
  parses : response.status.isSuccess = true →
    ∃ items, decode codec response.body = .ok items
  decodes : ∀ item ∈ responseItems codec response, (decodeItem codec item).isSome = true

def exchangeWork (exchange : Exchange) : List ReceivedWork :=
  (exchangeItems codec exchange).filterMap (decodeItem codec)

variable {codec}

theorem map_decodeItem {items : List Json}
    (h : ∀ item ∈ items, (decodeItem codec item).isSome = true) :
    items.map (decodeItem codec) = (items.filterMap (decodeItem codec)).map some := by
  induction items with
  | nil => rfl
  | cons item rest ih =>
      obtain ⟨work, hwork⟩ := Option.isSome_iff_exists.mp (h item (by simp))
      rw [List.map_cons, List.filterMap_cons_some hwork, List.map_cons, hwork,
        ih fun other hother => h other (by simp [hother])]

theorem decode_body {response : HttpResponse} (h : WellFormed codec response)
    (hsuccess : response.status.isSuccess = true) :
    decode codec response.body =
      .ok ((responseItems codec response).filterMap (decodeItem codec)) := by
  obtain ⟨items, hitems⟩ := h.parses hsuccess
  rw [hitems, responseItems, if_pos hsuccess]
  unfold decode at hitems
  split at hitems
  next hblank =>
      cases hitems
      rw [if_pos hblank]
      rfl
  next hblank =>
      rw [if_neg hblank]
      split at hitems
      next => cases hitems
      next parsed hparsed =>
          cases hitems
          rw [hparsed]

end Items

/-! ## One exchange -/

section Exchanges

variable (codec : Codec) (transport : PollTransport)

/-- `recv_tasks` with its request sent and read as far as the body. -/
def reading : Prog HttpSig (Except Error (List ReceivedWork)) := do
  match ← request .text with
  | .error e => pure (.error (.http e))
  | .ok body => pure (decode codec body)

def fetching : Prog HttpSig (Except Error (List ReceivedWork)) := do
  match ← request (.get (transport.endpoint ++ "/tasks/pending")) with
  | .error e => pure (.error (.http e))
  | .ok status =>
      if status.isSuccess then reading codec
      else pure (.error (.transport ("task poll returned HTTP " ++ status.text)))

theorem recvTasks_eq :
    recvTasks codec transport = Prog.call (S := HttpSig) (.sleep transport.pollInterval)
      fun _ => fetching codec transport := rfl

/-- The exchange of a `recv_tasks` future that is over. -/
def Settled (exchange : Exchange) : Prop :=
  exchange.reached = false ∧ exchange.response = none ∨
    exchange.dropped = false ∧
      ∃ response, exchange.response = some response ∧ WellFormed codec response

/-- A `recv_tasks` future and the control plane's side of its exchange. -/
inductive Live : Prog HttpSig (Except Error (List ReceivedWork)) → Exchange → Prop
  | asleep : Live (recvTasks codec transport) ⟨false, none, false⟩
  | waiting (reached : Bool) : Live (fetching codec transport) ⟨reached, none, false⟩
  | produced {response : HttpResponse} (h : WellFormed codec response) :
      Live (fetching codec transport) ⟨true, some response, false⟩
  | reading {response : HttpResponse} (h : WellFormed codec response)
      (hsuccess : response.status.isSuccess = true) :
      Live (reading codec) ⟨true, some response, false⟩
  | done {work : Except Error (List ReceivedWork)} {exchange : Exchange}
      (hsettled : Settled codec exchange) (hdropped : exchange.dropped = false)
      (hwork : received work = exchangeWork codec exchange) : Live (.ret work) exchange

/-- No error is made up by the network. -/
def Delivers (proposal : (op : HttpOp) → op.Ans) : Prop :=
  (∀ url e, proposal (.get url) ≠ .error e) ∧ ∀ e, proposal .text ≠ .error e

variable {codec transport}

theorem Settled.decodes {exchange : Exchange} (h : Settled codec exchange) :
    ∀ item ∈ exchangeItems codec exchange, (decodeItem codec item).isSome = true := by
  rcases h with ⟨-, hnone⟩ | ⟨-, response, hresponse, hwell⟩
  · simp [exchangeItems, hnone]
  · rw [exchangeItems, hresponse]
    exact hwell.decodes

theorem Live.step {p : Prog HttpSig (Except Error (List ReceivedWork))}
    {exchange : Exchange} (h : Live codec transport p exchange) {op : HttpOp}
    {next : op.Ans → Prog HttpSig (Except Error (List ReceivedWork))}
    (hp : p = .call (S := HttpSig) op next) {proposal : (op : HttpOp) → op.Ans}
    (hdelivers : exchange.reached = true → Delivers proposal) {ans : op.Ans}
    (hans : httpAnswer exchange.response op (proposal op) = some ans) :
    Live codec transport (next ans) exchange := by
  cases h with
  | asleep =>
      rw [recvTasks_eq] at hp
      cases hp
      exact .waiting false
  | waiting reached =>
      cases hp
      cases hproposal : proposal (.get (transport.endpoint ++ "/tasks/pending")) with
      | ok status =>
          rw [hproposal] at hans
          cases hans
      | error e =>
          rw [hproposal] at hans
          cases hans
          have hreached : reached = false := by
            cases reached with
            | false => rfl
            | true => exact absurd hproposal ((hdelivers rfl).1 _ e)
          exact .done (.inl ⟨hreached, rfl⟩) rfl rfl
  | @produced response hwell =>
      cases hp
      cases hproposal : proposal (.get (transport.endpoint ++ "/tasks/pending")) with
      | error e => exact absurd hproposal ((hdelivers rfl).1 _ e)
      | ok status =>
          rw [hproposal] at hans
          cases hans
          have hsettled : Settled codec ⟨true, some response, false⟩ :=
            .inr ⟨rfl, response, rfl, hwell⟩
          change Live codec transport
            (if response.status.isSuccess then VasalAgent.Agent.reading codec else _) _
          cases hsuccess : response.status.isSuccess with
          | true => exact .reading hwell hsuccess
          | false =>
              refine .done hsettled rfl ?_
              simp [received, exchangeWork, exchangeItems, responseItems, hsuccess]
  | @reading response hwell hsuccess =>
      cases hp
      cases hproposal : proposal .text with
      | error e => exact absurd hproposal ((hdelivers rfl).2 e)
      | ok body =>
          rw [hproposal] at hans
          cases hans
          refine .done (.inr ⟨rfl, response, rfl, hwell⟩) rfl ?_
          rw [decode_body hwell hsuccess]
          rfl
  | done => cases hp

theorem Live.reach {url : String}
    {next : Except String HttpStatus → Prog HttpSig (Except Error (List ReceivedWork))}
    {exchange : Exchange}
    (h : Live codec transport (.call (S := HttpSig) (.get url) next) exchange) :
    Live codec transport (.call (S := HttpSig) (.get url) next)
      { exchange with reached := true } := by
  generalize hp : Prog.call (S := HttpSig) (.get url) next = p at h ⊢
  cases h with
  | asleep =>
      rw [recvTasks_eq] at hp
      cases hp
  | waiting reached => exact .waiting true
  | produced hwell => exact .produced hwell
  | reading hwell hsuccess => exact .reading hwell hsuccess
  | done => cases hp

theorem not_settled_waiting {dropped : Bool} : ¬ Settled codec ⟨true, none, dropped⟩ := by
  rintro (⟨hreached, -⟩ | ⟨-, response, hresponse, -⟩)
  · cases hreached
  · cases hresponse

/-- A response can only be produced for a future that waits for it. -/
theorem Live.produce {p : Prog HttpSig (Except Error (List ReceivedWork))} {dropped : Bool}
    (h : Live codec transport p ⟨true, none, dropped⟩) {response : HttpResponse}
    (hwell : WellFormed codec response) :
    Live codec transport p ⟨true, some response, dropped⟩ := by
  cases h with
  | waiting => exact .produced hwell
  | done hsettled => exact absurd hsettled not_settled_waiting

theorem Live.decodes {p : Prog HttpSig (Except Error (List ReceivedWork))}
    {exchange : Exchange} (h : Live codec transport p exchange) :
    ∀ item ∈ exchangeItems codec exchange, (decodeItem codec item).isSome = true := by
  cases h with
  | asleep => simp [exchangeItems]
  | waiting reached => simp [exchangeItems]
  | produced hwell => exact hwell.decodes
  | reading hwell hsuccess => exact hwell.decodes
  | done hsettled => exact hsettled.decodes

end Exchanges

/-! ## All exchanges -/

section Polls

variable (codec : Codec) (transport : PollTransport)

/--
The exchanges account for the items the main loop has got, while a `recv_tasks`
future is open and while none is.
-/
def Polls (s : Shared) (got : List ReceivedWork) : Bool → Prop
  | false => s.slot = none ∧ (∀ exchange ∈ s.exchanges, Settled codec exchange) ∧
      s.exchanges.flatMap (exchangeWork codec) = got
  | true => ∃ p past last, s.slot = some p ∧ s.exchanges = past ++ [last] ∧
      Live codec transport p last ∧ (∀ exchange ∈ past, Settled codec exchange) ∧
      past.flatMap (exchangeWork codec) = got

variable {codec transport} {s s' : Shared} {got : List ReceivedWork} {polling : Bool}

theorem Polls.congr (h : Polls codec transport s got polling) (hslot : s'.slot = s.slot)
    (hexchanges : s'.exchanges = s.exchanges) : Polls codec transport s' got polling := by
  cases polling with
  | false => exact ⟨hslot.trans h.1, hexchanges ▸ h.2⟩
  | true =>
      obtain ⟨p, past, last, hp, hlast, hrest⟩ := h
      exact ⟨p, past, last, hslot.trans hp, hexchanges.trans hlast, hrest⟩

theorem Polls.openRecv (h : Polls codec transport s got false) :
    Polls codec transport (s.openRecv (recvTasks codec transport)) got true :=
  ⟨_, s.exchanges, _, rfl, rfl, .asleep, h.2⟩

def asleep : Option (Prog HttpSig (Except Error (List ReceivedWork))) → Bool
  | some (.call (.sleep _) _) => true
  | _ => false

theorem Polls.dropRecv (h : Polls codec transport s got true)
    (hasleep : asleep s.slot = true) : Polls codec transport s.dropRecv got false := by
  obtain ⟨p, past, last, hp, hlast, hlive, hpast, hgot⟩ := h
  rw [hp] at hasleep
  obtain rfl : last = ⟨false, none, false⟩ := by
    cases hlive with
    | asleep => rfl
    | _ => cases hasleep
  have hexchanges : s.dropRecv.exchanges = past ++ [⟨false, none, true⟩] := by
    change List.modifyLast _ s.exchanges = _
    rw [hlast, List.modifyLast_concat]
  refine ⟨rfl, ?_, ?_⟩
  · rw [hexchanges]
    intro exchange hexchange
    rcases List.mem_append.mp hexchange with hold | hnew
    · exact hpast exchange hold
    · cases List.mem_singleton.mp hnew
      exact .inl ⟨rfl, rfl⟩
  · rw [hexchanges, List.flatMap_append, hgot]
    simp [exchangeWork, exchangeItems]

theorem Polls.receive (h : Polls codec transport s got true)
    {work : Except Error (List ReceivedWork)} (hslot : s.slot = some (.ret work)) :
    Polls codec transport { s with slot := none } (got ++ received work) false := by
  obtain ⟨p, past, last, hp, hlast, hlive, hpast, hgot⟩ := h
  obtain rfl : p = .ret work := Option.some.inj (hp.symm.trans hslot)
  obtain ⟨hsettled, hwork⟩ : Settled codec last ∧ received work = exchangeWork codec last := by
    cases hlive with
    | done hsettled hdropped hwork => exact ⟨hsettled, hwork⟩
  refine ⟨rfl, fun exchange hexchange => ?_, ?_⟩
  · change exchange ∈ s.exchanges at hexchange
    rw [hlast] at hexchange
    rcases List.mem_append.mp hexchange with hold | hnew
    · exact hpast exchange hold
    · cases List.mem_singleton.mp hnew
      exact hsettled
  · change s.exchanges.flatMap _ = _
    rw [hlast, List.flatMap_append, hgot, hwork]
    simp

/-! ### What the exchanges hold -/

theorem map_decode_flatMap {exchanges : List Exchange}
    (h : ∀ exchange ∈ exchanges, ∀ item ∈ exchangeItems codec exchange,
      (decodeItem codec item).isSome = true) :
    (exchanges.flatMap (exchangeItems codec)).map (decodeItem codec) =
      (exchanges.flatMap (exchangeWork codec)).map some := by
  induction exchanges with
  | nil => rfl
  | cons exchange rest ih =>
      have hrest := ih fun other hother => h other (by simp [hother])
      rw [List.flatMap_cons, List.map_append, map_decodeItem (h exchange (by simp)), hrest,
        List.flatMap_cons, List.map_append]
      rfl

theorem Polls.account (h : Polls codec transport s got polling) :
    ∃ inFlight, (producedItems codec s).map (decodeItem codec) = (got ++ inFlight).map some ∧
      (polling = false → inFlight = []) := by
  cases polling with
  | false =>
      obtain ⟨-, hsettled, hgot⟩ := h
      refine ⟨[], ?_, fun _ => rfl⟩
      rw [producedItems, map_decode_flatMap fun exchange hexchange =>
        (hsettled exchange hexchange).decodes, hgot, List.append_nil]
  | true =>
      obtain ⟨p, past, last, -, hlast, hlive, hpast, hgot⟩ := h
      refine ⟨exchangeWork codec last, ?_, nofun⟩
      have hdecodes : ∀ exchange ∈ past ++ [last], ∀ item ∈ exchangeItems codec exchange,
          (decodeItem codec item).isSome = true := by
        intro exchange hexchange
        rcases List.mem_append.mp hexchange with hold | hnew
        · exact (hpast exchange hold).decodes
        · cases List.mem_singleton.mp hnew
          exact hlive.decodes
      rw [producedItems, hlast, map_decode_flatMap hdecodes, List.flatMap_append, hgot]
      simp

theorem Settled.unreached {exchange : Exchange} (h : Settled codec exchange)
    (hdropped : exchange.dropped = true) : exchange.reached = false := by
  rcases h with ⟨hreached, -⟩ | ⟨hkept, -⟩
  · exact hreached
  · rw [hdropped] at hkept
    cases hkept

theorem Polls.unreached (h : Polls codec transport s got polling) :
    ∀ exchange ∈ s.exchanges, exchange.dropped = true → exchange.reached = false := by
  intro exchange hexchange hdropped
  cases polling with
  | false => exact (h.2.1 exchange hexchange).unreached hdropped
  | true =>
      obtain ⟨p, past, last, -, hlast, hlive, hpast, -⟩ := h
      rw [hlast] at hexchange
      rcases List.mem_append.mp hexchange with hold | hnew
      · exact (hpast exchange hold).unreached hdropped
      · cases List.mem_singleton.mp hnew
        cases hlive with
        | done hsettled hkept =>
            rw [hdropped] at hkept
            cases hkept
        | _ => cases hdropped

/-! ### The world outside -/

theorem Polls.recv (h : Polls codec transport s got polling)
    {proposal : (op : HttpOp) → op.Ans}
    (hdelivers : ∀ exchange, s.exchanges.getLast? = some exchange →
      exchange.reached = true → Delivers proposal)
    (henv : environment s (.recv proposal) = some s') :
    Polls codec transport s' got polling := by
  cases polling with
  | false =>
      simp only [environment, h.1] at henv
      cases henv
  | true =>
      obtain ⟨p, past, last, hp, hlast, hlive, hrest⟩ := h
      have hgetLast : s.exchanges.getLast? = some last := by simp [hlast]
      simp only [environment, hp, hgetLast] at henv
      split at henv
      next op next exchange hslot hexchange =>
          cases hslot
          cases hexchange
          obtain ⟨ans, hans, rfl⟩ := Option.map_eq_some_iff.mp henv
          exact ⟨_, past, last, rfl, hlast,
            hlive.step rfl (hdelivers last hgetLast) hans, hrest⟩
      next => cases henv

theorem Polls.reach (h : Polls codec transport s got polling)
    (henv : environment s .reach = some s') : Polls codec transport s' got polling := by
  cases polling with
  | false =>
      simp only [environment, h.1] at henv
      cases henv
  | true =>
      obtain ⟨p, past, last, hp, hlast, hlive, hrest⟩ := h
      simp only [environment, hp] at henv
      split at henv
      next url next hslot =>
          cases hslot
          cases henv
          refine ⟨_, past, { last with reached := true }, hp, ?_, hlive.reach, hrest⟩
          change List.modifyLast _ s.exchanges = _
          rw [hlast, List.modifyLast_concat]
      next => cases henv

theorem Polls.produce (h : Polls codec transport s got polling) {index : Nat}
    {response : HttpResponse} (hwell : WellFormed codec response)
    (henv : environment s (.produce index response) = some s') :
    Polls codec transport s' got polling := by
  simp only [environment] at henv
  split at henv
  next dropped hexchange =>
      cases henv
      cases polling with
      | false =>
          exact absurd (h.2.1 _ (List.mem_of_getElem? hexchange)) not_settled_waiting
      | true =>
          obtain ⟨p, past, last, hp, hlast, hlive, hpast, hgot⟩ := h
          rw [hlast] at hexchange
          rcases Nat.lt_or_ge index past.length with hold | hnew
          · rw [List.getElem?_append_left hold] at hexchange
            exact absurd (hpast _ (List.mem_of_getElem? hexchange)) not_settled_waiting
          · have hlt := (List.getElem?_eq_some_iff.mp hexchange).1
            obtain rfl : index = past.length := by
              simp only [List.length_append, List.length_singleton] at hlt
              omega
            obtain rfl : last = ⟨true, none, dropped⟩ := by simpa using hexchange
            refine ⟨p, past, _, hp, ?_, hlive.produce hwell, hpast, hgot⟩
            simp [hlast]
  next => cases henv

end Polls

/-! ## Policies -/

section Law

variable {agent : AgentConfig}

/-- Before shutdown the network delivers every response, and responses are well-formed. -/
def responsive (agent : AgentConfig) (codec : Codec) : Policy agent.system where
  start _ _ := False
  fire _ _ _ := True
  env pool event :=
    match event with
    | .shutdown => False
    | .recv proposal => ∀ exchange, pool.shared.exchanges.getLast? = some exchange →
        exchange.reached = true → Delivers proposal
    | .reach => True
    | .produce _ response => WellFormed codec response

/-- Moreover the `select!` drops a `recv_tasks` future only in its first sleep. -/
def undisturbed (agent : AgentConfig) (codec : Codec) : Policy agent.system where
  start _ _ := False
  fire pool _ event := event.1 = .dropRecv → asleep pool.shared.slot = true
  env := (responsive agent codec).env

/-! ## Runs -/

structure Delivered (codec : Codec) (pool : Pool agent.system) : Prop where
  /-- Before the main loop asks again, all items are decoded and submitted. -/
  complete : ∀ rest,
    pool.futures[0]? = some ⟨.main, .call (S := AgentSig) .openRecv rest⟩ →
    (producedItems codec pool.shared).map (decodeItem codec) = (submissions pool).map some
  inOrder : (submissions pool).map some <+:
    (producedItems codec pool.shared).map (decodeItem codec)
  unreached : ∀ exchange ∈ pool.shared.exchanges, exchange.dropped = true →
    exchange.reached = false

variable {codec : Codec} {transport : PollTransport} {pool next : Pool agent.system}

theorem polls_main (hpoll : agent.recvTasks = recvTasks codec transport)
    {round after : Round} {op : AgentOp} {proposal ans : op.Ans} {s s' : Shared}
    {got : List ReceivedWork} (hdispatches : Dispatches round ⟨op, ans⟩ after)
    (h : Polls codec transport s got round.polling)
    (hperform : perform agent s op proposal = some (ans, s'))
    (hdrop : op = .dropRecv → asleep s.slot = true) :
    Polls codec transport s' (got ++ receivedBy ⟨op, ans⟩) after.polling := by
  have hslot := (perform_effect hperform).slot
  have hsame (htouches : touchesSlot ⟨op, ans⟩ = false)
      (hreceived : receivedBy ⟨op, ans⟩ = []) :
      Polls codec transport s' (got ++ receivedBy ⟨op, ans⟩) round.polling := by
    rw [hreceived, List.append_nil]
    exact h.congr (hslot htouches).1 (hslot htouches).2
  cases hdispatches with
  | openRecv =>
      cases hperform
      change Polls codec transport _ (got ++ []) _
      rw [hpoll, List.append_nil]
      exact h.openRecv
  | dropRecv =>
      cases hperform
      change Polls codec transport _ (got ++ []) _
      rw [List.append_nil]
      exact h.dropRecv (hdrop rfl)
  | receive work =>
      cases performs_of_perform hperform with
      | receive hfound => exact h.receive hfound
  | submit work left => exact hsame rfl rfl
  | spawn body left => exact hsame rfl rfl
  | join => exact hsame rfl rfl
  | other hneutral =>
      refine hsame ?_ (neutral_of_not_roundCall hneutral).2.1
      cases op with
      | pollRecv =>
          cases ans with
          | none => rfl
          | some work => cases hneutral
      | openRecv | dropRecv => cases hneutral
      | _ => rfl

/-- The items of all exchanges are submitted or left to the round. -/
def Fetches (codec : Codec) (transport : PollTransport) (pool : Pool agent.system) : Prop :=
  ∃ round bodies, Dispatched pool round bodies ∧
    Polls codec transport pool.shared (submissions pool ++ round.left) round.polling

theorem fetches_start (maxConcurrent : Nat) :
    Fetches codec transport
      ((Pool.initial (Shared.initial maxConcurrent) : Pool agent.system).launch .main) :=
  ⟨.idle, [], dispatched_start _, rfl, by simp [Pool.launch, Pool.initial, Shared.initial],
    rfl⟩

theorem fetches_step (hpoll : agent.recvTasks = recvTasks codec transport)
    (step : Step (undisturbed agent codec) pool next) (hprojects : pool.Projects)
    (h : Fetches codec transport pool) : Fetches codec transport next := by
  obtain ⟨round, bodies, hdispatched, hpolls⟩ := h
  cases step with
  | start hexternal allowed => exact allowed.elim
  | @env event shared henv allowed =>
      refine ⟨round, bodies, ⟨hdispatched.jobs, hdispatched.stage, hdispatched.spawned⟩, ?_⟩
      cases event with
      | shutdown => exact allowed.elim
      | recv proposal => exact hpolls.recv allowed henv
      | reach => exact hpolls.reach henv
      | produce index response => exact hpolls.produce allowed henv
  | @fire i job op cont proposal ans shared hfuture hperform allowed =>
      rcases hdispatched.future hfuture with ⟨rfl, -⟩ | ⟨hi, body, -, rfl⟩
      · obtain ⟨after, hdispatches, hafter⟩ := hdispatched.main_step hprojects hfuture ans
        refine ⟨after, _, hafter, ?_⟩
        rw [submissions_advance, List.append_assoc, ← hdispatches.left, ← List.append_assoc]
        exact polls_main hpoll hdispatches hpolls hperform allowed
      · obtain ⟨hop, hafter⟩ := hdispatched.body_step hprojects hi hfuture ans
        refine ⟨round, bodies, hafter, ?_⟩
        have htouches : touchesSlot ⟨op, ans⟩ = false := by
          cases op <;> first | rfl | exact hop.elim
        have hsubmitted : submitted? ⟨op, ans⟩ = none := by
          cases op <;> first | rfl | exact hop.elim
        obtain ⟨hslot, hexchanges⟩ := (perform_effect hperform).slot htouches
        rw [submissions_advance, hsubmitted, Option.toList_none, List.append_nil]
        exact hpolls.congr hslot hexchanges

theorem fetches_run (hpoll : agent.recvTasks = recvTasks codec transport)
    {maxConcurrent : Nat}
    (run : Run (undisturbed agent codec)
      ((Pool.initial (Shared.initial maxConcurrent)).launch .main) pool) :
    pool.Projects ∧ Fetches codec transport pool :=
  Run.invariant_of_projects run (projects_start _) (fetches_start maxConcurrent)
    (fetches_step hpoll)

theorem Dispatched.idle {round : Round} {bodies : List Body}
    (h : Dispatched pool round bodies) (hprojects : pool.Projects) {job : Job}
    {rest : Unit → Prog AgentSig Unit}
    (hfuture : pool.futures[0]? = some ⟨job, .call (S := AgentSig) .openRecv rest⟩) :
    round = .idle := by
  obtain ⟨q, after, hq, hafter⟩ := hprojects.accepts (program_dispatch agent) hfuture ()
  obtain rfl : round = q := Option.some.inj (h.stage.symm.trans hq)
  cases dispatches_of_dispatch hafter with
  | openRecv => rfl
  | other hneutral => cases hneutral

theorem delivered_of_undisturbed (hpoll : agent.recvTasks = recvTasks codec transport)
    {maxConcurrent : Nat}
    (run : Run (undisturbed agent codec)
      ((Pool.initial (Shared.initial maxConcurrent)).launch .main) pool) :
    Delivered codec pool := by
  obtain ⟨hprojects, round, bodies, hdispatched, hpolls⟩ := fetches_run hpoll run
  obtain ⟨inFlight, haccount, hnone⟩ := hpolls.account
  refine ⟨fun rest hfuture => ?_, ?_, hpolls.unreached⟩
  · obtain rfl := hdispatched.idle hprojects hfuture
    rw [haccount, hnone rfl]
    simp [Round.idle]
  · rw [haccount, List.append_assoc, List.map_append]
    exact List.prefix_append _ _

end Law

/-! ## An item that is lost -/

theorem responseItems_sample : responseItems wireCodec sampleResponse = [sampleWork.encode] := by
  have hsuccess : sampleResponse.status.isSuccess = true := rfl
  have hdecode : decode wireCodec sampleResponse.body = .ok [sampleWork] := decode_sampleBody
  have hitems : wireCodec.items sampleResponse.body = .ok [sampleWork.encode] := items_sampleBody
  rw [responseItems, if_pos hsuccess]
  split
  next hblank =>
      rw [decode, if_pos hblank] at hdecode
      cases hdecode
  next => rw [hitems]

theorem sampleResponse_wellFormed : WellFormed wireCodec sampleResponse where
  parses _ := ⟨_, decode_sampleBody⟩
  decodes := by
    rw [responseItems_sample]
    simp [decodeItem_sampleWork]

theorem delivering_delivers : Delivers delivering := ⟨nofun, nofun⟩

/-- The first poll goes the same way whether or not a later one may be dropped. -/
theorem run_firstPoll {π : Policy pollingAgent.system}
    (hfire : ∀ pool i event, event.1 ≠ .dropRecv → π.fire pool i event)
    (henv : ∀ pool event, (responsive pollingAgent wireCodec).env pool event →
      π.env pool event) :
    Run π pollingStart (fetched (.ok [sampleWork])) := by
  have hrecv (pool : Pool pollingAgent.system) : π.env pool (.recv delivering) :=
    henv pool (.recv delivering) fun _ _ _ => delivering_delivers
  refine run_answeredOnce ?_
  iterate 5 refine .cons (Pool.allows_fire _ rfl fun _ => hfire _ _ _ nofun) rfl ?_
  refine .cons (hrecv _) rfl ?_
  refine .cons (henv _ .reach trivial) rfl ?_
  refine .cons (henv _ (.produce 0 sampleResponse) sampleResponse_wellFormed) rfl ?_
  iterate 2 refine .cons (hrecv _) rfl ?_
  trivial

/--
The second poll is answered; before the agent looks at it the result of the
first task is there.
-/
def lostItem : List (Label pollingAgent.system) :=
  submittedItem ++ .fire 0 obliging ::
    [.env (.recv delivering), .env .reach, .env (.produce 1 sampleResponse)] ++
    List.replicate 14 (.fire 1 obliging) ++ List.replicate 4 (.fire 0 obliging)

theorem answered_poll_dropped :
    ∃ pool, Run (responsive pollingAgent wireCodec) pollingStart pool ∧
      ¬ Delivered wireCodec pool := by
  have hfirst : Run (responsive pollingAgent wireCodec) pollingStart
      (fetched (.ok [sampleWork])) :=
    run_firstPoll (fun _ _ _ _ => trivial) fun _ _ => id
  have hfollows : Pool.Follows (responsive pollingAgent wireCodec) (fetched (.ok [sampleWork]))
      lostItem := by
    iterate 10 refine .cons (Pool.allows_fire _ rfl fun _ => trivial) rfl ?_
    refine .cons (fun _ _ _ => delivering_delivers) rfl ?_
    refine .cons trivial rfl ?_
    refine .cons sampleResponse_wellFormed rfl ?_
    iterate 18 refine .cons (Pool.allows_fire _ rfl fun _ => trivial) rfl ?_
    trivial
  refine ⟨((fetched (.ok [sampleWork])).script lostItem).get rfl,
    hfirst.trans (Pool.run_script hfollows), fun h => ?_⟩
  -- two items were handed out and one was submitted
  have hproduced : producedItems wireCodec
      (((fetched (.ok [sampleWork])).script lostItem).get rfl).shared =
        responseItems wireCodec sampleResponse ++ (responseItems wireCodec sampleResponse ++ []) :=
    rfl
  have hlength := congrArg List.length (h.complete _ rfl)
  rw [hproduced, responseItems_sample] at hlength
  exact absurd hlength (by decide)

theorem submittedItem_follows :
    Pool.Follows (undisturbed pollingAgent wireCodec) (fetched (.ok [sampleWork]))
      submittedItem := by
  iterate 9 refine .cons (Pool.allows_fire _ rfl fun _ => nofun) rfl ?_
  trivial

theorem delivered_polledOnce :
    ∃ pool, Run (undisturbed pollingAgent wireCodec) pollingStart pool ∧
      Delivered wireCodec pool ∧ submissions pool = [sampleWork] := by
  have hfirst : Run (undisturbed pollingAgent wireCodec) pollingStart
      (fetched (.ok [sampleWork])) :=
    run_firstPoll (fun _ _ _ hop heq => absurd heq hop) fun _ _ => id
  have run : Run (undisturbed pollingAgent wireCodec) pollingStart
      (((fetched (.ok [sampleWork])).script submittedItem).get rfl) :=
    hfirst.trans (Pool.run_script submittedItem_follows)
  exact ⟨_, run, delivered_of_undisturbed rfl run, rfl⟩

end VasalAgent.Agent
