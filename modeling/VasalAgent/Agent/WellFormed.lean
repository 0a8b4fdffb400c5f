import VasalAgent.Agent.Pipeline
import VasalAgent.Task.WellFormed

/-!
# Results that leave the agent

Every row of the journal and every result on its way to the control plane goes
back to a call of a spawned future, and is a well-formed result of the task or
chain of that future.
-/

namespace VasalAgent.Agent

open VasalAgent.Async
open VasalAgent.Protocol
open VasalAgent.Task
open VasalAgent.Transport

/-! ## What a future vouches for -/

/-- The executors' calls among the answers that are assumed. -/
abbrev inExec (assume : Event AgentSig → Prop) : Event ExecSig → Prop :=
  fun event => assume ⟨.exec event.1, event.2⟩

/-- The result is well formed and reports on the task of the body, or a step of its chain. -/
def Body.Vouches (assume : Event AgentSig → Prop) : Body → TaskResult → Prop
  | .exec task _, result => Reports (inExec assume) task result
  | .routed task _, result => Task.WellFormed task.id (fun _ => False) result
  | .chain steps _, result => StepReports (inExec assume) steps result

def Job.Vouches (assume : Event AgentSig → Prop) : Job → TaskResult → Prop
  | .body spawned, result => spawned.Vouches assume result
  | _, _ => False

/-- What is journaled, put on the channel or handed to the transport is vouched for. -/
def Vouched (assume : Event AgentSig → Prop) (job : Job) : Event AgentSig → Prop
  | ⟨.sendResult result, _⟩ => job.Vouches assume result
  | ⟨.recordTaskResult row, _⟩ =>
      ∃ result, row = resultToJournalRow result ∧ job.Vouches assume result
  | ⟨.exec (.recordTick _ row), _⟩ =>
      ∃ result, row = Continuous.tickRow result ∧ job.Vouches assume result
  | ⟨.forward result, _⟩ =>
      assume ⟨.pollResult, some result⟩ ∨ assume ⟨.tryRecv, some result⟩
  | _ => True

/-- The calls that hand on no result. -/
def AgentOp.mute : AgentOp → Prop
  | .exec (.recordTick ..) => False
  | .recordTaskResult _ => False
  | .sendResult _ => False
  | .forward _ => False
  | _ => True

theorem vouched_mute {assume : Event AgentSig → Prop} {job : Job} {op : AgentOp} {ans : op.Ans}
    (h : op.mute) : Vouched assume job ⟨op, ans⟩ := by
  cases op with
  | exec op => cases op <;> trivial
  | _ => trivial

section Programs

variable {assume : Event AgentSig → Prop} {job : Job} {m : TaskManager}

/-- `p` hands on only what is vouched for, and returns a value that satisfies `post`. -/
abbrev Vouching {α : Type} (assume : Event AgentSig → Prop) (job : Job) (post : α → Prop)
    (p : Prog AgentSig α) : Prop :=
  p.Ensures assume (Monitor.checking (Vouched assume job)) (fun value _ => post value) ()

theorem vouching_mute {α : Type} {p : Prog AgentSig α} (h : p.Uses AgentOp.mute) :
    Vouching assume job (fun _ => True) p :=
  (Prog.yields_any p).checked h fun _ _ => vouched_mute

theorem vouching_call {α : Type} {post : α → Prop} {op : AgentOp}
    {next : op.Ans → Prog AgentSig α} (hop : ∀ ans, Vouched assume job ⟨op, ans⟩)
    (h : ∀ ans, assume ⟨op, ans⟩ → Vouching assume job post (next ans)) :
    Vouching assume job post (.call op next) :=
  fun ans hans => ⟨(), Monitor.checking_of_good (hop ans) (), h ans hans⟩

/-! ### Spawned futures -/

theorem vouching_journal {result : TaskResult} (h : job.Vouches assume result) :
    Vouching assume job (fun _ => True) (TaskManager.journal result) :=
  vouching_call (fun _ => ⟨result, rfl, h⟩) fun _ _ => trivial

theorem vouching_send {result : TaskResult} (h : job.Vouches assume result) :
    Vouching assume job (fun _ => True) (m.send result) := by
  unfold TaskManager.send
  split
  · exact vouching_call (fun _ => h) fun _ _ => trivial
  · trivial

theorem mute_submission {α : Type} {p : Prog AgentSig α} (h : p.Uses AgentOp.isSubmission) :
    p.Uses AgentOp.mute := by
  refine h.mono fun op hop => ?_
  cases op with
  | exec op => cases op <;> trivial
  | _ => trivial

theorem vouching_report {results : List TaskResult}
    (h : ∀ result ∈ results, job.Vouches assume result) :
    Vouching assume job (fun _ => True) (m.report results) := by
  induction results with
  | nil => trivial
  | cons result rest ih =>
      simp only [List.forall_mem_cons] at h
      apply (vouching_journal h.1).bind
      intro _ _ _
      apply (vouching_send h.1).bind
      intro _ _ _
      exact ih h.2

theorem mute_of_unticked {op : ExecOp} (h : op.unticked) : (AgentOp.exec op).mute := by
  cases op <;> trivial

/-- Executors that make no call for ticks. -/
theorem vouching_lift {α : Type} {post : α → Prop} {p : Prog ExecSig α}
    (h : p.Yields (inExec assume) post) (huses : p.Uses ExecOp.unticked) :
    Vouching assume job post (lift p) := by
  induction p with
  | ret value => exact h
  | call op next ih =>
      apply vouching_call
      · exact fun _ => vouched_mute (mute_of_unticked huses.1)
      · exact fun ans hans => ih ans (h ans hans) (huses.2 ans)
  | hang => trivial

theorem vouching_executeExec {exec : ExecTask} {n fuel : Nat} {socketDir : String}
    {cancel shutdown : Token} :
    Vouching assume (.body (.exec exec n)) (Reports (inExec assume) exec)
      (lift (executeExec socketDir exec cancel shutdown fuel)) := by
  apply lift_ensures_of _ checked_executeExec
  intro q op ans q' hq'
  apply Monitor.checking_of_good
  have htick : TickOf (inExec assume) exec ⟨op, ans⟩ := by
    simp only [Monitor.checking, Option.ite_none_right_eq_some] at hq'
    exact hq'.1
  cases op with
  | recordTick k row =>
      obtain ⟨result, hrow, hresult⟩ := htick
      exact ⟨result, hrow, .tick k, hresult⟩
  | _ => trivial

theorem vouching_work (body : Body) :
    Vouching assume (.body body) (fun _ => True) (m.work body) := by
  cases body with
  | exec exec n =>
      apply vouching_executeExec.bind
      intro result _ hresult
      have hvouches : Job.Vouches assume (.body (.exec exec n)) result := hresult
      apply (vouching_journal hvouches).bind
      intro _ _ _
      apply (vouching_mute (mute_submission (submission_audit ..))).bind
      intro _ _ _
      exact vouching_send hvouches
  | routed task n =>
      apply (vouching_lift (yields_routeTask task) (unticked_routeTask task)).bind
      intro result _ hresult
      have hvouches : Job.Vouches assume (.body (.routed task n)) result := hresult
      apply (vouching_journal hvouches).bind
      intro _ _ _
      exact vouching_send hvouches
  | chain chain n =>
      apply (vouching_lift yields_chain unticked_chain).bind
      intro results _ hresults
      exact vouching_report hresults

theorem mute_deregister (id : Uuid) : (TaskManager.deregister id).Uses AgentOp.mute :=
  ⟨trivial, fun _ => ⟨trivial, fun _ => trivial⟩⟩

theorem vouching_runBody (body : Body) :
    Vouching assume (.body body) (fun _ => True) (m.runBody body) := by
  have hinner : Vouching assume (.body body) (fun _ => True)
      (m.work body >>= fun _ => TaskManager.deregister body.id) := by
    apply (vouching_work body).bind
    exact fun _ _ _ => vouching_mute (mute_deregister _)
  rw [runBody_eq]
  split
  · refine vouching_call (fun _ => trivial) fun _ _ => ?_
    apply hinner.bind
    exact fun _ _ _ => vouching_call (fun _ => trivial) fun _ _ => trivial
  · exact hinner

/-! ### Submission and the main loop -/

/-- The result with which the `select!` returns has come from the channel. -/
def Taken (assume : Event AgentSig → Prop) : MainWake → Prop
  | .result result => assume ⟨.pollResult, some result⟩
  | _ => True

theorem vouching_pollBranches (fuel : Nat) :
    Vouching assume job (Taken assume) (pollBranches fuel) := by
  induction fuel with
  | zero => trivial
  | succ fuel ih =>
      refine vouching_call (fun _ => trivial) fun ready _ => ?_
      cases ready with
      | true => exact vouching_call (fun _ => trivial) fun _ _ => trivial
      | false =>
          refine vouching_call (fun _ => trivial) fun result hresult => ?_
          cases result with
          | some result => exact vouching_call (fun _ => trivial) fun _ _ => hresult
          | none =>
              refine vouching_call (fun _ => trivial) fun work _ => ?_
              cases work with
              | some work => trivial
              | none => exact ih

theorem vouching_forward {result : TaskResult}
    (h : assume ⟨.pollResult, some result⟩ ∨ assume ⟨.tryRecv, some result⟩) :
    Vouching assume job (fun _ => True) (forward result) :=
  vouching_call (fun _ => h) fun _ _ => trivial

theorem vouching_mainLoop (polls fuel : Nat) :
    Vouching assume job (fun _ => True) (mainLoop polls fuel) := by
  induction fuel with
  | zero => trivial
  | succ fuel ih =>
      have hselect : Vouching assume job (Taken assume) (select polls) :=
        vouching_call (fun _ => trivial) fun _ _ => vouching_pollBranches polls
      apply hselect.bind
      intro wake _ hwake
      cases wake with
      | shutdown => trivial
      | result result => exact (vouching_forward (.inl hwake)).bind fun _ _ _ => ih
      | work work =>
          cases work with
          | error e => exact ih
          | ok items =>
              have hmute := mute_submission (submission_submitAll items)
              exact (vouching_mute hmute).bind fun _ _ _ => ih

theorem vouching_drain (fuel : Nat) : Vouching assume job (fun _ => True) (drain fuel) := by
  induction fuel with
  | zero => trivial
  | succ fuel ih =>
      refine vouching_call (fun _ => trivial) fun result hresult => ?_
      cases result with
      | none => trivial
      | some result => exact (vouching_forward (.inr hresult)).bind fun _ _ _ => ih

theorem vouching_program {agent : AgentConfig} (job : Job) :
    Vouching assume job (fun _ => True) (agent.program job) := by
  cases job with
  | main =>
      apply (vouching_mute (mute_submission (submission_audit ..))).bind
      intro _ _ _
      apply (vouching_mainLoop agent.rounds agent.rounds).bind
      intro _ _ _
      apply (vouching_drain agent.rounds).bind
      intro _ _ _
      apply (vouching_mute (mute_submission (submission_audit ..))).bind
      intro _ _ _
      exact vouching_call (fun _ => trivial) fun _ _ => trivial
  | call work => exact vouching_mute (mute_submission (submission_submitWork work))
  | body body => exact vouching_runBody body

end Programs

/-! ## Where results come from -/

section Runs

variable {agent : AgentConfig} {pool next : Pool agent.system}

def takenResult? : Event AgentSig → Option TaskResult
  | ⟨.pollResult, taken⟩ => taken
  | ⟨.tryRecv, taken⟩ => taken
  | _ => none

def sentResult? : Event AgentSig → Option TaskResult
  | ⟨.sendResult result, _⟩ => some result
  | _ => none

def forwardedResult? : Event AgentSig → Option TaskResult
  | ⟨.forward result, _⟩ => some result
  | _ => none

/-- The results that a call takes from the channel, puts on it and hands on. -/
theorem Performs.channel {s s' : Shared} {event : Event AgentSig}
    (h : Performs agent s event s') :
    (takenResult? event).toList ++ s'.channel = s.channel ++ (sentResult? event).toList ∧
      s'.forwarded = s.forwarded ++ (forwardedResult? event).toList := by
  cases h with
  | exec op ans =>
      cases op with
      | recordTick n row => cases ans <;> simp [Shared.execEffect, Shared.write,
          takenResult?, sentResult?, forwardedResult?]
      | _ => simp [Shared.execEffect, takenResult?, sentResult?, forwardedResult?]
  | record row written => cases written <;> simp [Shared.write, takenResult?, sentResult?,
      forwardedResult?]
  | pollResult h | tryRecv h => simp [takenResult?, sentResult?, forwardedResult?, h]
  | _ => simp [Shared.openRecv, Shared.dropRecv, Shared.modifyLast, takenResult?, sentResult?,
      forwardedResult?]

theorem environment_channel {s s' : Shared} {event : Env}
    (h : environment s event = some s') :
    s'.channel = s.channel ∧ s'.forwarded = s.forwarded := by
  cases event with
  | shutdown =>
      cases h
      simp
  | recv proposal =>
      simp only [environment] at h
      split at h
      · obtain ⟨ans, -, rfl⟩ := Option.map_eq_some_iff.mp h
        simp
      · cases h
  | reach | produce _ _ =>
      simp only [environment] at h
      split at h
      · cases h
        simp [Shared.modifyLast]
      · cases h

/-- A call of the log that journals, sends or forwards. -/
def Stems (pool : Pool agent.system) {α : Type} (note : Event AgentSig → Option α)
    (value : α) : Prop :=
  ∃ entry ∈ pool.log, note entry.2 = some value

/-- What the store and the channels hold stems from calls that put it there. -/
structure Provenance (pool : Pool agent.system) : Prop where
  journal : ∀ row ∈ pool.shared.journal, Stems pool journaled? row
  channel : ∀ result ∈ pool.shared.channel, Stems pool sentResult? result
  taken : ∀ entry ∈ pool.log, ∀ result, takenResult? entry.2 = some result →
    Stems pool sentResult? result
  forwarded : ∀ result ∈ pool.shared.forwarded, Stems pool forwardedResult? result

section Fire

variable {i : Nat} {job : Job} {event : Event AgentSig} {rest : Prog AgentSig Unit}
  {shared : Shared} {α : Type} {note : Event AgentSig → Option α} {value : α}

theorem Stems.advance (h : Stems pool note value) :
    Stems (pool.advance i job event rest shared) note value := by
  obtain ⟨entry, hentry, hnote⟩ := h
  exact ⟨entry, by simp [Pool.advance, hentry], hnote⟩

theorem stems_new (h : note event = some value) :
    Stems (pool.advance i job event rest shared) note value :=
  ⟨(i, event), by simp [Pool.advance], h⟩

/-- A list that grows by the notes of the calls stems from them. -/
theorem stems_append {values : List α} (h : ∀ value ∈ values, Stems pool note value) :
    ∀ value ∈ values ++ (note event).toList,
      Stems (pool.advance i job event rest shared) note value := by
  simp only [List.forall_mem_append, Option.mem_toList]
  exact ⟨fun value hvalue => (h value hvalue).advance, fun value hvalue => stems_new hvalue⟩

end Fire

theorem provenance_step {π : Policy agent.system} (step : Step π pool next)
    (h : Provenance pool) : Provenance next := by
  cases step with
  | start hexternal allowed => exact ⟨h.journal, h.channel, h.taken, h.forwarded⟩
  | env henv allowed =>
      obtain ⟨hchannel, hforwarded⟩ := environment_channel henv
      have hjournal := (environment_outside henv).journal
      constructor
      · simp only [hjournal]
        exact h.journal
      · simp only [hchannel]
        exact h.channel
      · exact h.taken
      · simp only [hforwarded]
        exact h.forwarded
  | @fire i job op cont proposal ans shared hfuture hperform allowed =>
      obtain ⟨hchannel, hforwarded⟩ := (performs_of_perform hperform).channel
      have hsent : ∀ result ∈ (takenResult? ⟨op, ans⟩).toList ++ shared.channel,
          Stems (pool.advance i job ⟨op, ans⟩ (cont ans) shared) sentResult? result := by
        rw [hchannel]
        exact stems_append h.channel
      simp only [List.forall_mem_append, Option.mem_toList] at hsent
      constructor
      · change ∀ row ∈ shared.journal, _
        rw [(perform_effect hperform).journal]
        exact stems_append h.journal
      · exact hsent.2
      · simp only [Pool.advance, List.forall_mem_append, List.forall_mem_singleton]
        exact ⟨fun entry hentry result htaken => (h.taken entry hentry result htaken).advance,
          hsent.1⟩
      · change ∀ result ∈ shared.forwarded, _
        rw [hforwarded]
        exact stems_append h.forwarded

/-! ## The law -/

/--
Every row of the journal and every result that is sent, to the channel or to the
control plane, is a well-formed result of the future that made it; `Vouches` looks
for the wait for a process in the history of that future.
-/
structure ResultsWellFormed (pool : Pool agent.system) : Prop where
  journaled : ∀ row ∈ pool.shared.journal, ∃ i body rest, RunsBody pool i body rest ∧
    ∃ result, (row = resultToJournalRow result ∨ row = Continuous.tickRow result) ∧
      body.Vouches (· ∈ pool.history i) result
  sent : ∀ result, result ∈ pool.shared.channel ∨ result ∈ pool.shared.forwarded →
    ∃ i body rest, RunsBody pool i body rest ∧ body.Vouches (· ∈ pool.history i) result

/-- Every call that is in the log is vouched for by the job of its future. -/
theorem vouched_of_mem (hprojects : pool.Projects) {i : Nat} {event : Event AgentSig}
    (h : (i, event) ∈ pool.log) :
    ∃ job rest, pool.futures[i]? = some ⟨job, rest⟩ ∧
      Vouched (· ∈ pool.history i) job event := by
  obtain ⟨⟨job, rest⟩, hfuture⟩ : ∃ future, pool.futures[i]? = some future :=
    ⟨_, List.getElem?_eq_getElem (hprojects.known _ h)⟩
  have hprogram : Vouching (· ∈ pool.history i) job (fun _ => True) (agent.program job) :=
    vouching_program job
  obtain ⟨q, hq, -⟩ := hprogram.steps (hprojects.steps i _ hfuture) fun _ hevent => hevent
  exact ⟨job, rest, hfuture, Monitor.good_of_checking hq event (Pool.mem_history.mpr h)⟩

theorem body_of_vouches {i : Nat} {job : Job} {rest : Prog AgentSig Unit}
    {assume : Event AgentSig → Prop} {result : TaskResult}
    (hfuture : pool.futures[i]? = some ⟨job, rest⟩) (h : job.Vouches assume result) :
    ∃ body, RunsBody pool i body rest ∧ body.Vouches assume result := by
  cases job with
  | body body => exact ⟨body, hfuture, h⟩
  | main => exact h.elim
  | call work => exact h.elim

theorem sent_of_stems (hprojects : pool.Projects) {result : TaskResult}
    (h : Stems pool sentResult? result) :
    ∃ i body rest, RunsBody pool i body rest ∧ body.Vouches (· ∈ pool.history i) result := by
  obtain ⟨⟨i, op, ans⟩, hentry, hnote⟩ := h
  obtain ⟨job, rest, hfuture, hvouched⟩ := vouched_of_mem hprojects hentry
  cases op <;> simp [sentResult?] at hnote
  subst hnote
  obtain ⟨body, hbody, hvouches⟩ := body_of_vouches hfuture hvouched
  exact ⟨i, body, rest, hbody, hvouches⟩

theorem resultsWellFormed_of_run {maxConcurrent : Nat}
    (run : Run (Policy.free agent.system) (Pool.initial (Shared.initial maxConcurrent)) pool) :
    ResultsWellFormed pool := by
  have hprojects := run.projects
  have hprovenance : Provenance pool :=
    run.invariant ⟨by simp [Pool.initial, Shared.initial], by simp [Pool.initial, Shared.initial],
      by simp [Pool.initial], by simp [Pool.initial, Shared.initial]⟩ provenance_step
  constructor
  · intro row hrow
    obtain ⟨⟨i, op, ans⟩, hentry, hnote⟩ := hprovenance.journal row hrow
    obtain ⟨job, rest, hfuture, hvouched⟩ := vouched_of_mem hprojects hentry
    cases op with
    | recordTaskResult other =>
        obtain ⟨result, hresult, hvouches⟩ := hvouched
        obtain ⟨body, hbody, hvouches⟩ := body_of_vouches hfuture hvouches
        cases ans <;> simp [journaled?] at hnote
        exact ⟨i, body, rest, hbody, result, .inl (hnote ▸ hresult), hvouches⟩
    | exec op =>
        cases op <;> simp [journaled?] at hnote
        obtain ⟨result, hresult, hvouches⟩ := hvouched
        obtain ⟨body, hbody, hvouches⟩ := body_of_vouches hfuture hvouches
        cases ans <;> simp at hnote
        exact ⟨i, body, rest, hbody, result, .inr (hnote ▸ hresult), hvouches⟩
    | _ => simp [journaled?] at hnote
  · rintro result (hchannel | hforwarded)
    · exact sent_of_stems hprojects (hprovenance.channel result hchannel)
    · obtain ⟨⟨i, op, ans⟩, hentry, hnote⟩ := hprovenance.forwarded result hforwarded
      obtain ⟨job, rest, hfuture, hvouched⟩ := vouched_of_mem hprojects hentry
      cases op <;> simp [forwardedResult?] at hnote
      subst hnote
      apply sent_of_stems hprojects
      rcases hvouched with hpolled | hreceived
      · exact hprovenance.taken _ (Pool.mem_history.mp hpolled) _ rfl
      · exact hprovenance.taken _ (Pool.mem_history.mp hreceived) _ rfl

/-- A shell task runs to its end, and its exit code is journaled. -/
theorem resultsWellFormed_ranOnce :
    ∃ pool, Run (Policy.free sampleAgent.system) sampleStart pool ∧
      pool.shared.journal.map TaskResultRow.exitCode = [some 0] ∧
      pool.shared.channel.map TaskResult.status = [.success] ∧ ResultsWellFormed pool := by
  have run : Run (Policy.free sampleAgent.system) sampleStart
      ((sampleStart.script ranOnce).get rfl) :=
    Pool.run_script_free _
  exact ⟨_, run, rfl, rfl, resultsWellFormed_of_run run⟩

end Runs

end VasalAgent.Agent
