import Mathlib.Logic.Relation
import VasalAgent.Async.Monitor

/-!
# Pools of futures

A pool holds any number of programs over one shared state.  One future at a time
completes the call it waits for; a call may spawn a further future; between the
calls the environment may change the shared state.  `Step` is one such move,
under a policy that says which moves are considered, and `Run` is any sequence
of them.

Every future of a pool that was started empty follows its own program
(`Run.projects`), so what a monitor accepts of the program it accepts of the
future's share of the log (`stage`).
-/

namespace VasalAgent.Async

structure System (S : Signature) where
  Job : Type
  Shared : Type
  Env : Type
  program : Job → Prog S Unit
  /--
  Complete a call: its answer and the new shared state.  The given answer is a
  proposal, taken where the state leaves the choice open; `none` when the call
  cannot complete, or not with that answer.
  -/
  perform : Shared → (op : S.Op) → S.Ans op → Option (S.Ans op × Shared)
  spawned : S.Op → Option Job
  /-- The jobs that are started from outside. -/
  external : Job → Bool
  environment : Shared → Env → Option Shared

variable {S : Signature} {Y : System S}

structure Future (Y : System S) where
  job : Y.Job
  rest : Prog S Unit

def System.future (Y : System S) (job : Y.Job) : Future Y := ⟨job, Y.program job⟩

/-- `log` has every completed call with the index of its future. -/
structure Pool (Y : System S) where
  shared : Y.Shared
  futures : List (Future Y)
  log : List (Nat × Event S)

namespace Pool

def initial (shared : Y.Shared) : Pool Y := ⟨shared, [], []⟩

def launch (pool : Pool Y) (job : Y.Job) : Pool Y :=
  { pool with futures := pool.futures ++ [Y.future job] }

def advance (pool : Pool Y) (i : Nat) (job : Y.Job) (event : Event S)
    (rest : Prog S Unit) (shared : Y.Shared) : Pool Y where
  shared
  futures := pool.futures.set i ⟨job, rest⟩ ++
    (Y.spawned event.1).toList.map Y.future
  log := pool.log ++ [(i, event)]

end Pool

/-! ## Steps and runs -/

structure Policy (Y : System S) where
  start : Pool Y → Y.Job → Prop
  fire : Pool Y → Nat → Event S → Prop
  env : Pool Y → Y.Env → Prop

def Policy.free (Y : System S) : Policy Y where
  start _ _ := True
  fire _ _ _ := True
  env _ _ := True

inductive Step (π : Policy Y) : Pool Y → Pool Y → Prop
  | start {pool : Pool Y} {job : Y.Job} (hexternal : Y.external job = true)
      (allowed : π.start pool job) :
      Step π pool (pool.launch job)
  | fire {pool : Pool Y} {i : Nat} {job : Y.Job} {op : S.Op}
      {next : S.Ans op → Prog S Unit} {proposal ans : S.Ans op} {shared : Y.Shared}
      (hfuture : pool.futures[i]? = some ⟨job, .call op next⟩)
      (hperform : Y.perform pool.shared op proposal = some (ans, shared))
      (allowed : π.fire pool i ⟨op, ans⟩) :
      Step π pool (pool.advance i job ⟨op, ans⟩ (next ans) shared)
  | env {pool : Pool Y} {event : Y.Env} {shared : Y.Shared}
      (henv : Y.environment pool.shared event = some shared)
      (allowed : π.env pool event) :
      Step π pool { pool with shared }

abbrev Run (π : Policy Y) : Pool Y → Pool Y → Prop :=
  Relation.ReflTransGen (Step π)

theorem Run.invariant {π : Policy Y} {I : Pool Y → Prop} {pool last : Pool Y}
    (run : Run π pool last) (hpool : I pool)
    (hstep : ∀ {before after}, Step π before after → I before → I after) :
    I last := by
  induction run with
  | refl => exact hpool
  | tail _ step ih => exact hstep step ih

/-! ## Scripted runs -/

inductive Label (Y : System S) where
  | start (job : Y.Job)
  | fire (i : Nat) (proposal : (op : S.Op) → S.Ans op)
  | env (event : Y.Env)

namespace Pool

def step (pool : Pool Y) : Label Y → Option (Pool Y)
  | .start job => if Y.external job then some (pool.launch job) else none
  | .fire i proposal =>
      match pool.futures[i]? with
      | some ⟨job, .call op next⟩ =>
          (Y.perform pool.shared op (proposal op)).map fun done =>
            pool.advance i job ⟨op, done.1⟩ (next done.1) done.2
      | _ => none
  | .env event =>
      (Y.environment pool.shared event).map fun shared => { pool with shared }

def script (pool : Pool Y) : List (Label Y) → Option (Pool Y)
  | [] => some pool
  | label :: rest => (pool.step label).bind fun next => next.script rest

def allows (π : Policy Y) (pool : Pool Y) : Label Y → Prop
  | .start job => π.start pool job
  | .fire i proposal => ∀ job op next done,
      pool.futures[i]? = some ⟨job, .call op next⟩ →
      Y.perform pool.shared op (proposal op) = some done → π.fire pool i ⟨op, done.1⟩
  | .env event => π.env pool event

theorem step_of_allows {π : Policy Y} {pool next : Pool Y} {label : Label Y}
    (h : pool.step label = some next) (hallows : allows π pool label) :
    Step π pool next := by
  cases label with
  | start job =>
      rw [step] at h
      split at h
      next hexternal =>
          cases h
          exact .start hexternal hallows
      next => cases h
  | fire i proposal =>
      rw [step] at h
      split at h
      next job op cont hfuture =>
          obtain ⟨⟨ans, shared⟩, hperform, rfl⟩ := Option.map_eq_some_iff.mp h
          exact .fire hfuture hperform (hallows job op cont _ hfuture hperform)
      next => cases h
  | env event =>
      obtain ⟨shared, henv, rfl⟩ := Option.map_eq_some_iff.mp h
      exact .env henv hallows

def Follows (π : Policy Y) : Pool Y → List (Label Y) → Prop
  | _, [] => True
  | pool, label :: rest => allows π pool label ∧
      ∀ next, pool.step label = some next → Follows π next rest

theorem Follows.cons {π : Policy Y} {pool next : Pool Y} {label : Label Y}
    {rest : List (Label Y)} (hallows : allows π pool label)
    (hnext : pool.step label = some next) (h : Follows π next rest) :
    Follows π pool (label :: rest) := by
  refine ⟨hallows, fun other hother => ?_⟩
  rw [hnext] at hother
  cases hother
  exact h

theorem allows_fire {π : Policy Y} {pool : Pool Y} {i : Nat} {job : Y.Job} {op : S.Op}
    {next : S.Ans op → Prog S Unit} (proposal : (op : S.Op) → S.Ans op)
    (hfuture : pool.futures[i]? = some ⟨job, .call op next⟩)
    (h : ∀ ans, π.fire pool i ⟨op, ans⟩) : allows π pool (.fire i proposal) := by
  intro job' op' next' done hfuture' _
  rw [hfuture] at hfuture'
  cases hfuture'
  exact h done.1

theorem allows_performed {π : Policy Y} {pool : Pool Y} {i : Nat} {job : Y.Job} {op : S.Op}
    {next : S.Ans op → Prog S Unit} {proposal : (op : S.Op) → S.Ans op}
    {done : S.Ans op × Y.Shared}
    (hfuture : pool.futures[i]? = some ⟨job, .call op next⟩)
    (hperform : Y.perform pool.shared op (proposal op) = some done)
    (h : π.fire pool i ⟨op, done.1⟩) : allows π pool (.fire i proposal) := by
  intro job' op' next' done' hfuture' hperform'
  rw [hfuture] at hfuture'
  cases hfuture'
  rw [hperform] at hperform'
  cases hperform'
  exact h

theorem follows_free (pool : Pool Y) (labels : List (Label Y)) :
    Follows (Policy.free Y) pool labels := by
  induction labels generalizing pool with
  | nil => trivial
  | cons label rest ih =>
      refine ⟨?_, fun next _ => ih next⟩
      cases label <;> simp [allows, Policy.free]

theorem run_of_script {π : Policy Y} {pool last : Pool Y} {labels : List (Label Y)}
    (h : pool.script labels = some last) (hfollows : Follows π pool labels) :
    Run π pool last := by
  induction labels generalizing pool with
  | nil =>
      cases h
      exact .refl
  | cons label rest ih =>
      obtain ⟨next, hnext, hrest⟩ := Option.bind_eq_some_iff.mp h
      exact .head (step_of_allows hnext hfollows.1) (ih hrest (hfollows.2 next hnext))

theorem run_script {π : Policy Y} {pool : Pool Y} {labels : List (Label Y)}
    {h : (pool.script labels).isSome = true} (hfollows : Follows π pool labels) :
    Run π pool ((pool.script labels).get h) :=
  run_of_script (Option.some_get h).symm hfollows

theorem run_script_free {pool : Pool Y} {labels : List (Label Y)}
    (h : (pool.script labels).isSome = true) :
    Run (Policy.free Y) pool ((pool.script labels).get h) :=
  run_script (follows_free pool labels)

/-! ## Histories -/

def history (pool : Pool Y) (i : Nat) : List (Event S) :=
  pool.log.filterMap fun entry => if entry.1 = i then some entry.2 else none

/-- Every entry of a log is good after what stands before it. -/
def EachAfter {E : Type} (good : List E → E → Prop) (log : List E) : Prop :=
  ∀ earlier entry later, log = earlier ++ entry :: later → good earlier entry

theorem EachAfter.concat {E : Type} {good : List E → E → Prop} {log : List E} {entry : E}
    (h : EachAfter good log) (hentry : good log entry) : EachAfter good (log ++ [entry]) := by
  intro earlier other later heq
  rcases List.eq_nil_or_concat later with rfl | ⟨init, last, rfl⟩
  · obtain ⟨rfl, hlast⟩ := List.append_inj' heq rfl
    cases hlast
    exact hentry
  · have hcut : log ++ [entry] = (earlier ++ other :: init) ++ [last] := by
      rw [heq, List.concat_eq_append, List.append_assoc, List.cons_append]
    exact h earlier other init (List.append_inj' hcut rfl).1

/-- The calls of future `i` in a part of a log. -/
def shareOf (log : List (Nat × Event S)) (i : Nat) : List (Event S) :=
  log.filterMap fun entry => if entry.1 = i then some entry.2 else none

theorem history_split {pool : Pool Y} {i : Nat} {event : Event S}
    {earlier later : List (Nat × Event S)} (h : pool.log = earlier ++ (i, event) :: later) :
    pool.history i = shareOf earlier i ++ event :: shareOf later i := by
  simp [history, shareOf, h]

section Advance

variable {pool : Pool Y} {i j : Nat} {job : Y.Job} {event : Event S}
  {rest : Prog S Unit} {shared : Y.Shared}

theorem mem_history : event ∈ pool.history i ↔ (i, event) ∈ pool.log := by
  simp only [history, List.mem_filterMap]
  constructor
  · rintro ⟨⟨k, other⟩, hmem, hother⟩
    split at hother
    next heq =>
        cases hother
        exact heq ▸ hmem
    next => cases hother
  · intro hmem
    exact ⟨_, hmem, if_pos rfl⟩

theorem exists_first_entry {tail : List (Event S)}
    (h : pool.history i = event :: tail) {m : Nat} {other : Event S}
    (hm : pool.log[m]? = some (i, other)) : ∃ k ≤ m, pool.log[k]? = some (i, event) := by
  unfold history at h
  generalize pool.log = log at h hm
  induction log generalizing m with
  | nil => cases h
  | cons entry rest ih =>
      by_cases heq : entry.1 = i
      · rw [List.filterMap_cons, if_pos heq] at h
        cases h
        exact ⟨0, Nat.zero_le _, by rw [← heq]; rfl⟩
      · rw [List.filterMap_cons, if_neg heq] at h
        cases m with
        | zero =>
            cases hm
            exact absurd rfl heq
        | succ m =>
            obtain ⟨k, hk, hentry⟩ := ih h hm
            exact ⟨k + 1, Nat.succ_le_succ hk, hentry⟩

theorem history_advance :
    (pool.advance i job event rest shared).history j =
      pool.history j ++ if j = i then [event] else [] := by
  simp only [history, advance, List.filterMap_append]
  congr 1
  by_cases h : j = i
  · simp [h]
  · simp [h, Ne.symm h]

theorem getElem?_advance {old : Future Y} (h : pool.futures[i]? = some old) :
    (pool.advance i job event rest shared).futures[j]? =
      if j = i then some ⟨job, rest⟩
      else if j = pool.futures.length then (Y.spawned event.1).map Y.future
      else pool.futures[j]? := by
  have hi : i < pool.futures.length := (List.getElem?_eq_some_iff.mp h).1
  simp only [advance, List.getElem?_append, List.length_set, List.getElem?_set]
  by_cases hji : j = i
  · simp [hji, hi]
  · rw [if_neg hji, if_neg (Ne.symm hji)]
    rcases Nat.lt_trichotomy j pool.futures.length with hlt | heq | hgt
    · rw [if_pos hlt, if_neg (Nat.ne_of_lt hlt)]
    · rw [if_neg (by omega), if_pos heq, heq, Nat.sub_self]
      cases Y.spawned event.1 <;> rfl
    · have hnone : pool.futures[j]? = none := List.getElem?_eq_none (by omega)
      rw [if_neg (by omega), if_neg (by omega), hnone, List.getElem?_eq_none_iff]
      cases Y.spawned event.1 with
      | none => exact Nat.zero_le _
      | some spawnedJob =>
          change 1 ≤ j - pool.futures.length
          omega

theorem jobs_advance {old : Prog S Unit} (h : pool.futures[i]? = some ⟨job, old⟩) :
    (pool.advance i job event rest shared).futures.map Future.job =
      pool.futures.map Future.job ++ (Y.spawned event.1).toList := by
  have hsame : (pool.futures.map Future.job).set i job = pool.futures.map Future.job := by
    have hi : i < pool.futures.length := (List.getElem?_eq_some_iff.mp h).1
    refine List.ext_getElem? fun k => ?_
    rw [List.getElem?_set]
    split
    next heq =>
        rw [if_pos (by simpa using hi), ← heq, List.getElem?_map, h]
        rfl
    next => rfl
  simp only [advance, List.map_append, List.map_set, List.map_map, hsame]
  cases Y.spawned event.1 <;> rfl

theorem getElem?_log_advance {m : Nat} {entry : Nat × Event S} :
    (pool.advance i job event rest shared).log[m]? = some entry ↔
      pool.log[m]? = some entry ∨ m = pool.log.length ∧ entry = (i, event) := by
  simp only [advance, List.getElem?_append]
  rcases Nat.lt_trichotomy m pool.log.length with hlt | heq | hgt
  · simp [hlt, Nat.ne_of_lt hlt]
  · simp [heq, eq_comm]
  · have hpos : m - pool.log.length ≠ 0 := by omega
    simp [Nat.not_lt_of_gt hgt, Nat.ne_of_gt hgt, hpos]

theorem getElem?_launch :
    (pool.launch job).futures[j]? =
      if j = pool.futures.length then some (Y.future job) else pool.futures[j]? := by
  simp only [launch, List.getElem?_append]
  rcases Nat.lt_trichotomy j pool.futures.length with hlt | heq | hgt
  · rw [if_pos hlt, if_neg (Nat.ne_of_lt hlt)]
  · simp [heq]
  · have hnone : pool.futures[j]? = none := List.getElem?_eq_none (by omega)
    rw [if_neg (by omega), if_neg (by omega), hnone, List.getElem?_eq_none_iff]
    change 1 ≤ j - pool.futures.length
    omega

end Advance

/-! ## Projection -/

structure Projects (pool : Pool Y) : Prop where
  known : ∀ entry ∈ pool.log, entry.1 < pool.futures.length
  steps : ∀ i future, pool.futures[i]? = some future →
    Prog.Steps (Y.program future.job) (pool.history i) future.rest

theorem initial_projects (shared : Y.Shared) : (initial shared).Projects where
  known := by simp [initial]
  steps := by simp [initial]

theorem Projects.history_new {pool : Pool Y} (h : pool.Projects) {i : Nat}
    (hi : pool.futures.length ≤ i) : pool.history i = [] := by
  rw [List.eq_nil_iff_forall_not_mem]
  intro event hevent
  have := h.known _ (mem_history.mp hevent)
  omega

end Pool

open Pool

theorem Step.projects {π : Policy Y} {pool next : Pool Y} (step : Step π pool next)
    (h : pool.Projects) : next.Projects := by
  cases step with
  | start hexternal allowed =>
      refine ⟨fun entry hentry => ?_, fun j future hfuture => ?_⟩
      · have := h.known entry hentry
        simp only [launch, List.length_append]
        omega
      · rw [getElem?_launch] at hfuture
        split at hfuture
        next heq =>
            cases hfuture
            have hnew : pool.history j = [] := h.history_new (by omega)
            exact hnew ▸ Prog.Steps.refl _
        next => exact h.steps j future hfuture
  | @fire i job op cont proposal ans shared hfuture hperform allowed =>
      have hi : i < pool.futures.length := (List.getElem?_eq_some_iff.mp hfuture).1
      refine ⟨fun entry hentry => ?_, fun j future hj => ?_⟩
      · simp only [advance, List.length_append, List.length_set]
        simp only [advance, List.mem_append, List.mem_singleton] at hentry
        rcases hentry with hold | rfl
        · have := h.known entry hold
          omega
        · exact Nat.lt_add_right _ hi
      · rw [history_advance]
        rw [getElem?_advance hfuture] at hj
        split at hj
        next heq =>
            cases hj
            rw [heq, if_pos rfl]
            exact (h.steps i _ hfuture).snoc ans
        next hne =>
            rw [if_neg hne, List.append_nil]
            split at hj
            next heq =>
                obtain ⟨spawnedJob, -, rfl⟩ := Option.map_eq_some_iff.mp hj
                rw [h.history_new (by omega)]
                exact .refl _
            next => exact h.steps j future hj
  | env henv allowed => exact ⟨h.known, h.steps⟩

theorem Run.projects {π : Policy Y} {shared : Y.Shared} {pool : Pool Y}
    (run : Run π (initial shared) pool) : pool.Projects :=
  run.invariant (initial_projects shared) Step.projects

/-- The invariant rule for pools whose futures follow their programs. -/
theorem Run.invariant_of_projects {π : Policy Y} {I : Pool Y → Prop} {pool last : Pool Y}
    (run : Run π pool last) (hprojects : pool.Projects) (hpool : I pool)
    (hstep : ∀ {before after}, Step π before after → before.Projects → I before → I after) :
    last.Projects ∧ I last :=
  run.invariant (I := fun pool => pool.Projects ∧ I pool) ⟨hprojects, hpool⟩
    fun step h => ⟨step.projects h.1, hstep step h.1 h.2⟩

/-! ## Stages -/

namespace Pool

section Stage

variable {Q : Type} (monitor : Monitor S Q) (first : Y.Job → Q)

/-- The monitor's state after the history of future `i`. -/
def stage (pool : Pool Y) (i : Nat) : Option Q :=
  pool.futures[i]?.bind fun future =>
    monitor.after (first future.job) (pool.history i)

theorem stage_length (pool : Pool Y) :
    pool.stage monitor first pool.futures.length = none := by
  rw [stage, List.getElem?_eq_none (Nat.le_refl _)]
  rfl

theorem stage_launch {pool : Pool Y} (h : pool.Projects) (job : Y.Job) :
    (pool.launch job).stage monitor first =
      Function.update (pool.stage monitor first) pool.futures.length
        (some (first job)) := by
  funext j
  rw [stage, getElem?_launch, Function.update_apply]
  split
  next heq =>
      have hnew : (pool.launch job).history j = [] := h.history_new (by omega)
      rw [Option.bind_some, hnew]
      rfl
  next => rfl

section Advance

variable {pool : Pool Y} {i : Nat} {job : Y.Job} {old rest : Prog S Unit}
  {event : Event S} {shared : Y.Shared} {q q' : Q}

theorem stage_advance (h : pool.Projects)
    (hfuture : pool.futures[i]? = some ⟨job, old⟩)
    (hstage : pool.stage monitor first i = some q) (hnext : monitor q event = some q')
    (j : Nat) :
    (pool.advance i job event rest shared).stage monitor first j =
      if j = i then some q'
      else if j = pool.futures.length then (Y.spawned event.1).map first
      else pool.stage monitor first j := by
  rw [stage, getElem?_advance hfuture, history_advance]
  split
  next heq =>
      rw [stage, hfuture, Option.bind_some] at hstage
      rw [heq, Option.bind_some, monitor.after_append hstage,
        Monitor.after_cons, hnext]
      rfl
  next =>
      rw [List.append_nil]
      split
      next heq =>
          rw [h.history_new (by omega)]
          cases Y.spawned event.1 <;> rfl
      next => rfl

theorem stage_advance_single (h : pool.Projects)
    (hfuture : pool.futures[i]? = some ⟨job, old⟩)
    (hstage : pool.stage monitor first i = some q) (hnext : monitor q event = some q')
    (hspawned : Y.spawned event.1 = none) :
    (pool.advance i job event rest shared).stage monitor first =
      Function.update (pool.stage monitor first) i (some q') := by
  funext j
  rw [stage_advance monitor first h hfuture hstage hnext, hspawned,
    Function.update_apply]
  split
  next => rfl
  next =>
      split
      next heq => rw [heq, stage_length, Option.map_none]
      next => rfl

theorem stage_advance_spawn (h : pool.Projects)
    (hfuture : pool.futures[i]? = some ⟨job, old⟩)
    (hstage : pool.stage monitor first i = some q) (hnext : monitor q event = some q')
    {spawnedJob : Y.Job} (hspawned : Y.spawned event.1 = some spawnedJob) :
    (pool.advance i job event rest shared).stage monitor first =
      Function.update (Function.update (pool.stage monitor first)
        pool.futures.length (some (first spawnedJob))) i (some q') := by
  funext j
  rw [stage_advance monitor first h hfuture hstage hnext, hspawned,
    Function.update_apply, Function.update_apply]
  rfl

end Advance

variable {monitor first} {post : Unit → Q → Prop}

theorem stage_map {Q' : Type} {coarse : Monitor S Q'} {f : Q → Q'}
    (h : ∀ q event q', monitor q event = some q' → coarse (f q) event = some (f q'))
    {pool : Pool Y} {i : Nat} {q : Q} (hstage : pool.stage monitor first i = some q) :
    pool.stage coarse (fun job => f (first job)) i = some (f q) := by
  obtain ⟨future, hfuture, hafter⟩ := Option.bind_eq_some_iff.mp hstage
  rw [stage, hfuture, Option.bind_some]
  exact monitor.after_map h hafter

theorem Projects.stage_eq {pool : Pool Y} (h : pool.Projects)
    (hobeys : ∀ job, (Y.program job).Ensures (fun _ => True) monitor post (first job))
    {i : Nat} {future : Future Y} (hfuture : pool.futures[i]? = some future) :
    ∃ q, pool.stage monitor first i = some q ∧
      future.rest.Ensures (fun _ => True) monitor post q := by
  obtain ⟨q, hq, hrest⟩ := (hobeys future.job).steps (h.steps i future hfuture)
    (fun _ _ => trivial)
  exact ⟨q, by rw [stage, hfuture, Option.bind_some, hq], hrest⟩

theorem Projects.accepts {pool : Pool Y} (h : pool.Projects)
    (hobeys : ∀ job, (Y.program job).Ensures (fun _ => True) monitor post (first job))
    {i : Nat} {job : Y.Job} {op : S.Op} {next : S.Ans op → Prog S Unit}
    (hfuture : pool.futures[i]? = some ⟨job, .call op next⟩) (ans : S.Ans op) :
    ∃ q q', pool.stage monitor first i = some q ∧ monitor q ⟨op, ans⟩ = some q' := by
  obtain ⟨q, hq, hrest⟩ := h.stage_eq hobeys hfuture
  obtain ⟨q', hq', -⟩ := hrest ans trivial
  exact ⟨q, q', hq, hq'⟩

end Stage

end Pool

end VasalAgent.Async
