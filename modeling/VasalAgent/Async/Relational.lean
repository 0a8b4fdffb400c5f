import Mathlib.Data.List.Forall2
import VasalAgent.Async.Pool

/-!
# Two runs side by side

A likeness says which calls, and which answered calls, differ in nothing but what
an observer must not see.  Two programs are `Related` when they make calls that
are alike for as long as the answers are alike.

A `TwinRun` is two runs of one system under one schedule, in a world that answers
like calls alike.  When the programs are related to themselves and the state
answers alike what is alike, the runs stay in lockstep: one shared state, and logs
that differ in nothing but what the likeness hides.
-/

namespace VasalAgent.Async

structure Likeness (S : Signature) where
  calls : S.Op → S.Op → Prop
  events : Event S → Event S → Prop

/-- The call is like itself, and nothing of its answer is hidden. -/
structure Likeness.Plain {S : Signature} (L : Likeness S) (op : S.Op) : Prop where
  call : L.calls op op
  answer : ∀ {ans ans' : S.Ans op}, L.events ⟨op, ans⟩ ⟨op, ans'⟩ → ans = ans'

/-! ## Programs -/

namespace Prog

variable {S : Signature} {L : Likeness S} {α β γ δ : Type}

/-- Like calls under like answers, and values in relation `R`. -/
def Related (L : Likeness S) (R : α → β → Prop) : Prog S α → Prog S β → Prop
  | .ret a, .ret b => R a b
  | .call op next, .call op' next' => L.calls op op' ∧
      ∀ ans ans', L.events ⟨op, ans⟩ ⟨op', ans'⟩ → Related L R (next ans) (next' ans')
  | .hang, .hang => True
  | _, _ => False

theorem Related.bind {R : α → β → Prop} {R' : γ → δ → Prop} {p : Prog S α} {q : Prog S β}
    {f : α → Prog S γ} {g : β → Prog S δ} (h : p.Related L R q)
    (hrest : ∀ a b, R a b → (f a).Related L R' (g b)) :
    (p >>= f).Related L R' (q >>= g) := by
  induction p generalizing q with
  | ret a =>
      cases q with
      | ret b => exact hrest a b h
      | call op' next' => exact h.elim
      | hang => exact h.elim
  | call op next ih =>
      cases q with
      | ret b => exact h.elim
      | call op' next' => exact ⟨h.1, fun ans ans' halike => ih ans (h.2 ans ans' halike)⟩
      | hang => exact h.elim
  | hang =>
      cases q with
      | ret b => exact h.elim
      | call op' next' => exact h.elim
      | hang => trivial

/-- A program that makes only plain calls behaves the same twice. -/
theorem related_self {p : Prog S α} (h : p.Uses L.Plain) : p.Related L Eq p := by
  induction p with
  | ret value => exact rfl
  | call op next ih =>
      refine ⟨h.1.call, fun ans ans' halike => ?_⟩
      cases h.1.answer halike
      exact ih ans (h.2 ans)
  | hang => trivial

/-- The rule for a program that begins with a plain call. -/
theorem related_call {R : α → β → Prop} {op : S.Op} {next : S.Ans op → Prog S α}
    {next' : S.Ans op → Prog S β} (hop : L.Plain op)
    (h : ∀ ans, (next ans).Related L R (next' ans)) :
    (Prog.call op next).Related L R (.call op next') := by
  refine ⟨hop.call, fun ans ans' halike => ?_⟩
  cases hop.answer halike
  exact h ans

end Prog

/-! ## Twin runs -/

variable {S : Signature} {Y : System S}

/--
One step of two runs: the same job is started, the same future is fired, or the
environment does the same.  To like calls the world proposes like answers.
-/
inductive TwinStep (L : Likeness S) : Pool Y × Pool Y → Pool Y × Pool Y → Prop
  | start {first second : Pool Y} {job : Y.Job} (hexternal : Y.external job = true) :
      TwinStep L (first, second) (first.launch job, second.launch job)
  | fire {first second : Pool Y} {i : Nat} {job job' : Y.Job} {op op' : S.Op}
      {next : S.Ans op → Prog S Unit} {next' : S.Ans op' → Prog S Unit}
      {proposal ans : S.Ans op} {proposal' ans' : S.Ans op'} {shared shared' : Y.Shared}
      (hfuture : first.futures[i]? = some ⟨job, .call op next⟩)
      (hfuture' : second.futures[i]? = some ⟨job', .call op' next'⟩)
      (hperform : Y.perform first.shared op proposal = some (ans, shared))
      (hperform' : Y.perform second.shared op' proposal' = some (ans', shared'))
      (hagree : L.calls op op' → L.events ⟨op, proposal⟩ ⟨op', proposal'⟩) :
      TwinStep L (first, second)
        (first.advance i job ⟨op, ans⟩ (next ans) shared,
          second.advance i job' ⟨op', ans'⟩ (next' ans') shared')
  | env {first second : Pool Y} {event : Y.Env} {shared shared' : Y.Shared}
      (henv : Y.environment first.shared event = some shared)
      (henv' : Y.environment second.shared event = some shared') :
      TwinStep L (first, second) ({ first with shared }, { second with shared := shared' })

abbrev TwinRun (L : Likeness S) : Pool Y × Pool Y → Pool Y × Pool Y → Prop :=
  Relation.ReflTransGen (TwinStep L)

/-- Each of the twins is a run. -/
theorem TwinRun.runs {L : Likeness S} {pools last : Pool Y × Pool Y}
    (run : TwinRun L pools last) :
    Run (Policy.free Y) pools.1 last.1 ∧ Run (Policy.free Y) pools.2 last.2 := by
  induction run with
  | refl => exact ⟨.refl, .refl⟩
  | tail _ step ih =>
      cases step with
      | start hexternal =>
          exact ⟨ih.1.tail (.start hexternal trivial), ih.2.tail (.start hexternal trivial)⟩
      | fire hfuture hfuture' hperform hperform' hagree =>
          exact ⟨ih.1.tail (.fire hfuture hperform trivial),
            ih.2.tail (.fire hfuture' hperform' trivial)⟩
      | env henv henv' => exact ⟨ih.1.tail (.env henv trivial), ih.2.tail (.env henv' trivial)⟩

/-! ## Lockstep -/

/-- The system keeps hidden what the likeness hides. -/
structure System.Respects (Y : System S) (L : Likeness S) : Prop where
  programs : ∀ job, (Y.program job).Related L Eq (Y.program job)
  perform : ∀ {shared next next' : Y.Shared} {op op' : S.Op} {proposal ans : S.Ans op}
    {proposal' ans' : S.Ans op'}, L.events ⟨op, proposal⟩ ⟨op', proposal'⟩ →
    Y.perform shared op proposal = some (ans, next) →
    Y.perform shared op' proposal' = some (ans', next') →
    L.events ⟨op, ans⟩ ⟨op', ans'⟩ ∧ next = next'
  spawned : ∀ {op op' : S.Op}, L.calls op op' → Y.spawned op = Y.spawned op'

def Future.Alike (L : Likeness S) (future future' : Future Y) : Prop :=
  future.job = future'.job ∧ future.rest.Related L Eq future'.rest

/-- What one cannot see of the difference of two pools. -/
structure Lockstep (L : Likeness S) (first second : Pool Y) : Prop where
  shared : first.shared = second.shared
  futures : first.futures.Forall₂ (Future.Alike L) second.futures
  log : first.log.Forall₂ (fun entry entry' => entry.1 = entry'.1 ∧ L.events entry.2 entry'.2)
    second.log

theorem alike_future {L : Likeness S} (h : Y.Respects L) (job : Y.Job) :
    (Y.future job).Alike L (Y.future job) :=
  ⟨rfl, h.programs job⟩

theorem forall₂_set {α β : Type} {R : α → β → Prop} {xs : List α} {ys : List β} {x : α} {y : β}
    (h : xs.Forall₂ R ys) (hxy : R x y) (i : Nat) : (xs.set i x).Forall₂ R (ys.set i y) := by
  induction h generalizing i with
  | nil => exact .nil
  | cons hhead htail ih =>
      cases i with
      | zero => exact .cons hxy htail
      | succ i => exact .cons hhead (ih i)

theorem forall₂_getElem? {α β : Type} {R : α → β → Prop} {xs : List α} {ys : List β} {x : α}
    {y : β} {i : Nat} (h : xs.Forall₂ R ys) (hx : xs[i]? = some x) (hy : ys[i]? = some y) :
    R x y := by
  obtain ⟨hi, rfl⟩ := List.getElem?_eq_some_iff.mp hx
  obtain ⟨hi', rfl⟩ := List.getElem?_eq_some_iff.mp hy
  exact h.get hi hi'

theorem TwinStep.lockstep {L : Likeness S} (h : Y.Respects L) {pools next : Pool Y × Pool Y}
    (step : TwinStep L pools next) (hpools : Lockstep L pools.1 pools.2) :
    Lockstep L next.1 next.2 := by
  cases step with
  | @start first second job hexternal =>
      refine ⟨hpools.shared, ?_, hpools.log⟩
      exact List.rel_append hpools.futures (.cons (alike_future h job) .nil)
  | @fire first second i job job' op op' cont cont' proposal ans proposal' ans' shared shared'
      hfuture hfuture' hperform hperform' hagree =>
      obtain ⟨hjob, hcalls, hrest⟩ := forall₂_getElem? hpools.futures hfuture hfuture'
      have hshared : first.shared = second.shared := hpools.shared
      rw [hshared] at hperform
      obtain ⟨hevents, hnext⟩ := h.perform (hagree hcalls) hperform hperform'
      have hleft : Future.Alike (Y := Y) L ⟨job, cont ans⟩ ⟨job', cont' ans'⟩ :=
        ⟨hjob, hrest ans ans' hevents⟩
      have hspawned : ((Y.spawned op).toList.map Y.future).Forall₂ (Future.Alike L)
          ((Y.spawned op').toList.map Y.future) := by
        rw [h.spawned hcalls, List.forall₂_same]
        intro future hmem
        obtain ⟨spawnedJob, -, rfl⟩ := List.mem_map.mp hmem
        exact alike_future h spawnedJob
      refine ⟨hnext, ?_, ?_⟩
      · exact List.rel_append (forall₂_set hpools.futures hleft i) hspawned
      · exact List.rel_append hpools.log (.cons ⟨rfl, hevents⟩ .nil)
  | @env first second event shared shared' henv henv' =>
      have hshared : first.shared = second.shared := hpools.shared
      rw [hshared, henv'] at henv
      cases henv
      exact ⟨rfl, hpools.futures, hpools.log⟩

theorem TwinRun.lockstep {L : Likeness S} (h : Y.Respects L) {shared : Y.Shared}
    {first second : Pool Y}
    (run : TwinRun L (Pool.initial shared, Pool.initial shared) (first, second)) :
    Lockstep L first second := by
  suffices hlast : ∀ last : Pool Y × Pool Y,
      TwinRun L (Pool.initial shared, Pool.initial shared) last → Lockstep L last.1 last.2 from
    hlast _ run
  intro last run
  induction run with
  | refl => exact ⟨rfl, .nil, .nil⟩
  | tail _ step ih => exact step.lockstep h ih

/-- What is noted of the calls without what is hidden is noted of both logs. -/
theorem Lockstep.notes_eq {L : Likeness S} {first second : Pool Y} (h : Lockstep L first second)
    {α : Type} {note : Event S → Option α}
    (hnote : ∀ event event', L.events event event' → note event = note event') :
    first.log.filterMap (fun entry => note entry.2) =
      second.log.filterMap fun entry => note entry.2 := by
  have hlog := h.log
  generalize first.log = log at hlog
  generalize second.log = log' at hlog
  induction hlog with
  | nil => rfl
  | cons hhead _ ih => rw [List.filterMap_cons, List.filterMap_cons, hnote _ _ hhead.2, ih]

/-! ## Scripted twins -/

/-- Labels of one schedule, whose proposals are alike for like calls. -/
inductive Label.Alike (L : Likeness S) : Label Y → Label Y → Prop
  | start (job : Y.Job) : Alike L (.start job) (.start job)
  | fire (i : Nat) {proposal proposal' : (op : S.Op) → S.Ans op}
      (h : ∀ op op', L.calls op op' → L.events ⟨op, proposal op⟩ ⟨op', proposal' op'⟩) :
      Alike L (.fire i proposal) (.fire i proposal')
  | env (event : Y.Env) : Alike L (.env event) (.env event)

theorem twinStep_of_alike {L : Likeness S} {first second next next' : Pool Y}
    {label label' : Label Y} (h : label.Alike L label') (hfirst : first.step label = some next)
    (hsecond : second.step label' = some next') :
    TwinStep L (first, second) (next, next') := by
  cases h with
  | start job =>
      simp only [Pool.step, Option.ite_none_right_eq_some] at hfirst hsecond
      obtain ⟨hexternal, hfirst⟩ := hfirst
      cases hfirst
      cases hsecond.2
      exact .start hexternal
  | fire i hagree =>
      simp only [Pool.step] at hfirst hsecond
      split at hfirst
      next hfuture =>
          split at hsecond
          next hfuture' =>
              obtain ⟨⟨ans, shared⟩, hperform, rfl⟩ := Option.map_eq_some_iff.mp hfirst
              obtain ⟨⟨ans', shared'⟩, hperform', rfl⟩ := Option.map_eq_some_iff.mp hsecond
              exact .fire hfuture hfuture' hperform hperform' (hagree _ _)
          next => cases hsecond
      next => cases hfirst
  | env event =>
      obtain ⟨shared, henv, rfl⟩ := Option.map_eq_some_iff.mp hfirst
      obtain ⟨shared', henv', rfl⟩ := Option.map_eq_some_iff.mp hsecond
      exact .env henv henv'

theorem twinRun_of_scripts {L : Likeness S} {first second last last' : Pool Y}
    {labels labels' : List (Label Y)} (h : labels.Forall₂ (Label.Alike L) labels')
    (hfirst : first.script labels = some last) (hsecond : second.script labels' = some last') :
    TwinRun L (first, second) (last, last') := by
  induction h generalizing first second with
  | nil =>
      cases hfirst
      cases hsecond
      exact .refl
  | cons hhead _ ih =>
      obtain ⟨next, hnext, hrest⟩ := Option.bind_eq_some_iff.mp hfirst
      obtain ⟨next', hnext', hrest'⟩ := Option.bind_eq_some_iff.mp hsecond
      exact .head (twinStep_of_alike hhead hnext hnext') (ih hrest hrest')

end VasalAgent.Async
