import Mathlib.Logic.Function.Basic
import VasalAgent.Async.Interpret
import VasalAgent.Async.Pool

/-!
# Locks of a pool

The calls of a system that take and give back locks.  Where every program takes one lock
at a time and gives it back before it takes another or returns, no lock has two holders,
and a future that waits for a lock waits for one that can go on.
-/

namespace VasalAgent.Async

variable {S : Signature} {Y : System S} {L Q : Type}

/-! ## Locks -/

/-- What the calls of a system do to its locks. -/
structure Locks (Y : System S) (L : Type) [DecidableEq L] where
  acquires : S.Op → Option L
  releases : S.Op → Option L
  held : Y.Shared → L → Bool
  acquired : ∀ {shared op proposal ans after lock},
    Y.perform shared op proposal = some (ans, after) → acquires op = some lock →
      held shared lock = false ∧ held after = Function.update (held shared) lock true
  released : ∀ {shared op proposal ans after lock},
    Y.perform shared op proposal = some (ans, after) → releases op = some lock →
      held after = Function.update (held shared) lock false
  kept : ∀ {shared op proposal ans after},
    Y.perform shared op proposal = some (ans, after) → acquires op = none →
      releases op = none → held after = held shared
  outside : ∀ {shared event after},
    Y.environment shared event = some after → held after = held shared

namespace Locks

variable [DecidableEq L] (locks : Locks Y L) (monitor : Monitor S Q) (first : Y.Job → Q)
  (hold : Q → Option L)

/-- The monitor lets a program hold one lock at a time. -/
structure Disciplined : Prop where
  acquires : ∀ {q op ans q' lock}, monitor q ⟨op, ans⟩ = some q' →
    locks.acquires op = some lock → hold q = none ∧ hold q' = some lock
  releases : ∀ {q op ans q' lock}, monitor q ⟨op, ans⟩ = some q' →
    locks.releases op = some lock → hold q = some lock ∧ hold q' = none
  keeps : ∀ {q op ans q'}, monitor q ⟨op, ans⟩ = some q' →
    locks.acquires op = none → locks.releases op = none → hold q' = hold q
  starts : ∀ job, hold (first job) = none

def Holds (pool : Pool Y) (i : Nat) (lock : L) : Prop :=
  ∃ q, pool.stage monitor first i = some q ∧ hold q = some lock

/-- A lock is held as long as one future holds it, and never by two. -/
structure Exclusive (pool : Pool Y) : Prop where
  held : ∀ lock, locks.held pool.shared lock = true ↔ ∃ i, Holds monitor first hold pool i lock
  unique : ∀ {i j lock}, Holds monitor first hold pool i lock →
    Holds monitor first hold pool j lock → i = j

variable {locks monitor first hold} {π : Policy Y} {pool next : Pool Y}

theorem exclusive_initial {shared : Y.Shared} (hfree : ∀ lock, locks.held shared lock = false) :
    locks.Exclusive monitor first hold (Pool.initial shared) := by
  have hnone (i : Nat) (lock : L) : ¬ Holds monitor first hold (Pool.initial shared) i lock := by
    rintro ⟨q, hq, -⟩
    cases hq
  refine ⟨fun lock => ⟨fun h => ?_, fun ⟨i, h⟩ => (hnone i lock h).elim⟩,
    fun h => (hnone _ _ h).elim⟩
  have hheld : locks.held shared lock = true := h
  rw [hfree] at hheld
  cases hheld

theorem Exclusive.launch (h : locks.Exclusive monitor first hold pool)
    (hdisciplined : locks.Disciplined monitor first hold) (hprojects : pool.Projects)
    (job : Y.Job) : locks.Exclusive monitor first hold (pool.launch job) := by
  have hsame (i : Nat) (lock : L) : Holds monitor first hold (pool.launch job) i lock ↔
      Holds monitor first hold pool i lock := by
    rw [Holds, Holds, Pool.stage_launch monitor first hprojects]
    by_cases hi : i = pool.futures.length
    · rw [hi, Function.update_self, Pool.stage_length]
      constructor
      · rintro ⟨q, ⟨⟩, hq⟩
        rw [hdisciplined.starts] at hq
        cases hq
      · rintro ⟨q, hq, -⟩
        cases hq
    · rw [Function.update_of_ne hi]
  refine ⟨fun lock => ?_, fun hi hj => h.unique ((hsame _ _).mp hi) ((hsame _ _).mp hj)⟩
  simp only [hsame]
  exact h.held lock

section Fire

variable {i : Nat} {job : Y.Job} {op : S.Op} {cont : S.Ans op → Prog S Unit}
  {proposal ans : S.Ans op} {shared : Y.Shared} {q q' : Q}

omit [DecidableEq L] in
theorem holds_of_stage (hstage : pool.stage monitor first i = some q) (lock : L) :
    Holds monitor first hold pool i lock ↔ hold q = some lock := by
  rw [Holds, hstage]
  constructor
  · rintro ⟨_, ⟨⟩, hq⟩
    exact hq
  · exact fun hq => ⟨q, rfl, hq⟩

theorem holds_advance (hdisciplined : locks.Disciplined monitor first hold)
    (hprojects : pool.Projects) (hfuture : pool.futures[i]? = some ⟨job, .call op cont⟩)
    (hstage : pool.stage monitor first i = some q) (hnext : monitor q ⟨op, ans⟩ = some q')
    (j : Nat) (lock : L) :
    Holds monitor first hold (pool.advance i job ⟨op, ans⟩ (cont ans) shared) j lock ↔
      if j = i then hold q' = some lock else Holds monitor first hold pool j lock := by
  rw [Holds, Pool.stage_advance monitor first hprojects hfuture hstage hnext]
  split
  · constructor
    · rintro ⟨_, ⟨⟩, hq⟩
      exact hq
    · exact fun hq => ⟨q', rfl, hq⟩
  · split
    · next hlast =>
        -- a future that has just been spawned holds nothing
        rw [Holds, hlast, Pool.stage_length]
        constructor
        · rintro ⟨r, hr, hlock⟩
          obtain ⟨spawnedJob, -, rfl⟩ := Option.map_eq_some_iff.mp hr
          rw [hdisciplined.starts] at hlock
          cases hlock
        · rintro ⟨r, hr, -⟩
          cases hr
    · exact Iff.rfl

theorem Exclusive.fire (h : locks.Exclusive monitor first hold pool)
    (hdisciplined : locks.Disciplined monitor first hold) (hprojects : pool.Projects)
    (hfuture : pool.futures[i]? = some ⟨job, .call op cont⟩)
    (hperform : Y.perform pool.shared op proposal = some (ans, shared))
    (hstage : pool.stage monitor first i = some q) (hnext : monitor q ⟨op, ans⟩ = some q') :
    locks.Exclusive monitor first hold (pool.advance i job ⟨op, ans⟩ (cont ans) shared) := by
  have hafter (j : Nat) (lock : L) :
      Holds monitor first hold (pool.advance i job ⟨op, ans⟩ (cont ans) shared) j lock ↔
        if j = i then hold q' = some lock else Holds monitor first hold pool j lock :=
    holds_advance hdisciplined hprojects hfuture hstage hnext j lock
  have hbefore (lock : L) : Holds monitor first hold pool i lock ↔ hold q = some lock :=
    holds_of_stage hstage lock
  have hlocks (lock : L) : locks.held (pool.advance i job ⟨op, ans⟩ (cont ans) shared).shared lock =
      locks.held shared lock := rfl
  obtain ⟨hheld, hunique⟩ := h
  cases hacquires : locks.acquires op with
  | some taken =>
      obtain ⟨hfree, hupdate⟩ := locks.acquired hperform hacquires
      obtain ⟨hq, hq'⟩ := hdisciplined.acquires hnext hacquires
      constructor
      · intro lock
        rw [hlocks, hupdate, Function.update_apply]
        grind
      · grind
  | none =>
      cases hreleases : locks.releases op with
      | some given =>
          have hupdate := locks.released hperform hreleases
          obtain ⟨hq, hq'⟩ := hdisciplined.releases hnext hreleases
          constructor
          · intro lock
            rw [hlocks, hupdate, Function.update_apply]
            grind
          · grind
      | none =>
          have hkept := locks.kept hperform hacquires hreleases
          have hq := hdisciplined.keeps hnext hacquires hreleases
          have hsame (j : Nat) (lock : L) : Holds monitor first hold
              (pool.advance i job ⟨op, ans⟩ (cont ans) shared) j lock ↔
                Holds monitor first hold pool j lock := by
            rw [hafter, hq]
            split
            · next hj => rw [hj, hbefore]
            · exact Iff.rfl
          refine ⟨fun lock => ?_, fun hi hj => hunique ((hsame _ _).mp hi) ((hsame _ _).mp hj)⟩
          rw [hlocks, hkept, hheld]
          exact exists_congr fun j => (hsame j lock).symm

end Fire

variable {post : Unit → Q → Prop}

theorem exclusive_step (hdisciplined : locks.Disciplined monitor first hold)
    (hobeys : ∀ job, (Y.program job).Ensures (fun _ => True) monitor post (first job))
    (step : Step π pool next) (hprojects : pool.Projects)
    (h : locks.Exclusive monitor first hold pool) :
    locks.Exclusive monitor first hold next := by
  cases step with
  | start _ _ => exact h.launch hdisciplined hprojects _
  | @fire i job op cont proposal ans shared hfuture hperform _ =>
      obtain ⟨q, q', hq, hq'⟩ := hprojects.accepts hobeys hfuture ans
      exact h.fire hdisciplined hprojects hfuture hperform hq hq'
  | env henv _ => exact ⟨fun lock => by rw [locks.outside henv]; exact h.held lock, h.unique⟩

theorem exclusive_run (hdisciplined : locks.Disciplined monitor first hold)
    (hobeys : ∀ job, (Y.program job).Ensures (fun _ => True) monitor post (first job))
    {shared : Y.Shared} (hfree : ∀ lock, locks.held shared lock = false)
    (run : Run π (Pool.initial shared) pool) : locks.Exclusive monitor first hold pool :=
  (run.invariant_of_projects (Pool.initial_projects shared) (exclusive_initial hfree)
    (exclusive_step hdisciplined hobeys)).2

/-! ## Progress -/

/-- The call that future `i` waits for can complete. -/
def Ready (pool : Pool Y) (i : Nat) : Prop :=
  ∃ job op cont proposal, pool.futures[i]? = some ⟨job, .call op cont⟩ ∧
    (Y.perform pool.shared op proposal).isSome

/-- Only a lock that is taken keeps a call from completing. -/
structure Waits (locks : Locks Y L) : Prop where
  ready : ∀ shared op, locks.acquires op = none →
    ∃ proposal, (Y.perform shared op proposal).isSome
  free : ∀ {shared op lock}, locks.acquires op = some lock → locks.held shared lock = false →
    ∃ proposal, (Y.perform shared op proposal).isSome
  answered : ∀ {op lock}, locks.acquires op = some lock → Nonempty (S.Ans op)

theorem ready_of_holds (hwaits : locks.Waits) (hdisciplined : locks.Disciplined monitor first hold)
    (hobeys : ∀ job, (Y.program job).Ensures (fun _ => True) monitor
      (fun _ q => hold q = none) (first job))
    (hends : ∀ job, (Y.program job).NeverHangs) (hprojects : pool.Projects) {i : Nat} {lock : L}
    (hholds : Holds monitor first hold pool i lock) : Ready pool i := by
  obtain ⟨q, hq, hlock⟩ := hholds
  obtain ⟨⟨job, rest⟩, hfuture, -⟩ := Option.bind_eq_some_iff.mp hq
  obtain ⟨q', hq', hrest⟩ := hprojects.stage_eq hobeys hfuture
  obtain rfl : q' = q := Option.some.inj (hq'.symm.trans hq)
  have hend := (hends job).steps (hprojects.steps i _ hfuture)
  cases rest with
  | ret value =>
      have hnone : hold q' = none := hrest
      rw [hlock] at hnone
      cases hnone
  | hang => exact hend.elim
  | call op cont =>
      cases hacquires : locks.acquires op with
      | none =>
          obtain ⟨proposal, hperform⟩ := hwaits.ready pool.shared op hacquires
          exact ⟨job, op, cont, proposal, hfuture, hperform⟩
      | some other =>
          -- the monitor lets no program that holds a lock ask for another
          obtain ⟨ans⟩ := hwaits.answered hacquires
          obtain ⟨r, hr, -⟩ := hrest ans trivial
          have hnone := (hdisciplined.acquires hr hacquires).1
          rw [hlock] at hnone
          cases hnone

/-- A future that has not returned can go on, or waits for a lock whose holder can. -/
theorem ready_or_waits (hwaits : locks.Waits) (hdisciplined : locks.Disciplined monitor first hold)
    (hobeys : ∀ job, (Y.program job).Ensures (fun _ => True) monitor
      (fun _ q => hold q = none) (first job))
    (hends : ∀ job, (Y.program job).NeverHangs) (hprojects : pool.Projects)
    (hexclusive : locks.Exclusive monitor first hold pool) {i : Nat} {future : Future Y}
    (hfuture : pool.futures[i]? = some future) (hrest : future.rest.returned = false) :
    Ready pool i ∨ ∃ op cont lock j, future.rest = .call op cont ∧ locks.acquires op = some lock ∧
      Holds monitor first hold pool j lock ∧ Ready pool j := by
  have hend := (hends future.job).steps (hprojects.steps i _ hfuture)
  obtain ⟨job, rest⟩ := future
  cases rest with
  | ret value => cases hrest
  | hang => exact hend.elim
  | call op cont =>
      cases hacquires : locks.acquires op with
      | none =>
          obtain ⟨proposal, hperform⟩ := hwaits.ready pool.shared op hacquires
          exact .inl ⟨job, op, cont, proposal, hfuture, hperform⟩
      | some lock =>
          cases hheld : locks.held pool.shared lock with
          | false =>
              obtain ⟨proposal, hperform⟩ := hwaits.free hacquires hheld
              exact .inl ⟨job, op, cont, proposal, hfuture, hperform⟩
          | true =>
              obtain ⟨j, hholds⟩ := (hexclusive.held lock).mp hheld
              exact .inr ⟨op, cont, lock, j, rfl, hacquires, hholds,
                ready_of_holds hwaits hdisciplined hobeys hends hprojects hholds⟩

end Locks

end VasalAgent.Async
