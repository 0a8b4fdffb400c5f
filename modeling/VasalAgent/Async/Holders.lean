import Mathlib.Data.Nat.Count
import VasalAgent.Async.Pool

/-!
# Counting futures by stage

How many futures of a pool are in a stage that holds something, a permit or a
lock.  A step changes the number by what it does to the stage of the one future
that moves, so a balance between the holders and what is left to hold is kept by
every run as soon as each single call keeps it.
-/

namespace VasalAgent.Async

section Count

variable {f g : Nat → Bool} {n i : Nat}

theorem count_congr (h : ∀ j < n, g j = f j) :
    Nat.count (g · = true) n = Nat.count (f · = true) n := by
  apply Nat.le_antisymm
  · exact Nat.count_mono_left fun j hj hg => (h j hj).symm.trans hg
  · exact Nat.count_mono_left fun j hj hf => (h j hj).trans hf

theorem count_update (hi : i < n) (h : ∀ j < n, j ≠ i → g j = f j) :
    Nat.count (g · = true) n + (f i).toNat = Nat.count (f · = true) n + (g i).toNat := by
  induction n with
  | zero => omega
  | succ n ih =>
      rw [Nat.count_succ, Nat.count_succ]
      rcases Nat.lt_succ_iff_lt_or_eq.mp hi with hlt | rfl
      · have hlast : g n = f n := h n (Nat.lt_succ_self n) (Nat.ne_of_gt hlt)
        have hbelow := ih hlt fun j hj => h j (Nat.lt_succ_of_lt hj)
        rw [hlast]
        omega
      · have hbelow : Nat.count (g · = true) i = Nat.count (f · = true) i :=
          count_congr fun j hj => h j (Nat.lt_succ_of_lt hj) (Nat.ne_of_lt hj)
        rw [hbelow]
        cases f i <;> cases g i <;> simp

end Count

namespace Pool

variable {S : Signature} {Y : System S} {Q : Type} (monitor : Monitor S Q)
  (first : Y.Job → Q) (holds : Q → Bool)

def holder (pool : Pool Y) (i : Nat) : Bool := (pool.stage monitor first i).any holds

def holders (pool : Pool Y) : Nat :=
  Nat.count (fun i => pool.holder monitor first holds i = true) pool.futures.length

variable {monitor first holds}

theorem holders_initial (shared : Y.Shared) :
    (initial shared : Pool Y).holders monitor first holds = 0 := rfl

theorem holders_launch {pool : Pool Y} (h : pool.Projects) {job : Y.Job}
    (hfirst : holds (first job) = false) :
    (pool.launch job).holders monitor first holds = pool.holders monitor first holds := by
  have hlength : (pool.launch job).futures.length = pool.futures.length + 1 := by
    simp [launch]
  have hnew : (pool.launch job).holder monitor first holds pool.futures.length = false := by
    rw [holder, stage_launch monitor first h, Function.update_self, Option.any_some, hfirst]
  rw [holders, hlength, Nat.count_succ, hnew, if_neg Bool.false_ne_true, Nat.add_zero]
  refine count_congr fun j hj => ?_
  rw [holder, stage_launch monitor first h, Function.update_of_ne (Nat.ne_of_lt hj)]
  rfl

section Advance

variable {pool : Pool Y} {i : Nat} {job : Y.Job} {old rest : Prog S Unit}
  {event : Event S} {shared : Y.Shared} {q q' : Q}

theorem holders_advance (h : pool.Projects)
    (hfuture : pool.futures[i]? = some ⟨job, old⟩)
    (hstage : pool.stage monitor first i = some q) (hnext : monitor q event = some q')
    (hspawned : ∀ spawnedJob, Y.spawned event.1 = some spawnedJob →
      holds (first spawnedJob) = false) :
    (pool.advance i job event rest shared).holders monitor first holds + (holds q).toNat =
      pool.holders monitor first holds + (holds q').toNat := by
  have hi : i < pool.futures.length := (List.getElem?_eq_some_iff.mp hfuture).1
  have hstages (j : Nat) : (pool.advance i job event rest shared).stage monitor first j =
      if j = i then some q'
      else if j = pool.futures.length then (Y.spawned event.1).map first
      else pool.stage monitor first j :=
    stage_advance monitor first h hfuture hstage hnext j
  -- a spawned future holds nothing, so only the futures that were there count
  have hlength : (pool.advance i job event rest shared).holders monitor first holds =
      Nat.count (fun j => (pool.advance i job event rest shared).holder
        monitor first holds j = true) pool.futures.length := by
    have hfutures : (pool.advance i job event rest shared).futures.length =
        pool.futures.length + (Y.spawned event.1).toList.length := by
      simp [advance]
    rw [holders, hfutures]
    cases hjob : Y.spawned event.1 with
    | none => rfl
    | some spawnedJob =>
        have hnew : (pool.advance i job event rest shared).holder monitor first holds
            pool.futures.length = false := by
          rw [holder, hstages, if_neg (Nat.ne_of_gt hi), if_pos rfl, hjob,
            Option.map_some, Option.any_some, hspawned spawnedJob hjob]
        rw [Option.toList_some, List.length_singleton, Nat.count_succ, hnew,
          if_neg Bool.false_ne_true, Nat.add_zero]
  have hself : (pool.advance i job event rest shared).holder monitor first holds i =
      holds q' := by
    rw [holder, hstages, if_pos rfl, Option.any_some]
  have hbefore : pool.holder monitor first holds i = holds q := by
    rw [holder, hstage, Option.any_some]
  rw [hlength, holders, ← hself, ← hbefore]
  refine count_update hi fun j hj hne => ?_
  rw [holder, hstages, if_neg hne, if_neg (Nat.ne_of_lt hj)]
  rfl

end Advance

theorem holder_lt {pool : Pool Y} {i : Nat} (h : pool.holder monitor first holds i = true) :
    i < pool.futures.length := by
  by_contra hge
  have hnone : pool.futures[i]? = none := List.getElem?_eq_none (by omega)
  simp [holder, stage, hnone] at h

theorem holders_pos {pool : Pool Y} {i : Nat} (h : pool.holder monitor first holds i = true) :
    0 < pool.holders monitor first holds := by
  have hcount := Nat.count_strict_mono
    (p := fun k => pool.holder monitor first holds k = true) h (holder_lt h)
  rw [holders]
  omega

/-- When every future has returned, and none of them holds anything then. -/
theorem holders_returned {pool : Pool Y} (h : pool.Projects)
    (hobeys : ∀ job, (Y.program job).Ensures (fun _ => True) monitor
      (fun _ q => holds q = false) (first job))
    (hreturned : ∀ future ∈ pool.futures, future.rest.returned = true) :
    pool.holders monitor first holds = 0 := by
  apply Nat.count_of_forall_not
  intro i hi
  have hfuture : pool.futures[i]? = some pool.futures[i] := List.getElem?_eq_getElem hi
  obtain ⟨q, hq, hrest⟩ := h.stage_eq hobeys hfuture
  have hret := hreturned _ (List.getElem_mem hi)
  cases hprog : pool.futures[i].rest with
  | ret value =>
      rw [hprog] at hrest
      simpa [holder, hq] using hrest
  | call op next => simp [hprog, Prog.returned] at hret
  | hang => simp [hprog, Prog.returned] at hret

/-- Where at most one future can hold, two holders are the same future. -/
theorem holder_unique {pool : Pool Y} {i j : Nat}
    (hone : pool.holders monitor first holds ≤ 1)
    (hi : pool.holder monitor first holds i = true)
    (hj : pool.holder monitor first holds j = true) : i = j := by
  have hlast {a b : Nat} (ha : pool.holder monitor first holds a = true)
      (hb : pool.holder monitor first holds b = true) (hab : a < b) : False := by
    have h₁ := Nat.count_strict_mono
      (p := fun k => pool.holder monitor first holds k = true) ha hab
    have h₂ := Nat.count_strict_mono
      (p := fun k => pool.holder monitor first holds k = true) hb (holder_lt hb)
    rw [holders] at hone
    omega
  rcases Nat.lt_trichotomy i j with hlt | heq | hgt
  · exact (hlast hi hj hlt).elim
  · exact heq
  · exact (hlast hj hi hgt).elim

end Pool

end VasalAgent.Async
