import VasalAgent.Agent.Registration

/-!
# Published counts

A change of the registry and the publication of the counts are two critical
sections, so the publications of two tasks may come in another order than their
changes.  Each publication takes its snapshot in the section that sends it, and
so the last value can only be stale while some task has changed the registry and
has not yet published.
-/

namespace VasalAgent.Agent

open VasalAgent.Async
open VasalAgent.Protocol
open VasalAgent.Task
open VasalAgent.Transport

/-! ## Counting entries -/

namespace Registry

/-- The counts as numbers, before they are cast to `u32`. -/
def exactCounts (active : Registry) : ActiveTaskCounts where
  oneshot := active.count .oneshot
  continuous := active.count .continuous
  total := active.count .oneshot + active.count .continuous

theorem count_add_count (active : Registry) :
    active.count .oneshot + active.count .continuous = active.entries.length := by
  unfold count
  induction active.entries with
  | nil => rfl
  | cons entry rest ih =>
      obtain ⟨id, token, kind⟩ := entry
      cases kind <;> simp <;> omega

theorem counts_eq_exactCounts {active : Registry} (h : active.entries.length < 2 ^ 32) :
    active.counts = active.exactCounts := by
  have hsum := active.count_add_count
  have honeshot : active.count .oneshot % 2 ^ 32 = active.count .oneshot :=
    Nat.mod_eq_of_lt (by omega)
  have hcontinuous : active.count .continuous % 2 ^ 32 = active.count .continuous :=
    Nat.mod_eq_of_lt (by omega)
  have htotal : (active.count .oneshot + active.count .continuous) % 2 ^ 32 =
      active.count .oneshot + active.count .continuous := Nat.mod_eq_of_lt (by omega)
  rw [counts, exactCounts, honeshot, hcontinuous, htotal]

end Registry

/-! ## Changes that are not published -/

/-- Whether the last change of the registry still has to be published. -/
def unpublished (changed : Bool) (event : Event AgentSig) : Bool :=
  match event.1 with
  | .insertActive _ _ => true
  | .removeActive _ => true
  | .updateCounts => false
  | _ => changed

section Law

variable {agent : AgentConfig}

/-- Future `i` has changed the registry and has not published the counts since. -/
def Publishing (pool : Pool agent.system) (i : Nat) : Bool :=
  (pool.history i).foldl unpublished false

structure CountsPublished (pool : Pool agent.system) : Prop where
  settled : (∀ i, Publishing pool i = false) →
    pool.shared.active.entries.length < 2 ^ 32 →
    pool.shared.counts = pool.shared.active.exactCounts
  /-- A publication sends the counts of the registry at that moment. -/
  snapshot : ∀ {next i}, Step (Policy.free agent.system) pool next →
    next.log = pool.log ++ [(i, ⟨.updateCounts, ()⟩)] →
    pool.shared.active.entries.length < 2 ^ 32 →
    next.shared.active = pool.shared.active ∧
      next.shared.counts = pool.shared.active.exactCounts
  /-- Nothing else is ever published. -/
  only : ∀ {next}, Step (Policy.free agent.system) pool next →
    next.shared.counts ≠ pool.shared.counts →
    ∃ i, next.log = pool.log ++ [(i, ⟨.updateCounts, ()⟩)]

theorem publishing_advance {pool : Pool agent.system} {i j : Nat} {job : Job}
    {event : Event AgentSig} {rest : Prog AgentSig Unit} {shared : Shared} :
    Publishing (pool.advance i job event rest shared) j =
      if j = i then unpublished (Publishing pool j) event else Publishing pool j := by
  rw [Publishing, Pool.history_advance]
  split
  next => rw [List.foldl_append, List.foldl_cons, List.foldl_nil, Publishing]
  next => rw [List.append_nil, Publishing]

theorem counts_step {π : Policy agent.system} {pool next : Pool agent.system}
    (step : Step π pool next)
    (h : (∃ i, Publishing pool i = true) ∨
      pool.shared.counts = pool.shared.active.counts) :
    (∃ i, Publishing next i = true) ∨
      next.shared.counts = next.shared.active.counts := by
  cases step with
  | start hexternal allowed => exact h
  | env henv allowed =>
      have houtside := environment_outside henv
      rw [houtside.counts, houtside.active]
      exact h
  | @fire i job op cont proposal ans shared hfuture hperform allowed =>
      have hcounts := (perform_meters hperform).2
      have hactive := (perform_effect hperform).active
      -- who was publishing still is, unless it is the one that moves
      have hneutral (hop : ∀ changed, unpublished changed ⟨op, ans⟩ = changed)
          (hsame : pool.shared.active.after ⟨op, ans⟩ = pool.shared.active)
          (hquiet : pool.shared.active.published pool.shared.counts op =
            pool.shared.counts) :
          (∃ j, Publishing (pool.advance i job ⟨op, ans⟩ (cont ans) shared) j = true) ∨
            shared.counts = shared.active.counts := by
        rcases h with ⟨j, hj⟩ | hfresh
        · refine .inl ⟨j, ?_⟩
          rw [publishing_advance]
          split
          · rw [hop]
            exact hj
          · exact hj
        · rw [hcounts, hactive, hsame, hquiet]
          exact .inr hfresh
      have hchange (hop : ∀ changed, unpublished changed ⟨op, ans⟩ = true) :
          ∃ j, Publishing (pool.advance i job ⟨op, ans⟩ (cont ans) shared) j = true :=
        ⟨i, by rw [publishing_advance, if_pos rfl, hop]⟩
      cases op with
      | insertActive id entry => exact .inl (hchange fun _ => rfl)
      | removeActive id => exact .inl (hchange fun _ => rfl)
      | updateCounts =>
          change _ ∨ shared.counts = shared.active.counts
          rw [hcounts, hactive]
          exact .inr rfl
      | _ => exact hneutral (fun _ => rfl) rfl rfl

theorem counts_run {π : Policy agent.system} {maxConcurrent : Nat}
    {pool : Pool agent.system}
    (run : Run π (Pool.initial (Shared.initial maxConcurrent)) pool) :
    (∃ i, Publishing pool i = true) ∨
      pool.shared.counts = pool.shared.active.counts :=
  run.invariant (.inr rfl) counts_step

end Law

end VasalAgent.Agent
