import VasalAgent.Async.Environment

/-!
# Programs that can be cut short

A program in an environment can be stopped between two calls, or inside one: `torn` says
in which states a call that was begun can leave the environment.  `Secures` is the rule of
such programs: what holds in all the states a program can be stopped in (`inv`), and what
holds when it returns (`post`).
-/

namespace VasalAgent.Async

variable {S : Signature} {Q α β : Type}

/-- The states in which `p` can be stopped when it is started in `q`. -/
inductive Stopped (env : Environment S Q) (torn : Q → S.Op → Q → Prop) (q : Q) (p : Prog S α) :
    Q → Prop where
  | between {events : List (Event S)} {rest : Prog S α} {last : Q}
      (steps : p.Steps events rest) (trail : Trail env q events last) : Stopped env torn q p last
  | inside {events : List (Event S)} {op : S.Op} {next : S.Ans op → Prog S α} {mid last : Q}
      (steps : p.Steps events (.call op next)) (trail : Trail env q events mid)
      (cut : torn mid op last) : Stopped env torn q p last

/-- The environment with a record of the calls made so far. -/
def logged (env : Environment S Q) : Environment S (Q × List (Event S)) :=
  fun q event q' => env q.1 event q'.1 ∧ q'.2 = q.2 ++ [event]

theorem Trail.logged {env : Environment S Q} {q q' : Q} {events : List (Event S)}
    (h : Trail env q events q') (past : List (Event S)) :
    Trail (Async.logged env) (q, past) events (q', past ++ events) := by
  induction h generalizing past with
  | nil q =>
      rw [List.append_nil]
      exact .nil _
  | @cons q mid q' event events first rest ih =>
      have hrest := ih (past ++ [event])
      rw [List.append_assoc, List.singleton_append] at hrest
      exact .cons ⟨first, rfl⟩ hrest

theorem Stopped.logged {env : Environment S Q} {torn : Q → S.Op → Q → Prop} {q last : Q}
    {p : Prog S α} (h : Stopped env torn q p last) :
    ∃ past, Stopped (Async.logged env) (fun q op last => torn q.1 op last.1) (q, []) p
      (last, past) := by
  cases h with
  | between steps trail => exact ⟨_, .between steps (trail.logged [])⟩
  | @inside events op next mid last steps trail cut =>
      exact ⟨events, .inside steps (trail.logged []) cut⟩

theorem Ran.logged {env : Environment S Q} {q q' : Q} {p : Prog S α} {events : List (Event S)}
    {value : α} (h : Ran env q p events q' value) :
    Ran (Async.logged env) (q, []) p events (q', events) value :=
  ⟨h.steps, h.trail.logged []⟩

namespace Prog

section Secures

variable (env : Environment S Q) (torn : Q → S.Op → Q → Prop) (inv : Q → Prop)

def Secures (post : α → Q → Prop) : Prog S α → Q → Prop
  | .ret value, q => inv q ∧ post value q
  | .call op next, q =>
      inv q ∧ (∀ last, torn q op last → inv last) ∧
        ∀ ans q', env q ⟨op, ans⟩ q' → (next ans).Secures post q'
  | .hang, q => inv q

variable {env torn inv} {post : α → Q → Prop} {p : Prog S α} {q q' : Q}
  {events : List (Event S)}

theorem Secures.holds (h : p.Secures env torn inv post q) : inv q := by
  cases p with
  | ret value => exact h.1
  | call op next => exact h.1
  | hang => exact h

theorem secures_perform {op : S.Op} {post : S.Ans op → Q → Prop} (hinv : inv q)
    (htorn : ∀ last, torn q op last → inv last)
    (h : ∀ ans q', env q ⟨op, ans⟩ q' → inv q' ∧ post ans q') :
    (perform op).Secures env torn inv post q :=
  ⟨hinv, htorn, h⟩

theorem Secures.bind {rest : α → Prog S β} {last : β → Q → Prop}
    (h : p.Secures env torn inv (fun value => (rest value).Secures env torn inv last) q) :
    (p >>= rest).Secures env torn inv last q := by
  induction p generalizing q with
  | ret value => exact h.2
  | call op next ih => exact ⟨h.1, h.2.1, fun ans q' hans => ih ans (h.2.2 ans q' hans)⟩
  | hang => exact h

theorem Secures.mono {weaker : α → Q → Prop} (h : p.Secures env torn inv post q)
    (hpost : ∀ value q, inv q → post value q → weaker value q) :
    p.Secures env torn inv weaker q := by
  induction p generalizing q with
  | ret value => exact ⟨h.1, hpost value q h.1 h.2⟩
  | call op next ih => exact ⟨h.1, h.2.1, fun ans q' hans => ih ans (h.2.2 ans q' hans)⟩
  | hang => exact h

theorem Secures.orReturn {ε : Type} {fail : ε → β} {p : Prog S (Except ε α)}
    {rest : α → Prog S β} {last : β → Q → Prop}
    (h : p.Secures env torn inv (fun
      | .error e => last (fail e)
      | .ok value => (rest value).Secures env torn inv last) q) :
    (orReturn fail p rest).Secures env torn inv last q := by
  refine Secures.bind (h.mono fun answer q hinv hanswer => ?_)
  cases answer with
  | error e => exact ⟨hinv, hanswer⟩
  | ok value => exact hanswer

theorem Secures.steps {rest : Prog S α} (h : p.Secures env torn inv post q)
    (hsteps : p.Steps events rest) (htrail : Trail env q events q') :
    rest.Secures env torn inv post q' := by
  induction hsteps generalizing q with
  | refl p =>
      cases htrail
      exact h
  | call _ ih =>
      cases htrail with
      | cons hfirst hrest => exact ih (h.2.2 _ _ hfirst) hrest

/-- Wherever the program is stopped, the invariant holds. -/
theorem Secures.stopped {last : Q} (h : p.Secures env torn inv post q)
    (hstopped : Stopped env torn q p last) : inv last := by
  cases hstopped with
  | between hsteps htrail => exact (h.steps hsteps htrail).holds
  | inside hsteps htrail hcut => exact (h.steps hsteps htrail).2.1 last hcut

theorem Secures.ran {value : α} (h : p.Secures env torn inv post q)
    (hran : Ran env q p events q' value) : post value q' :=
  (h.steps hran.steps hran.trail).2

end Secures

end Prog

end VasalAgent.Async
