import VasalAgent.Async.Prog

/-!
# Programs in an environment

The environment of a program has a state of its own, such as a table or a disk.
It decides which answers a call can get and what the call does to the state.
`Ran` relates the states before and after a program that has returned.
-/

namespace VasalAgent.Async

/-- The answers that a state allows to a call, with the states they lead to. -/
abbrev Environment (S : Signature) (Q : Type) := Q → Event S → Q → Prop

variable {S : Signature} {Q α β : Type}

inductive Trail (env : Environment S Q) : Q → List (Event S) → Q → Prop where
  | nil (q : Q) : Trail env q [] q
  | cons {q mid q' : Q} {event : Event S} {events : List (Event S)}
      (first : env q event mid) (rest : Trail env mid events q') :
      Trail env q (event :: events) q'

section Trail

variable {env : Environment S Q}

theorem Trail.append_inv {q q' : Q} {first second : List (Event S)}
    (h : Trail env q (first ++ second) q') :
    ∃ mid, Trail env q first mid ∧ Trail env mid second q' := by
  induction first generalizing q with
  | nil => exact ⟨q, .nil q, h⟩
  | cons event rest ih =>
      cases h with
      | cons hfirst hrest =>
          obtain ⟨mid, hmid, hsecond⟩ := ih hrest
          exact ⟨mid, .cons hfirst hmid, hsecond⟩

theorem Trail.mono {wider : Environment S Q} {q q' : Q} {events : List (Event S)}
    (h : Trail env q events q') (hle : ∀ q event q', env q event q' → wider q event q') :
    Trail wider q events q' := by
  induction h with
  | nil q => exact .nil q
  | cons first _ ih => exact .cons (hle _ _ _ first) ih

end Trail

/-- From the state `q` on, the program made these calls and returned `value` in `q'`. -/
structure Ran (env : Environment S Q) (q : Q) (p : Prog S α) (events : List (Event S)) (q' : Q)
    (value : α) : Prop where
  steps : p.Steps events (.ret value)
  trail : Trail env q events q'

namespace Ran

variable {env : Environment S Q} {q q' : Q} {events : List (Event S)}

theorem ret_inv {returned value : α} (h : Ran env q (.ret returned) events q' value) :
    events = [] ∧ q' = q ∧ value = returned := by
  obtain ⟨hsteps, htrail⟩ := h
  cases hsteps
  cases htrail
  exact ⟨rfl, rfl, rfl⟩

theorem call_inv {op : S.Op} {next : S.Ans op → Prog S α} {value : α}
    (h : Ran env q (.call op next) events q' value) :
    ∃ ans later mid, events = ⟨op, ans⟩ :: later ∧ env q ⟨op, ans⟩ mid ∧
      Ran env mid (next ans) later q' value := by
  obtain ⟨hsteps, htrail⟩ := h
  cases hsteps with
  | @call _ _ ans later _ hrest =>
      cases htrail with
      | cons hfirst hlater => exact ⟨ans, later, _, rfl, hfirst, hrest, hlater⟩

theorem bind_inv {p : Prog S α} {rest : α → Prog S β} {value : β}
    (h : Ran env q (p >>= rest) events q' value) :
    ∃ first second mid result, events = first ++ second ∧ Ran env q p first mid result ∧
      Ran env mid (rest result) second q' value := by
  obtain ⟨hsteps, htrail⟩ := h
  obtain ⟨first, second, result, rfl, hfirst, hsecond⟩ := hsteps.bind_ret
  obtain ⟨mid, hbefore, hafter⟩ := htrail.append_inv
  exact ⟨first, second, mid, result, rfl, ⟨hfirst, hbefore⟩, ⟨hsecond, hafter⟩⟩

theorem perform_inv {op : S.Op} {value : S.Ans op}
    (h : Ran env q (Prog.perform op) events q' value) :
    events = [⟨op, value⟩] ∧ env q ⟨op, value⟩ q' := by
  obtain ⟨ans, later, mid, rfl, hcall, hlater⟩ := h.call_inv
  obtain ⟨rfl, rfl, rfl⟩ := hlater.ret_inv
  exact ⟨rfl, hcall⟩

/-- `?` returns the error, or goes on with the value. -/
theorem orReturn_inv {ε : Type} {fail : ε → β} {p : Prog S (Except ε α)} {rest : α → Prog S β}
    {value : β} (h : Ran env q (Prog.orReturn fail p rest) events q' value) :
    (∃ e, value = fail e ∧ Ran env q p events q' (.error e)) ∨
      ∃ first second mid result, events = first ++ second ∧
        Ran env q p first mid (.ok result) ∧ Ran env mid (rest result) second q' value := by
  obtain ⟨first, second, mid, answer, rfl, hfirst, hsecond⟩ := h.bind_inv
  cases answer with
  | error e =>
      obtain ⟨rfl, rfl, rfl⟩ := hsecond.ret_inv
      exact .inl ⟨e, rfl, by rwa [List.append_nil]⟩
  | ok result => exact .inr ⟨first, second, mid, result, rfl, hfirst, hsecond⟩

theorem mono {wider : Environment S Q} {p : Prog S α} {value : α}
    (h : Ran env q p events q' value) (hle : ∀ q event q', env q event q' → wider q event q') :
    Ran wider q p events q' value :=
  ⟨h.steps, h.trail.mono hle⟩

theorem uses {allowed : S.Op → Prop} {p : Prog S α} {value : α}
    (h : Ran env q p events q' value) (huses : p.Uses allowed) :
    ∀ event ∈ events, allowed event.1 :=
  huses.steps h.steps

end Ran

end VasalAgent.Async
