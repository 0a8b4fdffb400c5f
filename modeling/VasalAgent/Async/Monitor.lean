import VasalAgent.Async.Prog

/-!
# Monitors over partial executions

A monitor reads the calls of a program one by one and may refuse a call.
`Ensures` says that no path of the program is refused and that a postcondition
links the returned value to the monitor's final state.  It is a logic of
postconditions for `Prog`: the rules below follow the constructors, and
`Ensures.steps` carries a verdict to every partial execution.
-/

namespace VasalAgent.Async

/-- `none` refuses the call. -/
abbrev Monitor (S : Signature) (Q : Type) := Q → Event S → Option Q

def Monitor.after {S : Signature} {Q : Type} (monitor : Monitor S Q) (q : Q)
    (events : List (Event S)) : Option Q :=
  events.foldlM monitor q

namespace Monitor

variable {S : Signature} {Q : Type} (monitor : Monitor S Q)

@[simp] theorem after_cons (q : Q) (event : Event S) (events : List (Event S)) :
    monitor.after q (event :: events) =
      (monitor q event).bind fun q' => monitor.after q' events := rfl

theorem after_append {q q' : Q} {first : List (Event S)}
    (h : monitor.after q first = some q') (second : List (Event S)) :
    monitor.after q (first ++ second) = monitor.after q' second := by
  simp only [after, List.foldlM_append] at h ⊢
  rw [h]
  rfl

theorem after_append_inv {q q' : Q} {first second : List (Event S)}
    (h : monitor.after q (first ++ second) = some q') :
    ∃ mid, monitor.after q first = some mid ∧ monitor.after mid second = some q' := by
  simp only [after, List.foldlM_append] at h ⊢
  exact Option.bind_eq_some_iff.mp h

theorem after_cons_inv {q q' : Q} {event : Event S} {events : List (Event S)}
    (h : monitor.after q (event :: events) = some q') :
    ∃ mid, monitor q event = some mid ∧ monitor.after mid events = some q' := by
  rw [after_cons] at h
  exact Option.bind_eq_some_iff.mp h

theorem after_concat (q : Q) (events : List (Event S)) (event : Event S) :
    monitor.after q (events ++ [event]) =
      (monitor.after q events).bind (monitor · event) := by
  simp only [after, List.foldlM_append]
  cases List.foldlM monitor q events with
  | none => rfl
  | some q' => simp

theorem after_neutral {q : Q} {events : List (Event S)}
    (h : ∀ event ∈ events, monitor q event = some q) : monitor.after q events = some q := by
  induction events with
  | nil => rfl
  | cons event rest ih =>
      rw [after_cons, h event List.mem_cons_self, Option.bind_some]
      exact ih fun other hother => h other (List.mem_cons_of_mem event hother)

/-- A monitor that follows another one through `f`, whenever that one accepts. -/
theorem after_map {Q' : Type} {coarse : Monitor S Q'} {f : Q → Q'}
    (h : ∀ q event q', monitor q event = some q' → coarse (f q) event = some (f q'))
    {q q' : Q} {events : List (Event S)} (hafter : monitor.after q events = some q') :
    coarse.after (f q) events = some (f q') := by
  induction events generalizing q with
  | nil =>
      cases hafter
      rfl
  | cons event rest ih =>
      obtain ⟨mid, hmid, hrest⟩ := monitor.after_cons_inv hafter
      rw [after_cons, h q event mid hmid, Option.bind_some]
      exact ih hrest

/-! ### Checking single calls -/

/-- The monitor that refuses every call which is not good. -/
noncomputable def checking (good : Event S → Prop) : Monitor S Unit :=
  open Classical in fun _ event => if good event then some () else none

variable {good : Event S → Prop}

theorem checking_of_good {event : Event S} (h : good event) (q : Unit) :
    checking good q event = some () := by
  simp [checking, h]

theorem good_of_checking {q q' : Unit} {events : List (Event S)}
    (h : (checking good).after q events = some q') : ∀ event ∈ events, good event := by
  induction events with
  | nil => simp
  | cons event rest ih =>
      obtain ⟨mid, hmid, hrest⟩ := (checking good).after_cons_inv h
      have hgood : good event := by
        simp only [checking, Option.ite_none_right_eq_some] at hmid
        exact hmid.1
      simpa [hgood] using ih hrest

/-! ### Monitors that are given by their moves -/

/-- The monitor that makes the moves of a relation and refuses every other call. -/
noncomputable def ofMoves (moves : Q → Event S → Q → Prop) : Monitor S Q :=
  open Classical in fun q event => if h : ∃ q', moves q event q' then some h.choose else none

variable {moves : Q → Event S → Q → Prop} {q q' : Q} {event : Event S}

theorem move_of_ofMoves (h : ofMoves moves q event = some q') : moves q event q' := by
  unfold ofMoves at h
  split at h
  · next hmove =>
      cases h
      exact hmove.choose_spec
  · cases h

theorem ofMoves_of_move (h : moves q event q')
    (hdeterministic : ∀ other, moves q event other → other = q') :
    ofMoves moves q event = some q' := by
  have hmove : ∃ q', moves q event q' := ⟨q', h⟩
  rw [ofMoves, dif_pos hmove, hdeterministic _ hmove.choose_spec]

end Monitor

namespace Prog

variable {S : Signature} {Q α β : Type}

/--
Along every path whose answers satisfy `assume`, the monitor accepts every
call, and `post` holds of the returned value and the monitor's state.
-/
def Ensures (assume : Event S → Prop) (monitor : Monitor S Q)
    (post : α → Q → Prop) : Prog S α → Q → Prop
  | .ret value, q => post value q
  | .call op next, q => ∀ ans, assume ⟨op, ans⟩ →
      ∃ q', monitor q ⟨op, ans⟩ = some q' ∧
        (next ans).Ensures assume monitor post q'
  | .hang, _ => True

section Rules

variable {assume : Event S → Prop} {monitor : Monitor S Q}

@[simp] theorem ensures_ret {post : α → Q → Prop} (value : α) (q : Q) :
    (Prog.ret value : Prog S α).Ensures assume monitor post q ↔
      post value q := Iff.rfl

@[simp] theorem ensures_call {post : α → Q → Prop} (op : S.Op)
    (next : S.Ans op → Prog S α) (q : Q) :
    (Prog.call op next).Ensures assume monitor post q ↔
      ∀ ans, assume ⟨op, ans⟩ → ∃ q', monitor q ⟨op, ans⟩ = some q' ∧
        (next ans).Ensures assume monitor post q' := Iff.rfl

@[simp] theorem ensures_pure {post : α → Q → Prop} (value : α) (q : Q) :
    (pure value : Prog S α).Ensures assume monitor post q ↔ post value q := Iff.rfl

@[simp] theorem ensures_perform_bind {post : α → Q → Prop} (op : S.Op)
    (rest : S.Ans op → Prog S α) (q : Q) :
    (@Bind.bind (Prog S) _ (no_index (S.Ans op)) α (perform op) rest).Ensures
        assume monitor post q ↔
      ∀ ans, assume ⟨op, ans⟩ → ∃ q', monitor q ⟨op, ans⟩ = some q' ∧
        (rest ans).Ensures assume monitor post q' := Iff.rfl

theorem Ensures.mono {post weaker : α → Q → Prop} {p : Prog S α} {q : Q}
    (h : p.Ensures assume monitor post q)
    (hpost : ∀ value q, post value q → weaker value q) :
    p.Ensures assume monitor weaker q := by
  induction p generalizing q with
  | ret value => exact hpost value q h
  | call op next ih =>
      intro ans hans
      obtain ⟨q', hq', hnext⟩ := h ans hans
      exact ⟨q', hq', ih ans hnext⟩
  | hang => trivial

theorem Ensures.bind {mid : α → Q → Prop} {post : β → Q → Prop}
    {p : Prog S α} {rest : α → Prog S β} {q : Q}
    (first : p.Ensures assume monitor mid q)
    (second : ∀ value q, mid value q →
      (rest value).Ensures assume monitor post q) :
    (p >>= rest).Ensures assume monitor post q := by
  induction p generalizing q with
  | ret value => exact second value q first
  | call op next ih =>
      intro ans hans
      obtain ⟨q', hq', hnext⟩ := first ans hans
      exact ⟨q', hq', ih ans hnext⟩
  | hang => trivial

theorem Ensures.andThen {post : β → Q → Prop} {p : Prog S α}
    {rest : α → Prog S β} {q r : Q}
    (first : p.Ensures assume monitor (fun _ q' => q' = r) q)
    (second : ∀ value, (rest value).Ensures assume monitor post r) :
    (p >>= rest).Ensures assume monitor post q := by
  refine first.bind fun value q' hq' => ?_
  subst hq'
  exact second value

/-- A program whose calls all leave the monitor's state alone. -/
theorem Uses.ensures {allowed : S.Op → Prop} {p : Prog S α}
    (h : p.Uses allowed) {q : Q}
    (hstay : ∀ op ans, allowed op → assume ⟨op, ans⟩ →
      monitor q ⟨op, ans⟩ = some q) :
    p.Ensures assume monitor (fun _ q' => q' = q) q := by
  induction p with
  | ret value => rfl
  | call op next ih =>
      intro ans hans
      exact ⟨q, hstay op ans h.1 hans, ih ans (h.2 ans)⟩
  | hang => trivial

theorem Ensures.steps {post : α → Q → Prop} {p p' : Prog S α} {q : Q}
    {events : List (Event S)} (h : p.Ensures assume monitor post q)
    (hsteps : Steps p events p') (hassume : ∀ event ∈ events, assume event) :
    ∃ q', monitor.after q events = some q' ∧
      p'.Ensures assume monitor post q' := by
  induction hsteps generalizing q with
  | refl p => exact ⟨q, rfl, h⟩
  | @call op next ans events p' rest ih =>
      obtain ⟨q₁, hq₁, hnext⟩ := h ans (hassume _ (by simp))
      obtain ⟨q₂, hq₂, hlast⟩ :=
        ih hnext (fun event hevent => hassume event (by simp [hevent]))
      refine ⟨q₂, ?_, hlast⟩
      rw [Monitor.after_cons, hq₁]
      exact hq₂

end Rules

/-! ## Returned values -/

/-- Along the paths whose answers satisfy `assume`, what is returned satisfies `post`. -/
def Yields (assume : Event S → Prop) (post : α → Prop) : Prog S α → Prop
  | .ret value => post value
  | .call op next => ∀ ans, assume ⟨op, ans⟩ → (next ans).Yields assume post
  | .hang => True

section Yields

variable {assume : Event S → Prop}

theorem Yields.mono {post weaker : α → Prop} {p : Prog S α}
    (h : p.Yields assume post) (hpost : ∀ value, post value → weaker value) :
    p.Yields assume weaker := by
  induction p with
  | ret value => exact hpost value h
  | call op next ih => exact fun ans hans => ih ans (h ans hans)
  | hang => trivial

theorem Yields.bind {mid : α → Prop} {post : β → Prop} {p : Prog S α}
    {rest : α → Prog S β} (first : p.Yields assume mid)
    (second : ∀ value, mid value → (rest value).Yields assume post) :
    (p >>= rest).Yields assume post := by
  induction p with
  | ret value => exact second value first
  | call op next ih => exact fun ans hans => ih ans (first ans hans)
  | hang => trivial

theorem yields_any (p : Prog S α) : p.Yields assume fun _ => True := by
  induction p with
  | ret value => trivial
  | call op next ih => exact fun ans _ => ih ans
  | hang => trivial

theorem Ensures.yields {monitor : Monitor S Q} {post : α → Prop} {p : Prog S α} {q : Q}
    (h : p.Ensures assume monitor (fun value _ => post value) q) : p.Yields assume post := by
  induction p generalizing q with
  | ret value => exact h
  | call op next ih =>
      intro ans hans
      obtain ⟨q', -, hnext⟩ := h ans hans
      exact ih ans hnext
  | hang => trivial

/-- A program that makes only good calls is checked, whatever it returns. -/
theorem Yields.checked {allowed : S.Op → Prop} {good : Event S → Prop} {post : α → Prop}
    {p : Prog S α} (h : p.Yields assume post) (huses : p.Uses allowed)
    (hgood : ∀ op ans, allowed op → good ⟨op, ans⟩) :
    p.Ensures assume (Monitor.checking good) (fun value _ => post value) () := by
  induction p with
  | ret value => exact h
  | call op next ih =>
      intro ans hans
      have hcall := Monitor.checking_of_good (hgood op ans huses.1) ()
      exact ⟨(), hcall, ih ans (h ans hans) (huses.2 ans)⟩
  | hang => trivial

theorem Yields.steps {post : α → Prop} {p : Prog S α} {events : List (Event S)}
    {value : α} (h : p.Yields assume post) (hsteps : Steps p events (.ret value))
    (hassume : ∀ event ∈ events, assume event) : post value := by
  generalize hq : Prog.ret value = q at hsteps
  induction hsteps with
  | refl p =>
      subst hq
      exact h
  | @call op next ans events q rest ih =>
      exact ih (h ans (hassume _ (by simp)))
        (fun event hevent => hassume event (by simp [hevent])) hq

end Yields

/-! ## Emitted notes -/

section Emits

variable {E : Type} (note : Event S → Option E)

/-- When `p` has returned, the notes of its calls are `out`. -/
def Emits (out : List E) (p : Prog S α) : Prop :=
  ∀ ⦃events value⦄, Steps p events (.ret value) → events.filterMap note = out

variable {note}

theorem emits_ret (value : α) : (Prog.ret value : Prog S α).Emits note [] := by
  rintro events _ ⟨⟩
  rfl

theorem emits_call {op : S.Op} {next : S.Ans op → Prog S α} {e : E} {out : List E}
    (hnote : ∀ ans, note ⟨op, ans⟩ = some e) (h : ∀ ans, (next ans).Emits note out) :
    (Prog.call op next).Emits note (e :: out) := by
  intro events value hsteps
  cases hsteps with
  | call rest => rw [List.filterMap_cons_some (hnote _), h _ rest]

theorem emits_silent {op : S.Op} {next : S.Ans op → Prog S α} {out : List E}
    (hnote : ∀ ans, note ⟨op, ans⟩ = none) (h : ∀ ans, (next ans).Emits note out) :
    (Prog.call op next).Emits note out := by
  intro events value hsteps
  cases hsteps with
  | call rest => rw [List.filterMap_cons_none (hnote _), h _ rest]

theorem Emits.bind {p : Prog S α} {rest : α → Prog S β} {first second : List E}
    (hfirst : p.Emits note first) (hsecond : ∀ value, (rest value).Emits note second) :
    (p >>= rest).Emits note (first ++ second) := by
  intro events value hsteps
  obtain ⟨_, _, mid, rfl, hp, hrest⟩ := hsteps.bind_ret
  rw [List.filterMap_append, hfirst hp, hsecond mid hrest]

theorem Uses.emits {allowed : S.Op → Prop} {p : Prog S α} (h : p.Uses allowed)
    (hsilent : ∀ op ans, allowed op → note ⟨op, ans⟩ = none) : p.Emits note [] := by
  intro events value hsteps
  rw [List.filterMap_eq_nil_iff]
  exact fun event hevent => hsilent event.1 event.2 (h.steps hsteps event hevent)

end Emits

end Prog

end VasalAgent.Async
