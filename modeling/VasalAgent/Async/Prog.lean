import Mathlib.Data.List.Basic

/-!
# Programs of calls and answers

An asynchronous function is a tree: it returns, or it makes a call and goes on
with whatever answer the environment gives.  A call stands for one await point
or one effect on shared state.  The same tree is run against a fixed oracle
(`run`, `trace`) and, one call at a time, among other programs (`Steps`).

`hang` is the program that makes no further call.  It closes the loops whose
length is bounded by fuel.
-/

namespace VasalAgent.Async

structure Signature where
  Op : Type
  Ans : Op → Type

abbrev Event (S : Signature) := (op : S.Op) × S.Ans op

inductive Prog (S : Signature) (α : Type) where
  | ret (value : α)
  | call (op : S.Op) (next : S.Ans op → Prog S α)
  | hang

namespace Prog

variable {S : Signature} {α β : Type}

def bind : Prog S α → (α → Prog S β) → Prog S β
  | .ret value, rest => rest value
  | .call op next, rest => .call op fun ans => (next ans).bind rest
  | .hang, _ => .hang

instance : Monad (Prog S) where
  pure := .ret
  bind := bind

@[simp] theorem ret_bind (value : α) (rest : α → Prog S β) :
    (Prog.ret value >>= rest) = rest value := rfl

@[simp] theorem call_bind (op : S.Op) (next : S.Ans op → Prog S α)
    (rest : α → Prog S β) :
    (Prog.call op next >>= rest) = .call op fun ans => next ans >>= rest := rfl

@[simp] theorem hang_bind (rest : α → Prog S β) :
    ((Prog.hang : Prog S α) >>= rest) = .hang := rfl

protected theorem bind_assoc {γ : Type} (p : Prog S α) (f : α → Prog S β)
    (g : β → Prog S γ) :
    ((p >>= f) >>= g) = (p >>= fun value => f value >>= g) := by
  induction p with
  | ret value => rfl
  | call op next ih =>
      simp only [call_bind]
      exact congrArg (Prog.call op) (funext ih)
  | hang => rfl

protected theorem bind_pure (p : Prog S α) : (p >>= fun value => pure value) = p := by
  induction p with
  | ret value => rfl
  | call op next ih => exact congrArg (Prog.call op) (funext ih)
  | hang => rfl

def perform (op : S.Op) : Prog S (S.Ans op) := .call op .ret

/-! ## Runs against an oracle -/

/-- The value returned when every call is answered by the oracle. -/
def run (oracle : (op : S.Op) → S.Ans op) : Prog S α → Option α
  | .ret value => some value
  | .call op next => (next (oracle op)).run oracle
  | .hang => none

def trace (oracle : (op : S.Op) → S.Ans op) : Prog S α → List (Event S)
  | .ret _ => []
  | .call op next => ⟨op, oracle op⟩ :: (next (oracle op)).trace oracle
  | .hang => []

section Oracle

variable (oracle : (op : S.Op) → S.Ans op)

@[simp] theorem run_ret (value : α) :
    (Prog.ret value : Prog S α).run oracle = some value := rfl

@[simp] theorem run_call (op : S.Op) (next : S.Ans op → Prog S α) :
    (Prog.call op next).run oracle = (next (oracle op)).run oracle := rfl

@[simp] theorem trace_ret (value : α) :
    (Prog.ret value : Prog S α).trace oracle = [] := rfl

@[simp] theorem trace_call (op : S.Op) (next : S.Ans op → Prog S α) :
    (Prog.call op next).trace oracle =
      ⟨op, oracle op⟩ :: (next (oracle op)).trace oracle := rfl

theorem run_bind (p : Prog S α) (rest : α → Prog S β) :
    (p >>= rest).run oracle =
      (p.run oracle).bind fun value => (rest value).run oracle := by
  induction p with
  | ret value => rfl
  | call op next ih => exact ih (oracle op)
  | hang => rfl

theorem trace_bind {p : Prog S α} {value : α} (h : p.run oracle = some value)
    (rest : α → Prog S β) :
    (p >>= rest).trace oracle =
      p.trace oracle ++ (rest value).trace oracle := by
  induction p with
  | ret first =>
      simp only [run_ret, Option.some.injEq] at h
      rw [h, ret_bind, trace_ret, List.nil_append]
  | call op next ih =>
      rw [call_bind, trace_call, trace_call, List.cons_append]
      exact congrArg _ (ih (oracle op) h)
  | hang => exact absurd h (by simp [run])

theorem trace_bind_pure (p : Prog S α) (f : α → β) :
    (p >>= fun value => pure (f value)).trace oracle = p.trace oracle := by
  induction p with
  | ret value => rfl
  | call op next ih => rw [call_bind, trace_call, trace_call, ih]
  | hang => rfl

end Oracle

/-! ## Which calls a program can make -/

/-- Every call on every path satisfies `allowed`. -/
def Uses (allowed : S.Op → Prop) : Prog S α → Prop
  | .ret _ => True
  | .call op next => allowed op ∧ ∀ ans, (next ans).Uses allowed
  | .hang => True

section Uses

variable {allowed : S.Op → Prop}

@[simp] theorem uses_ret (value : α) :
    (Prog.ret value : Prog S α).Uses allowed := trivial

@[simp] theorem uses_call (op : S.Op) (next : S.Ans op → Prog S α) :
    (Prog.call op next).Uses allowed ↔
      allowed op ∧ ∀ ans, (next ans).Uses allowed := Iff.rfl

theorem Uses.bind {p : Prog S α} {rest : α → Prog S β}
    (first : p.Uses allowed) (second : ∀ value, (rest value).Uses allowed) :
    (p >>= rest).Uses allowed := by
  induction p with
  | ret value => exact second value
  | call op next ih => exact ⟨first.1, fun ans => ih ans (first.2 ans)⟩
  | hang => trivial

theorem Uses.mono {wider : S.Op → Prop} {p : Prog S α}
    (h : p.Uses allowed) (hle : ∀ op, allowed op → wider op) :
    p.Uses wider := by
  induction p with
  | ret value => trivial
  | call op next ih => exact ⟨hle op h.1, fun ans => ih ans (h.2 ans)⟩
  | hang => trivial

theorem Uses.trace {p : Prog S α} (h : p.Uses allowed)
    (oracle : (op : S.Op) → S.Ans op) :
    ∀ event ∈ p.trace oracle, allowed event.1 := by
  induction p with
  | ret value => simp
  | call op next ih =>
      intro event hevent
      rw [trace_call, List.mem_cons] at hevent
      rcases hevent with rfl | hlater
      · exact h.1
      · exact ih (oracle op) (h.2 _) event hlater
  | hang => simp [Prog.trace]

/-- What follows `p`, if anything does, makes the calls of `rest`. -/
theorem exists_trace_bind (p : Prog S α) {rest : α → Prog S β}
    (h : ∀ value, (rest value).Uses allowed) (oracle : (op : S.Op) → S.Ans op) :
    ∃ later, (p >>= rest).trace oracle = p.trace oracle ++ later ∧
      ∀ event ∈ later, allowed event.1 := by
  induction p with
  | ret value => exact ⟨_, rfl, (h value).trace oracle⟩
  | call op next ih =>
      obtain ⟨later, htrace, hlater⟩ := ih (oracle op)
      refine ⟨later, ?_, hlater⟩
      rw [call_bind, trace_call, trace_call, htrace, List.cons_append]
  | hang => exact ⟨[], rfl, by simp⟩

end Uses

/-! ## Early returns -/

/-- The `?` operator; `fail` converts the error that is returned. -/
def orReturn {ε : Type} (fail : ε → β) (p : Prog S (Except ε α)) (rest : α → Prog S β) :
    Prog S β := do
  match ← p with
  | .error e => pure (fail e)
  | .ok value => rest value

theorem Uses.orReturn {ε : Type} {allowed : S.Op → Prop} {fail : ε → β}
    {p : Prog S (Except ε α)} {rest : α → Prog S β} (h : p.Uses allowed)
    (hrest : ∀ value, (rest value).Uses allowed) : (orReturn fail p rest).Uses allowed := by
  apply h.bind
  intro result
  cases result with
  | error e => trivial
  | ok value => exact hrest value

/-! ## Partial executions -/

/-- `Steps p events q`: after the calls `events` were answered, `q` is left of `p`. -/
inductive Steps : Prog S α → List (Event S) → Prog S α → Prop
  | refl (p : Prog S α) : Steps p [] p
  | call {op : S.Op} {next : S.Ans op → Prog S α} {ans : S.Ans op}
      {events : List (Event S)} {q : Prog S α}
      (rest : Steps (next ans) events q) :
      Steps (.call op next) (⟨op, ans⟩ :: events) q

theorem Steps.eq_of_nil {p q : Prog S α} (h : Steps p [] q) : q = p := by
  cases h
  rfl

theorem Steps.snoc {p : Prog S α} {events : List (Event S)} {op : S.Op}
    {next : S.Ans op → Prog S α} (h : Steps p events (.call op next))
    (ans : S.Ans op) :
    Steps p (events ++ [⟨op, ans⟩]) (next ans) := by
  generalize hq : Prog.call op next = q at h
  induction h with
  | refl p =>
      subst hq
      exact .call (.refl _)
  | call rest ih => exact .call (ih hq)

/-- A run against an oracle is a complete execution. -/
theorem steps_of_run {p : Prog S α} {value : α} {oracle : (op : S.Op) → S.Ans op}
    (h : p.run oracle = some value) : Steps p (p.trace oracle) (.ret value) := by
  induction p with
  | ret first =>
      cases h
      exact .refl _
  | call op next ih => exact .call (ih (oracle op) h)
  | hang => cases h

theorem Uses.steps {allowed : S.Op → Prop} {p q : Prog S α}
    {events : List (Event S)} (h : p.Uses allowed) (hsteps : Steps p events q) :
    ∀ event ∈ events, allowed event.1 := by
  induction hsteps with
  | refl p => simp
  | @call op next ans events q rest ih =>
      intro event hevent
      rcases List.mem_cons.mp hevent with rfl | hlater
      · exact h.1
      · exact ih (h.2 ans) event hlater

/--
A partial execution of a sequence is inside the first part, or it has finished
the first part and is inside the second.
-/
theorem Steps.bind_inv {p : Prog S α} {rest : α → Prog S β}
    {events : List (Event S)} {q : Prog S β}
    (h : Steps (p >>= rest) events q) :
    (∃ p', Steps p events p' ∧ q = (p' >>= rest)) ∨
      ∃ first second value, events = first ++ second ∧
        Steps p first (.ret value) ∧ Steps (rest value) second q := by
  induction p generalizing events with
  | ret value => exact .inr ⟨[], events, value, rfl, .refl _, h⟩
  | call op next ih =>
      rw [call_bind] at h
      cases h with
      | refl => exact .inl ⟨_, .refl _, rfl⟩
      | @call _ _ ans tail _ hrest =>
          rcases ih ans hrest with ⟨p', hp, rfl⟩ | ⟨first, second, value, rfl, hp, hq⟩
          · exact .inl ⟨p', .call hp, rfl⟩
          · exact .inr ⟨_ :: first, second, value, rfl, .call hp, hq⟩
  | hang =>
      rw [hang_bind] at h
      cases h with
      | refl => exact .inl ⟨.hang, .refl _, rfl⟩

theorem Steps.bind {p : Prog S α} {rest : α → Prog S β} {first second : List (Event S)}
    {value : α} {q : Prog S β} (hfirst : Steps p first (.ret value))
    (hsecond : Steps (rest value) second q) : Steps (p >>= rest) (first ++ second) q := by
  generalize hret : Prog.ret value = last at hfirst
  induction hfirst with
  | refl p =>
      subst hret
      exact hsecond
  | call _ ih => exact .call (ih hret)

theorem Steps.bind_ret {p : Prog S α} {rest : α → Prog S β}
    {events : List (Event S)} {value : β}
    (h : Steps (p >>= rest) events (.ret value)) :
    ∃ first second mid, events = first ++ second ∧
      Steps p first (.ret mid) ∧ Steps (rest mid) second (.ret value) := by
  rcases h.bind_inv with ⟨p', hp, hq⟩ | hboth
  · cases p' with
    | ret mid =>
        rw [ret_bind] at hq
        exact ⟨events, [], mid, (List.append_nil _).symm, hp, hq ▸ .refl _⟩
    | call op next => cases hq
    | hang => cases hq
  · exact hboth

/-- A program whose value is thrown away makes the calls of the program. -/
theorem Steps.of_discard {p : Prog S α} {events : List (Event S)} {q : Prog S Unit}
    (h : Steps (p >>= fun _ => pure ()) events q) : ∃ p', Steps p events p' := by
  rcases h.bind_inv with ⟨p', hp, -⟩ | ⟨first, second, value, rfl, hfirst, hsecond⟩
  · exact ⟨p', hp⟩
  · cases hsecond
    rw [List.append_nil]
    exact ⟨_, hfirst⟩

/-- Every partial execution satisfies `good`. -/
def Traces (good : List (Event S) → Prop) (p : Prog S α) : Prop :=
  ∀ ⦃events q⦄, Steps p events q → good events

theorem Traces.bind {good : List (Event S) → Prop} {p : Prog S α} {rest : α → Prog S β}
    (happend : ∀ first second, good first → good second → good (first ++ second))
    (hp : p.Traces good) (hrest : ∀ value, (rest value).Traces good) :
    (p >>= rest).Traces good := by
  intro events q h
  rcases h.bind_inv with ⟨p', hp', -⟩ | ⟨first, second, value, rfl, hfirst, hsecond⟩
  · exact hp hp'
  · exact happend first second (hp hfirst) (hrest value hsecond)

theorem Uses.traces {allowed : S.Op → Prop} {good : List (Event S) → Prop} {p : Prog S α}
    (h : p.Uses allowed)
    (hgood : ∀ events, (∀ event ∈ events, allowed event.1) → good events) :
    p.Traces good :=
  fun events _ hsteps => hgood events (h.steps hsteps)

/-! ## Ways out of a wait -/

/-- Every reachable state satisfies `P`, as long as the answers are the assumed ones. -/
def Everywhere (P : Prog S α → Prop) (assume : Event S → Prop) : Prog S α → Prop
  | .ret value => P (.ret value)
  | .call op next =>
      P (.call op next) ∧ ∀ ans, assume ⟨op, ans⟩ → (next ans).Everywhere P assume
  | .hang => P .hang

section Escapes

variable {P : Prog S α → Prop} {assume : Event S → Prop} {p q : Prog S α}

theorem Everywhere.here (h : p.Everywhere P assume) : P p := by
  cases p with
  | ret value => exact h
  | call op next => exact h.1
  | hang => exact h

theorem Everywhere.call {op : S.Op} {next : S.Ans op → Prog S α} (h : P (.call op next))
    (hnext : ∀ ans, assume ⟨op, ans⟩ → (next ans).Everywhere P assume) :
    (Prog.call op next).Everywhere P assume :=
  ⟨h, hnext⟩

theorem Everywhere.mono {P' : Prog S α → Prop} (h : p.Everywhere P assume)
    (hle : ∀ q, P q → P' q) : p.Everywhere P' assume := by
  induction p with
  | ret value => exact hle _ h
  | call op next ih => exact ⟨hle _ h.1, fun ans hans => ih ans (h.2 ans hans)⟩
  | hang => exact hle _ h

theorem Everywhere.steps {events : List (Event S)} (h : p.Everywhere P assume)
    (hsteps : Steps p events q) (hevents : ∀ event ∈ events, assume event) : P q := by
  induction hsteps with
  | refl p => exact h.here
  | call rest ih =>
      rw [List.forall_mem_cons] at hevents
      exact ih (h.2 _ hevents.1) hevents.2

variable (ready : (op : S.Op) → S.Ans op → Prop)

/--
At each of at most `n` further calls some answer is ready, and whichever of the ready
answers come the program returns.
-/
def EscapesWithin : Nat → Prog S α → Prop
  | _, .ret _ => True
  | 0, .call _ _ => False
  | n + 1, .call op next =>
      (∃ ans, ready op ans) ∧ ∀ ans, ready op ans → (next ans).EscapesWithin n
  | _, .hang => False

variable {ready} {n m : Nat}

theorem EscapesWithin.call {op : S.Op} {next : S.Ans op → Prog S α} (h : ∃ ans, ready op ans)
    (hnext : ∀ ans, ready op ans → (next ans).EscapesWithin ready n) :
    (Prog.call op next).EscapesWithin ready (n + 1) :=
  ⟨h, hnext⟩

theorem EscapesWithin.mono (h : p.EscapesWithin ready n) (hle : n ≤ m) :
    p.EscapesWithin ready m := by
  induction p generalizing n m with
  | ret value => cases m <;> trivial
  | call op next ih =>
      cases n with
      | zero => exact h.elim
      | succ n =>
          obtain ⟨k, rfl⟩ : ∃ k, m = k + 1 := ⟨m - 1, by omega⟩
          exact ⟨h.1, fun ans hans => ih ans (h.2 ans hans) (by omega)⟩
  | hang => cases n <;> exact h.elim

/-- No way out after some ready answer is no way out. -/
theorem not_escapesWithin_call {op : S.Op} {next : S.Ans op → Prog S α} (ans : S.Ans op)
    (hready : ready op ans) (h : ∀ n, ¬ (next ans).EscapesWithin ready n) (n : Nat) :
    ¬ (Prog.call op next).EscapesWithin ready n := by
  intro hescapes
  cases n with
  | zero => exact hescapes
  | succ n => exact h n (hescapes.2 ans hready)

theorem not_escapesWithin_of_stuck {op : S.Op} {next : S.Ans op → Prog S α}
    (h : ∀ ans, ¬ ready op ans) (n : Nat) :
    ¬ (Prog.call op next).EscapesWithin ready n := by
  intro hescapes
  cases n with
  | zero => exact hescapes
  | succ n =>
      obtain ⟨ans, hready⟩ := hescapes.1
      exact h ans hready

/-- Where every answer is ready at every call, all that follows escapes with the program. -/
theorem EscapesWithin.everywhere (h : p.EscapesWithin ready n)
    (huses : p.Uses fun op => ∀ ans, ready op ans) :
    p.Everywhere
      (fun q => q.EscapesWithin ready n ∧ q.Uses fun op => ∀ ans, ready op ans) assume := by
  induction p generalizing n with
  | ret value => exact ⟨h, huses⟩
  | call op next ih =>
      cases n with
      | zero => exact h.elim
      | succ n =>
          refine ⟨⟨h, huses⟩, fun ans _ => ?_⟩
          exact (ih ans (h.2 ans (huses.1 ans)) (huses.2 ans)).mono
            fun q hq => ⟨hq.1.mono (Nat.le_succ n), hq.2⟩
  | hang => exact ⟨h, huses⟩

end Escapes

/-! ## Brackets -/

def returned : Prog S α → Bool
  | .ret _ => true
  | _ => false

theorem returned_bind_call (p : Prog S α) (op : α → S.Op)
    (next : (value : α) → S.Ans (op value) → Prog S β) :
    (p >>= fun value => .call (op value) (next value)).returned = false := by
  cases p <;> rfl

/-- `inner` between an opening and a closing call. -/
def bracket (opening closing : S.Op) (inner : Prog S Unit) : Prog S Unit :=
  .call opening fun _ => inner >>= fun _ => .call closing fun _ => .ret ()

/-- A bracket has not begun, or is inside, or has returned with its closing call. -/
theorem Steps.bracket_cases {opening closing : S.Op} {inner rest : Prog S Unit}
    {events : List (Event S)} (h : Steps (bracket opening closing inner) events rest) :
    (events = [] ∧ rest.returned = false) ∨
      (∃ ans mid p, events = ⟨opening, ans⟩ :: mid ∧ Steps inner mid p ∧
        rest.returned = false) ∨
      ∃ ans mid ans', events = ⟨opening, ans⟩ :: (mid ++ [⟨closing, ans'⟩]) ∧
        Steps inner mid (.ret ()) ∧ rest = .ret () := by
  cases h with
  | refl => exact .inl ⟨rfl, rfl⟩
  | @call _ _ ans tail _ htail =>
      rcases htail.bind_inv with ⟨p, hp, rfl⟩ | ⟨mid, last, _, rfl, hmid, hlast⟩
      · refine .inr (.inl ⟨ans, tail, p, rfl, hp, ?_⟩)
        exact returned_bind_call p (fun _ => closing) _
      · cases hlast with
        | refl => exact .inr (.inl ⟨ans, _, _, by rw [List.append_nil], hmid, rfl⟩)
        | @call _ _ ans' _ _ hend =>
            cases hend
            exact .inr (.inr ⟨ans, mid, ans', rfl, hmid, rfl⟩)

end Prog

end VasalAgent.Async
