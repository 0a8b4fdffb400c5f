import VasalAgent.Async.Prog

/-!
# Calls that are programs

A program whose calls are themselves carried out by programs.  As long as those come to an
answer, the whole goes as the program alone does with these answers, and its calls are theirs
one after the other.
-/

namespace VasalAgent.Async.Prog

variable {S T : Signature} {α β : Type}

def interpret (impl : (op : S.Op) → Prog T (S.Ans op)) : Prog S α → Prog T α
  | .ret value => .ret value
  | .call op next => impl op >>= fun ans => (next ans).interpret impl
  | .hang => .hang

variable {impl : (op : S.Op) → Prog T (S.Ans op)} {oracle : (op : T.Op) → T.Ans op}
  {answers : (op : S.Op) → S.Ans op}

theorem run_interpret (h : ∀ op, (impl op).run oracle = some (answers op)) (p : Prog S α) :
    (p.interpret impl).run oracle = p.run answers := by
  induction p with
  | ret value => rfl
  | call op next ih =>
      rw [interpret, run_bind, h op, Option.bind_some, run_call]
      exact ih (answers op)
  | hang => rfl

theorem trace_interpret (h : ∀ op, (impl op).run oracle = some (answers op)) (p : Prog S α) :
    (p.interpret impl).trace oracle =
      (p.trace answers).flatMap fun event => (impl event.1).trace oracle := by
  induction p with
  | ret value => rfl
  | call op next ih =>
      rw [interpret, trace_bind oracle (h op), trace_call, List.flatMap_cons, ih (answers op)]
  | hang => rfl

theorem Uses.interpret {allowed : S.Op → Prop} {made : T.Op → Prop} {p : Prog S α}
    (h : p.Uses allowed) (himpl : ∀ op, allowed op → (impl op).Uses made) :
    (p.interpret impl).Uses made := by
  induction p with
  | ret value => trivial
  | call op next ih => exact (himpl op h.1).bind fun ans => ih ans (h.2 ans)
  | hang => trivial

/-! ## Programs that come to an end -/

/-- Whatever is answered, there is a next call or a value. -/
def NeverHangs : Prog S α → Prop
  | .ret _ => True
  | .call _ next => ∀ ans, (next ans).NeverHangs
  | .hang => False

theorem NeverHangs.bind {p : Prog S α} {rest : α → Prog S β} (h : p.NeverHangs)
    (hrest : ∀ value, (rest value).NeverHangs) : (p >>= rest).NeverHangs := by
  induction p with
  | ret value => exact hrest value
  | call op next ih => exact fun ans => ih ans (h ans)
  | hang => exact h.elim

theorem NeverHangs.steps {p q : Prog S α} {events : List (Event S)} (h : p.NeverHangs)
    (hsteps : Steps p events q) : q.NeverHangs := by
  induction hsteps with
  | refl p => exact h
  | call _ ih => exact ih (h _)

theorem NeverHangs.interpret {p : Prog S α} (h : p.NeverHangs)
    (himpl : ∀ op, (impl op).NeverHangs) : (p.interpret impl).NeverHangs := by
  induction p with
  | ret value => trivial
  | call op next ih => exact (himpl op).bind fun ans => ih ans (h ans)
  | hang => exact h.elim

theorem NeverHangs.run {p : Prog S α} (h : p.NeverHangs) (oracle : (op : S.Op) → S.Ans op) :
    ∃ value, p.run oracle = some value := by
  induction p with
  | ret value => exact ⟨value, rfl⟩
  | call op next ih => exact ih (oracle op) (h (oracle op))
  | hang => exact h.elim

end VasalAgent.Async.Prog
