import VasalAgent.Async.Monitor

/-!
# Guarded calls

Some calls of a program should not be made any more once a flag is set; the
program looks at the flag by other calls.  A program is armed when it can still
make a guarded call before it looks again, and it is guarded when it makes none
after a look that told it to stop.  A guarded program that is not armed when the
flag is set makes no guarded call from then on (`Guarded.step`).
-/

namespace VasalAgent.Async

structure Guard (S : Signature) where
  start : S.Op → Prop
  check : S.Op → Prop
  /-- The answers of a check that say to stop. -/
  stop : (op : S.Op) → S.Ans op → Prop

namespace Guard

variable {S : Signature} {α β : Type} (G : Guard S)

inductive Armed : Prog S α → Prop
  | start {op : S.Op} {next : S.Ans op → Prog S α} (h : G.start op) :
      Armed (.call op next)
  | later {op : S.Op} {next : S.Ans op → Prog S α} (hop : ¬ G.check op)
      (ans : S.Ans op) (h : Armed (next ans)) : Armed (.call op next)

abbrev Quiet (p : Prog S α) : Prop := p.Uses fun op => ¬ G.start op

def Guarded : Prog S α → Prop
  | .ret _ => True
  | .call op next =>
      (∀ ans, Guarded (next ans)) ∧
        (G.check op → ∀ ans, G.stop op ans → G.Quiet (next ans))
  | .hang => True

variable {G}

theorem armed_call {op : S.Op} {next : S.Ans op → Prog S α} :
    G.Armed (.call op next) ↔
      G.start op ∨ ¬ G.check op ∧ ∃ ans, G.Armed (next ans) := by
  constructor
  · intro h
    cases h with
    | start hstart => exact .inl hstart
    | later hop ans hnext => exact .inr ⟨hop, ans, hnext⟩
  · rintro (hstart | ⟨hop, ans, hnext⟩)
    · exact .start hstart
    · exact .later hop ans hnext

theorem not_armed_of_quiet {p : Prog S α} (h : G.Quiet p) : ¬ G.Armed p := by
  intro harmed
  induction harmed with
  | start hstart => exact h.1 hstart
  | later _ ans _ ih => exact ih (h.2 ans)

/-! ## Guarded programs -/

theorem guarded_of_quiet {p : Prog S α} (h : G.Quiet p) : G.Guarded p := by
  induction p with
  | ret value => trivial
  | call op next ih =>
      exact ⟨fun ans => ih ans (h.2 ans), fun _ ans _ => h.2 ans⟩
  | hang => trivial

/-- The first part does not look at the flag. -/
theorem guarded_bind {p : Prog S α} {rest : α → Prog S β}
    (hp : p.Uses fun op => ¬ G.check op) (hrest : ∀ value, G.Guarded (rest value)) :
    G.Guarded (p >>= rest) := by
  induction p with
  | ret value => exact hrest value
  | call op next ih =>
      exact ⟨fun ans => ih ans (hp.2 ans), fun hcheck => absurd hcheck hp.1⟩
  | hang => trivial

theorem guarded_of_unchecked {p : Prog S α} (hp : p.Uses fun op => ¬ G.check op) :
    G.Guarded p := by
  induction p with
  | ret value => trivial
  | call op next ih =>
      exact ⟨fun ans => ih ans (hp.2 ans), fun hcheck => absurd hcheck hp.1⟩
  | hang => trivial

theorem Guarded.bind_quiet {p : Prog S α} {rest : α → Prog S β}
    (hp : G.Guarded p) (hrest : ∀ value, G.Quiet (rest value)) :
    G.Guarded (p >>= rest) := by
  induction p with
  | ret value => exact guarded_of_quiet (hrest value)
  | call op next ih =>
      refine ⟨fun ans => ih ans (hp.1 ans), fun hcheck ans hstop => ?_⟩
      exact (hp.2 hcheck ans hstop).bind hrest
  | hang => trivial

/-- A check, and what follows a look that said to go on. -/
theorem guarded_check {op : S.Op} {next : S.Ans op → Prog S α}
    (hstop : ∀ ans, G.stop op ans → G.Quiet (next ans))
    (hgo : ∀ ans, ¬ G.stop op ans → G.Guarded (next ans)) :
    G.Guarded (Prog.perform op >>= next) := by
  refine ⟨fun ans => ?_, fun _ => hstop⟩
  by_cases h : G.stop op ans
  · exact guarded_of_quiet (hstop ans h)
  · exact hgo ans h

/-! ## One call -/

/-- A call that respects the flag: not guarded, and a check says to stop. -/
def Heeds (G : Guard S) (event : Event S) : Prop :=
  ¬ G.start event.1 ∧ (G.check event.1 → G.stop event.1 event.2)

theorem Guarded.step {op : S.Op} {next : S.Ans op → Prog S α} {ans : S.Ans op}
    (h : G.Guarded (.call op next)) (harmed : ¬ G.Armed (.call op next))
    (hstop : G.check op → G.stop op ans) :
    G.Heeds ⟨op, ans⟩ ∧ ¬ G.Armed (next ans) := by
  refine ⟨⟨fun hstart => harmed (.start hstart), hstop⟩, fun hnext => ?_⟩
  by_cases hcheck : G.check op
  · exact not_armed_of_quiet (h.2 hcheck ans (hstop hcheck)) hnext
  · exact harmed (.later hcheck ans hnext)

end Guard

end VasalAgent.Async
