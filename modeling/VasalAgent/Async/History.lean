import Mathlib.Data.List.Induction
import VasalAgent.Async.Pool

/-!
# Calls and what stands before them

Properties of the form "every call is good after the calls before it".  They follow
from a monitor whose state says enough about those calls, or from the program
itself, walked through with its history (`GoodAfter`).
-/

namespace VasalAgent.Async

variable {S : Signature} {α β : Type}

namespace Pool

/-- What a monitor's state says of the calls before it makes every accepted call good. -/
theorem eachAfter_of_monitor {Q : Type} {monitor : Monitor S Q}
    {shows : Q → List (Event S) → Prop} {good : List (Event S) → Event S → Prop}
    (hstep : ∀ {q q' earlier event}, shows q earlier → monitor q event = some q' →
      good earlier event ∧ shows q' (earlier ++ [event]))
    {q q' : Q} {events : List (Event S)} (hfirst : shows q [])
    (h : monitor.after q events = some q') : EachAfter good events ∧ shows q' events := by
  induction events using List.reverseRecOn generalizing q' with
  | nil =>
      cases h
      refine ⟨fun earlier entry later heq => ?_, hfirst⟩
      simp at heq
  | append_singleton earlier event ih =>
      rw [Monitor.after_concat] at h
      obtain ⟨mid, hmid, hevent⟩ := Option.bind_eq_some_iff.mp h
      obtain ⟨hearlier, hshows⟩ := ih hmid
      obtain ⟨hgood, hnext⟩ := hstep hshows hevent
      exact ⟨hearlier.concat hgood, hnext⟩

end Pool

namespace Prog

variable {good : List (Event S) → Event S → Prop}

/-- After the calls `prior`, every call of the program is good where it is made. -/
def GoodAfter (good : List (Event S) → Event S → Prop) :
    List (Event S) → Prog S α → Prop
  | _, .ret _ => True
  | prior, .call op next =>
      ∀ ans, good prior ⟨op, ans⟩ ∧ (next ans).GoodAfter good (prior ++ [⟨op, ans⟩])
  | _, .hang => True

theorem GoodAfter.eachAfter {p q : Prog S α} {prior events : List (Event S)}
    (h : p.GoodAfter good prior) (hsteps : Steps p events q) :
    Pool.EachAfter (fun earlier => good (prior ++ earlier)) events := by
  induction hsteps generalizing prior with
  | refl p =>
      intro earlier entry later heq
      simp at heq
  | @call op next ans events q _ ih =>
      intro earlier entry later heq
      cases earlier with
      | nil =>
          cases heq
          rw [List.append_nil]
          exact (h ans).1
      | cons first earlier =>
          cases heq
          rw [List.append_cons]
          exact ih (h ans).2 earlier entry later rfl

end Prog

end VasalAgent.Async
