import Mathlib.Logic.Function.Basic

/-!
# Owners of registry entries

Processes register tokens in a shared map.  A process draws a fresh token, enters
it under a key, and later takes the entry out, or hands it to a process it
spawns.  As long as no key is entered twice, the map has exactly the entries that
some process still owns, each with its owner's token.
-/

namespace VasalAgent.Async.Ownership

inductive Stage (κ : Type) where
  | idle
  | fresh (token : Nat)
  | holding (key : κ) (token : Nat)
  deriving DecidableEq, Repr

def Stage.token? {κ : Type} : Stage κ → Option Nat
  | .idle => none
  | .fresh token => some token
  | .holding _ token => some token

variable {ι κ : Type}

/-- `owner` is the map: the token entered under each key. -/
structure Sound (stage : ι → Option (Stage κ)) (owner : κ → Option Nat)
    (next : Nat) : Prop where
  registered : ∀ {i key token}, stage i = some (.holding key token) →
    owner key = some token
  owned : ∀ {key token}, owner key = some token →
    ∃ i, stage i = some (.holding key token)
  known : ∀ {i s token}, stage i = some s → s.token? = some token → token < next
  distinct : ∀ {i j s s' token}, stage i = some s → s.token? = some token →
    stage j = some s' → s'.token? = some token → i = j

theorem Sound.empty : Sound (fun _ : ι => (none : Option (Stage κ))) (fun _ => none) 0 where
  registered h := by cases h
  owned h := by cases h
  known h := by cases h
  distinct h := by cases h

variable {stage : ι → Option (Stage κ)} {owner : κ → Option Nat} {next : Nat}

/-- The tokens in use are below `next`, and no two processes have the same. -/
structure Tokens (stage : ι → Option (Stage κ)) (next : Nat) : Prop where
  known : ∀ {i s token}, stage i = some s → s.token? = some token → token < next
  distinct : ∀ {i j s s' token}, stage i = some s → s.token? = some token →
    stage j = some s' → s'.token? = some token → i = j

theorem Sound.tokens (h : Sound stage owner next) : Tokens stage next := ⟨h.known, h.distinct⟩

variable [DecidableEq ι]

/-- One process comes to a stage whose token, if it has one, no other process has. -/
theorem Tokens.update (h : Tokens stage next) {i : ι} {s : Stage κ} {bound : Nat}
    (hnext : next ≤ bound) (hbelow : ∀ {token}, s.token? = some token → token < bound)
    (hown : ∀ {j s' token}, s.token? = some token → stage j = some s' →
      s'.token? = some token → j = i) :
    Tokens (Function.update stage i (some s)) bound where
  known := by
    intro j s' token hj htoken
    by_cases hji : j = i
    · subst hji
      rw [Function.update_self, Option.some.injEq] at hj
      exact hbelow (hj ▸ htoken)
    · rw [Function.update_of_ne hji] at hj
      exact Nat.lt_of_lt_of_le (h.known hj htoken) hnext
  distinct := by
    intro j k s₁ s₂ token hj hj' hk hk'
    by_cases hji : j = i
    · subst hji
      rw [Function.update_self, Option.some.injEq] at hj
      by_cases hki : k = j
      · exact hki.symm
      · rw [Function.update_of_ne hki] at hk
        exact (hown (hj ▸ hj') hk hk').symm
    · rw [Function.update_of_ne hji] at hj
      by_cases hki : k = i
      · subst hki
        rw [Function.update_self, Option.some.injEq] at hk
        exact hown (hk ▸ hk') hj hj'
      · rw [Function.update_of_ne hki] at hk
        exact h.distinct hj hj' hk hk'

theorem Tokens.idle (h : Tokens stage next) (i : ι) :
    Tokens (Function.update stage i (some .idle)) next :=
  h.update (Nat.le_refl next) (fun htoken => by cases htoken) fun htoken => by cases htoken

theorem Sound.join (h : Sound stage owner next) {i : ι} (hi : stage i = none) :
    Sound (Function.update stage i (some .idle)) owner next := by
  have htokens := h.tokens.idle i
  obtain ⟨registered, owned, -, -⟩ := h
  refine ⟨?_, fun {key token} hkey => ?_, htokens.known, htokens.distinct⟩
  · grind [Function.update_apply]
  · obtain ⟨j, hj⟩ := owned hkey
    exact ⟨j, by grind [Function.update_apply]⟩

theorem Sound.draw (h : Sound stage owner next) {i : ι} (hi : stage i = some .idle) :
    Sound (Function.update stage i (some (.fresh next))) owner (next + 1) := by
  -- every token in use is below `next`
  have htokens : Tokens (Function.update stage i (some (.fresh next))) (next + 1) := by
    refine h.tokens.update (Nat.le_succ next) ?_ ?_
    · rintro token ⟨⟩
      exact Nat.lt_succ_self next
    · rintro j s token ⟨⟩ hj htoken
      exact absurd (h.known hj htoken) (Nat.lt_irrefl next)
  obtain ⟨registered, owned, -, -⟩ := h
  refine ⟨?_, fun {key token} hkey => ?_, htokens.known, htokens.distinct⟩
  · grind [Function.update_apply]
  · obtain ⟨j, hj⟩ := owned hkey
    exact ⟨j, by grind [Function.update_apply]⟩

theorem Sound.enter [DecidableEq κ] (h : Sound stage owner next) {i : ι} {key : κ}
    {token : Nat} (hi : stage i = some (.fresh token)) (hfree : owner key = none) :
    Sound (Function.update stage i (some (.holding key token)))
      (Function.update owner key (some token)) next := by
  have htokens : Tokens (Function.update stage i (some (.holding key token))) next := by
    refine h.tokens.update (Nat.le_refl next) ?_ ?_
    · rintro token ⟨⟩
      exact h.known hi rfl
    · rintro j s token ⟨⟩ hj htoken
      exact h.distinct hj htoken hi rfl
  obtain ⟨registered, owned, -, -⟩ := h
  refine ⟨?_, fun {other t} hother => ?_, htokens.known, htokens.distinct⟩
  · -- no other process holds `key`: it would be registered
    grind [Function.update_apply]
  · by_cases heq : other = key
    · exact ⟨i, by grind [Function.update_apply]⟩
    · obtain ⟨j, hj⟩ := owned (by rwa [Function.update_of_ne heq] at hother)
      exact ⟨j, by grind [Function.update_apply]⟩

/-- The entry goes to a process that joins with it. -/
theorem Sound.handOver (h : Sound stage owner next) {i j : ι} {key : κ} {token : Nat}
    (hi : stage i = some (.holding key token)) (hj : stage j = none) :
    Sound (Function.update (Function.update stage j (some (.holding key token)))
      i (some .idle)) owner next := by
  have hne : j ≠ i := by
    rintro rfl
    rw [hi] at hj
    cases hj
  have htokens : Tokens (Function.update (Function.update stage j (some (.holding key token)))
      i (some .idle)) next := by
    -- in the other order no token is ever used twice
    rw [Function.update_comm hne]
    refine (h.tokens.idle i).update (Nat.le_refl next) ?_ ?_
    · rintro token ⟨⟩
      exact h.known hi rfl
    · rintro k s token ⟨⟩ hk htoken
      by_cases hki : k = i
      · subst hki
        rw [Function.update_self, Option.some.injEq] at hk
        subst hk
        cases htoken
      · rw [Function.update_of_ne hki] at hk
        exact absurd (h.distinct hk htoken hi rfl) hki
  obtain ⟨registered, owned, -, -⟩ := h
  refine ⟨?_, fun {other t} hother => ?_, htokens.known, htokens.distinct⟩
  · grind [Function.update_apply]
  · obtain ⟨k, hk⟩ := owned hother
    by_cases heq : k = i
    · exact ⟨j, by grind [Function.update_apply]⟩
    · exact ⟨k, by grind [Function.update_apply]⟩

theorem Sound.leave [DecidableEq κ] (h : Sound stage owner next) {i : ι} {key : κ}
    {token : Nat} (hi : stage i = some (.holding key token)) :
    Sound (Function.update stage i (some .idle))
      (Function.update owner key none) next := by
  have htokens := h.tokens.idle i
  obtain ⟨registered, owned, -, distinct⟩ := h
  refine ⟨?_, fun {other t} hother => ?_, htokens.known, htokens.distinct⟩
  · -- another holder of `key` would have the same token
    grind [Function.update_apply, Stage.token?]
  · have hne : other ≠ key := by
      rintro rfl
      simp at hother
    obtain ⟨k, hk⟩ := owned (by rwa [Function.update_of_ne hne] at hother)
    exact ⟨k, by grind [Function.update_apply]⟩

end VasalAgent.Async.Ownership
