import VasalAgent.Async.Ownership

/-!
# Registries without fresh keys

The moves of processes that register tokens, when nothing keeps a key from being entered
while it is in use.  Tokens still have one owner, but an entry can be overwritten, or taken
out by somebody else.  The token of such an entry never comes back (`Moves.displaced`).
-/

namespace VasalAgent.Async.Ownership

variable {ι κ : Type}

/-- The processes, the map, the next token, and the tokens that were cancelled. -/
structure Ledger (ι κ : Type) where
  stage : ι → Option (Stage κ)
  owner : κ → Option Nat
  next : Nat
  cancelled : List Nat

/-- The token was entered once, and stands under no key any more. -/
structure Displaced (ledger : Ledger ι κ) (token : Nat) : Prop where
  drawn : token < ledger.next
  entered : ∀ i, ledger.stage i ≠ some (.fresh token)
  gone : ∀ key, ledger.owner key ≠ some token

/-- A token stands under no key but the one that its process holds. -/
structure Orderly (ledger : Ledger ι κ) : Prop where
  tokens : Tokens ledger.stage ledger.next
  known : ∀ {key token}, ledger.owner key = some token → token < ledger.next
  unentered : ∀ {i key token}, ledger.stage i = some (.fresh token) →
    ledger.owner key ≠ some token
  keyed : ∀ {i held key token}, ledger.stage i = some (.holding held token) →
    ledger.owner key = some token → key = held

theorem Orderly.empty (cancelled : List Nat) :
    Orderly (⟨fun _ => none, fun _ => none, 0, cancelled⟩ : Ledger ι κ) where
  tokens := Sound.empty.tokens
  known h := by cases h
  unentered h := by cases h
  keyed h := by cases h

/-- An entry that is not one's own: it was overwritten, or somebody took it out. -/
theorem Orderly.displaced {ledger : Ledger ι κ} (h : Orderly ledger) {i : ι} {key : κ}
    {token : Nat} (hi : ledger.stage i = some (.holding key token))
    (howner : ledger.owner key ≠ some token) : Displaced ledger token where
  drawn := h.tokens.known hi rfl
  entered j hj := by
    cases h.tokens.distinct hj rfl hi rfl
    rw [hi] at hj
    cases hj
  gone other hother := howner (h.keyed hi hother ▸ hother)

variable [DecidableEq ι] [DecidableEq κ]

inductive Moves (ledger : Ledger ι κ) : Ledger ι κ → Prop
  | same : Moves ledger ledger
  | join {i : ι} (hi : ledger.stage i = none) :
      Moves ledger { ledger with stage := Function.update ledger.stage i (some .idle) }
  | draw {i : ι} (hi : ledger.stage i = some .idle) :
      Moves ledger
        { ledger with
          stage := Function.update ledger.stage i (some (.fresh ledger.next))
          next := ledger.next + 1 }
  | enter {i : ι} {key : κ} {token : Nat} (hi : ledger.stage i = some (.fresh token)) :
      Moves ledger
        { ledger with
          stage := Function.update ledger.stage i (some (.holding key token))
          owner := Function.update ledger.owner key (some token) }
  | handOver {i j : ι} {key : κ} {token : Nat}
      (hi : ledger.stage i = some (.holding key token)) (hj : ledger.stage j = none) :
      Moves ledger
        { ledger with
          stage := Function.update (Function.update ledger.stage j (some (.holding key token)))
            i (some .idle) }
  | leave {i : ι} {key : κ} {token : Nat} (hi : ledger.stage i = some (.holding key token)) :
      Moves ledger
        { ledger with
          stage := Function.update ledger.stage i (some .idle)
          owner := Function.update ledger.owner key none }
  | cancel {key : κ} {token : Nat} (howner : ledger.owner key = some token) :
      Moves ledger { ledger with cancelled := token :: ledger.cancelled }

variable {ledger after : Ledger ι κ}

theorem Moves.tokens (h : Moves ledger after) (htokens : Tokens ledger.stage ledger.next) :
    Tokens after.stage after.next := by
  cases h with
  | same | cancel => exact htokens
  | join | leave => exact htokens.idle _
  | draw hi =>
      refine htokens.update (Nat.le_succ _) ?_ ?_
      · rintro token ⟨⟩
        exact Nat.lt_succ_self _
      · rintro j s token ⟨⟩ hj htoken
        exact absurd (htokens.known hj htoken) (Nat.lt_irrefl _)
  | enter hi =>
      refine htokens.update (Nat.le_refl _) ?_ ?_
      · rintro token ⟨⟩
        exact htokens.known hi rfl
      · rintro j s token ⟨⟩ hj htoken
        exact htokens.distinct hj htoken hi rfl
  | @handOver i j key token hi hj =>
      have hne : j ≠ i := by
        rintro rfl
        rw [hi] at hj
        cases hj
      dsimp only
      -- in the other order no token is ever used twice
      rw [Function.update_comm hne]
      refine (htokens.idle i).update (Nat.le_refl _) ?_ ?_
      · rintro token ⟨⟩
        exact htokens.known hi rfl
      · rintro k s token ⟨⟩ hk htoken
        by_cases hki : k = i
        · subst hki
          rw [Function.update_self, Option.some.injEq] at hk
          subst hk
          cases htoken
        · rw [Function.update_of_ne hki] at hk
          exact absurd (htokens.distinct hk htoken hi rfl) hki

theorem Moves.orderly (h : Moves ledger after) (horderly : Orderly ledger) : Orderly after := by
  have htokens := h.tokens horderly.tokens
  obtain ⟨hold, known, unentered, keyed⟩ := horderly
  cases h with
  | same => exact ⟨htokens, known, unentered, keyed⟩
  | cancel => exact ⟨htokens, known, unentered, keyed⟩
  | join hi =>
      refine ⟨htokens, known, ?_, ?_⟩ <;> grind [Function.update_apply]
  | draw hi =>
      refine ⟨htokens, fun howner => Nat.lt_succ_of_lt (known howner), ?_, ?_⟩
      · -- the token that is drawn is not below itself
        grind [Function.update_apply]
      · grind [Function.update_apply]
  | @enter i key token hi =>
      have hbelow := hold.known hi rfl
      -- no other process has the token, and it stands under no other key
      have hown {j : ι} {s : Stage κ} (hj : ledger.stage j = some s)
          (htoken : s.token? = some token) : j = i := hold.distinct hj htoken hi rfl
      refine ⟨htokens, ?_, ?_, ?_⟩
      · grind [Function.update_apply]
      · grind [Function.update_apply, Stage.token?]
      · grind [Function.update_apply, Stage.token?]
  | @handOver i j key token hi hj =>
      refine ⟨htokens, known, ?_, ?_⟩ <;> grind [Function.update_apply]
  | leave hi =>
      refine ⟨htokens, ?_, ?_, ?_⟩ <;> grind [Function.update_apply]

/-- A displaced token is never entered again, and nobody cancels it. -/
theorem Moves.displaced {token : Nat} (h : Moves ledger after) (hout : Displaced ledger token) :
    Displaced after token ∧ (token ∈ after.cancelled ↔ token ∈ ledger.cancelled) := by
  obtain ⟨hdrawn, hentered, hgone⟩ := hout
  cases h with
  | same => exact ⟨⟨hdrawn, hentered, hgone⟩, Iff.rfl⟩
  | join | handOver =>
      exact ⟨⟨hdrawn, by grind [Function.update_apply], hgone⟩, Iff.rfl⟩
  | draw hi =>
      refine ⟨⟨Nat.lt_succ_of_lt hdrawn, ?_, hgone⟩, Iff.rfl⟩
      grind [Function.update_apply]
  | enter hi =>
      refine ⟨⟨hdrawn, ?_, ?_⟩, Iff.rfl⟩ <;> grind [Function.update_apply]
  | leave hi =>
      refine ⟨⟨hdrawn, ?_, ?_⟩, Iff.rfl⟩ <;> grind [Function.update_apply]
  | @cancel key other howner =>
      have hne : token ≠ other := by
        rintro rfl
        exact hgone key howner
      exact ⟨⟨hdrawn, hentered, hgone⟩, by simp [hne]⟩

end VasalAgent.Async.Ownership
