import VasalAgent.Auth.TokenStore

/-!
# Expiry of tokens

A token is received at `received` and asked for at `now`.  As long as neither addition of
seconds leaves the range of `u64`, the store hands it out until thirty seconds before it
expires, and otherwise something goes wrong (`token_expiry`).
-/

namespace VasalAgent.Auth

open VasalAgent.Async

/-- `response` came at `received`, and `tokens` are what the store has since. -/
inductive Installed (profile : Profile) (response : TokenResponse) (received : UInt64) :
    PersistedTokens → Prop
  | fromResponse {tokens : PersistedTokens}
      (h : fromResponse profile response received = .ok tokens) :
      Installed profile response received tokens
  | refresh {url : String} {events : List (Event AuthSig)} {tokens : PersistedTokens}
      (hsteps : Prog.Steps (refresh profile url) events (.ret (.ok (.ok ()))))
      (hresponse : (⟨.json, .ok response⟩ : Event AuthSig) ∈ events)
      (hclock : ∀ now, (⟨.nowSecs, now⟩ : Event AuthSig) ∈ events → now = received)
      (htokens : (⟨.install tokens, ()⟩ : Event AuthSig) ∈ events) :
      Installed profile response received tokens

/-- The token is still good for more than thirty seconds, in unbounded arithmetic. -/
def Usable (response : TokenResponse) (received now : UInt64) : Prop :=
  ∀ secs ∈ response.expiresIn, now.toNat + 30 < received.toNat + secs.toNat

instance (response : TokenResponse) (received now : UInt64) :
    Decidable (Usable response received now) :=
  match h : response.expiresIn with
  | none => .isTrue (by simp [Usable, h])
  | some secs => decidable_of_iff (now.toNat + 30 < received.toNat + secs.toNat)
      (by simp [Usable, h])

/-- Both sums fit in a `u64`. -/
def Fits (response : TokenResponse) (received now : UInt64) : Prop :=
  ∀ secs ∈ response.expiresIn,
    received.toNat + secs.toNat < 2 ^ 64 ∧ now.toNat + 30 < 2 ^ 64

/-- Expiry as it is meant. -/
structure ExpiresRightly (profile : Profile) (response : TokenResponse) (received now : UInt64) :
    Prop where
  handedOut : ∀ tokens, Installed profile response received tokens →
    accessToken profile (some tokens) now =
      .ok (if Usable response received now then some response.accessToken else none)
  /-- Neither way of installing a response panics. -/
  received_ok : ∃ tokens, fromResponse profile response received = .ok tokens
  refreshed_ok : ∀ url events panic,
    Prog.Steps (refresh profile url) events (.ret (.error panic)) →
    (⟨.json, .ok response⟩ : Event AuthSig) ∈ events →
    ¬ ∀ now, (⟨.nowSecs, now⟩ : Event AuthSig) ∈ events → now = received
  /-- No addition wraps: the time that is stored, and the one it is compared with. -/
  stored_exact : ∀ tokens, Installed profile response received tokens →
    tokens.expiresAt.map UInt64.toNat =
      response.expiresIn.map fun secs => received.toNat + secs.toNat
  compared_exact : response.expiresIn.isSome →
    ∃ soon, addU64 profile now margin = .ok soon ∧ soon.toNat = now.toNat + 30

/-! ## What is installed -/

section Installed

variable {profile : Profile} {response : TokenResponse} {received : UInt64}

/-- The response of an exchange, and the time at which it was dated. -/
theorem expiresAt_exchange (profile : Profile) {url token : String} {status : Transport.HttpStatus}
    {body : TokenResponse} {now : UInt64} {more : List (Event AuthSig)}
    (hmore : ∀ event ∈ more, ¬ event.1.asks)
    (hresponse : (⟨.json, .ok response⟩ : Event AuthSig) ∈
      exchange url token status body ++ clock body now ++ more)
    (hclock : ∀ now', (⟨.nowSecs, now'⟩ : Event AuthSig) ∈
      exchange url token status body ++ clock body now ++ more → now' = received) :
    body = response ∧
      expiresAt profile now body.expiresIn = expiresAt profile received response.expiresIn := by
  have hbody : body = response := by
    rcases List.mem_append.mp hresponse with hearlier | hlater
    · exact (eq_of_json_mem hearlier).symm
    · exact absurd trivial (hmore _ hlater)
  subst hbody
  refine ⟨rfl, ?_⟩
  cases hexpires : body.expiresIn with
  | none => rfl
  | some secs => rw [hclock now (by simp [clock, hexpires])]

theorem expiresAt_of_installed {tokens : PersistedTokens}
    (h : Installed profile response received tokens) :
    tokens.accessToken = response.accessToken ∧
      expiresAt profile received response.expiresIn = .ok tokens.expiresAt := by
  cases h with
  | fromResponse h =>
      cases hexpiry : expiresAt profile received response.expiresIn with
      | error panic =>
          rw [fromResponse, hexpiry] at h
          cases h
      | ok expiry =>
          rw [fromResponse, hexpiry] at h
          cases h
          exact ⟨rfl, rfl⟩
  | refresh hsteps hresponse hclock htokens =>
      obtain ⟨token, status, body, now, expiry, hexpiry, rfl⟩ := done_of_steps hsteps
      obtain ⟨rfl, hsame⟩ := expiresAt_exchange profile (by simp [AuthOp.asks]) hresponse hclock
      obtain rfl : tokens = body.installed token expiry := by
        rcases List.mem_append.mp htokens with hearlier | hlast
        · exact absurd hearlier install_not_mem_exchange
        · simpa using hlast
      exact ⟨rfl, hsame.symm.trans hexpiry⟩

theorem accessToken_of_expiresAt {tokens : PersistedTokens} {now : UInt64}
    (h : Fits response received now)
    (htokens : expiresAt profile received response.expiresIn = .ok tokens.expiresAt) :
    accessToken profile (some tokens) now =
      .ok (if Usable response received now then some tokens.accessToken else none) := by
  obtain ⟨access, refreshToken, at'⟩ := tokens
  cases hexpires : response.expiresIn with
  | none =>
      rw [hexpires] at htokens
      cases htokens
      rw [if_pos (by simp [Usable, hexpires])]
      rfl
  | some secs =>
      obtain ⟨hexpiry, hsoon⟩ := h secs hexpires
      obtain ⟨expiry, haddExpiry, hexpiryNat⟩ := addU64_of_fits profile hexpiry
      obtain ⟨soon, haddSoon, hsoonNat⟩ := addU64_of_fits profile (b := margin) hsoon
      rw [hexpires, expiresAt, haddExpiry] at htokens
      cases htokens
      have husable : Usable response received now ↔ ¬ expiry ≤ soon := by
        simp only [Usable, hexpires, Option.mem_some_iff, forall_eq', UInt64.le_iff_toNat_le,
          hexpiryNat, hsoonNat, Nat.not_le]
        rfl
      rw [accessToken, haddSoon]
      by_cases hlate : expiry ≤ soon
      · rw [if_neg fun hgood => husable.mp hgood hlate]
        exact if_pos hlate
      · rw [if_pos (husable.mpr hlate)]
        exact if_neg hlate

theorem expiresAt_ok (profile : Profile) {now : UInt64} (h : Fits response received now) :
    ∃ expiry, expiresAt profile received response.expiresIn = .ok expiry := by
  cases hexpires : response.expiresIn with
  | none => exact ⟨none, rfl⟩
  | some secs =>
      obtain ⟨expiry, hadd, -⟩ := addU64_of_fits profile (h secs hexpires).1
      exact ⟨some expiry, by rw [expiresAt, hadd]; rfl⟩

theorem expiresAt_exact {now : UInt64} {expiry : Option UInt64} (h : Fits response received now)
    (hexpiry : expiresAt profile received response.expiresIn = .ok expiry) :
    expiry.map UInt64.toNat = response.expiresIn.map fun secs => received.toNat + secs.toNat := by
  cases hexpires : response.expiresIn with
  | none =>
      rw [hexpires] at hexpiry
      cases hexpiry
      rfl
  | some secs =>
      obtain ⟨sum, hadd, hsum⟩ := addU64_of_fits profile (h secs hexpires).1
      rw [hexpires, expiresAt, hadd] at hexpiry
      cases hexpiry
      exact congrArg some hsum

/-- Exact sums are below the bound of the type they are in. -/
theorem ExpiresRightly.fits {now : UInt64} (h : ExpiresRightly profile response received now) :
    Fits response received now := by
  intro secs hsecs
  obtain ⟨tokens, htokens⟩ := h.received_ok
  have hstored := h.stored_exact tokens (.fromResponse htokens)
  rw [Option.mem_def.mp hsecs, Option.map_some, Option.map_eq_some_iff] at hstored
  obtain ⟨expiry, -, hexpiry⟩ := hstored
  obtain ⟨soon, -, hsoon⟩ := h.compared_exact (Option.isSome_of_mem hsecs)
  exact ⟨hexpiry ▸ expiry.toNat_lt, hsoon ▸ soon.toNat_lt⟩

end Installed

/-- Expiry is right exactly if neither of the two additions leaves the range of `u64`. -/
theorem token_expiry (profile : Profile) (response : TokenResponse) (received now : UInt64) :
    ExpiresRightly profile response received now ↔ Fits response received now := by
  refine ⟨ExpiresRightly.fits, fun h => ?_⟩
  obtain ⟨expiry, hexpiry⟩ := expiresAt_ok profile h
  refine ⟨fun tokens htokens => ?_, ?_, fun url events panic hsteps hresponse hclock => ?_,
    fun tokens htokens => ?_, fun hsome => ?_⟩
  · obtain ⟨haccess, hat⟩ := expiresAt_of_installed htokens
    rw [accessToken_of_expiresAt h hat, haccess]
  · refine ⟨⟨response.accessToken, response.refreshToken, expiry⟩, ?_⟩
    rw [fromResponse, hexpiry]
    rfl
  · obtain ⟨token, status, body, dated, hpanic, rfl⟩ := panicked_of_steps hsteps
    rw [← List.append_nil (_ ++ _)] at hresponse hclock
    obtain ⟨-, hsame⟩ := expiresAt_exchange profile (by simp) hresponse hclock
    rw [hpanic, hexpiry] at hsame
    cases hsame
  · exact expiresAt_exact h (expiresAt_of_installed htokens).2
  · obtain ⟨secs, hsecs⟩ := Option.isSome_iff_exists.mp hsome
    exact addU64_of_fits profile (h secs hsecs).2

def sampleResponse : TokenResponse := ⟨"abc123", some "refresh456", some 3600⟩

example : Fits sampleResponse 1700000000 1700000100 := by
  rintro _ ⟨⟩
  decide

/-- A provider that never wants a token to expire. -/
def foreverResponse : TokenResponse := ⟨"abc123", none, some 18446744073709551615⟩

/-- The sum wraps and the token is never handed out, or the agent panics. -/
theorem forever_token_expired :
    Usable foreverResponse 1700000000 1700000000 ∧
      ¬ ExpiresRightly .release foreverResponse 1700000000 1700000000 ∧
      ¬ ExpiresRightly .dev foreverResponse 1700000000 1700000000 := by
  refine ⟨by decide, ?_, ?_⟩
  · intro h
    have hinstalled : fromResponse .release foreverResponse 1700000000 =
        .ok ⟨"abc123", none, some 1699999999⟩ := by decide
    exact absurd (h.handedOut _ (.fromResponse hinstalled)) (by decide)
  · intro h
    obtain ⟨tokens, htokens⟩ := h.received_ok
    cases htokens

end VasalAgent.Auth
