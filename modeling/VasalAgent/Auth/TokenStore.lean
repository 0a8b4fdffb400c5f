import Mathlib.Algebra.Group.Nat.Defs
import VasalAgent.Async.Prog
import VasalAgent.Task.Effects
import VasalAgent.Transport.Poll

/-!
# Tokens

`auth::TokenStore`: the tokens behind the lock, when the access token counts as expired, and
the exchange of a refresh token.  Seconds are `u64`; a sum that does not fit panics in a
build with overflow checks and wraps in one without.
-/

namespace VasalAgent.Auth

open VasalAgent.Async
open VasalAgent.Protocol
open VasalAgent.Task (Error)
open VasalAgent.Transport (HttpStatus)

structure TokenResponse where
  accessToken : String
  refreshToken : Option String
  expiresIn : Option UInt64
  deriving DecidableEq, Repr

structure PersistedTokens where
  accessToken : String
  refreshToken : Option String
  expiresAt : Option UInt64
  deriving DecidableEq, Repr

/-! ## Addition of `u64` -/

inductive Profile where
  | dev
  | release
  deriving DecidableEq, Repr

inductive Panic where
  | addOverflow
  deriving DecidableEq, Repr

def addU64 (profile : Profile) (a b : UInt64) : Except Panic UInt64 :=
  if a.toNat + b.toNat < 2 ^ 64 then .ok (a + b)
  else
    match profile with
    | .dev => .error .addOverflow
    | .release => .ok (a + b)

theorem addU64_of_fits (profile : Profile) {a b : UInt64} (h : a.toNat + b.toNat < 2 ^ 64) :
    ∃ sum, addU64 profile a b = .ok sum ∧ sum.toNat = a.toNat + b.toNat := by
  refine ⟨a + b, if_pos h, ?_⟩
  rw [UInt64.toNat_add, Nat.mod_eq_of_lt h]

/-! ## The store -/

/-- When a token expires that is received at `now`. -/
def expiresAt (profile : Profile) (now : UInt64) :
    Option UInt64 → Except Panic (Option UInt64)
  | none => .ok none
  | some secs => (addU64 profile now secs).map some

def fromResponse (profile : Profile) (response : TokenResponse) (now : UInt64) :
    Except Panic PersistedTokens := do
  let expiresAt ← expiresAt profile now response.expiresIn
  pure ⟨response.accessToken, response.refreshToken, expiresAt⟩

/-- Seconds before its expiry from which on a token is not used. -/
def margin : UInt64 := 30

def accessToken (profile : Profile) (inner : Option PersistedTokens) (now : UInt64) :
    Except Panic (Option String) :=
  match inner with
  | none => .ok none
  | some tokens =>
      match tokens.expiresAt with
      | none => .ok (some tokens.accessToken)
      | some expiresAt => do
          let soon ← addU64 profile now margin
          if expiresAt ≤ soon then pure none else pure (some tokens.accessToken)

/-! ## Refresh -/

/-- The two critical sections of `refresh`, and the calls between them. -/
inductive AuthOp where
  | readRefreshToken
  | post (url : String) (body : Json)
  | json
  | nowSecs
  | install (tokens : PersistedTokens)

abbrev AuthOp.Ans : AuthOp → Type
  | .readRefreshToken => Option String
  | .post .. => Except String HttpStatus
  | .json => Except String TokenResponse
  | .nowSecs => UInt64
  | .install _ => Unit

abbrev AuthSig : Signature := ⟨AuthOp, AuthOp.Ans⟩

def call (op : AuthOp) : Prog AuthSig op.Ans := Prog.perform (S := AuthSig) op

def refreshBody (refreshToken : String) : Json :=
  Json.ofFields [("grant_type", .str "refresh_token"), ("refresh_token", .str refreshToken)]

/-- The clock is read only when there is an `expires_in`. -/
def readExpiry (profile : Profile) (expiresIn : Option UInt64) :
    Prog AuthSig (Except Panic (Option UInt64)) :=
  match expiresIn with
  | none => pure (.ok none)
  | some secs => do
      let now ← call .nowSecs
      pure (expiresAt profile now (some secs))

/-- What `refresh` installs; without a new refresh token the one it read stays. -/
def TokenResponse.installed (body : TokenResponse) (token : String) (expiresAt : Option UInt64) :
    PersistedTokens :=
  ⟨body.accessToken, body.refreshToken.or (some token), expiresAt⟩

/-- A panic unwinds before the lock is taken for writing. -/
def finish (body : TokenResponse) (token : String) :
    Except Panic (Option UInt64) → Prog AuthSig (Except Panic (Except Error Unit))
  | .error panic => pure (.error panic)
  | .ok expiresAt => do
      call (.install (body.installed token expiresAt))
      pure (.ok (.ok ()))

/-- `refresh`, from the status of the response on. -/
def redeem (profile : Profile) (token : String) (status : HttpStatus) :
    Prog AuthSig (Except Panic (Except Error Unit)) :=
  if status.isSuccess then do
    match ← call .json with
    | .error e => pure (.ok (.error (.http e)))
    | .ok body => do
        let expiresAt ← readExpiry profile body.expiresIn
        finish body token expiresAt
  else pure (.ok (.error (.auth ("token refresh returned HTTP " ++ status.text))))

def refresh (profile : Profile) (authProviderUrl : String) :
    Prog AuthSig (Except Panic (Except Error Unit)) := do
  match ← call .readRefreshToken with
  | none => pure (.ok (.error (.auth "no refresh token available")))
  | some token => do
      match ← call (.post authProviderUrl (refreshBody token)) with
      | .error e => pure (.ok (.error (.http e)))
      | .ok status => redeem profile token status

/-! ## Runs of a refresh -/

/-- A call before the response is dated. -/
def AuthOp.asks : AuthOp → Prop
  | .readRefreshToken | .post .. | .json => True
  | _ => False

/-- The exchange that brought `body`. -/
def exchange (url token : String) (status : HttpStatus) (body : TokenResponse) :
    List (Event AuthSig) :=
  [⟨.readRefreshToken, some token⟩, ⟨.post url (refreshBody token), .ok status⟩,
    ⟨.json, .ok body⟩]

/-- The reading of the clock, if there is one. -/
def clock (body : TokenResponse) (now : UInt64) : List (Event AuthSig) :=
  if body.expiresIn.isSome then [⟨.nowSecs, now⟩] else []

/-- How far a refresh can have come. -/
inductive RefreshRun (profile : Profile) (url : String) :
    List (Event AuthSig) → Prog AuthSig (Except Panic (Except Error Unit)) → Prop
  | asking {events : List (Event AuthSig)} {rest : Prog AuthSig (Except Panic (Except Error Unit))}
      (hasks : ∀ event ∈ events, event.1.asks)
      (hfailed : ∀ value, rest = .ret value → ∃ e, value = .ok (.error e)) :
      RefreshRun profile url events rest
  | panicked (token : String) (status : HttpStatus) {body : TokenResponse} {now : UInt64}
      {panic : Panic} (hexpiry : expiresAt profile now body.expiresIn = .error panic) :
      RefreshRun profile url (exchange url token status body ++ clock body now)
        (.ret (.error panic))
  | ready (token : String) (status : HttpStatus) {body : TokenResponse} {now : UInt64}
      {expiry : Option UInt64} (hexpiry : expiresAt profile now body.expiresIn = .ok expiry) :
      RefreshRun profile url (exchange url token status body ++ clock body now)
        (.call (S := AuthSig) (.install (body.installed token expiry)) fun _ =>
          .ret (.ok (.ok ())))
  | done (token : String) (status : HttpStatus) {body : TokenResponse} {now : UInt64}
      {expiry : Option UInt64} (hexpiry : expiresAt profile now body.expiresIn = .ok expiry) :
      RefreshRun profile url (exchange url token status body ++ clock body now ++
        [⟨.install (body.installed token expiry), ()⟩]) (.ret (.ok (.ok ())))

section Runs

variable {profile : Profile} {url : String} {events : List (Event AuthSig)}
  {rest : Prog AuthSig (Except Panic (Except Error Unit))}

theorem refreshRun_finish (url token : String) (status : HttpStatus) {body : TokenResponse}
    {now : UInt64}
    (h : Prog.Steps (finish body token (expiresAt profile now body.expiresIn)) events rest) :
    RefreshRun profile url (exchange url token status body ++ clock body now ++ events) rest := by
  cases hexpiry : expiresAt profile now body.expiresIn with
  | error panic =>
      rw [hexpiry] at h
      cases h
      rw [List.append_nil]
      exact .panicked token status hexpiry
  | ok expiry =>
      rw [hexpiry] at h
      rcases h with _ | ⟨⟨⟩⟩
      · rw [List.append_nil]
        exact .ready token status hexpiry
      · exact .done token status hexpiry

theorem refreshRun_readExpiry (token : String) (status : HttpStatus) {body : TokenResponse}
    (h : Prog.Steps (readExpiry profile body.expiresIn >>= finish body token) events rest) :
    RefreshRun profile url (exchange url token status body ++ events) rest := by
  cases hexpires : body.expiresIn with
  | none =>
      rw [hexpires] at h
      have hfinish : Prog.Steps (finish body token (expiresAt profile 0 body.expiresIn)) events
          rest := by rwa [hexpires]
      have hrun := refreshRun_finish url token status hfinish
      rwa [clock, hexpires, Option.isSome_none, if_neg (by decide), List.append_nil] at hrun
  | some secs =>
      rw [hexpires] at h
      rcases h with _ | @⟨_, _, now, more, _, h⟩
      · exact .asking (by simp [exchange, AuthOp.asks]) (by rintro _ ⟨⟩)
      · have hfinish : Prog.Steps (finish body token (expiresAt profile now body.expiresIn)) more
            rest := by rwa [hexpires]
        have hrun := refreshRun_finish url token status hfinish
        rwa [clock, hexpires, Option.isSome_some, if_pos rfl, List.append_assoc] at hrun

theorem refreshRun_redeem {token : String} {status : HttpStatus}
    (h : Prog.Steps (redeem profile token status) events rest) :
    RefreshRun profile url (⟨.readRefreshToken, some token⟩ ::
      ⟨.post url (refreshBody token), .ok status⟩ :: events) rest := by
  unfold redeem at h
  split at h
  · rcases h with _ | @⟨_, _, body, _, _, h⟩
    · exact .asking (by simp [AuthOp.asks]) (by rintro _ ⟨⟩)
    cases body with
    | error e =>
        cases h
        exact .asking (by simp [AuthOp.asks]) (by rintro _ ⟨⟩; exact ⟨_, rfl⟩)
    | ok body => exact refreshRun_readExpiry token status h
  · cases h
    exact .asking (by simp [AuthOp.asks]) (by rintro _ ⟨⟩; exact ⟨_, rfl⟩)

/-- A run that has not come to the response has only asked. -/
theorem refreshRun_of_steps (h : Prog.Steps (refresh profile url) events rest) :
    RefreshRun profile url events rest := by
  rcases h with _ | @⟨_, _, token, _, _, h⟩
  · exact .asking (by simp) (by rintro _ ⟨⟩)
  cases token with
  | none =>
      cases h
      exact .asking (by simp [AuthOp.asks]) (by rintro _ ⟨⟩; exact ⟨_, rfl⟩)
  | some token =>
  rcases h with _ | @⟨_, _, posted, _, _, h⟩
  · exact .asking (by simp [AuthOp.asks]) (by rintro _ ⟨⟩)
  cases posted with
  | error e =>
      cases h
      exact .asking (by simp [AuthOp.asks]) (by rintro _ ⟨⟩; exact ⟨_, rfl⟩)
  | ok status => exact refreshRun_redeem h

theorem install_not_mem_exchange {token : String} {status : HttpStatus} {body : TokenResponse}
    {now : UInt64} {tokens : PersistedTokens} :
    (⟨.install tokens, ()⟩ : Event AuthSig) ∉ exchange url token status body ++ clock body now := by
  have hclock : (⟨.install tokens, ()⟩ : Event AuthSig) ∉ clock body now := by
    unfold clock
    split <;> simp
  simp [exchange, hclock]

theorem eq_of_json_mem {token : String} {status : HttpStatus} {body other : TokenResponse}
    {now : UInt64} (h : (⟨.json, .ok other⟩ : Event AuthSig) ∈
      exchange url token status body ++ clock body now) : other = body := by
  have hclock : (⟨.json, .ok other⟩ : Event AuthSig) ∉ clock body now := by
    unfold clock
    split <;> simp
  simpa [exchange, hclock] using h

/-- The call with which a refresh writes is its last, and it succeeds. -/
theorem installed_of_steps {tokens : PersistedTokens}
    (h : Prog.Steps (refresh profile url) (events ++ [⟨.install tokens, ()⟩]) rest) :
    rest = .ret (.ok (.ok ())) ∧
      ∃ token status body now expiry, expiresAt profile now body.expiresIn = .ok expiry ∧
        tokens = body.installed token expiry ∧
        events = exchange url token status body ++ clock body now := by
  generalize hall : events ++ [⟨.install tokens, ()⟩] = all at h
  have hmem : (⟨.install tokens, ()⟩ : Event AuthSig) ∈ all := by simp [← hall]
  cases refreshRun_of_steps h with
  | asking hasks hfailed => exact (hasks _ hmem).elim
  | panicked token status hexpiry => exact absurd hmem install_not_mem_exchange
  | ready token status hexpiry => exact absurd hmem install_not_mem_exchange
  | done token status hexpiry =>
      obtain ⟨rfl, hlast⟩ := List.append_inj' hall rfl
      cases hlast
      exact ⟨rfl, token, status, _, _, _, hexpiry, rfl, rfl⟩

theorem done_of_steps (h : Prog.Steps (refresh profile url) events (.ret (.ok (.ok ())))) :
    ∃ token status body now expiry, expiresAt profile now body.expiresIn = .ok expiry ∧
      events = exchange url token status body ++ clock body now ++
        [⟨.install (body.installed token expiry), ()⟩] := by
  cases refreshRun_of_steps h with
  | asking hasks hfailed =>
      obtain ⟨e, he⟩ := hfailed _ rfl
      cases he
  | done token status hexpiry => exact ⟨token, status, _, _, _, hexpiry, rfl⟩

theorem panicked_of_steps {panic : Panic}
    (h : Prog.Steps (refresh profile url) events (.ret (.error panic))) :
    ∃ token status body now, expiresAt profile now body.expiresIn = .error panic ∧
      events = exchange url token status body ++ clock body now := by
  cases refreshRun_of_steps h with
  | asking hasks hfailed =>
      obtain ⟨e, he⟩ := hfailed _ rfl
      cases he
  | panicked token status hexpiry => exact ⟨token, status, _, _, hexpiry, rfl⟩

end Runs

end VasalAgent.Auth
