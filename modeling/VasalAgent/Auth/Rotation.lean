import VasalAgent.Async.Pool
import VasalAgent.Auth.TokenStore

/-!
# Concurrent refreshes

Any number of refreshes on clones of one `TokenStore`.  The store is locked for the reading
of the refresh token and again for the writing of the response, not in between, so that a
refresh can put back a token that another one has replaced.  It does not when no other
token was installed since it read its own (`Undisturbed`).
-/

namespace VasalAgent.Auth

open VasalAgent.Async

abbrev Inner := Option PersistedTokens

/-- The refresh token that the store has. -/
def stored (inner : Inner) : Option String := inner.bind PersistedTokens.refreshToken

/-- What a call finds in the store; the provider and the clock answer as they please. -/
def answer (inner : Inner) : (op : AuthOp) → op.Ans → op.Ans
  | .readRefreshToken, _ => stored inner
  | _, ans => ans

def applyOp (inner : Inner) : AuthOp → Inner
  | .install tokens => some tokens
  | _ => inner

/-- A job is a call of `refresh` with its URL. -/
abbrev clones (profile : Profile) : System AuthSig where
  Job := String
  Shared := Inner
  Env := Empty
  program url := do
    let _ ← refresh profile url
    pure ()
  perform inner op proposal := some (answer inner op proposal, applyOp inner op)
  spawned _ := none
  external _ := true
  environment _ event := nomatch event

variable {profile : Profile}

/-- Since future `i` has read its refresh token, no other one was installed. -/
def Undisturbed (log : List (Nat × Event AuthSig)) (i : Nat) : Prop :=
  ∀ earlier later token,
    log = earlier ++ (i, ⟨.readRefreshToken, some token⟩) :: later →
    ∀ j tokens, (j, ⟨.install tokens, ()⟩) ∈ later → tokens.refreshToken = some token

/-- One step of the clones. -/
structure Rotates (pool next : Pool (clones profile)) : Prop where
  /-- Only a refresh that succeeds with this very step changes the store. -/
  changed : next.shared ≠ pool.shared → ∃ i url tokens,
    next.log = pool.log ++ [(i, ⟨.install tokens, ()⟩)] ∧ next.shared = some tokens ∧
      Prog.Steps (refresh profile url) (next.history i) (.ret (.ok (.ok ())))
  present : (stored pool.shared).isSome → (stored next.shared).isSome
  /-- A response without a refresh token leaves the one that is stored. -/
  kept : ∀ i tokens, next.log = pool.log ++ [(i, ⟨.install tokens, ()⟩)] →
    Undisturbed pool.log i →
    (∃ body : TokenResponse, body.refreshToken = none ∧
      (⟨.json, .ok body⟩ : Event AuthSig) ∈ pool.history i) →
    stored next.shared = stored pool.shared

/-! ## What was read -/

/-- A token that was read is still stored, unless another one was installed since. -/
def Current (pool : Pool (clones profile)) : Prop :=
  ∀ earlier i token later,
    pool.log = earlier ++ (i, ⟨.readRefreshToken, some token⟩) :: later →
    (∀ j tokens, (j, ⟨.install tokens, ()⟩) ∈ later → tokens.refreshToken = some token) →
    stored pool.shared = some token

theorem current_step {π : Policy (clones profile)} {pool next : Pool (clones profile)}
    (step : Step π pool next) (h : Current pool) : Current next := by
  cases step with
  | start hexternal allowed => exact h
  | @fire k job op cont proposal ans shared hfuture hperform allowed =>
      obtain ⟨hans, rfl⟩ := Prod.mk.inj (Option.some.inj hperform)
      intro earlier i token later hlog hinstalls
      -- the new entry is the reading itself, or stands after it
      rcases List.eq_nil_or_concat later with rfl | ⟨init, last, rfl⟩
      · obtain ⟨-, hlast⟩ := List.append_inj' hlog rfl
        cases hlast
        exact hans
      · rw [List.concat_eq_append, ← List.cons_append, ← List.append_assoc] at hlog
        obtain ⟨hold, hlast⟩ := List.append_inj' hlog rfl
        cases hlast
        have hstored : stored pool.shared = some token :=
          h earlier i token init hold fun j tokens hin =>
            hinstalls j tokens (by simp [hin])
        cases op with
        | install tokens => exact hinstalls k tokens (by simp)
        | _ => exact hstored
  | @env event _ _ _ => exact event.elim

/-! ## What is written -/

section Write

variable {pool : Pool (clones profile)} {i : Nat} {url : String} {tokens : PersistedTokens}
  {next : Unit → Prog AuthSig Unit}

/-- A refresh that is about to write succeeds with it. -/
theorem steps_install (hprojects : pool.Projects)
    (hfuture : pool.futures[i]? = some ⟨url, .call (.install tokens) next⟩) :
    ∃ rest, Prog.Steps (refresh profile url)
      (pool.history i ++ [⟨.install tokens, ()⟩]) rest := by
  rcases (hprojects.steps i _ hfuture).bind_inv with
    ⟨p, hp, hrest⟩ | ⟨first, second, value, -, -, hsecond⟩
  · cases p with
    | ret value => cases hrest
    | hang => cases hrest
    | call op cont =>
        rw [Prog.call_bind] at hrest
        cases hrest
        exact ⟨_, hp.snoc ()⟩
  · cases hsecond

/-- What a refresh writes keeps the token that it has read, or brings a new one. -/
theorem install_eq (hprojects : pool.Projects)
    (hfuture : pool.futures[i]? = some ⟨url, .call (.install tokens) next⟩) :
    ∃ (token : String) (body : TokenResponse),
      tokens.refreshToken = body.refreshToken.or (some token) ∧
      (i, ⟨.readRefreshToken, some token⟩) ∈ pool.log ∧
      ∀ other, (⟨.json, .ok other⟩ : Event AuthSig) ∈ pool.history i → other = body := by
  obtain ⟨rest, hsteps⟩ := steps_install hprojects hfuture
  obtain ⟨-, token, status, body, now, expiry, -, rfl, hhistory⟩ := installed_of_steps hsteps
  refine ⟨token, body, rfl, Pool.mem_history.mp ?_, fun other hother => ?_⟩
  · rw [hhistory]
    exact List.mem_cons_self
  · rw [hhistory] at hother
    exact eq_of_json_mem hother

end Write

/-- A step that writes nothing. -/
theorem rotates_of_shared_eq {pool next : Pool (clones profile)}
    (hshared : next.shared = pool.shared)
    (hlog : ∀ i tokens, next.log ≠ pool.log ++ [(i, ⟨.install tokens, ()⟩)]) :
    Rotates pool next where
  changed hne := absurd hshared hne
  present hsome := by rwa [hshared]
  kept i tokens heq := absurd heq (hlog i tokens)

theorem rotates_of_step {π : Policy (clones profile)} {pool next : Pool (clones profile)}
    (step : Step π pool next) (hprojects : pool.Projects) (hcurrent : Current pool) :
    Rotates pool next := by
  cases step with
  | start hexternal allowed =>
      refine rotates_of_shared_eq rfl fun i tokens heq => ?_
      simp [Pool.launch] at heq
  | @fire k url op cont proposal ans shared hfuture hperform allowed =>
      obtain ⟨-, rfl⟩ := Prod.mk.inj (Option.some.inj hperform)
      cases op with
      | install tokens =>
          obtain ⟨token, body, htoken, hread, hbody⟩ := install_eq hprojects hfuture
          refine ⟨fun _ => ⟨k, url, tokens, rfl, rfl, ?_⟩, fun _ => ?_, ?_⟩
          · obtain ⟨rest, hsteps⟩ := steps_install hprojects hfuture
            obtain ⟨rfl, -⟩ := installed_of_steps hsteps
            rwa [Pool.history_advance, if_pos rfl]
          · change tokens.refreshToken.isSome = true
            rw [htoken]
            cases body.refreshToken <;> rfl
          · rintro i tokens' hlog hundisturbed ⟨other, hnone, hother⟩
            obtain ⟨-, hlast⟩ := List.append_inj' hlog rfl
            cases hlast
            obtain rfl := hbody other hother
            rw [hnone, Option.none_or] at htoken
            obtain ⟨earlier, later, hsplit⟩ := List.append_of_mem hread
            have hstored := hcurrent earlier k token later hsplit
              (hundisturbed earlier later token hsplit)
            exact htoken.trans hstored.symm
      | _ =>
          refine rotates_of_shared_eq rfl fun i tokens heq => ?_
          obtain ⟨-, hlast⟩ := List.append_inj' heq rfl
          cases hlast
  | @env event _ _ _ => exact event.elim

/-- Every step of every run of the clones, from any store. -/
theorem refresh_rotates {inner : Inner} {pool next : Pool (clones profile)}
    (run : Run (Policy.free (clones profile)) (Pool.initial inner) pool)
    (step : Step (Policy.free (clones profile)) pool next) : Rotates pool next := by
  have hinitial : Current (Pool.initial inner : Pool (clones profile)) := by
    intro earlier i token later hlog
    simp [Pool.initial] at hlog
  obtain ⟨hprojects, hcurrent⟩ :=
    run.invariant_of_projects (Pool.initial_projects (Y := clones profile) inner) hinitial
      fun step _ => current_step step
  exact rotates_of_step step hprojects hcurrent

/-! ## Two refreshes -/

section Sample

def sampleInner : Inner := some ⟨"a0", some "r0", none⟩

/-- A provider that answers every request with `body`. -/
def provider (body : TokenResponse) : (op : AuthOp) → op.Ans
  | .readRefreshToken => none
  | .post .. => .ok ⟨200, "200 OK"⟩
  | .json => .ok body
  | .nowSecs => (0 : UInt64)
  | .install _ => ()

def plain : TokenResponse := ⟨"a1", none, none⟩

def rotating : TokenResponse := ⟨"a2", some "r1", none⟩

def firing (i : Nat) (body : TokenResponse) : Label (clones .release) := .fire i (provider body)

def sampleStart : Pool (clones .release) := Pool.initial sampleInner

/-- Answers with the refresh token that it was asked with. -/
def repeating : TokenResponse := ⟨"a2", some "r0", none⟩

/-- Both refreshes read, and the second one writes. -/
def overlapping (second : TokenResponse) : List (Label (clones .release)) :=
  .start "https://idp" :: .start "https://idp" :: firing 0 plain ::
    (List.replicate 4 (firing 1 second) ++ List.replicate 2 (firing 0 plain))

theorem step_free {pool next : Pool (clones .release)} (label : Label (clones .release))
    (h : pool.step label = some next) : Step (Policy.free (clones .release)) pool next :=
  Pool.step_of_allows h (Pool.follows_free pool [label]).1

theorem undisturbed_of_same {log : List (Nat × Event AuthSig)} {i : Nat} (token : String)
    (hread : ∀ other, (i, ⟨.readRefreshToken, some other⟩) ∈ log → other = token)
    (hinstall : ∀ j tokens, (j, ⟨.install tokens, ()⟩) ∈ log →
      tokens.refreshToken = some token) : Undisturbed log i := by
  rintro earlier later other rfl j tokens hin
  obtain rfl := hread other (by simp)
  exact hinstall j tokens (by simp [hin])

/-- The calls that a refresh of `"r0"` makes before it writes. -/
def asked (i : Nat) (body : TokenResponse) : List (Nat × Event AuthSig) :=
  [(i, ⟨.readRefreshToken, some "r0"⟩),
    (i, ⟨.post "https://idp" (refreshBody "r0"), .ok ⟨200, "200 OK"⟩⟩), (i, ⟨.json, .ok body⟩)]

theorem refresh_rotates_repeated :
    ∃ pool next : Pool (clones .release),
      Run (Policy.free (clones .release)) sampleStart pool ∧
      Step (Policy.free (clones .release)) pool next ∧
      (⟨.install (repeating.installed "r0" none), ()⟩ : Event AuthSig) ∈ pool.history 1 ∧
      next.shared ≠ pool.shared ∧ stored next.shared = stored pool.shared := by
  have run : Run (Policy.free (clones .release)) sampleStart
      ((sampleStart.script (overlapping repeating)).get rfl) := Pool.run_script_free rfl
  have step : Step (Policy.free (clones .release))
      ((sampleStart.script (overlapping repeating)).get rfl)
      ((sampleStart.script (overlapping repeating ++ [firing 0 plain])).get rfl) :=
    step_free (firing 0 plain) rfl
  have hlog : ((sampleStart.script (overlapping repeating)).get rfl).log =
      (asked 0 plain).take 1 ++ (asked 1 repeating ++
        (1, ⟨.install (repeating.installed "r0" none), ()⟩) :: (asked 0 plain).drop 1) := rfl
  refine ⟨_, _, run, step, ?_, by decide, ?_⟩
  · rw [Pool.mem_history, hlog]
    simp
  · refine (refresh_rotates run step).kept 0 (plain.installed "r0" none) rfl ?_ ⟨plain, rfl, ?_⟩
    · rw [hlog]
      refine undisturbed_of_same "r0" (fun other hin => ?_) fun j tokens hin => ?_
      · simpa [asked] using hin
      · obtain ⟨-, rfl⟩ : j = 1 ∧ tokens = repeating.installed "r0" none := by
          simpa [asked] using hin
        rfl
    · rw [Pool.mem_history, hlog]
      simp [asked]

/-- A refresh puts back the token that another one has rotated. -/
theorem rotated_token_reverted :
    ∃ pool next : Pool (clones .release),
      Run (Policy.free (clones .release)) sampleStart pool ∧
      Step (Policy.free (clones .release)) pool next ∧
      next.log = pool.log ++ [(0, ⟨.install (plain.installed "r0" none), ()⟩)] ∧
      plain.refreshToken = none ∧ (⟨.json, .ok plain⟩ : Event AuthSig) ∈ pool.history 0 ∧
      stored pool.shared = some "r1" ∧ stored next.shared = some "r0" := by
  have run : Run (Policy.free (clones .release)) sampleStart
      ((sampleStart.script (overlapping rotating)).get rfl) := Pool.run_script_free rfl
  have step : Step (Policy.free (clones .release))
      ((sampleStart.script (overlapping rotating)).get rfl)
      ((sampleStart.script (overlapping rotating ++ [firing 0 plain])).get rfl) :=
    step_free (firing 0 plain) rfl
  have hhistory : ((sampleStart.script (overlapping rotating)).get rfl).history 0 =
      (asked 0 plain).map Prod.snd := rfl
  refine ⟨_, _, run, step, rfl, rfl, ?_, rfl, rfl⟩
  rw [hhistory]
  simp [asked]

end Sample

end VasalAgent.Auth
