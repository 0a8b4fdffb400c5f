import VasalAgent.Units.Health

/-!
# The health gate of an upgrade

What `probe_sidecar` makes of the answers of a sidecar.  It lets a version pass when some
health call was answered with a response that `check_sidecar` takes for `ok` or `degraded`
(`Healthy`); that response says so itself (`Affirms`) unless it is neither a health response
nor an error.
-/

namespace VasalAgent.Units

open VasalAgent.Async
open VasalAgent.Protocol

/-- The health response that a JSON-RPC response carries. -/
def healthOf (response : Response) : Option HealthResponse :=
  response.result.bind healthResponseRecord.codec.decode

/-- The sidecar says that it is healthy, or at least degraded. -/
def Affirms (response : Response) : Prop :=
  ∃ health, healthOf response = some health ∧ (health.status = .ok ∨ health.status = .degraded)

/-- A health response or an error. -/
def Meaningful (response : Response) : Prop :=
  (healthOf response).isSome ∨ response.error.isSome

theorem affirms_of_sidecarHealth {response : Response} (h : Meaningful response)
    (hgood : (sidecarHealth response).1 = "ok" ∨ (sidecarHealth response).1 = "degraded") :
    Affirms response := by
  unfold sidecarHealth at hgood
  unfold Meaningful at h
  cases hhealth : healthOf response with
  | some health =>
      refine ⟨health, hhealth, ?_⟩
      rw [healthOf] at hhealth
      rw [hhealth] at hgood
      cases hstatus : health.status with
      | ok => exact .inl rfl
      | degraded => exact .inr rfl
      | unhealthy => simp [hstatus] at hgood
  | none =>
      rw [hhealth] at h
      obtain ⟨error, herror⟩ := Option.isSome_iff_exists.mp (h.resolve_left (by simp))
      rw [healthOf] at hhealth
      simp [hhealth, herror] at hgood

/-- What `probe_sidecar` lets pass. -/
def Passes (response : Response) : Prop :=
  (sidecarHealth response).1 = "ok" ∨ (sidecarHealth response).1 = "degraded"

theorem Affirms.passes {response : Response} (h : Affirms response) : Passes response := by
  obtain ⟨health, hhealth, hstatus⟩ := h
  rw [healthOf] at hhealth
  unfold Passes sidecarHealth
  rcases hstatus with hstatus | hstatus <;> simp [hhealth, hstatus]

theorem Affirms.meaningful {response : Response} (h : Affirms response) :
    Meaningful response := by
  obtain ⟨health, hhealth, -⟩ := h
  exact .inl (by simp [hhealth])

/-- What says nothing is taken for `ok`. -/
theorem passes_of_not_meaningful {response : Response} (h : ¬ Meaningful response) :
    Passes response := by
  simp only [Meaningful, healthOf, Option.isSome_iff_ne_none, ne_eq, not_or, not_not] at h
  unfold Passes sidecarHealth
  simp [h]

/-! ## Runs of the probe -/

section Probe

variable {socketDir unitName : String} {events : List (Event UnitSig)}

/-- A sidecar has answered what `check_sidecar` takes for healthy, or at least degraded. -/
def Healthy (socketDir unitName : String) (events : List (Event UnitSig)) : Prop :=
  ∃ response, (⟨.callRaw (socketPathFor socketDir unitName) "health" none, .ok response⟩ :
      Event UnitSig) ∈ events ∧
    ((sidecarHealth response).1 = "ok" ∨ (sidecarHealth response).1 = "degraded")

/-- The first response that passes is the last call. -/
structure PassedAt (socketDir unitName : String) (events : List (Event UnitSig))
    (response : Response) : Prop where
  passes : Passes response
  last : ∃ before, events = before ++
      [⟨.callRaw (socketPathFor socketDir unitName) "health" none, .ok response⟩] ∧
    ∀ other, (⟨.callRaw (socketPathFor socketDir unitName) "health" none, .ok other⟩ :
      Event UnitSig) ∈ before → ¬ Passes other

theorem PassedAt.prepend {response : Response} (h : PassedAt socketDir unitName events response)
    {earlier : List (Event UnitSig)}
    (hearlier : ∀ other, (⟨.callRaw (socketPathFor socketDir unitName) "health" none,
      .ok other⟩ : Event UnitSig) ∈ earlier → ¬ Passes other) :
    PassedAt socketDir unitName (earlier ++ events) response := by
  obtain ⟨hpasses, before, rfl, hbefore⟩ := h
  refine ⟨hpasses, earlier ++ before, (List.append_assoc ..).symm, fun other hother => ?_⟩
  rcases List.mem_append.mp hother with hfirst | hlater
  · exact hearlier other hfirst
  · exact hbefore other hlater

/-- Only one response of a run passes. -/
theorem PassedAt.unique {response other : Response}
    (h : PassedAt socketDir unitName events response) (hpasses : Passes other)
    (hother : (⟨.callRaw (socketPathFor socketDir unitName) "health" none, .ok other⟩ :
      Event UnitSig) ∈ events) : other = response := by
  obtain ⟨-, before, rfl, hbefore⟩ := h
  rcases List.mem_append.mp hother with hfirst | hlast
  · exact absurd hpasses (hbefore other hfirst)
  · simpa using hlast

theorem PassedAt.mem {response : Response} (h : PassedAt socketDir unitName events response) :
    (⟨.callRaw (socketPathFor socketDir unitName) "health" none, .ok response⟩ :
      Event UnitSig) ∈ events := by
  obtain ⟨-, before, rfl, -⟩ := h
  simp

theorem steps_checkSidecar {health : String × Option String}
    (h : Prog.Steps (checkSidecar socketDir unitName) events (.ret health)) :
    (∃ response, health = sidecarHealth response ∧
      events = [⟨.callRaw (socketPathFor socketDir unitName) "health" none, .ok response⟩]) ∨
    ∃ e, health.1 = "unhealthy" ∧
      events = [⟨.callRaw (socketPathFor socketDir unitName) "health" none, .error e⟩] := by
  rcases h with _ | @⟨_, _, answer, _, _, h⟩
  cases answer with
  | error e =>
      cases h
      exact .inr ⟨e, rfl, rfl⟩
  | ok response =>
      cases h
      exact .inl ⟨response, rfl, rfl⟩

theorem passedAt_of_probeFrom {deadline rounds : Nat}
    (h : Prog.Steps (probeFrom socketDir unitName deadline rounds) events (.ret true)) :
    ∃ response, PassedAt socketDir unitName events response := by
  induction rounds generalizing events with
  | zero => cases h
  | succ rounds ih =>
      obtain ⟨asked, later, now, rfl, hasked, hlater⟩ := h.bind_ret
      have hclock : ∃ time : Nat, asked = [⟨.instant, time⟩] := by
        rcases hasked with _ | @⟨_, _, time, _, _, h⟩
        cases h
        exact ⟨_, rfl⟩
      obtain ⟨time, rfl⟩ := hclock
      split at hlater
      · cases hlater
      · obtain ⟨first, second, health, rfl, hfirst, hsecond⟩ := hlater.bind_ret
        dsimp only at hsecond
        split at hsecond
        · next hgood =>
            cases hsecond
            rcases steps_checkSidecar hfirst with ⟨response, rfl, rfl⟩ | ⟨e, hbad, -⟩
            · exact ⟨response, hgood, [⟨.instant, time⟩], rfl, by simp⟩
            · simp [hbad] at hgood
        · next hbad =>
            obtain ⟨slept, more, _, rfl, hslept, hmore⟩ := hsecond.bind_ret
            obtain ⟨response, hpassed⟩ := ih hmore
            have hpause : slept = [⟨.sleep probeDelayMs, ()⟩] := by
              rcases hslept with _ | @⟨_, _, _, _, _, h⟩
              cases h
              rfl
            subst hpause
            refine ⟨response, ?_⟩
            rw [← List.append_assoc, ← List.append_assoc]
            refine hpassed.prepend fun other hother => ?_
            rcases steps_checkSidecar hfirst with ⟨failed, rfl, rfl⟩ | ⟨e, -, rfl⟩
            · obtain rfl : other = failed := by simpa using hother
              exact hbad
            · simp at hother

theorem probeRounds_eq (timeoutSec rounds : Nat) :
    probeRounds socketDir unitName timeoutSec rounds =
      .call (S := UnitSig) .instant fun now =>
        probeFrom socketDir unitName (now + timeoutSec * nanosPerSecond) rounds := by
  simp only [probeRounds, call, Prog.perform, Prog.call_bind, Prog.ret_bind]

theorem passedAt_of_probeRounds {timeoutSec rounds : Nat}
    (h : Prog.Steps (probeRounds socketDir unitName timeoutSec rounds) events (.ret true)) :
    ∃ response, PassedAt socketDir unitName events response := by
  rw [probeRounds_eq] at h
  rcases h with _ | @⟨_, _, now, later, _, h⟩
  obtain ⟨response, hpassed⟩ := passedAt_of_probeFrom h
  refine ⟨response, ?_⟩
  rw [← List.singleton_append]
  exact hpassed.prepend (by simp)

theorem healthy_of_probeSidecar {timeoutSec : Nat}
    (h : Prog.Steps (probeSidecar socketDir unitName timeoutSec) events (.ret true)) :
    Healthy socketDir unitName events := by
  obtain ⟨response, hpassed⟩ := passedAt_of_probeRounds h
  exact ⟨response, hpassed.mem, hpassed.passes⟩

/--
A version passes because a response has affirmed that it is healthy exactly if every
response says something: one that does not ends the probe before any other can affirm.
-/
theorem health_gate_sound {timeoutSec rounds : Nat}
    (h : Prog.Steps (probeRounds socketDir unitName timeoutSec rounds) events (.ret true)) :
    (∃ response, (⟨.callRaw (socketPathFor socketDir unitName) "health" none, .ok response⟩ :
      Event UnitSig) ∈ events ∧ Affirms response) ↔
    ∀ response, (⟨.callRaw (socketPathFor socketDir unitName) "health" none, .ok response⟩ :
      Event UnitSig) ∈ events → Meaningful response := by
  obtain ⟨last, hpassed⟩ := passedAt_of_probeRounds h
  constructor
  · rintro ⟨affirming, hmem, haffirms⟩ response hresponse
    by_contra hsilent
    have hlast := hpassed.unique (passes_of_not_meaningful hsilent) hresponse
    have haffirming := hpassed.unique haffirms.passes hmem
    exact hsilent (hlast.trans haffirming.symm ▸ haffirms.meaningful)
  · intro hmeaningful
    exact ⟨last, hpassed.mem,
      affirms_of_sidecarHealth (hmeaningful last hpassed.mem) hpassed.passes⟩

/-! ## A response that says nothing -/

def answered (result : Option Json) : Response := ⟨jsonrpcVersion, result, none, .integer 1⟩

/-- The calls of a probe whose first health call is answered with `result`. -/
def probed (start now : Nat) (result : Option Json) : List (Event UnitSig) :=
  [⟨.instant, start⟩, ⟨.instant, now⟩,
    ⟨.callRaw (socketPathFor "/run" "echo") "health" none, .ok (answered result)⟩]

theorem steps_passed {deadline rounds now : Nat} {result : Option Json} (hearly : now < deadline)
    (hgood : (sidecarHealth (answered result)).1 = "ok" ∨
      (sidecarHealth (answered result)).1 = "degraded") (start : Nat) :
    Prog.Steps (probeFrom "/run" "echo" deadline (rounds + 1)) (probed start now result).tail
      (.ret true) := by
  have hpass : Prog.Steps (if deadline ≤ now then pure false
      else do
        let outcome ← checkSidecar "/run" "echo"
        if outcome.1 = "ok" ∨ outcome.1 = "degraded" then pure true
        else do
          call (.sleep probeDelayMs)
          probeFrom "/run" "echo" deadline rounds)
      (probed start now result).tail.tail (.ret true) := by
    rw [if_neg (Nat.not_le.mpr hearly)]
    refine .call ?_
    change Prog.Steps (if (sidecarHealth (answered result)).1 = "ok" ∨
      (sidecarHealth (answered result)).1 = "degraded" then pure true else _) [] (.ret true)
    rw [if_pos hgood]
    exact .refl _
  exact .call hpass

theorem steps_probed {timeoutSec rounds start now : Nat} {result : Option Json}
    (hearly : now < start + timeoutSec * nanosPerSecond)
    (hgood : (sidecarHealth (answered result)).1 = "ok" ∨
      (sidecarHealth (answered result)).1 = "degraded") :
    Prog.Steps (probeRounds "/run" "echo" timeoutSec (rounds + 1)) (probed start now result)
      (.ret true) := by
  rw [probeRounds_eq]
  exact .call (steps_passed hearly hgood start)

theorem response_of_mem_probed {start now : Nat} {result : Option Json} {response : Response}
    (h : (⟨.callRaw (socketPathFor "/run" "echo") "health" none, .ok response⟩ :
      Event UnitSig) ∈ probed start now result) : response = answered result := by
  simpa [probed] using h

theorem health_gate_sound_degraded :
    ∃ response, (⟨.callRaw (socketPathFor "/run" "echo") "health" none, .ok response⟩ :
      Event UnitSig) ∈ probed 0 5 (some (.obj [("status", .str "degraded")])) ∧
        Affirms response := by
  have hsteps : Prog.Steps (probeRounds "/run" "echo" 10 1)
      (probed 0 5 (some (.obj [("status", .str "degraded")]))) (.ret true) :=
    steps_probed (by decide) (.inr rfl)
  refine (health_gate_sound hsteps).mpr fun response hresponse => .inl ?_
  rw [response_of_mem_probed hresponse]
  rfl

/-- The gate opens on the first answer, and no answer affirmed the health. -/
structure Fooled (result : Option Json) : Prop where
  passes : Prog.Steps (probeSidecar "/run" "echo" 10) (probed 0 5 result) (.ret true)
  unaffirmed : ∀ response,
    (⟨.callRaw (socketPathFor "/run" "echo") "health" none, .ok response⟩ : Event UnitSig) ∈
      probed 0 5 result → ¬ Affirms response

theorem fooled_of_unread {result : Option Json} (hunread : healthOf (answered result) = none)
    (hgood : (sidecarHealth (answered result)).1 = "ok") : Fooled result where
  passes := steps_probed (by decide) (.inl hgood)
  unaffirmed := by
    rintro response hresponse ⟨health, hhealth, -⟩
    rw [response_of_mem_probed hresponse, hunread] at hhealth
    cases hhealth

/-- A health call that is answered with nothing, or with a status nobody knows. -/
theorem health_gate_fooled :
    Fooled none ∧ Fooled (some (.obj [("status", .str "starting")])) := by
  constructor
  · exact fooled_of_unread rfl rfl
  · exact fooled_of_unread rfl rfl

end Probe

end VasalAgent.Units
