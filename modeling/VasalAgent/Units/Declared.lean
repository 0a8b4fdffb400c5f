import VasalAgent.Units.Lifecycle

/-!
# The health check that a unit declares

A `ManagedUnit` declares its health check in a field of its own.  The row of a unit
keeps only the configuration, and `check_package` looks for a command there.  So the
declared check is the one that runs if, and only if, the configuration repeats it
(`checksAsDeclared_iff`).
-/

namespace VasalAgent.Units

open VasalAgent.Async
open VasalAgent.Protocol
open VasalAgent.Serde

/-! ## The check in the configuration -/

/-- The check that a configuration has under `health_check`. -/
def configuredCheck (config : Json) : Option HealthCheck := do
  let check ← config.get? "health_check"
  let command ← (check.get? "command").bind Json.asStr?
  pure ⟨command, ((check.get? "timeout_ms").bind asU64?).getD defaultCheckTimeoutMs⟩

/-- A configuration is read back from the row only up to the depth limit of the reader. -/
def storedCheck (unit : ManagedUnit) : Option HealthCheck := do
  let config ← unit.config
  if depth config ≤ depthLimit then configuredCheck config else none

theorem checkCommand_render {config : Json} (h : Lawful config) :
    checkCommand (some config.render) =
      if depth config ≤ depthLimit then
        (configuredCheck config).map fun check => (check.command, check.timeoutMs)
      else none := by
  have htext : Codec.value.fromText config.render =
      if depth config ≤ depthLimit then some config else none :=
    Codec.value.fromText_toText h
  rw [checkCommand, Option.bind_eq_bind, Option.bind_some, htext]
  split
  · simp only [configuredCheck, Option.bind_eq_bind, Option.bind_some]
    cases config.get? "health_check" with
    | none => rfl
    | some check => cases hcommand : (check.get? "command").bind Json.asStr? <;> simp [hcommand]
  · rfl

theorem checkCommand_unitToRow {unit : ManagedUnit} (now : Int)
    (h : ∀ config, unit.config = some config → Lawful config) :
    checkCommand (unitToRow unit now).configJson =
      (storedCheck unit).map fun check => (check.command, check.timeoutMs) := by
  rw [unitToRow, storedCheck]
  cases hconfig : unit.config with
  | none => rfl
  | some config =>
      simp only [Option.map_some, checkCommand_render (h config hconfig), Option.bind_eq_bind,
        Option.bind_some]
      split <;> rfl

/-! ## The check that runs -/

/-- The command is run once with its timeout; `ok` means that it succeeded in time. -/
def RunsCheck (check : HealthCheck) (p : Prog UnitSig (String × Option String)) : Prop :=
  ∀ ⦃events value⦄, p.Steps events (.ret value) →
    ∃ answer, events = [⟨.output check.command check.timeoutMs, answer⟩] ∧
      (value.1 = "ok" → ∃ output, answer = some (.ok output) ∧ output.status.success = true)

theorem success_of_packageHealth {answer : Option (Except String Output)}
    (h : (packageHealth answer).1 = "ok") :
    ∃ output, answer = some (.ok output) ∧ output.status.success = true := by
  match answer with
  | some (.ok output) =>
      cases hsuccess : output.status.success with
      | true => exact ⟨output, rfl, hsuccess⟩
      | false => simp [packageHealth, hsuccess] at h
  | some (.error e) => simp [packageHealth] at h
  | none => simp [packageHealth] at h

theorem runsCheck_iff {row : UnitRow} {check : HealthCheck} :
    RunsCheck check (checkPackage row) ↔
      checkCommand row.configJson = some (check.command, check.timeoutMs) := by
  unfold checkPackage
  constructor
  · intro h
    cases hcommand : checkCommand row.configJson with
    | none =>
        rw [hcommand] at h
        obtain ⟨answer, hevents, -⟩ := h (.refl _)
        cases hevents
    | some command =>
        rw [hcommand] at h
        have htimeout : Prog.Steps (S := UnitSig)
            (.call (.output command.1 command.2) fun result => .ret (packageHealth result))
            [⟨.output command.1 command.2, none⟩] (.ret (packageHealth none)) := .call (.refl _)
        obtain ⟨answer, hevents, -⟩ := h htimeout
        have hop := congrArg Sigma.fst (List.cons.inj hevents).1
        simpa [Prod.ext_iff] using hop
  · intro hcommand events value hsteps
    rw [hcommand] at hsteps
    cases hsteps with
    | @call _ _ answer _ _ hret =>
        cases hret
        exact ⟨answer, rfl, success_of_packageHealth⟩

def ChecksAsDeclared (unit : ManagedUnit) (now : Int) : Prop :=
  ∀ check, unit.healthCheck = some check →
    RunsCheck check (checkPackage (unitToRow unit now))

/-- The declared check runs if, and only if, it stands in the configuration as well. -/
theorem checksAsDeclared_iff (unit : ManagedUnit) (now : Int)
    (h : ∀ config, unit.config = some config → Lawful config) :
    ChecksAsDeclared unit now ↔
      ∀ check, unit.healthCheck = some check → storedCheck unit = some check := by
  apply forall₂_congr
  intro check _
  rw [runsCheck_iff, checkCommand_unitToRow now h]
  cases storedCheck unit with
  | none => simp
  | some stored =>
      cases stored
      cases check
      simp

/-- A configuration that repeats the declared check. -/
def repeatedCheck : Json :=
  .obj [("health_check", .obj [("command", .str "pgrep echo"), ("timeout_ms", .num (.int 1000))])]

def packageUnit (config : Option Json) : ManagedUnit :=
  ⟨"echo", .package, "1.0.0", ⟨"https://cp/echo.tgz", "00"⟩, .installed,
    some ⟨"pgrep echo", 1000⟩, config, none⟩

theorem checksAsDeclared_repeated : ChecksAsDeclared (packageUnit (some repeatedCheck)) 0 := by
  refine (checksAsDeclared_iff _ 0 ?_).mpr ?_
  · rintro config ⟨⟩
    have hlawful : Lawful (settled repeatedCheck) := lawful_settled rfl
    exact hlawful
  · rintro check ⟨⟩
    rfl

/-- A package without a configuration is `ok` and its check is not run. -/
theorem declared_check_ignored :
    (checkPackage (unitToRow (packageUnit none) 0)).Steps [] (.ret ("ok", none)) ∧
      ¬ ChecksAsDeclared (packageUnit none) 0 := by
  refine ⟨.refl _, fun h => ?_⟩
  obtain ⟨answer, hevents, -⟩ := h _ rfl (.refl _)
  cases hevents

end VasalAgent.Units
