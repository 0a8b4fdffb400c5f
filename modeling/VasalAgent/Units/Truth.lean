import VasalAgent.Async.Monitor
import VasalAgent.Task.Router
import VasalAgent.Units.Footprint

/-!
# What unit tasks report and what they do

`Effect` and `FailedEffect` say what a unit task that was reported as done, or as
failed, has to leave in the table.  The functions of the unit management keep to
that (`perform_effect`).  Routing does not call them: a sequence of routed tasks is
reported truthfully only if the table has what they ask for already
(`truthful_iff`).
-/

namespace VasalAgent.Units

open VasalAgent.Async
open VasalAgent.Protocol
open VasalAgent.Task (Error ExecSig routeTask)

/-! ## Unit tasks -/

inductive UnitTask where
  | install (task : InstallTask)
  | upgrade (task : UpgradeTask)
  | remove (task : RemoveTask)

namespace UnitTask

def toTask : UnitTask → Protocol.Task
  | install task => .install task
  | upgrade task => .upgrade task
  | remove task => .remove task

def unitName : UnitTask → String
  | install task => task.unit.name
  | upgrade task => task.unitName
  | remove task => task.unitName

/-- The version that the unit is to have; `none` for a removal. -/
def version? : UnitTask → Option String
  | install task => some task.unit.version
  | upgrade task => some task.targetVersion
  | remove _ => none

def rollback? : UnitTask → Option RollbackSpec
  | upgrade task => task.rollback
  | _ => none

def Effect (task : UnitTask) (before after : UnitTable) : Prop :=
  match task.version? with
  | some version =>
      ∃ row, row.name = task.unitName ∧ row.version = version ∧ after = before.upsert row
  | none => after = before.remove task.unitName

/-- The version of the unit is unchanged, or the one to roll back to. -/
def FailedEffect (task : UnitTask) (before after : UnitTable) : Prop :=
  (∀ name, name ≠ task.unitName → after.get name = before.get name) ∧
    ((after.get task.unitName).map UnitRow.version =
        (before.get task.unitName).map UnitRow.version ∨
      ∃ spec, task.rollback? = some spec ∧
        (after.get task.unitName).map UnitRow.version = some spec.version)

/-- What a task with this result has to leave in the table. -/
def Reported (task : UnitTask) (result : TaskResult) (before after : UnitTable) : Prop :=
  match result.status with
  | .success => task.Effect before after
  | .failed => task.FailedEffect before after
  | _ => after = before

/-- What the task asks for is in the table. -/
def Stands (task : UnitTask) (table : UnitTable) : Prop :=
  (table.get task.unitName).map UnitRow.version = task.version?

theorem Effect.stands {task : UnitTask} {before after : UnitTable}
    (h : task.Effect before after) : task.Stands after := by
  unfold Effect at h
  unfold Stands
  split at h
  · next version hversion =>
      obtain ⟨row, hname, rfl, rfl⟩ := h
      rw [Store.Table.get_upsert, if_pos hname, hversion]
      rfl
  · next hversion =>
      rw [h, Store.Table.get_remove, if_pos rfl, hversion]
      rfl

theorem Effect.get_ne {task : UnitTask} {before after : UnitTable}
    (h : task.Effect before after) {name : String} (hne : name ≠ task.unitName) :
    after.get name = before.get name := by
  unfold Effect at h
  split at h
  · obtain ⟨row, hname, -, rfl⟩ := h
    rw [Store.Table.get_upsert, if_neg (hname ▸ hne.symm)]
  · rw [h, Store.Table.get_remove, if_neg hne.symm]

theorem failedEffect_refl (task : UnitTask) (table : UnitTable) :
    task.FailedEffect table table :=
  ⟨fun _ _ => rfl, .inl rfl⟩

end UnitTask

/-! ## Sequences -/

/-- The tasks with their results, in order, lead from one table to the other. -/
inductive Truthful : UnitTable → List (UnitTask × TaskResult) → UnitTable → Prop where
  | nil (table : UnitTable) : Truthful table [] table
  | cons {before mid after : UnitTable} {task : UnitTask} {result : TaskResult}
      {rest : List (UnitTask × TaskResult)} (first : task.Reported result before mid)
      (later : Truthful mid rest after) : Truthful before ((task, result) :: rest) after

/-- What each task asks for is in the table, unless a later task is about the same unit. -/
def Settled (table : UnitTable) : List UnitTask → Prop
  | [] => True
  | task :: rest =>
      ((∀ later ∈ rest, later.unitName ≠ task.unitName) → task.Stands table) ∧
        Settled table rest

def AllSuccess (tasks : List UnitTask) (results : List TaskResult) : Prop :=
  results.map TaskResult.status = tasks.map fun _ => .success

theorem allSuccess_cons {task : UnitTask} {tasks : List UnitTask} {result : TaskResult}
    {results : List TaskResult} :
    AllSuccess (task :: tasks) (result :: results) ↔
      result.status = .success ∧ AllSuccess tasks results := by
  simp [AllSuccess]

theorem settled_of_truthful {tasks : List UnitTask} {results : List TaskResult}
    (hsuccess : AllSuccess tasks results) {before after : UnitTable}
    (h : Truthful before (tasks.zip results) after) :
    Settled after tasks ∧
      ∀ name, (∀ task ∈ tasks, task.unitName ≠ name) → after.get name = before.get name := by
  induction tasks generalizing results before with
  | nil =>
      cases h
      exact ⟨trivial, fun _ _ => rfl⟩
  | cons task rest ih =>
      cases results with
      | nil => simp [AllSuccess] at hsuccess
      | cons result results =>
          rw [allSuccess_cons] at hsuccess
          cases h with
          | cons first later =>
              obtain ⟨hsettled, hget⟩ := ih hsuccess.2 later
              simp only [UnitTask.Reported, hsuccess.1] at first
              refine ⟨⟨fun hlast => ?_, hsettled⟩, fun name hname => ?_⟩
              · have hstands := first.stands
                rwa [UnitTask.Stands, ← hget _ hlast] at hstands
              · simp only [List.forall_mem_cons] at hname
                rw [hget name hname.2, first.get_ne (Ne.symm hname.1)]

/-- A task can be carried out so that the unit is as in the given table, if it stands there. -/
theorem UnitTask.exists_effect (task : UnitTask) (table before : UnitTable) :
    ∃ after, task.Effect before after ∧
      (task.Stands table → after.get task.unitName = table.get task.unitName) := by
  unfold Effect Stands
  cases hversion : task.version? with
  | none =>
      refine ⟨_, rfl, fun hstands => ?_⟩
      rw [Store.Table.get_remove, if_pos rfl, Option.map_eq_none_iff.mp hstands]
  | some version =>
      by_cases hstands : (table.get task.unitName).map UnitRow.version = some version
      · obtain ⟨row, hrow, rfl⟩ := Option.map_eq_some_iff.mp hstands
        have hname := Store.Table.key_of_get hrow
        refine ⟨_, ⟨row, hname, rfl, rfl⟩, fun _ => ?_⟩
        rw [Store.Table.get_upsert, if_pos hname, hrow]
      · let row : UnitRow :=
          ⟨task.unitName, "package", version, "installed", none, none, none, none, none, 0⟩
        exact ⟨_, ⟨row, rfl, rfl, rfl⟩, fun h => absurd h hstands⟩

theorem exists_truthful {table : UnitTable} {tasks : List UnitTask}
    {results : List TaskResult} (hsuccess : AllSuccess tasks results)
    (hsettled : Settled table tasks) (before : UnitTable) :
    ∃ after, Truthful before (tasks.zip results) after ∧
      ∀ name, after.get name = table.get name ∨
        (∀ task ∈ tasks, task.unitName ≠ name) ∧ after.get name = before.get name := by
  induction tasks generalizing results before with
  | nil => exact ⟨before, .nil before, fun _ => .inr ⟨by simp, rfl⟩⟩
  | cons task rest ih =>
      cases results with
      | nil => simp [AllSuccess] at hsuccess
      | cons result results =>
          rw [allSuccess_cons] at hsuccess
          obtain ⟨mid, heffect, hmid⟩ := task.exists_effect table before
          obtain ⟨after, htruthful, hafter⟩ := ih hsuccess.2 hsettled.2 mid
          have hfirst : task.Reported result before mid := by
            simpa only [UnitTask.Reported, hsuccess.1] using heffect
          refine ⟨after, .cons hfirst htruthful, fun name => ?_⟩
          rcases hafter name with hsame | ⟨hrest, hname⟩
          · exact .inl hsame
          · by_cases heq : task.unitName = name
            · subst heq
              exact .inl (hname.trans (hmid (hsettled.1 hrest)))
            · rw [List.forall_mem_cons]
              exact .inr ⟨⟨heq, hrest⟩, hname.trans (heffect.get_ne (Ne.symm heq))⟩

/-- A table is what successful tasks make of it if, and only if, they ask for nothing new. -/
theorem truthful_self_iff {tasks : List UnitTask} {results : List TaskResult}
    (hsuccess : AllSuccess tasks results) (table : UnitTable) :
    Truthful table (tasks.zip results) table ↔ Settled table tasks := by
  constructor
  · intro h
    exact (settled_of_truthful hsuccess h).1
  · intro h
    obtain ⟨after, htruthful, hafter⟩ := exists_truthful hsuccess h table
    have hsame : after = table := Store.Table.ext_get fun name => by
      rcases hafter name with hname | ⟨-, hname⟩ <;> exact hname
    rwa [hsame] at htruthful

/-! ## The functions of the unit management -/

/-- A call that writes no unit. -/
def UnitOp.quiet : UnitOp → Prop
  | .upsertUnit _ | .removeUnit _ => False
  | _ => True

theorem applyEvent_quiet {op : UnitOp} (h : op.quiet) (ans : op.Ans) (table : UnitTable) :
    applyEvent table ⟨op, ans⟩ = table := by
  cases op <;> first | rfl | exact h.elim

theorem tableAfter_quiet {events : List (Event UnitSig)} (h : ∀ event ∈ events, event.1.quiet)
    (table : UnitTable) : tableAfter table events = table := by
  induction events with
  | nil => rfl
  | cons event rest ih =>
      simp only [List.forall_mem_cons] at h
      rw [tableAfter, List.foldl_cons, applyEvent_quiet h.1]
      exact ih h.2

/-- `get_unit` finds a row under its name. -/
def Answers : Event UnitSig → Prop
  | ⟨.getUnit name, .ok (some row)⟩ => row.name = name
  | _ => True

/-- The table along an execution. -/
def replay : Monitor UnitSig UnitTable := fun table event => some (applyEvent table event)

theorem replay_after (table : UnitTable) (events : List (Event UnitSig)) :
    replay.after table events = some (tableAfter table events) := by
  induction events generalizing table with
  | nil => rfl
  | cons event rest ih => exact ih (applyEvent table event)

section Rules

variable {α β : Type} {table : UnitTable}

theorem ensures_quiet {p : Prog UnitSig α} (h : p.Uses UnitOp.quiet) :
    p.Ensures Answers replay (fun _ after => after = table) table :=
  h.ensures fun _ ans hop _ => congrArg some (applyEvent_quiet hop ans table)

/-- `?` on something that writes no unit. -/
theorem ensures_orReturn {p : Prog UnitSig (Except Error α)}
    {rest : α → Prog UnitSig (Except Error β)} {post : Except Error β → UnitTable → Prop}
    (h : p.Uses UnitOp.quiet) (herror : ∀ e, post (.error e) table)
    (hrest : ∀ value, (rest value).Ensures Answers replay post table) :
    (orReturn p rest).Ensures Answers replay post table := by
  apply (ensures_quiet h).andThen
  intro result
  cases result with
  | error e => exact herror e
  | ok value => exact hrest value

theorem ensures_call {op : UnitOp} {rest : op.Ans → Prog UnitSig β} {post : β → UnitTable → Prop}
    (h : op.quiet) (hrest : ∀ ans, (rest ans).Ensures Answers replay post table) :
    (call op >>= rest).Ensures Answers replay post table :=
  (ensures_quiet (uses_call h)).andThen hrest

end Rules

section Quiet

variable {digest : List UInt8 → String} {unitName socketDir : String}

theorem quiet_fetch {what : String} {artifact : Artifact} :
    (fetch digest what unitName artifact).Uses UnitOp.quiet :=
  uses_fetch.mono fun op _ => by cases op <;> trivial

theorem quiet_extractArtifact {urlLower installDir version : String} {bytes : List UInt8} :
    (extractArtifact urlLower bytes installDir unitName version).Uses UnitOp.quiet :=
  uses_extractArtifact.mono fun op _ => by cases op <;> trivial

theorem quiet_startSidecar {binaryPath socket : String} :
    (startSidecar binaryPath socket).Uses UnitOp.quiet :=
  uses_startSidecar.mono fun op _ => by cases op <;> trivial

theorem quiet_unpack {version installDir : String} {bytes : List UInt8} :
    (unpack unitName version installDir bytes).Uses UnitOp.quiet :=
  uses_unpack.mono fun op _ => by cases op <;> trivial

theorem quiet_terminate (pid pauseMs : Nat) : (terminate pid pauseMs).Uses UnitOp.quiet :=
  (uses_terminate pid pauseMs).mono fun op _ => by cases op <;> trivial

theorem quiet_stopCurrent (current : UnitRow) : (stopCurrent current).Uses UnitOp.quiet :=
  (uses_stopCurrent current).mono fun op _ => by cases op <;> trivial

theorem quiet_probeSidecar {timeoutSec : Nat} :
    (probeSidecar socketDir unitName timeoutSec).Uses UnitOp.quiet :=
  uses_probeSidecar.mono fun op _ => by cases op <;> trivial

end Quiet

namespace UnitTask

/-- What a task that ended with this outcome has to leave in the table. -/
def Outcome (task : UnitTask) (before : UnitTable) : Except Error Unit → UnitTable → Prop
  | .ok _, after => task.Effect before after
  | .error _, after => task.FailedEffect before after

variable {task : UnitTask} {table : UnitTable} {digest : List UInt8 → String}
  {cacheDir socketDir : String}

theorem ensures_persist {row : UnitRow} (hname : row.name = task.unitName)
    (hversion : task.version? = some row.version) :
    (persist row).Ensures Answers replay (task.Outcome table) table := by
  intro ans _
  refine ⟨_, rfl, ?_⟩
  cases ans with
  | error e => exact task.failedEffect_refl table
  | ok _ =>
      simp only [Outcome, Effect, hversion, Prog.ensures_ret]
      exact ⟨row, hname, rfl, rfl⟩

theorem ensures_install (task : InstallTask) :
    (Units.install digest task.unit cacheDir socketDir).Ensures Answers replay
      ((install task).Outcome table) table := by
  have hfailed (e : Error) : (install task).Outcome table (.error e) table :=
    (install task).failedEffect_refl table
  apply ensures_orReturn quiet_fetch hfailed
  intro bytes
  refine ensures_orReturn (uses_converted (uses_call trivial)) hfailed fun _ => ?_
  apply ensures_orReturn quiet_extractArtifact hfailed
  intro _
  refine ensures_call trivial fun now => ?_
  dsimp only
  split
  · refine ensures_call trivial fun found => ?_
    split
    · apply ensures_orReturn quiet_startSidecar hfailed
      intro pid
      exact ensures_persist rfl rfl
    · exact ensures_persist rfl rfl
  · exact ensures_persist rfl rfl

/-- `?` on `get_unit`: a row that is found has the name it was looked up under. -/
theorem ensures_getUnit {name : String} {rest : Option UnitRow → Prog UnitSig (Except Error Unit)}
    {post : Except Error Unit → UnitTable → Prop} (herror : ∀ e, post (.error e) table)
    (hnone : (rest none).Ensures Answers replay post table)
    (hsome : ∀ row, row.name = name → (rest (some row)).Ensures Answers replay post table) :
    (orReturn (call (.getUnit name)) rest).Ensures Answers replay post table := by
  intro ans hans
  refine ⟨table, rfl, ?_⟩
  match ans, hans with
  | .error e, _ => exact herror e
  | .ok none, _ => exact hnone
  | .ok (some row), hname => exact hsome row hname

section Upgrade

variable {upgraded : UpgradeTask}

theorem failedEffect_rollback {spec : RollbackSpec} {row : UnitRow}
    (hrollback : upgraded.rollback = some spec) (hname : row.name = upgraded.unitName)
    (hversion : row.version = spec.version) :
    (upgrade upgraded).FailedEffect table (table.upsert row) := by
  constructor
  · intro name hne
    rw [Store.Table.get_upsert, if_neg (hname ▸ hne.symm)]
  · right
    have hfound : (table.upsert row).get upgraded.unitName = some row := by
      rw [Store.Table.get_upsert, if_pos hname]
    exact ⟨spec, hrollback, (congrArg _ hfound).trans (congrArg some hversion)⟩

theorem ensures_persist_rollback {spec : RollbackSpec} {row : UnitRow}
    (hrollback : upgraded.rollback = some spec) (hname : row.name = upgraded.unitName)
    (hversion : row.version = spec.version) :
    (persist row).Ensures Answers replay
      (fun _ after => (upgrade upgraded).FailedEffect table after) table := by
  intro ans _
  refine ⟨_, rfl, ?_⟩
  cases ans with
  | error e => exact failedEffect_refl _ table
  | ok _ => exact failedEffect_rollback hrollback hname hversion

theorem ensures_performRollback {spec : RollbackSpec}
    (hrollback : upgraded.rollback = some spec) :
    (performRollback digest upgraded.unitName cacheDir socketDir spec).Ensures Answers replay
      (fun _ after => (upgrade upgraded).FailedEffect table after) table := by
  have hsame : (upgrade upgraded).FailedEffect table table := failedEffect_refl _ table
  apply ensures_orReturn quiet_fetch fun _ => hsame
  intro bytes
  apply ensures_orReturn quiet_unpack fun _ => hsame
  intro extracted
  split
  · refine ensures_getUnit (fun _ => hsame) hsame fun current hname => ?_
    refine ensures_call trivial fun now => ?_
    dsimp only
    split
    · refine ensures_call trivial fun found => ?_
      split
      · apply ensures_orReturn quiet_startSidecar fun _ => hsame
        intro pid
        exact ensures_persist_rollback hrollback hname rfl
      · exact ensures_persist_rollback hrollback hname rfl
    · exact ensures_persist_rollback hrollback hname rfl
  · exact hsame

theorem ensures_giveUp {message : String} :
    (giveUp digest upgraded.unitName cacheDir socketDir upgraded.rollback message).Ensures
      Answers replay ((upgrade upgraded).Outcome table) table := by
  unfold giveUp
  split
  · next spec hrollback =>
      refine (ensures_performRollback hrollback).bind fun result after hafter => ?_
      cases result <;> exact hafter
  · exact failedEffect_refl _ table

theorem ensures_upgrade :
    (Units.upgrade digest upgraded.unitName cacheDir socketDir upgraded.targetVersion
      upgraded.artifact upgraded.rollback).Ensures Answers replay
      ((upgrade upgraded).Outcome table) table := by
  have hfailed (e : Error) : (upgrade upgraded).Outcome table (.error e) table :=
    failedEffect_refl _ table
  apply ensures_orReturn quiet_fetch hfailed
  intro bytes
  refine ensures_getUnit hfailed (hfailed _) fun current hname => ?_
  apply (ensures_quiet (quiet_stopCurrent current)).andThen
  intro _
  apply ensures_orReturn quiet_unpack hfailed
  intro extracted
  split
  · refine ensures_call trivial fun now => ?_
    unfold startUpgraded
    split
    · refine ensures_call trivial fun found => ?_
      split
      · apply ensures_orReturn quiet_startSidecar hfailed
        intro pid
        apply (ensures_quiet quiet_probeSidecar).andThen
        intro healthy
        split
        · exact ensures_persist hname rfl
        · apply (ensures_quiet (quiet_terminate pid 1000)).andThen
          intro _
          exact ensures_giveUp
      · exact ensures_persist hname rfl
    · exact ensures_persist hname rfl
  · exact ensures_giveUp

end Upgrade

/-- The function that carries out a task. -/
def perform (digest : List UInt8 → String) (cacheDir socketDir : String) :
    UnitTask → Prog UnitSig (Except Error Unit)
  | install task => Units.install digest task.unit cacheDir socketDir
  | upgrade task =>
      Units.upgrade digest task.unitName cacheDir socketDir task.targetVersion task.artifact
        task.rollback
  | remove task => call (.removeUnit task.unitName)

/-- What the functions return is true of the table. -/
theorem perform_effect (task : UnitTask) {events : List (Event UnitSig)}
    {result : Except Error Unit}
    (h : Prog.Steps (task.perform digest cacheDir socketDir) events (.ret result))
    (hanswers : ∀ event ∈ events, Answers event) :
    task.Outcome table result (tableAfter table events) := by
  have hensures : (task.perform digest cacheDir socketDir).Ensures Answers replay
      (task.Outcome table) table := by
    cases task with
    | install task => exact ensures_install task
    | upgrade task => exact ensures_upgrade
    | remove task =>
        intro ans _
        refine ⟨_, rfl, ?_⟩
        cases ans with
        | error e => exact failedEffect_refl _ table
        | ok _ => rfl
  obtain ⟨after, hafter, hresult⟩ := hensures.steps h hanswers
  rw [replay_after, Option.some.injEq] at hafter
  rwa [hafter]

end UnitTask

/-! ## Routing -/

/-- The calls of a routed task. -/
def routed {α : Type} : Prog ExecSig α → Prog UnitSig α
  | .ret value => .ret value
  | .call op next => .call (.route op) fun ans => routed (next ans)
  | .hang => .hang

/-- The tasks are routed one after the other. -/
def routeAll : List UnitTask → Prog UnitSig (List TaskResult)
  | [] => pure []
  | task :: rest => do
      let result ← routed (routeTask task.toTask)
      let results ← routeAll rest
      pure (result :: results)

theorem quiet_routed {α : Type} (p : Prog ExecSig α) : (routed p).Uses UnitOp.quiet := by
  induction p with
  | ret value => trivial
  | call op next ih => exact ⟨trivial, ih⟩
  | hang => trivial

theorem quiet_routeAll (tasks : List UnitTask) : (routeAll tasks).Uses UnitOp.quiet := by
  induction tasks with
  | nil => trivial
  | cons task rest ih => exact (quiet_routed _).bind fun _ => ih.bind fun _ => trivial

/-- Every unit task is reported as done. -/
theorem yields_routed (task : UnitTask) :
    (routed (routeTask task.toTask)).Yields (fun _ => True)
      fun result => result.status = .success := by
  cases task <;> exact fun _ _ _ _ => rfl

theorem yields_routeAll (tasks : List UnitTask) :
    (routeAll tasks).Yields (fun _ => True) (AllSuccess tasks) := by
  induction tasks with
  | nil => rfl
  | cons task rest ih =>
      apply (yields_routed task).bind
      intro result hresult
      apply ih.bind
      intro results hresults
      exact allSuccess_cons.mpr ⟨hresult, hresults⟩

/--
The results of a sequence of routed tasks are true of the table afterwards if, and only
if, the table had what the tasks ask for from the start.
-/
theorem truthful_iff (table : UnitTable) (tasks : List UnitTask)
    {events : List (Event UnitSig)} {results : List TaskResult}
    (h : Prog.Steps (routeAll tasks) events (.ret results)) :
    Truthful table (tasks.zip results) (tableAfter table events) ↔ Settled table tasks := by
  have hsuccess : AllSuccess tasks results := (yields_routeAll tasks).steps h fun _ _ => trivial
  rw [tableAfter_quiet ((quiet_routeAll tasks).steps h)]
  exact truthful_self_iff hsuccess table

/-! ## Reports that are not true -/

def sampleUnit : ManagedUnit :=
  ⟨"echo", .package, "1.0.0", ⟨"https://cp/echo.tgz", "00"⟩, .absent, none, none, none⟩

def sampleInstall : UnitTask := .install ⟨⟨1⟩, .normal, [], sampleUnit⟩

def sampleRemoval : UnitTask := .remove ⟨⟨2⟩, .normal, [], "echo", false⟩

/-- The clock readings of a routed task. -/
def clockReadings : List (Event UnitSig) :=
  [⟨.route (.elapsed .exec .result), (0 : Nat)⟩, ⟨.route (.nowMs .exec), (7 : Int)⟩]

def successResult (id : Uuid) (stdout : String) : TaskResult :=
  ⟨id, none, none, .success, none, stdout, "", 0, 7, none⟩

def installedRow (name version : String) : UnitRow :=
  ⟨name, "package", version, "installed", none, none, none, none, none, 0⟩

def echoAndProbe : UnitTable :=
  (Store.Table.empty.upsert (installedRow "echo" "1.0.0")).upsert (installedRow "probe" "3.1.0")

/-- A package is removed and installed again, and one is upgraded to the version it has. -/
def restoring : List UnitTask :=
  [sampleRemoval, sampleInstall,
    .upgrade ⟨⟨3⟩, .normal, [], "probe", "3.1.0", ⟨"https://cp/probe.tgz", "00"⟩, none⟩]

def restored : List TaskResult :=
  [successResult ⟨2⟩ "removed unit echo", successResult ⟨1⟩ "installed unit echo",
    successResult ⟨3⟩ "upgraded unit probe to 3.1.0"]

def restoringCalls : List (Event UnitSig) := clockReadings ++ clockReadings ++ clockReadings

theorem steps_restoring : Prog.Steps (routeAll restoring) restoringCalls (.ret restored) :=
  .call (.call (.call (.call (.call (.call (.refl _))))))

theorem truthful_restoring :
    Truthful echoAndProbe (restoring.zip restored) (tableAfter echoAndProbe restoringCalls) := by
  refine (truthful_iff echoAndProbe restoring steps_restoring).mpr ?_
  -- the removal is followed by an install of the same unit
  exact ⟨fun hlast => absurd rfl (hlast sampleInstall (by simp)), fun _ => rfl, fun _ => rfl,
    trivial⟩

/-- An install that is reported as done, and no unit. -/
theorem install_untrue :
    Prog.Steps (routeAll [sampleInstall]) clockReadings
        (.ret [successResult ⟨1⟩ "installed unit echo"]) ∧
      (tableAfter .empty clockReadings).rows = [] ∧
      ¬ Truthful .empty ([sampleInstall].zip [successResult ⟨1⟩ "installed unit echo"])
        (tableAfter .empty clockReadings) := by
  refine ⟨.call (.call (.refl _)), rfl, fun h => ?_⟩
  have hsuccess : AllSuccess [sampleInstall] [successResult ⟨1⟩ "installed unit echo"] := rfl
  have hstands := (settled_of_truthful hsuccess h).1.1 (by simp)
  cases hstands

end VasalAgent.Units
