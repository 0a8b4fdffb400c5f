import VasalAgent.Units.LostUpdate

/-!
# The vocabulary of the unit table

Kind, state and health of a unit are texts in the table.  Installs, upgrades,
rollbacks, removals and the health checker write only the texts of the protocol
there, an error only beside a health that is not `ok`, and process ids that fit
in an `u32`; so every table that a run leads to keeps to that vocabulary if the
first one does.
-/

namespace VasalAgent.Units

open VasalAgent.Async
open VasalAgent.Protocol
open VasalAgent.Task (Error)

/-! ## Rows -/

structure UnitRow.Lawful (row : UnitRow) : Prop where
  kind : row.kind = "sidecar" ∨ row.kind = "package"
  state : row.state ∈ ["running", "installed", "stopped", "absent"]
  health : ∀ health, row.health = some health → health ∈ ["ok", "degraded", "unhealthy"]
  healthError : row.healthError ≠ none → row.health ∈ [some "degraded", some "unhealthy"]
  pid : ∀ pid, row.pid = some pid → pid < 2 ^ 32

structure LawfulHealth (health : String × Option String) : Prop where
  status : health.1 ∈ ["ok", "degraded", "unhealthy"]
  error : health.2 ≠ none → health.1 ∈ ["degraded", "unhealthy"]

section Rows

variable {row : UnitRow}

theorem UnitRow.Lawful.atVersion (h : row.Lawful) (version : String) (now : Int) :
    (row.atVersion version now).Lawful :=
  ⟨h.kind, h.state, h.health, h.healthError, h.pid⟩

theorem UnitRow.Lawful.started (h : row.Lawful) {pid : Nat} (hpid : pid < 2 ^ 32) :
    (row.started pid).Lawful where
  kind := h.kind
  state := by simp [UnitRow.started]
  health := h.health
  healthError := h.healthError
  pid := by
    rintro _ ⟨⟩
    exact hpid

theorem UnitRow.Lawful.withHealth (h : row.Lawful) {health : String × Option String}
    (hhealth : LawfulHealth health) (now : Int) :
    (row.withHealth health.1 health.2 now).Lawful where
  kind := h.kind
  state := h.state
  health := by
    rintro _ ⟨⟩
    exact hhealth.status
  healthError herror := by simpa [UnitRow.withHealth] using hhealth.error herror
  pid := h.pid

/-- A fresh row, whatever `install` puts in as state, socket and process. -/
theorem lawful_unitToRow (unit : ManagedUnit) (now : Int) : (unitToRow unit now).Lawful where
  kind := by
    unfold unitToRow
    cases unit.kind <;> simp
  state := by
    unfold unitToRow
    cases unit.state <;> simp
  health := by simp [unitToRow]
  healthError := by simp [unitToRow]
  pid := by simp [unitToRow]

theorem UnitRow.Lawful.installed (h : row.Lawful) :
    UnitRow.Lawful { row with state := "installed" } :=
  ⟨h.kind, by simp, h.health, h.healthError, h.pid⟩

theorem UnitRow.Lawful.running (h : row.Lawful) {pid : Nat} (hpid : pid < 2 ^ 32)
    (socket : Option String) :
    UnitRow.Lawful { row with pid := some pid, socketPath := socket, state := "running" } := by
  have hstarted := h.started hpid
  exact ⟨hstarted.kind, hstarted.state, hstarted.health, hstarted.healthError, hstarted.pid⟩

end Rows

/-! ## Programs -/

/-- The table is read as lawful, and process ids are those of `Child::id`. -/
def Proper : Event UnitSig → Prop
  | ⟨.getUnit _, .ok (some row)⟩ => row.Lawful
  | ⟨.listUnits, .ok rows⟩ => ∀ row ∈ rows, row.Lawful
  | ⟨.spawn .., .ok (some pid)⟩ => pid < 2 ^ 32
  | _ => True

def WritesLawful : Event UnitSig → Prop
  | ⟨.upsertUnit row, _⟩ => row.Lawful
  | _ => True

/-- Where the answers are proper, `p` writes lawful rows, and `post` holds of its value. -/
abbrev Writing {α : Type} (post : α → Prop) (p : Prog UnitSig α) : Prop :=
  p.Ensures Proper (Monitor.checking WritesLawful) (fun value _ => post value) ()

section Rules

variable {α β : Type}

theorem writing_of_quiet {post : α → Prop} {p : Prog UnitSig α} (hyields : p.Yields Proper post)
    (h : p.Uses UnitOp.quiet) : Writing post p :=
  hyields.checked h fun op ans hop => by cases op <;> trivial

theorem writing_quiet {p : Prog UnitSig α} (h : p.Uses UnitOp.quiet) :
    Writing (fun _ => True) p :=
  writing_of_quiet (Prog.yields_any p) h

theorem Writing.bind {mid : α → Prop} {post : β → Prop} {p : Prog UnitSig α}
    {rest : α → Prog UnitSig β} (h : Writing mid p)
    (hrest : ∀ value, mid value → Writing post (rest value)) : Writing post (p >>= rest) :=
  Prog.Ensures.bind h fun value _ hvalue => hrest value hvalue

theorem Writing.orReturn {mid : α → Prop} {p : Prog UnitSig (Except Error α)}
    {rest : α → Prog UnitSig (Except Error β)}
    (h : Writing (fun result => ∀ value, result = .ok value → mid value) p)
    (hrest : ∀ value, mid value → Writing (fun _ => True) (rest value)) :
    Writing (fun _ => True) (orReturn p rest) := by
  refine Writing.bind h fun result hresult => ?_
  cases result with
  | error e => trivial
  | ok value => exact hrest value (hresult value rfl)

theorem writing_quiet_orReturn {p : Prog UnitSig (Except Error α)}
    {rest : α → Prog UnitSig (Except Error β)} (h : p.Uses UnitOp.quiet)
    (hrest : ∀ value, Writing (fun _ => True) (rest value)) :
    Writing (fun _ => True) (orReturn p rest) :=
  (writing_quiet h).bind fun result _ => by
    cases result with
    | error e => trivial
    | ok value => exact hrest value

theorem writing_persist {row : UnitRow} (h : row.Lawful) :
    Writing (fun _ => True) (persist row) :=
  fun _ _ => ⟨(), Monitor.checking_of_good h (), trivial⟩

theorem writing_startSidecar {binaryPath socket : String} :
    Writing (fun result => ∀ pid, result = .ok pid → pid < 2 ^ 32)
      (startSidecar binaryPath socket) := by
  intro answer hanswer
  refine ⟨(), Monitor.checking_of_good trivial (), ?_⟩
  cases answer with
  | error e => exact fun _ h => nomatch h
  | ok found =>
      rintro _ ⟨⟩
      cases found with
      | none => exact Nat.two_pow_pos 32
      | some pid => exact hanswer

theorem writing_getUnit {name : String} :
    Writing (fun result => ∀ found, result = .ok found → ∀ row, found = some row → row.Lawful)
      (call (.getUnit name)) := by
  intro answer hanswer
  refine ⟨(), Monitor.checking_of_good trivial (), ?_⟩
  rintro _ rfl row rfl
  exact hanswer

end Rules

/-! ### Tasks -/

section Tasks

variable {digest : List UInt8 → String} {unitName cacheDir socketDir : String}

theorem writing_install (unit : ManagedUnit) :
    Writing (fun _ => True) (install digest unit cacheDir socketDir) := by
  refine writing_quiet_orReturn quiet_fetch fun bytes => ?_
  refine writing_quiet_orReturn (uses_converted (uses_call trivial)) fun _ => ?_
  refine writing_quiet_orReturn quiet_extractArtifact fun _ => ?_
  refine Writing.bind (writing_quiet (uses_call trivial)) fun now _ => ?_
  have hrow := lawful_unitToRow unit now
  cases unit.kind with
  | package => exact writing_persist hrow.installed
  | sidecar =>
      refine Writing.bind (writing_quiet (uses_call trivial)) fun found _ => ?_
      cases found with
      | false => exact writing_persist hrow.installed
      | true =>
          refine writing_startSidecar.orReturn fun pid hpid => ?_
          exact writing_persist (hrow.running hpid _)

/-- The end of an upgrade and of a rollback: start the binary, if there is one. -/
theorem writing_restart {row : UnitRow} (h : row.Lawful) {binaryPath socket : String} :
    Writing (fun _ => True) (do
      if ← call (.pathExists binaryPath) then
        orReturn (startSidecar binaryPath socket) fun pid => persist (row.started pid)
      else persist row) := by
  refine Writing.bind (writing_quiet (uses_call trivial)) fun found _ => ?_
  cases found with
  | false => exact writing_persist h
  | true =>
      refine writing_startSidecar.orReturn fun pid hpid => ?_
      exact writing_persist (h.started hpid)

theorem writing_performRollback (spec : RollbackSpec) :
    Writing (fun _ => True) (performRollback digest unitName cacheDir socketDir spec) := by
  refine writing_quiet_orReturn quiet_fetch fun bytes => ?_
  refine writing_quiet_orReturn quiet_unpack fun extracted => ?_
  cases extracted with
  | false => trivial
  | true =>
      refine writing_getUnit.orReturn fun current hcurrent => ?_
      cases current with
      | none => trivial
      | some current =>
          refine Writing.bind (writing_quiet (uses_call trivial)) fun now _ => ?_
          have hrow := (hcurrent current rfl).atVersion spec.version now
          dsimp only
          split
          · exact writing_restart hrow
          · exact writing_persist hrow

theorem writing_giveUp (rollback : Option RollbackSpec) (message : String) :
    Writing (fun _ => True) (giveUp digest unitName cacheDir socketDir rollback message) := by
  cases rollback with
  | none => trivial
  | some spec =>
      have hrollback : Writing (fun result => ∀ value, result = .ok value → True)
          (performRollback digest unitName cacheDir socketDir spec) :=
        (writing_performRollback spec).mono fun _ _ _ _ _ => trivial
      exact hrollback.orReturn fun _ _ => trivial

theorem writing_startUpgraded (rollback : Option RollbackSpec) {row : UnitRow} (h : row.Lawful) :
    Writing (fun _ => True)
      (startUpgraded digest unitName cacheDir socketDir rollback row) := by
  unfold startUpgraded
  split
  · refine Writing.bind (writing_quiet (uses_call trivial)) fun found _ => ?_
    cases found with
    | false => exact writing_persist h
    | true =>
        refine writing_startSidecar.orReturn fun pid hpid => ?_
        refine (writing_quiet quiet_probeSidecar).bind fun healthy _ => ?_
        cases healthy with
        | true => exact writing_persist (h.started hpid)
        | false =>
            refine (writing_quiet (quiet_terminate _ _)).bind fun _ _ => ?_
            exact writing_giveUp _ _
  · exact writing_persist h

theorem writing_upgrade (targetVersion : String) (artifact : Artifact)
    (rollback : Option RollbackSpec) :
    Writing (fun _ => True)
      (upgrade digest unitName cacheDir socketDir targetVersion artifact rollback) := by
  refine writing_quiet_orReturn quiet_fetch fun bytes => ?_
  refine writing_getUnit.orReturn fun current hcurrent => ?_
  cases current with
  | none => trivial
  | some current =>
      refine (writing_quiet (quiet_stopCurrent current)).bind fun _ _ => ?_
      refine writing_quiet_orReturn quiet_unpack fun extracted => ?_
      cases extracted with
      | false => exact writing_giveUp _ _
      | true =>
          refine Writing.bind (writing_quiet (uses_call trivial)) fun now _ => ?_
          exact writing_startUpgraded rollback ((hcurrent current rfl).atVersion _ now)

end Tasks

/-! ### The checker -/

section Checker

variable {socketDir : String}

theorem lawful_sidecarHealth (response : Response) : LawfulHealth (sidecarHealth response) := by
  unfold sidecarHealth
  split
  · split <;> constructor <;> simp
  · split <;> constructor <;> simp

theorem lawful_packageHealth (answer : Option (Except String Output)) :
    LawfulHealth (packageHealth answer) := by
  unfold packageHealth
  split
  · split <;> constructor <;> simp
  · constructor <;> simp
  · constructor <;> simp

theorem writing_checkSidecar (unitName : String) :
    Writing LawfulHealth (checkSidecar socketDir unitName) := by
  intro answer _
  refine ⟨(), Monitor.checking_of_good trivial (), ?_⟩
  cases answer with
  | ok response => exact lawful_sidecarHealth response
  | error e => exact ⟨by simp, by simp⟩

theorem writing_checkPackage (unit : UnitRow) : Writing LawfulHealth (checkPackage unit) := by
  unfold checkPackage
  split
  · exact ⟨by simp, by simp⟩
  · intro answer _
    exact ⟨(), Monitor.checking_of_good trivial (), lawful_packageHealth answer⟩

theorem writing_writeBack {unit : UnitRow} (h : unit.Lawful) {health : String × Option String}
    (hhealth : LawfulHealth health) : Writing (fun _ => True) (writeBack unit health) := by
  unfold writeBack
  split
  · refine Writing.bind (writing_quiet (uses_call trivial)) fun now _ => ?_
    exact Writing.bind (writing_persist (h.withHealth hhealth now)) fun _ _ => trivial
  · trivial

theorem writing_checkUnits {units : List UnitRow} (h : ∀ unit ∈ units, unit.Lawful) :
    Writing (fun _ => True) (checkUnits socketDir units) := by
  induction units with
  | nil => trivial
  | cons unit rest ih =>
      simp only [List.forall_mem_cons] at h
      have hunit : Writing (fun _ => True) (checkUnit socketDir unit) := by
        unfold checkUnit
        split
        · trivial
        split
        · exact (writing_checkSidecar unit.name).bind fun _ => writing_writeBack h.1
        split
        · exact (writing_checkPackage unit).bind fun _ => writing_writeBack h.1
        · trivial
      exact hunit.bind fun _ _ => ih h.2

theorem writing_run (passes : Nat) : Writing (fun _ => True) (run socketDir passes) := by
  induction passes with
  | zero => trivial
  | succ passes ih =>
      refine Writing.bind (writing_quiet (uses_call trivial)) fun seconds _ => ?_
      refine Writing.bind (writing_quiet (uses_call trivial)) fun wake _ => ?_
      cases wake with
      | shutdown => trivial
      | slept =>
          have hpass : Writing (fun _ => True) (pass socketDir) := by
            intro listed hlisted
            refine ⟨(), Monitor.checking_of_good trivial (), ?_⟩
            cases listed with
            | error e => trivial
            | ok units => exact writing_checkUnits hlisted
          exact hpass.bind fun _ _ => ih

end Checker

theorem writing_program (setup : Setup) (job : UnitJob) :
    Writing (fun _ => True) (setup.program job) := by
  cases job with
  | checker passes => exact writing_run passes
  | task task =>
      have hperform : Writing (fun _ => True)
          (task.perform setup.digest setup.cacheDir setup.socketDir) := by
        cases task with
        | install task => exact writing_install task.unit
        | upgrade task => exact writing_upgrade _ _ _
        | remove task => exact fun _ _ => ⟨(), Monitor.checking_of_good trivial (), trivial⟩
      exact hperform.bind fun _ _ => trivial

/-! ## Runs -/

def LawfulTable (table : UnitTable) : Prop := ∀ row ∈ table.rows, row.Lawful

theorem LawfulTable.of_get {table : UnitTable} (h : LawfulTable table) {name : String}
    {row : UnitRow} (hrow : table.get name = some row) : row.Lawful := by
  apply h row
  rw [Store.Table.mem_rows, Store.Table.key_of_get hrow]
  exact hrow

theorem lawfulTable_of_get {table : UnitTable}
    (h : ∀ name row, table.get name = some row → row.Lawful) : LawfulTable table :=
  fun row hrow => h row.name row (Store.Table.mem_rows.mp hrow)

theorem LawfulTable.applyEvent {table : UnitTable} (h : LawfulTable table)
    {event : Event UnitSig} (hevent : WritesLawful event) :
    LawfulTable (applyEvent table event) := by
  obtain ⟨op, ans⟩ := event
  cases op with
  | upsertUnit row =>
      cases ans with
      | error e => exact h
      | ok _ =>
          refine lawfulTable_of_get fun name other hother => ?_
          change (table.upsert row).get name = some other at hother
          rw [Store.Table.get_upsert] at hother
          split at hother
          · cases hother
            exact hevent
          · exact h.of_get hother
  | removeUnit removed =>
      cases ans with
      | error e => exact h
      | ok _ =>
          refine lawfulTable_of_get fun name other hother => ?_
          change (table.remove removed).get name = some other at hother
          rw [Store.Table.get_remove] at hother
          split at hother
          · cases hother
          · exact h.of_get hother
  | _ => exact h

/-- The process id of a child is an `u32`. -/
def PidFits : Event UnitSig → Prop
  | ⟨.spawn .., .ok (some pid)⟩ => pid < 2 ^ 32
  | _ => True

def fittingPids (setup : Setup) : Policy setup.system where
  start _ _ := True
  fire _ _ event := PidFits event
  env _ _ := True

theorem proper_answer {table : UnitTable} (h : LawfulTable table) {op : UnitOp}
    {proposal : op.Ans} (hpid : PidFits ⟨op, answer table op proposal⟩) :
    Proper ⟨op, answer table op proposal⟩ := by
  cases op with
  | getUnit name =>
      cases proposal with
      | error e => trivial
      | ok found =>
          change Proper ⟨.getUnit name, .ok (table.get name)⟩
          cases hrow : table.get name with
          | none => trivial
          | some row => exact h.of_get hrow
  | listUnits =>
      cases proposal with
      | error e => trivial
      | ok rows => exact h
  | spawn program args =>
      cases proposal with
      | error e => trivial
      | ok found => cases found <;> exact hpid
  | _ => trivial

theorem rows_lawful {setup : Setup} {table : UnitTable} (htable : LawfulTable table)
    {pool : Pool setup.system} (run : Run (fittingPids setup) (Pool.initial table) pool) :
    LawfulTable pool.shared := by
  have hinvariant := run.invariant_of_projects
    (I := fun pool : Pool setup.system =>
      LawfulTable pool.shared ∧ ∀ entry ∈ pool.log, Proper entry.2)
    (Pool.initial_projects (Y := setup.system) table) ⟨htable, by simp [Pool.initial]⟩
    fun {before _} step hprojects h => ?_
  · exact hinvariant.2.1
  · cases step with
    | start _ _ => exact h
    | @env event _ _ _ => exact event.elim
    | @fire i job op next proposal ans shared hfuture hperform hpid =>
        cases hperform
        have hproper := proper_answer h.1 hpid
        have hsteps := (hprojects.steps i _ hfuture).snoc (answer before.shared op proposal)
        have hanswers : ∀ event ∈ before.history i ++ [⟨op, answer before.shared op proposal⟩],
            Proper event := by
          intro event hevent
          rcases List.mem_append.mp hevent with hevent | hevent
          · exact h.2 _ (Pool.mem_history.mp hevent)
          · rw [List.mem_singleton.mp hevent]
            exact hproper
        obtain ⟨_, hchecked, -⟩ := (writing_program setup job).steps hsteps hanswers
        have hgood := Monitor.good_of_checking hchecked
          ⟨op, answer before.shared op proposal⟩ (by simp)
        refine ⟨h.1.applyEvent hgood, fun entry hentry => ?_⟩
        rcases List.mem_append.mp hentry with hentry | hentry
        · exact h.2 entry hentry
        · rw [List.mem_singleton.mp hentry]
          exact hproper

end VasalAgent.Units
