import VasalAgent.Async.Pool
import VasalAgent.Task.ChainLaws
import VasalAgent.Units.Truth

/-!
# Writes of the health checker

The health checker lists the units, probes each of them and writes whole rows back,
while installs, upgrades and removals write to the same table.  `snapshot` follows
what a checker has listed, and the rows are gone when it is back at the head of its loop.
As long as nobody else writes to a unit that a checker has listed in its present pass, its
writes change nothing but the health (`noLostUpdate_of_undisturbed`).
-/

namespace VasalAgent.Units

open VasalAgent.Async
open VasalAgent.Task (Error)

/-! ## The system -/

inductive UnitJob where
  /-- `health::run`, for so many passes. -/
  | checker (passes : Nat)
  | task (task : UnitTask)

/-- Reads are answered from the table, unless the store fails. -/
def answer (table : UnitTable) : (op : UnitOp) → op.Ans → op.Ans
  | .getUnit name, .ok _ => .ok (table.get name)
  | .listUnits, .ok _ => .ok table.rows
  | _, ans => ans

structure Setup where
  digest : List UInt8 → String
  cacheDir : String
  socketDir : String

def Setup.program (setup : Setup) : UnitJob → Prog UnitSig Unit
  | .checker passes => run setup.socketDir passes
  | .task task => do
      let _ ← task.perform setup.digest setup.cacheDir setup.socketDir
      pure ()

abbrev Setup.system (setup : Setup) : System UnitSig where
  Job := UnitJob
  Shared := UnitTable
  Env := Empty
  program := setup.program
  perform table op proposal :=
    some (answer table op proposal, applyEvent table ⟨op, answer table op proposal⟩)
  spawned _ := none
  external _ := true
  environment _ event := nomatch event

/-! ## Lost updates -/

/-- The columns that the health checker has no business with. -/
def UnitRow.core (row : UnitRow) : UnitRow :=
  { row with health := none, healthError := none, updatedAt := 0 }

theorem name_eq_of_core {row other : UnitRow} (h : row.core = other.core) :
    row.name = other.name := by
  have hname : row.core.name = other.core.name := congrArg UnitRow.name h
  exact hname

variable {setup : Setup}

/--
A checker that is about to write finds the row in the table, and the write changes only
`health`, `health_error` and `updated_at` of it.
-/
def NoLostUpdate (pool : Pool setup.system) : Prop :=
  ∀ (i passes : Nat) (row : UnitRow) (next : Except Error Unit → Prog UnitSig Unit),
    pool.futures[i]? = some ⟨.checker passes, .call (.upsertUnit row) next⟩ →
    ∃ stored, pool.shared.get row.name = some stored ∧ row.core = stored.core

/-! ## Snapshots -/

/-- What a checker has listed in its present pass; `none` for other futures. -/
def snapshot : Monitor UnitSig (Option (List UnitRow))
  | none, _ => some none
  | some _, ⟨.listUnits, .ok listed⟩ => some (some listed)
  | some _, ⟨.checkInterval, _⟩ => some (some [])
  | some rows, ⟨.upsertUnit row, _⟩ =>
      if ∃ listed ∈ rows, listed.core = row.core then some (some rows) else none
  | some _, ⟨.removeUnit _, _⟩ => none
  | some rows, _ => some (some rows)

def UnitJob.listed : UnitJob → Option (List UnitRow)
  | .checker _ => some []
  | .task _ => none

section Checker

variable {socketDir : String}

/-- A program that keeps the snapshot. -/
def Keeps {α : Type} (rows : List UnitRow) (p : Prog UnitSig α) : Prop :=
  p.Ensures (fun _ => True) snapshot (fun _ q => q = some rows) (some rows)

theorem keeps_writeBack {rows : List UnitRow} {unit : UnitRow} (h : unit ∈ rows)
    (health : String × Option String) : Keeps rows (writeBack unit health) := by
  unfold writeBack
  split
  · intro now _
    refine ⟨some rows, rfl, fun ans _ => ⟨some rows, ?_, rfl⟩⟩
    exact if_pos ⟨unit, h, rfl⟩
  · rfl

theorem keeps_checkSidecar {rows : List UnitRow} {unitName : String} :
    Keeps rows (checkSidecar socketDir unitName) := by
  intro ans _
  refine ⟨some rows, rfl, ?_⟩
  cases ans <;> rfl

theorem keeps_checkPackage {rows : List UnitRow} (unit : UnitRow) :
    Keeps rows (checkPackage unit) := by
  unfold checkPackage
  split
  · rfl
  · exact fun ans _ => ⟨some rows, rfl, rfl⟩

theorem keeps_checkUnit {rows : List UnitRow} {unit : UnitRow} (h : unit ∈ rows) :
    Keeps rows (checkUnit socketDir unit) := by
  unfold checkUnit
  split
  · rfl
  split
  · exact keeps_checkSidecar.andThen fun health => keeps_writeBack h health
  split
  · exact (keeps_checkPackage unit).andThen fun health => keeps_writeBack h health
  · rfl

theorem keeps_checkUnits {rows units : List UnitRow} (h : ∀ unit ∈ units, unit ∈ rows) :
    Keeps rows (checkUnits socketDir units) := by
  induction units with
  | nil => rfl
  | cons unit rest ih =>
      simp only [List.forall_mem_cons] at h
      exact (keeps_checkUnit h.1).andThen fun _ => ih h.2

theorem snapshot_run (fuel : Nat) (rows : List UnitRow) :
    (run socketDir fuel).Ensures (fun _ => True) snapshot (fun _ _ => True) (some rows) := by
  induction fuel generalizing rows with
  | zero => trivial
  | succ fuel ih =>
      intro seconds _
      refine ⟨some [], rfl, fun wake _ => ⟨some [], rfl, ?_⟩⟩
      cases wake with
      | shutdown => trivial
      | slept =>
          intro ans _
          cases ans with
          | error e => exact ⟨some [], rfl, ih []⟩
          | ok units =>
              refine ⟨some units, rfl, ?_⟩
              exact (keeps_checkUnits fun _ h => h).andThen fun _ => ih units

theorem snapshot_none {α : Type} (p : Prog UnitSig α) :
    p.Ensures (fun _ => True) snapshot (fun _ _ => True) none := by
  induction p with
  | ret value => trivial
  | call op next ih => exact fun ans _ => ⟨none, rfl, ih ans⟩
  | hang => trivial

theorem snapshot_program (job : UnitJob) :
    (setup.program job).Ensures (fun _ => True) snapshot (fun _ _ => True) job.listed := by
  cases job with
  | checker passes => exact snapshot_run passes []
  | task task => exact snapshot_none _

end Checker

abbrev listedBy (pool : Pool setup.system) (i : Nat) : Option (Option (List UnitRow)) :=
  pool.stage snapshot UnitJob.listed i

/-- No pass is under way: the loop is at its head, or over. -/
def atHead : Prog UnitSig Unit → Bool
  | .call .checkInterval _ => true
  | .call _ _ => false
  | .ret _ => true
  | .hang => true

theorem atHead_call {op : UnitOp} (h : op ≠ .checkInterval)
    (next : op.Ans → Prog UnitSig Unit) : atHead (.call (S := UnitSig) op next) = false := by
  cases op <;> first | rfl | exact absurd rfl h

/-- The future has the rows of its present pass. -/
def Holds (pool : Pool setup.system) (i : Nat) (rows : List UnitRow) : Prop :=
  listedBy pool i = some (some rows) ∧
    ∀ future, pool.futures[i]? = some future → atHead future.rest = false

/-- The table has the listed rows, whatever their health is by now. -/
def Backs (table : UnitTable) (rows : List UnitRow) : Prop :=
  ∀ row ∈ rows, ∃ stored, table.get row.name = some stored ∧ stored.core = row.core

def Backed (pool : Pool setup.system) : Prop :=
  ∀ i rows, Holds pool i rows → Backs pool.shared rows

/-- The unit that a call writes to. -/
def UnitOp.written? : UnitOp → Option String
  | .upsertUnit row => some row.name
  | .removeUnit name => some name
  | _ => none

/--
A future that is not a checker writes to no unit that a checker has listed in its present
pass.
-/
abbrev undisturbed (setup : Setup) : Policy setup.system where
  start _ _ := True
  fire pool i event := listedBy pool i = some none → ∀ name, event.1.written? = some name →
    ∀ j rows, Holds pool j rows → ∀ row ∈ rows, row.name ≠ name
  env _ _ := True

/-! ## Steps -/

theorem backs_rows (table : UnitTable) : Backs table table.rows :=
  fun row hrow => ⟨row, Store.Table.get_of_mem hrow, rfl⟩

/-- A write to a unit that is not listed. -/
theorem Backs.applyEvent_ne {table : UnitTable} {rows : List UnitRow} (h : Backs table rows)
    {event : Event UnitSig}
    (hne : ∀ name, event.1.written? = some name → ∀ row ∈ rows, row.name ≠ name) :
    Backs (applyEvent table event) rows := by
  intro row hrow
  obtain ⟨stored, hstored, hcore⟩ := h row hrow
  refine ⟨stored, ?_, hcore⟩
  obtain ⟨op, ans⟩ := event
  unfold applyEvent
  split
  · next written _ heq =>
      cases heq
      rw [Store.Table.get_upsert, if_neg (Ne.symm (hne _ rfl row hrow)), hstored]
  · next name _ heq =>
      cases heq
      rw [Store.Table.get_remove, if_neg (Ne.symm (hne _ rfl row hrow)), hstored]
  · exact hstored

/-- A write of a row that differs from the one in the table only in its health. -/
theorem Backs.upsert {table : UnitTable} {rows : List UnitRow} (h : Backs table rows)
    {row stored : UnitRow} (hstored : table.get row.name = some stored)
    (hcore : stored.core = row.core) : Backs (table.upsert row) rows := by
  intro other hother
  rw [Store.Table.get_upsert]
  split
  · next heq =>
      obtain ⟨found, hfound, hsame⟩ := h other hother
      rw [← heq, hstored, Option.some.injEq] at hfound
      subst hfound
      exact ⟨row, rfl, hcore.symm.trans hsame⟩
  · exact h other hother

/-- What a call of a checker does to the table and to its snapshot. -/
theorem snapshot_step {table : UnitTable} {rows : List UnitRow} {op : UnitOp}
    {proposal : op.Ans} {q : Option (List UnitRow)} (h : op ≠ .checkInterval → Backs table rows)
    (hq : snapshot (some rows) ⟨op, answer table op proposal⟩ = some q) :
    (∀ others, Backs table others →
      Backs (applyEvent table ⟨op, answer table op proposal⟩) others) ∧
      ∀ listed, q = some listed →
        Backs (applyEvent table ⟨op, answer table op proposal⟩) listed := by
  have hquiet (hop : op.quiet) (others : List UnitRow) (hothers : Backs table others) :
      Backs (applyEvent table ⟨op, answer table op proposal⟩) others := by
    rwa [applyEvent_quiet hop]
  cases op with
  | upsertUnit row =>
      simp only [snapshot, Option.ite_none_right_eq_some, Option.some.injEq] at hq
      obtain ⟨⟨listed, hlisted, hcore⟩, rfl⟩ := hq
      have hrows := h (by simp)
      obtain ⟨stored, hstored, hsame⟩ := hrows listed hlisted
      rw [name_eq_of_core hcore] at hstored
      have hkept (others : List UnitRow) (hothers : Backs table others) :
          Backs (applyEvent table ⟨.upsertUnit row, proposal⟩) others := by
        cases proposal with
        | error e => exact hothers
        | ok _ => exact hothers.upsert hstored (hsame.trans hcore)
      refine ⟨hkept, ?_⟩
      rintro _ ⟨⟩
      exact hkept rows hrows
  | removeUnit name => cases hq
  | listUnits =>
      refine ⟨hquiet trivial, ?_⟩
      cases proposal with
      | error e =>
          cases hq
          rintro _ ⟨⟩
          exact h (by simp)
      | ok _ =>
          cases hq
          rintro _ ⟨⟩
          exact backs_rows table
  | checkInterval =>
      refine ⟨hquiet trivial, ?_⟩
      cases hq
      rintro _ ⟨⟩
      simp [Backs]
  | _ =>
      refine ⟨hquiet trivial, ?_⟩
      cases hq
      rintro _ ⟨⟩
      exact hquiet trivial rows (h (by simp))

theorem backed_step {pool next : Pool setup.system} (step : Step (undisturbed setup) pool next)
    (hprojects : pool.Projects) (h : Backed pool) : Backed next := by
  cases step with
  | @start job _ _ =>
      rintro i rows ⟨hrows, hpass⟩
      rw [listedBy, Pool.stage_launch _ _ hprojects, Function.update_apply] at hrows
      split at hrows
      · cases job with
        | checker passes =>
            cases hrows
            simp [Backs, Pool.launch]
        | task task => cases hrows
      · next hold =>
          refine h i rows ⟨hrows, fun future hfuture => hpass future ?_⟩
          rw [Pool.getElem?_launch, if_neg hold, hfuture]
  | @fire i job op cont proposal ans shared hfuture hperform allowed =>
      cases hperform
      obtain ⟨q, q', hq, hq'⟩ :=
        hprojects.accepts snapshot_program hfuture (answer pool.shared op proposal)
      rintro j rows ⟨hrows, hpass⟩
      rw [listedBy, Pool.stage_advance_single _ _ hprojects hfuture hq hq' rfl,
        Function.update_apply] at hrows
      have hother (hne : j ≠ i) (hrows : listedBy pool j = some (some rows)) :
          Holds pool j rows := by
        refine ⟨hrows, fun future hstays => hpass future ?_⟩
        have hlast : j ≠ pool.futures.length :=
          Nat.ne_of_lt (List.getElem?_eq_some_iff.mp hstays).1
        rw [Pool.getElem?_advance hfuture, if_neg hne, if_neg hlast, hstays]
      cases q with
      | none =>
          cases hq'
          split at hrows
          · cases hrows
          · next hne =>
              exact (h j rows (hother hne hrows)).applyEvent_ne fun name hname =>
                allowed hq name hname j rows (hother hne hrows)
      | some listed =>
          -- a call that is not at the head of the loop is made within a pass
          have hholds (hop : op ≠ .checkInterval) : Holds pool i listed := by
            refine ⟨hq, fun future hsame => ?_⟩
            rw [hfuture, Option.some.injEq] at hsame
            subst hsame
            exact atHead_call hop cont
          obtain ⟨hothers, hown⟩ := snapshot_step (fun hop => h i listed (hholds hop)) hq'
          split at hrows
          · exact hown rows (Option.some.inj hrows)
          · next hne => exact hothers rows (h j rows (hother hne hrows))
  | @env event _ _ _ => exact event.elim

/-! ## Runs -/

/-- A checker stays a checker. -/
theorem snapshot_isSome {q q' : Option (List UnitRow)} {event : Event UnitSig}
    (h : snapshot q event = some q') : q'.isSome = q.isSome := by
  unfold snapshot at h
  split at h <;> simp_all <;> grind

theorem listedBy_checker {pool : Pool setup.system} {i passes : Nat} {rest : Prog UnitSig Unit}
    (hfuture : pool.futures[i]? = some ⟨.checker passes, rest⟩) {q : Option (List UnitRow)}
    (hq : listedBy pool i = some q) : ∃ rows, q = some rows := by
  rw [listedBy, Pool.stage, hfuture, Option.bind_some] at hq
  let kind : Monitor UnitSig Bool := fun checker _ => some checker
  have hkind : kind.after true (pool.history i) = some q.isSome :=
    snapshot.after_map (f := Option.isSome)
      (fun _ _ _ h => congrArg some (snapshot_isSome h).symm) hq
  rw [kind.after_neutral fun _ _ => rfl, Option.some.injEq, eq_comm] at hkind
  exact Option.isSome_iff_exists.mp hkind

/--
In every run in which nobody else writes to a unit that a checker has listed, the checker's
writes lose no update.
-/
theorem noLostUpdate_of_undisturbed {table : UnitTable} {pool : Pool setup.system}
    (run : Run (undisturbed setup) (Pool.initial table) pool) : NoLostUpdate pool := by
  have hinitial : Backed (Pool.initial table : Pool setup.system) := by
    rintro i rows ⟨hrows, -⟩
    cases hrows
  obtain ⟨hprojects, hbacked⟩ :=
    run.invariant_of_projects (Pool.initial_projects (Y := setup.system) table) hinitial backed_step
  intro i passes row next hfuture
  obtain ⟨q, q', hq, hq'⟩ := hprojects.accepts snapshot_program hfuture (.ok ())
  obtain ⟨rows, rfl⟩ := listedBy_checker hfuture hq
  simp only [snapshot, Option.ite_none_right_eq_some] at hq'
  obtain ⟨⟨listed, hlisted, hcore⟩, -⟩ := hq'
  have hholds : Holds pool i rows := by
    refine ⟨hq, fun future hsame => ?_⟩
    rw [hfuture, Option.some.injEq] at hsame
    subst hsame
    rfl
  obtain ⟨stored, hstored, hsame⟩ := hbacked i rows hholds listed hlisted
  rw [name_eq_of_core hcore] at hstored
  exact ⟨stored, hstored, (hsame.trans hcore).symm⟩

/-! ## Lost updates of the source -/

section Sample

def sampleSetup : Setup := ⟨fun _ => "00", "/cache", "/run"⟩

def sampleRow : UnitRow :=
  ⟨"echo", "package", "1.0.0", "installed", none, none, none, none, none, 0⟩

def sampleTable : UnitTable := Store.Table.empty.upsert sampleRow

def sampleUpgrade : UnitTask :=
  .upgrade ⟨⟨3⟩, .normal, [], "echo", "2.0.0", ⟨"https://cp/echo.tgz", "00"⟩, none⟩

/-- Files are there; downloads, processes and writes succeed. -/
def agreeable : (op : UnitOp) → op.Ans
  | .get _ => .ok ⟨200, "200 OK"⟩
  | .bytes _ => .ok []
  | .createDirAll _ | .write .. | .setPermissions .. | .upsertUnit _ | .removeUnit _ => .ok ()
  | .pathExists _ => true
  | .status .. => .ok (some 0)
  | .spawn .. => .ok none
  | .nowMs => (5 : Int)
  | .selectCheck _ => .slept
  | .getUnit _ => .ok none
  | .listUnits => .ok []
  | .route op => (Task.sampleWorld Task.exitsZero none).oracle op
  | _ => default

/-- The checker lists the unit and comes to the point of writing it back. -/
def checkedOnce : List (Label sampleSetup.system) :=
  .start (.checker 1) :: List.replicate 4 (.fire 0 agreeable)

/-- The unit is upgraded while the checker sleeps, and listed after that. -/
def checkedAfter : List (Label sampleSetup.system) :=
  .start (.checker 1) :: .fire 0 agreeable :: .start (.task sampleUpgrade) ::
    (List.replicate 8 (.fire 1 agreeable) ++ List.replicate 3 (.fire 0 agreeable))

/-- Meanwhile another future writes. -/
def checkedDuring (task : UnitTask) (calls : Nat) : List (Label sampleSetup.system) :=
  checkedOnce ++ .start (.task task) :: List.replicate calls (.fire 1 agreeable)

def sampleStart : Pool sampleSetup.system := Pool.initial sampleTable

/-- The row that the checker is about to write. -/
def pendingWrite (pool : Pool sampleSetup.system) : Option UnitRow :=
  pool.futures[0]?.bind fun future =>
    match (future.job : UnitJob), future.rest with
    | .checker _, .call (.upsertUnit row) _ => some row
    | _, _ => none

theorem noLostUpdate_checkedAfter :
    ∃ pool, Run (undisturbed sampleSetup) sampleStart pool ∧
      pool.shared.get "echo" = some (sampleRow.atVersion "2.0.0" 5) ∧
      pendingWrite pool = some ((sampleRow.atVersion "2.0.0" 5).withHealth "ok" none 5) ∧
      NoLostUpdate pool := by
  have follows : Pool.Follows (undisturbed sampleSetup) sampleStart checkedAfter := by
    refine .cons trivial rfl (.cons (Pool.allows_performed rfl rfl (fun h => by cases h)) rfl
      (.cons trivial rfl ?_))
    iterate 7 refine .cons (Pool.allows_performed rfl rfl (fun _ _ h => by cases h)) rfl ?_
    -- the upgrade writes its row: the checker has listed nothing yet
    refine .cons (Pool.allows_performed rfl rfl fun _ _ _ j rows hholds => ?_) rfl ?_
    · have hrows := hholds.1
      match j with
      | 0 =>
          cases hrows
          simp
      | 1 => cases hrows
      | j + 2 => cases hrows
    iterate 3 refine .cons (Pool.allows_performed rfl rfl (fun h => by cases h)) rfl ?_
    trivial
  have run : Run (undisturbed sampleSetup) sampleStart
      ((sampleStart.script checkedAfter).get rfl) :=
    Pool.run_script follows
  exact ⟨_, run, rfl, rfl, noLostUpdate_of_undisturbed run⟩

theorem not_noLostUpdate {pool : Pool sampleSetup.system} {row : UnitRow}
    (hpending : pendingWrite pool = some row)
    (hlost : ∀ stored, pool.shared.get row.name = some stored → row.core ≠ stored.core) :
    ¬ NoLostUpdate pool := by
  intro h
  obtain ⟨⟨job, rest⟩, hfuture, hwrite⟩ := Option.bind_eq_some_iff.mp hpending
  dsimp only at hwrite
  split at hwrite
  · next passes written next =>
      cases hwrite
      obtain ⟨stored, hstored, hcore⟩ := h 0 passes _ next hfuture
      exact hlost stored hstored hcore
  · cases hwrite

/-- An upgrade is reverted, and a unit that was removed is created again. -/
theorem checker_loses_updates :
    (∃ pool, Run (Policy.free sampleSetup.system) sampleStart pool ∧
      pendingWrite pool = some (sampleRow.withHealth "ok" none 5) ∧
      pool.shared.get "echo" = some (sampleRow.atVersion "2.0.0" 5) ∧ ¬ NoLostUpdate pool) ∧
    ∃ pool, Run (Policy.free sampleSetup.system) sampleStart pool ∧
      pendingWrite pool = some (sampleRow.withHealth "ok" none 5) ∧
      pool.shared.get "echo" = none ∧ ¬ NoLostUpdate pool := by
  constructor
  · have run : Run (Policy.free sampleSetup.system) sampleStart
        ((sampleStart.script (checkedDuring sampleUpgrade 8)).get rfl) :=
      Pool.run_script_free rfl
    refine ⟨_, run, rfl, rfl, not_noLostUpdate rfl ?_⟩
    rintro stored ⟨⟩
    decide
  · have run : Run (Policy.free sampleSetup.system) sampleStart
        ((sampleStart.script (checkedDuring sampleRemoval 1)).get rfl) :=
      Pool.run_script_free rfl
    refine ⟨_, run, rfl, rfl, not_noLostUpdate rfl ?_⟩
    rintro stored ⟨⟩

end Sample

end VasalAgent.Units
