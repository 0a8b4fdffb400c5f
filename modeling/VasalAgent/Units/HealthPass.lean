import VasalAgent.Async.Environment
import VasalAgent.Units.Declared
import VasalAgent.Units.LostUpdate

/-!
# A pass of the health checker

A pass that nobody disturbs gives each unit that is checked the health its own check
reported and leaves everything else in the table as it was.  A second pass in which
the checks report the same writes nothing.
-/

namespace VasalAgent.Units

open VasalAgent.Async
open VasalAgent.Protocol
open VasalAgent.Serde
open VasalAgent.Task (Error)

/-! ## The table as the environment -/

/-- Reads are answered from the table, every call can fail, and nobody else writes. -/
def served : Environment UnitSig UnitTable := fun table event after =>
  answer table event.1 event.2 = event.2 ∧ after = applyEvent table event

theorem tableAfter_of_trail {table after : UnitTable} {events : List (Event UnitSig)}
    (h : Trail served table events after) : after = tableAfter table events := by
  induction h with
  | nil table => rfl
  | cons first _ ih =>
      rw [ih, first.2]
      rfl

/-! ## What the checks report -/

/-- The units that a pass looks at. -/
def UnitRow.checkable (unit : UnitRow) : Prop :=
  (unit.state = "running" ∨ unit.state = "installed") ∧
    (unit.kind = "sidecar" ∨ unit.kind = "package")

/-- The calls of a unit's own check and the health that their answers stand for. -/
inductive Check (socketDir : String) (unit : UnitRow) :
    List (Event UnitSig) → String × Option String → Prop
  | answered (hkind : unit.kind = "sidecar") (response : Response) :
      Check socketDir unit
        [⟨.callRaw (socketPathFor socketDir unit.name) "health" none, .ok response⟩]
        (sidecarHealth response)
  | unreachable (hkind : unit.kind = "sidecar") (e : Error) :
      Check socketDir unit
        [⟨.callRaw (socketPathFor socketDir unit.name) "health" none, .error e⟩]
        ("unhealthy", some e.toString)
  | undeclared (hkind : unit.kind = "package") (hcommand : checkCommand unit.configJson = none) :
      Check socketDir unit [] ("ok", none)
  | ended (hkind : unit.kind = "package") {command : String} {timeoutMs : Nat}
      (hcommand : checkCommand unit.configJson = some (command, timeoutMs))
      (result : Option (Except String Output)) :
      Check socketDir unit [⟨.output command timeoutMs, result⟩] (packageHealth result)

/-- What was written for a unit after its check. -/
inductive WroteBack (unit : UnitRow) (health : String × Option String) :
    List (Event UnitSig) → Prop
  | unchanged (hhealth : unit.health = some health.1) (herror : unit.healthError = health.2) :
      WroteBack unit health []
  | stored (hchanged : ¬ (unit.health = some health.1 ∧ unit.healthError = health.2)) (now : Int)
      (ans : Except Error Unit) :
      WroteBack unit health
        [⟨.nowMs, now⟩, ⟨.upsertUnit (unit.withHealth health.1 health.2 now), ans⟩]

/--
The calls of a pass over these units, one unit after the other: each part is the unit's
own check, which reported `reports unit.name`, and what was written for it.
-/
inductive Checks (socketDir : String) (reports : String → String × Option String) :
    List UnitRow → List (Event UnitSig) → Prop
  | nil : Checks socketDir reports [] []
  | skipped {unit : UnitRow} {units : List UnitRow} {events : List (Event UnitSig)}
      (hnot : ¬ unit.checkable) (rest : Checks socketDir reports units events) :
      Checks socketDir reports (unit :: units) events
  | checked {unit : UnitRow} {units : List UnitRow} {calls written events : List (Event UnitSig)}
      (hcheckable : unit.checkable) (own : Check socketDir unit calls (reports unit.name))
      (wrote : WroteBack unit (reports unit.name) written)
      (rest : Checks socketDir reports units events) :
      Checks socketDir reports (unit :: units) (calls ++ (written ++ events))

section Steps

variable {socketDir : String} {unit : UnitRow} {events : List (Event UnitSig)}

theorem check_of_checkSidecar (hkind : unit.kind = "sidecar") {health : String × Option String}
    (h : (checkSidecar socketDir unit.name).Steps events (.ret health)) :
    Check socketDir unit events health := by
  cases h with
  | @call _ _ ans _ _ hret =>
      cases ans with
      | ok response =>
          cases hret
          exact .answered hkind response
      | error e =>
          cases hret
          exact .unreachable hkind e

theorem check_of_checkPackage (hkind : unit.kind = "package") {health : String × Option String}
    (h : (checkPackage unit).Steps events (.ret health)) : Check socketDir unit events health := by
  unfold checkPackage at h
  split at h
  · next hcommand =>
      cases h
      exact .undeclared hkind hcommand
  · next command timeoutMs hcommand =>
      cases h with
      | @call _ _ result _ _ hret =>
          cases hret
          exact .ended hkind hcommand result

theorem wroteBack_of_steps {health : String × Option String}
    (h : (writeBack unit health).Steps events (.ret ())) : WroteBack unit health events := by
  unfold writeBack at h
  split at h
  · next hchanged =>
      cases h with
      | @call _ _ now _ _ h =>
          cases h with
          | @call _ _ ans _ _ h =>
              cases h
              exact .stored (by tauto) now ans
  · next hsame =>
      cases h
      rw [not_or, not_not, not_not] at hsame
      exact .unchanged hsame.1 hsame.2

theorem checkUnit_skips (h : ¬ unit.checkable) : checkUnit socketDir unit = pure () := by
  unfold checkUnit
  unfold UnitRow.checkable at h
  split
  · rfl
  · rw [if_neg (by tauto), if_neg (by tauto)]

theorem check_of_checkUnit (hcheckable : unit.checkable)
    (h : (checkUnit socketDir unit).Steps events (.ret ())) :
    ∃ calls written health, events = calls ++ written ∧ Check socketDir unit calls health ∧
      WroteBack unit health written := by
  obtain ⟨hstate, hkind⟩ := hcheckable
  unfold checkUnit at h
  rw [if_neg (by tauto)] at h
  split at h
  · next hsidecar =>
      obtain ⟨calls, written, health, rfl, hcheck, hwrite⟩ := h.bind_ret
      exact ⟨calls, written, health, rfl, check_of_checkSidecar hsidecar hcheck,
        wroteBack_of_steps hwrite⟩
  · next hsidecar =>
      have hpackage := hkind.resolve_left hsidecar
      rw [if_pos hpackage] at h
      obtain ⟨calls, written, health, rfl, hcheck, hwrite⟩ := h.bind_ret
      exact ⟨calls, written, health, rfl, check_of_checkPackage hpackage hcheck,
        wroteBack_of_steps hwrite⟩

theorem Checks.congr {reports other : String → String × Option String} {units : List UnitRow}
    (h : Checks socketDir reports units events)
    (hsame : ∀ unit ∈ units, other unit.name = reports unit.name) :
    Checks socketDir other units events := by
  induction h with
  | nil => exact .nil
  | skipped hnot _ ih => exact .skipped hnot (ih (List.forall_mem_cons.mp hsame).2)
  | checked hcheckable own wrote _ ih =>
      rw [List.forall_mem_cons] at hsame
      exact .checked hcheckable (hsame.1 ▸ own) (hsame.1 ▸ wrote) (ih hsame.2)

/-- Rows that are sorted by their names have no name in common. -/
theorem name_ne_of_sorted {units : List UnitRow}
    (h : Store.SortedRows UnitRow.name (unit :: units)) :
    ∀ other ∈ units, other.name ≠ unit.name := by
  intro other hother heq
  exact String.lt_irrefl unit.name (heq ▸ (List.pairwise_cons.mp h).1 other hother)

theorem checks_of_checkUnits {units : List UnitRow}
    (hsorted : Store.SortedRows UnitRow.name units)
    (h : (checkUnits socketDir units).Steps events (.ret ())) :
    ∃ reports, Checks socketDir reports units events := by
  induction units generalizing events with
  | nil =>
      cases h
      exact ⟨fun _ => ("", none), .nil⟩
  | cons unit rest ih =>
      obtain ⟨first, second, _, rfl, hunit, hrest⟩ := h.bind_ret
      obtain ⟨reports, hreports⟩ := ih (List.pairwise_cons.mp hsorted).2 hrest
      by_cases hcheckable : unit.checkable
      · obtain ⟨calls, written, health, rfl, hcheck, hwrote⟩ := check_of_checkUnit hcheckable hunit
        refine ⟨Function.update reports unit.name health, ?_⟩
        rw [List.append_assoc]
        refine .checked hcheckable ?_ ?_ (hreports.congr fun other hother => ?_)
        · rwa [Function.update_self]
        · rwa [Function.update_self]
        · exact Function.update_of_ne (name_ne_of_sorted hsorted other hother) ..
      · rw [checkUnit_skips hcheckable] at hunit
        cases hunit
        exact ⟨reports, .skipped hcheckable hreports⟩

theorem steps_of_check {calls written : List (Event UnitSig)} {health : String × Option String}
    (hcheckable : unit.checkable) (hcheck : Check socketDir unit calls health)
    (hwrote : WroteBack unit health written) :
    (checkUnit socketDir unit).Steps (calls ++ written) (.ret ()) := by
  have hwrite : (writeBack unit health).Steps written (.ret ()) := by
    unfold writeBack
    cases hwrote with
    | unchanged hhealth herror =>
        rw [if_neg (by simp [hhealth, herror])]
        exact .refl _
    | stored hchanged now ans =>
        rw [if_pos (by tauto)]
        exact .call (.call (.refl _))
  have hstate := hcheckable.1
  unfold checkUnit
  rw [if_neg (by tauto)]
  cases hcheck with
  | answered hkind | unreachable hkind =>
      rw [if_pos hkind]
      exact .call hwrite
  | undeclared hkind hcommand | ended hkind hcommand =>
      rw [if_neg (by simp [hkind]), if_pos hkind, checkPackage, hcommand]
      first | exact hwrite | exact .call hwrite

/-- Nothing more can be said of the calls of a pass. -/
theorem steps_of_checks {reports : String → String × Option String} {units : List UnitRow}
    (h : Checks socketDir reports units events) :
    (checkUnits socketDir units).Steps events (.ret ()) := by
  induction h with
  | nil => exact .refl _
  | @skipped unit units events hnot _ ih =>
      have hskips : checkUnits socketDir (unit :: units) = checkUnits socketDir units := by
        rw [checkUnits, checkUnit_skips hnot]
        rfl
      rwa [hskips]
  | checked hcheckable own wrote _ ih =>
      rw [← List.append_assoc]
      exact (steps_of_check hcheckable own wrote).bind ih

theorem Check.quiet {health : String × Option String} (h : Check socketDir unit events health) :
    ∀ event ∈ events, event.1.quiet := by
  cases h <;> simp [UnitOp.quiet]

end Steps

/-! ## The whole table -/

def WriteFailed (unit : UnitRow) (events : List (Event UnitSig)) : Prop :=
  ∃ row e, row.name = unit.name ∧ ⟨.upsertUnit row, .error e⟩ ∈ events

/-- What a pass with these calls makes of a row whose check reports `health`. -/
structure Refreshed (events : List (Event UnitSig)) (health : String × Option String)
    (before after : UnitRow) : Prop where
  core : after.core = before.core
  skipped : ¬ before.checkable → after = before
  checked : before.checkable →
    after.health = some health.1 ∧ after.healthError = health.2 ∨
      after = before ∧ WriteFailed before events

section Pass

variable {socketDir : String} {reports : String → String × Option String}
  {table after : UnitTable} {events : List (Event UnitSig)}

theorem Refreshed.mono {part : List (Event UnitSig)} {health : String × Option String}
    {before row : UnitRow} (h : Refreshed part health before row)
    (hpart : ∀ event ∈ part, event ∈ events) : Refreshed events health before row where
  core := h.core
  skipped := h.skipped
  checked hcheckable := by
    rcases h.checked hcheckable with hwritten | ⟨hsame, failed, e, hname, hmem⟩
    · exact .inl hwritten
    · exact .inr ⟨hsame, failed, e, hname, hpart _ hmem⟩

/-- What is written for a unit refreshes its row and touches no other. -/
theorem WroteBack.refreshed {unit : UnitRow} {health : String × Option String}
    (h : WroteBack unit health events) (hcheckable : unit.checkable)
    (hstored : table.get unit.name = some unit) :
    (∀ name, name ≠ unit.name → (tableAfter table events).get name = table.get name) ∧
      ∃ row, (tableAfter table events).get unit.name = some row ∧
        Refreshed events health unit row := by
  have hresult : ∀ row, row.core = unit.core →
      (row.health = some health.1 ∧ row.healthError = health.2 ∨
        row = unit ∧ WriteFailed unit events) → Refreshed events health unit row :=
    fun row hcore hrow => ⟨hcore, fun hnot => absurd hcheckable hnot, fun _ => hrow⟩
  cases h with
  | unchanged hhealth herror =>
      exact ⟨fun _ _ => rfl, unit, hstored, hresult unit rfl (.inl ⟨hhealth, herror⟩)⟩
  | stored hchanged now ans =>
      cases ans with
      | ok _ =>
          refine ⟨fun name hne => ?_, unit.withHealth health.1 health.2 now, ?_, ?_⟩
          · exact (Store.Table.get_upsert ..).trans (if_neg hne.symm)
          · exact (Store.Table.get_upsert ..).trans (if_pos rfl)
          · exact hresult _ rfl (.inl ⟨rfl, rfl⟩)
      | error e =>
          refine ⟨fun _ _ => rfl, unit, hstored, hresult unit rfl (.inr ⟨rfl, ?_⟩)⟩
          exact ⟨unit.withHealth health.1 health.2 now, e, rfl, by simp⟩

theorem refreshed_of_checks {units : List UnitRow} (h : Checks socketDir reports units events)
    (hsorted : Store.SortedRows UnitRow.name units)
    (hstored : ∀ unit ∈ units, table.get unit.name = some unit) :
    (∀ name, (∀ unit ∈ units, unit.name ≠ name) →
        (tableAfter table events).get name = table.get name) ∧
      ∀ unit ∈ units, ∃ row, (tableAfter table events).get unit.name = some row ∧
        Refreshed events (reports unit.name) unit row := by
  induction h generalizing table with
  | nil => exact ⟨fun _ _ => rfl, fun unit hunit => absurd hunit List.not_mem_nil⟩
  | @skipped unit units events hnot _ ih =>
      rw [List.forall_mem_cons] at hstored
      obtain ⟨hothers, hrows⟩ := ih (List.pairwise_cons.mp hsorted).2 hstored.2
      refine ⟨fun name hname => hothers name (List.forall_mem_cons.mp hname).2, ?_⟩
      rw [List.forall_mem_cons]
      refine ⟨⟨unit, ?_, rfl, fun _ => rfl, fun hyes => absurd hyes hnot⟩, hrows⟩
      rw [hothers unit.name (name_ne_of_sorted hsorted), hstored.1]
  | @checked unit units calls written events hcheckable own wrote _ ih =>
      -- names do not repeat, so the check of this unit leaves the rows of the others alone
      have hne := name_ne_of_sorted hsorted
      have hafter : tableAfter table (calls ++ (written ++ events)) =
          tableAfter (tableAfter table written) events := by
        rw [tableAfter, List.foldl_append, List.foldl_append]
        rw [show calls.foldl applyEvent table = table from tableAfter_quiet own.quiet table]
        rfl
      rw [hafter]
      rw [List.forall_mem_cons] at hstored
      obtain ⟨hframe, row, hrow, hrefreshed⟩ := wrote.refreshed hcheckable hstored.1
      obtain ⟨hothers, hrows⟩ := ih (List.pairwise_cons.mp hsorted).2 fun other hother =>
        (hframe _ (hne other hother)).trans (hstored.2 other hother)
      refine ⟨fun name hname => ?_, List.forall_mem_cons.mpr ⟨⟨row, ?_, ?_⟩, ?_⟩⟩
      · rw [List.forall_mem_cons] at hname
        exact (hothers name hname.2).trans (hframe name hname.1.symm)
      · rw [hothers unit.name hne, hrow]
      · exact hrefreshed.mono fun event hevent => by simp [hevent]
      · intro other hother
        obtain ⟨row, hrow, hrefreshed⟩ := hrows other hother
        exact ⟨row, hrow, hrefreshed.mono fun event hevent => by simp [hevent]⟩

theorem pass_inv (h : Ran served table (pass socketDir) events after ()) :
    (∃ e, events = [⟨.listUnits, .error e⟩] ∧ after = table) ∨
      ∃ calls, events = ⟨.listUnits, .ok table.rows⟩ :: calls ∧
        (checkUnits socketDir table.rows).Steps calls (.ret ()) ∧
          after = tableAfter table calls := by
  obtain ⟨listed, calls, mid, rfl, hlisted, h⟩ := h.call_inv
  have hmid : mid = table := hlisted.2
  rw [hmid] at h
  cases listed with
  | error e =>
      obtain ⟨rfl, rfl, -⟩ := h.ret_inv
      exact .inl ⟨e, rfl, rfl⟩
  | ok units =>
      cases hlisted.1
      exact .inr ⟨calls, rfl, h.steps, tableAfter_of_trail h.trail⟩

theorem rel_of_checks (h : Checks socketDir reports table.rows events) (name : String) :
    Option.Rel (Refreshed events (reports name)) (table.get name)
      ((tableAfter table events).get name) := by
  obtain ⟨hothers, hrows⟩ := refreshed_of_checks h table.sorted
    fun unit hunit => Store.Table.get_of_mem hunit
  cases hname : table.get name with
  | none =>
      have hnone : (tableAfter table events).get name = none := by
        rw [hothers name fun unit hunit heq => ?_]
        · exact hname
        · rw [← heq, Store.Table.get_of_mem hunit] at hname
          cases hname
      rw [hnone]
      exact .none
  | some unit =>
      have hkey : unit.name = name := Store.Table.key_of_get hname
      have hunit : unit ∈ table.rows := Store.Table.mem_rows.mpr (hkey ▸ hname)
      obtain ⟨row, hrow, hrefreshed⟩ := hrows unit hunit
      rw [← hkey, hrow]
      exact .some hrefreshed

theorem idle_of_checks {units : List UnitRow} (h : Checks socketDir reports units events)
    (hup : ∀ unit ∈ units, unit.checkable →
      unit.health = some (reports unit.name).1 ∧ unit.healthError = (reports unit.name).2) :
    ∀ event ∈ events, event.1.quiet := by
  induction h with
  | nil => simp
  | skipped _ _ ih => exact ih (List.forall_mem_cons.mp hup).2
  | checked hcheckable own wrote _ ih =>
      rw [List.forall_mem_cons] at hup
      cases wrote with
      | unchanged => exact List.forall_mem_append.mpr ⟨own.quiet, ih hup.2⟩
      | stored hchanged => exact absurd (hup.1 hcheckable) hchanged

theorem upToDate_of_checks (h : Checks socketDir reports table.rows events)
    (hwritten : ∀ row e, ⟨.upsertUnit row, .error e⟩ ∉ events) :
    ∀ unit ∈ (tableAfter table events).rows, unit.checkable →
      unit.health = some (reports unit.name).1 ∧ unit.healthError = (reports unit.name).2 := by
  intro unit hunit hcheckable
  have hrel := rel_of_checks h unit.name
  rw [Store.Table.mem_rows.mp hunit] at hrel
  generalize table.get unit.name = stored at hrel
  cases hrel with
  | @some before _ hrefreshed =>
      by_cases hchecked : before.checkable
      · rcases hrefreshed.checked hchecked with hhealth | ⟨-, row, e, -, hmem⟩
        · exact hhealth
        · exact absurd hmem (hwritten row e)
      · rw [hrefreshed.skipped hchecked] at hcheckable
        exact absurd hcheckable hchecked

/-- After one pass without failed writes, a pass with the same reports writes nothing. -/
theorem second_pass_idle {mid : UnitTable} {calls later : List (Event UnitSig)}
    (hfirst : Ran served table (pass socketDir) (⟨.listUnits, .ok table.rows⟩ :: calls) mid ())
    (hwritten : ∀ row e, ⟨.upsertUnit row, .error e⟩ ∉ calls)
    (hreports : Checks socketDir reports table.rows calls)
    (hsecond : Ran served mid (pass socketDir) (⟨.listUnits, .ok mid.rows⟩ :: later) after ())
    (hagain : Checks socketDir reports mid.rows later) :
    after = mid ∧ ∀ event ∈ later, event.1.quiet := by
  rcases pass_inv hfirst with ⟨e, hevents, -⟩ | ⟨_, ⟨⟩, -, rfl⟩
  · cases hevents
  rcases pass_inv hsecond with ⟨e, hevents, -⟩ | ⟨_, ⟨⟩, -, rfl⟩
  · cases hevents
  have hquiet := idle_of_checks hagain (upToDate_of_checks hreports hwritten)
  exact ⟨tableAfter_quiet hquiet _, hquiet⟩

end Pass

/-! ## Two packages with one command -/

section Sample

def packageRow (name : String) : UnitRow :=
  ⟨name, "package", "1.0.0", "installed", none, none, none, none, some repeatedCheck.render, 0⟩

theorem checkCommand_packageRow (name : String) :
    checkCommand (packageRow name).configJson = some ("pgrep echo", 1000) := by
  have hlawful : Lawful (settled repeatedCheck) := lawful_settled rfl
  exact checkCommand_render hlawful

def twoPackages : UnitTable :=
  (Store.Table.empty.upsert (packageRow "alpha")).upsert (packageRow "beta")

/-- The command of the one succeeds and the same command of the other takes too long. -/
def outcomes (name : String) : Option (Except String Output) :=
  if name = "alpha" then some (.ok ⟨some 0, []⟩) else none

def outcomeReports (name : String) : String × Option String := packageHealth (outcomes name)

def checkedRow (name : String) : UnitRow :=
  (packageRow name).withHealth (outcomeReports name).1 (outcomeReports name).2 5

def checkedCalls (name : String) : List (Event UnitSig) :=
  [⟨.output "pgrep echo" 1000, outcomes name⟩, ⟨.nowMs, (5 : Int)⟩,
    ⟨.upsertUnit (checkedRow name), .ok ()⟩]

def firstCalls : List (Event UnitSig) := checkedCalls "alpha" ++ checkedCalls "beta"

def secondCalls : List (Event UnitSig) :=
  [⟨.output "pgrep echo" 1000, outcomes "alpha"⟩, ⟨.output "pgrep echo" 1000, outcomes "beta"⟩]

def twoChecked : UnitTable := tableAfter twoPackages firstCalls

theorem rows_twoPackages : twoPackages.rows = [packageRow "alpha", packageRow "beta"] := rfl

theorem rows_twoChecked : twoChecked.rows = [checkedRow "alpha", checkedRow "beta"] := rfl

theorem checks_packageRow {name : String} {units : List UnitRow} {events : List (Event UnitSig)}
    (rest : Checks "/run" outcomeReports units events) :
    Checks "/run" outcomeReports (packageRow name :: units) (checkedCalls name ++ events) := by
  refine .checked ⟨.inr rfl, .inr rfl⟩
    (.ended rfl (checkCommand_packageRow name) (outcomes name)) (.stored ?_ 5 (.ok ())) rest
  rintro ⟨hhealth, -⟩
  cases hhealth

theorem checks_checkedRow {name : String} {units : List UnitRow} {events : List (Event UnitSig)}
    (rest : Checks "/run" outcomeReports units events) :
    Checks "/run" outcomeReports (checkedRow name :: units)
      (⟨.output "pgrep echo" 1000, outcomes name⟩ :: events) := by
  have hcommand : checkCommand (checkedRow name).configJson = some ("pgrep echo", 1000) :=
    checkCommand_packageRow name
  exact .checked ⟨.inr rfl, .inr rfl⟩ (.ended rfl hcommand (outcomes name))
    (.unchanged rfl rfl) rest

theorem checks_first : Checks "/run" outcomeReports twoPackages.rows firstCalls := by
  rw [rows_twoPackages]
  exact checks_packageRow (checks_packageRow .nil)

theorem checks_second : Checks "/run" outcomeReports twoChecked.rows secondCalls := by
  rw [rows_twoChecked]
  exact checks_checkedRow (checks_checkedRow .nil)

theorem ran_of_checks {table : UnitTable} {events : List (Event UnitSig)}
    (h : Checks "/run" outcomeReports table.rows events)
    (htrail : Trail served table events (tableAfter table events)) :
    Ran served table (pass "/run") (⟨.listUnits, .ok table.rows⟩ :: events)
      (tableAfter table events) () :=
  ⟨.call (steps_of_checks h), .cons ⟨rfl, rfl⟩ htrail⟩

theorem ran_first : Ran served twoPackages (pass "/run")
    (⟨.listUnits, .ok twoPackages.rows⟩ :: firstCalls) twoChecked () :=
  ran_of_checks checks_first (.cons ⟨rfl, rfl⟩ (.cons ⟨rfl, rfl⟩ (.cons ⟨rfl, rfl⟩
    (.cons ⟨rfl, rfl⟩ (.cons ⟨rfl, rfl⟩ (.cons ⟨rfl, rfl⟩ (.nil _)))))))

theorem ran_second : Ran served twoChecked (pass "/run")
    (⟨.listUnits, .ok twoChecked.rows⟩ :: secondCalls) twoChecked () :=
  ran_of_checks checks_second (.cons ⟨rfl, rfl⟩ (.cons ⟨rfl, rfl⟩ (.nil _)))

theorem second_pass_idle_packages :
    Ran served twoPackages (pass "/run") (⟨.listUnits, .ok twoPackages.rows⟩ :: firstCalls)
        twoChecked () ∧
      ∀ event ∈ secondCalls, event.1.quiet :=
  ⟨ran_first, (second_pass_idle ran_first (by simp [firstCalls, checkedCalls]) checks_first
    ran_second checks_second).2⟩

end Sample

end VasalAgent.Units
