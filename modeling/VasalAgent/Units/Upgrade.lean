import VasalAgent.Async.Environment
import VasalAgent.Units.HealthGate
import VasalAgent.Units.LostUpdate

/-!
# Runs of an upgrade

`UpgradeEnd` says once how a run of `upgrade` can end: refused before anything was
touched, broken off by a failed step, rolled back, or done.  What it leaves in the
table (`upgrade_outcome`), whether it has tried to roll back (`rollback_attempted`) and
which process the row names afterwards (`names_live_process`) follow from that.
-/

namespace VasalAgent.Units

open VasalAgent.Async
open VasalAgent.Protocol
open VasalAgent.Task (Error ExitStatus)
open VasalAgent.Task.Sidecar (joinPath)

/-! ## The store as an environment -/

/-- Reads are answered from the table, writes change it; every call can fail. -/
def serves : Environment UnitSig UnitTable := fun table event after =>
  event.2 = answer table event.1 event.2 ∧ after = applyEvent table event

theorem trail_quiet {table after : UnitTable} {events : List (Event UnitSig)}
    (h : Trail serves table events after) (hquiet : ∀ event ∈ events, event.1.quiet) :
    after = table := by
  induction h with
  | nil table => rfl
  | @cons table mid after event rest hfirst hrest ih =>
      simp only [List.forall_mem_cons] at hquiet
      rw [ih hquiet.2, hfirst.2, applyEvent_quiet hquiet.1]

section Inversion

variable {α β : Type} {table after : UnitTable} {events : List (Event UnitSig)}

theorem ran_quiet {p : Prog UnitSig α} {value : α} (h : Ran serves table p events after value)
    (hquiet : p.Uses UnitOp.quiet) : after = table :=
  trail_quiet h.trail (h.uses hquiet)

theorem ran_converted {wrap : String → Error} {p : Prog UnitSig (Except String α)}
    {result : Except Error α} (h : Ran serves table (converted wrap p) events after result) :
    ∃ answer, result = answer.mapError wrap ∧ Ran serves table p events after answer := by
  obtain ⟨first, second, mid, answer, rfl, hfirst, hsecond⟩ := h.bind_inv
  cases answer <;>
    obtain ⟨rfl, rfl, rfl⟩ := hsecond.ret_inv <;>
    exact ⟨_, rfl, by rwa [List.append_nil]⟩

end Inversion

/-! ## Events of a run -/

/-- The calls of `upgrade` before it has touched anything. -/
def UnitOp.harmless : UnitOp → Prop
  | .get _ | .bytes _ | .getUnit _ => True
  | _ => False

/-- `kill -TERM` was run and has not reported a failure. -/
def Terminates (pid : Nat) (event : Event UnitSig) : Prop :=
  ∃ status : ExitStatus, event = ⟨.status "kill" ["-TERM", Nat.repr pid], .ok status⟩ ∧
    status.getD 0 = 0

def Signals (event : Event UnitSig) : Prop := ∃ pid, Terminates pid event

/-- A row has been written. -/
def Writes (event : Event UnitSig) : Prop := ∃ row, event = ⟨.upsertUnit row, .ok ()⟩

/-- Nothing is requested, nobody is stopped and no extraction exits with an error. -/
def Plain : Event UnitSig → Prop
  | ⟨.get _, _⟩ => False
  | ⟨.status program _, .ok status⟩ => program = "tar" ∧ status.success = true
  | ⟨.status program _, .error _⟩ => program = "tar"
  | _ => True

/-- The calls of an extraction and of a probe. -/
def UnitOp.indoors : UnitOp → Prop
  | .createDirAll _ | .write .. | .sleep _ | .instant | .callRaw .. => True
  | .status program _ => program = "tar"
  | _ => False

/-- A call that signals nobody. -/
def UnitOp.calm : UnitOp → Prop
  | .status program _ => program ≠ "kill"
  | _ => True

theorem not_signals_of_calm {event : Event UnitSig} (h : event.1.calm) : ¬ Signals event := by
  rintro ⟨pid, status, rfl, -⟩
  exact h rfl

theorem quiet_of_indoors {op : UnitOp} (h : op.indoors) : op.quiet := by
  cases op <;> trivial

theorem calm_of_indoors {op : UnitOp} (h : op.indoors) : op.calm := by
  cases op with
  | status program args => simp_all [UnitOp.indoors, UnitOp.calm]
  | _ => trivial

theorem calm_of_harmless {op : UnitOp} (h : op.harmless) : op.calm := by
  cases op <;> trivial

theorem not_writes_of_quiet {event : Event UnitSig} (h : event.1.quiet) : ¬ Writes event := by
  rintro ⟨row, rfl⟩
  exact h

/-! ## Download and extraction -/

structure Fetched (digest : List UInt8 → String) (artifact : Artifact)
    (events : List (Event UnitSig)) (bytes : List UInt8) : Prop where
  received : (⟨.bytes artifact.url, .ok bytes⟩ : Event UnitSig) ∈ events
  verified : digest bytes = artifact.sha256

theorem Fetched.mono {digest : List UInt8 → String} {artifact : Artifact} {bytes : List UInt8}
    {events more : List (Event UnitSig)} (h : Fetched digest artifact events bytes)
    (hsubset : events ⊆ more) : Fetched digest artifact more bytes :=
  ⟨hsubset h.received, h.verified⟩

/-- The archive was extracted. -/
def Unpacked (unitName version installDir : String) (events : List (Event UnitSig)) : Prop :=
  (⟨.status "tar" ["xzf", joinPath installDir (unitName ++ "-" ++ version ++ ".tar.gz"), "-C",
    installDir], .ok (some 0)⟩ : Event UnitSig) ∈ events

section Parts

variable {digest : List UInt8 → String} {unitName socketDir : String}
  {table after : UnitTable} {events : List (Event UnitSig)}

theorem harmless_fetch {what : String} {artifact : Artifact} :
    (fetch digest what unitName artifact).Uses UnitOp.harmless :=
  uses_fetch.mono fun op _ => by cases op <;> trivial

theorem fetched_of_ran {what : String} {artifact : Artifact} {bytes : List UInt8}
    (h : Ran serves table (fetch digest what unitName artifact) events after (.ok bytes)) :
    Fetched digest artifact events bytes := by
  rcases h.orReturn_inv with ⟨e, he, -⟩ | ⟨first, second, mid, status, rfl, -, hstatus⟩
  · cases he
  · split at hstatus
    · rcases hstatus.orReturn_inv with ⟨e, he, -⟩ | ⟨got, last, _, body, rfl, hbody, hlast⟩
      · cases he
      · obtain ⟨answer, hanswer, hcall⟩ := ran_converted hbody
        obtain ⟨rfl, -⟩ := hcall.perform_inv
        cases answer with
        | error e => cases hanswer
        | ok received =>
            cases hanswer
            split at hlast
            · cases hlast.ret_inv.2.2
            · next hdigest =>
                cases hlast.ret_inv.2.2
                exact ⟨by simp, not_not.mp hdigest⟩
    · cases hstatus.ret_inv.2.2

theorem indoors_unpack {version installDir : String} {bytes : List UInt8} :
    (unpack unitName version installDir bytes).Uses UnitOp.indoors :=
  uses_unpack.mono fun op _ => by cases op <;> trivial

theorem unpacked_of_ran {version installDir : String} {bytes : List UInt8}
    (h : Ran serves table (unpack unitName version installDir bytes) events after (.ok true)) :
    Unpacked unitName version installDir events := by
  rcases h.orReturn_inv with ⟨e, he, -⟩ | ⟨made, rest, _, _, rfl, -, hrest⟩
  · cases he
  · rcases hrest.orReturn_inv with ⟨e, he, -⟩ | ⟨written, last, _, _, rfl, -, hlast⟩
    · cases he
    · rcases hlast.orReturn_inv with ⟨e, he, -⟩ | ⟨ran, done, _, status, rfl, hran, hdone⟩
      · cases he
      · obtain ⟨answer, hanswer, hcall⟩ := ran_converted hran
        obtain ⟨rfl, -⟩ := hcall.perform_inv
        cases answer with
        | error e => cases hanswer
        | ok ended =>
            cases hanswer
            obtain ⟨rfl, -, hstatus⟩ := hdone.ret_inv
            have hzero : status = some 0 := by
              simpa [ExitStatus.success] using (Except.ok.inj hstatus).symm
            simp [Unpacked, hzero]

theorem indoors_probeSidecar {timeoutSec : Nat} :
    (probeSidecar socketDir unitName timeoutSec).Uses UnitOp.indoors :=
  uses_probeSidecar.mono fun op _ => by cases op <;> trivial

end Parts

/-! ## Failures that are noticed -/

/-- A process was started. -/
def Spawns (event : Event UnitSig) : Prop :=
  ∃ path args child, event = ⟨.spawn path args, .ok child⟩

/-- An extraction has exited with an error, or a process was stopped after one was started. -/
def Noticed (events : List (Event UnitSig)) : Prop :=
  (∃ args status, (⟨.status "tar" args, .ok status⟩ : Event UnitSig) ∈ events ∧
      ExitStatus.success status = false) ∨
    ∃ before later, events = before ++ later ∧ (∃ start ∈ before, Spawns start) ∧
      ∃ kill ∈ later, ¬ kill.1.calm

theorem Noticed.append {events : List (Event UnitSig)} (h : Noticed events)
    (earlier later : List (Event UnitSig)) : Noticed (earlier ++ events ++ later) := by
  rcases h with ⟨args, status, htar, hfailed⟩ | ⟨before, after, rfl, ⟨start, hstart⟩, kill, hkill⟩
  · refine .inl ⟨args, status, ?_, hfailed⟩
    exact List.mem_append_left later (List.mem_append_right earlier htar)
  · refine .inr ⟨earlier ++ before, after ++ later, by simp only [List.append_assoc], ?_, ?_⟩
    · exact ⟨start, List.mem_append_right earlier hstart.1, hstart.2⟩
    · exact ⟨kill, List.mem_append_left later hkill.1, hkill.2⟩

/-- What comes after an event that is not in the head of a list is in its tail. -/
theorem later_subset {head tail before later : List (Event UnitSig)} {event : Event UnitSig}
    (h : before ++ later = head ++ tail) (hbefore : event ∈ before) (hhead : event ∉ head) :
    later ⊆ tail := by
  rcases List.append_eq_append_iff.mp h with ⟨mid, rfl, -⟩ | ⟨mid, -, rfl⟩
  · exact absurd (List.mem_append_left mid hbefore) hhead
  · exact List.subset_append_right mid later

theorem plain_of_probes {event : Event UnitSig} {socket : String}
    (h : UnitOp.probes socket event.1) : Plain event := by
  obtain ⟨op, ans⟩ := event
  cases op <;> trivial

theorem plain_of_launches {event : Event UnitSig} {socket : String}
    (h : UnitOp.launches socket event.1) : Plain event := by
  obtain ⟨op, ans⟩ := event
  cases op <;> trivial

/-- An extraction exits with an error, or nothing but its last step has failed. -/
theorem plain_or_noticed {table after : UnitTable} {events : List (Event UnitSig)}
    {unitName version installDir : String} {bytes : List UInt8} {result : Except Error Bool}
    (h : Ran serves table (unpack unitName version installDir bytes) events after result) :
    (result ≠ .ok false ∧ ∀ event ∈ events, Plain event) ∨
      result = .ok false ∧ Noticed events := by
  rcases h.orReturn_inv with ⟨e, rfl, hmade⟩ | ⟨made, rest, _, _, rfl, hmade, hrest⟩
  · obtain ⟨answer, -, hcall⟩ := ran_converted hmade
    obtain ⟨rfl, -⟩ := hcall.perform_inv
    exact .inl ⟨nofun, by simp [Plain]⟩
  obtain ⟨answer, -, hcall⟩ := ran_converted hmade
  obtain ⟨rfl, -⟩ := hcall.perform_inv
  rcases hrest.orReturn_inv with ⟨e, rfl, hwritten⟩ | ⟨written, last, _, _, rfl, hwritten, hlast⟩
  · obtain ⟨answer, -, hcall⟩ := ran_converted hwritten
    obtain ⟨rfl, -⟩ := hcall.perform_inv
    exact .inl ⟨nofun, by simp [Plain]⟩
  obtain ⟨answer, -, hcall⟩ := ran_converted hwritten
  obtain ⟨rfl, -⟩ := hcall.perform_inv
  rcases hlast.orReturn_inv with ⟨e, rfl, hran⟩ | ⟨ran, done, _, status, rfl, hran, hdone⟩
  · obtain ⟨answer, hanswer, hcall⟩ := ran_converted hran
    obtain ⟨rfl, -⟩ := hcall.perform_inv
    cases answer with
    | error e =>
        refine .inl ⟨nofun, List.forall_mem_cons.mpr ⟨trivial, ?_⟩⟩
        exact List.forall_mem_cons.mpr ⟨trivial, List.forall_mem_singleton.mpr rfl⟩
    | ok status => cases hanswer
  · obtain ⟨answer, hanswer, hcall⟩ := ran_converted hran
    obtain ⟨rfl, -⟩ := hcall.perform_inv
    obtain ⟨rfl, -, rfl⟩ := hdone.ret_inv
    cases answer with
    | error e => cases hanswer
    | ok ended =>
        cases hanswer
        cases hsuccess : ExitStatus.success status with
        | true =>
            refine .inl ⟨by simp, List.forall_mem_cons.mpr ⟨trivial, ?_⟩⟩
            refine List.forall_mem_cons.mpr ⟨trivial, List.forall_mem_singleton.mpr ⟨rfl, ?_⟩⟩
            exact hsuccess
        | false =>
            exact .inr ⟨rfl, .inl ⟨_, status,
              List.mem_cons_of_mem _ (List.mem_cons_of_mem _ List.mem_cons_self), hsuccess⟩⟩

/-! ## The row that is written -/

section Rows

variable {table after : UnitTable} {events : List (Event UnitSig)}

theorem ran_persist {row : UnitRow} {result : Except Error Unit}
    (h : Ran serves table (persist row) events after result) :
    (result = .ok () ∧ events = [⟨.upsertUnit row, .ok ()⟩] ∧ after = table.upsert row) ∨
      ∃ e, result = .error e ∧ events = [⟨.upsertUnit row, .error e⟩] ∧ after = table := by
  obtain ⟨rfl, hserves⟩ := h.perform_inv
  cases result with
  | ok value => exact .inl ⟨rfl, rfl, hserves.2⟩
  | error e => exact .inr ⟨e, rfl, rfl, hserves.2⟩

theorem ran_startSidecar {binaryPath socket : String} {pid : Nat}
    (h : Ran serves table (startSidecar binaryPath socket) events after (.ok pid)) :
    ∃ child : Option Nat, pid = child.getD 0 ∧
      events = [⟨.spawn binaryPath ["--socket", socket], .ok child⟩] := by
  rcases h.orReturn_inv with ⟨e, he, -⟩ | ⟨spawned, last, _, child, rfl, hspawned, hlast⟩
  · cases he
  · obtain ⟨answer, hanswer, hcall⟩ := ran_converted hspawned
    obtain ⟨rfl, -⟩ := hcall.perform_inv
    obtain ⟨rfl, -, hpid⟩ := hlast.ret_inv
    cases answer with
    | error e => cases hanswer
    | ok child =>
        cases hanswer
        cases hpid
        exact ⟨_, rfl, rfl⟩

end Rows

section Ends

variable (digest : List UInt8 → String) (unitName cacheDir socketDir : String)

/-- Where the binary of a unit is looked for. -/
def binaryPath : String := joinPath (joinPath cacheDir unitName) unitName

/--
The row that replaces `base`: itself, or for a sidecar whose binary is there the one with
the process that was started, after which `checked` held.
-/
inductive Stored (checked : List (Event UnitSig) → Prop) (events : List (Event UnitSig))
    (base : UnitRow) : UnitRow → Prop where
  | kept (absent : base.kind ≠ "sidecar" ∨
      (⟨.pathExists (binaryPath unitName cacheDir), false⟩ : Event UnitSig) ∈ events) :
      Stored checked events base base
  | started {before after : List (Event UnitSig)} {child : Option Nat}
      (sidecar : base.kind = "sidecar")
      (present : (⟨.pathExists (binaryPath unitName cacheDir), true⟩ : Event UnitSig) ∈ before)
      (split : events = before ++ ⟨.spawn (binaryPath unitName cacheDir)
        ["--socket", socketPathFor socketDir unitName], .ok child⟩ :: after)
      (calm : ∀ event ∈ after, event.1.calm)
      (written : (⟨.upsertUnit (base.started (child.getD 0)), .ok ()⟩ : Event UnitSig) ∈ after)
      (check : checked after) :
      Stored checked events base (base.started (child.getD 0))

/-- Nothing was written, or the row of another version. -/
inductive Restored (version : String) (table : UnitTable) :
    List (Event UnitSig) → UnitTable → Prop where
  | unwritten {events : List (Event UnitSig)} (unwritten : ∀ event ∈ events, ¬ Writes event) :
      Restored version table events table
  | written {events : List (Event UnitSig)} {previous row : UnitRow} {now : Int}
      (found : table.get unitName = some previous)
      (clock : (⟨.nowMs, now⟩ : Event UnitSig) ∈ events)
      (stored : Stored unitName cacheDir socketDir (fun _ => True) events
        (previous.atVersion version now) row)
      (only : ∀ other, (⟨.upsertUnit other, .ok ()⟩ : Event UnitSig) ∈ events → other = row) :
      Restored version table events (table.upsert row)

/-- How a run of `perform_rollback` can end. -/
inductive RollbackEnd (spec : RollbackSpec) (table : UnitTable) (events : List (Event UnitSig)) :
    UnitTable → Prop where
  | refused (unwritten : ∀ event ∈ events, ¬ Writes event) : RollbackEnd spec table events table
  | fetched {after : UnitTable} {bytes : List UInt8}
      (fetched : Fetched digest spec.artifact events bytes)
      (restored : Restored unitName cacheDir socketDir spec.version table events after) :
      RollbackEnd spec table events after

/--
How `upgrade` can go on when it has stopped the old process; `done` is what it has done when
it writes a row.
-/
inductive UpgradeTail (rollback : Option RollbackSpec) (table : UnitTable)
    (done : List (Event UnitSig) → UnitRow → Prop) :
    List (Event UnitSig) → UnitTable → Except Error Unit → Prop where
  /-- A step fails, and that is all. -/
  | broken {events : List (Event UnitSig)} {e : Error}
      (unwritten : ∀ event ∈ events, ¬ Writes event) (plain : ∀ event ∈ events, Plain event) :
      UpgradeTail rollback table done events table (.error e)
  | abandoned {events : List (Event UnitSig)} {e : Error}
      (unwritten : ∀ event ∈ events, ¬ Writes event) (given : rollback = none) :
      UpgradeTail rollback table done events table (.error e)
  | rolledBack {before events : List (Event UnitSig)} {spec : RollbackSpec} {after : UnitTable}
      {outcome : Except Error Unit} {e : Error}
      (unwritten : ∀ event ∈ before, ¬ Writes event) (noticed : Noticed before)
      (given : rollback = some spec)
      (ran : Ran serves table (performRollback digest unitName cacheDir socketDir spec) events
        after outcome) :
      UpgradeTail rollback table done (before ++ events) after (.error e)
  | upgraded {events : List (Event UnitSig)} {row : UnitRow} (written : done events row)
      (only : ∀ other, (⟨.upsertUnit other, .ok ()⟩ : Event UnitSig) ∈ events → other = row) :
      UpgradeTail rollback table done events (table.upsert row) (.ok ())

/-- The row that is written by an upgrade of `previous`. -/
structure Upgraded (targetVersion : String) (previous : UnitRow) (events : List (Event UnitSig))
    (now : Int) (row : UnitRow) : Prop where
  unpacked : Unpacked unitName targetVersion (joinPath cacheDir unitName) events
  clock : (⟨.nowMs, now⟩ : Event UnitSig) ∈ events
  stored : Stored unitName cacheDir socketDir (Healthy socketDir unitName) events
    (previous.atVersion targetVersion now) row

/-- How a run of `upgrade` can end. -/
inductive UpgradeEnd (targetVersion : String) (artifact : Artifact)
    (rollback : Option RollbackSpec) (table : UnitTable) (events : List (Event UnitSig)) :
    UnitTable → Except Error Unit → Prop where
  | refused {e : Error} (harmless : ∀ event ∈ events, event.1.harmless) :
      UpgradeEnd targetVersion artifact rollback table events table (.error e)
  | stopped {after : UnitTable} {result : Except Error Unit} {bytes : List UInt8}
      {previous : UnitRow} {asking stopping ending : List (Event UnitSig)}
      (split : events = asking ++ (stopping ++ ending))
      (harmless : ∀ event ∈ asking, event.1.harmless) (kills : ∀ event ∈ stopping, event.1.kills)
      (fetched : Fetched digest artifact asking bytes)
      (found : table.get unitName = some previous)
      (tail : UpgradeTail digest unitName cacheDir socketDir rollback table
        (fun events row => ∃ now, Upgraded unitName cacheDir socketDir targetVersion previous
          events now row) ending after result) :
      UpgradeEnd targetVersion artifact rollback table events after result

end Ends

section Runs

variable {digest : List UInt8 → String} {unitName cacheDir socketDir : String}
  {table after : UnitTable} {events : List (Event UnitSig)}

theorem Stored.prepend {checked : List (Event UnitSig) → Prop} {base row : UnitRow}
    (h : Stored unitName cacheDir socketDir checked events base row)
    (earlier : List (Event UnitSig)) :
    Stored unitName cacheDir socketDir checked (earlier ++ events) base row := by
  cases h with
  | kept absent => exact .kept (absent.imp_right (List.mem_append_right earlier))
  | started sidecar present split calm written check =>
      refine .started sidecar (List.mem_append_right earlier present) ?_ calm written check
      rw [split, List.append_assoc]

theorem ran_unwritten {α : Type} {p : Prog UnitSig α} {value : α}
    (h : Ran serves table p events after value) (hquiet : p.Uses UnitOp.quiet) :
    ∀ event ∈ events, ¬ Writes event :=
  fun event hevent => not_writes_of_quiet (h.uses hquiet event hevent)

/-- `get_unit` answers with what the table has. -/
theorem ran_getUnit {name : String} {current : Option UnitRow}
    (h : Ran serves table (call (.getUnit name)) events after (.ok current)) :
    current = table.get name := by
  obtain ⟨rfl, hserves, -⟩ := h.perform_inv
  exact Except.ok.inj hserves

/-- The end of a rollback: the row is written, with a process if there is one to start. -/
theorem ran_restore {row : UnitRow} {result : Except Error Unit}
    (h : Ran serves table
      (if row.kind = "sidecar" then do
          if ← call (.pathExists (binaryPath unitName cacheDir)) then
            orReturn (startSidecar (binaryPath unitName cacheDir)
              (socketPathFor socketDir unitName)) fun pid => persist (row.started pid)
          else persist row
        else persist row) events after result) :
    ((∀ event ∈ events, ¬ Writes event) ∧ after = table) ∨
      ∃ stored, Stored unitName cacheDir socketDir (fun _ => True) events row stored ∧
        (∀ other, (⟨.upsertUnit other, .ok ()⟩ : Event UnitSig) ∈ events → other = stored) ∧
        after = table.upsert stored := by
  split at h
  · next hkind =>
      obtain ⟨asked, rest, mid, present, rfl, hasked, hrest⟩ := h.bind_inv
      obtain ⟨rfl, -, rfl⟩ := hasked.perform_inv
      cases present with
      | true =>
          rcases hrest.orReturn_inv with
            ⟨e, rfl, hfailed⟩ | ⟨spawned, last, _, pid, rfl, hspawned, hlast⟩
          · refine .inl ⟨?_, ran_quiet hfailed quiet_startSidecar⟩
            have hquiet := ran_unwritten hfailed quiet_startSidecar
            simpa [Writes] using hquiet
          · obtain ⟨child, rfl, rfl⟩ := ran_startSidecar hspawned
            obtain rfl := ran_quiet hspawned quiet_startSidecar
            rcases ran_persist hlast with ⟨rfl, rfl, rfl⟩ | ⟨e, rfl, rfl, rfl⟩
            · refine .inr ⟨_, .started hkind ?_ rfl ?_ List.mem_cons_self trivial, ?_, rfl⟩
              · exact List.mem_singleton_self _
              · simp [UnitOp.calm]
              · simp
            · exact .inl ⟨by simp [Writes], rfl⟩
      | false =>
          rcases ran_persist hrest with ⟨rfl, rfl, rfl⟩ | ⟨e, rfl, rfl, rfl⟩
          · exact .inr ⟨_, .kept (.inr (by simp)), by simp, rfl⟩
          · exact .inl ⟨by simp [Writes], rfl⟩
  · next hkind =>
      rcases ran_persist h with ⟨rfl, rfl, rfl⟩ | ⟨e, rfl, rfl, rfl⟩
      · exact .inr ⟨_, .kept (.inl hkind), by simp, rfl⟩
      · exact .inl ⟨by simp [Writes], rfl⟩

theorem only_append {earlier : List (Event UnitSig)} {row : UnitRow}
    (hearlier : ∀ event ∈ earlier, ¬ Writes event)
    (h : ∀ other, (⟨.upsertUnit other, .ok ()⟩ : Event UnitSig) ∈ events → other = row)
    (other : UnitRow)
    (hother : (⟨.upsertUnit other, .ok ()⟩ : Event UnitSig) ∈ earlier ++ events) :
    other = row := by
  rcases List.mem_append.mp hother with hfirst | hlater
  · exact absurd ⟨other, rfl⟩ (hearlier _ hfirst)
  · exact h other hlater

theorem Restored.prepend {version : String}
    (h : Restored unitName cacheDir socketDir version table events after)
    {earlier : List (Event UnitSig)} (hearlier : ∀ event ∈ earlier, ¬ Writes event) :
    Restored unitName cacheDir socketDir version table (earlier ++ events) after := by
  cases h with
  | unwritten unwritten => exact .unwritten (List.forall_mem_append.mpr ⟨hearlier, unwritten⟩)
  | written found clock stored only =>
      exact .written found (List.mem_append_right earlier clock) (stored.prepend earlier)
        (only_append hearlier only)

theorem rollbackEnd_of_ran {spec : RollbackSpec} {result : Except Error Unit}
    (h : Ran serves table (performRollback digest unitName cacheDir socketDir spec) events after
      result) :
    RollbackEnd digest unitName cacheDir socketDir spec table events after := by
  rcases h.orReturn_inv with ⟨e, -, hfailed⟩ | ⟨first, rest, _, bytes, rfl, hfetch, hrest⟩
  · rw [ran_quiet hfailed quiet_fetch]
    exact .refused (ran_unwritten hfailed quiet_fetch)
  obtain rfl := ran_quiet hfetch quiet_fetch
  have hfetched := (fetched_of_ran hfetch).mono (List.subset_append_left first rest)
  refine .fetched hfetched (Restored.prepend ?_ (ran_unwritten hfetch quiet_fetch))
  rcases hrest.orReturn_inv with ⟨e, -, hfailed⟩ | ⟨_, more, _, ok, rfl, hunpack, hmore⟩
  · rw [ran_quiet hfailed quiet_unpack]
    exact .unwritten (ran_unwritten hfailed quiet_unpack)
  obtain rfl := ran_quiet hunpack quiet_unpack
  refine Restored.prepend ?_ (ran_unwritten hunpack quiet_unpack)
  split at hmore
  · have hquiet : (call (.getUnit unitName)).Uses UnitOp.quiet := uses_call trivial
    rcases hmore.orReturn_inv with ⟨e, -, hfailed⟩ | ⟨_, last, _, current, rfl, hget, hlast⟩
    · rw [ran_quiet hfailed hquiet]
      exact .unwritten (ran_unwritten hfailed hquiet)
    have hcurrent := ran_getUnit hget
    obtain rfl := ran_quiet hget hquiet
    refine Restored.prepend ?_ (ran_unwritten hget hquiet)
    cases current with
    | none =>
        obtain ⟨rfl, rfl, -⟩ := hlast.ret_inv
        exact .unwritten (by simp)
    | some previous =>
        obtain ⟨_, tail, _, now, rfl, hnow, htail⟩ := hlast.bind_inv
        obtain ⟨rfl, -, rfl⟩ := hnow.perform_inv
        rcases ran_restore htail with ⟨hunwritten, rfl⟩ | ⟨row, hstored, honly, rfl⟩
        · exact .unwritten (by simpa [Writes] using hunwritten)
        · exact .written hcurrent.symm List.mem_cons_self (hstored.prepend [_])
            (only_append (by simp [Writes]) honly)
  · obtain ⟨rfl, rfl, -⟩ := hmore.ret_inv
    exact .unwritten (by simp)

theorem UpgradeTail.prepend {rollback : Option RollbackSpec}
    {done done' : List (Event UnitSig) → UnitRow → Prop} {result : Except Error Unit}
    (h : UpgradeTail digest unitName cacheDir socketDir rollback table done events after result)
    {earlier : List (Event UnitSig)} (hearlier : ∀ event ∈ earlier, ¬ Writes event)
    (hplain : ∀ event ∈ earlier, Plain event)
    (hdone : ∀ row, done events row → done' (earlier ++ events) row) :
    UpgradeTail digest unitName cacheDir socketDir rollback table done' (earlier ++ events) after
      result := by
  cases h with
  | broken unwritten plain =>
      exact .broken (List.forall_mem_append.mpr ⟨hearlier, unwritten⟩)
        (List.forall_mem_append.mpr ⟨hplain, plain⟩)
  | abandoned unwritten given =>
      exact .abandoned (List.forall_mem_append.mpr ⟨hearlier, unwritten⟩) given
  | rolledBack unwritten noticed given ran =>
      rw [← List.append_assoc]
      refine .rolledBack (List.forall_mem_append.mpr ⟨hearlier, unwritten⟩) ?_ given ran
      simpa using noticed.append earlier []
  | upgraded written only => exact .upgraded (hdone _ written) (only_append hearlier only)

section Tail

variable {rollback : Option RollbackSpec} {done : List (Event UnitSig) → UnitRow → Prop}
  {result : Except Error Unit}

theorem ran_giveUp {message : String} {earlier : List (Event UnitSig)}
    (hearlier : ∀ event ∈ earlier, ¬ Writes event) (hnoticed : Noticed earlier)
    (h : Ran serves table (giveUp digest unitName cacheDir socketDir rollback message) events
      after result) :
    UpgradeTail digest unitName cacheDir socketDir rollback table done (earlier ++ events) after
      result := by
  cases rollback with
  | none =>
      obtain ⟨rfl, rfl, rfl⟩ := h.ret_inv
      rw [List.append_nil]
      exact .abandoned hearlier rfl
  | some spec =>
      rcases h.orReturn_inv with ⟨e, rfl, hfailed⟩ | ⟨ran, last, _, _, rfl, hdone, hlast⟩
      · exact .rolledBack hearlier hnoticed rfl hfailed
      · obtain ⟨rfl, rfl, rfl⟩ := hlast.ret_inv
        rw [List.append_nil]
        exact .rolledBack hearlier hnoticed rfl hdone

theorem ran_persist_tail {row : UnitRow} (h : Ran serves table (persist row) events after result)
    (hdone : done [⟨.upsertUnit row, .ok ()⟩] row) :
    UpgradeTail digest unitName cacheDir socketDir rollback table done events after result := by
  rcases ran_persist h with ⟨rfl, rfl, rfl⟩ | ⟨e, rfl, rfl, rfl⟩
  · exact .upgraded hdone (by simp)
  · exact .broken (by simp [Writes]) (by simp [Plain])

theorem unwritten_of_indoors {α : Type} {p : Prog UnitSig α} {value : α}
    (h : Ran serves table p events after value) (hindoors : p.Uses UnitOp.indoors) :
    after = table ∧ ∀ event ∈ events, ¬ Writes event :=
  have hquiet := hindoors.mono fun _ => quiet_of_indoors
  ⟨ran_quiet h hquiet, ran_unwritten h hquiet⟩

/-- The process that was started is probed, and stopped again when it is not healthy. -/
theorem ran_probed {row : UnitRow} {child : Option Nat} {message : String}
    {path socket : String}
    (h : Ran serves table (do
        if ← probeSidecar socketDir unitName 10 then persist (row.started (child.getD 0))
        else do
          terminate (child.getD 0) 1000
          giveUp digest unitName cacheDir socketDir rollback message) events after result) :
    UpgradeTail digest unitName cacheDir socketDir rollback table
      (fun all stored => ∃ later, all = ⟨.spawn path ["--socket", socket], .ok child⟩ :: later ∧
        stored = row.started (child.getD 0) ∧ (∀ event ∈ later, event.1.calm) ∧
        (⟨.upsertUnit stored, .ok ()⟩ : Event UnitSig) ∈ later ∧
        Healthy socketDir unitName later)
      (⟨.spawn path ["--socket", socket], .ok child⟩ :: events) after result := by
  obtain ⟨probing, last, _, healthy, rfl, hprobe, hlast⟩ := h.bind_inv
  obtain ⟨rfl, hunwritten⟩ := unwritten_of_indoors hprobe indoors_probeSidecar
  rw [← List.cons_append]
  cases healthy with
  | true =>
      have hpersist : UpgradeTail digest unitName cacheDir socketDir rollback _
          (fun events stored => stored = row.started (child.getD 0) ∧
            (∀ event ∈ events, event.1.calm) ∧
            (⟨.upsertUnit stored, .ok ()⟩ : Event UnitSig) ∈ events)
          last after result :=
        ran_persist_tail hlast ⟨rfl, by simp [UnitOp.calm], List.mem_singleton_self _⟩
      apply hpersist.prepend
      · simpa [Writes] using hunwritten
      · refine List.forall_mem_cons.mpr ⟨trivial, fun event hevent => ?_⟩
        exact plain_of_probes (hprobe.uses uses_probeSidecar event hevent)
      · rintro stored ⟨rfl, hcalm, hwritten⟩
        have hprobing (event : Event UnitSig) (hevent : event ∈ probing) : event.1.calm :=
          calm_of_indoors (hprobe.uses indoors_probeSidecar event hevent)
        obtain ⟨response, hresponse, hhealth⟩ := healthy_of_probeSidecar hprobe.steps
        exact ⟨probing ++ last, rfl, rfl, List.forall_mem_append.mpr ⟨hprobing, hcalm⟩,
          List.mem_append_right probing hwritten, response, List.mem_append_left last hresponse,
          hhealth⟩
  | false =>
      obtain ⟨stopping, rest, _, _, rfl, hstop, hrest⟩ := hlast.bind_inv
      obtain rfl := ran_quiet hstop (quiet_terminate _ 1000)
      have hkill : ∃ kill ∈ stopping, ¬ kill.1.calm := by
        obtain ⟨killed, pause, _, status, rfl, hkilled, -⟩ := hstop.bind_inv
        obtain ⟨rfl, -⟩ := hkilled.perform_inv
        exact ⟨_, List.mem_cons_self, fun h => h rfl⟩
      rw [← List.append_assoc]
      refine ran_giveUp ?_ ?_ hrest
      · rw [List.forall_mem_append]
        exact ⟨by simpa [Writes] using hunwritten,
          ran_unwritten hstop (quiet_terminate _ 1000)⟩
      · exact .inr ⟨_, stopping, rfl, ⟨_, List.mem_cons_self, _, _, _, rfl⟩, hkill⟩

theorem ran_startUpgraded {row : UnitRow}
    (h : Ran serves table (startUpgraded digest unitName cacheDir socketDir rollback row) events
      after result) :
    UpgradeTail digest unitName cacheDir socketDir rollback table
      (Stored unitName cacheDir socketDir (Healthy socketDir unitName) · row) events after
      result := by
  unfold startUpgraded at h
  split at h
  · next hkind =>
      obtain ⟨_, rest, _, present, rfl, hpresent, hrest⟩ := h.bind_inv
      obtain ⟨rfl, -, rfl⟩ := hpresent.perform_inv
      cases present with
      | true =>
          rcases hrest.orReturn_inv with
            ⟨e, rfl, hfailed⟩ | ⟨spawned, last, _, pid, rfl, hspawned, hlast⟩
          · have hunwritten := ran_unwritten hfailed quiet_startSidecar
            have hplain (event : Event UnitSig) (hevent : event ∈ _) : Plain event :=
              plain_of_launches (hfailed.uses uses_startSidecar event hevent)
            rw [ran_quiet hfailed quiet_startSidecar]
            exact .broken (by simpa [Writes] using hunwritten)
              (List.forall_mem_cons.mpr ⟨trivial, hplain⟩)
          · obtain ⟨child, rfl, rfl⟩ := ran_startSidecar hspawned
            obtain rfl := ran_quiet hspawned quiet_startSidecar
            apply (ran_probed hlast).prepend (by simp [Writes]) (by simp [Plain])
            rintro stored ⟨later, hlater, rfl, hcalm, hwritten, hhealthy⟩
            exact .started hkind (List.mem_singleton_self _) (congrArg _ hlater) hcalm hwritten
              hhealthy
      | false =>
          have hpersist : UpgradeTail digest unitName cacheDir socketDir rollback _
              (fun _ stored => stored = row) rest after result := ran_persist_tail hrest rfl
          apply hpersist.prepend (by simp [Writes]) (by simp [Plain])
          rintro stored rfl
          exact .kept (.inr List.mem_cons_self)
  · next hkind => exact ran_persist_tail h (.kept (.inl hkind))

theorem Upgraded.prepend {targetVersion : String} {previous row : UnitRow} {now : Int}
    (h : Upgraded unitName cacheDir socketDir targetVersion previous events now row)
    (earlier : List (Event UnitSig)) :
    Upgraded unitName cacheDir socketDir targetVersion previous (earlier ++ events) now row where
  unpacked := List.mem_append_right earlier h.unpacked
  clock := List.mem_append_right earlier h.clock
  stored := h.stored.prepend earlier

/-- The old process has been stopped. -/
theorem ran_extracted {targetVersion message : String} {bytes : List UInt8}
    {previous : UnitRow}
    (h : Ran serves table
      (orReturn (unpack unitName targetVersion (joinPath cacheDir unitName) bytes) fun extracted =>
        if extracted then do
          let now ← call .nowMs
          startUpgraded digest unitName cacheDir socketDir rollback
            (previous.atVersion targetVersion now)
        else giveUp digest unitName cacheDir socketDir rollback message) events after result) :
    UpgradeTail digest unitName cacheDir socketDir rollback table
      (fun events row => ∃ now,
        Upgraded unitName cacheDir socketDir targetVersion previous events now row)
      events after result := by
  rcases h.orReturn_inv with ⟨e, rfl, hfailed⟩ | ⟨unpacking, rest, _, ok, rfl, hunpack, hrest⟩
  · have hends := (plain_or_noticed hfailed).resolve_right nofun
    rw [ran_quiet hfailed quiet_unpack]
    exact .broken (ran_unwritten hfailed quiet_unpack) hends.2
  have hends := plain_or_noticed hunpack
  obtain rfl := ran_quiet hunpack quiet_unpack
  have hunwritten := ran_unwritten hunpack quiet_unpack
  cases ok with
  | true =>
      obtain ⟨_, last, _, now, rfl, hnow, hlast⟩ := hrest.bind_inv
      obtain ⟨rfl, -, rfl⟩ := hnow.perform_inv
      rw [← List.append_assoc]
      refine (ran_startUpgraded hlast).prepend ?_ ?_ fun row hstored => ⟨now, ?_⟩
      · rw [List.forall_mem_append]
        exact ⟨hunwritten, by simp [Writes]⟩
      · rw [List.forall_mem_append]
        exact ⟨(hends.resolve_right nofun).2, by simp [Plain]⟩
      · have hunpacked := List.mem_append_left [⟨.nowMs, now⟩] (unpacked_of_ran hunpack)
        exact ⟨List.mem_append_left last hunpacked, by simp, hstored.prepend _⟩
  | false =>
      have hnoticed := (hends.resolve_left fun h => h.1 rfl).2
      exact ran_giveUp hunwritten hnoticed hrest

theorem upgradeEnd_of_ran {targetVersion : String} {artifact : Artifact}
    (h : Ran serves table (upgrade digest unitName cacheDir socketDir targetVersion artifact
      rollback) events after result) :
    UpgradeEnd digest unitName cacheDir socketDir targetVersion artifact rollback table events
      after result := by
  rcases h.orReturn_inv with ⟨e, rfl, hfailed⟩ | ⟨first, rest, _, bytes, rfl, hfetch, hrest⟩
  · rw [ran_quiet hfailed quiet_fetch]
    exact .refused (hfailed.uses harmless_fetch)
  obtain rfl := ran_quiet hfetch quiet_fetch
  have hharmless := hfetch.uses harmless_fetch
  have hget : (call (.getUnit unitName)).Uses UnitOp.harmless := uses_call trivial
  have hquiet : (call (.getUnit unitName)).Uses UnitOp.quiet := uses_call trivial
  rcases hrest.orReturn_inv with ⟨e, rfl, hfailed⟩ | ⟨asked, more, _, current, rfl, hasked, hmore⟩
  · rw [ran_quiet hfailed hquiet]
    exact .refused (List.forall_mem_append.mpr ⟨hharmless, hfailed.uses hget⟩)
  have hcurrent := ran_getUnit hasked
  obtain rfl := ran_quiet hasked hquiet
  cases current with
  | none =>
      obtain ⟨rfl, rfl, rfl⟩ := hmore.ret_inv
      rw [List.append_nil]
      exact .refused (List.forall_mem_append.mpr ⟨hharmless, hasked.uses hget⟩)
  | some previous =>
      have hfetched := (fetched_of_ran hfetch).mono (List.subset_append_left first asked)
      obtain ⟨stopping, ending, _, _, rfl, hstop, hending⟩ := hmore.bind_inv
      obtain rfl := ran_quiet hstop (quiet_stopCurrent previous)
      exact .stopped (List.append_assoc ..).symm
        (List.forall_mem_append.mpr ⟨hharmless, hasked.uses hget⟩)
        (hstop.uses (uses_stopCurrent previous)) hfetched hcurrent.symm (ran_extracted hending)

end Tail

theorem Stored.name_eq {checked : List (Event UnitSig) → Prop} {base row : UnitRow}
    (h : Stored unitName cacheDir socketDir checked events base row) : row.name = base.name := by
  cases h <;> rfl

end Runs

/-! ## What an upgrade leaves in the table -/

section Main

variable {digest : List UInt8 → String} {unitName cacheDir socketDir targetVersion : String}
  {artifact : Artifact} {rollback : Option RollbackSpec} {table after : UnitTable}
  {events : List (Event UnitSig)} {result : Except Error Unit}

/-- The row of the version that was rolled back to. -/
structure RolledBack (digest : List UInt8 → String) (unitName cacheDir socketDir : String)
    (spec : RollbackSpec) (previous : UnitRow) (events : List (Event UnitSig)) (now : Int)
    (row : UnitRow) : Prop where
  fetched : ∃ bytes, Fetched digest spec.artifact events bytes
  clock : (⟨.nowMs, now⟩ : Event UnitSig) ∈ events
  stored : Stored unitName cacheDir socketDir (fun _ => True) events
    (previous.atVersion spec.version now) row

/-- The run ended before it had the verified bytes of the artifact, or without a row to upgrade. -/
def Unready (digest : List UInt8 → String) (unitName : String) (artifact : Artifact)
    (table : UnitTable) (events : List (Event UnitSig)) : Prop :=
  (∀ bytes, ¬ Fetched digest artifact events bytes) ∨ table.get unitName = none

theorem get_upsert_atVersion {previous row : UnitRow} {version : String} {now : Int}
    {checked : List (Event UnitSig) → Prop} (hfound : table.get unitName = some previous)
    (h : Stored unitName cacheDir socketDir checked events (previous.atVersion version now) row) :
    (table.upsert row).get unitName = some row ∧
      ∀ other, other ≠ unitName → (table.upsert row).get other = table.get other := by
  have hprevious : previous.name = unitName := Store.Table.key_of_get hfound
  have hname : row.name = unitName := h.name_eq.trans hprevious
  constructor
  · rw [Store.Table.get_upsert, if_pos hname]
  · intro other hother
    rw [Store.Table.get_upsert, if_neg (hname ▸ hother.symm)]

/--
The outcome of `upgrade` and the row it leaves: on success the previous row at the target
version, on failure the previous row or the one rolled back to; before the artifact is
verified and the row found nothing is touched, and other rows are never changed.
-/
theorem upgrade_outcome
    (h : Ran serves table (upgrade digest unitName cacheDir socketDir targetVersion artifact
      rollback) events after result) :
    (result = .ok () → (∃ bytes, Fetched digest artifact events bytes) ∧
        ∃ previous now row, table.get unitName = some previous ∧
          after.get unitName = some row ∧
          Upgraded unitName cacheDir socketDir targetVersion previous events now row) ∧
      (∀ e, result = .error e → after.get unitName = table.get unitName ∨
        ∃ spec previous now row, rollback = some spec ∧ table.get unitName = some previous ∧
          after.get unitName = some row ∧
          RolledBack digest unitName cacheDir socketDir spec previous events now row) ∧
      (Unready digest unitName artifact table events →
        (∃ e, result = .error e) ∧ ∀ event ∈ events, event.1.harmless) ∧
      ∀ other, other ≠ unitName → after.get other = table.get other := by
  cases upgradeEnd_of_ran h with
  | refused harmless =>
      exact ⟨nofun, fun _ _ => .inl rfl, fun _ => ⟨⟨_, rfl⟩, harmless⟩, fun _ _ => rfl⟩
  | @stopped _ _ bytes previous asking stopping ending split harmless kills asked found tail =>
      have fetched : Fetched digest artifact events bytes :=
        asked.mono (split ▸ List.subset_append_left _ _)
      have hready : ¬ Unready digest unitName artifact table events := by
        rintro (hunfetched | hnone)
        · exact hunfetched bytes fetched
        · cases found.symm.trans hnone
      rw [← List.append_assoc] at split
      cases tail with
      | broken => exact ⟨nofun, fun _ _ => .inl rfl, fun h => (hready h).elim, fun _ _ => rfl⟩
      | abandoned => exact ⟨nofun, fun _ _ => .inl rfl, fun h => (hready h).elim, fun _ _ => rfl⟩
      | @rolledBack before last spec _ outcome _ unwritten noticed given ran =>
          rw [← List.append_assoc] at split
          cases rollbackEnd_of_ran ran with
          | refused =>
              exact ⟨nofun, fun _ _ => .inl rfl, fun h => (hready h).elim, fun _ _ => rfl⟩
          | @fetched _ restoredBytes refetched restored =>
              cases restored with
              | unwritten =>
                  exact ⟨nofun, fun _ _ => .inl rfl, fun h => (hready h).elim, fun _ _ => rfl⟩
              | @written current row now refound clock stored =>
                  cases found.symm.trans refound
                  obtain ⟨hrow, hothers⟩ := get_upsert_atVersion found stored
                  have hrolled : RolledBack digest unitName cacheDir socketDir spec previous
                      events now row := by
                    rw [split]
                    exact ⟨⟨_, refetched.mono (List.subset_append_right _ last)⟩,
                      List.mem_append_right _ clock, stored.prepend _⟩
                  exact ⟨nofun,
                    fun _ _ => .inr ⟨spec, previous, now, row, given, found, hrow, hrolled⟩,
                    fun h => (hready h).elim, hothers⟩
      | upgraded written =>
          obtain ⟨now, hupgraded⟩ := written
          obtain ⟨hrow, hothers⟩ := get_upsert_atVersion found hupgraded.stored
          have hwhole := hupgraded.prepend (asking ++ stopping)
          rw [← split] at hwhole
          exact ⟨fun _ => ⟨⟨bytes, fetched⟩, previous, now, _, found, hrow, hwhole⟩, nofun,
            fun h => (hready h).elim, hothers⟩

/-! ### A sidecar that is upgraded -/

def runningRow : UnitRow :=
  ⟨"echo", "sidecar", "1.0.0", "running", none, none, some 7, none, none, 0⟩

def runningTable : UnitTable := Store.Table.empty.upsert runningRow

def echoArtifact : Artifact := ⟨"https://cp/echo.tgz", "00"⟩

def echoRollback : RollbackSpec := ⟨"1.0.0", ⟨"https://cp/old.tgz", "00"⟩⟩

def echoUpgrade : Prog UnitSig (Except Error Unit) :=
  upgrade (fun _ => "00") "echo" "/cache" "/run" "2.0.0" echoArtifact (some echoRollback)

/-- The artifact is downloaded and the old process is stopped. -/
def stoppedOld : List (Event UnitSig) :=
  [⟨.get "https://cp/echo.tgz", .ok ⟨200, "200 OK"⟩⟩, ⟨.bytes "https://cp/echo.tgz", .ok []⟩,
    ⟨.getUnit "echo", .ok (some runningRow)⟩, ⟨.status "kill" ["-TERM", Nat.repr 7], .ok (some 0)⟩,
    ⟨.sleep 2000, ()⟩]

def echoArchive : String :=
  joinPath (joinPath "/cache" "echo") ("echo" ++ "-" ++ "2.0.0" ++ ".tar.gz")

/-- The archive is extracted, or not. -/
def extraction (status : ExitStatus) : List (Event UnitSig) :=
  [⟨.createDirAll (joinPath "/cache" "echo"), .ok ()⟩, ⟨.write echoArchive [], .ok ()⟩,
    ⟨.status "tar" ["xzf", echoArchive, "-C", joinPath "/cache" "echo"], .ok status⟩]

def upgradedRow : UnitRow := (runningRow.atVersion "2.0.0" 9).started 8

def startedNew : List (Event UnitSig) :=
  [⟨.nowMs, (9 : Int)⟩, ⟨.pathExists (binaryPath "echo" "/cache"), true⟩,
    ⟨.spawn (binaryPath "echo" "/cache") ["--socket", socketPathFor "/run" "echo"],
      .ok (some 8)⟩,
    ⟨.instant, (0 : Nat)⟩, ⟨.instant, (0 : Nat)⟩,
    ⟨.callRaw (socketPathFor "/run" "echo") "health" none,
      .ok ⟨"2.0", none, none, .integer 1⟩⟩,
    ⟨.upsertUnit upgradedRow, .ok ()⟩]

def upgradedRun : List (Event UnitSig) := stoppedOld ++ extraction (some 0) ++ startedNew

theorem ran_upgradedRun :
    Ran serves runningTable echoUpgrade upgradedRun (runningTable.upsert upgradedRow)
      (.ok ()) := by
  constructor
  · iterate 15 refine .call ?_
    exact .refl _
  · iterate 15 refine .cons ⟨rfl, rfl⟩ ?_
    exact .nil _

theorem upgrade_outcome_echo :
    (∃ bytes, Fetched (fun _ => "00") echoArtifact upgradedRun bytes) ∧
      ∃ previous now row, runningTable.get "echo" = some previous ∧
        (runningTable.upsert upgradedRow).get "echo" = some row ∧
        Upgraded "echo" "/cache" "/run" "2.0.0" previous upgradedRun now row :=
  (upgrade_outcome ran_upgradedRun).1 rfl

/-! ## Rolling back -/

theorem calm_performRollback {spec : RollbackSpec} :
    (performRollback digest unitName cacheDir socketDir spec).Uses UnitOp.calm := by
  refine Prog.Uses.orReturn (harmless_fetch.mono fun _ => calm_of_harmless) fun bytes => ?_
  refine Prog.Uses.orReturn (indoors_unpack.mono fun _ => calm_of_indoors) fun extracted => ?_
  split
  · refine Prog.Uses.orReturn (uses_call trivial) fun current => ?_
    cases current with
    | none => trivial
    | some current =>
        refine Prog.Uses.bind (uses_call trivial) fun now => ?_
        dsimp only
        split
        · refine Prog.Uses.bind (uses_call trivial) fun present => ?_
          split
          · refine Prog.Uses.orReturn ?_ fun pid => uses_call trivial
            exact Prog.Uses.orReturn (uses_converted (uses_call trivial)) fun _ => trivial
          · exact uses_call trivial
        · exact uses_call trivial
  · trivial

/-- After the kill, a run that was broken off has asked for nothing more. -/
theorem not_rolledBack_of_plain {spec : RollbackSpec} {kill : Event UnitSig}
    {asking stopping ending before later : List (Event UnitSig)} {outcome : Except Error Unit}
    (hharmless : ∀ event ∈ asking, event.1.harmless) (hkills : ∀ event ∈ stopping, event.1.kills)
    (hplain : ∀ event ∈ ending, Plain event)
    (hsplit : asking ++ (stopping ++ ending) = before ++ later) (hbefore : kill ∈ before)
    (hkill : ¬ kill.1.harmless)
    (h : (performRollback digest unitName cacheDir socketDir spec).Steps later (.ret outcome)) :
    False := by
  have hsubset := later_subset hsplit.symm hbefore fun hasking => hkill (hharmless kill hasking)
  cases h with
  | @call _ _ ans rest =>
      have hget : (⟨.get spec.artifact.url, ans⟩ : Event UnitSig) ∈ stopping ++ ending :=
        hsubset List.mem_cons_self
      rcases List.mem_append.mp hget with hstopping | hending
      · exact hkills _ hstopping
      · exact hplain _ hending

theorem not_noticed_of_plain {asking stopping ending : List (Event UnitSig)}
    (hharmless : ∀ event ∈ asking, event.1.harmless) (hkills : ∀ event ∈ stopping, event.1.kills)
    (hplain : ∀ event ∈ ending, Plain event) : ¬ Noticed (asking ++ (stopping ++ ending)) := by
  rintro (⟨args, status, htar, hfailed⟩ | ⟨before, later, heq, ⟨start, hstart, hspawns⟩, kill,
    hkill, hcalm⟩)
  · rcases List.mem_append.mp htar with hasking | hrest
    · exact hharmless _ hasking
    · rcases List.mem_append.mp hrest with hstopping | hending
      · have hprogram : "tar" = "kill" := hkills _ hstopping
        simp at hprogram
      · have hsuccess : ExitStatus.success status = true := (hplain _ hending).2
        simp [hfailed] at hsuccess
  · obtain ⟨path, argv, child, rfl⟩ := hspawns
    rw [← List.append_assoc] at heq
    have hending : kill ∈ ending := by
      refine later_subset heq.symm hstart (fun hhead => ?_) hkill
      rcases List.mem_append.mp hhead with hasking | hstopping
      · exact hharmless _ hasking
      · exact hkills _ hstopping
    have hplainKill := hplain kill hending
    obtain ⟨op, ans⟩ := kill
    cases op with
    | status program argv =>
        cases ans with
        | error e => exact hcalm (by simp [UnitOp.calm, show program = "tar" from hplainKill])
        | ok status => exact hcalm (by simp [UnitOp.calm, hplainKill.1])
    | _ => exact hcalm trivial

/--
An upgrade with a rollback that fails after it has tried to stop the old process has gone
through `perform_rollback` exactly if its failure was one that it looks at: an extraction
that exits with an error or a new process that is not healthy and is stopped again.  The
failures that `?` passes on, of the steps it makes itself, are the others.
-/
theorem rollback_attempted {spec : RollbackSpec} {e : Error} {pid : Nat}
    {ans : Except String ExitStatus}
    (h : Ran serves table (upgrade digest unitName cacheDir socketDir targetVersion artifact
      (some spec)) events after (.error e))
    (hsignalled : (⟨.status "kill" ["-TERM", Nat.repr pid], ans⟩ : Event UnitSig) ∈ events) :
    (∃ before ending outcome, events = before ++ ending ∧
      (⟨.status "kill" ["-TERM", Nat.repr pid], ans⟩ : Event UnitSig) ∈ before ∧
      (performRollback digest unitName cacheDir socketDir spec).Steps ending (.ret outcome)) ↔
      Noticed events := by
  generalize hresult : (.error e : Except Error Unit) = result at h
  cases upgradeEnd_of_ran h with
  | refused harmless => exact (harmless _ hsignalled).elim
  | @stopped _ _ _ _ asking stopping ending split harmless kills fetched found tail =>
      cases tail with
      | broken unwritten plain =>
          subst split
          refine iff_of_false ?_ (not_noticed_of_plain harmless kills plain)
          rintro ⟨before, later, outcome, heq, hkill, hsteps⟩
          exact not_rolledBack_of_plain harmless kills plain heq hkill (fun h => h) hsteps
      | abandoned unwritten given => cases given
      | @rolledBack before later _ _ outcome _ unwritten noticed given ran =>
          cases given
          subst split
          have hnoticed := noticed.append (asking ++ stopping) later
          simp only [List.append_assoc] at hnoticed
          refine iff_of_true ⟨asking ++ (stopping ++ before), later, outcome, ?_, ?_, ran.steps⟩
            hnoticed
          · simp only [List.append_assoc]
          · simp only [← List.append_assoc, List.mem_append] at hsignalled ⊢
            rcases hsignalled with hbefore | hlater
            · exact hbefore
            · exact absurd rfl (ran.uses calm_performRollback _ hlater)
      | upgraded written => cases hresult

/-- The archive is broken, and the one to roll back to is gone. -/
def rolledBackRun : List (Event UnitSig) :=
  stoppedOld ++ extraction (some 2) ++ [⟨.get "https://cp/old.tgz", .error "gone"⟩]

theorem ran_rolledBackRun :
    Ran serves runningTable echoUpgrade rolledBackRun runningTable (.error (.http "gone")) := by
  constructor
  · iterate 9 refine .call ?_
    exact .refl _
  · iterate 9 refine .cons ⟨rfl, rfl⟩ ?_
    exact .nil _

theorem rollback_attempted_echo :
    Noticed rolledBackRun ∧ ∃ before ending outcome, rolledBackRun = before ++ ending ∧
      (⟨.status "kill" ["-TERM", Nat.repr 7], .ok (some 0)⟩ : Event UnitSig) ∈ before ∧
      (performRollback (fun _ => "00") "echo" "/cache" "/run" echoRollback).Steps ending
        (.ret outcome) := by
  have hkill : (⟨.status "kill" ["-TERM", Nat.repr 7], .ok (some 0)⟩ : Event UnitSig) ∈
      rolledBackRun := by
    simp [rolledBackRun, stoppedOld]
  have hnoticed : Noticed rolledBackRun :=
    .inl ⟨["xzf", echoArchive, "-C", joinPath "/cache" "echo"], some 2,
      by simp [rolledBackRun, extraction], rfl⟩
  exact ⟨hnoticed, (rollback_attempted ran_rolledBackRun hkill).mpr hnoticed⟩

/-- The directory cannot be created when the old process is stopped already. -/
def brokenRun : List (Event UnitSig) :=
  stoppedOld ++ [⟨.createDirAll (joinPath "/cache" "echo"), .error "no space"⟩]

theorem ran_brokenRun :
    Ran serves runningTable echoUpgrade brokenRun runningTable (.error (.io "no space")) := by
  constructor
  · iterate 6 refine .call ?_
    exact .refl _
  · iterate 6 refine .cons ⟨rfl, rfl⟩ ?_
    exact .nil _

theorem rollback_not_attempted :
    Ran serves runningTable echoUpgrade brokenRun runningTable (.error (.io "no space")) ∧
      (⟨.status "kill" ["-TERM", Nat.repr 7], .ok (some 0)⟩ : Event UnitSig) ∈ brokenRun ∧
      ¬ ∃ before ending outcome, brokenRun = before ++ ending ∧
        (⟨.status "kill" ["-TERM", Nat.repr 7], .ok (some 0)⟩ : Event UnitSig) ∈ before ∧
        (performRollback (fun _ => "00") "echo" "/cache" "/run" echoRollback).Steps ending
          (.ret outcome) := by
  refine ⟨ran_brokenRun, by simp [brokenRun, stoppedOld], ?_⟩
  rintro ⟨before, ending, outcome, heq, hkill, hsteps⟩
  -- a rollback begins with a request that is not in the run
  cases hsteps with
  | @call _ _ ans later =>
      have hget : (⟨.get echoRollback.artifact.url, ans⟩ : Event UnitSig) ∈ brokenRun := by
        rw [heq]
        simp
      simp [brokenRun, stoppedOld, echoRollback] at hget

/-! ## The process that the row names -/

/-- A process with this id was started. -/
def Starts (pid : Nat) (event : Event UnitSig) : Prop :=
  ∃ path args child, event = ⟨.spawn path args, .ok child⟩ ∧ child.getD 0 = pid

/-- The process with this id was not sent `TERM` after it was last started. -/
def Spared (pid : Nat) (events : List (Event UnitSig)) : Prop :=
  ∀ before event later, events = before ++ event :: later → Terminates pid event →
    ∃ start ∈ later, Starts pid start

/-- Whoever was signalled before a start, the process that was started is spared. -/
theorem spared_of_start {before later : List (Event UnitSig)} {start : Event UnitSig} {pid : Nat}
    (hstart : Starts pid start) (hcalm : ∀ event ∈ later, ¬ Signals event) :
    Spared pid (before ++ start :: later) := by
  intro first event rest heq hkill
  have hnotStart : event ≠ start := by
    rintro rfl
    obtain ⟨path, args, child, rfl, -⟩ := hstart
    obtain ⟨status, heq, -⟩ := hkill
    cases heq
  have hnotLater : event ∉ later := fun hevent => hcalm event hevent ⟨pid, hkill⟩
  rcases List.append_eq_append_iff.mp heq with ⟨mid, -, hmid⟩ | ⟨mid, -, hmid⟩
  · have hevent : event ∈ start :: later := by
      rw [hmid]
      simp
    simp [hnotStart, hnotLater] at hevent
  · cases mid with
    | nil => exact absurd (List.cons.inj hmid).1 hnotStart
    | cons other mid =>
        rw [(List.cons.inj hmid).2]
        exact ⟨start, by simp, hstart⟩

/-- A row was written that names a process which was started and not stopped since. -/
def Renewed (events : List (Event UnitSig)) : Prop :=
  ∃ before path args child later row,
    events = before ++ ⟨.spawn path args, .ok child⟩ :: later ∧
    (∀ event ∈ later, event.1.calm) ∧
    (⟨.upsertUnit row, .ok ()⟩ : Event UnitSig) ∈ later ∧ row.pid = some (child.getD 0)

theorem not_renewed_of_unwritten (h : ∀ event ∈ events, ¬ Writes event) : ¬ Renewed events := by
  rintro ⟨before, path, args, child, later, row, rfl, -, hrow, -⟩
  exact h _ (List.mem_append_right before (List.mem_cons_of_mem _ hrow)) ⟨row, rfl⟩

/-- The running row of a unit, if it has one, names a process that was not stopped. -/
def NamesLive (unitName : String) (after : UnitTable) (events : List (Event UnitSig)) : Prop :=
  ∀ row pid, after.get unitName = some row → row.state = "running" → row.pid = some pid →
    Spared pid events

/-- A row that still has the process of the previous one. -/
theorem namesLive_kept {previous row : UnitRow} (hrow : after.get unitName = some row)
    (hstate : row.state = "running") (hpid : row.pid = previous.pid)
    (hrenewed : Renewed events → ∀ pid, row.pid = some pid → Spared pid events) :
    NamesLive unitName after events ↔
      (∀ pid, previous.pid = some pid → Spared pid events) ∨ Renewed events := by
  constructor
  · intro h
    exact .inl fun pid hprevious => h row pid hrow hstate (hpid.trans hprevious)
  · rintro hspared other pid hother - hotherPid
    cases hrow.symm.trans hother
    rcases hspared with hprevious | hevents
    · exact hprevious pid (hpid.symm.trans hotherPid)
    · exact hrenewed hevents pid hotherPid

theorem namesLive_stored {checked : List (Event UnitSig) → Prop} {previous row : UnitRow}
    {version : String} {now : Int}
    (h : Stored unitName cacheDir socketDir checked events (previous.atVersion version now) row)
    (hrow : after.get unitName = some row) (hstate : previous.state = "running")
    (honly : ∀ other, (⟨.upsertUnit other, .ok ()⟩ : Event UnitSig) ∈ events → other = row) :
    NamesLive unitName after events ↔
      (∀ pid, previous.pid = some pid → Spared pid events) ∨ Renewed events := by
  cases h with
  | kept absent =>
      refine namesLive_kept hrow hstate rfl ?_
      rintro ⟨before, path, args, child, later, other, rfl, hcalm, hother, hchild⟩ pid hpid
      obtain rfl := honly other (List.mem_append_right before (List.mem_cons_of_mem _ hother))
      exact spared_of_start ⟨_, _, _, rfl, Option.some.inj (hchild.symm.trans hpid)⟩
        fun event hevent => not_signals_of_calm (hcalm event hevent)
  | @started before later child sidecar present split calm written check =>
      refine iff_of_true ?_ (.inr ⟨before, _, _, child, later, _, split, calm, written, rfl⟩)
      rintro other pid hother - hpid
      cases hrow.symm.trans hother
      rw [split]
      exact spared_of_start ⟨_, _, _, rfl, Option.some.inj hpid⟩
        fun event hevent => not_signals_of_calm (calm event hevent)

end Main

end VasalAgent.Units
