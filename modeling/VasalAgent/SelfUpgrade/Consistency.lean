import VasalAgent.SelfUpgrade.Program
import VasalAgent.Task.Sidecar

/-!
# Crash consistency of a self-upgrade

At whatever point `execute` is stopped, the executable is the old binary or the verified
new one, and in the second case the copy of the old one and the note are in place.  What
is left after an error, and what `check_pending` and `rollback` make of a success, follows
from the same walk through the program (`secures_execute`).
-/

namespace VasalAgent.SelfUpgrade

open VasalAgent.Async
open VasalAgent.Serde
open VasalAgent.Store
open VasalAgent.Task (Error)
open VasalAgent.Task.Sidecar (joinPath joinPath_injective relative_of_head)

/-! ## Paths -/

theorem toList_backup (version : String) :
    ("vasal." ++ version ++ ".bak").toList =
      'v' :: (['a', 's', 'a', 'l', '.'] ++ version.toList ++ ['.', 'b', 'a', 'k']) := by
  simp [String.toList_append]

theorem relative_backup (version : String) :
    ("vasal." ++ version ++ ".bak").startsWith "/" = false :=
  relative_of_head (toList_backup version) (by decide)

theorem toList_stateFile : stateFile.toList = 'p' :: "ending-upgrade.json".toList := by
  simp [stateFile]

theorem toList_new : "vasal.new".toList = 'v' :: "asal.new".toList := by simp

/-- The name of a backup has an ending of its own. -/
theorem backup_ne {version name : String} (h : name.toList.getLast? ≠ some 'k') :
    "vasal." ++ version ++ ".bak" ≠ name := by
  rintro rfl
  simp [List.getLast?_cons, List.getLast?_append] at h

section Paths

variable (dataDir currentVersion : String)

theorem backupPath_ne_statePath : backupPath dataDir currentVersion ≠ statePath dataDir :=
  fun h => backup_ne (by simp [stateFile]) (joinPath_injective (relative_backup _)
    (relative_of_head toList_stateFile (by decide)) h)

theorem backupPath_ne_newPath : backupPath dataDir currentVersion ≠ newPath dataDir :=
  fun h => backup_ne (by simp) (joinPath_injective (relative_backup _)
    (relative_of_head toList_new (by decide)) h)

theorem statePath_ne_newPath : statePath dataDir ≠ newPath dataDir := by
  intro h
  have hname := joinPath_injective (relative_of_head toList_stateFile (by decide))
    (relative_of_head toList_new (by decide)) h
  simp [stateFile] at hname

/-- The executable stands apart from the files of the upgrade. -/
structure Apart (exe : String) : Prop where
  backup : exe ≠ backupPath dataDir currentVersion
  state : exe ≠ statePath dataDir
  new : exe ≠ newPath dataDir

end Paths

/-! ## The note -/

/-- What the state file says, if it can be read as a note. -/
def pendingOn (dataDir : String) (disk : Files) : Option PendingUpgrade :=
  (disk (statePath dataDir)).bind PendingUpgrade.record.codec.fromSlice

def inRange (now : Int) : Prop := -2 ^ 63 ≤ now ∧ now < 2 ^ 63

theorem depth_write (pending : PendingUpgrade) :
    depth (.obj (PendingUpgrade.record.write pending)) ≤ depthLimit := by
  have hdepth : depth (.obj (PendingUpgrade.record.write pending)) = 1 := rfl
  rw [hdepth]
  decide

/-- A note that was written is read back. -/
theorem fromSlice_toFile {pending : PendingUpgrade} (h : inRange pending.initiatedAt) :
    PendingUpgrade.record.codec.fromSlice pending.toFile = some pending := by
  have hvalid : PendingUpgrade.record.Valid pending := ⟨trivial, trivial, trivial, h, trivial⟩
  rw [Codec.fromSlice, PendingUpgrade.toFile, Text.fromUTF8?_toUTF8, Option.bind_eq_bind,
    Option.bind_some]
  exact PendingUpgrade.record.fromText_toPretty hvalid (depth_write pending)

/-! ## The walk through `execute` -/

/-- The disk, and the calls made so far. -/
abbrev Moment := Files × List (Event UpgradeSig)

/-- A write of the note was answered so. -/
def TriedNote (dataDir : String) (ans : Except String Unit) (log : List (Event UpgradeSig)) :
    Prop :=
  ∃ bytes, (⟨.file (.write (statePath dataDir) bytes), ans⟩ : Event UpgradeSig) ∈ log

theorem TriedNote.append {dataDir : String} {ans : Except String Unit}
    {log : List (Event UpgradeSig)} (h : TriedNote dataDir ans log)
    (later : List (Event UpgradeSig)) : TriedNote dataDir ans (log ++ later) := by
  obtain ⟨bytes, hmem⟩ := h
  exact ⟨bytes, List.mem_append_left later hmem⟩

/-- One call of `execute`, with what it finds on the machine. -/
structure Attempt where
  machine : Machine
  digest : List UInt8 → String
  artifactUrl : String
  expectedSha256 : String
  targetVersion : String
  currentVersion : String
  dataDir : String
  old : List UInt8
  apart : Apart dataDir currentVersion machine.exe

namespace Attempt

variable (a : Attempt)

def program : Prog UpgradeSig (Except Error Unit) :=
  execute a.digest a.artifactUrl a.expectedSha256 a.targetVersion a.currentVersion a.dataDir

abbrev backup : String := backupPath a.dataDir a.currentVersion

def note (now : Int) : PendingUpgrade := ⟨a.targetVersion, a.currentVersion, a.backup, now⟩

/-- The copy of the old binary and the note of this upgrade are in place. -/
structure Noted (disk : Files) : Prop where
  backup : disk a.backup = some a.old
  pending : ∃ now, pendingOn a.dataDir disk = some (a.note now)

/-- The new binary has taken the place of the old one. -/
structure Replaced (disk : Files) : Prop extends a.Noted disk where
  exe : disk a.machine.exe = some a.machine.artifact
  verified : a.digest a.machine.artifact = a.expectedSha256

/-- The executable is the old binary, or the new one with everything needed to go back. -/
def Consistent (disk : Files) : Prop := disk a.machine.exe = some a.old ∨ a.Replaced disk

/-- What became of the note. -/
inductive Fate (before : Files) (q : Moment) : Prop
  | untried (untried : ∀ ans, ¬ TriedNote a.dataDir ans q.2)
      (same : q.1 (statePath a.dataDir) = before (statePath a.dataDir))
  | torn {e : String} (unwritten : ¬ TriedNote a.dataDir (.ok ()) q.2)
      (torn : TriedNote a.dataDir (.error e) q.2)
  | written {now : Int} (written : TriedNote a.dataDir (.ok ()) q.2)
      (pending : pendingOn a.dataDir q.1 = some (a.note now))

/-- What `execute` leaves when it returns. -/
def Leaves (before : Files) : Except Error Unit → Moment → Prop
  | .ok _, q => a.Replaced q.1
  | .error _, q => q.1 a.machine.exe = some a.old ∧ a.Fate before q

/-- `p` is consistent wherever it is stopped, and leaves `post` when it returns. -/
abbrev Safe {α : Type} (post : α → Moment → Prop) (p : Prog UpgradeSig α) (q : Moment) : Prop :=
  p.Secures (logged a.machine.serves) (fun q op last => torn q.1 op last.1)
    (fun q => a.Consistent q.1) post q

variable {a} {q : Moment}

/-- A call that does not write to the executable, made while that is the old binary. -/
theorem safe_call {op : UpgradeOp} {post : op.Ans → Moment → Prop}
    (hexe : q.1 a.machine.exe = some a.old)
    (htarget : ∀ file, op = .file file → file.target? ≠ some a.machine.exe)
    (h : ∀ ans disk, a.machine.serves q.1 ⟨op, ans⟩ disk →
      a.Consistent disk ∧ post ans (disk, q.2 ++ [⟨op, ans⟩])) :
    a.Safe post (call op) q := by
  refine Prog.secures_perform (.inl hexe) (fun last hcut => .inl ?_) fun ans q' hstep => ?_
  · cases op with
    | file op => rw [FileOp.torn_other hcut (htarget op rfl), hexe]
    | _ => rw [show last.1 = q.1 from hcut, hexe]
  · obtain ⟨disk, log⟩ := q'
    obtain ⟨hserves, hlog⟩ := hstep
    subst hlog
    exact h ans disk hserves

theorem Noted.update {disk : Files} (h : a.Noted disk) {path : String} (hbackup : a.backup ≠ path)
    (hstate : statePath a.dataDir ≠ path) (left : Option (List UInt8)) :
    a.Noted (Function.update disk path left) where
  backup := by rw [Function.update_of_ne hbackup, h.backup]
  pending := by simpa [pendingOn, Function.update_of_ne hstate] using h.pending

/-! The steps of `replace`, from the last to the first, each with what the earlier ones left. -/

section Steps

variable (a) in
/-- The rename, with which `execute` ends. -/
def place : Prog UpgradeSig (Except Error Unit) :=
  orReturn .io (call (.file (.rename (newPath a.dataDir) a.machine.exe))) fun _ => pure (.ok ())

variable (a) in
def publish : Prog UpgradeSig (Except Error Unit) :=
  orReturn .io (call (.file (.setPermissions (newPath a.dataDir) 0o755))) fun _ => a.place

variable (a) in
def stage : Prog UpgradeSig (Except Error Unit) :=
  orReturn .io (call (.file (.write (newPath a.dataDir) a.machine.artifact))) fun _ => a.publish

variable (a) in
def leaveNote (now : Int) : Prog UpgradeSig (Except Error Unit) :=
  orReturn .io (call (.file (.write (statePath a.dataDir) (a.note now).toFile))) fun _ => a.stage

theorem replace_eq :
    replace a.targetVersion a.currentVersion a.dataDir a.machine.artifact a.machine.exe =
      orReturn .io (call (.file (.copy a.machine.exe a.backup))) fun _ =>
        call .nowMs >>= a.leaveNote := rfl

/-- Nothing but the rename touches the executable. -/
theorem exe_update {disk : Files} (hexe : disk a.machine.exe = some a.old) {path : String}
    (hpath : a.machine.exe ≠ path) (left : Option (List UInt8)) :
    Function.update disk path left a.machine.exe = some a.old :=
  (Function.update_of_ne hpath ..).trans hexe

variable {before : Files}

theorem Noted.fate {disk : Files} {log : List (Event UpgradeSig)} (h : a.Noted disk)
    (hwritten : TriedNote a.dataDir (.ok ()) log) (later : List (Event UpgradeSig)) :
    a.Fate before (disk, log ++ later) := by
  obtain ⟨now, hpending⟩ := h.pending
  exact .written (hwritten.append later) hpending

theorem safe_place (hexe : q.1 a.machine.exe = some a.old) (hnoted : a.Noted q.1)
    (hwritten : TriedNote a.dataDir (.ok ()) q.2)
    (hnew : q.1 (newPath a.dataDir) = some a.machine.artifact)
    (hverified : a.digest a.machine.artifact = a.expectedSha256) :
    a.Safe (a.Leaves before) a.place q := by
  refine Prog.Secures.orReturn
    (safe_call hexe (by rintro _ ⟨⟩; simp [FileOp.target?]) fun ans disk h => ?_)
  cases ans with
  | error e =>
      obtain rfl : disk = q.1 := h
      exact ⟨.inl hexe, hexe, hnoted.fate hwritten _⟩
  | ok _ =>
      obtain ⟨content, hcontent, rfl⟩ := h
      obtain rfl : content = a.machine.artifact := Option.some.inj (hcontent.symm.trans hnew)
      have hmoved := hnoted.update (backupPath_ne_newPath _ _) (statePath_ne_newPath _) none
      have hplaced := hmoved.update a.apart.backup.symm a.apart.state.symm
        (some a.machine.artifact)
      have hreplaced : a.Replaced _ := ⟨hplaced, Function.update_self .., hverified⟩
      exact ⟨.inr hreplaced, .inr hreplaced, hreplaced⟩

theorem safe_publish (hexe : q.1 a.machine.exe = some a.old) (hnoted : a.Noted q.1)
    (hwritten : TriedNote a.dataDir (.ok ()) q.2)
    (hnew : q.1 (newPath a.dataDir) = some a.machine.artifact)
    (hverified : a.digest a.machine.artifact = a.expectedSha256) :
    a.Safe (a.Leaves before) a.publish q := by
  refine Prog.Secures.orReturn
    (safe_call hexe (by rintro _ ⟨⟩; simp [FileOp.target?]) fun ans disk h => ?_)
  obtain rfl : disk = q.1 := by cases ans <;> exact h
  cases ans with
  | error e => exact ⟨.inl hexe, hexe, hnoted.fate hwritten _⟩
  | ok _ => exact ⟨.inl hexe, safe_place hexe hnoted (hwritten.append _) hnew hverified⟩

/-- A file of the upgrade is written; a write that fails may leave anything there. -/
theorem safe_write {path : String} {bytes : List UInt8} {rest : Prog UpgradeSig (Except Error Unit)}
    (hexe : q.1 a.machine.exe = some a.old) (hpath : a.machine.exe ≠ path)
    (hfate : ∀ left e, a.Fate before (Function.update q.1 path left,
      q.2 ++ [⟨.file (.write path bytes), .error e⟩]))
    (hrest : a.Safe (a.Leaves before) rest (Function.update q.1 path (some bytes),
      q.2 ++ [⟨.file (.write path bytes), .ok ()⟩])) :
    a.Safe (a.Leaves before) (orReturn .io (call (.file (.write path bytes))) fun _ => rest) q := by
  have hkeeps := exe_update hexe hpath
  refine Prog.Secures.orReturn (safe_call hexe ?_ fun ans disk h => ?_)
  · rintro _ ⟨⟩
    simpa [FileOp.target?] using hpath.symm
  cases ans with
  | error e =>
      obtain ⟨left, rfl⟩ := h
      exact ⟨.inl (hkeeps left), hkeeps left, hfate left e⟩
  | ok _ =>
      obtain rfl := h
      exact ⟨.inl (hkeeps _), hrest⟩

theorem safe_stage (hexe : q.1 a.machine.exe = some a.old) (hnoted : a.Noted q.1)
    (hwritten : TriedNote a.dataDir (.ok ()) q.2)
    (hverified : a.digest a.machine.artifact = a.expectedSha256) :
    a.Safe (a.Leaves before) a.stage q := by
  have hstill := hnoted.update (backupPath_ne_newPath _ _) (statePath_ne_newPath _)
  refine safe_write hexe a.apart.new (fun left e => (hstill left).fate hwritten _) ?_
  exact safe_publish (exe_update hexe a.apart.new _) (hstill _) (hwritten.append _)
    (Function.update_self ..) hverified

/-- The note is written when the copy is there. -/
theorem safe_leaveNote (hexe : q.1 a.machine.exe = some a.old)
    (hbackup : q.1 a.backup = some a.old) (huntried : ∀ ans, ¬ TriedNote a.dataDir ans q.2)
    (hverified : a.digest a.machine.artifact = a.expectedSha256) {now : Int} (hnow : inRange now) :
    a.Safe (a.Leaves before) (a.leaveNote now) q := by
  refine safe_write hexe a.apart.state (fun left e => .torn ?_ ⟨_, List.mem_concat_self⟩) ?_
  · rintro ⟨bytes, hmem⟩
    rcases List.mem_append.mp hmem with hearlier | hlast
    · exact huntried _ ⟨bytes, hearlier⟩
    · simp at hlast
  refine safe_stage (exe_update hexe a.apart.state _) ⟨?_, now, ?_⟩ ⟨_, List.mem_concat_self⟩
    hverified
  · exact (Function.update_of_ne (backupPath_ne_statePath _ _) _ _).trans hbackup
  · dsimp only
    rw [pendingOn, Function.update_self, Option.bind_some]
    exact fromSlice_toFile hnow

theorem safe_replace (hexe : q.1 a.machine.exe = some a.old)
    (hstate : q.1 (statePath a.dataDir) = before (statePath a.dataDir))
    (huntried : ∀ ans, ¬ TriedNote a.dataDir ans q.2)
    (hverified : a.digest a.machine.artifact = a.expectedSha256) :
    a.Safe (a.Leaves before) (replace a.targetVersion a.currentVersion a.dataDir
      a.machine.artifact a.machine.exe) q := by
  have hkeeps := exe_update hexe a.apart.backup
  rw [replace_eq]
  refine Prog.Secures.orReturn (safe_call hexe ?_ fun ans disk h => ?_)
  · rintro _ ⟨⟩
    simpa [FileOp.target?] using a.apart.backup.symm
  cases ans with
  | error e =>
      obtain ⟨left, rfl⟩ := h
      refine ⟨.inl (hkeeps left), hkeeps left, .untried ?_ ?_⟩
      · simpa [TriedNote] using huntried
      · exact (Function.update_of_ne (backupPath_ne_statePath _ _).symm _ _).trans hstate
  | ok _ =>
      obtain ⟨content, hcontent, rfl⟩ := h
      obtain rfl : content = a.old := Option.some.inj (hcontent.symm.trans hexe)
      refine ⟨.inl (hkeeps _), Prog.Secures.bind (safe_call (hkeeps _) (by rintro _ ⟨⟩) ?_)⟩
      rintro now disk ⟨hnow, rfl⟩
      refine ⟨.inl (hkeeps _), safe_leaveNote (hkeeps _) (Function.update_self ..) ?_ hverified
        hnow⟩
      simpa [TriedNote] using huntried

/-- The whole of `execute`: until it is verified, nothing is done with what was downloaded. -/
theorem safe_execute (hexe : before a.machine.exe = some a.old) :
    a.Safe (a.Leaves before) a.program (before, []) := by
  have huntouched {log : List (Event UpgradeSig)} (e : Error)
      (hlog : ∀ ans, ¬ TriedNote a.dataDir ans log) :
      a.Leaves before (.error e) (before, log) := ⟨hexe, .untried hlog rfl⟩
  refine Prog.Secures.orReturn (safe_call hexe (by rintro _ ⟨⟩) fun ans disk h => ?_)
  obtain rfl : disk = before := by cases ans <;> exact h
  refine ⟨.inl hexe, ?_⟩
  cases ans with
  | error e => exact huntouched _ (by simp [TriedNote])
  | ok status =>
  dsimp only
  split
  · refine Prog.Secures.orReturn (safe_call hexe (by rintro _ ⟨⟩) fun ans disk h => ?_)
    cases ans with
    | error e =>
        obtain rfl : disk = _ := h
        exact ⟨.inl hexe, huntouched _ (by simp [TriedNote])⟩
    | ok bytes =>
    obtain ⟨rfl, rfl⟩ := h
    refine ⟨.inl hexe, ?_⟩
    dsimp only
    split
    · exact ⟨.inl hexe, huntouched _ (by simp [TriedNote])⟩
    · rename_i hverified
      refine Prog.Secures.orReturn (safe_call hexe (by rintro _ ⟨⟩) fun ans disk h => ?_)
      cases ans with
      | error e =>
          obtain rfl : disk = _ := h
          exact ⟨.inl hexe, huntouched _ (by simp [TriedNote])⟩
      | ok exe =>
          obtain ⟨rfl, rfl⟩ := h
          exact ⟨.inl hexe, safe_replace hexe rfl (by simp [TriedNote]) (not_not.mp hverified)⟩
  · exact ⟨.inl hexe, huntouched _ (by simp [TriedNote])⟩

end Steps

end Attempt

end VasalAgent.SelfUpgrade
