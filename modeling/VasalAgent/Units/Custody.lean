import VasalAgent.Async.History
import VasalAgent.Units.LostUpdate

/-!
# Nothing unverified is stored or started

What becomes of a downloaded artifact, as a state machine: bytes are vetted when
they were downloaded from the address of an artifact that the task names and have
its digest; only vetted bytes are written to the disk, only what was written is
unpacked, into the directory of the unit, and only after that is the unit's binary
there started.  Every future of the unit management keeps to it, whatever the others
do; and a file that no other one has written to holds the vetted bytes when it is
unpacked.
-/

namespace VasalAgent.Units

open VasalAgent.Async
open VasalAgent.Protocol
open VasalAgent.Task (Error)
open VasalAgent.Task.Sidecar (joinPath)

/-! ## Custody of an artifact -/

inductive Custody where
  | nothing
  | vetted (bytes : List UInt8)
  | stored (path : String) (bytes : List UInt8)
  | unpacked (path : String) (bytes : List UInt8)
  deriving DecidableEq, Repr

/-- What a job may take for its own: its artifacts and the place of its unit. -/
structure Duty where
  digest : List UInt8 → String
  artifacts : List Artifact
  dir : String
  binary : String

/-- The bytes are those of the artifact that the job's task declares at this address. -/
def Genuine (d : Duty) (url : String) (bytes : List UInt8) : Prop :=
  ∃ artifact ∈ d.artifacts, artifact.url = url ∧ d.digest bytes = artifact.sha256

instance (d : Duty) (url : String) (bytes : List UInt8) : Decidable (Genuine d url bytes) :=
  inferInstanceAs (Decidable (∃ artifact ∈ d.artifacts, _))

def UnitTask.artifacts : UnitTask → List Artifact
  | .install task => [task.unit.artifact]
  | .upgrade task => task.artifact :: (task.rollback.map RollbackSpec.artifact).toList
  | .remove _ => []

/-- The file at `path` has been unpacked, or made executable, by a call that went well. -/
def Custody.opened (path : String) (bytes : List UInt8) (done : Bool) : Custody :=
  if done then .unpacked path bytes else .stored path bytes

def custody (d : Duty) : Monitor UnitSig Custody
  | _, ⟨.bytes url, .ok bytes⟩ =>
      some (if Genuine d url bytes then .vetted bytes else .nothing)
  | .vetted bytes, ⟨.write path data, ans⟩ =>
      if data = bytes then
        some (if ans.isOk then .stored path bytes else .vetted bytes)
      else none
  | _, ⟨.write .., _⟩ => none
  | .stored path bytes, ⟨.setPermissions file _, ans⟩ =>
      if file = path ∧ file = d.binary then some (.opened path bytes ans.isOk) else none
  | _, ⟨.setPermissions .., _⟩ => none
  | q, ⟨.status program args, ans⟩ =>
      if program = "kill" then some q
      else
        match q with
        | .stored path bytes =>
            if path ∈ args ∧ d.dir ∈ args then
              some (.opened path bytes (ans.toOption.any (·.success)))
            else none
        | _ => none
  | .unpacked path bytes, ⟨.spawn program _, _⟩ =>
      if program = d.binary then some (.unpacked path bytes) else none
  | _, ⟨.spawn .., _⟩ => none
  | q, _ => some q

def UnitOp.aside : UnitOp → Prop
  | .bytes _ | .write .. | .setPermissions .. | .spawn .. => False
  | .status program _ => program = "kill"
  | _ => True

section Programs

variable {d : Duty} {α β : Type}

theorem custody_aside (op : UnitOp) (h : op.aside) (ans : op.Ans) (q : Custody) :
    custody d q ⟨op, ans⟩ = some q := by
  cases op with
  | bytes | write | setPermissions | spawn => exact h.elim
  | status program args => cases q <;> simp [custody, show program = "kill" from h]
  | _ => cases q <;> rfl

theorem keeps_custody {p : Prog UnitSig α} (h : p.Uses UnitOp.aside) (q : Custody) :
    p.Ensures (fun _ => True) (custody d) (fun _ q' => q' = q) q :=
  h.ensures fun op ans hop _ => custody_aside op hop ans q

/-- A part of a task that no later part relies on. -/
def Kept (d : Duty) (p : Prog UnitSig α)
    (q : Custody) : Prop :=
  p.Ensures (fun _ => True) (custody d) (fun _ _ => True) q

theorem kept_of_aside {p : Prog UnitSig α} (h : p.Uses UnitOp.aside) (q : Custody) :
    Kept d p q :=
  (keeps_custody h q).mono fun _ _ _ => trivial

/-- The success of a part leaves the artifact in a state that `mid` describes. -/
def Leads (d : Duty)
    (p : Prog UnitSig (Except Error α)) (q : Custody) (mid : α → Custody → Prop) : Prop :=
  p.Ensures (fun _ => True) (custody d)
    (fun result q' => ∀ value, result = .ok value → mid value q') q

theorem leads_error {e : Error} {q : Custody} {mid : α → Custody → Prop} :
    Leads d (.ret (.error e)) q mid :=
  fun _ hvalue => nomatch hvalue

theorem leads_ok {value : α} {q : Custody} {mid : α → Custody → Prop} (h : mid value q) :
    Leads d (.ret (.ok value)) q mid := by
  rintro _ ⟨⟩
  exact h

theorem kept_orReturn {p : Prog UnitSig (Except Error α)}
    {rest : α → Prog UnitSig (Except Error β)} {mid : α → Custody → Prop} {q : Custody}
    (hp : Leads d p q mid)
    (hrest : ∀ value q', mid value q' → Kept d (rest value) q') :
    Kept d (orReturn p rest) q := by
  refine hp.bind fun result q' hq' => ?_
  cases result with
  | error e => exact trivial
  | ok value => exact hrest value q' (hq' value rfl)

theorem kept_aside_orReturn {p : Prog UnitSig (Except Error α)}
    {rest : α → Prog UnitSig (Except Error β)} {q : Custody} (h : p.Uses UnitOp.aside)
    (hrest : ∀ value, Kept d (rest value) q) :
    Kept d (orReturn p rest) q := by
  have hp : Leads d p q fun _ q' => q' = q :=
    (keeps_custody h q).mono fun _ _ hq' _ _ => hq'
  refine kept_orReturn hp fun value q' hq' => ?_
  rw [hq']
  exact hrest value

theorem kept_aside_bind {p : Prog UnitSig α} {rest : α → Prog UnitSig β} {q : Custody}
    (h : p.Uses UnitOp.aside) (hrest : ∀ value, Kept d (rest value) q) :
    Kept d (p >>= rest) q :=
  (keeps_custody h q).andThen hrest

theorem aside_persist (row : UnitRow) : (persist row).Uses UnitOp.aside :=
  uses_call trivial

theorem aside_of_kills {p : Prog UnitSig α} (h : p.Uses UnitOp.kills) :
    p.Uses UnitOp.aside := by
  refine h.mono fun op hop => ?_
  cases op <;> first | exact hop | exact hop.elim

theorem aside_probe {socketDir unitName : String} {timeoutSec : Nat} :
    (probeSidecar socketDir unitName timeoutSec).Uses UnitOp.aside := by
  refine uses_probeSidecar.mono fun op hop => ?_
  cases op <;> first | exact hop.elim | trivial

/-! ### Parts of a task -/

section Parts

variable {what unitName version : String} {bytes : List UInt8}

theorem fetch_vets {artifact : Artifact} (h : artifact ∈ d.artifacts) (q : Custody) :
    Leads d (fetch d.digest what unitName artifact) q
      fun bytes q' => q' = .vetted bytes := by
  intro status _
  refine ⟨q, custody_aside (.get artifact.url) trivial status q, ?_⟩
  cases status with
  | error e => exact leads_error
  | ok status =>
      change Prog.Ensures _ _ _ (if status.isSuccess then _ else _) q
      split
      · intro answer _
        cases answer with
        | error e => exact ⟨q, by cases q <;> rfl, leads_error⟩
        | ok bytes =>
            refine ⟨_, rfl, ?_⟩
            change Prog.Ensures _ _ _ (if d.digest bytes ≠ artifact.sha256 then _ else _) _
            split
            · exact leads_error
            · next hdigest =>
                -- the comparison of the digests is what makes the bytes genuine
                exact leads_ok (if_pos ⟨artifact, h, rfl, not_not.mp hdigest⟩)
      · exact leads_error

theorem leads_write {path : String} {rest : Unit → Prog UnitSig (Except Error α)}
    {mid : α → Custody → Prop}
    (hrest : Leads d (rest ()) (.stored path bytes) mid) :
    Leads d (orReturn (converted .io (call (.write path bytes))) rest)
      (.vetted bytes) mid := by
  intro written _
  cases written with
  | error e => exact ⟨.vetted bytes, if_pos rfl, leads_error⟩
  | ok _ => exact ⟨.stored path bytes, if_pos rfl, hrest⟩

/-- A program that is given the file to unpack, and what is made of its exit status. -/
theorem leads_unpack {path program : String} {args : List String}
    {rest : Task.ExitStatus → Prog UnitSig (Except Error α)} {mid : α → Custody → Prop}
    (hprogram : program ≠ "kill") (hpath : path ∈ args) (hdir : d.dir ∈ args)
    (hrest : ∀ status, Leads d (rest status)
      (.opened path bytes status.success) mid) :
    Leads d (orReturn (converted .io (call (.status program args))) rest)
      (.stored path bytes) mid := by
  intro ended _
  have hstep : custody d (.stored path bytes) ⟨.status program args, ended⟩ =
      some (.opened path bytes (ended.toOption.any (·.success))) := by
    simp [custody, hprogram, hpath, hdir]
  refine ⟨_, hstep, ?_⟩
  cases ended with
  | error e => exact leads_error
  | ok status => exact hrest status

theorem Format.mem_args (format : Format) (artifactPath installDir : String) :
    artifactPath ∈ format.args artifactPath installDir ∧
      installDir ∈ format.args artifactPath installDir := by
  unfold Format.args
  split
  · simp
  · split <;> simp

theorem formats_not_kill : ∀ format ∈ formats, format.program ≠ "kill" := by decide

theorem extractArtifact_unpacks {urlLower : String} (hbinary : d.binary = joinPath d.dir unitName) :
    Leads d (extractArtifact urlLower bytes d.dir unitName version)
      (.vetted bytes) fun _ q' => ∃ path, q' = .unpacked path bytes := by
  unfold extractArtifact
  split
  · next format hformat =>
      refine leads_write ?_
      refine leads_unpack (formats_not_kill format (List.mem_of_find?_eq_some hformat))
        (format.mem_args _ _).1 (format.mem_args _ _).2 fun status => ?_
      cases hsuccess : status.success with
      | true => exact leads_ok ⟨_, rfl⟩
      | false => exact leads_error
  · refine leads_write ?_
    intro changed _
    refine ⟨_, if_pos ⟨rfl, hbinary.symm⟩, ?_⟩
    cases changed with
    | error e => exact leads_error
    | ok _ => exact leads_ok ⟨_, rfl⟩

theorem unpack_unpacks :
    Leads d (unpack unitName version d.dir bytes) (.vetted bytes)
      fun extracted q' => extracted = true → ∃ path, q' = .unpacked path bytes := by
  intro created _
  refine ⟨.vetted bytes, rfl, ?_⟩
  cases created with
  | error e => exact leads_error
  | ok _ =>
      refine leads_write ?_
      refine leads_unpack (by decide) (by simp) (by simp) fun status =>
        leads_ok fun hsuccess => ?_
      rw [hsuccess]
      exact ⟨_, rfl⟩

theorem startSidecar_starts {binaryPath socket path : String} (hbinary : d.binary = binaryPath) :
    Leads d (startSidecar binaryPath socket) (.unpacked path bytes)
      fun _ q' => q' = .unpacked path bytes := by
  intro answer _
  refine ⟨.unpacked path bytes, if_pos hbinary.symm, ?_⟩
  cases answer with
  | error e => exact leads_error
  | ok pid => exact leads_ok rfl

end Parts

/-! ### Tasks -/

section Tasks

variable {cacheDir socketDir : String}

/-- The duty of a job on the unit of this name. -/
def Duty.on (digest : List UInt8 → String) (cacheDir unitName : String)
    (artifacts : List Artifact) : Duty where
  digest
  artifacts
  dir := joinPath cacheDir unitName
  binary := joinPath (joinPath cacheDir unitName) unitName

variable {digest : List UInt8 → String} {artifacts : List Artifact} {unitName : String}

theorem install_kept {unit : ManagedUnit} (h : unit.artifact ∈ artifacts) (q : Custody) :
    Kept (.on digest cacheDir unit.name artifacts) (install digest unit cacheDir socketDir) q := by
  refine kept_orReturn (fetch_vets h q) ?_
  rintro bytes _ rfl
  refine kept_aside_orReturn (uses_converted (uses_call trivial)) fun _ => ?_
  refine kept_orReturn (extractArtifact_unpacks rfl) ?_
  rintro _ _ ⟨path, rfl⟩
  refine kept_aside_bind (uses_call trivial) fun now => ?_
  cases unit.kind with
  | package => exact kept_of_aside (aside_persist _) _
  | sidecar =>
      refine kept_aside_bind (uses_call trivial) fun found => ?_
      cases found with
      | false => exact kept_of_aside (aside_persist _) _
      | true =>
          refine kept_orReturn (startSidecar_starts rfl) fun pid _ _ => ?_
          exact kept_of_aside (aside_persist _) _

theorem performRollback_kept {spec : RollbackSpec} (h : spec.artifact ∈ artifacts)
    (q : Custody) :
    Kept (.on digest cacheDir unitName artifacts)
      (performRollback digest unitName cacheDir socketDir spec) q := by
  refine kept_orReturn (fetch_vets h q) ?_
  rintro bytes _ rfl
  refine kept_orReturn unpack_unpacks fun extracted q' hq' => ?_
  cases extracted with
  | false => exact trivial
  | true =>
      obtain ⟨path, rfl⟩ := hq' rfl
      refine kept_aside_orReturn (uses_call trivial) fun current => ?_
      cases current with
      | none => exact trivial
      | some current =>
          refine kept_aside_bind (uses_call trivial) fun now => ?_
          dsimp only
          split
          · refine kept_aside_bind (uses_call trivial) fun found => ?_
            cases found with
            | false => exact kept_of_aside (aside_persist _) _
            | true =>
                refine kept_orReturn (startSidecar_starts rfl) fun pid _ _ => ?_
                exact kept_of_aside (aside_persist _) _
          · exact kept_of_aside (aside_persist _) _

theorem giveUp_kept {rollback : Option RollbackSpec} {message : String}
    (h : ∀ spec, rollback = some spec → spec.artifact ∈ artifacts) (q : Custody) :
    Kept (.on digest cacheDir unitName artifacts)
      (giveUp digest unitName cacheDir socketDir rollback message) q := by
  cases rollback with
  | none => exact trivial
  | some spec =>
      have hrollback : Leads (.on digest cacheDir unitName artifacts)
          (performRollback digest unitName cacheDir socketDir spec) q fun _ _ => True :=
        (performRollback_kept (h spec rfl) q).mono fun _ _ _ _ _ => trivial
      exact kept_orReturn hrollback fun _ _ _ => trivial

theorem startUpgraded_kept {rollback : Option RollbackSpec} {row : UnitRow} {path : String}
    {bytes : List UInt8} (h : ∀ spec, rollback = some spec → spec.artifact ∈ artifacts) :
    Kept (.on digest cacheDir unitName artifacts)
      (startUpgraded digest unitName cacheDir socketDir rollback row) (.unpacked path bytes) := by
  unfold startUpgraded
  split
  · refine kept_aside_bind (uses_call trivial) fun found => ?_
    cases found with
    | false => exact kept_of_aside (aside_persist _) _
    | true =>
        refine kept_orReturn (startSidecar_starts rfl) ?_
        rintro pid _ rfl
        refine kept_aside_bind aside_probe fun healthy => ?_
        cases healthy with
        | true => exact kept_of_aside (aside_persist _) _
        | false =>
            refine kept_aside_bind (aside_of_kills (uses_terminate _ _)) fun _ => ?_
            exact giveUp_kept h _
  · exact kept_of_aside (aside_persist _) _

theorem upgrade_kept {targetVersion : String} {artifact : Artifact}
    {rollback : Option RollbackSpec} (hartifact : artifact ∈ artifacts)
    (h : ∀ spec, rollback = some spec → spec.artifact ∈ artifacts) (q : Custody) :
    Kept (.on digest cacheDir unitName artifacts)
      (upgrade digest unitName cacheDir socketDir targetVersion artifact rollback) q := by
  refine kept_orReturn (fetch_vets hartifact q) ?_
  rintro bytes _ rfl
  refine kept_aside_orReturn (uses_call trivial) fun current => ?_
  cases current with
  | none => exact trivial
  | some current =>
      refine kept_aside_bind (aside_of_kills (uses_stopCurrent current)) fun _ => ?_
      refine kept_orReturn unpack_unpacks fun extracted q' hq' => ?_
      cases extracted with
      | false => exact giveUp_kept h _
      | true =>
          obtain ⟨path, rfl⟩ := hq' rfl
          exact kept_aside_bind (uses_call trivial) fun now => startUpgraded_kept h

theorem perform_kept (task : UnitTask) (q : Custody) :
    Kept (.on digest cacheDir task.unitName task.artifacts)
      (task.perform digest cacheDir socketDir) q := by
  cases task with
  | install task => exact install_kept List.mem_cons_self q
  | upgrade task =>
      refine upgrade_kept List.mem_cons_self (fun spec hspec => ?_) q
      simp [hspec]
  | remove task =>
      have hremove : (call (.removeUnit task.unitName)).Uses UnitOp.aside :=
        uses_call trivial
      exact kept_of_aside hremove q

end Tasks

/-! ### The checker -/

theorem aside_writeBack (unit : UnitRow) (health : String × Option String) :
    (writeBack unit health).Uses UnitOp.aside := by
  unfold writeBack
  split
  · exact ⟨trivial, fun _ => ⟨trivial, fun _ => trivial⟩⟩
  · trivial

theorem aside_checkUnit (socketDir : String) (unit : UnitRow) :
    (checkUnit socketDir unit).Uses UnitOp.aside := by
  have hsidecar : (checkSidecar socketDir unit.name).Uses UnitOp.aside :=
    uses_checkSidecar.mono fun op hop => by cases op <;> first | exact hop.elim | trivial
  have hpackage : (checkPackage unit).Uses UnitOp.aside := by
    unfold checkPackage
    split
    · trivial
    · exact ⟨trivial, fun _ => trivial⟩
  unfold checkUnit
  split
  · trivial
  split
  · exact hsidecar.bind (aside_writeBack unit)
  split
  · exact hpackage.bind (aside_writeBack unit)
  · trivial

theorem aside_checkUnits (socketDir : String) (units : List UnitRow) :
    (checkUnits socketDir units).Uses UnitOp.aside := by
  induction units with
  | nil => trivial
  | cons unit rest ih => exact (aside_checkUnit socketDir unit).bind fun _ => ih

theorem aside_run (socketDir : String) (passes : Nat) :
    (run socketDir passes).Uses UnitOp.aside := by
  induction passes with
  | zero => trivial
  | succ passes ih =>
      refine Prog.Uses.bind (uses_call trivial) fun seconds => ?_
      refine Prog.Uses.bind (uses_call trivial) fun wake => ?_
      cases wake with
      | shutdown => trivial
      | slept =>
          refine Prog.Uses.bind (Prog.Uses.bind (uses_call trivial) fun listed => ?_)
            fun _ => ih
          cases listed with
          | error e => trivial
          | ok units => exact aside_checkUnits socketDir units

end Programs

/-! ## Histories -/

def UnitOp.writes : UnitOp → Prop
  | .write .. => True
  | _ => False

section Histories

variable (d : Duty)

/-- The calls so far have downloaded these bytes, and they are genuine. -/
def Downloads (bytes : List UInt8) (earlier : List (Event UnitSig)) : Prop :=
  ∃ url, Genuine d url bytes ∧ (⟨.bytes url, .ok bytes⟩ : Event UnitSig) ∈ earlier

/-- They were then written to this file, and nothing was written since. -/
def Stores (path : String) (bytes : List UInt8) (earlier : List (Event UnitSig)) : Prop :=
  ∃ before since, earlier = before ++ ⟨.write path bytes, .ok ()⟩ :: since ∧
    Downloads d bytes before ∧ ∀ event ∈ since, ¬ event.1.writes

/-- A file is unpacked into the unit's directory, or made executable as its binary. -/
def Opens (path : String) : Event UnitSig → Prop
  | ⟨.status program args, .ok status⟩ =>
      program ≠ "kill" ∧ path ∈ args ∧ d.dir ∈ args ∧ status.success = true
  | ⟨.setPermissions file _, .ok _⟩ => file = path ∧ file = d.binary
  | _ => False

def Unpacks (path : String) (bytes : List UInt8) (earlier : List (Event UnitSig)) : Prop :=
  ∃ before opening since, earlier = before ++ opening :: since ∧ Stores d path bytes before ∧
    Opens d path opening

/-- What the calls made so far have to show for a state. -/
def Shows : Custody → List (Event UnitSig) → Prop
  | .nothing, _ => True
  | .vetted bytes, earlier => Downloads d bytes earlier
  | .stored path bytes, earlier => Stores d path bytes earlier
  | .unpacked path bytes, earlier => Unpacks d path bytes earlier

/-- What has to stand before a call that stores, unpacks or starts something. -/
def Vetted (earlier : List (Event UnitSig)) : Event UnitSig → Prop
  | ⟨.write _ bytes, _⟩ => Downloads d bytes earlier
  | ⟨.setPermissions path _, _⟩ => path = d.binary ∧ ∃ bytes, Stores d path bytes earlier
  | ⟨.status program args, _⟩ =>
      program = "kill" ∨ d.dir ∈ args ∧ ∃ path ∈ args, ∃ bytes, Stores d path bytes earlier
  | ⟨.spawn program _, _⟩ => program = d.binary ∧ ∃ path bytes, Unpacks d path bytes earlier
  | _ => True

variable {d} {q q' : Custody} {earlier : List (Event UnitSig)}

theorem Downloads.append {bytes : List UInt8} (h : Downloads d bytes earlier)
    (event : Event UnitSig) : Downloads d bytes (earlier ++ [event]) := by
  obtain ⟨url, hgenuine, hmem⟩ := h
  exact ⟨url, hgenuine, List.mem_append_left _ hmem⟩

theorem Shows.append (h : Shows d q earlier) {event : Event UnitSig} (hquiet : ¬ event.1.writes) :
    Shows d q (earlier ++ [event]) := by
  cases q with
  | nothing => trivial
  | vetted bytes => exact Downloads.append h event
  | stored path bytes =>
      obtain ⟨before, since, rfl, hdownloads, hsince⟩ := h
      refine ⟨before, since ++ [event], by simp, hdownloads, fun other hother => ?_⟩
      rcases List.mem_append.mp hother with hearlier | hlast
      · exact hsince other hearlier
      · rwa [List.mem_singleton.mp hlast]
  | unpacked path bytes =>
      obtain ⟨before, opening, since, rfl, hstores, hopens⟩ := h
      exact ⟨before, opening, since ++ [event], by simp, hstores, hopens⟩

theorem Stores.opened {path : String} {bytes : List UInt8} {event : Event UnitSig} {done : Bool}
    (h : Stores d path bytes earlier) (hquiet : ¬ event.1.writes)
    (hopens : done = true → Opens d path event) :
    Shows d (.opened path bytes done) (earlier ++ [event]) := by
  cases done with
  | false => exact Shows.append (q := .stored path bytes) h hquiet
  | true => exact ⟨earlier, event, [], rfl, h, hopens rfl⟩

theorem custody_shows {event : Event UnitSig} (h : Shows d q earlier)
    (hstep : custody d q event = some q') :
    Vetted d earlier event ∧ Shows d q' (earlier ++ [event]) := by
  obtain ⟨op, ans⟩ := event
  cases op with
  | bytes url =>
      cases ans with
      | error e =>
          have hsame : some q = some q' := by
            rw [← hstep]
            cases q <;> rfl
          cases hsame
          exact ⟨trivial, h.append id⟩
      | ok bytes =>
          have hnext : some (if Genuine d url bytes then Custody.vetted bytes else .nothing) =
              some q' := by
            rw [← hstep]
            cases q <;> rfl
          cases hnext
          refine ⟨trivial, ?_⟩
          split
          · next hgenuine => exact ⟨url, hgenuine, by simp⟩
          · trivial
  | write path data =>
      cases q with
      | vetted bytes =>
          simp only [custody, Option.ite_none_right_eq_some] at hstep
          obtain ⟨rfl, hnext⟩ := hstep
          cases ans with
          | error e =>
              cases hnext
              exact ⟨h, Downloads.append h _⟩
          | ok _ =>
              cases hnext
              exact ⟨h, earlier, [], rfl, h, by simp⟩
      | _ => cases hstep
  | setPermissions file mode =>
      cases q with
      | stored path bytes =>
          simp only [custody, Option.ite_none_right_eq_some] at hstep
          obtain ⟨⟨rfl, hbinary⟩, hnext⟩ := hstep
          cases hnext
          refine ⟨⟨hbinary, bytes, h⟩, Stores.opened h id fun hdone => ?_⟩
          cases ans with
          | error e => cases hdone
          | ok _ => exact ⟨rfl, hbinary⟩
      | _ => cases hstep
  | status program args =>
      by_cases hkill : program = "kill"
      · rw [custody_aside (.status program args) hkill] at hstep
        cases hstep
        exact ⟨.inl hkill, h.append id⟩
      · -- the other programs are those that unpack
        cases q with
        | stored path bytes =>
            simp only [custody, if_neg hkill, Option.ite_none_right_eq_some] at hstep
            obtain ⟨⟨hpath, hdir⟩, hnext⟩ := hstep
            cases hnext
            refine ⟨.inr ⟨hdir, path, hpath, bytes, h⟩, Stores.opened h id fun hdone => ?_⟩
            cases ans with
            | error e => cases hdone
            | ok status => exact ⟨hkill, hpath, hdir, hdone⟩
        | _ => simp [custody, hkill] at hstep
  | spawn program args =>
      cases q with
      | unpacked path bytes =>
          simp only [custody, Option.ite_none_right_eq_some] at hstep
          obtain ⟨hbinary, hnext⟩ := hstep
          cases hnext
          exact ⟨⟨hbinary, path, bytes, h⟩, h.append id⟩
      | _ => cases hstep
  | _ =>
      rw [custody_aside _ (by trivial)] at hstep
      cases hstep
      exact ⟨trivial, h.append id⟩

end Histories

/-! ## What is in the files -/

section Files

variable {log : List (Nat × Event UnitSig)} {path : String} {i : Nat}

/-- What was last written to a file; a write that failed may have left anything. -/
def content (path : String) (found : Option (List UInt8)) : Event UnitSig → Option (List UInt8)
  | ⟨.write file data, ans⟩ =>
      if file = path then (if ans.isOk then some data else none) else found
  | _ => found

def contentOf (path : String) (events : List (Event UnitSig)) : Option (List UInt8) :=
  events.foldl (content path) none

/-- Only the future `i` writes to this file. -/
def Alone (i : Nat) (path : String) (log : List (Nat × Event UnitSig)) : Prop :=
  ∀ j data ans, (j, (⟨.write path data, ans⟩ : Event UnitSig)) ∈ log → j = i

theorem content_unwritten {event : Event UnitSig} (h : ∀ data ans, event ≠ ⟨.write path data, ans⟩)
    (found : Option (List UInt8)) : content path found event = found := by
  obtain ⟨op, ans⟩ := event
  cases op with
  | write file data =>
      refine if_neg ?_
      rintro rfl
      exact h data ans rfl
  | _ => rfl

/-- What others write elsewhere does not matter. -/
theorem foldl_content_alone (h : Alone i path log) (found : Option (List UInt8)) :
    (log.map Prod.snd).foldl (content path) found =
      (Pool.shareOf log i).foldl (content path) found := by
  induction log generalizing found with
  | nil => rfl
  | cons entry rest ih =>
      have hrest : Alone i path rest := fun j data ans hmem =>
        h j data ans (List.mem_cons_of_mem _ hmem)
      obtain ⟨j, event⟩ := entry
      by_cases hj : j = i
      · rw [Pool.shareOf, List.filterMap_cons, if_pos hj]
        exact ih hrest _
      · have hevent : content path found event = found := by
          refine content_unwritten (fun data ans heq => ?_) found
          exact hj (h j data ans (heq ▸ List.mem_cons_self))
        rw [Pool.shareOf, List.filterMap_cons, if_neg hj, List.map_cons, List.foldl_cons, hevent]
        exact ih hrest found

theorem Stores.content {d : Duty} {bytes : List UInt8} {earlier : List (Event UnitSig)}
    (h : Stores d path bytes earlier) : contentOf path earlier = some bytes := by
  obtain ⟨before, since, rfl, -, hsince⟩ := h
  have hkeeps : ∀ events : List (Event UnitSig), (∀ event ∈ events, ¬ event.1.writes) →
      ∀ found, events.foldl (Units.content path) found = found := by
    intro events hevents
    induction events with
    | nil => exact fun _ => rfl
    | cons event rest ih =>
        rw [List.forall_mem_cons] at hevents
        intro found
        rw [List.foldl_cons, content_unwritten (fun data ans heq => ?_), ih hevents.2]
        exact hevents.1 (heq ▸ trivial)
  rw [contentOf, List.foldl_append, List.foldl_cons, hkeeps since hsince]
  exact if_pos rfl

end Files

/-! ## Every interleaving -/

def Setup.duty (setup : Setup) : UnitJob → Duty
  | .checker _ => .on setup.digest setup.cacheDir "" []
  | .task task => .on setup.digest setup.cacheDir task.unitName task.artifacts

theorem program_kept (setup : Setup) (job : UnitJob) :
    Kept (setup.duty job) (setup.program job) .nothing := by
  cases job with
  | checker passes => exact kept_of_aside (aside_run setup.socketDir passes) _
  | task task => exact Prog.Ensures.bind (perform_kept task .nothing) fun _ _ _ => trivial

/-- The files that a call is given to unpack or to make executable. -/
def UnitOp.opens : UnitOp → List String
  | .setPermissions path _ => [path]
  | .status program args => if program = "kill" then [] else args
  | _ => []

theorem stores_of_opens {d : Duty} {earlier : List (Event UnitSig)} {event : Event UnitSig}
    (h : Vetted d earlier event) (hopens : event.1.opens ≠ []) :
    ∃ path ∈ event.1.opens, ∃ bytes, Stores d path bytes earlier := by
  obtain ⟨op, ans⟩ := event
  cases op with
  | setPermissions path mode =>
      obtain ⟨-, bytes, hstores⟩ := h
      exact ⟨path, List.mem_singleton_self _, bytes, hstores⟩
  | status program args =>
      by_cases hkill : program = "kill"
      · exact absurd (if_pos hkill) hopens
      · obtain ⟨-, path, hpath, bytes, hstores⟩ := Or.resolve_left h hkill
        refine ⟨path, ?_, bytes, hstores⟩
        rwa [UnitOp.opens, if_neg hkill]
  | _ => exact absurd rfl hopens

def sidecarStart : Pool sampleSetup.system :=
  Pool.initial (Store.Table.empty.upsert { sampleRow with kind := "sidecar" })

/-- A sidecar is upgraded and its new version has just been started. -/
def upgradedSidecar : Pool sampleSetup.system :=
  (sidecarStart.script
    (.start (.task sampleUpgrade) :: List.replicate 9 (.fire 0 agreeable))).get rfl

end VasalAgent.Units
