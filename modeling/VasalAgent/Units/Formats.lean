import VasalAgent.Task.Sidecar
import VasalAgent.Units.LostUpdate

/-!
# Artifact formats

`install` chooses how to unpack an artifact by the end of its URL; `upgrade` and
`perform_rollback` take every artifact for a `tar.gz`.  The two agree exactly on the URLs that
end with `.tar.gz` or `.tgz`.
-/

namespace VasalAgent.Units

open VasalAgent.Async
open VasalAgent.Protocol
open VasalAgent.Task (Error)
open VasalAgent.Task.Sidecar (endsWith_iff joinPath joinPath_injective relative_of_head)

/-- What `install` does with verified bytes, up to the start of the sidecar. -/
def unpackInstalled (url unitName version installDir : String) (bytes : List UInt8) :
    Prog UnitSig (Except Error Unit) :=
  orReturn (converted .io (call (.createDirAll installDir))) fun _ =>
    extractArtifact url.toLower bytes installDir unitName version

theorem orReturn_assoc {α β γ : Type} (p : Prog UnitSig (Except Error α))
    (f : α → Prog UnitSig (Except Error β)) (g : β → Prog UnitSig (Except Error γ)) :
    orReturn (orReturn p f) g = orReturn p fun value => orReturn (f value) g := by
  unfold orReturn Prog.orReturn
  rw [Prog.bind_assoc]
  congr 1
  funext answer
  cases answer <;> rfl

/-- It is the part of `install` between the download and the row. -/
theorem install_unpacks (digest : List UInt8 → String) (unit : ManagedUnit)
    (cacheDir socketDir : String) :
    ∃ rest, install digest unit cacheDir socketDir =
      orReturn (fetch digest "artifact" unit.name unit.artifact) fun bytes =>
        orReturn (unpackInstalled unit.artifact.url unit.name unit.version
          (joinPath cacheDir unit.name) bytes) rest := by
  simp only [unpackInstalled, orReturn_assoc]
  exact ⟨_, rfl⟩

/-! ## Programs that do the same -/

/-- The same calls, and success alike. -/
structure Alike {β γ : Type} (good : β) (good' : γ) (p : Prog UnitSig (Except Error β))
    (p' : Prog UnitSig (Except Error γ)) : Prop where
  calls : ∀ oracle : (op : UnitOp) → op.Ans, p.trace oracle = p'.trace oracle
  outcome : ∀ oracle : (op : UnitOp) → op.Ans,
    p.run oracle = some (.ok good) ↔ p'.run oracle = some (.ok good')

section Alike

variable {α β γ : Type} {good : β} {good' : γ}

theorem alike_call {op : UnitOp} {next : op.Ans → Prog UnitSig (Except Error β)}
    {next' : op.Ans → Prog UnitSig (Except Error γ)}
    (h : ∀ answer, Alike good good' (next answer) (next' answer)) :
    Alike good good' (.call (S := UnitSig) op next) (.call (S := UnitSig) op next') where
  calls oracle := by rw [Prog.trace_call, Prog.trace_call, (h _).calls]
  outcome oracle := by rw [Prog.run_call, Prog.run_call, (h _).outcome]

/-- A step that both make and that both return the error of. -/
theorem alike_orReturn (p : Prog UnitSig (Except Error α))
    {rest : α → Prog UnitSig (Except Error β)} {rest' : α → Prog UnitSig (Except Error γ)}
    (h : ∀ value, Alike good good' (rest value) (rest' value)) :
    Alike good good' (orReturn p rest) (orReturn p rest') := by
  unfold orReturn Prog.orReturn
  induction p with
  | ret answer =>
      cases answer with
      | error e => exact ⟨fun _ => rfl, fun _ => by simp [Prog.ret_bind, Pure.pure]⟩
      | ok value => exact h value
  | call op next ih => exact alike_call ih
  | hang => exact ⟨fun _ => rfl, fun _ => by simp [Prog.run]⟩

end Alike

/-! ## Formats -/

/-- Upgrades and rollbacks unpack the artifact as `install` does. -/
def SameUnpacking (url : String) (bytes : List UInt8) : Prop :=
  ∀ unitName version installDir : String,
    Alike true () (unpack unitName version installDir bytes)
      (unpackInstalled url unitName version installDir bytes)

def tarGz : Format := ⟨[".tar.gz", ".tgz"], "tar.gz", "tar", "xzf"⟩

/-- The format of an artifact; `none` is the executable itself. -/
def formatOf (url : String) : Option Format :=
  formats.find? fun format => format.extensions.any fun ext => url.toLower.endsWith ext

theorem formatOf_cases (url : String) :
    (url.toLower.endsWith ".tar.gz" ∨ url.toLower.endsWith ".tgz") ∧ formatOf url = some tarGz ∨
      ¬ (url.toLower.endsWith ".tar.gz" ∨ url.toLower.endsWith ".tgz") ∧
        ∀ format ∈ formatOf url, format ∈ formats.tail := by
  have hfirst : formatOf url =
      if url.toLower.endsWith ".tar.gz" ∨ url.toLower.endsWith ".tgz" then some tarGz
      else formats.tail.find? fun format =>
        format.extensions.any fun ext => url.toLower.endsWith ext := by
    rw [formatOf, formats, List.find?_cons]
    simp only [List.any_cons, List.any_nil, Bool.or_false, List.tail_cons]
    cases url.toLower.endsWith ".tar.gz" <;> cases url.toLower.endsWith ".tgz" <;> rfl
  rw [hfirst]
  split
  · next h => exact .inl ⟨h, rfl⟩
  · next h => exact .inr ⟨h, fun format hformat => List.mem_of_find?_eq_some hformat⟩

theorem extractArtifact_tarGz {url : String} (h : formatOf url = some tarGz)
    (bytes : List UInt8) (installDir unitName version : String) :
    extractArtifact url.toLower bytes installDir unitName version =
      let path := joinPath installDir (unitName ++ "-" ++ version ++ ".tar.gz")
      orReturn (converted .io (call (.write path bytes))) fun _ =>
        runExtract "tar" ["xzf", path, "-C", installDir] unitName := by
  have hext : unitName ++ "-" ++ version ++ "." ++ tarGz.fileExt =
      unitName ++ "-" ++ version ++ ".tar.gz" := by
    rw [String.append_assoc]
    rfl
  rw [formatOf] at h
  rw [extractArtifact, h]
  dsimp only
  rw [hext]
  rfl

theorem same_of_tarGz {url : String} (h : formatOf url = some tarGz) (bytes : List UInt8) :
    SameUnpacking url bytes := by
  intro unitName version installDir
  unfold unpack unpackInstalled
  rw [extractArtifact_tarGz h]
  refine alike_orReturn _ fun _ => alike_orReturn _ fun _ => alike_orReturn _ fun status => ?_
  cases hstatus : status.success with
  | true => exact ⟨fun _ => rfl, fun _ => by simp [Pure.pure]⟩
  | false => exact ⟨fun _ => rfl, fun _ => by simp [Pure.pure]⟩

/-! ## Other formats -/

/-- The paths written in a list of calls. -/
def written (events : List (Event UnitSig)) : List String :=
  events.filterMap fun event =>
    match event.1 with
    | .write path _ => some path
    | _ => none

/-- Where `install` writes the artifact. -/
def artifactPath (unitName version installDir : String) : Option Format → String
  | some format => joinPath installDir (unitName ++ "-" ++ version ++ "." ++ format.fileExt)
  | none => joinPath installDir unitName

theorem written_unpackInstalled (url unitName version installDir : String)
    (bytes : List UInt8) :
    written ((unpackInstalled url unitName version installDir bytes).trace agreeable) =
      [artifactPath unitName version installDir (formatOf url)] := by
  unfold unpackInstalled extractArtifact formatOf
  cases formats.find? fun format => format.extensions.any fun ext => url.toLower.endsWith ext with
  | none => rfl
  | some format => rfl

theorem relative_u (name : String) : ("u" ++ name).startsWith "/" = false :=
  relative_of_head (c := 'u') (by rw [String.toList_append]; rfl) (by decide)

theorem name_ne : ∀ format ∈ formats.tail,
    "u" ++ "-" ++ "1" ++ "." ++ format.fileExt ≠ "u-1.tar.gz" := by
  decide

/-- No other format is written where an upgrade writes. -/
theorem artifactPath_ne {format : Option Format} (h : ∀ f ∈ format, f ∈ formats.tail)
    (dir : String) : artifactPath "u" "1" dir format ≠ joinPath dir "u-1.tar.gz" := by
  intro heq
  cases format with
  | none =>
      have hsuffix := joinPath_injective (relative_u "") (relative_u "-1.tar.gz") heq
      exact absurd hsuffix (by decide)
  | some format =>
      refine name_ne format (h format rfl) (joinPath_injective ?_ (relative_u "-1.tar.gz") heq)
      rw [String.append_assoc, String.append_assoc, String.append_assoc]
      exact relative_u _

theorem not_same_of_other {url : String} (h : ∀ format ∈ formatOf url, format ∈ formats.tail)
    (bytes : List UInt8) : ¬ SameUnpacking url bytes := by
  intro hsame
  have hwritten := congrArg written ((hsame "u" "1" "/d").calls agreeable)
  rw [written_unpackInstalled] at hwritten
  exact artifactPath_ne h "/d" (List.cons.inj hwritten).1.symm

/-- Upgrades and rollbacks handle an artifact as `install` does exactly when it is a `tar.gz`. -/
theorem sameUnpacking_iff (url : String) (bytes : List UInt8) :
    SameUnpacking url bytes ↔ url.toLower.endsWith ".tar.gz" ∨ url.toLower.endsWith ".tgz" := by
  rcases formatOf_cases url with ⟨hend, hformat⟩ | ⟨hend, hformat⟩
  · exact iff_of_true (same_of_tarGz hformat bytes) hend
  · exact iff_of_false (not_same_of_other hformat bytes) hend

theorem formatOf_eq (url : String) :
    formatOf url = formats.find? fun format => format.extensions.any fun ext =>
      decide (ext.toList <:+ url.toList.map Char.toLower) := by
  have hend (ending : String) : url.toLower.endsWith ending =
      decide (ending.toList <:+ url.toList.map Char.toLower) := by
    change (url.map Char.toLower).endsWith ending = _
    rw [Bool.eq_iff_iff, endsWith_iff, String.toList_map, decide_eq_true_iff]
  simp only [formatOf, hend]

/-- A zip archive installs, but is given to `tar` by an upgrade. -/
theorem zip_not_upgradable :
    formatOf "https://cp/echo.ZIP" = some ⟨[".zip"], "zip", "unzip", "-o"⟩ ∧
      ∀ bytes : List UInt8, ¬ SameUnpacking "https://cp/echo.ZIP" bytes := by
  have hzip : formatOf "https://cp/echo.ZIP" = some ⟨[".zip"], "zip", "unzip", "-o"⟩ := by
    rw [formatOf_eq]
    decide
  refine ⟨hzip, not_same_of_other ?_⟩
  rw [hzip]
  decide

end VasalAgent.Units
