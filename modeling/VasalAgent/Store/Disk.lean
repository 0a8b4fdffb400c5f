import Mathlib.Logic.Function.Basic
import VasalAgent.Async.Prog

/-!
# Files on a disk

The calls of `std::fs` on whole files, and what each does to the disk.  A call that fails
has done nothing, except that a file that was being written can hold anything.  A call
that is cut short is like one that has not begun, with the same exception: a rename takes
place as a whole or not at all.
-/

namespace VasalAgent.Store

open VasalAgent.Async

variable {π κ : Type}

/-- The contents of the files that there are. -/
abbrev Disk (π κ : Type) := π → Option κ

inductive FileOp (π κ : Type) where
  | copy (source target : π)
  | write (path : π) (content : κ)
  | setPermissions (path : π) (mode : Nat)
  | rename (source target : π)
  | pathExists (path : π)
  | read (path : π)
  | remove (path : π)

namespace FileOp

abbrev Ans : FileOp π κ → Type
  | .copy .. | .write .. | .setPermissions .. | .rename .. | .remove _ => Except String Unit
  | .pathExists _ => Bool
  | .read _ => Except String κ

abbrev Sig (π κ : Type) : Signature := ⟨FileOp π κ, Ans⟩

/-- The file that a call writes piece by piece. -/
def target? : FileOp π κ → Option π
  | .copy _ target => some target
  | .write path _ => some path
  | _ => none

variable [DecidableEq π]

/-- The disk before and after a call; a file that cannot be looked up does not exist. -/
def step (disk : Disk π κ) : Event (Sig π κ) → Disk π κ → Prop
  | ⟨.copy source target, .ok _⟩, after =>
      ∃ content, disk source = some content ∧ after = Function.update disk target (some content)
  | ⟨.copy _ target, .error _⟩, after => ∃ left, after = Function.update disk target left
  | ⟨.write path content, .ok _⟩, after => after = Function.update disk path (some content)
  | ⟨.write path _, .error _⟩, after => ∃ left, after = Function.update disk path left
  | ⟨.rename source target, .ok _⟩, after =>
      ∃ content, disk source = some content ∧
        after = Function.update (Function.update disk source none) target (some content)
  | ⟨.remove path, .ok _⟩, after => after = Function.update disk path none
  | ⟨.pathExists path, found⟩, after => (found = true → (disk path).isSome) ∧ after = disk
  | ⟨.read path, .ok content⟩, after => disk path = some content ∧ after = disk
  | _, after => after = disk

/-- A disk that is found after a call was cut short. -/
def torn (disk : Disk π κ) (op : FileOp π κ) (after : Disk π κ) : Prop :=
  after = disk ∨ ∃ path left, op.target? = some path ∧ after = Function.update disk path left

/-- A call that is cut short leaves every other file alone. -/
theorem torn_other {disk after : Disk π κ} {op : FileOp π κ} {path : π}
    (h : torn disk op after) (hpath : op.target? ≠ some path) : after path = disk path := by
  rcases h with rfl | ⟨target, left, htarget, rfl⟩
  · rfl
  · have hne : path ≠ target := by
      rintro rfl
      exact hpath htarget
    exact Function.update_of_ne hne _ _

/-- Nothing goes wrong in this call. -/
def goesWell (disk : Disk π κ) : Event (Sig π κ) → Prop
  | ⟨.copy source _, ans⟩ | ⟨.rename source _, ans⟩ | ⟨.remove source, ans⟩ =>
      (disk source).isSome → ans = .ok ()
  | ⟨.write .., ans⟩ | ⟨.setPermissions .., ans⟩ => ans = .ok ()
  | ⟨.pathExists path, found⟩ => found = (disk path).isSome
  | ⟨.read path, ans⟩ => ∀ content, disk path = some content → ans = .ok content

end FileOp

end VasalAgent.Store
