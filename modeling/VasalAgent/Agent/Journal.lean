import VasalAgent.Store.Rowid
import VasalAgent.Task.Router

/-!
# Task journal

`record_task_result` and `prune_journal` of `state::StateStore` on the table
`task_journal`, and the ring buffer they implement: a list to which a result is appended
and of which a prune keeps the end.
-/

namespace VasalAgent.Agent

open VasalAgent.Store
open VasalAgent.Task (TaskResultRow)
open VasalAgent.Task.Continuous (toI64)

/-- `task_journal`. -/
abbrev Journal := Rowid TaskResultRow

/-- A statement that was executed; a failed one leaves the table as it is. -/
inductive JournalOp where
  /-- `id` is what `AUTOINCREMENT` gives the row. -/
  | record (id : Int) (row : TaskResultRow)
  | prune (keep : UInt64)

namespace Journal

def recordTaskResult (journal : Journal) (id : Int) (row : TaskResultRow) : Option Journal :=
  journal.insert ⟨id, row⟩

/-- The limit is `keep as i64`. -/
def pruneJournal (journal : Journal) (keep : UInt64) : Journal × Nat :=
  journal.retain (journal.newest (toI64 keep.toNat))

/-- The journal after some statements, and what the prunes among them returned. -/
def run (journal : Journal) : List JournalOp → Option (Journal × List Nat)
  | [] => some (journal, [])
  | .record id row :: rest => do
      let after ← recordTaskResult journal id row
      run after rest
  | .prune keep :: rest => do
      let (after, deleted) := pruneJournal journal keep
      let (last, more) ← run after rest
      pure (last, deleted :: more)

/-- The rows in the order of their ids. -/
def contents (journal : Journal) : List TaskResultRow := journal.rows.map Stored.row

end Journal

/-! ## The ring buffer -/

namespace Ring

def prune (entries : List TaskResultRow) (keep : Nat) : List TaskResultRow :=
  entries.drop (entries.length - min keep entries.length)

def run (entries : List TaskResultRow) : List JournalOp → List TaskResultRow × List Nat
  | [] => (entries, [])
  | .record _ row :: rest => run (entries ++ [row]) rest
  | .prune keep :: rest =>
      let kept := prune entries keep.toNat
      let (last, more) := run kept rest
      (last, (entries.length - kept.length) :: more)

end Ring

/-! ## Refinement -/

namespace Journal

variable {journal after last : Journal}

theorem contents_recordTaskResult {id : Int} {row : TaskResultRow}
    (h : recordTaskResult journal id row = some after) :
    contents after = contents journal ++ [row] := by
  rw [contents, Rowid.rows_insert h, List.map_append]
  rfl

/-- The cast changes only limits that are larger than any table. -/
theorem allowed_toI64 (journal : Journal) (keep : UInt64) :
    min (journal.allowed (toI64 keep.toNat)) journal.rows.length =
      min keep.toNat journal.rows.length := by
  have hlength := journal.length_lt
  have hkeep : keep.toNat < 2 ^ 64 := keep.toNat_lt
  simp only [idLimit] at hlength
  simp only [Rowid.allowed, toI64, Nat.mod_eq_of_lt hkeep, Int.ofNat_eq_natCast]
  split_ifs <;> omega

theorem rows_pruneJournal (journal : Journal) (keep : UInt64) :
    (pruneJournal journal keep).1.rows =
      journal.rows.drop (journal.rows.length - min keep.toNat journal.rows.length) := by
  rw [pruneJournal, Rowid.rows_retain_newest, ← allowed_toI64]
  congr 1
  omega

theorem contents_pruneJournal (journal : Journal) (keep : UInt64) :
    contents (pruneJournal journal keep).1 = Ring.prune (contents journal) keep.toNat := by
  rw [contents, rows_pruneJournal, List.map_drop, Ring.prune, contents, List.length_map]

theorem pruneJournal_deleted (journal : Journal) (keep : UInt64) :
    (pruneJournal journal keep).2 =
      (contents journal).length - (contents (pruneJournal journal keep).1).length := by
  rw [contents, contents, List.length_map, List.length_map]
  exact Rowid.retain_deleted ..

theorem run_refines {ops : List JournalOp} {deleted : List Nat}
    (h : run journal ops = some (last, deleted)) :
    Ring.run (contents journal) ops = (contents last, deleted) := by
  induction ops generalizing journal deleted with
  | nil =>
      cases h
      rfl
  | cons op rest ih =>
      cases op with
      | record id row =>
          obtain ⟨after, hafter, hrest⟩ := Option.bind_eq_some_iff.mp h
          rw [Ring.run, ← contents_recordTaskResult hafter, ih hrest]
      | prune keep =>
          obtain ⟨⟨final, more⟩, hrest, hlast⟩ := Option.bind_eq_some_iff.mp h
          obtain ⟨rfl, rfl⟩ := Prod.mk.inj (Option.some.inj hlast)
          have hkept : Ring.run (contents (pruneJournal journal keep).1) rest =
              (contents final, more) := ih hrest
          rw [Ring.run, ← contents_pruneJournal, hkept, ← pruneJournal_deleted]
          rfl

theorem pruneJournal_pruneJournal (journal : Journal) (a b : UInt64) :
    (pruneJournal (pruneJournal journal a).1 b).1.rows =
      (pruneJournal journal (min a b)).1.rows := by
  rw [rows_pruneJournal, rows_pruneJournal, rows_pruneJournal, List.length_drop, List.drop_drop,
    UInt64.toNat_min]
  congr 1
  omega

end Journal

/-- The journal is the ring buffer, from any journal on. -/
theorem journal_ring_buffer {journal last : Journal} {ops : List JournalOp} {deleted : List Nat}
    (h : journal.run ops = some (last, deleted)) :
    Ring.run journal.contents ops = (last.contents, deleted) ∧
      ∀ a b, ((last.pruneJournal a).1.pruneJournal b).1.rows =
        (last.pruneJournal (min a b)).1.rows :=
  ⟨Journal.run_refines h, Journal.pruneJournal_pruneJournal last⟩

/-- A row for the result of the task `taskId`. -/
def sampleRow (taskId : String) : TaskResultRow :=
  ⟨taskId, none, none, "success", some 0, "", "", 5, 1000⟩

def sampleOps : List JournalOp :=
  [.record 1 (sampleRow "a"), .record 5 (sampleRow "b"), .prune 18446744073709551615, .prune 1,
    .record 6 (sampleRow "c"), .prune 7]

/-- Ids may skip numbers, and `usize::MAX` is no limit. -/
theorem journal_ring_buffer_sample :
    ∃ last : Journal, Journal.run .empty sampleOps = some (last, [0, 1, 0]) ∧
      last.contents = [sampleRow "b", sampleRow "c"] := by
  have hsome : (Journal.run .empty sampleOps).isSome := by decide
  obtain ⟨⟨last, deleted⟩, hrun⟩ := Option.isSome_iff_exists.mp hsome
  have hring : Ring.run (Journal.contents .empty) sampleOps = (last.contents, deleted) :=
    (journal_ring_buffer hrun).1
  have hvalue : Ring.run (Journal.contents .empty) sampleOps =
      ([sampleRow "b", sampleRow "c"], [0, 1, 0]) := by decide
  obtain ⟨hcontents, rfl⟩ := Prod.mk.inj (hring.symm.trans hvalue)
  exact ⟨last, hrun, hcontents⟩

end VasalAgent.Agent
