import Mathlib.Algebra.Group.Int.Defs
import Mathlib.Data.List.Sort

/-!
# Tables with an `AUTOINCREMENT` key

Rows are kept in the order of their ids.  An id is a positive `i64`, larger than every id
given out before, so that a table never has as many rows as there are such numbers
(`Rowid.length_lt`).  `newest` is `SELECT id ... ORDER BY id DESC LIMIT`, and deleting what
is not in it keeps the last rows (`Rowid.rows_retain_newest`).
-/

namespace VasalAgent.Store

structure Stored (α : Type) where
  id : Int
  row : α
  deriving DecidableEq, Repr

/-- One more than the largest `i64`. -/
def idLimit : Int := 2 ^ 63

/-- `lastId` is the largest id that was given out. -/
structure Rowid (α : Type) where
  rows : List (Stored α)
  lastId : Int
  sorted : rows.Pairwise fun a b => a.id < b.id
  given : ∀ stored ∈ rows, 0 < stored.id ∧ stored.id ≤ lastId
  positive : 0 ≤ lastId
  small : lastId < idLimit

namespace Rowid

variable {α : Type}

def empty : Rowid α where
  rows := []
  lastId := 0
  sorted := .nil
  given := by simp
  positive := Int.le_refl 0
  small := by decide

/-- `INSERT`, with the id that the row gets. -/
def insert (table : Rowid α) (stored : Stored α) : Option (Rowid α) :=
  if h : table.lastId < stored.id ∧ stored.id < idLimit then
    some
      { rows := table.rows ++ [stored]
        lastId := stored.id
        sorted := by
          refine List.pairwise_append.mpr ⟨table.sorted, List.pairwise_singleton .., ?_⟩
          intro earlier hearlier last hlast
          rw [List.mem_singleton.mp hlast]
          exact Int.lt_of_le_of_lt (table.given earlier hearlier).2 h.1
        given := by
          intro other hother
          rcases List.mem_append.mp hother with hold | hnew
          · have := table.given other hold
            omega
          · rw [List.mem_singleton.mp hnew]
            have := table.positive
            omega
        positive := by
          have := table.positive
          omega
        small := h.2 }
  else none

def ids (table : Rowid α) : List Int := table.rows.map Stored.id

/-- The ids in descending order; a negative limit is none. -/
def newest (table : Rowid α) (limit : Int) : List Int :=
  let descending := table.ids.insertionSort fun a b => b ≤ a
  if limit < 0 then descending else descending.take limit.toNat

/-- `DELETE ... WHERE id NOT IN`, with the number of rows deleted. -/
def retain (table : Rowid α) (ids : List Int) : Rowid α × Nat :=
  ({ table with
      rows := table.rows.filter fun stored => stored.id ∈ ids
      sorted := table.sorted.filter _
      given := fun stored hstored => table.given stored (List.mem_filter.mp hstored).1 },
    (table.rows.filter fun stored => stored.id ∉ ids).length)

/-! ## Rules -/

theorem rows_insert {table after : Rowid α} {stored : Stored α}
    (h : table.insert stored = some after) : after.rows = table.rows ++ [stored] := by
  unfold insert at h
  split at h
  · cases h
    rfl
  · cases h

theorem ids_sorted (table : Rowid α) : table.ids.Pairwise (· < ·) :=
  List.pairwise_map.mpr table.sorted

theorem sort_descending {ids : List Int} (h : ids.Pairwise (· < ·)) :
    ids.insertionSort (fun a b => b ≤ a) = ids.reverse := by
  have hreverse : ids.reverse.Pairwise fun a b => b ≤ a :=
    List.pairwise_reverse.mpr (h.imp Int.le_of_lt)
  refine List.Perm.eq_of_pairwise ?_ (List.pairwise_insertionSort _ ids) hreverse ?_
  · intro a b _ _ hba hab
    exact Int.le_antisymm hab hba
  · exact (List.perm_insertionSort _ ids).trans (List.reverse_perm ids).symm

/-- Increasing positive numbers are at least as large as their positions. -/
theorem length_le_of_increasing {ids : List Int} {low high : Int} (h : ids.Pairwise (· < ·))
    (hlow : ∀ id ∈ ids, low < id) (hhigh : ∀ id ∈ ids, id ≤ high) (hle : low ≤ high) :
    low + ids.length ≤ high := by
  induction ids generalizing low with
  | nil => simpa using hle
  | cons id ids ih =>
      obtain ⟨hid, hids⟩ := List.pairwise_cons.mp h
      have hfirst := hlow id List.mem_cons_self
      have hrest := ih hids hid (fun other hother => hhigh other (List.mem_cons_of_mem id hother))
        (hhigh id List.mem_cons_self)
      rw [List.length_cons]
      omega

theorem length_lt (table : Rowid α) : (table.rows.length : Int) < idLimit := by
  have hle : 0 + (table.ids.length : Int) ≤ table.lastId := by
    refine length_le_of_increasing table.ids_sorted ?_ ?_ table.positive
    · simpa [ids] using fun stored hstored => (table.given stored hstored).1
    · simpa [ids] using fun stored hstored => (table.given stored hstored).2
  have hsmall := table.small
  rw [ids, List.length_map] at hle
  omega

/-- Rows in order whose ids are among the last ones are the last rows. -/
theorem filter_mem_drop {rows : List (Stored α)} (h : rows.Pairwise fun a b => a.id < b.id)
    (start : Nat) :
    rows.filter (fun stored => stored.id ∈ (rows.drop start).map Stored.id) = rows.drop start := by
  have hearlier : (rows.take start).filter
      (fun stored => stored.id ∈ (rows.drop start).map Stored.id) = [] := by
    rw [List.filter_eq_nil_iff]
    intro stored hstored hin
    obtain ⟨other, hother, hid⟩ := List.mem_map.mp (of_decide_eq_true hin)
    have hlt := h.rel_of_mem_take_of_mem_drop hstored hother
    omega
  have hlater : (rows.drop start).filter
      (fun stored => stored.id ∈ (rows.drop start).map Stored.id) = rows.drop start := by
    rw [List.filter_eq_self]
    intro stored hstored
    exact decide_eq_true (List.mem_map_of_mem hstored)
  calc rows.filter (fun stored => stored.id ∈ (rows.drop start).map Stored.id)
      = (rows.take start ++ rows.drop start).filter
          (fun stored => stored.id ∈ (rows.drop start).map Stored.id) := by
        rw [List.take_append_drop]
    _ = rows.drop start := by rw [List.filter_append, hearlier, hlater, List.nil_append]

/-- The number of rows that a limit lets through. -/
def allowed (table : Rowid α) (limit : Int) : Nat :=
  if limit < 0 then table.rows.length else limit.toNat

theorem newest_eq (table : Rowid α) (limit : Int) :
    table.newest limit =
      ((table.rows.drop (table.rows.length - table.allowed limit)).map Stored.id).reverse := by
  rw [newest, sort_descending table.ids_sorted, allowed, List.map_drop]
  split
  · rw [Nat.sub_self, List.drop_zero, ids]
  · rw [List.take_reverse, ids, List.length_map]

theorem rows_retain_newest (table : Rowid α) (limit : Int) :
    (table.retain (table.newest limit)).1.rows =
      table.rows.drop (table.rows.length - table.allowed limit) := by
  rw [newest_eq]
  simp only [retain, List.mem_reverse]
  exact filter_mem_drop table.sorted _

theorem retain_deleted (table : Rowid α) (ids : List Int) :
    (table.retain ids).2 = table.rows.length - (table.retain ids).1.rows.length := by
  have hparts := List.length_eq_length_filter_add (l := table.rows)
    fun stored => decide (stored.id ∈ ids)
  simp only [retain]
  simp only [← decide_not] at hparts
  omega

end Rowid

end VasalAgent.Store
