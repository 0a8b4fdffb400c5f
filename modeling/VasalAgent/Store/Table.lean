import Mathlib.Data.List.Basic

/-!
# Tables with a text key

A table is a list of rows in the order of their keys, no key twice, so that the
list is what a query `ORDER BY key` returns.  A table is determined by what is
found under each key (`Table.ext_get`), and the rules say what that is after every
operation.
-/

namespace VasalAgent.Store

section Rows

variable {α : Type} (key : α → String)

/-- A row with the key of another one takes its place. -/
def insertRow (row : α) : List α → List α
  | [] => [row]
  | other :: rest =>
      if key row = key other then row :: rest
      else if key row < key other then row :: other :: rest
      else other :: insertRow row rest

abbrev SortedRows (rows : List α) : Prop := rows.Pairwise fun a b => key a < key b

variable {key}

theorem mem_insertRow {row other : α} {rows : List α} (h : other ∈ insertRow key row rows) :
    other = row ∨ other ∈ rows := by
  fun_induction insertRow key row rows with
  | case1 => simpa using h
  | case2 first rest heq =>
      simp only [List.mem_cons] at h ⊢
      exact h.imp_right .inr
  | case3 first rest hne hlt => simpa using h
  | case4 first rest hne hlt ih =>
      simp only [List.mem_cons] at h ⊢
      rcases h with rfl | h
      · exact .inr (.inl rfl)
      · exact (ih h).imp_right .inr

theorem sorted_insertRow (row : α) {rows : List α} (h : SortedRows key rows) :
    SortedRows key (insertRow key row rows) := by
  fun_induction insertRow key row rows with
  | case1 => simp
  | case2 first rest heq => simpa only [SortedRows, List.pairwise_cons, heq] using h
  | case3 first rest hne hlt =>
      have hfirst := (List.pairwise_cons.mp h).1
      simp only [SortedRows, List.pairwise_cons, List.forall_mem_cons] at h ⊢
      exact ⟨⟨hlt, fun other hother => String.lt_trans hlt (hfirst other hother)⟩, h⟩
  | case4 first rest hne hlt ih =>
      obtain ⟨hfirst, hrest⟩ := List.pairwise_cons.mp h
      refine List.pairwise_cons.mpr ⟨fun other hother => ?_, ih hrest⟩
      rcases mem_insertRow hother with rfl | hold
      · rw [String.not_lt] at hlt
        exact String.not_le.mp fun hle => hne (String.le_antisymm hle hlt)
      · exact hfirst other hold

theorem find?_insertRow (row : α) {rows : List α} (h : SortedRows key rows) (k : String) :
    (insertRow key row rows).find? (fun other => key other = k) =
      if key row = k then some row else rows.find? fun other => key other = k := by
  fun_induction insertRow key row rows with
  | case1 => by_cases hk : key row = k <;> simp [hk]
  | case2 first rest heq => by_cases hk : key row = k <;> simp [hk, ← heq]
  | case3 first rest hne hlt => by_cases hk : key row = k <;> simp [hk]
  | case4 first rest hne hlt ih =>
      obtain ⟨-, hrest⟩ := List.pairwise_cons.mp h
      by_cases hfirst : key first = k
      · have hk : ¬ key row = k := fun heq => hne (heq.trans hfirst.symm)
        simp [hfirst, hk]
      · simp [hfirst, ih hrest]

theorem find?_of_mem {row : α} {rows : List α} (h : SortedRows key rows) (hrow : row ∈ rows) :
    rows.find? (fun other => key other = key row) = some row := by
  induction rows with
  | nil => cases hrow
  | cons first rest ih =>
      obtain ⟨hfirst, hrest⟩ := List.pairwise_cons.mp h
      rcases List.mem_cons.mp hrow with rfl | hrow
      · simp
      · have hne : ¬ key first = key row := fun heq =>
          String.lt_irrefl (key row) (heq ▸ hfirst row hrow)
        simp [hne, ih hrest hrow]

/-- Rows in order are determined by their members. -/
theorem eq_of_mem_iff {rows others : List α} (h : SortedRows key rows)
    (hothers : SortedRows key others) (hmem : ∀ row, row ∈ rows ↔ row ∈ others) :
    rows = others := by
  induction rows generalizing others with
  | nil =>
      cases others with
      | nil => rfl
      | cons first rest => simpa using hmem first
  | cons first rest ih =>
      cases others with
      | nil => simpa using hmem first
      | cons other more =>
          obtain ⟨hfirst, hrest⟩ := List.pairwise_cons.mp h
          obtain ⟨hother, hmore⟩ := List.pairwise_cons.mp hothers
          have heq : first = other := by
            rcases List.mem_cons.mp ((hmem first).mp List.mem_cons_self) with heq | hin
            · exact heq
            · rcases List.mem_cons.mp ((hmem other).mpr List.mem_cons_self) with heq | hin'
              · exact heq.symm
              · exact absurd (hfirst other hin') (String.lt_asymm (hother first hin))
          subst heq
          rw [ih hrest hmore fun row => ?_]
          have hirrefl (row : α) : row ∈ rest ∨ row ∈ more → row ≠ first := by
            rintro (hin | hin) rfl
            · exact String.lt_irrefl _ (hfirst _ hin)
            · exact String.lt_irrefl _ (hother _ hin)
          have hrow := hmem row
          simp only [List.mem_cons] at hrow
          constructor
          · intro hin
            exact (hrow.mp (.inr hin)).resolve_left (hirrefl row (.inl hin))
          · intro hin
            exact (hrow.mpr (.inr hin)).resolve_left (hirrefl row (.inr hin))

end Rows

structure Table {α : Type} (key : α → String) where
  rows : List α
  sorted : SortedRows key rows

namespace Table

variable {α : Type} {key : α → String}

def empty : Table key := ⟨[], .nil⟩

def get (table : Table key) (k : String) : Option α :=
  table.rows.find? fun row => key row = k

def upsert (table : Table key) (row : α) : Table key :=
  ⟨insertRow key row table.rows, sorted_insertRow row table.sorted⟩

def remove (table : Table key) (k : String) : Table key :=
  ⟨table.rows.filter fun row => key row ≠ k, table.sorted.filter _⟩

theorem get_upsert (table : Table key) (row : α) (k : String) :
    (table.upsert row).get k = if key row = k then some row else table.get k :=
  find?_insertRow row table.sorted k

theorem get_remove (table : Table key) (name k : String) :
    (table.remove name).get k = if name = k then none else table.get k := by
  simp only [remove, get, List.find?_filter]
  by_cases h : name = k
  · simp [h]
  · rw [if_neg h]
    congr 1
    funext row
    by_cases hrow : key row = k <;> simp [hrow, Ne.symm h]

theorem key_of_get {table : Table key} {k : String} {row : α} (h : table.get k = some row) :
    key row = k := by
  simpa using List.find?_some h

theorem get_of_mem {table : Table key} {row : α} (h : row ∈ table.rows) :
    table.get (key row) = some row :=
  find?_of_mem table.sorted h

theorem mem_rows {table : Table key} {row : α} :
    row ∈ table.rows ↔ table.get (key row) = some row :=
  ⟨get_of_mem, List.mem_of_find?_eq_some⟩

theorem ext_get {table other : Table key} (h : ∀ k, table.get k = other.get k) :
    table = other := by
  have hrows : table.rows = other.rows :=
    eq_of_mem_iff table.sorted other.sorted fun row => by rw [mem_rows, mem_rows, h]
  cases table
  cases other
  cases hrows
  rfl

end Table

end VasalAgent.Store
