import Mathlib.Data.List.Induction
import Mathlib.Data.List.Nodup
import VasalAgent.Serde.Number

/-!
# JSON values

Which trees are values of `serde_json`: the keys of an object are sorted and occur
once, and a number is one that some text denotes.  `settled` is what a `Value` makes
of a tree whose objects still have their fields in the order of a text.
-/

namespace VasalAgent.Serde

open VasalAgent.Protocol (Json Number)
open VasalAgent.Protocol.Json (insertKey)

/-! ## Maps -/

section Keys

variable {β γ : Type}

abbrev Sorted (entries : List (String × β)) : Prop :=
  entries.Pairwise fun a b => a.1 < b.1

theorem lt_of_not_lt {a b : String} (hne : ¬ a = b) (hlt : ¬ a < b) : b < a := by
  rw [String.not_lt] at hlt
  exact String.not_le.mp fun hle => hne (String.le_antisymm hle hlt)

theorem mem_insertKey {key : String} {value : β} {entries : List (String × β)}
    {entry : String × β} (h : entry ∈ insertKey key value entries) :
    entry = (key, value) ∨ entry ∈ entries := by
  fun_induction insertKey key value entries with
  | case1 => simpa using h
  | case2 rest v =>
      simp only [List.mem_cons] at h ⊢
      exact h.imp_right .inr
  | case3 k v rest => simpa using h
  | case4 k v rest hne hlt ih =>
      simp only [List.mem_cons] at h ⊢
      rcases h with h | h
      · exact .inr (.inl h)
      · exact (ih h).imp_right .inr

theorem sorted_insertKey (key : String) (value : β) {entries : List (String × β)}
    (h : Sorted entries) : Sorted (insertKey key value entries) := by
  fun_induction insertKey key value entries with
  | case1 => simp
  | case2 rest v => simpa using h
  | case3 k v rest hne hlt =>
      have hfirst := (List.pairwise_cons.mp h).1
      simp only [List.pairwise_cons, List.forall_mem_cons] at h ⊢
      exact ⟨⟨hlt, fun entry hentry => String.lt_trans hlt (hfirst entry hentry)⟩, h⟩
  | case4 k v rest hne hlt ih =>
      obtain ⟨hfirst, hrest⟩ := List.pairwise_cons.mp h
      refine List.pairwise_cons.mpr ⟨fun entry hentry => ?_, ih hrest⟩
      rcases mem_insertKey hentry with rfl | hold
      · exact lt_of_not_lt hne hlt
      · exact hfirst entry hold

theorem insertKey_last {key : String} (value : β) {entries : List (String × β)}
    (h : ∀ entry ∈ entries, entry.1 < key) :
    insertKey key value entries = entries ++ [(key, value)] := by
  induction entries with
  | nil => rfl
  | cons entry rest ih =>
      simp only [List.forall_mem_cons] at h
      have hne : ¬ key = entry.1 := fun heq => String.lt_irrefl key (heq ▸ h.1)
      rw [insertKey, if_neg hne, if_neg (String.lt_asymm h.1), ih h.2]
      rfl

theorem lookup_cons_ite (key : String) (value : β) (entries : List (String × β)) (name : String) :
    ((key, value) :: entries).lookup name =
      if name = key then some value else entries.lookup name := by
  rw [List.lookup_cons]
  split
  · next h => rw [if_pos (by simpa using h)]
  · next h => rw [if_neg (by simpa using h)]

theorem lookup_insertKey (key : String) (value : β) (entries : List (String × β)) (name : String) :
    (insertKey key value entries).lookup name =
      if name = key then some value else entries.lookup name := by
  fun_induction insertKey key value entries with
  | case1 => rw [lookup_cons_ite]
  | case2 v rest => by_cases h : name = key <;> simp only [lookup_cons_ite, h, if_true, if_false]
  | case3 k v rest hne hlt => rw [lookup_cons_ite]
  | case4 k v rest hne hlt ih =>
      rw [lookup_cons_ite, ih, lookup_cons_ite]
      by_cases h : name = key
      · rw [if_neg (h ▸ hne), if_pos h, if_pos h]
      · rw [if_neg h, if_neg h]

/-- The entries of a map that is filled from nothing. -/
def fill (entries : List (String × β)) : List (String × β) :=
  entries.foldl (fun filled entry => insertKey entry.1 entry.2 filled) []

/-- What insertion preserves holds of a filled map. -/
theorem fill_invariant {P : List (String × β) → Prop} (entries : List (String × β))
    (hnil : P []) (hinsert : ∀ entry ∈ entries, ∀ filled, P filled →
      P (insertKey entry.1 entry.2 filled)) : P (fill entries) := by
  unfold fill
  generalize ([] : List (String × β)) = filled at hnil
  induction entries generalizing filled with
  | nil => exact hnil
  | cons entry rest ih =>
      simp only [List.forall_mem_cons] at hinsert
      exact ih hinsert.2 _ (hinsert.1 filled hnil)

theorem sorted_fill (entries : List (String × β)) : Sorted (fill entries) :=
  fill_invariant entries .nil fun entry _ _ h => sorted_insertKey entry.1 entry.2 h

theorem mem_fill {entries : List (String × β)} : ∀ entry ∈ fill entries, entry ∈ entries := by
  refine fill_invariant (P := fun filled => ∀ entry ∈ filled, entry ∈ entries) entries
    (by simp) ?_
  intro entry hentry filled hfilled other hother
  rcases mem_insertKey hother with rfl | hold
  · exact hentry
  · exact hfilled other hold

theorem fill_of_sorted {entries : List (String × β)} (h : Sorted entries) :
    fill entries = entries := by
  have hfold (start rest : List (String × β)) (hall : Sorted (start ++ rest)) :
      rest.foldl (fun filled entry => insertKey entry.1 entry.2 filled) start =
        start ++ rest := by
    induction rest generalizing start with
    | nil => simp
    | cons entry rest ih =>
        have hlast : ∀ other ∈ start, other.1 < entry.1 :=
          fun other hother => (List.pairwise_append.mp hall).2.2 other hother entry (by simp)
        rw [List.foldl_cons, insertKey_last entry.2 hlast, ih _ (by simpa using hall)]
        simp
  exact hfold [] entries h

theorem Sorted.nodup {entries : List (String × β)} (h : Sorted entries) :
    (entries.map Prod.fst).Nodup :=
  List.pairwise_map.mpr (h.imp fun {a b} (hlt : a.1 < b.1) (heq : a.1 = b.1) =>
    String.lt_irrefl b.1 (heq ▸ hlt))

theorem lookup_iff_mem {entries : List (String × β)} (hkeys : (entries.map Prod.fst).Nodup)
    {key : String} {value : β} :
    entries.lookup key = some value ↔ (key, value) ∈ entries := by
  constructor
  · intro h
    obtain ⟨before, after, rfl, -⟩ := List.lookup_eq_some_iff.mp h
    simp
  · intro h
    obtain ⟨before, after, rfl⟩ := List.append_of_mem h
    refine List.lookup_eq_some_iff.mpr ⟨before, after, rfl, fun entry hentry => ?_⟩
    rw [List.map_append, List.map_cons] at hkeys
    have hne := (List.nodup_append.mp hkeys).2.2 entry.1 (List.mem_map_of_mem hentry) key (by simp)
    simpa using Ne.symm hne

/-- A map is known by its lookups. -/
theorem Sorted.ext {first second : List (String × β)} (hfirst : Sorted first)
    (hsecond : Sorted second) (h : ∀ name, first.lookup name = second.lookup name) :
    first = second := by
  have hmem : ∀ entry, entry ∈ first ↔ entry ∈ second := fun entry => by
    rw [← lookup_iff_mem hfirst.nodup, ← lookup_iff_mem hsecond.nodup, h]
  have hperm : first.Perm second :=
    (List.perm_ext_iff_of_nodup (.of_map _ hfirst.nodup) (.of_map _ hsecond.nodup)).mpr hmem
  exact hperm.eq_of_pairwise (fun a b _ _ hab hba => absurd hba (String.lt_asymm hab)) hfirst
    hsecond

/-- In a filled map the last entry of a name counts. -/
theorem lookup_fill (entries : List (String × β)) (name : String) :
    (fill entries).lookup name = entries.reverse.lookup name := by
  induction entries using List.reverseRecOn with
  | nil => rfl
  | append_singleton entries entry ih =>
      have hfill : fill (entries ++ [entry]) = insertKey entry.1 entry.2 (fill entries) := by
        simp [fill]
      rw [hfill, lookup_insertKey, ih, List.reverse_append, List.reverse_singleton,
        List.singleton_append, lookup_cons_ite]

/-- An entry whose name comes again leaves nothing in the map. -/
theorem fill_overwritten {key : String} {before after : List (String × β)}
    (h : key ∈ after.map Prod.fst) (value other : β) :
    fill (before ++ (key, value) :: after) = fill (before ++ (key, other) :: after) := by
  refine (sorted_fill _).ext (sorted_fill _) fun name => ?_
  simp only [lookup_fill, List.reverse_append, List.reverse_cons, List.append_assoc,
    List.lookup_append, List.singleton_append, lookup_cons_ite]
  by_cases hname : name = key
  · obtain ⟨last, hlast⟩ : ∃ last, after.reverse.lookup name = some last := by
      rw [← Option.isSome_iff_exists, Option.isSome_iff_ne_none, ne_eq, List.lookup_eq_none_iff]
      obtain ⟨entry, hentry, rfl⟩ := List.mem_map.mp h
      exact fun hnone => by simpa [hname] using hnone entry (List.mem_reverse.mpr hentry)
    rw [hlast, Option.some_or, Option.some_or]
  · rw [if_neg hname, if_neg hname]

end Keys

/-! ## Values -/

mutual

/-- Every number in the tree is one that some text denotes. -/
def numbersFit : Json → Bool
  | .num number => numberFits number
  | .arr items => numbersFitItems items
  | .obj fields => numbersFitFields fields
  | _ => true

def numbersFitItems : List Json → Bool
  | [] => true
  | item :: rest => numbersFit item && numbersFitItems rest

def numbersFitFields : List (String × Json) → Bool
  | [] => true
  | (_, value) :: rest => numbersFit value && numbersFitFields rest

end

mutual

/-- The `Value` that is read from a tree: its objects are maps. -/
def settled : Json → Json
  | .arr items => .arr (settledItems items)
  | .obj fields => .obj (fill (settledFields fields))
  | json => json

def settledItems : List Json → List Json
  | [] => []
  | item :: rest => settled item :: settledItems rest

def settledFields : List (String × Json) → List (String × Json)
  | [] => []
  | (key, value) :: rest => (key, settled value) :: settledFields rest

end

/-- A value of `serde_json`. -/
inductive Lawful : Json → Prop where
  | null : Lawful .null
  | bool (value : Bool) : Lawful (.bool value)
  | num {number : Number} (h : numberFits number = true) : Lawful (.num number)
  | str (value : String) : Lawful (.str value)
  | arr {items : List Json} (h : ∀ item ∈ items, Lawful item) : Lawful (.arr items)
  | obj {fields : List (String × Json)} (hsorted : Sorted fields)
      (h : ∀ field ∈ fields, Lawful field.2) : Lawful (.obj fields)

mutual

theorem lawful_settled : ∀ {json}, numbersFit json = true → Lawful (settled json)
  | .null, _ => .null
  | .bool value, _ => .bool value
  | .num _, h => .num h
  | .str value, _ => .str value
  | .arr _, h => .arr (lawful_settledItems h)
  | .obj _, h =>
      .obj (sorted_fill _) fun field hfield => lawful_settledFields h field (mem_fill field hfield)

theorem lawful_settledItems : ∀ {items}, numbersFitItems items = true →
    ∀ item ∈ settledItems items, Lawful item
  | [], _ => by simp [settledItems]
  | _ :: _, h => by
      simp only [numbersFitItems, Bool.and_eq_true] at h
      simp only [settledItems, List.forall_mem_cons]
      exact ⟨lawful_settled h.1, lawful_settledItems h.2⟩

theorem lawful_settledFields : ∀ {fields}, numbersFitFields fields = true →
    ∀ field ∈ settledFields fields, Lawful field.2
  | [], _ => by simp [settledFields]
  | (_, _) :: _, h => by
      simp only [numbersFitFields, Bool.and_eq_true] at h
      simp only [settledFields, List.forall_mem_cons]
      exact ⟨lawful_settled h.1, lawful_settledFields h.2⟩

end

theorem settledItems_eq_map (items : List Json) : settledItems items = items.map settled := by
  induction items with
  | nil => rfl
  | cons item rest ih => rw [settledItems, ih, List.map_cons]

theorem settledFields_eq_map (fields : List (String × Json)) :
    settledFields fields = fields.map fun field => (field.1, settled field.2) := by
  induction fields with
  | nil => rfl
  | cons field rest ih => rw [settledFields, ih, List.map_cons]

theorem numbersFitItems_eq_all (items : List Json) :
    numbersFitItems items = items.all numbersFit := by
  induction items with
  | nil => rfl
  | cons item rest ih => rw [numbersFitItems, ih, List.all_cons]

theorem numbersFitFields_eq_all (fields : List (String × Json)) :
    numbersFitFields fields = fields.all fun field => numbersFit field.2 := by
  induction fields with
  | nil => rfl
  | cons field rest ih => rw [numbersFitFields, ih, List.all_cons]

theorem numbersFit_arr {items : List Json} :
    numbersFit (.arr items) = true ↔ ∀ item ∈ items, numbersFit item = true := by
  rw [numbersFit, numbersFitItems_eq_all, List.all_eq_true]

theorem numbersFit_obj {fields : List (String × Json)} :
    numbersFit (.obj fields) = true ↔ ∀ field ∈ fields, numbersFit field.2 = true := by
  rw [numbersFit, numbersFitFields_eq_all, List.all_eq_true]

theorem Lawful.numbersFit {json : Json} (h : Lawful json) : numbersFit json = true := by
  induction h with
  | null | bool | str => rfl
  | num h => exact h
  | arr _ ih => exact numbersFit_arr.mpr ih
  | obj _ _ ih => exact numbersFit_obj.mpr ih

/-- A `Value` is read from a value unchanged. -/
theorem Lawful.settled_eq {json : Json} (h : Lawful json) : settled json = json := by
  induction h with
  | null | bool | str | num => rfl
  | arr _ ih => rw [settled, settledItems_eq_map, List.map_congr_left ih, List.map_id']
  | obj hsorted _ ih =>
      have hfields := List.map_congr_left fun field hfield =>
        congrArg (Prod.mk field.1) (ih field hfield)
      rw [settled, settledFields_eq_map, hfields, List.map_id', fill_of_sorted hsorted]

theorem settled_ne_null {json : Json} (h : json ≠ .null) : settled json ≠ .null := by
  cases json <;> simp_all [settled]

/-! ## Depth -/

mutual

/-- How many arrays and objects stand around the innermost value. -/
def depth : Json → Nat
  | .arr items => depthItems items + 1
  | .obj fields => depthFields fields + 1
  | _ => 0

def depthItems : List Json → Nat
  | [] => 0
  | item :: rest => max (depth item) (depthItems rest)

def depthFields : List (String × Json) → Nat
  | [] => 0
  | (_, value) :: rest => max (depth value) (depthFields rest)

end

theorem depthItems_le {items : List Json} {n : Nat} :
    depthItems items ≤ n ↔ ∀ item ∈ items, depth item ≤ n := by
  induction items with
  | nil => simp [depthItems]
  | cons item rest ih => rw [depthItems, Nat.max_le, ih, List.forall_mem_cons]

/-- So many arrays, one in the other. -/
def nested : Nat → Json
  | 0 => .null
  | n + 1 => .arr [nested n]

theorem lawful_nested (n : Nat) : Lawful (nested n) := by
  induction n with
  | zero => exact .null
  | succ n ih => exact .arr (by simpa [nested] using ih)

theorem depth_nested (n : Nat) : depth (nested n) = n := by
  induction n with
  | zero => rfl
  | succ n ih => simp [nested, depth, depthItems, ih]

theorem depthFields_le {fields : List (String × Json)} {n : Nat} :
    depthFields fields ≤ n ↔ ∀ field ∈ fields, depth field.2 ≤ n := by
  induction fields with
  | nil => simp [depthFields]
  | cons field rest ih => rw [depthFields, Nat.max_le, ih, List.forall_mem_cons]

end VasalAgent.Serde
