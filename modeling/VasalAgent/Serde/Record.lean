import Mathlib.Data.List.Nodup
import Mathlib.Logic.Equiv.Defs
import VasalAgent.Serde.Codec

/-!
# Derived codecs

What `#[derive(Serialize, Deserialize)]` makes of an enumeration without data, of
a struct and of an internally tagged enum.  A struct is put together field by
field, an enum variant by variant; the laws of a codec are proved here once, for
every struct and every enum that is built this way.

A struct is read from an object, whose other keys are ignored, or from an array
with the fields in their order.  An object in which a key occurs twice is refused,
and which of several errors is reported first is left open.
-/

namespace VasalAgent.Serde

open VasalAgent.Protocol (Json)
open VasalAgent.Protocol.Json (insertKey)

/-! ## Keys of an object -/

def values (name : String) (fields : List (String × Json)) : List Json :=
  fields.filterMap fun field => if field.1 = name then some field.2 else none

@[simp] theorem values_nil (name : String) : values name [] = [] := rfl

@[simp] theorem values_cons (name : String) (field : String × Json)
    (fields : List (String × Json)) :
    values name (field :: fields) =
      (if field.1 = name then [field.2] else []) ++ values name fields := by
  by_cases h : field.1 = name <;> simp [values, h]

@[simp] theorem values_append (name : String) (first second : List (String × Json)) :
    values name (first ++ second) = values name first ++ values name second := by
  simp [values]

abbrev keys (fields : List (String × Json)) : List String := fields.map Prod.fst

theorem values_of_not_mem {name : String} {fields : List (String × Json)}
    (h : name ∉ keys fields) : values name fields = [] := by
  induction fields with
  | nil => rfl
  | cons field rest ih =>
      simp only [keys, List.map_cons, List.mem_cons, not_or] at h
      simp [Ne.symm h.1, ih h.2]

theorem values_filter {name tag : String} (h : name ≠ tag) (fields : List (String × Json)) :
    values name (fields.filter fun field => field.1 != tag) = values name fields := by
  induction fields with
  | nil => rfl
  | cons field rest ih =>
      by_cases htag : field.1 = tag
      · simp [htag, ih, Ne.symm h]
      · simp [htag, ih]

theorem mem_keys_insertKey {name key : String} {value : Json}
    {fields : List (String × Json)} :
    name ∈ keys (insertKey key value fields) ↔ name = key ∨ name ∈ keys fields := by
  fun_induction insertKey key value fields with
  | case1 => simp
  | case2 rest v => simp
  | case3 k v rest => simp
  | case4 k v rest hne hlt ih =>
      simp only [keys, List.map_cons, List.mem_cons] at ih ⊢
      rw [ih]
      exact or_left_comm

theorem values_insertKey {name key : String} {value : Json} {fields : List (String × Json)}
    (h : key ∉ keys fields) :
    values name (insertKey key value fields) =
      values name fields ++ if key = name then [value] else [] := by
  have hnew (hname : key = name) : values name fields = [] :=
    values_of_not_mem (hname ▸ h)
  fun_induction insertKey key value fields with
  | case1 => simp
  | case2 rest v => simp at h
  | case3 k v rest =>
      rw [values_cons]
      by_cases hname : key = name
      · simp [hname, hnew hname]
      · simp [hname]
  | case4 k v rest hne hlt ih =>
      simp only [keys, List.map_cons, List.mem_cons, not_or] at h
      rw [values_cons, values_cons, ih h.2 fun hname => values_of_not_mem (hname ▸ h.2),
        List.append_assoc]

theorem values_fill {fields : List (String × Json)} (h : (keys fields).Nodup)
    (name : String) : values name (fill fields) = values name fields := by
  have hfold (start rest : List (String × Json)) (hrest : (keys rest).Nodup)
      (hdisjoint : ∀ key ∈ keys rest, key ∉ keys start) :
      values name (rest.foldl (fun object field => insertKey field.1 field.2 object) start) =
        values name start ++ values name rest := by
    induction rest generalizing start with
    | nil => simp
    | cons field rest ih =>
        simp only [keys, List.map_cons, List.nodup_cons] at hrest
        simp only [keys, List.map_cons, List.forall_mem_cons] at hdisjoint
        rw [List.foldl_cons, ih _ hrest.2, values_insertKey hdisjoint.1, values_cons,
          List.append_assoc]
        intro key hkey hold
        rcases mem_keys_insertKey.mp hold with rfl | hstart
        · exact hrest.1 hkey
        · exact hdisjoint.2 key hkey hstart
  exact hfold [] fields h (by simp)

/-- The object that a serializer fills. -/
theorem ofFields_eq (fields : List (String × Json)) :
    Json.ofFields fields = .obj (fill fields) := rfl

theorem lawful_ofFields {fields : List (String × Json)} (h : ∀ field ∈ fields, Lawful field.2) :
    Lawful (Json.ofFields fields) := by
  rw [ofFields_eq]
  exact .obj (sorted_fill fields) fun field hfield => h field (mem_fill field hfield)

theorem depth_ofFields_le {fields : List (String × Json)} {n : Nat}
    (h : ∀ field ∈ fields, depth field.2 ≤ n) : depth (Json.ofFields fields) ≤ n + 1 := by
  rw [ofFields_eq]
  exact Nat.succ_le_succ (depthFields_le.mpr fun field hfield => h field (mem_fill field hfield))

/-- What `Value::get` finds. -/
theorem get?_eq_head? (name : String) (fields : List (String × Json)) :
    (Json.obj fields).get? name = (values name fields).head? := by
  induction fields with
  | nil => rfl
  | cons field rest ih =>
      obtain ⟨key, value⟩ := field
      by_cases h : key = name
      · simp [Json.get?, h]
      · have hne : (name == key) = false := by simpa using Ne.symm h
        simpa [Json.get?, List.lookup_cons, h, hne] using ih

/-! ## Enumerations without data -/

/--
What stands for the data of a variant without data.  Where a value has been
buffered to find a tag first, an empty object passes as well.
-/
def isUnit (buffered : Bool) : Json → Bool
  | .null => true
  | .obj [] => buffered
  | _ => false

section Enumeration

variable {α : Type}

def ofText (variants : List α) (text : α → String) (tag : String) : Option α :=
  variants.find? fun variant => text variant = tag

theorem ofText_text {variants : List α} {text : α → String} (hall : ∀ variant, variant ∈ variants)
    (htext : Function.Injective text) (variant : α) :
    ofText variants text (text variant) = some variant := by
  cases hfind : ofText variants text (text variant) with
  | none =>
      rw [ofText, List.find?_eq_none] at hfind
      simpa using hfind variant (hall variant)
  | some other =>
      have hother := List.find?_some hfind
      simp only [decide_eq_true_eq] at hother
      rw [htext hother]

/-- A variant is written as its name, and read from its name or from an object with that key. -/
def Codec.enumeration (buffered : Bool) (variants : List α) (text : α → String)
    (hall : ∀ variant, variant ∈ variants) (htext : Function.Injective text) : Codec α where
  decode
    | .str tag => ofText variants text tag
    | .obj [(tag, content)] =>
        if isUnit buffered content then ofText variants text tag else none
    | _ => none
  encode variant := .str (text variant)
  Valid _ := True
  decode_encode _ := ofText_text hall htext _
  valid_of_decode _ := trivial
  lawful_encode _ := .str _

end Enumeration

/-! ## Fields -/

/-- The data of a struct: an object or an array. -/
inductive Body where
  | map (fields : List (String × Json))
  | seq (items : List Json)

namespace Body

def ofJson : Json → Option Body
  | .obj fields => some (.map fields)
  | .arr items => some (.seq items)
  | _ => none

/-- Elements of an array that are left over are an error. -/
def fits (count : Nat) : Body → Bool
  | .map _ => true
  | .seq items => items.length ≤ count

end Body

/--
A field of a struct.  `missing` is its default, if it has one, and `skip` says which
values are not written.
-/
structure StructField (α : Type) where
  name : String
  codec : Codec α
  missing : Option α
  skip : α → Bool
  valid_missing : ∀ {value}, missing = some value → codec.Valid value
  missing_of_skip : ∀ {value}, skip value = true → missing = some value

namespace StructField

variable {α : Type}

def required (name : String) (codec : Codec α) : StructField α where
  name
  codec
  missing := none
  skip _ := false
  valid_missing h := by cases h
  missing_of_skip h := by cases h

/-- `#[serde(default)]`. -/
def withDefault (name : String) (codec : Codec α) (value : α) (h : codec.Valid value) :
    StructField α where
  name
  codec
  missing := some value
  skip _ := false
  valid_missing hvalue := by
    cases hvalue
    exact h
  missing_of_skip h := by cases h

/-- `#[serde(default, skip_serializing_if = "Option::is_none")]`. -/
def optional (name : String) (codec : Codec α) (h : codec.Solid) : StructField (Option α) where
  name
  codec := .option codec h
  missing := some none
  skip := Option.isNone
  valid_missing hvalue := by
    cases hvalue
    trivial
  missing_of_skip hvalue := by
    rw [Option.isNone_iff_eq_none.mp hvalue]

variable (f : StructField α)

def read (position : Nat) : Body → Option α
  | .map fields =>
      match values f.name fields with
      | [] => f.missing
      | [value] => f.codec.decode value
      | _ => none
  | .seq items =>
      match items[position]? with
      | some value => f.codec.decode value
      | none => f.missing

def write (value : α) : List (String × Json) :=
  if f.skip value then [] else [(f.name, f.codec.encode value)]

theorem keys_write (value : α) : (keys (f.write value)).Sublist [f.name] := by
  unfold write
  split <;> simp

theorem lawful_write {value : α} (h : f.codec.Valid value) :
    ∀ field ∈ f.write value, Lawful field.2 := by
  unfold write
  split
  · simp
  · simpa using f.codec.lawful_encode h

theorem read_write {position : Nat} {value : α} {fields : List (String × Json)}
    (h : f.codec.Valid value) (hfields : values f.name fields = values f.name (f.write value)) :
    f.read position (.map fields) = some value := by
  simp only [read, hfields, write]
  by_cases hskip : f.skip value
  · simp [hskip, f.missing_of_skip hskip]
  · simp [hskip, f.codec.decode_encode h]

/-- A field that stands once in the object, in whatever form it was written. -/
theorem read_of_values {position : Nat} {value : α} {json : Json}
    {fields : List (String × Json)} (hfields : values f.name fields = [json])
    (h : f.codec.decode json = some value) : f.read position (.map fields) = some value := by
  simp only [read, hfields, h]

theorem valid_of_read {position : Nat} {body : Body} {value : α}
    (h : f.read position body = some value) : f.codec.Valid value := by
  unfold read at h
  split at h <;> split at h
  · exact f.valid_missing h
  · exact f.codec.valid_of_decode h
  · cases h
  · exact f.codec.valid_of_decode h
  · exact f.valid_missing h

end StructField

/-! ## Structs -/

structure Record (α : Type) where
  names : List String
  /-- The fields from a position on. -/
  read : Nat → Body → Option α
  write : α → List (String × Json)
  Valid : α → Prop
  nodup : names.Nodup
  keys_write : ∀ value, (keys (write value)).Sublist names
  read_congr : ∀ {position fields fields'},
    (∀ name ∈ names, values name fields = values name fields') →
    read position (.map fields) = read position (.map fields')
  read_write : ∀ {position value}, Valid value →
    read position (.map (write value)) = some value
  valid_of_read : ∀ {position body value}, read position body = some value → Valid value
  lawful_write : ∀ {value}, Valid value → ∀ field ∈ write value, Lawful field.2

namespace Record

variable {α β : Type}

def nil : Record Unit where
  names := []
  read _ _ := some ()
  write _ := []
  Valid _ := True
  nodup := by simp
  keys_write := by simp
  read_congr _ := rfl
  read_write _ := rfl
  valid_of_read _ := trivial
  lawful_write := by simp

theorem not_mem_of_contains {name : String} {names : List String}
    (h : names.contains name = false) : name ∉ names := by
  simpa using h

def cons (f : StructField α) (r : Record β) (hname : r.names.contains f.name = false := by rfl) :
    Record (α × β) where
  names := f.name :: r.names
  read position body := do
    let first ← f.read position body
    let rest ← r.read (position + 1) body
    pure (first, rest)
  write value := f.write value.1 ++ r.write value.2
  Valid value := f.codec.Valid value.1 ∧ r.Valid value.2
  nodup := List.nodup_cons.mpr ⟨not_mem_of_contains hname, r.nodup⟩
  keys_write value := by
    simpa [keys] using (f.keys_write value.1).append (r.keys_write value.2)
  read_congr := by
    intro position fields fields' hfields
    simp only [List.forall_mem_cons] at hfields
    simp only [StructField.read, hfields.1, r.read_congr hfields.2]
  read_write := by
    rintro position ⟨first, rest⟩ ⟨hfirst, hrest⟩
    have h := not_mem_of_contains hname
    have hother : values f.name (r.write rest) = [] :=
      values_of_not_mem fun hmem => h ((r.keys_write rest).subset hmem)
    have hread : f.read position (.map (f.write first ++ r.write rest)) = some first :=
      f.read_write hfirst (by simp [hother])
    have hcongr : r.read (position + 1) (.map (f.write first ++ r.write rest)) =
        r.read (position + 1) (.map (r.write rest)) := by
      apply r.read_congr
      intro name hname
      have hnone : values name (f.write first) = [] := by
        apply values_of_not_mem
        intro hmem
        have hsame := (f.keys_write first).subset hmem
        simp only [List.mem_singleton] at hsame
        exact h (hsame ▸ hname)
      simp [hnone]
    simp [hread, hcongr, r.read_write hrest]
  valid_of_read := by
    intro position body value hread
    simp only [Option.bind_eq_bind, Option.bind_eq_some_iff, Option.pure_def,
      Option.some.injEq] at hread
    obtain ⟨first, hfirst, rest, hrest, rfl⟩ := hread
    exact ⟨f.valid_of_read hfirst, r.valid_of_read hrest⟩
  lawful_write h := by
    rw [List.forall_mem_append]
    exact ⟨f.lawful_write h.1, r.lawful_write h.2⟩

theorem read_cons {f : StructField α} {r : Record β} {hname : r.names.contains f.name = false}
    {position : Nat} {body : Body} {first : α} {rest : β}
    (hfirst : f.read position body = some first)
    (hrest : r.read (position + 1) body = some rest) :
    (cons f r hname).read position body = some (first, rest) := by
  simp [cons, hfirst, hrest]

def equiv (r : Record α) (e : α ≃ β) : Record β where
  names := r.names
  read position body := (r.read position body).map e
  write value := r.write (e.symm value)
  Valid value := r.Valid (e.symm value)
  nodup := r.nodup
  keys_write value := r.keys_write _
  read_congr h := by rw [r.read_congr h]
  read_write h := by simp [r.read_write h]
  valid_of_read h := by
    obtain ⟨value, hvalue, rfl⟩ := Option.map_eq_some_iff.mp h
    simpa using r.valid_of_read hvalue
  lawful_write h := r.lawful_write h

theorem read_equiv {r : Record α} {e : α ≃ β} {position : Nat} {body : Body} (value : β)
    (h : r.read position body = some (e.symm value)) :
    (r.equiv e).read position body = some value := by
  simp [equiv, h]

variable (r : Record α)

theorem nodup_write (value : α) : (keys (r.write value)).Nodup :=
  (r.keys_write value).nodup r.nodup

/-- All fields, and nothing left over. -/
def readAll (body : Body) : Option α :=
  if body.fits r.names.length then r.read 0 body else none

theorem readAll_map (fields : List (String × Json)) :
    r.readAll (.map fields) = r.read 0 (.map fields) := rfl

theorem valid_of_readAll {body : Body} {value : α} (h : r.readAll body = some value) :
    r.Valid value := by
  simp only [readAll, Option.ite_none_right_eq_some] at h
  exact r.valid_of_read h.2

def codec : Codec α where
  decode json := (Body.ofJson json).bind r.readAll
  encode value := Json.ofFields (r.write value)
  Valid := r.Valid
  decode_encode := by
    intro value h
    rw [ofFields_eq, Body.ofJson, Option.bind_some, readAll_map,
      r.read_congr fun name _ => values_fill (r.nodup_write value) name]
    exact r.read_write h
  valid_of_decode h := by
    obtain ⟨body, -, hbody⟩ := Option.bind_eq_some_iff.mp h
    exact r.valid_of_readAll hbody
  lawful_encode h := lawful_ofFields (r.lawful_write h)

theorem decode_obj (fields : List (String × Json)) :
    r.codec.decode (.obj fields) = r.read 0 (.map fields) := rfl

theorem solid_codec : r.codec.Solid := by
  intro json value _ _
  simp [codec, ofFields_eq]

theorem get?_encode (name : String) (value : α) :
    (r.codec.encode value).get? name = (values name (r.write value)).head? := by
  simp only [codec, ofFields_eq, get?_eq_head?]
  rw [values_fill (r.nodup_write value)]

end Record

/-! ## Tagged enums -/

structure Variants (α : Type) where
  tags : List String
  /-- The names of the fields of all variants. -/
  names : List String
  read : String → Body → Option α
  tag : α → String
  write : α → List (String × Json)
  Valid : α → Prop
  tag_mem : ∀ value, tag value ∈ tags
  nodup_write : ∀ value, (keys (write value)).Nodup
  keys_write : ∀ value, keys (write value) ⊆ names
  read_congr : ∀ {tag fields fields'},
    (∀ name ∈ names, values name fields = values name fields') →
    read tag (.map fields) = read tag (.map fields')
  read_write : ∀ {value}, Valid value → read (tag value) (.map (write value)) = some value
  valid_of_read : ∀ {tag body value}, read tag body = some value → Valid value
  lawful_write : ∀ {value}, Valid value → ∀ field ∈ write value, Lawful field.2

namespace Variants

variable {α β : Type}

def single (tag : String) (r : Record α) : Variants α where
  tags := [tag]
  names := r.names
  read found body := if found = tag then r.readAll body else none
  tag _ := tag
  write := r.write
  Valid := r.Valid
  tag_mem := by simp
  nodup_write := r.nodup_write
  keys_write value := (r.keys_write value).subset
  read_congr h := by simp only [Record.readAll_map, r.read_congr h]
  read_write h := by simpa [Record.readAll_map] using r.read_write h
  valid_of_read h := by
    simp only [Option.ite_none_right_eq_some] at h
    exact r.valid_of_readAll h.2
  lawful_write := r.lawful_write

def or (v : Variants α) (w : Variants β)
    (htags : (w.tags.all fun tag => !v.tags.contains tag) = true := by rfl) :
    Variants (α ⊕ β) where
  tags := v.tags ++ w.tags
  names := v.names ++ w.names
  read tag body :=
    if tag ∈ v.tags then (v.read tag body).map .inl else (w.read tag body).map .inr
  tag := Sum.elim v.tag w.tag
  write := Sum.elim v.write w.write
  Valid := Sum.elim v.Valid w.Valid
  tag_mem := by
    rintro (value | value)
    · simp [v.tag_mem]
    · simp [w.tag_mem]
  nodup_write := by
    rintro (value | value)
    · exact v.nodup_write value
    · exact w.nodup_write value
  keys_write := by
    rintro (value | value)
    · exact List.subset_append_of_subset_left _ (v.keys_write value)
    · exact List.subset_append_of_subset_right _ (w.keys_write value)
  read_congr := by
    intro tag fields fields' hfields
    simp only [List.forall_mem_append] at hfields
    rw [v.read_congr hfields.1, w.read_congr hfields.2]
  read_write := by
    rintro (value | value) hvalid
    · simp [v.tag_mem, v.read_write hvalid]
    · have hnot : w.tag value ∉ v.tags := by
        have hall := List.all_eq_true.mp htags _ (w.tag_mem value)
        simpa using hall
      simp [hnot, w.read_write hvalid]
  valid_of_read := by
    intro tag body value hread
    split at hread
    · obtain ⟨inner, hinner, rfl⟩ := Option.map_eq_some_iff.mp hread
      exact v.valid_of_read hinner
    · obtain ⟨inner, hinner, rfl⟩ := Option.map_eq_some_iff.mp hread
      exact w.valid_of_read hinner
  lawful_write := by
    rintro (value | value) hvalid
    · exact v.lawful_write hvalid
    · exact w.lawful_write hvalid

def equiv (v : Variants α) (e : α ≃ β) : Variants β where
  tags := v.tags
  names := v.names
  read tag body := (v.read tag body).map e
  tag value := v.tag (e.symm value)
  write value := v.write (e.symm value)
  Valid value := v.Valid (e.symm value)
  tag_mem value := v.tag_mem _
  nodup_write value := v.nodup_write _
  keys_write value := v.keys_write _
  read_congr h := by rw [v.read_congr h]
  read_write h := by simp [v.read_write h]
  valid_of_read h := by
    obtain ⟨value, hvalue, rfl⟩ := Option.map_eq_some_iff.mp h
    simpa using v.valid_of_read hvalue
  lawful_write h := v.lawful_write h

variable (v : Variants α)

/-- The tag as text; in a value that has been buffered its number will do. -/
def tagOf (buffered : Bool) : Json → Option String
  | .str tag => some tag
  | .num (.int number) => if buffered ∧ 0 ≤ number then v.tags[number.toNat]? else none
  | _ => none

/-- The tag is a field of the object, or the first element of the array. -/
def codec (tagName : String) (buffered : Bool)
    (hname : v.names.contains tagName = false := by rfl) : Codec α where
  decode
    | .obj fields =>
        match values tagName fields with
        | [tag] => do
            let tag ← v.tagOf buffered tag
            v.read tag (.map (fields.filter fun field => field.1 != tagName))
        | _ => none
    | .arr (tag :: items) => do
        let tag ← v.tagOf buffered tag
        v.read tag (.seq items)
    | _ => none
  encode value := Json.ofFields ((tagName, .str (v.tag value)) :: v.write value)
  Valid := v.Valid
  decode_encode := by
    intro value hvalid
    have h : tagName ∉ v.names := by simpa using hname
    have hnot : tagName ∉ keys (v.write value) := fun hmem => h (v.keys_write value hmem)
    have hnodup : (keys ((tagName, .str (v.tag value)) :: v.write value)).Nodup :=
      List.nodup_cons.mpr ⟨hnot, v.nodup_write value⟩
    have htag : values tagName (fill ((tagName, .str (v.tag value)) :: v.write value)) =
        [.str (v.tag value)] := by
      simp [values_fill hnodup, values_of_not_mem hnot]
    simp only [ofFields_eq, htag, tagOf, Option.bind_eq_bind, Option.bind_some]
    rw [← v.read_write hvalid]
    apply v.read_congr
    intro name hname
    have hne : name ≠ tagName := fun heq => h (heq ▸ hname)
    simp [values_filter hne, values_fill hnodup, Ne.symm hne]
  valid_of_decode := by
    intro json value hdecode
    split at hdecode
    · split at hdecode
      · obtain ⟨tag, -, hread⟩ := Option.bind_eq_some_iff.mp hdecode
        exact v.valid_of_read hread
      · cases hdecode
    · obtain ⟨tag, -, hread⟩ := Option.bind_eq_some_iff.mp hdecode
      exact v.valid_of_read hread
    · cases hdecode
  lawful_encode h := by
    apply lawful_ofFields
    rw [List.forall_mem_cons]
    exact ⟨.str _, v.lawful_write h⟩

/-- A key that is neither the tag nor a field of any variant is never written. -/
theorem get?_encode {tagName name : String} {buffered : Bool}
    {hname : v.names.contains tagName = false} (htag : name ≠ tagName) (h : name ∉ v.names)
    (value : α) : ((v.codec tagName buffered hname).encode value).get? name = none := by
  have hnodup : (keys ((tagName, Json.str (v.tag value)) :: v.write value)).Nodup := by
    have hnot : tagName ∉ v.names := by simpa using hname
    exact List.nodup_cons.mpr ⟨fun hmem => hnot (v.keys_write value hmem), v.nodup_write value⟩
  have hkeys : name ∉ keys ((tagName, Json.str (v.tag value)) :: v.write value) := by
    rw [keys, List.map_cons, List.mem_cons, not_or]
    exact ⟨htag, fun hmem => h (v.keys_write value hmem)⟩
  simp only [codec, ofFields_eq, get?_eq_head?]
  rw [values_fill hnodup, values_of_not_mem hkeys, List.head?_nil]

end Variants

end VasalAgent.Serde
