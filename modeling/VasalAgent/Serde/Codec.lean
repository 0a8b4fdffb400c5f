import VasalAgent.Serde.Value

/-!
# Codecs between values and JSON

A codec is a pair of a deserializer and a serializer together with the values
that the deserializer can give.  On those the two agree, so that what has been
decoded once survives every further round trip (`Codec.stable`), and what is
written is a value of `serde_json`.  The codecs of this module follow `serde_json`
for the types that need no derived code.
-/

namespace VasalAgent.Serde

open VasalAgent.Protocol (Json)

structure Codec (α : Type) where
  decode : Json → Option α
  encode : α → Json
  Valid : α → Prop
  decode_encode : ∀ {value}, Valid value → decode (encode value) = some value
  valid_of_decode : ∀ {json value}, decode json = some value → Valid value
  lawful_encode : ∀ {value}, Valid value → Lawful (encode value)

namespace Codec

variable {α β : Type}

/-- Decoding, encoding and decoding again is decoding. -/
theorem stable (c : Codec α) {json : Json} {value : α} (h : c.decode json = some value) :
    c.decode (c.encode value) = some value :=
  c.decode_encode (c.valid_of_decode h)

/-- Only `null` is decoded to a value that is written as `null`. -/
def Solid (c : Codec α) : Prop :=
  ∀ {json value}, json ≠ .null → c.decode json = some value → c.encode value ≠ .null

/-! ## Scalars -/

def string : Codec String where
  decode := Json.asStr?
  encode := .str
  Valid _ := True
  decode_encode _ := rfl
  valid_of_decode _ := trivial
  lawful_encode _ := .str _

theorem solid_string : string.Solid := by
  intro json value _ _
  simp [string]

def bool : Codec Bool where
  decode
    | .bool value => some value
    | _ => none
  encode := .bool
  Valid _ := True
  decode_encode _ := rfl
  valid_of_decode _ := trivial
  lawful_encode _ := .bool _

/-- An integer type that holds the values from `low` on that are below `high`. -/
def integer (low high : Int) (hlow : minInt ≤ low := by decide)
    (hhigh : high ≤ maxNat := by decide) : Codec Int where
  decode
    | .num (.int value) => if low ≤ value ∧ value < high then some value else none
    | _ => none
  encode value := .num (.int value)
  Valid value := low ≤ value ∧ value < high
  decode_encode h := if_pos h
  valid_of_decode h := by
    split at h
    · simp only [Option.ite_none_right_eq_some, Option.some.injEq] at h
      exact h.2 ▸ h.1
    · cases h
  lawful_encode h :=
    .num (numberFits_int (Int.le_trans hlow h.1) (Int.lt_of_lt_of_le h.2 hhigh))

theorem solid_integer (low high : Int) (hlow : minInt ≤ low) (hhigh : high ≤ maxNat) :
    (integer low high hlow hhigh).Solid := by
  intro json value _ _
  simp [integer]

/-- An unsigned integer type with the values below `high`. -/
def natural (high : Nat) (hhigh : high ≤ maxNat := by decide) : Codec Nat where
  decode json := ((integer 0 high (by decide) hhigh).decode json).map Int.toNat
  encode value := .num (.int value)
  Valid value := value < high
  decode_encode h := by
    simpa [integer] using h
  valid_of_decode h := by
    obtain ⟨value, hvalue, rfl⟩ := Option.map_eq_some_iff.mp h
    have hrange : 0 ≤ value ∧ value < high :=
      (integer 0 high (by decide) hhigh).valid_of_decode hvalue
    omega
  lawful_encode h := (integer 0 high (by decide) hhigh).lawful_encode ⟨by omega, by omega⟩

theorem solid_natural (high : Nat) (hhigh : high ≤ maxNat) : (natural high hhigh).Solid := by
  intro json value _ _
  simp [natural]

theorem word_le_maxNat : 2 ^ 64 ≤ maxNat := by decide

/-- `u64`, as a machine integer. -/
def uint64 : Codec UInt64 where
  decode json := ((natural (2 ^ 64) word_le_maxNat).decode json).map UInt64.ofNat
  encode value := (natural (2 ^ 64) word_le_maxNat).encode value.toNat
  Valid _ := True
  decode_encode {value} _ := by
    rw [(natural (2 ^ 64) word_le_maxNat).decode_encode (UInt64.toNat_lt value), Option.map_some,
      UInt64.ofNat_toNat]
  valid_of_decode _ := trivial
  lawful_encode {value} _ :=
    (natural (2 ^ 64) word_le_maxNat).lawful_encode (UInt64.toNat_lt value)

theorem solid_uint64 : uint64.Solid := by
  intro json value _ _
  simp [uint64, natural]

/-- `Value` itself. -/
def value : Codec Json where
  decode json := if numbersFit json then some (settled json) else none
  encode := id
  Valid := Lawful
  decode_encode h := by simp [h.numbersFit, h.settled_eq]
  valid_of_decode h := by
    simp only [Option.ite_none_right_eq_some, Option.some.injEq] at h
    exact h.2 ▸ lawful_settled h.1
  lawful_encode := id

theorem solid_value : value.Solid := by
  intro json other hjson h
  simp only [value, Option.ite_none_right_eq_some, Option.some.injEq] at h
  exact h.2 ▸ settled_ne_null hjson

/-! ## Options and sequences -/

/-- `Option`; `null` is `None`. -/
def option (c : Codec α) (h : c.Solid) : Codec (Option α) where
  decode json := if json.isNull then some none else (c.decode json).map some
  encode
    | none => .null
    | some value => c.encode value
  Valid
    | none => True
    | some value => c.Valid value ∧ c.encode value ≠ .null
  decode_encode := by
    intro value hvalid
    cases value with
    | none => rfl
    | some value =>
        have hnull : (c.encode value).isNull = false := by
          cases hencode : c.encode value <;> simp_all [Json.isNull]
        simp [hnull, c.decode_encode hvalid.1]
  valid_of_decode := by
    intro json value hdecode
    cases value with
    | none => trivial
    | some value =>
        by_cases hnull : json.isNull
        · simp [hnull] at hdecode
        · simp only [hnull, Bool.false_eq_true, if_false, Option.map_eq_some_iff,
            Option.some.injEq, exists_eq_right] at hdecode
          refine ⟨c.valid_of_decode hdecode, h ?_ hdecode⟩
          rintro rfl
          exact hnull rfl
  lawful_encode := by
    intro value hvalid
    cases value with
    | none => exact .null
    | some value => exact c.lawful_encode hvalid.1

/-- Values that are written one by one, in whatever form is read back. -/
theorem mapM_decode (c : Codec α) {print : α → Json} {values : List α}
    (h : ∀ value ∈ values, c.decode (print value) = some value) :
    (values.map print).mapM c.decode = some values := by
  induction values with
  | nil => rfl
  | cons value rest ih =>
      simp only [List.forall_mem_cons] at h
      simp [h.1, ih h.2]

theorem mapM_encode (c : Codec α) {values : List α} (h : ∀ value ∈ values, c.Valid value) :
    (values.map c.encode).mapM c.decode = some values :=
  c.mapM_decode fun value hvalue => c.decode_encode (h value hvalue)

theorem valid_of_mapM (c : Codec α) {items : List Json} {values : List α}
    (h : items.mapM c.decode = some values) : ∀ value ∈ values, c.Valid value := by
  induction items generalizing values with
  | nil =>
      simp only [List.mapM_nil, Option.pure_def, Option.some.injEq] at h
      simp [← h]
  | cons item rest ih =>
      simp only [List.mapM_cons, Option.bind_eq_bind, Option.bind_eq_some_iff, Option.pure_def,
        Option.some.injEq] at h
      obtain ⟨value, hvalue, others, hothers, rfl⟩ := h
      simp only [List.forall_mem_cons]
      exact ⟨c.valid_of_decode hvalue, ih hothers⟩

/-- `Vec`. -/
def list (c : Codec α) : Codec (List α) where
  decode
    | .arr items => items.mapM c.decode
    | _ => none
  encode values := .arr (values.map c.encode)
  Valid values := ∀ value ∈ values, c.Valid value
  decode_encode h := c.mapM_encode h
  valid_of_decode h := by
    split at h
    · exact c.valid_of_mapM h
    · cases h
  lawful_encode h := .arr (by simpa using fun value hvalue => c.lawful_encode (h value hvalue))

/-! ## Maps -/

def textEntry (field : String × Json) : Option (String × String) :=
  field.2.asStr?.map fun text => (field.1, text)

theorem mapM_textEntry (entries : List (String × String)) :
    (entries.map fun entry => (entry.1, Json.str entry.2)).mapM textEntry = some entries := by
  induction entries with
  | nil => rfl
  | cons entry rest ih =>
      rw [List.map_cons, List.mapM_cons, ih]
      rfl

/-- `HashMap<String, String>`, as the list of its entries sorted by key. -/
def dictionary : Codec (List (String × String)) where
  decode
    | .obj fields => (fields.mapM textEntry).map fill
    | _ => none
  encode entries := .obj (entries.map fun entry => (entry.1, .str entry.2))
  Valid entries := Sorted entries
  decode_encode h := by
    simp only [mapM_textEntry, Option.map_some, fill_of_sorted h]
  valid_of_decode h := by
    split at h
    · obtain ⟨filled, -, rfl⟩ := Option.map_eq_some_iff.mp h
      exact sorted_fill filled
    · cases h
  lawful_encode h := by
    refine .obj (by simpa [Sorted, List.pairwise_map] using h) ?_
    rw [List.forall_mem_map]
    exact fun entry _ => .str entry.2

end Codec

end VasalAgent.Serde
