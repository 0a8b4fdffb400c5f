import VasalAgent.Serde.Record
import VasalAgent.Serde.Text

/-!
# Indented JSON texts

The text that `serde_json::to_string_pretty` writes, which differs from the compact one
in the blanks between the parts.  The reader skips them: `parse_pretty`.
-/

namespace VasalAgent.Serde

open VasalAgent.Protocol (Json Number)

/-! ## Printing -/

/-- A new line, indented by two blanks for every array and object around it. -/
def newline (level : Nat) : String :=
  String.ofList ('\n' :: List.replicate (2 * level) ' ')

mutual

def pretty (level : Nat) : Json → String
  | .null => "null"
  | .bool value => if value then "true" else "false"
  | .num value => Json.renderNumber value
  | .str value => Json.quote value
  | .arr items =>
      "[" ++ prettyItems (level + 1) items ++
        (if items.isEmpty then "" else newline level) ++ "]"
  | .obj fields =>
      "\x7b" ++ prettyFields (level + 1) fields ++
        (if fields.isEmpty then "" else newline level) ++ "\x7d"

def prettyItems (level : Nat) : List Json → String
  | [] => ""
  | [item] => newline level ++ pretty level item
  | item :: next :: rest =>
      newline level ++ pretty level item ++ "," ++ prettyItems level (next :: rest)

def prettyFields (level : Nat) : List (String × Json) → String
  | [] => ""
  | [(key, value)] => newline level ++ Json.quote key ++ ": " ++ pretty level value
  | (key, value) :: next :: rest =>
      newline level ++ Json.quote key ++ ": " ++ pretty level value ++ "," ++
        prettyFields level (next :: rest)

end

/-! ## Reading -/

theorem blank_newline (level : Nat) : Blank (newline level).toList := by
  intro c hc
  simp only [newline, String.toList_ofList, List.mem_cons, List.mem_replicate] at hc
  rcases hc with rfl | ⟨-, rfl⟩ <;> decide

theorem blank_closing {α : Type} (level : Nat) (items : List α) :
    Blank (if items.isEmpty then "" else newline level).toList := by
  split
  · exact blank_nil
  · exact blank_newline level

def prettyField (level : Nat) (field : String × Json) : List Char :=
  (Json.quote field.1).toList ++ ':' :: ' ' :: (pretty level field.2).toList

theorem prettyItems_eq (level : Nat) (items : List Json) :
    (prettyItems level items).toList =
      spaced (newline level).toList (fun item => (pretty level item).toList) items := by
  induction items with
  | nil => simp [prettyItems, spaced]
  | cons item rest ih =>
      cases rest with
      | nil => simp [prettyItems, spaced]
      | cons next rest => simp [prettyItems, spaced, ih]

theorem prettyFields_eq (level : Nat) (fields : List (String × Json)) :
    (prettyFields level fields).toList =
      spaced (newline level).toList (prettyField level) fields := by
  induction fields with
  | nil => simp [prettyFields, spaced]
  | cons field rest ih =>
      cases rest with
      | nil => simp [prettyFields, spaced, prettyField]
      | cons next rest => simp [prettyFields, spaced, prettyField, ih]

theorem pretty_arr (level : Nat) (items : List Json) (rest : List Char) :
    (pretty level (.arr items)).toList ++ rest =
      '[' :: (spaced (newline (level + 1)).toList (fun item => (pretty (level + 1) item).toList)
        items ++ ((if items.isEmpty then "" else newline level).toList ++ ']' :: rest)) := by
  simp [pretty, prettyItems_eq]

theorem pretty_obj (level : Nat) (fields : List (String × Json)) (rest : List Char) :
    (pretty level (.obj fields)).toList ++ rest =
      '\x7b' :: (spaced (newline (level + 1)).toList (prettyField (level + 1)) fields ++
        ((if fields.isEmpty then "" else newline level).toList ++ '\x7d' :: rest)) := by
  simp [pretty, prettyFields_eq]

theorem pretty_scalar {json : Json} (harr : ∀ items, json ≠ .arr items)
    (hobj : ∀ fields, json ≠ .obj fields) (level : Nat) : pretty level json = json.render := by
  cases json with
  | arr items => exact absurd rfl (harr items)
  | obj fields => exact absurd rfl (hobj fields)
  | _ => rw [pretty, Json.render]

theorem opens_pretty {json : Json} (h : Spelled json) (level : Nat) :
    Opens (pretty level json).toList := by
  cases h with
  | null =>
      rw [pretty_scalar (by simp) (by simp)]
      exact Spelled.null.opens
  | bool value =>
      rw [pretty_scalar (by simp) (by simp)]
      exact (Spelled.bool value).opens
  | num h =>
      rw [pretty_scalar (by simp) (by simp)]
      exact (Spelled.num h).opens
  | str value =>
      rw [pretty_scalar (by simp) (by simp)]
      exact (Spelled.str value).opens
  | @arr items h =>
      have htext := pretty_arr level items []
      rw [List.append_nil] at htext
      exact ⟨'[', _, htext, by decide, by decide, by decide⟩
  | @obj fields h =>
      have htext := pretty_obj level fields []
      rw [List.append_nil] at htext
      exact ⟨'\x7b', _, htext, by decide, by decide, by decide⟩

theorem reads_pretty {json : Json} (h : Spelled json) (level limit : Nat) :
    Reads (readValue limit) (pretty level json).toList json (Within limit json) := by
  induction h generalizing level limit with
  | null =>
      rw [pretty_scalar (by simp) (by simp)]
      exact Spelled.null.reads limit
  | bool value =>
      rw [pretty_scalar (by simp) (by simp)]
      exact (Spelled.bool value).reads limit
  | num h =>
      rw [pretty_scalar (by simp) (by simp)]
      exact (Spelled.num h).reads limit
  | str value =>
      rw [pretty_scalar (by simp) (by simp)]
      exact (Spelled.str value).reads limit
  | @arr items h ih =>
      intro rest _
      rw [pretty_arr]
      cases limit with
      | zero => simp [readValue, readNode, Within, depth]
      | succ limit =>
          rw [readValue, readNode_arr (blank_newline _) (blank_closing level items)
            (fun item hitem => opens_pretty (h item hitem) _)
            (fun item hitem => ih item hitem _ limit)]
          simp only [within_arr]
  | @obj fields h ih =>
      intro rest _
      rw [pretty_obj]
      cases limit with
      | zero => simp [readValue, readNode, Within, depth]
      | succ limit =>
          have hblank : Blank [' '] := by simp [Blank, isSpace]
          have hopens : ∀ field ∈ fields, Opens (prettyField (level + 1) field) :=
            fun field _ => opens_quote field.1 _
          rw [readValue, readNode_obj (blank_newline _) (blank_closing level fields) hopens
            (fun field hfield => reads_field hblank (opens_pretty (h field hfield) _)
              (ih field hfield _ limit) field.1)]
          simp only [within_obj]

theorem parse_pretty {json : Json} (h : Readable json) :
    parse (pretty 0 json) = if depth json ≤ depthLimit then some json else none := by
  have hread := reads_pretty h.spelled 0 depthLimit [] (by simp [Ends])
  have hskip := (opens_pretty h.spelled 0).skipSpace []
  rw [List.append_nil] at hread hskip
  rw [parse, hskip, hread]
  simp only [Within, h.numbersFit, and_true]
  split <;> rfl

/-! ## Structs -/

namespace Record

variable {α : Type} (r : Record α)

/-- `serde_json::to_string_pretty`, with the fields in the order of the struct. -/
def toPretty (value : α) : String := pretty 0 (.obj (r.write value))

theorem fromText_toPretty {value : α} (h : r.Valid value)
    (hdepth : depth (.obj (r.write value)) ≤ depthLimit) :
    r.codec.fromText (r.toPretty value) = some value := by
  have hreadable : Readable (.obj (r.write value)) :=
    .obj fun field hfield => (r.lawful_write h field hfield).readable
  rw [Codec.fromText, toPretty, parse_pretty hreadable, if_pos hdepth]
  exact r.read_write h

end Record

end VasalAgent.Serde
