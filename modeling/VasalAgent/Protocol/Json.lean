import Mathlib.Data.List.Basic

/-!
# JSON values

The tree type of `serde_json::Value`.  Objects keep their fields sorted by key,
as the default map of `serde_json` does.  A number is an integer or the decimal
text of a double.
-/

namespace VasalAgent.Protocol

inductive Number where
  | int (value : Int)
  | float (text : String)
  deriving DecidableEq, Repr

inductive Json where
  | null
  | bool (value : Bool)
  | num (value : Number)
  | str (value : String)
  | arr (items : List Json)
  | obj (fields : List (String × Json))
  deriving Repr

namespace Json

/-- Insertion into a map that is kept sorted; a later value for a key replaces an earlier one. -/
def insertKey {β : Type} (key : String) (value : β) : List (String × β) → List (String × β)
  | [] => [(key, value)]
  | (k, v) :: rest =>
      if key = k then (key, value) :: rest
      else if key < k then (key, value) :: (k, v) :: rest
      else (k, v) :: insertKey key value rest

def ofFields (fields : List (String × Json)) : Json :=
  .obj (fields.foldl (fun object field => insertKey field.1 field.2 object) [])

/-- `Value::get` with a string index: only objects have fields. -/
def get? (value : Json) (key : String) : Option Json :=
  match value with
  | .obj fields => fields.lookup key
  | _ => none

def asStr? : Json → Option String
  | .str value => some value
  | _ => none

def isNull : Json → Bool
  | .null => true
  | _ => false

def escapeChar (c : Char) : String :=
  if c = '"' then "\\\""
  else if c = '\\' then "\\\\"
  else if c.toNat = 8 then "\\b"
  else if c.toNat = 9 then "\\t"
  else if c.toNat = 10 then "\\n"
  else if c.toNat = 12 then "\\f"
  else if c.toNat = 13 then "\\r"
  else if c.toNat < 32 then
    "\\u00" ++ String.ofList
      [Nat.digitChar (c.toNat / 16), Nat.digitChar (c.toNat % 16)]
  else String.singleton c

def quote (text : String) : String :=
  "\"" ++ String.join (text.toList.map escapeChar) ++ "\""

def renderNumber : Number → String
  | .int value => toString value
  | .float text => text

mutual

/-- `Value::to_string`: compact JSON text. -/
def render : Json → String
  | .null => "null"
  | .bool value => if value then "true" else "false"
  | .num value => renderNumber value
  | .str value => quote value
  | .arr items => "[" ++ renderItems items ++ "]"
  | .obj fields => "\x7b" ++ renderFields fields ++ "\x7d"

def renderItems : List Json → String
  | [] => ""
  | [item] => render item
  | item :: rest => render item ++ "," ++ renderItems rest

def renderFields : List (String × Json) → String
  | [] => ""
  | [(key, value)] => quote key ++ ":" ++ render value
  | (key, value) :: rest =>
      quote key ++ ":" ++ render value ++ "," ++ renderFields rest

end

end Json

end VasalAgent.Protocol
