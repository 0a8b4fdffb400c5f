import VasalAgent.Protocol.Json

/-!
# Sidecar messages

The JSON-RPC envelope and the answers of a sidecar.  `fromValue` follows the
derived deserializer of an internally tagged enum: an object carries the tag
under `status`, an array carries it as first element, and unknown fields are
ignored.
-/

namespace VasalAgent.Protocol

inductive RequestId where
  | integer (value : Int)
  | string (value : String)
  deriving DecidableEq, Repr

def jsonrpcVersion : String := "2.0"

structure Request where
  jsonrpc : String
  method : String
  params : Option Json
  id : RequestId
  deriving Repr

def Request.new (method : String) (params : Option Json) (id : RequestId) :
    Request :=
  ⟨jsonrpcVersion, method, params, id⟩

structure ErrorObject where
  code : Int
  message : String
  data : Option Json
  deriving Repr

structure Response where
  jsonrpc : String
  result : Option Json
  error : Option ErrorObject
  id : RequestId
  deriving Repr

/-! ## Deserialization errors -/

inductive DecodeError where
  | invalidType (found : Json) (expected : String)
  | missingField (name : String)
  | unknownVariant (name : String) (expected : List String)
  | invalidLength (length : Nat) (expected : String)
  deriving Repr

namespace DecodeError

def unexpected : Json → String
  | .null => "null"
  | .bool value => "boolean `" ++ (if value then "true" else "false") ++ "`"
  | .num (.int value) => "integer `" ++ toString value ++ "`"
  | .num (.float text) => "floating point `" ++ text ++ "`"
  | .str value => "string " ++ Json.quote value
  | .arr _ => "sequence"
  | .obj _ => "map"

def toString : DecodeError → String
  | .invalidType found expected =>
      "invalid type: " ++ unexpected found ++ ", expected " ++ expected
  | .missingField name => "missing field `" ++ name ++ "`"
  | .unknownVariant name expected =>
      "unknown variant `" ++ name ++ "`, expected one of " ++
        String.intercalate ", " (expected.map fun item => "`" ++ item ++ "`")
  | .invalidLength length expected =>
      "invalid length " ++ Nat.repr length ++ ", expected " ++ expected

end DecodeError

/-- What is left of a tagged value once its tag is known. -/
inductive Content where
  | map (fields : List (String × Json))
  | seq (items : List Json)

namespace Content

def text? : Option Json → Except DecodeError (Option String)
  | none => .ok none
  | some (.str value) => .ok (some value)
  | some other => .error (.invalidType other "a string")

def flag? : Option Json → Except DecodeError (Option Bool)
  | none => .ok none
  | some (.bool value) => .ok (some value)
  | some other => .error (.invalidType other "a boolean")

/-- Elements left over after the last field of a sequence are an error. -/
def checkEnd (count : Nat) (items : List Json) : Except DecodeError Unit :=
  if items.length ≤ count then .ok ()
  else .error (.invalidLength items.length
    (if count = 1 then "1 element in sequence" else Nat.repr count ++ " elements in sequence"))

/-- A variant without data. -/
def unit : Content → Except DecodeError Unit
  | .map _ => .ok ()
  | .seq items => checkEnd 0 items

/-- The fields `stdout`, `stderr` and `truncated`, each with its default. -/
def completed : Content → Except DecodeError (String × String × Bool)
  | .map fields => do
      let stderr ← text? (fields.lookup "stderr")
      let stdout ← text? (fields.lookup "stdout")
      let truncated ← flag? (fields.lookup "truncated")
      pure (stdout.getD "", stderr.getD "", truncated.getD false)
  | .seq items => do
      let stdout ← text? items[0]?
      let stderr ← text? items[1]?
      let truncated ← flag? items[2]?
      checkEnd 3 items
      pure (stdout.getD "", stderr.getD "", truncated.getD false)

/-- The required field `error` and the field `stderr` with its default. -/
def failed (owner : String) : Content → Except DecodeError (String × String)
  | .map fields => do
      let error ← text? (fields.lookup "error")
      let stderr ← text? (fields.lookup "stderr")
      match error with
      | some error => pure (error, stderr.getD "")
      | none => throw (.missingField "error")
  | .seq items => do
      match ← text? items[0]? with
      | some error => do
          let stderr ← text? items[1]?
          checkEnd 2 items
          pure (error, stderr.getD "")
      | none =>
          throw (.invalidLength 0
            ("struct variant " ++ owner ++ "::Failed with 2 elements"))

/-- The tag of an internally tagged enum and the rest of the value. -/
def ofTagged (owner : String) : Json → Except DecodeError (String × Content)
  | .obj fields =>
      match fields.lookup "status" with
      | none => .error (.missingField "status")
      | some (.str tag) =>
          .ok (tag, .map (fields.filter fun field => field.1 != "status"))
      | some other => .error (.invalidType other "variant identifier")
  | .arr [] => .error (.missingField "status")
  | .arr (.str tag :: items) => .ok (tag, .seq items)
  | .arr (other :: _) => .error (.invalidType other "variant identifier")
  | other => .error (.invalidType other ("internally tagged enum " ++ owner))

end Content

/-! ## Answers -/

inductive SubmitResponse where
  | completed (stdout stderr : String) (truncated : Bool)
  | failed (error stderr : String)
  | accepted (taskId : String)
  deriving DecidableEq, Repr

namespace SubmitResponse

def acceptedContent : Content → Except DecodeError String
  | .map fields => do
      match ← Content.text? (fields.lookup "task_id") with
      | some taskId => pure taskId
      | none => throw (.missingField "task_id")
  | .seq items => do
      match ← Content.text? items[0]? with
      | some taskId => do
          Content.checkEnd 1 items
          pure taskId
      | none =>
          throw (.invalidLength 0
            "struct variant SubmitResponse::Accepted with 1 element")

def fromValue (value : Json) : Except DecodeError SubmitResponse := do
  let (tag, content) ← Content.ofTagged "SubmitResponse" value
  if tag = "completed" then
    let (stdout, stderr, truncated) ← content.completed
    pure (.completed stdout stderr truncated)
  else if tag = "failed" then
    let (error, stderr) ← content.failed "SubmitResponse"
    pure (.failed error stderr)
  else if tag = "accepted" then
    let taskId ← acceptedContent content
    pure (.accepted taskId)
  else
    throw (.unknownVariant tag ["completed", "failed", "accepted"])

end SubmitResponse

inductive StatusResponse where
  | running
  | completed (stdout stderr : String) (truncated : Bool)
  | failed (error stderr : String)
  | cancelled
  deriving DecidableEq, Repr

def StatusResponse.fromValue (value : Json) :
    Except DecodeError StatusResponse := do
  let (tag, content) ← Content.ofTagged "StatusResponse" value
  if tag = "running" then
    content.unit
    pure .running
  else if tag = "completed" then
    let (stdout, stderr, truncated) ← content.completed
    pure (.completed stdout stderr truncated)
  else if tag = "failed" then
    let (error, stderr) ← content.failed "StatusResponse"
    pure (.failed error stderr)
  else if tag = "cancelled" then
    content.unit
    pure .cancelled
  else
    throw (.unknownVariant tag ["running", "completed", "failed", "cancelled"])

def taskIdParams (taskId : String) : Json :=
  Json.ofFields [("task_id", .str taskId)]

end VasalAgent.Protocol
