import Mathlib.Algebra.Group.Int.Defs
import Mathlib.Algebra.Group.Nat.Defs
import VasalAgent.Protocol.Sidecar

/-!
# JSON-RPC messages as JSON

`vasal_protocol::jsonrpc`, `vasal_protocol::error` and the serializers of
`vasal_protocol::sidecar`.  A message is written as an object whose fields stand
in the order of the struct, absent optional fields left out.  The derived
decoders take an object with its fields in any order, each at most once and
unknown ones ignored, or an array with the fields in order; `null` for an
optional field is the same as no field.
-/

namespace VasalAgent.Protocol

/-! ## Decoding of structs -/

inductive StructError where
  | value (error : DecodeError)
  | invalidValue (found : Int) (expected : String)
  | duplicateField (name : String)
  | noVariant (owner : String)
  | trailing

namespace StructError

def toString : StructError → String
  | .value error => error.toString
  | .invalidValue found expected =>
      "invalid value: integer `" ++ ToString.toString found ++ "`, expected " ++ expected
  | .duplicateField name => "duplicate field `" ++ name ++ "`"
  | .noVariant owner => "data did not match any variant of untagged enum " ++ owner
  | .trailing => "trailing characters"

end StructError

namespace Struct

variable {α : Type}

def text : Json → Except StructError String
  | .str value => .ok value
  | other => .error (.value (.invalidType other "a string"))

def IsI32 (value : Int) : Prop := -2 ^ 31 ≤ value ∧ value < 2 ^ 31

def IsI64 (value : Int) : Prop := -2 ^ 63 ≤ value ∧ value < 2 ^ 63

instance (value : Int) : Decidable (IsI32 value) := inferInstanceAs (Decidable (_ ∧ _))

instance (value : Int) : Decidable (IsI64 value) := inferInstanceAs (Decidable (_ ∧ _))

def i32 : Json → Except StructError Int
  | .num (.int value) =>
      if IsI32 value then .ok value else .error (.invalidValue value "i32")
  | other => .error (.value (.invalidType other "i32"))

/-- `Option<Value>` of a field that is there. -/
def nonNull : Json → Option Json
  | .null => none
  | value => some value

/-- A field of an object that has not been seen before. -/
def once (name : String) (slot : Option α) (decode : Json → Except StructError α)
    (value : Json) : Except StructError (Option α) :=
  match slot with
  | some _ => .error (.duplicateField name)
  | none => (decode value).map some

def required (name : String) : Option α → Except StructError α
  | some value => .ok value
  | none => .error (.value (.missingField name))

/-- A field of an array, in a struct that `expected` names. -/
def element (expected : String) (items : List Json) (index : Nat)
    (decode : Json → Except StructError α) : Except StructError α :=
  match items[index]? with
  | some value => decode value
  | none => .error (.value (.invalidLength index expected))

def elementOr (missing : α) (items : List Json) (index : Nat)
    (decode : Json → Except StructError α) : Except StructError α :=
  match items[index]? with
  | some value => decode value
  | none => .ok missing

def noMore (count : Nat) (items : List Json) : Except StructError Unit :=
  if items.length ≤ count then .ok () else .error .trailing

theorem ok_of_bind {β : Type} {first : Except StructError α}
    {rest : α → Except StructError β} {value : β} (h : (first >>= rest) = .ok value) :
    ∃ mid, first = .ok mid ∧ rest mid = .ok value := by
  cases first with
  | error e => cases h
  | ok mid => exact ⟨mid, rfl, h⟩

theorem decoded_of_once {name : String} {slot : Option α}
    {decode : Json → Except StructError α} {json : Json} {value : α}
    (h : once name slot decode json = .ok (some value)) : decode json = .ok value := by
  unfold once at h
  split at h
  · cases h
  · cases hdecode : decode json with
    | error e =>
        rw [hdecode] at h
        cases h
    | ok other =>
        rw [hdecode] at h
        cases h
        rfl

def optionalField (name : String) : Option Json → List (String × Json)
  | some value => [(name, value)]
  | none => []

end Struct

open Struct

/-! ## Identifiers -/

namespace RequestId

def toTree : RequestId → Json
  | .integer value => .num (.int value)
  | .string value => .str value

def fromTree : Json → Except StructError RequestId
  | .num (.int value) =>
      if IsI64 value then .ok (.integer value) else .error (.noVariant "RequestId")
  | .str value => .ok (.string value)
  | _ => .error (.noVariant "RequestId")

/-- The integers that the type has. -/
def InRange : RequestId → Prop
  | .integer value => IsI64 value
  | .string _ => True

theorem fromTree_toTree {id : RequestId} (h : id.InRange) : fromTree id.toTree = .ok id := by
  cases id with
  | integer value => exact if_pos h
  | string value => rfl

theorem inRange_of_fromTree {tree : Json} {id : RequestId} (h : fromTree tree = .ok id) :
    id.InRange := by
  unfold fromTree at h
  split at h
  · split at h
    next hrange =>
        cases h
        exact hrange
    next => cases h
  · cases h
    trivial
  · cases h

end RequestId

/-! ## Requests -/

structure RequestFields where
  jsonrpc : Option String
  method : Option String
  params : Option (Option Json)
  id : Option RequestId

def RequestFields.visit (seen : RequestFields) (field : String × Json) :
    Except StructError RequestFields :=
  if field.1 = "jsonrpc" then do
    pure { seen with jsonrpc := ← once "jsonrpc" seen.jsonrpc text field.2 }
  else if field.1 = "method" then do
    pure { seen with method := ← once "method" seen.method text field.2 }
  else if field.1 = "params" then do
    pure { seen with
      params := ← once "params" seen.params (fun value => .ok (nonNull value)) field.2 }
  else if field.1 = "id" then do
    pure { seen with id := ← once "id" seen.id RequestId.fromTree field.2 }
  else pure seen

namespace Request

def toTree (request : Request) : Json :=
  .obj ([("jsonrpc", .str request.jsonrpc), ("method", .str request.method)] ++
    optionalField "params" request.params ++ [("id", request.id.toTree)])

def expected : String := "struct Request with 4 elements"

def fromTree : Json → Except StructError Request
  | .obj fields => do
      let seen ← fields.foldlM RequestFields.visit ⟨none, none, none, none⟩
      let jsonrpc ← required "jsonrpc" seen.jsonrpc
      let method ← required "method" seen.method
      let id ← required "id" seen.id
      pure ⟨jsonrpc, method, seen.params.getD none, id⟩
  | .arr items => do
      let jsonrpc ← element expected items 0 text
      let method ← element expected items 1 text
      let params ← elementOr none items 2 fun value => .ok (nonNull value)
      let id ← element expected items 3 RequestId.fromTree
      noMore 4 items
      pure ⟨jsonrpc, method, params, id⟩
  | other => .error (.value (.invalidType other "struct Request"))

/-- What a request comes back as. -/
theorem fromTree_toTree {request : Request} (h : request.id.InRange) :
    fromTree request.toTree = .ok { request with params := request.params.bind nonNull } := by
  obtain ⟨jsonrpc, method, params, id⟩ := request
  have hid := RequestId.fromTree_toTree h
  cases params <;>
    simp [toTree, fromTree, optionalField, RequestFields.visit, once, required, text, hid,
      Except.map, bind, Except.bind, pure, Except.pure]

theorem visit_inRange {seen next : RequestFields} {field : String × Json}
    (hvisit : seen.visit field = .ok next) (h : ∀ id, seen.id = some id → id.InRange) :
    ∀ id, next.id = some id → id.InRange := by
  unfold RequestFields.visit at hvisit
  split at hvisit
  · obtain ⟨slot, -, hnext⟩ := ok_of_bind hvisit
    cases hnext
    exact h
  · split at hvisit
    · obtain ⟨slot, -, hnext⟩ := ok_of_bind hvisit
      cases hnext
      exact h
    · split at hvisit
      · obtain ⟨slot, -, hnext⟩ := ok_of_bind hvisit
        cases hnext
        exact h
      · split at hvisit
        · obtain ⟨slot, hslot, hnext⟩ := ok_of_bind hvisit
          cases hnext
          intro id hsome
          obtain rfl : slot = some id := hsome
          exact RequestId.inRange_of_fromTree (decoded_of_once hslot)
        · cases hvisit
          exact h

theorem foldlM_inRange {fields : List (String × Json)} {seen last : RequestFields}
    (hfold : fields.foldlM RequestFields.visit seen = .ok last)
    (h : ∀ id, seen.id = some id → id.InRange) : ∀ id, last.id = some id → id.InRange := by
  induction fields generalizing seen with
  | nil =>
      cases hfold
      exact h
  | cons field rest ih =>
      rw [List.foldlM_cons] at hfold
      obtain ⟨next, hvisit, hrest⟩ := ok_of_bind hfold
      exact ih hrest (visit_inRange hvisit h)

theorem inRange_of_fromTree {tree : Json} {request : Request}
    (h : fromTree tree = .ok request) : request.id.InRange := by
  cases tree with
  | obj fields =>
      obtain ⟨seen, hseen, h⟩ := ok_of_bind h
      obtain ⟨jsonrpc, -, h⟩ := ok_of_bind h
      obtain ⟨method, -, h⟩ := ok_of_bind h
      obtain ⟨id, hid, h⟩ := ok_of_bind h
      cases h
      refine foldlM_inRange hseen (fun _ hnone => by cases hnone) id ?_
      cases hslot : seen.id with
      | none =>
          rw [hslot] at hid
          cases hid
      | some other =>
          rw [hslot] at hid
          cases hid
          rfl
  | arr items =>
      obtain ⟨jsonrpc, -, h⟩ := ok_of_bind h
      obtain ⟨method, -, h⟩ := ok_of_bind h
      obtain ⟨params, -, h⟩ := ok_of_bind h
      obtain ⟨id, hid, h⟩ := ok_of_bind h
      obtain ⟨_, -, h⟩ := ok_of_bind h
      cases h
      unfold element at hid
      split at hid
      · exact RequestId.inRange_of_fromTree hid
      · cases hid
  | _ => cases h

end Request

/-! ## Errors -/

structure ErrorFields where
  code : Option Int
  message : Option String
  data : Option (Option Json)

def ErrorFields.visit (seen : ErrorFields) (field : String × Json) :
    Except StructError ErrorFields :=
  if field.1 = "code" then do
    pure { seen with code := ← once "code" seen.code i32 field.2 }
  else if field.1 = "message" then do
    pure { seen with message := ← once "message" seen.message text field.2 }
  else if field.1 = "data" then do
    pure { seen with
      data := ← once "data" seen.data (fun value => .ok (nonNull value)) field.2 }
  else pure seen

namespace ErrorObject

def toTree (error : ErrorObject) : Json :=
  .obj ([("code", .num (.int error.code)), ("message", .str error.message)] ++
    optionalField "data" error.data)

def expected : String := "struct ErrorObject with 3 elements"

def fromTree : Json → Except StructError ErrorObject
  | .obj fields => do
      let seen ← fields.foldlM ErrorFields.visit ⟨none, none, none⟩
      let code ← required "code" seen.code
      let message ← required "message" seen.message
      pure ⟨code, message, seen.data.getD none⟩
  | .arr items => do
      let code ← element expected items 0 i32
      let message ← element expected items 1 text
      let data ← elementOr none items 2 fun value => .ok (nonNull value)
      noMore 3 items
      pure ⟨code, message, data⟩
  | other => .error (.value (.invalidType other "struct ErrorObject"))

def received (error : ErrorObject) : ErrorObject :=
  { error with data := error.data.bind nonNull }

theorem fromTree_toTree {error : ErrorObject} (h : IsI32 error.code) :
    fromTree error.toTree = .ok error.received := by
  obtain ⟨code, message, data⟩ := error
  have hcode : i32 (.num (.int code)) = .ok code := if_pos h
  cases data <;>
    simp [toTree, fromTree, received, optionalField, ErrorFields.visit, once, required, text,
      hcode, Except.map, bind, Except.bind, pure, Except.pure]

end ErrorObject

/-- `ProtocolError`, whose code is an `i32`. -/
structure ProtocolError where
  code : Int
  message : String
  data : Option Json
  isI32 : IsI32 code

namespace ProtocolError

def parseErrorCode : Int := -32700
def invalidRequestCode : Int := -32600
def methodNotFoundCode : Int := -32601
def invalidParamsCode : Int := -32602
def internalErrorCode : Int := -32603

def parseError (detail : String) : ProtocolError := ⟨parseErrorCode, detail, none, by decide⟩

def invalidRequest (detail : String) : ProtocolError :=
  ⟨invalidRequestCode, detail, none, by decide⟩

def methodNotFound (method : String) : ProtocolError :=
  ⟨methodNotFoundCode, "method not found: " ++ method, none, by decide⟩

def invalidParams (detail : String) : ProtocolError :=
  ⟨invalidParamsCode, detail, none, by decide⟩

def internalError (detail : String) : ProtocolError :=
  ⟨internalErrorCode, detail, none, by decide⟩

def toObject (error : ProtocolError) : ErrorObject := ⟨error.code, error.message, error.data⟩

end ProtocolError

/-! ## Responses -/

structure ResponseFields where
  jsonrpc : Option String
  result : Option (Option Json)
  error : Option (Option ErrorObject)
  id : Option RequestId

/-- `Option<ErrorObject>`. -/
def ErrorObject.optional : Json → Except StructError (Option ErrorObject)
  | .null => .ok none
  | value => (ErrorObject.fromTree value).map some

def ResponseFields.visit (seen : ResponseFields) (field : String × Json) :
    Except StructError ResponseFields :=
  if field.1 = "jsonrpc" then do
    pure { seen with jsonrpc := ← once "jsonrpc" seen.jsonrpc text field.2 }
  else if field.1 = "result" then do
    pure { seen with
      result := ← once "result" seen.result (fun value => .ok (nonNull value)) field.2 }
  else if field.1 = "error" then do
    pure { seen with error := ← once "error" seen.error ErrorObject.optional field.2 }
  else if field.1 = "id" then do
    pure { seen with id := ← once "id" seen.id RequestId.fromTree field.2 }
  else pure seen

namespace Response

def success (id : RequestId) (result : Json) : Response :=
  ⟨jsonrpcVersion, some result, none, id⟩

def failure (id : RequestId) (error : ErrorObject) : Response :=
  ⟨jsonrpcVersion, none, some error, id⟩

def toTree (response : Response) : Json :=
  .obj ([("jsonrpc", .str response.jsonrpc)] ++ optionalField "result" response.result ++
    optionalField "error" (response.error.map ErrorObject.toTree) ++
    [("id", response.id.toTree)])

def expected : String := "struct Response with 4 elements"

def fromTree : Json → Except StructError Response
  | .obj fields => do
      let seen ← fields.foldlM ResponseFields.visit ⟨none, none, none, none⟩
      let jsonrpc ← required "jsonrpc" seen.jsonrpc
      let id ← required "id" seen.id
      pure ⟨jsonrpc, seen.result.getD none, seen.error.getD none, id⟩
  | .arr items => do
      let jsonrpc ← element expected items 0 text
      let result ← elementOr none items 1 fun value => .ok (nonNull value)
      let error ← elementOr none items 2 ErrorObject.optional
      let id ← element expected items 3 RequestId.fromTree
      noMore 4 items
      pure ⟨jsonrpc, result, error, id⟩
  | other => .error (.value (.invalidType other "struct Response"))

/-- The values that the types of the fields have. -/
structure InRange (response : Response) : Prop where
  id : response.id.InRange
  code : ∀ error, response.error = some error → IsI32 error.code

/-- What a response comes back as. -/
def received (response : Response) : Response :=
  { response with
    result := response.result.bind nonNull
    error := response.error.map ErrorObject.received }

theorem fromTree_toTree {response : Response} (h : response.InRange) :
    fromTree response.toTree = .ok response.received := by
  obtain ⟨hid, hcode⟩ := h
  obtain ⟨jsonrpc, result, error, id⟩ := response
  have hid := RequestId.fromTree_toTree hid
  cases error with
  | none =>
      cases result <;>
        simp [toTree, fromTree, received, optionalField, ResponseFields.visit, once, required,
          text, hid, Except.map, bind, Except.bind, pure, Except.pure]
  | some error =>
      have herror : ErrorObject.optional error.toTree = .ok (some error.received) := by
        have h := ErrorObject.fromTree_toTree (hcode error rfl)
        change (ErrorObject.fromTree error.toTree).map some = _
        rw [h]
        rfl
      cases result <;>
        simp [toTree, fromTree, received, optionalField, ResponseFields.visit, once, required,
          text, hid, herror, Except.map, bind, Except.bind, pure, Except.pure]

end Response

/-! ## Messages that survive -/

/-- The messages of `Request::new`, `Response::success` and `Response::error`. -/
inductive Message where
  | request (method : String) (params : Option Json) (id : RequestId)
  | success (id : RequestId) (result : Json)
  | failure (id : RequestId) (error : ErrorObject)

namespace Message

/-- Serialized and deserialized, the message is the same. -/
def Survives : Message → Prop
  | .request method params id =>
      Request.fromTree (Request.new method params id).toTree =
        .ok (Request.new method params id)
  | .success id result =>
      Response.fromTree (Response.success id result).toTree = .ok (Response.success id result)
  | .failure id error =>
      Response.fromTree (Response.failure id error).toTree = .ok (Response.failure id error)

def InRange : Message → Prop
  | .request _ _ id => id.InRange
  | .success id _ => id.InRange
  | .failure id error => id.InRange ∧ IsI32 error.code

/-- The value of the optional field, or of the result, is not `null`. -/
def NotNull : Message → Prop
  | .request _ params _ => params ≠ some .null
  | .success _ result => result ≠ .null
  | .failure _ error => error.data ≠ some .null

theorem bind_nonNull_iff (value : Option Json) :
    value.bind nonNull = value ↔ value ≠ some .null := by
  rcases value with _ | value
  · simp
  · cases value <;> simp [nonNull]

theorem survives_iff (message : Message) (h : message.InRange) :
    message.Survives ↔ message.NotNull := by
  cases message with
  | request method params id =>
      have hid : (Request.new method params id).id.InRange := h
      rw [Survives, Request.fromTree_toTree hid]
      simp [Request.new, NotNull, bind_nonNull_iff]
  | success id result =>
      have hrange : (Response.success id result).InRange :=
        ⟨h, by simp [Response.success]⟩
      have hresult := bind_nonNull_iff (some result)
      rw [Option.bind_some] at hresult
      rw [Survives, Response.fromTree_toTree hrange]
      simp [Response.received, Response.success, NotNull, hresult]
  | failure id error =>
      have hrange : (Response.failure id error).InRange :=
        ⟨h.1, by simpa [Response.failure] using h.2⟩
      rw [Survives, Response.fromTree_toTree hrange]
      obtain ⟨code, text, data⟩ := error
      simp [Response.received, Response.failure, ErrorObject.received, NotNull,
        bind_nonNull_iff]

theorem survives_ping :
    (Message.request "ping" none (.integer 1)).Survives ∧
      (Message.request "ping" none (.integer 1)).NotNull := by
  have hrange : (Message.request "ping" none (.integer 1)).InRange :=
    (by decide : IsI64 1)
  have hnull : (Message.request "ping" none (.integer 1)).NotNull := by simp [NotNull]
  exact ⟨(survives_iff _ hrange).mpr hnull, hnull⟩

/-- The result `null` comes back as no result, and `null` params and data as none. -/
theorem null_lost :
    ¬ (Message.success (.integer 1) .null).Survives ∧
      ¬ (Message.request "ping" (some .null) (.integer 1)).Survives ∧
      ¬ (Message.failure (.integer 1) ⟨-32603, "", some .null⟩).Survives := by
  refine ⟨fun h => ?_, fun h => ?_, fun h => ?_⟩ <;> cases h

end Message

/-! ## Answers -/

def SubmitResponse.toValue : SubmitResponse → Json
  | .completed stdout stderr truncated =>
      Json.ofFields [("status", .str "completed"), ("stdout", .str stdout),
        ("stderr", .str stderr), ("truncated", .bool truncated)]
  | .failed error stderr =>
      Json.ofFields [("status", .str "failed"), ("error", .str error), ("stderr", .str stderr)]
  | .accepted taskId =>
      Json.ofFields [("status", .str "accepted"), ("task_id", .str taskId)]

def StatusResponse.toValue : StatusResponse → Json
  | .running => Json.ofFields [("status", .str "running")]
  | .completed stdout stderr truncated =>
      Json.ofFields [("status", .str "completed"), ("stdout", .str stdout),
        ("stderr", .str stderr), ("truncated", .bool truncated)]
  | .failed error stderr =>
      Json.ofFields [("status", .str "failed"), ("error", .str error), ("stderr", .str stderr)]
  | .cancelled => Json.ofFields [("status", .str "cancelled")]

structure CancelResponse where
  cancelled : Bool
  deriving DecidableEq, Repr

def CancelResponse.toValue (response : CancelResponse) : Json :=
  Json.ofFields [("cancelled", .bool response.cancelled)]

inductive HealthStatus where
  | ok
  | degraded
  | unhealthy
  deriving DecidableEq, Repr

def HealthStatus.text : HealthStatus → String
  | .ok => "ok"
  | .degraded => "degraded"
  | .unhealthy => "unhealthy"

structure HealthResponse where
  status : HealthStatus
  version : Option String
  error : Option String
  metadata : Option Json
  deriving Repr

def HealthResponse.toValue (response : HealthResponse) : Json :=
  Json.ofFields ([("status", .str response.status.text)] ++
    optionalField "version" (response.version.map .str) ++
    optionalField "error" (response.error.map .str) ++
    optionalField "metadata" response.metadata)

theorem SubmitResponse.fromValue_toValue (response : SubmitResponse) :
    SubmitResponse.fromValue response.toValue = .ok response := by
  cases response
  all_goals
    -- the serialized object first: its keys are compared here
    simp only [toValue, Json.ofFields, List.foldl_cons, List.foldl_nil, Json.insertKey,
      String.reduceEq, String.reduceLT, reduceIte]
    simp [fromValue, Content.ofTagged, Content.completed, Content.failed, acceptedContent,
      Content.text?, Content.flag?, bind, Except.bind, pure, Except.pure, List.lookup_cons]

end VasalAgent.Protocol
