import VasalAgent.Async.Prog
import VasalAgent.Protocol.JsonRpc
import VasalAgent.Sdk.Codec

/-!
# Sidecar server

`vasal_sidecar_sdk::server`.  A connection is one program whose calls are the
methods of the `SidecarHandler`; the answers are whatever the handler returns.
Printing and parsing of JSON text are left to a `SerdeJson`.
-/

namespace VasalAgent.Sdk

open VasalAgent.Async
open VasalAgent.Protocol

/-- `serde_json` on bytes. -/
structure SerdeJson where
  /-- The tree of a text as a decoder meets it: the fields of what becomes a struct in the
  order of the text, and what becomes a `Value` as that value. -/
  parse : Bytes → Except String Json
  print : Json → Bytes
  /-- The message of a decoder's error, with its place in the text. -/
  locate : Bytes → StructError → String
  /-- The `Debug` text of a string. -/
  debug : String → String

def SerdeJson.fromSlice {α : Type} (serde : SerdeJson)
    (fromTree : Json → Except StructError α) (bytes : Bytes) : Except String α :=
  match serde.parse bytes with
  | .error e => .error e
  | .ok tree =>
      match fromTree tree with
      | .error e => .error (serde.locate bytes e)
      | .ok value => .ok value

theorem inRange_of_fromSlice {serde : SerdeJson} {bytes : Bytes} {request : Request}
    (h : serde.fromSlice Request.fromTree bytes = .ok request) : request.id.InRange := by
  unfold SerdeJson.fromSlice at h
  split at h
  · cases h
  · split at h
    · cases h
    next hdecode =>
        cases h
        exact Request.inRange_of_fromTree hdecode

/-! ## Handlers -/

inductive HandlerOp where
  | health
  | submit (params : Json)
  | status (taskId : String)
  | cancel (taskId : String)

abbrev HandlerOp.Ans : HandlerOp → Type
  | .health => HealthResponse
  | .submit _ => Except ProtocolError SubmitResponse
  | .status _ => Except ProtocolError StatusResponse
  | .cancel _ => Except ProtocolError CancelResponse

abbrev HandlerSig : Signature := ⟨HandlerOp, HandlerOp.Ans⟩

def invoke (op : HandlerOp) : Prog HandlerSig op.Ans := Prog.perform (S := HandlerSig) op

/-! ## Dispatch -/

def toSuccessOrInternalError (id : RequestId) : Except String Json → Response
  | .ok value => .success id value
  | .error e =>
      .failure id (ProtocolError.internalError
        ("response serialization failed: " ++ e)).toObject

/-- `serde_json::to_value` does not fail on the answers of a handler. -/
def answer {α : Type} (id : RequestId) (toValue : α → Json) :
    Except ProtocolError α → Response
  | .ok result => toSuccessOrInternalError id (.ok (toValue result))
  | .error e => .failure id e.toObject

/-- `serde_json::from_value::<TaskIdParam>`. -/
def taskIdParam : Json → Except StructError String
  | .obj fields =>
      match fields.lookup "task_id" with
      | some value => Struct.text value
      | none => .error (.value (.missingField "task_id"))
  | .arr [] => .error (.value (.invalidLength 0 "struct TaskIdParam with 1 element"))
  | .arr (first :: rest) => do
      let taskId ← Struct.text first
      if rest.isEmpty then pure taskId
      else throw (.value (.invalidLength (rest.length + 1) "fewer elements in array"))
  | other => .error (.value (.invalidType other "struct TaskIdParam"))

def extractTaskId (params : Json) : Except ErrorObject String :=
  match taskIdParam params with
  | .ok taskId => .ok taskId
  | .error e => .error (ProtocolError.invalidParams e.toString).toObject

def dispatch (request : Request) : Prog HandlerSig Response :=
  let id := request.id
  let params := request.params.getD .null
  if request.method = "health" then do
    let result ← invoke .health
    pure (toSuccessOrInternalError id (.ok result.toValue))
  else if request.method = "submit" then do
    let result ← invoke (.submit params)
    pure (answer id SubmitResponse.toValue result)
  else if request.method = "status" then
    match extractTaskId params with
    | .error e => pure (.failure id e)
    | .ok taskId => do
        let result ← invoke (.status taskId)
        pure (answer id StatusResponse.toValue result)
  else if request.method = "cancel" then
    match extractTaskId params with
    | .error e => pure (.failure id e)
    | .ok taskId => do
        let result ← invoke (.cancel taskId)
        pure (answer id CancelResponse.toValue result)
  else pure (.failure id (ProtocolError.methodNotFound request.method).toObject)

/-! ## Connections -/

variable (serde : SerdeJson)

/-- The response that `handle_connection` builds for a frame. -/
def respond (frame : Bytes) : Prog HandlerSig Response :=
  match serde.fromSlice Request.fromTree frame with
  | .error e => pure (.failure (.integer 0) (ProtocolError.parseError e).toObject)
  | .ok request =>
      if request.jsonrpc ≠ jsonrpcVersion then
        pure (.failure request.id (ProtocolError.invalidRequest
          ("expected jsonrpc \"" ++ jsonrpcVersion ++ "\", got " ++
            serde.debug request.jsonrpc)).toObject)
      else dispatch request

/-- The bytes written to the stream. -/
def sendResponse (response : Response) : Except String Bytes :=
  match LengthPrefixCodec.new.encode (serde.print response.toTree) [] with
  | (.ok (), bytes) => .ok bytes
  | (.error e, _) => .error e

/-- `handle_connection`, from what the first read of the stream gives. -/
def handleConnection : Option (Except String Bytes) → Prog HandlerSig (Except String Bytes)
  | some (.ok frame) => do
      let response ← respond serde frame
      pure (sendResponse serde response)
  | some (.error e) => pure (.error e)
  | none => pure (.ok [])

/-! ## Which method is invoked -/

/-- The method that a request asks for, with its arguments. -/
inductive Invokes (request : Request) : HandlerOp → Prop
  | health (hmethod : request.method = "health") : Invokes request .health
  | submit (hmethod : request.method = "submit") :
      Invokes request (.submit (request.params.getD .null))
  | status {taskId : String} (hmethod : request.method = "status")
      (hparams : taskIdParam (request.params.getD .null) = .ok taskId) :
      Invokes request (.status taskId)
  | cancel {taskId : String} (hmethod : request.method = "cancel")
      (hparams : taskIdParam (request.params.getD .null) = .ok taskId) :
      Invokes request (.cancel taskId)

/-- The response to a request whose method was invoked. -/
def HandlerOp.reply (id : RequestId) : (op : HandlerOp) → op.Ans → Response
  | .health, result => toSuccessOrInternalError id (.ok result.toValue)
  | .submit _, result => answer id SubmitResponse.toValue result
  | .status _, result => answer id StatusResponse.toValue result
  | .cancel _, result => answer id CancelResponse.toValue result

def methods : List String := ["health", "submit", "status", "cancel"]

/-- The errors with which a request is refused. -/
inductive Refuses (request : Request) : ProtocolError → Prop
  | method (hmethod : request.method ∉ methods) :
      Refuses request (.methodNotFound request.method)
  | params {e : StructError} (hmethod : request.method = "status" ∨ request.method = "cancel")
      (hparams : taskIdParam (request.params.getD .null) = .error e) :
      Refuses request (.invalidParams e.toString)

theorem Refuses.not_invokes {request : Request} {e : ProtocolError} (h : Refuses request e)
    (op : HandlerOp) : ¬ Invokes request op := by
  intro hop
  cases h with
  | method hmethod => cases hop <;> simp_all [methods]
  | params hmethod hparams => cases hop <;> simp_all

theorem extractTaskId_cases (params : Json) :
    (∃ taskId, taskIdParam params = .ok taskId ∧ extractTaskId params = .ok taskId) ∨
      ∃ e, taskIdParam params = .error e ∧
        extractTaskId params = .error (ProtocolError.invalidParams e.toString).toObject := by
  unfold extractTaskId
  cases h : taskIdParam params with
  | ok taskId => exact .inl ⟨taskId, rfl, rfl⟩
  | error e => exact .inr ⟨e, rfl, rfl⟩

/-- A request invokes the one method it asks for, or is refused. -/
theorem dispatch_cases (request : Request) :
    (∃ op, Invokes request op ∧
      dispatch request = .call (S := HandlerSig) op fun ans => .ret (op.reply request.id ans)) ∨
    ∃ e, Refuses request e ∧ dispatch request = .ret (.failure request.id e.toObject) := by
  simp only [dispatch]
  split_ifs with hhealth hsubmit hstatus hcancel
  · exact .inl ⟨.health, .health hhealth, rfl⟩
  · exact .inl ⟨_, .submit hsubmit, rfl⟩
  · rcases extractTaskId_cases (request.params.getD .null) with
      ⟨taskId, hparam, hextract⟩ | ⟨e, hparam, hextract⟩
    · rw [hextract]
      exact .inl ⟨_, .status hstatus hparam, rfl⟩
    · rw [hextract]
      exact .inr ⟨_, .params (.inl hstatus) hparam, rfl⟩
  · rcases extractTaskId_cases (request.params.getD .null) with
      ⟨taskId, hparam, hextract⟩ | ⟨e, hparam, hextract⟩
    · rw [hextract]
      exact .inl ⟨_, .cancel hcancel hparam, rfl⟩
    · rw [hextract]
      exact .inr ⟨_, .params (.inr hcancel) hparam, rfl⟩
  · exact .inr ⟨_, .method (by simp [methods, hhealth, hsubmit, hstatus, hcancel]), rfl⟩

/-- The payload parses as a request of the right version. -/
def Accepted (frame : Bytes) (request : Request) : Prop :=
  serde.fromSlice Request.fromTree frame = .ok request ∧ request.jsonrpc = jsonrpcVersion

theorem respond_eq_dispatch {serde : SerdeJson} {frame : Bytes} {request : Request}
    (h : Accepted serde frame request) : respond serde frame = dispatch request := by
  simp only [respond, h.1, h.2, ne_eq, not_true_eq_false, if_false]

/-! ## What the client decodes -/

/-- The responses a connection builds for `id`. -/
inductive Answers (id : RequestId) : Response → Prop
  | result (fields : List (String × Json)) : Answers id (.success id (.obj fields))
  | error (e : ProtocolError) : Answers id (.failure id e.toObject)

theorem answers_reply (id : RequestId) (op : HandlerOp) (ans : op.Ans) :
    Answers id (op.reply id ans) := by
  cases op with
  | health => exact .result _
  | submit params =>
      rcases ans with e | result
      · exact .error e
      · cases result <;> exact .result _
  | status taskId =>
      rcases ans with e | result
      · exact .error e
      · cases result <;> exact .result _
  | cancel taskId =>
      rcases ans with e | result
      · exact .error e
      · exact .result _

/-- A response with exactly one of `result` and `error`, for the request `id`. -/
structure WellFormed (id : RequestId) (decoded : Response) : Prop where
  version : decoded.jsonrpc = "2.0"
  one : decoded.result.isSome = !decoded.error.isSome
  id : decoded.id = id

theorem Answers.decoded {id : RequestId} {response : Response} (h : Answers id response)
    (hid : id.InRange) :
    Response.fromTree response.toTree = .ok response.received ∧
      WellFormed id response.received := by
  cases h with
  | result fields =>
      exact ⟨Response.fromTree_toTree ⟨hid, by simp [Response.success]⟩, rfl, rfl, rfl⟩
  | error e =>
      refine ⟨Response.fromTree_toTree ⟨hid, fun object hobject => ?_⟩, rfl, rfl, rfl⟩
      cases hobject
      exact e.isI32

/-- A frame invokes the method of its accepted request, or is refused. -/
theorem respond_cases (frame : Bytes) :
    (∃ request op, Accepted serde frame request ∧ Invokes request op ∧
      respond serde frame =
        .call (S := HandlerSig) op fun ans => .ret (op.reply request.id ans)) ∨
    ((∀ request op, Accepted serde frame request → ¬ Invokes request op) ∧
      ∃ (id : RequestId) (e : ProtocolError),
        respond serde frame = .ret (.failure id e.toObject) ∧ id.InRange ∧
        ∀ request, serde.fromSlice Request.fromTree frame = .ok request → request.id = id) := by
  unfold respond Accepted
  cases hparse : serde.fromSlice Request.fromTree frame with
  | error e =>
      refine .inr ⟨by simp, .integer 0, _, rfl, ?_, by simp⟩
      exact (by decide : Struct.IsI64 0)
  | ok request =>
      have hrange := inRange_of_fromSlice hparse
      by_cases hversion : request.jsonrpc = jsonrpcVersion
      · simp only [hversion, ne_eq, not_true_eq_false, if_false]
        rcases dispatch_cases request with ⟨op, hop, hdispatch⟩ | ⟨e, hrefuses, hdispatch⟩
        · exact .inl ⟨request, op, ⟨rfl, hversion⟩, hop, hdispatch⟩
        · refine .inr ⟨?_, request.id, e, hdispatch, hrange, ?_⟩
          · rintro _ op ⟨⟨⟩, -⟩
            exact hrefuses.not_invokes op
          · rintro _ ⟨⟩
            rfl
      · simp only [ne_eq, hversion, not_false_eq_true, if_true]
        refine .inr ⟨?_, request.id, _, rfl, hrange, ?_⟩
        · rintro _ op ⟨⟨⟩, hsame⟩
          exact absurd hsame hversion
        · rintro _ ⟨⟩
          rfl

/--
The discipline of one connection that sent `frame`, whatever the handler
answers: which method it invokes, and what the client decodes.
-/
structure Disciplined (frame : Bytes) : Prop where
  responded : ∀ events response, Prog.Steps (respond serde frame) events (.ret response) →
    ∃ decoded, Response.fromTree response.toTree = .ok decoded ∧
      decoded.jsonrpc = "2.0" ∧ decoded.result.isSome = !decoded.error.isSome ∧
      ∀ request, serde.fromSlice Request.fromTree frame = .ok request →
        decoded.id = request.id
  /-- At most one method is invoked, and only one that the request asks for. -/
  invoked : ∀ events rest,
    Prog.Steps (handleConnection serde (some (.ok frame))) events rest →
    events = [] ∨ ∃ request op ans, events = [⟨op, ans⟩] ∧
      Accepted serde frame request ∧ Invokes request op
  /-- The method that an accepted request asks for is invoked, and answered. -/
  invokes : ∀ request op, Accepted serde frame request → Invokes request op →
    respond serde frame =
      .call (S := HandlerSig) op fun ans => .ret (op.reply request.id ans)
  refused : (∀ request op, Accepted serde frame request → ¬ Invokes request op) →
    ∃ response decoded, respond serde frame = .ret response ∧
      Response.fromTree response.toTree = .ok decoded ∧ decoded.error.isSome

theorem Refuses.unique {request : Request} {e other : ProtocolError} (h : Refuses request e)
    (hother : Refuses request other) : e = other := by
  cases h <;> cases hother <;> simp_all [methods]

theorem Invokes.unique {request : Request} {op other : HandlerOp} (h : Invokes request op)
    (hother : Invokes request other) : op = other := by
  cases h <;> cases hother <;> simp_all

theorem disciplined (frame : Bytes) : Disciplined serde frame := by
  rcases respond_cases serde frame with
    ⟨request, op, haccepted, hinvokes, hrespond⟩ | ⟨hnone, id, e, hrespond, hrange, hid⟩
  · have hrange := inRange_of_fromSlice haccepted.1
    refine ⟨fun events response hsteps => ?_, fun events rest hsteps => ?_,
      fun other op' hother hop' => ?_, fun hnone => absurd hinvokes (hnone _ _ haccepted)⟩
    · rw [hrespond] at hsteps
      rcases hsteps with _ | @⟨_, _, ans, _, _, hsteps⟩
      cases hsteps
      obtain ⟨hdecoded, hwell⟩ := (answers_reply request.id op ans).decoded hrange
      refine ⟨_, hdecoded, hwell.version, hwell.one, fun other hother => ?_⟩
      rw [haccepted.1] at hother
      cases hother
      exact hwell.id
    · simp only [handleConnection, hrespond, Prog.call_bind, Prog.ret_bind] at hsteps
      rcases hsteps with _ | @⟨_, _, ans, _, _, hsteps⟩
      · exact .inl rfl
      · cases hsteps
        exact .inr ⟨request, op, ans, rfl, haccepted, hinvokes⟩
    · obtain rfl : request = other := by
        have := haccepted.1.symm.trans hother.1
        cases this
        rfl
      obtain rfl := hinvokes.unique hop'
      exact hrespond
  · have hanswers : Answers id (.failure id e.toObject) := .error e
    obtain ⟨hdecoded, hwell⟩ := hanswers.decoded hrange
    refine ⟨fun events response hsteps => ?_, fun events rest hsteps => ?_,
      fun other op hother hop => absurd hop (hnone _ _ hother), fun _ => ?_⟩
    · rw [hrespond] at hsteps
      cases hsteps
      refine ⟨_, hdecoded, hwell.version, hwell.one, fun request hrequest => ?_⟩
      rw [hwell.id, hid request hrequest]
    · simp only [handleConnection, hrespond, Prog.ret_bind] at hsteps
      cases hsteps
      exact .inl rfl
    · exact ⟨_, _, hrespond, hdecoded, rfl⟩

end VasalAgent.Sdk
