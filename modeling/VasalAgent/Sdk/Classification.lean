import VasalAgent.Sdk.EndToEnd

/-!
# Classification of malformed requests

Which error a sidecar reports for which payload. A payload that is JSON and no request ends
in the same call of `from_slice` as one that is no JSON, so it is reported as a parse error
under the identifier `0`. An array of the four fields passes as a request.
-/

namespace VasalAgent.Sdk

open VasalAgent.Async
open VasalAgent.Protocol
open VasalAgent.Protocol.Struct
open VasalAgent.Serde (values values_cons get?_eq_head?)

/-! ## Request objects -/

section Slots

variable {α : Type} {decode : Json → Except StructError α}

/-- What `trees`, the values under one name, make of the slot of that name. -/
def Fills (decode : Json → Except StructError α) (trees : List Json) (before after : Option α) :
    Prop :=
  trees = [] ∧ after = before ∨
    before = none ∧ ∃ tree value, trees = [tree] ∧ decode tree = .ok value ∧ after = some value

theorem fills_nil {before after : Option α} : Fills decode [] before after ↔ after = before := by
  simp [Fills]

theorem once_eq_ok {name : String} {before after : Option α} {tree : Json} :
    once name before decode tree = .ok after ↔
      before = none ∧ ∃ value, decode tree = .ok value ∧ after = some value := by
  cases before with
  | some value => simp [once]
  | none =>
      cases hdecode : decode tree with
      | error e => simp [once, hdecode, Except.map]
      | ok value => simp [once, hdecode, Except.map, eq_comm]

/-- The first value of a name goes through `once`, and no other may follow it. -/
theorem fills_cons (name : String) {before after : Option α} {tree : Json} {trees : List Json} :
    Fills decode (tree :: trees) before after ↔
      ∃ mid, once name before decode tree = .ok mid ∧ Fills decode trees mid after := by
  constructor
  · rintro (⟨hnil, -⟩ | ⟨hbefore, other, value, htrees, hdecode, hafter⟩)
    · cases hnil
    · cases htrees
      exact ⟨some value, once_eq_ok.mpr ⟨hbefore, value, hdecode, rfl⟩, fills_nil.mpr hafter⟩
  · rintro ⟨mid, honce, hrest⟩
    obtain ⟨hbefore, value, hdecode, rfl⟩ := once_eq_ok.mp honce
    rcases hrest with ⟨rfl, hafter⟩ | ⟨hnone, -⟩
    · exact .inr ⟨hbefore, tree, value, rfl, hdecode, hafter⟩
    · cases hnone

theorem fills_some {trees : List Json} {value : α} :
    Fills decode trees none (some value) ↔
      ∃ tree, trees = [tree] ∧ decode tree = .ok value := by
  simp [Fills, eq_comm]

theorem text_eq_ok {tree : Json} {value : String} : text tree = .ok value ↔ tree = .str value := by
  cases tree <;> simp [text]

theorem required_eq_ok {name : String} {slot : Option α} {value : α} :
    required name slot = .ok value ↔ slot = some value := by
  cases slot <;> simp [required]

end Slots

@[mk_iff]
structure Visited (fields : List (String × Json)) (before after : RequestFields) : Prop where
  jsonrpc : Fills text (values "jsonrpc" fields) before.jsonrpc after.jsonrpc
  method : Fills text (values "method" fields) before.method after.method
  params : Fills (fun value => .ok (nonNull value)) (values "params" fields) before.params
    after.params
  id : Fills RequestId.fromTree (values "id" fields) before.id after.id

theorem bind_eq_ok {α β : Type} {first : Except StructError α}
    {rest : α → Except StructError β} {value : β} :
    (first >>= rest) = .ok value ↔ ∃ mid, first = .ok mid ∧ rest mid = .ok value :=
  ⟨ok_of_bind, by
    rintro ⟨mid, rfl, hrest⟩
    exact hrest⟩

theorem visited_cons {field : String × Json} {fields : List (String × Json)}
    {before after : RequestFields} :
    Visited (field :: fields) before after ↔
      ∃ next, before.visit field = .ok next ∧ Visited fields next after := by
  obtain ⟨key, tree⟩ := field
  unfold RequestFields.visit
  -- a field fills the slot of its name and leaves the others
  split_ifs with hjsonrpc hmethod hparams hid
  · obtain rfl : key = "jsonrpc" := hjsonrpc
    simp only [visited_iff, bind_eq_ok, fills_cons "jsonrpc", values_cons, pure, Except.pure,
      List.singleton_append, List.nil_append, String.reduceEq, reduceIte, Except.ok.injEq]
    grind
  · obtain rfl : key = "method" := hmethod
    simp only [visited_iff, bind_eq_ok, fills_cons "method", values_cons, pure, Except.pure,
      List.singleton_append, List.nil_append, String.reduceEq, reduceIte, Except.ok.injEq]
    grind
  · obtain rfl : key = "params" := hparams
    simp only [visited_iff, bind_eq_ok, fills_cons "params", values_cons, pure, Except.pure,
      List.singleton_append, List.nil_append, String.reduceEq, reduceIte, Except.ok.injEq]
    grind
  · obtain rfl : key = "id" := hid
    simp only [visited_iff, bind_eq_ok, fills_cons "id", values_cons, pure, Except.pure,
      List.singleton_append, List.nil_append, String.reduceEq, reduceIte, Except.ok.injEq]
    grind
  · simp_all [visited_iff, pure, Except.pure]

theorem foldlM_visit {fields : List (String × Json)} {before after : RequestFields} :
    fields.foldlM RequestFields.visit before = .ok after ↔ Visited fields before after := by
  induction fields generalizing before with
  | nil =>
      obtain ⟨jsonrpc, method, params, id⟩ := before
      obtain ⟨jsonrpc', method', params', id'⟩ := after
      simp [visited_iff, fills_nil, pure, Except.pure, eq_comm]
  | cons field fields ih =>
      rw [List.foldlM_cons, bind_eq_ok, visited_cons]
      simp only [ih]

/-- An object with the fields of `request`, each once, whatever else it has. -/
structure IsRequest (fields : List (String × Json)) (request : Request) : Prop where
  jsonrpc : values "jsonrpc" fields = [.str request.jsonrpc]
  method : values "method" fields = [.str request.method]
  params : (values "params" fields).length ≤ 1 ∧
    request.params = (values "params" fields).head?.bind nonNull
  id : ∃ tree, values "id" fields = [tree] ∧ RequestId.fromTree tree = .ok request.id

theorem fills_params {trees : List Json} {params : Option Json} :
    (∃ slot, Fills (fun value => .ok (nonNull value)) trees none slot ∧ slot.getD none = params) ↔
      trees.length ≤ 1 ∧ params = trees.head?.bind nonNull := by
  match trees with
  | [] => simp [Fills, eq_comm]
  | [tree] => simp [Fills, eq_comm]
  | first :: second :: rest => simp [Fills]

/-- The derived decoder takes an object exactly when it is a request. -/
theorem fromTree_obj {fields : List (String × Json)} {request : Request} :
    Request.fromTree (.obj fields) = .ok request ↔ IsRequest fields request := by
  obtain ⟨jsonrpc, method, params, id⟩ := request
  simp only [Request.fromTree, bind_eq_ok, foldlM_visit, required_eq_ok, visited_iff]
  constructor
  · rintro ⟨seen, ⟨hjsonrpc, hmethod, hparams, hid⟩, _, hj, _, hm, _, hi, hrequest⟩
    cases hrequest
    rw [hj, fills_some] at hjsonrpc
    rw [hm, fills_some] at hmethod
    rw [hi, fills_some] at hid
    simp only [text_eq_ok] at hjsonrpc hmethod
    obtain ⟨_, hjsonrpc, rfl⟩ := hjsonrpc
    obtain ⟨_, hmethod, rfl⟩ := hmethod
    exact ⟨hjsonrpc, hmethod, fills_params.mp ⟨_, hparams, rfl⟩, hid⟩
  · rintro ⟨hjsonrpc, hmethod, hparams, hid⟩
    obtain ⟨slot, hslot, hparams⟩ := fills_params.mpr hparams
    refine ⟨⟨some jsonrpc, some method, slot, some id⟩, ⟨?_, ?_, hslot, fills_some.mpr hid⟩,
      jsonrpc, rfl, method, rfl, id, rfl, ?_⟩
    · exact fills_some.mpr ⟨_, hjsonrpc, rfl⟩
    · exact fills_some.mpr ⟨_, hmethod, rfl⟩
    · rw [hparams]
      rfl

/-! ## Task identifiers -/

/-- The `task_id` of the params, by name or by position. -/
inductive HasTaskId : Json → String → Prop
  | named {fields : List (String × Json)} {taskId : String}
      (h : fields.lookup "task_id" = some (.str taskId)) : HasTaskId (.obj fields) taskId
  | positional (taskId : String) : HasTaskId (.arr [.str taskId]) taskId

theorem hasTaskId_iff {params : Json} {taskId : String} :
    taskIdParam params = .ok taskId ↔ HasTaskId params taskId := by
  constructor
  · intro h
    match params with
    | .obj fields =>
        unfold taskIdParam at h
        cases hlookup : fields.lookup "task_id" with
        | none => simp [hlookup] at h
        | some tree =>
            simp only [hlookup, text_eq_ok] at h
            exact .named (h ▸ hlookup)
    | .arr [] => cases h
    | .arr (first :: rest) =>
        obtain ⟨value, hfirst, h⟩ := ok_of_bind h
        rw [text_eq_ok] at hfirst
        cases rest with
        | nil =>
            cases h
            exact hfirst ▸ .positional taskId
        | cons second rest => cases h
    | .null | .bool _ | .num _ | .str _ => cases h
  · rintro (h | -)
    · simp [taskIdParam, h, text]
    · rfl

/-! ## Classification -/

def errorCode (response : Response) : Option Int := response.error.map ErrorObject.code

def HandlerOp.failure? : (op : HandlerOp) → op.Ans → Option ProtocolError
  | .submit _, .error e | .status _, .error e | .cancel _, .error e => some e
  | _, _ => none

/-- In the run a handler returned an error with `code`. -/
def HandlerReturns (code : Int) (events : List (Event HandlerSig)) : Prop :=
  ∃ op ans, ⟨op, ans⟩ ∈ events ∧ (HandlerOp.failure? op ans).map ProtocolError.code = some code

section Classified

variable (serde : SerdeJson) (frame : Bytes)

/-- The payload is a request object of the right version. -/
def ValidRequest (request : Request) : Prop :=
  ∃ fields, serde.parse frame = .ok (.obj fields) ∧ IsRequest fields request ∧
    request.jsonrpc = jsonrpcVersion

/-- The response has the code that its payload deserves, and its identifier. -/
structure Classified (events : List (Event HandlerSig)) (response : Response) : Prop where
  parseError : errorCode response = some ProtocolError.parseErrorCode ↔
    ¬ ∃ tree, serde.parse frame = .ok tree
  invalidRequest : errorCode response = some ProtocolError.invalidRequestCode ↔
    (∃ tree, serde.parse frame = .ok tree) ∧ ¬ ∃ request, ValidRequest serde frame request
  methodNotFound : ¬ HandlerReturns ProtocolError.methodNotFoundCode events →
    (errorCode response = some ProtocolError.methodNotFoundCode ↔
      ∃ request, ValidRequest serde frame request ∧ request.method ∉ methods)
  invalidParams : ¬ HandlerReturns ProtocolError.invalidParamsCode events →
    (errorCode response = some ProtocolError.invalidParamsCode ↔
      ∃ request, ValidRequest serde frame request ∧
        (request.method = "status" ∨ request.method = "cancel") ∧
        ¬ ∃ taskId, HasTaskId (request.params.getD .null) taskId)
  id : ∀ fields tree id, serde.parse frame = .ok (.obj fields) →
    fields.lookup "id" = some tree → RequestId.fromTree tree = .ok id →
    response.error.isSome → response.id = id

/-- A payload that parses is a request, and an object unless it has another version. -/
def Decodes : Prop :=
  ∀ tree, serde.parse frame = .ok tree → ∃ request, Request.fromTree tree = .ok request ∧
    (request.jsonrpc = jsonrpcVersion → ∃ fields, tree = .obj fields)

end Classified

section Outcomes

variable {serde : SerdeJson} {frame : Bytes}

theorem errorCode_failure (id : RequestId) (e : ProtocolError) :
    errorCode (.failure id e.toObject) = some e.code := rfl

theorem errorCode_reply (id : RequestId) (op : HandlerOp) (ans : op.Ans) :
    errorCode (op.reply id ans) = (op.failure? ans).map ProtocolError.code := by
  cases op with
  | health => rfl
  | submit params => cases ans <;> rfl
  | status taskId => cases ans <;> rfl
  | cancel taskId => cases ans <;> rfl

theorem id_of_isRequest {fields : List (String × Json)} {request : Request} {tree : Json}
    {id : RequestId} (h : IsRequest fields request) (hlookup : fields.lookup "id" = some tree)
    (hid : RequestId.fromTree tree = .ok id) : request.id = id := by
  obtain ⟨own, hvalues, hown⟩ := h.id
  have hget : (Json.obj fields).get? "id" = some tree := hlookup
  rw [get?_eq_head?, hvalues, List.head?_cons, Option.some.injEq] at hget
  rw [hget, hid] at hown
  exact (Except.ok.inj hown).symm

theorem validRequest_iff {fields : List (String × Json)} {request : Request}
    (hparse : serde.parse frame = .ok (.obj fields)) (hrequest : IsRequest fields request)
    {other : Request} :
    ValidRequest serde frame other ↔ other = request ∧ request.jsonrpc = jsonrpcVersion := by
  constructor
  · rintro ⟨others, hother, hothers, hversion⟩
    rw [hparse] at hother
    cases hother
    have hsame := (fromTree_obj.mpr hothers).symm.trans (fromTree_obj.mpr hrequest)
    cases hsame
    exact ⟨rfl, hversion⟩
  · rintro ⟨rfl, hversion⟩
    exact ⟨fields, hparse, hrequest, hversion⟩

theorem not_validRequest {tree : Json} (hparse : serde.parse frame = .ok tree)
    (h : ∀ request, Request.fromTree tree = .ok request → request.jsonrpc = jsonrpcVersion →
      ¬ ∃ fields, tree = .obj fields) :
    ¬ ∃ request, ValidRequest serde frame request := by
  rintro ⟨request, fields, hobj, hrequest, hversion⟩
  rw [hparse] at hobj
  cases hobj
  exact h request (fromTree_obj.mpr hrequest) hversion ⟨fields, rfl⟩

theorem respond_of_unparsed {e : String} (hparse : serde.parse frame = .error e) :
    respond serde frame = .ret (.failure (.integer 0) (ProtocolError.parseError e).toObject) := by
  simp only [respond, SerdeJson.fromSlice, hparse]
  rfl

theorem respond_of_undecoded {tree : Json} {e : StructError}
    (hparse : serde.parse frame = .ok tree) (hdecode : Request.fromTree tree = .error e) :
    respond serde frame = .ret (.failure (.integer 0)
      (ProtocolError.parseError (serde.locate frame e)).toObject) := by
  simp only [respond, SerdeJson.fromSlice, hparse, hdecode]
  rfl

theorem respond_of_version {tree : Json} {request : Request}
    (hparse : serde.parse frame = .ok tree) (hdecode : Request.fromTree tree = .ok request)
    (hversion : request.jsonrpc ≠ jsonrpcVersion) :
    ∃ detail, respond serde frame =
      .ret (.failure request.id (ProtocolError.invalidRequest detail).toObject) := by
  simp only [respond, SerdeJson.fromSlice, hparse, hdecode, if_pos hversion]
  exact ⟨_, rfl⟩

theorem respond_of_accepted {tree : Json} {request : Request}
    (hparse : serde.parse frame = .ok tree) (hdecode : Request.fromTree tree = .ok request)
    (hversion : request.jsonrpc = jsonrpcVersion) : respond serde frame = dispatch request := by
  refine respond_eq_dispatch ⟨?_, hversion⟩
  simp only [SerdeJson.fromSlice, hparse, hdecode]

/-! ### Payloads that are classified -/

theorem refuses_methodNotFound {request : Request} :
    (∃ e, Refuses request e ∧ e.code = ProtocolError.methodNotFoundCode) ↔
      request.method ∉ methods := by
  constructor
  · rintro ⟨e, hrefuses, hcode⟩
    cases hrefuses with
    | method hmethod => exact hmethod
    | params hmethod hparams =>
        exact absurd hcode
          (by decide : ProtocolError.invalidParamsCode ≠ ProtocolError.methodNotFoundCode)
  · intro hmethod
    exact ⟨_, .method hmethod, rfl⟩

theorem refuses_invalidParams {request : Request} :
    (∃ e, Refuses request e ∧ e.code = ProtocolError.invalidParamsCode) ↔
      (request.method = "status" ∨ request.method = "cancel") ∧
        ¬ ∃ taskId, HasTaskId (request.params.getD .null) taskId := by
  simp only [← hasTaskId_iff]
  constructor
  · rintro ⟨e, hrefuses, hcode⟩
    cases hrefuses with
    | method hmethod =>
        exact absurd hcode
          (by decide : ProtocolError.methodNotFoundCode ≠ ProtocolError.invalidParamsCode)
    | params hmethod hparams => exact ⟨hmethod, by simp [hparams]⟩
  · rintro ⟨hmethod, hnone⟩
    cases hparams : taskIdParam (request.params.getD .null) with
    | ok taskId => exact absurd ⟨taskId, hparams⟩ hnone
    | error e => exact ⟨_, .params hmethod hparams, rfl⟩

theorem refuses_code {request : Request} {e : ProtocolError} (h : Refuses request e) :
    e.code ∈ [ProtocolError.methodNotFoundCode, ProtocolError.invalidParamsCode] := by
  cases h with
  | method hmethod => exact List.mem_cons_self
  | params hmethod hparams => exact List.mem_cons_of_mem _ List.mem_cons_self

/-- The errors of a dispatched request are those of the handler and the refusals. -/
theorem errorCode_of_dispatch {request : Request} {events : List (Event HandlerSig)}
    {response : Response} (hsteps : Prog.Steps (dispatch request) events (.ret response))
    {code : Int} (hhandler : ¬ HandlerReturns code events) :
    errorCode response = some code ↔ ∃ e, Refuses request e ∧ e.code = code := by
  rcases dispatch_cases request with ⟨op, hop, hdispatch⟩ | ⟨e, hrefuses, hdispatch⟩
  · rw [hdispatch] at hsteps
    rcases hsteps with _ | @⟨_, _, ans, _, _, hsteps⟩
    cases hsteps
    rw [errorCode_reply]
    constructor
    · intro hcode
      exact absurd ⟨op, ans, List.mem_singleton_self _, hcode⟩ hhandler
    · rintro ⟨e, hrefuses, -⟩
      exact absurd hop (hrefuses.not_invokes op)
  · rw [hdispatch] at hsteps
    cases hsteps
    rw [errorCode_failure, Option.some.injEq]
    constructor
    · intro hcode
      exact ⟨e, hrefuses, hcode⟩
    · rintro ⟨other, hother, hcode⟩
      rw [hrefuses.unique hother, hcode]

theorem not_refuses {request : Request} {code : Int}
    (h : code ∉ [ProtocolError.methodNotFoundCode, ProtocolError.invalidParamsCode]) :
    ¬ ∃ e, Refuses request e ∧ e.code = code := by
  rintro ⟨e, hrefuses, rfl⟩
  exact h (refuses_code hrefuses)

theorem Answers.id_eq {id : RequestId} {response : Response} (h : Answers id response) :
    response.id = id := by
  cases h <;> rfl

theorem id_of_dispatch {request : Request} {events : List (Event HandlerSig)}
    {response : Response} (hsteps : Prog.Steps (dispatch request) events (.ret response)) :
    response.id = request.id := by
  rcases dispatch_cases request with ⟨op, -, hdispatch⟩ | ⟨e, -, hdispatch⟩
  · rw [hdispatch] at hsteps
    rcases hsteps with _ | @⟨_, _, ans, _, _, hsteps⟩
    cases hsteps
    exact (answers_reply request.id op ans).id_eq
  · rw [hdispatch] at hsteps
    cases hsteps
    rfl

theorem exists_quiet_run (request : Request) : ∃ events response,
    Prog.Steps (dispatch request) events (.ret response) ∧
      ∀ code, ¬ HandlerReturns code events := by
  rcases dispatch_cases request with ⟨op, -, hdispatch⟩ | ⟨e, -, hdispatch⟩
  · rw [hdispatch]
    refine ⟨[⟨op, sampleHandler op⟩], _, .call (.refl _), ?_⟩
    rintro code ⟨other, ans, hmem, hfailure⟩
    cases List.mem_singleton.mp hmem
    cases op <;> cases hfailure
  · rw [hdispatch]
    exact ⟨[], _, .refl _, fun code => by simp [HandlerReturns]⟩

theorem classified_accepted {fields : List (String × Json)} {request : Request}
    (hparse : serde.parse frame = .ok (.obj fields)) (hrequest : IsRequest fields request)
    (hversion : request.jsonrpc = jsonrpcVersion) {events : List (Event HandlerSig)}
    {response : Response} (hsteps : Prog.Steps (dispatch request) events (.ret response))
    (hparseError : ¬ HandlerReturns ProtocolError.parseErrorCode events)
    (hinvalid : ¬ HandlerReturns ProtocolError.invalidRequestCode events) :
    Classified serde frame events response := by
  have hvalid (other : Request) : ValidRequest serde frame other ↔ other = request := by
    rw [validRequest_iff hparse hrequest]
    exact and_iff_left hversion
  refine ⟨?_, ?_, fun hhandler => ?_, fun hhandler => ?_, ?_⟩
  · rw [errorCode_of_dispatch hsteps hparseError]
    exact iff_of_false (not_refuses (by decide)) (by simp [hparse])
  · rw [errorCode_of_dispatch hsteps hinvalid]
    exact iff_of_false (not_refuses (by decide)) (by simp [hvalid])
  · rw [errorCode_of_dispatch hsteps hhandler, refuses_methodNotFound]
    simp [hvalid]
  · rw [errorCode_of_dispatch hsteps hhandler, refuses_invalidParams]
    simp [hvalid]
  · intro others tree id hothers hlookup hid _
    rw [hparse] at hothers
    cases hothers
    rw [id_of_dispatch hsteps, id_of_isRequest hrequest hlookup hid]

theorem classified_unparsed {e : String} (hparse : serde.parse frame = .error e)
    (events : List (Event HandlerSig)) :
    Classified serde frame events
      (.failure (.integer 0) (ProtocolError.parseError e).toObject) := by
  have htree : ¬ ∃ tree, serde.parse frame = .ok tree := by simp [hparse]
  have hnone (request : Request) : ¬ ValidRequest serde frame request := by
    rintro ⟨fields, hobj, -⟩
    exact htree ⟨_, hobj⟩
  have hcode : errorCode (.failure (.integer 0) (ProtocolError.parseError e).toObject) =
      some ProtocolError.parseErrorCode := rfl
  refine ⟨?_, ?_, fun _ => ?_, fun _ => ?_, fun fields _ _ hobj => absurd ⟨_, hobj⟩ htree⟩
  · exact iff_of_true hcode htree
  · exact iff_of_false (by rw [hcode]; decide) fun h => htree h.1
  · exact iff_of_false (by rw [hcode]; decide) fun ⟨request, hvalid, _⟩ => hnone request hvalid
  · exact iff_of_false (by rw [hcode]; decide) fun ⟨request, hvalid, _⟩ => hnone request hvalid

theorem classified_version {tree : Json} {request : Request}
    (hparse : serde.parse frame = .ok tree) (hdecode : Request.fromTree tree = .ok request)
    (hversion : request.jsonrpc ≠ jsonrpcVersion) (detail : String)
    (events : List (Event HandlerSig)) :
    Classified serde frame events
      (.failure request.id (ProtocolError.invalidRequest detail).toObject) := by
  have hnone : ¬ ∃ request, ValidRequest serde frame request := by
    refine not_validRequest hparse fun other hother hsame => absurd hsame ?_
    rw [hdecode] at hother
    cases hother
    exact hversion
  have hcode : errorCode (.failure request.id (ProtocolError.invalidRequest detail).toObject) =
      some ProtocolError.invalidRequestCode := rfl
  refine ⟨?_, ?_, fun _ => ?_, fun _ => ?_, ?_⟩
  · exact iff_of_false (by rw [hcode]; decide) fun h => h ⟨tree, hparse⟩
  · exact iff_of_true hcode ⟨⟨tree, hparse⟩, hnone⟩
  · exact iff_of_false (by rw [hcode]; decide) fun ⟨other, hvalid, _⟩ => hnone ⟨other, hvalid⟩
  · exact iff_of_false (by rw [hcode]; decide) fun ⟨other, hvalid, _⟩ => hnone ⟨other, hvalid⟩
  · intro fields own id hobj hlookup hid _
    rw [hparse] at hobj
    cases hobj
    exact id_of_isRequest (fromTree_obj.mp hdecode) hlookup hid

end Outcomes

/-- A payload is classified, whatever the handler answers short of the two codes itself,
exactly when it is no JSON or decodes as a request, which must be an object unless it has
another version. -/
theorem classified_iff (serde : SerdeJson) (frame : Bytes) :
    (∀ events response, Prog.Steps (respond serde frame) events (.ret response) →
      ¬ HandlerReturns ProtocolError.parseErrorCode events →
      ¬ HandlerReturns ProtocolError.invalidRequestCode events →
      Classified serde frame events response) ↔ Decodes serde frame := by
  constructor
  · intro hclassified tree hparse
    cases hdecode : Request.fromTree tree with
    | error e =>
        -- a run without calls, which ends in a parse error
        rw [respond_of_undecoded hparse hdecode] at hclassified
        have hall := hclassified [] _ (.refl _) (by simp [HandlerReturns])
          (by simp [HandlerReturns])
        exact absurd ⟨tree, hparse⟩ (hall.parseError.mp rfl)
    | ok request =>
        refine ⟨request, rfl, fun hversion => ?_⟩
        by_contra hobj
        have hnone : ¬ ∃ request, ValidRequest serde frame request :=
          not_validRequest hparse fun _ _ _ => hobj
        -- a run whose handler returns no error is not reported as an invalid request
        obtain ⟨events, response, hsteps, hquiet⟩ := exists_quiet_run request
        have hall := hclassified events response
          (respond_of_accepted hparse hdecode hversion ▸ hsteps) (hquiet _) (hquiet _)
        have hcode := hall.invalidRequest.mpr ⟨⟨tree, hparse⟩, hnone⟩
        rw [errorCode_of_dispatch hsteps (hquiet _)] at hcode
        exact not_refuses (by decide) hcode
  · intro hdecodes events response hsteps hparseError hinvalid
    cases hparse : serde.parse frame with
    | error e =>
        rw [respond_of_unparsed hparse] at hsteps
        cases hsteps
        exact classified_unparsed hparse _
    | ok tree =>
        obtain ⟨request, hdecode, hobj⟩ := hdecodes tree hparse
        by_cases hversion : request.jsonrpc = jsonrpcVersion
        · obtain ⟨fields, rfl⟩ := hobj hversion
          rw [respond_of_accepted hparse hdecode hversion] at hsteps
          exact classified_accepted hparse (fromTree_obj.mp hdecode) hversion hsteps hparseError
            hinvalid
        · obtain ⟨detail, hrespond⟩ := respond_of_version hparse hdecode hversion
          rw [hrespond] at hsteps
          cases hsteps
          exact classified_version hparse hdecode hversion detail _

/-! ## Misreported payloads -/

def onlyId : Json := .obj [("id", .num (.int 7))]

def requestArray : Json := .arr [.str "2.0", .str "health", .null, .num (.int 1)]

theorem parse_onlyId : textSerde.parse (payload onlyId) = .ok onlyId := by
  refine parse_textSerde (.obj ?_) (by decide)
  simp only [List.forall_mem_singleton]
  exact .num (by decide)

theorem parse_requestArray : textSerde.parse (payload requestArray) = .ok requestArray := by
  refine parse_textSerde (.arr ?_) (by decide)
  simp only [List.forall_mem_cons]
  exact ⟨.str _, .str _, .null, .num (by decide), by simp⟩

/-- JSON that is no request is reported as a parse error of the request `0`, and an array is
answered by the handler. -/
theorem requests_misreported :
    (∃ response, Prog.Steps (respond textSerde (payload onlyId)) [] (.ret response) ∧
      errorCode response = some ProtocolError.parseErrorCode ∧
      response.id = .integer 0 ∧ onlyId.get? "id" = some (.num (.int 7)) ∧
      ¬ Classified textSerde (payload onlyId) [] response) ∧
    ∃ response, Prog.Steps (respond textSerde (payload requestArray))
        [⟨.health, sampleHandler .health⟩] (.ret response) ∧
      errorCode response = none ∧
      ¬ Classified textSerde (payload requestArray) [⟨.health, sampleHandler .health⟩]
        response := by
  constructor
  · rw [respond_of_undecoded parse_onlyId rfl]
    refine ⟨_, .refl _, rfl, rfl, rfl, ?_⟩
    intro h
    exact h.parseError.mp rfl ⟨_, parse_onlyId⟩
  · have hnone : ¬ ∃ request, ValidRequest textSerde (payload requestArray) request :=
      not_validRequest parse_requestArray fun _ _ _ ⟨_, hobj⟩ => by cases hobj
    rw [respond_of_accepted parse_requestArray rfl rfl]
    refine ⟨_, .call (.refl _), rfl, ?_⟩
    intro h
    have hcode := h.invalidRequest.mpr ⟨⟨_, parse_requestArray⟩, hnone⟩
    cases hcode

end VasalAgent.Sdk
