import VasalAgent.Sdk.EndToEnd

/-!
# Which requests are answered

`send_response` hands the printed response to the codec, whose encoder refuses
what is over the limit.  A response that is too long is therefore not written:
`handle_connection` returns the error and the connection is closed.  A response that is
nested too deep is written, and the client's `serde_json` refuses to read it.
-/

namespace VasalAgent.Sdk

open VasalAgent.Async
open VasalAgent.Protocol
open VasalAgent.Serde (Lawful Readable depth depthLimit nested lawful_nested depth_nested)

section Answered

variable (serde : SerdeJson) (handler : (op : HandlerOp) → op.Ans)

/-- One frame is written, and however it is cut the client reads a response from it. -/
def Answered (toServer : List Bytes) : Prop :=
  ∃ bytes payload decoded,
    (handleConnection serde (nextFrame toServer)).run handler = some (.ok bytes) ∧
    (∀ chunks, chunks.flatten = bytes →
      LengthPrefixCodec.new.decoder.feedAll [] chunks = ⟨[payload], none, []⟩) ∧
    serde.fromSlice Response.fromTree payload = .ok decoded

/-- What a frame calls for: the answer of the method it asks for, or the error it is due. -/
inductive Due (frame : Bytes) : Response → Prop
  | answer {request : Request} {op : HandlerOp} (haccepted : Accepted serde frame request)
      (hop : Invokes request op) : Due frame (op.reply request.id (handler op))
  | refused {request : Request} {e : ProtocolError} (haccepted : Accepted serde frame request)
      (hrefuses : Refuses request e) : Due frame (.failure request.id e.toObject)
  | version {request : Request} (hparsed : serde.fromSlice Request.fromTree frame = .ok request)
      (hversion : request.jsonrpc ≠ "2.0") :
      Due frame (.failure request.id (ProtocolError.invalidRequest
        ("expected jsonrpc \"2.0\", got " ++ serde.debug request.jsonrpc)).toObject)
  | unparsed {e : String} (hparsed : serde.fromSlice Request.fromTree frame = .error e) :
      Due frame (.failure (.integer 0) (ProtocolError.parseError e).toObject)

/-- The response fits into a frame, and is no deeper than the client reads. -/
structure Fits (response : Response) : Prop where
  length : (payload response.toTree).length ≤ maxMessageSize
  depth : depth response.toTree ≤ depthLimit

variable {serde handler} {frame : Bytes}

theorem exists_due (serde : SerdeJson) (handler : (op : HandlerOp) → op.Ans) (frame : Bytes) :
    ∃ response, Due serde handler frame response := by
  cases hparsed : serde.fromSlice Request.fromTree frame with
  | error e => exact ⟨_, .unparsed hparsed⟩
  | ok request =>
      by_cases hversion : request.jsonrpc = jsonrpcVersion
      · rcases dispatch_cases request with ⟨op, hop, -⟩ | ⟨e, hrefuses, -⟩
        · exact ⟨_, .answer ⟨hparsed, hversion⟩ hop⟩
        · exact ⟨_, .refused ⟨hparsed, hversion⟩ hrefuses⟩
      · exact ⟨_, .version hparsed hversion⟩

theorem Due.run {response : Response} (h : Due serde handler frame response) :
    (respond serde frame).run handler = some response := by
  cases h with
  | @answer request op haccepted hop =>
      rw [respond_eq_dispatch haccepted]
      rcases dispatch_cases request with ⟨other, hother, hdispatch⟩ | ⟨e, hrefuses, -⟩
      · obtain rfl := hop.unique hother
        rw [hdispatch]
        rfl
      · exact absurd hop (hrefuses.not_invokes op)
  | @refused request e haccepted hrefuses =>
      rw [respond_eq_dispatch haccepted]
      rcases dispatch_cases request with ⟨op, hop, -⟩ | ⟨other, hother, hdispatch⟩
      · exact absurd hop (hrefuses.not_invokes op)
      · rw [hdispatch, hrefuses.unique hother]
        rfl
  | version hparsed hversion =>
      have hversion : ¬ _ = jsonrpcVersion := hversion
      simp only [respond, hparsed, ne_eq, hversion, not_false_eq_true, if_true]
      rfl
  | unparsed hparsed =>
      simp only [respond, hparsed]
      rfl

theorem Due.unique {response other : Response} (h : Due serde handler frame response)
    (hother : Due serde handler frame other) : response = other :=
  Option.some.inj (h.run.symm.trans hother.run)

/-- What is due can be decoded, if the client's reader gets that far. -/
theorem Due.decoded {response : Response} (h : Due serde handler frame response) :
    Response.fromTree response.toTree = .ok response.received := by
  cases h with
  | answer haccepted hop =>
      exact ((answers_reply _ _ _).decoded (inRange_of_fromSlice haccepted.1)).1
  | refused haccepted hrefuses =>
      exact ((Answers.error _).decoded (inRange_of_fromSlice haccepted.1)).1
  | version hparsed hversion =>
      exact ((Answers.error _).decoded (inRange_of_fromSlice hparsed)).1
  | @unparsed e hparsed =>
      have hid : (RequestId.integer 0).InRange := (by decide : Struct.IsI64 0)
      exact ((Answers.error (.parseError e)).decoded hid).1

theorem Due.readable {handler : SidecarHandler} {response : Response}
    (h : Due serde handler.answers frame response) : Readable response.toTree := by
  have herror {id : RequestId} {e : ProtocolError} (hid : id.InRange) (hdata : e.data = none) :
      Readable (Response.failure id e.toObject).toTree :=
    readable_failure hid (by simp [hdata])
  cases h with
  | @answer request op haccepted hop =>
      exact readable_reply (inRange_of_fromSlice haccepted.1) op _ (handler.lawful op)
  | refused haccepted hrefuses =>
      exact herror (inRange_of_fromSlice haccepted.1) (by cases hrefuses <;> rfl)
  | version hparsed hversion => exact herror (inRange_of_fromSlice hparsed) rfl
  | unparsed hparsed => exact herror (by decide : Struct.IsI64 0) rfl

theorem run_handleConnection {response : Response}
    (h : (respond serde frame).run handler = some response) :
    (handleConnection serde (some (.ok frame))).run handler =
      some (sendResponse serde response) := by
  rw [handleConnection, Prog.run_bind, h, Option.bind_some]
  rfl

variable (serde) in
theorem sendResponse_of_fits {response : Response}
    (h : (serde.print response.toTree).length ≤ maxMessageSize) :
    sendResponse serde response = .ok (written serde response.toTree) := by
  have hshort : (serde.print response.toTree).length < 2 ^ 32 :=
    Nat.lt_of_le_of_lt h (by decide)
  have hencode : LengthPrefixCodec.new.encode (serde.print response.toTree) [] =
      (.ok (), written serde response.toTree) :=
    LengthPrefixCodec.encode_eq h hshort []
  rw [sendResponse, hencode]

variable (serde) in
theorem sendResponse_of_exceeds {response : Response}
    (h : maxMessageSize < (serde.print response.toTree).length) :
    sendResponse serde response =
      .error (LengthPrefixCodec.new.exceedsLimit (serde.print response.toTree).length) := by
  have hencode : LengthPrefixCodec.new.encode (serde.print response.toTree) [] =
      (.error (LengthPrefixCodec.new.exceedsLimit (serde.print response.toTree).length), []) :=
    if_pos h
  rw [sendResponse, hencode]

/-- The frame of a message that fits is read back alone. -/
theorem feedAll_written {payload : Bytes} (h : payload.length ≤ maxMessageSize)
    {chunks : List Bytes} (hchunks : chunks.flatten = LengthPrefixCodec.frameBytes payload) :
    LengthPrefixCodec.new.decoder.feedAll [] chunks = ⟨[payload], none, []⟩ := by
  have hshort : payload.length < 2 ^ 32 := Nat.lt_of_le_of_lt h (by decide)
  have hwhole : LengthPrefixCodec.new.decoder.drain
      ([payload].flatMap LengthPrefixCodec.frameBytes) = ⟨[payload], none, []⟩ :=
    Stream.Decoder.drain_encoded rfl fun data hdata rest => by
      rw [List.mem_singleton.mp hdata]
      exact LengthPrefixCodec.decode_frameBytes h hshort rest
  have hagree := LengthPrefixCodec.new.decoder_incremental.feedAll_agree_drain chunks
  rw [hchunks, ← List.flatMap_singleton LengthPrefixCodec.frameBytes, hwhole] at hagree
  exact hagree.eq rfl

section Texts

variable {wording : Wording} {handler : SidecarHandler} {toServer : List Bytes}
  {response : Response} (hframe : nextFrame toServer = some (.ok frame))
  (hdue : Due (jsonSerde wording) handler.answers frame response)
include hframe hdue

theorem fits_of_answered (h : Answered (jsonSerde wording) handler.answers toServer) :
    Fits response := by
  obtain ⟨bytes, payload, decoded, hbytes, hfeed, hdecoded⟩ := h
  rw [hframe, run_handleConnection hdue.run, Option.some.injEq] at hbytes
  by_cases hlong : maxMessageSize < (Sdk.payload response.toTree).length
  · rw [sendResponse_of_exceeds (jsonSerde wording) hlong] at hbytes
    cases hbytes
  have hfits := Nat.le_of_not_lt hlong
  rw [sendResponse_of_fits (jsonSerde wording) hfits, Except.ok.injEq] at hbytes
  have hpayload : payload = Sdk.payload response.toTree := by
    have hread := hfeed [bytes] List.flatten_singleton
    rw [feedAll_written hfits (hbytes ▸ List.flatten_singleton)] at hread
    cases hread
    rfl
  refine ⟨hfits, ?_⟩
  by_contra hdeep
  simp only [SerdeJson.fromSlice, hpayload, parse_jsonSerde wording hdue.readable, if_neg hdeep,
    reduceCtorEq] at hdecoded

theorem answered_of_fits (h : Fits response) :
    Answered (jsonSerde wording) handler.answers toServer := by
  refine ⟨written (jsonSerde wording) response.toTree, payload response.toTree,
    response.received, ?_, fun chunks hchunks => feedAll_written h.length hchunks, ?_⟩
  · rw [hframe, run_handleConnection hdue.run,
      sendResponse_of_fits (jsonSerde wording) h.length]
  · simp only [SerdeJson.fromSlice, parse_jsonSerde wording hdue.readable, if_pos h.depth,
      hdue.decoded]

end Texts

end Answered

/-! ## Answers that are not read -/

/-- A handler that completes every submission and reports the metadata. -/
def reporting (stdout : String) (metadata : Json) (h : Lawful metadata) : SidecarHandler where
  answers
    | .health => ⟨.ok, none, none, some metadata⟩
    | .submit _ => .ok (.completed stdout "" false)
    | .status _ => .ok .running
    | .cancel _ => .ok ⟨false⟩
  lawful op := by
    cases op with
    | health =>
        rintro value ⟨⟩
        exact h
    | _ => simp [HandlerOp.value?]

section Oversized

theorem length_quote (text : String) :
    text.toList.length + 2 ≤ (Json.quote text).toList.length := by
  have hescaped := Serde.length_escaped text.toList
  have hmark : "\"".toList.length = 1 := by simp
  simp only [Json.quote, String.toList_append, String.toList_join, List.flatMap_map,
    List.length_append, hmark]
  omega

theorem length_submitted (id : RequestId) (stdout : String) :
    stdout.toList.length < (payload (Response.success id
      (SubmitResponse.completed stdout "" false).toValue).toTree).length := by
  have hquote := length_quote stdout
  have htree : SubmitResponse.toValue (.completed stdout "" false) =
      .obj [("status", .str "completed"), ("stderr", .str ""), ("stdout", .str stdout),
        ("truncated", .bool false)] := by
    simp only [SubmitResponse.toValue, Json.ofFields, List.foldl_cons, List.foldl_nil,
      Json.insertKey, String.reduceEq, String.reduceLT, reduceIte]
  refine Nat.lt_of_lt_of_le ?_ (Text.length_le_toUTF8 _)
  simp only [htree, Response.toTree, Response.success, Struct.optionalField, Option.map_none,
    List.append_nil, List.cons_append, List.nil_append, Json.render, Json.renderFields,
    String.toList_append, List.length_append]
  omega

theorem invokes_submit {request : Request} {params : Json} (hmethod : request.method = "submit")
    (hparams : request.params.getD .null = params) : Invokes request (.submit params) :=
  hparams ▸ .submit hmethod

theorem due_submit {handler : SidecarHandler} {wording : Wording} {params : Json}
    (h : Transmits (jsonSerde wording) (submitRequest params).toTree) :
    Due (jsonSerde wording) handler.answers (payload (submitRequest params).toTree)
      (submitResponse handler.answers params) := by
  have hid : (submitRequest params).id.InRange := (by decide : Struct.IsI64 1)
  have hslice := h.fromSlice (Request.fromTree_toTree hid)
  exact .answer ⟨hslice, rfl⟩ (invokes_submit rfl (getD_nonNull params))

theorem unanswered_of_long {stdout : String} (metadata : Json) (hmetadata : Lawful metadata)
    (h : maxMessageSize ≤ stdout.toList.length) :
    ¬ Answered textSerde (reporting stdout metadata hmetadata).answers
      (cut (submitRequest .null).toTree) := by
  intro hanswered
  have hfits := fits_of_answered
    (transmits_sampleRequest.nextFrame (flatten_cut (submitRequest .null).toTree))
    (due_submit transmits_sampleRequest) hanswered
  exact Nat.not_le_of_lt (Nat.lt_of_le_of_lt h (length_submitted _ stdout)) hfits.length

end Oversized

section Deep

def healthRequest : Request := .new "health" none (.integer 1)

theorem transmits_healthRequest : Transmits textSerde healthRequest.toTree := by
  have hid : healthRequest.id.InRange := (by decide : Struct.IsI64 1)
  exact transmits_of_readable _ (readable_request hid (by simp [healthRequest, Request.new]))
    (by decide) (by decide +kernel)

theorem due_health (handler : SidecarHandler) :
    Due textSerde handler.answers (payload healthRequest.toTree)
      (.success (.integer 1) (handler.answers .health).toValue) :=
  .answer ⟨transmits_healthRequest.fromSlice
    (Request.fromTree_toTree (by decide : Struct.IsI64 1)), rfl⟩ (.health rfl)

/-- The metadata stands in two objects of the response. -/
theorem unanswered_of_deep (stdout : String) {n : Nat} (h : depthLimit - 2 < n) :
    ¬ Answered textSerde (reporting stdout (nested n) (lawful_nested n)).answers
      (cut healthRequest.toTree) := by
  intro hanswered
  have hfits := fits_of_answered (transmits_healthRequest.nextFrame (flatten_cut _))
    (due_health _) hanswered
  have htree : Json.ofFields [("status", .str "ok"), ("metadata", nested n)] =
      .obj [("metadata", nested n), ("status", .str "ok")] := by
    simp only [Json.ofFields, List.foldl_cons, List.foldl_nil, Json.insertKey, String.reduceEq,
      String.reduceLT, reduceIte]
  have hdepth : depth (Response.success (.integer 1)
      (Json.ofFields [("status", .str "ok"), ("metadata", nested n)])).toTree ≤ depthLimit :=
    hfits.depth
  simp only [htree, Response.toTree, Response.success, Struct.optionalField, Option.map_none,
    List.append_nil, List.cons_append, List.nil_append, depth, Serde.depthFields, depth_nested,
    RequestId.toTree] at hdepth
  omega

end Deep

end VasalAgent.Sdk
