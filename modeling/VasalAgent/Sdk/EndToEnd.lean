import VasalAgent.Sdk.Texts
import VasalAgent.Task.ChainLaws
import VasalAgent.Task.Internal

/-!
# A submission from end to end

`sidecar::execute` on one side of a socket and `handle_connection` on the other.
The bytes of each message cross the socket in any chunks; that printing and
parsing of JSON text keep the two messages is assumed of the `SerdeJson`.  The texts of
`serde_json` do so up to a depth (`transmits_submitRequest`, `transmits_submitResponse`).
-/

namespace VasalAgent.Sdk

open VasalAgent.Async
open VasalAgent.Protocol
open VasalAgent.Serde (Lawful Readable depth depthLimit)
open VasalAgent.Task

/-! ## Messages across a socket -/

section Wire

variable (serde : SerdeJson)

/-- The tree survives its text, and the text fits into a frame. -/
structure Transmits (tree : Json) : Prop where
  faithful : serde.parse (serde.print tree) = .ok tree
  fits : (serde.print tree).length ≤ maxMessageSize

/-- The bytes that `framed.send` writes for a message. -/
def written (tree : Json) : Bytes := LengthPrefixCodec.frameBytes (serde.print tree)

/-- `framed.next()` on a stream that ends after the chunks. -/
def nextFrame (chunks : List Bytes) : Option (Except String Bytes) :=
  LengthPrefixCodec.new.decoder.next "bytes remaining on stream" [] chunks

/-- The client's read of a response. -/
def readResponse (chunks : List Bytes) : FrameAnswer :=
  match nextFrame chunks with
  | none => none
  | some (.error e) => some (.error e)
  | some (.ok frame) => some (.ok (serde.fromSlice Response.fromTree frame))

variable {serde} {tree : Json}

theorem Transmits.short (h : Transmits serde tree) : (serde.print tree).length < 2 ^ 32 :=
  Nat.lt_of_le_of_lt h.fits (by decide)

theorem Transmits.encode (h : Transmits serde tree) :
    LengthPrefixCodec.new.encode (serde.print tree) [] = (.ok (), written serde tree) :=
  LengthPrefixCodec.encode_eq h.fits h.short []

theorem Transmits.nextFrame (h : Transmits serde tree) {chunks : List Bytes}
    (hchunks : chunks.flatten = written serde tree) :
    nextFrame chunks = some (.ok (serde.print tree)) := by
  have hdecode : LengthPrefixCodec.new.decode (written serde tree ++ []) =
      (.ok (some (serde.print tree)), []) :=
    LengthPrefixCodec.decode_frameBytes h.fits h.short []
  rw [List.append_nil, ← hchunks] at hdecode
  exact LengthPrefixCodec.new.decoder_incremental.next_eq _ hdecode

theorem Transmits.fromSlice {α : Type} {fromTree : Json → Except StructError α} {value : α}
    (h : Transmits serde tree) (hdecode : fromTree tree = .ok value) :
    serde.fromSlice fromTree (serde.print tree) = .ok value := by
  simp only [SerdeJson.fromSlice, h.faithful, hdecode]

end Wire

/-! ## The server's side -/

section Serve

variable {serde : SerdeJson} (handler : (op : HandlerOp) → op.Ans) {params : Json}

def submitRequest (params : Json) : Request := .new "submit" (some params) (.integer 1)

/-- The response of a server to a submission. -/
def submitResponse (handler : (op : HandlerOp) → op.Ans) (params : Json) : Response :=
  answer (.integer 1) SubmitResponse.toValue (handler (.submit params))

/-- `null` is written as a field and read as no field, and handed on as `null`. -/
theorem getD_nonNull (params : Json) :
    ((some params).bind Struct.nonNull).getD .null = params := by
  cases params <;> rfl

theorem dispatch_submit {request : Request} (hmethod : request.method = "submit")
    (hparams : request.params.getD .null = params) :
    dispatch request = .call (S := HandlerSig) (.submit params)
      fun ans => .ret (answer request.id SubmitResponse.toValue ans) := by
  subst hparams
  simp only [dispatch, hmethod]
  rfl

theorem respond_submit (h : Transmits serde (submitRequest params).toTree) :
    respond serde (serde.print (submitRequest params).toTree) =
      .call (S := HandlerSig) (.submit params)
        fun ans => .ret (answer (.integer 1) SubmitResponse.toValue ans) := by
  have hid : (submitRequest params).id.InRange := (by decide : Struct.IsI64 1)
  have hversion : (submitRequest params).jsonrpc = jsonrpcVersion := rfl
  have hslice := h.fromSlice (Request.fromTree_toTree hid)
  simp only [respond, hslice, hversion, ne_eq, not_true_eq_false, if_false]
  exact dispatch_submit rfl (getD_nonNull params)

variable (hrequest : Transmits serde (submitRequest params).toTree)
  (hresponse : Transmits serde (submitResponse handler params).toTree)
  {chunks : List Bytes} (hchunks : chunks.flatten = written serde (submitRequest params).toTree)
include hrequest hchunks

/-- The handler is called once, with the parameters that were sent. -/
theorem trace_submit :
    (handleConnection serde (nextFrame chunks)).trace handler =
      [⟨.submit params, handler (.submit params)⟩] := by
  rw [hrequest.nextFrame hchunks, handleConnection, respond_submit hrequest]
  rfl

include hresponse in
theorem run_submit :
    (handleConnection serde (nextFrame chunks)).run handler =
      some (.ok (written serde (submitResponse handler params).toTree)) := by
  rw [hrequest.nextFrame hchunks, handleConnection, respond_submit hrequest]
  change some (sendResponse serde (submitResponse handler params)) = _
  rw [sendResponse, hresponse.encode]

end Serve

/-! ## Submissions as texts -/

section Texts

variable (wording : Wording) {params : Json}

theorem transmits_of_readable {tree : Json} (h : Readable tree) (hdepth : depth tree ≤ depthLimit)
    (hfits : (payload tree).length ≤ maxMessageSize) : Transmits (jsonSerde wording) tree :=
  ⟨(parse_jsonSerde wording h).trans (if_pos hdepth), hfits⟩

theorem transmits_submitRequest (hlawful : Lawful params) (hdepth : depth params < depthLimit)
    (hfits : (payload (submitRequest params).toTree).length ≤ maxMessageSize) :
    Transmits (jsonSerde wording) (submitRequest params).toTree := by
  have hid : (submitRequest params).id.InRange := (by decide : Struct.IsI64 1)
  refine transmits_of_readable wording (readable_request hid ?_)
    (Nat.le_trans (depth_request_le (n := depth params) ?_) hdepth) hfits
  · rintro value ⟨⟩
    exact hlawful.readable
  · rintro value ⟨⟩
    exact Nat.le_refl _

/-- A result is flat, whatever the parameters were. -/
theorem transmits_submitResponse {handler : (op : HandlerOp) → op.Ans} {result : SubmitResponse}
    (hresult : handler (.submit params) = .ok result)
    (hfits : (payload (submitResponse handler params).toTree).length ≤ maxMessageSize) :
    Transmits (jsonSerde wording) (submitResponse handler params).toTree := by
  have hresponse : submitResponse handler params = .success (.integer 1) result.toValue := by
    rw [submitResponse, hresult]
    rfl
  rw [hresponse] at hfits ⊢
  exact transmits_of_readable wording
    (readable_success (by decide : Struct.IsI64 1) (flat_submit result).1.readable)
    (Nat.le_trans (depth_success_le (flat_submit result).2) (by decide)) hfits

end Texts

/-! ## The client's side -/

section Client

variable {serde : SerdeJson} {oracle : (op : ExecOp) → op.Ans} {origin : Origin}
  {socketPath : String} {params : Json} {handler : (op : HandlerOp) → op.Ans}

/-- The calls of the client for a submission, when the socket works. -/
structure Connected (serde : SerdeJson) (oracle : (op : ExecOp) → op.Ans) (origin : Origin)
    (socketPath : String) (params : Json) (chunks : List Bytes) : Prop where
  connects : oracle (.connect origin .submit socketPath) = .ok ()
  sends : oracle (.sendFrame origin .submit (submitRequest params)) = .ok ()
  reads : oracle (.nextFrame origin .submit) = readResponse serde chunks

theorem inRange_submitResponse (handler : (op : HandlerOp) → op.Ans) (params : Json) :
    (submitResponse handler params).InRange := by
  unfold submitResponse answer
  split
  · exact ⟨(by decide : Struct.IsI64 1), fun error herror => by cases herror⟩
  next e _ =>
      refine ⟨(by decide : Struct.IsI64 1), fun error herror => ?_⟩
      cases herror
      exact e.isI32

variable {chunks : List Bytes}

theorem readResponse_written {response : Response} (h : Transmits serde response.toTree)
    (hrange : response.InRange) (hchunks : chunks.flatten = written serde response.toTree) :
    readResponse serde chunks = some (.ok (.ok response.received)) := by
  rw [readResponse, h.nextFrame hchunks]
  dsimp only
  rw [h.fromSlice (Response.fromTree_toTree hrange)]

theorem run_callRaw (hresponse : Transmits serde (submitResponse handler params).toTree)
    (hchunks : chunks.flatten = written serde (submitResponse handler params).toTree)
    (h : Connected serde oracle origin socketPath params chunks) :
    (Sidecar.callRaw origin .submit socketPath "submit" (some params)).run oracle =
      some (.ok (submitResponse handler params).received) := by
  have hread : oracle (.nextFrame origin .submit) =
      some (.ok (.ok (submitResponse handler params).received)) :=
    h.reads.trans (readResponse_written hresponse (inRange_submitResponse handler params) hchunks)
  have hconnects : (await (.connect origin .submit socketPath)).run oracle = some (.ok ()) :=
    congrArg some h.connects
  have hsends : (await (.sendFrame origin .submit (.new "submit" (some params)
      (.integer 1)))).run oracle = some (.ok ()) := congrArg some h.sends
  have hnext : (await (.nextFrame origin .submit)).run oracle =
      some (some (.ok (.ok (submitResponse handler params).received))) := congrArg some hread
  rw [Sidecar.callRaw, Prog.run_bind, hconnects, Option.bind_some]
  dsimp only
  rw [Prog.run_bind, hsends, Option.bind_some]
  dsimp only
  rw [Prog.run_bind, hnext]
  rfl

/-! ## What the answer makes of the task -/

variable (origin : Origin) (taskId : Uuid) (socketPath : String) (timeoutMs : Nat)
  (cancel : Token)

def timedResult (status : TaskResultStatus) (stdout stderr : String) (error : Option String) :
    Prog ExecSig TaskResult := do
  let time ← elapsed origin .result
  makeResult origin taskId status none stdout stderr time error

/-- What `execute` goes on with. -/
def outcome : Except ProtocolError SubmitResponse → Prog ExecSig TaskResult
  | .ok (.completed stdout stderr _) => timedResult origin taskId .success stdout stderr none
  | .ok (.failed error stderr) => timedResult origin taskId .failed "" stderr (some error)
  | .ok (.accepted id) =>
      Sidecar.pollUntilComplete origin taskId id socketPath timeoutMs cancel
  | .error e =>
      timedResult origin taskId .failed "" ("[" ++ toString e.code ++ "] " ++ e.message)
        (some e.message)

theorem submitted_eq (handler : (op : HandlerOp) → op.Ans) (params : Json) :
    Sidecar.submitted origin taskId socketPath timeoutMs cancel
        (submitResponse handler params).received =
      outcome origin taskId socketPath timeoutMs cancel (handler (.submit params)) := by
  unfold submitResponse
  rcases handler (.submit params) with e | response
  · rfl
  · have hresult :
        ((answer (.integer 1) SubmitResponse.toValue (.ok response)).received).result.getD .null =
          response.toValue := by
      cases response <;> rfl
    unfold Sidecar.submitted
    simp only [hresult, SubmitResponse.fromValue_toValue]
    cases response <;> rfl

/-- The calls of the polling of `id`: every request is about `id`. -/
def asks (id : String) : ExecOp → Prop
  | .sendFrame _ (.status _) request =>
      request = .new "status" (some (taskIdParams id)) (.integer 1)
  | .sendFrame _ .cancel request =>
      request = .new "cancel" (some (taskIdParams id)) (.integer 1)
  | .sendFrame _ .submit _ => False
  | _ => True

theorem asks_polling (origin : Origin) (id socketPath : String) :
    AllowsPolling (asks id) origin id socketPath where
  elapsed _ := trivial
  nowMs := trivial
  select _ _ _ := trivial
  status _ := ⟨trivial, rfl, trivial⟩
  cancel := ⟨trivial, rfl, trivial⟩

def statusRequest (id : String) : Request := .new "status" (some (taskIdParams id)) (.integer 1)

theorem trace_callRaw {α : Type} {site : CallSite} (method : String) (params : Option Json)
    (hconnect : oracle (.connect origin site socketPath) = .ok ())
    (rest : Except Error Response → Prog ExecSig α) :
    ∃ sent later, (Sidecar.callRaw origin site socketPath method params >>= rest).trace oracle =
      ⟨.connect origin site socketPath, .ok ()⟩ ::
        ⟨.sendFrame origin site (.new method params (.integer 1)), sent⟩ :: later := by
  have hconnects : (await (.connect origin site socketPath)).run oracle = some (.ok ()) :=
    congrArg some hconnect
  have hevent : (await (.connect origin site socketPath)).trace oracle =
      [⟨.connect origin site socketPath, .ok ()⟩] := by
    rw [← hconnect]
    rfl
  rw [Sidecar.callRaw, Prog.bind_assoc, Prog.trace_bind (S := ExecSig) oracle hconnects,
    hevent]
  exact ⟨_, _, rfl⟩

theorem pollUntilComplete_eq (id : String) :
    ∃ stopped rest, Sidecar.pollUntilComplete origin taskId id socketPath timeoutMs cancel =
      .call (S := ExecSig) (.elapsed origin (.poll 0)) fun time =>
        if timeoutMs * nanosPerMilli ≤ time then stopped
        else Sidecar.callRaw origin (.status 0) socketPath "status"
          (some (taskIdParams id)) >>= rest := ⟨_, _, rfl⟩

/-- A polling that has time left begins with a `status` request about `id`. -/
theorem trace_pollUntilComplete (id : String)
    (htime : ¬ timeoutMs * nanosPerMilli ≤ oracle (.elapsed origin (.poll 0)))
    (hconnect : oracle (.connect origin (.status 0) socketPath) = .ok ()) :
    ∃ time sent later,
      (Sidecar.pollUntilComplete origin taskId id socketPath timeoutMs cancel).trace oracle =
        ⟨.elapsed origin (.poll 0), time⟩ ::
          ⟨.connect origin (.status 0) socketPath, .ok ()⟩ ::
          ⟨.sendFrame origin (.status 0) (statusRequest id), sent⟩ :: later := by
  obtain ⟨stopped, rest, hpoll⟩ :=
    pollUntilComplete_eq origin taskId socketPath timeoutMs cancel id
  obtain ⟨sent, later, hcall⟩ :=
    trace_callRaw origin socketPath "status" (some (taskIdParams id)) hconnect rest
  rw [hpoll, Prog.trace_call, if_neg htime, hcall]
  exact ⟨_, sent, later, rfl⟩

end Client

/-! ## The whole way -/

section Submission

/-- The result that is returned, its times apart. -/
def Returns (oracle : (op : ExecOp) → op.Ans) (program : Prog ExecSig TaskResult)
    (status : TaskResultStatus) (stdout stderr : String) (error : Option String) : Prop :=
  ∃ result, program.run oracle = some result ∧ result.status = status ∧
    result.stdout = stdout ∧ result.stderr = stderr ∧ result.error = error

/-- The program comes to polling the sidecar for `id`, and ends as that does. -/
structure StartsPolling (oracle : (op : ExecOp) → op.Ans) (origin : Origin)
    (id socketPath : String) (timeoutMs : Nat) (program polling : Prog ExecSig TaskResult) :
    Prop where
  run : program.run oracle = polling.run oracle
  trace : ∃ before, program.trace oracle = before ++ polling.trace oracle
  requests : ∀ event ∈ polling.trace oracle, asks id event.1
  first : ¬ timeoutMs * nanosPerMilli ≤ oracle (.elapsed origin (.poll 0)) →
    oracle (.connect origin (.status 0) socketPath) = .ok () →
    ∃ time sent later, polling.trace oracle =
      ⟨.elapsed origin (.poll 0), time⟩ ::
        ⟨.connect origin (.status 0) socketPath, .ok ()⟩ ::
        ⟨.sendFrame origin (.status 0) (statusRequest id), sent⟩ :: later

/-- What the answer of the handler makes of the task. -/
def Determines (oracle : (op : ExecOp) → op.Ans) (origin : Origin) (taskId : Uuid)
    (socketPath : String) (timeoutMs : Nat) (cancel : Token)
    (program : Prog ExecSig TaskResult) : Except ProtocolError SubmitResponse → Prop
  | .ok (.completed stdout stderr _) => Returns oracle program .success stdout stderr none
  | .ok (.failed error stderr) => Returns oracle program .failed "" stderr (some error)
  | .error e =>
      Returns oracle program .failed "" ("[" ++ toString e.code ++ "] " ++ e.message)
        (some e.message)
  | .ok (.accepted id) =>
      StartsPolling oracle origin id socketPath timeoutMs program
        (Sidecar.pollUntilComplete origin taskId id socketPath timeoutMs cancel)

theorem determines_of_outcome {oracle : (op : ExecOp) → op.Ans} {origin : Origin}
    {taskId : Uuid} {socketPath : String} {timeoutMs : Nat} {cancel : Token}
    {program : Prog ExecSig TaskResult} {answer : Except ProtocolError SubmitResponse}
    (hrun : program.run oracle =
      (outcome origin taskId socketPath timeoutMs cancel answer).run oracle)
    (htrace : ∃ before, program.trace oracle = before ++
      (outcome origin taskId socketPath timeoutMs cancel answer).trace oracle) :
    Determines oracle origin taskId socketPath timeoutMs cancel program answer := by
  rcases answer with e | ⟨stdout, stderr, truncated⟩ | ⟨error, stderr⟩ | id
  · exact ⟨_, hrun, rfl, rfl, rfl, rfl⟩
  · exact ⟨_, hrun, rfl, rfl, rfl, rfl⟩
  · exact ⟨_, hrun, rfl, rfl, rfl, rfl⟩
  · refine ⟨hrun, htrace, ?_, trace_pollUntilComplete origin taskId _ timeoutMs cancel id⟩
    exact ((asks_polling origin id socketPath).uses_pollFrom ..).trace oracle

variable (serde : SerdeJson) (handler : (op : HandlerOp) → op.Ans) (origin : Origin)
  (taskId : Uuid) (target : String) (payload : Json) (credRefs : List CredentialRef)
  (resolvedCreds : ResolvedCredentials) (timeoutMs : Nat) (socketDir : String)
  (cancel : Token)

/--
A submission whose two messages can be transmitted: the server hands the
parameters to the handler as they were sent, and the handler's answer determines
what `execute` returns, for every way the bytes are cut.
-/
theorem execute_submit
    (hrequest : Transmits serde
      (submitRequest (Sidecar.submitParams payload credRefs resolvedCreds)).toTree)
    (hresponse : Transmits serde (submitResponse handler
      (Sidecar.submitParams payload credRefs resolvedCreds)).toTree)
    (toServer : List Bytes)
    (hsent : LengthPrefixCodec.new.encode (serde.print (submitRequest
      (Sidecar.submitParams payload credRefs resolvedCreds)).toTree) [] =
        (.ok (), toServer.flatten)) :
    (handleConnection serde (nextFrame toServer)).trace handler =
        [⟨.submit (Sidecar.submitParams payload credRefs resolvedCreds),
          handler (.submit (Sidecar.submitParams payload credRefs resolvedCreds))⟩] ∧
      ∃ bytes, (handleConnection serde (nextFrame toServer)).run handler = some (.ok bytes) ∧
        ∀ oracle toClient, toClient.flatten = bytes →
          Connected serde oracle origin (Sidecar.joinPath socketDir (target ++ ".sock"))
            (Sidecar.submitParams payload credRefs resolvedCreds) toClient →
          Determines oracle origin taskId (Sidecar.joinPath socketDir (target ++ ".sock"))
            timeoutMs cancel
            (Sidecar.execute origin taskId target "submit" payload credRefs resolvedCreds
              timeoutMs socketDir cancel)
            (handler (.submit (Sidecar.submitParams payload credRefs resolvedCreds))) := by
  have hchunks : toServer.flatten = written serde (submitRequest
      (Sidecar.submitParams payload credRefs resolvedCreds)).toTree := by
    rw [hrequest.encode] at hsent
    exact (congrArg Prod.snd hsent).symm
  refine ⟨trace_submit handler hrequest hchunks, _,
    run_submit handler hrequest hresponse hchunks, fun oracle toClient hclient hconnected => ?_⟩
  have hcall := run_callRaw hresponse hclient hconnected
  apply determines_of_outcome
  · rw [Sidecar.execute, Prog.run_bind, hcall, Option.bind_some]
    dsimp only
    rw [submitted_eq]
  · rw [Sidecar.execute, Prog.trace_bind (S := ExecSig) oracle hcall]
    dsimp only
    rw [submitted_eq]
    exact ⟨_, rfl⟩

end Submission

/-! ## A payload that is null -/

def sampleHandler : (op : HandlerOp) → op.Ans
  | .health => ⟨.ok, none, none, none⟩
  | .submit _ => .ok (.completed "done" "" false)
  | .status _ => .ok .running
  | .cancel _ => .ok ⟨false⟩

/-- The bytes of a message, cut inside its header. -/
def cut (tree : Json) : List Bytes :=
  [(written textSerde tree).take 3, (written textSerde tree).drop 3]

theorem flatten_cut (tree : Json) : (cut tree).flatten = written textSerde tree := by
  rw [cut, List.flatten_cons, List.flatten_singleton, List.take_append_drop]

def sampleClient : (op : ExecOp) → op.Ans
  | .connect .. => .ok ()
  | .sendFrame .. => .ok ()
  | .nextFrame _ .submit => readResponse textSerde (cut (submitResponse sampleHandler .null).toTree)
  | op => (sampleWorld exitsZero none).oracle op

theorem transmits_sampleRequest : Transmits textSerde (submitRequest .null).toTree :=
  transmits_submitRequest _ .null (by decide) (by decide +kernel)

theorem transmits_sampleResponse :
    Transmits textSerde (submitResponse sampleHandler .null).toTree :=
  transmits_submitResponse _ rfl (by decide +kernel)

theorem execute_submit_null :
    (handleConnection textSerde (nextFrame (cut (submitRequest .null).toTree))).trace
          sampleHandler =
        [⟨.submit .null, .ok (.completed "done" "" false)⟩] ∧
      Returns sampleClient
        (Sidecar.execute .exec ⟨1⟩ "db" "submit" .null [] [] 1000 "/run" (.root 1))
        .success "done" "" none := by
  have hsent : LengthPrefixCodec.new.encode (textSerde.print (submitRequest .null).toTree) [] =
      (.ok (), (cut (submitRequest .null).toTree).flatten) := by
    rw [flatten_cut, transmits_sampleRequest.encode]
  obtain ⟨htrace, bytes, hrun, hdetermines⟩ :=
    execute_submit textSerde sampleHandler .exec ⟨1⟩ "db" .null [] [] 1000 "/run" (.root 1)
      transmits_sampleRequest transmits_sampleResponse (cut (submitRequest .null).toTree) hsent
  refine ⟨htrace, hdetermines sampleClient (cut (submitResponse sampleHandler .null).toTree) ?_
    ⟨rfl, rfl, rfl⟩⟩
  have hanswer := run_submit sampleHandler transmits_sampleRequest transmits_sampleResponse
    (flatten_cut (submitRequest .null).toTree)
  rw [hrun, Option.some.injEq, Except.ok.injEq] at hanswer
  rw [flatten_cut, hanswer]

end VasalAgent.Sdk
