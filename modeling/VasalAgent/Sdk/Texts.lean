import VasalAgent.Sdk.Server
import VasalAgent.Serde.Record
import VasalAgent.Serde.Text

/-!
# The texts of messages

`serde_json` between trees and bytes: compact JSON is written, and a text is read as
`Serde.parse` reads it, to the depth that the library allows.  Only the wording of its
errors is left open.
-/

namespace VasalAgent.Sdk

open VasalAgent.Protocol
open VasalAgent.Protocol.Struct (IsI32 IsI64 optionalField)
open VasalAgent.Serde (Lawful Readable depth depthLimit depthFields_le numberFits lawful_ofFields
  depth_ofFields_le)

def payload (tree : Json) : Bytes := tree.render.toUTF8.data.toList

structure Wording where
  /-- The message for bytes that are no JSON, or JSON that is nested too deep. -/
  unparsed : Bytes → String
  locate : Bytes → StructError → String
  debug : String → String

/-- Compact JSON, and the reader of JSON texts. -/
def jsonSerde (wording : Wording) : SerdeJson where
  parse bytes :=
    match (String.fromUTF8? ⟨bytes.toArray⟩).bind Serde.parse with
    | some tree => .ok tree
    | none => .error (wording.unparsed bytes)
  print := payload
  locate := wording.locate
  debug := wording.debug

def plainWording : Wording where
  unparsed _ := "expected value"
  locate _ error := error.toString
  debug := Json.quote

abbrev textSerde : SerdeJson := jsonSerde plainWording

theorem parse_jsonSerde (wording : Wording) {tree : Json} (h : Readable tree) :
    (jsonSerde wording).parse (payload tree) =
      if depth tree ≤ depthLimit then .ok tree else .error (wording.unparsed (payload tree)) := by
  simp only [jsonSerde, payload, Text.fromUTF8?_toUTF8, Option.bind_some, h.parse]
  by_cases hdepth : depth tree ≤ depthLimit <;> simp [hdepth]

theorem parse_textSerde {tree : Json} (h : Readable tree) (hdepth : depth tree ≤ depthLimit) :
    textSerde.parse (payload tree) = .ok tree :=
  (parse_jsonSerde _ h).trans (if_pos hdepth)

/-! ## Messages that can be read -/

theorem numberFits_of_isI64 {value : Int} (h : IsI64 value) : numberFits (.int value) = true := by
  exact Serde.numberFits_int h.1 (Int.lt_trans h.2 (by decide))

theorem numberFits_of_isI32 {value : Int} (h : IsI32 value) : numberFits (.int value) = true := by
  refine numberFits_of_isI64 ⟨?_, ?_⟩
  · exact Int.le_trans (by decide) h.1
  · exact Int.lt_trans h.2 (by decide)

theorem readable_id {id : RequestId} (h : id.InRange) : Readable id.toTree := by
  cases id with
  | integer value => exact .num (numberFits_of_isI64 h)
  | string value => exact .str value

theorem depth_id (id : RequestId) : depth id.toTree = 0 := by
  cases id <;> rfl

theorem forall_mem_optionalField {P : String × Json → Prop} {name : String} {value : Option Json} :
    (∀ field ∈ optionalField name value, P field) ↔ ∀ json ∈ value, P (name, json) := by
  cases value <;> simp [optionalField]

theorem readable_request {request : Request} (hid : request.id.InRange)
    (hparams : ∀ value ∈ request.params, Readable value) : Readable request.toTree := by
  refine .obj ?_
  simp only [List.forall_mem_append, List.forall_mem_cons, forall_mem_optionalField]
  exact ⟨⟨⟨.str _, .str _, by simp⟩, hparams⟩, readable_id hid, by simp⟩

theorem depth_request_le {request : Request} {n : Nat}
    (h : ∀ value ∈ request.params, depth value ≤ n) : depth request.toTree ≤ n + 1 := by
  refine Nat.succ_le_succ (depthFields_le.mpr ?_)
  simp only [List.forall_mem_append, List.forall_mem_cons, forall_mem_optionalField]
  exact ⟨⟨⟨Nat.zero_le n, Nat.zero_le n, by simp⟩, h⟩, depth_id _ ▸ Nat.zero_le n, by simp⟩

theorem readable_error {error : ErrorObject} (hcode : IsI32 error.code)
    (hdata : ∀ value ∈ error.data, Readable value) : Readable error.toTree := by
  refine .obj ?_
  simp only [List.forall_mem_append, List.forall_mem_cons, forall_mem_optionalField]
  exact ⟨⟨.num (numberFits_of_isI32 hcode), .str _, by simp⟩, hdata⟩

theorem readable_success {id : RequestId} {result : Json} (hid : id.InRange)
    (hresult : Readable result) : Readable (Response.success id result).toTree := by
  refine .obj ?_
  simp only [Response.success, optionalField, Option.map_none, List.append_nil, List.cons_append,
    List.nil_append, List.forall_mem_cons]
  exact ⟨.str _, hresult, readable_id hid, by simp⟩

theorem readable_failure {id : RequestId} {e : ProtocolError} (hid : id.InRange)
    (hdata : ∀ value ∈ e.data, Readable value) :
    Readable (Response.failure id e.toObject).toTree := by
  refine .obj ?_
  simp only [Response.failure, optionalField, Option.map_some, List.append_nil, List.cons_append,
    List.nil_append, List.forall_mem_cons]
  exact ⟨.str _, readable_error e.isI32 hdata, readable_id hid, by simp⟩

/-! ## Answers of a handler -/

/-- An object of texts and flags, as the answers of a handler are. -/
def Flat (value : Json) : Prop := Lawful value ∧ depth value ≤ 1

theorem flat_ofFields {fields : List (String × Json)}
    (h : ∀ field ∈ fields, (∃ text, field.2 = .str text) ∨ ∃ flag, field.2 = .bool flag) :
    Flat (Json.ofFields fields) := by
  refine ⟨lawful_ofFields fun field hfield => ?_, depth_ofFields_le fun field hfield => ?_⟩
  · rcases h field hfield with ⟨text, htext⟩ | ⟨flag, hflag⟩
    · exact htext ▸ .str text
    · exact hflag ▸ .bool flag
  · rcases h field hfield with ⟨text, htext⟩ | ⟨flag, hflag⟩
    · exact htext ▸ Nat.le_refl 0
    · exact hflag ▸ Nat.le_refl 0

theorem flat_submit (response : SubmitResponse) : Flat response.toValue := by
  cases response <;> exact flat_ofFields (by simp)

theorem flat_status (response : StatusResponse) : Flat response.toValue := by
  cases response <;> exact flat_ofFields (by simp)

theorem flat_cancel (response : CancelResponse) : Flat response.toValue :=
  flat_ofFields (by simp)

theorem depth_success_le {id : RequestId} {result : Json} {n : Nat} (h : depth result ≤ n) :
    depth (Response.success id result).toTree ≤ n + 1 := by
  refine Nat.succ_le_succ (depthFields_le.mpr ?_)
  simp only [Response.success, optionalField, Option.map_none, List.append_nil, List.cons_append,
    List.nil_append, List.forall_mem_cons]
  exact ⟨Nat.zero_le n, h, depth_id _ ▸ Nat.zero_le n, by simp⟩

theorem depth_failure_le {id : RequestId} {e : ProtocolError} (h : e.data = none) :
    depth (Response.failure id e.toObject).toTree ≤ 2 := by
  have herror : depth e.toObject.toTree ≤ 1 := by
    refine Nat.succ_le_succ (depthFields_le.mpr ?_)
    simp [ProtocolError.toObject, h, optionalField, depth]
  refine Nat.succ_le_succ (depthFields_le.mpr ?_)
  simp only [Response.failure, optionalField, Option.map_some, List.append_nil, List.cons_append,
    List.nil_append, List.forall_mem_cons]
  exact ⟨Nat.zero_le 1, herror, depth_id _ ▸ Nat.zero_le 1, by simp⟩

/-- The `Value` in the answer to a method, if there is one. -/
def HandlerOp.value? : (op : HandlerOp) → op.Ans → Option Json
  | .health, result => result.metadata
  | .submit _, .error e => e.data
  | .status _, .error e => e.data
  | .cancel _, .error e => e.data
  | .submit _, .ok _ => none
  | .status _, .ok _ => none
  | .cancel _, .ok _ => none

/-- The answers of a handler; what it puts into them as JSON is a `Value`. -/
structure SidecarHandler where
  answers : (op : HandlerOp) → op.Ans
  lawful : ∀ op : HandlerOp, ∀ value ∈ op.value? (answers op), Lawful value

theorem lawful_health {response : HealthResponse} (h : ∀ value ∈ response.metadata, Lawful value) :
    Lawful response.toValue := by
  have htext (text : Option String) : ∀ value ∈ text.map Json.str, Lawful value := by
    cases text with
    | none => simp
    | some text => simpa using Lawful.str text
  refine lawful_ofFields ?_
  simp only [List.forall_mem_append, List.forall_mem_cons, forall_mem_optionalField]
  exact ⟨⟨⟨⟨.str _, by simp⟩, htext _⟩, htext _⟩, h⟩

theorem readable_reply {id : RequestId} (hid : id.InRange) (op : HandlerOp) (ans : op.Ans)
    (h : ∀ value ∈ op.value? ans, Lawful value) : Readable (op.reply id ans).toTree := by
  have hresult {value : Json} (hvalue : Lawful value) :
      Readable (Response.success id value).toTree := readable_success hid hvalue.readable
  have herror (e : ProtocolError) (hdata : ∀ value ∈ e.data, Lawful value) :
      Readable (Response.failure id e.toObject).toTree :=
    readable_failure hid fun value hvalue => (hdata value hvalue).readable
  cases op with
  | health => exact hresult (lawful_health h)
  | submit params =>
      rcases ans with e | result
      · exact herror e h
      · exact hresult (flat_submit result).1
  | status taskId =>
      rcases ans with e | result
      · exact herror e h
      · exact hresult (flat_status result).1
  | cancel taskId =>
      rcases ans with e | result
      · exact herror e h
      · exact hresult (flat_cancel result).1

end VasalAgent.Sdk
