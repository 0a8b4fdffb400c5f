import VasalAgent.Protocol.TaskCodec
import VasalAgent.Transport.Grpc

/-!
# Work items on the two transports

Poll mode sends an array of tasks and chains and tells them apart by the key
`steps`; the stream has a payload of its own for each.  Both transports are given
the deserializers of `serde_json` here, and are shown to receive the same work.
-/

namespace VasalAgent.Transport

open VasalAgent.Async
open VasalAgent.Protocol
open VasalAgent.Serde (Lawful Spelled Within depth depthLimit numbersFit settled nested
  lawful_nested depth_nested)
open VasalAgent.Task (Error)

/-! ## The deserializers -/

def orReport {α : Type} (report : String) : Option α → Except String α
  | some value => .ok value
  | none => .error report

/-- `describe` is the error of `serde_json` for a text that it refuses. -/
def jsonCodec (describe : String → String) : Codec where
  items body := orReport (describe body) ((Serde.Codec.list .value).fromText body)
  chain item := orReport (describe item.render) (TaskChain.codec.decode item)
  task item := orReport (describe item.render) (Task.codec.decode item)

def jsonSlices (describe : List UInt8 → String) : SliceCodec where
  task bytes := orReport (describe bytes) (Task.codec.fromSlice bytes)
  chain bytes := orReport (describe bytes) (TaskChain.codec.fromSlice bytes)

/-! ## What the control plane sends -/

namespace ReceivedWork

def encode : ReceivedWork → Json
  | single t => Task.codec.encode t
  | chain c => TaskChain.codec.encode c

def payload : ReceivedWork → Payload
  | single t => .task (Task.codec.toSlice t)
  | chain c => .taskChain (TaskChain.codec.toSlice c)

/-- The work has been decoded from some JSON. -/
def Decoded : ReceivedWork → Prop
  | single t => ∃ v, Task.codec.decode v = some t
  | chain c => ∃ v, TaskChain.codec.decode v = some c

end ReceivedWork

/-- The value is read neither as a task nor as a chain. -/
def Unreadable (item : Json) : Prop :=
  (item.get? "steps" = none ∧ Task.codec.decode item = none) ∨
    ((item.get? "steps").isSome ∧ TaskChain.codec.decode item = none)

/-- An element of the array. -/
inductive Sent where
  | work (received : ReceivedWork)
  | other (item : Json)

namespace Sent

def json : Sent → Json
  | work received => received.encode
  | other item => item

def work? : Sent → Option ReceivedWork
  | work received => some received
  | other _ => none

/-- Work, or any JSON that is none: its keys come in any order, its numbers have any size. -/
def Admissible : Sent → Prop
  | work received => received.Decoded
  | other item => Spelled item ∧ Unreadable (settled item)

/-- The element is nested less deep than a text can be, and its numbers are in range. -/
def IsReadable (sent : Sent) : Prop := depth sent.json < depthLimit ∧ numbersFit sent.json = true

instance (sent : Sent) : Decidable sent.IsReadable := inferInstanceAs (Decidable (_ ∧ _))

end Sent

/-! ## Telling tasks and chains apart -/

/-- No variant of a task has a field `steps`. -/
theorem get?_steps_task (task : Protocol.Task) :
    (Task.codec.encode task).get? "steps" = none := by
  have hcontains : Task.variants.names.contains "steps" = false := by rfl
  have hnames : "steps" ∉ Task.variants.names := by simpa using hcontains
  exact Task.variants.get?_encode (by decide) hnames task

theorem get?_steps_chain (chain : TaskChain) :
    ((TaskChain.codec.encode chain).get? "steps").isSome = true := by
  rw [TaskChain.codec, TaskChain.record.get?_encode]
  rfl

section Poll

variable (describe : String → String)

/-- A work item is recognized in the array. -/
theorem decodeItem_encode {work : ReceivedWork} (h : work.Decoded) :
    decodeItem (jsonCodec describe) work.encode = some work := by
  cases work with
  | single task =>
      obtain ⟨v, hv⟩ := h
      have hsteps := get?_steps_task task
      have hdecode := Task.codec.stable hv
      simp [decodeItem, ReceivedWork.encode, hsteps, jsonCodec, hdecode, orReport]
  | chain chain =>
      obtain ⟨v, hv⟩ := h
      have hsteps := get?_steps_chain chain
      have hdecode := TaskChain.codec.stable hv
      simp [decodeItem, ReceivedWork.encode, hsteps, jsonCodec, hdecode, orReport]

theorem decodeItem_unreadable {item : Json} (h : Unreadable item) :
    decodeItem (jsonCodec describe) item = none := by
  rcases h with ⟨hsteps, hdecode⟩ | ⟨hsteps, hdecode⟩
  · simp [decodeItem, hsteps, jsonCodec, hdecode, orReport]
  · simp [decodeItem, hsteps, jsonCodec, hdecode, orReport]

end Poll

theorem ReceivedWork.lawful_encode {work : ReceivedWork} (h : work.Decoded) :
    Lawful work.encode := by
  cases work with
  | single task => exact Task.codec.lawful_encode (Task.codec.valid_of_decode h.choose_spec)
  | chain chain =>
      exact TaskChain.codec.lawful_encode (TaskChain.codec.valid_of_decode h.choose_spec)

theorem Sent.spelled_json {sent : Sent} (h : sent.Admissible) : Spelled sent.json := by
  cases sent with
  | work received => exact (received.lawful_encode h).readable.spelled
  | other item => exact h.1

section Poll

variable (describe : String → String)

theorem decodeItem_json {sent : Sent} (h : sent.Admissible) :
    decodeItem (jsonCodec describe) (settled sent.json) = sent.work? := by
  cases sent with
  | work received =>
      rw [Sent.json, (received.lawful_encode h).settled_eq]
      exact decodeItem_encode describe h
  | other item => exact decodeItem_unreadable describe h.2

theorem filterMap_json {sent : List Sent} (h : ∀ element ∈ sent, element.Admissible) :
    ((sent.map Sent.json).map settled).filterMap (decodeItem (jsonCodec describe)) =
      sent.filterMap Sent.work? := by
  rw [List.filterMap_map, List.filterMap_map]
  exact List.filterMap_congr fun element helement => decodeItem_json describe (h element helement)

end Poll

/-! ## The array -/

/-- Nothing is trimmed off a printed array. -/
theorem trim_render (items : List Json) :
    trim (Json.arr items).render = '[' :: ((Json.renderItems items).toList ++ [']']) := by
  have hopen : isWhitespace '[' = false := by decide
  have hclose : isWhitespace ']' = false := by decide
  simp [trim, Json.render, hopen, hclose]

theorem renderItems_ne_nil {items : List Json} (h : ∀ item ∈ items, Spelled item)
    (hne : items ≠ []) : (Json.renderItems items).toList ≠ [] := by
  obtain ⟨c, tail, htext, -⟩ :=
    Serde.opens_separated (fun item hitem => (h item hitem).opens) hne
  rw [Serde.renderItems_eq, htext]
  simp

theorem mapM_settled {items : List Json} (h : ∀ item ∈ items, numbersFit item = true) :
    items.mapM Serde.Codec.value.decode = some (items.map settled) := by
  induction items with
  | nil => rfl
  | cons item rest ih =>
      simp only [List.forall_mem_cons] at h
      have hitem : Serde.Codec.value.decode item = some (settled item) := if_pos h.1
      simp [hitem, ih h.2]

theorem fromText_items {items : List Json} (h : ∀ item ∈ items, Spelled item) :
    (Serde.Codec.list .value).fromText (Json.arr items).render =
      if ∀ item ∈ items, Within (depthLimit - 1) item then some (items.map settled) else none := by
  have hparse := (Spelled.arr h).parse
  have hlimit : depthLimit = depthLimit - 1 + 1 := rfl
  rw [hlimit] at hparse
  simp only [Serde.within_arr] at hparse
  rw [Serde.Codec.fromText, hparse]
  split
  · next hwithin => exact mapM_settled fun item hitem => (hwithin item hitem).2
  · rfl

theorem items_render (describe : String → String) {items : List Json}
    (h : ∀ item ∈ items, Spelled item) :
    (jsonCodec describe).items (Json.arr items).render =
      if ∀ item ∈ items, Within (depthLimit - 1) item then .ok (items.map settled)
      else .error (describe (Json.arr items).render) := by
  change orReport _ ((Serde.Codec.list .value).fromText _) = _
  rw [fromText_items h]
  split <;> rfl

/--
A printed array is decoded item by item, and as a whole refused if an item is nested
too deep or holds a number out of range.
-/
theorem decode_render (describe : String → String) {items : List Json}
    (h : ∀ item ∈ items, Spelled item) :
    decode (jsonCodec describe) (Json.arr items).render =
      if ∀ item ∈ items, Within (depthLimit - 1) item then
        .ok ((items.map settled).filterMap (decodeItem (jsonCodec describe)))
      else .error (.json (describe (Json.arr items).render)) := by
  cases hitems : items with
  | nil => simp [decode, trim_render, Json.renderItems]
  | cons item rest =>
      rw [← hitems]
      have hbody := renderItems_ne_nil h (by simp [hitems])
      have hread := items_render describe h
      by_cases hwithin : ∀ item ∈ items, Within (depthLimit - 1) item
      · rw [if_pos hwithin] at hread ⊢
        simp [decode, trim_render, hread, hbody]
      · rw [if_neg hwithin] at hread ⊢
        simp [decode, trim_render, hread, hbody]

/-! ## The stream -/

theorem decodeWork_payload (describe : List UInt8 → String) {work : ReceivedWork}
    (h : work.Decoded) :
    decodeWork (jsonSlices describe) ⟨some work.payload⟩ =
      if depth work.encode ≤ depthLimit then some work else none := by
  cases work with
  | single task =>
      obtain ⟨v, hv⟩ := h
      have hslice : Task.codec.fromSlice (Task.codec.toSlice task) = _ :=
        (Task.codec.fromSlice_toSlice task).trans
          (Task.codec.fromText_toText (Task.codec.valid_of_decode hv))
      by_cases hdepth : depth (Task.codec.encode task) ≤ depthLimit <;>
        simp [decodeWork, ReceivedWork.payload, jsonSlices, hslice, ReceivedWork.encode, hdepth,
          orReport]
  | chain chain =>
      obtain ⟨v, hv⟩ := h
      have hslice : TaskChain.codec.fromSlice (TaskChain.codec.toSlice chain) = _ :=
        (TaskChain.codec.fromSlice_toSlice chain).trans
          (TaskChain.codec.fromText_toText (TaskChain.codec.valid_of_decode hv))
      by_cases hdepth : depth (TaskChain.codec.encode chain) ≤ depthLimit <;>
        simp [decodeWork, ReceivedWork.payload, jsonSlices, hslice, ReceivedWork.encode, hdepth,
          orReport]

/-! ## Agreement -/

section Agreement

variable (describe : String → String) (describeSlice : List UInt8 → String)
  (transport : PollTransport) {oracle : (op : HttpOp) → op.Ans}

/-- A poll is answered with success and the body. -/
def Delivers (transport : PollTransport) (oracle : (op : HttpOp) → op.Ans) (body : String) :
    Prop :=
  (∃ status, oracle (.get (transport.endpoint ++ "/tasks/pending")) = .ok status ∧
    status.isSuccess = true) ∧ oracle .text = .ok body

theorem run_recvTasks {body : String} (h : Delivers transport oracle body) (codec : Codec) :
    (recvTasks codec transport).run oracle = some (decode codec body) := by
  obtain ⟨⟨status, hget, hstatus⟩, htext⟩ := h
  simp [recvTasks, request, Prog.perform, hget, hstatus, htext, pure]

theorem isReadable_iff (element : Sent) :
    element.IsReadable ↔ Within (depthLimit - 1) element.json := by
  simp only [Sent.IsReadable, Within, Nat.le_sub_one_iff_lt (by decide : 0 < depthLimit)]

theorem run_sent {sent : List Sent} (hsent : ∀ element ∈ sent, element.Admissible)
    (h : Delivers transport oracle (Json.arr (sent.map Sent.json)).render) :
    (recvTasks (jsonCodec describe) transport).run oracle =
      some (if ∀ element ∈ sent, element.IsReadable then .ok (sent.filterMap Sent.work?)
        else .error (.json (describe (Json.arr (sent.map Sent.json)).render))) := by
  have hspelled : ∀ item ∈ sent.map Sent.json, Spelled item := by
    simpa using fun element helement => element.spelled_json (hsent element helement)
  rw [run_recvTasks transport h, decode_render describe hspelled, filterMap_json describe hsent]
  simp only [List.forall_mem_map, isReadable_iff]

end Agreement

/-- The answers of a control plane that has the array waiting. -/
def waiting (sent : List Sent) : (op : HttpOp) → op.Ans
  | .sleep _ => ()
  | .get _ => .ok ⟨200, "200 OK"⟩
  | .text => .ok (Json.arr (sent.map Sent.json)).render

theorem delivers_waiting (transport : PollTransport) (sent : List Sent) :
    Delivers transport (waiting sent) (Json.arr (sent.map Sent.json)).render :=
  ⟨⟨_, rfl, rfl⟩, rfl⟩

def emptyChain : TaskChain := ⟨⟨5⟩, [], .rollbackFailed, []⟩

def mixed : List Sent :=
  [.work (.chain emptyChain), .other (.obj [("steps", .null)]), .other .null,
    .work (.single sampleRemoveTask)]

def emptyChainJson : Json :=
  .obj [("id", .str "00000000000000000000000000000005"), ("on_failure", .str "rollback_failed"),
    ("steps", .arr [])]

theorem admissible_remove : (Sent.work (.single sampleRemoveTask)).Admissible :=
  ⟨sampleRemove, by rfl⟩

theorem admissible_mixed : ∀ element ∈ mixed, element.Admissible := by
  simp only [mixed, List.forall_mem_cons]
  refine ⟨⟨emptyChainJson, by rfl⟩, ⟨.obj ?_, .inr ⟨by rfl, by rfl⟩⟩,
    ⟨.null, .inl ⟨by rfl, by rfl⟩⟩, admissible_remove, by simp⟩
  simpa using Spelled.null

/-- A task that follows an item of depth 127. -/
def deepSent : List Sent := [.other (nested 127), .work (.single sampleRemoveTask)]

/-- A task that follows a number beyond the largest double. -/
def hugeSent : List Sent := [.other (.num (.float "1e400")), .work (.single sampleRemoveTask)]

theorem run_blocked {first : Json} (hadmissible : (Sent.other first).Admissible)
    (h : ¬ (Sent.other first).IsReadable) (describe : String → String)
    (transport : PollTransport) :
    ∃ report, (recvTasks (jsonCodec describe) transport).run
      (waiting [.other first, .work (.single sampleRemoveTask)]) = some (.error report) := by
  have hsent : ∀ element ∈ [Sent.other first, .work (.single sampleRemoveTask)],
      element.Admissible := by
    simp only [List.forall_mem_cons]
    exact ⟨hadmissible, admissible_remove, by simp⟩
  rw [run_sent describe transport hsent (delivers_waiting _ _), if_neg fun hall =>
    h (hall _ List.mem_cons_self)]
  exact ⟨_, rfl⟩

end VasalAgent.Transport
