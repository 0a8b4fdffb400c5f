import VasalAgent.Task.Effects

/-!
# Poll transport

`transport` and `transport::poll`: what the control plane sends, and the future
that fetches it over HTTP.  The deserializers derived for `TaskChain` and `Task`
and the JSON parser are a `Codec`.
-/

namespace VasalAgent.Transport

open VasalAgent.Async
open VasalAgent.Protocol
open VasalAgent.Task (Error)

inductive ReceivedWork where
  | single (task : Protocol.Task)
  | chain (chain : TaskChain)

structure Codec where
  items : String → Except String (List Json)
  chain : Json → Except String TaskChain
  task : Json → Except String Protocol.Task

structure HttpStatus where
  code : Nat
  text : String
  deriving DecidableEq, Repr

def HttpStatus.isSuccess (status : HttpStatus) : Bool :=
  200 ≤ status.code && status.code < 300

inductive HttpOp where
  | sleep (seconds : Nat)
  | get (url : String)
  | text
  deriving DecidableEq, Repr

abbrev HttpOp.Ans : HttpOp → Type
  | .sleep _ => Unit
  | .get _ => Except String HttpStatus
  | .text => Except String String

abbrev HttpSig : Signature := ⟨HttpOp, HttpOp.Ans⟩

def request (op : HttpOp) : Prog HttpSig op.Ans := Prog.perform (S := HttpSig) op

/-! ## Decoding -/

/-- `char::is_whitespace`. -/
def isWhitespace (c : Char) : Bool :=
  let n := c.toNat
  (9 ≤ n && n ≤ 13) || n == 0x20 || n == 0x85 || n == 0xA0 || n == 0x1680 ||
    (0x2000 ≤ n && n ≤ 0x200A) || n == 0x2028 || n == 0x2029 || n == 0x202F ||
    n == 0x205F || n == 0x3000

/-- `str::trim`. -/
def trim (text : String) : List Char :=
  ((text.toList.dropWhile isWhitespace).reverse.dropWhile isWhitespace).reverse

/-- An item that does not parse is only logged. -/
def decodeItem (codec : Codec) (item : Json) : Option ReceivedWork :=
  if (item.get? "steps").isSome then
    match codec.chain item with
    | .ok chain => some (.chain chain)
    | .error _ => none
  else
    match codec.task item with
    | .ok task => some (.single task)
    | .error _ => none

def decode (codec : Codec) (body : String) : Except Error (List ReceivedWork) :=
  if trim body = [] || trim body = ['[', ']'] then .ok []
  else
    match codec.items body with
    | .error e => .error (.json e)
    | .ok items => .ok (items.filterMap (decodeItem codec))

/-! ## Receiving -/

structure PollTransport where
  endpoint : String
  pollInterval : Nat

/-- `PollTransport::recv_tasks`. -/
def recvTasks (codec : Codec) (transport : PollTransport) :
    Prog HttpSig (Except Error (List ReceivedWork)) := do
  request (.sleep transport.pollInterval)
  match ← request (.get (transport.endpoint ++ "/tasks/pending")) with
  | .error e => pure (.error (.http e))
  | .ok status =>
      if status.isSuccess then do
        match ← request .text with
        | .error e => pure (.error (.http e))
        | .ok body => pure (decode codec body)
      else
        pure (.error (.transport ("task poll returned HTTP " ++ status.text)))

end VasalAgent.Transport
