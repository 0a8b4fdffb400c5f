import VasalAgent.Async.Pool
import VasalAgent.Transport.Poll

/-!
# gRPC transport

`transport::grpc`: the bidirectional stream to the control plane.  The fields of
`GrpcInner` are shared state behind a mutex, and so are the outbound channels,
because `send_result` goes on with a sender of its own after it has left the
mutex.

The main loop drops a `recv_tasks` future when another branch of its `select!` is
ready first.  An await point is therefore answered with `dropped` as well; the
locals of the future, its guard among them, are then released.
-/

namespace VasalAgent.Transport

open VasalAgent.Async
open VasalAgent.Protocol
open VasalAgent.Task (Error)

/-! ## Messages -/

structure AgentHello where
  agentId : String
  agentVersion : String
  deriving DecidableEq, Repr

/-- `AgentMessage`; a result is sent as its JSON. -/
inductive AgentMessage where
  | hello (hello : AgentHello)
  | taskResult (result : TaskResult)

structure ServerAck where
  accepted : Bool
  message : String
  deriving DecidableEq, Repr

/-- The payload of a `ControlPlaneMessage`. -/
inductive Payload where
  | task (bytes : List UInt8)
  | taskChain (bytes : List UInt8)
  | ack (ack : ServerAck)
  deriving DecidableEq, Repr

structure ControlPlaneMessage where
  payload : Option Payload
  deriving DecidableEq, Repr

/-- `serde_json::from_slice` at the two types of work. -/
structure SliceCodec where
  task : List UInt8 → Except String Protocol.Task
  chain : List UInt8 → Except String TaskChain

/-- `decode_work`; what does not parse is only logged, and so is an answer to the hello. -/
def decodeWork (codec : SliceCodec) (msg : ControlPlaneMessage) : Option ReceivedWork :=
  match msg.payload with
  | some (.task bytes) =>
      match codec.task bytes with
      | .ok task => some (.single task)
      | .error _ => none
  | some (.taskChain bytes) =>
      match codec.chain bytes with
      | .ok chain => some (.chain chain)
      | .error _ => none
  | some (.ack _) => none
  | none => none

/-! ## Calls -/

/-- An await point is reached, or the future is dropped there. -/
inductive Awaited (α : Type) where
  | ready (value : α)
  | dropped
  deriving DecidableEq, Repr

instance {α : Type} [Inhabited α] : Inhabited (Awaited α) := ⟨.ready default⟩

inductive GrpcOp where
  | lock
  /-- The guard of the mutex is dropped. -/
  | unlock
  /-- Neither `inbound_stream` nor `outbound_tx` is absent. -/
  | isConnected
  | connect (endpoint : String)
  /-- `mpsc::channel`, with the number of the new channel. -/
  | channel
  | send (channel : Nat) (msg : AgentMessage)
  | taskStream (channel : Nat)
  /-- The ends of a channel that was not installed are dropped. -/
  | dropChannel (channel : Nat)
  /-- `inbound_stream`, `outbound_tx` and `backoff` are set after a connect. -/
  | install (channel : Nat)
  /-- `backoff` is doubled; the answer is its old value. -/
  | backOff
  | sleep (seconds : Nat)
  | message
  /-- `inbound_stream` and `outbound_tx` are set to `None`. -/
  | disconnect
  | outboundTx

abbrev GrpcOp.Ans : GrpcOp → Type
  | .lock => Awaited Unit
  | .unlock => Unit
  | .isConnected => Bool
  | .connect _ => Awaited (Except String Unit)
  | .channel => Nat
  | .send .. => Awaited (Except String Unit)
  | .taskStream _ => Awaited (Except String Unit)
  | .dropChannel _ => Unit
  | .install _ => Unit
  | .backOff => Nat
  | .sleep _ => Awaited Unit
  | .message => Awaited (Except String (Option ControlPlaneMessage))
  | .disconnect => Unit
  | .outboundTx => Option Nat

abbrev GrpcSig : Signature := ⟨GrpcOp, GrpcOp.Ans⟩

instance (op : GrpcOp) : Inhabited op.Ans := by cases op <;> exact inferInstance

def grpc (op : GrpcOp) : Prog GrpcSig op.Ans := Prog.perform (S := GrpcSig) op

/-! ## The transport -/

structure GrpcTransport where
  endpoint : String
  agentId : String
  agentVersion : String
  codec : SliceCodec

namespace GrpcTransport

/-- In seconds. -/
def maxBackoff : Nat := 30

def initialBackoff : Nat := 1

def channelCapacity : Nat := 64

variable (t : GrpcTransport)

/-- `connect`, with the number of the channel that both ends of the stream use. -/
def connect : Prog GrpcSig (Awaited (Except Error Nat)) := do
  match ← grpc (.connect t.endpoint) with
  | .dropped => pure .dropped
  | .ready (.error e) => pure (.ready (.error (.transport ("gRPC connect failed: " ++ e))))
  | .ready (.ok _) => do
      let channel ← grpc .channel
      match ← grpc (.send channel (.hello ⟨t.agentId, t.agentVersion⟩)) with
      | .dropped => do
          grpc (.dropChannel channel)
          pure .dropped
      | .ready (.error e) => do
          grpc (.dropChannel channel)
          pure (.ready (.error (.transport ("failed to enqueue hello: " ++ e))))
      | .ready (.ok _) => do
          match ← grpc (.taskStream channel) with
          | .dropped => do
              grpc (.dropChannel channel)
              pure .dropped
          | .ready (.error e) => do
              grpc (.dropChannel channel)
              pure (.ready (.error (.transport ("gRPC stream open failed: " ++ e))))
          | .ready (.ok _) => pure (.ready (.ok channel))

/-- `recv_tasks` once the stream is there. -/
def readStream : Prog GrpcSig (Awaited (Except Error (List ReceivedWork))) := do
  match ← grpc .message with
  | .dropped => do
      grpc .unlock
      pure .dropped
  | .ready (.ok (some msg)) => do
      grpc .unlock
      pure (.ready (.ok (decodeWork t.codec msg).toList))
  | .ready (.ok none) => do
      grpc .disconnect
      grpc .unlock
      pure (.ready (.ok []))
  | .ready (.error e) => do
      grpc .disconnect
      grpc .unlock
      pure (.ready (.error (.transport ("gRPC stream error: " ++ e))))

def recvTasks : Prog GrpcSig (Awaited (Except Error (List ReceivedWork))) := do
  match ← grpc .lock with
  | .dropped => pure .dropped
  | .ready _ => do
      let connected ← grpc .isConnected
      if connected then t.readStream
      else do
        match ← t.connect with
        | .dropped => do
            grpc .unlock
            pure .dropped
        | .ready (.ok channel) => do
            grpc (.install channel)
            t.readStream
        | .ready (.error _) => do
            let backoff ← grpc .backOff
            grpc .unlock
            match ← grpc (.sleep backoff) with
            | .dropped => pure .dropped
            | .ready _ => pure (.ready (.ok []))

/-- `send_result`; the sender is cloned under the mutex and used outside it. -/
def sendResult (result : TaskResult) : Prog GrpcSig (Awaited (Except Error Unit)) := do
  match ← grpc .lock with
  | .dropped => pure .dropped
  | .ready _ => do
      let tx ← grpc .outboundTx
      grpc .unlock
      match tx with
      | none => pure (.ready (.error (.transport "gRPC not connected")))
      | some channel => do
          match ← grpc (.send channel (.taskResult result)) with
          | .dropped => pure .dropped
          | .ready (.error e) =>
              pure (.ready (.error (.transport ("failed to send result via gRPC: " ++ e))))
          | .ready (.ok _) => pure (.ready (.ok ()))

end GrpcTransport

/-! ## Shared state -/

inductive Receiver where
  /-- The stream is up and takes messages from the channel. -/
  | streaming
  /-- The stream is over, but its end of the channel is still there. -/
  | ended
  | dropped
  deriving DecidableEq, Repr

structure Channel where
  queue : List AgentMessage
  receiver : Receiver

/--
`permits` is 1 while nobody is in the mutex.  A stream goes by the number of its
channel.  `delivered` is what the control plane has got.
-/
structure GrpcShared where
  permits : Nat
  outboundTx : Option Nat
  inboundStream : Option Nat
  backoff : Nat
  channels : Nat → Channel
  created : Nat
  delivered : List AgentMessage

namespace GrpcShared

def initial : GrpcShared where
  permits := 1
  outboundTx := none
  inboundStream := none
  backoff := GrpcTransport.initialBackoff
  channels _ := ⟨[], .dropped⟩
  created := 0
  delivered := []

variable (shared : GrpcShared)

def setChannel (n : Nat) (channel : Channel) : GrpcShared :=
  { shared with channels := Function.update shared.channels n channel }

/-- A send waits for room, and fails when there is nobody to receive. -/
def send (n : Nat) (msg : AgentMessage) : Option (Awaited (Except String Unit) × GrpcShared) :=
  let channel := shared.channels n
  match channel.receiver with
  | .dropped => some (.ready (.error "channel closed"), shared)
  | _ =>
      if channel.queue.length < GrpcTransport.channelCapacity then
        some (.ready (.ok ()),
          shared.setChannel n { channel with queue := channel.queue ++ [msg] })
      else none

/-- The stream that `message` reads is over. -/
def endStream : GrpcShared :=
  match shared.inboundStream with
  | none => shared
  | some n => shared.setChannel n { shared.channels n with receiver := .ended }

/-- Calls that are answered from outside take the proposed answer. -/
def perform : (op : GrpcOp) → op.Ans → Option (op.Ans × GrpcShared)
  | .lock, .dropped => some (.dropped, shared)
  | .lock, .ready _ =>
      if 0 < shared.permits then
        some (.ready (), { shared with permits := shared.permits - 1 })
      else none
  | .unlock, _ => some ((), { shared with permits := shared.permits + 1 })
  | .isConnected, _ => some (shared.inboundStream.isSome && shared.outboundTx.isSome, shared)
  | .connect _, ans => some (ans, shared)
  | .channel, _ =>
      some (shared.created,
        { shared.setChannel shared.created ⟨[], .streaming⟩ with created := shared.created + 1 })
  | .send _ _, .dropped => some (.dropped, shared)
  | .send n msg, .ready _ => shared.send n msg
  | .taskStream _, ans => some (ans, shared)
  | .dropChannel n, _ => some ((), shared.setChannel n ⟨[], .dropped⟩)
  | .install n, _ =>
      some ((), { shared with
        outboundTx := some n
        inboundStream := some n
        backoff := GrpcTransport.initialBackoff })
  | .backOff, _ =>
      some (shared.backoff, { shared with
        backoff := min (shared.backoff * 2) GrpcTransport.maxBackoff })
  | .sleep _, ans => some (ans, shared)
  | .message, .dropped => some (.dropped, shared)
  | .message, .ready (.ok (some msg)) => some (.ready (.ok (some msg)), shared)
  | .message, .ready (.ok none) => some (.ready (.ok none), shared.endStream)
  | .message, .ready (.error e) => some (.ready (.error e), shared.endStream)
  | .disconnect, _ => some ((), { shared with outboundTx := none, inboundStream := none })
  | .outboundTx, _ => some (shared.outboundTx, shared)

end GrpcShared

/-! ## The system -/

inductive GrpcJob where
  | recv
  | send (result : TaskResult)

inductive GrpcEnv where
  /-- The stream of a channel takes the next message to the control plane. -/
  | deliver (channel : Nat)
  /-- The receiving end of a channel is dropped with what is queued. -/
  | hangUp (channel : Nat)
  deriving DecidableEq, Repr

def GrpcShared.environment (shared : GrpcShared) : GrpcEnv → Option GrpcShared
  | .deliver n =>
      match shared.channels n with
      | ⟨msg :: rest, .streaming⟩ =>
          some { shared.setChannel n ⟨rest, .streaming⟩ with
            delivered := shared.delivered ++ [msg] }
      | _ => none
  | .hangUp n => some (shared.setChannel n ⟨[], .dropped⟩)

namespace GrpcTransport

variable (t : GrpcTransport)

def program : GrpcJob → Prog GrpcSig Unit
  | .recv => do
      let _ ← t.recvTasks
      pure ()
  | .send result => do
      let _ ← sendResult result
      pure ()

abbrev system : System GrpcSig where
  Job := GrpcJob
  Shared := GrpcShared
  Env := GrpcEnv
  program := t.program
  perform := GrpcShared.perform
  spawned _ := none
  external _ := true
  environment := GrpcShared.environment

end GrpcTransport

end VasalAgent.Transport
