import Mathlib.Logic.Function.Basic
import Mathlib.Data.List.Basic

/-!
# Events, send items and handler infos

The data that flows between gRPC, the event queues and the `Rpc` objects. `Tag` enumerates
the five `CompletionQueueRpcEvent`s an `Rpc` embeds, whose addresses are the tags gRPC
returns; `Event` is the enumeration of `rpc_interface.h`, which also has `WRITE_NEEDED`.
-/

namespace AsyncGrpc

/-- The enumeration `grpc::StatusCode`. -/
inductive StatusCode
  | ok | cancelled | unknown | invalidArgument | deadlineExceeded | notFound | alreadyExists
  | permissionDenied | resourceExhausted | failedPrecondition | aborted | outOfRange
  | unimplemented | internal | unavailable | dataLoss | unauthenticated
  deriving DecidableEq, Repr

structure Status where
  errorCode : StatusCode
  errorMessage : String
  deriving DecidableEq, Repr

/-- The constant `Status::OK`. -/
def Status.ok : Status := ⟨.ok, ""⟩

/-- The method `Status::ok`. -/
def Status.isOk (status : Status) : Bool :=
  status.errorCode = .ok

/-- The enumeration `grpc::internal::RpcMethod::RpcType`. -/
inductive RpcType
  | normalRpc | clientStreaming | serverStreaming | bidiStreaming
  deriving DecidableEq, Repr

/-- The types whose requests arrive through `Read` operations. -/
def RpcType.streamsRequests : RpcType → Bool
  | .bidiStreaming | .clientStreaming => true
  | .normalRpc | .serverStreaming => false

/-- The types whose responses leave through `Write` operations. -/
def RpcType.streamsResponses : RpcType → Bool
  | .bidiStreaming | .serverStreaming => true
  | .normalRpc | .clientStreaming => false

inductive Event
  | newConnection | read | writeNeeded | write | finish | done
  deriving DecidableEq, Repr

/-- The events `Rpc::GetRpcEvent` finds in an `Rpc`: all but `WRITE_NEEDED`. -/
inductive Tag
  | newConnection | read | write | finish | done
  deriving DecidableEq, Repr

def Tag.all : List Tag :=
  [.newConnection, .read, .write, .finish, .done]

lemma Tag.mem_all (tag : Tag) : tag ∈ Tag.all := by
  cases tag <;> simp [Tag.all]

def Tag.event : Tag → Event
  | .newConnection => .newConnection
  | .read => .read
  | .write => .write
  | .finish => .finish
  | .done => .done

structure CompletionQueueRpcEvent where
  eventQueue : Nat
  ok : Bool
  pending : Bool
  deriving DecidableEq, Repr

/-- A freshly constructed event. -/
def CompletionQueueRpcEvent.new (eventQueue : Nat) : CompletionQueueRpcEvent :=
  ⟨eventQueue, false, false⟩

/-- What an event queue holds: the embedded event of an `Rpc`, or an `InternalRpcEvent`
with event `WRITE_NEEDED` and a weak pointer to the `Rpc`. -/
inductive QueuedEvent
  | completion (rpc : Nat) (tag : Tag)
  | internal (rpc : Nat)
  deriving DecidableEq, Repr

def QueuedEvent.rpc : QueuedEvent → Nat
  | .completion r _ => r
  | .internal r => r

/-- The field `rpcFactory` stands for the handler class the factory builds an `Rpc` for. -/
structure RpcHandlerInfo where
  rpcFactory : Nat
  rpcType : RpcType
  fullyQualifiedName : String
  deriving DecidableEq, Repr

/-- An entry of `Rpc::send_queue_`. Without a message the item ends the call. -/
structure SendItem (Resp : Type) where
  msg : Option Resp
  status : Status
  deriving DecidableEq, Repr

/-- The send-side operations of gRPC's four server stream classes. -/
inductive SendOp (Resp : Type)
  | write (msg : Resp)
  | finish (msg : Option Resp) (status : Status)
  | finishWithError (status : Status)
  deriving DecidableEq, Repr

def SendOp.isFinish {Resp : Type} : SendOp Resp → Bool
  | .write _ => false
  | .finish _ _ | .finishWithError _ => true

/-- A call of the framework on an `RpcHandler`. -/
inductive Callback (Req : Type)
  | onInitialize
  | onRequest (request : Option Req)
  | onReadsDone
  | onFinish
  deriving DecidableEq, Repr

/-- Which callback an event thread is about to make. -/
inductive CallbackKind
  | onInitialize | onRequest | onReadsDone | onFinish
  deriving DecidableEq, Repr

/-- What a handler may do with its `Rpc` inside a callback. -/
inductive HandlerAction (Resp : Type)
  | send (response : Resp)
  | finish (status : Status)
  | getWriter
  deriving DecidableEq, Repr

end AsyncGrpc
