import AsyncGrpc.Basic

/-!
# The `Rpc` object

The class `Rpc` of `rpc.h`, one definition for each of its methods. A method that the event
thread runs in several steps returns the instructions that are left to run; `Service` says
what each instruction does. The record also carries gRPC's side of the call and histories
that no function of the program reads.
-/

namespace AsyncGrpc

variable {Req Resp : Type}

/-- One step of an event thread on the `Rpc` it is handling an event of. -/
inductive Instr (Resp : Type)
  | handle (tag : Tag)
  | handleInternal
  | releaseShared
  | handleNewConnection (ok : Bool)
  | remove
  | onConnection
  | callback (kind : CallbackKind)
  | requestStreamingReadIfNeeded
  | handleSendQueue
  | performFinish (item : SendItem Resp)
  | performWrite (item : SendItem Resp)
  | removeIfNotPending
  | clone
  | enqueueMessage (item : SendItem Resp)
  | getWeakPtr
  | pushWriteNeeded
  | getWriter
  deriving DecidableEq, Repr

structure Rpc (Req Resp : Type) where
  methodIndex : Nat
  serverCompletionQueue : Nat
  eventQueue : Nat
  rpcHandlerInfo : RpcHandlerInfo
  service : Nat
  event : Tag → CompletionQueueRpcEvent
  request : Option Req
  response : Option Resp
  handler : Bool
  sendQueue : List (SendItem Resp)
  -- gRPC's side: the operations it holds, and how the request for a connection came back.
  inFlight : Tag → Nat
  connected : Option Bool
  -- Histories: the `Rpc` this one is a clone of, whether its handler made a `Writer`, the
  -- items its handler passed to `Send` and `Finish`, the items accepted by the send queue, the
  -- operations started, the requests gRPC stored in `request_`, the callbacks made, and the
  -- tags returned by gRPC and handled.
  parent : Option Nat
  hasWriter : Bool
  passed : List (SendItem Resp)
  enqueued : List (SendItem Resp)
  sends : List (SendOp Resp)
  delivered : List Req
  callbacks : List (Callback Req)
  returned : List (Tag × Bool)
  handled : List (Tag × Bool)

namespace Rpc

/-- The constructor: the event queue is stored in `event_queue_` and in the five events. -/
def new (methodIndex serverCompletionQueue eventQueue : Nat) (rpcHandlerInfo : RpcHandlerInfo)
    (service : Nat) : Rpc Req Resp where
  methodIndex := methodIndex
  serverCompletionQueue := serverCompletionQueue
  eventQueue := eventQueue
  rpcHandlerInfo := rpcHandlerInfo
  service := service
  event := fun _ => .new eventQueue
  request := none
  response := none
  handler := false
  sendQueue := []
  inFlight := fun _ => 0
  connected := none
  parent := none
  hasWriter := false
  passed := []
  enqueued := []
  sends := []
  delivered := []
  callbacks := []
  returned := []
  handled := []

/-- A clone starts from the `event_queue_` of the original. -/
def clone (x : Rpc Req Resp) : Rpc Req Resp :=
  .new x.methodIndex x.serverCompletionQueue x.eventQueue x.rpcHandlerInfo x.service

/-- Only `event_queue_` changes, not the queues stored in the five events. -/
def setEventQueue (x : Rpc Req Resp) (eventQueue : Nat) : Rpc Req Resp :=
  { x with eventQueue := eventQueue }

def rpcType (x : Rpc Req Resp) : RpcType :=
  x.rpcHandlerInfo.rpcType

def isRpcEventPending (x : Rpc Req Resp) (tag : Tag) : Bool :=
  (x.event tag).pending

def setRpcEventState (x : Rpc Req Resp) (tag : Tag) (pending : Bool) : Rpc Req Resp :=
  { x with event := Function.update x.event tag { x.event tag with pending := pending } }

def isAnyEventPending (x : Rpc Req Resp) : Bool :=
  x.isRpcEventPending .done || x.isRpcEventPending .read ||
    x.isRpcEventPending .write || x.isRpcEventPending .finish

/-- Every operation is started by setting the flag of its event and handing gRPC its tag. -/
def startOp (x : Rpc Req Resp) (tag : Tag) : Rpc Req Resp :=
  { x.setRpcEventState tag true with inFlight := Function.update x.inFlight tag (x.inFlight tag + 1) }

/-- Asks gRPC for the `DONE` notification, then for the next call of the method. -/
def requestNextMethodInvocation (x : Rpc Req Resp) : Rpc Req Resp :=
  (x.startOp .done).startOp .newConnection

def onConnection (x : Rpc Req Resp) : Rpc Req Resp × List (Instr Resp) :=
  if x.handler then (x, [.requestStreamingReadIfNeeded])
  else ({ x with handler := true }, [.callback .onInitialize, .requestStreamingReadIfNeeded])

def requestStreamingReadIfNeeded (x : Rpc Req Resp) : Rpc Req Resp × List (Instr Resp) :=
  match x.rpcType with
  | .bidiStreaming | .clientStreaming => (x.startOp .read, [])
  | .normalRpc | .serverStreaming => (x, [.callback .onRequest, .callback .onReadsDone])

/-- The locked part of `HandleSendQueue`, which takes an item off the queue, and the choice
of the operation that sends it. -/
def handleSendQueue (x : Rpc Req Resp) : Rpc Req Resp × List (Instr Resp) :=
  match x.sendQueue with
  | [] => (x, [])
  | item :: rest =>
    if x.isRpcEventPending .write || x.isRpcEventPending .finish then (x, [])
    else if item.msg.isNone || x.rpcType = .normalRpc || x.rpcType = .clientStreaming then
      ({ x with sendQueue := rest }, [.performFinish item])
    else ({ x with sendQueue := rest }, [.performWrite item])

/-- The operation `PerformFinish` starts, or none where its `CHECK(!message)` fails. -/
def finishOp (rpcType : RpcType) (item : SendItem Resp) : Option (SendOp Resp) :=
  match rpcType, item.msg with
  | .bidiStreaming, none | .serverStreaming, none => some (.finish none item.status)
  | .bidiStreaming, some _ | .serverStreaming, some _ => none
  | .clientStreaming, some m | .normalRpc, some m => some (.finish (some m) item.status)
  | .clientStreaming, none | .normalRpc, none => some (.finishWithError item.status)

/-- A message is moved into `response_`, from where the operation reads it. -/
def performFinish (x : Rpc Req Resp) (item : SendItem Resp) : Option (Rpc Req Resp) :=
  (finishOp x.rpcType item).map (fun op =>
    { x.startOp .finish with
      response := item.msg.or x.response
      sends := x.sends ++ [op] })

/-- None where one of the three `CHECK`s fails. -/
def performWrite (x : Rpc Req Resp) (item : SendItem Resp) : Option (Rpc Req Resp) :=
  match item.msg with
  | none => none
  | some m =>
    if x.rpcType = .normalRpc ∨ x.rpcType = .clientStreaming then none
    else some { x.startOp .write with
      response := some m
      sends := x.sends ++ [.write m] }

def enqueueMessage (x : Rpc Req Resp) (item : SendItem Resp) : Rpc Req Resp :=
  { x with
    sendQueue := x.sendQueue ++ [item]
    enqueued := x.enqueued ++ [item] }

/-- The callback a handler sees; `OnRequest` is given `request_`. -/
def callback (x : Rpc Req Resp) : CallbackKind → Callback Req
  | .onInitialize => .onInitialize
  | .onRequest => .onRequest x.request
  | .onReadsDone => .onReadsDone
  | .onFinish => .onFinish

/-- The first step of `CompletionQueueRpcEvent::Handle`. -/
def startHandling (x : Rpc Req Resp) (tag : Tag) : Rpc Req Resp :=
  { x.setRpcEventState tag false with handled := x.handled ++ [(tag, (x.event tag).ok)] }

/-- Whether gRPC has stored a request in `request_` when it returns the tag: with every
successful `Read`, and with the new connection where the request is not a stream. -/
def delivers (x : Rpc Req Resp) (tag : Tag) (ok : Bool) : Bool :=
  ok && (tag = .read || tag = .newConnection && !x.rpcType.streamsRequests)

/-- What gRPC promises about the tags it returns: it holds an operation with that tag, and
`DONE` only comes back for a call whose `NEW_CONNECTION` came back with `ok = true`. -/
def mayReturn (x : Rpc Req Resp) (tag : Tag) (ok : Bool) (request : Option Req) : Bool :=
  0 < x.inFlight tag && (tag ≠ .done || x.connected = some true) &&
    request.isSome = x.delivers tag ok

/-- The completion queue's `Next` returns a tag of the `Rpc`. -/
def returnTag (x : Rpc Req Resp) (tag : Tag) (ok : Bool) (request : Option Req) : Rpc Req Resp :=
  { x with
    inFlight := Function.update x.inFlight tag (x.inFlight tag - 1)
    connected := if tag = .newConnection then some ok else x.connected
    request := request.or x.request
    delivered := x.delivered ++ request.toList
    returned := x.returned ++ [(tag, ok)] }

/-- The setter `CompletionQueueRpcEvent::ok`. -/
def setOk (x : Rpc Req Resp) (tag : Tag) (ok : Bool) : Rpc Req Resp :=
  { x with event := Function.update x.event tag { x.event tag with ok := ok } }

end Rpc

end AsyncGrpc
