import AsyncGrpc.AsyncClient
import AsyncGrpc.BlockingClient
import AsyncGrpc.Composition
import AsyncGrpc.Server

/-!
# A client and its server

One call of a client, and the server one of whose `Rpc`s serves it. The two processes take their
steps in any order. What couples them is what gRPC promises about a call: the requests are the
client's and the responses the server's, in the order of the `Write` operations; the requests end
when the client has said so or the server has finished the call; and a status that is `OK` is the
server's and comes after all messages. Any operation of the client may fail at any time.
-/

namespace AsyncGrpc

variable {Req Resp : Type}

/-- The responses that gRPC has stored for the client. -/
def StreamingAsyncClient.received (c : StreamingAsyncClient Resp) : List Resp :=
  (c.returned ++ c.completed).filterMap Completion.response

variable [DecidableEq Req] [DecidableEq Resp]

/-- The connection that reaches the `Rpc` is the call of the client. -/
def connects (request : Req) (r : Nat) (written : Bool) : Label Req Resp → Bool
  | .next _ r' .newConnection true q => r' ≠ r || (written && q = some request)
  | _ => true

/-- What gRPC promises about a call with streamed responses. -/
def carriesStream (request : Req) (r : Nat) (e : Server Req Resp × StreamingAsyncClient Resp) :
    Label Req Resp ⊕ ClientLabel Resp → Bool
  | .inl l => connects request r e.2.written l
  | .inr (.complete (.read (some m))) =>
    r < e.1.nextRpc && ((e.2.received ++ [m]).map SendOp.write).isPrefixOf (e.1.rpcs r).sends
  | .inr (.complete (.finish _ status)) =>
    !status.isOk || (r < e.1.nextRpc &&
      (e.2.received.map SendOp.write ++ [SendOp.finish none status]).isPrefixOf (e.1.rpcs r).sends)
  | .inr _ => true

/-- What gRPC promises about a unary call. -/
def carriesReply (request : Req) (r : Nat) (e : Server Req Resp × UnaryAsyncClient Resp) :
    Label Req Resp ⊕ UnaryClientLabel Resp → Bool
  | .inl l => connects request r e.2.written l
  | .inr (.complete status response) =>
    !status.isOk || (r < e.1.nextRpc &&
      [SendOp.finish (some response) status].isPrefixOf (e.1.rpcs r).sends)
  | .inr _ => true

/-- A blocking client reads the response that follows those it has read. -/
def carriesRead (r : Nat) (s : Server Req Resp) (reads : List (Option Resp)) : Option Resp → Bool
  | some m =>
    r < s.nextRpc && ((received reads ++ [m]).map SendOp.write).isPrefixOf (s.rpcs r).sends
  | none => true

/-- An `OK` status is the one the server has sent, and comes after all messages if the client has
read until there were none. -/
def carriesStatus (r : Nat) (s : Server Req Resp) (reads : List (Option Resp)) (status : Status)
    (response : Option Resp) : Bool :=
  !status.isOk || (r < s.nextRpc && .finish response status ∈ (s.rpcs r).sends &&
    (none ∉ reads || ((received reads).map SendOp.write ++
      [SendOp.finish response status]).isPrefixOf (s.rpcs r).sends))

/-- What gRPC promises about a call with streamed requests. -/
def carriesRequests (r : Nat) (e : Server Req Resp × BlockingClient Req Resp) :
    Label Req Resp ⊕ BlockingLabel Req Resp → Bool
  | .inl (.next _ r' .newConnection ok q) =>
    r' ≠ r || !ok || (e.2.client.stream.isSome && q.isNone)
  | .inl (.next _ r' .read true q) =>
    r' ≠ r || ((e.1.rpcs r).delivered ++ q.toList).isPrefixOf e.2.requests
  | .inl (.next _ r' .read false _) =>
    r' ≠ r || (e.2.writesDone ≠ [] && (e.1.rpcs r).delivered = e.2.requests) ||
      (e.1.rpcs r).sends.any SendOp.isFinish
  | .inl _ => true
  | .inr (.streamRead answer) => carriesRead r e.1 e.2.reads answer
  | .inr (.streamFinish status response) => carriesStatus r e.1 e.2.reads status response
  | .inr _ => true

/-- What gRPC promises about a call with one request and streamed responses. -/
def carriesReads (request : Req) (r : Nat) (e : Server Req Resp × ReadingClient Req Resp) :
    Label Req Resp ⊕ ReadingLabel Req Resp → Bool
  | .inl l => connects request r (e.2.clientReader = some request) l
  | .inr (.streamRead answer) => carriesRead r e.1 e.2.reads answer
  | .inr (.streamFinish status) => carriesStatus r e.1 e.2.reads status none
  | .inr (.write request') => request' = request

variable (Req Resp)

/-- A client with streamed responses, and a server whose `Rpc` numbered `r` serves its call. -/
def streamedCall (options : Options) (maps : List (List (String × RpcHandlerInfo))) (request : Req)
    (r : Nat) : Transition.System (Server Req Resp × StreamingAsyncClient Resp)
      (Label Req Resp ⊕ ClientLabel Resp) :=
  (serverSystem Req Resp options maps).beside (streamingAsyncClient Resp) (carriesStream request r)

/-- A unary client, and a server whose `Rpc` numbered `r` serves its call. -/
def unaryCall (options : Options) (maps : List (List (String × RpcHandlerInfo))) (request : Req)
    (r : Nat) : Transition.System (Server Req Resp × UnaryAsyncClient Resp)
      (Label Req Resp ⊕ UnaryClientLabel Resp) :=
  (serverSystem Req Resp options maps).beside (unaryAsyncClient Resp) (carriesReply request r)

/-- A blocking client with streamed requests, and a server whose `Rpc` numbered `r` serves its
call. -/
def requestsCall (options : Options) (maps : List (List (String × RpcHandlerInfo)))
    (kind : RequestStream) (r : Nat) : Transition.System (Server Req Resp × BlockingClient Req Resp)
      (Label Req Resp ⊕ BlockingLabel Req Resp) :=
  (serverSystem Req Resp options maps).beside (blockingClient Req Resp kind) (carriesRequests r)

/-- A blocking client with streamed responses, and a server whose `Rpc` numbered `r` serves its
call. -/
def readsCall (options : Options) (maps : List (List (String × RpcHandlerInfo))) (request : Req)
    (r : Nat) : Transition.System (Server Req Resp × ReadingClient Req Resp)
      (Label Req Resp ⊕ ReadingLabel Req Resp) :=
  (serverSystem Req Resp options maps).beside (readingClient Req Resp) (carriesReads request r)

end AsyncGrpc
