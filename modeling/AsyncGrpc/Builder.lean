import AsyncGrpc.Server

/-!
# The server builder

Handlers are registered with `Server::Builder` under the full name of their method, which
`ParseMethodFullName` reads with two calls of `std::getline`. A `std::map` is a `TreeMap`:
both are traversed in the order of their keys.
-/

namespace AsyncGrpc

open Std

variable {Req Resp : Type}

/-- The characters a `std::stringstream` has left. It is no longer good once a read has met
the end. -/
structure StringStream where
  rest : List Char
  good : Bool
  deriving DecidableEq, Repr

/-- The function `std::getline`: what it leaves in its string, and the stream after it. The
delimiter is extracted and dropped. A stream that is not good leaves the string alone. -/
def StringStream.getline (stream : StringStream) (str : String) (delim : Char) :
    String × StringStream :=
  if stream.good then
    match stream.rest.dropWhile (· != delim) with
    | [] => (String.ofList (stream.rest.takeWhile (· != delim)), ⟨[], false⟩)
    | _ :: rest => (String.ofList (stream.rest.takeWhile (· != delim)), ⟨rest, true⟩)
  else (str, stream)

/-- A name is refused by the exception of `at(0)` or by a `CHECK`, with the text streamed
into it. -/
inductive Refused
  | outOfRange
  | check (message : String)
  deriving DecidableEq, Repr

/-- What `RegisterHandler` reads of its `RpcHandlerType`. -/
structure RpcHandlerType where
  methodName : String
  streamType : RpcType
  rpcFactory : Nat
  deriving DecidableEq, Repr

def RpcHandlerType.info (handler : RpcHandlerType) : RpcHandlerInfo :=
  ⟨handler.rpcFactory, handler.streamType, handler.methodName⟩

structure Server.Builder where
  options : Options
  rpcHandlers : TreeMap String (TreeMap String RpcHandlerInfo)

namespace Server.Builder

/-- A builder whose options are set and that knows no handler yet. -/
def new (options : Options) : Builder :=
  ⟨options, ∅⟩

def parseMethodFullName (methodFullName : String) : Except Refused (String × String) :=
  match methodFullName.toList with
  | [] => .error .outOfRange
  | c :: rest =>
    if c ≠ '/' then .error (.check "Invalid method name.")
    else
      let serviceFullName := StringStream.getline ⟨rest, true⟩ "" '/'
      let methodName := serviceFullName.2.getline "" '/'
      if serviceFullName.1 ≠ "" ∧ methodName.1 ≠ "" then
        .ok (serviceFullName.1, methodName.1)
      else .error (.check "")

/-- The statement `rpc_handlers_[service_full_name].emplace(method_name, info)`. The entry of
a key that is taken stays. -/
def emplace (b : Builder) (key : String × String) (info : RpcHandlerInfo) : Builder :=
  { b with
    rpcHandlers := b.rpcHandlers.alter key.1
      (fun methods => some ((methods.getD ∅).insertIfNew key.2 info)) }

def registerHandler (b : Builder) (handler : RpcHandlerType) : Except Refused Builder :=
  (parseMethodFullName handler.methodName).map (b.emplace · handler.info)

/-- Calls of `RegisterHandler`, one after another. -/
def registerHandlers : Builder → List RpcHandlerType → Except Refused Builder
  | b, [] => .ok b
  | b, handler :: rest => (b.registerHandler handler).bind (registerHandlers · rest)

/-- The entry of `rpc_handlers_` for a service and a method. -/
def handlerInfo (b : Builder) (key : String × String) : Option RpcHandlerInfo :=
  b.rpcHandlers[key.1]?.bind (·[key.2]?)

/-- The maps that `Build` hands to `AddService`, service by service. -/
def services (b : Builder) : List (List (String × RpcHandlerInfo)) :=
  b.rpcHandlers.toList.map (·.2.toList)

/-- The method `Build`. No two services have one name, so the `CHECK` of `AddService` holds. -/
def build (b : Builder) : Server Req Resp :=
  .new b.options (fun v => b.services.getD v [])

end Server.Builder

end AsyncGrpc
