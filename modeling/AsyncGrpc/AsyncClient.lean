import AsyncGrpc.Basic
import AsyncGrpc.Transition

/-!
# The asynchronous clients

The classes `AsyncClient` of `async_client.h` for calls with streamed responses and for unary
calls, driven by `CompletionQueue::RunCompletionQueue`. gRPC completes the operations a client
has started, at any time and with any outcome. The thread of the completion queue takes a
completed operation out with `Next` and runs its handler, one instruction at a time.
-/

namespace AsyncGrpc

/-- The enumeration `CompletionQueue::ClientEvent::Event`. -/
inductive ClientEvent
  | finish
  | read
  | write
  deriving DecidableEq, Repr

/-- A call of the callback with its status and its response, which is none for a null pointer. -/
structure ClientCall (Resp : Type) where
  status : Status
  response : Option Resp
  deriving DecidableEq, Repr

/-- How gRPC completes an operation: whether it is ok, and what it stores. -/
inductive Completion (Resp : Type)
  | write (ok : Bool)
  | read (response : Option Resp)
  | finish (ok : Bool) (status : Status)
  deriving DecidableEq, Repr

namespace Completion

variable {Resp : Type}

def event : Completion Resp → ClientEvent
  | .write _ => .write
  | .read _ => .read
  | .finish _ _ => .finish

/-- The flag that `Next` returns. A read is ok when there is a response. -/
def ok : Completion Resp → Bool
  | .write ok => ok
  | .read response => response.isSome
  | .finish ok _ => ok

/-- The response that a read received. -/
def response : Completion Resp → Option Resp
  | .read response => response
  | _ => none

end Completion

/-- The steps of the event handlers of `AsyncClient` for `SERVER_STREAMING`. A call of
the callback leaves `callbackReturns` to be done. -/
inductive ClientInstr
  | callCallback (status : Status) (withResponse : Bool)
  | callbackReturns
  | clearCallback
  | clearCallbackUnlessOk (event : ClientEvent)
  | setFinishStatus (status : Status)
  | startRead
  | startFinish
  deriving DecidableEq, Repr

/-- The class `AsyncClient` for `SERVER_STREAMING`, with the operations that gRPC holds for it. -/
structure StreamingAsyncClient (Resp : Type) where
  /-- Whether `callback_` is not empty. -/
  callback : Bool
  eventOk : ClientEvent → Bool
  response : Resp
  finishStatus : Status
  /-- The operations started and not completed yet. -/
  inFlight : List ClientEvent
  /-- The completed operations that `Next` has not returned yet. -/
  completed : List (Completion Resp)
  /-- The rest of the handler that is running. -/
  task : List ClientInstr
  -- Histories: what `Next` has returned, and the calls of the callback.
  written : Bool
  returned : List (Completion Resp)
  calls : List (ClientCall Resp)

namespace StreamingAsyncClient

variable {Resp : Type}

def new (callback : Bool) (response : Resp) : StreamingAsyncClient Resp where
  callback := callback
  eventOk := fun _ => false
  response := response
  finishStatus := .ok
  inFlight := []
  completed := []
  task := []
  written := false
  returned := []
  calls := []

/-- Creating the `ClientAsyncReader` starts the call with the tag of `write_event_`. -/
def writeAsync (c : StreamingAsyncClient Resp) : StreamingAsyncClient Resp :=
  { c with written := true, inFlight := c.inFlight ++ [.write] }

def writeFailed : Status :=
  ⟨.internal, "Write failed in async server streaming."⟩

def finishFailed : Status :=
  ⟨.internal, "Finish failed in async server streaming."⟩

def handleWriteEvent (c : StreamingAsyncClient Resp) : List ClientInstr :=
  if c.eventOk .write then
    [.startRead]
  else
    (if c.callback then [.callCallback writeFailed false, .clearCallback] else [])
      ++ [.setFinishStatus writeFailed, .startFinish]

def handleReadEvent (c : StreamingAsyncClient Resp) : List ClientInstr :=
  if c.eventOk .read then
    (if c.callback then [.callCallback .ok true, .clearCallbackUnlessOk .read] else [])
      ++ [.startRead]
  else
    [.setFinishStatus .ok, .startFinish]

def handleFinishEvent (c : StreamingAsyncClient Resp) : List ClientInstr :=
  if c.callback then
    [.callCallback (if c.eventOk .finish then .ok else finishFailed) false, .clearCallback]
  else
    []

def handleEvent (event : ClientEvent) (c : StreamingAsyncClient Resp) : List ClientInstr :=
  match event with
  | .write => c.handleWriteEvent
  | .read => c.handleReadEvent
  | .finish => c.handleFinishEvent

/-- What gRPC stores when it completes an operation: the response of a read in `response_`, the
status of the call in `finish_status_`. -/
def store (completion : Completion Resp) (c : StreamingAsyncClient Resp) :
    StreamingAsyncClient Resp :=
  match completion with
  | .write _ => c
  | .read none => c
  | .read (some response) => { c with response := response }
  | .finish _ status => { c with finishStatus := status }

/-- gRPC completes an operation that it holds. -/
def complete (completion : Completion Resp) (c : StreamingAsyncClient Resp) :
    Option (StreamingAsyncClient Resp) :=
  if completion.event ∈ c.inFlight then
    some (store completion { c with
      inFlight := c.inFlight.erase completion.event
      completed := c.completed ++ [completion] })
  else
    none

/-- One turn of `RunCompletionQueue`: `Next` returns, and the handler of the event starts. The
thread runs a handler to its end before it calls `Next` again. -/
def next (c : StreamingAsyncClient Resp) : Option (StreamingAsyncClient Resp) :=
  match c.task, c.completed with
  | [], completion :: completed =>
    let c := { c with
      completed := completed
      returned := c.returned ++ [completion]
      eventOk := Function.update c.eventOk completion.event completion.ok }
    some { c with task := c.handleEvent completion.event }
  | _, _ => none

/-- One instruction of the handler that is running. -/
def exec (c : StreamingAsyncClient Resp) : Option (StreamingAsyncClient Resp) :=
  match c.task with
  | [] => none
  | instr :: task =>
    let c := { c with task := task }
    some (match instr with
      | .callCallback status withResponse =>
        { c with
          task := .callbackReturns :: task
          calls := c.calls ++ [⟨status, if withResponse then some c.response else none⟩] }
      | .callbackReturns => c
      | .clearCallback => { c with callback := false }
      | .clearCallbackUnlessOk event => if c.eventOk event then c else { c with callback := false }
      | .setFinishStatus status => { c with finishStatus := status }
      | .startRead => { c with inFlight := c.inFlight ++ [.read] }
      | .startFinish => { c with inFlight := c.inFlight ++ [.finish] })

/-- The callback has been called and has not returned yet. -/
def InCallback (c : StreamingAsyncClient Resp) : Prop :=
  c.task.head? = some .callbackReturns

end StreamingAsyncClient

inductive ClientLabel (Resp : Type)
  | writeAsync
  | complete (completion : Completion Resp)
  | next
  | exec
  deriving DecidableEq, Repr

/-- An asynchronous client with a callback on which `WriteAsync` is called once. -/
def streamingAsyncClient (Resp : Type) :
    Transition.System (StreamingAsyncClient Resp) (ClientLabel Resp) where
  init c := ∃ response, c = .new true response
  step c l :=
    match l with
    | .writeAsync => if c.written then none else some c.writeAsync
    | .complete completion => c.complete completion
    | .next => c.next
    | .exec => c.exec

/-- The class `AsyncClient` for `NORMAL_RPC`. -/
structure UnaryAsyncClient (Resp : Type) where
  callback : Bool
  status : Status
  response : Resp
  inFlight : Nat
  completed : Nat
  -- Histories.
  written : Bool
  final : Option (Status × Resp)
  calls : List (ClientCall Resp)

namespace UnaryAsyncClient

variable {Resp : Type}

def new (callback : Bool) (response : Resp) : UnaryAsyncClient Resp :=
  ⟨callback, .ok, response, 0, 0, false, none, []⟩

/-- Starts the call and its only operation, with the tag of `finish_event_`. -/
def writeAsync (c : UnaryAsyncClient Resp) : UnaryAsyncClient Resp :=
  { c with written := true, inFlight := c.inFlight + 1 }

/-- gRPC completes the operation and stores the status and the response. -/
def complete (status : Status) (response : Resp) (c : UnaryAsyncClient Resp) :
    Option (UnaryAsyncClient Resp) :=
  if 0 < c.inFlight then
    some { c with
      inFlight := c.inFlight - 1
      completed := c.completed + 1
      status := status
      response := response
      final := some (status, response) }
  else
    none

def handleFinishEvent (c : UnaryAsyncClient Resp) : UnaryAsyncClient Resp :=
  if c.callback then
    { c with calls := c.calls ++ [⟨c.status, if c.status.isOk then some c.response else none⟩] }
  else
    c

def next (c : UnaryAsyncClient Resp) : Option (UnaryAsyncClient Resp) :=
  if 0 < c.completed then some (handleFinishEvent { c with completed := c.completed - 1 }) else none

end UnaryAsyncClient

inductive UnaryClientLabel (Resp : Type)
  | writeAsync
  | complete (status : Status) (response : Resp)
  | next
  deriving DecidableEq, Repr

/-- An asynchronous unary client with a callback on which `WriteAsync` is called once. -/
def unaryAsyncClient (Resp : Type) :
    Transition.System (UnaryAsyncClient Resp) (UnaryClientLabel Resp) where
  init c := ∃ response, c = .new true response
  step c l :=
    match l with
    | .writeAsync => if c.written then none else some c.writeAsync
    | .complete status response => c.complete status response
    | .next => c.next

end AsyncGrpc
