import AsyncGrpc.Rpc

/-!
# Event handling and `Writer` calls

The handlers of `service.cc` as the instructions they run on their `Rpc`, the meaning of each
instruction, and the steps of a `Writer` call of `rpc_handler.h`. An instruction is executed
atomically: it is a section under one mutex, one call into gRPC, or code that touches nothing
another thread reads.
-/

namespace AsyncGrpc

variable {Req Resp : Type}

/-- The method `Rpc::Write`: enqueue, look up the weak pointer, push `WRITE_NEEDED`. -/
def Rpc.write (message : Resp) : List (Instr Resp) :=
  [.enqueueMessage ⟨some message, .ok⟩, .getWeakPtr, .pushWriteNeeded]

/-- The method `Rpc::Finish`. -/
def Rpc.finish (status : Status) : List (Instr Resp) :=
  [.enqueueMessage ⟨none, status⟩, .getWeakPtr, .pushWriteNeeded]

/-- The methods `Send`, `Finish` and `GetWriter` of `RpcHandler`. -/
def HandlerAction.instrs : HandlerAction Resp → List (Instr Resp)
  | .send response => Rpc.write response
  | .finish status => Rpc.finish status
  | .getWriter => [.getWriter]

/-- What a handler passes to the send queue with an action. -/
def HandlerAction.item : HandlerAction Resp → Option (SendItem Resp)
  | .send response => some ⟨some response, .ok⟩
  | .finish status => some ⟨none, status⟩
  | .getWriter => none

/-- With `ok = false` the `Rpc` is removed and still cloned. -/
def Service.handleNewConnection (shuttingDown ok : Bool) : List (Instr Resp) :=
  if shuttingDown then [.remove]
  else (if ok then [] else [.remove]) ++ (if ok then [.onConnection] else []) ++ [.clone]

def Service.handleRead (ok : Bool) : List (Instr Resp) :=
  if ok then [.callback .onRequest, .requestStreamingReadIfNeeded]
  else [.callback .onReadsDone, .removeIfNotPending]

/-- A failed write is only logged. -/
def Service.handleWrite (_ok : Bool) : List (Instr Resp) :=
  [.handleSendQueue, .removeIfNotPending]

def Service.handleFinish (_ok : Bool) : List (Instr Resp) :=
  [.callback .onFinish, .removeIfNotPending]

def Service.handleDone (_ok : Bool) : List (Instr Resp) :=
  [.removeIfNotPending]

def Service.handleEvent (event : Event) (ok : Bool) : List (Instr Resp) :=
  match event with
  | .newConnection => [.handleNewConnection ok]
  | .read => handleRead ok
  | .writeNeeded | .write => handleWrite ok
  | .finish => handleFinish ok
  | .done => handleDone ok

/-- The end of the scope in which `InternalRpcEvent::Handle` owns the `Rpc`. -/
def Instr.isReleaseShared : Instr Resp → Bool
  | .releaseShared => true
  | _ => false

/-- What an instruction reads outside its `Rpc`: membership in `ActiveRpcs`, whether a
`shared_ptr` still owns the `Rpc`, and `shutting_down_` of its service. -/
structure Surroundings where
  active : Bool
  alive : Bool
  shuttingDown : Bool

/-- What an instruction asks of the service. -/
inductive Effect
  | none | pushWriteNeeded | remove | clone
  deriving DecidableEq, Repr

structure Outcome (Req Resp : Type) where
  rpc : Rpc Req Resp
  next : List (Instr Resp)
  effect : Effect

/-- Executes one instruction: the `Rpc` after it, the instructions that take its place, and
the effect on the service. The result is none where a `CHECK` fails or a missing handler is
called. The actions are those of the handler, should the instruction be a callback. -/
def Instr.run (env : Surroundings) (acts : List (HandlerAction Resp)) (x : Rpc Req Resp) :
    Instr Resp → Option (Outcome Req Resp)
  | .handle tag => some ⟨x.startHandling tag, Service.handleEvent tag.event (x.event tag).ok, .none⟩
  | .handleInternal =>
    if env.alive then some ⟨x, Service.handleEvent .writeNeeded true ++ [.releaseShared], .none⟩
    else some ⟨x, [], .none⟩
  | .releaseShared => some ⟨x, [], .none⟩
  | .handleNewConnection ok => some ⟨x, Service.handleNewConnection env.shuttingDown ok, .none⟩
  | .remove => some ⟨x, [], .remove⟩
  | .onConnection => some ⟨x.onConnection.1, x.onConnection.2, .none⟩
  | .callback kind =>
    if x.handler then
      some ⟨{ x with
          callbacks := x.callbacks ++ [x.callback kind]
          passed := x.passed ++ acts.filterMap HandlerAction.item },
        acts.flatMap HandlerAction.instrs, .none⟩
    else none
  | .requestStreamingReadIfNeeded =>
    some ⟨x.requestStreamingReadIfNeeded.1, x.requestStreamingReadIfNeeded.2, .none⟩
  | .handleSendQueue => some ⟨x.handleSendQueue.1, x.handleSendQueue.2, .none⟩
  | .performFinish item => (x.performFinish item).map (fun y => ⟨y, [], .none⟩)
  | .performWrite item => (x.performWrite item).map (fun y => ⟨y, [], .none⟩)
  | .removeIfNotPending => some ⟨x, [], if x.isAnyEventPending then .none else .remove⟩
  | .clone => some ⟨x, [], .clone⟩
  | .enqueueMessage item => some ⟨x.enqueueMessage item, [], .none⟩
  | .getWeakPtr => if env.active then some ⟨x, [], .none⟩ else none
  | .pushWriteNeeded => some ⟨x, [], .pushWriteNeeded⟩
  | .getWriter => if env.active then some ⟨{ x with hasWriter := true }, [], .none⟩ else none

/-- The public methods of `RpcHandler::Writer`. -/
inductive WriterMethod (Resp : Type)
  | write (message : Resp)
  | writesDone
  | finish (status : Status)
  deriving DecidableEq, Repr

def WriterMethod.item : WriterMethod Resp → SendItem Resp
  | .write message => ⟨some message, .ok⟩
  | .writesDone => ⟨none, .ok⟩
  | .finish status => ⟨none, status⟩

/-- Where a `Writer` call stands: before `rpc_.lock()`, then after each of its steps. -/
inductive WriterPc
  | calling | locked | enqueued | lookedUp | pushed
  | returned (result : Bool)
  deriving DecidableEq, Repr

structure WriterCall (Resp : Type) where
  item : SendItem Resp
  pc : WriterPc
  deriving DecidableEq, Repr

namespace WriterCall

/-- The call owns a `shared_ptr` to its `Rpc`. -/
def holds (w : WriterCall Resp) : Bool :=
  match w.pc with
  | .locked | .enqueued | .lookedUp | .pushed => true
  | .calling | .returned _ => false

/-- The call owns the `Rpc` and has not looked it up in `ActiveRpcs` yet. -/
def beforeLookup (w : WriterCall Resp) : Bool :=
  match w.pc with
  | .locked | .enqueued => true
  | .calling | .lookedUp | .pushed | .returned _ => false

/-- The call has enqueued its item and not pushed its `WRITE_NEEDED` event yet. -/
def beforePush (w : WriterCall Resp) : Bool :=
  match w.pc with
  | .enqueued | .lookedUp => true
  | .calling | .locked | .pushed | .returned _ => false

def isReturned (w : WriterCall Resp) : Bool :=
  match w.pc with
  | .returned _ => true
  | .calling | .locked | .enqueued | .lookedUp | .pushed => false

/-- The next step of a call. The result is none where the `CHECK` of `GetWeakPtr` fails. -/
def step (env : Surroundings) (x : Rpc Req Resp) (w : WriterCall Resp) :
    Option (Rpc Req Resp × WriterCall Resp × Effect) :=
  match w.pc with
  | .calling =>
    if env.alive then some (x, { w with pc := .locked }, .none)
    else some (x, { w with pc := .returned false }, .none)
  | .locked => some (x.enqueueMessage w.item, { w with pc := .enqueued }, .none)
  | .enqueued => if env.active then some (x, { w with pc := .lookedUp }, .none) else none
  | .lookedUp => some (x, { w with pc := .pushed }, .pushWriteNeeded)
  | .pushed => some (x, { w with pc := .returned true }, .none)
  | .returned result => some (x, { w with pc := .returned result }, .none)

end WriterCall

end AsyncGrpc
