import AsyncGrpc.AsyncClient

/-!
# Clients that share completion queues

The client side of a process: the queues of the `CompletionQueuePool`, each with the thread that
runs `CompletionQueue::RunCompletionQueue`, and any number of asynchronous clients, each on the
queue that `GetCompletionQueue` chose for it. `CompletionQueuePool::Shutdown` shuts the queues down
one after another, and joins the thread of each before it goes on to the next.

Assumed of gRPC: `Next` returns the completed operations of a queue in any order, and false only
once the queue is shut down and no operation on it is left. An operation that is started on a queue
after its `Shutdown` is a fault.
-/

namespace AsyncGrpc

/-- The objects behind an `AsyncClientInterface`. -/
inductive AsyncClient (Resp : Type)
  | streaming (c : StreamingAsyncClient Resp)
  | unary (c : UnaryAsyncClient Resp)

/-- What gRPC stores when it completes an operation of a client. -/
inductive ClientOutcome (Resp : Type)
  | streaming (completion : Completion Resp)
  | unary (status : Status) (response : Resp)
  deriving DecidableEq, Repr

/-- The instructions that start an operation. -/
def ClientInstr.starts : ClientInstr → Bool
  | .startRead | .startFinish => true
  | .callCallback _ _ | .callbackReturns | .clearCallback | .clearCallbackUnlessOk _
  | .setFinishStatus _ => false

namespace AsyncClient

variable {Resp : Type}

def new (streaming : Bool) (response : Resp) : AsyncClient Resp :=
  if streaming then .streaming (.new true response) else .unary (.new true response)

def written : AsyncClient Resp → Bool
  | .streaming c => c.written
  | .unary c => c.written

def writeAsync : AsyncClient Resp → AsyncClient Resp
  | .streaming c => .streaming c.writeAsync
  | .unary c => .unary c.writeAsync

def complete : ClientOutcome Resp → AsyncClient Resp → Option (AsyncClient Resp)
  | .streaming completion, .streaming c => (c.complete completion).map .streaming
  | .unary status response, .unary c => (c.complete status response).map .unary
  | _, _ => none

/-- `Next` returns a tag of the client, and `HandleEvent` begins. -/
def next : AsyncClient Resp → Option (AsyncClient Resp)
  | .streaming c => c.next.map .streaming
  | .unary c => c.next.map .unary

/-- The rest of the handler that is running. The callback of a unary client is the last thing its
handler does. -/
def task : AsyncClient Resp → List ClientInstr
  | .streaming c => c.task
  | .unary _ => []

def exec : AsyncClient Resp → Option (AsyncClient Resp)
  | .streaming c => c.exec.map .streaming
  | .unary _ => none

/-- The operations that `Next` has not returned yet. -/
def outstanding : AsyncClient Resp → Nat
  | .streaming c => c.inFlight.length + c.completed.length
  | .unary c => c.inFlight + c.completed

end AsyncClient

/-- A client and the queue it was constructed with. -/
structure PooledClient (Resp : Type) where
  queue : Nat
  client : AsyncClient Resp

/-- A completion queue and its thread: the client whose `HandleEvent` is running, whether the queue
is shut down, and whether `Next` has returned false. -/
structure QueueThread where
  handling : Option Nat
  shutDown : Bool
  exited : Bool
  deriving DecidableEq, Repr

structure ClientProcess (Resp : Type) where
  clients : List (PooledClient Resp)
  queues : Nat → QueueThread
  /-- The queue that `CompletionQueuePool::Shutdown` has come to. -/
  shutdown : Option Nat
  /-- The client that started an operation on a queue that is shut down. -/
  fault : Option Nat

inductive ClientProcessLabel (Resp : Type)
  | construct (queue : Nat) (streaming : Bool) (response : Resp)
  | writeAsync (k : Nat)
  | complete (k : Nat) (outcome : ClientOutcome Resp)
  | next (q k : Nat)
  | exec (q : Nat)
  | callShutdown
  | shutdownQueue
  | nextFalse (q : Nat)
  | join
  deriving DecidableEq, Repr

namespace ClientProcess

variable {Resp : Type}

def new : ClientProcess Resp :=
  ⟨[], fun _ => ⟨none, false, false⟩, none, none⟩

def setClient (s : ClientProcess Resp) (k : Nat) (p : PooledClient Resp)
    (client : AsyncClient Resp) : ClientProcess Resp :=
  { s with clients := s.clients.set k { p with client := client } }

def setQueue (s : ClientProcess Resp) (q : Nat) (thread : QueueThread) : ClientProcess Resp :=
  { s with queues := Function.update s.queues q thread }

/-- The constructor, given the queue that `GetCompletionQueue` has returned. -/
def construct (numQueues : Nat) (s : ClientProcess Resp) (q : Nat) (streaming : Bool)
    (response : Resp) : Option (ClientProcess Resp) :=
  if q < numQueues ∧ s.shutdown = none then
    some { s with clients := s.clients ++ [⟨q, .new streaming response⟩] }
  else none

/-- The only call of `WriteAsync` on a client. -/
def writeAsync (s : ClientProcess Resp) (k : Nat) : Option (ClientProcess Resp) :=
  (s.clients[k]?).bind (fun p =>
    if p.client.written then none
    else if (s.queues p.queue).shutDown then some { s with fault := some k }
    else some (s.setClient k p p.client.writeAsync))

def complete (s : ClientProcess Resp) (k : Nat) (outcome : ClientOutcome Resp) :
    Option (ClientProcess Resp) :=
  (s.clients[k]?).bind (fun p => (p.client.complete outcome).map (s.setClient k p))

/-- `Next` returns a tag that points to a client of the queue. -/
def next (s : ClientProcess Resp) (q k : Nat) : Option (ClientProcess Resp) :=
  (s.clients[k]?).bind (fun p =>
    if p.queue = q ∧ (s.queues q).handling = none ∧ (s.queues q).exited = false then
      p.client.next.map (fun client =>
        (s.setClient k p client).setQueue q { s.queues q with handling := some k })
    else none)

/-- One instruction of the handler that runs on the thread, or the end of it. -/
def exec (s : ClientProcess Resp) (q : Nat) : Option (ClientProcess Resp) :=
  (s.queues q).handling.bind (fun k => (s.clients[k]?).bind (fun p =>
    match p.client.task with
    | [] => some (s.setQueue q { s.queues q with handling := none })
    | instr :: _ =>
      if instr.starts ∧ (s.queues q).shutDown then some { s with fault := some k }
      else p.client.exec.map (s.setClient k p)))

/-- `completion_queue_.Shutdown()` in `CompletionQueue::Shutdown`. -/
def shutdownQueue (numQueues : Nat) (s : ClientProcess Resp) : Option (ClientProcess Resp) :=
  s.shutdown.bind (fun i =>
    if i < numQueues ∧ (s.queues i).shutDown = false then
      some (s.setQueue i { s.queues i with shutDown := true })
    else none)

/-- No operation is left on the queue. -/
def drained (s : ClientProcess Resp) (q : Nat) : Bool :=
  s.clients.all (fun p => p.queue ≠ q ∨ p.client.outstanding = 0)

/-- `Next` returns false, and `RunCompletionQueue` returns. -/
def nextFalse (s : ClientProcess Resp) (q : Nat) : Option (ClientProcess Resp) :=
  if (s.queues q).shutDown ∧ (s.queues q).handling = none ∧ (s.queues q).exited = false ∧
      s.drained q then
    some (s.setQueue q { s.queues q with exited := true })
  else none

/-- `thread_->join()`, and the next round of the loop in `CompletionQueuePool::Shutdown`. -/
def join (numQueues : Nat) (s : ClientProcess Resp) : Option (ClientProcess Resp) :=
  s.shutdown.bind (fun i =>
    if i < numQueues ∧ (s.queues i).exited then some { s with shutdown := some (i + 1) } else none)

def step (numQueues : Nat) (s : ClientProcess Resp) (l : ClientProcessLabel Resp) :
    Option (ClientProcess Resp) :=
  if s.fault ≠ none then none
  else match l with
  | .construct q streaming response => s.construct numQueues q streaming response
  | .writeAsync k => s.writeAsync k
  | .complete k outcome => s.complete k outcome
  | .next q k => s.next q k
  | .exec q => s.exec q
  | .callShutdown => if s.shutdown = none then some { s with shutdown := some 0 } else none
  | .shutdownQueue => s.shutdownQueue numQueues
  | .nextFalse q => s.nextFalse q
  | .join => s.join numQueues

end ClientProcess

/-- The runs of a process with a pool of this many queues and clients with callbacks. -/
def clientProcess (Resp : Type) (numQueues : Nat) :
    Transition.System (ClientProcess Resp) (ClientProcessLabel Resp) where
  init s := s = .new
  step := ClientProcess.step numQueues

end AsyncGrpc
