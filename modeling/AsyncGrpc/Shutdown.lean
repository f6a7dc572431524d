import AsyncGrpc.Server

/-!
# Shutting the server down

The loops `RunEventQueue` and `RunCompletionQueue` around the steps of their threads, the thread
that runs `Server::Shutdown`, and what gRPC promises about `Next` and its own `Shutdown`. A
`Process` holds the `Server` and where each of these loops stands.
-/

namespace AsyncGrpc

open Function

variable {Req Resp : Type}

/-- Where `RunEventQueue` stands between events: about to test `shutting_down_`, inside
`PopWithTimeout` of its first or of its second loop, or returned. -/
inductive EventLoop
  | testing | popping | draining | left
  deriving DecidableEq, Repr

/-- Where `Server::Shutdown` stands. -/
inductive ShutdownStage
  | notCalled
  | stopServing (service : Nat)
  | grpcShutdown
  | shutdownQueue (cq : Nat)
  | joinQueue (cq : Nat)
  | joinEventThread (thread : Nat)
  | returned
  deriving DecidableEq, Repr

structure Process (Req Resp : Type) where
  server : Server Req Resp
  numServices : Nat
  shuttingDown : Bool
  stage : ShutdownStage
  loops : Nat → EventLoop
  -- gRPC's side: the completion queues that `Shutdown` was called on, those whose `Next` has
  -- returned false, and the calls that have ended at the transport.
  queueShutdown : Nat → Bool
  queueLeft : Nat → Bool
  ended : Nat → Bool
  -- Histories: the events pushed to each queue and popped from it.
  pushed : Nat → List QueuedEvent
  popped : Nat → List QueuedEvent

inductive ProcessLabel (Req Resp : Type)
  | server (label : Label Req Resp)
  | shutdown
  | test (thread : Nat)
  | timeout (thread : Nat)
  | nextFalse (cq : Nat)
  | endCall (rpc : Nat)
  deriving DecidableEq

/-- An operation that gRPC holds and will return: `DONE` only once there is a call. -/
def Rpc.owed (x : Rpc Req Resp) (tag : Tag) : Bool :=
  0 < x.inFlight tag && (tag ≠ .done || x.connected = some true)

namespace Process

/-- `Next` returns no tag after it has returned false, only a thread inside `PopWithTimeout` pops,
and `StopServing` is left to `Server::Shutdown`. -/
def admits (p : Process Req Resp) : Label Req Resp → Bool
  | .next cq _ _ _ _ => !p.queueLeft cq
  | .pop t => p.loops t = .popping || p.loops t = .draining
  | .stopServing _ => false
  | .pushToEventQueue _ | .exec _ _ | .callWriter _ _ | .stepWriter _ _ => true

/-- A thread in the first loop tests `shutting_down_` again once it has handled the event. -/
def loopsAfter (p : Process Req Resp) : Label Req Resp → Nat → EventLoop
  | .pop t => if p.loops t = .popping then update p.loops t .testing else p.loops
  | _ => p.loops

def poppedBy (p : Process Req Resp) : Label Req Resp → Nat → List QueuedEvent
  | .pop t => update (fun _ => []) t (p.server.eventQueues t).head?.toList
  | _ => fun _ => []

/-- A step of the server under its loops. -/
def serverStep (p : Process Req Resp) (l : Label Req Resp) : Option (Process Req Resp) :=
  if p.admits l then
    (p.server.step l).map (fun s =>
      { p with
        server := s
        loops := p.loopsAfter l
        pushed := fun q => p.pushed q ++ (s.eventQueues q).drop (p.server.eventQueues q).length
        popped := fun q => p.popped q ++ p.poppedBy l q })
  else none

/-- All calls have ended, so that `server_->Shutdown()` may return. -/
def callsEnded (p : Process Req Resp) : Bool :=
  (List.range p.server.nextRpc).all (fun r =>
    (p.server.rpcs r).connected ≠ some true || p.ended r)

/-- The next step of `Server::Shutdown`. -/
def shutdownStep (p : Process Req Resp) : Option (Process Req Resp) :=
  match p.stage with
  | .notCalled => some { p with shuttingDown := true, stage := .stopServing 0 }
  | .stopServing v =>
    if v < p.numServices then
      some { p with server := p.server.stopServing v, stage := .stopServing (v + 1) }
    else some { p with stage := .grpcShutdown }
  | .grpcShutdown => if p.callsEnded then some { p with stage := .shutdownQueue 0 } else none
  | .shutdownQueue cq =>
    if cq < p.server.options.numGrpcThreads then
      some { p with queueShutdown := update p.queueShutdown cq true, stage := .joinQueue cq }
    else some { p with stage := .joinEventThread 0 }
  | .joinQueue cq => if p.queueLeft cq then some { p with stage := .shutdownQueue (cq + 1) } else none
  | .joinEventThread t =>
    if t < p.server.options.numEventThreads then
      if p.loops t = .left then some { p with stage := .joinEventThread (t + 1) } else none
    else some { p with stage := .returned }
  | .returned => none

/-- A thread that is not handling an event tests `shutting_down_`. -/
def test (p : Process Req Resp) (t : Nat) : Option (Process Req Resp) :=
  if p.loops t = .testing ∧ (p.server.tasks t).code = [] then
    some { p with loops := update p.loops t (if p.shuttingDown then .draining else .popping) }
  else none

/-- `PopWithTimeout` returns null, which it may do whenever the queue is empty. -/
def timeout (p : Process Req Resp) (t : Nat) : Option (Process Req Resp) :=
  if (p.server.tasks t).code = [] ∧ p.server.eventQueues t = [] then
    match p.loops t with
    | .popping => some { p with loops := update p.loops t .testing }
    | .draining => some { p with loops := update p.loops t .left }
    | .testing | .left => none
  else none

/-- Nothing of the completion queue is left to be returned. -/
def drained (p : Process Req Resp) (cq : Nat) : Bool :=
  p.server.inHand cq = none && (List.range p.server.nextRpc).all (fun r =>
    (p.server.rpcs r).serverCompletionQueue ≠ cq ||
      Tag.all.all (fun tag => !(p.server.rpcs r).owed tag))

/-- `Next` returns false on a queue that was shut down and drained, and its thread returns. -/
def nextFalse (p : Process Req Resp) (cq : Nat) : Option (Process Req Resp) :=
  if p.queueShutdown cq ∧ p.drained cq then
    some { p with queueLeft := update p.queueLeft cq true }
  else none

/-- A call ends: the server has finished it or the client has cancelled it. -/
def endCall (p : Process Req Resp) (r : Nat) : Option (Process Req Resp) :=
  if (p.server.rpcs r).connected = some true then
    some { p with ended := update p.ended r true }
  else none

def step (p : Process Req Resp) (l : ProcessLabel Req Resp) : Option (Process Req Resp) :=
  if p.server.fault ≠ none then none
  else match l with
  | .server l => p.serverStep l
  | .shutdown => p.shutdownStep
  | .test t => p.test t
  | .timeout t => p.timeout t
  | .nextFalse cq => p.nextFalse cq
  | .endCall r => p.endCall r

def start (options : Options) (maps : List (List (String × RpcHandlerInfo))) :
    Process Req Resp where
  server := .start options maps
  numServices := maps.length
  shuttingDown := false
  stage := .notCalled
  loops := fun _ => .testing
  queueShutdown := fun _ => false
  queueLeft := fun _ => false
  ended := fun _ => false
  pushed := fun _ => []
  popped := fun _ => []

end Process

/-- The runs of a started server whose `Shutdown` may be called. -/
def processSystem (Req Resp : Type) (options : Options)
    (maps : List (List (String × RpcHandlerInfo))) :
    Transition.System (Process Req Resp) (ProcessLabel Req Resp) where
  init := fun p => p = .start options maps
  step := Process.step

end AsyncGrpc
