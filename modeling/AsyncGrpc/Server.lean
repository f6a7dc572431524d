import AsyncGrpc.Service
import AsyncGrpc.Transition
import Mathlib.Data.Finset.Insert
import Mathlib.Data.Finset.Erase

/-!
# The server

All services of a `Server` with their `ActiveRpcs`, the event queues and event threads, the
completion queue threads, and the `Writer` calls of other threads. `Rpc` objects are
numbered in the order of their construction and keep their last value once they are erased.
One label is one step of one thread or of gRPC, so that a list of labels is an interleaving.
-/

namespace AsyncGrpc

open Function

variable {Req Resp : Type}

/-- A server needs an event thread: `SelectNextEventQueueRoundRobin` takes a remainder by
their number. -/
structure Options where
  numGrpcThreads : Nat
  numEventThreads : Nat
  numEventThreads_pos : 0 < numEventThreads

/-- The entries of `rpc_handler_infos_` stand in the order in which the map is traversed.
The list `methods` holds what the constructor registered with `AddMethod`. -/
structure Service where
  rpcHandlerInfos : List (String × RpcHandlerInfo)
  methods : List (String × RpcType)
  activeRpcs : Finset Nat
  shuttingDown : Bool

/-- The constructor's loop over the map. -/
def Service.addMethods (methods : List (String × RpcType)) :
    List (String × RpcHandlerInfo) → List (String × RpcType)
  | [] => methods
  | info :: rest =>
    addMethods (methods ++ [(info.2.fullyQualifiedName, info.2.rpcType)]) rest

def Service.new (rpcHandlerInfos : List (String × RpcHandlerInfo)) : Service :=
  ⟨rpcHandlerInfos, addMethods [] rpcHandlerInfos, ∅, false⟩

/-- The `Rpc` whose event an event thread handles, and the instructions left to run. -/
structure Task (Resp : Type) where
  rpc : Nat
  code : List (Instr Resp)
  deriving DecidableEq, Repr

/-- The thread that brought the process down. -/
inductive Fault
  | eventThread (thread : Nat)
  | writer (rpc call : Nat)
  deriving DecidableEq, Repr

structure Server (Req Resp : Type) where
  options : Options
  services : Nat → Service
  currentEventQueueId : Nat
  rpcs : Nat → Rpc Req Resp
  nextRpc : Nat
  eventQueues : Nat → List QueuedEvent
  tasks : Nat → Task Resp
  inHand : Nat → Option (Nat × Tag × Bool)
  writers : Nat → List (WriterCall Resp)
  fault : Option Fault

inductive Label (Req Resp : Type)
  | next (cq rpc : Nat) (tag : Tag) (ok : Bool) (request : Option Req)
  | pushToEventQueue (cq : Nat)
  | pop (thread : Nat)
  | exec (thread : Nat) (acts : List (HandlerAction Resp))
  | callWriter (rpc : Nat) (method : WriterMethod Resp)
  | stepWriter (rpc call : Nat)
  | stopServing (service : Nat)
  deriving DecidableEq

namespace Server

/-- Membership in the `ActiveRpcs` of the service of the `Rpc`. -/
def active (s : Server Req Resp) (r : Nat) : Bool :=
  r ∈ (s.services (s.rpcs r).service).activeRpcs

/-- An event thread inside `InternalRpcEvent::Handle` owns the `Rpc`. Those events are only
pushed to the `event_queue_` of the `Rpc`. -/
def sharedByTask (s : Server Req Resp) (r : Nat) : Bool :=
  let task := s.tasks (s.rpcs r).eventQueue
  task.rpc = r && task.code.any Instr.isReleaseShared

/-- Whether `weak_ptr::lock` succeeds. -/
def alive (s : Server Req Resp) (r : Nat) : Bool :=
  s.active r || (s.writers r).any WriterCall.holds || s.sharedByTask r

def surroundings (s : Server Req Resp) (r : Nat) : Surroundings :=
  ⟨s.active r, s.alive r, (s.services (s.rpcs r).service).shuttingDown⟩

def setRpc (s : Server Req Resp) (r : Nat) (x : Rpc Req Resp) : Server Req Resp :=
  { s with rpcs := update s.rpcs r x }

def setTask (s : Server Req Resp) (t : Nat) (task : Task Resp) : Server Req Resp :=
  { s with tasks := update s.tasks t task }

def setInHand (s : Server Req Resp) (cq : Nat) (tag : Option (Nat × Tag × Bool)) :
    Server Req Resp :=
  { s with inHand := update s.inHand cq tag }

def setWriters (s : Server Req Resp) (r : Nat) (calls : List (WriterCall Resp)) :
    Server Req Resp :=
  { s with writers := update s.writers r calls }

def setEventQueue (s : Server Req Resp) (q : Nat) (events : List QueuedEvent) :
    Server Req Resp :=
  { s with eventQueues := update s.eventQueues q events }

def push (s : Server Req Resp) (q : Nat) (e : QueuedEvent) : Server Req Resp :=
  s.setEventQueue q (s.eventQueues q ++ [e])

def setActive (s : Server Req Resp) (v : Nat) (rpcs : Finset Nat) : Server Req Resp :=
  { s with services := update s.services v { s.services v with activeRpcs := rpcs } }

/-- The method `ActiveRpcs::Remove`. -/
def removeRpc (s : Server Req Resp) (r : Nat) : Server Req Resp :=
  let v := (s.rpcs r).service
  s.setActive v ((s.services v).activeRpcs.erase r)

/-- The method `Service::StopServing`. -/
def stopServing (s : Server Req Resp) (v : Nat) : Server Req Resp :=
  { s with services := update s.services v { s.services v with shuttingDown := true } }

/-- The queue `SelectNextEventQueueRoundRobin` returns. -/
def nextEventQueue (s : Server Req Resp) : Nat :=
  (s.currentEventQueueId + 1) % s.options.numEventThreads

/-- Adds a new `Rpc` to the `ActiveRpcs` of its service and registers it with gRPC. The
event queue has just been selected for it. No other thread knows the `Rpc` before gRPC
returns its tag, so this is one step. -/
def addRpc (s : Server Req Resp) (x : Rpc Req Resp) : Server Req Resp :=
  let r := s.nextRpc
  let v := x.service
  { (s.setRpc r x.requestNextMethodInvocation).setActive v (insert r (s.services v).activeRpcs) with
    nextRpc := r + 1
    currentEventQueueId := s.nextEventQueue }

/-- The end of `HandleNewConnection`. The clone is told its queue by `SetEventQueue`. -/
def cloneRpc (s : Server Req Resp) (r : Nat) : Server Req Resp :=
  s.addRpc { (s.rpcs r).clone.setEventQueue s.nextEventQueue with parent := some r }

def apply (s : Server Req Resp) (r : Nat) : Effect → Server Req Resp
  | .none => s
  | .pushWriteNeeded => s.push (s.rpcs r).eventQueue (.internal r)
  | .remove => s.removeRpc r
  | .clone => s.cloneRpc r

/-- An event thread executes its next instruction. -/
def exec (s : Server Req Resp) (t : Nat) (acts : List (HandlerAction Resp)) :
    Option (Server Req Resp) :=
  match (s.tasks t).code with
  | [] => none
  | i :: rest =>
    let r := (s.tasks t).rpc
    match i.run (s.surroundings r) acts (s.rpcs r) with
    | none => some { s with fault := some (.eventThread t) }
    | some o => some (((s.setRpc r o.rpc).setTask t ⟨r, o.next ++ rest⟩).apply r o.effect)

/-- A `Writer` call takes its next step. -/
def stepWriter (s : Server Req Resp) (r i : Nat) : Option (Server Req Resp) :=
  match (s.writers r)[i]? with
  | none => none
  | some w =>
    if w.isReturned then none
    else match w.step (s.surroundings r) (s.rpcs r) with
    | none => some { s with fault := some (.writer r i) }
    | some (x, w', effect) =>
      some (((s.setRpc r x).setWriters r ((s.writers r).set i w')).apply r effect)

def handler : QueuedEvent → Instr Resp
  | .completion _ tag => .handle tag
  | .internal _ => .handleInternal

/-- An idle event thread pops the next event of its queue. -/
def pop (s : Server Req Resp) (t : Nat) : Option (Server Req Resp) :=
  match (s.tasks t).code, s.eventQueues t with
  | [], e :: rest =>
    if t < s.options.numEventThreads then
      some ((s.setEventQueue t rest).setTask t ⟨e.rpc, [handler e]⟩)
    else none
  | _, _ => none

/-- The completion queue's `Next` returns a tag to its thread. -/
def next (s : Server Req Resp) (cq r : Nat) (tag : Tag) (ok : Bool) (request : Option Req) :
    Option (Server Req Resp) :=
  if cq < s.options.numGrpcThreads ∧ s.inHand cq = none ∧ r < s.nextRpc ∧
      (s.rpcs r).serverCompletionQueue = cq ∧ (s.rpcs r).mayReturn tag ok request = true then
    some ((s.setRpc r ((s.rpcs r).returnTag tag ok request)).setInHand cq (some (r, tag, ok)))
  else none

/-- The rest of an iteration of `RunCompletionQueue`: the result is stored in the event,
which is pushed to the queue it names. -/
def pushToEventQueue (s : Server Req Resp) (cq : Nat) : Option (Server Req Resp) :=
  match s.inHand cq with
  | none => none
  | some (r, tag, ok) =>
    some (((s.setRpc r ((s.rpcs r).setOk tag ok)).setInHand cq none).push
      ((s.rpcs r).event tag).eventQueue (.completion r tag))

def step (s : Server Req Resp) (l : Label Req Resp) : Option (Server Req Resp) :=
  if s.fault ≠ none then none
  else match l with
  | .next cq r tag ok request => s.next cq r tag ok request
  | .pushToEventQueue cq => s.pushToEventQueue cq
  | .pop t => s.pop t
  | .exec t acts => s.exec t acts
  | .callWriter r method =>
    if r < s.nextRpc ∧ (s.rpcs r).hasWriter = true then
      some (s.setWriters r (s.writers r ++ [⟨method.item, .calling⟩]))
    else none
  | .stepWriter r i => s.stepWriter r i
  | .stopServing v => some (s.stopServing v)

/-- The inner loop of `Service::StartServing`: one `Rpc` on each completion queue. -/
def startMethod (s : Server Req Resp) (v i : Nat) (info : RpcHandlerInfo) : Server Req Resp :=
  (List.range s.options.numGrpcThreads).foldl
    (fun s cq => s.addRpc (.new i cq s.nextEventQueue info v)) s

/-- The outer loop of `Service::StartServing`, with its counter `i`. -/
def startServing (v : Nat) :
    Nat → List (String × RpcHandlerInfo) → Server Req Resp → Server Req Resp
  | _, [], s => s
  | i, info :: rest, s => startServing v (i + 1) rest (s.startMethod v i info.2)

/-- The server before `Start`: each service is constructed from its map of handler infos. -/
def new (options : Options) (maps : Nat → List (String × RpcHandlerInfo)) : Server Req Resp where
  options := options
  services := fun v => .new (maps v)
  currentEventQueueId := 0
  rpcs := fun _ => .new 0 0 0 ⟨0, .normalRpc, ""⟩ 0
  nextRpc := 0
  eventQueues := fun _ => []
  tasks := fun _ => ⟨0, []⟩
  inHand := fun _ => none
  writers := fun _ => []
  fault := none

/-- The method `Server::Start`, up to the start of the threads. -/
def start (options : Options) (maps : List (List (String × RpcHandlerInfo))) : Server Req Resp :=
  (List.range maps.length).foldl (fun s v => startServing v 0 (maps.getD v []) s)
    (.new options (fun v => maps.getD v []))

end Server

/-- The runs of a started server. -/
def serverSystem (Req Resp : Type) (options : Options)
    (maps : List (List (String × RpcHandlerInfo))) :
    Transition.System (Server Req Resp) (Label Req Resp) where
  init := fun s => s = .start options maps
  step := Server.step

end AsyncGrpc
