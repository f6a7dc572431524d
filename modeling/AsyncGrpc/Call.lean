import AsyncGrpc.Server

/-!
# One call as a machine of its own

A `Call` is what a single `Rpc` sees of the server when all its events go through one queue:
the `Rpc` with its place in `ActiveRpcs`, the tag its completion queue thread holds, its part
of the event queue, the instructions its event thread is running on it, and the `Writer`
calls on it. The laws of a single `Rpc` are proved for this machine.
-/

namespace AsyncGrpc

variable {Req Resp : Type}

/-- An entry of the event queue of a call. -/
inductive Mail
  | completion (tag : Tag)
  | internal
  deriving DecidableEq, Repr

def QueuedEvent.mail : QueuedEvent → Mail
  | .completion _ tag => .completion tag
  | .internal _ => .internal

def Mail.handler : Mail → Instr Resp
  | .completion tag => .handle tag
  | .internal => .handleInternal

structure Call (Req Resp : Type) where
  rpc : Rpc Req Resp
  active : Bool
  shuttingDown : Bool
  inHand : Option (Tag × Bool)
  mailbox : List Mail
  code : List (Instr Resp)
  writers : List (WriterCall Resp)

inductive CallLabel (Req Resp : Type)
  | next (tag : Tag) (ok : Bool) (request : Option Req)
  | pushToEventQueue
  | pop
  | exec (acts : List (HandlerAction Resp))
  | callWriter (method : WriterMethod Resp)
  | stepWriter (call : Nat)
  | stopServing

namespace Call

def alive (c : Call Req Resp) : Bool :=
  c.active || c.writers.any WriterCall.holds || c.code.any Instr.isReleaseShared

def surroundings (c : Call Req Resp) : Surroundings :=
  ⟨c.active, c.alive, c.shuttingDown⟩

/-- A clone is a call of its own. -/
def apply (c : Call Req Resp) : Effect → Call Req Resp
  | .none | .clone => c
  | .pushWriteNeeded => { c with mailbox := c.mailbox ++ [.internal] }
  | .remove => { c with active := false }

/-- Returns none also where the process would abort: no step follows. -/
def step (c : Call Req Resp) : CallLabel Req Resp → Option (Call Req Resp)
  | .next tag ok request =>
    if c.inHand = none ∧ c.rpc.mayReturn tag ok request = true then
      some { c with rpc := c.rpc.returnTag tag ok request, inHand := some (tag, ok) }
    else none
  | .pushToEventQueue =>
    c.inHand.map (fun p => { c with
      rpc := c.rpc.setOk p.1 p.2
      mailbox := c.mailbox ++ [.completion p.1]
      inHand := none })
  | .pop =>
    match c.code, c.mailbox with
    | [], e :: rest => some { c with mailbox := rest, code := [e.handler] }
    | _, _ => none
  | .exec acts =>
    match c.code with
    | [] => none
    | i :: rest => (i.run c.surroundings acts c.rpc).map (fun o =>
      ({ c with rpc := o.rpc, code := o.next ++ rest } : Call Req Resp).apply o.effect)
  | .callWriter method =>
    if c.rpc.hasWriter = true then
      some { c with writers := c.writers ++ [⟨method.item, .calling⟩] }
    else none
  | .stepWriter i =>
    match c.writers[i]? with
    | none => none
    | some w =>
      if w.isReturned then none
      else (w.step c.surroundings c.rpc).map (fun p =>
        ({ c with rpc := p.1, writers := c.writers.set i p.2.1 } : Call Req Resp).apply p.2.2)
  | .stopServing => some { c with shuttingDown := true }

/-- A registered `Rpc` that waits for a connection. -/
def listening (x : Rpc Req Resp) (shuttingDown : Bool) : Call Req Resp where
  rpc := x.requestNextMethodInvocation
  active := true
  shuttingDown := shuttingDown
  inHand := none
  mailbox := []
  code := []
  writers := []

end Call

/-- A freshly constructed `Rpc` whose six queue pointers agree, with its parent noted. -/
def Rpc.spawned (methodIndex cq queue : Nat) (info : RpcHandlerInfo) (service : Nat)
    (parent : Option Nat) : Rpc Req Resp :=
  { Rpc.new methodIndex cq queue info service with parent := parent }

def callSystem (Req Resp : Type) : Transition.System (Call Req Resp) (CallLabel Req Resp) where
  init := fun c => ∃ methodIndex cq queue info service parent shuttingDown,
    c = .listening (.spawned methodIndex cq queue info service parent) shuttingDown
  step := Call.step

/-- The six queue pointers of an `Rpc` agree. -/
def Rpc.Routed (x : Rpc Req Resp) : Prop :=
  ∀ tag, (x.event tag).eventQueue = x.eventQueue

namespace Server

/-- What the `Rpc` numbered `r` sees of the server. -/
def call (s : Server Req Resp) (r : Nat) : Call Req Resp where
  rpc := s.rpcs r
  active := s.active r
  shuttingDown := (s.services (s.rpcs r).service).shuttingDown
  inHand := (s.inHand (s.rpcs r).serverCompletionQueue).bind
    (fun p => if p.1 = r then some p.2 else none)
  mailbox := ((s.eventQueues (s.rpcs r).eventQueue).filter (fun e => e.rpc = r)).map
    QueuedEvent.mail
  code := if (s.tasks (s.rpcs r).eventQueue).rpc = r then (s.tasks (s.rpcs r).eventQueue).code
    else []
  writers := s.writers r

end Server

/-- The step of the call that a step of the server is, should it concern the call. -/
def Label.project (s : Server Req Resp) (r : Nat) : Label Req Resp → Option (CallLabel Req Resp)
  | .next _ r' tag ok request => if r' = r then some (.next tag ok request) else none
  | .pushToEventQueue cq =>
    (s.inHand cq).bind (fun p => if p.1 = r then some .pushToEventQueue else none)
  | .pop t => (s.eventQueues t).head?.bind (fun e => if e.rpc = r then some .pop else none)
  | .exec t acts => if (s.tasks t).rpc = r then some (.exec acts) else none
  | .callWriter r' method => if r' = r then some (.callWriter method) else none
  | .stepWriter r' i => if r' = r then some (.stepWriter i) else none
  | .stopServing v => if v = (s.rpcs r).service then some .stopServing else none

end AsyncGrpc
