import AsyncGrpc.Call

/-!
# One `Rpc` and the threads that work on it

A `Part` is what a single `Rpc` sees of the server, whatever queues its events go to. It has the
fields of a `Call`, but the events of the `Rpc` may stand in several queues and several event
threads may run instructions on it.
-/

namespace AsyncGrpc

open Function

variable {Req Resp : Type}

structure Part (Req Resp : Type) where
  rpc : Rpc Req Resp
  active : Bool
  shuttingDown : Bool
  inHand : Option (Tag × Bool)
  mailbox : Nat → List Mail
  code : Nat → List (Instr Resp)
  writers : List (WriterCall Resp)

inductive PartLabel (Req Resp : Type)
  | next (tag : Tag) (ok : Bool) (request : Option Req)
  | pushToEventQueue
  | pop (thread : Nat)
  | exec (thread : Nat) (acts : List (HandlerAction Resp))
  | callWriter (method : WriterMethod Resp)
  | stepWriter (call : Nat)
  | stopServing

namespace Part

def alive (c : Part Req Resp) : Bool :=
  c.active || c.writers.any WriterCall.holds ||
    (c.code c.rpc.eventQueue).any Instr.isReleaseShared

def surroundings (c : Part Req Resp) : Surroundings :=
  ⟨c.active, c.alive, c.shuttingDown⟩

def push (c : Part Req Resp) (q : Nat) (e : Mail) : Part Req Resp :=
  { c with mailbox := update c.mailbox q (c.mailbox q ++ [e]) }

/-- A clone is a part of its own. -/
def apply (c : Part Req Resp) : Effect → Part Req Resp
  | .none | .clone => c
  | .pushWriteNeeded => c.push c.rpc.eventQueue .internal
  | .remove => { c with active := false }

/-- Returns none also where the process would abort: no step follows. -/
def step (c : Part Req Resp) : PartLabel Req Resp → Option (Part Req Resp)
  | .next tag ok request =>
    if c.inHand = none ∧ c.rpc.mayReturn tag ok request = true then
      some { c with rpc := c.rpc.returnTag tag ok request, inHand := some (tag, ok) }
    else none
  | .pushToEventQueue =>
    c.inHand.map (fun p =>
      ({ c with rpc := c.rpc.setOk p.1 p.2, inHand := none } : Part Req Resp).push
        (c.rpc.event p.1).eventQueue (.completion p.1))
  | .pop t =>
    match c.code t, c.mailbox t with
    | [], e :: rest =>
      some { c with mailbox := update c.mailbox t rest, code := update c.code t [e.handler] }
    | _, _ => none
  | .exec t acts =>
    match c.code t with
    | [] => none
    | i :: rest => (i.run c.surroundings acts c.rpc).map (fun o =>
      ({ c with rpc := o.rpc, code := update c.code t (o.next ++ rest) } : Part Req Resp).apply
        o.effect)
  | .callWriter method =>
    if c.rpc.hasWriter = true then
      some { c with writers := c.writers ++ [⟨method.item, .calling⟩] }
    else none
  | .stepWriter i =>
    match c.writers[i]? with
    | none => none
    | some w =>
      if w.isReturned then none
      else (w.step c.surroundings c.rpc).map (fun p =>
        ({ c with rpc := p.1, writers := c.writers.set i p.2.1 } : Part Req Resp).apply p.2.2)
  | .stopServing => some { c with shuttingDown := true }

/-- A registered `Rpc` that waits for a connection. -/
def listening (x : Rpc Req Resp) (shuttingDown : Bool) : Part Req Resp where
  rpc := x.requestNextMethodInvocation
  active := true
  shuttingDown := shuttingDown
  inHand := none
  mailbox := fun _ => []
  code := fun _ => []
  writers := []

/-- The call that a part is when nothing of it stands outside the `event_queue_` of the `Rpc`. -/
def call (c : Part Req Resp) : Call Req Resp where
  rpc := c.rpc
  active := c.active
  shuttingDown := c.shuttingDown
  inHand := c.inHand
  mailbox := c.mailbox c.rpc.eventQueue
  code := c.code c.rpc.eventQueue
  writers := c.writers

end Part

def PartLabel.call : PartLabel Req Resp → CallLabel Req Resp
  | .next tag ok request => .next tag ok request
  | .pushToEventQueue => .pushToEventQueue
  | .pop _ => .pop
  | .exec _ acts => .exec acts
  | .callWriter method => .callWriter method
  | .stepWriter i => .stepWriter i
  | .stopServing => .stopServing

/-- The `Rpc` may have been told another `event_queue_` than the one its events push to. -/
def partSystem (Req Resp : Type) : Transition.System (Part Req Resp) (PartLabel Req Resp) where
  init := fun c => ∃ methodIndex cq queue info service parent eventQueue shuttingDown,
    c = .listening ((Rpc.spawned methodIndex cq queue info service parent).setEventQueue eventQueue)
      shuttingDown
  step := Part.step

namespace Server

/-- What the `Rpc` numbered `r` sees of the server. -/
def part (s : Server Req Resp) (r : Nat) : Part Req Resp where
  rpc := s.rpcs r
  active := s.active r
  shuttingDown := (s.services (s.rpcs r).service).shuttingDown
  inHand := (s.inHand (s.rpcs r).serverCompletionQueue).bind
    (fun p => if p.1 = r then some p.2 else none)
  mailbox := fun t => ((s.eventQueues t).filter (fun e => e.rpc = r)).map QueuedEvent.mail
  code := fun t => if (s.tasks t).rpc = r then (s.tasks t).code else []
  writers := s.writers r

end Server

/-- The step of the part that a step of the server is, should it concern the `Rpc`. -/
def Label.part (s : Server Req Resp) (r : Nat) : Label Req Resp → Option (PartLabel Req Resp)
  | .next _ r' tag ok request => if r' = r then some (.next tag ok request) else none
  | .pushToEventQueue cq =>
    (s.inHand cq).bind (fun p => if p.1 = r then some .pushToEventQueue else none)
  | .pop t => (s.eventQueues t).head?.bind (fun e => if e.rpc = r then some (.pop t) else none)
  | .exec t acts => if (s.tasks t).rpc = r then some (.exec t acts) else none
  | .callWriter r' method => if r' = r then some (.callWriter method) else none
  | .stepWriter r' i => if r' = r then some (.stepWriter i) else none
  | .stopServing v => if v = (s.rpcs r).service then some .stopServing else none

end AsyncGrpc
