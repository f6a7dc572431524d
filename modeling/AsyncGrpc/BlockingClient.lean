import AsyncGrpc.Client
import AsyncGrpc.Transition

/-!
# Calls on the blocking clients

All methods of the classes `Client` of `client.h` for calls with streams. A method blocks until
gRPC answers, so that a call of a method and its answer are one step.
-/

namespace AsyncGrpc

variable {Req Resp : Type}

/-- A client that streams its requests, and what gRPC has answered it. -/
structure BlockingClient (Req Resp : Type) where
  client : StreamingClient Req
  /-- The member `response_` of the class for `CLIENT_STREAMING`. -/
  response : Option Resp
  -- Histories: the answers to `StreamRead`, `StreamWritesDone` and `StreamFinish`.
  reads : List (Option Resp)
  writesDone : List Bool
  finishes : List Status
  deriving DecidableEq, Repr

namespace BlockingClient

def new : BlockingClient Req Resp :=
  ⟨.new, none, [], [], []⟩

def write (kind : RequestStream) (ok : Bool) (request : Req) (c : BlockingClient Req Resp) :
    (Bool × Status) × BlockingClient Req Resp :=
  let (result, client) := c.client.writeVia kind (fun _ => ok) request
  (result, { c with client := client })

/-- Only the class for `BIDI_STREAMING` has this method. -/
def streamRead (answer : Option Resp) (c : BlockingClient Req Resp) :
    Bool × BlockingClient Req Resp :=
  (answer.isSome, { c with
    client := c.client.instantiateIfNeeded .clientReaderWriter
    reads := c.reads ++ [answer] })

def streamWritesDone (kind : RequestStream) (ok : Bool) (c : BlockingClient Req Resp) :
    Bool × BlockingClient Req Resp :=
  (ok, { c with
    client := c.client.instantiateIfNeeded kind
    writesDone := c.writesDone ++ [ok] })

/-- gRPC stores the response of a `ClientWriter` in `response_`. -/
def streamFinish (kind : RequestStream) (status : Status) (response : Option Resp)
    (c : BlockingClient Req Resp) : Status × BlockingClient Req Resp :=
  (status, { c with
    client := c.client.instantiateIfNeeded kind
    response := response.or c.response
    finishes := c.finishes ++ [status] })

/-- The requests that `Write` was called with. -/
def requests (c : BlockingClient Req Resp) : List Req :=
  c.client.written.map Prod.fst

end BlockingClient

/-- The responses among the answers to `StreamRead`. -/
def received (reads : List (Option Resp)) : List Resp :=
  reads.filterMap id

inductive BlockingLabel (Req Resp : Type)
  | write (request : Req) (ok : Bool)
  | streamRead (answer : Option Resp)
  | streamWritesDone (ok : Bool)
  | streamFinish (status : Status) (response : Option Resp)
  deriving DecidableEq, Repr

/-- A client that is used for one invocation, in the order that gRPC asks for: nothing is written
after `StreamWritesDone`, and nothing at all follows `StreamFinish`. -/
def blockingClient (Req Resp : Type) (kind : RequestStream) :
    Transition.System (BlockingClient Req Resp) (BlockingLabel Req Resp) where
  init c := c = .new
  step c l :=
    if c.finishes = [] then
      match l with
      | .write request ok =>
        if c.writesDone = [] then some (c.write kind ok request).2 else none
      | .streamRead answer =>
        if kind = .clientReaderWriter then some (c.streamRead answer).2 else none
      | .streamWritesDone ok =>
        if c.writesDone = [] then some (c.streamWritesDone kind ok).2 else none
      | .streamFinish status response => some (c.streamFinish kind status response).2
    else none

/-- The class `Client` for `SERVER_STREAMING`. -/
structure ReadingClient (Req Resp : Type) where
  /-- The request that `client_reader_` was created with. -/
  clientReader : Option Req
  -- Histories: the answers to `StreamRead` and `StreamFinish`.
  reads : List (Option Resp)
  finishes : List Status
  deriving DecidableEq, Repr

namespace ReadingClient

def new : ReadingClient Req Resp :=
  ⟨none, [], []⟩

/-- Replaces the reader, should there be one already. -/
def instantiateClientReader (request : Req) (c : ReadingClient Req Resp) : ReadingClient Req Resp :=
  { c with clientReader := some request }

/-- The status it is given is not touched. -/
def writeImpl (request : Req) (status : Status) (c : ReadingClient Req Resp) :
    Bool × Status × ReadingClient Req Resp :=
  (true, status, c.instantiateClientReader request)

def write (request : Req) (c : ReadingClient Req Resp) :
    (Bool × Status) × ReadingClient Req Resp :=
  let (_, internalStatus, c) := c.writeImpl request .ok
  ((internalStatus.isOk, internalStatus), c)

/-- Returns none if the check fails that there is a reader. -/
def streamRead (answer : Option Resp) (c : ReadingClient Req Resp) :
    Option (Bool × ReadingClient Req Resp) :=
  if c.clientReader.isSome then some (answer.isSome, { c with reads := c.reads ++ [answer] })
  else none

/-- Returns none if the check fails that there is a reader. -/
def streamFinish (status : Status) (c : ReadingClient Req Resp) :
    Option (Status × ReadingClient Req Resp) :=
  if c.clientReader.isSome then some (status, { c with finishes := c.finishes ++ [status] })
  else none

end ReadingClient

inductive ReadingLabel (Req Resp : Type)
  | write (request : Req)
  | streamRead (answer : Option Resp)
  | streamFinish (status : Status)
  deriving DecidableEq, Repr

/-- A client that is used for one invocation. -/
def readingClient (Req Resp : Type) :
    Transition.System (ReadingClient Req Resp) (ReadingLabel Req Resp) where
  init c := c = .new
  step c l :=
    if c.finishes = [] then
      match l with
      | .write request => if c.clientReader.isNone then some (c.write request).2 else none
      | .streamRead answer => (c.streamRead answer).map Prod.snd
      | .streamFinish status => (c.streamFinish status).map Prod.snd
    else none

end AsyncGrpc
