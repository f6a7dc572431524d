import AsyncGrpc.Retry

/-!
# The blocking clients

The classes `Client` of `client.h` for unary calls and for the two kinds of calls that stream
their requests. gRPC, the clock and a retry strategy are asked by number: the answer to each
question is arbitrary, and the same strategy may answer differently each time.
-/

namespace AsyncGrpc

variable {Req Resp Time Duration : Type}

/-- A `grpc::ClientContext`. Contexts are numbered in the order of their construction. -/
structure ClientContext (Time : Type) where
  id : Nat
  deadline : Option Time
  deriving DecidableEq, Repr

/-- One call of `BlockingUnaryCall`. -/
structure Attempt (Req Time : Type) where
  context : ClientContext Time
  request : Req
  status : Status
  deriving DecidableEq, Repr

/-- The clock, and what each attempt returns and stores in the response. -/
structure ClientEnv (Resp Time : Type) where
  now : Nat → Time
  outcome : Nat → Status × Option Resp

/-- The class `Client` for `NORMAL_RPC`. -/
structure UnaryClient (Req Resp Time Duration : Type) where
  context : ClientContext Time
  timeout : Option Duration
  response : Option Resp
  retryStrategy : Option (Nat → Int → Status → RetryAnswer Duration)
  -- Histories: the contexts constructed, how often the clock and the strategy were asked, and
  -- the attempts made.
  contexts : Nat
  clockReads : Nat
  asked : Nat
  attempts : List (Attempt Req Time)

/-- What a `Write` did: the deadline it computed, its attempts, what it returned and the status
it stored. -/
structure WriteRecord (Req Time : Type) where
  deadline : Option Time
  attempts : List (Attempt Req Time)
  result : Bool
  status : Status
  deriving DecidableEq, Repr

namespace UnaryClient

/-- The constructors. The one without a timeout leaves the strategy empty. -/
def new (timeout : Option Duration)
    (retryStrategy : Option (Nat → Int → Status → RetryAnswer Duration)) :
    UnaryClient Req Resp Time Duration where
  context := ⟨0, none⟩
  timeout := timeout
  response := none
  retryStrategy := retryStrategy
  contexts := 1
  clockReads := 0
  asked := 0
  attempts := []

/-- Replaces `client_context_` by the result of `ResetContext`. -/
def resetContext (deadline : Option Time) (c : UnaryClient Req Resp Time Duration) :
    UnaryClient Req Resp Time Duration :=
  { c with context := ⟨c.contexts, deadline⟩, contexts := c.contexts + 1 }

def makeBlockingUnaryCall (env : ClientEnv Resp Time) (request : Req)
    (c : UnaryClient Req Resp Time Duration) : Status × UnaryClient Req Resp Time Duration :=
  let outcome := env.outcome c.attempts.length
  (outcome.1, { c with
    response := outcome.2.or c.response
    attempts := c.attempts ++ [⟨c.context, request, outcome.1⟩] })

/-- Returns its result and the status it stores. -/
def writeImpl (env : ClientEnv Resp Time) (request : Req)
    (c : UnaryClient Req Resp Time Duration) :
    Bool × Status × UnaryClient Req Resp Time Duration :=
  let (status, c) := c.makeBlockingUnaryCall env request
  (status.isOk, status, c)

/-- The functions `Write` passes to `RetryWithStrategy`. They share the client and the variable
`internal_status`. -/
def retryCalls (env : ClientEnv Resp Time) (request : Req) (deadline : Option Time)
    (retryStrategy : Option (Nat → Int → Status → RetryAnswer Duration)) :
    RetryCalls (UnaryClient Req Resp Time Duration × Status) Duration where
  strategy := retryStrategy.map (fun f failedAttempts status s =>
    (f s.1.asked failedAttempts status, { s.1 with asked := s.1.asked + 1 }, s.2))
  op s :=
    let (_, internalStatus, c) := s.1.writeImpl env request
    (internalStatus, c, internalStatus)
  sleepFor _ s := s
  reset := some (fun s => (s.1.resetContext deadline, s.2))

/-- The result is none if the retries do not end within the fuel. -/
def write [HAdd Time Duration Time] (env : ClientEnv Resp Time) (fuel : Nat)
    (c : UnaryClient Req Resp Time Duration) (request : Req) :
    Option (WriteRecord Req Time × UnaryClient Req Resp Time Duration) :=
  let deadline := c.timeout.map (fun timeout => env.now c.clockReads + timeout)
  let start := ({ c with clockReads := c.clockReads + if c.timeout.isSome then 1 else 0 } :
    UnaryClient Req Resp Time Duration).resetContext deadline
  match retryWithStrategy (retryCalls env request deadline c.retryStrategy) fuel (start, .ok) with
  | some (.returned result, c', internalStatus) =>
    some (⟨deadline, c'.attempts.drop c.attempts.length, result, internalStatus⟩, c')
  | _ => none

/-- A sequence of `Write` calls on one client. -/
def writes [HAdd Time Duration Time] (env : ClientEnv Resp Time) (fuel : Nat) :
    UnaryClient Req Resp Time Duration → List Req →
      Option (List (WriteRecord Req Time) × UnaryClient Req Resp Time Duration)
  | c, [] => some ([], c)
  | c, request :: requests =>
    (c.write env fuel request).bind (fun w =>
      (w.2.writes env fuel requests).map (fun ws => (w.1 :: ws.1, ws.2)))

end UnaryClient

/-- The stream object a client that streams its requests creates: a `ClientWriter` or a
`ClientReaderWriter`. -/
inductive RequestStream
  | clientWriter
  | clientReaderWriter
  deriving DecidableEq, Repr

/-- The classes `Client` for `CLIENT_STREAMING` and `BIDI_STREAMING`, with the writes on the stream
so far and what each of them returned. -/
structure StreamingClient (Req : Type) where
  stream : Option RequestStream
  written : List (Req × Bool)
  deriving DecidableEq, Repr

namespace StreamingClient

def new : StreamingClient Req :=
  ⟨none, []⟩

/-- The methods `InstantiateClientWriterIfNeeded` and `InstantiateClientReaderWriterIfNeeded`. -/
def instantiateIfNeeded (kind : RequestStream) (c : StreamingClient Req) : StreamingClient Req :=
  if c.stream = none then { c with stream := some kind } else c

/-- Returns what the stream's `Write` returned; the status it is given is not touched. -/
def writeImpl (kind : RequestStream) (outcome : Nat → Bool) (request : Req) (status : Status)
    (c : StreamingClient Req) : Bool × Status × StreamingClient Req :=
  let c := c.instantiateIfNeeded kind
  let result := outcome c.written.length
  (result, status, { c with written := c.written ++ [(request, result)] })

/-- Returns the result and the status stored. The result of `WriteImpl` is dropped. -/
def writeVia (kind : RequestStream) (outcome : Nat → Bool) (request : Req)
    (c : StreamingClient Req) : (Bool × Status) × StreamingClient Req :=
  let (_, internalStatus, c) := c.writeImpl kind outcome request .ok
  ((internalStatus.isOk, internalStatus), c)

/-- The method `Client::Write` for `CLIENT_STREAMING`. -/
def clientStreamingWrite (outcome : Nat → Bool) (request : Req) (c : StreamingClient Req) :
    (Bool × Status) × StreamingClient Req :=
  c.writeVia .clientWriter outcome request

/-- The method `Client::Write` for `BIDI_STREAMING`. -/
def bidiStreamingWrite (outcome : Nat → Bool) (request : Req) (c : StreamingClient Req) :
    (Bool × Status) × StreamingClient Req :=
  c.writeVia .clientReaderWriter outcome request

/-- The results and statuses of a sequence of calls of `Write`, and the client after it. -/
def writes (write : Req → StreamingClient Req → (Bool × Status) × StreamingClient Req) :
    StreamingClient Req → List Req → List (Bool × Status) × StreamingClient Req
  | c, [] => ([], c)
  | c, request :: requests =>
    let (w, c) := write request c
    let (ws, c) := c.writes write requests
    (w :: ws, c)

end StreamingClient

end AsyncGrpc
