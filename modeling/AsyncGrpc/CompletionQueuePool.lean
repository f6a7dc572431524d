import AsyncGrpc.Transition
import Mathlib.Algebra.Group.Nat.Defs
import Mathlib.Logic.Function.Basic

/-!
# The completion queue pool

The process-wide `CompletionQueuePool` of the asynchronous clients. A section under its mutex
is one step. `GetCompletionQueue` initialises the pool under the mutex and then reads
`completion_queues_` twice without it: its size, and the queue it has chosen. Calls are
numbered, and a fault of one of them brings the process down.
-/

namespace AsyncGrpc

open Function

/-- The class `CompletionQueue` of the pool. Queues are numbered in the order of their
construction. -/
structure CompletionQueue where
  id : Nat
  thread : Bool
  shutDown : Bool
  deriving DecidableEq, Repr

namespace CompletionQueue

def new (id : Nat) : CompletionQueue :=
  ⟨id, false, false⟩

/-- None where the `CHECK` fails. -/
def start (q : CompletionQueue) : Option CompletionQueue :=
  if q.thread then none else some { q with thread := true }

/-- None where the `CHECK` fails. The thread is joined and `thread_` stays set. -/
def shutdown (q : CompletionQueue) : Option CompletionQueue :=
  if q.thread then some { q with shutDown := true } else none

/-- A loop over the queues. -/
def forEach (f : CompletionQueue → Option CompletionQueue) :
    List CompletionQueue → Option (List CompletionQueue)
  | [] => some []
  | q :: queues => (f q).bind (fun q => (forEach f queues).map (q :: ·))

end CompletionQueue

structure CompletionQueuePool where
  initialized : Bool
  numberCompletionQueues : Nat
  completionQueues : List CompletionQueue
  -- How many queues have been constructed.
  constructed : Nat
  deriving DecidableEq, Repr

namespace CompletionQueuePool

def kDefaultNumberCompletionQueues : Nat := 2

def new : CompletionQueuePool :=
  ⟨false, kDefaultNumberCompletionQueues, [], 0⟩

/-- None where one of the two `CHECK`s fails. -/
def setNumberCompletionQueues (pool : CompletionQueuePool) (numberCompletionQueues : Nat) :
    Option CompletionQueuePool :=
  if !pool.initialized && 0 < numberCompletionQueues then
    some { pool with numberCompletionQueues := numberCompletionQueues }
  else none

/-- The method `resize` of the vector. -/
def resize (pool : CompletionQueuePool) (n : Nat) : CompletionQueuePool :=
  let missing := n - pool.completionQueues.length
  { pool with
    completionQueues := pool.completionQueues.take n ++
      (List.range missing).map (fun i => .new (pool.constructed + i))
    constructed := pool.constructed + missing }

/-- The method `Initialize`: none where the `CHECK` of a queue fails. -/
def initializePool (pool : CompletionQueuePool) : Option CompletionQueuePool :=
  if pool.initialized then some pool
  else
    let pool := pool.resize pool.numberCompletionQueues
    (CompletionQueue.forEach CompletionQueue.start pool.completionQueues).map (fun queues =>
      { pool with completionQueues := queues, initialized := true })

/-- None where the `CHECK` of a queue fails. -/
def shutdown (pool : CompletionQueuePool) : Option CompletionQueuePool :=
  (CompletionQueue.forEach CompletionQueue.shutdown pool.completionQueues).map (fun _ =>
    { pool with completionQueues := [], initialized := false })

end CompletionQueuePool

inductive PoolMethod
  | start | getCompletionQueue | shutdown
  deriving DecidableEq, Repr

/-- Where a call stands: before its section under the mutex; in `GetCompletionQueue` past it,
then with the chosen `qid`; or returned, with the queue for `GetCompletionQueue`. -/
inductive PoolPc
  | entered
  | prepared
  | chosen (qid : Nat)
  | returned (queue : Option CompletionQueue)
  deriving DecidableEq, Repr

/-- A failed `CHECK`, a remainder modulo zero, or the exception of `at`. -/
inductive PoolFault
  | check (k : Nat)
  | modulo (k : Nat)
  | outOfRange (k : Nat)
  deriving DecidableEq, Repr

structure PoolState where
  pool : CompletionQueuePool
  calls : Nat → Option (PoolMethod × PoolPc)
  fault : Option PoolFault

/-- The call's next step, with what `rand` returns should it be asked. -/
inductive PoolLabel
  | call (k : Nat) (method : PoolMethod)
  | step (k random : Nat)
  deriving DecidableEq, Repr

namespace PoolState

def set (s : PoolState) (k : Nat) (method : PoolMethod) (pc : PoolPc) : PoolState :=
  { s with calls := update s.calls k (some (method, pc)) }

/-- A section under the mutex. -/
def locked (s : PoolState) (k : Nat) (method : PoolMethod) (pc : PoolPc) :
    Option CompletionQueuePool → PoolState
  | some pool => { s.set k method pc with pool := pool }
  | none => { s with fault := some (.check k) }

/-- The remainder is stored in an `unsigned int`. -/
def chooseQid (s : PoolState) (k random : Nat) : PoolState :=
  if s.pool.completionQueues.length = 0 then { s with fault := some (.modulo k) }
  else s.set k .getCompletionQueue
    (.chosen (random % s.pool.completionQueues.length % 2 ^ 32))

def selectQueue (s : PoolState) (k qid : Nat) : PoolState :=
  match s.pool.completionQueues[qid]? with
  | some queue => s.set k .getCompletionQueue (.returned (some queue))
  | none => { s with fault := some (.outOfRange k) }

def next (s : PoolState) (k random : Nat) : PoolMethod → PoolPc → Option PoolState
  | .start, .entered => some (s.locked k .start (.returned none) s.pool.initializePool)
  | .shutdown, .entered => some (s.locked k .shutdown (.returned none) s.pool.shutdown)
  | .getCompletionQueue, .entered =>
    some (s.locked k .getCompletionQueue .prepared s.pool.initializePool)
  | .getCompletionQueue, .prepared => some (s.chooseQid k random)
  | .getCompletionQueue, .chosen qid => some (s.selectQueue k qid)
  | _, _ => none

def step (s : PoolState) (l : PoolLabel) : Option PoolState :=
  if s.fault ≠ none then none
  else match l with
  | .call k method => if (s.calls k).isNone then some (s.set k method .entered) else none
  | .step k random => (s.calls k).bind (fun c => s.next k random c.1 c.2)

end PoolState

/-- The runs of the pool with any calls, after its size was perhaps set. -/
def poolSystem : Transition.System PoolState PoolLabel where
  init s := s.calls = (fun _ => none) ∧ s.fault = none ∧
    (s.pool = .new ∨ ∃ n, CompletionQueuePool.setNumberCompletionQueues .new n = some s.pool)
  step := PoolState.step

end AsyncGrpc
