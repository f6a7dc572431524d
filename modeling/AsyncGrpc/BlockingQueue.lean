import AsyncGrpc.Monitor

/-!
# The blocking queue

The class `BlockingQueue` of `common/blocking_queue.h` as the methods of a monitor: the
predicate each method waits for, what it returns when its timeout is reached, and what it does
with the deque. `Mutex::Locker` of `common/mutex.h` is the monitor itself. The queues of the
event threads are such queues.
-/

namespace AsyncGrpc

open Monitor

inductive QueueMethod (T : Type)
  | push (t : T)
  | pushWithTimeout (t : T)
  | pop
  | popWithTimeout
  | peek
  | size
  | waitUntilEmpty
  deriving DecidableEq, Repr

/-- What a method returns; a null pointer is none. -/
inductive QueueResult (T : Type)
  | void
  | accepted (b : Bool)
  | value (t : Option T)
  | size (n : Nat)
  deriving DecidableEq, Repr

namespace BlockingQueue

variable {T : Type}

def kInfiniteQueueSize : Nat := 0

def queueEmptyCondition (deque : List T) : Bool :=
  deque.isEmpty

def queueNotFullCondition (queueSize : Nat) (deque : List T) : Bool :=
  queueSize = kInfiniteQueueSize || deque.length < queueSize

/-- The predicate of the `Await`; `Peek` and `Size` do not wait. -/
def ready (queueSize : Nat) : QueueMethod T → List T → Bool
  | .push _, deque | .pushWithTimeout _, deque => queueNotFullCondition queueSize deque
  | .pop, deque | .popWithTimeout, deque => !queueEmptyCondition deque
  | .peek, _ | .size, _ => true
  | .waitUntilEmpty, deque => queueEmptyCondition deque

/-- What the methods that call `AwaitWithTimeout` return when it returns false. -/
def onTimeout : QueueMethod T → Option (QueueResult T)
  | .pushWithTimeout _ => some (.accepted false)
  | .popWithTimeout => some (.value none)
  | .push _ | .pop | .peek | .size | .waitUntilEmpty => none

/-- The rest of the method, under the mutex. -/
def body : QueueMethod T → List T → List T × QueueResult T
  | .push t, deque => (deque ++ [t], .void)
  | .pushWithTimeout t, deque => (deque ++ [t], .accepted true)
  | .pop, deque | .popWithTimeout, deque => (deque.tail, .value deque.head?)
  | .peek, deque => (deque, .value deque.head?)
  | .size, deque => (deque, .size deque.length)
  | .waitUntilEmpty, deque => (deque, .void)

def writes : QueueMethod T → Bool
  | .push _ | .pushWithTimeout _ | .pop | .popWithTimeout => true
  | .peek | .size | .waitUntilEmpty => false

lemma body_of_not_writes (o : QueueMethod T) (deque : List T) (h : writes o = false) :
    (body o deque).1 = deque := by
  cases o with
  | push _ | pushWithTimeout _ | pop | popWithTimeout => cases h
  | peek | size | waitUntilEmpty => rfl

def methods (T : Type) (queueSize : Nat) : Methods (List T) (QueueMethod T) (QueueResult T) :=
  ⟨ready queueSize, onTimeout, body, writes, body_of_not_writes⟩

end BlockingQueue

/-- The runs of a new queue, with any calls from any threads. -/
def blockingQueueSystem (T : Type) (queueSize : Nat) :
    Transition.System (State (List T) (QueueMethod T) (QueueResult T)) (Label (QueueMethod T)) :=
  system (BlockingQueue.methods T queueSize) []

end AsyncGrpc
