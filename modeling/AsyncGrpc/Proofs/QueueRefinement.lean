import AsyncGrpc.Monitor.Linearization
import AsyncGrpc.Monitor.Progress
import AsyncGrpc.Proofs.BlockingQueues

/-!
# The blocking queue as its callers see it

What a blocking queue is for, without its mutex and its deque: a ledger of all the values that
were ever accepted, and how many of them were taken. Its methods are atomic, the next value taken
is the oldest that was not, and no value is dropped or repeated. The calls and the returns of the
queue of `common/blocking_queue.h`, from any threads in any interleaving, are those of a ledger.

Calls that are left to themselves also return, except those that wait for what is not so.
-/

namespace AsyncGrpc.Proofs

open Monitor BlockingQueue

variable {T : Type} {queueSize : Nat}

structure Ledger (T : Type) where
  accepted : List T
  taken : Nat
  deriving DecidableEq, Repr

namespace Ledger

def size (b : Ledger T) : Nat :=
  b.accepted.length - b.taken

def next (b : Ledger T) : Option T :=
  b.accepted[b.taken]?

def remaining (b : Ledger T) : List T :=
  b.accepted.drop b.taken

def accept (b : Ledger T) (t : T) : Ledger T :=
  { b with accepted := b.accepted ++ [t] }

def take (b : Ledger T) : Ledger T :=
  { b with taken := b.taken + 1 }

def ready (queueSize : Nat) : QueueMethod T → Ledger T → Bool
  | .push _, b | .pushWithTimeout _, b => queueSize = 0 ∨ b.size < queueSize
  | .pop, b | .popWithTimeout, b => 0 < b.size
  | .peek, _ | .size, _ => true
  | .waitUntilEmpty, b => b.size = 0

def body : QueueMethod T → Ledger T → Ledger T × QueueResult T
  | .push t, b => (b.accept t, .void)
  | .pushWithTimeout t, b => (b.accept t, .accepted true)
  | .pop, b | .popWithTimeout, b => (b.take, .value b.next)
  | .peek, b => (b, .value b.next)
  | .size, b => (b, .size b.size)
  | .waitUntilEmpty, b => (b, .void)

lemma body_of_not_writes (o : QueueMethod T) (b : Ledger T) (h : writes o = false) :
    (body o b).1 = b := by
  cases o with
  | push _ | pushWithTimeout _ | pop | popWithTimeout => cases h
  | peek | size | waitUntilEmpty => rfl

end Ledger

def ledgerMethods (T : Type) (queueSize : Nat) :
    Methods (Ledger T) (QueueMethod T) (QueueResult T) :=
  ⟨Ledger.ready queueSize, onTimeout, Ledger.body, writes, Ledger.body_of_not_writes⟩

/-- A ledger whose methods are atomic. -/
def ledgerSystem (T : Type) (queueSize : Nat) :
    Transition.System (Atomic (Ledger T) (QueueMethod T) (QueueResult T))
      (AtomicLabel (QueueMethod T)) :=
  atomic (ledgerMethods T queueSize) ⟨[], 0⟩

/-- The deque holds what was accepted and not taken. -/
def Holds (deque : List T) (b : Ledger T) : Prop :=
  deque = b.remaining ∧ b.taken ≤ b.accepted.length

lemma Holds.length {deque : List T} {b : Ledger T} (h : Holds deque b) :
    deque.length = b.size := by
  rw [h.1, Ledger.remaining, List.length_drop, Ledger.size]

lemma Holds.head {deque : List T} {b : Ledger T} (h : Holds deque b) : deque.head? = b.next := by
  rw [h.1, Ledger.remaining, List.head?_drop, Ledger.next]

lemma Holds.accept {deque : List T} {b : Ledger T} (h : Holds deque b) (t : T) :
    Holds (deque ++ [t]) (b.accept t) := by
  obtain ⟨rfl, hle⟩ := h
  refine ⟨(List.drop_append_of_le_length hle).symm, ?_⟩
  simp only [Ledger.accept, List.length_append]
  omega

lemma Holds.take {deque : List T} {b : Ledger T} (h : Holds deque b) (hsize : 0 < b.size) :
    Holds deque.tail b.take := by
  obtain ⟨rfl, hle⟩ := h
  unfold Ledger.size at hsize
  exact ⟨List.tail_drop, by simp only [Ledger.take]; omega⟩

lemma queueNotFullCondition_iff (deque : List T) :
    queueNotFullCondition queueSize deque = true ↔ queueSize = 0 ∨ deque.length < queueSize := by
  simp only [queueNotFullCondition, Bool.or_eq_true, decide_eq_true_eq]
  rfl

lemma Holds.ready {deque : List T} {b : Ledger T} (h : Holds deque b) (o : QueueMethod T) :
    ready queueSize o deque = Ledger.ready queueSize o b := by
  have hlength := h.length
  have hempty : deque = [] ↔ b.size = 0 := by rw [← hlength, List.length_eq_zero_iff]
  rw [Bool.eq_iff_iff]
  cases o with
  | push t | pushWithTimeout t =>
    simp [BlockingQueue.ready, Ledger.ready, queueNotFullCondition_iff, hlength]
  | pop | popWithTimeout =>
    simp [BlockingQueue.ready, Ledger.ready, queueEmptyCondition, hempty, Nat.pos_iff_ne_zero]
  | peek | size => rfl
  | waitUntilEmpty => simp [BlockingQueue.ready, Ledger.ready, queueEmptyCondition, hempty]

lemma related_ledger : Related Holds (methods T queueSize) (ledgerMethods T queueSize) where
  ready o deque b h := h.ready o
  onTimeout _ := rfl
  result o deque b h _ := by
    cases o with
    | push t | pushWithTimeout t | waitUntilEmpty => rfl
    | pop | popWithTimeout | peek => exact congrArg QueueResult.value h.head
    | size => exact congrArg QueueResult.size h.length
  body o deque b h hready := by
    have hready : Ledger.ready queueSize o b = true := (h.ready o).symm.trans hready
    cases o with
    | push t | pushWithTimeout t => exact h.accept t
    | pop | popWithTimeout => exact h.take (by simpa [Ledger.ready] using hready)
    | peek | size | waitUntilEmpty => exact h

/-- The queue is linearizable: the calls and returns that its callers can see, in order, are
exactly those of a ledger whose methods are atomic, and its deque is what the ledger has left. -/
theorem blockingQueue_linearizable (queueSize : Nat)
    (events : List (Monitor.Event (QueueMethod T) (QueueResult T))) (deque : List T) :
    (∃ s, (blockingQueueSystem T queueSize).Traces State.shows events s ∧ s.shared = deque) ↔
      ∃ a, (ledgerSystem T queueSize).Traces Atomic.shows events a ∧
        a.shared.remaining = deque := by
  have hempty : Holds ([] : List T) ⟨[], 0⟩ := ⟨rfl, Nat.le_refl 0⟩
  unfold blockingQueueSystem
  rw [traces_iff]
  constructor
  · rintro ⟨a, ha, rfl⟩
    obtain ⟨b, hb, -, hholds⟩ := related_ledger.traces hempty ha
    exact ⟨b, hb, hholds.1.symm⟩
  · rintro ⟨b, hb, rfl⟩
    obtain ⟨a, ha, -, hholds⟩ := related_ledger.symm.traces hempty hb
    exact ⟨a, ha, hholds.1⟩

/-! ### Calls that return -/

/-- What keeps a call asleep for good. -/
def Blocked (queueSize : Nat) (deque : List T) : QueueMethod T → Prop
  | .push _ => queueSize ≠ 0 ∧ deque.length = queueSize
  | .pop => deque = []
  | .waitUntilEmpty => deque ≠ []
  | .pushWithTimeout _ | .popWithTimeout | .peek | .size => False

lemma blocked_of_not_ready {deque : List T} {o : QueueMethod T}
    (hbound : queueSize ≠ 0 → deque.length ≤ queueSize) (htimeout : onTimeout o = none)
    (hready : ready queueSize o deque = false) : Blocked queueSize deque o := by
  cases o with
  | push t =>
    rw [ready, Bool.eq_false_iff, ne_eq, queueNotFullCondition_iff, not_or] at hready
    have hle := hbound hready.1
    exact ⟨hready.1, by omega⟩
  | pop => simpa [ready, queueEmptyCondition, Blocked] using hready
  | waitUntilEmpty => simpa [ready, queueEmptyCondition, Blocked] using hready
  | pushWithTimeout t | popWithTimeout => cases htimeout
  | peek | size => cases hready

variable {s : State (List T) (QueueMethod T) (QueueResult T)}

/-- The calls that have been made come to rest, whichever goes on when: those with a timeout, and
those that only look, have returned; the others have returned or sleep, a `Push` on a full queue, a
`Pop` on an empty one, a `WaitUntilEmpty` on one that is not empty. So no push and pop are left
waiting for each other. Spurious wake-ups, which can go on for ever, are not among the steps. -/
theorem blockingQueue_comes_to_rest (hs : (blockingQueueSystem T queueSize).Reachable s) :
    (blockingQueueSystem T queueSize).Forces OfCalls (fun s =>
      (∀ k o pc, s.calls k = some (o, pc) → (∃ ran result, pc = .returned ran result) ∨
        pc = .asleep ∧ Blocked queueSize s.shared o) ∧
      ∀ j k t, s.calls j = some (.push t, .asleep) → s.calls k ≠ some (.pop, .asleep)) s := by
  apply (calls_come_to_rest hs).imp (I := (blockingQueueSystem T queueSize).Reachable) hs
  · intro s l s' hs _ hstep
    exact .step hs trivial hstep
  · intro s hs hrest
    have hblocked : ∀ k o pc, s.calls k = some (o, pc) →
        (∃ ran result, pc = .returned ran result) ∨ pc = .asleep ∧ Blocked queueSize s.shared o := by
      intro k o pc hcall
      refine (hrest k o pc hcall).imp_right (fun h => ⟨h.1, ?_⟩)
      exact blocked_of_not_ready (legal_bound (reachable_legal hs)) h.2.1 h.2.2
    refine ⟨hblocked, ?_⟩
    intro j k t hpush hpop
    obtain ⟨_, _, h⟩ | ⟨-, hsize, hfull⟩ := hblocked j _ _ hpush
    · cases h
    obtain ⟨_, _, h⟩ | ⟨-, hempty⟩ := hblocked k _ _ hpop
    · cases h
    simp only [Blocked] at hempty
    rw [hempty] at hfull
    exact hsize hfull.symm

/-- On a queue for one value, a second push sleeps and a pop is called. -/
def waitingRun : List (Monitor.Label (QueueMethod Nat)) :=
  .call 0 (.push 7) :: List.replicate 5 (.step 0) ++
    .call 1 (.push 8) :: List.replicate 3 (.step 1) ++ [.call 2 .pop]

theorem blockingQueue_comes_to_rest_of_run :
    ∃ s, (blockingQueueSystem Nat 1).Reachable s ∧ s.calls 1 = some (.push 8, .asleep) ∧
      s.calls 2 = some (.pop, .calling) ∧
      (blockingQueueSystem Nat 1).Forces OfCalls (fun s =>
        (∀ k o pc, s.calls k = some (o, pc) → (∃ ran result, pc = .returned ran result) ∨
          pc = .asleep ∧ Blocked 1 s.shared o) ∧
        ∀ j k t, s.calls j = some (.push t, .asleep) → s.calls k ≠ some (.pop, .asleep)) s := by
  have hrun : ((blockingQueueSystem Nat 1).run (fun _ _ => true) ⟨[], none, fun _ => none, []⟩
      waitingRun).any (fun s => s.calls 1 = some (.push 8, .asleep) ∧
        s.calls 2 = some (.pop, .calling)) = true := by
    decide +kernel
  obtain ⟨s, hs, hp⟩ := Transition.System.exists_reach_of_run (G := fun _ _ => True)
    (fun _ _ _ => trivial) (.init rfl) hrun
  obtain ⟨hpush, hpop⟩ := of_decide_eq_true hp
  exact ⟨s, hs, hpush, hpop, blockingQueue_comes_to_rest hs⟩

end AsyncGrpc.Proofs
