import AsyncGrpc.BlockingQueue

/-!
# The blocking queue is a bounded queue

The methods of a monitor are atomic, so the laws of the queue are laws of sequences of
operations: what was pushed is what was popped and then the deque, which never exceeds its
bound. A call that gave up on its timeout is not among the operations.
-/

namespace AsyncGrpc.Proofs

open Monitor BlockingQueue

variable {T : Type}

/-- The value that the operation appended. -/
def pushedBy (e : Entry (QueueMethod T) (QueueResult T)) : Option T :=
  match e.method with
  | .push t | .pushWithTimeout t => some t
  | .pop | .popWithTimeout | .peek | .size | .waitUntilEmpty => none

/-- The value that the operation removed. -/
def poppedBy (e : Entry (QueueMethod T) (QueueResult T)) : Option T :=
  match e.method, e.result with
  | .pop, .value t | .popWithTimeout, .value t => t
  | _, _ => none

/-- The values pushed, in the order of their acceptance. -/
def pushed (history : List (Entry (QueueMethod T) (QueueResult T))) : List T :=
  history.filterMap pushedBy

/-- The values popped, in the order of their removal. -/
def popped (history : List (Entry (QueueMethod T) (QueueResult T))) : List T :=
  history.filterMap poppedBy

/-- One operation: what it appends and removes accounts for the deque after it. -/
lemma body_account {queueSize : Nat} {o : QueueMethod T} {deque : List T}
    (hready : ready queueSize o deque = true) (k : Nat) :
    deque ++ (pushedBy ⟨k, o, (body o deque).2⟩).toList =
      (poppedBy ⟨k, o, (body o deque).2⟩).toList ++ (body o deque).1 := by
  cases o with
  | push t | pushWithTimeout t => rfl
  | pop | popWithTimeout =>
    cases deque with
    | nil => cases hready
    | cons t deque => simp [pushedBy, poppedBy, body]
  | peek | size | waitUntilEmpty => simp [pushedBy, poppedBy, body]

lemma body_bound {queueSize : Nat} {o : QueueMethod T} {deque : List T}
    (hready : ready queueSize o deque = true) (hbound : queueSize ≠ 0 → deque.length ≤ queueSize)
    (hsize : queueSize ≠ 0) : (body o deque).1.length ≤ queueSize := by
  have hdeque := hbound hsize
  cases o with
  | push t | pushWithTimeout t =>
    have hlt : deque.length < queueSize := by
      simpa [ready, queueNotFullCondition, kInfiniteQueueSize, hsize] using hready
    simp only [body, List.length_append, List.length_singleton]
    omega
  | pop | popWithTimeout =>
    simp only [body, List.length_tail]
    omega
  | peek | size | waitUntilEmpty => exact hdeque

lemma legal_fifo {queueSize : Nat} {history : List (Entry (QueueMethod T) (QueueResult T))}
    {deque : List T} (h : Legal (methods T queueSize) [] history deque) :
    pushed history = popped history ++ deque := by
  induction h with
  | nil => rfl
  | @snoc history deque k o _ hready ih =>
    have haccount := body_account hready k
    have hone : ∀ (f : Entry (QueueMethod T) (QueueResult T) → Option T) e,
        [e].filterMap f = (f e).toList := by
      intro f e
      cases hf : f e <;> simp [hf]
    simp only [pushed, popped, List.filterMap_append, hone] at ih ⊢
    rw [ih, List.append_assoc, List.append_assoc]
    exact congrArg _ haccount

lemma legal_bound {queueSize : Nat} {history : List (Entry (QueueMethod T) (QueueResult T))}
    {deque : List T} (h : Legal (methods T queueSize) [] history deque) (hsize : queueSize ≠ 0) :
    deque.length ≤ queueSize := by
  induction h with
  | nil => exact Nat.zero_le _
  | snoc _ hready ih => exact body_bound hready (fun _ => ih) hsize

/-- An operation that was carried out does not return what its timeout would. -/
lemma body_ne_onTimeout {queueSize : Nat} {o : QueueMethod T} {deque : List T}
    (hready : ready queueSize o deque = true) : onTimeout o ≠ some (body o deque).2 := by
  cases o with
  | push _ | pop | peek | size | waitUntilEmpty | pushWithTimeout _ => simp [onTimeout, body]
  | popWithTimeout =>
    cases deque with
    | nil => cases hready
    | cons t deque => simp [onTimeout, body]

variable {queueSize : Nat} {s : State (List T) (QueueMethod T) (QueueResult T)}

/-- A call that returns what its timeout returns has not touched the deque. -/
lemma timedOut_not_mem (hs : (blockingQueueSystem T queueSize).Reachable s) {k : Nat}
    {o : QueueMethod T} {ran : Bool} {result : QueueResult T}
    (hcall : s.calls k = some (o, .returned ran result)) (hresult : onTimeout o = some result) :
    ∀ e ∈ s.history, e.call ≠ k := by
  cases ran with
  | false => exact not_mem_history_of_expired hs hcall rfl
  | true =>
    obtain ⟨deque, hready, hbody⟩ := (reachable_legal hs).entry (mem_history_of_ran hs hcall)
    exact absurd (hresult.trans (congrArg some hbody)) (body_ne_onTimeout hready)

/-- The laws of the queue, in every state that any calls in any interleaving reach: it is first
in, first out, keeps its bound, is left alone by calls whose timeout was reached, and loses no
wake-up. -/
theorem blockingQueue_laws (hs : (blockingQueueSystem T queueSize).Reachable s) :
    pushed s.history = popped s.history ++ s.shared ∧
    (queueSize ≠ 0 → s.shared.length ≤ queueSize) ∧
    (∀ k t ran, s.calls k = some (.pushWithTimeout t, .returned ran (.accepted false)) →
      ∀ e ∈ s.history, e.call ≠ k) ∧
    (∀ k ran, s.calls k = some (.popWithTimeout, .returned ran (.value none)) →
      ∀ e ∈ s.history, e.call ≠ k) ∧
    (∀ l s', (blockingQueueSystem T queueSize).step s l = some s' → s'.shared ≠ s.shared →
      ∃ k, l = .step k ∧ ∃ e ∈ s'.history, e.call = k) ∧
    ∀ k o, s.calls k = some (o, .asleep) → ready queueSize o s.shared = true →
      WillNotify (methods T queueSize) s := by
  refine ⟨legal_fifo (reachable_legal hs), legal_bound (reachable_legal hs), ?_, ?_, ?_, ?_⟩
  · intro k t ran hcall
    exact timedOut_not_mem hs hcall rfl
  · intro k ran hcall
    exact timedOut_not_mem hs hcall rfl
  · intro l s' hstep hne
    obtain ⟨k, o, rfl, -, hhistory⟩ := moves_shared (step_moves hstep) hne
    rw [hhistory]
    exact ⟨k, rfl, _, List.mem_append_right _ (List.mem_singleton.mpr rfl), rfl⟩
  · exact reachable_noLostWakeUp hs

/-- On a queue for one value: a value is pushed, a second push times out asleep, and the value
is popped. -/
def fullQueueRun : List (Label (QueueMethod Nat)) :=
  .call 0 (.push 7) :: List.replicate 5 (.step 0) ++
    .call 1 (.pushWithTimeout 8) :: List.replicate 3 (.step 1) ++
    .timeOut 1 :: List.replicate 4 (.step 1) ++ .call 2 .pop :: List.replicate 5 (.step 2)

theorem blockingQueue_laws_of_run :
    ∃ s, (blockingQueueSystem Nat 1).Reachable s ∧
      s.calls 1 = some (.pushWithTimeout 8, .returned false (.accepted false)) ∧
      pushed s.history = [7] ∧ popped s.history ++ s.shared = [7] ∧ s.shared.length ≤ 1 ∧
      ∀ e ∈ s.history, e.call ≠ 1 := by
  have hrun : ((blockingQueueSystem Nat 1).run (fun _ _ => true) ⟨[], none, fun _ => none, []⟩
      fullQueueRun).any (fun s =>
        s.calls 1 = some (.pushWithTimeout 8, .returned false (.accepted false)) ∧
          pushed s.history = [7]) = true := by
    decide +kernel
  obtain ⟨s, hs, hp⟩ := Transition.System.exists_reach_of_run (G := fun _ _ => True)
    (fun _ _ _ => trivial) (.init rfl) hrun
  obtain ⟨hcall, hpushed⟩ := of_decide_eq_true hp
  obtain ⟨hfifo, hbound, htimeout, -⟩ := blockingQueue_laws hs
  exact ⟨s, hs, hcall, hpushed, hfifo.symm.trans hpushed, hbound (by decide),
    htimeout 1 8 false hcall⟩

end AsyncGrpc.Proofs
