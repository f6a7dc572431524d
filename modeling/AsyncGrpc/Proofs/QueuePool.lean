import AsyncGrpc.CompletionQueuePool

/-!
# Reads of the completion queue pool

Under the mutex the pool is always either empty or full of running queues, so no `CHECK` of a
queue ever fails. `GetCompletionQueue` reads the pool without the mutex: each of its two reads
succeeds if and only if no `Shutdown` has left the pool empty.
-/

namespace AsyncGrpc.Proofs

open Function CompletionQueue

/-- A queue that can be handed out. -/
def Live (q : CompletionQueue) : Prop :=
  q.thread = true ∧ q.shutDown = false

/-- What the mutex protects: an initialised pool is full of live queues, and one that is not
initialised is empty. -/
structure Consistent (pool : CompletionQueuePool) : Prop where
  positive : 0 < pool.numberCompletionQueues
  full : pool.initialized = true →
    pool.completionQueues.length = pool.numberCompletionQueues ∧
      ∀ q ∈ pool.completionQueues, Live q
  empty : pool.initialized = false → pool.completionQueues = []

/-- A loop in which no `CHECK` fails. -/
lemma forEach_eq_some {f : CompletionQueue → Option CompletionQueue}
    {P Q : CompletionQueue → Prop} (hf : ∀ q, P q → ∃ q', f q = some q' ∧ Q q')
    {queues : List CompletionQueue} (h : ∀ q ∈ queues, P q) :
    ∃ queues', forEach f queues = some queues' ∧ queues'.length = queues.length ∧
      ∀ q ∈ queues', Q q := by
  induction queues with
  | nil => exact ⟨[], rfl, rfl, by simp⟩
  | cons q queues ih =>
    obtain ⟨q', hq', hQ⟩ := hf q (h q (.head _))
    obtain ⟨queues', hqueues', hlength, hall⟩ := ih (fun q hq => h q (.tail _ hq))
    refine ⟨q' :: queues', by simp [forEach, hq', hqueues'], by simp [hlength], ?_⟩
    intro p hp
    obtain rfl | hp := List.mem_cons.mp hp
    · exact hQ
    · exact hall p hp

lemma Consistent.initializePool {pool : CompletionQueuePool} (h : Consistent pool) :
    ∃ pool', pool.initializePool = some pool' ∧ Consistent pool' ∧
      pool'.numberCompletionQueues = pool.numberCompletionQueues := by
  cases hinit : pool.initialized with
  | true => exact ⟨pool, by simp [CompletionQueuePool.initializePool, hinit], h, rfl⟩
  | false =>
    have hstart : ∀ q : CompletionQueue, q.thread = false ∧ q.shutDown = false →
        ∃ q', q.start = some q' ∧ Live q' := by
      intro q hq
      exact ⟨{ q with thread := true }, by simp [CompletionQueue.start, hq.1], rfl, hq.2⟩
    have hnew : ∀ q ∈ (pool.resize pool.numberCompletionQueues).completionQueues,
        q.thread = false ∧ q.shutDown = false := by
      intro q hq
      simp only [CompletionQueuePool.resize, h.empty hinit, List.take_nil, List.nil_append,
        List.mem_map] at hq
      obtain ⟨i, -, rfl⟩ := hq
      exact ⟨rfl, rfl⟩
    obtain ⟨queues, hqueues, hlength, hlive⟩ := forEach_eq_some hstart hnew
    refine ⟨{ pool.resize pool.numberCompletionQueues with
      completionQueues := queues, initialized := true }, ?_, ?_, rfl⟩
    · simp [CompletionQueuePool.initializePool, hinit, hqueues]
    · refine ⟨h.positive, fun _ => ⟨hlength.trans ?_, hlive⟩, fun hc => by cases hc⟩
      simp [CompletionQueuePool.resize, h.empty hinit]

lemma Consistent.shutdown {pool : CompletionQueuePool} (h : Consistent pool) :
    ∃ pool', pool.shutdown = some pool' ∧ Consistent pool' ∧
      pool'.numberCompletionQueues = pool.numberCompletionQueues := by
  have hdown : ∀ q : CompletionQueue, q.thread = true →
      ∃ q', q.shutdown = some q' ∧ q'.shutDown = true := by
    intro q hq
    exact ⟨{ q with shutDown := true }, by simp [CompletionQueue.shutdown, hq], rfl⟩
  have hstarted : ∀ q ∈ pool.completionQueues, q.thread = true := by
    intro q hq
    cases hinit : pool.initialized with
    | true => exact ((h.full hinit).2 q hq).1
    | false =>
      rw [h.empty hinit] at hq
      cases hq
  obtain ⟨queues, hqueues, -, -⟩ := forEach_eq_some hdown hstarted
  refine ⟨{ pool with completionQueues := [], initialized := false }, ?_, ?_, rfl⟩
  · simp [CompletionQueuePool.shutdown, hqueues]
  · exact ⟨h.positive, fun hc => (by cases hc), fun _ => rfl⟩

/-- What holds between the steps: the pool is consistent, every chosen `qid` is below the size
of the pool, and no `CHECK` has failed. -/
structure PoolSound (s : PoolState) : Prop where
  pool : Consistent s.pool
  chosen : ∀ k qid, s.calls k = some (.getCompletionQueue, .chosen qid) →
    qid < s.pool.numberCompletionQueues
  checks : ∀ k, s.fault ≠ some (.check k)

lemma PoolSound.set {s : PoolState} (h : PoolSound s) {k : Nat} {method : PoolMethod}
    {pc : PoolPc} (hpc : ∀ qid, pc = .chosen qid → qid < s.pool.numberCompletionQueues) :
    PoolSound (s.set k method pc) where
  pool := h.pool
  chosen j qid hj := by
    simp only [PoolState.set, update_apply] at hj
    split at hj
    · cases hj
      exact hpc qid rfl
    · exact h.chosen j qid hj
  checks := h.checks

/-- A section under the mutex that keeps the pool consistent. -/
lemma PoolSound.locked {s : PoolState} (h : PoolSound s) {k : Nat} {method : PoolMethod}
    {pc : PoolPc} (hpc : ∀ qid, pc ≠ .chosen qid) {result : Option CompletionQueuePool}
    (hresult : ∃ pool', result = some pool' ∧ Consistent pool' ∧
      pool'.numberCompletionQueues = s.pool.numberCompletionQueues) :
    PoolSound (s.locked k method pc result) := by
  obtain ⟨pool', rfl, hpool', hnumber⟩ := hresult
  have hset : PoolSound (s.set k method pc) := h.set (fun qid hc => absurd hc (hpc qid))
  refine ⟨hpool', fun j qid hj => ?_, hset.checks⟩
  exact Nat.lt_of_lt_of_eq (hset.chosen j qid hj) hnumber.symm

lemma qid_lt {size : Nat} (hne : size ≠ 0) (random : Nat) : random % size % 2 ^ 32 < size :=
  Nat.lt_of_le_of_lt (Nat.mod_le _ _) (Nat.mod_lt _ (Nat.pos_of_ne_zero hne))

lemma PoolSound.chooseQid {s : PoolState} (h : PoolSound s) (k random : Nat) :
    PoolSound (s.chooseQid k random) := by
  unfold PoolState.chooseQid
  split
  · exact ⟨h.pool, h.chosen, fun j hc => by cases hc⟩
  · rename_i hne
    refine h.set (fun qid hc => ?_)
    cases hc
    cases hinit : s.pool.initialized with
    | true =>
      rw [← (h.pool.full hinit).1]
      exact qid_lt hne random
    | false => exact absurd (congrArg List.length (h.pool.empty hinit)) hne

lemma PoolSound.selectQueue {s : PoolState} (h : PoolSound s) (k qid : Nat) :
    PoolSound (s.selectQueue k qid) := by
  unfold PoolState.selectQueue
  split
  · exact h.set (fun _ hc => by cases hc)
  · exact ⟨h.pool, h.chosen, fun j hc => by cases hc⟩

lemma next_poolSound {s s' : PoolState} (h : PoolSound s) {k random : Nat} {method : PoolMethod}
    {pc : PoolPc} (hnext : s.next k random method pc = some s') : PoolSound s' := by
  unfold PoolState.next at hnext
  split at hnext <;> cases hnext
  · exact h.locked (by simp) h.pool.initializePool
  · exact h.locked (by simp) h.pool.shutdown
  · exact h.locked (by simp) h.pool.initializePool
  · exact h.chooseQid k random
  · exact h.selectQueue k _

theorem reachable_poolSound {s : PoolState} (hs : poolSystem.Reachable s) : PoolSound s := by
  apply hs.invariant (P := PoolSound)
  · rintro s ⟨hcalls, hfault, hpool⟩
    refine ⟨?_, by simp [hcalls], by simp [hfault]⟩
    obtain hpool | ⟨n, hpool⟩ := hpool
    · rw [hpool]
      exact ⟨by decide, fun hc => (by cases hc), fun _ => rfl⟩
    · unfold CompletionQueuePool.setNumberCompletionQueues at hpool
      split at hpool
      · rename_i hn
        rw [← Option.some.inj hpool]
        exact ⟨by simpa [CompletionQueuePool.new] using hn, fun hc => (by cases hc), fun _ => rfl⟩
      · cases hpool
  · intro s l s' _ hP _ hstep
    simp only [poolSystem, PoolState.step] at hstep
    split at hstep
    · cases hstep
    cases l with
    | call k method =>
      simp only at hstep
      split at hstep
      · cases hstep
        exact hP.set (fun _ hc => by cases hc)
      · cases hstep
    | step k random =>
      obtain ⟨⟨method, pc⟩, -, hnext⟩ := Option.bind_eq_some_iff.mp hstep
      exact next_poolSound hP hnext

/-! ### The two reads without the mutex -/

/-- The call is about to read `completion_queues_` without the mutex. -/
def Reads (s : PoolState) (k : Nat) : Prop :=
  s.calls k = some (.getCompletionQueue, .prepared) ∨
    ∃ qid, s.calls k = some (.getCompletionQueue, .chosen qid)

/-- The read succeeds: it chooses a `qid` in range, or returns a live queue of the pool. -/
def Served (s s' : PoolState) (k : Nat) : Prop :=
  s'.fault = none ∧
    ((∃ qid < s.pool.completionQueues.length,
        s'.calls k = some (.getCompletionQueue, .chosen qid)) ∨
      ∃ q ∈ s.pool.completionQueues, Live q ∧
        s'.calls k = some (.getCompletionQueue, .returned (some q)))

lemma chooseQid_served {s : PoolState} (h : PoolSound s) (hfault : s.fault = none)
    (k random : Nat) : Served s (s.chooseQid k random) k ↔ s.pool.initialized = true := by
  unfold PoolState.chooseQid
  cases hinit : s.pool.initialized with
  | true =>
    have hne : s.pool.completionQueues.length ≠ 0 := by
      rw [(h.pool.full hinit).1]
      exact Nat.ne_of_gt h.pool.positive
    rw [if_neg hne]
    exact iff_of_true ⟨hfault, .inl ⟨_, qid_lt hne random, update_self _ _ _⟩⟩ rfl
  | false =>
    have hzero : s.pool.completionQueues.length = 0 := congrArg List.length (h.pool.empty hinit)
    rw [if_pos hzero]
    exact iff_of_false (fun hc => by cases hc.1) (by simp)

lemma selectQueue_served {s : PoolState} (h : PoolSound s) (hfault : s.fault = none) {k qid : Nat}
    (hcall : s.calls k = some (.getCompletionQueue, .chosen qid)) :
    Served s (s.selectQueue k qid) k ↔ s.pool.initialized = true := by
  unfold PoolState.selectQueue
  cases hinit : s.pool.initialized with
  | true =>
    obtain ⟨hlength, hlive⟩ := h.pool.full hinit
    have hqid : qid < s.pool.completionQueues.length := by
      rw [hlength]
      exact h.chosen k qid hcall
    rw [List.getElem?_eq_getElem hqid]
    have hmem := List.getElem_mem hqid
    exact iff_of_true ⟨hfault, .inr ⟨_, hmem, hlive _ hmem, update_self _ _ _⟩⟩ rfl
  | false =>
    rw [h.pool.empty hinit]
    exact iff_of_false (fun hc => by cases hc.1) (by simp)

/-- In every state that any calls in any interleaving reach: no `CHECK` of a queue has failed,
and a read of the pool without the mutex succeeds if and only if the pool is initialised. -/
theorem pool_read_iff {s : PoolState} (hs : poolSystem.Reachable s) :
    (∀ k, s.fault ≠ some (.check k)) ∧
    ∀ k random s', Reads s k → s.step (.step k random) = some s' →
      (Served s s' k ↔ s.pool.initialized = true) := by
  have hsound := reachable_poolSound hs
  refine ⟨hsound.checks, fun k random s' hreads hstep => ?_⟩
  simp only [PoolState.step] at hstep
  split at hstep
  · cases hstep
  rename_i hfault
  rw [not_not] at hfault
  obtain hcall | ⟨qid, hcall⟩ := hreads
  · rw [hcall] at hstep
    cases hstep
    exact chooseQid_served hsound hfault k random
  · rw [hcall] at hstep
    cases hstep
    exact selectQueue_served hsound hfault hcall

/-- A list of labels that leads from the new pool to a state with some property. -/
lemma exists_pool (labels : List PoolLabel) (p : PoolState → Bool)
    (h : (poolSystem.run (fun _ _ => true) ⟨.new, fun _ => none, none⟩ labels).any p = true) :
    ∃ s, poolSystem.Reachable s ∧ p s = true :=
  Transition.System.exists_reach_of_run (fun _ _ _ => trivial) (.init ⟨rfl, rfl, .inl rfl⟩) h

/-- The pool has been shut down once and initialised again by the call. -/
theorem pool_read_of_restart :
    ∃ s s', poolSystem.Reachable s ∧ Reads s 2 ∧ s.step (.step 2 5) = some s' ∧
      Served s s' 2 := by
  obtain ⟨s, hs, hp⟩ := exists_pool
    [.call 0 .start, .step 0 0, .call 1 .shutdown, .step 1 0, .call 2 .getCompletionQueue,
      .step 2 0]
    (fun s => s.calls 2 = some (.getCompletionQueue, .prepared) ∧ s.pool.initialized = true ∧
      (s.step (.step 2 5)).isSome = true) (by decide +kernel)
  obtain ⟨hcall, hinit, hstep⟩ := of_decide_eq_true hp
  obtain ⟨s', hstep⟩ := Option.isSome_iff_exists.mp hstep
  exact ⟨s, s', hs, .inl hcall, hstep, ((pool_read_iff hs).2 2 5 s' (.inl hcall) hstep).mpr hinit⟩

/-- A `Shutdown` between the initialisation and the first read makes the remainder one modulo
zero, and one between the two reads makes the index out of range. -/
theorem pool_read_after_shutdown :
    (∃ s, poolSystem.Reachable s ∧ s.fault = some (.modulo 0)) ∧
    ∃ s, poolSystem.Reachable s ∧ s.fault = some (.outOfRange 0) := by
  constructor
  · obtain ⟨s, hs, hp⟩ := exists_pool
      [.call 0 .getCompletionQueue, .step 0 0, .call 1 .shutdown, .step 1 0, .step 0 5]
      (fun s => s.fault = some (.modulo 0)) (by decide +kernel)
    exact ⟨s, hs, of_decide_eq_true hp⟩
  · obtain ⟨s, hs, hp⟩ := exists_pool
      [.call 0 .getCompletionQueue, .step 0 0, .step 0 5, .call 1 .shutdown, .step 1 0, .step 0 0]
      (fun s => s.fault = some (.outOfRange 0)) (by decide +kernel)
    exact ⟨s, hs, of_decide_eq_true hp⟩

end AsyncGrpc.Proofs
