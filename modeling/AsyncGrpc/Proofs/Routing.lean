import AsyncGrpc.Proofs.Startup

/-!
# Which event queue the events of an `Rpc` go to

The constructor stores the event queue in six places and `SetEventQueue` changes one of them.
A clone therefore keeps all its events on one queue exactly when the queue selected for it
is the one of the `Rpc` it was cloned from, which with one event thread is always so.
-/

namespace AsyncGrpc.Proofs

open Function Transition

variable {Req Resp : Type} {options : Options} {maps : List (List (String × RpcHandlerInfo))}

/-- All events of one `Rpc` go to one queue: the queue its five `CompletionQueueRpcEvent`s
push to is the queue `Write` and `Finish` push `WRITE_NEEDED` to. -/
def SameQueue (s : Server Req Resp) : Prop :=
  ∀ r < s.nextRpc, (s.rpcs r).Routed

/-- The step, should it clone an `Rpc`, is taken while the next queue of the round robin is
the queue of that `Rpc`. -/
def ClonesInPlace (s : Server Req Resp) (l : Label Req Resp) : Prop :=
  ∀ t acts p rest, l = .exec t acts → s.tasks t = ⟨p, .clone :: rest⟩ →
    s.nextEventQueue = (s.rpcs p).eventQueue

lemma step_clone {s s' : Server Req Resp} {t p : Nat} {acts : List (HandlerAction Resp)}
    {rest : List (Instr Resp)} (htask : s.tasks t = ⟨p, .clone :: rest⟩)
    (h : s.step (.exec t acts) = some s') : s'.nextRpc ≠ s.nextRpc := by
  have hf := (step_moves h).1
  simp only [Server.step, hf, Server.exec, htask, Instr.run, Server.apply] at h
  cases h
  exact Nat.succ_ne_self _

/-- The clone is routed exactly when the selected queue is the one it was constructed with. -/
lemma cloneRpc_routed (s : Server Req Resp) (p : Nat) :
    ((s.cloneRpc p).rpcs s.nextRpc).Routed ↔ s.nextEventQueue = (s.rpcs p).eventQueue := by
  rw [cloneRpc_rpcs_new, (requestNextMethodInvocation_samePlace _).routed]
  constructor
  · intro h
    exact (h .done).symm
  · intro h tag
    exact h.symm

/-- One step keeps the routing exactly when it does not clone out of place. -/
theorem step_sameQueue_iff {s s' : Server Req Resp} {l : Label Req Resp} (hs : SameQueue s)
    (h : s.step l = some s') : SameQueue s' ↔ ClonesInPlace s l := by
  have hm := (step_moves h).2
  by_cases hne : s'.nextRpc = s.nextRpc
  · constructor
    · rintro - t acts p rest rfl htask
      exact absurd hne (step_clone htask h)
    · intro _ r hr
      rw [hne] at hr
      exact (moves_samePlace hm hr).routed.mpr (hs r hr)
  · obtain ⟨t, acts, p, rest, rfl, htask, rfl⟩ := moves_born hm hne
    have hnew := cloneRpc_routed (s.setTask t ⟨p, rest⟩) p
    constructor
    · intro hs' t' acts' p' rest' hl htask'
      cases hl
      rw [htask] at htask'
      cases htask'
      exact hnew.mp (hs' _ (Nat.lt_succ_self _))
    · intro hc r hr
      rcases Nat.lt_succ_iff_lt_or_eq.mp hr with hr | rfl
      · rw [cloneRpc_rpcs_old _ _ hr]
        exact hs r hr
      · exact hnew.mpr (hc t acts p rest rfl htask)

lemma start_sameQueue : SameQueue (Server.start options maps : Server Req Resp) := by
  apply start_induction (P := SameQueue)
  · intro r hr
    exact absurd hr (Nat.not_lt_zero r)
  · intro s v i cq info _ _ hs r hr
    rcases Nat.lt_succ_iff_lt_or_eq.mp hr with hr | rfl
    · rw [addRpc_rpcs_old _ _ hr]
      exact hs r hr
    · rw [addRpc_rpcs_new, (requestNextMethodInvocation_samePlace _).routed]
      exact fun _ => rfl

/-- In every run of every server, all events of one `Rpc` go to one queue throughout exactly
when no step clones an `Rpc` while the round robin stands at another queue. -/
theorem sameQueue_iff_clonesInPlace (options : Options)
    (maps : List (List (String × RpcHandlerInfo))) (ls : List (Label Req Resp)) :
    (serverSystem Req Resp options maps).AllStates SameQueue (.start options maps) ls ↔
      (serverSystem Req Resp options maps).AllSteps ClonesInPlace (.start options maps) ls := by
  apply System.allStates_iff_allSteps (P := SameQueue)
  · intro s l s' _ hs h
    exact step_sameQueue_iff hs h
  · exact .init rfl
  · exact start_sameQueue

/-- A `Math` service whose only method streams its responses. -/
def sequenceService : List (List (String × RpcHandlerInfo)) :=
  [[("GetSequence", ⟨0, .serverStreaming, "/async_grpc.proto.Math/GetSequence"⟩)]]

def twoEventThreads : Options := ⟨1, 2, by decide⟩

/-- A client connects to the first `Rpc`, which event thread 1 clones. -/
def firstConnection : List (Label Nat Nat) :=
  [.next 0 0 .newConnection true (some 12), .pushToEventQueue 0, .pop 1] ++
    List.replicate 8 (.exec 1 [])

/-- With two event threads the first clone has its completion queue events on queue 1 and
its `WRITE_NEEDED` events on queue 0. -/
theorem not_sameQueue_of_two_threads :
    ∃ s, (serverSystem Nat Nat twoEventThreads sequenceService).Reachable s ∧
      1 < s.nextRpc ∧ ((s.rpcs 1).event .write).eventQueue = 1 ∧ (s.rpcs 1).eventQueue = 0 ∧
      ¬SameQueue s := by
  obtain ⟨s, hs, hp⟩ := exists_reachable twoEventThreads sequenceService firstConnection
    (fun s => 1 < s.nextRpc ∧ ((s.rpcs 1).event .write).eventQueue = 1 ∧ (s.rpcs 1).eventQueue = 0)
    (by decide +kernel)
  obtain ⟨hlt, hw, hq⟩ := of_decide_eq_true hp
  refine ⟨s, hs, hlt, hw, hq, fun hsame => ?_⟩
  have := hsame 1 hlt .write
  omega

/-! ### One event thread -/

/-- The six queue pointers of every `Rpc` name event queues of the server. -/
lemma reachable_home_lt {s : Server Req Resp}
    (hs : (serverSystem Req Resp options maps).Reachable s) {r : Nat} (hr : r < s.nextRpc)
    (e : QueuedEvent) : home (s.rpcs r) e < options.numEventThreads := by
  apply reachable_rpcs (P := fun x : Rpc Req Resp => ∀ e, home x e < options.numEventThreads)
    _ _ _ hs r hr e
  · intro x y hxy hx e
    rw [hxy.home]
    exact hx e
  · intro v i cq q info _ hq e
    cases e <;> exact hq
  · intro x p q hq hx e
    cases e with
    | completion r tag => exact hx (.internal 0)
    | internal r => exact hq

/-- With one event thread every `Rpc` is routed. -/
theorem routed_of_one_thread (hn : options.numEventThreads = 1) {s : Server Req Resp}
    (hs : (serverSystem Req Resp options maps).Reachable s) {r : Nat} (hr : r < s.nextRpc) :
    (s.rpcs r).Routed ∧ (s.rpcs r).eventQueue = 0 := by
  have h := reachable_home_lt hs hr
  rw [hn] at h
  have hq : (s.rpcs r).eventQueue = 0 := Nat.lt_one_iff.mp (h (.internal 0))
  exact ⟨fun tag => (Nat.lt_one_iff.mp (h (.completion 0 tag))).trans hq.symm, hq⟩

end AsyncGrpc.Proofs
