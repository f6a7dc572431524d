import AsyncGrpc.Proofs.SendQueue

/-!
# The completion of a call

`HandleSendQueue` looks at the pending flags only, and the flag of `FINISH` goes down again
when the event is handled. A call is completed once exactly as long as the send queue is empty
whenever it is looked at after that.
-/

namespace AsyncGrpc.Proofs

open Function Transition

variable {Req Resp : Type} {options : Options} {maps : List (List (String × RpcHandlerInfo))}

/-- Some `Write` operations, then at most one `Finish` or `FinishWithError`. -/
def SingleCompletion (ops : List (SendOp Resp)) : Prop :=
  ∀ op ∈ ops.dropLast, op.isFinish = false

/-- The step, should it run `HandleSendQueue` on an `Rpc` whose `FINISH` event has been
handled, finds its send queue empty. -/
def EmptyAfterFinish (s : Server Req Resp) (l : Label Req Resp) : Prop :=
  ∀ t acts r rest ok, l = .exec t acts → s.tasks t = ⟨r, .handleSendQueue :: rest⟩ →
    (.finish, ok) ∈ (s.rpcs r).handled → (s.rpcs r).sendQueue = []

/-- The same condition on a step of a call. -/
def CallEmptyAfterFinish (c : Call Req Resp) (l : CallLabel Req Resp) : Prop :=
  ∀ acts rest ok, l = .exec acts → c.code = .handleSendQueue :: rest →
    (.finish, ok) ∈ c.rpc.handled → c.rpc.sendQueue = []

structure Completes (c : Call Req Resp) (acts : List (Instr Resp)) (p : Phase Resp) : Prop where
  sends : Sends c acts p
  single : SingleCompletion c.rpc.sends
  performing : p.item ≠ none → ∀ op ∈ c.rpc.sends, op.isFinish = false

section Turns

variable {c c' : Call Req Resp} {acts acts' : List (Instr Resp)} {p p' : Phase Resp}
  {l : CallLabel Req Resp}

/-- An item is only taken off the queue while no `Finish` has been started. -/
lemma Sends.unfinished (h : Sends c acts p) (hfinish : c.rpc.isRpcEventPending .finish = false)
    (hhandled : ∀ ok, (.finish, ok) ∉ c.rpc.handled) : ∀ op ∈ c.rpc.sends, op.isFinish = false := by
  have hcount := h.finishes
  have hzero : c.rpc.handled.countP (fun h => h.1 = .finish) = 0 := by
    rw [List.countP_eq_zero]
    rintro ⟨tag, ok⟩ hmem htag
    rw [decide_eq_true_eq] at htag
    exact hhandled ok (htag ▸ hmem)
  rw [hfinish, hzero] at hcount
  simpa using List.countP_eq_zero.mp hcount

lemma singleCompletion_append {ops : List (SendOp Resp)} (op : SendOp Resp)
    (h : ∀ op ∈ ops, op.isFinish = false) : SingleCompletion (ops ++ [op]) := by
  rw [SingleCompletion, List.dropLast_concat]
  exact h

lemma turn_completes (h : Completes c acts p) (hat : At c acts p) (hg : CallEmptyAfterFinish c l)
    (ht : Turn c acts p l c' acts' p') : Completes c' acts' p' := by
  have hsends := turn_sends h.sends hat ht
  have htake : ∀ {e as item rest}, p = .handleSendQueue e → l = .exec as → acts = [] →
      c.rpc.sendQueue = item :: rest → c.rpc.isRpcEventPending .finish = false →
      ∀ op ∈ c.rpc.sends, op.isFinish = false := by
    rintro e as item rest rfl rfl rfl hq hfinish
    refine h.sends.unfinished hfinish (fun ok hmem => ?_)
    exact absurd (hg as e.code ok rfl hat.code hmem) (by simp [hq])
  cases ht with
  | handle => exact ⟨hsends, h.single, fun hi => absurd (ofEvent_item _ _) hi⟩
  | callback hp _ => exact ⟨hsends, h.single, fun hi => absurd (callback_item hp).2 hi⟩
  | takeFinish hq _ hfinish _ => exact ⟨hsends, h.single, fun _ => htake rfl rfl rfl hq hfinish⟩
  | takeWrite hq _ hfinish _ _ => exact ⟨hsends, h.single, fun _ => htake rfl rfl rfl hq hfinish⟩
  | performFinish _ | performWrite _ _ =>
    exact ⟨hsends, singleCompletion_append _ (h.performing (by simp [Phase.item])),
      fun hi => absurd rfl hi⟩
  | keep _ | erase _ => exact ⟨hsends, h.single, fun hi => absurd (afterClose_item _) hi⟩
  | _ => exact ⟨hsends, h.single, h.performing⟩

end Turns

theorem reach_completes {c : Call Req Resp}
    (hc : (callSystem Req Resp).Reach CallEmptyAfterFinish c) :
    ∃ acts p, At c acts p ∧ Completes c acts p := by
  apply reach_staged _ _ hc
  · intro c hinit
    refine ⟨listening_sends hinit, ?_, fun hi => absurd rfl hi⟩
    obtain ⟨methodIndex, cq, queue, info, service, parent, shuttingDown, rfl⟩ := hinit
    exact nofun
  · intro c acts p l c' acts' p' hat h hg ht
    exact turn_completes h hat hg ht

/-- With one event thread, in every run in which the send queue of an `Rpc` is empty whenever
`HandleSendQueue` runs after its `FINISH` event was handled, every call is completed at most
once and nothing is sent after its completion. -/
theorem single_completion (hn : options.numEventThreads = 1) {s : Server Req Resp}
    (hs : (serverSystem Req Resp options maps).Reach EmptyAfterFinish s) {r : Nat}
    (hr : r < s.nextRpc) : SingleCompletion (s.rpcs r).sends := by
  have hcall : (callSystem Req Resp).Reach CallEmptyAfterFinish (s.call r) := by
    apply reach_call (F := fun _ => CallEmptyAfterFinish) _ hs hr
      (routed_of_one_thread hn hs.reachable hr).1
    rintro s l s' r m hs hG hstep hr hR hproj acts rest ok rfl hcode hhandled
    obtain ⟨t, rfl, htask⟩ := project_exec (reachable_housed hs.reachable) hR hstep hproj
    rw [hcode] at htask
    exact hG t acts r rest ok rfl htask hhandled
  obtain ⟨acts, p, -, h⟩ := reach_completes hcall
  exact h.single

/-- The test for `EmptyAfterFinish`. -/
def emptyAfterFinish (s : Server Req Resp) : Label Req Resp → Bool
  | .exec t _ =>
    match (s.tasks t).code with
    | .handleSendQueue :: _ =>
      (s.rpcs (s.tasks t).rpc).handled.all (fun h => h.1 ≠ .finish) ||
        (s.rpcs (s.tasks t).rpc).sendQueue.isEmpty
    | _ => true
  | _ => true

lemma emptyAfterFinish_sound (s : Server Req Resp) (l : Label Req Resp)
    (h : emptyAfterFinish s l = true) : EmptyAfterFinish s l := by
  rintro t acts r rest ok rfl htask hhandled
  simp only [emptyAfterFinish, htask, Bool.or_eq_true, List.all_eq_true, List.isEmpty_iff] at h
  rcases h with h | h
  · exact absurd (h _ hhandled) (by simp)
  · exact h

def internalError : Status := ⟨.internal, "internal error"⟩

/-- The handler of a call that streams its requests answers the first one by `Finish` with an
error, and the `FINISH` event is handled. -/
def finishOnRequest : List (Label Nat Nat) :=
  openConnection ++ event .read true (some 0) ++ execs 1 ++ callback [.finish internalError] ++
    execs 4 ++ writeNeeded 5 ++ event .finish true none ++ execs 3

/-- The handler then sends its response when the reads are done. -/
def finishThenSend : List (Label Nat Nat) :=
  finishOnRequest ++ event .read false none ++ execs 1 ++ callback [.send 7] ++ execs 4 ++
    writeNeeded 3

theorem single_completion_of_run :
    ∃ s, (serverSystem Nat Nat oneEventThread sumService).Reach EmptyAfterFinish s ∧
      0 < s.nextRpc ∧ (.finish, true) ∈ (s.rpcs 0).handled ∧ SingleCompletion (s.rpcs 0).sends := by
  obtain ⟨s, hs, hp⟩ := exists_reach oneEventThread sumService emptyAfterFinish
    emptyAfterFinish_sound finishOnRequest
    (fun s => 0 < s.nextRpc ∧ (.finish, true) ∈ (s.rpcs 0).handled) (by decide +kernel)
  obtain ⟨hr, hhandled⟩ := of_decide_eq_true hp
  exact ⟨s, hs, hr, hhandled, single_completion rfl hs hr⟩

/-- The call is completed a second time after its `FINISH` event was handled. -/
theorem not_single_completion :
    ∃ s, (serverSystem Nat Nat oneEventThread sumService).Reachable s ∧ 0 < s.nextRpc ∧
      (s.rpcs 0).sends = [.finishWithError internalError, .finish (some 7) .ok] ∧
      ¬SingleCompletion (s.rpcs 0).sends := by
  obtain ⟨s, hs, hp⟩ := exists_reachable oneEventThread sumService finishThenSend
    (fun s => 0 < s.nextRpc ∧
      (s.rpcs 0).sends = [.finishWithError internalError, .finish (some 7) .ok])
    (by decide +kernel)
  obtain ⟨hr, hsends⟩ := of_decide_eq_true hp
  refine ⟨s, hs, hr, hsends, fun h => ?_⟩
  rw [hsends] at h
  exact absurd (h _ List.mem_cons_self) (by decide)

end AsyncGrpc.Proofs
