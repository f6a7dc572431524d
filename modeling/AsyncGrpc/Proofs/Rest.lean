import AsyncGrpc.Proofs.Faults
import AsyncGrpc.Proofs.SendQueue
import AsyncGrpc.Proofs.Work

/-!
# The threads come to rest

Left to themselves, the completion queue threads, the event threads and the `Writer` calls of a
server run out of work, whatever the handlers do in their callbacks, even if gRPC completes every
`Write` meanwhile. With one event thread all messages have been handed to gRPC by then.

The work is priced at three levels: a callback may add any number of messages to send, and a
message any number of steps.
-/

namespace AsyncGrpc.Proofs

open Function Transition Workload

variable {Req Resp : Type} {options : Options} {maps : List (List (String × RpcHandlerInfo))}

/-! ### Three levels -/

/-- What may still make a handler call: tags, events and instructions that end in a callback. -/
def instrCallbacks : Instr Resp → Nat
  | .callback _ => 1
  | .requestStreamingReadIfNeeded => 3
  | .onConnection => 5
  | .handleNewConnection _ => 6
  | .handle .newConnection | .handle .read | .handle .finish => 7
  | _ => 0

def eventCallbacks : Event → Nat
  | .newConnection | .read | .finish => 8
  | .write | .done | .writeNeeded => 0

def handCallbacks : Tag → Nat
  | .newConnection | .read | .finish => 9
  | .write | .done => 0

@[simps] def callbackWeights : Weights Resp :=
  ⟨instrCallbacks, eventCallbacks, handCallbacks, fun _ => 0, 0, fun _ => 0⟩

/-- The way of a message to gRPC and back. -/
def instrSends : Instr Resp → Nat
  | .enqueueMessage _ => 8
  | .performWrite _ | .performFinish _ => 6
  | .handle .write => 2
  | _ => 0

def writerSends : WriterPc → Nat
  | .calling | .locked => 8
  | .enqueued | .lookedUp | .pushed | .returned _ => 0

@[simps] def sendWeights : Weights Resp :=
  ⟨instrSends, fun event => if event = .write then 3 else 0,
    fun tag => if tag = .write then 4 else 0, writerSends, 7,
    fun tag => if tag = .write then 5 else 0⟩

/-- The steps of the threads between two messages. -/
def instrSteps : Instr Resp → Nat
  | .pushWriteNeeded => 7
  | .handleInternal => 5
  | .handle _ | .handleSendQueue => 2
  | _ => 1

def writerSteps : WriterPc → Nat
  | .calling => 11
  | .locked => 10
  | .enqueued => 9
  | .lookedUp => 8
  | .pushed => 1
  | .returned _ => 0

@[simps] def stepWeights : Weights Resp :=
  ⟨instrSteps, fun event => if event = .writeNeeded then 6 else 3, fun _ => 4, writerSteps, 0,
    fun _ => 0⟩

/-- The callbacks count first, then the messages, then the steps. -/
def levels : List (Weights Resp) :=
  [callbackWeights, sendWeights, stepWeights]

lemma load_instrs_callbacks (acts : List (HandlerAction Resp)) :
    load callbackWeights.instr (acts.flatMap HandlerAction.instrs) = 0 := by
  apply load_eq_zero
  intro j hj
  have hproducer := instrs_producer acts j hj
  cases j <;> first | rfl | cases hproducer

/-- An instruction is followed by less than itself. -/
lemma run_lowers {i : Instr Resp} {env : Surroundings} {acts : List (HandlerAction Resp)}
    {x : Rpc Req Resp} {o : Outcome Req Resp} (h : i.run env acts x = some o) :
    Lower levels (fun W => W.rpc o.rpc + (load W.instr o.next + W.effect o.effect))
      (fun W => W.rpc x + W.instr i) := by
  cases run_runs h with
  | @handle tag =>
    cases tag with
    | read =>
      cases (x.event .read).ok <;>
        simp [Lower, levels, instrCallbacks, Weights.effect, Service.handleEvent, Tag.event,
          Service.handleRead]
    | newConnection | write | finish | done =>
      simp [Lower, levels, instrCallbacks, instrSends, instrSteps, Weights.effect,
        Service.handleEvent, Tag.event, Service.handleWrite, Service.handleFinish,
        Service.handleDone]
  | @handleNewConnection ok =>
    cases env.shuttingDown <;> cases ok <;>
      simp [Lower, levels, instrCallbacks, Weights.effect, Service.handleNewConnection]
  | callback _ => simp [Lower, levels, instrCallbacks, Weights.effect, load_instrs_callbacks]
  | takeFinish hqueue _ _ _ | takeWrite hqueue _ _ _ _ =>
    have hcallbacks := callbackWeights.rpc_sendQueue hqueue
    have hsends := sendWeights.rpc_sendQueue hqueue
    simp only [callbackWeights_item, sendWeights_item] at hcallbacks hsends
    simp only [Lower, levels, instrCallbacks, instrSends, Weights.effect, callbackWeights_instr,
      sendWeights_instr, load_cons, load_nil]
    omega
  | _ =>
    simp [Lower, levels, instrCallbacks, eventCallbacks, instrSends, instrSteps, Weights.effect,
      Service.handleWrite]

lemma falling_levels : Falling Req (levels : List (Weights Resp)) where
  push := by
    intro tag
    cases tag <;> simp [Lower, levels, handCallbacks, eventCallbacks, Tag.event]
  pop := by
    intro e
    cases e with
    | completion r tag =>
      cases tag <;> simp [Lower, levels, eventCallbacks, instrCallbacks, instrSends, instrSteps, kind,
        Tag.event, Server.handler]
    | internal r =>
      simp [Lower, levels, eventCallbacks, instrCallbacks, instrSends, instrSteps, kind,
        Server.handler]
  writer := by
    intro w w' env x y effect hret h
    unfold WriterCall.step at h
    split at h <;> rename_i hpc
    · split at h <;> cases h <;> simp [Lower, levels, Weights.effect, hpc, writerSends, writerSteps]
    · cases h
      simp [Lower, levels, Weights.effect, hpc, writerSends]
    · split at h <;> cases h
      simp [Lower, levels, Weights.effect, hpc, writerSends, writerSteps]
    · cases h
      simp [Lower, levels, Weights.effect, eventCallbacks, hpc, writerSends, writerSteps]
    · cases h
      simp [Lower, levels, Weights.effect, hpc, writerSends, writerSteps]
    · simp [WriterCall.isReturned, hpc] at hret

/-- A step of one of the server's threads or of a `Writer` call, or a `Write` that comes back. -/
def OfThreads : Label Req Resp → Prop
  | .next _ _ tag _ _ => tag = .write
  | .pushToEventQueue _ | .pop _ | .exec _ _ | .stepWriter _ _ => True
  | .callWriter _ _ | .stopServing _ => False

lemma keeps_reachable (s : Server Req Resp) (l : Label Req Resp) (s' : Server Req Resp)
    (hs : (serverSystem Req Resp options maps).Reachable s) (_hl : OfThreads l)
    (hstep : (serverSystem Req Resp options maps).step s l = some s') :
    (serverSystem Req Resp options maps).Reachable s' :=
  .step hs trivial hstep

/-- The threads cannot go on for ever. -/
theorem threads_end {s : Server Req Resp} (hs : (serverSystem Req Resp options maps).Reachable s) :
    (serverSystem Req Resp options maps).Ends OfThreads s := by
  apply System.ends_of_lower
    [fun s => callbackWeights.work s, fun s => sendWeights.work s,
      fun s => stepWeights.work s + s.fault.isNone.toNat]
    (fun f s => f s) keeps_reachable _ hs
  intro s l s' hs hl hstep
  obtain ⟨hfault, hm⟩ := step_moves hstep
  have hlower := falling_levels.moves hs hm (by rintro _ _ rfl; exact hl) (by rintro _ rfl; exact hl)
    (by rintro _ _ tag _ _ rfl; obtain rfl : tag = .write := hl; simp [Lower, levels, handCallbacks])
    (fun _ _ _ _ _ _ _ _ hrun => run_lowers hrun)
  rcases hlower with ⟨hlowers, hsame⟩ | ⟨hwork, hne⟩
  · simp only [Lower, levels, hsame, and_false, or_false] at hlowers ⊢
    omega
  · have hsome : s'.fault.isNone = false := by simpa [Option.isSome_iff_ne_none] using hne
    simp [Lower, hwork, hfault, hsome]

/-! ### A server at rest -/

/-- Nothing is left to do before gRPC or another thread makes the next step. -/
structure AtRest (s : Server Req Resp) : Prop where
  inHand : ∀ cq, s.inHand cq = none
  queues : ∀ t, s.eventQueues t = []
  tasks : ∀ t, (s.tasks t).code = []
  writers : ∀ r, ∀ w ∈ s.writers r, w.isReturned = true
  writes : ∀ r < s.nextRpc, (s.rpcs r).inFlight .write = 0

/-- A server without a fault in which no thread can make a step is at rest. -/
lemma atRest_of_rests {s : Server Req Resp}
    (hs : (serverSystem Req Resp options maps).Reachable s) (hfault : s.fault = none)
    (hrests : (serverSystem Req Resp options maps).Rests OfThreads s) : AtRest s := by
  have hstep : ∀ l : Label Req Resp, OfThreads l → s.step l = none := hrests
  have hinHand := fun cq => inHand_of_stuck hfault (hstep (.pushToEventQueue cq) trivial)
  have htasks := fun t => idle_of_stuck hfault (hstep (.exec t []) trivial)
  refine ⟨hinHand, fun t => ?_, htasks, fun r w hw => ?_, fun r hr => ?_⟩
  · by_contra hne
    obtain ⟨e, rest, hqueue⟩ := List.exists_cons_of_ne_nil hne
    obtain ⟨hr, ht⟩ := (reachable_housed hs).queues t e (by simp [hqueue])
    exact hne (queue_of_stuck hfault (ht ▸ home_lt hs hr e) (htasks t) (hstep (.pop t) trivial))
  · obtain ⟨i, hi⟩ := List.mem_iff_getElem?.mp hw
    exact returned_of_stuck hfault hi (hstep (.stepWriter r i) trivial)
  · have howed := owed_of_stuck hfault hs hr (hinHand _) (hstep (.next _ r .write false none) rfl)
    simpa [Rpc.owed] using howed

/-- For any number of threads and any handlers: from every reachable state, whatever is called in
which order, the threads of the server and the `Writer` calls come to rest after finitely many
steps, even if gRPC completes each `Write`, or a `CHECK` fails. -/
theorem threads_come_to_rest {s : Server Req Resp}
    (hs : (serverSystem Req Resp options maps).Reachable s) :
    (serverSystem Req Resp options maps).Forces OfThreads
      (fun s => s.fault ≠ none ∨ AtRest s) s := by
  apply (threads_end hs).forces.imp hs keeps_reachable
  intro s hs hrests
  by_cases hfault : s.fault = none
  · exact .inr (atRest_of_rests hs hfault hrests)
  · exact .inl hfault

/-- The `Writer` calls of a run that ends at rest. -/
theorem rest_of_writer :
    ∃ s, (serverSystem Nat Nat oneEventThread sumService).Reachable s ∧ ¬AtRest s ∧
      (serverSystem Nat Nat oneEventThread sumService).Forces OfThreads
        (fun s => s.fault ≠ none ∨ AtRest s) s := by
  obtain ⟨s, hs, hp⟩ := exists_reachable oneEventThread sumService (openWithWriter ++ lockByWriter)
    (fun s => ¬∀ w ∈ s.writers 0, w.isReturned = true) (by decide +kernel)
  exact ⟨s, hs, fun hrest => of_decide_eq_true hp (hrest.writers 0), threads_come_to_rest hs⟩

/-! ### All messages are handed over -/

/-- Every item accepted from the handler or a `Writer` of an open call has been handed to gRPC. -/
def AllSent (s : Server Req Resp) : Prop :=
  ∀ v, ∀ r ∈ (s.services v).activeRpcs, (∀ op ∈ (s.rpcs r).sends, op.isFinish = false) →
    (s.rpcs r).sendQueue = [] ∧
      (s.rpcs r).sends = (s.rpcs r).enqueued.map (sendOp (s.rpcs r).rpcType)

lemma AtRest.allSent (hn : options.numEventThreads = 1) {s : Server Req Resp}
    (hs : (serverSystem Req Resp options maps).Reachable s) (hrest : AtRest s) : AllSent s := by
  intro v r hactive hunfinished
  obtain ⟨hr, hv⟩ := (reachable_housed hs).activeRpcs v r hactive
  obtain ⟨hR, hq⟩ := routed_of_one_thread hn hs hr
  obtain ⟨acts, p, hat, hsends⟩ := reachable_sends (reachable_call hs hr hR)
  obtain ⟨rfl, rfl⟩ := hat.code_eq_nil (call_code_idle hq (hrest.tasks 0))
  have hact : s.active r = true := by simpa [Server.active, hv] using hactive
  have hout : outstanding s r .write = 0 := by
    simp [outstanding, hrest.writes r hr, hrest.inHand, hrest.queues, hrest.tasks]
  have hempty : (s.rpcs r).sendQueue = [] := by
    by_contra hne
    rcases hsends.wake hact hne with h | ⟨op, hop, hf⟩ | h | ⟨w, hw, hpush⟩ | h | h
    · rw [outstanding_eq_pending hs hr hR, show (s.rpcs r).isRpcEventPending .write = true from h]
        at hout
      cases hout
    · exact absurd ((hunfinished op hop).symm.trans hf) (by simp)
    · have hmem := internal_mem_mailbox h
      rw [hrest.queues] at hmem
      cases hmem
    · have hret := hrest.writers r w hw
      cases hpc : w.pc <;> simp [WriterCall.isReturned, WriterCall.beforePush, hpc] at hret hpush
    · cases h
    · cases h
  refine ⟨hempty, ?_⟩
  have horder : (s.rpcs r).sends ++ (s.rpcs r).sendQueue.map (sendOp (s.rpcs r).rpcType) =
    (s.rpcs r).enqueued.map (sendOp (s.rpcs r).rpcType) := hsends.order
  rwa [hempty, List.map_nil, List.append_nil] at horder

/-- With one event thread the messages do not wait in the send queues for ever: from every
reachable state, whichever steps the threads take, all that was accepted for an open call is
handed to gRPC in order, or a `CHECK` fails; and no `CHECK` fails unless a `Writer` is used. -/
theorem messages_are_handed_over (hn : options.numEventThreads = 1) {s : Server Req Resp}
    (hs : (serverSystem Req Resp options maps).Reachable s) :
    (serverSystem Req Resp options maps).Forces OfThreads
        (fun s => s.fault ≠ none ∨ AllSent s) s ∧
      ((serverSystem Req Resp options maps).Reach WithoutWriters s →
        (serverSystem Req Resp options maps).Forces OfThreads AllSent s) := by
  constructor
  · apply (threads_end hs).forces.imp hs keeps_reachable
    intro s hs hrests
    by_cases hfault : s.fault = none
    · exact .inr ((atRest_of_rests hs hfault hrests).allSent hn hs)
    · exact .inl hfault
  · intro hwithout
    apply (threads_end hs).forces.imp hwithout
    · intro s l s' hs hl hstep
      refine .step hs ?_ hstep
      rintro r method rfl
      exact hl
    · intro s hs hrests
      exact (atRest_of_rests hs.reachable (reach_fault hn hs) hrests).allSent hn hs.reachable

theorem messages_of_handler :
    ∃ s, (serverSystem Nat Nat oneEventThread sequenceService).Reach WithoutWriters s ∧
      0 ∈ (s.services 0).activeRpcs ∧ (s.rpcs 0).sendQueue ≠ [] ∧
      (∀ op ∈ (s.rpcs 0).sends, op.isFinish = false) ∧
      (serverSystem Nat Nat oneEventThread sequenceService).Forces OfThreads AllSent s := by
  obtain ⟨s, hs, hp⟩ := exists_reach (G := WithoutWriters) oneEventThread sequenceService
    withoutWriters withoutWriters_sound sendTwo
    (fun s => 0 ∈ (s.services 0).activeRpcs ∧ (s.rpcs 0).sendQueue ≠ [] ∧
      ∀ op ∈ (s.rpcs 0).sends, op.isFinish = false) (by decide +kernel)
  obtain ⟨hactive, hqueue, hunfinished⟩ := of_decide_eq_true hp
  exact ⟨s, hs, hactive, hqueue, hunfinished, (messages_are_handed_over rfl hs.reachable).2 hs⟩

end AsyncGrpc.Proofs
