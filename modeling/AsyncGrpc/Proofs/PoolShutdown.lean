import AsyncGrpc.Proofs.ClientProcesses
import AsyncGrpc.Termination

/-!
# Shutting down the pool of completion queues

`CompletionQueuePool::Shutdown` waits for the operations of the clients. If it returns, every call
that was begun has had its last callback. But the handlers of a streaming client start operations
themselves, and a queue that is shut down takes no more of them: whether `Shutdown` returns depends
on whether a streaming call was in progress on a queue when that queue was shut down.
-/

namespace AsyncGrpc.Proofs

open Function Transition Workload

variable {Resp : Type} {numQueues : Nat} {s s' : ClientProcess Resp} {l : ClientProcessLabel Resp}

/-- The steps after `Shutdown` was called, when no call is begun any more and no further response
arrives. -/
def Closing : ClientProcessLabel Resp → Prop
  | .construct _ _ _ | .writeAsync _ | .callShutdown => False
  | .complete _ (.streaming (.read response)) => response = none
  | .complete _ (.streaming (.write _)) | .complete _ (.streaming (.finish _ _))
  | .complete _ (.unary _ _) | .next _ _ | .exec _ | .shutdownQueue | .nextFalse _ | .join => True

/-! ### What a client has ahead of it -/

def clientStageRank : ClientStage → ℕ
  | .writing => 3
  | .reading => 2
  | .finishing _ => 1
  | .ended => 0

/-- A response that was received and not handled yet. -/
def isResponse : Completion Resp → ℕ
  | .read (some _) => 1
  | .read none | .write _ | .finish _ _ => 0

/-- The handlers that are still to begin. -/
def handlersAhead : AsyncClient Resp → ℕ
  | .streaming c => clientStageRank ((clientProtocol Resp).after c.returned) + load isResponse c.completed
  | .unary c => c.inFlight + c.completed

def instrWeight : ClientInstr → ℕ
  | .callCallback _ _ => 2
  | .callbackReturns | .clearCallback | .clearCallbackUnlessOk _ | .setFinishStatus _ | .startRead
  | .startFinish => 1

def taskLeft (c : AsyncClient Resp) : ℕ :=
  load instrWeight c.task

/-- The operations that gRPC has not completed yet. -/
def inGrpc : AsyncClient Resp → ℕ
  | .streaming c => c.inFlight.length
  | .unary c => c.inFlight

section Client

variable {c c' : AsyncClient Resp}

lemma complete_inGrpc {outcome : ClientOutcome Resp} (h : c.complete outcome = some c') :
    inGrpc c' < inGrpc c := by
  cases c with
  | streaming c =>
    cases outcome with
    | streaming completion =>
      obtain ⟨c', hc, rfl⟩ := Option.map_eq_some_iff.mp h
      obtain ⟨he, response, status, rfl⟩ := complete_eq hc
      have hpos := List.length_pos_of_mem he
      simp only [inGrpc, List.length_erase_of_mem he]
      omega
    | unary status response => cases h
  | unary c =>
    cases outcome with
    | streaming completion => cases h
    | unary status response =>
      obtain ⟨c', hc, rfl⟩ := Option.map_eq_some_iff.mp h
      simp only [UnaryAsyncClient.complete] at hc
      split at hc
      · cases hc
        simp only [inGrpc]
        omega
      · cases hc

lemma complete_handlersAhead {k : Nat} {outcome : ClientOutcome Resp} (h : c.complete outcome = some c')
    (hl : Closing (.complete k outcome)) : handlersAhead c' = handlersAhead c := by
  cases c with
  | streaming c =>
    cases outcome with
    | streaming completion =>
      obtain ⟨c', hc, rfl⟩ := Option.map_eq_some_iff.mp h
      obtain ⟨he, response, status, rfl⟩ := complete_eq hc
      have hresponse : isResponse completion = 0 := by
        cases completion with
        | write ok | finish ok status => rfl
        | read response =>
          cases hl
          rfl
      simp [handlersAhead, hresponse]
    | unary status response => cases h
  | unary c =>
    cases outcome with
    | streaming completion => cases h
    | unary status response =>
      obtain ⟨c', hc, rfl⟩ := Option.map_eq_some_iff.mp h
      simp only [UnaryAsyncClient.complete] at hc
      split at hc
      · cases hc
        simp only [handlersAhead]
        omega
      · cases hc

/-- What a handler is for: the next stage, or a response. -/
lemma clientStageRank_next {stage : ClientStage} {x : Completion Resp} (hdue : stage.due = [x.event]) :
    clientStageRank (stage.next x) < clientStageRank stage + isResponse x := by
  cases x with
  | write ok =>
    cases stage <;> cases hdue
    cases ok <;> simp [ClientStage.next, clientStageRank, isResponse]
  | read response =>
    cases stage <;> cases hdue
    cases response <;> simp [ClientStage.next, clientStageRank, isResponse]
  | finish ok status =>
    cases stage <;> cases hdue
    simp [ClientStage.next, clientStageRank, isResponse]

lemma next_handlersAhead (hb : Behaves c) (h : c.next = some c') :
    handlersAhead c' < handlersAhead c := by
  cases c with
  | streaming c =>
    obtain ⟨c', hc, rfl⟩ := Option.map_eq_some_iff.mp h
    simp only [StreamingAsyncClient.next] at hc
    split at hc
    · rename_i completion completed htask hcompleted
      have hdue := ((reachable_follows hb).of_completed hcompleted).2.2.2.2
      cases hc
      have hrank := clientStageRank_next hdue
      simp only [handlersAhead, Machine.after_concat, hcompleted, load_cons]
      exact Nat.lt_of_lt_of_eq (Nat.add_lt_add_right hrank _) (Nat.add_assoc _ _ _)
    · cases hc
  | unary c =>
    obtain ⟨c', hc, rfl⟩ := Option.map_eq_some_iff.mp h
    simp only [UnaryAsyncClient.next, UnaryAsyncClient.handleFinishEvent] at hc
    split at hc
    · cases hc
      simp only [handlersAhead]
      split <;> simp only <;> omega
    · cases hc

lemma exec_lowers (h : c.exec = some c') :
    handlersAhead c' = handlersAhead c ∧ taskLeft c' < taskLeft c := by
  cases c with
  | streaming c =>
    obtain ⟨c', hc, rfl⟩ := Option.map_eq_some_iff.mp h
    obtain ⟨instr, task, status, htask, rfl⟩ := exec_eq hc
    refine ⟨rfl, ?_⟩
    simp only [taskLeft, AsyncClient.task, htask, load_append, load_cons]
    cases instr <;> simp [returnOf, instrWeight]
  | unary c => cases h

end Client

/-! ### The steps of a shutdown end -/

/-- What is counted: whether there is no fault yet, a weight of the clients, the queues with some
property, and the threads that are to be joined. -/
inductive Effort (Resp : Type)
  | noFault
  | clients (f : AsyncClient Resp → ℕ)
  | queues (b : QueueThread → Bool)
  | joins

namespace Effort

def value (numQueues : ℕ) : Effort Resp → ClientProcess Resp → ℕ
  | .noFault, s => s.fault.isNone.toNat
  | .clients f, s => load (fun p => f p.client) s.clients
  | .queues b, s => ∑ q ∈ Finset.range numQueues, (b (s.queues q)).toNat
  | .joins, s => numQueues - s.shutdown.getD 0

def ofClient (c : AsyncClient Resp) : Effort Resp → ℕ
  | .clients f => f c
  | .noFault | .queues _ | .joins => 0

def ofQueue (t : QueueThread) : Effort Resp → ℕ
  | .queues b => (b t).toNat
  | .noFault | .clients _ | .joins => 0

lemma value_setClient {k : Nat} {p : PooledClient Resp} (hp : s.clients[k]? = some p)
    (client : AsyncClient Resp) (m : Effort Resp) :
    m.value numQueues (s.setClient k p client) + m.ofClient p.client =
      m.value numQueues s + m.ofClient client := by
  cases m with
  | clients f => exact load_set hp _
  | noFault | queues b | joins => rfl

lemma value_setQueue {q : Nat} (hq : q < numQueues) (thread : QueueThread) (m : Effort Resp) :
    m.value numQueues (s.setQueue q thread) + m.ofQueue (s.queues q) =
      m.value numQueues s + m.ofQueue thread := by
  cases m with
  | queues b =>
    have hchange := sum_change (f := fun q => (b (s.queues q)).toNat)
      (g := fun r => (b ((s.setQueue q thread).queues r)).toNat) hq (fun r _ hr => by
        simp only [ClientProcess.setQueue, update_of_ne hr])
    simpa [value, ofQueue, ClientProcess.setQueue] using hchange
  | noFault | clients f | joins => rfl

end Effort

/-- From the rarest step to the most frequent: a fault, a handler that begins, an instruction, a
completion, a handler that ends, and the steps of `Shutdown` and of the loops. -/
def closingEfforts : List (Effort Resp) :=
  [.noFault, .clients handlersAhead, .clients taskLeft, .clients inGrpc,
    .queues (fun t => t.handling.isSome), .queues (fun t => !t.shutDown),
    .queues (fun t => !t.exited), .joins]

lemma closing_lowers (h : Tended numQueues s) (hfault : s.fault = none)
    (hm : ProcessMoves numQueues s l s') (hl : Closing l) :
    Lower closingEfforts (fun m => m.value numQueues s') (fun m => m.value numQueues s) := by
  cases hm with
  | construct _ _ | writeAsync _ _ _ | writeFault _ _ _ | callShutdown _ => exact hl.elim
  | complete hp hc =>
    refine Lower.change ?_ (Effort.value_setClient hp _)
    have htask := congrArg (load instrWeight) (complete_spec hc).1
    simp [Lower, closingEfforts, Effort.ofClient, complete_handlersAhead hc hl, taskLeft, htask,
      complete_inGrpc hc]
  | @next k p client hp hidle hon hc =>
    obtain ⟨hb, hq⟩ := h.clients p (List.mem_of_getElem? hp)
    -- The handler that begins outweighs the thread that becomes busy.
    have hlower : Lower closingEfforts
        (fun m => m.ofClient client + m.ofQueue { s.queues p.queue with handling := some k })
        (fun m => m.ofClient p.client + m.ofQueue (s.queues p.queue)) := by
      simp [Lower, closingEfforts, Effort.ofClient, Effort.ofQueue, next_handlersAhead hb hc]
    refine hlower.change (fun m => ?_)
    have hclient : m.value numQueues (s.setClient k p client) + m.ofClient p.client =
        m.value numQueues s + m.ofClient client := Effort.value_setClient hp client m
    have hqueue := Effort.value_setQueue (s := s.setClient k p client) hq
      { s.queues p.queue with handling := some k } m
    have hsame : (s.setClient k p client).queues p.queue = s.queues p.queue := rfl
    rw [hsame] at hqueue
    omega
  | @ret q k p hh hp htask =>
    obtain ⟨p', hp', rfl⟩ := h.handled q k hh
    have hq := (h.clients p' (List.mem_of_getElem? hp')).2
    refine Lower.change ?_ (Effort.value_setQueue hq _)
    simp [Lower, closingEfforts, Effort.ofQueue, hh]
  | exec hh hp htask hmay hc =>
    refine Lower.change ?_ (Effort.value_setClient hp _)
    simp [Lower, closingEfforts, Effort.ofClient, exec_lowers hc]
  | execFault hh hp htask hstarts hdown => exact .inl (by simp [Effort.value, hfault])
  | shutdownQueue hi hlt hup =>
    refine Lower.change ?_ (Effort.value_setQueue hlt _)
    simp [Lower, closingEfforts, Effort.ofQueue, hup]
  | @nextFalse q hdown hidle hon hdrained =>
    refine Lower.change ?_ (Effort.value_setQueue (h.down q hdown).2 _)
    simp [Lower, closingEfforts, Effort.ofQueue, hon]
  | join hi hlt hexited =>
    simp only [Lower, closingEfforts, Effort.value, hi, Option.getD_some]
    omega

lemma closing_ends (hs : (clientProcess Resp numQueues).Reachable s) :
    (clientProcess Resp numQueues).Ends Closing s := by
  apply System.ends_of_lower (I := (clientProcess Resp numQueues).Reachable) closingEfforts
    (fun m => m.value numQueues)
  · intro s l s' hs _ hstep
    exact .step hs trivial hstep
  · intro s l s' hs hl hstep
    obtain ⟨hfault, hm⟩ := step_processMoves hstep
    exact closing_lowers (reachable_tended hs) hfault hm hl
  · exact hs

/-! ### Where they end -/

lemma exec_isSome {c : AsyncClient Resp} (h : c.task ≠ []) : c.exec.isSome = true := by
  cases c with
  | streaming c =>
    have h : c.task ≠ [] := h
    cases htask : c.task with
    | nil => exact absurd htask h
    | cons instr task => simp [AsyncClient.exec, StreamingAsyncClient.exec, htask]
  | unary c => exact absurd rfl h

/-- An outcome that no operation of this kind refuses. -/
def anOutcome : ClientEvent → Completion Resp
  | .write => .write true
  | .read => .read none
  | .finish => .finish true .ok

/-- A client of which nothing can be completed and no handler can begin has no operation left. -/
lemma outstanding_of_stuck {c : AsyncClient Resp} (htask : c.task = []) (hnext : c.next = none)
    (hcomplete : ∀ outcome, Closing (.complete 0 outcome) → c.complete outcome = none) :
    c.outstanding = 0 := by
  cases c with
  | streaming c =>
    have htask : c.task = [] := htask
    have hcompleted : c.completed = [] := by
      cases hc : c.completed with
      | nil => rfl
      | cons completion completed =>
        simp [AsyncClient.next, StreamingAsyncClient.next, htask, hc] at hnext
    have hflight : c.inFlight = [] := by
      cases hc : c.inFlight with
      | nil => rfl
      | cons event inFlight =>
        have hclosing : Closing (.complete 0 (.streaming (anOutcome event : Completion Resp))) := by
          cases event with
          | read => rfl
          | write | finish => trivial
        have hevent : (anOutcome event : Completion Resp).event = event := by
          cases event <;> rfl
        have hnone := hcomplete _ hclosing
        simp [AsyncClient.complete, StreamingAsyncClient.complete, hevent, hc] at hnone
    simp [AsyncClient.outstanding, hflight, hcompleted]
  | unary c =>
    have hcompleted : ¬ 0 < c.completed := by
      intro hpos
      simp [AsyncClient.next, UnaryAsyncClient.next, hpos] at hnext
    have hflight : ¬ 0 < c.inFlight := by
      intro hpos
      have hnone := hcomplete (.unary .ok c.response) trivial
      simp [AsyncClient.complete, UnaryAsyncClient.complete, hpos] at hnone
    simp only [AsyncClient.outstanding]
    omega

section Rest

variable (h : Tended numQueues s) (hfault : s.fault = none)
  (hrest : (clientProcess Resp numQueues).Rests Closing s)

include h hfault hrest

lemma thread_idle (q : Nat) : (s.queues q).handling = none := by
  cases hh : (s.queues q).handling with
  | none => rfl
  | some k =>
    obtain ⟨p, hp, -⟩ := h.handled q k hh
    have hexec := hrest (.exec q) trivial
    simp only [clientProcess, ClientProcess.step, hfault, ne_eq, not_true_eq_false, if_false,
      ClientProcess.exec, hh, hp, Option.bind_some] at hexec
    split at hexec
    · cases hexec
    · rename_i instr task htask
      split at hexec
      · cases hexec
      · have hsome := exec_isSome (c := p.client) (by simp [htask])
        rw [Option.map_eq_none_iff] at hexec
        simp [hexec] at hsome

lemma nothing_outstanding {k : Nat} {p : PooledClient Resp} (hp : s.clients[k]? = some p) :
    p.client.outstanding = 0 := by
  have hidle := thread_idle h hfault hrest p.queue
  have htask : p.client.task = [] := by
    by_contra hne
    cases hidle.symm.trans (h.running k p hp hne)
  cases hexited : (s.queues p.queue).exited with
  | true => exact (h.exited _ hexited).2.2 p (List.mem_of_getElem? hp) rfl
  | false =>
    apply outstanding_of_stuck htask
    · have hnext := hrest (.next p.queue k) trivial
      simpa [clientProcess, ClientProcess.step, hfault, ClientProcess.next, hp, hidle, hexited]
        using hnext
    · intro outcome hl
      have hclosing : Closing (.complete k outcome) := by
        cases outcome with
        | streaming completion => cases completion <;> exact hl
        | unary status response => trivial
      have hcomplete := hrest (.complete k outcome) hclosing
      simpa [clientProcess, ClientProcess.step, hfault, ClientProcess.complete, hp] using hcomplete

/-- A shutdown without a fault ends by returning. -/
lemma shutdown_returned (hcalled : s.shutdown ≠ none) : s.shutdown = some numQueues := by
  obtain ⟨i, hi⟩ := Option.ne_none_iff_exists'.mp hcalled
  rcases Nat.lt_or_eq_of_le (h.joined i hi).1 with hlt | rfl
  · exfalso
    have hdrained : s.drained i = true := by
      rw [ClientProcess.drained, List.all_eq_true]
      intro p hp
      obtain ⟨k, hk⟩ := List.mem_iff_getElem?.mp hp
      simp [nothing_outstanding h hfault hrest hk]
    have hdown : (s.queues i).shutDown = true := by
      have hqueue := hrest .shutdownQueue trivial
      simpa [clientProcess, ClientProcess.step, hfault, ClientProcess.shutdownQueue, hi, hlt]
        using hqueue
    have hexited : (s.queues i).exited = true := by
      have hnext := hrest (.nextFalse i) trivial
      simpa [clientProcess, ClientProcess.step, hfault, ClientProcess.nextFalse, hdown, hdrained,
        thread_idle h hfault hrest i] using hnext
    have hjoin := hrest .join trivial
    simp [clientProcess, ClientProcess.step, hfault, ClientProcess.join, hi, hlt, hexited] at hjoin
  · exact hi

end Rest

/-- The shutdown comes to a fault or returns. -/
lemma closing_forces (hs : (clientProcess Resp numQueues).Reachable s)
    (hcalled : s.shutdown ≠ none) :
    (clientProcess Resp numQueues).Forces Closing
      (fun s => s.fault ≠ none ∨ s.shutdown = some numQueues) s := by
  have hkeep : ∀ s l s', (clientProcess Resp numQueues).Reachable s ∧ s.shutdown ≠ none →
      Closing l → (clientProcess Resp numQueues).step s l = some s' →
      (clientProcess Resp numQueues).Reachable s' ∧ s'.shutdown ≠ none := by
    rintro s l s' ⟨hs, hcalled⟩ - hstep
    refine ⟨.step hs trivial hstep, ?_⟩
    cases (step_processMoves hstep).2 with
    | callShutdown _ | join _ _ _ => simp
    | _ => exact hcalled
  apply (closing_ends hs).forces.imp ⟨hs, hcalled⟩ hkeep
  rintro s ⟨hs, hcalled⟩ hrest
  by_cases hfault : s.fault = none
  · exact .inr (shutdown_returned (reachable_tended hs) hfault hrest hcalled)
  · exact .inl hfault

/-! ### The last callbacks -/

/-- The call has had its last callback: after the responses one without a response, or the only
callback of a unary call. -/
def Concluded : AsyncClient Resp → Prop
  | .streaming c => ∃ status, c.calls = callsFor c.returned ++ [⟨status, none⟩]
  | .unary c => ∃ status response, c.final = some (status, response) ∧
      c.calls = [⟨status, if status.isOk then some response else none⟩]

lemma ended_of_idle {c : StreamingAsyncClient Resp} (h : Follows c) (hwritten : c.written = true)
    (hflight : c.inFlight = []) (hcompleted : c.completed = []) (htask : c.task = []) :
    (clientProtocol Resp).after c.returned = .ended := by
  have hdue := h.due hwritten
  rw [hflight, hcompleted, htask] at hdue
  cases hstage : (clientProtocol Resp).after c.returned with
  | ended => rfl
  | writing | reading | finishing callback =>
    rw [hstage] at hdue
    cases hdue

lemma concluded_of_idle {c : AsyncClient Resp} (h : Behaves c) (hwritten : c.written = true)
    (hout : c.outstanding = 0) (htask : c.task = []) : Concluded c := by
  cases c with
  | streaming c =>
    have hfollows := reachable_follows h
    have htask : c.task = [] := htask
    simp only [AsyncClient.outstanding, Nat.add_eq_zero_iff, List.length_eq_zero_iff] at hout
    have hended := ended_of_idle hfollows hwritten hout.1 hout.2 htask
    obtain ⟨terminal, houtputs, hcloses⟩ := hfollows.accepted.outputs
    rw [hended] at hcloses
    obtain ⟨status, rfl⟩ := hcloses
    refine ⟨status, ?_⟩
    rw [← houtputs, ← hfollows.calls, htask, List.filterMap_nil, List.append_nil]
  | unary c =>
    have hfollows := reachable_unaryFollows h
    have hstarted := hfollows.started
    have hended := hfollows.ended
    have hwritten : c.written = true := hwritten
    simp only [AsyncClient.outstanding] at hout
    rw [hwritten, Bool.toNat_true] at hstarted
    cases hfinal : c.final with
    | none =>
      rw [hfinal] at hended
      simp only [Option.isSome_none, Bool.toNat_false] at hended
      omega
    | some result => exact ⟨_, _, hfinal, unary_callback h hfinal (by omega)⟩

/-- A thread that has returned leaves no call unserved. -/
lemma Tended.idle_of_exited (h : Tended numQueues s) {k : Nat} {p : PooledClient Resp}
    (hp : s.clients[k]? = some p) (hexited : (s.queues p.queue).exited = true) :
    p.client.outstanding = 0 ∧ p.client.task = [] := by
  obtain ⟨-, hidle, hdrained⟩ := h.exited _ hexited
  refine ⟨hdrained p (List.mem_of_getElem? hp) rfl, ?_⟩
  by_contra hne
  cases hidle.symm.trans (h.running k p hp hne)

/-- Once `Shutdown` was called, in every order of the steps of the threads, of gRPC and of
`Shutdown` itself, it comes to an operation on a queue that is shut down, or it returns, and then
every call that was begun has had its last callback. -/
theorem pool_shutdown_serves (hs : (clientProcess Resp numQueues).Reachable s)
    (hcalled : s.shutdown ≠ none) :
    (clientProcess Resp numQueues).Forces Closing (fun s => s.fault ≠ none ∨
      s.shutdown = some numQueues ∧
        ∀ p ∈ s.clients, p.client.written = true → Concluded p.client) s := by
  apply (closing_forces hs hcalled).imp (I := (clientProcess Resp numQueues).Reachable) hs
  · intro s l s' hs _ hstep
    exact .step hs trivial hstep
  · intro s hs hend
    refine hend.imp_right (fun hreturned => ⟨hreturned, fun p hp hwritten => ?_⟩)
    have h := reachable_tended hs
    obtain ⟨hb, hq⟩ := h.clients p hp
    obtain ⟨k, hk⟩ := List.mem_iff_getElem?.mp hp
    obtain ⟨hout, htask⟩ := h.idle_of_exited hk ((h.joined _ hreturned).2 _ hq)
    exact concluded_of_idle hb hwritten hout htask

/-- A streaming call and a unary one on two queues, whose last operations are outstanding when
`Shutdown` is called. -/
def lastOperations : List (ClientProcessLabel Nat) :=
  [.construct 0 true 0, .construct 1 false 0, .writeAsync 0, .writeAsync 1,
    .complete 0 (.streaming (.write true)), .next 0 0, .exec 0, .exec 0,
    .complete 0 (.streaming (.read none)), .next 0 0, .exec 0, .exec 0, .exec 0, .callShutdown]

theorem pool_shutdown_serves_of_run :
    ∃ s, (clientProcess Nat 2).Reachable s ∧ s.shutdown = some 0 ∧
      s.clients.map (fun p => p.client.outstanding) = [1, 1] ∧
      (clientProcess Nat 2).Forces Closing (fun s => s.fault ≠ none ∨
        s.shutdown = some 2 ∧ ∀ p ∈ s.clients, p.client.written = true → Concluded p.client) s := by
  obtain ⟨s, hs, hp⟩ := exists_clientProcess (n := 2) lastOperations (fun s => s.shutdown = some 0 ∧
    s.clients.map (fun p => p.client.outstanding) = [1, 1]) (by decide +kernel)
  obtain ⟨hcalled, hout⟩ := of_decide_eq_true hp
  exact ⟨s, hs, hcalled, hout, pool_shutdown_serves hs (by simp [hcalled])⟩

/-! ### Calls in progress -/

def finishStarted (c : StreamingAsyncClient Resp) : Prop :=
  .finish ∈ c.inFlight ++ (c.completed ++ c.returned).map Completion.event

/-- A streaming call that was begun and whose `Finish` has not been started. -/
def MidCall : AsyncClient Resp → Prop
  | .streaming c => c.written = true ∧ ¬finishStarted c
  | .unary _ => False

instance (c : AsyncClient Resp) : Decidable (MidCall c) :=
  match c with
  | .streaming c => inferInstanceAs (Decidable (c.written = true ∧
      ¬.finish ∈ c.inFlight ++ (c.completed ++ c.returned).map Completion.event))
  | .unary _ => inferInstanceAs (Decidable False)

lemma finishStarted_complete {c c' : StreamingAsyncClient Resp} {completion : Completion Resp}
    (h : c.complete completion = some c') : finishStarted c' ↔ finishStarted c := by
  obtain ⟨he, response, status, rfl⟩ := complete_eq h
  have herase : ClientEvent.finish ∈ c.inFlight ↔
      .finish ∈ c.inFlight.erase completion.event ∨ .finish = completion.event := by
    by_cases hevent : ClientEvent.finish = completion.event
    · simp [hevent, he]
    · simp [List.mem_erase_of_ne hevent, hevent]
  simp only [finishStarted, List.map_append, List.mem_append, herase, List.map_cons, List.map_nil,
    List.mem_singleton]
  tauto

lemma finishStarted_next {c c' : StreamingAsyncClient Resp} (h : c.next = some c') :
    finishStarted c' ↔ finishStarted c := by
  simp only [StreamingAsyncClient.next] at h
  split at h
  · rename_i completion completed htask hcompleted
    cases h
    simp only [finishStarted, hcompleted, List.map_append, List.map_cons, List.map_nil,
      List.mem_append, List.mem_cons, List.not_mem_nil, or_false]
    tauto
  · cases h

lemma midCall_complete {c c' : AsyncClient Resp} {outcome : ClientOutcome Resp}
    (h : c.complete outcome = some c') : MidCall c' ↔ MidCall c := by
  cases c with
  | streaming c =>
    cases outcome with
    | streaming completion =>
      obtain ⟨c', hc, rfl⟩ := Option.map_eq_some_iff.mp h
      have hwritten : c'.written = c.written := by
        obtain ⟨-, response, status, rfl⟩ := complete_eq hc
        rfl
      simp only [MidCall, hwritten, finishStarted_complete hc]
    | unary status response => cases h
  | unary c =>
    cases outcome with
    | streaming completion => cases h
    | unary status response =>
      obtain ⟨c', hc, rfl⟩ := Option.map_eq_some_iff.mp h
      rfl

lemma midCall_next {c c' : AsyncClient Resp} (h : c.next = some c') : MidCall c' ↔ MidCall c := by
  cases c with
  | streaming c =>
    obtain ⟨c', hc, rfl⟩ := Option.map_eq_some_iff.mp h
    have hwritten : c'.written = c.written := by
      simp only [StreamingAsyncClient.next] at hc
      split at hc
      · cases hc
        rfl
      · cases hc
    simp only [MidCall, hwritten, finishStarted_next hc]
  | unary c =>
    obtain ⟨c', hc, rfl⟩ := Option.map_eq_some_iff.mp h
    rfl

/-- An instruction that starts no operation. -/
lemma midCall_exec {c c' : AsyncClient Resp} {instr : ClientInstr} {task : List ClientInstr}
    (h : c.exec = some c') (htask : c.task = instr :: task) (hstarts : instr.starts = false) :
    MidCall c' ↔ MidCall c := by
  cases c with
  | streaming c =>
    obtain ⟨c', hc, rfl⟩ := Option.map_eq_some_iff.mp h
    obtain ⟨instr', task', status, htask', rfl⟩ := exec_eq hc
    cases htask'.symm.trans htask
    simp [MidCall, finishStarted, starts_eq_false hstarts]
  | unary c => cases h

/-- A handler that is about to start an operation belongs to a call in progress. -/
lemma midCall_of_starts {c : AsyncClient Resp} {instr : ClientInstr} {task : List ClientInstr}
    (h : Behaves c) (htask : c.task = instr :: task) (hstarts : instr.starts = true) :
    MidCall c := by
  cases c with
  | streaming c =>
    have hfollows := reachable_follows h
    have htask : c.task = instr :: task := htask
    have hbusy := hfollows.busy (by simp [htask])
    have hwritten : c.written = true := by
      by_contra hnew
      rw [(hfollows.fresh (by simpa using hnew)).2.2.1] at htask
      cases htask
    refine ⟨hwritten, fun hstarted => ?_⟩
    -- The `Finish` would have been returned, and then nothing more is due.
    simp only [finishStarted, hbusy, List.nil_append, List.mem_map] at hstarted
    obtain ⟨completion, hmem, hevent⟩ := hstarted
    have hdue := hfollows.due hwritten
    cases completion with
    | write ok | read response => cases hevent
    | finish ok status =>
      rw [(hfollows.accepted.of_finish hmem).1, htask] at hdue
      cases instr <;> simp_all [ClientInstr.starts, startOf, ClientStage.due]
  | unary c => cases htask

/-- Some call is in progress on the queue. -/
def InProgress (q : Nat) (s : ClientProcess Resp) : Prop :=
  ∃ (k : Nat) (p : PooledClient Resp), s.clients[k]? = some p ∧ p.queue = q ∧ MidCall p.client

lemma inProgress_setClient {q k : Nat} {p : PooledClient Resp} {client : AsyncClient Resp}
    (hp : s.clients[k]? = some p) (hsame : p.queue = q → (MidCall client ↔ MidCall p.client)) :
    InProgress q (s.setClient k p client) ↔ InProgress q s := by
  simp only [InProgress, getElem?_setClient hp]
  constructor
  · rintro ⟨j, p', hp', hq, hmid⟩
    split at hp'
    · cases hp'
      exact ⟨k, p, hp, hq, (hsame hq).mp hmid⟩
    · exact ⟨j, p', hp', hq, hmid⟩
  · rintro ⟨j, p', hp', hq, hmid⟩
    by_cases hj : j = k
    · subst hj
      cases hp.symm.trans hp'
      exact ⟨j, _, if_pos rfl, hq, (hsame hq).mpr hmid⟩
    · exact ⟨j, p', (if_neg hj).trans hp', hq, hmid⟩

/-- On a queue that is shut down no call begins or ends. -/
lemma processMoves_inProgress (h : Tended numQueues s) {q : Nat}
    (hdown : (s.queues q).shutDown = true) (hm : ProcessMoves numQueues s l s')
    (hl : ∀ k p, l = .writeAsync k → s.clients[k]? = some p → p.queue ≠ q) :
    (s'.queues q).shutDown = true ∧ (InProgress q s' ↔ InProgress q s) := by
  have hqueue : ∀ {r : Nat} {thread : QueueThread},
      ((s.queues r).shutDown = true → thread.shutDown = true) →
      ((s.setQueue r thread).queues q).shutDown = true := by
    intro r thread hkeep
    simp only [ClientProcess.setQueue, update_apply]
    split
    · rename_i hqr
      subst hqr
      exact hkeep hdown
    · exact hdown
  cases hm with
  | construct hq hopen => exact absurd hopen (h.down q hdown).1
  | writeAsync hp hnew hup =>
    exact ⟨hdown, inProgress_setClient hp (fun hq => absurd hq (hl _ _ rfl hp))⟩
  | complete hp hc => exact ⟨hdown, inProgress_setClient hp (fun _ => midCall_complete hc)⟩
  | next hp hidle hon hc =>
    exact ⟨hqueue id, inProgress_setClient hp (fun _ => midCall_next hc)⟩
  | ret hh hp htask => exact ⟨hqueue id, Iff.rfl⟩
  | @exec r k p instr task client hh hp htask hmay hc =>
    refine ⟨hdown, inProgress_setClient hp (fun hq => midCall_exec hc htask ?_)⟩
    obtain ⟨p', hp', rfl⟩ := h.handled r k hh
    cases hp.symm.trans hp'
    by_contra hstarts
    rw [Bool.not_eq_false] at hstarts
    rw [hq, hdown] at hmay
    cases hmay hstarts
  | shutdownQueue hi hlt hup => exact ⟨hqueue (fun _ => rfl), Iff.rfl⟩
  | nextFalse hdown hidle hon hdrained => exact ⟨hqueue id, Iff.rfl⟩
  | writeFault _ _ _ | execFault _ _ _ _ _ | callShutdown _ | join _ _ _ => exact ⟨hdown, Iff.rfl⟩

lemma Accepted.exists_finish {xs : List (Completion Resp)} (h : Accepted xs)
    (hended : (clientProtocol Resp).after xs = .ended) :
    ClientEvent.finish ∈ xs.map Completion.event := by
  cases h with
  | nil => cases hended
  | @concat xs x _ hdue =>
    rw [Machine.after_concat] at hended
    cases x with
    | write ok =>
      cases hstage : (clientProtocol Resp).after xs <;> rw [hstage] at hdue hended <;> cases hdue
      cases ok <;> cases hended
    | read response =>
      cases hstage : (clientProtocol Resp).after xs <;> rw [hstage] at hdue hended <;> cases hdue
      cases response <;> cases hended
    | finish ok status => simp [Completion.event]

/-- A call in progress has an operation or a handler left. -/
lemma not_midCall_of_idle {c : AsyncClient Resp} (h : Behaves c) (hout : c.outstanding = 0)
    (htask : c.task = []) : ¬MidCall c := by
  cases c with
  | streaming c =>
    rintro ⟨hwritten, hfinish⟩
    have hfollows := reachable_follows h
    simp only [AsyncClient.outstanding, Nat.add_eq_zero_iff, List.length_eq_zero_iff] at hout
    have hended := ended_of_idle hfollows hwritten hout.1 hout.2 htask
    have hmem := hfollows.accepted.exists_finish hended
    exact hfinish (by simpa [finishStarted, hout] using hmem)
  | unary c => exact id

lemma fault_of_inProgress (hs : (clientProcess Resp numQueues).Reachable s) {q : Nat}
    (hdown : (s.queues q).shutDown = true) (hmid : InProgress q s) :
    (clientProcess Resp numQueues).Forces Closing (fun s => s.fault ≠ none) s := by
  have hkeep : ∀ s l s', (clientProcess Resp numQueues).Reachable s ∧
      (s.queues q).shutDown = true ∧ InProgress q s → Closing l →
      (clientProcess Resp numQueues).step s l = some s' →
      (clientProcess Resp numQueues).Reachable s' ∧
        (s'.queues q).shutDown = true ∧ InProgress q s' := by
    rintro s l s' ⟨hs, hdown, hmid⟩ hl hstep
    have hm := processMoves_inProgress (reachable_tended hs) hdown (step_processMoves hstep).2 (by
      rintro k p rfl
      exact hl.elim)
    exact ⟨.step hs trivial hstep, hm.1, hm.2.mpr hmid⟩
  have hcalled := ((reachable_tended hs).down q hdown).1
  apply (closing_forces hs hcalled).imp ⟨hs, hdown, hmid⟩ hkeep
  rintro s ⟨hs, hdown, k, p, hp, rfl, hcall⟩ (hfault | hreturned)
  · exact hfault
  · -- The thread of the queue would have been joined with the call in progress.
    have h := reachable_tended hs
    have hexited := (h.joined _ hreturned).2 _ (h.down _ hdown).2
    obtain ⟨hout, htask⟩ := h.idle_of_exited hp hexited
    exact absurd hcall (not_midCall_of_idle (h.clients p (List.mem_of_getElem? hp)).1 hout htask)

/-- What no client of the queue has done. -/
def FaultElsewhere (q : Nat) (s : ClientProcess Resp) : Prop :=
  ∀ (k : Nat) (p : PooledClient Resp), s.fault = some k → s.clients[k]? = some p → p.queue ≠ q

lemma processMoves_faultElsewhere (h : Tended numQueues s) (hfault : s.fault = none) {q : Nat}
    (hmid : ¬InProgress q s) (hm : ProcessMoves numQueues s l s')
    (hl : ∀ k p, l = .writeAsync k → s.clients[k]? = some p → p.queue ≠ q) :
    FaultElsewhere q s' := by
  intro k p hk hp
  cases hm with
  | writeFault hp' _ _ =>
    cases hk
    exact hl _ _ rfl hp
  | @execFault r j p' instr task hh hp' htask hstarts hdown =>
    cases hk
    rintro rfl
    cases hp.symm.trans hp'
    have hb := (h.clients p (List.mem_of_getElem? hp)).1
    exact hmid ⟨_, p, hp, rfl, midCall_of_starts hb htask hstarts⟩
  | _ => cases hfault.symm.trans hk

/-- A queue that is shut down while a streaming call is in progress on it brings the process to an
operation on a queue that is shut down, in every order of the steps of `Closing`: no client is
constructed and no `WriteAsync` is called any more, and no further response arrives for any
client, on any queue. If no call is in progress on it, then no client of the queue ever comes to
that, unless a new call is begun on it. -/
theorem shutdown_of_calls_in_progress (hs : (clientProcess Resp numQueues).Reachable s) {q : Nat}
    (hfault : s.fault = none) (hdown : (s.queues q).shutDown = true) :
    (InProgress q s →
      (clientProcess Resp numQueues).Forces Closing (fun s => s.fault ≠ none) s) ∧
    (¬InProgress q s →
      ∀ s', (clientProcess Resp numQueues).Leads (fun s l => ∀ k p, l = .writeAsync k →
        s.clients[k]? = some p → p.queue ≠ q) s s' → FaultElsewhere q s') := by
  refine ⟨fault_of_inProgress hs hdown, fun hmid s' hleads => ?_⟩
  have hkept : Tended numQueues s' ∧ (s'.queues q).shutDown = true ∧ ¬InProgress q s' ∧
      FaultElsewhere q s' := by
    apply hleads.invariant (P := fun s => Tended numQueues s ∧ (s.queues q).shutDown = true ∧
      ¬InProgress q s ∧ FaultElsewhere q s)
    · exact ⟨reachable_tended hs, hdown, hmid, fun k p hk => by cases hfault.symm.trans hk⟩
    · rintro s₁ l s₂ - ⟨h, hdown, hmid, -⟩ hl hstep
      obtain ⟨hfault, hm⟩ := step_processMoves hstep
      have hprogress := processMoves_inProgress h hdown hm hl
      exact ⟨processMoves_tended h hm, hprogress.1, fun hc => hmid (hprogress.2.mp hc),
        processMoves_faultElsewhere h hfault hmid hm hl⟩
  exact hkept.2.2.2

/-- The only queue is shut down while a client waits for a response. -/
def readOutstanding : List (ClientProcessLabel Nat) :=
  [.construct 0 true 0, .writeAsync 0, .complete 0 (.streaming (.write true)), .next 0 0, .exec 0,
    .exec 0, .callShutdown, .shutdownQueue]

theorem shutdown_of_call_in_progress_of_run :
    ∃ s, (clientProcess Nat 1).Reachable s ∧ (s.queues 0).shutDown = true ∧ InProgress 0 s ∧
      (clientProcess Nat 1).Forces Closing (fun s => s.fault ≠ none) s := by
  obtain ⟨s, hs, hp⟩ := exists_clientProcess (n := 1) readOutstanding (fun s => s.fault = none ∧
    (s.queues 0).shutDown = true ∧
    (s.clients[0]?).any (fun p => p.queue = 0 ∧ MidCall p.client) = true) (by decide +kernel)
  obtain ⟨hfault, hdown, hmid⟩ := of_decide_eq_true hp
  cases hclient : s.clients[0]? with
  | none => simp [hclient] at hmid
  | some p =>
    rw [hclient] at hmid
    obtain ⟨hqueue, hcall⟩ := of_decide_eq_true hmid
    have hprogress : InProgress 0 s := ⟨0, p, hclient, hqueue, hcall⟩
    exact ⟨s, hs, hdown, hprogress, (shutdown_of_calls_in_progress hs hfault hdown).1 hprogress⟩

end AsyncGrpc.Proofs
