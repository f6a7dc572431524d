import AsyncGrpc.Shutdown
import AsyncGrpc.Termination
import AsyncGrpc.Proofs.Lifetime

/-!
# The work a server has left

A price for everything that a server still has to do, wherever it stands, and for each kind of
step what it takes off the total and what it adds. The prices are a parameter: every argument that
some steps cannot go on for ever chooses its own.
-/

namespace AsyncGrpc.Proofs

open Function Transition Workload

variable {Req Resp : Type} {options : Options} {maps : List (List (String × RpcHandlerInfo))}

/-- The event a queued event is about. -/
def kind : QueuedEvent → Event
  | .completion _ tag => tag.event
  | .internal _ => .writeNeeded

/-- The price of an instruction, of an event in a queue, of a tag in the hands of a completion
queue thread, of a `Writer` call, of an item in a send queue and of an operation held by gRPC. -/
structure Weights (Resp : Type) where
  instr : Instr Resp → Nat
  event : Event → Nat
  hand : Tag → Nat
  writer : WriterPc → Nat
  item : Nat
  flight : Tag → Nat

namespace Weights

variable (W : Weights Resp) (s : Server Req Resp)

def rpc (x : Rpc Req Resp) : Nat :=
  W.item * x.sendQueue.length + load (fun tag => W.flight tag * x.inFlight tag) Tag.all

def thread (t : Nat) : Nat :=
  load W.instr (s.tasks t).code + load (fun e => W.event (kind e)) (s.eventQueues t)

def completionQueue (cq : Nat) : Nat :=
  load (fun p => W.hand p.2.1) (s.inHand cq).toList

def call (r : Nat) : Nat :=
  W.rpc (s.rpcs r) + load (fun w => W.writer w.pc) (s.writers r)

/-- All that the server has left to do. -/
def work : Nat :=
  ∑ t ∈ Finset.range s.options.numEventThreads, W.thread s t +
    ∑ cq ∈ Finset.range s.options.numGrpcThreads, W.completionQueue s cq +
    ∑ r ∈ Finset.range s.nextRpc, W.call s r

/-- A clone is registered with gRPC at once. -/
def effect : Effect → Nat
  | .pushWriteNeeded => W.event .writeNeeded
  | .clone => W.flight .done + W.flight .newConnection
  | .none | .remove => 0

/-! ### The price of an update -/

section Rpc

variable (x : Rpc Req Resp)

@[simp] lemma rpc_startOp (tag : Tag) : W.rpc (x.startOp tag) = W.rpc x + W.flight tag := by
  cases tag <;>
    simp only [rpc, Tag.all, Rpc.startOp, Rpc.setRpcEventState, load_cons, load_nil, update_apply,
      reduceCtorEq, if_true, if_false, Nat.mul_succ] <;> omega

lemma rpc_returnTag {tag : Tag} (hflight : 0 < x.inFlight tag) (ok : Bool)
    (request : Option Req) : W.rpc (x.returnTag tag ok request) + W.flight tag = W.rpc x := by
  obtain ⟨n, hn⟩ := Nat.exists_eq_succ_of_ne_zero hflight.ne'
  cases tag <;>
    simp only [rpc, Tag.all, Rpc.returnTag, load_cons, load_nil, update_apply, reduceCtorEq,
      if_true, if_false, hn, Nat.succ_sub_one, Nat.mul_succ] <;> omega

@[simp] lemma rpc_setOk (tag : Tag) (ok : Bool) : W.rpc (x.setOk tag ok) = W.rpc x :=
  rfl

@[simp] lemma rpc_startHandling (tag : Tag) : W.rpc (x.startHandling tag) = W.rpc x :=
  rfl

@[simp] lemma rpc_enqueueMessage (item : SendItem Resp) :
    W.rpc (x.enqueueMessage item) = W.rpc x + W.item := by
  simp only [rpc, Rpc.enqueueMessage, List.length_append, List.length_singleton, Nat.mul_succ]
  omega

lemma rpc_sendQueue {x : Rpc Req Resp} {item : SendItem Resp} {rest : List (SendItem Resp)}
    (hqueue : x.sendQueue = item :: rest) :
    W.rpc { x with sendQueue := rest } + W.item = W.rpc x := by
  simp only [rpc, hqueue, List.length_cons, Nat.mul_succ]
  omega

@[simp] lemma rpc_handler (handler : Bool) : W.rpc { x with handler := handler } = W.rpc x :=
  rfl

@[simp] lemma rpc_callbacks (callbacks : List (Callback Req)) (passed : List (SendItem Resp)) :
    W.rpc { x with callbacks := callbacks, passed := passed } = W.rpc x :=
  rfl

@[simp] lemma rpc_hasWriter (hasWriter : Bool) :
    W.rpc { x with hasWriter := hasWriter } = W.rpc x :=
  rfl

@[simp] lemma rpc_sends (response : Option Resp) (sends : List (SendOp Resp)) :
    W.rpc { x with response := response, sends := sends } = W.rpc x :=
  rfl

end Rpc

section Updates

variable {W} {s}

lemma work_thread {s' : Server Req Resp} {t : Nat} (ht : t < s.options.numEventThreads)
    (ho : s'.options = s.options) (hn : s'.nextRpc = s.nextRpc)
    (hthread : ∀ i, i ≠ t → W.thread s' i = W.thread s i)
    (hcq : W.completionQueue s' = W.completionQueue s) (hcall : W.call s' = W.call s) :
    W.work s' + W.thread s t = W.work s + W.thread s' t := by
  have hsum := sum_change ht (fun i _ => hthread i)
  simp only [work, ho, hn, hcq, hcall]
  omega

lemma work_completionQueue {s' : Server Req Resp} {cq : Nat} (hlt : cq < s.options.numGrpcThreads)
    (ho : s'.options = s.options) (hn : s'.nextRpc = s.nextRpc)
    (hthread : W.thread s' = W.thread s)
    (hcq : ∀ i, i ≠ cq → W.completionQueue s' i = W.completionQueue s i)
    (hcall : W.call s' = W.call s) :
    W.work s' + W.completionQueue s cq = W.work s + W.completionQueue s' cq := by
  have hsum := sum_change hlt (fun i _ => hcq i)
  simp only [work, ho, hn, hthread, hcall]
  omega

lemma work_call {s' : Server Req Resp} {r : Nat} (hr : r < s.nextRpc)
    (ho : s'.options = s.options) (hn : s'.nextRpc = s.nextRpc)
    (hthread : W.thread s' = W.thread s) (hcq : W.completionQueue s' = W.completionQueue s)
    (hcall : ∀ i, i ≠ r → W.call s' i = W.call s i) :
    W.work s' + W.call s r = W.work s + W.call s' r := by
  have hsum := sum_change hr (fun i _ => hcall i)
  simp only [work, ho, hn, hthread, hcq]
  omega

end Updates

lemma work_setTask {t : Nat} (ht : t < s.options.numEventThreads) (task : Task Resp) :
    W.work (s.setTask t task) + load W.instr (s.tasks t).code =
      W.work s + load W.instr task.code := by
  have h : W.work (s.setTask t task) + W.thread s t = W.work s + W.thread (s.setTask t task) t :=
    work_thread ht rfl rfl (by intro i hi; simp [thread, Server.setTask, hi]) rfl rfl
  simp only [thread, Server.setTask, update_self] at h ⊢
  omega

lemma work_setEventQueue {q : Nat} (hq : q < s.options.numEventThreads)
    (events : List QueuedEvent) :
    W.work (s.setEventQueue q events) + load (fun e => W.event (kind e)) (s.eventQueues q) =
      W.work s + load (fun e => W.event (kind e)) events := by
  have h : W.work (s.setEventQueue q events) + W.thread s q =
      W.work s + W.thread (s.setEventQueue q events) q :=
    work_thread hq rfl rfl (by intro i hi; simp [thread, Server.setEventQueue, hi]) rfl rfl
  simp only [thread, Server.setEventQueue, update_self] at h ⊢
  omega

lemma work_push {q : Nat} (hq : q < s.options.numEventThreads) (e : QueuedEvent) :
    W.work (s.push q e) = W.work s + W.event (kind e) := by
  have h := W.work_setEventQueue s hq (s.eventQueues q ++ [e])
  simp only [load_append, load_cons, load_nil] at h
  rw [Server.push]
  omega

lemma work_setInHand {cq : Nat} (hcq : cq < s.options.numGrpcThreads)
    (tag : Option (Nat × Tag × Bool)) :
    W.work (s.setInHand cq tag) + W.completionQueue s cq =
      W.work s + load (fun p => W.hand p.2.1) tag.toList := by
  have h : W.work (s.setInHand cq tag) + W.completionQueue s cq =
      W.work s + W.completionQueue (s.setInHand cq tag) cq :=
    work_completionQueue hcq rfl rfl rfl
      (by intro i hi; simp [completionQueue, Server.setInHand, hi]) rfl
  simpa only [completionQueue, Server.setInHand, update_self] using h

lemma work_setRpc {r : Nat} (hr : r < s.nextRpc) (x : Rpc Req Resp) :
    W.work (s.setRpc r x) + W.rpc (s.rpcs r) = W.work s + W.rpc x := by
  have h : W.work (s.setRpc r x) + W.call s r = W.work s + W.call (s.setRpc r x) r :=
    work_call hr rfl rfl rfl rfl (by intro i hi; simp [call, Server.setRpc, hi])
  simp only [call, Server.setRpc, update_self] at h ⊢
  omega

lemma work_setWriters {r : Nat} (hr : r < s.nextRpc) (calls : List (WriterCall Resp)) :
    W.work (s.setWriters r calls) + load (fun w => W.writer w.pc) (s.writers r) =
      W.work s + load (fun w => W.writer w.pc) calls := by
  have h : W.work (s.setWriters r calls) + W.call s r =
      W.work s + W.call (s.setWriters r calls) r :=
    work_call hr rfl rfl rfl rfl (by intro i hi; simp [call, Server.setWriters, hi])
  simp only [call, Server.setWriters, update_self] at h ⊢
  omega

lemma work_cloneRpc (hw : s.writers s.nextRpc = []) (r : Nat) :
    W.work (s.cloneRpc r) = W.work s + W.effect .clone := by
  have hnew : W.call (s.cloneRpc r) s.nextRpc = W.effect .clone := by
    have hwriters : (s.cloneRpc r).writers s.nextRpc = [] := hw
    rw [call, hwriters, Server.cloneRpc, addRpc_rpcs_new, Rpc.requestNextMethodInvocation,
      rpc_startOp, rpc_startOp]
    simp [rpc, effect, Tag.all, Rpc.setEventQueue, Rpc.clone, Rpc.new]
  have hold : ∀ i ∈ Finset.range s.nextRpc, W.call (s.cloneRpc r) i = W.call s i := by
    intro i hi
    rw [call, Server.cloneRpc, addRpc_rpcs_old _ _ (Finset.mem_range.mp hi)]
    rfl
  have hsum : W.work (s.cloneRpc r) =
      ∑ t ∈ Finset.range s.options.numEventThreads, W.thread s t +
        ∑ cq ∈ Finset.range s.options.numGrpcThreads, W.completionQueue s cq +
        ∑ i ∈ Finset.range (s.nextRpc + 1), W.call (s.cloneRpc r) i := rfl
  rw [hsum, Finset.sum_range_succ, hnew, Finset.sum_congr rfl hold, ← add_assoc]
  rfl

lemma work_apply {r : Nat} (hq : (s.rpcs r).eventQueue < s.options.numEventThreads)
    (hw : s.writers s.nextRpc = []) (effect : Effect) :
    W.work (s.apply r effect) = W.work s + W.effect effect := by
  cases effect with
  | none | remove => rfl
  | pushWriteNeeded => exact W.work_push s hq _
  | clone => exact W.work_cloneRpc s hw r

end Weights

/-! ### The price of a step -/

section Steps

variable {s s' : Server Req Resp} {r : Nat}

lemma writers_nextRpc (hs : (serverSystem Req Resp options maps).Reachable s) :
    s.writers s.nextRpc = [] := by
  by_contra hne
  exact absurd ((reachable_housed hs).writers _ hne) (lt_irrefl _)

lemma home_lt (hs : (serverSystem Req Resp options maps).Reachable s) (hr : r < s.nextRpc)
    (e : QueuedEvent) : home (s.rpcs r) e < s.options.numEventThreads := by
  rw [reachable_options hs]
  exact reachable_home_lt hs hr e

lemma task_lt (hs : (serverSystem Req Resp options maps).Reachable s) {t : Nat}
    (hcode : (s.tasks t).code ≠ []) :
    (s.tasks t).rpc < s.nextRpc ∧ t < s.options.numEventThreads := by
  obtain ⟨hr, e, he⟩ := (reachable_housed hs).tasks t hcode
  refine ⟨hr, ?_⟩
  rw [he]
  exact home_lt hs hr e

lemma inHand_lt (hs : (serverSystem Req Resp options maps).Reachable s) {cq : Nat} {tag : Tag}
    {ok : Bool} (hhand : s.inHand cq = some (r, tag, ok)) :
    r < s.nextRpc ∧ cq < s.options.numGrpcThreads := by
  obtain ⟨hr, hcq⟩ := (reachable_housed hs).inHand cq r tag ok hhand
  refine ⟨hr, ?_⟩
  rw [← hcq, reachable_options hs]
  exact reachable_completionQueue hs hr

lemma work_next (hr : r < s.nextRpc) {cq : Nat} (hcq : cq < s.options.numGrpcThreads)
    (hhand : s.inHand cq = none) {tag : Tag} {ok : Bool} {request : Option Req}
    (hmay : (s.rpcs r).mayReturn tag ok request = true) (W : Weights Resp) :
    W.work ((s.setRpc r ((s.rpcs r).returnTag tag ok request)).setInHand cq
      (some (r, tag, ok))) + W.flight tag = W.work s + W.hand tag := by
  have h₁ := W.work_setRpc s hr ((s.rpcs r).returnTag tag ok request)
  have h₂ := W.work_setInHand (s.setRpc r ((s.rpcs r).returnTag tag ok request)) hcq
    (some (r, tag, ok))
  have hfree : W.completionQueue (s.setRpc r ((s.rpcs r).returnTag tag ok request)) cq = 0 := by
    simp [Weights.completionQueue, Server.setRpc, hhand]
  have hrpc := W.rpc_returnTag (s.rpcs r) (mayReturn_iff.mp hmay).1 ok request
  rw [hfree] at h₂
  simp only [Option.toList_some, load_cons, load_nil] at h₂
  omega

lemma work_pushToEventQueue (hs : (serverSystem Req Resp options maps).Reachable s) {cq : Nat}
    {tag : Tag} {ok : Bool} (hhand : s.inHand cq = some (r, tag, ok)) (W : Weights Resp) :
    W.work (((s.setRpc r ((s.rpcs r).setOk tag ok)).setInHand cq none).push
      ((s.rpcs r).event tag).eventQueue (.completion r tag)) + W.hand tag =
      W.work s + W.event tag.event := by
  obtain ⟨hr, hcq⟩ := inHand_lt hs hhand
  have h₁ := W.work_setRpc s hr ((s.rpcs r).setOk tag ok)
  have h₂ := W.work_setInHand (s.setRpc r ((s.rpcs r).setOk tag ok)) hcq none
  have h₃ := W.work_push ((s.setRpc r ((s.rpcs r).setOk tag ok)).setInHand cq none)
    (home_lt hs hr (.completion r tag)) (.completion r tag)
  have hheld : W.completionQueue (s.setRpc r ((s.rpcs r).setOk tag ok)) cq = W.hand tag := by
    simp [Weights.completionQueue, Server.setRpc, hhand]
  have hrpc : W.rpc ((s.rpcs r).setOk tag ok) = W.rpc (s.rpcs r) := rfl
  rw [hheld] at h₂
  simp only [Option.toList_none, load_nil] at h₂
  simp only [home, kind] at h₃
  omega

lemma work_pop {t : Nat} {e : QueuedEvent} {rest : List QueuedEvent}
    (hidle : (s.tasks t).code = []) (hqueue : s.eventQueues t = e :: rest)
    (ht : t < s.options.numEventThreads) (W : Weights Resp) :
    W.work ((s.setEventQueue t rest).setTask t ⟨e.rpc, [Server.handler e]⟩) + W.event (kind e) =
      W.work s + W.instr (Server.handler e) := by
  have h₁ := W.work_setEventQueue s ht rest
  have h₂ := W.work_setTask (s.setEventQueue t rest) ht ⟨e.rpc, [Server.handler e]⟩
  have hcode : ((s.setEventQueue t rest).tasks t).code = [] := hidle
  rw [hqueue, load_cons] at h₁
  rw [hcode] at h₂
  simp only [load_cons, load_nil] at h₂
  omega

lemma work_exec (hs : (serverSystem Req Resp options maps).Reachable s) {t : Nat}
    {acts : List (HandlerAction Resp)} {i : Instr Resp} {rest : List (Instr Resp)}
    {o : Outcome Req Resp} (htask : s.tasks t = ⟨r, i :: rest⟩)
    (hrun : i.run (s.surroundings r) acts (s.rpcs r) = some o) (W : Weights Resp) :
    W.work (((s.setRpc r o.rpc).setTask t ⟨r, o.next ++ rest⟩).apply r o.effect) +
        (W.rpc (s.rpcs r) + W.instr i) =
      W.work s + (W.rpc o.rpc + (load W.instr o.next + W.effect o.effect)) := by
  obtain ⟨hr, ht⟩ := task_lt hs (t := t) (by simp [htask])
  simp only [htask] at hr
  have h₁ := W.work_setRpc s hr o.rpc
  have h₂ := W.work_setTask (s.setRpc r o.rpc) ht ⟨r, o.next ++ rest⟩
  have hqueue : (((s.setRpc r o.rpc).setTask t ⟨r, o.next ++ rest⟩).rpcs r).eventQueue <
      s.options.numEventThreads := by
    have hplace := (run_samePlace hrun).eventQueue
    simp only [Server.setTask, Server.setRpc, update_self, hplace]
    exact home_lt hs hr (.internal r)
  have hnone : s.writers s.nextRpc = [] := writers_nextRpc hs
  have h₃ := W.work_apply ((s.setRpc r o.rpc).setTask t ⟨r, o.next ++ rest⟩) hqueue hnone o.effect
  have hcode : ((s.setRpc r o.rpc).tasks t).code = i :: rest := by simp [Server.setRpc, htask]
  rw [hcode] at h₂
  simp only [load_cons, load_append] at h₂
  omega

lemma work_stepWriter (hs : (serverSystem Req Resp options maps).Reachable s) {i : Nat}
    {w w' : WriterCall Resp} {x : Rpc Req Resp} {effect : Effect}
    (hw : (s.writers r)[i]? = some w)
    (hstep : w.step (s.surroundings r) (s.rpcs r) = some (x, w', effect)) (W : Weights Resp) :
    W.work (((s.setRpc r x).setWriters r ((s.writers r).set i w')).apply r effect) +
        (W.rpc (s.rpcs r) + W.writer w.pc) =
      W.work s + (W.rpc x + (W.writer w'.pc + W.effect effect)) := by
  have hr := (reachable_housed hs).writers r (by intro hnil; simp [hnil] at hw)
  have h₁ := W.work_setRpc s hr x
  have h₂ := W.work_setWriters (s.setRpc r x) hr ((s.writers r).set i w')
  have hqueue : (((s.setRpc r x).setWriters r ((s.writers r).set i w')).rpcs r).eventQueue <
      s.options.numEventThreads := by
    have hplace := (writerStep_samePlace hstep).eventQueue
    simp only [Server.setWriters, Server.setRpc, update_self, hplace]
    exact home_lt hs hr (.internal r)
  have hnone : ((s.setRpc r x).setWriters r ((s.writers r).set i w')).writers s.nextRpc = [] := by
    have hne : s.nextRpc ≠ r := by omega
    rw [← writers_nextRpc hs]
    exact update_of_ne hne _ _
  have h₃ := W.work_apply _ hqueue hnone effect
  have hset := load_set (w := fun w => W.writer w.pc) hw w'
  have hcalls : (s.setRpc r x).writers r = s.writers r := rfl
  rw [hcalls] at h₂
  omega

end Steps

/-! ### Prices that fall -/

/-- Prices that fall on the way of an event from the completion queue thread to its handler and
with every step of a `Writer` call. -/
structure Falling (Req : Type) (ms : List (Weights Resp)) : Prop where
  push : ∀ tag : Tag, Lower ms (fun W => W.event tag.event) (fun W => W.hand tag)
  pop : ∀ e : QueuedEvent, Lower ms (fun W => W.instr (Server.handler e)) (fun W => W.event (kind e))
  writer : ∀ {w w' : WriterCall Resp} {env : Surroundings} {x y : Rpc Req Resp} {effect : Effect},
    w.isReturned = false → w.step env x = some (y, w', effect) →
    Lower ms (fun W => W.rpc y + (W.writer w'.pc + W.effect effect))
      (fun W => W.rpc x + W.writer w.pc)

/-- Such prices fall with every step of the server or the server fails, as long as they fall with
the tags that come back and the instructions that are executed. -/
theorem Falling.moves {ms : List (Weights Resp)} (hms : Falling Req ms) {s s' : Server Req Resp}
    {l : Label Req Resp} (hs : (serverSystem Req Resp options maps).Reachable s) (h : Moves s l s')
    (hcall : ∀ r method, l ≠ .callWriter r method) (hstop : ∀ v, l ≠ .stopServing v)
    (hnext : ∀ cq r tag ok request, l = .next cq r tag ok request →
      Lower ms (fun W => W.hand tag) (fun W => W.flight tag))
    (hexec : ∀ t acts r i rest o, l = .exec t acts → s.tasks t = ⟨r, i :: rest⟩ →
      i.run (s.surroundings r) acts (s.rpcs r) = some o →
      Lower ms (fun W => W.rpc o.rpc + (load W.instr o.next + W.effect o.effect))
        (fun W => W.rpc (s.rpcs r) + W.instr i)) :
    (Lower ms (fun W => W.work s') (fun W => W.work s) ∧ s'.fault = s.fault) ∨
      (∀ W : Weights Resp, W.work s' = W.work s) ∧ s'.fault ≠ none := by
  cases h with
  | next hcq hhand hr _ hmay =>
    exact .inl ⟨(hnext _ _ _ _ _ rfl).change (work_next hr hcq hhand hmay), rfl⟩
  | pushToEventQueue hhand =>
    exact .inl ⟨(hms.push _).change (work_pushToEventQueue hs hhand), rfl⟩
  | pop hidle hqueue ht => exact .inl ⟨(hms.pop _).change (work_pop hidle hqueue ht), rfl⟩
  | exec htask hrun =>
    refine .inl ⟨(hexec _ _ _ _ _ _ rfl htask hrun).change (work_exec hs htask hrun), ?_⟩
    rw [apply_fault]
    rfl
  | stepWriter hw hret hstep =>
    refine .inl ⟨(hms.writer hret hstep).change (work_stepWriter hs hw hstep), ?_⟩
    rw [apply_fault]
    rfl
  | execFault _ _ | writerFault _ _ _ => exact .inr ⟨fun _ => rfl, by simp⟩
  | callWriter _ _ => exact absurd rfl (hcall _ _)
  | stopServing => exact absurd rfl (hstop _)

/-! ### Steps that cannot be taken -/

section Stuck

variable {s : Server Req Resp} (hfault : s.fault = none)

include hfault

lemma inHand_of_stuck {cq : Nat} (h : s.step (.pushToEventQueue cq) = none) :
    s.inHand cq = none := by
  by_contra hne
  obtain ⟨⟨r, tag, ok⟩, hhand⟩ := Option.ne_none_iff_exists'.mp hne
  simp [Server.step, hfault, Server.pushToEventQueue, hhand] at h

lemma idle_of_stuck {t : Nat} {acts : List (HandlerAction Resp)}
    (h : s.step (.exec t acts) = none) : (s.tasks t).code = [] := by
  by_contra hne
  obtain ⟨i, rest, hcode⟩ := List.exists_cons_of_ne_nil hne
  simp only [Server.step, hfault, Server.exec, hcode, ne_eq, not_true_eq_false, if_false] at h
  split at h <;> cases h

lemma queue_of_stuck {t : Nat} (ht : t < s.options.numEventThreads)
    (hidle : (s.tasks t).code = []) (h : s.step (.pop t) = none) : s.eventQueues t = [] := by
  by_contra hne
  obtain ⟨e, rest, hqueue⟩ := List.exists_cons_of_ne_nil hne
  simp [Server.step, hfault, Server.pop, hidle, hqueue, ht] at h

lemma returned_of_stuck {r i : Nat} {w : WriterCall Resp} (hw : (s.writers r)[i]? = some w)
    (h : s.step (.stepWriter r i) = none) : w.isReturned = true := by
  by_contra hret
  simp only [Server.step, hfault, Server.stepWriter, hw, hret, ne_eq, not_true_eq_false,
    if_false] at h
  split at h <;> cases h

/-- gRPC can return whatever it owes to a completion queue thread that waits in `Next`. -/
lemma owed_of_stuck (hs : (serverSystem Req Resp options maps).Reachable s) {r : Nat}
    (hr : r < s.nextRpc) (hhand : s.inHand (s.rpcs r).serverCompletionQueue = none) {tag : Tag}
    (h : s.step (.next (s.rpcs r).serverCompletionQueue r tag false none) = none) :
    (s.rpcs r).owed tag = false := by
  by_contra howed
  have hcq := reachable_completionQueue hs hr
  rw [← reachable_options hs] at hcq
  have hmay : (s.rpcs r).mayReturn tag false none = true := by
    rw [mayReturn_iff]
    simpa [Rpc.owed, Rpc.delivers] using howed
  simp [Server.step, hfault, Server.next, hcq, hhand, hr, hmay] at h

end Stuck

end AsyncGrpc.Proofs
