import AsyncGrpc.Call
import AsyncGrpc.Proofs.Instructions

/-!
# What a step of the server can do

`Moves` lists the steps of the server once, guards included; every later invariant is proved
by cases on it. `SamePlace` collects what no step changes in an `Rpc`, and `Housed` says
where the events of an `Rpc` can be.
-/

namespace AsyncGrpc.Proofs

open Function Transition

variable {Req Resp : Type}

/-- The place of an `Rpc` in the server, fixed by its constructor and `SetEventQueue`. -/
structure SamePlace (x y : Rpc Req Resp) : Prop where
  methodIndex : y.methodIndex = x.methodIndex
  serverCompletionQueue : y.serverCompletionQueue = x.serverCompletionQueue
  eventQueue : y.eventQueue = x.eventQueue
  rpcHandlerInfo : y.rpcHandlerInfo = x.rpcHandlerInfo
  service : y.service = x.service
  parent : y.parent = x.parent
  event : ∀ tag, (y.event tag).eventQueue = (x.event tag).eventQueue

lemma SamePlace.refl (x : Rpc Req Resp) : SamePlace x x :=
  ⟨rfl, rfl, rfl, rfl, rfl, rfl, fun _ => rfl⟩

lemma SamePlace.trans {x y z : Rpc Req Resp} (h : SamePlace x y) (h' : SamePlace y z) :
    SamePlace x z :=
  ⟨h'.methodIndex.trans h.methodIndex, h'.serverCompletionQueue.trans h.serverCompletionQueue,
    h'.eventQueue.trans h.eventQueue, h'.rpcHandlerInfo.trans h.rpcHandlerInfo,
    h'.service.trans h.service, h'.parent.trans h.parent,
    fun tag => (h'.event tag).trans (h.event tag)⟩

lemma SamePlace.routed {x y : Rpc Req Resp} (h : SamePlace x y) : y.Routed ↔ x.Routed := by
  simp only [Rpc.Routed, h.event, h.eventQueue]

lemma setRpcEventState_samePlace (x : Rpc Req Resp) (tag : Tag) (b : Bool) :
    SamePlace x (x.setRpcEventState tag b) := by
  refine ⟨rfl, rfl, rfl, rfl, rfl, rfl, fun tag' => ?_⟩
  by_cases h : tag' = tag
  · subst h
    simp [Rpc.setRpcEventState]
  · simp [Rpc.setRpcEventState, h]

lemma startOp_samePlace (x : Rpc Req Resp) (tag : Tag) : SamePlace x (x.startOp tag) :=
  ⟨rfl, rfl, rfl, rfl, rfl, rfl, (setRpcEventState_samePlace x tag true).event⟩

lemma returnTag_samePlace (x : Rpc Req Resp) (tag : Tag) (ok : Bool) (request : Option Req) :
    SamePlace x (x.returnTag tag ok request) :=
  ⟨rfl, rfl, rfl, rfl, rfl, rfl, fun _ => rfl⟩

lemma setOk_samePlace (x : Rpc Req Resp) (tag : Tag) (ok : Bool) :
    SamePlace x (x.setOk tag ok) := by
  refine ⟨rfl, rfl, rfl, rfl, rfl, rfl, fun tag' => ?_⟩
  by_cases h : tag' = tag
  · subst h
    simp [Rpc.setOk]
  · simp [Rpc.setOk, h]

/-- No instruction moves its `Rpc`. -/
theorem run_samePlace {i : Instr Resp} {env : Surroundings} {acts : List (HandlerAction Resp)}
    {x : Rpc Req Resp} {o : Outcome Req Resp} (h : i.run env acts x = some o) :
    SamePlace x o.rpc := by
  cases run_runs h with
  | @handle tag =>
    exact ⟨rfl, rfl, rfl, rfl, rfl, rfl, (setRpcEventState_samePlace x tag false).event⟩
  | startRead _ => exact startOp_samePlace x .read
  | performFinish _ => exact ⟨rfl, rfl, rfl, rfl, rfl, rfl, (startOp_samePlace x .finish).event⟩
  | performWrite _ _ => exact ⟨rfl, rfl, rfl, rfl, rfl, rfl, (startOp_samePlace x .write).event⟩
  | _ => exact ⟨rfl, rfl, rfl, rfl, rfl, rfl, fun _ => rfl⟩

lemma writerStep_samePlace {w w' : WriterCall Resp} {env : Surroundings} {x y : Rpc Req Resp}
    {effect : Effect} (h : w.step env x = some (y, w', effect)) : SamePlace x y := by
  unfold WriterCall.step at h
  split at h
  · split at h <;> cases h <;> exact .refl x
  · cases h
    exact ⟨rfl, rfl, rfl, rfl, rfl, rfl, fun _ => rfl⟩
  · split at h <;> cases h
    exact .refl x
  · cases h; exact .refl x
  · cases h; exact .refl x
  · cases h; exact .refl x

/-- The steps of a server that has not failed. -/
inductive Moves (s : Server Req Resp) : Label Req Resp → Server Req Resp → Prop
  | next {cq r : Nat} {tag : Tag} {ok : Bool} {request : Option Req}
      (hcq : cq < s.options.numGrpcThreads) (hhand : s.inHand cq = none) (hr : r < s.nextRpc)
      (hplace : (s.rpcs r).serverCompletionQueue = cq)
      (hmay : (s.rpcs r).mayReturn tag ok request = true) :
      Moves s (.next cq r tag ok request)
        ((s.setRpc r ((s.rpcs r).returnTag tag ok request)).setInHand cq (some (r, tag, ok)))
  | pushToEventQueue {cq r : Nat} {tag : Tag} {ok : Bool} (hhand : s.inHand cq = some (r, tag, ok)) :
      Moves s (.pushToEventQueue cq)
        (((s.setRpc r ((s.rpcs r).setOk tag ok)).setInHand cq none).push
          ((s.rpcs r).event tag).eventQueue (.completion r tag))
  | pop {t : Nat} {e : QueuedEvent} {rest : List QueuedEvent} (hidle : (s.tasks t).code = [])
      (hqueue : s.eventQueues t = e :: rest) (ht : t < s.options.numEventThreads) :
      Moves s (.pop t) ((s.setEventQueue t rest).setTask t ⟨e.rpc, [Server.handler e]⟩)
  | exec {t : Nat} {acts : List (HandlerAction Resp)} {r : Nat} {i : Instr Resp}
      {rest : List (Instr Resp)} {o : Outcome Req Resp} (htask : s.tasks t = ⟨r, i :: rest⟩)
      (hrun : i.run (s.surroundings r) acts (s.rpcs r) = some o) :
      Moves s (.exec t acts)
        (((s.setRpc r o.rpc).setTask t ⟨r, o.next ++ rest⟩).apply r o.effect)
  | execFault {t : Nat} {acts : List (HandlerAction Resp)} {r : Nat} {i : Instr Resp}
      {rest : List (Instr Resp)} (htask : s.tasks t = ⟨r, i :: rest⟩)
      (hrun : i.run (s.surroundings r) acts (s.rpcs r) = none) :
      Moves s (.exec t acts) { s with fault := some (.eventThread t) }
  | callWriter {r : Nat} {method : WriterMethod Resp} (hr : r < s.nextRpc)
      (hwriter : (s.rpcs r).hasWriter = true) :
      Moves s (.callWriter r method)
        (s.setWriters r (s.writers r ++ [⟨method.item, .calling⟩]))
  | stepWriter {r i : Nat} {w w' : WriterCall Resp} {x : Rpc Req Resp} {effect : Effect}
      (hw : (s.writers r)[i]? = some w) (hret : w.isReturned = false)
      (hstep : w.step (s.surroundings r) (s.rpcs r) = some (x, w', effect)) :
      Moves s (.stepWriter r i)
        (((s.setRpc r x).setWriters r ((s.writers r).set i w')).apply r effect)
  | writerFault {r i : Nat} {w : WriterCall Resp} (hw : (s.writers r)[i]? = some w)
      (hret : w.isReturned = false) (hstep : w.step (s.surroundings r) (s.rpcs r) = none) :
      Moves s (.stepWriter r i) { s with fault := some (.writer r i) }
  | stopServing {v : Nat} :
      Moves s (.stopServing v) (s.stopServing v)

theorem step_moves {s s' : Server Req Resp} {l : Label Req Resp} (h : s.step l = some s') :
    s.fault = none ∧ Moves s l s' := by
  unfold Server.step at h
  split at h
  · cases h
  · rename_i hf
    refine ⟨by simpa using hf, ?_⟩
    cases l with
    | next cq r tag ok request =>
      simp only [Server.next] at h
      split at h
      · rename_i hg
        cases h
        exact .next hg.1 hg.2.1 hg.2.2.1 hg.2.2.2.1 hg.2.2.2.2
      · cases h
    | pushToEventQueue cq =>
      simp only [Server.pushToEventQueue] at h
      split at h
      · cases h
      · rename_i hhand
        cases h
        exact .pushToEventQueue hhand
    | pop t =>
      simp only [Server.pop] at h
      split at h
      · rename_i hidle hqueue
        split at h
        · rename_i ht
          cases h
          exact .pop hidle hqueue ht
        · cases h
      · cases h
    | exec t acts =>
      simp only [Server.exec] at h
      split at h
      · cases h
      · rename_i i rest hcode
        have htask : s.tasks t = ⟨(s.tasks t).rpc, i :: rest⟩ := by rw [← hcode]
        split at h
        · rename_i hrun
          cases h
          exact .execFault htask hrun
        · rename_i hrun
          cases h
          exact .exec htask hrun
    | callWriter r method =>
      simp only at h
      split at h
      · rename_i hg
        cases h
        exact .callWriter hg.1 hg.2
      · cases h
    | stepWriter r i =>
      simp only [Server.stepWriter] at h
      split at h
      · cases h
      · rename_i w hw
        split at h
        · cases h
        · rename_i hret
          split at h
          · rename_i hstep
            cases h
            exact .writerFault hw (by simpa using hret) hstep
          · rename_i hstep
            cases h
            exact .stepWriter hw (by simpa using hret) hstep
    | stopServing v =>
      cases h
      exact .stopServing

/-! ### Frames of the effects -/

section Effects

variable (s : Server Req Resp) (r : Nat) (effect : Effect)

@[simp] lemma apply_options : (s.apply r effect).options = s.options := by
  cases effect <;> rfl

@[simp] lemma apply_tasks : (s.apply r effect).tasks = s.tasks := by
  cases effect <;> rfl

@[simp] lemma apply_inHand : (s.apply r effect).inHand = s.inHand := by
  cases effect <;> rfl

@[simp] lemma apply_writers : (s.apply r effect).writers = s.writers := by
  cases effect <;> rfl

@[simp] lemma apply_fault : (s.apply r effect).fault = s.fault := by
  cases effect <;> rfl

lemma apply_nextRpc :
    (s.apply r effect).nextRpc = if effect = .clone then s.nextRpc + 1 else s.nextRpc := by
  cases effect <;> rfl

lemma le_apply_nextRpc : s.nextRpc ≤ (s.apply r effect).nextRpc := by
  rw [apply_nextRpc]
  split <;> omega

lemma apply_eventQueues : (s.apply r effect).eventQueues =
    if effect = .pushWriteNeeded then update s.eventQueues (s.rpcs r).eventQueue
      (s.eventQueues (s.rpcs r).eventQueue ++ [.internal r]) else s.eventQueues := by
  cases effect <;> rfl

lemma apply_rpcs {r' : Nat} (h : r' < s.nextRpc) : (s.apply r effect).rpcs r' = s.rpcs r' := by
  cases effect with
  | none | pushWriteNeeded | remove => rfl
  | clone => exact update_of_ne (by omega) _ _

lemma setActive_services (w v : Nat) (rpcs : Finset Nat) : ∃ activeRpcs,
    (s.setActive w rpcs).services v = { s.services v with activeRpcs := activeRpcs } := by
  simp only [Server.setActive, update_apply]
  split
  · rename_i hv
    exact ⟨_, by rw [hv]⟩
  · exact ⟨(s.services v).activeRpcs, rfl⟩

lemma addRpc_services (x : Rpc Req Resp) (v : Nat) : ∃ activeRpcs,
    (s.addRpc x).services v = { s.services v with activeRpcs := activeRpcs } :=
  setActive_services (s.setRpc s.nextRpc x.requestNextMethodInvocation) _ v _

lemma apply_services (v : Nat) : ∃ activeRpcs,
    (s.apply r effect).services v = { s.services v with activeRpcs := activeRpcs } := by
  cases effect with
  | none | pushWriteNeeded => exact ⟨(s.services v).activeRpcs, rfl⟩
  | remove | clone => exact setActive_services _ _ v _

lemma apply_shuttingDown (v : Nat) :
    ((s.apply r effect).services v).shuttingDown = (s.services v).shuttingDown := by
  obtain ⟨activeRpcs, h⟩ := apply_services s r effect v
  rw [h]

/-- What the constructor of a service made of its map. -/
def registration (service : Service) :
    List (String × RpcHandlerInfo) × List (String × RpcType) :=
  (service.rpcHandlerInfos, service.methods)

lemma apply_registration (v : Nat) : registration ((s.apply r effect).services v) =
    registration (s.services v) := by
  obtain ⟨activeRpcs, h⟩ := apply_services s r effect v
  rw [h]
  rfl

end Effects

/-- No step moves an `Rpc`. -/
theorem moves_samePlace {s s' : Server Req Resp} {l : Label Req Resp} (h : Moves s l s')
    {r : Nat} (hr : r < s.nextRpc) : SamePlace (s.rpcs r) (s'.rpcs r) := by
  have hset : ∀ (r' : Nat) (y : Rpc Req Resp), SamePlace (s.rpcs r') y →
      SamePlace (s.rpcs r) ((s.setRpc r' y).rpcs r) := by
    intro r' y hy
    by_cases he : r = r'
    · subst he
      simpa [Server.setRpc] using hy
    · simpa [Server.setRpc, he] using SamePlace.refl _
  cases h with
  | next _ _ _ _ _ => exact hset _ _ (returnTag_samePlace _ _ _ _)
  | pushToEventQueue _ => exact hset _ _ (setOk_samePlace _ _ _)
  | exec htask hrun =>
    rw [apply_rpcs _ _ _ (by exact hr)]
    exact hset _ _ (run_samePlace hrun)
  | stepWriter hw hret hstep =>
    rw [apply_rpcs _ _ _ (by exact hr)]
    exact hset _ _ (writerStep_samePlace hstep)
  | pop _ _ _ | execFault _ _ | callWriter _ _ | writerFault _ _ _ | stopServing => exact .refl _

lemma moves_nextRpc {s s' : Server Req Resp} {l : Label Req Resp} (h : Moves s l s') :
    s.nextRpc ≤ s'.nextRpc := by
  cases h with
  | exec _ _ => refine le_trans ?_ (le_apply_nextRpc _ _ _); exact le_rfl
  | stepWriter _ _ _ => refine le_trans ?_ (le_apply_nextRpc _ _ _); exact le_rfl
  | _ => exact le_rfl

lemma moves_options {s s' : Server Req Resp} {l : Label Req Resp} (h : Moves s l s') :
    s'.options = s.options := by
  cases h with
  | exec _ _ => exact apply_options _ _ _
  | stepWriter _ _ _ => exact apply_options _ _ _
  | _ => rfl

/-- Only `StopServing` makes a service shut down. -/
lemma moves_shuttingDown {s s' : Server Req Resp} {l : Label Req Resp} (h : Moves s l s') {v : Nat}
    (hv : l ≠ .stopServing v) : (s'.services v).shuttingDown = (s.services v).shuttingDown := by
  cases h with
  | exec _ _ | stepWriter _ _ _ => exact apply_shuttingDown _ _ _ v
  | @stopServing v' =>
    have hne : v ≠ v' := fun he => hv (he ▸ rfl)
    simp [Server.stopServing, hne]
  | _ => rfl

lemma moves_registration {s s' : Server Req Resp} {l : Label Req Resp} (h : Moves s l s') (v : Nat) :
    registration (s'.services v) = registration (s.services v) := by
  cases h with
  | exec _ _ | stepWriter _ _ _ => exact apply_registration _ _ _ v
  | @stopServing v' =>
    simp only [Server.stopServing, update_apply]
    split
    · rename_i hv
      rw [hv]
      rfl
    · rfl
  | _ => rfl

/-- Only the instruction `clone` asks for a clone. -/
lemma run_effect_clone {i : Instr Resp} {env : Surroundings} {acts : List (HandlerAction Resp)}
    {x : Rpc Req Resp} {o : Outcome Req Resp} (h : i.run env acts x = some o)
    (he : o.effect = .clone) : i = .clone ∧ o = ⟨x, [], .clone⟩ := by
  cases run_runs h with
  | clone => exact ⟨rfl, rfl⟩
  | _ => cases he

lemma writerStep_effect {w w' : WriterCall Resp} {env : Surroundings} {x y : Rpc Req Resp}
    {effect : Effect} (h : w.step env x = some (y, w', effect)) :
    effect = .none ∨ effect = .pushWriteNeeded := by
  unfold WriterCall.step at h
  split at h <;> (try split at h) <;> cases h <;> simp

/-- An `Rpc` is only made by an event thread that reaches the end of `HandleNewConnection`. -/
theorem moves_born {s s' : Server Req Resp} {l : Label Req Resp} (h : Moves s l s')
    (hne : s'.nextRpc ≠ s.nextRpc) :
    ∃ t acts p rest, l = .exec t acts ∧ s.tasks t = ⟨p, .clone :: rest⟩ ∧
      s' = (s.setTask t ⟨p, rest⟩).cloneRpc p := by
  cases h with
  | @exec t acts r i rest o htask hrun =>
    have he : o.effect = .clone := by
      by_contra hc
      rw [apply_nextRpc, if_neg hc] at hne
      exact hne rfl
    obtain ⟨rfl, rfl⟩ := run_effect_clone hrun he
    refine ⟨t, acts, r, rest, rfl, htask, ?_⟩
    simp [Server.apply, Server.setRpc]
  | stepWriter hw hret hstep =>
    rcases writerStep_effect hstep with rfl | rfl <;> exact absurd rfl hne
  | _ => exact absurd rfl hne

/-- The queue an event is pushed to: the one its embedded event names, or `event_queue_`. -/
def home (x : Rpc Req Resp) : QueuedEvent → Nat
  | .completion _ tag => (x.event tag).eventQueue
  | .internal _ => x.eventQueue

lemma SamePlace.home {x y : Rpc Req Resp} (h : SamePlace x y) (e : QueuedEvent) :
    home y e = home x e := by
  cases e with
  | completion r tag => exact h.event tag
  | internal r => exact h.eventQueue

lemma home_of_routed {x : Rpc Req Resp} (h : x.Routed) (e : QueuedEvent) :
    home x e = x.eventQueue := by
  cases e with
  | completion r tag => exact h tag
  | internal r => rfl

/-- Everything that names an `Rpc` names one that exists, and stands where its queue pointers
say: queued events, the events being handled, tags in hand, `Writer` calls, `ActiveRpcs`. -/
structure Housed (s : Server Req Resp) : Prop where
  queues : ∀ t, ∀ e ∈ s.eventQueues t, e.rpc < s.nextRpc ∧ t = home (s.rpcs e.rpc) e
  tasks : ∀ t, (s.tasks t).code ≠ [] → (s.tasks t).rpc < s.nextRpc ∧
    ∃ e : QueuedEvent, t = home (s.rpcs (s.tasks t).rpc) e
  inHand : ∀ cq r tag ok, s.inHand cq = some (r, tag, ok) →
    r < s.nextRpc ∧ (s.rpcs r).serverCompletionQueue = cq
  writers : ∀ r, s.writers r ≠ [] → r < s.nextRpc
  activeRpcs : ∀ v, ∀ r ∈ (s.services v).activeRpcs, r < s.nextRpc ∧ (s.rpcs r).service = v

lemma Housed.task_eq {s : Server Req Resp} (h : Housed s) {t : Nat}
    (hcode : (s.tasks t).code ≠ []) (hr : (s.rpcs (s.tasks t).rpc).Routed) :
    t = (s.rpcs (s.tasks t).rpc).eventQueue := by
  obtain ⟨-, e, he⟩ := h.tasks t hcode
  exact he.trans (home_of_routed hr e)

/-- An event new to a queue belongs to an existing `Rpc`, and the queue is its home. -/
lemma moves_mem_eventQueues {s s' : Server Req Resp} {l : Label Req Resp} (h : Moves s l s')
    (hh : Housed s) {t : Nat} {e : QueuedEvent} (he : e ∈ s'.eventQueues t) :
    e ∈ s.eventQueues t ∨ (e.rpc < s.nextRpc ∧ t = home (s.rpcs e.rpc) e) := by
  cases h with
  | @pushToEventQueue cq r tag ok hhand =>
    simp only [Server.push, Server.setEventQueue, update_apply] at he
    split at he
    · rename_i ht
      rcases List.mem_append.mp he with he | he
      · exact .inl (ht ▸ he)
      · rw [List.mem_singleton.mp he]
        exact .inr ⟨(hh.inHand _ _ _ _ hhand).1, ht⟩
    · exact .inl he
  | @pop t' e' rest hidle hqueue ht' =>
    left
    simp only [Server.setTask, Server.setEventQueue, update_apply] at he
    split at he
    · rename_i ht
      subst ht
      exact hqueue ▸ List.mem_cons_of_mem _ he
    · exact he
  | @exec t' acts r i rest o htask hrun =>
    have hr := hh.tasks t' (by simp [htask])
    simp only [htask] at hr
    rw [apply_eventQueues] at he
    split at he
    · simp only [Server.setTask, Server.setRpc, update_self, update_apply] at he
      split at he
      · rename_i ht
        rcases List.mem_append.mp he with he | he
        · exact .inl (ht ▸ he)
        · rw [List.mem_singleton.mp he]
          exact .inr ⟨hr.1, ht.trans (run_samePlace hrun).eventQueue⟩
      · exact .inl he
    · exact .inl he
  | @stepWriter r i w w' x effect hw hret hstep =>
    have hr := hh.writers r (by rintro h; simp [h] at hw)
    rw [apply_eventQueues] at he
    split at he
    · simp only [Server.setWriters, Server.setRpc, update_self, update_apply] at he
      split at he
      · rename_i ht
        rcases List.mem_append.mp he with he | he
        · exact .inl (ht ▸ he)
        · rw [List.mem_singleton.mp he]
          exact .inr ⟨hr, ht.trans (writerStep_samePlace hstep).eventQueue⟩
      · exact .inl he
    · exact .inl he
  | next _ _ _ _ _ | execFault _ _ | callWriter _ _ | writerFault _ _ _ | stopServing =>
    exact .inl he

/-- The task of a thread after a step: the old one, the event just popped, or what is left
of the handling it was in. -/
lemma moves_tasks {s s' : Server Req Resp} {l : Label Req Resp} (h : Moves s l s') (t : Nat) :
    s'.tasks t = s.tasks t ∨
      (∃ e ∈ s.eventQueues t, (s.tasks t).code = [] ∧ s'.tasks t = ⟨e.rpc, [Server.handler e]⟩) ∨
      ((s.tasks t).code ≠ [] ∧ (s'.tasks t).rpc = (s.tasks t).rpc) := by
  cases h with
  | @pop t' e rest hidle hqueue ht =>
    by_cases he : t = t'
    · subst he
      exact .inr (.inl ⟨e, by simp [hqueue], hidle, by simp [Server.setTask]⟩)
    · exact .inl (by simp [Server.setTask, he, Server.setEventQueue])
  | @exec t' acts r i rest o htask hrun =>
    by_cases he : t = t'
    · subst he
      exact .inr (.inr ⟨by simp [htask], by simp [Server.setTask, htask]⟩)
    · exact .inl (by simp [Server.setTask, he, Server.setRpc])
  | stepWriter _ _ _ => exact .inl (by simp [Server.setWriters, Server.setRpc])
  | _ => exact .inl rfl

lemma moves_writers {s s' : Server Req Resp} {l : Label Req Resp} (h : Moves s l s')
    (hh : Housed s) {r : Nat} (hr : s'.writers r ≠ []) : r < s.nextRpc := by
  cases h with
  | @callWriter r' method hr' hw =>
    by_cases he : r = r'
    · exact he ▸ hr'
    · exact hh.writers r (by simpa [Server.setWriters, he] using hr)
  | @stepWriter r' i w w' x effect hw hret hstep =>
    by_cases he : r = r'
    · subst he
      exact hh.writers r (by rintro h; simp [h] at hw)
    · exact hh.writers r (by simpa [Server.setWriters, Server.setRpc, he] using hr)
  | exec _ _ => exact hh.writers r (by simpa [Server.setTask, Server.setRpc] using hr)
  | _ => exact hh.writers r hr

lemma addRpc_activeRpcs (s : Server Req Resp) (x : Rpc Req Resp) (v r : Nat) :
    r ∈ ((s.addRpc x).services v).activeRpcs ↔
      r ∈ (s.services v).activeRpcs ∨ (r = s.nextRpc ∧ v = x.service) := by
  simp only [Server.addRpc, Server.setActive, Server.setRpc, update_apply]
  split
  · rename_i hv
    simp [hv, or_comm]
  · rename_i hv
    simp [hv]

lemma removeRpc_activeRpcs (s : Server Req Resp) (r v r' : Nat) :
    r' ∈ ((s.removeRpc r).services v).activeRpcs ↔
      r' ∈ (s.services v).activeRpcs ∧ ¬ (r' = r ∧ v = (s.rpcs r).service) := by
  simp only [Server.removeRpc, Server.setActive, update_apply]
  split
  · rename_i hv
    simp [hv, and_comm]
  · rename_i hv
    simp [hv]

lemma addRpc_rpcs_new (s : Server Req Resp) (x : Rpc Req Resp) :
    (s.addRpc x).rpcs s.nextRpc = x.requestNextMethodInvocation :=
  update_self _ _ _

lemma addRpc_rpcs_old (s : Server Req Resp) (x : Rpc Req Resp) {r : Nat} (hr : r < s.nextRpc) :
    (s.addRpc x).rpcs r = s.rpcs r :=
  update_of_ne (by omega) _ _

/-- A member of `ActiveRpcs` was there before or has just been added. -/
lemma apply_activeRpcs {s : Server Req Resp} {r v r' : Nat} {effect : Effect}
    (h : r' ∈ ((s.apply r effect).services v).activeRpcs) : r' ∈ (s.services v).activeRpcs ∨
      (s.nextRpc ≤ r' ∧ r' < (s.apply r effect).nextRpc ∧
        ((s.apply r effect).rpcs r').service = v) := by
  cases effect with
  | none | pushWriteNeeded => exact .inl h
  | remove => exact .inl ((removeRpc_activeRpcs _ _ _ _).mp h).1
  | clone =>
    rcases (addRpc_activeRpcs _ _ _ _).mp h with h | ⟨rfl, hv⟩
    · exact .inl h
    · refine .inr ⟨le_rfl, Nat.lt_succ_self _, ?_⟩
      simp only [Server.apply, Server.cloneRpc, addRpc_rpcs_new]
      exact hv.symm

lemma moves_activeRpcs {s s' : Server Req Resp} {l : Label Req Resp} (h : Moves s l s')
    {v r : Nat} (hr : r ∈ (s'.services v).activeRpcs) : r ∈ (s.services v).activeRpcs ∨
      (s.nextRpc ≤ r ∧ r < s'.nextRpc ∧ (s'.rpcs r).service = v) := by
  cases h with
  | exec _ _ | stepWriter _ _ _ => exact apply_activeRpcs hr
  | @stopServing v' =>
    simp only [Server.stopServing, update_apply] at hr
    split at hr
    · rename_i hv
      exact .inl (hv ▸ hr)
    · exact .inl hr
  | _ => exact .inl hr

theorem moves_housed {s s' : Server Req Resp} {l : Label Req Resp} (h : Moves s l s')
    (hh : Housed s) : Housed s' where
  queues := by
    intro t e he
    have hold : e.rpc < s.nextRpc ∧ t = home (s.rpcs e.rpc) e := by
      rcases moves_mem_eventQueues h hh he with he | he
      · exact hh.queues t e he
      · exact he
    exact ⟨hold.1.trans_le (moves_nextRpc h),
      hold.2.trans ((moves_samePlace h hold.1).home e).symm⟩
  tasks := by
    intro t ht
    have hold : (s'.tasks t).rpc < s.nextRpc ∧
        ∃ e : QueuedEvent, t = home (s.rpcs (s'.tasks t).rpc) e := by
      rcases moves_tasks h t with he | ⟨e, he, -, htask⟩ | ⟨hc, hr⟩
      · rw [he] at ht ⊢
        exact hh.tasks t ht
      · rw [htask]
        exact ⟨(hh.queues t e he).1, e, (hh.queues t e he).2⟩
      · rw [hr]
        exact hh.tasks t hc
    obtain ⟨hlt, e, he⟩ := hold
    exact ⟨hlt.trans_le (moves_nextRpc h), e, he.trans ((moves_samePlace h hlt).home e).symm⟩
  inHand := by
    intro cq r tag ok hr
    have hold : r < s.nextRpc ∧ (s.rpcs r).serverCompletionQueue = cq := by
      cases h with
      | @next cq' r' tag' ok' request _ _ hr' hplace _ =>
        simp only [Server.setInHand, Server.setRpc, update_apply] at hr
        split at hr
        · rename_i hcq
          cases hr
          exact ⟨hr', hplace.trans hcq.symm⟩
        · exact hh.inHand cq r tag ok hr
      | @pushToEventQueue cq' r' tag' ok' hhand =>
        simp only [Server.push, Server.setEventQueue, Server.setInHand, Server.setRpc,
          update_apply] at hr
        split at hr
        · cases hr
        · exact hh.inHand cq r tag ok hr
      | exec _ _ => exact hh.inHand cq r tag ok (by simpa [Server.setTask, Server.setRpc] using hr)
      | stepWriter _ _ _ =>
        exact hh.inHand cq r tag ok (by simpa [Server.setWriters, Server.setRpc] using hr)
      | _ => exact hh.inHand cq r tag ok hr
    exact ⟨hold.1.trans_le (moves_nextRpc h),
      (moves_samePlace h hold.1).serverCompletionQueue.trans hold.2⟩
  writers := by
    intro r hr
    exact (moves_writers h hh hr).trans_le (moves_nextRpc h)
  activeRpcs := by
    intro v r hr
    rcases moves_activeRpcs h hr with hold | hnew
    · obtain ⟨hlt, hv⟩ := hh.activeRpcs v r hold
      exact ⟨hlt.trans_le (moves_nextRpc h), (moves_samePlace h hlt).service.trans hv⟩
    · exact hnew.2

end AsyncGrpc.Proofs
