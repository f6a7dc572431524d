import AsyncGrpc.Proofs.Lifetime

/-!
# The send queue

Items are accepted by the send queue from any thread and leave it on the event thread of the
call. What the handler and the `Writer` calls pass is accepted, item by item; what has been started
on gRPC followed by what is still queued is what was accepted, in order; at most one operation is
outstanding; and a queue that is not empty will be looked at again.
-/

namespace AsyncGrpc.Proofs

open Function Transition
open scoped List

variable {Req Resp : Type} {options : Options} {maps : List (List (String × RpcHandlerInfo))}

/-- The operation that carries an item, for each type of method. -/
def sendOp (rpcType : RpcType) (item : SendItem Resp) : SendOp Resp :=
  match item.msg, rpcType.streamsResponses with
  | some m, true => .write m
  | some m, false => .finish (some m) item.status
  | none, true => .finish none item.status
  | none, false => .finishWithError item.status

lemma finishOp_eq {rpcType : RpcType} {item : SendItem Resp} {op : SendOp Resp}
    (h : Rpc.finishOp rpcType item = some op) : op = sendOp rpcType item ∧ op.isFinish = true := by
  unfold Rpc.finishOp at h
  split at h <;> cases h <;> simp_all [sendOp, RpcType.streamsResponses, SendOp.isFinish]

/-- The call has handed its item to the send queue. -/
def accepted (w : WriterCall Resp) : Bool :=
  match w.pc with
  | .enqueued | .lookedUp | .pushed | .returned true => true
  | .calling | .locked | .returned false => false

/-- The items of the `Writer` calls that the send queue has accepted. -/
def acceptedItems (calls : List (WriterCall Resp)) : List (SendItem Resp) :=
  (calls.filter accepted).map WriterCall.item

def enqueuedItem : Instr Resp → Option (SendItem Resp)
  | .enqueueMessage item => some item
  | _ => none

/-- The items that are still to be enqueued by the sends of the last callback. -/
def unsent (acts : List (Instr Resp)) : List (SendItem Resp) :=
  acts.filterMap enqueuedItem

/-- Of the items that the handler has passed the first ones, `handed`, are in the send queue. What
the queue has accepted is these, in their order, and the items of the `Writer` calls. -/
structure Conserved (c : Call Req Resp) (acts : List (Instr Resp))
    (handed : List (SendItem Resp)) : Prop where
  passed : c.rpc.passed = handed ++ unsent acts
  ordered : handed <+ c.rpc.enqueued
  accounted : c.rpc.enqueued ~ handed ++ acceptedItems c.writers

/-- The phases that lead to `HandleSendQueue`, and those after it has taken an item. -/
def Phase.looksAtQueue : Phase Resp → Bool
  | .handleInternal | .handleSendQueue _ | .performFinish _ _ | .performWrite _ _ => true
  | _ => false

/-- The reasons why the send queue will be looked at again, or need not be. -/
def Woken (c : Call Req Resp) (acts : List (Instr Resp)) (p : Phase Resp) : Prop :=
  c.rpc.isRpcEventPending .write = true ∨ (∃ op ∈ c.rpc.sends, op.isFinish = true) ∨
    .internal ∈ c.mailbox ∨ (∃ w ∈ c.writers, w.beforePush = true) ∨
    .pushWriteNeeded ∈ acts ∨ p.looksAtQueue = true

structure Sends (c : Call Req Resp) (acts : List (Instr Resp)) (p : Phase Resp) : Prop where
  lives : Lives c acts p
  order : c.rpc.sends ++ (p.item.toList ++ c.rpc.sendQueue).map (sendOp c.rpc.rpcType) =
    c.rpc.enqueued.map (sendOp c.rpc.rpcType)
  finishes : c.rpc.sends.countP SendOp.isFinish =
    c.rpc.handled.countP (fun h => h.1 = .finish) + (c.rpc.isRpcEventPending .finish).toNat
  wake : c.active = true → c.rpc.sendQueue ≠ [] → Woken c acts p
  conserved : ∃ handed, Conserved c acts handed
  unexpired : c.active = true → ∀ w ∈ c.writers, w.pc ≠ .returned false

section Turns

variable {c c' : Call Req Resp} {acts acts' : List (Instr Resp)} {p p' : Phase Resp}
  {l : CallLabel Req Resp}

lemma callback_item {kind : CallbackKind} (h : p.callback = some (kind, p')) :
    p.item = none ∧ p'.item = none := by
  cases p <;> cases h <;> exact ⟨rfl, rfl⟩

lemma ofEvent_item (tag : Tag) (ok : Bool) : (Phase.ofEvent tag ok : Phase Resp).item = none := by
  cases tag <;> cases ok <;> rfl

lemma afterClose_item (shared : Bool) : (Phase.afterClose shared : Phase Resp).item = none := by
  cases shared <;> rfl

lemma turn_order (h : Sends c acts p) (ht : Turn c acts p l c' acts' p') :
    c'.rpc.sends ++ (p'.item.toList ++ c'.rpc.sendQueue).map (sendOp c'.rpc.rpcType) =
      c'.rpc.enqueued.map (sendOp c'.rpc.rpcType) := by
  have ho := h.order
  rw [turn_rpcType ht]
  cases ht with
  | writerEnqueue _ | enqueueMessage =>
    simp only [Rpc.enqueueMessage, ← List.append_assoc, List.map_append] at ho ⊢
    rw [ho]
  | handle =>
    rw [ofEvent_item]
    exact ho
  | callback hp _ =>
    rw [(callback_item hp).1] at ho
    rw [(callback_item hp).2]
    exact ho
  | takeFinish hq _ _ _ | takeWrite hq _ _ _ _ =>
    rw [hq] at ho
    exact ho
  | performFinish hop =>
    rw [(finishOp_eq hop).1]
    exact (List.append_assoc _ [_] _).trans ho
  | performWrite hmsg hstream =>
    simp only [Phase.item, Option.toList_some, List.cons_append, List.map_cons, sendOp, hmsg,
      hstream] at ho
    exact (List.append_assoc _ [_] _).trans ho
  | keep _ | erase _ =>
    rw [afterClose_item]
    exact ho
  | _ => exact ho

lemma turn_finishes (h : Sends c acts p) (ht : Turn c acts p l c' acts' p') :
    c'.rpc.sends.countP SendOp.isFinish =
      c'.rpc.handled.countP (fun h => h.1 = .finish) + (c'.rpc.isRpcEventPending .finish).toNat := by
  have hf := h.finishes
  cases ht with
  | pushToEventQueue _ =>
    rw [setOk_pending]
    exact hf
  | @handle tag as =>
    have hhandled : (c.rpc.startHandling tag).handled =
        c.rpc.handled ++ [(tag, (c.rpc.event tag).ok)] := rfl
    have hsends : (c.rpc.startHandling tag).sends = c.rpc.sends := rfl
    rw [startHandling_pending, hhandled, hsends, List.countP_append, hf]
    by_cases he : tag = .finish
    · subst he
      rw [h.lives.accounts.pending_of_handle]
      simp
    · simp [he, Ne.symm he]
  | startRead _ =>
    rw [startOp_pending]
    exact hf
  | @performFinish e as item op hop =>
    have hidle := (h.lives.accounts.performing (by simp [Phase.item])).2
    rw [hidle, Bool.toNat_false, Nat.add_zero] at hf
    have hcount : (c.rpc.sends ++ [op]).countP SendOp.isFinish =
        c.rpc.sends.countP SendOp.isFinish + 1 := by
      simp [(finishOp_eq hop).2]
    refine hcount.trans ?_
    rw [hf]
    exact congrArg _ (congrArg Bool.toNat (startOp_pending c.rpc .finish .finish)).symm
  | @performWrite e as item m hmsg hstream =>
    have hcount : (c.rpc.sends ++ [SendOp.write m]).countP SendOp.isFinish =
        c.rpc.sends.countP SendOp.isFinish := by
      simp [SendOp.isFinish]
    refine hcount.trans (hf.trans ?_)
    exact congrArg _ (congrArg Bool.toNat (startOp_pending c.rpc .write .finish)).symm
  | _ => exact hf

lemma mem_set_of_ne {α : Type} {as : List α} {i : Nat} {a w w₀ : α} (hi : as[i]? = some w₀)
    (hw : w ∈ as) (hne : w ≠ w₀) : w ∈ as.set i a := by
  obtain ⟨j, hj⟩ := List.mem_iff_getElem?.mp hw
  have hij : i ≠ j := by
    rintro rfl
    exact hne (Option.some.inj (hj.symm.trans hi))
  exact List.mem_iff_getElem?.mpr ⟨j, by rw [List.getElem?_set_ne hij, hj]⟩

lemma mem_set_self {α : Type} {as : List α} {i : Nat} {a w₀ : α} (hi : as[i]? = some w₀) :
    a ∈ as.set i a :=
  List.mem_set (List.getElem?_eq_some_iff.mp hi).1 a

/-- A step of a `Writer` call leaves the other calls where they stand. -/
lemma exists_beforePush_set {calls : List (WriterCall Resp)} {i : Nat} {w₀ a : WriterCall Resp}
    (hi : calls[i]? = some w₀) (ha : w₀.beforePush = true → a.beforePush = true)
    (h : ∃ w ∈ calls, w.beforePush = true) : ∃ w ∈ calls.set i a, w.beforePush = true := by
  obtain ⟨w, hw, hb⟩ := h
  by_cases he : w = w₀
  · subst he
    exact ⟨a, mem_set_self hi, ha hb⟩
  · exact ⟨w, mem_set_of_ne hi hw he, hb⟩

lemma Woken.imp (h : Woken c acts p)
    (hwrite : c.rpc.isRpcEventPending .write = true → c'.rpc.isRpcEventPending .write = true)
    (hsends : c'.rpc.sends = c.rpc.sends) (hmail : .internal ∈ c.mailbox → .internal ∈ c'.mailbox)
    (hwriters : (∃ w ∈ c.writers, w.beforePush = true) → ∃ w ∈ c'.writers, w.beforePush = true)
    (hacts : .pushWriteNeeded ∈ acts → .pushWriteNeeded ∈ acts')
    (hphase : p.looksAtQueue = true → p'.looksAtQueue = true) : Woken c' acts' p' := by
  refine Or.imp hwrite (Or.imp ?_ (Or.imp hmail (Or.imp hwriters (Or.imp hacts hphase)))) h
  rw [hsends]
  exact id

lemma Woken.setWriters (h : Woken c acts p) {i : Nat} {w₀ a : WriterCall Resp}
    (hi : c.writers[i]? = some w₀) (ha : w₀.beforePush = true → a.beforePush = true) :
    Woken { c with writers := c.writers.set i a } acts p :=
  h.imp id rfl id (exists_beforePush_set hi ha) id id

lemma callback_looksAtQueue {kind : CallbackKind} (h : p.callback = some (kind, p')) :
    p.looksAtQueue = false := by
  cases p <;> first | rfl | cases h

lemma Sends.exists_finish (h : Sends c acts p) (hf : c.rpc.isRpcEventPending .finish = true) :
    ∃ op ∈ c.rpc.sends, op.isFinish = true := by
  have hcount := h.finishes
  rw [hf, Bool.toNat_true] at hcount
  exact List.countP_pos_iff.mp (by omega)

lemma turn_wake (h : Sends c acts p) (hat : At c acts p) (ht : Turn c acts p l c' acts' p')
    (hactive : c'.active = true) (hq : c'.rpc.sendQueue ≠ []) : Woken c' acts' p' := by
  have hw := h.wake
  cases ht with
  | pushToEventQueue _ =>
    exact (hw hactive hq).imp (fun hp => by simpa using hp) rfl (List.mem_append_left _) id id id
  | pop hmail =>
    exact (hw hactive hq).imp id rfl (fun hm => by simpa [hmail] using hm) id id (fun hl => by cases hl)
  | callWriter _ =>
    refine (hw hactive hq).imp id rfl id ?_ id id
    rintro ⟨w, hmem, hb⟩
    exact ⟨w, List.mem_append_left _ hmem, hb⟩
  | writerLock hi _ => exact (hw hactive hq).setWriters hi (by simp [WriterCall.beforePush])
  | writerExpired hi _ => exact (hw hactive hq).setWriters hi (by simp [WriterCall.beforePush])
  | writerEnqueue hi => exact .inr (.inr (.inr (.inl ⟨_, mem_set_self hi, rfl⟩)))
  | writerLookUp hi _ => exact (hw hactive hq).setWriters hi (fun _ => rfl)
  | writerPush hi => exact .inr (.inr (.inl (by simp)))
  | writerReturn hi => exact (hw hactive hq).setWriters hi (by simp [WriterCall.beforePush])
  | enqueueMessage => exact .inr (.inr (.inr (.inr (.inl hat.wakes.1))))
  | getWeakPtr _ | getWriter _ =>
    exact (hw hactive hq).imp id rfl id id (fun hm => by simpa using hm) id
  | pushWriteNeeded => exact .inr (.inr (.inl (by simp)))
  | @handle tag as =>
    by_cases he : tag = .write
    · subst he
      exact .inr (.inr (.inr (.inr (.inr rfl))))
    · refine (hw hactive hq).imp (fun hp => ?_) rfl id id id (fun hl => by cases hl)
      simpa [Ne.symm he] using hp
  | stale halive => simp [Call.alive, show c.active = true from hactive] at halive
  | remove | erase _ => cases hactive
  | callback hp _ =>
    refine (hw hactive hq).imp id rfl id id (fun hl => by cases hl) (fun hl => ?_)
    exact absurd ((callback_looksAtQueue hp).symm.trans hl) (by simp)
  | keepQueue hkeep =>
    rcases hkeep with hk | hk | hk
    · exact absurd hk hq
    · exact .inl hk
    · exact .inr (.inl (h.exists_finish hk))
  | startRead _ =>
    exact (hw hactive hq).imp (fun hp => by simpa using hp) rfl id id id (fun hl => by cases hl)
  | performFinish hop => exact .inr (.inl ⟨_, by simp, (finishOp_eq hop).2⟩)
  | performWrite _ _ => exact .inl (startOp_pending c.rpc .write .write)
  | keep _ =>
    rename_i shared as _
    cases shared <;> exact hw hactive hq
  | popInternal _ | handleInternal _ | takeFinish _ _ _ _ | takeWrite _ _ _ _ _ =>
    exact .inr (.inr (.inr (.inr (.inr rfl))))
  | _ => exact hw hactive hq

lemma turn_writers (h : c.writers = []) (hl : ∀ method, l ≠ .callWriter method)
    (ht : Turn c acts p l c' acts' p') : c'.writers = [] := by
  cases ht with
  | callWriter _ => exact absurd rfl (hl _)
  | writerLock hw _ | writerExpired hw _ | writerEnqueue hw | writerLookUp hw _ | writerPush hw
  | writerReturn hw =>
    rw [h] at hw
    cases hw
  | _ => exact h

/-! ### What becomes of the items -/

lemma unsent_instrs (acts : List (HandlerAction Resp)) :
    unsent (acts.flatMap HandlerAction.instrs) = acts.filterMap HandlerAction.item := by
  unfold unsent
  induction acts with
  | nil => rfl
  | cons a acts ih =>
    rw [List.flatMap_cons, List.filterMap_append, ih]
    cases a <;> rfl

/-- A step of a `Writer` call is between two states of one call, beside the other calls. -/
lemma acceptedItems_set {calls : List (WriterCall Resp)} {i : Nat} {w : WriterCall Resp}
    (hi : calls[i]? = some w) (a : WriterCall Resp) : ∃ others,
      acceptedItems calls ~ acceptedItems [w] ++ others ∧
      acceptedItems (calls.set i a) ~ acceptedItems [a] ++ others := by
  obtain ⟨hlt, rfl⟩ := List.getElem?_eq_some_iff.mp hi
  have hold := (List.getElem_cons_eraseIdx_perm hlt).symm
  have hnew := List.set_perm_cons_eraseIdx hlt a
  refine ⟨acceptedItems (calls.eraseIdx i), ?_, ?_⟩
  · simpa [acceptedItems, ← List.map_append, ← List.filter_append] using
      (hold.filter accepted).map WriterCall.item
  · simpa [acceptedItems, ← List.map_append, ← List.filter_append] using
      (hnew.filter accepted).map WriterCall.item

/-- A step that is not the one that enqueues leaves the accepted items as they are. -/
lemma acceptedItems_set_of_eq {calls : List (WriterCall Resp)} {i : Nat} {w a : WriterCall Resp}
    (hi : calls[i]? = some w) (ha : acceptedItems [a] = acceptedItems [w]) :
    acceptedItems (calls.set i a) ~ acceptedItems calls := by
  obtain ⟨others, hold, hnew⟩ := acceptedItems_set hi a
  rw [ha] at hnew
  exact hnew.trans hold.symm

lemma turn_conserved (h : Sends c acts p) (ht : Turn c acts p l c' acts' p') :
    ∃ handed, Conserved c' acts' handed := by
  obtain ⟨handed, hc⟩ := h.conserved
  have hwriter : ∀ {i : Nat} {w a : WriterCall Resp}, c.writers[i]? = some w →
      acceptedItems [a] = acceptedItems [w] →
      c.rpc.enqueued ~ handed ++ acceptedItems (c.writers.set i a) := by
    intro i w a hi ha
    exact hc.accounted.trans ((acceptedItems_set_of_eq hi ha).symm.append_left handed)
  cases ht with
  | callWriter _ =>
    refine ⟨handed, hc.passed, hc.ordered, ?_⟩
    simpa [acceptedItems, accepted] using hc.accounted
  | writerLock hi _ | writerExpired hi _ | writerLookUp hi _ | writerPush hi | writerReturn hi =>
    exact ⟨handed, hc.passed, hc.ordered, hwriter hi rfl⟩
  | @writerEnqueue _ _ i item hi =>
    -- Only here is an item accepted that the handler has not passed.
    refine ⟨handed, hc.passed, hc.ordered.trans (List.sublist_append_left _ _), ?_⟩
    obtain ⟨others, hold, hnew⟩ := acceptedItems_set hi ⟨item, .enqueued⟩
    calc c.rpc.enqueued ++ [item]
      _ ~ item :: c.rpc.enqueued := List.perm_append_singleton _ _
      _ ~ item :: (handed ++ others) := (hc.accounted.trans (hold.append_left handed)).cons item
      _ ~ handed ++ item :: others := List.perm_middle.symm
      _ ~ handed ++ acceptedItems (c.writers.set i ⟨item, .enqueued⟩) :=
        hnew.symm.append_left handed
  | @enqueueMessage acts _ _ item =>
    -- The first of the items still to be enqueued is handed over.
    refine ⟨handed ++ [item], ?_, hc.ordered.append (List.Sublist.refl _), ?_⟩
    · exact hc.passed.trans (List.append_assoc _ [_] _).symm
    · calc c.rpc.enqueued ++ [item]
        _ ~ item :: (handed ++ acceptedItems c.writers) :=
          (List.perm_append_singleton _ _).trans (hc.accounted.cons item)
        _ ~ handed ++ [item] ++ acceptedItems c.writers := by
          rw [List.append_assoc]
          exact List.perm_middle.symm
  | @callback _ kind _ as _ _ =>
    -- The sends of the callback before have all been made.
    have hpassed : c.rpc.passed = handed := hc.passed.trans (List.append_nil _)
    refine ⟨handed, ?_, hc.ordered, hc.accounted⟩
    rw [unsent_instrs, ← hpassed]
  | _ => exact ⟨handed, hc.passed, hc.ordered, hc.accounted⟩

/-- While the `Rpc` is in `ActiveRpcs`, no `Writer` call finds its weak pointer expired. -/
lemma turn_unexpired (h : Sends c acts p) (ht : Turn c acts p l c' acts' p')
    (hactive : c'.active = true) : ∀ w ∈ c'.writers, w.pc ≠ .returned false := by
  have hold := h.unexpired
  have hset : ∀ (i : Nat) (a : WriterCall Resp), c.active = true → a.pc ≠ .returned false →
      ∀ w ∈ c.writers.set i a, w.pc ≠ .returned false := by
    intro i a hactive ha w hw
    rcases List.mem_or_eq_of_mem_set hw with hw | rfl
    · exact hold hactive w hw
    · exact ha
  cases ht with
  | callWriter _ =>
    intro w hw
    rcases List.mem_append.mp hw with hw | hw
    · exact hold hactive w hw
    · rw [List.mem_singleton.mp hw]
      simp
  | writerLock _ _ | writerEnqueue _ | writerLookUp _ _ | writerPush _ | writerReturn _ =>
    exact hset _ _ hactive (by simp)
  | writerExpired _ halive => simp [Call.alive, show c.active = true from hactive] at halive
  | remove | erase _ => cases hactive
  | _ => exact hold hactive

theorem turn_sends (h : Sends c acts p) (hat : At c acts p) (ht : Turn c acts p l c' acts' p') :
    Sends c' acts' p' where
  lives := turn_lives h.lives ht
  order := turn_order h ht
  finishes := turn_finishes h ht
  wake := turn_wake h hat ht
  conserved := turn_conserved h ht
  unexpired := turn_unexpired h ht

lemma listening_sends (h : (callSystem Req Resp).init c) : Sends c [] .idle := by
  refine ⟨listening_lives h, ?_, ?_, ?_, ?_, ?_⟩ <;>
    obtain ⟨methodIndex, cq, queue, info, service, parent, shuttingDown, rfl⟩ := h
  · rfl
  · rfl
  · intro _ hq
    exact absurd rfl hq
  · exact ⟨[], rfl, List.Sublist.refl _, List.Perm.refl _⟩
  · intro _ w hw
    cases hw

/-! ### A call at rest -/

lemma accepted_of_isReturned {w : WriterCall Resp} (h : w.isReturned = true)
    (hpc : w.pc ≠ .returned false) : accepted w = true := by
  unfold WriterCall.isReturned at h
  split at h
  next result hw =>
    cases result with
    | true => simp [accepted, hw]
    | false => exact absurd hw hpc
  all_goals cases h

lemma Sends.sends_of_queue (h : Sends c acts .idle) (hqueue : c.rpc.sendQueue = []) :
    c.rpc.sends = c.rpc.enqueued.map (sendOp c.rpc.rpcType) := by
  have horder : c.rpc.sends ++ c.rpc.sendQueue.map (sendOp c.rpc.rpcType) =
    c.rpc.enqueued.map (sendOp c.rpc.rpcType) := h.order
  rwa [hqueue, List.map_nil, List.append_nil] at horder

/-- Once every `Writer` call on an `Rpc` of `ActiveRpcs` has returned and no send of a callback is
left, the queue has accepted what the handler and the `Writer` calls passed, and nothing else. -/
lemma Sends.enqueued_perm (h : Sends c [] p) (hactive : c.active = true)
    (hreturned : ∀ w ∈ c.writers, w.isReturned = true) :
    c.rpc.enqueued ~ c.rpc.passed ++ c.writers.map WriterCall.item ∧
      c.rpc.passed <+ c.rpc.enqueued := by
  obtain ⟨handed, hc⟩ := h.conserved
  have hpassed : c.rpc.passed = handed := hc.passed.trans (List.append_nil _)
  have haccepted : c.writers.filter accepted = c.writers := by
    rw [List.filter_eq_self]
    intro w hw
    exact accepted_of_isReturned (hreturned w hw) (h.unexpired hactive w hw)
  have haccounted := hc.accounted
  rw [acceptedItems, haccepted, ← hpassed] at haccounted
  exact ⟨haccounted, hpassed ▸ hc.ordered⟩

end Turns

theorem reachable_sends {c : Call Req Resp} (hc : (callSystem Req Resp).Reachable c) :
    ∃ acts p, At c acts p ∧ Sends c acts p :=
  reach_staged (fun _ => listening_sends) (fun _ _ _ _ _ _ _ hat h _ ht => turn_sends h hat ht) hc

/-! ### The send queues of a server -/

/-- The operation gRPC is reading `response_` for keeps it as it is. -/
lemma turn_response {c c' : Call Req Resp} {acts acts' : List (Instr Resp)} {p p' : Phase Resp}
    {l : CallLabel Req Resp} (h : Accounts c acts p) (ht : Turn c acts p l c' acts' p')
    (hpending : c.rpc.isRpcEventPending .write = true ∨ c.rpc.isRpcEventPending .finish = true) :
    c'.rpc.response = c.rpc.response := by
  cases ht with
  | performFinish _ | performWrite _ _ =>
    have hidle := h.performing (by simp [Phase.item])
    simp [hidle.1, hidle.2] at hpending
  | _ => rfl

lemma outstanding_sends_le {s : Server Req Resp}
    (hs : (serverSystem Req Resp options maps).Reachable s) {r : Nat} (hr : r < s.nextRpc)
    (hR : (s.rpcs r).Routed) : outstanding s r .write + outstanding s r .finish ≤ 1 := by
  obtain ⟨acts, p, -, hsends⟩ := reachable_sends (reachable_call hs hr hR)
  rw [outstanding_eq_pending hs hr hR, outstanding_eq_pending hs hr hR]
  rcases hsends.lives.accounts.sending with h | h
  · rw [show (s.rpcs r).isRpcEventPending .write = false from h]
    simpa using Bool.toNat_le _
  · rw [show (s.rpcs r).isRpcEventPending .finish = false from h]
    simpa using Bool.toNat_le _

lemma response_of_outstanding {s s' : Server Req Resp} {l : Label Req Resp}
    (hs : (serverSystem Req Resp options maps).Reachable s) {r : Nat} (hr : r < s.nextRpc)
    (hR : (s.rpcs r).Routed) (hstep : s.step l = some s')
    (hpos : 0 < outstanding s r .write + outstanding s r .finish) :
    (s'.rpcs r).response = (s.rpcs r).response := by
  obtain ⟨acts, p, hat, hsends⟩ := reachable_sends (reachable_call hs hr hR)
  rw [outstanding_eq_pending hs hr hR, outstanding_eq_pending hs hr hR] at hpos
  have hpending : (s.rpcs r).isRpcEventPending .write = true ∨
      (s.rpcs r).isRpcEventPending .finish = true := by
    by_contra hc
    rw [not_or, Bool.not_eq_true, Bool.not_eq_true] at hc
    simp [hc.1, hc.2] at hpos
  rcases moves_call (step_moves hstep).2 (reachable_housed hs) hr hR with he | ⟨m, -, hcall⟩
  · exact congrArg (fun c => c.rpc.response) he
  · obtain ⟨acts', p', -, ht⟩ := step_turn hat hcall
    exact turn_response hsends.lives.accounts ht hpending

/-- With one event thread: between two event handlings the operations started followed by the
items still queued are the items accepted, in order; at most one `Write` or `Finish` is ever
outstanding; and no step changes `response_` while one is. -/
theorem ordered_lossless_send_queue (hn : options.numEventThreads = 1) {s : Server Req Resp}
    (hs : (serverSystem Req Resp options maps).Reachable s) {r : Nat} (hr : r < s.nextRpc) :
    ((s.tasks 0).code = [] → (s.rpcs r).sends ++ (s.rpcs r).sendQueue.map (sendOp (s.rpcs r).rpcType) =
        (s.rpcs r).enqueued.map (sendOp (s.rpcs r).rpcType)) ∧
      outstanding s r .write + outstanding s r .finish ≤ 1 ∧
      ∀ l s', s.step l = some s' → 0 < outstanding s r .write + outstanding s r .finish →
        (s'.rpcs r).response = (s.rpcs r).response := by
  obtain ⟨hR, hq⟩ := routed_of_one_thread hn hs hr
  refine ⟨fun hidle => ?_, outstanding_sends_le hs hr hR,
    fun l s' hstep hpos => response_of_outstanding hs hr hR hstep hpos⟩
  obtain ⟨acts, p, hat, hsends⟩ := reachable_sends (reachable_call hs hr hR)
  obtain ⟨rfl, rfl⟩ := hat.code_eq_nil (call_code_idle hq hidle)
  exact hsends.order

/-- The handler answers the request of the first call with two messages, and the event thread
starts to write the first one. -/
def sendTwo : List (Label Nat Nat) :=
  event .newConnection true (some 12) ++ execs 5 ++ callback [.send 1, .send 2] ++ execs 8 ++
    writeNeeded 5

theorem ordered_lossless_send_queue_of_run :
    ∃ s, (serverSystem Nat Nat oneEventThread sequenceService).Reachable s ∧
      (s.tasks 0).code = [] ∧ (s.rpcs 0).sends = [.write 1] ∧ outstanding s 0 .write = 1 ∧
      (s.rpcs 0).sends ++ (s.rpcs 0).sendQueue.map (sendOp (s.rpcs 0).rpcType) =
        (s.rpcs 0).enqueued.map (sendOp (s.rpcs 0).rpcType) ∧
      outstanding s 0 .write + outstanding s 0 .finish ≤ 1 := by
  obtain ⟨s, hs, hp⟩ := exists_reachable oneEventThread sequenceService sendTwo
    (fun s => (s.tasks 0).code = [] ∧ (s.rpcs 0).sends = [.write 1] ∧
      outstanding s 0 .write = 1 ∧ 0 < s.nextRpc) (by decide +kernel)
  obtain ⟨hidle, hsends, hout, hr⟩ := of_decide_eq_true hp
  have h := ordered_lossless_send_queue rfl hs hr
  exact ⟨s, hs, hidle, hsends, hout, h.1 hidle, h.2.1⟩

/-! ### Wake-ups -/

lemma internal_mem_mailbox {s : Server Req Resp} {r : Nat} (h : .internal ∈ (s.call r).mailbox) :
    .internal r ∈ s.eventQueues (s.rpcs r).eventQueue := by
  obtain ⟨e, he, hmail⟩ := List.mem_map.mp h
  obtain ⟨hmem, hrpc⟩ := List.mem_filter.mp he
  cases e with
  | completion r' tag => cases hmail
  | internal r' =>
    rw [decide_eq_true_eq] at hrpc
    exact hrpc ▸ hmem

/-- No lost wake-up with one event thread. Between two event handlings, for an `Rpc` in
`ActiveRpcs` whose `Finish` was not started: if items are queued, then a `Write` is
outstanding, or a `WRITE_NEEDED` event is queued, or a `Writer` call is about to push one.
Without any of these, and with every `Writer` call returned, the operations started on gRPC carry
what the handler passed to `Send` and `Finish` in its callbacks, in that order, and what the
`Writer` calls passed: each item once, and no others. -/
theorem no_lost_wakeup (hn : options.numEventThreads = 1) {s : Server Req Resp}
    (hs : (serverSystem Req Resp options maps).Reachable s) (hidle : (s.tasks 0).code = [])
    {v r : Nat} (hactive : r ∈ (s.services v).activeRpcs)
    (hunfinished : ∀ op ∈ (s.rpcs r).sends, op.isFinish = false) :
    ((s.rpcs r).sendQueue ≠ [] → 0 < outstanding s r .write ∨
        .internal r ∈ s.eventQueues (s.rpcs r).eventQueue ∨
        ∃ w ∈ s.writers r, w.beforePush = true) ∧
      (outstanding s r .write = 0 → (∀ e ∈ s.eventQueues (s.rpcs r).eventQueue, e.rpc ≠ r) →
        (∀ w ∈ s.writers r, w.isReturned = true) →
        (s.rpcs r).sends = (s.rpcs r).enqueued.map (sendOp (s.rpcs r).rpcType) ∧
          (s.rpcs r).sends ~ ((s.rpcs r).passed ++ (s.writers r).map WriterCall.item).map
            (sendOp (s.rpcs r).rpcType) ∧
          (s.rpcs r).passed.map (sendOp (s.rpcs r).rpcType) <+ (s.rpcs r).sends) := by
  obtain ⟨hr, hv⟩ := (reachable_housed hs).activeRpcs v r hactive
  obtain ⟨hR, hq⟩ := routed_of_one_thread hn hs hr
  obtain ⟨acts, p, hat, hsends⟩ := reachable_sends (reachable_call hs hr hR)
  obtain ⟨rfl, rfl⟩ := hat.code_eq_nil (call_code_idle hq hidle)
  have hact : s.active r = true := by simpa [Server.active, hv] using hactive
  have hwoken : (s.rpcs r).sendQueue ≠ [] → 0 < outstanding s r .write ∨
      .internal r ∈ s.eventQueues (s.rpcs r).eventQueue ∨
      ∃ w ∈ s.writers r, w.beforePush = true := by
    intro hqueue
    rcases hsends.wake hact hqueue with h | ⟨op, hop, hf⟩ | h | h | h | h
    · left
      rw [outstanding_eq_pending hs hr hR, show (s.rpcs r).isRpcEventPending .write = true from h]
      exact Nat.one_pos
    · exact absurd ((hunfinished op hop).symm.trans hf) (by simp)
    · exact .inr (.inl (internal_mem_mailbox h))
    · exact .inr (.inr h)
    · cases h
    · cases h
  refine ⟨hwoken, fun hout hqueued hreturned => ?_⟩
  have hempty : (s.rpcs r).sendQueue = [] := by
    by_contra hne
    rcases hwoken hne with h | h | ⟨w, hw, hb⟩
    · omega
    · exact hqueued _ h rfl
    · have hret := hreturned w hw
      cases hpc : w.pc <;> simp [WriterCall.isReturned, WriterCall.beforePush, hpc] at hret hb
  have horder : (s.rpcs r).sends = (s.rpcs r).enqueued.map (sendOp (s.rpcs r).rpcType) :=
    hsends.sends_of_queue hempty
  obtain ⟨hperm, hpassed⟩ := hsends.enqueued_perm hact hreturned
  refine ⟨horder, ?_, ?_⟩ <;> rw [horder]
  · exact hperm.map _
  · exact hpassed.map _

/-- The handler answers the request of the first call with a message, and another thread writes a
second one through a `Writer`. -/
def sendAndWrite : List (Label Nat Nat) :=
  event .newConnection true (some 12) ++ execs 5 ++ callback [.send 1, .getWriter] ++ execs 6 ++
    .callWriter 0 (.write 2) :: List.replicate 5 (.stepWriter 0 0)

/-- Both messages are written, one after the other, and the event thread comes to rest. The first
`Write` completes before its event is handled, and the second `WRITE_NEEDED`, which is handled in
between, sends nothing. -/
def writeBoth : List (Label Nat Nat) :=
  writeNeeded 5 ++ [.next 0 0 .write true none, .pushToEventQueue 0] ++ writeNeeded 4 ++
    .pop 0 :: execs 4 ++ event .write true none ++ execs 3

/-- A message is queued while another one is written; and once both are written they are what was
passed to `Send` and to the `Writer`. -/
theorem no_lost_wakeup_of_run :
    (∃ s, (serverSystem Nat Nat oneEventThread sequenceService).Reachable s ∧
      (s.tasks 0).code = [] ∧ 0 ∈ (s.services 0).activeRpcs ∧ (s.rpcs 0).sendQueue ≠ [] ∧
      (0 < outstanding s 0 .write ∨ .internal 0 ∈ s.eventQueues (s.rpcs 0).eventQueue ∨
        ∃ w ∈ s.writers 0, w.beforePush = true)) ∧
    ∃ s, (serverSystem Nat Nat oneEventThread sequenceService).Reachable s ∧
      (s.tasks 0).code = [] ∧ 0 ∈ (s.services 0).activeRpcs ∧ outstanding s 0 .write = 0 ∧
      (s.rpcs 0).passed = [⟨some 1, .ok⟩] ∧ s.writers 0 = [⟨⟨some 2, .ok⟩, .returned true⟩] ∧
      (s.rpcs 0).sends ~ [.write 1, .write 2] := by
  constructor
  · obtain ⟨s, hs, hp⟩ := exists_reachable oneEventThread sequenceService sendTwo
      (fun s => (s.tasks 0).code = [] ∧ 0 ∈ (s.services 0).activeRpcs ∧ (s.rpcs 0).sendQueue ≠ [] ∧
        ∀ op ∈ (s.rpcs 0).sends, op.isFinish = false) (by decide +kernel)
    obtain ⟨hidle, hactive, hqueue, hunfinished⟩ := of_decide_eq_true hp
    exact ⟨s, hs, hidle, hactive, hqueue,
      (no_lost_wakeup rfl hs hidle hactive hunfinished).1 hqueue⟩
  · obtain ⟨s, hs, hp⟩ := exists_reachable oneEventThread sequenceService
      (sendAndWrite ++ writeBoth)
      (fun s => (s.tasks 0).code = [] ∧ 0 ∈ (s.services 0).activeRpcs ∧
        outstanding s 0 .write = 0 ∧ s.eventQueues (s.rpcs 0).eventQueue = [] ∧
        (s.rpcs 0).rpcType = .serverStreaming ∧ (s.rpcs 0).passed = [⟨some 1, .ok⟩] ∧
        s.writers 0 = [⟨⟨some 2, .ok⟩, .returned true⟩] ∧
        ∀ op ∈ (s.rpcs 0).sends, op.isFinish = false) (by decide +kernel)
    obtain ⟨hidle, hactive, hout, hqueue, htype, hpassed, hwriters, hunfinished⟩ :=
      of_decide_eq_true hp
    have h := (no_lost_wakeup rfl hs hidle hactive hunfinished).2 hout (by simp [hqueue])
      (by simp [hwriters, WriterCall.isReturned])
    rw [hpassed, hwriters, htype] at h
    exact ⟨s, hs, hidle, hactive, hout, hpassed, hwriters, h.2.1⟩

/-! ### Several event threads -/

/-- Of any server, however many event threads it has: an `Rpc` whose `WRITE_NEEDED` events go
to the queue of its completion queue events never has two `Write` or `Finish` operations
outstanding, and starts them in the order in which their items were enqueued. -/
theorem no_overlapping_sends {s : Server Req Resp}
    (hs : (serverSystem Req Resp options maps).Reachable s) {r : Nat} (hr : r < s.nextRpc)
    (hR : ∀ tag, ((s.rpcs r).event tag).eventQueue = (s.rpcs r).eventQueue) :
    outstanding s r .write + outstanding s r .finish ≤ 1 ∧
      (s.rpcs r).sends <+: (s.rpcs r).enqueued.map (sendOp (s.rpcs r).rpcType) := by
  obtain ⟨acts, p, -, hsends⟩ := reachable_sends (reachable_call hs hr hR)
  exact ⟨outstanding_sends_le hs hr hR, _, hsends.order⟩

theorem no_overlapping_sends_of_run :
    ∃ s, (serverSystem Nat Nat twoEventThreads sequenceService).Reachable s ∧ 0 < s.nextRpc ∧
      (∀ tag, ((s.rpcs 0).event tag).eventQueue = (s.rpcs 0).eventQueue) ∧
      outstanding s 0 .write + outstanding s 0 .finish ≤ 1 ∧
      (s.rpcs 0).sends <+: (s.rpcs 0).enqueued.map (sendOp (s.rpcs 0).rpcType) := by
  obtain ⟨s, hs, hp⟩ := exists_reachable twoEventThreads sequenceService firstConnection
    (fun s => 0 < s.nextRpc ∧
      ∀ tag ∈ Tag.all, ((s.rpcs 0).event tag).eventQueue = (s.rpcs 0).eventQueue) (by decide +kernel)
  obtain ⟨hr, hall⟩ := of_decide_eq_true hp
  have hR : ∀ tag, ((s.rpcs 0).event tag).eventQueue = (s.rpcs 0).eventQueue :=
    fun tag => hall tag tag.mem_all
  exact ⟨s, hs, hr, hR, no_overlapping_sends hs hr hR⟩

/-- A client connects to the clone, whose handler sends three messages on event thread 1. -/
def sendThree : List (Label Nat Nat) :=
  [.next 0 1 .newConnection true (some 5), .pushToEventQueue 0, .pop 1] ++
    List.replicate 5 (.exec 1 []) ++ [.exec 1 [.send 1, .send 2, .send 3]] ++
    List.replicate 11 (.exec 1 [])

/-- Event thread 0 writes the first message. When the write has completed, event thread 1
takes the second message off the queue, and event thread 0 starts the third before event
thread 1 starts the second. -/
def overlap : List (Label Nat Nat) :=
  writeNeeded 5 ++ [.next 0 1 .write true none, .pushToEventQueue 0, .pop 1, .exec 1 [], .exec 1 []] ++
    writeNeeded 3 ++ [.exec 1 []]

/-- The clone of a server with two event threads has two `Write` operations outstanding, which
were started out of order. -/
theorem overlapping_sends_of_two_threads :
    ∃ s, (serverSystem Nat Nat twoEventThreads sequenceService).Reachable s ∧ 1 < s.nextRpc ∧
      (s.rpcs 1).rpcType = .serverStreaming ∧ outstanding s 1 .write = 2 ∧
      (s.rpcs 1).enqueued.map (sendOp (s.rpcs 1).rpcType) = [.write 1, .write 2, .write 3] ∧
      (s.rpcs 1).sends = [.write 1, .write 3, .write 2] := by
  obtain ⟨s, hs, hp⟩ := exists_reachable twoEventThreads sequenceService
    (firstConnection ++ sendThree ++ overlap)
    (fun s => 1 < s.nextRpc ∧ (s.rpcs 1).rpcType = .serverStreaming ∧ outstanding s 1 .write = 2 ∧
      (s.rpcs 1).enqueued.map (sendOp (s.rpcs 1).rpcType) = [.write 1, .write 2, .write 3] ∧
      (s.rpcs 1).sends = [.write 1, .write 3, .write 2]) (by decide +kernel)
  exact ⟨s, hs, of_decide_eq_true hp⟩

end AsyncGrpc.Proofs
