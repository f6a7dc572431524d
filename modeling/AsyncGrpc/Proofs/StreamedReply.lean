import AsyncGrpc.Proofs.Served

/-!
# Streamed replies

A handler that streams its responses is a machine driven by its callbacks. As long as it sends
only from its callbacks and `Finish` is its last send, what the framework sends does not depend
on the order in which the operations of the call come back: it is what the handler puts out
when it is simply run over the requests.
-/

namespace AsyncGrpc.Proofs

open Function Transition

variable {σ Req Resp : Type} {options : Options} {maps : List (List (String × RpcHandlerInfo))}

def isSend : HandlerAction Resp → Bool
  | .send _ | .finish _ => true
  | .getWriter => false

/-- Run over the requests, the handler sends some messages and then calls `Finish`; and once it
has called `Finish` it sends nothing more, even if the framework cuts its requests short or
calls `OnFinish` before it has been told about all of them. -/
structure FinishesLast (M : Machine σ (Callback Req) (HandlerAction Resp)) (requests : List Req)
    (messages : List Resp) (status : Status) : Prop where
  plain : (M.outputs (plainRun requests)).filter isSend = messages.map .send ++ [.finish status]
  quiet : ∀ callbacks cb requests', requests' <+: requests →
    told (callbacks ++ [cb]) <+: plainRun requests' →
    (∃ status', .finish status' ∈ M.outputs callbacks) →
    ∀ a ∈ M.out (M.after callbacks) cb, isSend a = false

/-- The steps of a run in which the handler `M` serves the `Rpc` numbered `r` as in `ServedBy`, and
its client sends the given requests: the reads end with the last request or after `Finish`. -/
structure Serves (M : Machine σ (Callback Req) (HandlerAction Resp)) (requests : List Req) (r : Nat)
    (s : Server Req Resp) (l : Label Req Resp) : Prop extends ServedBy M r s l where
  request : ∀ cq tag ok request, l = .next cq r tag ok request →
    (s.rpcs r).delivered ++ request.toList <+: requests
  read : ∀ cq request, l = .next cq r .read false request →
    (s.rpcs r).delivered = requests ∨ ∃ op ∈ (s.rpcs r).sends, op.isFinish = true

/-- The same conditions on a step of a call. -/
structure CallServes (M : Machine σ (Callback Req) (HandlerAction Resp)) (requests : List Req)
    (c : Call Req Resp) (l : CallLabel Req Resp) : Prop extends CallServedBy M c l where
  request : ∀ tag ok request, l = .next tag ok request →
    c.rpc.delivered ++ request.toList <+: requests
  read : ∀ request, l = .next .read false request →
    c.rpc.delivered = requests ∨ ∃ op ∈ c.rpc.sends, op.isFinish = true

structure Replies (M : Machine σ (Callback Req) (HandlerAction Resp)) (requests : List Req)
    (c : Call Req Resp) (acts : List (Instr Resp)) (p : Phase Resp) : Prop
    extends ServedCall M c acts p where
  informs : Informs c acts p
  delivered : c.rpc.delivered <+: requests
  last : (.read, false) ∈ c.rpc.returned → c.rpc.delivered = requests ∨ Finished c
  plain : replies M c.rpc.callbacks <+: replies M (plainRun requests)
  complete : .onReadsDone ∈ c.rpc.callbacks →
    replies M c.rpc.callbacks = replies M (plainRun requests)
  finish : .onFinish ∈ c.rpc.callbacks → ∃ status, .finish status ∈ M.outputs c.rpc.callbacks

/-! ### What a handler sends -/

/-- An item without a message is the item of a `Finish`. -/
lemma exists_finish_iff {M : Machine σ (Callback Req) (HandlerAction Resp)}
    {callbacks : List (Callback Req)} : (∃ status, .finish status ∈ M.outputs callbacks) ↔
      ∃ item ∈ replies M callbacks, item.msg = none := by
  unfold replies
  constructor
  · rintro ⟨status, hmem⟩
    exact ⟨⟨none, status⟩, List.mem_filterMap.mpr ⟨_, hmem, rfl⟩, rfl⟩
  · rintro ⟨item, hmem, hmsg⟩
    obtain ⟨a, ha, hitem⟩ := List.mem_filterMap.mp hmem
    cases a with
    | send response =>
      cases hitem
      cases hmsg
    | finish status => exact ⟨status, ha⟩
    | getWriter => cases hitem

section Plain

variable {M : Machine σ (Callback Req) (HandlerAction Resp)} {requests : List Req}
  {messages : List Resp} {status : Status}

lemma FinishesLast.replies_plainRun (h : FinishesLast M requests messages status) :
    replies M (plainRun requests) = messages.map (fun m => ⟨some m, .ok⟩) ++ [⟨none, status⟩] := by
  have hfilter : ∀ acts : List (HandlerAction Resp),
      (acts.filter isSend).filterMap HandlerAction.item = acts.filterMap HandlerAction.item := by
    intro acts
    rw [List.filterMap_filter]
    congr 1
    funext a
    cases a <;> rfl
  unfold replies
  rw [← hfilter, h.plain, List.filterMap_append, List.filterMap_map]
  congr 1
  exact congrFun List.filterMap_eq_map messages

/-- What has been sent is all of the plain run once it contains the item of `Finish`. -/
lemma FinishesLast.replies_eq (h : FinishesLast M requests messages status)
    {callbacks : List (Callback Req)}
    (hinitial : replies M callbacks <+: replies M (plainRun requests))
    (hfinish : ∃ status, .finish status ∈ M.outputs callbacks) :
    replies M callbacks = replies M (plainRun requests) := by
  obtain ⟨item, hmem, hmsg⟩ := exists_finish_iff.mp hfinish
  rw [h.replies_plainRun] at hinitial ⊢
  refine (List.prefix_concat_iff.mp hinitial).resolve_right (fun hshort => ?_)
  obtain ⟨m, -, rfl⟩ := List.mem_map.mp (hshort.subset hmem)
  cases hmsg

lemma FinishesLast.exists_finish (h : FinishesLast M requests messages status)
    {callbacks : List (Callback Req)}
    (hcomplete : replies M callbacks = replies M (plainRun requests)) :
    ∃ status, .finish status ∈ M.outputs callbacks := by
  rw [exists_finish_iff, hcomplete, h.replies_plainRun]
  exact ⟨⟨none, status⟩, by simp, rfl⟩

/-- After `Finish` a callback enqueues nothing. -/
lemma FinishesLast.replies_quiet (h : FinishesLast M requests messages status)
    {callbacks : List (Callback Req)} {cb : Callback Req} {requests' : List Req}
    (hrequests : requests' <+: requests) (htold : told (callbacks ++ [cb]) <+: plainRun requests')
    (hfinish : ∃ status, .finish status ∈ M.outputs callbacks) :
    replies M (callbacks ++ [cb]) = replies M callbacks := by
  have hquiet := h.quiet callbacks cb requests' hrequests htold hfinish
  have hnil : (M.out (M.after callbacks) cb).filterMap HandlerAction.item = [] := by
    rw [List.filterMap_eq_nil_iff]
    intro a ha
    have hsend := hquiet a ha
    cases a with
    | getWriter => rfl
    | send _ | finish _ => cases hsend
  rw [replies_concat, hnil, List.append_nil]

end Plain

/-! ### Turns of a call that is served -/

section Turns

variable {M : Machine σ (Callback Req) (HandlerAction Resp)} {requests : List Req}
  {messages : List Resp} {status : Status} {c c' : Call Req Resp} {acts acts' : List (Instr Resp)}
  {p p' : Phase Resp} {l : CallLabel Req Resp}

/-- A `Finish` that was started was called by the handler. -/
lemma Replies.exists_finish (h : Replies M requests c acts p)
    (hstream : c.rpc.rpcType.streamsResponses = true) (hfinished : Finished c) :
    ∃ status, .finish status ∈ M.outputs c.rpc.callbacks := by
  obtain ⟨op, hop, hf⟩ := hfinished
  obtain ⟨item, hitem, rfl⟩ := h.exists_item hop
  refine exists_finish_iff.mpr ⟨item, hitem, ?_⟩
  cases hmsg : item.msg with
  | none => rfl
  | some m => simp [sendOp, hmsg, hstream, SendOp.isFinish] at hf

lemma turn_delivered (h : Replies M requests c acts p) (hg : CallServes M requests c l)
    (ht : Turn c acts p l c' acts' p') : c'.rpc.delivered <+: requests := by
  cases ht with
  | next _ _ => exact hg.request _ _ _ rfl
  | _ => exact h.delivered

lemma turn_last (h : Replies M requests c acts p) (hg : CallServes M requests c l)
    (ht : Turn c acts p l c' acts' p') (hmem : (.read, false) ∈ c'.rpc.returned) :
    c'.rpc.delivered = requests ∨ Finished c' := by
  cases ht with
  | @next _ _ tag ok request _ hmay =>
    have hold : c.rpc.delivered = requests ∨ Finished c := by
      rcases List.mem_append.mp hmem with hmem | hmem
      · exact h.last hmem
      · cases List.mem_singleton.mp hmem
        exact hg.read request rfl
    refine hold.imp_left (fun hall => ?_)
    -- No request is left that could have come with the tag.
    have hmore := hg.request tag ok request rfl
    have hlen := hmore.length_le
    rw [hall, List.length_append] at hlen
    have hnil : request.toList = [] := List.eq_nil_of_length_eq_zero (by omega)
    change c.rpc.delivered ++ request.toList = requests
    rw [hnil, List.append_nil, hall]
  | performFinish _ | performWrite _ _ =>
    exact (h.last hmem).imp_right (fun ⟨op, hop, hf⟩ => ⟨op, List.mem_append_left _ hop, hf⟩)
  | _ => exact h.last hmem

/-- The end of the reads is only told to a handler that has been given all requests, or after
`Finish`. -/
lemma Replies.delivered_all {e : Ending} (h : Replies M requests c [] (.onReadsDone e))
    (hone : c.rpc.rpcType.streamsRequests = false → requests.length = 1)
    (hhandler : c.rpc.handler = true) : c.rpc.delivered = requests ∨ Finished c := by
  rcases h.sends.lives.fits with ⟨-, hwhole⟩ | ⟨-, -, hmem⟩
  · have hlen := h.informs.whole hwhole
    rw [if_pos (h.informs.connected hhandler), ← hone hwhole] at hlen
    exact .inl (h.delivered.eq_of_length hlen)
  · exact h.last (h.sends.lives.results ▸ List.mem_append_left _ hmem)

/-- Before the handler has called `Finish`, its callbacks are those of the plain run. -/
lemma Replies.callbacks_initial (h : Replies M requests c [] p) {kind : CallbackKind}
    (H : FinishesLast M requests messages status)
    (hstream : c.rpc.rpcType.streamsResponses = true)
    (hone : c.rpc.rpcType.streamsRequests = false → requests.length = 1)
    (hc : p.callback = some (kind, p')) (hhandler : c.rpc.handler = true)
    (hunfinished : ¬∃ status, .finish status ∈ M.outputs c.rpc.callbacks) :
    kind ≠ .onFinish ∧ c.rpc.callbacks ++ [c.rpc.callback kind] <+: plainRun requests ∧
      (.onReadsDone ∈ c.rpc.callbacks ++ [c.rpc.callback kind] →
        c.rpc.callbacks ++ [c.rpc.callback kind] = plainRun requests) := by
  have hkind : kind ≠ .onFinish := by
    rintro rfl
    cases p <;> cases hc
    exact hunfinished (h.exists_finish hstream h.sends.finished_of_onFinish)
  have hmore : .onReadsDone ∉ c.rpc.callbacks := by
    intro hmem
    exact hunfinished (H.exists_finish (h.complete hmem))
  have htold : told (c.rpc.callbacks ++ [c.rpc.callback kind]) =
      c.rpc.callbacks ++ [c.rpc.callback kind] := by
    apply told_eq_self
    rw [List.mem_append, List.mem_singleton, not_or]
    refine ⟨fun hmem => hunfinished (h.finish hmem), fun he => hkind ?_⟩
    cases kind <;> first | rfl | cases he
  refine ⟨hkind, ?_⟩
  by_cases hlast : kind = .onReadsDone
  · subst hlast
    cases p <;> cases hc
    obtain ⟨hplain, hread⟩ := h.informs.ended_onReadsDone hhandler hmore
    have hall := (h.delivered_all hone hhandler).resolve_right
      (fun hf => hunfinished (h.exists_finish hstream hf))
    rw [h.informs.given_eq_delivered hread, hall] at hplain
    have heq := htold.symm.trans hplain
    exact ⟨heq ▸ List.prefix_rfl, fun _ => heq⟩
  · have hopen : .onReadsDone ∉ c.rpc.callbacks ++ [c.rpc.callback kind] := by
      rw [List.mem_append, List.mem_singleton, not_or]
      refine ⟨hmore, fun he => hlast ?_⟩
      cases kind <;> first | rfl | cases he
    refine ⟨?_, fun hmem => absurd hmem hopen⟩
    have hopened := h.informs.opened_callback hc hhandler hopen
    rw [htold] at hopened
    have hgiven := opening_mono ((given_initial c.rpc).trans h.delivered)
    exact (List.IsPrefix.trans ⟨_, hopened⟩ hgiven).trans (List.prefix_append _ _)

/-- What one more callback puts out is still part of the plain run. -/
lemma Replies.replies_callback (h : Replies M requests c [] p) {kind : CallbackKind}
    (H : FinishesLast M requests messages status)
    (hstream : c.rpc.rpcType.streamsResponses = true)
    (hone : c.rpc.rpcType.streamsRequests = false → requests.length = 1)
    (hc : p.callback = some (kind, p')) (hhandler : c.rpc.handler = true) :
    replies M (c.rpc.callbacks ++ [c.rpc.callback kind]) <+: replies M (plainRun requests) ∧
      (.onReadsDone ∈ c.rpc.callbacks ++ [c.rpc.callback kind] →
        replies M (c.rpc.callbacks ++ [c.rpc.callback kind]) = replies M (plainRun requests)) ∧
      (.onFinish ∈ c.rpc.callbacks ++ [c.rpc.callback kind] →
        ∃ status, .finish status ∈ M.outputs (c.rpc.callbacks ++ [c.rpc.callback kind])) := by
  by_cases hfinish : ∃ status, .finish status ∈ M.outputs c.rpc.callbacks
  · have hinf := turn_informs (l := .exec []) h.informs (Turn.callback hc hhandler)
    have hgiven := (given_initial c.rpc).trans h.delivered
    rw [H.replies_quiet hgiven hinf.told_initial hfinish, M.outputs_concat]
    obtain ⟨status, hmem⟩ := hfinish
    exact ⟨h.plain, fun _ => H.replies_eq h.plain ⟨status, hmem⟩,
      fun _ => ⟨status, List.mem_append_left _ hmem⟩⟩
  · obtain ⟨hkind, hcallbacks, hall⟩ := h.callbacks_initial H hstream hone hc hhandler hfinish
    refine ⟨replies_mono M hcallbacks, fun hmem => by rw [hall hmem], fun hmem => ?_⟩
    rcases List.mem_append.mp hmem with hmem | hmem
    · exact absurd (h.finish hmem) hfinish
    · cases kind <;> first | exact absurd rfl hkind | cases List.mem_singleton.mp hmem

theorem turn_replies (h : Replies M requests c acts p) (hat : At c acts p)
    (H : FinishesLast M requests messages status)
    (hstream : c.rpc.rpcType.streamsResponses = true)
    (hone : c.rpc.rpcType.streamsRequests = false → requests.length = 1)
    (hg : CallServes M requests c l) (ht : Turn c acts p l c' acts' p') :
    Replies M requests c' acts' p' := by
  have hcallbacks : replies M c'.rpc.callbacks <+: replies M (plainRun requests) ∧
      (.onReadsDone ∈ c'.rpc.callbacks →
        replies M c'.rpc.callbacks = replies M (plainRun requests)) ∧
      (.onFinish ∈ c'.rpc.callbacks → ∃ status, .finish status ∈ M.outputs c'.rpc.callbacks) := by
    cases ht with
    | callback hc hhandler => exact h.replies_callback H hstream hone hc hhandler
    | _ => exact ⟨h.plain, h.complete, h.finish⟩
  exact
    { toServedCall := turn_served h.toServedCall hat hg.toCallServedBy ht
      informs := turn_informs h.informs ht
      delivered := turn_delivered h hg ht
      last := turn_last h hg ht
      plain := hcallbacks.1
      complete := hcallbacks.2.1
      finish := hcallbacks.2.2 }

lemma listening_replies (h : (callSystem Req Resp).init c) : Replies M requests c [] .idle := by
  refine ⟨listening_served h, listening_informs h, ?_, ?_, ?_, ?_, ?_⟩ <;>
    obtain ⟨methodIndex, cq, queue, info, service, parent, shuttingDown, rfl⟩ := h
  · exact List.nil_prefix
  · intro hmem
    cases hmem
  · exact List.nil_prefix
  · intro hmem
    cases hmem
  · intro hmem
    cases hmem

end Turns

theorem reach_replies {M : Machine σ (Callback Req) (HandlerAction Resp)} {requests : List Req}
    {messages : List Resp} {status : Status} (H : FinishesLast M requests messages status)
    {c : Call Req Resp} (hc : (callSystem Req Resp).Reach (CallServes M requests) c)
    (hstream : c.rpc.rpcType.streamsResponses = true)
    (hone : c.rpc.rpcType.streamsRequests = false → requests.length = 1) :
    ∃ acts p, At c acts p ∧ Replies M requests c acts p := by
  have hreach := reach_staged (P := fun c acts p => c.rpc.rpcType.streamsResponses = true →
    (c.rpc.rpcType.streamsRequests = false → requests.length = 1) → Replies M requests c acts p)
    (fun c hinit _ _ => listening_replies hinit)
    (fun c acts p l c' acts' p' hat h hg ht hstream' hone' => ?_) hc
  · obtain ⟨acts, p, hat, h⟩ := hreach
    exact ⟨acts, p, hat, h hstream hone⟩
  · -- The type of the method never changes.
    rw [turn_rpcType ht] at hstream' hone'
    exact turn_replies (h hstream' hone') hat H hstream' hone' hg ht

/-! ### Replies of a server -/

section Sends

variable {M : Machine σ (Callback Req) (HandlerAction Resp)} {requests : List Req}
  {messages : List Resp} {status : Status} {c : Call Req Resp} {acts : List (Instr Resp)}
  {p : Phase Resp}

/-- The operations that carry what the handler puts out in the plain run. -/
lemma FinishesLast.map_sendOp (H : FinishesLast M requests messages status) {rpcType : RpcType}
    (hstream : rpcType.streamsResponses = true) :
    (replies M (plainRun requests)).map (sendOp rpcType) =
      messages.map .write ++ [.finish none status] := by
  have hwrite : sendOp rpcType ∘ (fun m : Resp => ⟨some m, .ok⟩) = .write := by
    funext m
    simp [sendOp, hstream]
  have hfinish : sendOp rpcType (⟨none, status⟩ : SendItem Resp) = .finish none status := by
    simp [sendOp, hstream]
  rw [H.replies_plainRun, List.map_append, List.map_map, hwrite, List.map_singleton, hfinish]

lemma Replies.sends_first (h : Replies M requests c acts p)
    (H : FinishesLast M requests messages status)
    (hstream : c.rpc.rpcType.streamsResponses = true) :
    c.rpc.sends <+: messages.map .write ++ [.finish none status] := by
  rw [← H.map_sendOp hstream]
  exact h.sends_initial.trans (h.plain.map _)

/-- After the end of the reads, everything has been started once nothing is left that would
look at the send queue. -/
lemma Replies.sends_eq (h : Replies M requests c [] .idle)
    (H : FinishesLast M requests messages status)
    (hstream : c.rpc.rpcType.streamsResponses = true) (hdone : .onReadsDone ∈ c.rpc.callbacks)
    (hwrite : c.rpc.isRpcEventPending .write = false) (hmail : .internal ∉ c.mailbox) :
    c.rpc.sends = messages.map .write ++ [.finish none status] := by
  rcases h.queue_of_idle (h.informs.handler_of_callback hdone) hwrite hmail with
    hqueue | ⟨op, hop, hf⟩
  · rw [h.sends_of_queue hqueue, h.complete hdone, H.map_sendOp hstream]
  · refine (List.prefix_concat_iff.mp (h.sends_first H hstream)).resolve_right (fun hshort => ?_)
    obtain ⟨m, -, rfl⟩ := List.mem_map.mp (hshort.subset hop)
    cases hf

end Sends

lemma reach_callServes (hn : options.numEventThreads = 1)
    {M : Machine σ (Callback Req) (HandlerAction Resp)} {requests : List Req} {s : Server Req Resp}
    {r : Nat} (hs : (serverSystem Req Resp options maps).Reach (Serves M requests r) s)
    (hr : r < s.nextRpc) : (callSystem Req Resp).Reach (CallServes M requests) (s.call r) := by
  refine reach_callOf hn (fun s l s' m hs hl hstep hR hproj => ⟨?_, ?_, ?_⟩) hs hr
  · exact hl.toServedBy.project hs hstep hR hproj
  · rintro tag ok request rfl
    obtain ⟨cq, rfl⟩ := project_next hproj
    exact hl.request cq tag ok request rfl
  · rintro request rfl
    obtain ⟨cq, rfl⟩ := project_next hproj
    exact hl.read cq request rfl

/-- With one event thread, for every handler whose last send is its only `Finish` and every list
of requests, whatever the order in which the operations of the call, which the client does not
cancel, come back: what has been started is always a first part of what the handler puts out when
it is simply run over the requests; and it is all of it once the reads have ended, no operation
but the notification `DONE` is outstanding and no event is queued. -/
theorem streamed_reply (hn : options.numEventThreads = 1)
    {M : Machine σ (Callback Req) (HandlerAction Resp)} {requests : List Req}
    {messages : List Resp} {status : Status} (H : FinishesLast M requests messages status)
    {s : Server Req Resp} {r : Nat}
    (hs : (serverSystem Req Resp options maps).Reach (Serves M requests r) s) (hr : r < s.nextRpc)
    (htype : (s.rpcs r).rpcType = .bidiStreaming ∨
      (s.rpcs r).rpcType = .serverStreaming ∧ requests.length = 1) :
    (s.rpcs r).sends <+: messages.map .write ++ [.finish none status] ∧
      ((s.tasks 0).code = [] → .onReadsDone ∈ (s.rpcs r).callbacks →
        (∀ tag, tag ≠ .done → outstanding s r tag = 0) → (∀ e ∈ s.eventQueues 0, e.rpc ≠ r) →
        (s.rpcs r).sends = messages.map .write ++ [.finish none status]) := by
  obtain ⟨hR, hq⟩ := routed_of_one_thread hn hs.reachable hr
  have hstream : (s.call r).rpc.rpcType.streamsResponses = true := by
    rcases htype with h | ⟨h, -⟩ <;> exact congrArg RpcType.streamsResponses h
  have hone : (s.call r).rpc.rpcType.streamsRequests = false → requests.length = 1 := by
    rcases htype with h | ⟨-, h⟩
    · exact fun hfalse => absurd ((congrArg RpcType.streamsRequests h).symm.trans hfalse) (by decide)
    · exact fun _ => h
  obtain ⟨acts, p, hat, h⟩ := reach_replies H (reach_callServes hn hs hr) hstream hone
  refine ⟨h.sends_first H hstream, fun hidle hdone hout hqueued => ?_⟩
  obtain ⟨rfl, rfl⟩ := hat.code_eq_nil (call_code_idle hq hidle)
  have hwrite := not_pending_of_outstanding hs.reachable hr hR (hout .write (by simp))
  refine h.sends_eq H hstream hdone hwrite (fun hmem => ?_)
  exact hqueued _ (hq ▸ internal_mem_mailbox hmem) rfl

/-! ### A handler of the tests -/

lemma onReadsDone_of_finish {M : Machine σ (Callback Req) (HandlerAction Resp)}
    (hfinish : ∀ q cb status, .finish status ∈ M.out q cb → cb = .onReadsDone) {status : Status}
    (q : σ) {callbacks : List (Callback Req)} (h : .finish status ∈ M.outputsFrom q callbacks) :
    .onReadsDone ∈ callbacks := by
  induction callbacks generalizing q with
  | nil => cases h
  | cons cb callbacks ih =>
    rcases List.mem_append.mp h with h | h
    · rw [hfinish q cb status h]
      exact List.mem_cons_self
    · exact List.mem_cons_of_mem _ (ih _ h)

/-- A handler that calls `Finish` in `OnReadsDone` only, and sends nothing in `OnFinish`, sends
nothing after its `Finish`. -/
lemma finishesLast_of_onReadsDone {M : Machine σ (Callback Req) (HandlerAction Resp)}
    {requests : List Req} {messages : List Resp} {status : Status}
    (hplain : (M.outputs (plainRun requests)).filter isSend =
      messages.map .send ++ [.finish status])
    (hfinish : ∀ q cb status, .finish status ∈ M.out q cb → cb = .onReadsDone)
    (honFinish : ∀ q, M.out q .onFinish = []) : FinishesLast M requests messages status := by
  refine ⟨hplain, ?_⟩
  rintro callbacks cb requests' - htold ⟨status', hmem⟩ a ha
  have hdone : .onReadsDone ∈ told callbacks :=
    List.mem_filter.mpr ⟨onReadsDone_of_finish hfinish M.start hmem, rfl⟩
  cases hcb : isOnFinish cb with
  | true =>
    cases cb with
    | onFinish =>
      rw [honFinish] at ha
      cases ha
    | onInitialize | onRequest _ | onReadsDone => cases hcb
  | false =>
    -- No callback about the requests follows `OnReadsDone` in a plain run.
    rw [told_concat _ hcb] at htold
    have hopening : told callbacks <+: opening requests' := by
      rcases List.prefix_concat_iff.mp htold with heq | hshort
      · exact (List.append_inj' heq rfl).1 ▸ List.prefix_rfl
      · exact (List.prefix_append _ _).trans hshort
    have hin := hopening.subset hdone
    simp [opening] at hin

/-- The test for `Serves`. -/
def serves [DecidableEq Req] [DecidableEq Resp] (M : Machine σ (Callback Req) (HandlerAction Resp))
    (requests : List Req) (r : Nat) (s : Server Req Resp) (l : Label Req Resp) : Bool :=
  servedBy M r s l &&
    match l with
    | .next _ r' tag ok request => r' ≠ r ||
        (((s.rpcs r).delivered ++ request.toList).isPrefixOf requests &&
          (tag ≠ .read || ok || (s.rpcs r).delivered = requests ||
            (s.rpcs r).sends.any SendOp.isFinish))
    | _ => true

lemma serves_sound [DecidableEq Req] [DecidableEq Resp]
    (M : Machine σ (Callback Req) (HandlerAction Resp)) (requests : List Req) (r : Nat)
    (s : Server Req Resp) (l : Label Req Resp) (h : serves M requests r s l = true) :
    Serves M requests r s l := by
  obtain ⟨hserved, hclient⟩ := Bool.and_eq_true_iff.mp h
  refine ⟨servedBy_sound M r s l hserved, ?_, ?_⟩
  · rintro cq tag ok request rfl
    simp only [ne_eq, not_true_eq_false, decide_false, Bool.false_or, Bool.and_eq_true] at hclient
    exact List.isPrefixOf_iff_prefix.mp hclient.1
  · rintro cq request rfl
    simp only [ne_eq, not_true_eq_false, decide_false, Bool.false_or, Bool.and_eq_true,
      Bool.or_eq_true, decide_eq_true_eq, List.any_eq_true] at hclient
    exact hclient.2

/-- The handler `GetRunningSumHandler`, which responds twice to each request. -/
def getRunningSumHandler : Machine Nat (Callback Nat) (HandlerAction Nat) where
  start := 0
  next := fun sum cb =>
    match cb with
    | .onRequest (some input) => sum + input
    | _ => sum
  out := fun sum cb =>
    match cb with
    | .onRequest (some input) => [.send (sum + input), .send (sum + input)]
    | .onReadsDone => [.finish .ok]
    | _ => []

def runningSumService : List (List (String × RpcHandlerInfo)) :=
  [[("GetRunningSum", ⟨0, .bidiStreaming, "/async_grpc.proto.Math/GetRunningSum"⟩)]]

/-- A request arrives and is answered. -/
def runningSumRead (input sum : Nat) : List (Label Nat Nat) :=
  event .read true (some input) ++ execs 1 ++ callback [.send sum, .send sum] ++ execs 7

/-- The reads end, and the handler calls `Finish`. -/
def runningSumReadsDone : List (Label Nat Nat) :=
  event .read false none ++ execs 1 ++ callback [.finish .ok] ++ execs 4

/-- The first write is outstanding while the other responses are enqueued. -/
def runningSumReads : List (Label Nat Nat) :=
  openConnection ++ runningSumRead 1 1 ++ writeNeeded 5 ++ writeNeeded 4 ++ runningSumRead 2 3 ++
    writeNeeded 4 ++ writeNeeded 4 ++ runningSumReadsDone ++ writeNeeded 4

/-- The writes complete one after another, and then `Finish` does. -/
def runningSumWrites : List (Label Nat Nat) :=
  (List.replicate 4 (event .write true none ++ execs 4)).flatten ++ event .finish true none ++ execs 3

theorem streamed_reply_of_run :
    ∃ s, (serverSystem Nat Nat oneEventThread runningSumService).Reach
        (Serves getRunningSumHandler [1, 2] 0) s ∧ (s.tasks 0).code = [] ∧
      .onReadsDone ∈ (s.rpcs 0).callbacks ∧
      (s.rpcs 0).sends = [1, 1, 3, 3].map .write ++ [.finish none .ok] := by
  have H : FinishesLast getRunningSumHandler [1, 2] [1, 1, 3, 3] .ok := by
    apply finishesLast_of_onReadsDone
    · decide
    · intro q cb status hmem
      rcases cb with _ | (_ | input) | _ | _ <;> simp [getRunningSumHandler] at hmem ⊢
    · exact fun _ => rfl
  obtain ⟨s, hs, hp⟩ := exists_reach oneEventThread runningSumService
    (serves getRunningSumHandler [1, 2] 0) (serves_sound _ _ _) (runningSumReads ++ runningSumWrites)
    (fun s => 0 < s.nextRpc ∧ (s.rpcs 0).rpcType = .bidiStreaming ∧ (s.tasks 0).code = [] ∧
      .onReadsDone ∈ (s.rpcs 0).callbacks ∧ s.eventQueues 0 = [] ∧
      [Tag.newConnection, .read, .write, .finish].all (fun tag => outstanding s 0 tag = 0))
    (by decide +kernel)
  obtain ⟨hr, htype, hidle, hdone, hqueue, hall⟩ := of_decide_eq_true hp
  refine ⟨s, hs, hidle, hdone, (streamed_reply rfl H hs hr (.inl htype)).2 hidle hdone ?_ ?_⟩
  · intro tag hne
    exact of_decide_eq_true (List.all_eq_true.mp hall tag (by cases tag <;> simp_all))
  · simp [hqueue]

end AsyncGrpc.Proofs
