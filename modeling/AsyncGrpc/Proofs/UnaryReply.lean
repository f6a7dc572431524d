import AsyncGrpc.Proofs.SingleReply

/-!
# The first send of a unary handler is its reply

The handler of a unary call may send more than once: `GetSquareHandler` of the tests calls
`Finish` with an error and then `Send`. All its callbacks but `OnFinish` are made while the new
connection is handled, so that the `WRITE_NEEDED` events of all its sends stand in the event queue
before the first `Finish` is started, and are handled before its `FINISH` event is. The first
item is the reply, and the others are never sent.
-/

namespace AsyncGrpc.Proofs

open Function Transition

variable {σ Req Resp : Type} {options : Options} {maps : List (List (String × RpcHandlerInfo))}

structure Unary (M : Machine σ (Callback Req) (HandlerAction Resp)) (c : Call Req Resp)
    (acts : List (Instr Resp)) (p : Phase Resp) : Prop where
  answers : Answers M c acts p
  busy : .pushWriteNeeded ∈ acts → p.connecting = true
  connecting : p.connecting = true → c.rpc.sends = []
  order : ∀ pre post, c.mailbox = pre ++ .completion .finish :: post → .internal ∉ post
  late : (p = .handle .finish ∨ ∃ ok, (.finish, ok) ∈ c.rpc.handled) →
    .internal ∉ c.mailbox ∧ p.looksAtQueue = false
  write : c.rpc.isRpcEventPending .write = false
  single : c.rpc.sends.length ≤ 1
  same : replies M c.rpc.callbacks = replies M (told c.rpc.callbacks)

/-- The handler sends nothing in `OnFinish`. -/
def QuietAtEnd (M : Machine σ (Callback Req) (HandlerAction Resp)) : Prop :=
  ∀ q, (M.out q .onFinish).filterMap HandlerAction.item = []

section Turns

variable {M : Machine σ (Callback Req) (HandlerAction Resp)} {c c' : Call Req Resp}
  {acts acts' : List (Instr Resp)} {p p' : Phase Resp} {l : CallLabel Req Resp}

lemma finished_ne_nil (h : Finished c) : c.rpc.sends ≠ [] := by
  obtain ⟨op, hop, -⟩ := h
  exact List.ne_nil_of_mem hop

/-- A handler that has sent nothing pushes nothing. -/
lemma mem_pushWriteNeeded {as : List (HandlerAction Resp)}
    (h : (.pushWriteNeeded : Instr Resp) ∈ as.flatMap HandlerAction.instrs) :
    as.filterMap HandlerAction.item ≠ [] := by
  obtain ⟨a, ha, hmem⟩ := List.mem_flatMap.mp h
  cases a with
  | send response => exact List.ne_nil_of_mem (List.mem_filterMap.mpr ⟨_, ha, rfl⟩)
  | finish status => exact List.ne_nil_of_mem (List.mem_filterMap.mpr ⟨_, ha, rfl⟩)
  | getWriter => simp [HandlerAction.instrs] at hmem

/-- The callbacks of a unary call other than `OnFinish` are made while it is connecting. -/
lemma Answers.connecting_of_callback (h : Answers M c acts p) {kind : CallbackKind}
    (hwhole : c.rpc.rpcType.streamsRequests = false) (hc : p.callback = some (kind, p'))
    (hkind : kind ≠ .onFinish) : p.connecting = true ∧ p'.connecting = true := by
  have hfits := h.sends.lives.fits
  cases p <;> cases hc
  case onInitialize e =>
    cases hfits
    exact ⟨rfl, rfl⟩
  case onRequest e => exact absurd (hfits.2.symm.trans hwhole) (by simp)
  case onOnlyRequest e =>
    cases hfits.1
    exact ⟨rfl, rfl⟩
  case onReadsDone e =>
    rcases hfits with ⟨rfl, -⟩ | ⟨-, htrue, -⟩
    · exact ⟨rfl, rfl⟩
    · exact absurd (htrue.symm.trans hwhole) (by simp)
  case onFinish e => exact absurd rfl hkind

/-- Nothing has been started for an `Rpc` without a handler. -/
lemma Answers.sends_eq_nil (h : Answers M c acts p) (hhandler : c.rpc.handler = false) :
    c.rpc.sends = [] := by
  have hinitial := h.sends_initial
  rw [(h.informs.fresh hhandler).1] at hinitial
  exact List.prefix_nil.mp hinitial

lemma Answers.finished_of_onFinish (h : Answers M c acts p) (hmem : .onFinish ∈ c.rpc.callbacks) :
    Finished c := by
  have hcount := h.talks.finishes
  have hpos : 0 < c.rpc.callbacks.countP isOnFinish := List.countP_pos_iff.mpr ⟨_, hmem, rfl⟩
  have hfinish : 0 < (c.rpc.handled.map Prod.fst).count .finish := by omega
  obtain ⟨⟨tag, ok⟩, hhandled, rfl⟩ := List.mem_map.mp (List.count_pos_iff.mp hfinish)
  exact h.sends.finished_of_handled hhandled

lemma Unary.turn_busy (h : Unary M c acts p) (hat : At c acts p) (hM : QuietAtEnd M)
    (hwhole : c.rpc.rpcType.streamsRequests = false) (hg : CallServedBy M c l)
    (ht : Turn c acts p l c' acts' p') (hmem : .pushWriteNeeded ∈ acts') :
    p'.connecting = true := by
  cases ht with
  | @callback _ kind _ as hc _ =>
    by_cases hkind : kind = .onFinish
    · have hacts := hg.acts_eq hat hc
      subst hkind
      exact absurd (hacts ▸ hM _) (mem_pushWriteNeeded hmem)
    · exact (h.answers.connecting_of_callback hwhole hc hkind).2
  | enqueueMessage | getWeakPtr _ | pushWriteNeeded | getWriter _ =>
    exact h.busy (List.mem_cons_of_mem _ hmem)
  | next _ _ | pushToEventQueue _ | callWriter _ | writerLock _ _ | writerExpired _ _
  | writerEnqueue _ | writerLookUp _ _ | writerPush _ | writerReturn _ | stopServing =>
    exact h.busy hmem
  | _ => cases hmem

lemma Unary.turn_connecting (h : Unary M c acts p) (ht : Turn c acts p l c' acts' p')
    (hp' : p'.connecting = true) : c'.rpc.sends = [] := by
  have hlives := h.answers.sends.lives
  cases ht with
  | @handle tag as =>
    obtain rfl := ofEvent_connecting hp'
    exact h.answers.sends_eq_nil (hlives.accounts.waiting hlives.accounts.pending_of_handle).1
  | callback hp _ =>
    refine h.connecting ?_
    cases p <;> cases hp <;> exact hp'
  | keep _ | erase _ =>
    rename_i shared as _
    cases shared <;> cases hp'
  | performFinish _ | performWrite _ _ =>
    obtain ⟨shared, rfl⟩ := hlives.fits
    cases hp'
  | accept _ | fail _ => exact h.connecting rfl
  | refuse _ | pop _ | popInternal _ | handleInternal _ | stale _ | clone | releaseShared => cases hp'
  | _ => exact h.connecting hp'

/-- No `FINISH` is on its way while the call is connecting. -/
lemma Unary.finish_not_mem (h : Unary M c acts p) (hp : p.connecting = true) :
    .completion .finish ∉ c.mailbox := by
  intro hmem
  have htransit : .finish ∈ transit c p := by
    simp only [transit, List.mem_append, List.mem_filterMap]
    exact .inl (.inr ⟨_, hmem, rfl⟩)
  have hpending := h.answers.sends.lives.accounts.pending_of_mem htransit
  exact finished_ne_nil (h.answers.sends.exists_finish hpending) (h.connecting hp)

/-- The `WRITE_NEEDED` events stand before the `FINISH` event. -/
lemma Unary.turn_order (h : Unary M c acts p) (ht : Turn c acts p l c' acts' p')
    {pre post : List Mail} (hmail : c'.mailbox = pre ++ .completion .finish :: post) :
    .internal ∉ post := by
  cases ht with
  | @pushToEventQueue _ _ tag ok _ =>
    rcases List.eq_nil_or_concat post with rfl | ⟨post', e, rfl⟩
    · simp
    · have hsplit : c.mailbox ++ [.completion tag] =
          (pre ++ .completion .finish :: post') ++ [e] := by simpa using hmail
      obtain ⟨hold, he⟩ := List.append_inj' hsplit rfl
      obtain rfl := List.singleton_injective he
      simpa using h.order pre post' hold
  | @pop e rest hhead =>
    have hwhole : c.mailbox = (.completion e :: pre) ++ .completion .finish :: post :=
      hhead.trans (congrArg _ hmail)
    exact h.order _ post hwhole
  | @popInternal rest hhead =>
    have hwhole : c.mailbox = (.internal :: pre) ++ .completion .finish :: post :=
      hhead.trans (congrArg _ hmail)
    exact h.order _ post hwhole
  | writerPush hw => simp [h.answers.alone] at hw
  | pushWriteNeeded =>
    -- The handler still sends, so the call is connecting.
    have hnone := h.finish_not_mem (h.busy List.mem_cons_self)
    have hmem : .completion .finish ∈ pre ++ .completion .finish :: post := by simp
    rw [← hmail] at hmem
    simp [hnone] at hmem
  | _ => exact h.order pre post hmail

lemma ofEvent_ne_handle (tag tag' : Tag) (ok : Bool) :
    (Phase.ofEvent tag ok : Phase Resp) ≠ .handle tag' := by
  cases tag <;> cases ok <;> simp [Phase.ofEvent]

/-- Once `FINISH` is being handled, nothing looks at the send queue any more. -/
lemma Unary.turn_late (h : Unary M c acts p) (ht : Turn c acts p l c' acts' p')
    (hlate : p' = .handle .finish ∨ ∃ ok, (.finish, ok) ∈ c'.rpc.handled) :
    .internal ∉ c'.mailbox ∧ p'.looksAtQueue = false := by
  have hlives := h.answers.sends.lives
  cases ht with
  | pushToEventQueue _ => simpa using h.late hlate
  | @pop e rest hmail =>
    refine ⟨?_, rfl⟩
    rcases hlate with hp | hhandled
    · cases hp
      exact h.order [] rest hmail
    · intro hmem
      exact (h.late (.inr hhandled)).1 (hmail ▸ List.mem_cons_of_mem _ hmem)
  | popInternal hmail =>
    rcases hlate with hp | hhandled
    · cases hp
    · exact absurd (hmail ▸ List.mem_cons_self) (h.late (.inr hhandled)).1
  | writerPush hw => simp [h.answers.alone] at hw
  | pushWriteNeeded =>
    have hconn := h.busy List.mem_cons_self
    rcases hlate with rfl | ⟨ok, hmem⟩
    · cases hconn
    · exact absurd (h.connecting hconn) (finished_ne_nil (h.answers.sends.finished_of_handled hmem))
  | @handle tag as =>
    have hphase : (Phase.ofEvent tag (c.rpc.event tag).ok : Phase Resp).looksAtQueue = false := by
      cases tag with
      | write => exact absurd (h.write.symm.trans hlives.accounts.pending_of_handle) (by simp)
      | read => cases (c.rpc.event .read).ok <;> rfl
      | newConnection | finish | done => rfl
    refine ⟨(h.late ?_).1, hphase⟩
    rcases hlate with hp | ⟨ok, hmem⟩
    · exact absurd hp (ofEvent_ne_handle _ _ _)
    · rcases List.mem_append.mp hmem with hmem | hmem
      · exact .inr ⟨ok, hmem⟩
      · cases List.mem_singleton.mp hmem
        exact .inl rfl
  | handleInternal _ | takeFinish _ _ _ _ | takeWrite _ _ _ _ _ =>
    rcases hlate with hp | hhandled
    · cases hp
    · cases (h.late (.inr hhandled)).2
  | callback hp _ =>
    have hquiet : p'.looksAtQueue = false := by cases p <;> cases hp <;> rfl
    rcases hlate with rfl | hhandled
    · cases p <;> cases hp
    · exact ⟨(h.late (.inr hhandled)).1, hquiet⟩
  | keep _ | erase _ =>
    rename_i shared as _
    rcases hlate with hp | hhandled
    · cases shared <;> cases hp
    · exact ⟨(h.late (.inr hhandled)).1, by cases shared <;> rfl⟩
  | next _ _ | callWriter _ | writerLock _ _ | writerExpired _ _ | writerEnqueue _
  | writerLookUp _ _ | writerReturn _ | stopServing | enqueueMessage | getWeakPtr _
  | getWriter _ => exact h.late hlate
  | _ =>
    rcases hlate with hp | hhandled
    · cases hp
    · exact ⟨(h.late (.inr hhandled)).1, rfl⟩

lemma Unary.turn_write (h : Unary M c acts p) (hresp : c.rpc.rpcType.streamsResponses = false)
    (ht : Turn c acts p l c' acts' p') : c'.rpc.isRpcEventPending .write = false := by
  have hwrite := h.write
  cases ht with
  | pushToEventQueue _ => rwa [setOk_pending]
  | handle => simp [hwrite]
  | performWrite _ hstream => exact absurd (hstream.symm.trans hresp) (by simp)
  | startRead _ => simpa using hwrite
  | performFinish _ => simpa [Rpc.startOp, Rpc.isRpcEventPending, Rpc.setRpcEventState] using hwrite
  | _ => exact hwrite

/-- A `Finish` is only started while there is none. -/
lemma Unary.turn_single (h : Unary M c acts p) (hresp : c.rpc.rpcType.streamsResponses = false)
    (ht : Turn c acts p l c' acts' p') : c'.rpc.sends.length ≤ 1 := by
  cases ht with
  | @performFinish e as item op _ =>
    have hsends := h.answers.sends
    have hfinish := (hsends.lives.accounts.performing (by simp [Phase.item])).2
    have hhandled : ∀ ok, (.finish, ok) ∉ c.rpc.handled := by
      intro ok hmem
      cases (h.late (.inr ⟨ok, hmem⟩)).2
    have hnil : c.rpc.sends = [] := by
      rw [List.eq_nil_iff_forall_not_mem]
      intro op hop
      have hopen := hsends.unfinished hfinish hhandled op hop
      have hmem : op ∈ c.rpc.enqueued.map (sendOp c.rpc.rpcType) :=
        hsends.order ▸ List.mem_append_left _ hop
      obtain ⟨item, -, rfl⟩ := List.mem_map.mp hmem
      cases hmsg : item.msg <;> simp [sendOp, hmsg, hresp, SendOp.isFinish] at hopen
    simp [hnil]
  | performWrite _ hstream => exact absurd (hstream.symm.trans hresp) (by simp)
  | _ => exact h.single

lemma Unary.turn_same (h : Unary M c acts p) (hM : QuietAtEnd M)
    (hwhole : c.rpc.rpcType.streamsRequests = false) (ht : Turn c acts p l c' acts' p') :
    replies M c'.rpc.callbacks = replies M (told c'.rpc.callbacks) := by
  cases ht with
  | @callback _ kind _ as hc _ =>
    by_cases hkind : kind = .onFinish
    · subst hkind
      change replies M (c.rpc.callbacks ++ [.onFinish]) = replies M (told (c.rpc.callbacks ++ [.onFinish]))
      rw [told_onFinish, replies_concat, hM, List.append_nil, h.same]
    · -- `OnFinish` has not been called, since nothing has been started.
      have hconn := (h.answers.connecting_of_callback hwhole hc hkind).1
      rw [told_eq_self]
      intro hmem
      rcases List.mem_append.mp hmem with hmem | hmem
      · exact finished_ne_nil (h.answers.finished_of_onFinish hmem) (h.connecting hconn)
      · cases kind <;> first | exact hkind rfl | cases List.mem_singleton.mp hmem
  | _ => exact h.same

theorem turn_unary (h : Unary M c acts p) (hat : At c acts p) (hM : QuietAtEnd M)
    (hwhole : c.rpc.rpcType.streamsRequests = false)
    (hresp : c.rpc.rpcType.streamsResponses = false) (hg : CallServedBy M c l)
    (ht : Turn c acts p l c' acts' p') : Unary M c' acts' p' where
  answers := turn_answers h.answers hat hg ht
  busy := h.turn_busy hat hM hwhole hg ht
  connecting := h.turn_connecting ht
  order := fun _ _ => h.turn_order ht
  late := h.turn_late ht
  write := h.turn_write hresp ht
  single := h.turn_single hresp ht
  same := h.turn_same hM hwhole ht

lemma listening_unary (h : (callSystem Req Resp).init c) : Unary M c [] .idle := by
  refine ⟨listening_answers h, ?_, ?_, ?_, ?_, ?_, ?_, ?_⟩ <;>
    obtain ⟨methodIndex, cq, queue, info, service, parent, shuttingDown, rfl⟩ := h
  · intro hmem
    cases hmem
  · intro hp
    cases hp
  · intro pre post hmail
    cases pre <;> cases hmail
  · exact fun _ => ⟨by simp [Call.listening], rfl⟩
  · rfl
  · exact Nat.zero_le 1
  · rfl

end Turns

theorem reach_unary {M : Machine σ (Callback Req) (HandlerAction Resp)} (hM : QuietAtEnd M)
    {c : Call Req Resp} (hc : (callSystem Req Resp).Reach (CallServedBy M) c)
    (htype : c.rpc.rpcType = .normalRpc) : ∃ acts p, At c acts p ∧ Unary M c acts p := by
  have hreach := reach_staged
    (P := fun c acts p => c.rpc.rpcType = .normalRpc → Unary M c acts p)
    (fun c hinit _ => listening_unary hinit)
    (fun c acts p l c' acts' p' hat h hg ht htype' => ?_) hc
  · obtain ⟨acts, p, hat, h⟩ := hreach
    exact ⟨acts, p, hat, h htype⟩
  · rw [turn_rpcType ht] at htype'
    exact turn_unary (h htype') hat hM (by rw [htype']; rfl) (by rw [htype']; rfl) hg ht

section Reply

variable {M : Machine σ (Callback Req) (HandlerAction Resp)} {c : Call Req Resp}
  {acts : List (Instr Resp)} {p : Phase Resp}

lemma Unary.sends_initial (h : Unary M c acts p) :
    c.rpc.sends <+: ((replies M (told c.rpc.callbacks)).take 1).map (sendOp c.rpc.rpcType) := by
  have hinitial := h.answers.sends_initial
  rw [h.same] at hinitial
  rw [List.map_take, List.prefix_take_iff]
  exact ⟨hinitial, h.single⟩

/-- An idle call that nothing will wake has started its reply, if there is one. -/
lemma Unary.sends_eq (h : Unary M c [] .idle) (hdone : .onReadsDone ∈ c.rpc.callbacks)
    (hmail : .internal ∉ c.mailbox) :
    c.rpc.sends =
      ((replies M (plainRun c.rpc.delivered)).take 1).map (sendOp c.rpc.rpcType) := by
  have hinitial := h.sends_initial
  rw [h.answers.told_plainRun hdone] at hinitial
  refine hinitial.eq_of_length_le ?_
  have htake : (((replies M (plainRun c.rpc.delivered)).take 1).map
      (sendOp c.rpc.rpcType)).length ≤ 1 := by simp
  have hhandler := h.answers.informs.handler_of_callback hdone
  rcases h.answers.queue_of_idle hhandler h.write hmail with hqueue | hfinished
  · -- Everything that was enqueued has been started.
    rw [h.answers.sends_of_queue hqueue, h.same, h.answers.told_plainRun hdone, List.length_map,
      List.length_map, List.length_take]
    exact Nat.min_le_right _ _
  · exact htake.trans (List.length_pos_iff.mpr (finished_ne_nil hfinished))

end Reply

/-- With one event thread, for every handler of a unary method that sends from its callbacks other
than `OnFinish` and not through a `Writer`, however often it does, and a client that does not
cancel: the first item it sends is the only one that is ever started; and it has been started once
`OnReadsDone` has been called, the event thread is idle and no event of the call is queued. -/
theorem unary_reply (hn : options.numEventThreads = 1)
    {M : Machine σ (Callback Req) (HandlerAction Resp)} (hM : QuietAtEnd M) {s : Server Req Resp}
    {r : Nat} (hs : (serverSystem Req Resp options maps).Reach (ServedBy M r) s)
    (hr : r < s.nextRpc) (htype : (s.rpcs r).rpcType = .normalRpc) :
    (s.rpcs r).sends <+:
        ((replies M (told (s.rpcs r).callbacks)).take 1).map (sendOp .normalRpc) ∧
      ((s.tasks 0).code = [] → .onReadsDone ∈ (s.rpcs r).callbacks →
        (∀ e ∈ s.eventQueues 0, e.rpc ≠ r) →
        (s.rpcs r).sends =
          ((replies M (plainRun (s.rpcs r).delivered)).take 1).map (sendOp .normalRpc)) := by
  have hq := (routed_of_one_thread hn hs.reachable hr).2
  obtain ⟨acts, p, hat, h⟩ := reach_unary hM (reach_callServedBy hn hs hr) htype
  rw [← htype]
  refine ⟨h.sends_initial, fun hidle hdone hqueued => ?_⟩
  obtain ⟨rfl, rfl⟩ := hat.code_eq_nil (call_code_idle hq hidle)
  refine h.sends_eq hdone (fun hmem => ?_)
  exact hqueued _ (hq ▸ internal_mem_mailbox hmem) rfl

/-- The handler `GetSquareHandler`, which sends its response also after an error. -/
def getSquareHandler : Machine Unit (Callback Int) (HandlerAction Int) where
  start := ()
  next := fun _ _ => ()
  out := fun _ cb =>
    match cb with
    | .onRequest (some input) =>
      (if input < 0 then [.finish internalError] else []) ++ [.send (input * input)]
    | _ => []

def getSquareService : List (List (String × RpcHandlerInfo)) :=
  [[("GetSquare", ⟨0, .normalRpc, "/async_grpc.proto.Math/GetSquare"⟩)]]

def squareExecs (n : Nat) : List (Label Int Int) :=
  List.replicate n (.exec 0 [])

/-- A request arrives, and the handler takes some actions in its `OnRequest`. -/
def squareRequest (input : Int) (acts : List (HandlerAction Int)) : List (Label Int Int) :=
  .next 0 0 .newConnection true (some input) :: .pushToEventQueue 0 :: .pop 0 ::
    squareExecs 5 ++ [.exec 0 acts] ++ squareExecs (3 * acts.length + 2)

/-- A request for the square of a negative number is handled, then the `WRITE_NEEDED` events of
the two sends. -/
def squareOfNegative : List (Label Int Int) :=
  squareRequest (-2) [.finish internalError, .send 4] ++ .pop 0 :: squareExecs 5 ++
    .pop 0 :: squareExecs 4

theorem unary_reply_of_square :
    ∃ s, (serverSystem Int Int oneEventThread getSquareService).Reach (ServedBy getSquareHandler 0) s ∧
      (s.rpcs 0).enqueued = [⟨none, internalError⟩, ⟨some 4, .ok⟩] ∧
      (s.rpcs 0).sends = [.finishWithError internalError] := by
  obtain ⟨s, hs, hp⟩ := exists_reach oneEventThread getSquareService (servedBy getSquareHandler 0)
    (servedBy_sound _ _) squareOfNegative
    (fun s => 0 < s.nextRpc ∧ (s.rpcs 0).rpcType = .normalRpc ∧
      (s.rpcs 0).delivered = [-2] ∧ (s.tasks 0).code = [] ∧
      .onReadsDone ∈ (s.rpcs 0).callbacks ∧ s.eventQueues 0 = [] ∧
      (s.rpcs 0).enqueued = [⟨none, internalError⟩, ⟨some 4, .ok⟩]) (by decide +kernel)
  obtain ⟨hr, htype, hdelivered, hidle, hdone, hqueue, henqueued⟩ := of_decide_eq_true hp
  have hsends := (unary_reply rfl (fun _ => rfl) hs hr htype).2 hidle hdone (by simp [hqueue])
  have hreply : ((replies getSquareHandler (plainRun [-2])).take 1).map (sendOp .normalRpc) =
      [.finishWithError internalError] := by decide +kernel
  rw [hdelivered, hreply] at hsends
  exact ⟨s, hs, henqueued, hsends⟩

end AsyncGrpc.Proofs
