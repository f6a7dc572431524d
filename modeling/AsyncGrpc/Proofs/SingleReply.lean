import AsyncGrpc.Proofs.Callbacks
import AsyncGrpc.Proofs.Served

/-!
# Calls that are answered once

The methods that do not stream their responses are answered by one `Finish`, which carries the
response. A handler that sends at most one item, whichever of its callbacks it sends it from, is
answered for by the framework exactly as if it were simply run over the requests.
-/

namespace AsyncGrpc.Proofs

open Function Transition

variable {σ Req Resp : Type} {options : Options} {maps : List (List (String × RpcHandlerInfo))}

structure Answers (M : Machine σ (Callback Req) (HandlerAction Resp)) (c : Call Req Resp)
    (acts : List (Instr Resp)) (p : Phase Resp) : Prop extends ServedCall M c acts p where
  talks : Talks c acts p
  answered : ∀ callbacks, callbacks ++ [.onFinish] <+: c.rpc.callbacks → replies M callbacks ≠ []

section Turns

variable {M : Machine σ (Callback Req) (HandlerAction Resp)} {c c' : Call Req Resp}
  {acts acts' : List (Instr Resp)} {p p' : Phase Resp} {l : CallLabel Req Resp}

lemma Answers.informs (h : Answers M c acts p) : Informs c acts p :=
  h.talks.informs

/-- `OnFinish` comes after the answer. -/
lemma Answers.turn_answered (h : Answers M c acts p) (ht : Turn c acts p l c' acts' p')
    {callbacks : List (Callback Req)} (hinitial : callbacks ++ [.onFinish] <+: c'.rpc.callbacks) :
    replies M callbacks ≠ [] := by
  cases ht with
  | @callback _ kind _ as hc _ =>
    rcases List.prefix_concat_iff.mp hinitial with hlast | hinitial
    · obtain ⟨rfl, hcb⟩ := List.append_inj' hlast rfl
      have hkind : kind = .onFinish := by
        cases kind <;> first | rfl | cases hcb
      subst hkind
      cases p <;> cases hc
      obtain ⟨op, hop, -⟩ := h.sends.finished_of_onFinish
      exact h.replies_ne_nil hop
    · exact h.answered callbacks hinitial
  | _ => exact h.answered callbacks hinitial

theorem turn_answers (h : Answers M c acts p) (hat : At c acts p) (hg : CallServedBy M c l)
    (ht : Turn c acts p l c' acts' p') : Answers M c' acts' p' where
  toServedCall := turn_served h.toServedCall hat hg ht
  talks := turn_talks h.talks ht
  answered := fun _ => h.turn_answered ht

lemma listening_answers (h : (callSystem Req Resp).init c) : Answers M c [] .idle := by
  refine ⟨listening_served h, listening_talks h, ?_⟩
  obtain ⟨methodIndex, cq, queue, info, service, parent, shuttingDown, rfl⟩ := h
  intro callbacks hinitial
  have hnil : callbacks ++ [.onFinish] <+: [] := hinitial
  simp at hnil

end Turns

theorem reach_answers {M : Machine σ (Callback Req) (HandlerAction Resp)} {c : Call Req Resp}
    (hc : (callSystem Req Resp).Reach (CallServedBy M) c) :
    ∃ acts p, At c acts p ∧ Answers M c acts p :=
  reach_staged (fun _ => listening_answers)
    (fun _ _ _ _ _ _ _ hat h hg ht => turn_answers h hat hg ht) hc

/-! ### The answer -/

/-- Whatever the framework tells the handler about its requests, it sends at most one item. -/
def AnswersOnce (M : Machine σ (Callback Req) (HandlerAction Resp)) (rpcType : RpcType) : Prop :=
  ∀ requests callbacks, (rpcType.streamsRequests = false → requests.length ≤ 1) →
    told callbacks <+: plainRun requests → (replies M callbacks).length ≤ 1

section Once

variable {M : Machine σ (Callback Req) (HandlerAction Resp)} {c : Call Req Resp}
  {acts : List (Instr Resp)} {p : Phase Resp} {requests : List Req}

/-- A handler that has answered is silent. -/
lemma replies_eq_of_le_one {callbacks callbacks' : List (Callback Req)}
    (hinitial : callbacks <+: callbacks') (hone : (replies M callbacks').length ≤ 1)
    (hanswered : replies M callbacks ≠ []) : replies M callbacks' = replies M callbacks := by
  have hpos := List.length_pos_iff.mpr hanswered
  exact ((replies_mono M hinitial).eq_of_length_le (by omega)).symm

/-- `OnFinish` does not change what the handler answers. -/
lemma replies_told (hM : ∀ callbacks, told callbacks <+: plainRun requests →
      (replies M callbacks).length ≤ 1) (callbacks : List (Callback Req))
    (hanswered : ∀ callbacks', callbacks' ++ [.onFinish] <+: callbacks → replies M callbacks' ≠ [])
    (htold : told callbacks <+: plainRun requests) :
    replies M callbacks = replies M (told callbacks) := by
  induction callbacks using List.reverseRecOn with
  | nil => rfl
  | append_singleton callbacks cb ih =>
    have hinitial : callbacks <+: callbacks ++ [cb] := List.prefix_append _ _
    have htold' : told callbacks <+: plainRun requests := (hinitial.filter _).trans htold
    have ih := ih (fun pre hpre => hanswered pre (hpre.trans hinitial)) htold'
    by_cases hmem : .onFinish ∈ callbacks ++ [cb]
    · have hne : replies M callbacks ≠ [] := by
        rcases List.mem_append.mp hmem with hmem | hmem
        · obtain ⟨pre, post, rfl⟩ := List.append_of_mem hmem
          have hpre := hanswered pre ⟨post ++ [cb], by simp⟩
          intro hnil
          have hshort := replies_mono M (List.prefix_append pre (.onFinish :: post))
          rw [hnil, List.prefix_nil] at hshort
          exact hpre hshort
        · obtain rfl := (List.mem_singleton.mp hmem)
          exact hanswered callbacks List.prefix_rfl
      rw [replies_eq_of_le_one hinitial (hM _ htold) hne, ih]
      have hsame : told (told (callbacks ++ [cb])) = told (callbacks ++ [cb]) := by simp [told]
      refine (replies_eq_of_le_one (hinitial.filter _) ?_ (ih ▸ hne)).symm
      exact hM _ (hsame.symm ▸ htold)
    · rw [told_eq_self hmem]

/-- The requests whose events have been handled are one at most, unless they are streamed. -/
lemma Informs.length_given (h : Informs c acts p) (hwhole : c.rpc.rpcType.streamsRequests = false) :
    (given c.rpc).length ≤ 1 := by
  have hlen := h.whole hwhole
  rw [given, hwhole, if_neg (by simp), hlen]
  split <;> omega

lemma Answers.replies_told (h : Answers M c acts p) (hM : AnswersOnce M c.rpc.rpcType) :
    replies M c.rpc.callbacks = replies M (told c.rpc.callbacks) ∧
      (replies M c.rpc.callbacks).length ≤ 1 := by
  have honce := fun callbacks => hM (given c.rpc) callbacks h.informs.length_given
  exact ⟨Proofs.replies_told honce _ h.answered h.informs.told_initial,
    honce _ h.informs.told_initial⟩

/-- The handler's callbacks after the end of the reads are those of a plain run. -/
lemma Answers.told_plainRun (h : Answers M c acts p) (hdone : .onReadsDone ∈ c.rpc.callbacks) :
    told c.rpc.callbacks = plainRun c.rpc.delivered := by
  obtain ⟨hplain, hread, -⟩ := h.informs.ended hdone
  rw [hplain, h.informs.given_eq_delivered hread]

lemma Answers.sends_eq (h : Answers M c [] .idle) (hM : AnswersOnce M c.rpc.rpcType)
    (hdone : .onReadsDone ∈ c.rpc.callbacks)
    (hwrite : c.rpc.isRpcEventPending .write = false) (hmail : .internal ∉ c.mailbox) :
    c.rpc.sends = (replies M (plainRun c.rpc.delivered)).map (sendOp c.rpc.rpcType) := by
  obtain ⟨htold, hone⟩ := h.replies_told hM
  have hqueue : c.rpc.sendQueue = [] := by
    rcases h.queue_of_idle (h.informs.handler_of_callback hdone) hwrite hmail with
      hqueue | ⟨op, hop, -⟩
    · exact hqueue
    · have horder : c.rpc.sends ++ c.rpc.sendQueue.map (sendOp c.rpc.rpcType) =
          c.rpc.enqueued.map (sendOp c.rpc.rpcType) := h.sends.order
      have hproduced : c.rpc.enqueued = replies M c.rpc.callbacks := by
        simpa [unsent] using h.produced
      have hlen := congrArg List.length horder
      have hpos := List.length_pos_of_mem hop
      simp only [List.length_append, List.length_map, hproduced] at hlen
      exact List.length_eq_zero_iff.mp (by omega)
  rw [h.sends_of_queue hqueue, htold, h.told_plainRun hdone]

end Once

/-- With one event thread, for every handler that sends at most one item, from its callbacks and
not through a `Writer`, and whatever the order in which the operations of a call that the client
does not cancel come back: at most one operation is ever started, and it carries what the handler
has sent; and once the reads have ended, no operation but the notification `DONE` is outstanding and
no event is queued, it is what the handler puts out when it is simply run over the requests that
were delivered. -/
theorem single_reply (hn : options.numEventThreads = 1)
    {M : Machine σ (Callback Req) (HandlerAction Resp)} {s : Server Req Resp} {r : Nat}
    (hs : (serverSystem Req Resp options maps).Reach (ServedBy M r) s) (hr : r < s.nextRpc)
    (hM : AnswersOnce M (s.rpcs r).rpcType) :
    (s.rpcs r).sends.length ≤ 1 ∧
      (s.rpcs r).sends <+:
        (replies M (told (s.rpcs r).callbacks)).map (sendOp (s.rpcs r).rpcType) ∧
      ((s.tasks 0).code = [] → .onReadsDone ∈ (s.rpcs r).callbacks →
        (∀ tag, tag ≠ .done → outstanding s r tag = 0) → (∀ e ∈ s.eventQueues 0, e.rpc ≠ r) →
        (s.rpcs r).sends =
          (replies M (plainRun (s.rpcs r).delivered)).map (sendOp (s.rpcs r).rpcType)) := by
  obtain ⟨hR, hq⟩ := routed_of_one_thread hn hs.reachable hr
  obtain ⟨acts, p, hat, h⟩ := reach_answers (reach_callServedBy hn hs hr)
  obtain ⟨htold, hone⟩ := h.replies_told hM
  have hinitial := h.sends_initial
  refine ⟨?_, htold ▸ hinitial, fun hidle hdone hout hqueued => ?_⟩
  · have hlen := hinitial.length_le
    rw [List.length_map] at hlen
    exact hlen.trans hone
  · obtain ⟨rfl, rfl⟩ := hat.code_eq_nil (call_code_idle hq hidle)
    have hwrite := not_pending_of_outstanding hs.reachable hr hR (hout .write (by simp))
    refine h.sends_eq hM hdone hwrite (fun hmem => ?_)
    exact hqueued _ (hq ▸ internal_mem_mailbox hmem) rfl

/-! ### A handler of the tests -/

lemma countP_told {p : Callback Req → Bool} (hp : p .onFinish = false)
    (callbacks : List (Callback Req)) : (told callbacks).countP p = callbacks.countP p := by
  rw [told, List.countP_filter]
  congr 1
  funext cb
  cases cb <;> simp [isOnFinish, hp]

def isOnReadsDone : Callback Req → Bool
  | .onReadsDone => true
  | .onInitialize | .onRequest _ | .onFinish => false

lemma length_replies_le {M : Machine σ (Callback Req) (HandlerAction Resp)}
    (hout : ∀ q cb, ((M.out q cb).filterMap HandlerAction.item).length ≤ (isOnReadsDone cb).toNat)
    (callbacks : List (Callback Req)) :
    (replies M callbacks).length ≤ callbacks.countP isOnReadsDone := by
  induction callbacks using List.reverseRecOn with
  | nil => exact Nat.le_refl _
  | append_singleton callbacks cb ih =>
    have hlast := hout (M.after callbacks) cb
    rw [replies_concat, List.length_append, List.countP_append, List.countP_singleton]
    exact Nat.add_le_add ih (hlast.trans_eq (by cases isOnReadsDone cb <;> rfl))

/-- A handler that sends one item in `OnReadsDone` and nothing elsewhere answers once. -/
lemma answersOnce_of_onReadsDone {M : Machine σ (Callback Req) (HandlerAction Resp)}
    (hout : ∀ q cb, ((M.out q cb).filterMap HandlerAction.item).length ≤ (isOnReadsDone cb).toNat)
    (rpcType : RpcType) : AnswersOnce M rpcType := by
  intro requests callbacks _ htold
  have hcount : (told callbacks).countP isOnReadsDone = callbacks.countP isOnReadsDone :=
    countP_told rfl callbacks
  have hplain : (plainRun requests).countP isOnReadsDone = 1 := by
    simp [plainRun, opening, isOnReadsDone, List.countP_append, List.countP_cons]
  have hle := htold.sublist.countP_le (p := isOnReadsDone)
  have hlen := length_replies_le hout callbacks
  omega

/-- The handler `GetSumHandler`, which sends the sum of its requests when they end. -/
def getSumHandler : Machine Nat (Callback Nat) (HandlerAction Nat) where
  start := 0
  next := fun sum cb =>
    match cb with
    | .onRequest (some input) => sum + input
    | _ => sum
  out := fun sum cb =>
    match cb with
    | .onReadsDone => [.send sum]
    | _ => []

/-- Two requests arrive and end, the sum is sent, and `Finish` completes. -/
def sumOfRequests : List (Label Nat Nat) :=
  openConnection ++ event .read true (some 3) ++ execs 3 ++ event .read true (some 4) ++ execs 3 ++
    event .read false none ++ execs 1 ++ callback [.send 7] ++ execs 4 ++ writeNeeded 5 ++
    event .finish true none ++ execs 3

theorem single_reply_of_sum :
    ∃ s, (serverSystem Nat Nat oneEventThread sumService).Reach (ServedBy getSumHandler 0) s ∧
      (s.rpcs 0).delivered = [3, 4] ∧ (s.rpcs 0).sends = [.finish (some 7) .ok] := by
  obtain ⟨s, hs, hp⟩ := exists_reach oneEventThread sumService (servedBy getSumHandler 0)
    (servedBy_sound _ _) sumOfRequests
    (fun s => 0 < s.nextRpc ∧ (s.rpcs 0).rpcType = .clientStreaming ∧
      (s.rpcs 0).delivered = [3, 4] ∧ (s.tasks 0).code = [] ∧
      .onReadsDone ∈ (s.rpcs 0).callbacks ∧ s.eventQueues 0 = [] ∧
      [Tag.newConnection, .read, .write, .finish].all (fun tag => outstanding s 0 tag = 0))
    (by decide +kernel)
  obtain ⟨hr, htype, hdelivered, hidle, hdone, hqueue, hall⟩ := of_decide_eq_true hp
  have hM : AnswersOnce getSumHandler (s.rpcs 0).rpcType := by
    apply answersOnce_of_onReadsDone
    intro q cb
    cases cb <;> simp [getSumHandler, HandlerAction.item, isOnReadsDone]
  have hsends := (single_reply rfl hs hr hM).2.2 hidle hdone ?_ (by simp [hqueue])
  · rw [hdelivered, htype] at hsends
    exact ⟨s, hs, hdelivered, hsends⟩
  · intro tag hne
    exact of_decide_eq_true (List.all_eq_true.mp hall tag (by cases tag <;> simp_all))

end AsyncGrpc.Proofs
