import AsyncGrpc.Service

/-!
# What an instruction does

`Runs` lists the outcomes of the instructions once, each with what decides for it. A fact about
every instruction is proved by cases on it.
-/

namespace AsyncGrpc.Proofs

variable {Req Resp : Type}

inductive Runs (env : Surroundings) (acts : List (HandlerAction Resp)) (x : Rpc Req Resp) :
    Instr Resp → Outcome Req Resp → Prop
  | handle {tag} :
      Runs env acts x (.handle tag)
        ⟨x.startHandling tag, Service.handleEvent tag.event (x.event tag).ok, .none⟩
  | handleInternal (halive : env.alive = true) :
      Runs env acts x .handleInternal ⟨x, Service.handleWrite true ++ [.releaseShared], .none⟩
  | stale (halive : env.alive = false) : Runs env acts x .handleInternal ⟨x, [], .none⟩
  | releaseShared : Runs env acts x .releaseShared ⟨x, [], .none⟩
  | handleNewConnection {ok} :
      Runs env acts x (.handleNewConnection ok)
        ⟨x, Service.handleNewConnection env.shuttingDown ok, .none⟩
  | remove : Runs env acts x .remove ⟨x, [], .remove⟩
  | connect (hhandler : x.handler = false) :
      Runs env acts x .onConnection
        ⟨{ x with handler := true }, [.callback .onInitialize, .requestStreamingReadIfNeeded],
          .none⟩
  | reconnect (hhandler : x.handler = true) :
      Runs env acts x .onConnection ⟨x, [.requestStreamingReadIfNeeded], .none⟩
  | callback {kind} (hhandler : x.handler = true) :
      Runs env acts x (.callback kind)
        ⟨{ x with
            callbacks := x.callbacks ++ [x.callback kind]
            passed := x.passed ++ acts.filterMap HandlerAction.item },
          acts.flatMap HandlerAction.instrs, .none⟩
  | startRead (hstream : x.rpcType.streamsRequests = true) :
      Runs env acts x .requestStreamingReadIfNeeded ⟨x.startOp .read, [], .none⟩
  | readWhole (hstream : x.rpcType.streamsRequests = false) :
      Runs env acts x .requestStreamingReadIfNeeded
        ⟨x, [.callback .onRequest, .callback .onReadsDone], .none⟩
  | keepQueue (hqueue : x.sendQueue = [] ∨ x.isRpcEventPending .write = true ∨
        x.isRpcEventPending .finish = true) :
      Runs env acts x .handleSendQueue ⟨x, [], .none⟩
  | takeFinish {item rest} (hqueue : x.sendQueue = item :: rest)
      (hwrite : x.isRpcEventPending .write = false)
      (hfinish : x.isRpcEventPending .finish = false)
      (hitem : item.msg = none ∨ x.rpcType.streamsResponses = false) :
      Runs env acts x .handleSendQueue
        ⟨{ x with sendQueue := rest }, [.performFinish item], .none⟩
  | takeWrite {item rest m} (hqueue : x.sendQueue = item :: rest)
      (hwrite : x.isRpcEventPending .write = false)
      (hfinish : x.isRpcEventPending .finish = false)
      (hitem : item.msg = some m) (hstream : x.rpcType.streamsResponses = true) :
      Runs env acts x .handleSendQueue
        ⟨{ x with sendQueue := rest }, [.performWrite item], .none⟩
  | performFinish {item op} (hop : Rpc.finishOp x.rpcType item = some op) :
      Runs env acts x (.performFinish item)
        ⟨{ x.startOp .finish with
            response := item.msg.or x.response
            sends := x.sends ++ [op] }, [], .none⟩
  | performWrite {item m} (hmsg : item.msg = some m)
      (hstream : x.rpcType.streamsResponses = true) :
      Runs env acts x (.performWrite item)
        ⟨{ x.startOp .write with
            response := some m
            sends := x.sends ++ [.write m] }, [], .none⟩
  | keep (hpending : x.isAnyEventPending = true) :
      Runs env acts x .removeIfNotPending ⟨x, [], .none⟩
  | erase (hpending : x.isAnyEventPending = false) :
      Runs env acts x .removeIfNotPending ⟨x, [], .remove⟩
  | clone : Runs env acts x .clone ⟨x, [], .clone⟩
  | enqueueMessage {item} :
      Runs env acts x (.enqueueMessage item) ⟨x.enqueueMessage item, [], .none⟩
  | getWeakPtr (hactive : env.active = true) : Runs env acts x .getWeakPtr ⟨x, [], .none⟩
  | pushWriteNeeded : Runs env acts x .pushWriteNeeded ⟨x, [], .pushWriteNeeded⟩
  | getWriter (hactive : env.active = true) :
      Runs env acts x .getWriter ⟨{ x with hasWriter := true }, [], .none⟩

section

variable {env : Surroundings} {acts : List (HandlerAction Resp)} {x : Rpc Req Resp}

lemma streamsResponses_eq_false_iff {rpcType : RpcType} :
    rpcType.streamsResponses = false ↔ rpcType = .normalRpc ∨ rpcType = .clientStreaming := by
  cases rpcType <;> simp [RpcType.streamsResponses]

lemma runs_requestStreamingReadIfNeeded :
    Runs env acts x .requestStreamingReadIfNeeded
      ⟨x.requestStreamingReadIfNeeded.1, x.requestStreamingReadIfNeeded.2, .none⟩ := by
  unfold Rpc.requestStreamingReadIfNeeded
  split <;> rename_i htype
  · exact .startRead (by rw [htype]; rfl)
  · exact .startRead (by rw [htype]; rfl)
  · exact .readWhole (by rw [htype]; rfl)
  · exact .readWhole (by rw [htype]; rfl)

lemma runs_handleSendQueue :
    Runs env acts x .handleSendQueue ⟨x.handleSendQueue.1, x.handleSendQueue.2, .none⟩ := by
  unfold Rpc.handleSendQueue
  split
  · rename_i hqueue
    exact .keepQueue (.inl hqueue)
  · rename_i item rest hqueue
    split
    · rename_i hpending
      exact .keepQueue (.inr (by simpa using hpending))
    · rename_i hpending
      rw [Bool.or_eq_true, not_or, Bool.not_eq_true, Bool.not_eq_true] at hpending
      split
      · rename_i hitem
        refine .takeFinish hqueue hpending.1 hpending.2 ?_
        simpa [or_assoc, streamsResponses_eq_false_iff] using hitem
      · rename_i hitem
        simp only [Bool.or_eq_true, Option.isNone_iff_eq_none, decide_eq_true_eq, or_assoc,
          ← streamsResponses_eq_false_iff, not_or, Bool.not_eq_false] at hitem
        obtain ⟨m, hm⟩ := Option.ne_none_iff_exists'.mp hitem.1
        exact .takeWrite hqueue hpending.1 hpending.2 hm hitem.2

lemma runs_performWrite {item : SendItem Resp} {y : Rpc Req Resp}
    (h : x.performWrite item = some y) : Runs env acts x (.performWrite item) ⟨y, [], .none⟩ := by
  unfold Rpc.performWrite at h
  split at h
  · cases h
  · rename_i m hm
    split at h
    · cases h
    · rename_i htype
      cases h
      rw [← streamsResponses_eq_false_iff, Bool.not_eq_false] at htype
      exact .performWrite hm htype

theorem run_runs {i : Instr Resp} {o : Outcome Req Resp} (h : i.run env acts x = some o) :
    Runs env acts x i o := by
  cases i with
  | handle tag =>
    cases h
    exact .handle
  | handleInternal =>
    simp only [Instr.run] at h
    split at h <;> rename_i halive <;> cases h
    · exact .handleInternal halive
    · exact .stale (by simpa using halive)
  | releaseShared =>
    cases h
    exact .releaseShared
  | handleNewConnection ok =>
    cases h
    exact .handleNewConnection
  | remove =>
    cases h
    exact .remove
  | onConnection =>
    cases h
    unfold Rpc.onConnection
    split <;> rename_i hhandler
    · exact .reconnect hhandler
    · exact .connect (by simpa using hhandler)
  | callback kind =>
    simp only [Instr.run] at h
    split at h <;> rename_i hhandler <;> cases h
    exact .callback hhandler
  | requestStreamingReadIfNeeded =>
    cases h
    exact runs_requestStreamingReadIfNeeded
  | handleSendQueue =>
    cases h
    exact runs_handleSendQueue
  | performFinish item =>
    obtain ⟨y, hy, rfl⟩ := Option.map_eq_some_iff.mp h
    obtain ⟨op, hop, rfl⟩ := Option.map_eq_some_iff.mp hy
    exact .performFinish hop
  | performWrite item =>
    obtain ⟨y, hy, rfl⟩ := Option.map_eq_some_iff.mp h
    exact runs_performWrite hy
  | removeIfNotPending =>
    cases h
    split <;> rename_i hpending
    · exact .keep hpending
    · exact .erase (by simpa using hpending)
  | clone =>
    cases h
    exact .clone
  | enqueueMessage item =>
    cases h
    exact .enqueueMessage
  | getWeakPtr =>
    simp only [Instr.run] at h
    split at h <;> rename_i hactive <;> cases h
    exact .getWeakPtr hactive
  | pushWriteNeeded =>
    cases h
    exact .pushWriteNeeded
  | getWriter =>
    simp only [Instr.run] at h
    split at h <;> rename_i hactive <;> cases h
    exact .getWriter hactive

end

end AsyncGrpc.Proofs
