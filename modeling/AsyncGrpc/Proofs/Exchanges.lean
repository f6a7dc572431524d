import AsyncGrpc.Exchange
import AsyncGrpc.Proofs.AsyncClients
import AsyncGrpc.Proofs.PartSteps
import AsyncGrpc.Proofs.StreamedReply
import AsyncGrpc.Proofs.UnaryReply

/-!
# From the handler to the callback

What a handler sends on the server is what the callback of the client is given, whatever the
order in which the threads of the two processes run and gRPC completes their operations.
-/

namespace AsyncGrpc.Proofs

open Function Transition

variable {σ Req Resp : Type} {options : Options} {maps : List (List (String × RpcHandlerInfo))}

/-! ### The operations of an `Rpc` are never taken back -/

lemma run_sends {i : Instr Resp} {env : Surroundings} {acts : List (HandlerAction Resp)}
    {x : Rpc Req Resp} {o : Outcome Req Resp} (h : i.run env acts x = some o) :
    x.sends <+: o.rpc.sends := by
  cases run_runs h with
  | performFinish _ | performWrite _ _ => exact List.prefix_append _ _
  | _ => exact List.prefix_rfl

lemma writerStep_sends {w w' : WriterCall Resp} {env : Surroundings} {x y : Rpc Req Resp}
    {effect : Effect} (h : w.step env x = some (y, w', effect)) : y.sends = x.sends := by
  unfold WriterCall.step at h
  split at h <;> (try split at h) <;> cases h <;> rfl

lemma does_sends {c c' : Part Req Resp} {m : PartLabel Req Resp} (h : Does c m c') :
    c.rpc.sends <+: c'.rpc.sends := by
  cases h with
  | exec _ hrun =>
    rw [Part.apply_rpc]
    exact run_sends hrun
  | stepWriter _ hw => rw [Part.apply_rpc, writerStep_sends hw]
  | _ => exact List.prefix_rfl

lemma moves_sends {s s' : Server Req Resp} {l : Label Req Resp} (h : Moves s l s') (hh : Housed s)
    {r : Nat} (hr : r < s.nextRpc) : (s.rpcs r).sends <+: (s'.rpcs r).sends := by
  rcases moves_part h hh hr with hsame | ⟨m, -, hstep⟩
  · rw [show s'.rpcs r = s.rpcs r from congrArg Part.rpc hsame]
  · exact does_sends (step_does hstep)

/-- What was started for an `Rpc` stays started. -/
lemma step_sends {s s' : Server Req Resp} {l : Label Req Resp} {r : Nat} {ops : List (SendOp Resp)}
    (hs : (serverSystem Req Resp options maps).Reachable s) (hstep : s.step l = some s')
    (h : r < s.nextRpc ∧ ops <+: (s.rpcs r).sends) :
    r < s'.nextRpc ∧ ops <+: (s'.rpcs r).sends := by
  have hm := (step_moves hstep).2
  exact ⟨h.1.trans_le (moves_nextRpc hm), h.2.trans (moves_sends hm (reachable_housed hs) h.1)⟩

/-- The guard on the steps of the server side of an exchange. -/
def OnServer {κ τ : Type} (G : Server Req Resp → Label Req Resp → Prop)
    (e : Server Req Resp × τ) (l : Label Req Resp ⊕ κ) : Prop :=
  ∀ l', l = .inl l' → G e.1 l'

/-! ### The request of the client -/

/-- The connection that the `Rpc` accepts carries the request. -/
def Asks (request : Req) (r : Nat) (l : Label Req Resp) : Prop :=
  ∀ cq q, l = .next cq r .newConnection true q → q = some request

/-- The same condition on a step of a call. -/
def CallAsks (request : Req) (l : CallLabel Req Resp) : Prop :=
  ∀ q, l = .next .newConnection true q → q = some request

lemma asks_of_connects [DecidableEq Req] [DecidableEq Resp] {request : Req} {r : Nat}
    {written : Bool} {l : Label Req Resp} (h : connects request r written l = true) :
    Asks request r l := by
  rintro cq q rfl
  simp only [connects, ne_eq, not_true_eq_false, decide_false, Bool.false_or, Bool.and_eq_true,
    decide_eq_true_eq] at h
  exact h.2

section Asked

variable {M : Machine σ (Callback Req) (HandlerAction Resp)} {request : Req}
  {c c' : Call Req Resp} {acts acts' : List (Instr Resp)} {p p' : Phase Resp}
  {l : CallLabel Req Resp}

/-- A call that does not stream its requests is delivered the request of its connection. -/
lemma Informs.delivered_next (h : Informs c acts p)
    (hwhole : c.rpc.rpcType.streamsRequests = false) (hdelivered : c.rpc.delivered <+: [request])
    {tag : Tag} {ok : Bool} {q : Option Req} (hmay : c.rpc.mayReturn tag ok q = true)
    (hasks : tag = .newConnection → ok = true → q = some request) :
    c.rpc.delivered ++ q.toList <+: [request] := by
  obtain ⟨hheld, -, hdelivers⟩ := mayReturn_iff.mp hmay
  have hread := h.lives.accounts.held_ne_read hwhole hheld
  by_cases hnew : tag = .newConnection ∧ ok = true
  · obtain ⟨rfl, rfl⟩ := hnew
    have hlength := h.whole hwhole
    rw [h.lives.accounts.requested hheld] at hlength
    have hnil : c.rpc.delivered = [] := List.length_eq_zero_iff.mp (by simpa using hlength)
    rw [hnil, hasks rfl rfl]
    exact List.prefix_rfl
  · have hnone : q = none := by
      cases q with
      | none => rfl
      | some q =>
        have hcarries : ok = true ∧ tag = .newConnection ∧ c.rpc.rpcType.streamsRequests = false := by
          simpa [Rpc.delivers, hread] using hdelivers.symm
        exact absurd ⟨hcarries.2.1, hcarries.1⟩ hnew
    rw [hnone, Option.toList_none, List.append_nil]
    exact hdelivered

lemma turn_asked (h : Informs c acts p) (hwhole : c.rpc.rpcType.streamsRequests = false)
    (hdelivered : c.rpc.delivered <+: [request]) (hg : CallAsks request l)
    (ht : Turn c acts p l c' acts' p') : c'.rpc.delivered <+: [request] := by
  cases ht with
  | @next _ _ tag ok q _ hmay =>
    refine h.delivered_next hwhole hdelivered hmay ?_
    rintro rfl rfl
    exact hg q rfl
  | _ => exact hdelivered

theorem reach_asked
    (hc : (callSystem Req Resp).Reach (fun c l => CallServedBy M c l ∧ CallAsks request l) c) :
    ∃ acts p, At c acts p ∧ Informs c acts p ∧
      (c.rpc.rpcType.streamsRequests = false → c.rpc.delivered <+: [request]) := by
  refine reach_staged (P := fun c acts p => Informs c acts p ∧
      (c.rpc.rpcType.streamsRequests = false → c.rpc.delivered <+: [request]))
    (fun c hinit => ⟨listening_informs hinit, ?_⟩) ?_ hc
  · obtain ⟨methodIndex, cq, queue, info, service, parent, shuttingDown, rfl⟩ := hinit
    exact fun _ => List.nil_prefix
  · intro c acts p l c' acts' p' _ h hg ht
    refine ⟨turn_informs h.1 ht, fun hwhole => ?_⟩
    rw [turn_rpcType ht] at hwhole
    exact turn_asked h.1 hwhole (h.2 hwhole) hg.2 ht

/-- A call whose requests are not streamed is served as one that is given its only request. -/
theorem reach_serves_of_asked
    (hc : (callSystem Req Resp).Reach (fun c l => CallServedBy M c l ∧ CallAsks request l) c)
    (hwhole : c.rpc.rpcType.streamsRequests = false) :
    (callSystem Req Resp).Reach (CallServes M [request]) c := by
  refine hc.invariant
    (P := fun c => c.rpc.rpcType.streamsRequests = false →
      (callSystem Req Resp).Reach (CallServes M [request]) c)
    (fun c hinit _ => .init hinit) ?_ hwhole
  intro c l c' hreach ih hg hstep hwhole
  obtain ⟨acts, p, hat, hinforms, hdelivered⟩ := reach_asked hreach
  obtain ⟨acts', p', -, ht⟩ := step_turn hat hstep
  rw [turn_rpcType ht] at hwhole
  refine .step (ih hwhole) ⟨hg.1, ?_, ?_⟩ hstep
  · rintro tag ok q rfl
    cases ht with
    | next _ hmay =>
      refine hinforms.delivered_next hwhole (hdelivered hwhole) hmay ?_
      rintro rfl rfl
      exact hg.2 q rfl
  · rintro q rfl
    cases ht with
    | next _ hmay =>
      exact absurd rfl (hinforms.lives.accounts.held_ne_read hwhole (mayReturn_iff.mp hmay).1)

end Asked

lemma reach_callAsked (hn : options.numEventThreads = 1)
    {M : Machine σ (Callback Req) (HandlerAction Resp)} {request : Req} {s : Server Req Resp}
    {r : Nat} (hs : (serverSystem Req Resp options maps).Reach
      (fun s l => ServedBy M r s l ∧ Asks request r l) s) (hr : r < s.nextRpc) :
    (callSystem Req Resp).Reach (fun c l => CallServedBy M c l ∧ CallAsks request l)
      (s.call r) := by
  refine reach_callOf hn (fun s l s' m hs hl hstep hR hproj => ⟨?_, ?_⟩) hs hr
  · exact hl.1.project hs hstep hR hproj
  · rintro q rfl
    obtain ⟨cq, rfl⟩ := project_next hproj
    exact hl.2 cq q rfl

/-- What is started for a client that sends one request is what the handler sends. -/
lemma sends_of_asked (hn : options.numEventThreads = 1)
    {M : Machine σ (Callback Req) (HandlerAction Resp)} {request : Req} {messages : List Resp}
    {status : Status} (H : FinishesLast M [request] messages status) {s : Server Req Resp} {r : Nat}
    (hs : (serverSystem Req Resp options maps).Reach
      (fun s l => ServedBy M r s l ∧ Asks request r l) s) (hr : r < s.nextRpc)
    (htype : (s.rpcs r).rpcType = .serverStreaming) :
    (s.rpcs r).sends <+: messages.map .write ++ [.finish none status] := by
  have hstream : (s.call r).rpc.rpcType.streamsResponses = true :=
    congrArg RpcType.streamsResponses htype
  have hwhole : (s.call r).rpc.rpcType.streamsRequests = false :=
    congrArg RpcType.streamsRequests htype
  have hserves := reach_serves_of_asked (reach_callAsked hn hs hr) hwhole
  obtain ⟨acts, p, -, h⟩ := reach_replies H hserves hstream (fun _ => rfl)
  exact h.sends_first H hstream

/-! ### A call with streamed responses -/

section Streamed

variable {request : Req} {r : Nat}

/-- What the client has received was sent: its responses in the order of the writes, and a status
that is `OK` after all of them. -/
structure Carried (r : Nat) (e : Server Req Resp × StreamingAsyncClient Resp) : Prop where
  responses : e.2.received = [] ∨
    r < e.1.nextRpc ∧ e.2.received.map SendOp.write <+: (e.1.rpcs r).sends
  status : ∀ ok status, .finish ok status ∈ e.2.returned ++ e.2.completed → status.isOk = true →
    r < e.1.nextRpc ∧
      e.2.received.map SendOp.write ++ [.finish none status] <+: (e.1.rpcs r).sends

variable {e : Server Req Resp × StreamingAsyncClient Resp}

lemma Carried.server (h : Carried r e) {s : Server Req Resp} {l : Label Req Resp}
    (hs : (serverSystem Req Resp options maps).Reachable e.1) (hstep : e.1.step l = some s) :
    Carried r (s, e.2) where
  responses := h.responses.imp_right (step_sends hs hstep)
  status := fun ok status hmem hok => step_sends hs hstep (h.status ok status hmem hok)

/-- Only the completion of an operation brings something to the client. -/
lemma Carried.client (h : Carried r e) {c : StreamingAsyncClient Resp}
    (hsame : c.returned ++ c.completed = e.2.returned ++ e.2.completed) : Carried r (e.1, c) := by
  have hreceived : c.received = e.2.received := congrArg (List.filterMap _) hsame
  constructor
  · rw [hreceived]
    exact h.responses
  · rw [hreceived, hsame]
    exact h.status

lemma received_concat (c : StreamingAsyncClient Resp) (x : Completion Resp) :
    (c.returned ++ (c.completed ++ [x])).filterMap Completion.response =
      c.received ++ x.response.toList := by
  unfold StreamingAsyncClient.received
  rw [← List.append_assoc, List.filterMap_append]
  cases hx : x.response <;> simp [hx]

/-- No response follows an `OK` status: gRPC would have taken it for the message that the server
sent in place of its `Finish`. -/
lemma Carried.read_of_status (h : Carried r e) {m : Resp} {ok : Bool} {status : Status}
    (hsent : (e.2.received ++ [m]).map SendOp.write <+: (e.1.rpcs r).sends)
    (hmem : .finish ok status ∈ e.2.returned ++ e.2.completed) : status.isOk = false := by
  by_contra hok
  obtain ⟨-, hfinish⟩ := h.status ok status hmem (by simpa using hok)
  rw [List.map_append, List.map_singleton] at hsent
  have hlen : (e.2.received.map SendOp.write ++ [SendOp.write m]).length =
      (e.2.received.map SendOp.write ++ [SendOp.finish none status]).length := by simp
  have heq := (List.prefix_of_prefix_length_le hsent hfinish hlen.le).eq_of_length hlen
  cases List.append_cancel_left heq

variable [DecidableEq Req] [DecidableEq Resp]

lemma Carried.complete (h : Carried r e) {x : Completion Resp} {c : StreamingAsyncClient Resp}
    (hallows : carriesStream request r e (.inr (.complete x)) = true)
    (hstep : e.2.complete x = some c) : Carried r (e.1, c) := by
  obtain ⟨hreturned, hcompleted⟩ :
      c.returned = e.2.returned ∧ c.completed = e.2.completed ++ [x] := by
    simp only [StreamingAsyncClient.complete] at hstep
    split at hstep
    · cases hstep
      rcases x with ok | (_ | m) | ⟨ok, status⟩ <;> exact ⟨rfl, rfl⟩
    · cases hstep
  have hreceived : c.received = e.2.received ++ x.response.toList := by
    rw [← received_concat, ← hreturned, ← hcompleted]
    rfl
  have hmem : ∀ y ∈ c.returned ++ c.completed, y ∈ e.2.returned ++ e.2.completed ∨ y = x := by
    intro y hy
    rw [hreturned, hcompleted, ← List.append_assoc, List.mem_append, List.mem_singleton] at hy
    exact hy
  cases hresponse : x.response with
  | none =>
    have hsame : c.received = e.2.received := by simpa [hresponse] using hreceived
    refine ⟨by rw [hsame]; exact h.responses, fun ok status hin hok => ?_⟩
    rw [hsame]
    rcases hmem _ hin with hold | rfl
    · exact h.status ok status hold hok
    · simp only [carriesStream, hok, Bool.not_true, Bool.false_or, Bool.and_eq_true,
        decide_eq_true_eq] at hallows
      exact ⟨hallows.1, List.isPrefixOf_iff_prefix.mp hallows.2⟩
  | some m =>
    obtain rfl : x = .read (some m) := by
      rcases x with ok | response | ⟨ok, status⟩ <;> cases hresponse
      rfl
    have hmore : c.received = e.2.received ++ [m] := hreceived
    simp only [carriesStream, Bool.and_eq_true, decide_eq_true_eq] at hallows
    have hsent := List.isPrefixOf_iff_prefix.mp hallows.2
    refine ⟨by rw [hmore]; exact .inr ⟨hallows.1, hsent⟩, fun ok status hin hok => ?_⟩
    have hold := (hmem _ hin).resolve_right (by simp)
    exact absurd hok (by simp [h.read_of_status hsent hold])

theorem reach_carried {G : Server Req Resp × StreamingAsyncClient Resp →
      Label Req Resp ⊕ ClientLabel Resp → Prop}
    (he : (streamedCall Req Resp options maps request r).Reach G e) : Carried r e := by
  refine he.invariant ?_ ?_
  · rintro ⟨s, c⟩ ⟨-, response, rfl⟩
    exact ⟨.inl rfl, fun ok status hmem => by cases hmem⟩
  · intro e l e' hreach h _ hstep
    obtain ⟨hallows, hmove⟩ := System.beside_step hstep
    cases hmove with
    | left hleft =>
      have hs : (serverSystem Req Resp options maps).Reachable e.1 :=
        System.Reach.left (fun _ _ _ _ _ _ _ => trivial) hreach
      exact h.server hs hleft
    | @right l c hright =>
      cases l with
      | writeAsync =>
        simp only [streamingAsyncClient] at hright
        split at hright
        · cases hright
        · cases hright
          exact h.client rfl
      | complete x => exact h.complete hallows hright
      | next =>
        simp only [streamingAsyncClient, StreamingAsyncClient.next] at hright
        split at hright
        · rename_i hcompleted
          cases hright
          exact h.client (by simp [hcompleted])
        · cases hright
      | exec =>
        obtain ⟨instr, task, status, -, rfl⟩ := exec_eq hright
        exact h.client rfl

end Streamed

section Writes

variable {xs ys : List Resp} {status status' : Status}

lemma map_write_prefix (h : xs.map SendOp.write <+: ys.map SendOp.write ++ [.finish none status]) :
    xs <+: ys := by
  have hwrite : Injective (SendOp.write : Resp → SendOp Resp) := fun _ _ heq => SendOp.write.inj heq
  rcases List.prefix_concat_iff.mp h with heq | hshort
  · have hmem : SendOp.finish none status ∈ xs.map SendOp.write := by simp [heq]
    simp at hmem
  · exact (List.prefix_map_iff_of_injective hwrite).mp hshort

/-- Nothing but the `Finish` of the server is taken for its end. -/
lemma map_write_finish (h : xs.map SendOp.write ++ [.finish none status'] <+:
      ys.map SendOp.write ++ [.finish none status]) : xs = ys ∧ status' = status := by
  have hwrite : Injective (SendOp.write : Resp → SendOp Resp) := fun _ _ heq => SendOp.write.inj heq
  rcases List.prefix_concat_iff.mp h with heq | hshort
  · obtain ⟨hmap, hlast⟩ := List.append_inj' heq rfl
    cases hlast
    exact ⟨hwrite.list_map hmap, rfl⟩
  · have hmem : SendOp.finish none status' ∈ ys.map SendOp.write := hshort.subset (by simp)
    simp at hmem

end Writes

section Client

variable {c : StreamingAsyncClient Resp}

lemma filterMap_response_callsFor (xs : List (Completion Resp)) :
    (callsFor xs).filterMap ClientCall.response = xs.filterMap Completion.response := by
  unfold callsFor
  rw [List.filterMap_map]
  exact List.filterMap_some

/-- The callback is given what has been received. -/
lemma Follows.responses (h : Follows c) :
    c.calls.filterMap ClientCall.response <+: c.received := by
  obtain ⟨terminal, houtputs, hcloses⟩ := h.accepted.outputs
  have hterminal : terminal.filterMap ClientCall.response = [] := by
    unfold Closes at hcloses
    split at hcloses
    · rw [hcloses]
      rfl
    · obtain ⟨status, rfl⟩ := hcloses
      rfl
  have hcalls : c.calls <+: callsFor c.returned ++ terminal := ⟨_, h.calls.trans houtputs⟩
  have hresponses := hcalls.filterMap ClientCall.response
  rw [List.filterMap_append, hterminal, List.append_nil, filterMap_response_callsFor]
    at hresponses
  exact hresponses.trans ((List.prefix_append _ _).filterMap _)

/-- After the `FINISH` nothing is on its way. -/
lemma Follows.received_of_finish (h : Follows c) {ok : Bool} {status : Status}
    (hfinish : .finish ok status ∈ c.returned) :
    c.received = c.returned.filterMap Completion.response := by
  have hwritten : c.written = true := by
    by_contra hw
    rw [(h.fresh (by simpa using hw)).2.2.2] at hfinish
    cases hfinish
  have hdue := h.due hwritten
  rw [(h.accepted.of_finish hfinish).1] at hdue
  have hcompleted : c.completed = [] := by
    have hlength := congrArg List.length hdue
    simp only [ClientStage.due, List.length_append, List.length_map, List.length_nil] at hlength
    exact List.length_eq_zero_iff.mp (by omega)
  unfold StreamingAsyncClient.received
  rw [hcompleted, List.append_nil]

end Client

/-- A call with streamed responses, from the handler of the server to the callback of the client,
in every interleaving of the two processes and of gRPC. Let the handler `M`, run over the request
of the client, send some messages and then call `Finish`, once and as its last send. Then the
callback is given a first part of the messages, in their order. If the client has seen its write
and its finish succeed, with a status that is `OK`, that status is the one of the handler, and the
callback has been given every message and then the end of the call. -/
theorem streamed_call [DecidableEq Req] [DecidableEq Resp] (hn : options.numEventThreads = 1)
    {M : Machine σ (Callback Req) (HandlerAction Resp)} {request : Req} {messages : List Resp}
    {status : Status} (H : FinishesLast M [request] messages status) {r : Nat}
    {e : Server Req Resp × StreamingAsyncClient Resp}
    (he : (streamedCall Req Resp options maps request r).Reach (OnServer (ServedBy M r)) e)
    (htype : (e.1.rpcs r).rpcType = .serverStreaming) :
    e.2.calls.filterMap ClientCall.response <+: messages ∧
      ∀ status', .write true ∈ e.2.returned → .finish true status' ∈ e.2.returned →
        status'.isOk = true → e.2.task = [] →
        status' = status ∧
          e.2.calls = messages.map (fun m => ⟨.ok, some m⟩) ++ [⟨.ok, none⟩] := by
  have hserver : (serverSystem Req Resp options maps).Reach
      (fun s l => ServedBy M r s l ∧ Asks request r l) e.1 :=
    System.Reach.left (fun _ _ _ _ hg hallows _ => ⟨hg _ rfl, asks_of_connects hallows⟩) he
  have hclient : (streamingAsyncClient Resp).Reachable e.2 :=
    System.Reach.right he
  have hcarried := reach_carried he
  have hfollows := reachable_follows hclient
  have hsends := fun hr => sends_of_asked hn H hserver hr htype
  refine ⟨hfollows.responses.trans ?_, fun status' hwrite hfinish hok htask => ?_⟩
  · rcases hcarried.responses with hnil | ⟨hr, hsent⟩
    · rw [hnil]
      exact List.nil_prefix
    · exact map_write_prefix (hsent.trans (hsends hr))
  · obtain ⟨hr, hsent⟩ := hcarried.status true status' (List.mem_append_left _ hfinish) hok
    obtain ⟨hreceived, hstatus⟩ := map_write_finish (hsent.trans (hsends hr))
    refine ⟨hstatus, ?_⟩
    have hcalls := hfollows.calls
    rw [htask, outputs_of_finish hfollows.accepted hwrite hfinish] at hcalls
    rw [hfollows.received_of_finish hfinish] at hreceived
    simpa [callsFor, hreceived] using hcalls

def isOnRequest : Callback Req → Bool
  | .onRequest _ => true
  | .onInitialize | .onReadsDone | .onFinish => false

/-- A handler that sends only in `OnRequest` sends nothing more once the only request of its
client has been answered. -/
lemma finishesLast_of_onRequest {M : Machine σ (Callback Req) (HandlerAction Resp)} {request : Req}
    {messages : List Resp} {status : Status}
    (hplain : (M.outputs (plainRun [request])).filter isSend =
      messages.map .send ++ [.finish status])
    (hsend : ∀ q cb a, a ∈ M.out q cb → isSend a = true → isOnRequest cb = true) :
    FinishesLast M [request] messages status := by
  refine ⟨hplain, ?_⟩
  rintro callbacks cb requests' hrequests htold ⟨status', hmem⟩ a ha
  by_contra hsends
  have hcb := hsend _ cb a ha (by simpa using hsends)
  obtain ⟨cb', hcb', q, hout⟩ := M.exists_out_of_mem hmem
  have hfirst : 0 < callbacks.countP isOnRequest :=
    List.countP_pos_iff.mpr ⟨cb', hcb', hsend q cb' _ hout rfl⟩
  have htwo : (told (callbacks ++ [cb])).countP isOnRequest = callbacks.countP isOnRequest + 1 := by
    rw [countP_told rfl, List.countP_append, List.countP_singleton, if_pos hcb]
  have hle := htold.sublist.countP_le (p := isOnRequest)
  have hcount : (plainRun requests').countP isOnRequest = requests'.length := by
    simp [plainRun, opening, isOnRequest, List.countP_map, Function.comp_def]
  have hone : requests'.length ≤ 1 := hrequests.length_le
  omega

/-- The handler `GetSequenceHandler` of the tests. -/
def getSequenceHandler : Machine Unit (Callback Nat) (HandlerAction Nat) where
  start := ()
  next := fun _ _ => ()
  out := fun _ cb =>
    match cb with
    | .onRequest (some input) => (List.range input).map .send ++ [.finish .ok]
    | _ => []

lemma getSequence_finishesLast (input : Nat) :
    FinishesLast getSequenceHandler [input] (List.range input) .ok := by
  apply finishesLast_of_onRequest
  · simp [Machine.outputs, Machine.outputsFrom, plainRun, opening, getSequenceHandler, isSend,
      List.filter_map, Function.comp_def]
  · intro q cb a ha _
    rcases cb with _ | (_ | input) | _ | _ <;> simp [getSequenceHandler] at ha
    rfl

/-- The test for the guard on the server side. -/
def onServer {κ τ : Type} (g : Server Req Resp → Label Req Resp → Bool) (e : Server Req Resp × τ) :
    Label Req Resp ⊕ κ → Bool
  | .inl l => g e.1 l
  | .inr _ => true

lemma onServer_sound {κ τ : Type} {G : Server Req Resp → Label Req Resp → Prop}
    {g : Server Req Resp → Label Req Resp → Bool} (hg : ∀ s l, g s l = true → G s l)
    (e : Server Req Resp × τ) (l : Label Req Resp ⊕ κ) (h : onServer g e l = true) :
    OnServer G e l := by
  rintro l' rfl
  exact hg e.1 l' h

lemma exists_exchange {κ τ : Type} {S : System (Server Req Resp × τ) (Label Req Resp ⊕ κ)}
    {G : Server Req Resp → Label Req Resp → Prop} {g : Server Req Resp → Label Req Resp → Bool}
    (hg : ∀ s l, g s l = true → G s l) {e : Server Req Resp × τ} (he : S.init e)
    (labels : List (Label Req Resp ⊕ κ)) (p : Server Req Resp × τ → Bool)
    (h : (S.run (onServer g) e labels).any p = true) :
    ∃ e', S.Reach (OnServer G) e' ∧ p e' = true :=
  System.exists_reach_of_run (onServer_sound hg) (.init he) h

/-- The server is asked for the first two numbers, writes them and finishes. -/
def sequenceOfTwoServed : List (Label Nat Nat) :=
  event .newConnection true (some 2) ++ execs 5 ++ callback [.send 0, .send 1, .finish .ok] ++
    execs 11 ++ writeNeeded 5 ++ writeNeeded 4 ++ writeNeeded 4 ++ event .write true none ++
    execs 4 ++ event .write true none ++ execs 4

def sequenceOfTwo : List (Label Nat Nat ⊕ ClientLabel Nat) :=
  .inr .writeAsync :: sequenceOfTwoServed.map .inl ++ (clientRun [0, 1] .ok).tail.map .inr

theorem streamed_call_of_sequence :
    ∃ e, (streamedCall Nat Nat oneEventThread sequenceService 2 0).Reach
        (OnServer (ServedBy getSequenceHandler 0)) e ∧ .finish true .ok ∈ e.2.returned ∧
      e.2.calls = [⟨.ok, some 0⟩, ⟨.ok, some 1⟩, ⟨.ok, none⟩] := by
  have hinit : (streamedCall Nat Nat oneEventThread sequenceService 2 0).init
      (.start oneEventThread sequenceService, .new true 0) := ⟨rfl, 0, rfl⟩
  obtain ⟨e, he, hp⟩ := exists_exchange (servedBy_sound getSequenceHandler 0) hinit sequenceOfTwo
    (fun e => (e.1.rpcs 0).rpcType = .serverStreaming ∧ .write true ∈ e.2.returned ∧
      .finish true .ok ∈ e.2.returned ∧ e.2.task = []) (by decide +kernel)
  obtain ⟨htype, hwrite, hfinish, htask⟩ := of_decide_eq_true hp
  have hcall := streamed_call rfl (getSequence_finishesLast 2) he htype
  exact ⟨e, he, hfinish, (hcall.2 .ok hwrite hfinish rfl htask).2⟩

/-! ### A unary call -/

section Unary

variable {request : Req} {r : Nat} {e : Server Req Resp × UnaryAsyncClient Resp}

/-- A reply with an `OK` status was sent by the server. -/
def CarriedReply (r : Nat) (e : Server Req Resp × UnaryAsyncClient Resp) : Prop :=
  ∀ status response, e.2.final = some (status, response) → status.isOk = true →
    r < e.1.nextRpc ∧ [.finish (some response) status] <+: (e.1.rpcs r).sends

variable [DecidableEq Req] [DecidableEq Resp]

theorem reach_carriedReply {G : Server Req Resp × UnaryAsyncClient Resp →
      Label Req Resp ⊕ UnaryClientLabel Resp → Prop}
    (he : (unaryCall Req Resp options maps request r).Reach G e) : CarriedReply r e := by
  refine he.invariant ?_ ?_
  · rintro ⟨s, c⟩ ⟨-, response, rfl⟩ status response' hfinal
    cases hfinal
  · intro e l e' hreach h _ hstep
    obtain ⟨hallows, hmove⟩ := System.beside_step hstep
    cases hmove with
    | left hleft =>
      have hs : (serverSystem Req Resp options maps).Reachable e.1 :=
        System.Reach.left (fun _ _ _ _ _ _ _ => trivial) hreach
      exact fun status response hfinal hok => step_sends hs hleft (h status response hfinal hok)
    | @right l c hright =>
      cases l with
      | writeAsync =>
        simp only [unaryAsyncClient] at hright
        split at hright
        · cases hright
        · cases hright
          exact h
      | complete status response =>
        simp only [unaryAsyncClient, UnaryAsyncClient.complete] at hright
        split at hright
        · cases hright
          rintro status' response' hfinal hok
          cases hfinal
          simp only [carriesReply, hok, Bool.not_true, Bool.false_or, Bool.and_eq_true,
            decide_eq_true_eq] at hallows
          exact ⟨hallows.1, List.isPrefixOf_iff_prefix.mp hallows.2⟩
        · cases hright
      | next =>
        simp only [unaryAsyncClient, UnaryAsyncClient.next, UnaryAsyncClient.handleFinishEvent]
          at hright
        split at hright
        · cases hright
          intro status response hfinal
          refine h status response ?_
          split at hfinal <;> exact hfinal
        · cases hright

end Unary

/-- The operation that comes first was made from the item that comes first. -/
lemma head_of_prefix {items : List (SendItem Resp)} {rpcType : RpcType} {op : SendOp Resp}
    (h : [op] <+: (items.take 1).map (sendOp rpcType)) :
    ∃ item rest, items = item :: rest ∧ sendOp rpcType item = op := by
  cases items with
  | nil => cases List.prefix_nil.mp h
  | cons item rest => exact ⟨item, rest, rfl, (List.cons_prefix_cons.mp h).1.symm⟩

lemma Informs.given_of_asked {request : Req} {c : Call Req Resp} {acts : List (Instr Resp)}
    {p : Phase Resp} (h : Informs c acts p) (hwhole : c.rpc.rpcType.streamsRequests = false)
    (hdelivered : c.rpc.delivered <+: [request]) (hhandler : c.rpc.handler = true) :
    given c.rpc = [request] := by
  have hlength := h.whole hwhole
  rw [if_pos (h.connected hhandler)] at hlength
  rw [given, if_neg (by simp [hwhole])]
  exact hdelivered.eq_of_length hlength

/-- Only an item with a message and no streaming is sent as a `Finish` with a message. -/
lemma sendOp_eq_finish {rpcType : RpcType} {item : SendItem Resp} {m : Resp} {status : Status}
    (h : sendOp rpcType item = .finish (some m) status) : item = ⟨some m, status⟩ := by
  obtain ⟨msg, status'⟩ := item
  cases msg <;> cases hstream : rpcType.streamsResponses <;> simp_all [sendOp]

/-- A unary call, from the handler of the server to the callback of the client, in every
interleaving of the two processes and of gRPC, and for every handler that sends nothing in
`OnFinish`: the callback is called at most once, and a response that it is given comes with an `OK`
status and is the first item that the handler sends when it is run over the request of the
client. -/
theorem unary_call [DecidableEq Req] [DecidableEq Resp] (hn : options.numEventThreads = 1)
    {M : Machine σ (Callback Req) (HandlerAction Resp)} (hM : QuietAtEnd M) {request : Req}
    {r : Nat} {e : Server Req Resp × UnaryAsyncClient Resp}
    (he : (unaryCall Req Resp options maps request r).Reach (OnServer (ServedBy M r)) e)
    (htype : (e.1.rpcs r).rpcType = .normalRpc) :
    e.2.calls.length ≤ 1 ∧ ∀ t ∈ e.2.calls, ∀ m, t.response = some m →
      t.status.isOk = true ∧ (replies M (plainRun [request])).head? = some ⟨some m, t.status⟩ := by
  have hserver : (serverSystem Req Resp options maps).Reach
      (fun s l => ServedBy M r s l ∧ Asks request r l) e.1 :=
    System.Reach.left (fun _ _ _ _ hg hallows _ => ⟨hg _ rfl, asks_of_connects hallows⟩) he
  have hclient : (unaryAsyncClient Resp).Reachable e.2 :=
    System.Reach.right he
  have hfollows := reachable_unaryFollows hclient
  refine ⟨?_, fun t ht m hresponse => ?_⟩
  · have hstarted := hfollows.started
    have hwritten := e.2.written.toNat_le
    omega
  · obtain ⟨status, response, hfinal, rfl⟩ := hfollows.calls t ht
    obtain ⟨hok, rfl⟩ : status.isOk = true ∧ response = m := by
      simpa using hresponse
    refine ⟨hok, ?_⟩
    obtain ⟨hr, hsent⟩ := reach_carriedReply he status response hfinal hok
    -- The reply is the first item that the handler has sent.
    have hcall := reach_callAsked hn hserver hr
    obtain ⟨acts, p, -, h⟩ := reach_unary hM (hcall.mono (fun _ _ h => h.1)) htype
    obtain ⟨item, rest, hreplies, hop⟩ := head_of_prefix (hsent.trans h.sends_initial)
    -- The callbacks the handler has had are those of a run over the request.
    obtain ⟨acts', p', -, hinforms, hdelivered⟩ := reach_asked hcall
    have hwhole : (e.1.call r).rpc.rpcType.streamsRequests = false :=
      congrArg RpcType.streamsRequests htype
    have hhandler : (e.1.call r).rpc.handler = true := by
      by_contra hfalse
      rw [(hinforms.fresh (by simpa using hfalse)).1] at hreplies
      cases hreplies
    have htold := hinforms.told_initial
    rw [hinforms.given_of_asked hwhole (hdelivered hwhole) hhandler] at htold
    have hplain := replies_mono M htold
    rw [hreplies, sendOp_eq_finish hop] at hplain
    obtain ⟨more, hmore⟩ := hplain
    rw [← hmore]
    rfl

/-- The client asks for a square and receives it. -/
def squareOfThree : List (Label Int Int ⊕ UnaryClientLabel Int) :=
  .inr .writeAsync :: (squareRequest 3 [.send 9] ++ .pop 0 :: squareExecs 5).map .inl ++
    [.inr (.complete .ok 9), .inr .next]

theorem unary_call_of_square :
    ∃ e, (unaryCall Int Int oneEventThread getSquareService 3 0).Reach
        (OnServer (ServedBy getSquareHandler 0)) e ∧ ⟨.ok, some 9⟩ ∈ e.2.calls ∧
      e.2.calls.length ≤ 1 ∧
      (replies getSquareHandler (plainRun [3])).head? = some ⟨some 9, .ok⟩ := by
  have hinit : (unaryCall Int Int oneEventThread getSquareService 3 0).init
      (.start oneEventThread getSquareService, .new true 0) := ⟨rfl, 0, rfl⟩
  obtain ⟨e, he, hp⟩ := exists_exchange (servedBy_sound getSquareHandler 0) hinit squareOfThree
    (fun e => (e.1.rpcs 0).rpcType = .normalRpc ∧ ⟨.ok, some 9⟩ ∈ e.2.calls) (by decide +kernel)
  obtain ⟨htype, hcall⟩ := of_decide_eq_true hp
  have hquiet : QuietAtEnd getSquareHandler := fun _ => rfl
  obtain ⟨hone, hreply⟩ := unary_call rfl hquiet he htype
  exact ⟨e, he, hcall, hone, (hreply _ hcall 9 rfl).2⟩

end AsyncGrpc.Proofs
