import AsyncGrpc.Proofs.Exchanges

/-!
# Calls of the blocking clients

A blocking client writes its requests, ends them, reads the responses and finishes the call, while
a handler of the server is told about the requests and answers them. What the client is given is
what the handler puts out when it is simply run over the requests that were written.
-/

namespace AsyncGrpc.Proofs

open Function Transition

variable {σ Req Resp : Type} {options : Options} {maps : List (List (String × RpcHandlerInfo))}

/-! ### The client -/

section Client

variable {kind : RequestStream} {c c' : BlockingClient Req Resp}

/-- The steps of a blocking client. -/
inductive BlockingMoves (kind : RequestStream) (c : BlockingClient Req Resp) :
    BlockingLabel Req Resp → BlockingClient Req Resp → Prop
  | write {request : Req} {ok : Bool} (hopen : c.writesDone = []) :
      BlockingMoves kind c (.write request ok) (c.write kind ok request).2
  | streamRead {answer : Option Resp} (hkind : kind = .clientReaderWriter) :
      BlockingMoves kind c (.streamRead answer) (c.streamRead answer).2
  | streamWritesDone {ok : Bool} (hopen : c.writesDone = []) :
      BlockingMoves kind c (.streamWritesDone ok) (c.streamWritesDone kind ok).2
  | streamFinish {status : Status} {response : Option Resp} :
      BlockingMoves kind c (.streamFinish status response) (c.streamFinish kind status response).2

lemma step_blockingMoves {l : BlockingLabel Req Resp}
    (h : (blockingClient Req Resp kind).step c l = some c') :
    c.finishes = [] ∧ BlockingMoves kind c l c' := by
  simp only [blockingClient] at h
  split at h
  · rename_i hfinishes
    refine ⟨hfinishes, ?_⟩
    cases l with
    | write request ok =>
      simp only [Option.ite_none_right_eq_some, Option.some.injEq] at h
      exact h.2 ▸ .write h.1
    | streamRead answer =>
      simp only [Option.ite_none_right_eq_some, Option.some.injEq] at h
      exact h.2 ▸ .streamRead h.1
    | streamWritesDone ok =>
      simp only [Option.ite_none_right_eq_some, Option.some.injEq] at h
      exact h.2 ▸ .streamWritesDone h.1
    | streamFinish status response =>
      cases h
      exact .streamFinish
  · cases h

@[simp]
lemma written_instantiateIfNeeded (kind : RequestStream) (c : StreamingClient Req) :
    (c.instantiateIfNeeded kind).written = c.written := by
  unfold StreamingClient.instantiateIfNeeded
  split <;> rfl

@[simp]
lemma requests_write (ok : Bool) (request : Req) :
    (c.write kind ok request).2.requests = c.requests ++ [request] := by
  simp [BlockingClient.requests, BlockingClient.write, StreamingClient.writeVia,
    StreamingClient.writeImpl]

@[simp]
lemma requests_streamRead (answer : Option Resp) :
    (c.streamRead answer).2.requests = c.requests := by
  simp [BlockingClient.requests, BlockingClient.streamRead]

@[simp]
lemma requests_streamWritesDone (ok : Bool) :
    (c.streamWritesDone kind ok).2.requests = c.requests := by
  simp [BlockingClient.requests, BlockingClient.streamWritesDone]

@[simp]
lemma requests_streamFinish (status : Status) (response : Option Resp) :
    (c.streamFinish kind status response).2.requests = c.requests := by
  simp [BlockingClient.requests, BlockingClient.streamFinish]

lemma blockingMoves_requests {l : BlockingLabel Req Resp} (h : BlockingMoves kind c l c') :
    c.requests <+: c'.requests := by
  cases h with
  | write _ => simp
  | streamRead _ | streamWritesDone _ | streamFinish => simp

end Client

/-! ### The server -/

lemma does_returned {c c' : Part Req Resp} {m : PartLabel Req Resp} (h : Does c m c') :
    c'.rpc.delivered = c.rpc.delivered ∧ c'.rpc.returned = c.rpc.returned ∨
      ∃ tag ok q, m = .next tag ok q ∧ c.rpc.mayReturn tag ok q = true ∧
        c'.rpc = c.rpc.returnTag tag ok q := by
  cases h with
  | next _ hmay => exact .inr ⟨_, _, _, rfl, hmay, rfl⟩
  | exec _ hrun =>
    rw [Part.apply_rpc]
    exact .inl (by cases run_runs hrun <;> exact ⟨rfl, rfl⟩)
  | stepWriter _ hw =>
    rw [Part.apply_rpc]
    unfold WriterCall.step at hw
    exact .inl (by split at hw <;> (try split at hw) <;> cases hw <;> exact ⟨rfl, rfl⟩)
  | _ => exact .inl ⟨rfl, rfl⟩

/-- gRPC has returned nothing for a new `Rpc`. -/
lemma init_returned {c : Part Req Resp} (h : (partSystem Req Resp).init c) :
    c.rpc.delivered = [] ∧ c.rpc.returned = [] := by
  obtain ⟨methodIndex, cq, queue, info, service, parent, eventQueue, shuttingDown, rfl⟩ := h
  exact ⟨rfl, rfl⟩

/-- What gRPC has returned for an `Rpc` is nothing, as before, or one tag more. -/
lemma moves_returned {s s' : Server Req Resp} {l : Label Req Resp} (h : Moves s l s') (hh : Housed s)
    {r : Nat} (hr : r < s'.nextRpc) :
    ((s'.rpcs r).delivered = [] ∧ (s'.rpcs r).returned = []) ∨
    r < s.nextRpc ∧ ((s'.rpcs r).delivered = (s.rpcs r).delivered ∧
        (s'.rpcs r).returned = (s.rpcs r).returned ∨
      ∃ cq tag ok q, l = .next cq r tag ok q ∧ (s.rpcs r).mayReturn tag ok q = true ∧
        s'.rpcs r = (s.rpcs r).returnTag tag ok q) := by
  by_cases hlt : r < s.nextRpc
  · refine .inr ⟨hlt, ?_⟩
    rcases moves_part h hh hlt with hsame | ⟨m, hlabel, hstep⟩
    · rw [show s'.rpcs r = s.rpcs r from congrArg Part.rpc hsame]
      exact .inl ⟨rfl, rfl⟩
    · refine (does_returned (step_does hstep)).imp_right ?_
      rintro ⟨tag, ok, q, rfl, hmay, hrpc⟩
      obtain ⟨cq, rfl⟩ : ∃ cq, l = .next cq r tag ok q := by
        cases l <;> simp_all [Label.part, Option.bind_eq_some_iff]
      exact ⟨cq, tag, ok, q, rfl, hmay, hrpc⟩
  · exact .inl (init_returned (moves_born_part h hh hr hlt))

/-! ### What is carried between them -/

/-- What a client has read, and a status that is `OK`, were sent by the server. -/
structure Brought (r : Nat) (s : Server Req Resp) (reads : List (Option Resp))
    (response : Option Resp) (finishes : List Status) : Prop where
  responses : received reads = [] ∨
    r < s.nextRpc ∧ (received reads).map SendOp.write <+: (s.rpcs r).sends
  status : ∀ status ∈ finishes, status.isOk = true → r < s.nextRpc ∧
    .finish response status ∈ (s.rpcs r).sends ∧ (none ∈ reads →
      (received reads).map SendOp.write ++ [.finish response status] <+: (s.rpcs r).sends)

section Brought

variable {r : Nat} {s s' : Server Req Resp} {reads : List (Option Resp)} {response : Option Resp}
  {finishes : List Status} {status : Status}

lemma Brought.server (h : Brought r s reads response finishes) {l : Label Req Resp}
    (hs : (serverSystem Req Resp options maps).Reachable s) (hstep : s.step l = some s') :
    Brought r s' reads response finishes := by
  refine ⟨h.responses.imp_right (step_sends hs hstep), fun status hmem hok => ?_⟩
  obtain ⟨hr, hsent, hlast⟩ := h.status status hmem hok
  obtain ⟨hr', hgrows⟩ := step_sends hs hstep ⟨hr, List.prefix_rfl⟩
  exact ⟨hr', hgrows.subset hsent, fun hnone => (hlast hnone).trans hgrows⟩

lemma Brought.messages (h : Brought r s reads response finishes) {messages : List Resp}
    (hsends : r < s.nextRpc →
      (s.rpcs r).sends <+: messages.map SendOp.write ++ [.finish none status]) :
    received reads <+: messages ∧ ∀ status' ∈ finishes, status'.isOk = true →
      status' = status ∧ (none ∈ reads → received reads = messages) := by
  refine ⟨?_, fun status' hmem hok => ?_⟩
  · rcases h.responses with hnil | ⟨hr, hsent⟩
    · rw [hnil]
      exact List.nil_prefix
    · exact map_write_prefix (hsent.trans (hsends hr))
  · obtain ⟨hr, hsent, hlast⟩ := h.status status' hmem hok
    obtain ⟨rfl, rfl⟩ : response = none ∧ status' = status := by
      simpa using (hsends hr).subset hsent
    exact ⟨rfl, fun hended => (map_write_finish ((hlast hended).trans (hsends hr))).1⟩

variable [DecidableEq Resp]

lemma Brought.read (h : Brought r s reads response []) {answer : Option Resp}
    (hcarries : carriesRead r s reads answer = true) :
    Brought r s (reads ++ [answer]) response [] := by
  refine ⟨?_, fun status hmem => by cases hmem⟩
  cases answer with
  | none => simpa [received] using h.responses
  | some m =>
    simp only [carriesRead, Bool.and_eq_true, decide_eq_true_eq] at hcarries
    have hreceived : received (reads ++ [some m]) = received reads ++ [m] := by simp [received]
    rw [hreceived]
    exact .inr ⟨hcarries.1, List.isPrefixOf_iff_prefix.mp hcarries.2⟩

lemma Brought.finish {response' : Option Resp} (h : Brought r s reads response' [])
    (hcarries : carriesStatus r s reads status response = true) :
    Brought r s reads response [status] := by
  refine ⟨h.responses, fun status' hmem hok => ?_⟩
  obtain rfl := List.mem_singleton.mp hmem
  simp only [carriesStatus, hok, Bool.not_true, Bool.false_or, Bool.and_eq_true,
    decide_eq_true_eq, Bool.or_eq_true] at hcarries
  obtain ⟨⟨hr, hsent⟩, hlast⟩ := hcarries
  refine ⟨hr, hsent, fun hnone => ?_⟩
  exact List.isPrefixOf_iff_prefix.mp (hlast.resolve_left (fun hne => hne hnone))

end Brought

/-- What either side has received was sent by the other one. -/
structure Conveyed (r : Nat) (e : Server Req Resp × BlockingClient Req Resp) : Prop where
  fresh : e.2.finishes = [] → e.2.response = none
  requests : r < e.1.nextRpc → (e.1.rpcs r).delivered <+: e.2.requests
  brought : Brought r e.1 e.2.reads e.2.response e.2.finishes

section Conveyed

variable [DecidableEq Req] [DecidableEq Resp] {r : Nat} {kind : RequestStream}
  {e : Server Req Resp × BlockingClient Req Resp}

/-- What reaches an `Rpc` was written by the client. -/
lemma delivered_returnTag {cq : Nat} {tag : Tag} {ok : Bool} {q : Option Req}
    (hallows : carriesRequests r e (.inl (.next cq r tag ok q)) = true)
    (hmay : (e.1.rpcs r).mayReturn tag ok q = true)
    (h : (e.1.rpcs r).delivered <+: e.2.requests) :
    (e.1.rpcs r).delivered ++ q.toList <+: e.2.requests := by
  have hdelivers := (mayReturn_iff.mp hmay).2.2
  cases q with
  | none => simpa using h
  | some q =>
    have hcarries : ok = true ∧ (tag = .read ∨
        tag = .newConnection ∧ (e.1.rpcs r).rpcType.streamsRequests = false) := by
      simpa [Rpc.delivers] using hdelivers.symm
    obtain ⟨rfl, rfl | ⟨rfl, -⟩⟩ := hcarries
    · simpa [carriesRequests] using hallows
    · simp [carriesRequests] at hallows

lemma Conveyed.server (h : Conveyed r e) {s : Server Req Resp} {l : Label Req Resp}
    (hs : (serverSystem Req Resp options maps).Reachable e.1) (hstep : e.1.step l = some s)
    (hallows : carriesRequests r e (.inl l) = true) : Conveyed r (s, e.2) := by
  refine ⟨h.fresh, fun hr => ?_, h.brought.server hs hstep⟩
  rcases moves_returned (step_moves hstep).2 (reachable_housed hs) hr with
    ⟨hnil, -⟩ | ⟨hlt, ⟨hsame, -⟩ | ⟨cq, tag, ok, q, rfl, hmay, hrpc⟩⟩
  · rw [hnil]
    exact List.nil_prefix
  · rw [hsame]
    exact h.requests hlt
  · rw [hrpc]
    exact delivered_returnTag hallows hmay (h.requests hlt)

lemma Conveyed.client (h : Conveyed r e) {c : BlockingClient Req Resp} {l : BlockingLabel Req Resp}
    (hopen : e.2.finishes = []) (hmove : BlockingMoves kind e.2 l c)
    (hallows : carriesRequests r e (.inr l) = true) : Conveyed r (e.1, c) := by
  have hrequests : r < e.1.nextRpc → (e.1.rpcs r).delivered <+: c.requests :=
    fun hr => (h.requests hr).trans (blockingMoves_requests hmove)
  have hbrought := h.brought
  rw [hopen] at hbrought
  cases hmove with
  | write _ | streamWritesDone _ => exact ⟨h.fresh, hrequests, h.brought⟩
  | streamRead _ =>
    refine ⟨h.fresh, hrequests, ?_⟩
    have hread := hbrought.read hallows
    rw [← hopen] at hread
    exact hread
  | @streamFinish status response =>
    refine ⟨fun hnil => ?_, hrequests, ?_⟩
    · simp [BlockingClient.streamFinish] at hnil
    · have hfinish := hbrought.finish hallows
      simpa [BlockingClient.streamFinish, h.fresh hopen, hopen] using hfinish

theorem reach_conveyed {G : Server Req Resp × BlockingClient Req Resp →
      Label Req Resp ⊕ BlockingLabel Req Resp → Prop}
    (he : (requestsCall Req Resp options maps kind r).Reach G e) : Conveyed r e := by
  refine he.invariant ?_ ?_
  · rintro ⟨s, c⟩ ⟨rfl, rfl⟩
    refine ⟨fun _ => rfl, fun hr => ?_, .inl rfl, fun status hmem => by cases hmem⟩
    have hnil : ((Server.start options maps : Server Req Resp).rpcs r).delivered = [] :=
      (init_returned (start_part hr)).1
    rw [hnil]
    exact List.nil_prefix
  · intro e l e' hreach h _ hstep
    obtain ⟨hallows, hmove⟩ := System.beside_step hstep
    cases hmove with
    | left hleft =>
      have hs : (serverSystem Req Resp options maps).Reachable e.1 :=
        System.Reach.left (fun _ _ _ _ _ _ _ => trivial) hreach
      exact h.server hs hleft hallows
    | right hright =>
      obtain ⟨hopen, hmove⟩ := step_blockingMoves hright
      exact h.client hopen hmove hallows

end Conveyed

/-! ### Requests and responses are both streamed -/

/-- The client writes the given requests one after another, and ends its writes when it has
written all of them. -/
def Writes (requests : List Req) (c : BlockingClient Req Resp) : BlockingLabel Req Resp → Prop
  | .write request _ => c.requests ++ [request] <+: requests
  | .streamWritesDone _ => c.requests = requests
  | .streamRead _ | .streamFinish _ _ => True

/-- A handler on the server, and a client that writes the given requests. -/
structure Converses (M : Machine σ (Callback Req) (HandlerAction Resp)) (requests : List Req)
    (r : Nat) (e : Server Req Resp × BlockingClient Req Resp)
    (l : Label Req Resp ⊕ BlockingLabel Req Resp) : Prop where
  server : ∀ l', l = .inl l' → ServedBy M r e.1 l'
  client : ∀ l', l = .inr l' → Writes requests e.2 l'

section Bidi

variable [DecidableEq Req] [DecidableEq Resp] {r : Nat} {kind : RequestStream}
  {e : Server Req Resp × BlockingClient Req Resp}
  {M : Machine σ (Callback Req) (HandlerAction Resp)} {requests : List Req}

lemma reach_written
    (he : (requestsCall Req Resp options maps kind r).Reach (Converses M requests r) e) :
    e.2.requests <+: requests ∧ (e.2.writesDone ≠ [] → e.2.requests = requests) := by
  refine he.invariant (P := fun e => e.2.requests <+: requests ∧
    (e.2.writesDone ≠ [] → e.2.requests = requests)) ?_ ?_
  · rintro ⟨s, c⟩ ⟨-, rfl⟩
    exact ⟨List.nil_prefix, fun hne => absurd rfl hne⟩
  · intro e l e' _ h hg hstep
    cases (System.beside_step hstep).2 with
    | left _ => exact h
    | right hright =>
      have hwrites := hg.client _ rfl
      cases (step_blockingMoves hright).2 with
      | @write request ok hopen =>
        have hnext : e.2.requests ++ [request] <+: requests := hwrites
        exact ⟨by simpa using hnext, fun hne => absurd hopen hne⟩
      | streamRead _ =>
        rw [requests_streamRead]
        exact h
      | streamFinish =>
        rw [requests_streamFinish]
        exact h
      | streamWritesDone _ =>
        have hall : e.2.requests = requests := hwrites
        simp [hall]

/-- The server is served the requests that the client writes. -/
lemma reach_serves_of_written
    (he : (requestsCall Req Resp options maps kind r).Reach (Converses M requests r) e) :
    (serverSystem Req Resp options maps).Reach (Serves M requests r) e.1 := by
  refine System.Reach.left (fun e l s hreach hg hallows hstep => ?_) he
  obtain ⟨hwritten, hall⟩ := reach_written hreach
  refine ⟨hg.server l rfl, ?_, ?_⟩
  · rintro cq tag ok q rfl
    have hserver : e.1.step (.next cq r tag ok q) = some s := hstep
    cases (step_moves hserver).2 with
    | next _ _ hr _ hmay =>
      have hrequests := (reach_conveyed hreach).requests hr
      exact (delivered_returnTag hallows hmay hrequests).trans hwritten
  · rintro cq q rfl
    simp only [carriesRequests, ne_eq, not_true_eq_false, decide_false, Bool.false_or,
      Bool.or_eq_true, Bool.and_eq_true, decide_eq_true_eq, List.any_eq_true] at hallows
    rcases hallows with ⟨hdone, hdelivered⟩ | hfinish
    · exact .inl (hdelivered.trans (hall (by simpa using hdone)))
    · exact .inr hfinish

end Bidi

/-- A call with streamed requests and responses, in every interleaving of the server, a blocking
client and gRPC. Let the handler `M`, run over the requests that the client writes, send some
messages and then call `Finish`, once and as its last send. Then `StreamRead` returns a first part
of the messages, in their order. If `StreamFinish` returns `OK`, that is the status of the
handler, and `StreamRead` has returned every message if it was called until it returned false. -/
theorem bidi_call [DecidableEq Req] [DecidableEq Resp] (hn : options.numEventThreads = 1)
    {M : Machine σ (Callback Req) (HandlerAction Resp)} {requests : List Req}
    {messages : List Resp} {status : Status} (H : FinishesLast M requests messages status)
    {r : Nat} {e : Server Req Resp × BlockingClient Req Resp}
    (he : (requestsCall Req Resp options maps .clientReaderWriter r).Reach
      (Converses M requests r) e)
    (htype : (e.1.rpcs r).rpcType = .bidiStreaming) :
    received e.2.reads <+: messages ∧ ∀ status' ∈ e.2.finishes, status'.isOk = true →
      status' = status ∧ (none ∈ e.2.reads → received e.2.reads = messages) := by
  refine (reach_conveyed he).brought.messages (fun hr => ?_)
  have hstream : (e.1.call r).rpc.rpcType.streamsResponses = true :=
    congrArg RpcType.streamsResponses htype
  have hstreamed : (e.1.call r).rpc.rpcType.streamsRequests = true :=
    congrArg RpcType.streamsRequests htype
  obtain ⟨acts, p, -, h⟩ := reach_replies H (reach_callServes hn (reach_serves_of_written he) hr)
    hstream (fun hwhole => absurd (hstreamed.symm.trans hwhole) (by simp))
  exact h.sends_first H hstream

/-- The test for `Converses`. -/
def converses [DecidableEq Req] [DecidableEq Resp]
    (M : Machine σ (Callback Req) (HandlerAction Resp)) (requests : List Req) (r : Nat)
    (e : Server Req Resp × BlockingClient Req Resp) : Label Req Resp ⊕ BlockingLabel Req Resp → Bool
  | .inl l => servedBy M r e.1 l
  | .inr (.write request _) => (e.2.requests ++ [request]).isPrefixOf requests
  | .inr (.streamWritesDone _) => e.2.requests = requests
  | .inr _ => true

lemma converses_sound [DecidableEq Req] [DecidableEq Resp]
    (M : Machine σ (Callback Req) (HandlerAction Resp)) (requests : List Req) (r : Nat)
    (e : Server Req Resp × BlockingClient Req Resp) (l : Label Req Resp ⊕ BlockingLabel Req Resp)
    (h : converses M requests r e l = true) : Converses M requests r e l := by
  constructor
  · rintro l rfl
    exact servedBy_sound M r e.1 l h
  · rintro l rfl
    cases l with
    | write request ok => exact List.isPrefixOf_iff_prefix.mp h
    | streamWritesDone ok =>
      have hall : e.2.requests = requests := of_decide_eq_true h
      exact hall
    | streamRead answer | streamFinish status response => trivial

/-- The client writes two numbers and ends its writes, the server answers, and the client reads. -/
def runningSumOfTwo : List (Label Nat Nat ⊕ BlockingLabel Nat Nat) :=
  [.inr (.write 1 true), .inr (.write 2 true), .inr (.streamWritesDone true)] ++
    (runningSumReads ++ runningSumWrites).map .inl ++
    [1, 1, 3, 3].map (fun m => .inr (.streamRead (some m))) ++
    [.inr (.streamRead none), .inr (.streamFinish .ok none)]

theorem bidi_call_of_run :
    ∃ e, (requestsCall Nat Nat oneEventThread runningSumService .clientReaderWriter 0).Reach
        (Converses getRunningSumHandler [1, 2] 0) e ∧ .ok ∈ e.2.finishes ∧
      received e.2.reads = [1, 1, 3, 3] := by
  have H : FinishesLast getRunningSumHandler [1, 2] [1, 1, 3, 3] .ok := by
    apply finishesLast_of_onReadsDone
    · decide
    · intro q cb status hmem
      rcases cb with _ | (_ | input) | _ | _ <;> simp [getRunningSumHandler] at hmem ⊢
    · exact fun _ => rfl
  have hinit : (requestsCall Nat Nat oneEventThread runningSumService .clientReaderWriter 0).init
      (.start oneEventThread runningSumService, .new) := ⟨rfl, rfl⟩
  have hrun : ((requestsCall Nat Nat oneEventThread runningSumService .clientReaderWriter 0).run
      (converses getRunningSumHandler [1, 2] 0) (.start oneEventThread runningSumService, .new)
      runningSumOfTwo).any (fun e => (e.1.rpcs 0).rpcType = .bidiStreaming ∧ .ok ∈ e.2.finishes ∧
        none ∈ e.2.reads) = true := by
    decide +kernel
  obtain ⟨e, he, hp⟩ := System.exists_reach_of_run (converses_sound _ _ _) (.init hinit) hrun
  obtain ⟨htype, hfinish, hended⟩ := of_decide_eq_true hp
  exact ⟨e, he, hfinish, ((bidi_call rfl H he htype).2 .ok hfinish rfl).2 hended⟩

/-! ### Only the requests are streamed -/

/-- The handler sends one item at most, in `OnReadsDone`. -/
def AnswersAtEnd (M : Machine σ (Callback Req) (HandlerAction Resp)) : Prop :=
  ∀ q cb, ((M.out q cb).filterMap HandlerAction.item).length ≤ (isOnReadsDone cb).toNat

section AtEnd

variable {M : Machine σ (Callback Req) (HandlerAction Resp)}

lemma AnswersAtEnd.onReadsDone (hM : AnswersAtEnd M) {callbacks : List (Callback Req)}
    (hne : replies M callbacks ≠ []) : .onReadsDone ∈ callbacks := by
  have hpos := (List.length_pos_iff.mpr hne).trans_le (length_replies_le hM callbacks)
  obtain ⟨cb, hmem, hcb⟩ := List.countP_pos_iff.mp hpos
  cases cb <;> first | exact hmem | cases hcb

/-- The reads do not end because of an answer, which is only given when they have ended. -/
lemma not_finished_of_read (hn : options.numEventThreads = 1) (hM : AnswersAtEnd M)
    {s : Server Req Resp} {r : Nat}
    (hs : (serverSystem Req Resp options maps).Reach (ServedBy M r) s) (hr : r < s.nextRpc)
    {ok : Bool} {q : Option Req} (hmay : (s.rpcs r).mayReturn .read ok q = true) :
    (s.rpcs r).sends = [] := by
  obtain ⟨acts, p, -, h⟩ := reach_answers (reach_callServedBy hn hs hr)
  rw [List.eq_nil_iff_forall_not_mem]
  intro op hop
  have hdone := hM.onReadsDone (h.replies_ne_nil hop)
  have hread := (h.informs.ended hdone).2.1
  have hpending := h.sends.lives.accounts.pending_of_held (mayReturn_iff.mp hmay).1
  exact absurd (hread.symm.trans hpending) (by simp)

/-- Without streaming, an `OK` status is sent with a message. -/
lemma sendOp_finish_of_whole {rpcType : RpcType} (hwhole : rpcType.streamsResponses = false)
    {item : SendItem Resp} {response : Option Resp} {status : Status}
    (h : sendOp rpcType item = .finish response status) :
    ∃ m, response = some m ∧ item = ⟨some m, status⟩ := by
  obtain ⟨msg, status'⟩ := item
  cases msg with
  | none => simp [sendOp, hwhole] at h
  | some m =>
    simp only [sendOp, hwhole, SendOp.finish.injEq] at h
    obtain ⟨rfl, rfl⟩ := h
    exact ⟨m, rfl, rfl⟩

end AtEnd

section ClientStreaming

variable {r : Nat} {kind : RequestStream} {e : Server Req Resp × BlockingClient Req Resp}
  {M : Machine σ (Callback Req) (HandlerAction Resp)}

/-- When the reads have ended, the server has received all that the client writes. -/
def Complete (r : Nat) (e : Server Req Resp × BlockingClient Req Resp) : Prop :=
  r < e.1.nextRpc → (.read, false) ∈ (e.1.rpcs r).returned →
    e.2.writesDone ≠ [] ∧ (e.1.rpcs r).delivered = e.2.requests

lemma Complete.client (h : Complete r e) {c : BlockingClient Req Resp} {l : BlockingLabel Req Resp}
    (hmove : BlockingMoves kind e.2 l c) : Complete r (e.1, c) := by
  intro hr hmem
  obtain ⟨hdone, hdelivered⟩ := h hr hmem
  cases hmove with
  | write hopen => exact absurd hopen hdone
  | streamRead _ =>
    rw [requests_streamRead]
    exact ⟨hdone, hdelivered⟩
  | streamWritesDone _ =>
    rw [requests_streamWritesDone]
    exact ⟨by simp [BlockingClient.streamWritesDone], hdelivered⟩
  | streamFinish =>
    rw [requests_streamFinish]
    exact ⟨hdone, hdelivered⟩

variable [DecidableEq Req] [DecidableEq Resp]

lemma Complete.next (h : Complete r e) (hn : options.numEventThreads = 1) (hM : AnswersAtEnd M)
    (hs : (serverSystem Req Resp options maps).Reach (ServedBy M r) e.1) (hr : r < e.1.nextRpc)
    (hconveyed : Conveyed r e) {cq : Nat} {tag : Tag} {ok : Bool} {q : Option Req}
    (hmay : (e.1.rpcs r).mayReturn tag ok q = true)
    (hallows : carriesRequests r e (.inl (.next cq r tag ok q)) = true)
    (hmem : (.read, false) ∈ (e.1.rpcs r).returned ++ [(tag, ok)]) :
    e.2.writesDone ≠ [] ∧ (e.1.rpcs r).delivered ++ q.toList = e.2.requests := by
  have hmore := delivered_returnTag hallows hmay (hconveyed.requests hr)
  suffices hold : e.2.writesDone ≠ [] ∧ (e.1.rpcs r).delivered = e.2.requests by
    refine ⟨hold.1, hmore.eq_of_length_le ?_⟩
    rw [List.length_append, hold.2]
    exact Nat.le_add_right _ _
  rcases List.mem_append.mp hmem with hmem | hmem
  · exact h hr hmem
  · cases List.mem_singleton.mp hmem
    have hnil := not_finished_of_read hn hM hs hr hmay
    simpa [carriesRequests, hnil] using hallows

theorem reach_complete (hn : options.numEventThreads = 1) (hM : AnswersAtEnd M)
    (he : (requestsCall Req Resp options maps kind r).Reach (OnServer (ServedBy M r)) e) :
    Complete r e := by
  refine he.invariant ?_ ?_
  · rintro ⟨s, c⟩ ⟨rfl, rfl⟩ hr hmem
    have hnil : ((Server.start options maps : Server Req Resp).rpcs r).returned = [] :=
      (init_returned (start_part hr)).2
    rw [hnil] at hmem
    cases hmem
  · intro e l e' hreach h _ hstep
    obtain ⟨hallows, hmove⟩ := System.beside_step hstep
    cases hmove with
    | right hright => exact h.client (step_blockingMoves hright).2
    | left hleft =>
      have hs : (serverSystem Req Resp options maps).Reach (ServedBy M r) e.1 :=
        System.Reach.left (fun _ _ _ _ hg _ _ => hg _ rfl) hreach
      have hserver : e.1.step _ = some _ := hleft
      intro hr hmem
      rcases moves_returned (step_moves hserver).2 (reachable_housed hs.reachable) hr with
        ⟨-, hnil⟩ | ⟨hlt, ⟨hdelivered, hreturned⟩ | ⟨cq, tag, ok, q, rfl, hmay, hrpc⟩⟩
      · rw [hnil] at hmem
        cases hmem
      · rw [hreturned] at hmem
        rw [hdelivered]
        exact h hlt hmem
      · rw [hrpc] at hmem ⊢
        exact h.next hn hM hs hlt (reach_conveyed hreach) hmay hallows hmem

end ClientStreaming

/-- A call with streamed requests and one response, in every interleaving of the server, a blocking
client and gRPC, for every handler that sends at most one item, in `OnReadsDone`: if `StreamFinish`
returns `OK`, then `StreamWritesDone` was called, and the response that the client has stored is the
answer of the handler when it is run over all the requests that the client has written. -/
theorem client_streaming_call [DecidableEq Req] [DecidableEq Resp]
    (hn : options.numEventThreads = 1) {M : Machine σ (Callback Req) (HandlerAction Resp)}
    (hM : AnswersAtEnd M) {r : Nat} {e : Server Req Resp × BlockingClient Req Resp}
    (he : (requestsCall Req Resp options maps .clientWriter r).Reach (OnServer (ServedBy M r)) e)
    (htype : (e.1.rpcs r).rpcType = .clientStreaming) {status : Status}
    (hfinish : status ∈ e.2.finishes) (hok : status.isOk = true) :
    e.2.writesDone ≠ [] ∧ ∃ m, e.2.response = some m ∧
      replies M (plainRun e.2.requests) = [⟨some m, status⟩] := by
  have hs : (serverSystem Req Resp options maps).Reach (ServedBy M r) e.1 :=
    System.Reach.left (fun _ _ _ _ hg _ _ => hg _ rfl) he
  obtain ⟨hr, hsent, -⟩ := (reach_conveyed he).brought.status status hfinish hok
  obtain ⟨acts, p, -, h⟩ := reach_answers (reach_callServedBy hn hs hr)
  have hdone := hM.onReadsDone (h.replies_ne_nil hsent)
  -- The reads have ended, and with them the requests.
  have hstreams : (e.1.call r).rpc.rpcType.streamsRequests = true :=
    congrArg RpcType.streamsRequests htype
  have hover := (h.talks.endsReads (h.informs.handler_of_callback hdone)).mpr (.inl hdone)
  have hread : (.read, false) ∈ (e.1.call r).rpc.returned := by
    rw [← h.sends.lives.results]
    exact List.mem_append_left _ (by simpa [readsOver, hstreams] using hover)
  obtain ⟨hended, hdelivered⟩ := reach_complete hn hM he hr hread
  refine ⟨hended, ?_⟩
  -- The only item of the handler is the response.
  obtain ⟨htold, hone⟩ := h.replies_told (answersOnce_of_onReadsDone hM _)
  obtain ⟨item, hitem, hop⟩ := List.mem_map.mp (h.sends_initial.subset hsent)
  have hwhole : (e.1.call r).rpc.rpcType.streamsResponses = false :=
    congrArg RpcType.streamsResponses htype
  obtain ⟨m, hresponse, rfl⟩ := sendOp_finish_of_whole hwhole hop
  refine ⟨m, hresponse, ?_⟩
  rw [htold, h.told_plainRun hdone] at hitem hone
  rw [← hdelivered]
  obtain ⟨item', hreplies⟩ := List.length_eq_one_iff.mp
    (Nat.le_antisymm hone (List.length_pos_of_mem hitem))
  rw [hreplies, List.mem_singleton] at hitem
  rw [hitem]
  exact hreplies

/-- The client writes two numbers and ends its writes, the server answers with their sum, and the
client finishes the call. -/
def sumOfTwo : List (Label Nat Nat ⊕ BlockingLabel Nat Nat) :=
  [.inr (.write 3 true), .inr (.write 4 true), .inr (.streamWritesDone true)] ++
    sumOfRequests.map .inl ++ [.inr (.streamFinish .ok (some 7))]

theorem client_streaming_call_of_sum :
    ∃ e, (requestsCall Nat Nat oneEventThread sumService .clientWriter 0).Reach
        (OnServer (ServedBy getSumHandler 0)) e ∧ .ok ∈ e.2.finishes ∧ e.2.requests = [3, 4] ∧
      ∃ m, e.2.response = some m ∧ replies getSumHandler (plainRun [3, 4]) = [⟨some m, .ok⟩] := by
  have hinit : (requestsCall Nat Nat oneEventThread sumService .clientWriter 0).init
      (.start oneEventThread sumService, .new) := ⟨rfl, rfl⟩
  obtain ⟨e, he, hp⟩ := exists_exchange (servedBy_sound getSumHandler 0) hinit sumOfTwo
    (fun e => (e.1.rpcs 0).rpcType = .clientStreaming ∧ .ok ∈ e.2.finishes ∧
      e.2.requests = [3, 4]) (by decide +kernel)
  obtain ⟨htype, hfinish, hrequests⟩ := of_decide_eq_true hp
  have hM : AnswersAtEnd getSumHandler := by
    intro q cb
    cases cb <;> simp [getSumHandler, HandlerAction.item, isOnReadsDone]
  have hanswer := (client_streaming_call rfl hM he htype hfinish rfl).2
  rw [hrequests] at hanswer
  exact ⟨e, he, hfinish, hrequests, hanswer⟩

/-! ### Only the responses are streamed -/

section ServerStreaming

variable [DecidableEq Req] [DecidableEq Resp] {r : Nat} {request : Req}
  {e : Server Req Resp × ReadingClient Req Resp}

theorem reach_brought {G : Server Req Resp × ReadingClient Req Resp →
      Label Req Resp ⊕ ReadingLabel Req Resp → Prop}
    (he : (readsCall Req Resp options maps request r).Reach G e) :
    Brought r e.1 e.2.reads none e.2.finishes := by
  refine he.invariant (P := fun e => Brought r e.1 e.2.reads none e.2.finishes) ?_ ?_
  · rintro ⟨s, c⟩ ⟨-, rfl⟩
    exact ⟨.inl rfl, fun status hmem => by cases hmem⟩
  · intro e l e' hreach h _ hstep
    obtain ⟨hallows, hmove⟩ := System.beside_step hstep
    cases hmove with
    | left hleft =>
      have hs : (serverSystem Req Resp options maps).Reachable e.1 :=
        System.Reach.left (fun _ _ _ _ _ _ _ => trivial) hreach
      exact h.server hs hleft
    | @right l c hright =>
      simp only [readingClient] at hright
      split at hright
      · rename_i hopen
        have hbrought := h
        rw [hopen] at hbrought
        cases l with
        | write request =>
          simp only [Option.ite_none_right_eq_some, Option.some.injEq] at hright
          rw [← hright.2]
          exact h
        | streamRead answer =>
          simp only [ReadingClient.streamRead] at hright
          split at hright
          · cases hright
            have hread := hbrought.read hallows
            rw [← hopen] at hread
            exact hread
          · cases hright
        | streamFinish status =>
          simp only [ReadingClient.streamFinish] at hright
          split at hright
          · cases hright
            simpa [hopen] using hbrought.finish hallows
          · cases hright
      · cases hright

end ServerStreaming

/-- A call with one request and streamed responses, in every interleaving of the server, a
blocking client and gRPC. Let the handler `M`, run over the request, send some messages and then
call `Finish`, once and as its last send. Then `StreamRead` returns a first part of the messages,
in their order. If `StreamFinish` returns `OK`, that is the status of the handler, and
`StreamRead` has returned every message if it was called until it returned false. -/
theorem server_streaming_call [DecidableEq Req] [DecidableEq Resp]
    (hn : options.numEventThreads = 1) {M : Machine σ (Callback Req) (HandlerAction Resp)}
    {request : Req} {messages : List Resp} {status : Status}
    (H : FinishesLast M [request] messages status) {r : Nat}
    {e : Server Req Resp × ReadingClient Req Resp}
    (he : (readsCall Req Resp options maps request r).Reach (OnServer (ServedBy M r)) e)
    (htype : (e.1.rpcs r).rpcType = .serverStreaming) :
    received e.2.reads <+: messages ∧ ∀ status' ∈ e.2.finishes, status'.isOk = true →
      status' = status ∧ (none ∈ e.2.reads → received e.2.reads = messages) := by
  have hserver : (serverSystem Req Resp options maps).Reach
      (fun s l => ServedBy M r s l ∧ Asks request r l) e.1 :=
    System.Reach.left (fun _ _ _ _ hg hallows _ => ⟨hg _ rfl, asks_of_connects hallows⟩) he
  refine (reach_brought he).messages (fun hr => ?_)
  exact sends_of_asked hn H hserver hr htype

/-- The client asks for the first two numbers and reads them. -/
def sequenceOfTwoRead : List (Label Nat Nat ⊕ ReadingLabel Nat Nat) :=
  .inr (.write 2) :: sequenceOfTwoServed.map .inl ++
    [.inr (.streamRead (some 0)), .inr (.streamRead (some 1)), .inr (.streamRead none),
      .inr (.streamFinish .ok)]

theorem server_streaming_call_of_sequence :
    ∃ e, (readsCall Nat Nat oneEventThread sequenceService 2 0).Reach
        (OnServer (ServedBy getSequenceHandler 0)) e ∧ .ok ∈ e.2.finishes ∧
      received e.2.reads = [0, 1] := by
  have hinit : (readsCall Nat Nat oneEventThread sequenceService 2 0).init
      (.start oneEventThread sequenceService, .new) := ⟨rfl, rfl⟩
  obtain ⟨e, he, hp⟩ := exists_exchange (servedBy_sound getSequenceHandler 0) hinit
    sequenceOfTwoRead (fun e => (e.1.rpcs 0).rpcType = .serverStreaming ∧ .ok ∈ e.2.finishes ∧
      none ∈ e.2.reads) (by decide +kernel)
  obtain ⟨htype, hfinish, hended⟩ := of_decide_eq_true hp
  have hcall := server_streaming_call rfl (getSequence_finishesLast 2) he htype
  exact ⟨e, he, hfinish, (hcall.2 .ok hfinish rfl).2 hended⟩

end AsyncGrpc.Proofs
