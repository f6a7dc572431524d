import AsyncGrpc.Proofs.Lifetime

/-!
# The requests of a call

The read side of a call. The handler is told about its requests in the order in which gRPC
delivers them and then about their end, and nothing follows that but `OnFinish`.
-/

namespace AsyncGrpc.Proofs

open Function Transition

variable {Req Resp : Type}

def isOnFinish : Callback Req → Bool
  | .onFinish => true
  | .onInitialize | .onRequest _ | .onReadsDone => false

/-- The callbacks about the requests, which are all but `OnFinish`. -/
def told (callbacks : List (Callback Req)) : List (Callback Req) :=
  callbacks.filter (fun cb => !isOnFinish cb)

/-- The callbacks on a handler that has been told about some requests. -/
def opening (requests : List Req) : List (Callback Req) :=
  .onInitialize :: requests.map (fun q => .onRequest (some q))

/-- The callbacks on a handler that is simply run over its requests. -/
def plainRun (requests : List Req) : List (Callback Req) :=
  opening requests ++ [.onReadsDone]

lemma told_concat (callbacks : List (Callback Req)) {cb : Callback Req} (h : isOnFinish cb = false) :
    told (callbacks ++ [cb]) = told callbacks ++ [cb] := by
  simp [told, h]

lemma told_onFinish (callbacks : List (Callback Req)) :
    told (callbacks ++ [.onFinish]) = told callbacks := by
  simp [told, isOnFinish]

lemma told_eq_self {callbacks : List (Callback Req)} (h : .onFinish ∉ callbacks) :
    told callbacks = callbacks := by
  rw [told, List.filter_eq_self]
  intro cb hcb
  cases cb with
  | onFinish => exact absurd hcb h
  | onInitialize | onRequest _ | onReadsDone => rfl

lemma opening_concat (requests : List Req) (q : Req) :
    opening (requests ++ [q]) = opening requests ++ [.onRequest (some q)] := by
  simp [opening]

lemma opening_mono {requests requests' : List Req} (h : requests <+: requests') :
    opening requests <+: opening requests' :=
  List.cons_prefix_cons.mpr ⟨rfl, h.map _⟩

/-- The requests whose event has been handled. -/
def given (x : Rpc Req Resp) : List Req :=
  if x.rpcType.streamsRequests then x.delivered.take (x.handled.count (.read, true)) else x.delivered

lemma given_initial (x : Rpc Req Resp) : given x <+: x.delivered := by
  unfold given
  split
  · exact List.take_prefix _ _
  · exact List.prefix_rfl

/-- The callbacks that the event thread has to make before it turns to the next `Read`. -/
def owed (streams : Bool) (request : Option Req) : Phase Resp → List (Callback Req)
  | .onInitialize _ => .onInitialize :: if streams then [] else [.onRequest request]
  | .requestRead _ => if streams then [] else [.onRequest request]
  | .onRequest _ | .onOnlyRequest _ => [.onRequest request]
  | _ => []

structure Informs (c : Call Req Resp) (acts : List (Instr Resp)) (p : Phase Resp) : Prop where
  lives : Lives c acts p
  request : c.rpc.request = c.rpc.delivered.getLast?
  reads : c.rpc.rpcType.streamsRequests = true →
    c.rpc.delivered.length = c.rpc.returned.count (.read, true)
  whole : c.rpc.rpcType.streamsRequests = false →
    c.rpc.delivered.length = if c.rpc.connected = some true then 1 else 0
  fresh : c.rpc.handler = false → c.rpc.callbacks = [] ∧ (.read, true) ∉ c.rpc.handled
  connected : c.rpc.handler = true → c.rpc.connected = some true
  opened : c.rpc.handler = true → .onReadsDone ∉ c.rpc.callbacks →
    told c.rpc.callbacks ++ owed c.rpc.rpcType.streamsRequests c.rpc.request p =
      opening (given c.rpc)
  ended : .onReadsDone ∈ c.rpc.callbacks → told c.rpc.callbacks = plainRun (given c.rpc) ∧
    c.rpc.isRpcEventPending .read = false ∧ p.betweenReads = false

section Turns

variable {c c' : Call Req Resp} {acts acts' : List (Instr Resp)} {p p' : Phase Resp}
  {l : CallLabel Req Resp}

/-- Between two `Read`s every `Read` that gRPC has returned has been handled. -/
lemma handled_count_read (h : Lives c acts p) (hread : c.rpc.isRpcEventPending .read = false)
    (ok : Bool) : c.rpc.handled.count (.read, ok) = c.rpc.returned.count (.read, ok) := by
  have hnone : (.read, ok) ∉ results c p := by
    intro hmem
    have hin : Tag.read ∈ transit c p := results_map_fst c p ▸ List.mem_map_of_mem hmem
    exact absurd (hread.symm.trans (h.accounts.pending_of_mem hin)) (by simp)
  rw [← h.results, List.count_append, List.count_eq_zero.mpr hnone, Nat.add_zero]

lemma Informs.given_eq_delivered (h : Informs c acts p)
    (hread : c.rpc.isRpcEventPending .read = false) : given c.rpc = c.rpc.delivered := by
  unfold given
  split
  · rename_i hstream
    rw [handled_count_read h.lives hread, ← h.reads hstream, List.take_length]
  · rfl

lemma turn_request (h : Informs c acts p) (ht : Turn c acts p l c' acts' p') :
    c'.rpc.request = c'.rpc.delivered.getLast? := by
  cases ht with
  | @next _ _ tag ok request _ _ =>
    simp only [Rpc.returnTag, List.getLast?_append, h.request]
    cases request <;> rfl
  | _ => exact h.request

lemma turn_reads (h : Informs c acts p) (ht : Turn c acts p l c' acts' p')
    (hstream : c'.rpc.rpcType.streamsRequests = true) :
    c'.rpc.delivered.length = c'.rpc.returned.count (.read, true) := by
  rw [turn_rpcType ht] at hstream
  cases ht with
  | @next _ _ tag ok request _ hmay =>
    have hdel := (mayReturn_iff.mp hmay).2.2
    have hlen : request.toList.length = [(tag, ok)].count (.read, true) := by
      rw [Rpc.delivers, hstream] at hdel
      cases request <;> cases tag <;> cases ok <;> simp_all
    simp only [Rpc.returnTag, List.length_append, List.count_append, hlen, h.reads hstream]
  | _ => exact h.reads hstream

lemma turn_whole (h : Informs c acts p) (ht : Turn c acts p l c' acts' p')
    (hstream : c'.rpc.rpcType.streamsRequests = false) :
    c'.rpc.delivered.length = if c'.rpc.connected = some true then 1 else 0 := by
  rw [turn_rpcType ht] at hstream
  cases ht with
  | @next _ _ tag ok request _ hmay =>
    obtain ⟨hheld, -, hdel⟩ := mayReturn_iff.mp hmay
    have hread := h.lives.accounts.held_ne_read hstream hheld
    have hwhole := h.whole hstream
    simp only [Rpc.delivers, hstream, hread, decide_false, Bool.false_or, Bool.not_false,
      Bool.and_true] at hdel
    by_cases hnew : tag = .newConnection
    · subst hnew
      rw [h.lives.accounts.requested hheld] at hwhole
      simp only [Rpc.returnTag, List.length_append, hwhole]
      cases request <;> cases ok <;> simp_all
    · simp only [hnew, decide_false, Bool.and_false, Option.isSome_eq_false_iff,
        Option.isNone_iff_eq_none] at hdel
      simpa [Rpc.returnTag, hnew, hdel] using hwhole
  | _ => exact h.whole hstream

lemma turn_silent (h : Informs c acts p) (ht : Turn c acts p l c' acts' p')
    (hhandler : c'.rpc.handler = false) :
    c'.rpc.callbacks = [] ∧ (.read, true) ∉ c'.rpc.handled := by
  cases ht with
  | @handle tag as =>
    obtain ⟨hcallbacks, hread⟩ := h.fresh hhandler
    refine ⟨hcallbacks, fun hmem => ?_⟩
    have hhandled : (c.rpc.startHandling tag).handled =
        c.rpc.handled ++ [(tag, (c.rpc.event tag).ok)] := rfl
    rw [hhandled, List.mem_append, List.mem_singleton] at hmem
    rcases hmem with hmem | hmem
    · exact hread hmem
    · have htag : tag = .read := (congrArg Prod.fst hmem).symm
      subst htag
      have hflag := (h.lives.accounts.fresh hhandler).1.1 .read (by simp) (by simp)
      exact absurd (hflag.symm.trans h.lives.accounts.pending_of_handle) (by simp)
  | connect _ => cases hhandler
  | callback _ hh => exact absurd (hhandler.symm.trans hh) (by simp)
  | _ => exact h.fresh hhandler

lemma turn_connected (h : Informs c acts p) (ht : Turn c acts p l c' acts' p')
    (hhandler : c'.rpc.handler = true) : c'.rpc.connected = some true := by
  cases ht with
  | @next _ _ tag ok request _ hmay =>
    have hconn := h.connected hhandler
    have hnew : tag ≠ .newConnection := by
      rintro rfl
      have hnone := h.lives.accounts.requested (mayReturn_iff.mp hmay).1
      exact absurd (hnone.symm.trans hconn) (by simp)
    simpa [Rpc.returnTag, hnew] using hconn
  | connect _ => exact h.lives.connected_of_handled h.lives.fits.2.2
  | _ => exact h.connected hhandler

/-- A connected call is only delivered a request by a `Read`. -/
lemma Informs.request_eq_none (h : Informs c acts p) (hhandler : c.rpc.handler = true) {tag : Tag}
    {ok : Bool} {request : Option Req} (hmay : c.rpc.mayReturn tag ok request = true)
    (hread : tag ≠ .read) : request = none := by
  obtain ⟨hheld, -, hdel⟩ := mayReturn_iff.mp hmay
  have hnew : tag ≠ .newConnection := by
    rintro rfl
    have hnone := h.lives.accounts.requested hheld
    exact absurd (hnone.symm.trans (h.connected hhandler)) (by simp)
  simpa [Rpc.delivers, hread, hnew] using hdel

/-- A handler is not given a request before its event is handled. -/
lemma Informs.given_next (h : Informs c acts p) (hhandler : c.rpc.handler = true) {tag : Tag}
    {ok : Bool} {request : Option Req} (hmay : c.rpc.mayReturn tag ok request = true) :
    given (c.rpc.returnTag tag ok request) = given c.rpc := by
  have htype : (c.rpc.returnTag tag ok request).rpcType = c.rpc.rpcType := rfl
  have hdelivered : (c.rpc.returnTag tag ok request).delivered =
      c.rpc.delivered ++ request.toList := rfl
  have hhandled : (c.rpc.returnTag tag ok request).handled = c.rpc.handled := rfl
  simp only [given, htype, hdelivered, hhandled]
  split
  · rename_i hstream
    apply List.take_append_of_le_length
    rw [h.reads hstream, ← h.lives.results, List.count_append]
    exact Nat.le_add_right _ _
  · rename_i hstream
    have hread := h.lives.accounts.held_ne_read (Bool.eq_false_of_not_eq_true hstream)
      (mayReturn_iff.mp hmay).1
    simp [h.request_eq_none hhandler hmay hread]

lemma given_startHandling {x : Rpc Req Resp} {tag : Tag}
    (h : tag ≠ .read ∨ (x.event tag).ok = false) : given (x.startHandling tag) = given x := by
  have hhandled : (x.startHandling tag).handled = x.handled ++ [(tag, (x.event tag).ok)] := rfl
  have hcount : [(tag, (x.event tag).ok)].count (.read, true) = 0 := by
    rw [List.count_eq_zero, List.mem_singleton, Prod.mk.injEq]
    rintro ⟨rfl, hok⟩
    simp [← hok] at h
  unfold given
  rw [hhandled, List.count_append, hcount]
  rfl

lemma owed_eq_nil {b : Bool} {request : Option Req} (hp : p.betweenReads = false) :
    owed b request p = [] := by
  cases p <;> first | rfl | cases hp

/-- Handling a successful `Read` gives the handler one more request. -/
lemma Informs.opened_read (h : Informs c [] (.handle .read)) (hok : (c.rpc.event .read).ok = true)
    (hhandler : c.rpc.handler = true) (hmore : .onReadsDone ∉ c.rpc.callbacks) :
    told c.rpc.callbacks ++ [.onRequest c.rpc.request] = opening (given (c.rpc.startHandling .read)) := by
  have hstream := (h.lives.accounts.reading h.lives.accounts.pending_of_handle).1
  have hlives : Lives _ [] _ := turn_lives (l := .exec []) h.lives .handle
  have hcount : (c.rpc.startHandling .read).handled.count (.read, true) = c.rpc.delivered.length :=
    (handled_count_read hlives (by simp) true).trans (h.reads hstream).symm
  have hhandled : (c.rpc.startHandling .read).handled = c.rpc.handled ++ [(.read, true)] := by
    rw [← hok]
    rfl
  have hgiven : given (c.rpc.startHandling .read) = c.rpc.delivered := by
    unfold given
    rw [hcount]
    exact (if_pos hstream).trans List.take_length
  rw [hhandled, List.count_append, List.count_singleton_self] at hcount
  have hopened := h.opened hhandler hmore
  rw [hgiven, h.request]
  rcases List.eq_nil_or_concat c.rpc.delivered with hnil | ⟨front, q, hq⟩
  · rw [hnil, List.length_nil] at hcount
    omega
  · rw [List.concat_eq_append] at hq
    rw [hq, List.length_append, List.length_singleton] at hcount
    have hold : given c.rpc = front := by
      unfold given
      rw [if_pos hstream, hq, Nat.succ.inj hcount, List.take_left]
    rw [hold, owed_eq_nil rfl, List.append_nil] at hopened
    rw [hq, opening_concat, hopened, List.getLast?_concat]

/-- A handler that has just been made will be told about the request that came with the
connection, if one did. -/
lemma Informs.opened_connect {e : Ending} (h : Informs c [] (.onConnection e)) :
    owed c.rpc.rpcType.streamsRequests c.rpc.request (.onInitialize e : Phase Resp) =
      opening (given c.rpc) := by
  obtain ⟨-, hhandler, hconn⟩ := h.lives.fits
  cases hstream : c.rpc.rpcType.streamsRequests with
  | true =>
    have hzero := List.count_eq_zero.mpr (h.fresh hhandler).2
    simp [given, hstream, hzero, owed, opening]
  | false =>
    have hone := h.whole hstream
    rw [if_pos (h.lives.connected_of_handled hconn)] at hone
    obtain ⟨q, hq⟩ := List.length_eq_one_iff.mp hone
    simp [given, hstream, hq, owed, opening, h.request]

lemma Informs.opened_next (h : Informs c acts p) (hhandler : c.rpc.handler = true)
    (hmore : .onReadsDone ∉ c.rpc.callbacks) {tag : Tag} {ok : Bool} {request : Option Req}
    (hmay : c.rpc.mayReturn tag ok request = true) :
    told c.rpc.callbacks ++ owed c.rpc.rpcType.streamsRequests (request.or c.rpc.request) p =
      opening (given (c.rpc.returnTag tag ok request)) := by
  rw [h.given_next hhandler hmay, ← h.opened hhandler hmore]
  by_cases hread : tag = .read
  · subst hread
    have hpending := h.lives.accounts.pending_of_held (mayReturn_iff.mp hmay).1
    have hp := (h.lives.accounts.reading hpending).2
    rw [owed_eq_nil hp, owed_eq_nil hp]
  · rw [h.request_eq_none hhandler hmay hread]
    rfl

lemma Informs.opened_handle {tag : Tag} (h : Informs c [] (.handle tag))
    (hhandler : c.rpc.handler = true) (hmore : .onReadsDone ∉ c.rpc.callbacks) :
    told c.rpc.callbacks ++ owed c.rpc.rpcType.streamsRequests c.rpc.request
      (.ofEvent tag (c.rpc.event tag).ok : Phase Resp) = opening (given (c.rpc.startHandling tag)) := by
  cases tag with
  | newConnection =>
    have hwaiting := (h.lives.accounts.waiting h.lives.accounts.pending_of_handle).1
    exact absurd (hwaiting.symm.trans hhandler) (by simp)
  | read =>
    cases hok : (c.rpc.event .read).ok with
    | true => exact h.opened_read hok hhandler hmore
    | false =>
      rw [given_startHandling (.inr hok)]
      exact h.opened hhandler hmore
  | write | finish | done =>
    rw [given_startHandling (.inl (by simp))]
    exact h.opened hhandler hmore

/-- A callback about the requests is the next one that is owed. -/
lemma Informs.opened_callback {kind : CallbackKind} (h : Informs c [] p)
    (hc : p.callback = some (kind, p')) (hhandler : c.rpc.handler = true)
    (hmore : .onReadsDone ∉ c.rpc.callbacks ++ [c.rpc.callback kind]) :
    told (c.rpc.callbacks ++ [c.rpc.callback kind]) ++
      owed c.rpc.rpcType.streamsRequests c.rpc.request p' = opening (given c.rpc) := by
  rw [List.mem_append, not_or] at hmore
  have hopened := h.opened hhandler hmore.1
  have hfits := h.lives.fits
  cases p <;> cases hc
  case onInitialize e =>
    rw [told_concat _ rfl, List.append_assoc]
    exact hopened
  case onRequest e =>
    rw [told_concat _ rfl, List.append_assoc, hfits.2]
    exact hopened
  case onOnlyRequest e =>
    rw [told_concat _ rfl, List.append_assoc]
    exact hopened
  case onReadsDone e => exact absurd List.mem_cons_self hmore.2
  case onFinish e =>
    rw [show c.rpc.callback .onFinish = .onFinish from rfl, told_onFinish]
    exact hopened

lemma turn_opened (h : Informs c acts p) (ht : Turn c acts p l c' acts' p')
    (hhandler : c'.rpc.handler = true) (hmore : .onReadsDone ∉ c'.rpc.callbacks) :
    told c'.rpc.callbacks ++ owed c'.rpc.rpcType.streamsRequests c'.rpc.request p' =
      opening (given c'.rpc) := by
  cases ht with
  | next _ hmay => exact h.opened_next hhandler hmore hmay
  | handle => exact h.opened_handle hhandler hmore
  | connect hfalse =>
    have hnil : told c.rpc.callbacks = [] := by
      rw [(h.fresh hfalse).1]
      rfl
    rw [hnil]
    exact h.opened_connect
  | reconnect htrue => exact absurd (h.lives.fits.2.1.symm.trans htrue) (by simp)
  | callback hc _ => exact h.opened_callback hc hhandler hmore
  | startRead hstream =>
    have hopened := h.opened hhandler hmore
    rw [hstream] at hopened
    exact hopened
  | readWhole hstream =>
    have hopened := h.opened hhandler hmore
    rw [hstream] at hopened
    exact hopened
  | keep _ | erase _ =>
    rename_i shared as _
    cases shared <;> exact h.opened hhandler hmore
  | _ => exact h.opened hhandler hmore

/-- The end of the requests is told after all of them. -/
lemma Informs.ended_onReadsDone {e : Ending} (h : Informs c [] (.onReadsDone e))
    (hhandler : c.rpc.handler = true) (hmore : .onReadsDone ∉ c.rpc.callbacks) :
    told (c.rpc.callbacks ++ [.onReadsDone]) = plainRun (given c.rpc) ∧
      c.rpc.isRpcEventPending .read = false := by
  have hopened := h.opened hhandler hmore
  rw [show owed _ _ (.onReadsDone e : Phase Resp) = [] from rfl, List.append_nil] at hopened
  refine ⟨by rw [told_concat _ rfl, hopened, plainRun], ?_⟩
  by_contra hread
  exact absurd (h.lives.accounts.reading (by simpa using hread)).2 (by simp [Phase.betweenReads])

/-- Nothing is told after the end of the requests. -/
lemma Informs.ended_turn (h : Informs c acts p) (ht : Turn c acts p l c' acts' p')
    (hdone : .onReadsDone ∈ c.rpc.callbacks) : told c'.rpc.callbacks = plainRun (given c'.rpc) ∧
      c'.rpc.isRpcEventPending .read = false ∧ p'.betweenReads = false := by
  obtain ⟨htold, hread, hbetween⟩ := h.ended hdone
  have hhandler : c.rpc.handler = true := by
    by_contra hfalse
    rw [(h.fresh (by simpa using hfalse)).1] at hdone
    cases hdone
  have hread' : c'.rpc.isRpcEventPending .read = false := by
    by_contra hpending
    rcases (turn_books ht).pending_of (by simpa using hpending) with hp | hp
    · exact absurd (hread.symm.trans hp) (by simp)
    · cases p <;> cases hp
      cases hbetween
  refine and_left_comm.mp ⟨hread', ?_⟩
  cases ht with
  | next _ hmay => exact ⟨by rw [h.given_next hhandler hmay]; exact htold, hbetween⟩
  | @handle tag as =>
    have hpending := h.lives.accounts.pending_of_handle
    cases tag with
    | newConnection =>
      exact absurd ((h.lives.accounts.waiting hpending).1.symm.trans hhandler) (by simp)
    | read => exact absurd (hread.symm.trans hpending) (by simp)
    | write | finish | done =>
      exact ⟨by rw [given_startHandling (.inl (by simp))]; exact htold, rfl⟩
  | callback hc _ =>
    cases p <;> cases hc <;> first | (cases hbetween; done) | skip
    exact ⟨(told_onFinish _).trans htold, rfl⟩
  | keep _ | erase _ =>
    rename_i shared as _
    exact ⟨htold, by cases shared <;> rfl⟩
  | accept _ | connect _ | reconnect _ | startRead _ | readWhole _ => cases hbetween
  | _ => exact ⟨htold, by first | exact hbetween | rfl⟩

lemma turn_ended (h : Informs c acts p) (ht : Turn c acts p l c' acts' p')
    (hdone : .onReadsDone ∈ c'.rpc.callbacks) : told c'.rpc.callbacks = plainRun (given c'.rpc) ∧
      c'.rpc.isRpcEventPending .read = false ∧ p'.betweenReads = false := by
  by_cases hold : .onReadsDone ∈ c.rpc.callbacks
  · exact h.ended_turn ht hold
  · cases ht with
    | callback hc hhandler =>
      have hnew := (List.mem_append.mp hdone).resolve_left hold
      cases p <;> cases hc <;> first | (cases List.mem_singleton.mp hnew; done) | skip
      obtain ⟨htold, hread⟩ := h.ended_onReadsDone hhandler hold
      exact ⟨htold, hread, rfl⟩
    | _ => exact absurd hdone hold

theorem turn_informs (h : Informs c acts p) (ht : Turn c acts p l c' acts' p') :
    Informs c' acts' p' where
  lives := turn_lives h.lives ht
  request := turn_request h ht
  reads := turn_reads h ht
  whole := turn_whole h ht
  fresh := turn_silent h ht
  connected := turn_connected h ht
  opened := turn_opened h ht
  ended := turn_ended h ht

lemma listening_informs (h : (callSystem Req Resp).init c) : Informs c [] .idle := by
  refine ⟨listening_lives h, ?_, ?_, ?_, ?_, ?_, ?_, ?_⟩ <;>
    obtain ⟨methodIndex, cq, queue, info, service, parent, shuttingDown, rfl⟩ := h
  · rfl
  · intro _
    rfl
  · intro _
    rfl
  · intro _
    exact ⟨rfl, nofun⟩
  · intro hhandler
    cases hhandler
  · intro hhandler
    cases hhandler
  · intro hdone
    cases hdone

/-- The callbacks about the requests are those of a plain run, as far as they go. -/
lemma Informs.told_initial (h : Informs c acts p) :
    told c.rpc.callbacks <+: plainRun (given c.rpc) := by
  by_cases hdone : .onReadsDone ∈ c.rpc.callbacks
  · rw [(h.ended hdone).1]
  · rcases Bool.eq_false_or_eq_true c.rpc.handler with hhandler | hhandler
    · have hopening : told c.rpc.callbacks <+: opening (given c.rpc) := ⟨_, h.opened hhandler hdone⟩
      exact hopening.trans (List.prefix_append _ _)
    · rw [(h.fresh hhandler).1]
      exact List.nil_prefix

end Turns

end AsyncGrpc.Proofs
