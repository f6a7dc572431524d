import AsyncGrpc.Proofs.Accounting
import AsyncGrpc.Proofs.CallView

/-!
# The lifetime of an `Rpc`

With one event thread, an `Rpc` in `ActiveRpcs` always has an operation outstanding that gRPC will
complete, its pending flags say which operations are, each event is handled with the result gRPC
returned for it, and `RemoveIfNotPending` erases an `Rpc` only when gRPC holds nothing of it any more.
-/

namespace AsyncGrpc.Proofs

open Function Transition

variable {Req Resp : Type} {options : Options} {maps : List (List (String × RpcHandlerInfo))}

/-- What the phase of its event thread says about an `Rpc`: how the handler will end, and the
event that led to the phase. -/
def Phase.Fits (x : Rpc Req Resp) (shuttingDown : Bool) : Phase Resp → Prop
  | .handleNewConnection ok => x.handler = false ∧ (.newConnection, ok) ∈ x.handled
  | .remove _ => x.handler = false ∧ (shuttingDown = true ∨ (.newConnection, false) ∈ x.handled)
  | .onConnection e => e = .clone ∧ x.handler = false ∧ (.newConnection, true) ∈ x.handled
  | .onInitialize e => e = .clone
  | .requestRead e => e = .clone ∨ e = .none ∧ x.rpcType.streamsRequests = true
  | .onRequest e => e = .none ∧ x.rpcType.streamsRequests = true
  | .onOnlyRequest e => e = .clone ∧ x.rpcType.streamsRequests = false
  | .onReadsDone e => e = .clone ∧ x.rpcType.streamsRequests = false ∨
      e = .close false ∧ x.rpcType.streamsRequests = true ∧ (.read, false) ∈ x.handled
  | .onFinish e => e = .close false ∧ ∃ ok, (.finish, ok) ∈ x.handled
  | .handleSendQueue e | .performFinish _ e | .performWrite _ e => ∃ shared, e = .close shared
  | _ => True

/-- The phases after which no `Read` is started and `RemoveIfNotPending` is not called. -/
def Phase.settled : Phase Resp → Bool
  | .onInitialize e | .requestRead e | .onOnlyRequest e | .onReadsDone e => e = .clone
  | .onRequest _ | .onFinish _ | .handleSendQueue _ | .performFinish _ _ | .performWrite _ _ => false
  | .ending e => e = .none || e = .clone
  | .handle _ | .handleInternal | .handleNewConnection _ | .remove _ | .onConnection _
  | .releaseShared => true

/-- The phases in which an `Rpc` whose connection has failed is still in `ActiveRpcs`. -/
def Phase.refusing : Phase Resp → Bool
  | .handleNewConnection ok => !ok
  | .remove _ => true
  | _ => false

/-- The tags in transit with the results gRPC returned for them. -/
def results (c : Call Req Resp) (p : Phase Resp) : List (Tag × Bool) :=
  (p.handling.toList ++ c.mailbox.filterMap mailTag).map (fun t => (t, (c.rpc.event t).ok)) ++
    c.inHand.toList

structure Lives (c : Call Req Resp) (acts : List (Instr Resp)) (p : Phase Resp) : Prop where
  accounts : Accounts c acts p
  fits : p.Fits c.rpc c.shuttingDown
  kept : c.active = true → p.settled = true → c.rpc.isAnyEventPending = true
  results : c.rpc.handled ++ results c p = c.rpc.returned
  connection : ∀ ok, (.newConnection, ok) ∈ c.rpc.returned ↔ c.rpc.connected = some ok
  refused : c.active = true → (.newConnection, false) ∈ c.rpc.handled → p.refusing = true

section Turns

variable {c c' : Call Req Resp} {acts acts' : List (Instr Resp)} {p p' : Phase Resp}
  {l : CallLabel Req Resp}

/-- The phase an event leads to fits the `Rpc` that has started to handle it. -/
lemma Lives.ofEvent_fits {tag : Tag} (h : Lives c acts (.handle tag)) :
    (Phase.ofEvent tag (c.rpc.event tag).ok).Fits (c.rpc.startHandling tag) c.shuttingDown := by
  have hpending := h.accounts.pending_of_handle
  have hmem : (tag, (c.rpc.event tag).ok) ∈ (c.rpc.startHandling tag).handled :=
    List.mem_append_right _ List.mem_cons_self
  generalize (c.rpc.event tag).ok = ok at hmem
  cases tag with
  | newConnection => exact ⟨(h.accounts.waiting hpending).1, hmem⟩
  | read =>
    have hstream := (h.accounts.reading hpending).1
    cases ok with
    | true => exact ⟨rfl, hstream⟩
    | false => exact .inr ⟨rfl, hstream, hmem⟩
  | write => exact ⟨false, rfl⟩
  | finish => exact ⟨rfl, ok, hmem⟩
  | done => trivial

lemma callback_fits {x : Rpc Req Resp} {b : Bool} {kind : CallbackKind}
    (hc : p.callback = some (kind, p')) (hp : p.Fits x b) : p'.Fits x b := by
  cases p <;> cases hc
  case onInitialize e => exact .inl hp
  case onRequest e => exact .inr hp
  case onOnlyRequest e => exact .inl hp
  case onReadsDone e => trivial
  case onFinish e => trivial

lemma turn_fits (h : Lives c acts p) (ht : Turn c acts p l c' acts' p') :
    p'.Fits c'.rpc c'.shuttingDown := by
  have hp := h.fits
  cases ht with
  | handle => exact h.ofEvent_fits
  | handleInternal _ => exact ⟨true, rfl⟩
  | refuse hshut => exact ⟨hp.1, .inl hshut⟩
  | fail _ => exact ⟨hp.1, .inr hp.2⟩
  | accept _ => exact ⟨rfl, hp⟩
  | connect _ => exact hp.1
  | reconnect _ => exact .inl hp.1
  | callback hc _ => exact callback_fits hc hp
  | readWhole hstream => exact ⟨hp.resolve_right (by simp [hstream]), hstream⟩
  | takeFinish _ _ _ _ | takeWrite _ _ _ _ _ => exact hp
  | keep _ | erase _ =>
    rename_i shared as _
    cases shared <;> trivial
  | stopServing =>
    cases p with
    | remove e => exact ⟨hp.1, .inl rfl⟩
    | _ => exact hp
  | next _ _ | pushToEventQueue _ | callWriter _ | writerLock _ _ | writerExpired _ _
  | writerEnqueue _ | writerLookUp _ _ | writerPush _ | writerReturn _
  | enqueueMessage | getWeakPtr _ | pushWriteNeeded | getWriter _ => exact hp
  | _ => trivial

lemma callback_settled {x : Rpc Req Resp} {b : Bool} {kind : CallbackKind}
    (hc : p.callback = some (kind, p')) (hp : p.Fits x b) (hp' : p'.settled = true) :
    p.settled = true := by
  cases p <;> cases hc
  case onInitialize e => exact hp'
  case onRequest e => simp [Phase.settled, hp.1] at hp'
  case onOnlyRequest e => exact hp'
  case onReadsDone e =>
    rcases hp with ⟨rfl, -⟩ | ⟨rfl, -⟩
    · rfl
    · cases hp'
  case onFinish e => simp [Phase.settled, hp.1] at hp'

lemma turn_kept (h : Lives c acts p) (ht : Turn c acts p l c' acts' p') (hactive : c'.active = true)
    (hsettled : p'.settled = true) : c'.rpc.isAnyEventPending = true := by
  have hkept := h.kept
  have hfits := h.fits
  cases ht with
  | pushToEventQueue _ => simpa [isAnyEventPending_iff] using hkept hactive hsettled
  | @handle tag as =>
    cases tag with
    | newConnection =>
      obtain ⟨tag, hne, htag⟩ := (isAnyEventPending_iff _).mp (hkept hactive rfl)
      exact (isAnyEventPending_iff _).mpr ⟨tag, hne, by simp [hne, htag]⟩
    | read => cases hok : (c.rpc.event .read).ok <;> simp [hok, Phase.ofEvent, Phase.settled] at hsettled
    | write | finish | done => cases hsettled
  | callback hc _ => exact hkept hactive (callback_settled hc hfits hsettled)
  | startRead _ => exact (isAnyEventPending_iff _).mpr ⟨.read, by simp, by simp⟩
  | performFinish _ =>
    exact (isAnyEventPending_iff _).mpr ⟨.finish, by simp, startOp_pending _ _ _⟩
  | performWrite _ _ =>
    exact (isAnyEventPending_iff _).mpr ⟨.write, by simp, startOp_pending _ _ _⟩
  | keepQueue _ =>
    obtain ⟨shared, rfl⟩ := hfits
    cases hsettled
  | keep hpending => exact hpending
  | remove | erase _ => cases hactive
  | takeFinish _ _ _ _ | takeWrite _ _ _ _ _ => cases hsettled
  | _ => exact hkept hactive (by first | exact hsettled | rfl)

/-- Storing a result leaves the results of the other tags. -/
lemma map_setOk_ok {x : Rpc Req Resp} {tag : Tag} {ok : Bool} {tags : List Tag} (h : tag ∉ tags) :
    tags.map (fun t => (t, ((x.setOk tag ok).event t).ok)) =
      tags.map (fun t => (t, (x.event t).ok)) := by
  apply List.map_congr_left
  intro t ht
  have hne : t ≠ tag := fun he => h (he ▸ ht)
  simp [Rpc.setOk, hne]

lemma startOp_ok (x : Rpc Req Resp) (tag t : Tag) : ((x.startOp tag).event t).ok = (x.event t).ok := by
  by_cases he : t = tag
  · subst he
    simp [Rpc.startOp, Rpc.setRpcEventState]
  · simp [Rpc.startOp, Rpc.setRpcEventState, he]

lemma startHandling_ok (x : Rpc Req Resp) (tag t : Tag) :
    ((x.startHandling tag).event t).ok = (x.event t).ok := by
  by_cases he : t = tag
  · subst he
    simp [Rpc.startHandling, Rpc.setRpcEventState]
  · simp [Rpc.startHandling, Rpc.setRpcEventState, he]

lemma turn_results (h : Lives c acts p) (ht : Turn c acts p l c' acts' p') :
    c'.rpc.handled ++ results c' p' = c'.rpc.returned := by
  have hres := h.results
  cases ht with
  | next hhand hmay =>
    simp only [results, hhand, Option.toList_none, List.append_nil] at hres
    simp only [results, Rpc.returnTag, Option.toList_some, ← List.append_assoc, ← hres]
  | @pushToEventQueue _ _ tag ok hhand =>
    have htransit : transit c p = (p.handling.toList ++ c.mailbox.filterMap mailTag) ++ [tag] := by
      simp [transit, hhand]
    have hnotin : tag ∉ p.handling.toList ++ c.mailbox.filterMap mailTag := by
      intro hmem
      have hout := h.accounts.outstanding tag
      have hle := Bool.toNat_le (c.rpc.isRpcEventPending tag)
      have hpos := List.count_pos_iff.mpr hmem
      rw [htransit, List.count_append, List.count_singleton_self] at hout
      omega
    have hok : ((c.rpc.setOk tag ok).event tag).ok = ok := by simp [Rpc.setOk]
    simp only [results, hhand, Option.toList_some] at hres
    have hres' : (c.rpc.setOk tag ok).handled ++
        (((p.handling.toList ++ c.mailbox.filterMap mailTag) ++ [tag]).map
          (fun t => (t, ((c.rpc.setOk tag ok).event t).ok))) = (c.rpc.setOk tag ok).returned := by
      rw [List.map_append, map_setOk_ok hnotin, List.map_singleton, hok]
      exact hres
    simpa [results] using hres'
  | pop hmail | popInternal hmail =>
    simp only [results, hmail] at hres
    simpa [results, Phase.handling] using hres
  | writerPush _ | pushWriteNeeded => simpa [results] using hres
  | @handle tag as =>
    have hhandled : (c.rpc.startHandling tag).handled =
        c.rpc.handled ++ [(tag, (c.rpc.event tag).ok)] := rfl
    simp only [results, ofEvent_handling, startHandling_ok, hhandled, List.append_assoc]
    exact hres
  | callback hp _ =>
    simp only [results, (callback_handling hp).1] at hres
    simp only [results, (callback_handling hp).2]
    exact hres
  | startRead _ | performFinish _ | performWrite _ _ =>
    simp only [results, startOp_ok]
    exact hres
  | keep _ | erase _ =>
    simp only [results, afterClose_handling]
    exact hres
  | _ => exact hres

lemma turn_connection (h : Lives c acts p) (ht : Turn c acts p l c' acts' p') (ok : Bool) :
    (.newConnection, ok) ∈ c'.rpc.returned ↔ c'.rpc.connected = some ok := by
  have hconnection := h.connection ok
  cases ht with
  | @next _ _ tag ok' request _ hmay =>
    by_cases he : tag = .newConnection
    · subst he
      have hnone := h.accounts.requested (mayReturn_iff.mp hmay).1
      rw [hnone] at hconnection
      simpa [Rpc.returnTag, hconnection] using eq_comm
    · simpa [Rpc.returnTag, he, Ne.symm he] using hconnection
  | _ => exact hconnection

lemma turn_refused (h : Lives c acts p) (ht : Turn c acts p l c' acts' p')
    (hactive : c'.active = true) (hmem : (.newConnection, false) ∈ c'.rpc.handled) :
    p'.refusing = true := by
  have hrefused := h.refused
  cases ht with
  | @handle tag as =>
    rcases List.mem_append.mp hmem with hmem | hmem
    · cases hrefused hactive hmem
    · obtain ⟨rfl, hok⟩ := Prod.mk.inj (List.mem_singleton.mp hmem)
      rw [← hok]
      rfl
  | refuse _ | fail _ => rfl
  | remove | erase _ => cases hactive
  | callback hc _ =>
    have hp : p.refusing = false := by cases p <;> first | rfl | cases hc
    exact absurd (hrefused hactive hmem) (by simp [hp])
  | _ => first | exact hrefused hactive hmem | cases hrefused hactive hmem

lemma Lives.connected_of_handled (h : Lives c acts p) {ok : Bool}
    (hmem : (.newConnection, ok) ∈ c.rpc.handled) : c.rpc.connected = some ok :=
  (h.connection ok).mp (h.results ▸ List.mem_append_left _ hmem)

lemma results_map_fst (c : Call Req Resp) (p : Phase Resp) :
    (results c p).map Prod.fst = transit c p := by
  have hhand : c.inHand.toList.map Prod.fst = (c.inHand.map Prod.fst).toList := by
    cases c.inHand <;> rfl
  have hfst : (Prod.fst ∘ fun t => (t, (c.rpc.event t).ok)) = (id : Tag → Tag) := by
    funext t
    rfl
  rw [results, transit, List.map_append, List.map_map, hfst, List.map_id, hhand]

/-- When its thread is idle, an `Rpc` of `ActiveRpcs` whose connection has failed has yet to
handle that. -/
lemma Lives.newConnection_pending (h : Lives c acts .idle) (hactive : c.active = true)
    (hconnected : c.rpc.connected = some false) :
    c.rpc.isRpcEventPending .newConnection = true := by
  have hreturned := (h.connection false).mpr hconnected
  rw [← h.results, List.mem_append] at hreturned
  have hmem : (Tag.newConnection, false) ∈ Proofs.results c .idle := by
    apply hreturned.resolve_left
    intro hhandled
    cases h.refused hactive hhandled
  have htransit : .newConnection ∈ transit c .idle :=
    results_map_fst c .idle ▸ List.mem_map_of_mem hmem
  exact h.accounts.pending_of_mem htransit

theorem turn_lives (h : Lives c acts p) (ht : Turn c acts p l c' acts' p') : Lives c' acts' p' where
  accounts := turn_accounts h.accounts ht
  fits := turn_fits h ht
  kept := turn_kept h ht
  results := turn_results h ht
  connection := turn_connection h ht
  refused := turn_refused h ht

lemma listening_lives (h : (callSystem Req Resp).init c) : Lives c [] .idle := by
  refine ⟨listening_accounts h, trivial, ?_, ?_, ?_, ?_⟩ <;>
    obtain ⟨methodIndex, cq, queue, info, service, parent, shuttingDown, rfl⟩ := h
  · intro _ _
    rfl
  · rfl
  · intro ok
    constructor <;> intro hok <;> cases hok
  · intro _ hmem
    cases hmem

end Turns

/-- Every call that can be reached is in some phase, with its books in order. -/
theorem reachable_lives {c : Call Req Resp} (hc : (callSystem Req Resp).Reachable c) :
    ∃ acts p, At c acts p ∧ Lives c acts p :=
  reach_staged (fun _ => listening_lives) (fun _ _ _ _ _ _ _ _ h _ ht => turn_lives h ht) hc

/-! ### Outstanding operations of the server -/

def isHandle (tag : Tag) : Instr Resp → Bool
  | .handle t => t = tag
  | _ => false

/-- The operations of an `Rpc` that were started and whose `Handle` has not: gRPC holds them,
the completion queue thread has their tag in hand, their event is in its event queue, or the
event thread has popped it. -/
def outstanding (s : Server Req Resp) (r : Nat) (tag : Tag) : Nat :=
  let t := ((s.rpcs r).event tag).eventQueue
  (s.rpcs r).inFlight tag +
    (s.inHand (s.rpcs r).serverCompletionQueue).toList.countP (fun p => p.1 = r ∧ p.2.1 = tag) +
    (s.eventQueues t).count (.completion r tag) +
    if (s.tasks t).rpc = r then (s.tasks t).code.countP (isHandle tag) else 0

/-- The outstanding operations that gRPC will still complete. The tag of `DONE` never comes back
once `NEW_CONNECTION` came back with `ok = false`. -/
def due (s : Server Req Resp) (r : Nat) (tag : Tag) : Nat :=
  if tag = .done ∧ (s.rpcs r).connected = some false then 0 else outstanding s r tag

lemma count_mailTag (r : Nat) (tag : Tag) (queue : List QueuedEvent) :
    (((queue.filter (fun e => e.rpc = r)).map QueuedEvent.mail).filterMap mailTag).count tag =
      queue.count (.completion r tag) := by
  induction queue with
  | nil => rfl
  | cons e queue ih =>
    cases e with
    | completion r' t =>
      by_cases hr : r' = r
      · subst hr
        by_cases ht : t = tag
        · subst ht
          simpa [QueuedEvent.rpc, QueuedEvent.mail, List.filter_cons] using ih
        · simpa [QueuedEvent.rpc, QueuedEvent.mail, List.filter_cons, List.count_cons, ht] using ih
      · simpa [QueuedEvent.rpc, List.filter_cons, List.count_cons, hr] using ih
    | internal r' =>
      by_cases hr : r' = r
      · simpa [QueuedEvent.rpc, QueuedEvent.mail, List.filter_cons, List.count_cons, hr] using ih
      · simpa [QueuedEvent.rpc, List.filter_cons, List.count_cons, hr] using ih

lemma At.countP_isHandle {c : Call Req Resp} {acts : List (Instr Resp)} {p : Phase Resp}
    (hat : At c acts p) (tag : Tag) :
    c.code.countP (isHandle tag) = p.handling.toList.count tag := by
  have hacts : acts.countP (isHandle tag) = 0 := by
    rw [List.countP_eq_zero]
    intro i hi
    have := hat.producer i hi
    cases i with
    | handle t => cases this
    | _ => simp [isHandle]
  have hending : ∀ e : Ending, (e.code : List (Instr Resp)).countP (isHandle tag) = 0 := by
    rintro (_ | _ | (_ | _)) <;> rfl
  rw [hat.code, List.countP_append, hacts, Nat.zero_add]
  cases p with
  | handle t => simp [Phase.code, Phase.handling, isHandle, List.countP_cons, List.count_cons]
  | _ => simp [Phase.code, Phase.handling, isHandle, hending]

/-- For a routed `Rpc` these are the operations of its call. -/
lemma outstanding_call {s : Server Req Resp} {r : Nat} (hR : (s.rpcs r).Routed)
    {acts : List (Instr Resp)} {p : Phase Resp} (hat : At (s.call r) acts p) (tag : Tag) :
    outstanding s r tag = (s.rpcs r).inFlight tag + (transit (s.call r) p).count tag := by
  have hhand : ((s.call r).inHand.map Prod.fst).toList.count tag =
      (s.inHand (s.rpcs r).serverCompletionQueue).toList.countP
        (fun p => p.1 = r ∧ p.2.1 = tag) := by
    simp only [Server.call]
    rcases s.inHand (s.rpcs r).serverCompletionQueue with _ | ⟨r', t, ok⟩
    · rfl
    · by_cases hr : r' = r <;> simp [hr, List.count_cons, List.countP_cons]
  have hmail := count_mailTag r tag (s.eventQueues (s.rpcs r).eventQueue)
  have hcode : (if (s.tasks (s.rpcs r).eventQueue).rpc = r then
      (s.tasks (s.rpcs r).eventQueue).code.countP (isHandle tag) else 0) =
      p.handling.toList.count tag := by
    rw [← hat.countP_isHandle tag]
    simp only [Server.call]
    split <;> rfl
  simp only [outstanding, hR tag, transit, List.count_append, ← hcode, hhand]
  rw [show (s.call r).mailbox = ((s.eventQueues (s.rpcs r).eventQueue).filter
    (fun e => e.rpc = r)).map QueuedEvent.mail from rfl, hmail]
  omega

/-- Every routed `Rpc` of the server runs as a call. -/
theorem reachable_call {s : Server Req Resp} (hs : (serverSystem Req Resp options maps).Reachable s)
    {r : Nat} (hr : r < s.nextRpc) (hR : (s.rpcs r).Routed) :
    (callSystem Req Resp).Reachable (s.call r) :=
  reach_call (F := fun _ _ _ => True) (fun _ _ _ _ _ _ _ _ _ _ _ => trivial) hs hr hR

/-- What holds of an `Rpc` in `ActiveRpcs` between two event handlings. -/
structure Tracked (s : Server Req Resp) (r : Nat) : Prop where
  pending_iff : ∀ tag, (s.rpcs r).isRpcEventPending tag = true ↔ 0 < outstanding s r tag
  single : ∀ tag, outstanding s r tag ≤ 1
  results : (s.rpcs r).handled <+: (s.rpcs r).returned
  awaited : ∃ tag, 0 < due s r tag

lemma At.code_removeIfNotPending {c : Call Req Resp} {acts rest : List (Instr Resp)}
    {p : Phase Resp} (hat : At c acts p) (h : c.code = .removeIfNotPending :: rest) :
    acts = [] ∧ ∃ shared, p = .ending (.close shared) := by
  obtain ⟨rfl, hcode⟩ := hat.code_of_phase h rfl
  refine ⟨rfl, ?_⟩
  rcases p with _ | _ | _ | _ | _ | _ | _ | _ | _ | _ | _ | _ | _ | _ | (_ | _ | shared) | _ <;>
    first | exact ⟨_, rfl⟩ | cases hcode

lemma Lives.erase {c : Call Req Resp} {shared : Bool} (h : Lives c [] (.ending (.close shared)))
    (hpending : c.rpc.isAnyEventPending = false) (tag : Tag) :
    c.rpc.isRpcEventPending tag = false := by
  by_contra hc
  rw [Bool.not_eq_false] at hc
  by_cases he : tag = .newConnection
  · subst he
    rcases (h.accounts.waiting hc).2 with hp | ⟨hp, -⟩ <;> cases hp
  · rw [(isAnyEventPending_iff _).mpr ⟨tag, he, hc⟩] at hpending
    cases hpending

/-- The outstanding operations of a routed `Rpc` are counted by its flags. -/
lemma outstanding_eq_pending {s : Server Req Resp}
    (hs : (serverSystem Req Resp options maps).Reachable s) {r : Nat} (hr : r < s.nextRpc)
    (hR : (s.rpcs r).Routed) (tag : Tag) :
    outstanding s r tag = ((s.rpcs r).isRpcEventPending tag).toNat := by
  obtain ⟨acts, p, hat, hl⟩ := reachable_lives (reachable_call hs hr hR)
  rw [outstanding_call hR hat]
  exact hl.accounts.outstanding tag

lemma not_pending_of_outstanding {s : Server Req Resp}
    (hs : (serverSystem Req Resp options maps).Reachable s) {r : Nat} (hr : r < s.nextRpc)
    (hR : (s.rpcs r).Routed) {tag : Tag} (hzero : outstanding s r tag = 0) :
    (s.rpcs r).isRpcEventPending tag = false := by
  rw [outstanding_eq_pending hs hr hR tag] at hzero
  simpa using hzero

lemma call_code_idle {s : Server Req Resp} {r : Nat} (hq : (s.rpcs r).eventQueue = 0)
    (hidle : (s.tasks 0).code = []) : (s.call r).code = [] := by
  simp [Server.call, hq, hidle]

lemma tracked_of_active (hn : options.numEventThreads = 1) {s : Server Req Resp}
    (hs : (serverSystem Req Resp options maps).Reachable s) (hidle : (s.tasks 0).code = [])
    {r : Nat} (hr : r < s.nextRpc) (hactive : s.active r = true) : Tracked s r := by
  obtain ⟨hR, hq⟩ := routed_of_one_thread hn hs hr
  have hout := outstanding_eq_pending hs hr hR
  obtain ⟨acts, p, hat, hl⟩ := reachable_lives (reachable_call hs hr hR)
  obtain ⟨rfl, rfl⟩ := hat.code_eq_nil (call_code_idle hq hidle)
  have hiff : ∀ tag, (s.rpcs r).isRpcEventPending tag = true ↔ 0 < outstanding s r tag := by
    intro tag
    rw [hout tag]
    cases (s.rpcs r).isRpcEventPending tag <;> simp
  refine ⟨hiff, fun tag => hout tag ▸ Bool.toNat_le _, ⟨_, hl.results⟩, ?_⟩
  by_cases hfailed : (s.rpcs r).connected = some false
  · -- its `DONE` will not come, but the failed connection is still to be handled
    refine ⟨.newConnection, ?_⟩
    rw [due, if_neg (by simp)]
    exact (hiff _).mp (hl.newConnection_pending hactive hfailed)
  · obtain ⟨tag, -, htag⟩ := (isAnyEventPending_iff _).mp (hl.kept hactive rfl)
    refine ⟨tag, ?_⟩
    rw [due, if_neg (by simp [hfailed])]
    exact (hiff tag).mp htag

lemma outstanding_of_erase (hn : options.numEventThreads = 1) {s s' : Server Req Resp}
    (hs : (serverSystem Req Resp options maps).Reachable s) {r : Nat} {rest : List (Instr Resp)}
    {acts : List (HandlerAction Resp)} (htask : s.tasks 0 = ⟨r, .removeIfNotPending :: rest⟩)
    (hactive : s.active r = true) (hstep : s.step (.exec 0 acts) = some s')
    (herased : s'.active r = false) (tag : Tag) : outstanding s r tag = 0 := by
  have hh := reachable_housed hs
  have hr : r < s.nextRpc := by simpa [htask] using (hh.tasks 0 (by simp [htask])).1
  obtain ⟨hR, hq⟩ := routed_of_one_thread hn hs hr
  obtain ⟨as, p, hat, hl⟩ := reachable_lives (reachable_call hs hr hR)
  have hcode : (s.call r).code = .removeIfNotPending :: rest := by simp [Server.call, hq, htask]
  obtain ⟨rfl, shared, rfl⟩ := hat.code_removeIfNotPending hcode
  rw [outstanding_eq_pending hs hr hR tag]
  rcases moves_call (step_moves hstep).2 hh hr hR with he | ⟨m, hproj, hcall⟩
  · exact absurd (congrArg Call.active he) (by simp [Server.call, hactive, herased])
  · simp only [Label.project, htask, if_true, Option.some.injEq] at hproj
    subst hproj
    obtain ⟨acts', p', -, ht⟩ := step_turn hat hcall
    generalize hc' : s'.call r = c' at ht
    cases ht with
    | keep _ => exact absurd (congrArg Call.active hc') (by simp [Server.call, hactive, herased])
    | erase hpending => exact congrArg Bool.toNat (hl.erase hpending tag)
    | callback hp _ => cases hp

/-- Lifetime accounting with one event thread. Between two event handlings every `Rpc` in
`ActiveRpcs` is tracked, so that `ActiveRpcs` is empty once all operations that gRPC completes are
handled; and whenever `RemoveIfNotPending` erases an `Rpc`, none of its operations is
outstanding. -/
theorem lifetime_accounting (hn : options.numEventThreads = 1) {s : Server Req Resp}
    (hs : (serverSystem Req Resp options maps).Reachable s) :
    ((s.tasks 0).code = [] → ∀ v, ∀ r ∈ (s.services v).activeRpcs, Tracked s r) ∧
      ((s.tasks 0).code = [] → (∀ r < s.nextRpc, ∀ tag, due s r tag = 0) →
        ∀ v, (s.services v).activeRpcs = ∅) ∧
      ∀ r rest acts s', s.tasks 0 = ⟨r, .removeIfNotPending :: rest⟩ → s.active r = true →
        s.step (.exec 0 acts) = some s' → s'.active r = false → ∀ tag, outstanding s r tag = 0 := by
  have htracked : (s.tasks 0).code = [] → ∀ v, ∀ r ∈ (s.services v).activeRpcs, Tracked s r := by
    intro hidle v r hr
    obtain ⟨hlt, hv⟩ := (reachable_housed hs).activeRpcs v r hr
    exact tracked_of_active hn hs hidle hlt (by simpa [Server.active, hv] using hr)
  refine ⟨htracked, fun hidle hdrained v => ?_, fun r rest acts s' htask hactive hstep herased tag =>
    outstanding_of_erase hn hs htask hactive hstep herased tag⟩
  rw [Finset.eq_empty_iff_forall_notMem]
  intro r hr
  obtain ⟨tag, htag⟩ := (htracked hidle v r hr).awaited
  have hlt := ((reachable_housed hs).activeRpcs v r hr).1
  exact absurd (hdrained r hlt tag) htag.ne'

/-- A `Math` service whose only method streams its requests. -/
def sumService : List (List (String × RpcHandlerInfo)) :=
  [[("GetSum", ⟨0, .clientStreaming, "/async_grpc.proto.Math/GetSum"⟩)]]

def oneEventThread : Options := ⟨1, 1, by decide⟩

/-- gRPC returns a tag of the first `Rpc`, and the event thread pops its event. -/
def event (tag : Tag) (ok : Bool) (request : Option Nat) : List (Label Nat Nat) :=
  [.next 0 0 tag ok request, .pushToEventQueue 0, .pop 0]

/-- The event thread makes a callback in which the handler takes some actions. -/
def callback (acts : List (HandlerAction Nat)) : List (Label Nat Nat) :=
  [.exec 0 acts]

/-- The event thread runs some instructions, with callbacks in which the handler does nothing. -/
def execs (n : Nat) : List (Label Nat Nat) :=
  List.replicate n (.exec 0 [])

/-- The event thread pops and handles a `WRITE_NEEDED` event. -/
def writeNeeded (n : Nat) : List (Label Nat Nat) :=
  .pop 0 :: execs n

/-- A client that streams its requests connects. -/
def openConnection : List (Label Nat Nat) :=
  event .newConnection true none ++ execs 6

/-- The client ends its requests and goes away. -/
def closeConnection : List (Label Nat Nat) :=
  event .read false none ++ execs 3 ++ event .done true none ++ execs 1

/-- The first connection fails. Its `Rpc` is removed, and a clone takes its place. -/
def failConnection : List (Label Nat Nat) :=
  event .newConnection false none ++ execs 4

/-- The service is told to stop, and the connection that the clone waits for fails as well. -/
def stopListening : List (Label Nat Nat) :=
  [.stopServing 0, .next 0 1 .newConnection false none, .pushToEventQueue 0, .pop 0] ++ execs 3

/-- An open connection; a failed one, of which `DONE` is outstanding for ever; the server after a
shutdown, with no operation due; and an `Rpc` about to be erased. -/
theorem lifetime_accounting_of_run :
    (∃ s, (serverSystem Nat Nat oneEventThread sumService).Reachable s ∧ (s.tasks 0).code = [] ∧
      0 ∈ (s.services 0).activeRpcs ∧ Tracked s 0) ∧
    (∃ s, (serverSystem Nat Nat oneEventThread sumService).Reachable s ∧ (s.tasks 0).code = [] ∧
      (s.services 0).activeRpcs = {1} ∧ outstanding s 0 .done = 1 ∧ Tracked s 1) ∧
    (∃ s, (serverSystem Nat Nat oneEventThread sumService).Reachable s ∧ (s.tasks 0).code = [] ∧
      outstanding s 0 .done = 1 ∧ (∀ r < s.nextRpc, ∀ tag, due s r tag = 0) ∧
      ∀ v, (s.services v).activeRpcs = ∅) ∧
    ∃ s s', (serverSystem Nat Nat oneEventThread sumService).Reachable s ∧ s.active 0 = true ∧
      s.step (.exec 0 []) = some s' ∧ s'.active 0 = false ∧ ∀ tag, outstanding s 0 tag = 0 := by
  refine ⟨?_, ?_, ?_, ?_⟩
  · obtain ⟨s, hs, hp⟩ := exists_reachable oneEventThread sumService openConnection
      (fun s => (s.tasks 0).code = [] ∧ 0 ∈ (s.services 0).activeRpcs) (by decide +kernel)
    obtain ⟨hidle, hmem⟩ := of_decide_eq_true hp
    exact ⟨s, hs, hidle, hmem, (lifetime_accounting rfl hs).1 hidle 0 0 hmem⟩
  · obtain ⟨s, hs, hp⟩ := exists_reachable oneEventThread sumService failConnection
      (fun s => (s.tasks 0).code = [] ∧ (s.services 0).activeRpcs = {1} ∧
        outstanding s 0 .done = 1) (by decide +kernel)
    obtain ⟨hidle, hactive, hout⟩ := of_decide_eq_true hp
    exact ⟨s, hs, hidle, hactive, hout,
      (lifetime_accounting rfl hs).1 hidle 0 1 (by simp [hactive])⟩
  · obtain ⟨s, hs, hp⟩ := exists_reachable oneEventThread sumService
      (failConnection ++ stopListening)
      (fun s => (s.tasks 0).code = [] ∧ outstanding s 0 .done = 1 ∧
        ∀ r < s.nextRpc, ∀ tag ∈ Tag.all, due s r tag = 0) (by decide +kernel)
    obtain ⟨hidle, hout, hall⟩ := of_decide_eq_true hp
    have hdrained : ∀ r < s.nextRpc, ∀ tag, due s r tag = 0 := by
      intro r hr tag
      exact hall r hr tag tag.mem_all
    exact ⟨s, hs, hidle, hout, hdrained, (lifetime_accounting rfl hs).2.1 hidle hdrained⟩
  · obtain ⟨s, hs, hp⟩ := exists_reachable oneEventThread sumService
      (openConnection ++ closeConnection)
      (fun s => s.tasks 0 = ⟨0, [.removeIfNotPending]⟩ ∧ s.active 0 = true ∧
        (s.step (.exec 0 [])).any (fun s' => !s'.active 0) = true) (by decide +kernel)
    obtain ⟨htask, hactive, hstep⟩ := of_decide_eq_true hp
    obtain ⟨s', hstep, herased⟩ := (Option.any_eq_true _ _).mp hstep
    refine ⟨s, s', hs, hactive, hstep, by simpa using herased, ?_⟩
    exact (lifetime_accounting rfl hs).2.2 0 [] [] s' htask hactive hstep
      (by simpa using herased)

end AsyncGrpc.Proofs
