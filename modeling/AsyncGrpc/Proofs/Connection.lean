import AsyncGrpc.Proofs.EventOrder

/-!
# An `Rpc` and its connection

`NEW_CONNECTION` and `DONE` are registered once. Until the event thread that handles the new
connection has made a handler, no other operation of the `Rpc` exists, nobody has a `Writer` and
no `WRITE_NEEDED` event is pushed. An `Rpc` that was refused its connection stays that way. All
of this holds for any number of event threads.
-/

namespace AsyncGrpc.Proofs

open Function Transition

variable {Req Resp : Type} {options : Options} {maps : List (List (String × RpcHandlerInfo))}

/-! ### Tags that are registered once -/

/-- The two operations that are started with the `Rpc`. -/
def isRegistered : Tag → Bool
  | .newConnection | .done => true
  | _ => false

lemma mayStart_registered {i : Instr Resp} {tag tag' : Tag} (h : mayStart i = some tag')
    (htag : isRegistered tag = true) : tag ≠ tag' := by
  rintro rfl
  cases i <;> cases h <;> cases htag

lemma RunBooks.inFlight_registered {x y : Rpc Req Resp} {i : Instr Resp} (h : RunBooks x i y)
    {tag : Tag} (htag : isRegistered tag = true) : y.inFlight tag = x.inFlight tag := by
  cases h with
  | same _ h => rw [h.inFlight]
  | start tag' hi h =>
    rw [h.inFlight]
    exact update_of_ne (mayStart_registered hi htag) _ _
  | handle tag' _ h => rw [h]; rfl

/-- How often gRPC has returned a tag. -/
def timesReturned (x : Rpc Req Resp) (tag : Tag) : Nat :=
  (x.returned.map Prod.fst).count tag

theorem registered_once {c : Part Req Resp} (hc : (partSystem Req Resp).Reachable c)
    (tag : Tag) (htag : isRegistered tag = true) :
    c.rpc.inFlight tag + timesReturned c.rpc tag = 1 := by
  apply part_invariant (P := fun c => c.rpc.inFlight tag + timesReturned c.rpc tag = 1) _ _ hc
  · rintro c ⟨methodIndex, cq, queue, info, service, parent, eventQueue, shuttingDown, rfl⟩
    cases tag <;> first | rfl | cases htag
  · intro c m c' _ ih h
    cases h with
    | @next tag' ok request _ hmay =>
      have hheld := (mayReturn_iff.mp hmay).1
      by_cases he : tag = tag'
      · subst he
        simp only [timesReturned, Rpc.returnTag, update_self, List.map_append, List.map_cons,
          List.map_nil, List.count_append, List.count_singleton_self] at ih ⊢
        omega
      · simpa [timesReturned, Rpc.returnTag, he, Ne.symm he, List.count_cons] using ih
    | exec _ hrun =>
      have hbooks := run_books hrun
      rw [Part.apply_rpc]
      simpa only [timesReturned, hbooks.returned, hbooks.inFlight_registered htag] using ih
    | stepWriter _ hstep =>
      have hbooks := writerStep_books hstep
      rw [Part.apply_rpc]
      simpa only [timesReturned, hbooks.returned, hbooks.inFlight] using ih
    | pushToEventQueue _ | pop _ _ | callWriter _ | stopServing => exact ih

/-! ### Before there is a handler -/

lemma mem_waiting_of_mail {c : Part Req Resp} (hp : Placed c) {t : Nat} {tag : Tag}
    (h : .completion tag ∈ c.mailbox t) : tag ∈ waiting c := by
  obtain rfl := hp.completion t tag h
  refine List.mem_append_left _ (List.mem_append_right _ ?_)
  exact List.mem_filterMap.mpr ⟨_, h, rfl⟩

lemma mem_waiting_of_handle {c : Part Req Resp} (hp : Placed c) {t : Nat} {tag : Tag}
    (h : .handle tag ∈ c.code t) : tag ∈ waiting c := by
  obtain rfl := hp.thread_of_handle h
  refine List.mem_append_left _ (List.mem_append_left _ ?_)
  exact List.mem_filterMap.mpr ⟨_, h, rfl⟩

lemma mem_returned_of_waiting {c : Part Req Resp} (hc : (partSystem Req Resp).Reachable c)
    {tag : Tag} (h : tag ∈ waiting c) : tag ∈ c.rpc.returned.map Prod.fst := by
  rw [← reachable_ordered hc]
  exact List.mem_append_right _ h

/-- The instructions that a thread may have to run on an `Rpc` without a handler. -/
def isEarly : Instr Resp → Bool
  | .handle tag => isRegistered tag
  | .handleNewConnection _ | .remove | .onConnection | .clone | .removeIfNotPending => true
  | _ => false

/-- Nothing has happened to the `Rpc` but its two registrations. -/
structure Early (c : Part Req Resp) : Prop where
  returned : ∀ tag ∈ c.rpc.returned.map Prod.fst, isRegistered tag = true
  inFlight : ∀ tag, isRegistered tag = false → c.rpc.inFlight tag = 0
  hasWriter : c.rpc.hasWriter = false
  writers : c.writers = []
  internal : ∀ t, .internal ∉ c.mailbox t
  code : ∀ t, ∀ i ∈ c.code t, isEarly i = true

/-- An early instruction gives the `Rpc` a handler or changes nothing that is early. -/
lemma run_early {i : Instr Resp} {env : Surroundings} {acts : List (HandlerAction Resp)}
    {x : Rpc Req Resp} {o : Outcome Req Resp} (h : i.run env acts x = some o)
    (hi : isEarly i = true) (hhandler : x.handler = false) :
    (o.rpc.handler = true ∧ i = .onConnection) ∨
      (o.rpc.handler = false ∧ o.rpc.inFlight = x.inFlight ∧ o.rpc.hasWriter = x.hasWriter ∧
        o.effect ≠ .pushWriteNeeded ∧ ∀ j ∈ o.next, isEarly j = true) := by
  cases run_runs h with
  | @handle tag =>
    refine .inr ⟨hhandler, rfl, rfl, by simp, ?_⟩
    cases tag with
    | newConnection => simp [Service.handleEvent, Tag.event, isEarly]
    | done => simp [Service.handleEvent, Tag.event, Service.handleDone, isEarly]
    | _ => cases hi
  | @handleNewConnection ok =>
    refine .inr ⟨hhandler, rfl, rfl, by simp, ?_⟩
    cases env.shuttingDown <;> cases ok <;> simp [Service.handleNewConnection, isEarly]
  | connect _ => exact .inl ⟨rfl, rfl⟩
  | reconnect htrue => exact absurd (hhandler.symm.trans htrue) Bool.false_ne_true
  | remove | clone | keep _ | erase _ => exact .inr ⟨hhandler, rfl, rfl, by simp, by simp⟩
  | _ => cases hi

/-- Only `OnConnection` makes a handler, and no instruction takes it away. -/
lemma run_handler {i : Instr Resp} {env : Surroundings} {acts : List (HandlerAction Resp)}
    {x : Rpc Req Resp} {o : Outcome Req Resp} (h : i.run env acts x = some o) :
    o.rpc.handler = x.handler ∨ (i = .onConnection ∧ o.rpc.handler = true) := by
  cases run_runs h with
  | connect _ => exact .inr ⟨rfl, rfl⟩
  | _ => exact .inl rfl

lemma writerStep_handler {w w' : WriterCall Resp} {env : Surroundings} {x y : Rpc Req Resp}
    {effect : Effect} (h : w.step env x = some (y, w', effect)) : y.handler = x.handler := by
  unfold WriterCall.step at h
  split at h <;> (try split at h) <;> cases h <;> rfl

section Early

variable {c : Part Req Resp}

lemma Early.next (h : Early c) {tag : Tag} {ok : Bool} {request : Option Req}
    (hmay : c.rpc.mayReturn tag ok request = true) :
    Early { c with rpc := c.rpc.returnTag tag ok request, inHand := some (tag, ok) } := by
  have htag : isRegistered tag = true := by
    have hheld := (mayReturn_iff.mp hmay).1
    by_contra htag
    rw [h.inFlight tag (by simpa using htag)] at hheld
    exact absurd hheld (Nat.lt_irrefl 0)
  refine { h with returned := fun tag' hmem => ?_, inFlight := fun tag' hfalse => ?_ }
  · simp only [Rpc.returnTag, List.map_append, List.map_cons, List.map_nil, List.mem_append,
      List.mem_singleton] at hmem
    rcases hmem with hmem | rfl
    · exact h.returned tag' hmem
    · exact htag
  · have hne : tag' ≠ tag := by
      rintro rfl
      exact Bool.false_ne_true (hfalse.symm.trans htag)
    exact (update_of_ne hne _ _).trans (h.inFlight tag' hfalse)

lemma Early.pop (h : Early c) (hc : (partSystem Req Resp).Reachable c) {t : Nat} {e : Mail}
    {rest : List Mail} (hmail : c.mailbox t = e :: rest) :
    Early { c with mailbox := update c.mailbox t rest, code := update c.code t [e.handler] } := by
  have hmem : e ∈ c.mailbox t := by simp [hmail]
  refine { h with internal := fun t' ht' => h.internal t' (mem_pop hmail ht'), code := ?_ }
  intro t' i hi
  rcases mem_pop_code hi with rfl | hi
  · cases e with
    | completion tag =>
      have hwaiting := mem_waiting_of_mail (reachable_placed hc) hmem
      exact h.returned tag (mem_returned_of_waiting hc hwaiting)
    | internal => exact absurd hmem (h.internal t)
  · exact h.code t' i hi

lemma Early.exec (h : Early c) {t : Nat} {acts : List (HandlerAction Resp)} {i : Instr Resp}
    {rest : List (Instr Resp)} {o : Outcome Req Resp} (hcode : c.code t = i :: rest)
    (hrun : i.run c.surroundings acts c.rpc = some o) (hhandler : c.rpc.handler = false)
    (hstill : o.rpc.handler = false) :
    Early
      (({ c with rpc := o.rpc, code := update c.code t (o.next ++ rest) } : Part Req Resp).apply
        o.effect) := by
  have hearly := h.code t i (by simp [hcode])
  obtain ⟨-, hflight, hwriter, heffect, hnext⟩ :=
    (run_early hrun hearly hhandler).resolve_left (by simp [hstill])
  refine ⟨?_, ?_, ?_, ?_, fun t' ht' => ?_, fun t' j hj => ?_⟩
  · rw [Part.apply_rpc, (run_books hrun).returned]
    exact h.returned
  · rw [Part.apply_rpc, hflight]
    exact h.inFlight
  · rw [Part.apply_rpc, hwriter]
    exact h.hasWriter
  · rw [Part.apply_writers]
    exact h.writers
  · rcases mem_apply_mailbox ht' with ht' | ⟨-, -, hpush⟩
    · exact h.internal t' ht'
    · exact heffect hpush
  · rw [Part.apply_code] at hj
    rcases mem_code_of_exec hcode hj with hj | hj
    · exact hnext j hj
    · exact h.code t' j hj

/-- As long as an `Rpc` has no handler, nothing has happened to it but its registrations. -/
theorem reachable_early (hc : (partSystem Req Resp).Reachable c) :
    c.rpc.handler = false → Early c := by
  apply part_invariant (P := fun c => c.rpc.handler = false → Early c) _ _ hc
  · rintro c ⟨methodIndex, cq, queue, info, service, parent, eventQueue, shuttingDown, rfl⟩ _
    refine ⟨by simp [Part.listening, Rpc.requestNextMethodInvocation, Rpc.startOp,
      Rpc.setRpcEventState, Rpc.setEventQueue, Rpc.spawned, Rpc.new], fun tag htag => ?_, rfl, rfl,
      by simp [Part.listening], by simp [Part.listening]⟩
    cases tag <;> first | rfl | cases htag
  · intro c m c' hr ih h hhandler'
    cases h with
    | next _ hmay => exact (ih hhandler').next hmay
    | pushToEventQueue _ =>
      have he := ih hhandler'
      refine { he with internal := fun t ht => ?_ }
      rcases mem_push.mp ht with ht | ⟨-, ht⟩
      · exact he.internal t ht
      · cases ht
    | pop _ hmail => exact (ih hhandler').pop hr hmail
    | exec hcode hrun =>
      rw [Part.apply_rpc] at hhandler'
      have hhandler : c.rpc.handler = false := by
        rcases run_handler hrun with hsame | ⟨-, htrue⟩
        · exact hsame.symm.trans hhandler'
        · exact absurd (hhandler'.symm.trans htrue) Bool.false_ne_true
      exact (ih hhandler).exec hcode hrun hhandler hhandler'
    | callWriter hwriter =>
      rw [(ih hhandler').hasWriter] at hwriter
      cases hwriter
    | stepWriter hw hstep =>
      rw [Part.apply_rpc, writerStep_handler hstep] at hhandler'
      rw [(ih hhandler').writers] at hw
      cases hw
    | stopServing => exact { ih hhandler' with }

end Early

/-! ### Handling the connection -/

/-- The instructions by which `HandleNewConnection` decides about an `Rpc`. -/
def decides : Instr Resp → Bool
  | .handleNewConnection _ | .remove | .onConnection => true
  | _ => false

lemma decides_of_producer {i : Instr Resp} (h : isProducer i = true) : decides i = false := by
  cases i <;> first | rfl | cases h

/-- A decision is taken up with `NEW_CONNECTION` and only in `HandleNewConnection`, which ends
with it or with a clone. -/
lemma run_decides {i : Instr Resp} {env : Surroundings} {acts : List (HandlerAction Resp)}
    {x : Rpc Req Resp} {o : Outcome Req Resp} (h : i.run env acts x = some o) :
    (i = .handle .newConnection ∧ o.next = [.handleNewConnection (x.event .newConnection).ok]) ∨
      (∃ ok, i = .handleNewConnection ok ∧
        o.next = Service.handleNewConnection env.shuttingDown ok) ∨
      ∀ j ∈ o.next, decides j = false := by
  cases run_runs h with
  | @handle tag =>
    cases tag with
    | newConnection => exact .inl ⟨rfl, rfl⟩
    | read =>
      refine .inr (.inr ?_)
      cases (x.event .read).ok <;>
        simp [Service.handleEvent, Tag.event, Service.handleRead, decides]
    | write | finish | done =>
      refine .inr (.inr ?_)
      simp [Service.handleEvent, Tag.event, Service.handleWrite, Service.handleFinish,
        Service.handleDone, decides]
  | handleNewConnection => exact .inr (.inl ⟨_, rfl, rfl⟩)
  | callback _ =>
    exact .inr (.inr (fun j hj => decides_of_producer (instrs_producer acts j hj)))
  | _ => exact .inr (.inr (by simp [Service.handleWrite, decides]))

/-- A connection is decided about once, as it came back. -/
structure Connecting (c : Part Req Resp) : Prop where
  unhandled : .newConnection ∉ c.rpc.handled.map Prod.fst →
    c.rpc.handler = false ∧ ∀ t, ∀ i ∈ c.code t, decides i = false
  deciding : ∀ t, ∀ i ∈ c.code t, decides i = true → c.rpc.handler = false
  alone : ∀ t, ∀ i ∈ (c.code t).tail, decides i = false
  inHand : ∀ ok, c.inHand = some (.newConnection, ok) → c.rpc.connected = some ok
  queued : ∀ t, .completion .newConnection ∈ c.mailbox t →
    c.rpc.connected = some (c.rpc.event .newConnection).ok
  taken : ∀ t, .handle .newConnection ∈ c.code t →
    c.rpc.connected = some (c.rpc.event .newConnection).ok
  answer : ∀ t ok, .handleNewConnection ok ∈ c.code t → c.rpc.connected = some ok
  accepted : ∀ t, .onConnection ∈ c.code t → c.rpc.connected = some true
  handler : c.rpc.handler = true → c.rpc.connected = some true

section Connecting

variable {c : Part Req Resp}

/-- `NEW_CONNECTION` is on its way only once. -/
lemma not_handled_of_waiting (hc : (partSystem Req Resp).Reachable c)
    (h : .newConnection ∈ waiting c) : .newConnection ∉ c.rpc.handled.map Prod.fst := by
  intro hmem
  have hcount := registered_once hc .newConnection rfl
  have hone := List.count_pos_iff.mpr hmem
  have hone' := List.count_pos_iff.mpr h
  rw [timesReturned, ← reachable_ordered hc, List.count_append] at hcount
  omega

/-- While gRPC holds `NEW_CONNECTION` it has not been handled and is not on its way. -/
lemma not_returned_of_held (hc : (partSystem Req Resp).Reachable c)
    (h : 0 < c.rpc.inFlight .newConnection) :
    .newConnection ∉ c.rpc.handled.map Prod.fst ∧ .newConnection ∉ waiting c := by
  have hcount := registered_once hc .newConnection rfl
  rw [timesReturned, ← reachable_ordered hc, List.count_append] at hcount
  constructor
  · intro hmem
    have := List.count_pos_iff.mpr hmem
    omega
  · intro hmem
    have := List.count_pos_iff.mpr hmem
    omega

lemma Connecting.next (h : Connecting c) (hc : (partSystem Req Resp).Reachable c) {tag : Tag}
    {ok : Bool} {request : Option Req} (hmay : c.rpc.mayReturn tag ok request = true) :
    Connecting { c with rpc := c.rpc.returnTag tag ok request, inHand := some (tag, ok) } := by
  have hp := reachable_placed hc
  by_cases htag : tag = .newConnection
  · subst htag
    obtain ⟨hhandled, hwaiting⟩ := not_returned_of_held hc (mayReturn_iff.mp hmay).1
    obtain ⟨hhandler, hnone⟩ := h.unhandled hhandled
    refine ⟨h.unhandled, h.deciding, h.alone, ?_, ?_, ?_, ?_, ?_, ?_⟩
    · intro ok' hok
      cases hok
      rfl
    · intro t ht
      exact absurd (mem_waiting_of_mail hp ht) hwaiting
    · intro t ht
      exact absurd (mem_waiting_of_handle hp ht) hwaiting
    · intro t ok' ht
      cases hnone t _ ht
    · intro t ht
      cases hnone t _ ht
    · intro htrue
      exact absurd (hhandler.symm.trans htrue) Bool.false_ne_true
  · have hconnected : (c.rpc.returnTag tag ok request).connected = c.rpc.connected :=
      if_neg htag
    refine ⟨h.unhandled, h.deciding, h.alone, ?_, ?_, ?_, ?_, ?_, ?_⟩
    · intro ok' hok
      cases hok
      exact absurd rfl htag
    · rw [hconnected]
      exact h.queued
    · rw [hconnected]
      exact h.taken
    · rw [hconnected]
      exact h.answer
    · rw [hconnected]
      exact h.accepted
    · rw [hconnected]
      exact h.handler

lemma Connecting.push (h : Connecting c) {tag : Tag} {ok : Bool} {q : Nat}
    (hhand : c.inHand = some (tag, ok)) :
    Connecting (({ c with rpc := c.rpc.setOk tag ok, inHand := none } : Part Req Resp).push q
      (.completion tag)) := by
  by_cases htag : tag = .newConnection
  · subst htag
    have hok : ((c.rpc.setOk .newConnection ok).event .newConnection).ok = ok := by
      simp [Rpc.setOk]
    have hconnected := h.inHand ok hhand
    refine { h with inHand := ?_, queued := ?_, taken := ?_ }
    · intro ok' hok'
      cases hok'
    · intro _ _
      exact hconnected.trans (congrArg some hok).symm
    · intro _ _
      exact hconnected.trans (congrArg some hok).symm
  · have hok : (c.rpc.setOk tag ok).event .newConnection = c.rpc.event .newConnection :=
      update_of_ne (Ne.symm htag) _ _
    refine { h with inHand := ?_, queued := ?_, taken := ?_ }
    · intro ok' hok'
      cases hok'
    · intro t ht
      rcases mem_push.mp ht with ht | ⟨-, ht⟩
      · exact (h.queued t ht).trans (by rw [← hok]; rfl)
      · cases ht
        exact absurd rfl htag
    · intro t ht
      exact (h.taken t ht).trans (by rw [← hok]; rfl)

lemma decides_handler (e : Mail) : decides (e.handler : Instr Resp) = false := by
  cases e <;> rfl

lemma Connecting.pop (h : Connecting c) {t : Nat} {e : Mail} {rest : List Mail}
    (hmail : c.mailbox t = e :: rest) :
    Connecting { c with mailbox := update c.mailbox t rest, code := update c.code t [e.handler] } := by
  have hmem : e ∈ c.mailbox t := by simp [hmail]
  refine ⟨fun hn => ⟨(h.unhandled hn).1, fun t' i hi => ?_⟩, fun t' i hi hd => ?_, fun t' i hi => ?_,
    h.inHand, fun t' ht' => h.queued t' (mem_pop hmail ht'), fun t' ht' => ?_,
    fun t' ok ht' => ?_, fun t' ht' => ?_, h.handler⟩
  · rcases mem_pop_code hi with rfl | hi
    · exact decides_handler e
    · exact (h.unhandled hn).2 t' i hi
  · rcases mem_pop_code hi with rfl | hi
    · rw [decides_handler] at hd
      cases hd
    · exact h.deciding t' i hi hd
  · by_cases ht : t' = t
    · subst ht
      simp at hi
    · exact h.alone t' i (by simpa [ht] using hi)
  · rcases mem_pop_code ht' with he | ht'
    · cases e with
      | completion tag =>
        cases he
        exact h.queued t hmem
      | internal => cases he
    · exact h.taken t' ht'
  · rcases mem_pop_code ht' with he | ht'
    · cases e <;> cases he
    · exact h.answer t' ok ht'
  · rcases mem_pop_code ht' with he | ht'
    · cases e <;> cases he
    · exact h.accepted t' ht'

lemma RunBooks.connected {x y : Rpc Req Resp} {i : Instr Resp} (h : RunBooks x i y) :
    y.connected = x.connected := by
  cases h with
  | same _ h => exact h.connected
  | start tag _ h => exact h.connected
  | handle tag _ h => rw [h]; rfl

lemma RunBooks.ok {x y : Rpc Req Resp} {i : Instr Resp} (h : RunBooks x i y) (tag : Tag) :
    (y.event tag).ok = (x.event tag).ok := by
  cases h with
  | same _ h => rw [h.event]
  | start tag' _ h =>
    rw [h.event]
    by_cases he : tag = tag'
    · subst he
      simp [Rpc.startOp, Rpc.setRpcEventState]
    · simp [Rpc.startOp, Rpc.setRpcEventState, he]
  | handle tag' _ h =>
    rw [h]
    by_cases he : tag = tag'
    · subst he
      simp [Rpc.startHandling, Rpc.setRpcEventState]
    · simp [Rpc.startHandling, Rpc.setRpcEventState, he]

/-- Without a handler only the thread of the completion queue events works on the `Rpc`. -/
lemma Early.thread_eq (he : Early c) (hp : Placed c) {t : Nat} {i : Instr Resp}
    (hi : i ∈ c.code t) : t = queueOf c.rpc := by
  rcases hp.code t with hnil | ⟨-, ht⟩ | ⟨hcode, -⟩
  · simp [hnil] at hi
  · exact ht
  · obtain ⟨j, hj, hinternal⟩ := hcode.isInternal
    have hearly := he.code t j hj
    cases j <;> simp [isInternal, isEarly] at hinternal hearly

lemma Early.same_thread (he : Early c) (hc : (partSystem Req Resp).Reachable c) {t t' : Nat}
    {i j : Instr Resp} (hi : i ∈ c.code t) (hj : j ∈ c.code t') : t' = t :=
  (he.thread_eq (reachable_placed hc) hj).trans (he.thread_eq (reachable_placed hc) hi).symm

lemma handleNewConnection_tail (shuttingDown ok : Bool) :
    ∀ i ∈ (Service.handleNewConnection shuttingDown ok : List (Instr Resp)).tail,
      decides i = false := by
  cases shuttingDown <;> cases ok <;> simp [Service.handleNewConnection, decides]

/-- `HandleNewConnection` removes, accepts only what came back well, and clones. -/
lemma mem_handleNewConnection {shuttingDown ok : Bool} {i : Instr Resp}
    (h : i ∈ Service.handleNewConnection shuttingDown ok) :
    i = .remove ∨ (i = .onConnection ∧ ok = true) ∨ i = .clone := by
  cases shuttingDown <;> cases ok <;> simp [Service.handleNewConnection] at h ⊢ <;> tauto

lemma tail_append_decides {next rest : List (Instr Resp)}
    (hnext : ∀ i ∈ next.tail, decides i = false) (hrest : ∀ i ∈ rest, decides i = false) :
    ∀ i ∈ (next ++ rest).tail, decides i = false := by
  intro i hi
  cases next with
  | nil => exact hrest i (List.mem_of_mem_tail hi)
  | cons j next =>
    rcases List.mem_append.mp hi with hi | hi
    · exact hnext i hi
    · exact hrest i hi

section Exec

variable {t : Nat} {acts : List (HandlerAction Resp)} {i : Instr Resp} {rest : List (Instr Resp)}
  {o : Outcome Req Resp}

lemma Connecting.rest_decides (h : Connecting c) (hcode : c.code t = i :: rest) :
    ∀ j ∈ rest, decides j = false := by
  intro j hj
  exact h.alone t j (by simpa [hcode] using hj)

lemma Connecting.exec_unhandled (h : Connecting c) (hcode : c.code t = i :: rest)
    (hrun : i.run c.surroundings acts c.rpc = some o)
    (hn : .newConnection ∉ o.rpc.handled.map Prod.fst) :
    o.rpc.handler = false ∧
      ∀ t', ∀ j ∈ update c.code t (o.next ++ rest) t', decides j = false := by
  rw [(run_books hrun).handled, List.mem_append, not_or] at hn
  obtain ⟨hfalse, hnone⟩ := h.unhandled hn.1
  have hi := hnone t i (by simp [hcode])
  constructor
  · rcases run_handler hrun with hsame | ⟨rfl, -⟩
    · exact hsame.trans hfalse
    · cases hi
  · intro t' j hj
    rcases mem_code_of_exec hcode hj with hj | hj
    · rcases run_decides hrun with ⟨rfl, -⟩ | ⟨ok, rfl, -⟩ | hnext
      · exact absurd (by simp [handleTag]) hn.2
      · cases hi
      · exact hnext j hj
    · exact hnone t' j hj

/-- Nothing else decides while `OnConnection` runs. -/
lemma Connecting.exec_onConnection (h : Connecting c) (hc : (partSystem Req Resp).Reachable c)
    (hcode : c.code t = .onConnection :: rest)
    (hrun : (.onConnection : Instr Resp).run c.surroundings acts c.rpc = some o) :
    ∀ t', ∀ j ∈ update c.code t (o.next ++ rest) t', decides j = false := by
  intro t' j hj
  have hmem : .onConnection ∈ c.code t := by simp [hcode]
  have he := reachable_early hc (h.deciding t _ hmem rfl)
  rcases mem_exec_code hj with ⟨-, hj⟩ | ⟨-, hj⟩ | ⟨hne, hj⟩
  · rcases run_decides hrun with ⟨hi, -⟩ | ⟨ok, hi, -⟩ | hnext
    · cases hi
    · cases hi
    · exact hnext j hj
  · exact h.rest_decides hcode j hj
  · exact absurd (he.same_thread hc hmem hj) hne

lemma Connecting.exec_deciding (h : Connecting c) (hc : (partSystem Req Resp).Reachable c)
    (hcode : c.code t = i :: rest) (hrun : i.run c.surroundings acts c.rpc = some o) {t' : Nat}
    {j : Instr Resp} (hj : j ∈ update c.code t (o.next ++ rest) t') (hd : decides j = true) :
    o.rpc.handler = false := by
  rcases run_handler hrun with hsame | ⟨rfl, -⟩
  · rw [hsame]
    have hmem : i ∈ c.code t := by simp [hcode]
    rcases mem_code_of_exec hcode hj with hj | hj
    · rcases run_decides hrun with ⟨rfl, -⟩ | ⟨ok, rfl, -⟩ | hnext
      · have hwaiting := mem_waiting_of_handle (reachable_placed hc) hmem
        exact (h.unhandled (not_handled_of_waiting hc hwaiting)).1
      · exact h.deciding t _ hmem rfl
      · exact absurd (hnext j hj) (by simp [hd])
    · exact h.deciding t' j hj hd
  · exact absurd (h.exec_onConnection hc hcode hrun t' j hj) (by simp [hd])

lemma Connecting.exec_alone (h : Connecting c) (hcode : c.code t = i :: rest)
    (hrun : i.run c.surroundings acts c.rpc = some o) {t' : Nat} {j : Instr Resp}
    (hj : j ∈ (update c.code t (o.next ++ rest) t').tail) : decides j = false := by
  by_cases ht : t' = t
  · subst ht
    rw [update_self] at hj
    refine tail_append_decides ?_ (h.rest_decides hcode) j hj
    rcases run_decides hrun with ⟨-, hnext⟩ | ⟨ok, -, hnext⟩ | hnext
    · simp [hnext]
    · rw [hnext]
      exact handleNewConnection_tail _ _
    · exact fun j hj => hnext j (List.mem_of_mem_tail hj)
  · rw [update_of_ne ht] at hj
    exact h.alone t' j hj

/-- `HandleNewConnection` is called with what `NEW_CONNECTION` came back with. -/
lemma Connecting.exec_answer (h : Connecting c) (hcode : c.code t = i :: rest)
    (hrun : i.run c.surroundings acts c.rpc = some o) {t' : Nat} {ok : Bool}
    (hj : .handleNewConnection ok ∈ update c.code t (o.next ++ rest) t') :
    c.rpc.connected = some ok := by
  rcases mem_code_of_exec hcode hj with hnext | hj
  · rcases run_decides hrun with ⟨rfl, heq⟩ | ⟨ok', -, heq⟩ | hnone
    · obtain rfl : ok = (c.rpc.event .newConnection).ok := by simpa [heq] using hnext
      exact h.taken t (by simp [hcode])
    · rw [heq] at hnext
      rcases mem_handleNewConnection hnext with hi | ⟨hi, -⟩ | hi <;> cases hi
    · cases hnone _ hnext
  · exact h.answer t' ok hj

lemma Connecting.exec_accepted (h : Connecting c) (hcode : c.code t = i :: rest)
    (hrun : i.run c.surroundings acts c.rpc = some o) {t' : Nat}
    (hj : .onConnection ∈ update c.code t (o.next ++ rest) t') : c.rpc.connected = some true := by
  rcases mem_code_of_exec hcode hj with hnext | hj
  · rcases run_decides hrun with ⟨-, heq⟩ | ⟨ok, rfl, heq⟩ | hnone
    · simp [heq] at hnext
    · rw [heq] at hnext
      rcases mem_handleNewConnection hnext with hi | ⟨-, rfl⟩ | hi
      · cases hi
      · exact h.answer t true (by simp [hcode])
      · cases hi
    · cases hnone _ hnext
  · exact h.accepted t' hj

lemma Connecting.exec (h : Connecting c) (hc : (partSystem Req Resp).Reachable c)
    (hcode : c.code t = i :: rest) (hrun : i.run c.surroundings acts c.rpc = some o) :
    Connecting
      (({ c with rpc := o.rpc, code := update c.code t (o.next ++ rest) } : Part Req Resp).apply
        o.effect) := by
  have hbooks := run_books hrun
  refine ⟨?_, ?_, ?_, ?_, ?_, ?_, ?_, ?_, ?_⟩
  all_goals simp only [Part.apply_rpc, Part.apply_code, Part.apply_inHand, hbooks.connected,
    hbooks.ok]
  · exact h.exec_unhandled hcode hrun
  · exact fun t' j hj hd => h.exec_deciding hc hcode hrun hj hd
  · exact fun t' j hj => h.exec_alone hcode hrun hj
  · exact h.inHand
  · intro t' ht'
    rcases mem_apply_mailbox ht' with ht' | ⟨-, hmail, -⟩
    · exact h.queued t' ht'
    · cases hmail
  · intro t' ht'
    rcases mem_code_of_exec hcode ht' with hnext | ht'
    · have hnil := run_next_handleTag hrun
      rw [List.filterMap_eq_nil_iff] at hnil
      cases hnil _ hnext
    · exact h.taken t' ht'
  · exact fun t' ok ht' => h.exec_answer hcode hrun ht'
  · exact fun t' ht' => h.exec_accepted hcode hrun ht'
  · intro htrue
    rcases run_handler hrun with hsame | ⟨rfl, -⟩
    · exact h.handler (hsame.symm.trans htrue)
    · exact h.accepted t (by simp [hcode])

end Exec

/-- The decision about a connection is taken once, from what `NEW_CONNECTION` came back with. -/
theorem reachable_connecting (hc : (partSystem Req Resp).Reachable c) : Connecting c := by
  apply part_invariant (P := Connecting) _ _ hc
  · rintro c ⟨methodIndex, cq, queue, info, service, parent, eventQueue, shuttingDown, rfl⟩
    refine ⟨fun _ => ⟨rfl, ?_⟩, ?_, ?_, ?_, ?_, ?_, ?_, ?_, fun htrue => ?_⟩
    all_goals first | (simp [Part.listening]; done) | cases htrue
  · intro c m c' hr ih hdoes
    cases hdoes with
    | next _ hmay => exact ih.next hr hmay
    | pushToEventQueue hhand => exact ih.push hhand
    | pop _ hmail => exact ih.pop hmail
    | exec hcode hrun => exact ih.exec hr hcode hrun
    | callWriter hwriter => exact { ih with }
    | stepWriter hw hstep =>
      have hbooks := writerStep_books hstep
      refine ⟨?_, ?_, ?_, ?_, fun t ht => ?_, ?_, ?_, ?_, ?_⟩
      all_goals simp only [Part.apply_rpc, Part.apply_code, Part.apply_inHand, hbooks.handled,
        hbooks.connected, hbooks.event, writerStep_handler hstep]
      · exact ih.unhandled
      · exact ih.deciding
      · exact ih.alone
      · exact ih.inHand
      · rcases mem_apply_mailbox ht with ht | ⟨-, hmail, -⟩
        · exact ih.queued t ht
        · cases hmail
      · exact ih.taken
      · exact ih.answer
      · exact ih.accepted
      · exact ih.handler
    | stopServing => exact { ih with }

/-- gRPC says how the request for a connection came back when it returns `NEW_CONNECTION`. -/
lemma reachable_connected (hc : (partSystem Req Resp).Reachable c) :
    .newConnection ∈ c.rpc.returned.map Prod.fst ↔ c.rpc.connected ≠ none := by
  apply part_invariant
    (P := fun c => .newConnection ∈ c.rpc.returned.map Prod.fst ↔ c.rpc.connected ≠ none) _ _ hc
  · rintro c ⟨methodIndex, cq, queue, info, service, parent, eventQueue, shuttingDown, rfl⟩
    exact ⟨fun h => absurd h List.not_mem_nil, fun h => absurd rfl h⟩
  · intro c m c' _ ih h
    cases h with
    | @next tag ok request _ _ =>
      by_cases htag : tag = .newConnection
      · simp [Rpc.returnTag, htag]
      · simpa [Rpc.returnTag, htag, Ne.symm htag] using ih
    | exec _ hrun =>
      rw [Part.apply_rpc, (run_books hrun).returned, (run_books hrun).connected]
      exact ih
    | stepWriter _ hstep =>
      rw [Part.apply_rpc, (writerStep_books hstep).returned, (writerStep_books hstep).connected]
      exact ih
    | pushToEventQueue _ | pop _ _ | callWriter _ | stopServing => exact ih

lemma mem_returned_of_handled (hc : (partSystem Req Resp).Reachable c) {tag : Tag}
    (h : tag ∈ c.rpc.handled.map Prod.fst) : tag ∈ c.rpc.returned.map Prod.fst := by
  rw [← reachable_ordered hc]
  exact List.mem_append_left _ h

/-- gRPC holds a registered tag until it returns it. -/
lemma inFlight_eq_zero_of_returned (hc : (partSystem Req Resp).Reachable c) {tag : Tag}
    (htag : isRegistered tag = true) (h : tag ∈ c.rpc.returned.map Prod.fst) :
    c.rpc.inFlight tag = 0 := by
  have hcount := registered_once hc tag htag
  have hone := List.count_pos_iff.mpr h
  rw [timesReturned] at hcount
  omega

end Connecting

end AsyncGrpc.Proofs
