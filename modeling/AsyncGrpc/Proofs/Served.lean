import AsyncGrpc.Proofs.Requests
import AsyncGrpc.Proofs.SendQueue

/-!
# Calls served from callbacks

A handler is a machine driven by its callbacks. Here it sends from its callbacks only, and the
client does not cancel the call. Then the items in the send queue are those the machine puts out
over the callbacks that were made, in their order, and the `Rpc` stays in `ActiveRpcs` until a
`Finish` has been started.
-/

namespace AsyncGrpc.Proofs

open Function Transition
open scoped List

variable {σ Req Resp : Type} {options : Options} {maps : List (List (String × RpcHandlerInfo))}

/-- The items a handler enqueues when its callbacks are made one after another. -/
def replies (M : Machine σ (Callback Req) (HandlerAction Resp)) (callbacks : List (Callback Req)) :
    List (SendItem Resp) :=
  (M.outputs callbacks).filterMap HandlerAction.item

lemma replies_concat (M : Machine σ (Callback Req) (HandlerAction Resp))
    (callbacks : List (Callback Req)) (cb : Callback Req) :
    replies M (callbacks ++ [cb]) =
      replies M callbacks ++ (M.out (M.after callbacks) cb).filterMap HandlerAction.item := by
  unfold replies
  rw [M.outputs_concat, List.filterMap_append]

lemma replies_mono (M : Machine σ (Callback Req) (HandlerAction Resp))
    {callbacks callbacks' : List (Callback Req)} (h : callbacks <+: callbacks') :
    replies M callbacks <+: replies M callbacks' :=
  (M.outputs_mono h).filterMap _

/-- The steps of a run in which the `Rpc` numbered `r` is served by the handler `M`, which sends
from its callbacks only, and its client does not cancel the call: `DONE` comes after `FINISH`. -/
structure ServedBy (M : Machine σ (Callback Req) (HandlerAction Resp)) (r : Nat)
    (s : Server Req Resp) (l : Label Req Resp) : Prop where
  handler : ∀ t acts kind rest, l = .exec t acts → s.tasks t = ⟨r, .callback kind :: rest⟩ →
    acts = M.out (M.after (s.rpcs r).callbacks) ((s.rpcs r).callback kind)
  writer : ∀ method, l ≠ .callWriter r method
  done : ∀ cq ok request, l = .next cq r .done ok request →
    ∃ ok', (.finish, ok') ∈ (s.rpcs r).returned

/-- The same conditions on a step of a call. -/
structure CallServedBy (M : Machine σ (Callback Req) (HandlerAction Resp)) (c : Call Req Resp)
    (l : CallLabel Req Resp) : Prop where
  handler : ∀ acts kind rest, l = .exec acts → c.code = .callback kind :: rest →
    acts = M.out (M.after c.rpc.callbacks) (c.rpc.callback kind)
  writer : ∀ method, l ≠ .callWriter method
  done : ∀ ok request, l = .next .done ok request → ∃ ok', (.finish, ok') ∈ c.rpc.returned

/-- A `Finish` operation of the call has been started. -/
def Finished (c : Call Req Resp) : Prop :=
  ∃ op ∈ c.rpc.sends, op.isFinish = true

/-- The phases in which a connection is being accepted. -/
def Phase.accepting : Phase Resp → Bool
  | .handleNewConnection _ | .onConnection _ => true
  | _ => false

/-- What is known of a call whose handler sends from its callbacks only. -/
structure ServedCall (M : Machine σ (Callback Req) (HandlerAction Resp)) (c : Call Req Resp)
    (acts : List (Instr Resp)) (p : Phase Resp) : Prop where
  sends : Sends c acts p
  alone : c.writers = []
  done : c.rpc.inFlight .done = 0 → Finished c
  active : c.rpc.handler = true ∨ c.rpc.isRpcEventPending .newConnection = true ∨
    p.accepting = true → c.active = true ∨ Finished c
  passed : c.rpc.passed = replies M c.rpc.callbacks

/-! ### Turns of a call that is served -/

section Turns

variable {M : Machine σ (Callback Req) (HandlerAction Resp)} {c c' : Call Req Resp}
  {acts acts' : List (Instr Resp)} {p p' : Phase Resp} {l : CallLabel Req Resp}

lemma turn_finished (ht : Turn c acts p l c' acts' p') (h : Finished c) : Finished c' := by
  obtain ⟨op, hop, hf⟩ := h
  cases ht with
  | performFinish _ | performWrite _ _ => exact ⟨op, List.mem_append_left _ hop, hf⟩
  | _ => exact ⟨op, hop, hf⟩

/-- `FINISH` only comes back for a `Finish` that was started. -/
lemma Sends.finished_of_returned (h : Sends c acts p) {ok : Bool}
    (hmem : (.finish, ok) ∈ c.rpc.returned) : Finished c := by
  rw [← h.lives.results, List.mem_append] at hmem
  rcases hmem with hmem | hmem
  · have hpos : 0 < c.rpc.handled.countP (fun h => h.1 = .finish) :=
      List.countP_pos_iff.mpr ⟨_, hmem, by simp⟩
    have hcount := h.finishes
    exact List.countP_pos_iff.mp (by omega)
  · have htransit : .finish ∈ transit c p := results_map_fst c p ▸ List.mem_map_of_mem hmem
    exact h.exists_finish (h.lives.accounts.pending_of_mem htransit)

lemma Sends.finished_of_handled (h : Sends c acts p) {ok : Bool}
    (hmem : (.finish, ok) ∈ c.rpc.handled) : Finished c :=
  h.finished_of_returned (h.lives.results ▸ List.mem_append_left _ hmem)

lemma Sends.finished_of_onFinish {e : Ending} (h : Sends c acts (.onFinish e)) : Finished c := by
  obtain ⟨-, ok, hmem⟩ := h.lives.fits
  exact h.finished_of_handled hmem

/-- In a callback the handler does what the machine puts out. -/
lemma CallServedBy.acts_eq {as : List (HandlerAction Resp)} {kind : CallbackKind}
    (hg : CallServedBy M c (.exec as)) (hat : At c [] p) (hc : p.callback = some (kind, p')) :
    as = M.out (M.after c.rpc.callbacks) (c.rpc.callback kind) := by
  have hcode : c.code = .callback kind :: p'.code := by
    rw [hat.code]
    cases p <;> cases hc <;> rfl
  exact hg.handler as kind _ rfl hcode

lemma ServedCall.turn_done (h : ServedCall M c acts p) (hg : CallServedBy M c l)
    (ht : Turn c acts p l c' acts' p') (hzero : c'.rpc.inFlight .done = 0) : Finished c' := by
  apply turn_finished ht
  by_cases hreturn : ∃ ok request, l = .next .done ok request
  · obtain ⟨ok, request, rfl⟩ := hreturn
    obtain ⟨ok', hmem⟩ := hg.done ok request rfl
    exact h.sends.finished_of_returned hmem
  · apply h.done
    cases ht with
    | @next _ _ tag ok request _ _ =>
      have hne : Tag.done ≠ tag := by
        rintro rfl
        exact hreturn ⟨ok, request, rfl⟩
      simpa [Rpc.returnTag, hne] using hzero
    | startRead _ | performFinish _ | performWrite _ _ => simpa [Rpc.startOp] using hzero
    | _ => exact hzero

/-- A connection is only accepted for the `Rpc` that was waiting for it. -/
lemma turn_accepting (h : Accounts c acts p) (ht : Turn c acts p l c' acts' p')
    (hp' : p'.accepting = true) :
    c.rpc.isRpcEventPending .newConnection = true ∨ p.accepting = true := by
  rcases turn_phase ht with rfl | ⟨rfl, rfl | ⟨as, rfl⟩⟩
  · exact .inr hp'
  · cases ht <;> cases hp'
  · cases ht with
    | @handle tag _ =>
      cases tag with
      | newConnection => exact .inl h.pending_of_handle
      | read => cases hok : (c.rpc.event .read).ok <;> simp [hok, Phase.ofEvent, Phase.accepting] at hp'
      | write | finish | done => cases hp'
    | accept _ => exact .inr rfl
    | callback hc _ => cases p <;> cases hc <;> cases hp'
    | @keep shared _ _ | @erase shared _ _ => cases shared <;> cases hp'
    | _ => cases hp'

/-- An `Rpc` that waits for its connection, or has a handler, is only erased once it has been
finished. -/
lemma ServedCall.turn_active (h : ServedCall M c acts p) (ht : Turn c acts p l c' acts' p')
    (hc : c'.rpc.handler = true ∨ c'.rpc.isRpcEventPending .newConnection = true ∨
      p'.accepting = true) : c'.active = true ∨ Finished c' := by
  have haccounts := h.sends.lives.accounts
  have hbefore : c.rpc.handler = true ∨ c.rpc.isRpcEventPending .newConnection = true ∨
      p.accepting = true := by
    rcases hc with hhandler | hnew | haccept
    · cases ht with
      | connect _ => exact .inr (.inr rfl)
      | _ => exact .inl hhandler
    · have hstarts : p.starts ≠ some .newConnection := by cases p <;> simp [Phase.starts]
      exact .inr (.inl (((turn_books ht).pending_of hnew).resolve_right hstarts))
    · exact .inr (turn_accepting haccounts ht haccept)
  rcases h.active hbefore with hactive | hfinished
  · cases ht with
    | remove =>
      have hfits := h.sends.lives.fits
      rcases hbefore with hhandler | hnew | haccept
      · exact absurd (hfits.1.symm.trans hhandler) (by simp)
      · rcases (haccounts.waiting hnew).2 with hp | ⟨hp, -⟩ <;> cases hp
      · cases haccept
    | erase hpending =>
      have hdone := h.sends.lives.erase hpending .done
      have hout := haccounts.outstanding .done
      rw [hdone, Bool.toNat_false] at hout
      exact .inr (h.done (by omega))
    | _ => exact .inl hactive
  · exact .inr (turn_finished ht hfinished)

lemma ServedCall.turn_passed (h : ServedCall M c acts p) (hat : At c acts p) (hg : CallServedBy M c l)
    (ht : Turn c acts p l c' acts' p') : c'.rpc.passed = replies M c'.rpc.callbacks := by
  have hpassed := h.passed
  cases ht with
  | callback hc _ => rw [replies_concat, ← hg.acts_eq hat hc, ← hpassed]
  | _ => exact hpassed

theorem turn_served (h : ServedCall M c acts p) (hat : At c acts p) (hg : CallServedBy M c l)
    (ht : Turn c acts p l c' acts' p') : ServedCall M c' acts' p' where
  sends := turn_sends h.sends hat ht
  alone := turn_writers h.alone hg.writer ht
  done := h.turn_done hg ht
  active := h.turn_active ht
  passed := h.turn_passed hat hg ht

lemma listening_served (h : (callSystem Req Resp).init c) : ServedCall M c [] .idle := by
  refine ⟨listening_sends h, ?_, ?_, ?_, ?_⟩ <;>
    obtain ⟨methodIndex, cq, queue, info, service, parent, shuttingDown, rfl⟩ := h
  · rfl
  · intro hzero
    cases hzero
  · exact fun _ => .inl rfl
  · rfl

/-! ### What is sent -/

/-- The queue has accepted what the machine puts out over the callbacks, up to the sends that the
last one has still to make. -/
lemma ServedCall.produced (h : ServedCall M c acts p) :
    c.rpc.enqueued ++ unsent acts = replies M c.rpc.callbacks := by
  obtain ⟨handed, hc⟩ := h.sends.conserved
  have hlen := hc.accounted.length_eq
  rw [h.alone, show acceptedItems ([] : List (WriterCall Resp)) = [] from rfl,
    List.append_nil] at hlen
  rw [← hc.ordered.eq_of_length hlen.symm, ← hc.passed, h.passed]

/-- What was started is the first part of what the handler sent. -/
lemma ServedCall.sends_initial (h : ServedCall M c acts p) :
    c.rpc.sends <+: (replies M c.rpc.callbacks).map (sendOp c.rpc.rpcType) := by
  have hsends : c.rpc.sends <+: c.rpc.enqueued.map (sendOp c.rpc.rpcType) := ⟨_, h.sends.order⟩
  have henqueued : c.rpc.enqueued <+: replies M c.rpc.callbacks := ⟨_, h.produced⟩
  exact hsends.trans (henqueued.map _)

/-- Whatever was started was sent by the handler. -/
lemma ServedCall.exists_item (h : ServedCall M c acts p) {op : SendOp Resp} (hop : op ∈ c.rpc.sends) :
    ∃ item ∈ replies M c.rpc.callbacks, sendOp c.rpc.rpcType item = op :=
  List.mem_map.mp (h.sends_initial.subset hop)

lemma ServedCall.replies_ne_nil (h : ServedCall M c acts p) {op : SendOp Resp}
    (hop : op ∈ c.rpc.sends) : replies M c.rpc.callbacks ≠ [] := by
  obtain ⟨item, hitem, -⟩ := h.exists_item hop
  exact List.ne_nil_of_mem hitem

/-- An idle call that nothing will wake has an empty send queue or has been finished. -/
lemma ServedCall.queue_of_idle (h : ServedCall M c [] .idle) (hhandler : c.rpc.handler = true)
    (hwrite : c.rpc.isRpcEventPending .write = false) (hmail : .internal ∉ c.mailbox) :
    c.rpc.sendQueue = [] ∨ Finished c := by
  by_contra hcon
  obtain ⟨hqueue, hopen⟩ := not_or.mp hcon
  have hactive := (h.active (.inl hhandler)).resolve_right hopen
  rcases h.sends.wake hactive hqueue with hw | hf | hm | ⟨w, hw, -⟩ | hacts | hphase
  · exact absurd (hwrite.symm.trans hw) (by simp)
  · exact hopen hf
  · exact hmail hm
  · rw [h.alone] at hw
    cases hw
  · cases hacts
  · cases hphase

/-- With an empty send queue everything the handler sent has been started. -/
lemma ServedCall.sends_of_queue (h : ServedCall M c [] .idle) (hqueue : c.rpc.sendQueue = []) :
    c.rpc.sends = (replies M c.rpc.callbacks).map (sendOp c.rpc.rpcType) := by
  rw [h.sends.sends_of_queue hqueue, ← h.produced]
  simp [unsent]

end Turns

lemma Informs.handler_of_callback {c : Call Req Resp} {acts : List (Instr Resp)} {p : Phase Resp}
    (h : Informs c acts p) {cb : Callback Req} (hmem : cb ∈ c.rpc.callbacks) :
    c.rpc.handler = true := by
  by_contra hfalse
  rw [(h.fresh (by simpa using hfalse)).1] at hmem
  cases hmem

/-! ### Served `Rpc`s of a server -/

lemma ServedBy.project {M : Machine σ (Callback Req) (HandlerAction Resp)} {s s' : Server Req Resp}
    {l : Label Req Resp} {r : Nat} {m : CallLabel Req Resp}
    (hs : (serverSystem Req Resp options maps).Reachable s) (hl : ServedBy M r s l)
    (hstep : s.step l = some s') (hR : (s.rpcs r).Routed) (hproj : l.project s r = some m) :
    CallServedBy M (s.call r) m := by
  constructor
  · rintro acts kind rest rfl hcode
    obtain ⟨t, rfl, htask⟩ := project_exec (reachable_housed hs) hR hstep hproj
    rw [hcode] at htask
    exact hl.handler t acts kind rest rfl htask
  · rintro method rfl
    exact hl.writer method (project_callWriter hproj)
  · rintro ok request rfl
    obtain ⟨cq, rfl⟩ := project_next hproj
    exact hl.done cq ok request rfl

/-- With one event thread, a guard on the steps of a server that says something about the `Rpc`
numbered `r` guards the run of its call. -/
lemma reach_callOf (hn : options.numEventThreads = 1) {G : Server Req Resp → Label Req Resp → Prop}
    {F : Call Req Resp → CallLabel Req Resp → Prop} {r : Nat}
    (hF : ∀ s l s' m, (serverSystem Req Resp options maps).Reachable s → G s l →
      s.step l = some s' → (s.rpcs r).Routed → l.project s r = some m → F (s.call r) m)
    {s : Server Req Resp} (hs : (serverSystem Req Resp options maps).Reach G s)
    (hr : r < s.nextRpc) : (callSystem Req Resp).Reach F (s.call r) := by
  have hcall : (callSystem Req Resp).Reach (fun c m => r = r → F c m) (s.call r) := by
    apply reach_call (F := fun r' c m => r' = r → F c m) _ hs hr
      (routed_of_one_thread hn hs.reachable hr).1
    rintro s l s' r m hs hl hstep hr hR hproj rfl
    exact hF s l s' m hs.reachable hl hstep hR hproj
  exact hcall.mono (fun _ _ h => h rfl)

lemma reach_callServedBy (hn : options.numEventThreads = 1)
    {M : Machine σ (Callback Req) (HandlerAction Resp)} {s : Server Req Resp} {r : Nat}
    (hs : (serverSystem Req Resp options maps).Reach (ServedBy M r) s) (hr : r < s.nextRpc) :
    (callSystem Req Resp).Reach (CallServedBy M) (s.call r) :=
  reach_callOf hn (fun _ _ _ _ hs hl hstep hR hproj => hl.project hs hstep hR hproj) hs hr

/-- The test for `ServedBy`. -/
def servedBy [DecidableEq Resp] (M : Machine σ (Callback Req) (HandlerAction Resp)) (r : Nat)
    (s : Server Req Resp) : Label Req Resp → Bool
  | .exec t acts =>
    match (s.tasks t).code with
    | .callback kind :: _ => (s.tasks t).rpc ≠ r ||
        acts = M.out (M.after (s.rpcs r).callbacks) ((s.rpcs r).callback kind)
    | _ => true
  | .callWriter r' _ => r' ≠ r
  | .next _ r' .done _ _ => r' ≠ r || (s.rpcs r).returned.any (fun h => h.1 = .finish)
  | _ => true

lemma servedBy_sound [DecidableEq Resp] (M : Machine σ (Callback Req) (HandlerAction Resp))
    (r : Nat) (s : Server Req Resp) (l : Label Req Resp) (h : servedBy M r s l = true) :
    ServedBy M r s l := by
  constructor
  · rintro t acts kind rest rfl htask
    simpa [servedBy, htask] using h
  · rintro method rfl
    simp [servedBy] at h
  · rintro cq ok request rfl
    simp only [servedBy, ne_eq, not_true_eq_false, decide_false, Bool.false_or, List.any_eq_true,
      decide_eq_true_eq] at h
    obtain ⟨⟨tag, ok'⟩, hmem, rfl⟩ := h
    exact ⟨ok', hmem⟩

end AsyncGrpc.Proofs
