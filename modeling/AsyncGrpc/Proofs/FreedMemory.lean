import AsyncGrpc.Proofs.Faults
import AsyncGrpc.Proofs.Refusal

/-!
# Uses of an `Rpc` after its destruction

The events and the event threads know an `Rpc` by a plain pointer, and `ActiveRpcs::Remove` may
drop the last `shared_ptr` to it. For an `Rpc` whose events all go through one queue, this module
finds every step that can still touch the destroyed object: the `Clone` after a connection that
failed, and the way of the `DONE` event of a connection refused while shutting down.
-/

namespace AsyncGrpc.Proofs

open Function Transition

variable {Req Resp : Type} {options : Options} {maps : List (List (String × RpcHandlerInfo))}

/-- The `Rpc` whose object a step reads or writes. The handling of a `WRITE_NEEDED` event and
`Writer` calls start with `weak_ptr::lock`, which does not touch it; gRPC writes to it when it
stores a request. -/
def usedBy (s : Server Req Resp) : Label Req Resp → Option Nat
  | .next _ r _ _ request => if request.isSome then some r else none
  | .pushToEventQueue cq => (s.inHand cq).map Prod.fst
  | .exec t _ =>
    match (s.tasks t).code with
    | [] | .handleInternal :: _ => none
    | _ :: _ => some (s.tasks t).rpc
  | .stepWriter r i =>
    match (s.writers r)[i]? with
    | none | some ⟨_, .calling⟩ => none
    | some _ => some r
  | .pop _ | .callWriter _ _ | .stopServing _ => none

/-- The service is shutting down, and the connection was not accepted. -/
def TurnedAway (c : Call Req Resp) : Prop :=
  c.shuttingDown = true ∧ c.rpc.handler = false

/-- What an event thread may be doing with an erased `Rpc`. -/
def Phase.Fades (c : Call Req Resp) : Phase Resp → Prop
  | .ending .none | .handleInternal | .releaseShared => True
  | .ending .clone => c.rpc.connected = some false
  | .handle .done | .ending (.close false) => TurnedAway c ∧ c.rpc.connected = some true
  | _ => False

/-- An erased call waits for nothing but `DONE`, which only comes for a connection that was
turned away. -/
structure Freed (c : Call Req Resp) (acts : List (Instr Resp)) (p : Phase Resp) : Prop where
  acts : acts = []
  fades : p.Fades c
  pending : ∀ tag, c.rpc.isRpcEventPending tag = true →
    tag = .done ∧ (c.rpc.connected = some false ∨ TurnedAway c)

/-- The two ways `HandleNewConnection` removes an `Rpc`. -/
def Removes (c : Call Req Resp) (p : Phase Resp) : Prop :=
  ∀ e, p = .remove e → e = .clone ∧ (.newConnection, false) ∈ c.rpc.handled ∨
    e = .none ∧ c.shuttingDown = true

structure Frees (c : Call Req Resp) (acts : List (Instr Resp)) (p : Phase Resp) : Prop where
  lives : Lives c acts p
  removes : Removes c p
  freed : c.active = false → Freed c acts p

section Turns

variable {c c' : Call Req Resp} {acts acts' : List (Instr Resp)} {p p' : Phase Resp}
  {l : CallLabel Req Resp}

lemma ofEvent_ne_remove (tag : Tag) (ok : Bool) (e : Ending) :
    (Phase.ofEvent tag ok : Phase Resp) ≠ .remove e := by
  cases tag <;> cases ok <;> simp [Phase.ofEvent]

lemma turn_removes (h : Lives c acts p) (hr : Removes c p) (ht : Turn c acts p l c' acts' p') :
    Removes c' p' := by
  intro e he
  cases ht with
  | refuse hshut =>
    cases he
    exact .inr ⟨rfl, hshut⟩
  | fail _ =>
    cases he
    exact .inl ⟨rfl, h.fits.2⟩
  | stopServing => exact (hr e he).imp_right (fun hnone => ⟨hnone.1, rfl⟩)
  | next _ _ | pushToEventQueue _ | callWriter _ | writerLock _ _ | writerExpired _ _
  | writerEnqueue _ | writerLookUp _ _ | writerPush _ | writerReturn _
  | enqueueMessage | getWeakPtr _ | pushWriteNeeded | getWriter _ => exact hr e he
  | handle => exact absurd he (ofEvent_ne_remove _ _ _)
  | callback hc _ => cases p <;> cases hc <;> cases he
  | keep _ | erase _ =>
    rename_i shared as _
    cases shared <;> cases he
  | _ => cases he

/-- A step that keeps the connection's fate keeps what is known of the thread. -/
lemma Phase.Fades.mono (h : p.Fades c) (hconn : c'.rpc.connected = c.rpc.connected)
    (hhandler : c'.rpc.handler = c.rpc.handler)
    (hshut : c.shuttingDown = true → c'.shuttingDown = true) : p.Fades c' := by
  unfold Phase.Fades TurnedAway at *
  split at h <;> simp_all

lemma Freed.mono (h : Freed c acts p) (hconn : c'.rpc.connected = c.rpc.connected)
    (hhandler : c'.rpc.handler = c.rpc.handler)
    (hshut : c.shuttingDown = true → c'.shuttingDown = true)
    (hpending : ∀ tag, c'.rpc.isRpcEventPending tag = true → c.rpc.isRpcEventPending tag = true)
    (hfades : p'.Fades c) : Freed c' [] p' where
  acts := rfl
  fades := hfades.mono hconn hhandler hshut
  pending := by
    intro tag htag
    obtain ⟨hdone, hfate⟩ := h.pending tag (hpending tag htag)
    refine ⟨hdone, ?_⟩
    rw [hconn, TurnedAway, hhandler]
    exact hfate.imp_right (fun haway => ⟨hshut haway.1, haway.2⟩)

/-- A tag of an erased call that is on its way is the `DONE` of a connection turned away. -/
lemma Freed.of_transit (h : Freed c acts p) (ha : Accounts c acts p) {tag : Tag}
    (hmem : tag ∈ transit c p) :
    tag = .done ∧ TurnedAway c ∧ c.rpc.connected = some true := by
  obtain ⟨rfl, hfate⟩ := h.pending tag (ha.pending_of_mem hmem)
  have hconn := ha.done hmem
  refine ⟨rfl, hfate.resolve_left ?_, hconn⟩
  rw [hconn]
  simp

/-- The turns of an erased call. -/
lemma Freed.turn (h : Freed c acts p) (ha : Accounts c acts p) (hat : At c acts p)
    (hstale : CallStaleExpired c l) (hactive : c.active = false) (ht : Turn c acts p l c' acts' p') :
    Freed c' acts' p' := by
  have hacts := h.acts
  have hfades := h.fades
  cases ht with
  | @next _ _ tag ok request _ hmay =>
    obtain ⟨rfl, -⟩ := h.pending tag (ha.pending_of_held (mayReturn_iff.mp hmay).1)
    subst hacts
    exact h.mono rfl rfl id (fun _ htag => htag) hfades
  | @pushToEventQueue _ _ tag ok hhand =>
    subst hacts
    exact h.mono rfl rfl id (fun tag htag => by rwa [setOk_pending] at htag) hfades
  | @pop e rest hmail =>
    have htransit : e ∈ transit c .idle := by simp [transit, hmail]
    obtain ⟨rfl, haway, hconn⟩ := h.of_transit ha htransit
    exact h.mono rfl rfl id (fun _ htag => htag) ⟨haway, hconn⟩
  | callWriter _ | writerLock _ _ | writerExpired _ _ | writerEnqueue _ | writerLookUp _ _
  | writerPush _ | writerReturn _ =>
    subst hacts
    exact h.mono rfl rfl id (fun _ htag => htag) hfades
  | stopServing =>
    subst hacts
    exact h.mono rfl rfl (fun _ => rfl) (fun _ htag => htag) hfades
  | enqueueMessage | getWeakPtr _ | pushWriteNeeded | getWriter _ => cases hacts
  | @handle tag as =>
    cases tag with
    | done =>
      refine h.mono rfl rfl id (fun tag htag => ?_) hfades
      rw [startHandling_pending, Bool.and_eq_true] at htag
      exact htag.2
    | _ => exact hfades.elim
  | handleInternal halive =>
    exact absurd ((hstale _ _ rfl hat.code hactive).symm.trans halive) (by simp)
  | callback hp _ => cases p <;> first | exact hfades.elim | cases hp
  | keep _ | erase _ =>
    rename_i shared as _
    cases shared with
    | true => exact hfades.elim
    | false => exact h.mono rfl rfl id (fun _ htag => htag) trivial
  | popInternal _ | stale _ | clone | releaseShared =>
    exact h.mono rfl rfl id (fun _ htag => htag) trivial
  | _ => exact hfades.elim

/-- The turn that erases a call leaves it as an erased call should be. -/
lemma Frees.erased (h : Frees c acts p) (hactive : c.active = true) (hactive' : c'.active = false)
    (ht : Turn c acts p l c' acts' p') : Freed c' acts' p' := by
  cases ht with
  | @remove e as =>
    have hpending := h.lives.retired_of_remove.2.2
    rcases h.removes e rfl with ⟨rfl, hmem⟩ | ⟨rfl, hshut⟩
    · have hconn := h.lives.connected_of_handled hmem
      exact ⟨rfl, hconn, fun tag htag => ⟨hpending tag htag, .inl hconn⟩⟩
    · exact ⟨rfl, trivial, fun tag htag => ⟨hpending tag htag, .inr ⟨hshut, h.lives.fits.1⟩⟩⟩
  | @erase shared as hpending =>
    refine ⟨rfl, by cases shared <;> trivial, fun tag htag => ?_⟩
    exact absurd ((h.lives.erase hpending tag).symm.trans htag) (by simp)
  | _ => exact absurd (hactive.symm.trans hactive') (by simp)

theorem turn_frees (h : Frees c acts p) (hat : At c acts p) (hstale : CallStaleExpired c l)
    (ht : Turn c acts p l c' acts' p') : Frees c' acts' p' where
  lives := turn_lives h.lives ht
  removes := turn_removes h.lives h.removes ht
  freed := by
    intro hactive'
    cases hactive : c.active with
    | true => exact h.erased hactive hactive' ht
    | false => exact (h.freed hactive).turn h.lives.accounts hat hstale hactive ht

lemma listening_frees (h : (callSystem Req Resp).init c) : Frees c [] .idle := by
  refine ⟨listening_lives h, fun e he => (by cases he), ?_⟩
  obtain ⟨methodIndex, cq, queue, info, service, parent, shuttingDown, rfl⟩ := h
  intro hactive
  cases hactive

/-- The instructions that may still run on a call that nothing owns. -/
lemma Freed.code (h : Freed c acts p) (hat : At c acts p) (hdead : c.alive = false)
    {i : Instr Resp} {rest : List (Instr Resp)} (hcode : c.code = i :: rest) :
    i = .handleInternal ∨ i = .clone ∧ rest = [] ∧ c.rpc.connected = some false ∨
      (i = .handle .done ∨ i = .removeIfNotPending) ∧ rest = [] ∧ TurnedAway c ∧
        c.rpc.connected = some true := by
  have hacts := h.acts
  have hfades := h.fades
  subst hacts
  have hp : p.code = i :: rest := hat.code.symm.trans hcode
  cases p with
  | handle tag =>
    cases tag with
    | done =>
      cases hp
      exact .inr (.inr ⟨.inl rfl, rfl, hfades⟩)
    | _ => exact hfades.elim
  | handleInternal =>
    cases hp
    exact .inl rfl
  | releaseShared =>
    cases hp
    simp [Call.alive, hcode, Instr.isReleaseShared] at hdead
  | ending e =>
    rcases e with _ | _ | (_ | _)
    · cases hp
    · cases hp
      exact .inr (.inl ⟨rfl, rfl, hfades⟩)
    · cases hp
      exact .inr (.inr ⟨.inr rfl, rfl, hfades⟩)
    · exact hfades.elim
  | _ => exact hfades.elim

end Turns

/-! ### The server -/

lemma reach_frees {s : Server Req Resp}
    (hs : (serverSystem Req Resp options maps).Reach StaleExpired s) {r : Nat} (hr : r < s.nextRpc)
    (hR : (s.rpcs r).Routed) : ∃ acts p, At (s.call r) acts p ∧ Frees (s.call r) acts p := by
  apply reach_staged _ _ (reach_call (F := fun _ => CallStaleExpired)
    (fun _ _ _ _ _ hs hl hstep _ hR hproj => hl.project hs.reachable hstep hR hproj) hs hr hR)
  · exact fun c => listening_frees
  · exact fun c acts p l c' acts' p' hat h hstale ht => turn_frees h hat hstale ht

/-- The step is one of those that take the `DONE` event of the `Rpc` from the completion queue
thread to the end of its handling. -/
def HandlesDone (s : Server Req Resp) (r : Nat) (l : Label Req Resp) : Prop :=
  (∃ cq ok, l = .pushToEventQueue cq ∧ s.inHand cq = some (r, .done, ok)) ∨
    ∃ t acts, l = .exec t acts ∧
      (s.tasks t = ⟨r, [.handle .done]⟩ ∨ s.tasks t = ⟨r, [.removeIfNotPending]⟩)

/-- For any number of event threads, any handlers and any time of `StopServing`: of an `Rpc` whose
events all go to its own queue, the destroyed object is only ever touched by the `Clone` after
its connection failed, and by the `DONE` event of a connection that gRPC made and that was
refused while shutting down. -/
theorem use_after_free_cases {s s' : Server Req Resp} {l : Label Req Resp} {r : Nat}
    (hs : (serverSystem Req Resp options maps).Reach StaleExpired s) (hstep : s.step l = some s')
    (huse : usedBy s l = some r) (hR : (s.rpcs r).Routed) (hdead : s.alive r = false) :
    (∃ t acts, l = .exec t acts ∧ s.tasks t = ⟨r, [.clone]⟩ ∧
      (s.rpcs r).connected = some false) ∨
    ((s.services (s.rpcs r).service).shuttingDown = true ∧ (s.rpcs r).handler = false ∧
      (s.rpcs r).connected = some true ∧ HandlesDone s r l) := by
  have hh := reachable_housed hs.reachable
  have hactive : s.active r = false := by
    simp only [Server.alive, Bool.or_eq_false_iff] at hdead
    exact hdead.1.1
  have hfreed : r < s.nextRpc → ∃ acts p, At (s.call r) acts p ∧ Lives (s.call r) acts p ∧
      Freed (s.call r) acts p := by
    intro hr
    obtain ⟨acts, p, hat, h⟩ := reach_frees hs hr hR
    exact ⟨acts, p, hat, h.lives, h.freed hactive⟩
  cases (step_moves hstep).2 with
  | @next cq r' tag ok request hcq hhand hr hplace hmay =>
    -- gRPC stores a request only with `NEW_CONNECTION` or `READ`.
    simp only [usedBy, Option.ite_none_right_eq_some, Option.some.injEq] at huse
    obtain ⟨hrequest, rfl⟩ := huse
    obtain ⟨acts, p, -, hl, hf⟩ := hfreed hr
    obtain ⟨hheld, -, hdelivers⟩ := mayReturn_iff.mp hmay
    obtain ⟨rfl, -⟩ := hf.pending tag (hl.accounts.pending_of_held hheld)
    rw [hrequest] at hdelivers
    simp [Rpc.delivers] at hdelivers
  | @pushToEventQueue cq r' tag ok hhand =>
    simp only [usedBy, hhand, Option.map_some, Option.some.injEq] at huse
    subst huse
    obtain ⟨hr, hcq⟩ := hh.inHand cq r' tag ok hhand
    obtain ⟨acts, p, -, hl, hf⟩ := hfreed hr
    have hmem : tag ∈ transit (s.call r') p := by simp [transit, Server.call, hcq, hhand]
    obtain ⟨rfl, haway, hconn⟩ := hf.of_transit hl.accounts hmem
    exact .inr ⟨haway.1, haway.2, hconn, .inl ⟨cq, ok, rfl, hhand⟩⟩
  | @exec t acts r' i rest o htask hrun | @execFault t acts r' i rest htask hrun =>
    obtain ⟨hne, rfl⟩ : i ≠ .handleInternal ∧ r' = r := by
      cases i <;> simp_all [usedBy]
    have hne' : (s.tasks t).code ≠ [] := by simp [htask]
    have hr := (hh.tasks t hne').1
    rw [htask] at hr
    have ht := hh.task_eq hne' (by rw [htask]; exact hR)
    rw [htask] at ht
    have hcode : (s.call r').code = i :: rest := by simp [Server.call, ← ht, htask]
    have hdead' : (s.call r').alive = false :=
      (congrArg Surroundings.alive (call_surroundings s r')).trans hdead
    obtain ⟨acts', p, hat, hl, hf⟩ := hfreed hr
    rcases hf.code hat hdead' hcode with hi | ⟨rfl, rfl, hconn⟩ | ⟨hi, rfl, haway, hconn⟩
    · exact absurd hi hne
    · exact .inl ⟨t, acts, rfl, htask, hconn⟩
    · refine .inr ⟨haway.1, haway.2, hconn, .inr ⟨t, acts, rfl, ?_⟩⟩
      rcases hi with rfl | rfl
      · exact .inl htask
      · exact .inr htask
  | @stepWriter r' i w w' x effect hw hret hrun | @writerFault r' i w hw hret hrun =>
    -- A call that is past its lock owns the `Rpc`.
    obtain ⟨hholds, rfl⟩ : w.holds = true ∧ r' = r := by
      obtain ⟨item, pc⟩ := w
      cases pc <;> simp_all [usedBy, WriterCall.holds, WriterCall.isReturned]
    have hany : (s.writers r').any WriterCall.holds = true :=
      List.any_eq_true.mpr ⟨w, List.mem_of_getElem? hw, hholds⟩
    simp [Server.alive, hany] at hdead
  | pop _ _ _ | callWriter _ _ | stopServing => cases huse

/-- Both happen: a connection fails and the destroyed `Rpc` is cloned, and the `DONE` of a refused
connection is pushed to the queue that the destroyed `Rpc` names. -/
theorem use_after_free_of_runs :
    (∃ s, (serverSystem Nat Nat oneEventThread sumService).Reach StaleExpired s ∧
      usedBy s (.exec 0 []) = some 0 ∧ s.alive 0 = false ∧ (s.rpcs 0).connected = some false) ∧
    ∃ s, (serverSystem Nat Nat oneEventThread sumService).Reach StaleExpired s ∧
      usedBy s (.pushToEventQueue 0) = some 0 ∧ s.alive 0 = false ∧
      (s.rpcs 0).handler = false ∧ (s.rpcs 0).connected = some true := by
  constructor
  · obtain ⟨s, hs, hp⟩ := exists_reach oneEventThread sumService staleExpired staleExpired_sound
      (event .newConnection false none ++ execs 3)
      (fun s => 0 < s.nextRpc ∧ usedBy s (.exec 0 []) = some 0 ∧ s.alive 0 = false ∧
        (s.services (s.rpcs 0).service).shuttingDown = false ∧ (s.step (.exec 0 [])).isSome)
      (by decide +kernel)
    obtain ⟨hr, huse, hdead, hserving, hstep⟩ := of_decide_eq_true hp
    obtain ⟨s', hstep⟩ := Option.isSome_iff_exists.mp hstep
    have hR := (routed_of_one_thread rfl hs.reachable hr).1
    rcases use_after_free_cases hs hstep huse hR hdead with ⟨t, acts, -, -, hconn⟩ | ⟨hshut, -⟩
    · exact ⟨s, hs, huse, hdead, hconn⟩
    · exact absurd (hserving.symm.trans hshut) (by simp)
  · obtain ⟨s, hs, hp⟩ := exists_reach oneEventThread sumService staleExpired staleExpired_sound
      (stopBeforeHandling true ++ execs 1 ++ [.next 0 0 .done true none])
      (fun s => 0 < s.nextRpc ∧ usedBy s (.pushToEventQueue 0) = some 0 ∧ s.alive 0 = false ∧
        (s.step (.pushToEventQueue 0)).isSome) (by decide +kernel)
    obtain ⟨hr, huse, hdead, hstep⟩ := of_decide_eq_true hp
    obtain ⟨s', hstep⟩ := Option.isSome_iff_exists.mp hstep
    have hR := (routed_of_one_thread rfl hs.reachable hr).1
    rcases use_after_free_cases hs hstep huse hR hdead with ⟨t, acts, hl, -⟩ | ⟨-, hfate⟩
    · cases hl
    · exact ⟨s, hs, huse, hdead, hfate.1, hfate.2.1⟩

end AsyncGrpc.Proofs
