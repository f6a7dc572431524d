import AsyncGrpc.Proofs.Connection
import AsyncGrpc.Proofs.Lifetime

/-!
# Connections refused while shutting down

Once its service is shutting down, `HandleNewConnection` erases the `Rpc` without asking whether
events are pending. An `Rpc` that is erased there has no handler and never gets one, so the only
tag gRPC may still return for it is `DONE`: it does for a connection that came back with
`ok = true`, unless `DONE` was there first.
-/

namespace AsyncGrpc.Proofs

open Function Transition

variable {Req Resp : Type} {options : Options} {maps : List (List (String × RpcHandlerInfo))}

/-- `HandleNewConnection` erases the `Rpc` while its service is shutting down. -/
def Refuses (s : Server Req Resp) (r : Nat) (l : Label Req Resp) : Prop :=
  (s.services (s.rpcs r).service).shuttingDown = true ∧
    ∃ t acts rest, l = .exec t acts ∧ s.tasks t = ⟨r, .remove :: rest⟩

/-- gRPC owes no `DONE`. -/
def Over (x : Rpc Req Resp) : Prop :=
  x.connected = some false ∨ .done ∈ x.returned.map Prod.fst

/-- The decision about the connection fell against the `Rpc`. -/
structure Refused (c : Part Req Resp) : Prop where
  handler : c.rpc.handler = false
  handled : .newConnection ∈ c.rpc.handled.map Prod.fst
  decided : ∀ t, ∀ i ∈ c.code t, decides i = false

section Refused

variable {c : Part Req Resp}

/-- Only `DONE` may come back for a refused `Rpc`. -/
lemma Refused.tag_eq_done (h : Refused c) (hc : (partSystem Req Resp).Reachable c) {tag : Tag}
    (htag : 0 < c.rpc.inFlight tag) : tag = .done := by
  have he := reachable_early hc h.handler
  cases tag with
  | newConnection =>
    rw [inFlight_eq_zero_of_returned hc rfl (mem_returned_of_handled hc h.handled)] at htag
    cases htag
  | done => rfl
  | read | write | finish =>
    rw [he.inFlight _ rfl] at htag
    cases htag

/-- No step of the part makes up for a refusal. -/
lemma Refused.step (h : Refused c) (hc : (partSystem Req Resp).Reachable c)
    {m : PartLabel Req Resp} {c' : Part Req Resp} (hdoes : Does c m c') : Refused c' := by
  cases hdoes with
  | next _ _ => exact ⟨h.handler, h.handled, h.decided⟩
  | pushToEventQueue _ => exact ⟨h.handler, h.handled, h.decided⟩
  | @pop t e rest _ hmail =>
    refine ⟨h.handler, h.handled, fun t' i hi => ?_⟩
    rcases mem_pop_code hi with rfl | hi
    · exact decides_handler e
    · exact h.decided t' i hi
  | @exec t acts i rest o hcode hrun =>
    have hmem : i ∈ c.code t := by simp [hcode]
    have hi := h.decided t i hmem
    refine ⟨?_, ?_, fun t' j hj => ?_⟩
    · rw [Part.apply_rpc]
      rcases run_handler hrun with hsame | ⟨rfl, -⟩
      · exact hsame.trans h.handler
      · cases hi
    · rw [Part.apply_rpc, (run_books hrun).handled]
      exact List.mem_append_left _ h.handled
    · rw [Part.apply_code] at hj
      rcases mem_code_of_exec hcode hj with hj | hj
      · rcases run_decides hrun with ⟨rfl, -⟩ | ⟨ok, rfl, -⟩ | hnext
        · have hwaiting := mem_waiting_of_handle (reachable_placed hc) hmem
          exact absurd h.handled (not_handled_of_waiting hc hwaiting)
        · cases hi
        · exact hnext j hj
      · exact h.decided t' j hj
  | callWriter _ => exact ⟨h.handler, h.handled, h.decided⟩
  | stepWriter _ hstep =>
    refine ⟨?_, ?_, ?_⟩
    · rw [Part.apply_rpc, writerStep_handler hstep]
      exact h.handler
    · rw [Part.apply_rpc, (writerStep_books hstep).handled]
      exact h.handled
    · rw [Part.apply_code]
      exact h.decided
  | stopServing => exact ⟨h.handler, h.handled, h.decided⟩

/-- Nothing comes back for a refused `Rpc` that gRPC owes no `DONE`. -/
lemma Refused.not_mayReturn (h : Refused c) (hc : (partSystem Req Resp).Reachable c)
    (hover : Over c.rpc) (tag : Tag) (ok : Bool) (request : Option Req) :
    ¬c.rpc.mayReturn tag ok request = true := by
  intro hmay
  obtain ⟨hheld, hdone, -⟩ := mayReturn_iff.mp hmay
  obtain rfl := h.tag_eq_done hc hheld
  rcases hover with hfalse | hmem
  · rw [hdone rfl] at hfalse
    cases hfalse
  · rw [inFlight_eq_zero_of_returned hc rfl hmem] at hheld
    cases hheld

lemma Refused.over_step (h : Refused c) (hc : (partSystem Req Resp).Reachable c)
    (hover : Over c.rpc) {m : PartLabel Req Resp} {c' : Part Req Resp} (hdoes : Does c m c') :
    Over c'.rpc := by
  cases hdoes with
  | next _ hmay => exact absurd hmay (h.not_mayReturn hc hover _ _ _)
  | exec _ hrun =>
    rw [Part.apply_rpc, Over, (run_books hrun).connected, (run_books hrun).returned]
    exact hover
  | stepWriter _ hstep =>
    rw [Part.apply_rpc, Over, (writerStep_books hstep).connected, (writerStep_books hstep).returned]
    exact hover
  | pushToEventQueue _ | pop _ _ | callWriter _ | stopServing => exact hover

/-- gRPC holds the `DONE` of an accepted call that it has not returned. -/
lemma owes_done (hc : (partSystem Req Resp).Reachable c)
    (hmem : .newConnection ∈ c.rpc.returned.map Prod.fst) (h : ¬Over c.rpc) :
    c.rpc.mayReturn .done true none = true := by
  obtain ⟨hfalse, hdone⟩ := not_or.mp h
  refine mayReturn_iff.mpr ⟨?_, fun _ => ?_, by simp [Rpc.delivers]⟩
  · have hcount := registered_once hc .done rfl
    rw [timesReturned, List.count_eq_zero.mpr hdone] at hcount
    omega
  · obtain ⟨ok, hok⟩ := Option.ne_none_iff_exists'.mp ((reachable_connected hc).mp hmem)
    cases ok with
    | false => exact absurd hok hfalse
    | true => exact hok

/-- `HandleNewConnection` removes an `Rpc` that has no handler, as its last word about it. -/
lemma refused_of_remove (hc : (partSystem Req Resp).Reachable c) {t : Nat}
    {acts : List (HandlerAction Resp)} {rest : List (Instr Resp)} {c' : Part Req Resp}
    (hcode : c.code t = .remove :: rest) (hdoes : Does c (.exec t acts) c') :
    Refused c' ∧ c'.rpc = c.rpc := by
  have hconn := reachable_connecting hc
  have hmem : .remove ∈ c.code t := by simp [hcode]
  have hhandler := hconn.deciding t _ hmem rfl
  cases hdoes with
  | exec hcode' hrun =>
    obtain ⟨rfl, rfl⟩ := List.cons.inj (hcode.symm.trans hcode')
    cases hrun
    refine ⟨⟨hhandler, ?_, fun t' j hj => ?_⟩, rfl⟩
    · by_contra hn
      exact absurd ((hconn.unhandled hn).2 t _ hmem) (by simp [decides])
    · rcases mem_exec_code hj with ⟨-, hj⟩ | ⟨-, hj⟩ | ⟨hne, hj⟩
      · cases hj
      · exact hconn.alone t j (by simpa [hcode] using hj)
      · have he := reachable_early hc hhandler
        exact absurd (he.same_thread hc hmem hj) hne

end Refused

/-! ### The erased `Rpc` -/

section Server

variable {s s' : Server Req Resp} {r : Nat} {l : Label Req Resp}

lemma refuses_part (hs : (serverSystem Req Resp options maps).Reachable s) (hl : Refuses s r l)
    (hstep : s.step l = some s') :
    r < s.nextRpc ∧ Refused (s'.part r) ∧ s'.rpcs r = s.rpcs r ∧ s'.fault = none ∧
      .newConnection ∈ (s.rpcs r).returned.map Prod.fst := by
  obtain ⟨-, t, acts, rest, rfl, htask⟩ := hl
  obtain ⟨hfault, hm⟩ := step_moves hstep
  have hh := reachable_housed hs
  have hr : r < s.nextRpc := by
    have hlt := (hh.tasks t (by simp [htask])).1
    rwa [htask] at hlt
  have hcode : (s.part r).code t = .remove :: rest := by simp [Server.part, htask]
  have hc := reachable_part hs hr
  -- the step shortens the code of the thread, so the part does not stand still
  have hafter : s'.tasks t = ⟨r, rest⟩ ∧ s'.fault = none := by
    cases hm with
    | exec htask' hrun =>
      rw [htask] at htask'
      cases htask'
      cases hrun
      simp [Server.setTask, Server.setRpc, hfault]
    | execFault htask' hrun =>
      rw [htask] at htask'
      cases htask'
      cases hrun
  rcases moves_part hm hh hr with he | ⟨m, hpart, hpstep⟩
  · have hcode' : (s'.part r).code t = rest := by simp [Server.part, hafter.1]
    rw [he, hcode] at hcode'
    exact absurd hcode'.symm (List.ne_cons_self)
  · obtain rfl : m = .exec t acts := by simpa [Label.part, htask] using hpart.symm
    obtain ⟨hrefused, hrpc⟩ := refused_of_remove hc hcode (step_does hpstep)
    have hhandled := hrefused.handled
    rw [hrpc] at hhandled
    exact ⟨hr, hrefused, hrpc, hafter.2, mem_returned_of_handled hc hhandled⟩

/-- A completion queue thread that has a tag in hand pushes it and is free for the next one. -/
lemma exists_free (options : Options) (maps : List (List (String × RpcHandlerInfo)))
    (hfault : s.fault = none) (cq r : Nat) :
    ∃ s', (serverSystem Req Resp options maps).Leads (fun _ _ => True) s s' ∧
      s'.inHand cq = none ∧ s'.fault = none ∧ s'.options = s.options ∧ s'.nextRpc = s.nextRpc ∧
      (s'.rpcs r).serverCompletionQueue = (s.rpcs r).serverCompletionQueue ∧
      ∀ tag ok request,
        (s'.rpcs r).mayReturn tag ok request = (s.rpcs r).mayReturn tag ok request := by
  cases hhand : s.inHand cq with
  | none => exact ⟨s, .refl, hhand, hfault, rfl, rfl, rfl, fun _ _ _ => rfl⟩
  | some p =>
    obtain ⟨r', tag, ok⟩ := p
    have hpush : (serverSystem Req Resp options maps).step s (.pushToEventQueue cq) =
        some (((s.setRpc r' ((s.rpcs r').setOk tag ok)).setInHand cq none).push
          ((s.rpcs r').event tag).eventQueue (.completion r' tag)) := by
      simp [serverSystem, Server.step, hfault, Server.pushToEventQueue, hhand]
    refine ⟨_, .step .refl trivial hpush, update_self _ _ _, hfault, rfl, rfl, ?_⟩
    by_cases he : r = r'
    · subst he
      simp only [Server.push, Server.setEventQueue, Server.setInHand, Server.setRpc, update_self]
      exact ⟨rfl, fun _ _ _ => rfl⟩
    · simp [Server.push, Server.setEventQueue, Server.setInHand, Server.setRpc, he]

/-- What gRPC may return for an `Rpc` it can return after at most one other step. -/
lemma exists_returns (hs : (serverSystem Req Resp options maps).Reachable s)
    (hfault : s.fault = none) (hr : r < s.nextRpc) {tag : Tag} {ok : Bool} {request : Option Req}
    (hmay : (s.rpcs r).mayReturn tag ok request = true) :
    ∃ s', (serverSystem Req Resp options maps).Leads (fun _ _ => True) s s' ∧
      s'.step (.next (s.rpcs r).serverCompletionQueue r tag ok request) ≠ none := by
  obtain ⟨s', hleads, hhand, hfault', hoptions, hnext, hcq, hmay'⟩ :=
    exists_free options maps hfault (s.rpcs r).serverCompletionQueue r
  refine ⟨s', hleads, ?_⟩
  have hlt := reachable_completionQueue hs hr
  simp only [Server.step, hfault', Server.next]
  rw [hoptions, reachable_options hs, hnext]
  simp [hlt, hhand, hr, hcq, hmay', hmay]

/-- Nothing comes back any more for a refused `Rpc` that gRPC owes no `DONE`. -/
lemma returns_none_of_over (hs : (serverSystem Req Resp options maps).Reachable s)
    (hr : r < s.nextRpc) (h : Refused (s.part r)) (hover : Over (s.rpcs r))
    (hleads : (serverSystem Req Resp options maps).Leads (fun _ _ => True) s s')
    (cq : Nat) (tag : Tag) (ok : Bool) (request : Option Req) :
    s'.step (.next cq r tag ok request) = none := by
  have hkeep : ∀ c m c', (partSystem Req Resp).Reachable c → Refused c ∧ Over c.rpc →
      c.step m = some c' → Refused c' ∧ Over c'.rpc := by
    rintro c m c' hc ⟨h, hover⟩ hpstep
    exact ⟨h.step hc (step_does hpstep), h.over_step hc hover (step_does hpstep)⟩
  have hpart := leads_part hkeep hs hleads hr ⟨h, hover⟩
  cases hreturn : s'.step (.next cq r tag ok request) with
  | none => rfl
  | some s₁ =>
    cases (step_moves hreturn).2 with
    | next _ _ _ _ hmay =>
      have hc := reachable_part (hleads.reach hs) hpart.1
      exact absurd hmay (hpart.2.1.not_mayReturn hc hpart.2.2 _ _ _)

/-- An `Rpc` that `HandleNewConnection` erases while its service is shutting down has no event
left to come back exactly when its connection had failed or `DONE` was there already. -/
theorem refused_over_iff (hs : (serverSystem Req Resp options maps).Reachable s)
    (hl : Refuses s r l) (hstep : s.step l = some s') :
    (∀ s'', (serverSystem Req Resp options maps).Leads (fun _ _ => True) s' s'' →
      ∀ cq tag ok request, s''.step (.next cq r tag ok request) = none) ↔
    (s.rpcs r).connected = some false ∨ ∃ ok, (.done, ok) ∈ (s.rpcs r).returned := by
  have hs' : (serverSystem Req Resp options maps).Reachable s' := .step hs trivial hstep
  obtain ⟨hr, hrefused, hrpc, hfault, hmem⟩ := refuses_part hs hl hstep
  have hr' := hr.trans_le (moves_nextRpc (step_moves hstep).2)
  have hover : Over (s.rpcs r) ↔
      (s.rpcs r).connected = some false ∨ ∃ ok, (.done, ok) ∈ (s.rpcs r).returned := by
    simp [Over]
  rw [← hover]
  constructor
  · intro hnone
    by_contra howed
    have hmay : (s'.rpcs r).mayReturn .done true none = true := by
      rw [hrpc]
      exact owes_done (reachable_part hs hr) hmem howed
    obtain ⟨s'', hleads, hreturn⟩ := exists_returns hs' hfault hr' hmay
    exact hreturn (hnone s'' hleads _ _ _ _)
  · intro hover s'' hleads
    exact returns_none_of_over hs' hr' hrefused (hrpc ▸ hover) hleads

end Server

/-- `StopServing` comes between a connection and its handling, which is about to erase the
`Rpc`. -/
def stopBeforeHandling (ok : Bool) : List (Label Nat Nat) :=
  [.next 0 0 .newConnection ok none, .pushToEventQueue 0, .stopServing 0, .pop 0] ++ execs 2

theorem refused_over_of_failed_connection :
    ∃ s s', (serverSystem Nat Nat oneEventThread sumService).Reachable s ∧
      s.step (.exec 0 []) = some s' ∧ s.active 0 = true ∧ s'.active 0 = false ∧
      ∀ s'', (serverSystem Nat Nat oneEventThread sumService).Leads (fun _ _ => True) s' s'' →
        ∀ cq tag ok request, s''.step (.next cq 0 tag ok request) = none := by
  obtain ⟨s, hs, hp⟩ := exists_reachable oneEventThread sumService (stopBeforeHandling false)
    (fun s => (s.services (s.rpcs 0).service).shuttingDown = true ∧ s.tasks 0 = ⟨0, [.remove]⟩ ∧
      (s.rpcs 0).connected = some false ∧ s.active 0 = true ∧
      (s.step (.exec 0 [])).any (fun s' => !s'.active 0) = true) (by decide +kernel)
  obtain ⟨hdown, htask, hconn, hactive, hstep⟩ := of_decide_eq_true hp
  obtain ⟨s', hstep, herased⟩ := (Option.any_eq_true _ _).mp hstep
  exact ⟨s, s', hs, hstep, hactive, by simpa using herased,
    (refused_over_iff hs ⟨hdown, 0, [], [], rfl, htask⟩ hstep).mpr (.inl hconn)⟩

/-- The accepted call is erased, and then `DONE` comes back for it. -/
theorem done_after_refusal :
    ∃ s s' s'', (serverSystem Nat Nat oneEventThread sumService).Reachable s ∧
      Refuses s 0 (.exec 0 []) ∧ s.step (.exec 0 []) = some s' ∧ s'.active 0 = false ∧
      s'.step (.next 0 0 .done true none) = some s'' ∧
      (s''.rpcs 0).returned = [(.newConnection, true), (.done, true)] := by
  obtain ⟨s, hs, hp⟩ := exists_reachable oneEventThread sumService (stopBeforeHandling true)
    (fun s => (s.services (s.rpcs 0).service).shuttingDown = true ∧ s.tasks 0 = ⟨0, [.remove]⟩ ∧
      (s.step (.exec 0 [])).any (fun s' => !s'.active 0 &&
        (s'.step (.next 0 0 .done true none)).any (fun s'' =>
          (s''.rpcs 0).returned = [(.newConnection, true), (.done, true)])) = true)
    (by decide +kernel)
  obtain ⟨hdown, htask, hstep⟩ := of_decide_eq_true hp
  obtain ⟨s', hstep, hafter⟩ := (Option.any_eq_true _ _).mp hstep
  obtain ⟨herased, hreturn⟩ := Bool.and_eq_true_iff.mp hafter
  obtain ⟨s'', hreturn, hdone⟩ := (Option.any_eq_true _ _).mp hreturn
  exact ⟨s, s', s'', hs, ⟨hdown, 0, [], [], rfl, htask⟩, hstep, by simpa using herased, hreturn,
    of_decide_eq_true hdone⟩

end AsyncGrpc.Proofs
