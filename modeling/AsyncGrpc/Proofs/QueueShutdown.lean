import AsyncGrpc.Proofs.Connection
import AsyncGrpc.Proofs.Lifetime
import AsyncGrpc.Proofs.ShutdownSteps

/-!
# Operations on a completion queue that is shut down

`CompletionQueueThread::Shutdown` does not wait for the event threads, and a handler tests
`shutting_down_` only at the start of `HandleNewConnection`. When no event thread is at work on the
`Rpc`s of a queue and those with a call are done with it, the `Rpc`s are `Settled`: whatever
comes back for them afterwards is handled without another operation.
-/

namespace AsyncGrpc.Proofs

open Function Transition

variable {Req Resp : Type} {options : Options} {maps : List (List (String × RpcHandlerInfo))}

/-! ### An `Rpc` that nobody owns -/

section Dead

variable {c : Part Req Resp}

lemma alive_eq_false_iff : c.alive = false ↔ c.active = false ∧ (∀ w ∈ c.writers, w.holds = false) ∧
    ∀ i ∈ c.code c.rpc.eventQueue, i.isReleaseShared = false := by
  simp [Part.alive, and_assoc]

/-- Only `InternalRpcEvent::Handle` becomes an owner, and only of an `Rpc` that has one. -/
lemma run_next_releaseShared {i : Instr Resp} {env : Surroundings}
    {acts : List (HandlerAction Resp)} {x : Rpc Req Resp} {o : Outcome Req Resp}
    (h : i.run env acts x = some o) (hdead : env.alive = false) :
    ∀ j ∈ o.next, j.isReleaseShared = false := by
  have hplain : ∀ j : Instr Resp, isPlain j = true → j.isReleaseShared = false := by
    intro j hj
    cases j <;> first | rfl | cases hj
  cases run_runs h with
  | @handle tag =>
    cases tag <;> cases (x.event _).ok <;>
      simp [Service.handleEvent, Tag.event, Service.handleRead, Service.handleWrite,
        Service.handleFinish, Service.handleDone, Instr.isReleaseShared]
  | handleInternal halive => exact absurd (hdead.symm.trans halive) Bool.false_ne_true
  | handleNewConnection => exact fun j hj => hplain j (handleNewConnection_plain _ _ j hj)
  | callback _ =>
    exact fun j hj => hplain j (isPlain_of_producer (instrs_producer acts j hj))
  | _ => simp [Instr.isReleaseShared]

lemma writerStep_holds {w w' : WriterCall Resp} {env : Surroundings} {x y : Rpc Req Resp}
    {effect : Effect} (h : w.step env x = some (y, w', effect)) (hdead : env.alive = false)
    (hw : w.holds = false) : w'.holds = false := by
  unfold WriterCall.step at h
  split at h <;> rename_i hpc
  · rw [hdead] at h
    cases h
    rfl
  all_goals simp [WriterCall.holds, hpc] at hw
  cases h
  simp [WriterCall.holds]

/-- An `Rpc` without an owner never has one again. -/
lemma Does.alive {m : PartLabel Req Resp} {c' : Part Req Resp} (h : Does c m c')
    (hdead : c.alive = false) : c'.alive = false := by
  have hsame := does_samePlace h
  obtain ⟨hactive, hwriters, hshared⟩ := alive_eq_false_iff.mp hdead
  refine alive_eq_false_iff.mpr ?_
  rw [hsame.eventQueue]
  cases h with
  | next _ _ | pushToEventQueue _ | stopServing => exact ⟨hactive, hwriters, hshared⟩
  | @pop t e rest _ _ =>
    refine ⟨hactive, hwriters, fun i hi => ?_⟩
    rcases mem_pop_code hi with rfl | hi
    · cases e <;> rfl
    · exact hshared i hi
  | @exec t acts i rest o hcode hrun =>
    refine ⟨?_, ?_, fun j hj => ?_⟩
    · by_contra htrue
      have hbefore := Part.active_of_apply _ _ (by simpa using htrue)
      exact Bool.false_ne_true (hactive.symm.trans hbefore)
    · rw [Part.apply_writers]
      exact hwriters
    · rw [Part.apply_code] at hj
      rcases mem_code_of_exec hcode hj with hj | hj
      · exact run_next_releaseShared hrun hdead j hj
      · exact hshared j hj
  | callWriter _ =>
    refine ⟨hactive, fun w hw => ?_, hshared⟩
    rcases List.mem_append.mp hw with hw | hw
    · exact hwriters w hw
    · obtain rfl := List.mem_singleton.mp hw
      rfl
  | @stepWriter i w w' x effect hw hstep =>
    refine ⟨?_, fun w₁ hw₁ => ?_, ?_⟩
    · by_contra htrue
      have hbefore := Part.active_of_apply _ _ (by simpa using htrue)
      exact Bool.false_ne_true (hactive.symm.trans hbefore)
    · rw [Part.apply_writers] at hw₁
      rcases List.mem_or_eq_of_mem_set hw₁ with hw₁ | rfl
      · exact hwriters w₁ hw₁
      · exact writerStep_holds hstep hdead (hwriters w (List.mem_of_getElem? hw))
    · rw [Part.apply_code]
      exact hshared

end Dead

/-! ### An `Rpc` that starts nothing any more -/

/-- The instructions that run on an `Rpc` without a call once its service is shutting down. -/
def isSettling : Instr Resp → Bool
  | .handle tag => isRegistered tag
  | .handleInternal | .handleNewConnection _ | .remove | .removeIfNotPending => true
  | _ => false

structure Settled (c : Part Req Resp) : Prop where
  shuttingDown : c.shuttingDown = true
  code : ∀ t, ∀ i ∈ c.code t, isSettling i = true
  inFlight : ∀ tag, isRegistered tag = false → c.rpc.inFlight tag = 0
  waiting : ∀ tag ∈ waiting c, isRegistered tag = true
  dead : c.rpc.handler = true → c.alive = false

/-- No event thread is in the middle of an event of the `Rpc`, and a call of the `Rpc` is over:
nobody owns the `Rpc`, gRPC holds no `READ`, `WRITE` or `FINISH` of it and none is waiting to be
handled. -/
def WoundUp (c : Part Req Resp) : Prop :=
  (∀ t, c.code t = []) ∧ (c.rpc.handler = true → c.alive = false ∧
    ∀ tag, isRegistered tag = false → c.rpc.inFlight tag = 0 ∧ tag ∉ waiting c)

section Settled

variable {c : Part Req Resp}

lemma settled_of_woundUp (hc : (partSystem Req Resp).Reachable c) (hdown : c.shuttingDown = true)
    (h : WoundUp c) : Settled c := by
  obtain ⟨hcode, hover⟩ := h
  cases hhandler : c.rpc.handler with
  | true =>
    obtain ⟨hdead, hquiet⟩ := hover hhandler
    refine ⟨hdown, by simp [hcode], fun tag htag => (hquiet tag htag).1, fun tag hmem => ?_,
      fun _ => hdead⟩
    by_contra htag
    exact (hquiet tag (by simpa using htag)).2 hmem
  | false =>
    have he := reachable_early hc hhandler
    refine ⟨hdown, by simp [hcode], he.inFlight, fun tag hmem => ?_, by simp [hhandler]⟩
    exact he.returned tag (mem_returned_of_waiting hc hmem)

lemma run_settling {i : Instr Resp} {env : Surroundings} {acts : List (HandlerAction Resp)}
    {x : Rpc Req Resp} {o : Outcome Req Resp} (h : i.run env acts x = some o)
    (hi : isSettling i = true) (hdown : env.shuttingDown = true)
    (hdead : i = .handleInternal → env.alive = false) :
    o.rpc.handler = x.handler ∧ o.rpc.inFlight = x.inFlight ∧
      ∀ j ∈ o.next, isSettling j = true := by
  cases run_runs h with
  | @handle tag =>
    refine ⟨rfl, rfl, ?_⟩
    cases tag with
    | newConnection => simp [Service.handleEvent, Tag.event, isSettling]
    | done => simp [Service.handleEvent, Tag.event, Service.handleDone, isSettling]
    | _ => cases hi
  | handleInternal halive => exact absurd ((hdead rfl).symm.trans halive) Bool.false_ne_true
  | handleNewConnection => exact ⟨rfl, rfl, by simp [Service.handleNewConnection, hdown, isSettling]⟩
  | stale _ | remove | keep _ | erase _ => exact ⟨rfl, rfl, by simp⟩
  | _ => cases hi

/-- A `WRITE_NEEDED` event of a settled `Rpc` finds no owner. -/
lemma Settled.dead_of_internal (h : Settled c) (hc : (partSystem Req Resp).Reachable c) {t : Nat}
    (hmem : .handleInternal ∈ c.code t) : c.alive = false := by
  cases hhandler : c.rpc.handler with
  | true => exact h.dead hhandler
  | false => cases (reachable_early hc hhandler).code t _ hmem

lemma Settled.run (h : Settled c) (hc : (partSystem Req Resp).Reachable c) {t : Nat}
    {acts : List (HandlerAction Resp)} {i : Instr Resp} {rest : List (Instr Resp)}
    {o : Outcome Req Resp} (hcode : c.code t = i :: rest)
    (hrun : i.run c.surroundings acts c.rpc = some o) :
    o.rpc.handler = c.rpc.handler ∧ o.rpc.inFlight = c.rpc.inFlight ∧
      ∀ j ∈ o.next, isSettling j = true := by
  have hmem : i ∈ c.code t := by simp [hcode]
  refine run_settling hrun (h.code t i hmem) h.shuttingDown ?_
  rintro rfl
  exact h.dead_of_internal hc hmem

/-- gRPC returns only the registered tags of a settled `Rpc`. -/
lemma Settled.returns (h : Settled c) {tag : Tag} {ok : Bool} {request : Option Req}
    (hmay : c.rpc.mayReturn tag ok request = true) : isRegistered tag = true := by
  by_contra htag
  have hheld := (mayReturn_iff.mp hmay).1
  rw [h.inFlight tag (by simpa using htag)] at hheld
  cases hheld

lemma Settled.waiting_registered (h : Settled c) (hc : (partSystem Req Resp).Reachable c)
    {m : PartLabel Req Resp} {c' : Part Req Resp} (hstep : c.step m = some c') :
    ∀ tag ∈ Proofs.waiting c', isRegistered tag = true := by
  intro tag hmem
  obtain ⟨returned, taken, heq, hreturned, -⟩ := waiting_step hc hstep
  have hmem' : tag ∈ Proofs.waiting c ++ returned.toList := by
    rw [heq]
    exact List.mem_append_right _ hmem
  rcases List.mem_append.mp hmem' with hmem' | hmem'
  · exact h.waiting tag hmem'
  · obtain ⟨ok, request, rfl⟩ := hreturned tag (Option.mem_toList.mp hmem')
    cases step_does hstep with
    | next _ hmay => exact h.returns hmay

lemma Settled.step (h : Settled c) (hc : (partSystem Req Resp).Reachable c)
    {m : PartLabel Req Resp} {c' : Part Req Resp} (hstep : c.step m = some c') : Settled c' := by
  have hdoes := step_does hstep
  have hwaiting := h.waiting_registered hc hstep
  have hdead : c'.rpc.handler = c.rpc.handler → c'.rpc.handler = true → c'.alive = false :=
    fun hsame htrue => hdoes.alive (h.dead (hsame.symm.trans htrue))
  cases hdoes with
  | @next tag ok request _ hmay =>
    refine ⟨h.shuttingDown, h.code, fun tag' htag' => ?_, hwaiting, hdead rfl⟩
    have hne : tag' ≠ tag := by
      rintro rfl
      exact Bool.false_ne_true (htag'.symm.trans (h.returns hmay))
    exact (update_of_ne hne _ _).trans (h.inFlight tag' htag')
  | pushToEventQueue _ | callWriter _ =>
    exact ⟨h.shuttingDown, h.code, h.inFlight, hwaiting, hdead rfl⟩
  | @pop t e rest _ hmail =>
    refine ⟨h.shuttingDown, fun t' i hi => ?_, h.inFlight, hwaiting, hdead rfl⟩
    rcases mem_pop_code hi with rfl | hi
    · cases e with
      | completion tag =>
        have hmem : .completion tag ∈ c.mailbox t := by simp [hmail]
        exact h.waiting tag (mem_waiting_of_mail (reachable_placed hc) hmem)
      | internal => rfl
    · exact h.code t' i hi
  | @exec t acts i rest o hcode hrun =>
    obtain ⟨hhandler, hflight, hnext⟩ := h.run hc hcode hrun
    refine ⟨?_, fun t' j hj => ?_, ?_, hwaiting, hdead ?_⟩
    · rw [Part.apply_shuttingDown]
      exact h.shuttingDown
    · rw [Part.apply_code] at hj
      rcases mem_code_of_exec hcode hj with hj | hj
      · exact hnext j hj
      · exact h.code t' j hj
    · rw [Part.apply_rpc, hflight]
      exact h.inFlight
    · rw [Part.apply_rpc, hhandler]
  | stepWriter _ hwriter =>
    refine ⟨?_, ?_, ?_, hwaiting, hdead ?_⟩
    · rw [Part.apply_shuttingDown]
      exact h.shuttingDown
    · rw [Part.apply_code]
      exact h.code
    · rw [Part.apply_rpc, (writerStep_books hwriter).inFlight]
      exact h.inFlight
    · rw [Part.apply_rpc, writerStep_handler hwriter]
  | stopServing => exact ⟨rfl, h.code, h.inFlight, hwaiting, hdead rfl⟩

end Settled

/-! ### The process -/

/-- `Shutdown` is called on a completion queue only when all its `Rpc`s are wound up. -/
def ShutsDownIdle (p : Process Req Resp) (l : ProcessLabel Req Resp) : Prop :=
  ∀ cq, l = .shutdown → p.stage = .shutdownQueue cq → ∀ r < p.server.nextRpc,
    (p.server.rpcs r).serverCompletionQueue = cq → WoundUp (p.server.part r)

/-- No operation is started on a completion queue that is shut down: no `Rpc` is registered with
it, and gRPC holds no more operations of its `Rpc`s than before. -/
def NothingStarted (p p' : Process Req Resp) : Prop :=
  ∀ r < p'.server.nextRpc, p.queueShutdown (p'.server.rpcs r).serverCompletionQueue = true →
    r < p.server.nextRpc ∧
      ∀ tag, (p'.server.rpcs r).inFlight tag ≤ (p.server.rpcs r).inFlight tag

section Process

variable {p p' : Process Req Resp} {l : ProcessLabel Req Resp}

/-- A settled `Rpc` is not cloned. -/
lemma Settled.not_clone {s : Server Req Resp} {t r : Nat} {rest : List (Instr Resp)}
    (h : Settled (s.part r)) : s.tasks t ≠ ⟨r, .clone :: rest⟩ := by
  intro htask
  have hmem : .clone ∈ (s.part r).code t := by simp [Server.part, htask]
  cases h.code t _ hmem

/-- No step of the process registers an `Rpc` with the completion queue of settled ones. -/
lemma acts_place (hs : (serverSystem Req Resp options maps).Reachable p.server)
    (hset : ∀ r < p.server.nextRpc,
      p.queueShutdown (p.server.rpcs r).serverCompletionQueue = true → Settled (p.server.part r))
    (h : Acts p l p') {r : Nat} (hr : r < p'.server.nextRpc) :
    (r < p.server.nextRpc ∧ SamePlace (p.server.rpcs r) (p'.server.rpcs r)) ∨
      (p'.queueShutdown = p.queueShutdown ∧
        p.queueShutdown (p'.server.rpcs r).serverCompletionQueue = false) := by
  have hserver : ∀ {l' s}, p.server.step l' = some s → r < s.nextRpc →
      (r < p.server.nextRpc ∧ SamePlace (p.server.rpcs r) (s.rpcs r)) ∨
        p.queueShutdown (s.rpcs r).serverCompletionQueue = false := by
    intro l' s hstep hr
    refine (step_place hstep hr).imp_right ?_
    rintro ⟨t, acts, r', rest, -, htask, hplace⟩
    have hlt := ((reachable_housed hs).tasks t (by simp [htask])).1
    rw [htask] at hlt
    rw [hplace]
    by_contra hshut
    exact (hset r' hlt (by simpa using hshut)).not_clone htask
  cases h with
  | server _ hstep => exact (hserver hstep hr).imp_right (fun hfree => ⟨rfl, hfree⟩)
  | stopServing _ _ hstep => exact (hserver hstep hr).imp_right (fun hfree => ⟨rfl, hfree⟩)
  | _ => exact .inl ⟨hr, .refl _⟩

theorem process_settled (hp : (processSystem Req Resp options maps).Reach ShutsDownIdle p) :
    ∀ r < p.server.nextRpc, p.queueShutdown (p.server.rpcs r).serverCompletionQueue = true →
      Settled (p.server.part r) := by
  apply process_invariant (P := fun p => ∀ r < p.server.nextRpc,
    p.queueShutdown (p.server.rpcs r).serverCompletionQueue = true → Settled (p.server.part r)) _ _ hp
  · intro r _ h
    cases h
  · intro p l p' hreach ih hidle h r hr hshut
    have hs := process_server hreach
    have hstaged := process_staged hreach
    rcases acts_place hs ih h hr with ⟨hlt, hplace⟩ | ⟨hsame, hfree⟩
    · rw [hplace.serverCompletionQueue] at hshut
      have hkeep : p.queueShutdown (p.server.rpcs r).serverCompletionQueue = true →
          Settled (p'.server.part r) := fun hbefore =>
        acts_part (fun c m c' hc hset hstep => hset.step hc hstep) hs h hlt (ih r hlt hbefore)
      cases h with
      | @shutdownQueue cq hstage _ =>
        by_cases hcq : (p.server.rpcs r).serverCompletionQueue = cq
        · have hservice := reachable_service hs hlt
          rw [← process_numServices hreach] at hservice
          refine settled_of_woundUp (reachable_part hs hlt) ?_ (hidle cq rfl hstage r hlt hcq)
          exact hstaged.stopped _ hservice (by rw [hstage]; trivial)
        · exact hkeep (by simpa [hcq] using hshut)
      | _ => exact hkeep hshut
    · rw [hsame, hfree] at hshut
      cases hshut

/-- A step leaves gRPC with no more operations of a settled `Rpc` than before. -/
lemma Settled.inFlight_le {c c' : Part Req Resp} (h : Settled c)
    (hc : (partSystem Req Resp).Reachable c) {m : PartLabel Req Resp} (hstep : c.step m = some c')
    (tag : Tag) : c'.rpc.inFlight tag ≤ c.rpc.inFlight tag := by
  cases step_does hstep with
  | @next tag' ok request _ _ =>
    simp only [Rpc.returnTag, update_apply]
    split
    · rename_i htag
      subst htag
      exact Nat.sub_le _ _
    · exact le_rfl
  | exec hcode hrun =>
    rw [Part.apply_rpc, (h.run hc hcode hrun).2.1]
  | stepWriter _ hwriter =>
    rw [Part.apply_rpc, (writerStep_books hwriter).inFlight]
  | pushToEventQueue _ | pop _ _ | callWriter _ | stopServing => exact le_rfl

/-- As long as `Shutdown` is called only on completion queues whose `Rpc`s are wound up, no step
starts an operation on a completion queue that is shut down. -/
theorem nothing_started_after_shutdown
    (hp : (processSystem Req Resp options maps).Reach ShutsDownIdle p)
    (hstep : p.step l = some p') : NothingStarted p p' := by
  intro r hr hshut
  have hs := process_server hp
  have hset := process_settled hp
  have hacts := step_acts hstep
  rcases acts_place hs hset hacts hr with ⟨hlt, hplace⟩ | ⟨-, hfree⟩
  · rw [hplace.serverCompletionQueue] at hshut
    have hkeep := acts_part (P := fun c => Settled c ∧
        ∀ tag, c.rpc.inFlight tag ≤ (p.server.rpcs r).inFlight tag) ?_ hs hacts hlt
      ⟨hset r hlt hshut, fun _ => le_rfl⟩
    · exact ⟨hlt, hkeep.2⟩
    · rintro c m c' hc ⟨h, hle⟩ hpart
      exact ⟨h.step hc hpart, fun tag => (h.inFlight_le hc hpart tag).trans (hle tag)⟩
  · rw [hfree] at hshut
    cases hshut

end Process

/-- The call of the first `Rpc` ends, and `Server::Shutdown` of a server with one service is about
to shut the completion queue down. -/
def untilQueueShutdown : List (ProcessLabel Nat Nat) :=
  [.endCall 0, .shutdown, .shutdown, .shutdown, .shutdown]

/-- A check that admits no `Shutdown` of a completion queue. -/
def beforeQueueShutdown (p : Process Nat Nat) (l : ProcessLabel Nat Nat) : Bool :=
  match l, p.stage with
  | .shutdown, .shutdownQueue _ => false
  | _, _ => true

lemma beforeQueueShutdown_sound (p : Process Nat Nat) (l : ProcessLabel Nat Nat)
    (h : beforeQueueShutdown p l = true) : ShutsDownIdle p l := by
  rintro cq rfl hstage
  simp [beforeQueueShutdown, hstage] at h

/-- With one event thread that is idle, no thread is at work. -/
lemma idle_of_one_thread {s : Server Req Resp}
    (hs : (serverSystem Req Resp oneEventThread maps).Reachable s)
    (hidle : (s.tasks 0).code = []) (t : Nat) : (s.tasks t).code = [] := by
  by_contra hcode
  obtain ⟨hr, e, he⟩ := (reachable_housed hs).tasks t hcode
  have hlt : t < 1 := by
    rw [he]
    exact reachable_home_lt hs hr e
  obtain rfl : t = 0 := by omega
  exact hcode hidle

theorem nothing_started_of_run :
    ∃ p p', (processSystem Nat Nat oneEventThread sumService).Reach ShutsDownIdle p ∧
      p.queueShutdown 0 = true ∧
      p.step (.server (.next 0 1 .newConnection false none)) = some p' ∧ NothingStarted p p' := by
  obtain ⟨p, hp, htest⟩ := exists_process oneEventThread sumService beforeQueueShutdown
    beforeQueueShutdown_sound
    (served (openConnection ++ closeConnection ++ execs 1) ++ untilQueueShutdown)
    (fun p => (p.server.tasks 0).code = [] ∧ p.server.nextRpc = 2 ∧
      (p.server.rpcs 1).handler = false ∧ (p.server.part 0).alive = false ∧
      (∀ tag ∈ Tag.all, isRegistered tag = true ∨ (p.server.rpcs 0).inFlight tag = 0) ∧
      waiting (p.server.part 0) = [] ∧
      (p.step .shutdown).any (fun p₁ => p₁.queueShutdown 0 &&
        (p₁.step (.server (.next 0 1 .newConnection false none))).isSome) = true)
    (by decide +kernel)
  obtain ⟨hidle, hnext, hlistening, hdead, hflight, hwaiting, hstep⟩ := of_decide_eq_true htest
  obtain ⟨p₁, hstep, hafter⟩ := (Option.any_eq_true _ _).mp hstep
  obtain ⟨hshut, hreturn⟩ := Bool.and_eq_true_iff.mp hafter
  obtain ⟨p', hreturn⟩ := Option.isSome_iff_exists.mp hreturn
  have hcode : ∀ r t, (p.server.part r).code t = [] := by
    intro r t
    simp [Server.part, idle_of_one_thread (process_server hp) hidle t]
  have hguard : ShutsDownIdle p .shutdown := by
    intro cq _ _ r hr _
    refine ⟨hcode r, fun hhandler => ?_⟩
    obtain rfl : r = 0 := by
      by_contra hne
      obtain rfl : r = 1 := by omega
      exact absurd (hlistening.symm.trans hhandler) Bool.false_ne_true
    refine ⟨hdead, fun tag htag => ⟨?_, by simp [hwaiting]⟩⟩
    refine (hflight tag tag.mem_all).resolve_left ?_
    simp [htag]
  have hp₁ : (processSystem Nat Nat oneEventThread sumService).Reach ShutsDownIdle p₁ :=
    .step hp hguard hstep
  exact ⟨p₁, p', hp₁, hshut, hreturn, nothing_started_after_shutdown hp₁ hreturn⟩

/-- The event thread is past the test of `HandleNewConnection` when the client cancels the call
and `Server::Shutdown` shuts the completion queue down. It then registers the clone with it. -/
theorem clone_on_shutdown_queue :
    ∃ p p', (processSystem Nat Nat oneEventThread sumService).Reachable p ∧
      p.queueShutdown 0 = true ∧ p.step (.server (.exec 0 [])) = some p' ∧
      p.server.nextRpc = 1 ∧ p'.server.nextRpc = 2 ∧
      (p'.server.rpcs 1).serverCompletionQueue = 0 ∧ (p'.server.rpcs 1).inFlight .newConnection = 1 ∧
      ¬NothingStarted p p' := by
  obtain ⟨p, hp, htest⟩ := exists_process oneEventThread sumService (G := fun _ _ => True)
    (fun _ _ => true) (fun _ _ _ => trivial)
    (served (event .newConnection true none ++ execs 2) ++ untilQueueShutdown ++
      .shutdown :: served (execs 3))
    (fun p => p.queueShutdown 0 = true ∧ p.server.nextRpc = 1 ∧
      (p.step (.server (.exec 0 []))).any (fun p' => p'.server.nextRpc = 2 ∧
        (p'.server.rpcs 1).serverCompletionQueue = 0 ∧
        (p'.server.rpcs 1).inFlight .newConnection = 1) = true) (by decide +kernel)
  obtain ⟨hshut, hnext, hstep⟩ := of_decide_eq_true htest
  obtain ⟨p', hstep, hafter⟩ := (Option.any_eq_true _ _).mp hstep
  obtain ⟨hnext', hcq, hflight⟩ := of_decide_eq_true hafter
  refine ⟨p, p', hp, hshut, hstep, hnext, hnext', hcq, hflight, fun hnothing => ?_⟩
  have hlt := (hnothing 1 (by omega) (by rw [hcq]; exact hshut)).1
  omega

end AsyncGrpc.Proofs
