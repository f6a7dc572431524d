import AsyncGrpc.Proofs.Keeping
import AsyncGrpc.Proofs.Lifetime
import AsyncGrpc.Proofs.ShutdownSteps

/-!
# What is left when `Server::Shutdown` has returned

An event thread leaves its loop at the first timeout after `shutting_down_` is set, whether or not
the completion queue threads are still pushing. As long as no event is pushed to a queue whose
thread has left, and no operation is started on a completion queue whose thread has left, every
event has been handled when `Server::Shutdown` returns and all `ActiveRpcs` are empty.
-/

namespace AsyncGrpc.Proofs

open Function Transition

variable {Req Resp : Type} {options : Options} {maps : List (List (String × RpcHandlerInfo))}

/-! ### Pushes and starts of a server step -/

/-- The event queue that the step pushes an event to. -/
def pushTarget (s : Server Req Resp) : Label Req Resp → Option Nat
  | .pushToEventQueue cq => (s.inHand cq).map (fun p => ((s.rpcs p.1).event p.2.1).eventQueue)
  | .exec t _ =>
    match (s.tasks t).code with
    | .pushWriteNeeded :: _ => some (s.rpcs (s.tasks t).rpc).eventQueue
    | _ => none
  | .stepWriter r i =>
    match ((s.writers r)[i]?).map WriterCall.pc with
    | some .lookedUp => some (s.rpcs r).eventQueue
    | _ => none
  | _ => none

/-- The completion queue that the step starts an operation on. -/
def startTarget (s : Server Req Resp) : Label Req Resp → Option Nat
  | .exec t _ =>
    match (s.tasks t).code with
    | i :: _ =>
      let x := s.rpcs (s.tasks t).rpc
      if starts x i then some x.serverCompletionQueue else none
    | [] => none
  | _ => none

section Server

variable {s s' : Server Req Resp} {l : Label Req Resp}

lemma run_effect_push {i : Instr Resp} {env : Surroundings} {acts : List (HandlerAction Resp)}
    {x : Rpc Req Resp} {o : Outcome Req Resp} (h : i.run env acts x = some o)
    (he : o.effect = .pushWriteNeeded) : i = .pushWriteNeeded := by
  cases run_runs h with
  | pushWriteNeeded => rfl
  | _ => cases he

lemma writerStep_push {w w' : WriterCall Resp} {env : Surroundings} {x y : Rpc Req Resp}
    {effect : Effect} (h : w.step env x = some (y, w', effect)) (he : effect = .pushWriteNeeded) :
    w.pc = .lookedUp := by
  unfold WriterCall.step at h
  split at h <;> (try split at h) <;> cases h <;> first | assumption | cases he

lemma apply_queue (r : Nat) (effect : Effect) (q : Nat) :
    (s.apply r effect).eventQueues q = s.eventQueues q ∨
      (effect = .pushWriteNeeded ∧ q = (s.rpcs r).eventQueue ∧
        ∃ e, (s.apply r effect).eventQueues q = s.eventQueues q ++ [e]) := by
  rw [apply_eventQueues]
  split
  · rename_i he
    by_cases hq : q = (s.rpcs r).eventQueue
    · subst hq
      exact .inr ⟨he, rfl, _, update_self _ _ _⟩
    · exact .inl (update_of_ne hq _ _)
  · exact .inl rfl

/-- A step of the server leaves a queue alone, pops its first event or pushes one to it. -/
lemma step_queue (h : s.step l = some s') (q : Nat) :
    s'.eventQueues q = s.eventQueues q ∨
      (l = .pop q ∧ ∃ e, s.eventQueues q = e :: s'.eventQueues q) ∨
      (pushTarget s l = some q ∧ ∃ e, s'.eventQueues q = s.eventQueues q ++ [e]) := by
  cases (step_moves h).2 with
  | @pushToEventQueue cq r tag ok hhand =>
    by_cases hq : q = ((s.rpcs r).event tag).eventQueue
    · subst hq
      exact .inr (.inr ⟨by simp [pushTarget, hhand], _, update_self _ _ _⟩)
    · exact .inl (update_of_ne hq _ _)
  | @pop t e rest hidle hqueue ht =>
    by_cases hq : q = t
    · subst hq
      refine .inr (.inl ⟨rfl, e, ?_⟩)
      rw [hqueue]
      simp [Server.setTask, Server.setEventQueue]
    · exact .inl (update_of_ne hq _ _)
  | @exec t acts r i rest o htask hrun =>
    rcases apply_queue (s := (s.setRpc r o.rpc).setTask t ⟨r, o.next ++ rest⟩) r o.effect q with
      hsame | ⟨heffect, hq, he⟩
    · exact .inl hsame
    · obtain rfl := run_effect_push hrun heffect
      cases hrun
      refine .inr (.inr ⟨?_, he⟩)
      simp [pushTarget, htask, hq, Server.setRpc, Server.setTask]
  | @stepWriter r i w w' x effect hw hret hstep =>
    rcases apply_queue (s := (s.setRpc r x).setWriters r ((s.writers r).set i w')) r effect q with
      hsame | ⟨heffect, hq, he⟩
    · exact .inl hsame
    · have hpc := writerStep_push hstep heffect
      have hsame := (writerStep_samePlace hstep).eventQueue
      refine .inr (.inr ⟨?_, he⟩)
      simp [pushTarget, hw, hpc, hq, Server.setRpc, Server.setWriters, hsame]
  | _ => exact .inl rfl

/-- A step of the server takes up an event of a thread's queue or goes on with what it handles. -/
lemma step_task (h : s.step l = some s') {t : Nat} (hidle : (s.tasks t).code = []) :
    l = .pop t ∨ s'.tasks t = s.tasks t := by
  cases (step_moves h).2 with
  | @pop t' e rest _ _ _ =>
    by_cases ht : t = t'
    · exact .inl (by rw [ht])
    · exact .inr (update_of_ne ht _ _)
  | @exec t' acts r i rest o htask hrun =>
    have ht : t ≠ t' := by
      rintro rfl
      simp [htask] at hidle
    rw [apply_tasks]
    exact .inr (update_of_ne ht _ _)
  | stepWriter _ _ _ =>
    rw [apply_tasks]
    exact .inr rfl
  | _ => exact .inr rfl

lemma step_inHand (h : s.step l = some s') {cq : Nat} (hfree : s.inHand cq = none) :
    (∃ r tag ok request, l = .next cq r tag ok request) ∨ s'.inHand cq = none := by
  cases (step_moves h).2 with
  | @next cq' r tag ok request _ _ _ _ _ =>
    by_cases hcq : cq = cq'
    · exact .inl ⟨r, tag, ok, request, by rw [hcq]⟩
    · exact .inr ((update_of_ne hcq _ _).trans hfree)
  | @pushToEventQueue cq' r tag ok hhand =>
    right
    by_cases hcq : cq = cq'
    · subst hcq
      exact update_self _ _ _
    · exact (update_of_ne hcq _ _).trans hfree
  | exec _ _ | stepWriter _ _ _ =>
    rw [apply_inHand]
    exact .inr hfree
  | _ => exact .inr hfree

lemma owed_congr {x y : Rpc Req Resp} (hflight : y.inFlight = x.inFlight)
    (hconn : y.connected = x.connected) (tag : Tag) : y.owed tag = x.owed tag := by
  simp only [Rpc.owed, hflight, hconn]

lemma setRpc_owed {r r' : Nat} {y : Rpc Req Resp} (hflight : y.inFlight = (s.rpcs r').inFlight)
    (hconn : y.connected = (s.rpcs r').connected) (tag : Tag) :
    ((s.setRpc r' y).rpcs r).owed tag = (s.rpcs r).owed tag := by
  simp only [Server.setRpc, update_apply]
  split
  · rename_i hr
    subst hr
    exact owed_congr hflight hconn tag
  · rfl

/-- gRPC comes to owe a tag of an `Rpc` only by a step that starts an operation on its completion
queue or returns a tag of it. -/
lemma step_owed (h : s.step l = some s') {r : Nat} (hr : r < s'.nextRpc) {tag : Tag}
    (howed : (s'.rpcs r).owed tag = true) :
    (∃ r' tag' ok request, l = .next (s'.rpcs r).serverCompletionQueue r' tag' ok request) ∨
      startTarget s l = some (s'.rpcs r).serverCompletionQueue ∨
      (r < s.nextRpc ∧ (s'.rpcs r).serverCompletionQueue = (s.rpcs r).serverCompletionQueue ∧
        (s.rpcs r).owed tag = true) := by
  rcases step_place h hr with ⟨hlt, hplace⟩ | ⟨t, acts, r', rest, rfl, htask, hplace⟩
  · have hcq := hplace.serverCompletionQueue
    rw [hcq]
    -- it is enough that the step changes nothing gRPC holds of the `Rpc`
    have hkeep : (s'.rpcs r).owed tag = (s.rpcs r).owed tag →
        r < s.nextRpc ∧ (s.rpcs r).serverCompletionQueue = (s.rpcs r).serverCompletionQueue ∧
          (s.rpcs r).owed tag = true := fun he => ⟨hlt, rfl, he.symm.trans howed⟩
    cases (step_moves h).2 with
    | @next cq r' tag' ok request _ _ _ hplace' _ =>
      by_cases hrr : r = r'
      · subst hrr
        exact .inl ⟨r, tag', ok, request, by rw [hplace']⟩
      · exact .inr (.inr (hkeep (by simp [Server.setInHand, Server.setRpc, hrr])))
    | @pushToEventQueue cq r' tag' ok _ =>
      have hsame : ((s.setRpc r' ((s.rpcs r').setOk tag' ok)).rpcs r).owed tag =
          (s.rpcs r).owed tag := by
        apply setRpc_owed <;> rfl
      exact .inr (.inr (hkeep hsame))
    | @exec t acts r' i rest o htask hrun =>
      rw [apply_rpcs _ _ _ (by exact hlt)] at hkeep
      cases hstarts : starts (s.rpcs r') i with
      | false =>
        refine .inr (.inr (hkeep (setRpc_owed (s := s) (run_starts hrun hstarts) ?_ tag)))
        exact (run_books hrun).connected
      | true =>
        by_cases hrr : r = r'
        · subst hrr
          exact .inr (.inl (by simp [startTarget, htask, hstarts]))
        · exact .inr (.inr (hkeep (by simp [Server.setTask, Server.setRpc, hrr])))
    | stepWriter _ _ hstep =>
      rw [apply_rpcs _ _ _ (by exact hlt)] at hkeep
      have hbooks := writerStep_books hstep
      exact .inr (.inr (hkeep (setRpc_owed (s := s) hbooks.inFlight hbooks.connected tag)))
    | _ => exact .inr (.inr (hkeep rfl))
  · rw [hplace]
    exact .inr (.inl (by simp [startTarget, htask, starts]))

end Server

/-! ### Threads that have left -/

/-- No event is pushed to a queue whose thread has left, and no operation is started on a
completion queue whose thread has left. -/
def InTime (p : Process Req Resp) : ProcessLabel Req Resp → Prop
  | .server l => (∀ q, pushTarget p.server l = some q → p.loops q ≠ .left) ∧
      ∀ cq, startTarget p.server l = some cq → p.queueLeft cq = false
  | _ => True

section Process

variable {p : Process Req Resp}

lemma update_left {loops : Nat → EventLoop} {t t' : Nat} {loop : EventLoop} (hloop : loop ≠ .left)
    (h : update loops t' loop t = .left) : loops t = .left := by
  have hne : t ≠ t' := by
    rintro rfl
    exact hloop (by simpa using h)
  simpa [hne] using h

lemma poppedBy_of_ne {l : Label Req Resp} {q : Nat} (h : l ≠ .pop q) : p.poppedBy l q = [] := by
  cases l with
  | pop t =>
    have hne : q ≠ t := by
      rintro rfl
      exact h rfl
    simp [Process.poppedBy, hne]
  | _ => rfl

/-- What was popped from a queue, followed by what is in it, is what was pushed to it. -/
lemma process_pushed {G : Process Req Resp → ProcessLabel Req Resp → Prop}
    (hp : (processSystem Req Resp options maps).Reach G p) (q : Nat) :
    p.popped q ++ p.server.eventQueues q = p.pushed q := by
  apply process_invariant (P := fun p => p.popped q ++ p.server.eventQueues q = p.pushed q) _ _ hp
  · exact start_quiet_housed.1.eventQueues q
  · intro p l p' _ ih _ h
    cases h with
    | @server l s _ hstep =>
      change (p.popped q ++ p.poppedBy l q) ++ s.eventQueues q =
        p.pushed q ++ (s.eventQueues q).drop (p.server.eventQueues q).length
      rw [← ih]
      by_cases hl : l = .pop q
      · subst hl
        cases (step_moves hstep).2 with
        | @pop _ e rest _ hqueue _ =>
          simp [Process.poppedBy, hqueue, Server.setTask, Server.setEventQueue]
      · rw [poppedBy_of_ne hl, List.append_nil]
        rcases step_queue hstep q with hsame | ⟨hpop, -⟩ | ⟨-, e, hpush⟩
        · simp [hsame]
        · exact absurd hpop hl
        · simp [hpush]
    | _ => exact ih

/-- A thread that has left has nothing to handle any more. -/
lemma process_left (hp : (processSystem Req Resp options maps).Reach InTime p) :
    ∀ t, p.loops t = .left → p.server.eventQueues t = [] ∧ (p.server.tasks t).code = [] := by
  apply process_invariant (P := fun p => ∀ t, p.loops t = .left →
    p.server.eventQueues t = [] ∧ (p.server.tasks t).code = []) _ _ hp
  · intro t h
    cases h
  · intro p l p' _ ih hg h t hleft
    cases h with
    | @server l s hadmits hstep =>
      have hbefore : p.loops t = .left := loopsAfter_left.mp hleft
      obtain ⟨hempty, hidle⟩ := ih t hbefore
      have hpop : l ≠ .pop t := by
        rintro rfl
        simp only [Process.admits] at hadmits
        rw [hbefore] at hadmits
        cases hadmits
      constructor
      · rcases step_queue hstep t with hsame | ⟨hl, -⟩ | ⟨htarget, -⟩
        · exact hsame.trans hempty
        · exact absurd hl hpop
        · exact absurd hbefore (hg.1 t htarget)
      · have hsame := (step_task hstep hidle).resolve_left hpop
        rw [hsame]
        exact hidle
    | @test t' hloop =>
      refine ih t (update_left ?_ hleft)
      split <;> simp
    | @timeout t' hloop => exact ih t (update_left (by simp) hleft)
    | @leave t' hidle hqueue hloop =>
      by_cases ht : t = t'
      · subst ht
        exact ⟨hqueue, hidle⟩
      · exact ih t (by simpa [ht] using hleft)
    | _ => exact ih t hleft

lemma drained_iff {cq : Nat} : p.drained cq = true ↔ p.server.inHand cq = none ∧
    ∀ r < p.server.nextRpc, (p.server.rpcs r).serverCompletionQueue = cq →
      ∀ tag, (p.server.rpcs r).owed tag = false := by
  have hall : ∀ x : Rpc Req Resp,
      Tag.all.all (fun tag => !x.owed tag) = true ↔ ∀ tag, x.owed tag = false := by
    intro x
    simp only [List.all_eq_true, Bool.not_eq_true']
    exact ⟨fun h tag => h tag tag.mem_all, fun h tag _ => h tag⟩
  simp only [Process.drained, Bool.and_eq_true, decide_eq_true_eq, List.all_eq_true, List.mem_range,
    Bool.or_eq_true, hall, ← imp_iff_not_or]

/-- A completion queue whose thread has left stays drained. -/
lemma process_drained (hp : (processSystem Req Resp options maps).Reach InTime p) :
    ∀ cq, p.queueLeft cq = true → p.drained cq = true := by
  apply process_invariant (P := fun p => ∀ cq, p.queueLeft cq = true → p.drained cq = true) _ _ hp
  · intro cq h
    cases h
  · intro p l p' _ ih hg h cq hleft
    cases h with
    | @server l s hadmits hstep =>
      obtain ⟨hfree, hnone⟩ := drained_iff.mp (ih cq hleft)
      have hnext : ∀ r tag ok request, l ≠ .next cq r tag ok request := by
        rintro r tag ok request rfl
        have hbefore : p.queueLeft cq = true := hleft
        simp [Process.admits, hbefore] at hadmits
      refine drained_iff.mpr ⟨?_, fun r hr hcq tag => ?_⟩
      · refine (step_inHand hstep hfree).resolve_left ?_
        rintro ⟨r, tag, ok, request, hl⟩
        exact hnext r tag ok request hl
      · by_contra howed
        rcases step_owed hstep hr (by simpa using howed) with
          ⟨r', tag', ok, request, hl⟩ | hstart | ⟨hlt, hplace, howed⟩
        · exact hnext r' tag' ok request (hcq ▸ hl)
        · have hopen : p.queueLeft cq = false := hg.2 cq (hcq ▸ hstart)
          exact Bool.false_ne_true (hopen.symm.trans hleft)
        · rw [hnone r hlt (hplace.symm.trans hcq) tag] at howed
          cases howed
    | @nextFalse cq' _ hdrained =>
      by_cases hcq : cq = cq'
      · subst hcq
        exact hdrained
      · exact ih cq (by simpa [hcq] using hleft)
    | _ => exact ih cq hleft

/-- When `Server::Shutdown` has returned, no event is queued and no thread is at work. -/
lemma returned_idle (hp : (processSystem Req Resp options maps).Reach InTime p)
    (hret : p.stage = .returned) (t : Nat) :
    p.server.eventQueues t = [] ∧ (p.server.tasks t).code = [] := by
  have hs := process_server hp
  have hh := reachable_housed hs
  by_cases ht : t < options.numEventThreads
  · refine process_left hp t ((process_staged hp).threads t ?_)
    rw [hret, reachable_options hs]
    exact ht
  · -- nothing is ever pushed to a queue that is not there
    constructor
    · rw [List.eq_nil_iff_forall_not_mem]
      intro e he
      obtain ⟨hr, hhome⟩ := hh.queues t e he
      exact ht (hhome ▸ reachable_home_lt hs hr e)
    · by_contra hcode
      obtain ⟨hr, e, hhome⟩ := hh.tasks t hcode
      exact ht (hhome ▸ reachable_home_lt hs hr e)

lemma returned_drained (hp : (processSystem Req Resp options maps).Reach InTime p)
    (hret : p.stage = .returned) {r : Nat} (hr : r < p.server.nextRpc) :
    p.server.inHand (p.server.rpcs r).serverCompletionQueue = none ∧
      ∀ tag, (p.server.rpcs r).owed tag = false := by
  have hs := process_server hp
  have hleft : p.queueLeft (p.server.rpcs r).serverCompletionQueue = true := by
    refine (process_staged hp).queues _ ?_
    rw [hret, reachable_options hs]
    exact reachable_completionQueue hs hr
  obtain ⟨hfree, hnone⟩ := drained_iff.mp (process_drained hp _ hleft)
  exact ⟨hfree, hnone r hr rfl⟩

/-- As long as no event is pushed to a queue whose thread has left and no operation is started on
a completion queue whose thread has left, every event that was ever pushed has been handled when
`Server::Shutdown` has returned, all event queues are empty and so are all `ActiveRpcs`. -/
theorem shutdown_handles_everything
    (hp : (processSystem Req Resp options maps).Reach InTime p) (hret : p.stage = .returned) :
    (∀ q, p.server.eventQueues q = [] ∧ p.popped q = p.pushed q ∧ (p.server.tasks q).code = []) ∧
      (∀ r < p.server.nextRpc, (p.server.rpcs r).handled.map Prod.fst =
        (p.server.rpcs r).returned.map Prod.fst) ∧
      ∀ v, (p.server.services v).activeRpcs = ∅ := by
  have hs := process_server hp
  have hidle := returned_idle hp hret
  have hcode : ∀ r t, (p.server.part r).code t = [] := by
    intro r t
    simp [Server.part, (hidle t).2]
  have hwaiting : ∀ r < p.server.nextRpc, waiting (p.server.part r) = [] := by
    intro r hr
    simp [waiting, Server.part, (hidle _).1, (hidle _).2, (returned_drained hp hret hr).1]
  refine ⟨fun q => ⟨(hidle q).1, ?_, (hidle q).2⟩, fun r hr => ?_, fun v => ?_⟩
  · have hpushed := process_pushed hp q
    rwa [(hidle q).1, List.append_nil] at hpushed
  · have hordered := reachable_ordered (reachable_part hs hr)
    rwa [hwaiting r hr, List.append_nil] at hordered
  · rw [Finset.eq_empty_iff_forall_notMem]
    intro r hmem
    obtain ⟨hr, hservice⟩ := (reachable_housed hs).activeRpcs v r hmem
    have howed := (returned_drained hp hret hr).2
    have herased : (p.server.part r).active = false := by
      refine erased_of_nothing_left (reachable_part hs hr) (fun tag hheld => ?_) (hwaiting r hr)
        (hcode r)
      have hheld : 0 < (p.server.rpcs r).inFlight tag := hheld
      have hnot := howed tag
      simp only [Rpc.owed, hheld, decide_true, Bool.true_and, Bool.or_eq_false_iff] at hnot
      exact ⟨by simpa using hnot.1, of_decide_eq_false hnot.2⟩
    have hactive : (p.server.part r).active = true := by
      simp [Server.part, Server.active, hservice, hmem]
    exact Bool.false_ne_true (herased.symm.trans hactive)

end Process

def inTime (p : Process Nat Nat) : ProcessLabel Nat Nat → Bool
  | .server l => (pushTarget p.server l).all (fun q => p.loops q ≠ .left) &&
      (startTarget p.server l).all (fun cq => !p.queueLeft cq)
  | _ => true

lemma inTime_sound (p : Process Nat Nat) (l : ProcessLabel Nat Nat) (h : inTime p l = true) :
    InTime p l := by
  cases l with
  | server l =>
    obtain ⟨hpush, hstart⟩ := Bool.and_eq_true_iff.mp h
    refine ⟨fun q hq => ?_, fun cq hcq => ?_⟩
    · simpa [hq] using hpush
    · simpa [hcq] using hstart
  | _ => trivial

/-- The completion queue returns what it still holds of an `Rpc` that waits for a connection. -/
def drainQueue (r : Nat) : List (ProcessLabel Nat Nat) :=
  [.server (.next 0 r .newConnection false none), .server (.pushToEventQueue 0)]

/-- The thread of the completion queue leaves, and `Server::Shutdown` joins it and the event
thread. -/
def joinThreads : List (ProcessLabel Nat Nat) :=
  [.nextFalse 0, .shutdown, .shutdown, .shutdown, .shutdown]

/-- A call is served, and then the event thread drains its queue after the last push. -/
def orderlyShutdown : List (ProcessLabel Nat Nat) :=
  served (openConnection ++ closeConnection ++ execs 1) ++
    [.endCall 0, .shutdown, .shutdown, .shutdown, .shutdown, .shutdown] ++
    drainQueue 1 ++ served (.pop 0 :: execs 3) ++ [.timeout 0] ++ joinThreads

theorem shutdown_handles_everything_of_run :
    ∃ p, (processSystem Nat Nat oneEventThread sumService).Reach InTime p ∧ p.stage = .returned ∧
      (p.pushed 0).length = 4 ∧ p.popped 0 = p.pushed 0 ∧ p.server.eventQueues 0 = [] ∧
      (p.server.services 0).activeRpcs = ∅ := by
  obtain ⟨p, hp, htest⟩ := exists_process oneEventThread sumService inTime inTime_sound
    orderlyShutdown (fun p => p.stage = .returned ∧ (p.pushed 0).length = 4) (by decide +kernel)
  obtain ⟨hret, hlength⟩ := of_decide_eq_true htest
  obtain ⟨hqueues, -, hactive⟩ := shutdown_handles_everything hp hret
  exact ⟨p, hp, hret, hlength, (hqueues 0).2.1, (hqueues 0).1, hactive 0⟩

/-- The event thread sees `shutting_down_`, times out on its empty queue and leaves before the
completion queue is shut down and returns the outstanding `NEW_CONNECTION`. -/
def hastyShutdown : List (ProcessLabel Nat Nat) :=
  [.shutdown, .test 0, .timeout 0, .shutdown, .shutdown, .shutdown, .shutdown] ++ drainQueue 0 ++
    joinThreads

theorem event_left_by_shutdown :
    ∃ p, (processSystem Nat Nat oneEventThread sumService).Reachable p ∧ p.stage = .returned ∧
      p.server.eventQueues 0 = [.completion 0 .newConnection] ∧ p.popped 0 = [] ∧
      (p.server.services 0).activeRpcs = {0} := by
  obtain ⟨p, hp, htest⟩ := exists_process oneEventThread sumService (G := fun _ _ => True)
    (fun _ _ => true) (fun _ _ _ => trivial) hastyShutdown
    (fun p => p.stage = .returned ∧ p.server.eventQueues 0 = [.completion 0 .newConnection] ∧
      p.popped 0 = [] ∧ (p.server.services 0).activeRpcs = {0}) (by decide +kernel)
  exact ⟨p, hp, of_decide_eq_true htest⟩

end AsyncGrpc.Proofs
