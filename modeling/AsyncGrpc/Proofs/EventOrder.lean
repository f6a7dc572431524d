import AsyncGrpc.Proofs.PartSteps
import AsyncGrpc.Proofs.Routing

/-!
# The order in which the events of an `Rpc` are handled

The completion queue of an `Rpc` returns its tags to one thread, which pushes them to one queue,
and one event thread takes them out. What has been handled, followed by what is on its way, is
what was returned. This holds for any number of completion queues and event threads.
-/

namespace AsyncGrpc.Proofs

open Function Transition

variable {Req Resp : Type} {options : Options} {maps : List (List (String × RpcHandlerInfo))}

def handleTag : Instr Resp → Option Tag
  | .handle tag => some tag
  | _ => none

/-- The tags gRPC has returned whose `Handle` has not started, first in first out. -/
def waiting (c : Part Req Resp) : List Tag :=
  (c.code (queueOf c.rpc)).filterMap handleTag ++ (c.mailbox (queueOf c.rpc)).filterMap mailTag ++
    (c.inHand.map Prod.fst).toList

lemma handleTag_of_plain {i : Instr Resp} (h : isPlain i = true) : handleTag i = none := by
  cases i <;> first | rfl | cases h

lemma handleTag_handler (e : Mail) : handleTag (e.handler : Instr Resp) = mailTag e := by
  cases e <;> rfl

lemma handleEvent_handleTag (event : Event) (ok : Bool) :
    (Service.handleEvent event ok : List (Instr Resp)).filterMap handleTag = [] := by
  cases event <;> cases ok <;> rfl

/-- No instruction takes up an event: that is what `pop` does. -/
lemma run_next_handleTag {i : Instr Resp} {env : Surroundings} {acts : List (HandlerAction Resp)}
    {x : Rpc Req Resp} {o : Outcome Req Resp} (h : i.run env acts x = some o) :
    o.next.filterMap handleTag = [] := by
  cases run_runs h with
  | handle => exact handleEvent_handleTag _ _
  | handleNewConnection =>
    rw [List.filterMap_eq_nil_iff]
    exact fun j hj => handleTag_of_plain (handleNewConnection_plain _ _ j hj)
  | callback _ =>
    rw [List.filterMap_eq_nil_iff]
    exact fun j hj => handleTag_of_plain (isPlain_of_producer (instrs_producer acts j hj))
  | _ => rfl

lemma writerStep_books {w w' : WriterCall Resp} {env : Surroundings} {x y : Rpc Req Resp}
    {effect : Effect} (h : w.step env x = some (y, w', effect)) : SameBooks x y := by
  unfold WriterCall.step at h
  split at h <;> (try split at h) <;> cases h <;> exact ⟨rfl, rfl, rfl, rfl, rfl⟩

/-- A thread that takes up a completion queue event is the thread of their queue. -/
lemma Placed.thread_of_handle {c : Part Req Resp} (hp : Placed c) {t : Nat} {tag : Tag}
    (h : .handle tag ∈ c.code t) : t = queueOf c.rpc := by
  rcases hp.code t with hnil | ⟨-, ht⟩ | ⟨hcode, -⟩
  · simp [hnil] at h
  · exact ht
  · exfalso
    generalize c.code t = code at h hcode
    cases hcode with
    | handle => simp at h
    | shared hplain =>
      rcases List.mem_append.mp h with h | h
      · cases hplain _ h
      · simp at h

lemma RunBooks.returned {x y : Rpc Req Resp} {i : Instr Resp} (h : RunBooks x i y) :
    y.returned = x.returned := by
  cases h with
  | same _ h => exact h.returned
  | start tag _ h => exact h.returned
  | handle tag _ h => rw [h]; rfl

/-- An instruction moves the event it takes up, if any, from the code to the handled events. -/
lemma RunBooks.handled {x y : Rpc Req Resp} {i : Instr Resp} (h : RunBooks x i y) :
    y.handled.map Prod.fst = x.handled.map Prod.fst ++ (handleTag i).toList := by
  cases h with
  | same hi h =>
    have htag : handleTag i = none := by
      cases i <;> first | rfl | exact absurd rfl (hi _)
    simp [h.handled, htag]
  | start tag hi h =>
    have htag : handleTag i = none := by
      cases i <;> first | rfl | cases hi
    rw [h.handled, htag]
    exact (List.append_nil _).symm
  | handle tag hi h =>
    rw [h, hi]
    simp [Rpc.startHandling, handleTag]

lemma exec_ordered {c : Part Req Resp} (hp : Placed c) {t : Nat} {acts : List (HandlerAction Resp)}
    {i : Instr Resp} {rest : List (Instr Resp)} {o : Outcome Req Resp}
    (hcode : c.code t = i :: rest) (hrun : i.run c.surroundings acts c.rpc = some o) :
    (handleTag i).toList ++ (update c.code t (o.next ++ rest) (queueOf c.rpc)).filterMap handleTag =
      (c.code (queueOf c.rpc)).filterMap handleTag := by
  by_cases ht : queueOf c.rpc = t
  · subst ht
    rw [update_self, hcode, List.filterMap_append, run_next_handleTag hrun, List.filterMap_cons]
    cases handleTag i <;> simp
  · have htag : handleTag i = none := by
      cases i with
      | handle tag =>
        have hmem : .handle tag ∈ c.code t := by simp [hcode]
        exact absurd (hp.thread_of_handle hmem).symm ht
      | _ => rfl
    simp [htag, ht]

/-- What a part has handled, followed by what is on its way, is what gRPC returned. -/
theorem reachable_ordered {c : Part Req Resp} (hc : (partSystem Req Resp).Reachable c) :
    c.rpc.handled.map Prod.fst ++ waiting c = c.rpc.returned.map Prod.fst := by
  apply part_invariant
    (P := fun c => c.rpc.handled.map Prod.fst ++ waiting c = c.rpc.returned.map Prod.fst) _ _ hc
  · rintro c ⟨methodIndex, cq, queue, info, service, parent, eventQueue, shuttingDown, rfl⟩
    rfl
  · intro c m c' hr ih h
    have hp := reachable_placed hr
    cases h with
    | @next tag ok request hhand hmay =>
      have hq : queueOf (c.rpc.returnTag tag ok request) = queueOf c.rpc := rfl
      simp only [waiting, hhand, hq] at ih ⊢
      simp [Rpc.returnTag, ← ih]
    | @pushToEventQueue tag ok hhand =>
      have hq : queueOf (c.rpc.setOk tag ok) = queueOf c.rpc := (setOk_samePlace _ _ _).queueOf
      simp only [waiting, hhand, Part.push, hq, hp.event tag] at ih ⊢
      simpa [mailTag, Rpc.setOk] using ih
    | @pop t e rest hidle hmail =>
      simp only [waiting] at ih ⊢
      by_cases ht : queueOf c.rpc = t
      · subst ht
        rw [hidle, hmail] at ih
        rw [update_self, update_self, ← ih]
        simp [List.filterMap_cons, handleTag_handler]
        cases mailTag e <;> simp
      · simpa [ht] using ih
    | @exec t acts i rest o hcode hrun =>
      have hbooks := run_books hrun
      have hq := (run_samePlace hrun).queueOf
      have hcodes := exec_ordered hp hcode hrun
      simp only [waiting, Part.apply_rpc, Part.apply_code, Part.apply_inHand,
        filterMap_mailTag_apply, hq, hbooks.returned, hbooks.handled] at ih ⊢
      rw [← hcodes] at ih
      simpa using ih
    | stepWriter _ hstep =>
      have hbooks := writerStep_books hstep
      have hq := (writerStep_samePlace hstep).queueOf
      simp only [waiting] at ih ⊢
      simpa [hq, hbooks.handled, hbooks.returned] using ih
    | callWriter _ | stopServing => exact ih

/-- A step puts the tag it returns, if any, behind the waiting ones and takes the tag whose
handling it starts, if any, from the front. -/
lemma waiting_step {c c' : Part Req Resp} {m : PartLabel Req Resp}
    (hc : (partSystem Req Resp).Reachable c) (hstep : c.step m = some c') :
    ∃ returned taken : Option Tag, waiting c ++ returned.toList = taken.toList ++ waiting c' ∧
      (∀ tag, returned = some tag → ∃ ok request, m = .next tag ok request) ∧
      ∀ tag, taken = some tag → ∃ t acts rest, m = .exec t acts ∧ c.code t = .handle tag :: rest := by
  have hc' : (partSystem Req Resp).Reachable c' := .step hc trivial hstep
  have hbefore := reachable_ordered hc
  have hafter := reachable_ordered hc'
  -- both sides follow what was handled before the step
  have hcancel : ∀ returned taken : Option Tag,
      c'.rpc.returned.map Prod.fst = c.rpc.returned.map Prod.fst ++ returned.toList →
      c'.rpc.handled.map Prod.fst = c.rpc.handled.map Prod.fst ++ taken.toList →
      waiting c ++ returned.toList = taken.toList ++ waiting c' := by
    intro returned taken hr hh
    rw [hr, hh, ← hbefore, List.append_assoc, List.append_assoc] at hafter
    exact (List.append_cancel_left hafter).symm
  cases step_does hstep with
  | @next tag ok request _ _ =>
    refine ⟨some tag, none, hcancel _ _ (by simp [Rpc.returnTag]) (List.append_nil _).symm, ?_,
      by simp⟩
    rintro _ ⟨⟩
    exact ⟨ok, request, rfl⟩
  | @exec t acts i rest o hcode hrun =>
    have hbooks := run_books hrun
    refine ⟨none, handleTag i, hcancel _ _ ?_ ?_, by simp, fun tag htag => ?_⟩
    · rw [Part.apply_rpc, hbooks.returned]
      exact (List.append_nil _).symm
    · rw [Part.apply_rpc, hbooks.handled]
    · obtain rfl : i = .handle tag := by cases i <;> simp_all [handleTag]
      exact ⟨t, acts, rest, rfl, hcode⟩
  | stepWriter _ hwriter =>
    have hbooks := writerStep_books hwriter
    refine ⟨none, none, hcancel _ _ ?_ ?_, by simp, by simp⟩
    · rw [Part.apply_rpc, hbooks.returned]
      exact (List.append_nil _).symm
    · rw [Part.apply_rpc, hbooks.handled]
      exact (List.append_nil _).symm
  | pushToEventQueue _ | pop _ _ | callWriter _ | stopServing =>
    exact ⟨none, none, hcancel _ _ (List.append_nil _).symm (List.append_nil _).symm, by simp,
      by simp⟩

/-- The instructions by which a `WRITE_NEEDED` event is told from a completion queue event. -/
def isInternal : Instr Resp → Bool
  | .handleInternal | .releaseShared => true
  | _ => false

/-- The thread is handling a completion queue event of the `Rpc`. -/
def HandlesCompletion (s : Server Req Resp) (t r : Nat) : Prop :=
  (s.tasks t).rpc = r ∧ (s.tasks t).code ≠ [] ∧ ∀ i ∈ (s.tasks t).code, isInternal i = false

lemma InternalCode.isInternal {code : List (Instr Resp)} (h : InternalCode code) :
    ∃ i ∈ code, isInternal i = true := by
  cases h with
  | handle => exact ⟨.handleInternal, by simp, rfl⟩
  | shared _ => exact ⟨.releaseShared, by simp, rfl⟩

lemma thread_of_handlesCompletion {s : Server Req Resp}
    (hs : (serverSystem Req Resp options maps).Reachable s) {t r : Nat}
    (h : HandlesCompletion s t r) : t = queueOf (s.rpcs r) := by
  obtain ⟨rfl, hcode, hint⟩ := h
  have hr := ((reachable_housed hs).tasks t hcode).1
  have hpart : (s.part (s.tasks t).rpc).code t = (s.tasks t).code := if_pos rfl
  have hp := (reachable_placed (reachable_part hs hr)).code t
  rw [hpart] at hp
  rcases hp with hnil | ⟨-, ht⟩ | ⟨hinternal, -⟩
  · exact absurd hnil hcode
  · exact ht
  · obtain ⟨i, hi, htrue⟩ := hinternal.isInternal
    rw [hint i hi] at htrue
    cases htrue

/-- For any number of threads, services and `Rpc`s: the completion queue events of an `Rpc` are
handled in the order in which `Next` returned them, and no two of them at the same time. -/
theorem event_order {s : Server Req Resp}
    (hs : (serverSystem Req Resp options maps).Reachable s) {r : Nat} (hr : r < s.nextRpc) :
    (s.rpcs r).handled.map Prod.fst <+: (s.rpcs r).returned.map Prod.fst ∧
      ∀ t t', HandlesCompletion s t r → HandlesCompletion s t' r → t = t' := by
  refine ⟨⟨waiting (s.part r), reachable_ordered (reachable_part hs hr)⟩, fun t t' ht ht' => ?_⟩
  rw [thread_of_handlesCompletion hs ht, thread_of_handlesCompletion hs ht']

/-- Two event threads and a clone whose events go to different queues. -/
theorem event_order_of_run :
    ∃ s, (serverSystem Nat Nat twoEventThreads sequenceService).Reachable s ∧ 1 < s.nextRpc ∧
      (s.rpcs 1).returned.map Prod.fst = [.newConnection, .done] ∧
      (s.rpcs 1).handled.map Prod.fst = [.newConnection] ∧
      (s.rpcs 1).handled.map Prod.fst <+: (s.rpcs 1).returned.map Prod.fst := by
  obtain ⟨s, hs, hp⟩ := exists_reachable twoEventThreads sequenceService
    (firstConnection ++ [.next 0 1 .newConnection true (some 3), .pushToEventQueue 0, .pop 1] ++
      List.replicate 2 (.exec 1 []) ++ [.next 0 1 .done true none])
    (fun s => 1 < s.nextRpc ∧ (s.rpcs 1).returned.map Prod.fst = [.newConnection, .done] ∧
      (s.rpcs 1).handled.map Prod.fst = [.newConnection]) (by decide +kernel)
  obtain ⟨hlt, hreturned, hhandled⟩ := of_decide_eq_true hp
  exact ⟨s, hs, hlt, hreturned, hhandled, (event_order hs hlt).1⟩

end AsyncGrpc.Proofs
