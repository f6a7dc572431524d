import AsyncGrpc.ClientProcess
import AsyncGrpc.Proofs.AsyncClients

/-!
# Clients on shared queues keep to themselves

Each client of a process takes the steps of a client that has its queue to itself, whatever the
other clients and the threads do. Its handlers run on the thread of its own queue, one at a time.
-/

namespace AsyncGrpc.Proofs

open Function

variable {Resp : Type} {numQueues : Nat}

/-! ### The steps of a process -/

/-- The steps of a process that has no fault. -/
inductive ProcessMoves (numQueues : Nat) (s : ClientProcess Resp) :
    ClientProcessLabel Resp → ClientProcess Resp → Prop
  | construct {q : Nat} {streaming : Bool} {response : Resp} (hq : q < numQueues)
      (hopen : s.shutdown = none) : ProcessMoves numQueues s (.construct q streaming response)
        { s with clients := s.clients ++ [⟨q, .new streaming response⟩] }
  | writeAsync {k : Nat} {p : PooledClient Resp} (hp : s.clients[k]? = some p)
      (hnew : p.client.written = false) (hup : (s.queues p.queue).shutDown = false) :
      ProcessMoves numQueues s (.writeAsync k) (s.setClient k p p.client.writeAsync)
  | writeFault {k : Nat} {p : PooledClient Resp} (hp : s.clients[k]? = some p)
      (hnew : p.client.written = false) (hdown : (s.queues p.queue).shutDown = true) :
      ProcessMoves numQueues s (.writeAsync k) { s with fault := some k }
  | complete {k : Nat} {p : PooledClient Resp} {outcome : ClientOutcome Resp} {client : AsyncClient Resp}
      (hp : s.clients[k]? = some p) (hc : p.client.complete outcome = some client) :
      ProcessMoves numQueues s (.complete k outcome) (s.setClient k p client)
  | next {k : Nat} {p : PooledClient Resp} {client : AsyncClient Resp}
      (hp : s.clients[k]? = some p) (hidle : (s.queues p.queue).handling = none)
      (hon : (s.queues p.queue).exited = false) (hc : p.client.next = some client) :
      ProcessMoves numQueues s (.next p.queue k) ((s.setClient k p client).setQueue p.queue
        { s.queues p.queue with handling := some k })
  | ret {q k : Nat} {p : PooledClient Resp} (hh : (s.queues q).handling = some k)
      (hp : s.clients[k]? = some p) (htask : p.client.task = []) :
      ProcessMoves numQueues s (.exec q) (s.setQueue q { s.queues q with handling := none })
  | exec {q k : Nat} {p : PooledClient Resp} {instr : ClientInstr} {task : List ClientInstr}
      {client : AsyncClient Resp} (hh : (s.queues q).handling = some k)
      (hp : s.clients[k]? = some p) (htask : p.client.task = instr :: task)
      (hmay : instr.starts = true → (s.queues q).shutDown = false)
      (hc : p.client.exec = some client) :
      ProcessMoves numQueues s (.exec q) (s.setClient k p client)
  | execFault {q k : Nat} {p : PooledClient Resp} {instr : ClientInstr} {task : List ClientInstr}
      (hh : (s.queues q).handling = some k) (hp : s.clients[k]? = some p)
      (htask : p.client.task = instr :: task) (hstarts : instr.starts = true)
      (hdown : (s.queues q).shutDown = true) :
      ProcessMoves numQueues s (.exec q) { s with fault := some k }
  | callShutdown (hopen : s.shutdown = none) :
      ProcessMoves numQueues s .callShutdown { s with shutdown := some 0 }
  | shutdownQueue {i : Nat} (hi : s.shutdown = some i) (hlt : i < numQueues)
      (hup : (s.queues i).shutDown = false) : ProcessMoves numQueues s .shutdownQueue
        (s.setQueue i { s.queues i with shutDown := true })
  | nextFalse {q : Nat} (hdown : (s.queues q).shutDown = true)
      (hidle : (s.queues q).handling = none) (hon : (s.queues q).exited = false)
      (hdrained : s.drained q = true) : ProcessMoves numQueues s (.nextFalse q)
        (s.setQueue q { s.queues q with exited := true })
  | join {i : Nat} (hi : s.shutdown = some i) (hlt : i < numQueues)
      (hexited : (s.queues i).exited = true) :
      ProcessMoves numQueues s .join { s with shutdown := some (i + 1) }

variable {s s' : ClientProcess Resp} {l : ClientProcessLabel Resp}

lemma writeAsync_moves {k : Nat} (h : s.writeAsync k = some s') :
    ProcessMoves numQueues s (.writeAsync k) s' := by
  obtain ⟨p, hp, h⟩ := Option.bind_eq_some_iff.mp h
  split at h
  · cases h
  rename_i hnew
  rw [Bool.not_eq_true] at hnew
  split at h
  · rename_i hdown
    cases h
    exact .writeFault hp hnew hdown
  · rename_i hup
    cases h
    exact .writeAsync hp hnew (by simpa using hup)

lemma next_processMoves {q k : Nat} (h : s.next q k = some s') :
    ProcessMoves numQueues s (.next q k) s' := by
  obtain ⟨p, hp, h⟩ := Option.bind_eq_some_iff.mp h
  split at h
  · rename_i hq
    obtain ⟨rfl, hidle, hon⟩ := hq
    obtain ⟨client, hc, rfl⟩ := Option.map_eq_some_iff.mp h
    exact .next hp hidle hon hc
  · cases h

lemma exec_processMoves {q : Nat} (h : s.exec q = some s') :
    ProcessMoves numQueues s (.exec q) s' := by
  obtain ⟨k, hh, h⟩ := Option.bind_eq_some_iff.mp h
  obtain ⟨p, hp, h⟩ := Option.bind_eq_some_iff.mp h
  split at h
  · rename_i htask
    cases h
    exact .ret hh hp htask
  · rename_i instr task htask
    split at h
    · rename_i hfault
      cases h
      exact .execFault hh hp htask hfault.1 hfault.2
    · rename_i hmay
      obtain ⟨client, hc, rfl⟩ := Option.map_eq_some_iff.mp h
      refine .exec hh hp htask (fun hstarts => ?_) hc
      rw [hstarts] at hmay
      simpa using hmay

theorem step_processMoves (h : s.step numQueues l = some s') :
    s.fault = none ∧ ProcessMoves numQueues s l s' := by
  unfold ClientProcess.step at h
  split at h
  · cases h
  rename_i hfault
  rw [not_not] at hfault
  refine ⟨hfault, ?_⟩
  cases l with
  | construct q streaming response =>
    simp only [ClientProcess.construct] at h
    split at h
    · rename_i hq
      cases h
      exact .construct hq.1 hq.2
    · cases h
  | writeAsync k => exact writeAsync_moves h
  | complete k outcome =>
    obtain ⟨p, hp, h⟩ := Option.bind_eq_some_iff.mp h
    obtain ⟨client, hc, rfl⟩ := Option.map_eq_some_iff.mp h
    exact .complete hp hc
  | next q k => exact next_processMoves h
  | exec q => exact exec_processMoves h
  | callShutdown =>
    simp only at h
    split at h
    · rename_i hopen
      cases h
      exact .callShutdown hopen
    · cases h
  | shutdownQueue =>
    obtain ⟨i, hi, h⟩ := Option.bind_eq_some_iff.mp h
    split at h
    · rename_i hup
      cases h
      exact .shutdownQueue hi hup.1 hup.2
    · cases h
  | nextFalse q =>
    simp only [ClientProcess.nextFalse] at h
    split at h
    · rename_i hq
      cases h
      exact .nextFalse hq.1 hq.2.1 hq.2.2.1 hq.2.2.2
    · cases h
  | join =>
    obtain ⟨i, hi, h⟩ := Option.bind_eq_some_iff.mp h
    split at h
    · rename_i hexited
      cases h
      exact .join hi hexited.1 hexited.2
    · cases h

/-! ### One client -/

/-- The client is in a state of a client that has its queue to itself. -/
def Behaves : AsyncClient Resp → Prop
  | .streaming c => (streamingAsyncClient Resp).Reachable c
  | .unary c => (unaryAsyncClient Resp).Reachable c

/-- The steps of a client in a process. -/
inductive ClientMoves (c : AsyncClient Resp) : AsyncClient Resp → Prop
  | writeAsync (hnew : c.written = false) : ClientMoves c c.writeAsync
  | complete {outcome : ClientOutcome Resp} {c' : AsyncClient Resp} (h : c.complete outcome = some c') :
      ClientMoves c c'
  | next {c' : AsyncClient Resp} (h : c.next = some c') : ClientMoves c c'
  | exec {c' : AsyncClient Resp} (h : c.exec = some c') : ClientMoves c c'

lemma behaves_new (streaming : Bool) (response : Resp) : Behaves (.new streaming response) := by
  cases streaming with
  | true => exact .init ⟨response, rfl⟩
  | false => exact .init ⟨response, rfl⟩

lemma Behaves.moves {c c' : AsyncClient Resp} (h : Behaves c) (hm : ClientMoves c c') :
    Behaves c' := by
  cases c with
  | streaming c =>
    cases hm with
    | writeAsync hnew =>
      have hnew : c.written = false := hnew
      exact .step (l := .writeAsync) h trivial (by simp [streamingAsyncClient, hnew])
    | @complete outcome _ hc =>
      cases outcome with
      | streaming completion =>
        obtain ⟨c', hstep, rfl⟩ := Option.map_eq_some_iff.mp hc
        exact .step (l := .complete completion) h trivial hstep
      | unary status response => cases hc
    | next hc =>
      obtain ⟨c', hstep, rfl⟩ := Option.map_eq_some_iff.mp hc
      exact .step (l := .next) h trivial hstep
    | exec hc =>
      obtain ⟨c', hstep, rfl⟩ := Option.map_eq_some_iff.mp hc
      exact .step (l := .exec) h trivial hstep
  | unary c =>
    cases hm with
    | writeAsync hnew =>
      have hnew : c.written = false := hnew
      exact .step (l := .writeAsync) h trivial (by simp [unaryAsyncClient, hnew])
    | @complete outcome _ hc =>
      cases outcome with
      | streaming completion => cases hc
      | unary status response =>
        obtain ⟨c', hstep, rfl⟩ := Option.map_eq_some_iff.mp hc
        exact .step (l := .complete status response) h trivial hstep
    | next hc =>
      obtain ⟨c', hstep, rfl⟩ := Option.map_eq_some_iff.mp hc
      exact .step (l := .next) h trivial hstep
    | exec hc => cases hc

/-- The calls of its callback that a client has made. -/
def callsOf : AsyncClient Resp → List (ClientCall Resp)
  | .streaming c => c.calls
  | .unary c => c.calls

section Client

variable {c c' : AsyncClient Resp}

@[simp] lemma task_writeAsync : c.writeAsync.task = c.task := by
  cases c <;> rfl

lemma complete_eq {c c' : StreamingAsyncClient Resp} {completion : Completion Resp}
    (h : c.complete completion = some c') : completion.event ∈ c.inFlight ∧
      ∃ response status, c' = { c with
        response := response
        finishStatus := status
        inFlight := c.inFlight.erase completion.event
        completed := c.completed ++ [completion] } := by
  simp only [StreamingAsyncClient.complete] at h
  split at h
  · rename_i he
    obtain ⟨response, status, hstore, -⟩ := store_eq completion { c with
      inFlight := c.inFlight.erase completion.event, completed := c.completed ++ [completion] }
    rw [hstore] at h
    exact ⟨he, response, status, (Option.some.inj h).symm⟩
  · cases h

/-- Completing an operation does not touch the handler, and the operation stays outstanding. -/
lemma complete_spec {outcome : ClientOutcome Resp} (h : c.complete outcome = some c') :
    c'.task = c.task ∧ c'.outstanding = c.outstanding ∧ 0 < c.outstanding := by
  cases c with
  | streaming c =>
    cases outcome with
    | streaming completion =>
      obtain ⟨c', hc, rfl⟩ := Option.map_eq_some_iff.mp h
      obtain ⟨he, response, status, rfl⟩ := complete_eq hc
      have hpos := List.length_pos_of_mem he
      have herase := List.length_erase_of_mem he
      refine ⟨rfl, ?_, ?_⟩
      · simp only [AsyncClient.outstanding, List.length_append, List.length_singleton, herase]
        omega
      · simp only [AsyncClient.outstanding]
        omega
    | unary status response => cases h
  | unary c =>
    cases outcome with
    | streaming completion => cases h
    | unary status response =>
      obtain ⟨c', hc, rfl⟩ := Option.map_eq_some_iff.mp h
      simp only [UnaryAsyncClient.complete] at hc
      split at hc
      · cases hc
        simp only [AsyncClient.outstanding]
        exact ⟨rfl, by omega, by omega⟩
      · cases hc

lemma writeAsync_calls : callsOf c.writeAsync = callsOf c := by
  cases c <;> rfl

/-- gRPC does not call the callback. -/
lemma complete_calls {outcome : ClientOutcome Resp} (h : c.complete outcome = some c') :
    callsOf c' = callsOf c := by
  cases c with
  | streaming c =>
    cases outcome with
    | streaming completion =>
      obtain ⟨c', hc, rfl⟩ := Option.map_eq_some_iff.mp h
      obtain ⟨-, response, status, rfl⟩ := complete_eq hc
      rfl
    | unary status response => cases h
  | unary c =>
    cases outcome with
    | streaming completion => cases h
    | unary status response =>
      obtain ⟨c', hc, rfl⟩ := Option.map_eq_some_iff.mp h
      simp only [UnaryAsyncClient.complete] at hc
      split at hc <;> cases hc
      rfl

lemma starts_eq_false {instr : ClientInstr} (h : instr.starts = false) : startOf instr = none := by
  cases instr with
  | startRead | startFinish => cases h
  | _ => rfl

end Client

/-! ### The clients of a process -/

/-- The process: each client behaves and is on one of the queues, handlers run on their own
threads, a thread that has returned leaves no operation behind, and `Shutdown` has joined the
threads of the queues before the one it has come to. -/
structure Tended (numQueues : Nat) (s : ClientProcess Resp) : Prop where
  clients : ∀ p ∈ s.clients, Behaves p.client ∧ p.queue < numQueues
  running : ∀ k p, s.clients[k]? = some p → p.client.task ≠ [] →
    (s.queues p.queue).handling = some k
  handled : ∀ q k, (s.queues q).handling = some k → ∃ p, s.clients[k]? = some p ∧ p.queue = q
  exited : ∀ q, (s.queues q).exited = true → (s.queues q).shutDown = true ∧
    (s.queues q).handling = none ∧ ∀ p ∈ s.clients, p.queue = q → p.client.outstanding = 0
  down : ∀ q, (s.queues q).shutDown = true → s.shutdown ≠ none ∧ q < numQueues
  joined : ∀ i, s.shutdown = some i → i ≤ numQueues ∧ ∀ q < i, (s.queues q).exited = true

lemma getElem?_setClient {j k : Nat} {p : PooledClient Resp} {client : AsyncClient Resp}
    (hp : s.clients[k]? = some p) : (s.setClient k p client).clients[j]? =
      if j = k then some { p with client := client } else s.clients[j]? := by
  have hk : k < s.clients.length := (List.getElem?_eq_some_iff.mp hp).1
  by_cases hj : j = k
  · subst hj
    simp [ClientProcess.setClient, hk]
  · rw [if_neg hj]
    exact List.getElem?_set_ne (Ne.symm hj)

namespace Tended

lemma setClient (h : Tended numQueues s) {k : Nat} {p : PooledClient Resp}
    {client : AsyncClient Resp} (hp : s.clients[k]? = some p) (hm : ClientMoves p.client client)
    (htask : client.task ≠ [] → (s.queues p.queue).handling = some k)
    (hout : (s.queues p.queue).exited = true → client.outstanding = 0) :
    Tended numQueues (s.setClient k p client) where
  clients p' hp' := by
    obtain hold | rfl := List.mem_or_eq_of_mem_set hp'
    · exact h.clients p' hold
    · have hbehaves := h.clients p (List.mem_of_getElem? hp)
      exact ⟨hbehaves.1.moves hm, hbehaves.2⟩
  running j p' hj hne := by
    rw [getElem?_setClient hp] at hj
    split at hj
    · rename_i hjk
      cases hj
      rw [hjk]
      exact htask hne
    · exact h.running j p' hj hne
  handled q j hj := by
    obtain ⟨p', hp', hq⟩ := h.handled q j hj
    rw [getElem?_setClient hp]
    split
    · rename_i hjk
      rw [hjk, hp] at hp'
      cases hp'
      exact ⟨_, rfl, hq⟩
    · exact ⟨p', hp', hq⟩
  exited q hq := by
    obtain ⟨hdown, hidle, hdrained⟩ := h.exited q hq
    refine ⟨hdown, hidle, fun p' hp' hpq => ?_⟩
    obtain hold | rfl := List.mem_or_eq_of_mem_set hp'
    · exact hdrained p' hold hpq
    · simp only at hpq
      subst hpq
      exact hout hq
  down := h.down
  joined := h.joined

/-- The thread of a queue: what it handles, and whether the queue is shut down or the thread has
returned, may change as long as the rest of the process agrees. -/
lemma setQueue (h : Tended numQueues s) {q : Nat} {thread : QueueThread}
    (hrunning : ∀ k p, s.clients[k]? = some p → p.queue = q → p.client.task ≠ [] →
      thread.handling = some k)
    (hhandled : ∀ k, thread.handling = some k → ∃ p, s.clients[k]? = some p ∧ p.queue = q)
    (hexited : thread.exited = true → thread.shutDown = true ∧ thread.handling = none ∧
      ∀ p ∈ s.clients, p.queue = q → p.client.outstanding = 0)
    (hdown : thread.shutDown = true → s.shutdown ≠ none ∧ q < numQueues)
    (hkeep : (s.queues q).exited = true → thread.exited = true) :
    Tended numQueues (s.setQueue q thread) where
  clients := h.clients
  running k p hp hne := by
    simp only [ClientProcess.setQueue, update_apply]
    split
    · rename_i hq
      exact hrunning k p hp hq hne
    · exact h.running k p hp hne
  handled q' k hk := by
    simp only [ClientProcess.setQueue, update_apply] at hk
    split at hk
    · rename_i hq
      rw [hq]
      exact hhandled k hk
    · exact h.handled q' k hk
  exited q' hq' := by
    simp only [ClientProcess.setQueue, update_apply] at hq' ⊢
    split at hq'
    · rename_i hq
      rw [if_pos hq, hq]
      exact hexited hq'
    · rename_i hq
      rw [if_neg hq]
      exact h.exited q' hq'
  down q' hq' := by
    simp only [ClientProcess.setQueue, update_apply] at hq'
    split at hq'
    · rename_i hq
      rw [hq]
      exact hdown hq'
    · exact h.down q' hq'
  joined i hi := by
    refine ⟨(h.joined i hi).1, fun q' hq' => ?_⟩
    have hold := (h.joined i hi).2 q' hq'
    simp only [ClientProcess.setQueue, update_apply]
    split
    · rename_i hq
      rw [hq] at hold
      exact hkeep hold
    · exact hold

/-- New clients are not constructed once `Shutdown` was called. -/
lemma construct (h : Tended numQueues s) {q : Nat} (hq : q < numQueues) (hopen : s.shutdown = none)
    (streaming : Bool) (response : Resp) :
    Tended numQueues { s with clients := s.clients ++ [⟨q, .new streaming response⟩] } where
  clients p hp := by
    obtain hp | hp := List.mem_append.mp hp
    · exact h.clients p hp
    · rw [List.mem_singleton.mp hp]
      exact ⟨behaves_new streaming response, hq⟩
  running k p hp hne := by
    simp only [List.getElem?_append] at hp
    split at hp
    · exact h.running k p hp hne
    · rw [List.mem_singleton.mp (List.mem_of_getElem? hp)] at hne
      cases streaming <;> exact absurd rfl hne
  handled q' k hk := by
    obtain ⟨p, hp, hpq⟩ := h.handled q' k hk
    exact ⟨p, (List.getElem?_append_left (List.getElem?_eq_some_iff.mp hp).1).trans hp, hpq⟩
  exited q' hq' := absurd hopen (h.down q' (h.exited q' hq').1).1
  down := h.down
  joined := h.joined

end Tended

theorem processMoves_tended (h : Tended numQueues s) (hm : ProcessMoves numQueues s l s') :
    Tended numQueues s' := by
  cases hm with
  | construct hq hopen => exact h.construct hq hopen _ _
  | writeAsync hp hnew hup =>
    refine h.setClient hp (.writeAsync hnew) ?_ ?_
    · rw [task_writeAsync]
      exact h.running _ _ hp
    · intro hexited
      cases hup.symm.trans (h.exited _ hexited).1
  | writeFault hp hnew hdown => exact { h with }
  | complete hp hc =>
    obtain ⟨htask, hout, hpos⟩ := complete_spec hc
    refine h.setClient hp (.complete hc) ?_ ?_
    · rw [htask]
      exact h.running _ _ hp
    · intro hexited
      have hzero := (h.exited _ hexited).2.2 _ (List.mem_of_getElem? hp) rfl
      omega
  | @next k p client hp hidle hon hc =>
    have hqueue : Tended numQueues
        (s.setQueue p.queue { s.queues p.queue with handling := some k }) := by
      refine h.setQueue ?_ ?_ ?_ (h.down p.queue) id
      · intro j p' hp' hq hne
        have hj := h.running j p' hp' hne
        rw [hq, hidle] at hj
        cases hj
      · intro j hj
        cases hj
        exact ⟨p, hp, rfl⟩
      · intro hexited
        cases hon.symm.trans hexited
    refine hqueue.setClient hp (.next hc) (fun _ => ?_) (fun hexited => ?_)
    · simp [ClientProcess.setQueue]
    · simp [ClientProcess.setQueue, hon] at hexited
  | @ret q k p hh hp htask =>
    refine h.setQueue ?_ ?_ ?_ (h.down q) id
    · intro j p' hp' hq hne
      have hj := h.running j p' hp' hne
      rw [hq, hh] at hj
      cases hj
      rw [hp] at hp'
      cases hp'
      exact absurd htask hne
    · intro j hj
      cases hj
    · intro hexited
      have hq := h.exited q hexited
      exact ⟨hq.1, rfl, hq.2.2⟩
  | @exec q k p instr task client hh hp htask hmay hc =>
    obtain ⟨p', hp', rfl⟩ := h.handled q k hh
    cases hp.symm.trans hp'
    refine h.setClient hp (.exec hc) (fun _ => hh) (fun hexited => ?_)
    cases hh.symm.trans (h.exited _ hexited).2.1
  | execFault hh hp htask hstarts hdown => exact { h with }
  | callShutdown hopen =>
    refine { h with down := fun q hq => ⟨by simp, (h.down q hq).2⟩, joined := fun i hi => ?_ }
    cases hi
    exact ⟨Nat.zero_le _, fun q hq => absurd hq (Nat.not_lt_zero q)⟩
  | @shutdownQueue i hi hlt hup =>
    refine h.setQueue ?_ (h.handled i) ?_ (fun _ => ⟨by simp [hi], hlt⟩) id
    · rintro k p hp rfl hne
      exact h.running k p hp hne
    · intro hexited
      cases hup.symm.trans (h.exited i hexited).1
  | @nextFalse q hdown hidle hon hdrained =>
    refine h.setQueue ?_ (h.handled q) ?_ (h.down q) (fun _ => rfl)
    · rintro k p hp rfl hne
      exact h.running k p hp hne
    · intro _
      refine ⟨hdown, hidle, fun p hp hpq => ?_⟩
      have hall := List.all_eq_true.mp hdrained p hp
      simpa [hpq] using hall
  | @join i hi hlt hexited =>
    refine { h with down := fun q hq => ⟨by simp, (h.down q hq).2⟩, joined := fun j hj => ?_ }
    cases hj
    refine ⟨hlt, fun q hq => ?_⟩
    obtain hq | rfl := Nat.lt_succ_iff_lt_or_eq.mp hq
    · exact (h.joined i hi).2 q hq
    · exact hexited

theorem reachable_tended (hs : (clientProcess Resp numQueues).Reachable s) :
    Tended numQueues s := by
  apply hs.invariant (P := Tended numQueues)
  · rintro s rfl
    constructor <;> simp [ClientProcess.new]
  · intro s l s' _ h _ hstep
    exact processMoves_tended h (step_processMoves hstep).2

/-- A client whose callbacks grow in number is the one that the thread of its queue handles. -/
lemma processMoves_calls (h : Tended numQueues s) (hm : ProcessMoves numQueues s l s') {k : Nat}
    {p p' : PooledClient Resp} (hp : s.clients[k]? = some p) (hp' : s'.clients[k]? = some p')
    (hcalls : callsOf p'.client ≠ callsOf p.client) : (s'.queues p.queue).handling = some k := by
  have hsame : ∀ {client : AsyncClient Resp} {j : Nat} {x : PooledClient Resp},
      s.clients[j]? = some x → (s.setClient j x client).clients[k]? = some p' →
      j = k ∧ x = p ∧ p' = { p with client := client } := by
    intro client j x hx hp'
    rw [getElem?_setClient hx] at hp'
    split at hp'
    · rename_i hk
      subst hk
      cases hp.symm.trans hx
      exact ⟨rfl, rfl, (Option.some.inj hp').symm⟩
    · cases hp.symm.trans hp'
      exact absurd rfl hcalls
  cases hm with
  | construct _ _ =>
    have hold := (List.getElem?_append_left (List.getElem?_eq_some_iff.mp hp).1).symm.trans hp'
    cases hp.symm.trans hold
    exact absurd rfl hcalls
  | writeAsync hx _ _ =>
    obtain ⟨-, rfl, rfl⟩ := hsame hx hp'
    exact absurd writeAsync_calls hcalls
  | complete hx hc =>
    obtain ⟨-, rfl, rfl⟩ := hsame hx hp'
    exact absurd (complete_calls hc) hcalls
  | next hx _ _ _ =>
    obtain ⟨rfl, rfl, -⟩ := hsame hx hp'
    simp [ClientProcess.setQueue]
  | exec hh hx _ _ _ =>
    obtain ⟨rfl, rfl, -⟩ := hsame hx hp'
    obtain ⟨y, hy, rfl⟩ := h.handled _ _ hh
    cases hp.symm.trans hy
    exact hh
  | _ =>
    cases hp.symm.trans hp'
    exact absurd rfl hcalls

/-- In every state of a process with any number of queues and clients: each client is in a state
that it could also be in with its queue to itself, so that all that holds of one client holds of
every client of a process; while a handler of a client runs, the thread of its queue is busy
with that client and no other; a thread is only busy with a client of its own queue; and a
callback is only called while the thread is busy with its client. -/
theorem clients_keep_to_themselves (hs : (clientProcess Resp numQueues).Reachable s) :
    (∀ (k q : Nat) c, s.clients[k]? = some ⟨q, .streaming c⟩ →
      (streamingAsyncClient Resp).Reachable c) ∧
    (∀ (k q : Nat) c, s.clients[k]? = some ⟨q, .unary c⟩ → (unaryAsyncClient Resp).Reachable c) ∧
    (∀ (k : Nat) p, s.clients[k]? = some p → p.client.task ≠ [] →
      (s.queues p.queue).handling = some k) ∧
    (∀ q k, (s.queues q).handling = some k → ∃ p, s.clients[k]? = some p ∧ p.queue = q) ∧
    ∀ (k : Nat) l s' p p', s.step numQueues l = some s' → s.clients[k]? = some p →
      s'.clients[k]? = some p' → callsOf p'.client ≠ callsOf p.client →
      (s'.queues p.queue).handling = some k := by
  have h := reachable_tended hs
  refine ⟨?_, ?_, h.running, h.handled, ?_⟩
  · intro k q c hc
    exact (h.clients _ (List.mem_of_getElem? hc)).1
  · intro k q c hc
    exact (h.clients _ (List.mem_of_getElem? hc)).1
  · intro k l s' p p' hstep hp hp' hcalls
    exact processMoves_calls h (step_processMoves hstep).2 hp hp' hcalls

/-- A list of labels that leads from the new process to a state with some property. -/
lemma exists_clientProcess {n : Nat} (labels : List (ClientProcessLabel Nat))
    (p : ClientProcess Nat → Bool)
    (h : ((clientProcess Nat n).run (fun _ _ => true) .new labels).any p = true) :
    ∃ s, (clientProcess Nat n).Reachable s ∧ p s = true :=
  Transition.System.exists_reach_of_run (fun _ _ _ => trivial) (.init rfl) h

/-- A streaming client and a unary one take turns on one queue. The streaming one has been given a
response, and the unary one is next. -/
def sharedQueue : List (ClientProcessLabel Nat) :=
  [.construct 0 true 0, .construct 0 false 0, .writeAsync 0, .writeAsync 1,
    .complete 0 (.streaming (.write true)), .next 0 0, .complete 1 (.unary .ok 7), .exec 0, .exec 0,
    .complete 0 (.streaming (.read (some 4))), .next 0 0] ++ List.replicate 5 (.exec 0)

/-- The streaming client has its handler running; later the unary one is called back. -/
theorem clients_keep_to_themselves_of_run :
    (∃ s p, (clientProcess Nat 1).Reachable s ∧ s.clients[0]? = some p ∧ p.client.task ≠ [] ∧
      (s.queues 0).handling = some 0) ∧
    ∃ s s' p p', (clientProcess Nat 1).Reachable s ∧ s.step 1 (.next 0 1) = some s' ∧
      s.clients[1]? = some p ∧ s'.clients[1]? = some p' ∧ callsOf p.client = [] ∧
      callsOf p'.client = [⟨.ok, some 7⟩] ∧ (s'.queues 0).handling = some 1 := by
  constructor
  · obtain ⟨s, hs, hp⟩ := exists_clientProcess (n := 1) (sharedQueue.take 6) (fun s =>
      (s.clients[0]?).any (fun p => p.queue = 0 ∧ p.client.task ≠ [])) (by decide +kernel)
    obtain ⟨p, hp, hrunning⟩ := (Option.any_eq_true _ _).mp hp
    obtain ⟨hqueue, htask⟩ := of_decide_eq_true hrunning
    have hhandling := (clients_keep_to_themselves hs).2.2.1 0 p hp htask
    exact ⟨s, p, hs, hp, htask, hqueue ▸ hhandling⟩
  · obtain ⟨s, hs, hp⟩ := exists_clientProcess (n := 1) sharedQueue (fun s =>
      (s.clients[1]?).any (fun p => p.queue = 0 ∧ callsOf p.client = [] ∧
        (s.step 1 (.next 0 1)).any (fun s' => (s'.clients[1]?).any (fun p' =>
          callsOf p'.client = [⟨.ok, some 7⟩])) = true)) (by decide +kernel)
    obtain ⟨p, hp, hnext⟩ := (Option.any_eq_true _ _).mp hp
    obtain ⟨hqueue, hcalls, hstep⟩ := of_decide_eq_true hnext
    obtain ⟨s', hstep, hp'⟩ := (Option.any_eq_true _ _).mp hstep
    obtain ⟨p', hp', hcalls'⟩ := (Option.any_eq_true _ _).mp hp'
    have hcalls' := of_decide_eq_true hcalls'
    have hhandling := (clients_keep_to_themselves hs).2.2.2.2 1 (.next 0 1) s' p p' hstep hp hp'
      (by simp [hcalls, hcalls'])
    exact ⟨s, s', p, p', hs, hstep, hp, hp', hcalls, hcalls', hqueue ▸ hhandling⟩

end AsyncGrpc.Proofs
