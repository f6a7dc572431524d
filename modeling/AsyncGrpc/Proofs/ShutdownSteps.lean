import AsyncGrpc.Proofs.PartSteps
import AsyncGrpc.Shutdown

/-!
# What a step of the process can do

`Acts` lists the steps of a `Process` once. Each of them is a step of the server or leaves the
server alone, so that every invariant of the server holds throughout a shutdown. `Staged` relates
the stage of `Server::Shutdown` to what the other threads have been told and have done.
-/

namespace AsyncGrpc.Proofs

open Function Transition

variable {Req Resp : Type} {options : Options} {maps : List (List (String × RpcHandlerInfo))}

/-- The steps of a process that has not failed. -/
inductive Acts (p : Process Req Resp) : ProcessLabel Req Resp → Process Req Resp → Prop
  | server {l : Label Req Resp} {s : Server Req Resp} (hadmits : p.admits l = true)
      (hstep : p.server.step l = some s) :
      Acts p (.server l)
        { p with
          server := s
          loops := p.loopsAfter l
          pushed := fun q => p.pushed q ++ (s.eventQueues q).drop (p.server.eventQueues q).length
          popped := fun q => p.popped q ++ p.poppedBy l q }
  | notCalled (hstage : p.stage = .notCalled) :
      Acts p .shutdown { p with shuttingDown := true, stage := .stopServing 0 }
  | stopServing {v : Nat} (hstage : p.stage = .stopServing v) (hv : v < p.numServices)
      (hstep : p.server.step (.stopServing v) = some (p.server.stopServing v)) :
      Acts p .shutdown { p with server := p.server.stopServing v, stage := .stopServing (v + 1) }
  | stopped {v : Nat} (hstage : p.stage = .stopServing v) (hv : p.numServices ≤ v) :
      Acts p .shutdown { p with stage := .grpcShutdown }
  | grpcShutdown (hstage : p.stage = .grpcShutdown) (hended : p.callsEnded = true) :
      Acts p .shutdown { p with stage := .shutdownQueue 0 }
  | shutdownQueue {cq : Nat} (hstage : p.stage = .shutdownQueue cq)
      (hcq : cq < p.server.options.numGrpcThreads) :
      Acts p .shutdown
        { p with queueShutdown := update p.queueShutdown cq true, stage := .joinQueue cq }
  | queuesJoined {cq : Nat} (hstage : p.stage = .shutdownQueue cq)
      (hcq : p.server.options.numGrpcThreads ≤ cq) :
      Acts p .shutdown { p with stage := .joinEventThread 0 }
  | joinQueue {cq : Nat} (hstage : p.stage = .joinQueue cq) (hleft : p.queueLeft cq = true) :
      Acts p .shutdown { p with stage := .shutdownQueue (cq + 1) }
  | joinEventThread {t : Nat} (hstage : p.stage = .joinEventThread t)
      (ht : t < p.server.options.numEventThreads) (hleft : p.loops t = .left) :
      Acts p .shutdown { p with stage := .joinEventThread (t + 1) }
  | threadsJoined {t : Nat} (hstage : p.stage = .joinEventThread t)
      (ht : p.server.options.numEventThreads ≤ t) :
      Acts p .shutdown { p with stage := .returned }
  | test {t : Nat} (hloop : p.loops t = .testing) :
      Acts p (.test t)
        { p with loops := update p.loops t (if p.shuttingDown then .draining else .popping) }
  | timeout {t : Nat} (hloop : p.loops t = .popping) :
      Acts p (.timeout t) { p with loops := update p.loops t .testing }
  | leave {t : Nat} (hidle : (p.server.tasks t).code = []) (hqueue : p.server.eventQueues t = [])
      (hloop : p.loops t = .draining) :
      Acts p (.timeout t) { p with loops := update p.loops t .left }
  | nextFalse {cq : Nat} (hshut : p.queueShutdown cq = true) (hdrained : p.drained cq = true) :
      Acts p (.nextFalse cq) { p with queueLeft := update p.queueLeft cq true }
  | endCall {r : Nat} (hconn : (p.server.rpcs r).connected = some true) :
      Acts p (.endCall r) { p with ended := update p.ended r true }

lemma shutdownStep_acts {p p' : Process Req Resp} (hfault : p.server.fault = none)
    (h : p.shutdownStep = some p') : Acts p .shutdown p' := by
  unfold Process.shutdownStep at h
  split at h
  · rename_i hstage
    cases h
    exact .notCalled hstage
  · rename_i v hstage
    split at h <;> rename_i hv <;> cases h
    · exact .stopServing hstage hv (by simp [Server.step, hfault])
    · exact .stopped hstage (not_lt.mp hv)
  · rename_i hstage
    split at h <;> rename_i hended <;> cases h
    exact .grpcShutdown hstage hended
  · rename_i cq hstage
    split at h <;> rename_i hcq <;> cases h
    · exact .shutdownQueue hstage hcq
    · exact .queuesJoined hstage (not_lt.mp hcq)
  · rename_i cq hstage
    split at h <;> rename_i hleft <;> cases h
    exact .joinQueue hstage hleft
  · rename_i t hstage
    split at h
    · rename_i ht
      split at h <;> rename_i hleft <;> cases h
      exact .joinEventThread hstage ht hleft
    · rename_i ht
      cases h
      exact .threadsJoined hstage (not_lt.mp ht)
  · cases h

theorem step_acts {p p' : Process Req Resp} {l : ProcessLabel Req Resp} (h : p.step l = some p') :
    Acts p l p' := by
  unfold Process.step at h
  split at h
  · cases h
  rename_i hfault
  cases l with
  | server l =>
    simp only [Process.serverStep] at h
    split at h
    · rename_i hadmits
      obtain ⟨s, hstep, rfl⟩ := Option.map_eq_some_iff.mp h
      exact .server hadmits hstep
    · cases h
  | shutdown => exact shutdownStep_acts (not_not.mp hfault) h
  | test t =>
    simp only [Process.test] at h
    split at h <;> rename_i hg <;> cases h
    exact .test hg.1
  | timeout t =>
    simp only [Process.timeout] at h
    split at h
    · rename_i hg
      split at h <;> rename_i hloop <;> cases h
      · exact .timeout hloop
      · exact .leave hg.1 hg.2 hloop
    · cases h
  | nextFalse cq =>
    simp only [Process.nextFalse] at h
    split at h <;> rename_i hg <;> cases h
    exact .nextFalse hg.1 hg.2
  | endCall r =>
    simp only [Process.endCall] at h
    split at h <;> rename_i hg <;> cases h
    exact .endCall hg

/-- A step of the process is a step of its server or leaves the server alone. -/
lemma acts_server {p p' : Process Req Resp} {l : ProcessLabel Req Resp} (h : Acts p l p') :
    p'.server = p.server ∨ ∃ l', p.server.step l' = some p'.server := by
  cases h with
  | server _ hstep => exact .inr ⟨_, hstep⟩
  | stopServing _ _ hstep => exact .inr ⟨_, hstep⟩
  | _ => exact .inl rfl

/-- The invariant rule for processes. -/
theorem process_invariant {G : Process Req Resp → ProcessLabel Req Resp → Prop}
    {P : Process Req Resp → Prop} (hinit : P (.start options maps))
    (hstep : ∀ p l p', (processSystem Req Resp options maps).Reach G p → P p → G p l →
      Acts p l p' → P p')
    {p : Process Req Resp} (hp : (processSystem Req Resp options maps).Reach G p) : P p := by
  apply hp.invariant
  · rintro p rfl
    exact hinit
  · intro p l p' hr ih hg h
    exact hstep p l p' hr ih hg (step_acts h)

/-- The server of a process runs as any server does. -/
theorem process_server {G : Process Req Resp → ProcessLabel Req Resp → Prop}
    {p : Process Req Resp} (hp : (processSystem Req Resp options maps).Reach G p) :
    (serverSystem Req Resp options maps).Reachable p.server := by
  apply process_invariant (P := fun p => (serverSystem Req Resp options maps).Reachable p.server)
    (.init rfl) _ hp
  intro p l p' _ ih _ h
  rcases acts_server h with he | ⟨l', hl'⟩
  · rwa [he]
  · exact .step ih trivial hl'

lemma process_numServices {G : Process Req Resp → ProcessLabel Req Resp → Prop}
    {p : Process Req Resp} (hp : (processSystem Req Resp options maps).Reach G p) :
    p.numServices = maps.length := by
  apply process_invariant (P := fun p => p.numServices = maps.length) rfl _ hp
  intro p l p' _ ih _ h
  cases h <;> exact ih

/-- A step of the server moves no `Rpc`. A new one is a clone and shares the completion queue. -/
lemma step_place {s s' : Server Req Resp} {l : Label Req Resp} (h : s.step l = some s') {r : Nat}
    (hr : r < s'.nextRpc) :
    (r < s.nextRpc ∧ SamePlace (s.rpcs r) (s'.rpcs r)) ∨
      ∃ t acts r' rest, l = .exec t acts ∧ s.tasks t = ⟨r', .clone :: rest⟩ ∧
        (s'.rpcs r).serverCompletionQueue = (s.rpcs r').serverCompletionQueue := by
  have hm := (step_moves h).2
  by_cases hlt : r < s.nextRpc
  · exact .inl ⟨hlt, moves_samePlace hm hlt⟩
  · obtain ⟨t, acts, r', rest, rfl, htask, rfl⟩ := moves_born hm (by omega)
    obtain rfl : r = (s.setTask t ⟨r', rest⟩).nextRpc := by
      have hnext : r < s.nextRpc + 1 := hr
      change r = s.nextRpc
      omega
    refine .inr ⟨t, acts, r', rest, rfl, htask, ?_⟩
    rw [cloneRpc_rpcs_new]
    rfl

/-- What a step of a part keeps, a step of the process keeps for every `Rpc` there is. -/
lemma acts_part {P : Part Req Resp → Prop}
    (hP : ∀ c m c', (partSystem Req Resp).Reachable c → P c → c.step m = some c' → P c')
    {p p' : Process Req Resp} {l : ProcessLabel Req Resp}
    (hs : (serverSystem Req Resp options maps).Reachable p.server) (h : Acts p l p') {r : Nat}
    (hr : r < p.server.nextRpc) (hpart : P (p.server.part r)) : P (p'.server.part r) := by
  rcases acts_server h with he | ⟨l', hl'⟩
  · rwa [he]
  · exact (leads_part hP hs (.step .refl trivial hl') hr hpart).2

/-! ### The stages of `Server::Shutdown` -/

/-- `StopServing` of the service has been called. -/
def stoppedAt : ShutdownStage → Nat → Prop
  | .notCalled, _ => False
  | .stopServing v, u => u < v
  | _, _ => True

/-- How many completion queue threads `Server::Shutdown` has joined. -/
def joinedQueues (numGrpcThreads : Nat) : ShutdownStage → Nat
  | .shutdownQueue cq | .joinQueue cq => cq
  | .joinEventThread _ | .returned => numGrpcThreads
  | _ => 0

/-- How many event threads `Server::Shutdown` has joined. -/
def joinedThreads (numEventThreads : Nat) : ShutdownStage → Nat
  | .joinEventThread t => t
  | .returned => numEventThreads
  | _ => 0

structure Staged (p : Process Req Resp) : Prop where
  stopped : ∀ v < p.numServices, stoppedAt p.stage v → (p.server.services v).shuttingDown = true
  late : ∀ cq, p.queueShutdown cq = true → ∀ v, stoppedAt p.stage v
  queues : ∀ cq < joinedQueues p.server.options.numGrpcThreads p.stage, p.queueLeft cq = true
  threads : ∀ t < joinedThreads p.server.options.numEventThreads p.stage, p.loops t = .left

section Staged

variable {p : Process Req Resp}

/-- A step that only advances the stage, and has seen the thread it joins return. -/
lemma Staged.advance (h : Staged p) {stage : ShutdownStage}
    (hstopped : ∀ v < p.numServices, stoppedAt stage v → stoppedAt p.stage v)
    (hlate : (∀ v, stoppedAt p.stage v) → ∀ v, stoppedAt stage v)
    (hqueues : ∀ cq < joinedQueues p.server.options.numGrpcThreads stage,
      cq < joinedQueues p.server.options.numGrpcThreads p.stage ∨ p.queueLeft cq = true)
    (hthreads : ∀ t < joinedThreads p.server.options.numEventThreads stage,
      t < joinedThreads p.server.options.numEventThreads p.stage ∨ p.loops t = .left) :
    Staged { p with stage := stage } where
  stopped := fun v hv hs => h.stopped v hv (hstopped v hv hs)
  late := fun cq hcq => hlate (h.late cq hcq)
  queues := fun cq hcq => (hqueues cq hcq).elim (h.queues cq) id
  threads := fun t ht => (hthreads t ht).elim (h.threads t) id

lemma loopsAfter_left {l : Label Req Resp} {t : Nat} :
    p.loopsAfter l t = .left ↔ p.loops t = .left := by
  cases l with
  | pop t' =>
    simp only [Process.loopsAfter]
    split
    · rename_i hpop
      by_cases ht : t = t'
      · subst ht
        simp [hpop]
      · rw [update_of_ne ht]
    · rfl
  | _ => rfl

lemma update_loops_left {loops : Nat → EventLoop} {t t' : Nat} {loop : EventLoop}
    (h : loops t ≠ .left) (ht : loops t' = .left) : update loops t loop t' = .left := by
  have hne : t' ≠ t := by
    rintro rfl
    exact h ht
  rwa [update_of_ne hne]

/-- A service that was told to stop is never told otherwise. -/
lemma step_stopped {s s' : Server Req Resp} {l : Label Req Resp} (h : s.step l = some s') {v : Nat}
    (hv : (s.services v).shuttingDown = true) : (s'.services v).shuttingDown = true := by
  have hm := (step_moves h).2
  by_cases hl : l = .stopServing v
  · subst hl
    cases hm
    simp [Server.stopServing]
  · rwa [moves_shuttingDown hm hl]

lemma step_options {s s' : Server Req Resp} {l : Label Req Resp} (h : s.step l = some s') :
    s'.options = s.options := by
  cases (step_moves h).2 with
  | exec _ _ | stepWriter _ _ _ => exact apply_options _ _ _
  | _ => rfl

theorem process_staged {G : Process Req Resp → ProcessLabel Req Resp → Prop}
    (hp : (processSystem Req Resp options maps).Reach G p) : Staged p := by
  apply process_invariant (P := Staged) _ _ hp
  · refine ⟨?_, ?_, ?_, ?_⟩ <;> simp [Process.start, stoppedAt, joinedQueues, joinedThreads]
  · intro p l p' _ ih _ h
    cases h with
    | server _ hstep =>
      refine ⟨fun v hv hs => step_stopped hstep (ih.stopped v hv hs), ih.late, ?_, fun t ht => ?_⟩
      · rw [step_options hstep]
        exact ih.queues
      · rw [step_options hstep] at ht
        exact loopsAfter_left.mpr (ih.threads t ht)
    | notCalled hstage =>
      exact { ih.advance (by simp [stoppedAt]) (by simp [hstage, stoppedAt])
        (by simp [joinedQueues]) (by simp [joinedThreads]) with }
    | @stopServing v hstage hv hstep =>
      refine ⟨fun u hu hs => ?_, fun cq hcq u => ?_, by simp [joinedQueues], by simp [joinedThreads]⟩
      · rcases Nat.lt_succ_iff_lt_or_eq.mp hs with hlt | rfl
        · exact step_stopped hstep (ih.stopped u hu (by rwa [hstage]))
        · simp [Server.stopServing]
      · have hlate := ih.late cq hcq v
        rw [hstage] at hlate
        exact absurd hlate (Nat.lt_irrefl v)
    | stopped hstage hv =>
      refine ih.advance (fun u hu _ => ?_) (fun _ _ => trivial) (by simp [joinedQueues])
        (by simp [joinedThreads])
      rw [hstage]
      exact lt_of_lt_of_le hu hv
    | grpcShutdown hstage _ =>
      exact ih.advance (by simp [hstage, stoppedAt]) (by simp [stoppedAt]) (by simp [joinedQueues])
        (by simp [joinedThreads])
    | shutdownQueue hstage _ =>
      exact { ih.advance (by simp [hstage, stoppedAt]) (by simp [stoppedAt])
        (fun _ hcq => .inl (by rwa [hstage])) (by simp [joinedThreads]) with
        late := fun _ _ _ => trivial }
    | queuesJoined hstage hcq =>
      refine ih.advance (by simp [hstage, stoppedAt]) (by simp [stoppedAt]) (fun cq' hcq' => ?_)
        (by simp [joinedThreads])
      rw [hstage]
      exact .inl (lt_of_lt_of_le hcq' hcq)
    | joinQueue hstage hleft =>
      refine ih.advance (by simp [hstage, stoppedAt]) (by simp [stoppedAt]) (fun cq' hcq' => ?_)
        (by simp [joinedThreads])
      rw [hstage]
      rcases Nat.lt_succ_iff_lt_or_eq.mp hcq' with hlt | rfl
      · exact .inl hlt
      · exact .inr hleft
    | joinEventThread hstage _ hleft =>
      refine ih.advance (by simp [hstage, stoppedAt]) (by simp [stoppedAt])
        (fun _ hcq => .inl (by rwa [hstage])) (fun t' ht' => ?_)
      rw [hstage]
      rcases Nat.lt_succ_iff_lt_or_eq.mp ht' with hlt | rfl
      · exact .inl hlt
      · exact .inr hleft
    | threadsJoined hstage ht =>
      refine ih.advance (by simp [hstage, stoppedAt]) (by simp [stoppedAt])
        (fun _ hcq => .inl (by rwa [hstage])) (fun t' ht' => ?_)
      rw [hstage]
      exact .inl (lt_of_lt_of_le ht' ht)
    | test hloop | timeout hloop | leave _ _ hloop =>
      refine ⟨ih.stopped, ih.late, ih.queues, fun t ht => ?_⟩
      exact update_loops_left (by simp [hloop]) (ih.threads t ht)
    | nextFalse _ _ =>
      refine ⟨ih.stopped, ih.late, fun cq hcq => ?_, ih.threads⟩
      simp [update_apply, ih.queues cq hcq]
    | endCall _ => exact ⟨ih.stopped, ih.late, ih.queues, ih.threads⟩

end Staged

/-! ### Concrete runs -/

lemma exists_process (options : Options) (maps : List (List (String × RpcHandlerInfo)))
    {G : Process Nat Nat → ProcessLabel Nat Nat → Prop}
    (g : Process Nat Nat → ProcessLabel Nat Nat → Bool) (hg : ∀ p l, g p l = true → G p l)
    (ls : List (ProcessLabel Nat Nat)) (test : Process Nat Nat → Bool)
    (h : ((processSystem Nat Nat options maps).run g (.start options maps) ls).any test = true) :
    ∃ p, (processSystem Nat Nat options maps).Reach G p ∧ test p = true :=
  System.exists_reach_of_run hg (.init rfl) h

/-- Steps of the server, with the event threads testing `shutting_down_` before they pop. -/
def served : List (Label Nat Nat) → List (ProcessLabel Nat Nat)
  | [] => []
  | .pop t :: ls => .test t :: .server (.pop t) :: served ls
  | l :: ls => .server l :: served ls

end AsyncGrpc.Proofs
