import AsyncGrpc.Proofs.Faults
import AsyncGrpc.Proofs.LastReads
import AsyncGrpc.Proofs.ShutdownComplete

/-!
# `Server::Shutdown` returns

Once `StopServing` has been called on every service, `Server::Shutdown` returns whatever the order
in which the threads run and gRPC returns what it holds, for any number of threads. Of gRPC it is
assumed that no further `Read` succeeds, of other threads that they make no further `Writer` calls,
and of the handlers that they send nothing in `OnFinish`, since a handler might answer every
`OnFinish` with another `Finish`.
-/

namespace AsyncGrpc.Proofs

open Function Transition Workload

variable {Req Resp : Type} {options : Options} {maps : List (List (String × RpcHandlerInfo))}

/-! ### Two levels of work -/

/-- What may still make a handler send messages: callbacks other than `OnFinish`, and the way to
them from a connection or a `Read`. -/
def openInstr : Instr Resp → Nat
  | .callback .onFinish => 0
  | .callback _ => 1
  | .handle .read => 2
  | .requestStreamingReadIfNeeded => 6
  | .onConnection => 8
  | _ => 0

@[simps] def openWeights : Weights Resp :=
  ⟨openInstr, fun event => if event = .read then 3 else 0, fun tag => if tag = .read then 4 else 0,
    fun _ => 0, 0, fun tag => if tag = .read then 5 else 0⟩

/-- The way of an operation from gRPC through the threads, and of a message to gRPC. -/
def operationInstr : Instr Resp → Nat
  | .handle _ => 3
  | .handleInternal => 4
  | .handleNewConnection _ => 2
  | .performFinish _ | .performWrite _ => 7
  | .clone => 13
  | .enqueueMessage _ => 8
  | .pushWriteNeeded => 6
  | _ => 1

def operationWriter : WriterPc → Nat
  | .calling => 17
  | .locked => 16
  | .enqueued => 8
  | .lookedUp => 7
  | .pushed => 1
  | .returned _ => 0

@[simps] def operationWeights : Weights Resp :=
  ⟨operationInstr, fun event => if event = .writeNeeded then 5 else 4, fun _ => 5, operationWriter,
    7, fun _ => 6⟩

def windingLevels : List (Weights Resp) :=
  [openWeights, operationWeights]

lemma load_instrs_open (acts : List (HandlerAction Resp)) :
    load openWeights.instr (acts.flatMap HandlerAction.instrs) = 0 := by
  apply load_eq_zero
  intro j hj
  have hproducer := instrs_producer acts j hj
  cases j <;> first | rfl | cases hproducer

/-- While the service shuts down, an instruction is followed by less than itself, unless it takes
up a `READ` event with a request or lets a handler send something in `OnFinish`. -/
lemma run_winds {i : Instr Resp} {env : Surroundings} {acts : List (HandlerAction Resp)}
    {x : Rpc Req Resp} {o : Outcome Req Resp} (h : i.run env acts x = some o)
    (hdown : env.shuttingDown = true) (hread : i = .handle .read → (x.event .read).ok = false)
    (hfinish : i = .callback .onFinish → acts = []) :
    Lower windingLevels (fun W => W.rpc o.rpc + (load W.instr o.next + W.effect o.effect))
      (fun W => W.rpc x + W.instr i) := by
  cases run_runs h with
  | @handle tag =>
    cases tag with
    | read =>
      simp [Lower, windingLevels, openInstr, Weights.effect, Service.handleEvent, Tag.event,
        Service.handleRead, hread rfl]
    | newConnection | write | finish | done =>
      simp [Lower, windingLevels, openInstr, operationInstr, Weights.effect, Service.handleEvent,
        Tag.event, Service.handleWrite, Service.handleFinish, Service.handleDone]
  | handleNewConnection =>
    simp [Lower, windingLevels, openInstr, operationInstr, Weights.effect,
      Service.handleNewConnection, hdown]
  | @callback kind _ =>
    cases kind with
    | onFinish =>
      simp [Lower, windingLevels, openInstr, operationInstr, Weights.effect, hfinish rfl]
    | onInitialize | onRequest | onReadsDone =>
      simp [Lower, windingLevels, openInstr, Weights.effect, load_instrs_open]
  | takeFinish hqueue _ _ _ | takeWrite hqueue _ _ _ _ =>
    have hopen := openWeights.rpc_sendQueue hqueue
    have hoperation := operationWeights.rpc_sendQueue hqueue
    simp only [openWeights_item, operationWeights_item] at hopen hoperation
    simp only [Lower, windingLevels, openInstr, operationInstr, Weights.effect, openWeights_instr,
      operationWeights_instr, load_cons, load_nil]
    omega
  | _ =>
    simp [Lower, windingLevels, openInstr, operationInstr, Weights.effect, Service.handleWrite]

lemma falling_windingLevels : Falling Req (windingLevels : List (Weights Resp)) where
  push := by
    intro tag
    cases tag <;> simp [Lower, windingLevels, Tag.event]
  pop := by
    intro e
    cases e with
    | completion r tag =>
      cases tag <;>
        simp [Lower, windingLevels, openInstr, operationInstr, kind, Tag.event, Server.handler]
    | internal r => simp [Lower, windingLevels, openInstr, operationInstr, kind, Server.handler]
  writer := by
    intro w w' env x y effect hret h
    unfold WriterCall.step at h
    split at h <;> rename_i hpc
    · split at h <;> cases h <;> simp [Lower, windingLevels, Weights.effect, hpc, operationWriter]
    · cases h
      simp [Lower, windingLevels, Weights.effect, hpc, operationWriter]
    · split at h <;> cases h
      simp [Lower, windingLevels, Weights.effect, hpc, operationWriter]
    · cases h
      simp [Lower, windingLevels, Weights.effect, hpc, operationWriter]
    · cases h
      simp [Lower, windingLevels, Weights.effect, hpc, operationWriter]
    · simp [WriterCall.isReturned, hpc] at hret

/-! ### Steps of a server that winds up -/

/-- What is assumed of gRPC, the handlers and other threads while the server shuts down: no `Read`
succeeds, handlers do nothing in `OnFinish`, and `Writer`s are not called. -/
def serverWinding (s : Server Req Resp) : Label Req Resp → Bool
  | .next _ _ tag ok _ => tag ≠ .read || !ok
  | .exec t acts =>
    match (s.tasks t).code with
    | .callback .onFinish :: _ => acts.isEmpty
    | _ => true
  | .pushToEventQueue _ | .pop _ | .stepWriter _ _ => true
  | .callWriter _ _ | .stopServing _ => false

/-- Successful `Read`s in hand and on their way count first, then what may still make handlers
send messages, then the operations. -/
def windingMeasures : List (Server Req Resp → Nat) :=
  [total goodHand, total goodReads, fun s => openWeights.work s, fun s => operationWeights.work s]

section Server

variable {s s' : Server Req Resp} {l : Label Req Resp}

lemma serverWinding_next (hl : serverWinding s l = true) (cq r : Nat) (request : Option Req) :
    l ≠ .next cq r .read true request := by
  rintro rfl
  simp [serverWinding] at hl

/-- While all services shut down, a step that takes up no request lowers the work. -/
lemma moves_winds (hs : (serverSystem Req Resp options maps).Reachable s) (h : Moves s l s')
    (hl : serverWinding s l = true)
    (hdown : ∀ r < s.nextRpc, (s.services (s.rpcs r).service).shuttingDown = true)
    (hrequest : ¬HandlesRequest s l) :
    (Lower windingLevels (fun W => W.work s') (fun W => W.work s) ∧ s'.fault = s.fault) ∨
      (∀ W : Weights Resp, W.work s' = W.work s) ∧ s'.fault ≠ none := by
  apply falling_windingLevels.moves hs h
  · rintro r method rfl
    cases hl
  · rintro v rfl
    cases hl
  · rintro cq r tag ok request rfl
    cases tag <;> simp [Lower, windingLevels]
  · rintro t acts r i rest o rfl htask hrun
    have hr := (task_lt hs (t := t) (by simp [htask])).1
    simp only [htask] at hr
    refine run_winds hrun (hdown r hr) ?_ ?_
    · rintro rfl
      by_contra hok
      exact hrequest ⟨t, acts, r, rest, rfl, htask, by simpa using hok⟩
    · rintro rfl
      simpa [serverWinding, htask] using hl

/-- Every step of a server that winds up lowers its measures, or the server fails. -/
theorem moves_windingMeasures (hs : (serverSystem Req Resp options maps).Reachable s)
    (h : Moves s l s') (hl : serverWinding s l = true)
    (hdown : ∀ r < s.nextRpc, (s.services (s.rpcs r).service).shuttingDown = true) :
    Lower windingMeasures (fun f => f s') (fun f => f s) ∨
      (∀ f ∈ windingMeasures, f s' ≤ f s) ∧ s'.fault ≠ none := by
  rcases moves_reads hs h (serverWinding_next hl) with hhand | ⟨hhand, hread | ⟨hread, hrequest⟩⟩
  · exact .inl (.inl hhand)
  · exact .inl (.inr ⟨hhand, .inl hread⟩)
  · rcases moves_winds hs h hl hdown hrequest with ⟨hlower, -⟩ | ⟨hwork, hfault⟩
    · exact .inl (.inr ⟨hhand, .inr ⟨hread, hlower⟩⟩)
    · refine .inr ⟨?_, hfault⟩
      simp [windingMeasures, hwork, hhand, hread]

end Server

/-! ### Steps of a process that winds up -/

/-- The assumptions on the steps of the server, and that the other steps are made by the threads
there are: each completion queue thread returns once and each call ends once. -/
def winding (p : Process Req Resp) : ProcessLabel Req Resp → Bool
  | .server l => serverWinding p.server l
  | .shutdown => true
  | .test t | .timeout t => t < p.server.options.numEventThreads
  | .nextFalse cq => cq < p.server.options.numGrpcThreads && !p.queueLeft cq
  | .endCall r => r < p.server.nextRpc && !p.ended r

/-- `StopServing` has been called on every service. -/
def isLate : ShutdownStage → Bool
  | .notCalled | .stopServing _ => false
  | _ => true

/-- How far an event thread is from leaving its loop once `shutting_down_` is set. -/
def loopRank : EventLoop → Nat
  | .popping => 3
  | .testing => 2
  | .draining => 1
  | .left => 0

/-- How many steps `Server::Shutdown` has left. -/
def stageRank (numGrpcThreads numEventThreads : Nat) : ShutdownStage → Nat
  | .notCalled | .stopServing _ => 0
  | .grpcShutdown => 2 * numGrpcThreads + numEventThreads + 4
  | .shutdownQueue cq => 2 * (numGrpcThreads - cq) + numEventThreads + 3
  | .joinQueue cq => 2 * (numGrpcThreads - cq) + numEventThreads + 2
  | .joinEventThread t => numEventThreads - t + 1
  | .returned => 0

/-- The steps that the threads outside the server have left. -/
def endings (p : Process Req Resp) : Nat :=
  ∑ t ∈ Finset.range p.server.options.numEventThreads, loopRank (p.loops t) +
    ∑ cq ∈ Finset.range p.server.options.numGrpcThreads, (!p.queueLeft cq).toNat +
    ∑ r ∈ Finset.range p.server.nextRpc, (!p.ended r).toNat +
    stageRank p.server.options.numGrpcThreads p.server.options.numEventThreads p.stage

/-- What counts of a process: first the work of its server, then whether it has failed. -/
def processMeasures : List (Process Req Resp → Nat) :=
  windingMeasures.map (fun f p => f p.server) ++ [fun p => p.server.fault.isNone.toNat, endings]

/-- What `Server::Shutdown` has told the threads it waits for. -/
structure Told (p : Process Req Resp) : Prop where
  shuttingDown : p.stage ≠ .notCalled → p.shuttingDown = true
  joining : ∀ cq, p.stage = .joinQueue cq →
    cq < p.server.options.numGrpcThreads ∧ p.queueShutdown cq = true

section Process

variable {p p' : Process Req Resp} {l : ProcessLabel Req Resp}

theorem process_told (hp : (processSystem Req Resp options maps).Reachable p) : Told p := by
  apply process_invariant (P := Told) _ _ hp
  · exact ⟨fun h => absurd rfl h, by simp [Process.start]⟩
  · intro p l p' _ ih _ h
    cases h with
    | server _ hstep =>
      refine ⟨ih.shuttingDown, fun cq hcq => ?_⟩
      rw [step_options hstep]
      exact ih.joining cq hcq
    | notCalled _ => exact ⟨fun _ => rfl, by simp⟩
    | shutdownQueue hstage hcq =>
      refine ⟨fun _ => ih.shuttingDown (by simp [hstage]), ?_⟩
      rintro cq ⟨⟩
      exact ⟨hcq, by simp⟩
    | stopServing hstage _ _ | stopped hstage _ | grpcShutdown hstage _ | queuesJoined hstage _
    | joinQueue hstage _ | joinEventThread hstage _ _ | threadsJoined hstage _ =>
      exact ⟨fun _ => ih.shuttingDown (by simp [hstage]), by simp⟩
    | nextFalse _ _ | test _ | timeout _ | leave _ _ _ | endCall _ =>
      exact ⟨ih.shuttingDown, ih.joining⟩

/-- All services of a process that winds up shut down. -/
lemma late_shuttingDown (hp : (processSystem Req Resp options maps).Reachable p)
    (hlate : isLate p.stage = true) {r : Nat} (hr : r < p.server.nextRpc) :
    (p.server.services (p.server.rpcs r).service).shuttingDown = true := by
  apply (process_staged hp).stopped
  · rw [process_numServices hp]
    exact reachable_service (process_server hp) hr
  · cases hstage : p.stage <;> first | trivial | simp [isLate, hstage] at hlate

lemma acts_late (h : Acts p l p') (hlate : isLate p.stage = true) : isLate p'.stage = true := by
  cases h with
  | notCalled hstage | stopServing hstage _ _ => simp [isLate, hstage] at hlate
  | server _ _ | test _ | timeout _ | leave _ _ _ | nextFalse _ _ | endCall _ => exact hlate
  | _ => rfl

lemma endings_loops {t : Nat} {loop : EventLoop} (ht : t < p.server.options.numEventThreads)
    (hrank : loopRank loop < loopRank (p.loops t)) :
    endings { p with loops := update p.loops t loop } < endings p := by
  have hsum := sum_change (f := fun i => loopRank (p.loops i))
    (g := fun i => loopRank (update p.loops t loop i)) ht (by intro i _ hi; simp [hi])
  simp only [update_self] at hsum
  simp only [endings]
  omega

lemma endings_nextFalse {cq : Nat} (hcq : cq < p.server.options.numGrpcThreads)
    (hleft : p.queueLeft cq = false) :
    endings { p with queueLeft := update p.queueLeft cq true } < endings p := by
  have hsum := sum_change (f := fun i => (!p.queueLeft i).toNat)
    (g := fun i => (!update p.queueLeft cq true i).toNat) hcq (by intro i _ hi; simp [hi])
  simp only [update_self, hleft, Bool.not_true, Bool.not_false, Bool.toNat_true,
    Bool.toNat_false] at hsum
  simp only [endings]
  omega

lemma endings_endCall {r : Nat} (hr : r < p.server.nextRpc) (hended : p.ended r = false) :
    endings { p with ended := update p.ended r true } < endings p := by
  have hsum := sum_change (f := fun i => (!p.ended i).toNat)
    (g := fun i => (!update p.ended r true i).toNat) hr (by intro i _ hi; simp [hi])
  simp only [update_self, hended, Bool.not_true, Bool.not_false, Bool.toNat_true,
    Bool.toNat_false] at hsum
  simp only [endings]
  omega

/-- A step outside the server brings the end of the shutdown closer. -/
lemma acts_endings (htold : Told p) (hlate : isLate p.stage = true) (h : Acts p l p')
    (hl : winding p l = true) (hserver : ∀ l', l ≠ .server l') :
    p'.server = p.server ∧ endings p' < endings p := by
  cases h with
  | server _ _ => exact absurd rfl (hserver _)
  | notCalled hstage | stopServing hstage _ _ | stopped hstage _ =>
    simp [isLate, hstage] at hlate
  | grpcShutdown hstage _ =>
    refine ⟨rfl, ?_⟩
    simp only [endings, hstage, stageRank]
    omega
  | shutdownQueue hstage hcq =>
    refine ⟨rfl, ?_⟩
    simp only [endings, hstage, stageRank]
    omega
  | queuesJoined hstage hcq =>
    refine ⟨rfl, ?_⟩
    simp only [endings, hstage, stageRank]
    omega
  | @joinQueue cq hstage _ =>
    have hcq := (htold.joining cq hstage).1
    refine ⟨rfl, ?_⟩
    simp only [endings, hstage, stageRank]
    omega
  | joinEventThread hstage ht _ =>
    refine ⟨rfl, ?_⟩
    simp only [endings, hstage, stageRank]
    omega
  | threadsJoined hstage _ =>
    refine ⟨rfl, ?_⟩
    simp only [endings, hstage, stageRank]
    omega
  | test hloop =>
    have hset : p.shuttingDown = true := by
      apply htold.shuttingDown
      rintro hstage
      simp [isLate, hstage] at hlate
    refine ⟨rfl, endings_loops (by simpa [winding] using hl) ?_⟩
    simp [hset, hloop, loopRank]
  | timeout hloop | leave _ _ hloop =>
    refine ⟨rfl, endings_loops (by simpa [winding] using hl) ?_⟩
    simp [hloop, loopRank]
  | nextFalse _ _ =>
    simp only [winding, Bool.and_eq_true, decide_eq_true_eq, Bool.not_eq_true'] at hl
    exact ⟨rfl, endings_nextFalse hl.1 hl.2⟩
  | endCall _ =>
    simp only [winding, Bool.and_eq_true, decide_eq_true_eq, Bool.not_eq_true'] at hl
    exact ⟨rfl, endings_endCall hl.1 hl.2⟩

/-- Every step of a process that winds up lowers its measures. -/
theorem acts_winds (hp : (processSystem Req Resp options maps).Reachable p)
    (hlate : isLate p.stage = true) (hstep : p.step l = some p') (hl : winding p l = true) :
    Lower processMeasures (fun f => f p') (fun f => f p) := by
  have h := step_acts hstep
  by_cases hserver : ∀ l', l ≠ .server l'
  · obtain ⟨hsame, hlt⟩ := acts_endings (process_told hp) hlate h hl hserver
    refine Lower.append_of_le ?_ (.inr ⟨by simp [hsame], .inl hlt⟩)
    simp [hsame]
  · push Not at hserver
    obtain ⟨l', rfl⟩ := hserver
    cases h with
    | @server _ s _ hs' =>
      obtain ⟨hfault, hm⟩ := step_moves hs'
      have hdown := fun r hr => late_shuttingDown hp hlate (r := r) hr
      rcases moves_windingMeasures (process_server hp) hm hl hdown with hlower | ⟨hle, hfault'⟩
      · exact (lower_map.mpr hlower).append _
      · refine Lower.append_of_le (by simpa using hle) (.inl ?_)
        have hsome : s.fault.isNone = false := by simpa [Option.isSome_iff_ne_none] using hfault'
        simp [hfault, hsome]

section Rests

variable (hp : (processSystem Req Resp options maps).Reachable p) (hfault : p.server.fault = none)
  (hstuck : ∀ l, winding p l = true → p.step l = none)

include hfault hstuck

lemma server_stuck {l : Label Req Resp} (hl : serverWinding p.server l = true)
    (hadmits : p.admits l = true) : p.server.step l = none := by
  have h := hstuck (.server l) hl
  simpa [Process.step, hfault, Process.serverStep, hadmits] using h

lemma idle_of_rests (t : Nat) : (p.server.tasks t).code = [] := by
  have hwinding : serverWinding p.server (.exec t []) = true := by
    simp only [serverWinding]
    split <;> rfl
  exact idle_of_stuck hfault (server_stuck hfault hstuck hwinding rfl)

/-- An idle event thread that can neither pop nor time out has left its loop. -/
lemma left_of_rests {t : Nat} (ht : t < p.server.options.numEventThreads) :
    p.loops t = .left := by
  have hidle := idle_of_rests hfault hstuck t
  have hwinding : winding p (.timeout t) = true := by simpa [winding] using ht
  have htimeout := hstuck (.timeout t) hwinding
  have hwaits : p.loops t ≠ .popping ∧ p.loops t ≠ .draining := by
    by_contra hwaits
    rw [← not_or, not_not] at hwaits
    have hadmits : p.admits (.pop t) = true := by simpa [Process.admits] using hwaits
    have hqueue := queue_of_stuck hfault ht hidle (server_stuck hfault hstuck rfl hadmits)
    rcases hwaits with hloop | hloop <;>
      simp [Process.step, hfault, Process.timeout, hidle, hqueue, hloop] at htimeout
  cases hloop : p.loops t with
  | testing =>
    have htest := hstuck (.test t) hwinding
    simp [Process.step, hfault, Process.test, hloop, hidle] at htest
  | popping => exact absurd hloop hwaits.1
  | draining => exact absurd hloop hwaits.2
  | left => rfl

lemma callsEnded_of_rests : p.callsEnded = true := by
  simp only [Process.callsEnded, List.all_eq_true, List.mem_range, Bool.or_eq_true,
    decide_eq_true_eq]
  intro r hr
  by_contra hopen
  obtain ⟨hconn, hended⟩ := not_or.mp hopen
  have hend := hstuck (.endCall r) (by simpa [winding, hr] using hended)
  simp [Process.step, hfault, Process.endCall, not_not.mp hconn] at hend

include hp

/-- A completion queue that was shut down and whose thread can make no step has been left. -/
lemma queueLeft_of_rests {cq : Nat} (hcq : cq < p.server.options.numGrpcThreads)
    (hshut : p.queueShutdown cq = true) : p.queueLeft cq = true := by
  by_contra hleft
  have hleft : p.queueLeft cq = false := by simpa using hleft
  have hs := process_server hp
  have hinHand : ∀ cq, p.server.inHand cq = none :=
    fun cq => inHand_of_stuck hfault (server_stuck hfault hstuck (l := .pushToEventQueue cq) rfl rfl)
  have hdrained : p.drained cq = true := by
    refine drained_iff.mpr ⟨hinHand cq, fun r hr hplace tag => ?_⟩
    apply owed_of_stuck hfault hs hr (hinHand _)
    apply server_stuck hfault hstuck
    · simp [serverWinding]
    · simp [Process.admits, hplace, hleft]
  have hnext := hstuck (.nextFalse cq) (by simp [winding, hcq, hleft])
  simp [Process.step, hfault, Process.nextFalse, hshut, hdrained] at hnext

/-- `Server::Shutdown` waits for nothing. -/
lemma returned_of_rests (hlate : isLate p.stage = true) : p.stage = .returned := by
  have hshutdown := hstuck .shutdown rfl
  simp only [Process.step, hfault, ne_eq, not_true_eq_false, if_false, Process.shutdownStep]
    at hshutdown
  split at hshutdown
  · rename_i hstage
    simp [isLate, hstage] at hlate
  · rename_i v hstage
    simp [isLate, hstage] at hlate
  · simp [callsEnded_of_rests hfault hstuck] at hshutdown
  · split at hshutdown <;> cases hshutdown
  · rename_i cq hstage
    obtain ⟨hcq, hshut⟩ := (process_told hp).joining cq hstage
    simp [queueLeft_of_rests hp hfault hstuck hcq hshut] at hshutdown
  · split at hshutdown
    · rename_i ht
      simp [left_of_rests hfault hstuck ht] at hshutdown
    · cases hshutdown
  · assumption

end Rests

lemma keeps_late (p : Process Req Resp) (l : ProcessLabel Req Resp) (p' : Process Req Resp)
    (hp : (processSystem Req Resp options maps).Reachable p ∧ isLate p.stage = true)
    (_hl : True) (h : ((processSystem Req Resp options maps).restrict winding).step p l = some p') :
    (processSystem Req Resp options maps).Reachable p' ∧ isLate p'.stage = true := by
  obtain ⟨-, hstep⟩ := System.restrict_step.mp h
  exact ⟨.step hp.1 trivial hstep, acts_late (step_acts hstep) hp.2⟩

lemma winding_forces (hp : (processSystem Req Resp options maps).Reachable p)
    (hlate : isLate p.stage = true) :
    ((processSystem Req Resp options maps).restrict winding).Forces (fun _ => True)
      (fun p => p.server.fault ≠ none ∨ p.stage = .returned) p := by
  have hends : ((processSystem Req Resp options maps).restrict winding).Ends (fun _ => True) p := by
    apply System.ends_of_lower processMeasures (fun f p => f p) keeps_late _ ⟨hp, hlate⟩
    intro p l p' hp _ h
    obtain ⟨hl, hstep⟩ := System.restrict_step.mp h
    exact acts_winds hp.1 hp.2 hstep hl
  refine hends.forces.imp ⟨hp, hlate⟩ keeps_late ?_
  intro p hp hrests
  by_cases hfault : p.server.fault = none
  · refine .inr (returned_of_rests hp.1 hfault (fun l hl => ?_) hp.2)
    by_contra hne
    obtain ⟨p', hstep⟩ := Option.ne_none_iff_exists'.mp hne
    exact Option.some_ne_none _ ((System.restrict_step.mpr ⟨hl, hstep⟩).symm.trans (hrests l trivial))
  · exact .inl hfault

/-- The step is no call of a `Writer`. -/
def NoWriterCalled (_p : Process Req Resp) (l : ProcessLabel Req Resp) : Prop :=
  ∀ r method, l ≠ .server (.callWriter r method)

lemma process_withoutWriters (hp : (processSystem Req Resp options maps).Reach NoWriterCalled p) :
    (serverSystem Req Resp options maps).Reach WithoutWriters p.server := by
  apply process_invariant
    (P := fun p => (serverSystem Req Resp options maps).Reach WithoutWriters p.server)
    (.init rfl) _ hp
  intro p l p' _ ih hg h
  cases h with
  | server _ hstep =>
    refine .step ih ?_ hstep
    rintro r method rfl
    exact hg r method rfl
  | @stopServing v _ _ hstep =>
    have hsilent : WithoutWriters p.server (.stopServing v) := by simp [WithoutWriters]
    exact .step ih hsilent hstep
  | _ => exact ih

end Process

/-- For any number of threads, once `StopServing` has been called on every service, and as long as
no `Read` succeeds, handlers do nothing in `OnFinish` and `Writer`s are not called: whatever the
order in which the threads run, handlers act, calls end and gRPC returns what it holds,
`Server::Shutdown` returns after finitely many steps or a `CHECK` fails. With one event thread and
without earlier `Writer` calls it returns. -/
theorem shutdown_returns {p : Process Req Resp}
    (hp : (processSystem Req Resp options maps).Reachable p) (hlate : isLate p.stage = true) :
    ((processSystem Req Resp options maps).restrict winding).Forces (fun _ => True)
        (fun p => p.server.fault ≠ none ∨ p.stage = .returned) p ∧
      (options.numEventThreads = 1 →
        (processSystem Req Resp options maps).Reach NoWriterCalled p →
        ((processSystem Req Resp options maps).restrict winding).Forces (fun _ => True)
          (fun p => p.stage = .returned) p) := by
  refine ⟨winding_forces hp hlate, fun hn hsilent => ?_⟩
  refine (winding_forces hp hlate).imp hsilent ?_ ?_
  · intro p l p' hp _ h
    obtain ⟨hl, hstep⟩ := System.restrict_step.mp h
    refine .step hp ?_ hstep
    rintro r method rfl
    cases hl
  · intro p hp h
    exact h.resolve_left (not_not.mpr (reach_fault hn (process_withoutWriters hp)))

def noWriterCalled (_p : Process Nat Nat) : ProcessLabel Nat Nat → Bool
  | .server (.callWriter _ _) => false
  | _ => true

lemma noWriterCalled_sound (p : Process Nat Nat) (l : ProcessLabel Nat Nat)
    (h : noWriterCalled p l = true) : NoWriterCalled p l := by
  rintro r method rfl
  cases h

/-- `Server::Shutdown` is called while a client is connected. -/
theorem shutdown_returns_of_open_call :
    ∃ p, (processSystem Nat Nat oneEventThread sumService).Reachable p ∧ p.stage = .grpcShutdown ∧
      p.callsEnded = false ∧
      ((processSystem Nat Nat oneEventThread sumService).restrict winding).Forces (fun _ => True)
        (fun p => p.stage = .returned) p := by
  obtain ⟨p, hp, htest⟩ := exists_process oneEventThread sumService (G := NoWriterCalled)
    noWriterCalled noWriterCalled_sound
    (served openConnection ++ [.shutdown, .shutdown, .shutdown])
    (fun p => p.stage = .grpcShutdown ∧ p.callsEnded = false) (by decide +kernel)
  obtain ⟨hstage, hcalls⟩ := of_decide_eq_true htest
  exact ⟨p, hp.reachable, hstage, hcalls,
    (shutdown_returns hp.reachable (by rw [hstage]; rfl)).2 rfl hp⟩

end AsyncGrpc.Proofs
