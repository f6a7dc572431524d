import AsyncGrpc.Proofs.Connection
import AsyncGrpc.Proofs.Writer

/-!
# What can bring the server down

The instructions of the event threads and the `Writer` calls pass many `CHECK`s. For any number
of event threads and any handlers only one of them can fail, the lookup of an `Rpc` in
`ActiveRpcs`. With one event thread and without `Writer` calls that one does not fail either.
-/

namespace AsyncGrpc.Proofs

open Function Transition

variable {Req Resp : Type} {options : Options} {maps : List (List (String × RpcHandlerInfo))}

/-! ### Instructions that fail -/

/-- The item that an instruction is to send can be sent on a call of the type. -/
def FitsType (rpcType : RpcType) : Instr Resp → Prop
  | .performFinish item => item.msg = none ∨ rpcType.streamsResponses = false
  | .performWrite item => item.msg ≠ none ∧ rpcType.streamsResponses = true
  | _ => True

/-- Only `HandleSendQueue` hands items on, each to the operation that can send it. -/
lemma run_fitsType {i : Instr Resp} {env : Surroundings} {acts : List (HandlerAction Resp)}
    {x : Rpc Req Resp} {o : Outcome Req Resp} (h : i.run env acts x = some o) :
    ∀ j ∈ o.next, FitsType x.rpcType j := by
  cases run_runs h with
  | @handle tag =>
    cases tag with
    | read =>
      cases (x.event .read).ok <;>
        simp [Service.handleEvent, Tag.event, Service.handleRead, FitsType]
    | newConnection | write | finish | done =>
      simp [Service.handleEvent, Tag.event, Service.handleWrite, Service.handleFinish,
        Service.handleDone, FitsType]
  | @handleNewConnection ok =>
    cases env.shuttingDown <;> cases ok <;> simp [Service.handleNewConnection, FitsType]
  | callback _ =>
    intro j hj
    have hproducer := instrs_producer acts j hj
    cases j <;> trivial
  | takeFinish _ _ _ hitem => simpa [FitsType] using hitem
  | takeWrite _ _ _ hmsg hstream => simp [FitsType, hmsg, hstream]
  | _ => simp [FitsType, Service.handleWrite]

theorem reachable_fitsType {c : Part Req Resp} (hc : (partSystem Req Resp).Reachable c) :
    ∀ t, ∀ i ∈ c.code t, FitsType c.rpc.rpcType i := by
  apply part_invariant (P := fun c => ∀ t, ∀ i ∈ c.code t, FitsType c.rpc.rpcType i) _ _ hc
  · rintro c ⟨methodIndex, cq, queue, info, service, parent, eventQueue, shuttingDown, rfl⟩
    simp [Part.listening]
  · intro c m c' _ ih h t j hj
    have htype : c'.rpc.rpcType = c.rpc.rpcType :=
      congrArg RpcHandlerInfo.rpcType (does_samePlace h).rpcHandlerInfo
    rw [htype]
    rcases does_code h t with hsame | ⟨e, -, -, hcode⟩ | ⟨i, rest, acts, o, hcode, hrun, hcode'⟩
    · exact ih t j (hsame ▸ hj)
    · rw [hcode, List.mem_singleton] at hj
      subst hj
      cases e <;> trivial
    · rw [hcode'] at hj
      rcases List.mem_append.mp hj with hj | hj
      · exact run_fitsType hrun j hj
      · exact ih t j (by simp [hcode, hj])

/-- The instructions that look the `Rpc` up in `ActiveRpcs`. -/
def looksUp : Instr Resp → Bool
  | .getWeakPtr | .getWriter => true
  | _ => false

lemma isEarly_of_looksUp {i : Instr Resp} (h : looksUp i = true) : isEarly i = false := by
  cases i <;> first | rfl | cases h

/-- An instruction that fails is the lookup of an erased `Rpc`, unless its item does not fit the
call or it calls a handler that does not exist. -/
lemma looksUp_of_run_eq_none {i : Instr Resp} {env : Surroundings}
    {acts : List (HandlerAction Resp)} {x : Rpc Req Resp} (h : i.run env acts x = none)
    (hfits : FitsType x.rpcType i) (hearly : x.handler = false → isEarly i = true) :
    looksUp i = true ∧ env.active = false := by
  cases i with
  | handleInternal =>
    simp only [Instr.run] at h
    split at h <;> cases h
  | callback kind =>
    cases hhandler : x.handler with
    | true => simp [Instr.run, hhandler] at h
    | false => exact absurd (hearly hhandler) (by simp [isEarly])
  | performFinish item =>
    obtain ⟨op, hop⟩ : ∃ op, Rpc.finishOp x.rpcType item = some op := by
      cases hmsg : item.msg with
      | none => cases htype : x.rpcType <;> simp [Rpc.finishOp, hmsg]
      | some m =>
        have hwhole := hfits.resolve_left (by simp [hmsg])
        rcases streamsResponses_eq_false_iff.mp hwhole with htype | htype <;>
          simp [Rpc.finishOp, hmsg, htype]
    simp [Instr.run, Rpc.performFinish, hop] at h
  | performWrite item =>
    obtain ⟨m, hm⟩ := Option.ne_none_iff_exists'.mp hfits.1
    have hstream : ¬(x.rpcType = .normalRpc ∨ x.rpcType = .clientStreaming) := by
      intro hwhole
      have := streamsResponses_eq_false_iff.mpr hwhole
      simp [hfits.2] at this
    simp [Instr.run, Rpc.performWrite, hm, hstream] at h
  | getWeakPtr | getWriter =>
    simp only [Instr.run] at h
    split at h
    · cases h
    · rename_i hactive
      exact ⟨rfl, by simpa using hactive⟩
  | _ => cases h

/-! ### Faults of the server -/

/-- The thread that has failed stands at the lookup of an `Rpc` that is not in `ActiveRpcs`. -/
def LookedUpInVain (s : Server Req Resp) : Fault → Prop
  | .eventThread t => (∃ i rest, (s.tasks t).code = i :: rest ∧ looksUp i = true) ∧
      s.active (s.tasks t).rpc = false
  | .writer r i => (∃ item, (s.writers r)[i]? = some ⟨item, .enqueued⟩) ∧ s.active r = false

lemma writerStep_eq_none {w : WriterCall Resp} {env : Surroundings} {x : Rpc Req Resp}
    (h : w.step env x = none) : w.pc = .enqueued ∧ env.active = false := by
  unfold WriterCall.step at h
  split at h
  · split at h <;> cases h
  · cases h
  · rename_i hpc
    split at h
    · cases h
    · rename_i hactive
      exact ⟨hpc, by simpa using hactive⟩
  · cases h
  · cases h
  · cases h

/-- The server fails in an instruction of an event thread or in a step of a `Writer` call. -/
lemma moves_fault {s s' : Server Req Resp} {l : Label Req Resp} (h : Moves s l s')
    (hfault : s.fault = none) :
    s'.fault = none ∨
      (∃ t acts r i rest, s' = { s with fault := some (.eventThread t) } ∧
        s.tasks t = ⟨r, i :: rest⟩ ∧ i.run (s.surroundings r) acts (s.rpcs r) = none) ∨
      ∃ r i w, s' = { s with fault := some (.writer r i) } ∧ (s.writers r)[i]? = some w ∧
        w.step (s.surroundings r) (s.rpcs r) = none := by
  cases h with
  | execFault htask hrun => exact .inr (.inl ⟨_, _, _, _, _, rfl, htask, hrun⟩)
  | writerFault hw _ hstep => exact .inr (.inr ⟨_, _, _, rfl, hw, hstep⟩)
  | exec _ _ | stepWriter _ _ _ =>
    rw [apply_fault]
    exact .inl hfault
  | _ => exact .inl hfault

lemma reachable_lookedUpInVain {s : Server Req Resp}
    (hs : (serverSystem Req Resp options maps).Reachable s) {f : Fault} (hf : s.fault = some f) :
    LookedUpInVain s f := by
  cases hs with
  | init hinit =>
    rw [hinit, start_quiet_housed.1.fault] at hf
    cases hf
  | @step s₀ _ l hs₀ _ hstep =>
    obtain ⟨hnone, hm⟩ := step_moves hstep
    rcases moves_fault hm hnone with hsame | ⟨t, acts, r, i, rest, rfl, htask, hrun⟩ |
      ⟨r, i, w, rfl, hw, hwstep⟩
    · rw [hsame] at hf
      cases hf
    · cases hf
      have hr := ((reachable_housed hs₀).tasks t (by simp [htask])).1
      rw [htask] at hr
      have hpart := reachable_part hs₀ hr
      have hmem : i ∈ (s₀.part r).code t := by simp [Server.part, htask]
      obtain ⟨hlook, hactive⟩ := looksUp_of_run_eq_none hrun (reachable_fitsType hpart t i hmem)
        (fun hhandler => (reachable_early hpart hhandler).code t i hmem)
      exact ⟨⟨i, rest, by simp [htask], hlook⟩, by rw [htask]; exact hactive⟩
    · cases hf
      obtain ⟨hpc, hactive⟩ := writerStep_eq_none hwstep
      exact ⟨⟨w.item, by rw [← hpc]; exact hw⟩, hactive⟩

/-- The `Rpc` that the failed thread was working on. -/
def faultyRpc (s : Server Req Resp) : Fault → Nat
  | .eventThread t => (s.tasks t).rpc
  | .writer r _ => r

/-- For any number of event threads, any handlers and any run: the `CHECK` of `GetWeakPtr` is the
only one that ever fails, and only on an `Rpc` whose connection was accepted and that has been
erased since. -/
theorem only_lookups_fail {s : Server Req Resp}
    (hs : (serverSystem Req Resp options maps).Reachable s) {f : Fault} (hf : s.fault = some f) :
    LookedUpInVain s f ∧ (s.rpcs (faultyRpc s f)).handler = true ∧
      (s.rpcs (faultyRpc s f)).connected = some true := by
  have hh := reachable_housed hs
  have hvain := reachable_lookedUpInVain hs hf
  have hhandler : faultyRpc s f < s.nextRpc ∧ (s.rpcs (faultyRpc s f)).handler = true := by
    cases f with
    | eventThread t =>
      obtain ⟨⟨i, rest, hcode, hlook⟩, -⟩ := hvain
      have hr := (hh.tasks t (by simp [hcode])).1
      refine ⟨hr, ?_⟩
      by_contra hfalse
      have hearly := reachable_early (reachable_part hs hr) (by simpa [faultyRpc, Server.part] using hfalse)
      have hi := hearly.code t i (by simp [Server.part, hcode])
      exact absurd ((isEarly_of_looksUp hlook).symm.trans hi) (by simp)
    | writer r i =>
      obtain ⟨⟨item, hw⟩, -⟩ := hvain
      have hne : s.writers r ≠ [] := by
        intro hnil
        simp [hnil] at hw
      refine ⟨hh.writers r hne, ?_⟩
      by_contra hfalse
      exact hne (reachable_early (reachable_part hs (hh.writers r hne))
        (by simpa [faultyRpc, Server.part] using hfalse)).writers
  refine ⟨hvain, hhandler.2, ?_⟩
  exact (reachable_connecting (reachable_part hs hhandler.1)).handler hhandler.2

/-- The client goes away while a `Writer` call is between its lock and its lookup. -/
theorem only_lookups_fail_of_writer :
    ∃ s, (serverSystem Nat Nat oneEventThread sumService).Reachable s ∧
      s.fault = some (.writer 0 0) ∧ (∃ item, (s.writers 0)[0]? = some ⟨item, .enqueued⟩) ∧
      s.active 0 = false ∧ (s.rpcs 0).connected = some true := by
  obtain ⟨s, hs, hp⟩ := exists_reachable oneEventThread sumService
    (openWithWriter ++ lockByWriter ++ closeConnection ++ execs 1 ++
      [.stepWriter 0 0, .stepWriter 0 0])
    (fun s => s.fault = some (.writer 0 0)) (by decide +kernel)
  have hf := of_decide_eq_true hp
  obtain ⟨⟨hitem, hactive⟩, -, hconnected⟩ := only_lookups_fail hs hf
  exact ⟨s, hs, hf, hitem, hactive, hconnected⟩

/-! ### One event thread and no `Writer` calls -/

/-- An erased call that no `Writer` call can bring back to life: only `DONE` may still come, and
the thread is on its way out of a handler, takes up a stale event, or handles `DONE`. -/
def Retired (c : Call Req Resp) (acts : List (Instr Resp)) (p : Phase Resp) : Prop :=
  acts = [] ∧ (p.leaving = true ∨ p = .handle .done) ∧
    ∀ tag, c.rpc.isRpcEventPending tag = true → tag = .done

structure Retires (c : Call Req Resp) (acts : List (Instr Resp)) (p : Phase Resp) : Prop where
  lives : Lives c acts p
  writers : c.writers = []
  retired : c.active = false → Retired c acts p

section Turns

variable {c c' : Call Req Resp} {acts acts' : List (Instr Resp)} {p p' : Phase Resp}
  {l : CallLabel Req Resp}

/-- Nothing owns an erased call when its thread takes up a `WRITE_NEEDED` event. -/
lemma alive_eq_false (hat : At c [] .handleInternal) (hwriters : c.writers = [])
    (hactive : c.active = false) : c.alive = false := by
  have hcode : c.code = [.handleInternal] := hat.code
  simp [Call.alive, hactive, hwriters, hcode, Instr.isReleaseShared]

/-- The turns of an erased call. -/
lemma Retired.turn (h : Retires c acts p) (hat : At c acts p) (hactive : c.active = false)
    (hl : ∀ method, l ≠ .callWriter method) (ht : Turn c acts p l c' acts' p') :
    Retired c' acts' p' := by
  obtain ⟨hacts, hphase, hpending⟩ := h.retired hactive
  cases ht with
  | next _ _ => exact ⟨hacts, hphase, hpending⟩
  | @pushToEventQueue _ _ tag ok hhand =>
    refine ⟨hacts, hphase, fun tag' htag' => hpending tag' ?_⟩
    rwa [setOk_pending] at htag'
  | @pop e rest hmail =>
    have hmem : e ∈ transit c .idle := by simp [transit, hmail]
    obtain rfl := hpending e (h.lives.accounts.pending_of_mem hmem)
    exact ⟨rfl, .inr rfl, hpending⟩
  | callWriter _ => exact absurd rfl (hl _)
  | writerLock hw _ | writerExpired hw _ | writerEnqueue hw | writerLookUp hw _ | writerPush hw
  | writerReturn hw =>
    rw [h.writers] at hw
    cases hw
  | enqueueMessage | getWeakPtr _ | pushWriteNeeded | getWriter _ => cases hacts
  | @handle tag as =>
    obtain rfl : tag = .done := by simpa [Phase.leaving] using hphase
    refine ⟨rfl, .inl rfl, fun tag htag => hpending tag ?_⟩
    rw [startHandling_pending, Bool.and_eq_true] at htag
    exact htag.2
  | handleInternal halive =>
    rw [alive_eq_false hat h.writers hactive] at halive
    cases halive
  | callback hp _ => cases p <;> simp_all [Phase.leaving, Phase.callback]
  | keep _ | erase _ =>
    rename_i shared _ _
    exact ⟨rfl, .inl (by cases shared <;> rfl), hpending⟩
  | popInternal _ | stale _ | clone | releaseShared => exact ⟨rfl, .inl rfl, hpending⟩
  | stopServing => exact ⟨hacts, hphase, hpending⟩
  | _ => simp [Phase.leaving] at hphase

/-- A call that is being removed waits for nothing but `DONE`. -/
lemma Lives.retired_of_remove {e : Ending} (h : Lives c [] (.remove e)) :
    Retired c [] (.ending e) := by
  refine ⟨rfl, .inl rfl, fun tag htag => ?_⟩
  by_contra hdone
  by_cases hnew : tag = .newConnection
  · subst hnew
    rcases (h.accounts.waiting htag).2 with hp | ⟨hp, -⟩ <;> cases hp
  · have hfresh := (h.accounts.fresh h.fits.1).1.1 tag hnew hdone
    exact absurd (hfresh.symm.trans htag) (by simp)

theorem turn_retires (h : Retires c acts p) (hat : At c acts p)
    (hl : ∀ method, l ≠ .callWriter method) (ht : Turn c acts p l c' acts' p') :
    Retires c' acts' p' := by
  refine ⟨turn_lives h.lives ht, turn_writers h.writers hl ht, fun hactive' => ?_⟩
  cases hactive : c.active with
  | false => exact Retired.turn h hat hactive hl ht
  | true =>
    -- The turn erases the call.
    cases ht with
    | remove => exact h.lives.retired_of_remove
    | @erase shared as hpending =>
      refine ⟨rfl, .inl (by cases shared <;> rfl), fun tag htag => ?_⟩
      exact absurd ((h.lives.erase hpending tag).symm.trans htag) (by simp)
    | _ => exact absurd (hactive.symm.trans hactive') (by simp)

/-- No instruction of the thread looks an erased call up. -/
lemma Retired.not_looksUp (h : Retired c acts p) (hat : At c acts p) {i : Instr Resp}
    {rest : List (Instr Resp)} (hcode : c.code = i :: rest) : looksUp i = false := by
  obtain ⟨rfl, hphase, -⟩ := h
  have hp : p.code = i :: rest := hat.code.symm.trans hcode
  cases p with
  | handle tag | handleInternal | releaseShared =>
    cases hp
    rfl
  | ending e =>
    rcases e with _ | _ | _ | _ <;> cases hp <;> rfl
  | _ => simp [Phase.leaving] at hphase

end Turns

/-- The step is no call of a `Writer`. -/
def WithoutWriters (_s : Server Req Resp) (l : Label Req Resp) : Prop :=
  ∀ r method, l ≠ .callWriter r method

lemma reach_retires (hn : options.numEventThreads = 1) {s : Server Req Resp}
    (hs : (serverSystem Req Resp options maps).Reach WithoutWriters s) {r : Nat}
    (hr : r < s.nextRpc) : ∃ acts p, At (s.call r) acts p ∧ Retires (s.call r) acts p := by
  have hcall : (callSystem Req Resp).Reach (fun _ l => ∀ method, l ≠ .callWriter method)
      (s.call r) := by
    apply reach_call (F := fun _ _ l => ∀ method, l ≠ .callWriter method) _ hs hr
      (routed_of_one_thread hn hs.reachable hr).1
    rintro s l s' r m _ hl _ _ _ hproj method rfl
    exact hl r method (project_callWriter hproj)
  apply reach_staged _ _ hcall
  · intro c hinit
    refine ⟨listening_lives hinit, ?_, ?_⟩ <;>
      obtain ⟨methodIndex, cq, queue, info, service, parent, shuttingDown, rfl⟩ := hinit
    · rfl
    · exact fun hfalse => absurd hfalse (by simp [Call.listening])
  · intro c acts p l c' acts' p' hat h hl ht
    exact turn_retires h hat hl ht

lemma reach_fault (hn : options.numEventThreads = 1) {s : Server Req Resp}
    (hs : (serverSystem Req Resp options maps).Reach WithoutWriters s) : s.fault = none := by
  by_contra hne
  obtain ⟨f, hf⟩ := Option.ne_none_iff_exists'.mp hne
  have hh := reachable_housed hs.reachable
  have hvain := reachable_lookedUpInVain hs.reachable hf
  cases f with
  | eventThread t =>
    obtain ⟨⟨i, rest, hcode, hlook⟩, hactive⟩ := hvain
    have hr := (hh.tasks t (by simp [hcode])).1
    obtain ⟨hR, -⟩ := routed_of_one_thread hn hs.reachable hr
    obtain ⟨acts, p, hat, h⟩ := reach_retires hn hs hr
    have ht := hh.task_eq (by simp [hcode]) hR
    have hcall : (s.call (s.tasks t).rpc).code = i :: rest := by
      simp [Server.call, ← ht, hcode]
    exact absurd (((h.retired hactive).not_looksUp hat hcall).symm.trans hlook) (by simp)
  | writer r i =>
    obtain ⟨⟨item, hw⟩, -⟩ := hvain
    have hr := hh.writers r (by intro hnil; simp [hnil] at hw)
    obtain ⟨acts, p, -, h⟩ := reach_retires hn hs hr
    have hnil : s.writers r = [] := h.writers
    simp [hnil] at hw

/-- With one event thread, whatever the handlers do in their callbacks and whenever `StopServing`
is called: as long as no `Writer` is called, no `CHECK` of the server fails, and of an erased
`Rpc` nothing but `DONE` is ever pending. -/
theorem no_fault_without_writers (hn : options.numEventThreads = 1) {s : Server Req Resp}
    (hs : (serverSystem Req Resp options maps).Reach WithoutWriters s) :
    s.fault = none ∧ ∀ r < s.nextRpc, s.active r = false →
      ∀ tag, (s.rpcs r).isRpcEventPending tag = true → tag = .done := by
  refine ⟨reach_fault hn hs, fun r hr hactive => ?_⟩
  obtain ⟨acts, p, -, h⟩ := reach_retires hn hs hr
  exact (h.retired hactive).2.2

def withoutWriters (_s : Server Nat Nat) : Label Nat Nat → Bool
  | .callWriter _ _ => false
  | _ => true

lemma withoutWriters_sound (s : Server Nat Nat) (l : Label Nat Nat)
    (h : withoutWriters s l = true) : WithoutWriters s l := by
  rintro r method rfl
  cases h

/-- A client connects, sends a request that is answered, and goes away. -/
theorem no_fault_of_answer :
    ∃ s, (serverSystem Nat Nat oneEventThread sumService).Reach WithoutWriters s ∧
      s.active 0 = false ∧ (s.rpcs 0).sends = [.finish (some 7) .ok] ∧ s.fault = none ∧
      ∀ tag, (s.rpcs 0).isRpcEventPending tag = true → tag = .done := by
  obtain ⟨s, hs, hp⟩ := exists_reach (G := WithoutWriters) oneEventThread sumService
    withoutWriters withoutWriters_sound
    (openConnection ++ event .read false none ++ execs 1 ++ callback [.send 7] ++ execs 4 ++
      writeNeeded 5 ++ event .finish true none ++ execs 3 ++ event .done true none ++ execs 2)
    (fun s => 0 < s.nextRpc ∧ s.active 0 = false ∧ (s.rpcs 0).sends = [.finish (some 7) .ok])
    (by decide +kernel)
  obtain ⟨hr, hactive, hsends⟩ := of_decide_eq_true hp
  obtain ⟨hfault, hpending⟩ := no_fault_without_writers rfl hs
  exact ⟨s, hs, hactive, hsends, hfault, hpending 0 hr hactive⟩

end AsyncGrpc.Proofs
