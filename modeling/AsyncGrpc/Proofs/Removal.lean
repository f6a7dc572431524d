import AsyncGrpc.Proofs.Writer

/-!
# Removal inside one event handling

A handler erases its `Rpc` from `ActiveRpcs` with its last instruction, so that it makes no
call on an object that may be gone. The exception is `HandleNewConnection`, which erases an
`Rpc` whose connection failed and then clones it. The states are arbitrary ones: any `Rpc`s,
flags and `ActiveRpcs`, and any other threads.
-/

namespace AsyncGrpc.Proofs

open Function Transition

variable {Req Resp : Type}

/-- The steps of a server from any state. -/
def serverSteps (Req Resp : Type) : System (Server Req Resp) (Label Req Resp) :=
  ⟨fun _ => True, Server.step⟩

/-- The thread has just called `HandleEvent(event, rpc, ok)`. -/
structure Called (s : Server Req Resp) (t r : Nat) (event : Event) (ok : Bool) : Prop where
  running : s.fault = none
  constructed : r < s.nextRpc
  task : s.tasks t = ⟨r, Service.handleEvent event ok⟩

/-- Whether the service of the `Rpc` is shutting down. -/
def stopping (s : Server Req Resp) (r : Nat) : Bool :=
  (s.services (s.rpcs r).service).shuttingDown

/-- The thread makes no call on the `Rpc` in this handling after it has erased it, whatever
the handlers do and the other threads do in between. -/
def QuietAfterRemoval (s : Server Req Resp) (t r : Nat) : Prop :=
  ∀ s₁ s₂ acts, (serverSteps Req Resp).Leads (fun _ l => l ≠ .pop t) s s₁ →
    s₁.step (.exec t acts) = some s₂ → s₁.active r = true → s₂.active r = false →
    (s₂.tasks t).code = []

/-! ### The code of a handler -/

/-- The instructions that leave `ActiveRpcs` alone, and are replaced by such instructions. -/
def keepsActive : Instr Resp → Bool
  | .onConnection | .callback _ | .requestStreamingReadIfNeeded | .handleSendQueue
  | .performFinish _ | .performWrite _ | .clone | .enqueueMessage _ | .getWeakPtr
  | .pushWriteNeeded | .getWriter => true
  | .handle _ | .handleInternal | .releaseShared | .handleNewConnection _ | .remove
  | .removeIfNotPending => false

/-- Code of a handler that removes its `Rpc` with its last instruction. -/
inductive Tidy (stop : Bool) : List (Instr Resp) → Prop
  | nil : Tidy stop []
  | handleNewConnection {ok : Bool} (h : ok = true ∨ stop = true) :
      Tidy stop [.handleNewConnection ok]
  | remove : Tidy stop [.remove]
  | removeIfNotPending : Tidy stop [.removeIfNotPending]
  | cons {i : Instr Resp} {rest : List (Instr Resp)} (hi : keepsActive i = true)
      (hrest : Tidy stop rest) : Tidy stop (i :: rest)

variable {stop : Bool}

lemma Tidy.append {code rest : List (Instr Resp)} (hcode : ∀ i ∈ code, keepsActive i = true)
    (hrest : Tidy stop rest) : Tidy stop (code ++ rest) := by
  induction code with
  | nil => exact hrest
  | cons i code ih =>
    exact .cons (hcode i (.head _)) (ih (fun j hj => hcode j (.tail _ hj)))

/-- A service that starts to shut down only makes code tidier. -/
lemma Tidy.mono {code : List (Instr Resp)} {stop' : Bool} (h : Tidy stop code)
    (hstop : stop = true → stop' = true) : Tidy stop' code := by
  induction h with
  | nil => exact .nil
  | handleNewConnection h => exact .handleNewConnection (h.imp_right hstop)
  | remove => exact .remove
  | removeIfNotPending => exact .removeIfNotPending
  | cons hi _ ih => exact .cons hi ih

lemma handleEvent_tidy {event : Event} {ok : Bool}
    (h : ¬ (event = .newConnection ∧ ok = false ∧ stop = false)) :
    Tidy stop (Service.handleEvent event ok : List (Instr Resp)) := by
  cases event with
  | newConnection =>
    refine .handleNewConnection ?_
    by_contra hc
    rw [not_or, Bool.not_eq_true, Bool.not_eq_true] at hc
    exact h ⟨rfl, hc⟩
  | read =>
    cases ok with
    | true => exact .cons rfl (.cons rfl .nil)
    | false => exact .cons rfl .removeIfNotPending
  | writeNeeded | write => exact .cons rfl .removeIfNotPending
  | finish => exact .cons rfl .removeIfNotPending
  | done => exact .removeIfNotPending

lemma keepsActive_of_producer {i : Instr Resp} (h : isProducer i = true) :
    keepsActive i = true := by
  cases i with
  | enqueueMessage _ | getWeakPtr | pushWriteNeeded | getWriter => rfl
  | _ => cases h

section

variable {env : Surroundings} {acts : List (HandlerAction Resp)} {x : Rpc Req Resp}
  {o : Outcome Req Resp}

lemma runs_keepsActive {i : Instr Resp} (h : Runs env acts x i o) (hi : keepsActive i = true) :
    ∀ j ∈ o.next, keepsActive j = true := by
  cases h with
  | callback _ => exact fun j hj => keepsActive_of_producer (instrs_producer acts j hj)
  | connect _ | reconnect _ | readWhole _ | takeFinish _ _ _ _ | takeWrite _ _ _ _ _ =>
    simp [keepsActive]
  | startRead _ | keepQueue _ | performFinish _ | performWrite _ _ | clone | enqueueMessage
  | getWeakPtr _ | pushWriteNeeded | getWriter _ => simp
  | handle | handleInternal _ | stale _ | releaseShared | handleNewConnection | remove | keep _
  | erase _ => cases hi

/-- What one instruction leaves of tidy code is tidy. -/
lemma Tidy.runs {i : Instr Resp} {rest : List (Instr Resp)} (h : Tidy env.shuttingDown (i :: rest))
    (hrun : Runs env acts x i o) : Tidy env.shuttingDown (o.next ++ rest) := by
  cases h with
  | @handleNewConnection ok hok =>
    cases hrun
    cases hstop : env.shuttingDown with
    | true => exact .remove
    | false =>
      obtain rfl : ok = true := hok.resolve_right (by simp [hstop])
      exact .cons rfl (.cons rfl .nil)
  | remove =>
    cases hrun
    exact .nil
  | removeIfNotPending => cases hrun <;> exact .nil
  | cons hi hrest => exact .append (runs_keepsActive hrun hi) hrest

end

/-! ### Nothing after the removal -/

lemma moves_inactive {s s' : Server Req Resp} {l : Label Req Resp} (h : Moves s l s') {r : Nat}
    (hr : r < s.nextRpc) (hactive : s.active r = false) : s'.active r = false := by
  rw [Server.active, decide_eq_false_iff_not] at hactive ⊢
  rw [(moves_samePlace h hr).service]
  intro hmem
  obtain hold | ⟨hnew, -⟩ := moves_activeRpcs h hmem
  · exact hactive hold
  · omega

lemma moves_stopping {s s' : Server Req Resp} {l : Label Req Resp} (h : Moves s l s') {r : Nat}
    (hr : r < s.nextRpc) (hstop : stopping s r = true) : stopping s' r = true := by
  rw [stopping, (moves_samePlace h hr).service]
  by_cases hl : l = .stopServing (s.rpcs r).service
  · subst hl
    cases h
    simp [Server.stopServing]
  · rw [moves_shuttingDown h hl]
    exact hstop

/-- The task of a thread after a step that is not a pop of its own. -/
lemma moves_task_cases {s s' : Server Req Resp} {l : Label Req Resp} (h : Moves s l s') {t : Nat}
    (hl : l ≠ .pop t) : s'.tasks t = s.tasks t ∨
      ∃ acts r i rest o, s.tasks t = ⟨r, i :: rest⟩ ∧
        i.run (s.surroundings r) acts (s.rpcs r) = some o ∧ s'.tasks t = ⟨r, o.next ++ rest⟩ := by
  cases h with
  | @pop t' e rest hidle hqueue ht' =>
    have hne : t ≠ t' := fun he => hl (he ▸ rfl)
    exact .inl (by simp [Server.setTask, hne, Server.setEventQueue])
  | @exec t' acts r i rest o htask hrun =>
    by_cases he : t = t'
    · subst he
      exact .inr ⟨acts, r, i, rest, o, htask, hrun, by simp [Server.setTask]⟩
    · exact .inl (by simp [Server.setTask, he, Server.setRpc])
  | stepWriter _ _ _ => exact .inl (by simp [Server.setWriters, Server.setRpc])
  | _ => exact .inl rfl

/-- During the handling: the `Rpc` is not in `ActiveRpcs`, or what is left of the handler is
tidy. -/
structure Orderly (t r : Nat) (s : Server Req Resp) : Prop where
  constructed : r < s.nextRpc
  rpc : (s.tasks t).rpc = r
  tidy : s.active r = true → Tidy (stopping s r) (s.tasks t).code

lemma moves_orderly {s s' : Server Req Resp} {l : Label Req Resp} {t r : Nat} (h : Orderly t r s)
    (hl : l ≠ .pop t) (hm : Moves s l s') : Orderly t r s' := by
  have hactive : s'.active r = true → s.active r = true := by
    intro hr
    by_contra hc
    rw [moves_inactive hm h.constructed (Bool.eq_false_iff.mpr hc)] at hr
    cases hr
  have hstop := moves_stopping hm h.constructed
  refine ⟨h.constructed.trans_le (moves_nextRpc hm), ?_, ?_⟩
  · obtain htask | ⟨acts, r', i, rest, o, htask, -, htask'⟩ := moves_task_cases hm hl
    · rw [htask]
      exact h.rpc
    · rw [htask']
      exact (congrArg Task.rpc htask).symm.trans h.rpc
  · intro hr
    have htidy := h.tidy (hactive hr)
    obtain htask | ⟨acts, r', i, rest, o, htask, hrun, htask'⟩ := moves_task_cases hm hl
    · rw [htask]
      exact htidy.mono hstop
    · obtain rfl : r' = r := (congrArg Task.rpc htask).symm.trans h.rpc
      have htidy' : Tidy (s.surroundings r').shuttingDown (i :: rest) := by
        rw [htask] at htidy
        exact htidy
      rw [htask']
      exact (htidy'.runs (run_runs hrun)).mono hstop

/-- The step with which an orderly handling erases its `Rpc` is its last. -/
lemma Orderly.done {s s' : Server Req Resp} {t r : Nat} {acts : List (HandlerAction Resp)}
    (h : Orderly t r s) (hstep : s.step (.exec t acts) = some s') (hactive : s.active r = true)
    (herased : s'.active r = false) : (s'.tasks t).code = [] := by
  have hm := (step_moves hstep).2
  have htidy := h.tidy hactive
  obtain hkept | ⟨t', acts', rest', hl, hcode⟩ := moves_active hm h.constructed hactive
  · exact absurd (hkept.symm.trans herased) (by simp)
  cases hl
  cases hm with
  | @exec _ _ r' i rest o htask hrun =>
    rw [htask] at htidy hcode
    have hnext : rest = [] ∧ o.next = [] := by
      obtain hcode | ⟨hcode, hpending⟩ := hcode <;> cases hcode
      · cases htidy with
        | remove => cases run_runs hrun; exact ⟨rfl, rfl⟩
        | cons hi _ => cases hi
      · cases htidy with
        | removeIfNotPending => cases run_runs hrun <;> exact ⟨rfl, rfl⟩
        | cons hi _ => cases hi
    simp [Server.setTask, hnext]
  | execFault htask hrun => exact absurd (hactive.symm.trans herased) (by simp)

/-! ### The failed connection -/

/-- Two steps of a thread that handles a failed connection. -/
lemma failed_connection {s : Server Req Resp} {t r : Nat} (h : Called s t r .newConnection false)
    (hstop : stopping s r = false) :
    ∃ s₁ s₂, s.step (.exec t []) = some s₁ ∧ s₁.step (.exec t []) = some s₂ ∧
      s₁.active r = s.active r ∧ s₂.active r = false ∧ s₂.tasks t = ⟨r, [.clone]⟩ := by
  have hcode : (s.tasks t).code = [.handleNewConnection false] := congrArg Task.code h.task
  have hrpc : (s.tasks t).rpc = r := congrArg Task.rpc h.task
  have hsur : (s.surroundings r).shuttingDown = false := hstop
  refine ⟨(s.setRpc r (s.rpcs r)).setTask t ⟨r, [.remove, .clone]⟩,
    (((s.setRpc r (s.rpcs r)).setTask t ⟨r, [.remove, .clone]⟩).setRpc r (s.rpcs r)).setTask t
      ⟨r, [.clone]⟩ |>.removeRpc r, ?_, ?_, ?_, ?_, ?_⟩
  · simp [Server.step, Server.exec, h.running, hcode, hrpc, Instr.run, hsur,
      Service.handleNewConnection, Server.apply]
  · simp [Server.step, Server.exec, h.running, Instr.run, Server.apply, Server.setTask,
      Server.setRpc]
  · simp [Server.active, Server.setTask, Server.setRpc]
  · simp [Server.active, Server.setTask, Server.setRpc, Server.removeRpc, Server.setActive]
  · simp [Server.setTask, Server.removeRpc, Server.setActive]

theorem quietAfterRemoval_iff {s : Server Req Resp} {t r : Nat} {event : Event} {ok : Bool}
    (h : Called s t r event ok) :
    QuietAfterRemoval s t r ↔
      ¬ (event = .newConnection ∧ ok = false ∧ stopping s r = false ∧ s.active r = true) := by
  constructor
  · rintro hquiet ⟨rfl, rfl, hstop, hactive⟩
    obtain ⟨s₁, s₂, h₁, h₂, hactive₁, hactive₂, htask⟩ := failed_connection h hstop
    have hleads : (serverSteps Req Resp).Leads (fun _ l => l ≠ .pop t) s s₁ :=
      .step (l := .exec t []) .refl (by simp) h₁
    have hcode := hquiet s₁ s₂ [] hleads h₂ (hactive₁.trans hactive) hactive₂
    simp [htask] at hcode
  · intro hc s₁ s₂ acts hleads hstep hactive herased
    have horderly : Orderly t r s₁ := by
      apply hleads.invariant (P := Orderly t r)
      · refine ⟨h.constructed, by rw [h.task], fun hr => ?_⟩
        rw [h.task]
        exact handleEvent_tidy (fun ⟨he, hok, hstop⟩ => hc ⟨he, hok, hstop, hr⟩)
      · intro s₁ l s₂ _ ho hl hst
        exact moves_orderly ho hl (step_moves hst).2
    exact horderly.done hstep hactive herased

/-! ### The next listener -/

/-- Between the two states exactly one `Rpc` was made: for the method and the completion queue
of the given one, in `ActiveRpcs` and registered with gRPC. -/
structure AddsListener (s s' : Server Req Resp) (r : Nat) : Prop where
  nextRpc : s'.nextRpc = s.nextRpc + 1
  methodIndex : (s'.rpcs s.nextRpc).methodIndex = (s.rpcs r).methodIndex
  service : (s'.rpcs s.nextRpc).service = (s.rpcs r).service
  serverCompletionQueue :
    (s'.rpcs s.nextRpc).serverCompletionQueue = (s.rpcs r).serverCompletionQueue
  active : s'.active s.nextRpc = true
  registered : (s'.rpcs s.nextRpc).inFlight .newConnection = 1 ∧
    (s'.rpcs s.nextRpc).inFlight .done = 1
  others : ∀ v r', r' ≠ r → r' ≠ s.nextRpc →
    (r' ∈ (s'.services v).activeRpcs ↔ r' ∈ (s.services v).activeRpcs)

/-- The handling is over and has added the next listener; or the process was stopped by the
`CHECK` of `GetWeakPtr`, since the `Rpc` was not in `ActiveRpcs` to begin with. -/
def Listens (s₀ : Server Req Resp) (t r : Nat) (ok : Bool) (s : Server Req Resp) : Prop :=
  s.tasks t = ⟨r, []⟩ ∧ s.fault = none ∧ AddsListener s₀ s r ∨
    s.fault ≠ none ∧ ok = true ∧ s₀.active r = false

/-- The steps of one event thread, whatever the handlers do. -/
def OfThread (t : Nat) (l : Label Req Resp) : Prop :=
  ∃ acts, l = .exec t acts

/-- Since the handling began nothing has changed but its `Rpc`. -/
structure NothingAdded (s₀ s : Server Req Resp) (r : Nat) : Prop where
  running : s.fault = none
  nextRpc : s.nextRpc = s₀.nextRpc
  place : SamePlace (s₀.rpcs r) (s.rpcs r)
  others : ∀ v r', r' ≠ r →
    (r' ∈ (s.services v).activeRpcs ↔ r' ∈ (s₀.services v).activeRpcs)

lemma forces_exec {P : Server Req Resp → Prop} {s : Server Req Resp} {t r : Nat} {i : Instr Resp}
    {rest : List (Instr Resp)} (hf : s.fault = none) (htask : s.tasks t = ⟨r, i :: rest⟩)
    (hfault : ∀ acts, i.run (s.surroundings r) acts (s.rpcs r) = none →
      P { s with fault := some (.eventThread t) })
    (hrun : ∀ acts o, i.run (s.surroundings r) acts (s.rpcs r) = some o →
      (serverSteps Req Resp).Forces (OfThread t) P
        (((s.setRpc r o.rpc).setTask t ⟨r, o.next ++ rest⟩).apply r o.effect)) :
    (serverSteps Req Resp).Forces (OfThread t) P s := by
  obtain ⟨s₁, h₁⟩ : ∃ s₁, s.step (.exec t []) = some s₁ := by
    simp only [Server.step, hf, Server.exec, htask]
    cases i.run (s.surroundings r) [] (s.rpcs r) <;> simp
  refine .next ⟨[], rfl⟩ h₁ ?_
  rintro _ s' ⟨acts, rfl⟩ hstep
  have hm : Moves s (.exec t acts) s' := (step_moves (l := .exec t acts) hstep).2
  cases hm with
  | exec htask' hrun' =>
    cases htask.symm.trans htask'
    exact hrun acts _ hrun'
  | execFault htask' hrun' =>
    cases htask.symm.trans htask'
    exact .now (hfault acts hrun')

section

variable {s₀ : Server Req Resp} {t r : Nat}

/-- The effects of the instructions of a handler before it adds the next listener. -/
lemma NothingAdded.step {s : Server Req Resp} {x : Rpc Req Resp} {task : Task Resp}
    {effect : Effect} (h : NothingAdded s₀ s r) (hx : SamePlace (s.rpcs r) x)
    (heffect : effect ≠ .clone) :
    NothingAdded s₀ (((s.setRpc r x).setTask t task).apply r effect) r := by
  have hplace : SamePlace (s₀.rpcs r) ((s.setRpc r x).rpcs r) := by
    rw [show (s.setRpc r x).rpcs r = x from update_self _ _ _]
    exact h.place.trans hx
  cases effect with
  | none | pushWriteNeeded => exact ⟨h.running, h.nextRpc, hplace, h.others⟩
  | remove =>
    refine ⟨h.running, h.nextRpc, hplace, fun v r' hr' => ?_⟩
    refine (removeRpc_activeRpcs _ _ _ _).trans ?_
    rw [and_iff_left (fun hc => hr' hc.1)]
    exact h.others v r' hr'
  | clone => exact absurd rfl heffect

lemma addsListener_cloneRpc {s : Server Req Resp} (h : NothingAdded s₀ s r) :
    AddsListener s₀ (s.cloneRpc r) r := by
  have hnew : (s.cloneRpc r).rpcs s₀.nextRpc =
      ({ (s.rpcs r).clone.setEventQueue s.nextEventQueue with
        parent := some r } : Rpc Req Resp).requestNextMethodInvocation := by
    rw [← h.nextRpc]
    exact cloneRpc_rpcs_new s r
  refine ⟨congrArg (· + 1) h.nextRpc, ?_, ?_, ?_, ?_, ?_, ?_⟩
  · rw [hnew]
    exact h.place.methodIndex
  · rw [hnew]
    exact h.place.service
  · rw [hnew]
    exact h.place.serverCompletionQueue
  · rw [Server.active, hnew, decide_eq_true_eq]
    exact (addRpc_activeRpcs _ _ _ _).mpr (.inr ⟨h.nextRpc.symm, rfl⟩)
  · rw [hnew]
    exact ⟨rfl, rfl⟩
  · intro v r' hr' hne
    refine (addRpc_activeRpcs _ _ _ _).trans ?_
    rw [or_iff_left (fun hc => hne (hc.1.trans h.nextRpc))]
    exact h.others v r' hr'

/-- The last instruction of `HandleNewConnection` adds the listener. -/
lemma listens_clone {s : Server Req Resp} {ok : Bool} (h : NothingAdded s₀ s r)
    (htask : s.tasks t = ⟨r, [.clone]⟩) :
    (serverSteps Req Resp).Forces (OfThread t) (Listens s₀ t r ok) s := by
  refine forces_exec h.running htask (fun _ hrun => by cases hrun) (fun acts o hrun => ?_)
  cases hrun
  refine .now (.inl ⟨by simp [Server.setTask], by simpa [Server.setTask, Server.setRpc] using
    h.running, ?_⟩)
  have hset : s.setRpc r (s.rpcs r) = s := by simp [Server.setRpc]
  rw [hset]
  exact addsListener_cloneRpc ⟨h.running, h.nextRpc, h.place, h.others⟩

/-- Inside `OnConnection`, once there is a handler. -/
structure InConnection (s₀ s : Server Req Resp) (r : Nat) : Prop extends NothingAdded s₀ s r where
  handler : (s.rpcs r).handler = true
  active : s.active r = s₀.active r

/-- From this code on, the next listener is added whatever the handlers do. -/
def Adds (s₀ : Server Req Resp) (t r : Nat) (code : List (Instr Resp)) : Prop :=
  ∀ s, InConnection s₀ s r → s.tasks t = ⟨r, code⟩ →
    (serverSteps Req Resp).Forces (OfThread t) (Listens s₀ t r true) s

/-- The instructions that `OnConnection` is replaced by. -/
def ofConnection : Instr Resp → Bool
  | .callback _ | .requestStreamingReadIfNeeded | .enqueueMessage _ | .getWeakPtr
  | .pushWriteNeeded | .getWriter => true
  | _ => false

lemma runs_ofConnection {env : Surroundings} {acts : List (HandlerAction Resp)}
    {x : Rpc Req Resp} {i : Instr Resp} {o : Outcome Req Resp} (h : Runs env acts x i o)
    (hi : ofConnection i = true) (hx : x.handler = true) :
    o.rpc.handler = true ∧ (o.effect = .none ∨ o.effect = .pushWriteNeeded) := by
  cases h <;> first | (cases hi; done) | exact ⟨hx, by simp⟩

lemma run_none_ofConnection {env : Surroundings} {acts : List (HandlerAction Resp)}
    {x : Rpc Req Resp} {i : Instr Resp} (h : i.run env acts x = none)
    (hi : ofConnection i = true) (hx : x.handler = true) : env.active = false := by
  cases i with
  | callback kind => simp [Instr.run, hx] at h
  | getWeakPtr | getWriter => simpa [Instr.run] using h
  | requestStreamingReadIfNeeded | enqueueMessage _ | pushWriteNeeded => cases h
  | _ => cases hi

lemma NothingAdded.inConnection {s : Server Req Resp} {x : Rpc Req Resp} {task : Task Resp}
    {effect : Effect} (h : NothingAdded s₀ s r) (hactive : s.active r = s₀.active r)
    (hx : SamePlace (s.rpcs r) x) (hhandler : x.handler = true)
    (heffect : effect = .none ∨ effect = .pushWriteNeeded) :
    InConnection s₀ (((s.setRpc r x).setTask t task).apply r effect) r := by
  have hrpc : (s.setRpc r x).rpcs r = x := update_self _ _ _
  have hactive' : (s.setRpc r x).active r = s₀.active r := by
    rw [← hactive, Server.active, Server.active, hrpc, hx.service]
    rfl
  obtain rfl | rfl := heffect
  · exact ⟨h.step hx (by simp), (congrArg Rpc.handler hrpc).trans hhandler, hactive'⟩
  · exact ⟨h.step hx (by simp), (congrArg Rpc.handler hrpc).trans hhandler, hactive'⟩

/-- One instruction of `OnConnection`, when what it is replaced by does the rest. -/
lemma Adds.cons {i : Instr Resp} {rest : List (Instr Resp)} (hi : ofConnection i = true)
    (hnext : ∀ (env : Surroundings) acts (x : Rpc Req Resp) o, Runs env acts x i o →
      Adds s₀ t r (o.next ++ rest)) : Adds s₀ t r (i :: rest) := by
  intro s h htask
  refine forces_exec h.running htask ?_ ?_
  · intro acts hrun
    exact .inr ⟨by simp, rfl, h.active.symm.trans (run_none_ofConnection hrun hi h.handler)⟩
  · intro acts o hrun
    obtain ⟨hhandler, heffect⟩ := runs_ofConnection (run_runs hrun) hi h.handler
    refine hnext _ _ _ _ (run_runs hrun) _
      (h.inConnection h.active (run_samePlace hrun) hhandler heffect) ?_
    simp [Server.setTask]

/-- What a handler does with its `Rpc` takes one step for each instruction. -/
lemma Adds.producers {code rest : List (Instr Resp)} (h : Adds s₀ t r rest)
    (hcode : ∀ i ∈ code, isProducer i = true) : Adds s₀ t r (code ++ rest) := by
  induction code with
  | nil => exact h
  | cons i code ih =>
    have hrest := ih (fun j hj => hcode j (.tail _ hj))
    have hi := hcode i (.head _)
    cases i with
    | enqueueMessage _ | getWeakPtr | pushWriteNeeded | getWriter =>
      refine Adds.cons rfl (fun env acts x o hrun => ?_)
      cases hrun
      exact hrest
    | _ => cases hi

lemma Adds.callback {rest : List (Instr Resp)} (h : Adds s₀ t r rest) (kind : CallbackKind) :
    Adds s₀ t r (.callback kind :: rest) := by
  refine .cons rfl (fun env acts x o hrun => ?_)
  cases hrun
  exact h.producers (instrs_producer acts)

lemma Adds.requestStreamingReadIfNeeded {rest : List (Instr Resp)} (h : Adds s₀ t r rest) :
    Adds s₀ t r (.requestStreamingReadIfNeeded :: rest) := by
  refine .cons rfl (fun env acts x o hrun => ?_)
  cases hrun with
  | startRead _ => exact h
  | readWhole _ => exact (h.callback .onReadsDone).callback .onRequest

lemma listens_onConnection {s : Server Req Resp} (h : NothingAdded s₀ s r)
    (hactive : s.active r = s₀.active r) (htask : s.tasks t = ⟨r, [.onConnection, .clone]⟩) :
    (serverSteps Req Resp).Forces (OfThread t) (Listens s₀ t r true) s := by
  have hclone : Adds s₀ t r [.clone] := fun s hs htask => listens_clone hs.toNothingAdded htask
  refine forces_exec h.running htask (fun _ hrun => by cases hrun) (fun acts o hrun => ?_)
  have hplace := run_samePlace hrun
  cases run_runs hrun with
  | connect hhandler =>
    exact (hclone.requestStreamingReadIfNeeded.callback .onInitialize) _
      (h.inConnection hactive hplace rfl (.inl rfl)) (by simp [Server.setTask])
  | reconnect hhandler =>
    exact hclone.requestStreamingReadIfNeeded _
      (h.inConnection hactive hplace hhandler (.inl rfl)) (by simp [Server.setTask])

/-- After a failed connection the `Rpc` is erased and then cloned. -/
lemma listens_remove {s : Server Req Resp} (h : NothingAdded s₀ s r)
    (htask : s.tasks t = ⟨r, [.remove, .clone]⟩) :
    (serverSteps Req Resp).Forces (OfThread t) (Listens s₀ t r false) s := by
  refine forces_exec h.running htask (fun _ hrun => by cases hrun) (fun acts o hrun => ?_)
  cases hrun
  exact listens_clone (h.step (.refl _) (by simp)) (by simp [Server.setTask])

/-- `HandleNewConnection` adds the next listener unless its service is shutting down. -/
lemma listens_handleNewConnection {ok : Bool} (h : Called s₀ t r .newConnection ok)
    (hstop : stopping s₀ r = false) :
    (serverSteps Req Resp).Forces (OfThread t) (Listens s₀ t r ok) s₀ := by
  have hstart : NothingAdded s₀ s₀ r := ⟨h.running, rfl, .refl _, fun _ _ _ => Iff.rfl⟩
  have hset : s₀.setRpc r (s₀.rpcs r) = s₀ := by simp [Server.setRpc]
  refine forces_exec h.running h.task (fun _ hrun => by cases hrun) (fun acts o hrun => ?_)
  have hsur : (s₀.surroundings r).shuttingDown = false := hstop
  simp only [Instr.run, hsur, Option.some.injEq] at hrun
  subst hrun
  cases ok with
  | false => exact listens_remove (hstart.step (.refl _) (by simp)) (by simp [Server.setTask]; rfl)
  | true =>
    refine listens_onConnection (hstart.step (.refl _) (by simp)) ?_ (by simp [Server.setTask]; rfl)
    simp only [Server.apply, hset]
    rfl

end

/-- One handling of an event, in any state: the thread makes no call on the `Rpc` after erasing
it unless the event is a failed connection of an active `Rpc` of a service that is not shutting
down; and a connection handled while not shutting down adds one listener. After a failed
connection the listener is a clone of an `Rpc` that the source has destroyed by then: that it
reads the members as they were is the model's reading. -/
theorem handleEvent_removal {s : Server Req Resp} {t r : Nat} {event : Event} {ok : Bool}
    (h : Called s t r event ok) :
    (QuietAfterRemoval s t r ↔
      ¬ (event = .newConnection ∧ ok = false ∧ stopping s r = false ∧ s.active r = true)) ∧
    (event = .newConnection → stopping s r = false →
      (serverSteps Req Resp).Forces (OfThread t) (Listens s t r ok) s) := by
  refine ⟨quietAfterRemoval_iff h, ?_⟩
  rintro rfl hstop
  exact listens_handleNewConnection h hstop

/-- Up to the call of `HandleEvent` for the first connection. -/
def upToHandleEvent (ok : Bool) : List (Label Nat Nat) :=
  [.next 0 0 .newConnection ok none, .pushToEventQueue 0, .pop 0] ++ execs 1

theorem handleEvent_removal_of_connection :
    ∃ s, (serverSystem Nat Nat oneEventThread sumService).Reachable s ∧
      Called s 0 0 .newConnection true ∧ QuietAfterRemoval s 0 0 ∧
      (serverSteps Nat Nat).Forces (OfThread 0) (Listens s 0 0 true) s := by
  obtain ⟨s, hs, hp⟩ := exists_reachable oneEventThread sumService (upToHandleEvent true)
    (fun s => s.fault = none ∧ 0 < s.nextRpc ∧ s.tasks 0 = ⟨0, [.handleNewConnection true]⟩ ∧
      (s.services (s.rpcs 0).service).shuttingDown = false) (by decide +kernel)
  obtain ⟨hf, hr, htask, hstop⟩ := of_decide_eq_true hp
  have hcalled : Called s 0 0 .newConnection true := ⟨hf, hr, htask⟩
  obtain ⟨hquiet, hlistens⟩ := handleEvent_removal hcalled
  exact ⟨s, hs, hcalled, hquiet.mpr (fun hc => by cases hc.2.1), hlistens rfl hstop⟩

/-- The first connection fails: the `Rpc` is erased, no `shared_ptr` to it is left, and the
thread goes on to clone it. -/
theorem clone_after_removal :
    ∃ s s₁ s₂, (serverSystem Nat Nat oneEventThread sumService).Reachable s ∧
      Called s 0 0 .newConnection false ∧ s.step (.exec 0 []) = some s₁ ∧
      s₁.step (.exec 0 []) = some s₂ ∧ s₁.active 0 = true ∧ s₂.active 0 = false ∧
      s₂.alive 0 = false ∧ s₂.tasks 0 = ⟨0, [.clone]⟩ := by
  obtain ⟨s, hs, hp⟩ := exists_reachable oneEventThread sumService (upToHandleEvent false)
    (fun s => (s.fault = none ∧ 0 < s.nextRpc ∧ s.tasks 0 = ⟨0, [.handleNewConnection false]⟩) ∧
      (s.step (.exec 0 [])).any (fun s₁ => (s₁.step (.exec 0 [])).any (fun s₂ =>
        s₁.active 0 = true ∧ s₂.active 0 = false ∧ s₂.alive 0 = false ∧
          s₂.tasks 0 = ⟨0, [.clone]⟩)) = true) (by decide +kernel)
  obtain ⟨⟨hf, hr, htask⟩, hstep⟩ := of_decide_eq_true hp
  obtain ⟨s₁, h₁, hstep⟩ := (Option.any_eq_true _ _).mp hstep
  obtain ⟨s₂, h₂, hend⟩ := (Option.any_eq_true _ _).mp hstep
  exact ⟨s, s₁, s₂, hs, ⟨hf, hr, htask⟩, h₁, h₂, of_decide_eq_true hend⟩

end AsyncGrpc.Proofs
