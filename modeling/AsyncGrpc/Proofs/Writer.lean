import AsyncGrpc.Proofs.SendQueue

/-!
# `Writer` calls and erased `Rpc`s

A `Writer` call keeps its `Rpc` alive by a `shared_ptr` and then looks it up in `ActiveRpcs`,
from where an event thread may have erased it in between. The same `shared_ptr` also keeps a
queued `WRITE_NEEDED` event of an erased `Rpc` from being stale.
-/

namespace AsyncGrpc.Proofs

open Function Transition

variable {Req Resp : Type} {options : Options} {maps : List (List (String × RpcHandlerInfo))}

/-! ### Erasing an `Rpc` -/

/-- The step is the one of an event thread that erases the `Rpc` from `ActiveRpcs`. -/
def Erases (s : Server Req Resp) (r : Nat) (l : Label Req Resp) : Prop :=
  ∃ t acts rest, l = .exec t acts ∧ (s.tasks t = ⟨r, .remove :: rest⟩ ∨
    s.tasks t = ⟨r, .removeIfNotPending :: rest⟩ ∧ (s.rpcs r).isAnyEventPending = false)

lemma run_effect_remove {i : Instr Resp} {env : Surroundings} {acts : List (HandlerAction Resp)}
    {x : Rpc Req Resp} {o : Outcome Req Resp} (h : i.run env acts x = some o)
    (he : o.effect = .remove) :
    i = .remove ∨ i = .removeIfNotPending ∧ x.isAnyEventPending = false := by
  cases run_runs h with
  | remove => exact .inl rfl
  | erase hpending => exact .inr ⟨rfl, hpending⟩
  | _ => cases he

lemma apply_keeps (s : Server Req Resp) (r : Nat) (effect : Effect) {v r' : Nat}
    (h : r' ∈ (s.services v).activeRpcs) :
    r' ∈ ((s.apply r effect).services v).activeRpcs ∨ effect = .remove ∧ r' = r := by
  cases effect with
  | none | pushWriteNeeded => exact .inl h
  | remove =>
    by_cases he : r' = r
    · exact .inr ⟨rfl, he⟩
    · exact .inl ((removeRpc_activeRpcs _ _ _ _).mpr ⟨h, fun hc => he hc.1⟩)
  | clone => exact .inl ((addRpc_activeRpcs _ _ _ _).mpr (.inl h))

/-- An `Rpc` stays in `ActiveRpcs` until a step erases it. -/
lemma moves_keeps {s s' : Server Req Resp} {l : Label Req Resp} (h : Moves s l s') {v r : Nat}
    (hr : r ∈ (s.services v).activeRpcs) : r ∈ (s'.services v).activeRpcs ∨ Erases s r l := by
  cases h with
  | @exec t acts r' i rest o htask hrun =>
    have hkeep := apply_keeps ((s.setRpc r' o.rpc).setTask t ⟨r', o.next ++ rest⟩) r' o.effect hr
    refine hkeep.imp_right (fun ⟨he, hrr⟩ => ?_)
    subst hrr
    rcases run_effect_remove hrun he with rfl | ⟨rfl, hp⟩
    · exact ⟨t, acts, rest, rfl, .inl htask⟩
    · exact ⟨t, acts, rest, rfl, .inr ⟨htask, hp⟩⟩
  | @stepWriter r' i w w' x effect _ _ hstep =>
    have hkeep := apply_keeps ((s.setRpc r' x).setWriters r' ((s.writers r').set i w')) r' effect hr
    refine hkeep.imp_right (fun ⟨he, _⟩ => ?_)
    rcases writerStep_effect hstep with h | h <;> exact absurd (h.symm.trans he) (by simp)
  | @stopServing v' =>
    left
    simp only [Server.stopServing, update_apply]
    split
    · rename_i hv
      exact hv ▸ hr
    · exact hr
  | _ => exact .inl hr

lemma moves_active {s s' : Server Req Resp} {l : Label Req Resp} (h : Moves s l s') {r : Nat}
    (hr : r < s.nextRpc) (hactive : s.active r = true) : s'.active r = true ∨ Erases s r l := by
  rw [Server.active, decide_eq_true_eq] at hactive
  refine (moves_keeps h hactive).imp_left (fun hmem => ?_)
  rw [Server.active, (moves_samePlace h hr).service, decide_eq_true_eq]
  exact hmem

/-! ### The lookup of a `Writer` call -/

/-- The step, should it erase an `Rpc`, is taken while no `Writer` call on it stands between
its lock and its lookup; and should it lock an `Rpc` for a `Writer` call, the `Rpc` is still
in `ActiveRpcs`. -/
def LooksUpInTime (s : Server Req Resp) (l : Label Req Resp) : Prop :=
  (∀ r, Erases s r l → ∀ w ∈ s.writers r, w.beforeLookup = false) ∧
    ∀ r i w, l = .stepWriter r i → (s.writers r)[i]? = some w → w.pc = .calling →
      s.alive r = true → s.active r = true

/-- A `Writer` call after a step: an old one, a new one, or the one that took the step. -/
lemma moves_mem_writers {s s' : Server Req Resp} {l : Label Req Resp} (h : Moves s l s') {r : Nat}
    {w : WriterCall Resp} (hw : w ∈ s'.writers r) : w ∈ s.writers r ∨ w.pc = .calling ∨
      ∃ i w₀ x effect, l = .stepWriter r i ∧ (s.writers r)[i]? = some w₀ ∧
        w₀.step (s.surroundings r) (s.rpcs r) = some (x, w, effect) := by
  cases h with
  | exec _ _ =>
    rw [apply_writers] at hw
    exact .inl hw
  | @callWriter r' method _ _ =>
    simp only [Server.setWriters, update_apply] at hw
    split at hw
    · rename_i hr
      subst hr
      rcases List.mem_append.mp hw with hw | hw
      · exact .inl hw
      · rw [List.mem_singleton.mp hw]
        exact .inr (.inl rfl)
    · exact .inl hw
  | @stepWriter r' i w₀ w' x effect hi _ hstep =>
    rw [apply_writers] at hw
    simp only [Server.setWriters, Server.setRpc, update_apply] at hw
    split at hw
    · rename_i hr
      subst hr
      rcases List.mem_or_eq_of_mem_set hw with hw | rfl
      · exact .inl hw
      · exact .inr (.inr ⟨i, w₀, x, effect, rfl, hi, hstep⟩)
    · exact .inl hw
  | _ => exact .inl hw

/-- The `Writer` calls that still have to look up their `Rpc` will find it. -/
def Findable (s : Server Req Resp) : Prop :=
  ∀ r, ∀ w ∈ s.writers r, w.beforeLookup = true → s.active r = true

lemma writerStep_beforeLookup {w w' : WriterCall Resp} {env : Surroundings} {x y : Rpc Req Resp}
    {effect : Effect} (h : w.step env x = some (y, w', effect)) (hw' : w'.beforeLookup = true) :
    w.pc = .calling ∧ env.alive = true ∨ w.beforeLookup = true := by
  obtain ⟨item, pc⟩ := w
  cases pc with
  | calling =>
    simp only [WriterCall.step] at h
    split at h <;> cases h
    · rename_i halive
      exact .inl ⟨rfl, halive⟩
    · cases hw'
  | locked => exact .inr rfl
  | enqueued => exact .inr rfl
  | lookedUp | pushed | returned _ => cases h; cases hw'

lemma moves_findable {s s' : Server Req Resp} {l : Label Req Resp} (h : Moves s l s')
    (hh : Housed s) (hg : LooksUpInTime s l) (hs : Findable s) : Findable s' := by
  intro r w hw hb
  rcases moves_mem_writers h hw with hold | hcalling | ⟨i, w₀, x, effect, rfl, hi, hstep⟩
  · have hr := hh.writers r (List.ne_nil_of_mem hold)
    rcases moves_active h hr (hs r w hold hb) with hactive | herases
    · exact hactive
    · exact absurd ((hg.1 r herases w hold).symm.trans hb) (by simp)
  · simp [WriterCall.beforeLookup, hcalling] at hb
  · have hmem := List.mem_of_getElem? hi
    have hactive : s.active r = true := by
      rcases writerStep_beforeLookup hstep hb with ⟨hpc, halive⟩ | hb₀
      · exact hg.2 r i w₀ rfl hi hpc halive
      · exact hs r w₀ hmem hb₀
    rcases moves_active h (hh.writers r (List.ne_nil_of_mem hmem)) hactive with hactive' | herases
    · exact hactive'
    · obtain ⟨t, acts, rest, hl, -⟩ := herases
      cases hl

theorem reach_findable {s : Server Req Resp}
    (hs : (serverSystem Req Resp options maps).Reach LooksUpInTime s) : Findable s := by
  apply hs.invariant (P := Findable)
  · rintro s rfl r w hw
    rw [start_quiet_housed.1.writers r] at hw
    cases hw
  · intro s l s' hs hP hg hstep
    exact moves_findable (step_moves hstep).2 (reachable_housed hs.reachable) hg hP

/-- The steps a `Writer` call still has to take. -/
def stepsLeft (w : WriterCall Resp) : Nat :=
  match w.pc with
  | .calling => 5
  | .locked => 4
  | .enqueued => 3
  | .lookedUp => 2
  | .pushed => 1
  | .returned _ => 0

/-- A call that finds its `Rpc` takes its next step. -/
lemma writerStep_of_active {w : WriterCall Resp} (env : Surroundings) (x : Rpc Req Resp)
    (hactive : w.beforeLookup = true → env.active = true) (hret : w.isReturned = false) :
    ∃ y w' effect, w.step env x = some (y, w', effect) ∧ stepsLeft w' < stepsLeft w := by
  obtain ⟨item, pc⟩ := w
  cases pc with
  | calling =>
    cases halive : env.alive with
    | true => exact ⟨x, ⟨item, .locked⟩, .none, by simp [WriterCall.step, halive], by simp [stepsLeft]⟩
    | false =>
      exact ⟨x, ⟨item, .returned false⟩, .none, by simp [WriterCall.step, halive], by simp [stepsLeft]⟩
  | locked => exact ⟨_, ⟨item, .enqueued⟩, _, rfl, by simp [stepsLeft]⟩
  | enqueued =>
    exact ⟨x, ⟨item, .lookedUp⟩, .none, by simp [WriterCall.step, hactive rfl], by simp [stepsLeft]⟩
  | lookedUp => exact ⟨_, ⟨item, .pushed⟩, _, rfl, by simp [stepsLeft]⟩
  | pushed => exact ⟨_, ⟨item, .returned true⟩, _, rfl, by simp [stepsLeft]⟩
  | returned result => cases hret

lemma stepWriter_of_findable {s : Server Req Resp} (hfind : Findable s) (hfault : s.fault = none)
    {r i : Nat} {w : WriterCall Resp} (hi : (s.writers r)[i]? = some w)
    (hret : w.isReturned = false) :
    ∃ s' w', s.step (.stepWriter r i) = some s' ∧ s'.fault = none ∧
      (s'.writers r)[i]? = some w' ∧ stepsLeft w' < stepsLeft w := by
  obtain ⟨y, w', effect, hstep, hleft⟩ := writerStep_of_active (s.surroundings r) (s.rpcs r)
    (hfind r w (List.mem_of_getElem? hi)) hret
  refine ⟨((s.setRpc r y).setWriters r ((s.writers r).set i w')).apply r effect, w', ?_, ?_, ?_,
    hleft⟩
  · simp only [Server.step, hfault, ne_eq, not_true_eq_false, if_false, Server.stepWriter, hi, hret,
      Bool.false_eq_true, hstep]
  · rw [apply_fault]
    exact hfault
  · rw [apply_writers]
    simp only [Server.setWriters, update_self]
    exact List.getElem?_set_self (List.getElem?_eq_some_iff.mp hi).1

/-- In every run in which no `Rpc` is erased between the lock and the lookup of a `Writer` call
on it, and no `Writer` call locks an erased `Rpc`: no `Writer` call reaches the failing `CHECK`
of `GetWeakPtr`, and each one goes on step by step until it has returned. -/
theorem writer_safe {s : Server Req Resp}
    (hs : (serverSystem Req Resp options maps).Reach LooksUpInTime s) :
    (∀ r i, s.fault ≠ some (.writer r i)) ∧
      ∀ r i w, s.fault = none → (s.writers r)[i]? = some w → w.isReturned = false →
        ∃ s' w', s.step (.stepWriter r i) = some s' ∧ s'.fault = none ∧
          (s'.writers r)[i]? = some w' ∧ stepsLeft w' < stepsLeft w := by
  refine ⟨?_, fun r i w hfault hi hret =>
    stepWriter_of_findable (reach_findable hs) hfault hi hret⟩
  cases hs with
  | init hinit =>
    subst hinit
    simp [start_quiet_housed.1.fault]
  | @step s₀ _ l hs₀ hg hstep =>
    obtain ⟨hfault, hm⟩ := step_moves hstep
    cases hm with
    | execFault _ _ => simp
    | @writerFault r i w hw hret hnone =>
      obtain ⟨y, w', effect, hsome, -⟩ := writerStep_of_active (s₀.surroundings r) (s₀.rpcs r)
        (reach_findable hs₀ _ _ (List.mem_of_getElem? hw)) hret
      exact absurd (hnone.symm.trans hsome) (by simp)
    | exec _ _ | stepWriter _ _ _ =>
      rw [apply_fault]
      simp [Server.setTask, Server.setWriters, Server.setRpc, hfault]
    | _ => simp [Server.setInHand, Server.setRpc, Server.push, Server.setEventQueue, Server.setTask,
        Server.setWriters, Server.stopServing, hfault]

/-- The test for `LooksUpInTime`. -/
def looksUpInTime (s : Server Req Resp) : Label Req Resp → Bool
  | .exec t _ =>
    match (s.tasks t).code with
    | .remove :: _ => (s.writers (s.tasks t).rpc).all (fun w => !w.beforeLookup)
    | .removeIfNotPending :: _ => (s.rpcs (s.tasks t).rpc).isAnyEventPending ||
        (s.writers (s.tasks t).rpc).all (fun w => !w.beforeLookup)
    | _ => true
  | .stepWriter r _ => s.active r
  | _ => true

lemma looksUpInTime_sound (s : Server Req Resp) (l : Label Req Resp)
    (h : looksUpInTime s l = true) : LooksUpInTime s l := by
  constructor
  · rintro r ⟨t, acts, rest, rfl, htask | ⟨htask, hpending⟩⟩ w hw
    · simp only [looksUpInTime, htask, List.all_eq_true] at h
      simpa using h w hw
    · simp only [looksUpInTime, htask, hpending, Bool.false_or, List.all_eq_true] at h
      simpa using h w hw
  · rintro r i w rfl - - -
    exact h

/-- A client that streams its requests connects, and the handler makes a `Writer`. -/
def openWithWriter : List (Label Nat Nat) :=
  event .newConnection true none ++ execs 3 ++ callback [.getWriter] ++ execs 3

/-- Another thread calls `Write`, up to its lock. -/
def lockByWriter : List (Label Nat Nat) :=
  [.callWriter 0 (.write 5), .stepWriter 0 0]

theorem writer_safe_of_run :
    ∃ s, (serverSystem Nat Nat oneEventThread sumService).Reach LooksUpInTime s ∧
      s.fault = none ∧ (s.writers 0)[0]? = some ⟨⟨some 5, .ok⟩, .locked⟩ ∧
      ∃ s' w', s.step (.stepWriter 0 0) = some s' ∧ s'.fault = none ∧
        (s'.writers 0)[0]? = some w' ∧
        stepsLeft w' < stepsLeft (⟨⟨some 5, .ok⟩, .locked⟩ : WriterCall Nat) := by
  obtain ⟨s, hs, hp⟩ := exists_reach oneEventThread sumService looksUpInTime looksUpInTime_sound
    (openWithWriter ++ lockByWriter)
    (fun s => s.fault = none ∧ (s.writers 0)[0]? = some ⟨⟨some 5, .ok⟩, .locked⟩) (by decide +kernel)
  obtain ⟨hfault, hi⟩ := of_decide_eq_true hp
  exact ⟨s, hs, hfault, hi, (writer_safe hs).2 0 0 _ hfault hi rfl⟩

/-- The client goes away while a `Writer` call is between its lock and its lookup, which
brings the process down. -/
theorem writer_fault_of_erase :
    ∃ s, (serverSystem Nat Nat oneEventThread sumService).Reachable s ∧
      s.fault = some (.writer 0 0) := by
  obtain ⟨s, hs, hp⟩ := exists_reachable oneEventThread sumService
    (openWithWriter ++ lockByWriter ++ closeConnection ++ execs 1 ++
      [.stepWriter 0 0, .stepWriter 0 0])
    (fun s => s.fault = some (.writer 0 0)) (by decide +kernel)
  exact ⟨s, hs, of_decide_eq_true hp⟩

/-! ### Erased `Rpc`s -/

/-- The phases an event thread can be in on an erased `Rpc`. -/
def Phase.leaving : Phase Resp → Bool
  | .ending _ | .releaseShared | .handleInternal => true
  | _ => false

/-- An erased call: nothing of it is pending but `DONE`, which will never come back. -/
def Gone (c : Call Req Resp) (acts : List (Instr Resp)) (p : Phase Resp) : Prop :=
  acts = [] ∧ p.leaving = true ∧
    ∀ tag, c.rpc.isRpcEventPending tag = true → tag = .done ∧ c.rpc.connected = some false

structure Departs (c : Call Req Resp) (acts : List (Instr Resp)) (p : Phase Resp) : Prop where
  lives : Lives c acts p
  gone : c.active = false → c.shuttingDown = true ∨ Gone c acts p

/-- A step of a call that, should it handle a `WRITE_NEEDED` event after the erasure, finds the
weak pointer expired. -/
def CallStaleExpired (c : Call Req Resp) (l : CallLabel Req Resp) : Prop :=
  ∀ acts rest, l = .exec acts → c.code = .handleInternal :: rest → c.active = false →
    c.alive = false

section Turns

variable {c c' : Call Req Resp} {acts acts' : List (Instr Resp)} {p p' : Phase Resp}
  {l : CallLabel Req Resp}

/-- No tag of an erased call is in transit or can come back. -/
lemma Gone.not_mem_transit (hg : Gone c acts p) (h : Accounts c acts p) (tag : Tag) :
    tag ∉ transit c p := by
  intro hmem
  obtain ⟨rfl, hconn⟩ := hg.2.2 tag (h.pending_of_mem hmem)
  exact absurd ((h.done hmem).symm.trans hconn) (by simp)

lemma Gone.not_mayReturn (hg : Gone c acts p) (h : Accounts c acts p) (tag : Tag) (ok : Bool)
    (request : Option Req) : c.rpc.mayReturn tag ok request = false := by
  by_contra hc
  rw [Bool.not_eq_false, mayReturn_iff] at hc
  obtain ⟨hheld, hdone, -⟩ := hc
  obtain ⟨rfl, hconn⟩ := hg.2.2 tag (h.pending_of_held hheld)
  exact absurd ((hdone rfl).symm.trans hconn) (by simp)

/-- What can happen to an erased call changes neither its operations nor its histories. -/
lemma Gone.turn (hg : Gone c acts p) (h : Accounts c acts p) (hat : At c acts p)
    (hstale : CallStaleExpired c l) (hactive : c.active = false) (ht : Turn c acts p l c' acts' p') :
    Gone c' acts' p' ∧ c'.active = false ∧ c'.rpc.sends = c.rpc.sends ∧
      c'.rpc.callbacks = c.rpc.callbacks ∧ c'.rpc.inFlight = c.rpc.inFlight := by
  have hreturn := hg.not_mayReturn h
  have htransit := hg.not_mem_transit h
  obtain ⟨hacts, hleaving, hpending⟩ := hg
  cases ht with
  | @next _ _ tag ok request _ hmay => exact absurd (hreturn tag ok request) (by simp [hmay])
  | @pushToEventQueue _ _ tag ok hhand => exact absurd (by simp [transit, hhand]) (htransit tag)
  | @pop e rest hmail => exact absurd (by simp [transit, hmail]) (htransit e)
  | enqueueMessage | getWeakPtr _ | pushWriteNeeded | getWriter _ => cases hacts
  | handleInternal halive =>
    exact absurd ((hstale _ _ rfl hat.code hactive).symm.trans halive) (by simp)
  | callback hp _ => cases p <;> first | (cases hleaving; done) | cases hp
  | keep _ | erase _ =>
    rename_i shared as _
    exact ⟨⟨rfl, by cases shared <;> rfl, hpending⟩, by first | exact hactive | rfl, rfl, rfl, rfl⟩
  | popInternal _ | stale _ | clone | releaseShared =>
    exact ⟨⟨rfl, rfl, hpending⟩, hactive, rfl, rfl, rfl⟩
  | callWriter _ | writerLock _ _ | writerExpired _ _ | writerEnqueue _ | writerLookUp _ _
  | writerPush _ | writerReturn _ | stopServing =>
    exact ⟨⟨hacts, hleaving, hpending⟩, hactive, rfl, rfl, rfl⟩
  | _ => cases hleaving

lemma turn_shuttingDown (ht : Turn c acts p l c' acts' p') (h : c.shuttingDown = true) :
    c'.shuttingDown = true := by
  cases ht <;> first | exact h | rfl

/-- A call that is being removed has nothing pending but `DONE`. -/
lemma Lives.gone_of_remove {e : Ending} (h : Lives c [] (.remove e)) :
    c.shuttingDown = true ∨ Gone c [] (.ending e) := by
  obtain ⟨hhandler, hcause⟩ := h.fits
  refine hcause.imp_right (fun hmem => ⟨rfl, rfl, fun tag htag => ⟨?_, h.connected_of_handled hmem⟩⟩)
  by_contra hdone
  by_cases hnew : tag = .newConnection
  · subst hnew
    rcases (h.accounts.waiting htag).2 with hp | ⟨hp, -⟩ <;> cases hp
  · have hfresh := (h.accounts.fresh hhandler).1.1 tag hnew hdone
    exact absurd (hfresh.symm.trans htag) (by simp)

lemma turn_gone (h : Departs c acts p) (hat : At c acts p) (hstale : CallStaleExpired c l)
    (ht : Turn c acts p l c' acts' p') (hactive' : c'.active = false) :
    c'.shuttingDown = true ∨ Gone c' acts' p' := by
  rcases Bool.eq_false_or_eq_true c.active with hactive | hactive
  · -- The turn erases the call.
    cases ht with
    | remove => exact h.lives.gone_of_remove
    | @erase shared as hpending =>
      refine .inr ⟨rfl, by cases shared <;> rfl, fun tag htag => ?_⟩
      exact absurd ((h.lives.erase hpending tag).symm.trans htag) (by simp)
    | _ => exact absurd (hactive.symm.trans hactive') (by simp)
  · rcases h.gone hactive with hshut | hgone
    · exact .inl (turn_shuttingDown ht hshut)
    · exact .inr (hgone.turn h.lives.accounts hat hstale hactive ht).1

theorem turn_departs (h : Departs c acts p) (hat : At c acts p) (hstale : CallStaleExpired c l)
    (ht : Turn c acts p l c' acts' p') : Departs c' acts' p' where
  lives := turn_lives h.lives ht
  gone := turn_gone h hat hstale ht

lemma listening_departs (h : (callSystem Req Resp).init c) : Departs c [] .idle := by
  refine ⟨listening_lives h, ?_⟩
  obtain ⟨methodIndex, cq, queue, info, service, parent, shuttingDown, rfl⟩ := h
  intro h
  cases h

end Turns

theorem reach_departs {c : Call Req Resp} (hc : (callSystem Req Resp).Reach CallStaleExpired c) :
    ∃ acts p, At c acts p ∧ Departs c acts p :=
  reach_staged (fun _ => listening_departs)
    (fun _ _ _ _ _ _ _ hat h hstale ht => turn_departs h hat hstale ht) hc

/-! ### Erased `Rpc`s of a server -/

/-- The step is taken before `StopServing`. -/
def Serving (_s : Server Req Resp) (l : Label Req Resp) : Prop :=
  ∀ v, l ≠ .stopServing v

/-- Should the step handle a `WRITE_NEEDED` event of an erased `Rpc`, no `shared_ptr` to it is
left. This is so unless a `Writer` call outlives the erasure. -/
def StaleExpired (s : Server Req Resp) (l : Label Req Resp) : Prop :=
  ∀ t acts r rest, l = .exec t acts → s.tasks t = ⟨r, .handleInternal :: rest⟩ →
    s.active r = false → s.alive r = false

lemma StaleExpired.project {s s' : Server Req Resp} {l : Label Req Resp} {r : Nat}
    {m : CallLabel Req Resp} (hs : (serverSystem Req Resp options maps).Reachable s)
    (hl : StaleExpired s l) (hstep : s.step l = some s') (hR : (s.rpcs r).Routed)
    (hproj : l.project s r = some m) : CallStaleExpired (s.call r) m := by
  rintro acts rest rfl hcode hactive
  obtain ⟨t, rfl, htask⟩ := project_exec (reachable_housed hs) hR hstep hproj
  rw [hcode] at htask
  have halive := hl t acts r rest rfl htask hactive
  exact (congrArg Surroundings.alive (call_surroundings s r)).trans halive

/-- The step is taken before `StopServing`, and no event of an erased `Rpc` revives it. -/
def StaleIgnored (s : Server Req Resp) (l : Label Req Resp) : Prop :=
  Serving s l ∧ StaleExpired s l

/-- A step on an erased `Rpc` starts no operation of it and calls no callback. -/
lemma erased_step (hn : options.numEventThreads = 1) {s s' : Server Req Resp} {l : Label Req Resp}
    (hs : (serverSystem Req Resp options maps).Reach StaleIgnored s) (hl : StaleIgnored s l)
    (hstep : s.step l = some s') {r : Nat} (hr : r < s.nextRpc) (herased : s.active r = false) :
    s'.active r = false ∧ (s'.rpcs r).inFlight = (s.rpcs r).inFlight ∧
      (s'.rpcs r).sends = (s.rpcs r).sends ∧ (s'.rpcs r).callbacks = (s.rpcs r).callbacks := by
  have hR := (routed_of_one_thread hn hs.reachable hr).1
  obtain ⟨acts, p, hat, hd⟩ := reach_departs (reach_call (F := fun _ => CallStaleExpired)
    (fun _ _ _ _ _ hs hl hstep _ hR hproj => hl.2.project hs.reachable hstep hR hproj) hs hr hR)
  have hserving : (s.call r).shuttingDown = false :=
    reach_serving (hs.mono (fun _ _ h => h.1 _))
  rcases moves_call (step_moves hstep).2 (reachable_housed hs.reachable) hr hR with
    he | ⟨m, hproj, hcall⟩
  · exact ⟨(congrArg Call.active he).trans herased, congrArg (fun c => c.rpc.inFlight) he,
      congrArg (fun c => c.rpc.sends) he, congrArg (fun c => c.rpc.callbacks) he⟩
  · obtain ⟨acts', p', -, ht⟩ := step_turn hat hcall
    have hgone := (hd.gone herased).resolve_left (by simp [hserving])
    obtain ⟨-, hactive, hsends, hcallbacks, hflight⟩ := hgone.turn hd.lives.accounts hat
      (hl.2.project hs.reachable hstep hR hproj) herased ht
    exact ⟨hactive, hflight, hsends, hcallbacks⟩

/-- With one event thread and before `StopServing`, in every run in which a `WRITE_NEEDED` event
of an erased `Rpc` is only handled when no `shared_ptr` to the `Rpc` is left: from the moment
it is erased an `Rpc` stays erased, no operation of it is started, and none of its handler's
callbacks is called. -/
theorem erased_stays_at_rest (hn : options.numEventThreads = 1) {s s' : Server Req Resp}
    (hs : (serverSystem Req Resp options maps).Reach StaleIgnored s) {r : Nat} (hr : r < s.nextRpc)
    (herased : s.active r = false)
    (hrun : (serverSystem Req Resp options maps).Leads StaleIgnored s s') :
    s'.active r = false ∧ (s'.rpcs r).inFlight = (s.rpcs r).inFlight ∧
      (s'.rpcs r).sends = (s.rpcs r).sends ∧ (s'.rpcs r).callbacks = (s.rpcs r).callbacks := by
  have hrest : r < s'.nextRpc ∧ s'.active r = false ∧
      (s'.rpcs r).inFlight = (s.rpcs r).inFlight ∧ (s'.rpcs r).sends = (s.rpcs r).sends ∧
      (s'.rpcs r).callbacks = (s.rpcs r).callbacks := by
    induction hrun with
    | refl => exact ⟨hr, herased, rfl, rfl, rfl⟩
    | step hlead hl hstep ih =>
      obtain ⟨hlt, hactive, hflight, hsends, hcallbacks⟩ := ih
      have h := erased_step hn (hlead.reach hs) hl hstep hlt hactive
      exact ⟨hlt.trans_le (moves_nextRpc (step_moves hstep).2), h.1, h.2.1.trans hflight,
        h.2.2.1.trans hsends, h.2.2.2.trans hcallbacks⟩
  exact hrest.2

/-- The test for `StaleExpired`. -/
def staleExpired (s : Server Req Resp) : Label Req Resp → Bool
  | .exec t _ =>
    match (s.tasks t).code with
    | .handleInternal :: _ => s.active (s.tasks t).rpc || !s.alive (s.tasks t).rpc
    | _ => true
  | _ => true

lemma staleExpired_sound (s : Server Req Resp) (l : Label Req Resp)
    (h : staleExpired s l = true) : StaleExpired s l := by
  rintro t acts r rest rfl htask hactive
  simpa [staleExpired, htask, hactive] using h

/-- The test for `StaleIgnored`. -/
def staleIgnored (s : Server Req Resp) : Label Req Resp → Bool
  | .stopServing _ => false
  | l => staleExpired s l

lemma staleIgnored_sound (s : Server Req Resp) (l : Label Req Resp)
    (h : staleIgnored s l = true) : StaleIgnored s l := by
  cases l with
  | stopServing v => cases h
  | _ => exact ⟨by simp [Serving], staleExpired_sound s _ h⟩

/-- The `Writer` call enqueues its message, finds its `Rpc`, pushes its event and returns. -/
def finishByWriter : List (Label Nat Nat) :=
  List.replicate 4 (.stepWriter 0 0)

/-- A stale `WRITE_NEEDED` event stands behind the event that erased its `Rpc`. -/
theorem erased_stays_at_rest_of_run :
    ∃ s s', (serverSystem Nat Nat oneEventThread sumService).Reach StaleIgnored s ∧
      s.active 0 = false ∧ s.tasks 0 = ⟨0, [.handleInternal]⟩ ∧
      s.step (.exec 0 []) = some s' ∧ s'.active 0 = false ∧
      (s'.rpcs 0).inFlight = (s.rpcs 0).inFlight ∧ (s'.rpcs 0).sends = (s.rpcs 0).sends ∧
      (s'.rpcs 0).callbacks = (s.rpcs 0).callbacks := by
  obtain ⟨s, hs, hp⟩ := exists_reach oneEventThread sumService staleIgnored staleIgnored_sound
    (openWithWriter ++ event .read false none ++ execs 3 ++
      [.next 0 0 .done true none, .pushToEventQueue 0] ++ lockByWriter ++ finishByWriter ++
      [.pop 0] ++ execs 2 ++ [.pop 0])
    (fun s => 0 < s.nextRpc ∧ s.active 0 = false ∧ s.tasks 0 = ⟨0, [.handleInternal]⟩ ∧
      staleIgnored s (.exec 0 []) = true ∧ (s.step (.exec 0 [])).isSome) (by decide +kernel)
  obtain ⟨hr, herased, htask, hl, hstep⟩ := of_decide_eq_true hp
  obtain ⟨s', hstep⟩ := Option.isSome_iff_exists.mp hstep
  have hrun : (serverSystem Nat Nat oneEventThread sumService).Leads StaleIgnored s s' :=
    .step .refl (staleIgnored_sound _ _ hl) hstep
  exact ⟨s, s', hs, herased, htask, hstep, erased_stays_at_rest rfl hs hr herased hrun⟩

/-- The `Writer` call has pushed its event behind the event that erases the `Rpc` and not
returned yet: the event is not stale, and `Finish` is started on the erased `Rpc`. -/
theorem erased_starts_finish :
    ∃ s s', (serverSystem Nat Nat oneEventThread sumService).Reach Serving s ∧
      s.active 0 = false ∧ s.step (.exec 0 []) = some s' ∧ (s.rpcs 0).sends = [] ∧
      (s'.rpcs 0).sends = [.finish (some 5) .ok] ∧ (s'.rpcs 0).inFlight .finish = 1 := by
  obtain ⟨s, hs, hp⟩ := exists_reach (G := Serving) oneEventThread sumService
    (fun _ l => match l with | .stopServing _ => false | _ => true)
    (by rintro s l h v rfl; cases h)
    (openWithWriter ++ event .read false none ++ execs 3 ++
      [.next 0 0 .done true none, .pushToEventQueue 0] ++ lockByWriter ++
      List.replicate 3 (.stepWriter 0 0) ++ [.pop 0] ++ execs 2 ++ [.pop 0] ++ execs 2)
    (fun s => s.active 0 = false ∧ (s.rpcs 0).sends = [] ∧
      (s.step (.exec 0 [])).any (fun s' => (s'.rpcs 0).sends = [.finish (some 5) .ok] ∧
        (s'.rpcs 0).inFlight .finish = 1) = true) (by decide +kernel)
  obtain ⟨herased, hsends, hstep⟩ := of_decide_eq_true hp
  obtain ⟨s', hstep, hs'⟩ := (Option.any_eq_true _ _).mp hstep
  exact ⟨s, s', hs, herased, hstep, hsends, of_decide_eq_true hs'⟩

end AsyncGrpc.Proofs
