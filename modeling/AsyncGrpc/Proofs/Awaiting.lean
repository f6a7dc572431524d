import AsyncGrpc.Proofs.Lifetime
import AsyncGrpc.Tokens

/-!
# Awaited connections

An `Rpc` awaits a connection from its registration with gRPC until `HandleNewConnection` has
made its clone. Awaiting a connection is a token, and the clone takes it over: no step changes
how many connections are awaited for a method on a completion queue while the service is not
shutting down. This holds for any number of event threads.
-/

namespace AsyncGrpc.Proofs

open Function Transition Tokens

variable {Req Resp : Type} {options : Options} {maps : List (List (String × RpcHandlerInfo))}

/-- The instructions left to an event thread inside `HandleNewConnection`. -/
def isAccepting : Instr Resp → Bool
  | .handleNewConnection _ | .clone => true
  | _ => false

/-- The calls of `HandleNewConnection` in progress for an `Rpc`, on the event thread of its
`NEW_CONNECTION` event. -/
def inProgress (s : Server Req Resp) (r : Nat) : Nat :=
  let t := ((s.rpcs r).event .newConnection).eventQueue
  if (s.tasks t).rpc = r then (s.tasks t).code.countP isAccepting else 0

/-- The connections an `Rpc` awaits: `NEW_CONNECTION` is registered and has not been handled, or
is being handled. -/
def awaiting (s : Server Req Resp) (r : Nat) : Nat :=
  outstanding s r .newConnection + inProgress s r

/-- What an `Rpc` is registered for. -/
def place (x : Rpc Req Resp) : Nat × Nat × Nat :=
  (x.service, x.methodIndex, x.serverCompletionQueue)

/-! ### Where a token can be -/

def isListening : Instr Resp → Bool
  | .handle .newConnection | .handleNewConnection _ | .clone => true
  | _ => false

def tokensInHand (hand : Option (Nat × Tag × Bool)) (r : Nat) : Nat :=
  hand.toList.countP (fun p => p.1 = r ∧ p.2.1 = .newConnection)

def tokensQueued (queue : List QueuedEvent) (r : Nat) : Nat :=
  queue.count (.completion r .newConnection)

def tokensRun (task : Task Resp) (r : Nat) : Nat :=
  if task.rpc = r then task.code.countP isListening else 0

lemma countP_isListening (code : List (Instr Resp)) :
    code.countP isListening = code.countP (isHandle .newConnection) + code.countP isAccepting := by
  induction code with
  | nil => rfl
  | cons i code ih =>
    have hi : (if isListening i = true then 1 else 0) =
        (if isHandle .newConnection i = true then 1 else 0) + if isAccepting i = true then 1 else 0 := by
      cases i with
      | handle tag => cases tag <;> rfl
      | _ => rfl
    simp only [List.countP_cons, ih, hi]
    omega

lemma awaiting_eq (s : Server Req Resp) (r : Nat) :
    awaiting s r = (s.rpcs r).inFlight .newConnection +
      tokensInHand (s.inHand (s.rpcs r).serverCompletionQueue) r +
      tokensQueued (s.eventQueues ((s.rpcs r).event .newConnection).eventQueue) r +
      tokensRun (s.tasks ((s.rpcs r).event .newConnection).eventQueue) r := by
  simp only [awaiting, outstanding, inProgress, tokensInHand, tokensQueued, tokensRun]
  split
  · rw [countP_isListening]
    omega
  · omega

/-- An `Rpc` keeps its tokens when nothing that holds them changes. -/
lemma awaiting_congr {s s' : Server Req Resp} {r : Nat} (hplace : SamePlace (s.rpcs r) (s'.rpcs r))
    (hsum : ∀ t, t = ((s.rpcs r).event .newConnection).eventQueue →
      (s'.rpcs r).inFlight .newConnection +
        tokensInHand (s'.inHand (s.rpcs r).serverCompletionQueue) r +
        tokensQueued (s'.eventQueues t) r + tokensRun (s'.tasks t) r =
      (s.rpcs r).inFlight .newConnection +
        tokensInHand (s.inHand (s.rpcs r).serverCompletionQueue) r +
        tokensQueued (s.eventQueues t) r + tokensRun (s.tasks t) r) :
    awaiting s' r = awaiting s r := by
  rw [awaiting_eq, awaiting_eq, hplace.serverCompletionQueue, hplace.event]
  exact hsum _ rfl

/-- No instruction but `RequestNextMethodInvocation`, which is part of making an `Rpc`, asks for
a connection. -/
lemma run_inFlight {i : Instr Resp} {env : Surroundings} {acts : List (HandlerAction Resp)}
    {x : Rpc Req Resp} {o : Outcome Req Resp} (h : i.run env acts x = some o) :
    o.rpc.inFlight .newConnection = x.inFlight .newConnection := by
  cases run_runs h <;> rfl

lemma countP_isListening_producer {acts : List (Instr Resp)}
    (h : ∀ i ∈ acts, isProducer i = true) : acts.countP isListening = 0 := by
  rw [List.countP_eq_zero]
  intro i hi
  have hprod := h i hi
  cases i <;> first | (cases hprod; done) | simp [isListening]

/-- `HandleNewConnection` of a service that serves passes the token of its event on to the end
of the handling, where the clone takes it. -/
lemma run_listening {i : Instr Resp} {env : Surroundings} {acts : List (HandlerAction Resp)}
    {x : Rpc Req Resp} {o : Outcome Req Resp} (h : i.run env acts x = some o)
    (hserving : ∀ ok, i = .handleNewConnection ok → env.shuttingDown = false) :
    o.next.countP isListening + (if o.effect = .clone then 1 else 0) = (isListening i).toNat := by
  cases run_runs h with
  | @handle tag => cases tag <;> cases (x.event _).ok <;> rfl
  | @handleNewConnection ok =>
    simp only [Service.handleNewConnection, hserving ok rfl]
    cases ok <;> rfl
  | callback _ =>
    rw [countP_isListening_producer (instrs_producer acts)]
    rfl
  | _ => rfl

/-- A thread only has instructions with a token of an `Rpc` whose `NEW_CONNECTION` event it
handles. -/
def Posted (s : Server Req Resp) : Prop :=
  ∀ t, ∀ i ∈ (s.tasks t).code, isListening i = true →
    t = ((s.rpcs (s.tasks t).rpc).event .newConnection).eventQueue

lemma handler_isListening {e : QueuedEvent} (h : isListening (Server.handler e : Instr Resp) = true) :
    e = .completion e.rpc .newConnection := by
  cases e with
  | completion r tag => cases tag <;> first | rfl | cases h
  | internal r => cases h

lemma moves_posted {s s' : Server Req Resp} {l : Label Req Resp} (h : Moves s l s')
    (hh : Housed s) (hp : Posted s) : Posted s' := by
  have hold : ∀ t, ∀ i ∈ (s'.tasks t).code, isListening i = true →
      (s'.tasks t).rpc < s.nextRpc ∧
        t = ((s.rpcs (s'.tasks t).rpc).event .newConnection).eventQueue := by
    intro t i hi hlisten
    cases h with
    | @pop t' e rest hidle hqueue _ =>
      by_cases ht : t = t'
      · subst ht
        simp only [Server.setTask, update_self, List.mem_singleton] at hi ⊢
        obtain ⟨hlt, hhome⟩ := hh.queues t e (by simp [hqueue])
        have he := handler_isListening (hi ▸ hlisten)
        rw [he] at hhome
        exact ⟨hlt, hhome⟩
      · simp only [Server.setTask, update_of_ne ht] at hi ⊢
        exact ⟨(hh.tasks t (List.ne_nil_of_mem hi)).1, hp t i hi hlisten⟩
    | @exec t' acts r j rest o htask hrun =>
      rw [apply_tasks] at hi ⊢
      by_cases ht : t = t'
      · subst ht
        simp only [Server.setTask, update_self, List.mem_append] at hi ⊢
        have hr := (hh.tasks t (by simp [htask])).1
        rw [htask] at hr
        have hbefore : ∃ j' ∈ (s.tasks t).code, isListening j' = true := by
          rcases hi with hi | hi
          · -- An instruction with a token comes from one.
            refine ⟨j, by simp [htask], ?_⟩
            by_contra hj
            have hcount := run_listening hrun (by rintro ok rfl; exact absurd rfl hj)
            rw [Bool.eq_false_of_not_eq_true hj, Bool.toNat_false] at hcount
            have hpos : 0 < o.next.countP isListening := List.countP_pos_iff.mpr ⟨i, hi, hlisten⟩
            omega
          · exact ⟨i, by simp [htask, hi], hlisten⟩
        obtain ⟨j', hj', hlisten'⟩ := hbefore
        have hpost := hp t j' hj' hlisten'
        rw [htask] at hpost
        exact ⟨hr, hpost⟩
      · simp only [Server.setTask, Server.setRpc, update_of_ne ht] at hi ⊢
        exact ⟨(hh.tasks t (List.ne_nil_of_mem hi)).1, hp t i hi hlisten⟩
    | stepWriter _ _ _ =>
      rw [apply_tasks] at hi ⊢
      exact ⟨(hh.tasks t (List.ne_nil_of_mem hi)).1, hp t i hi hlisten⟩
    | _ => exact ⟨(hh.tasks t (List.ne_nil_of_mem hi)).1, hp t i hi hlisten⟩
  intro t i hi hlisten
  obtain ⟨hlt, hpost⟩ := hold t i hi hlisten
  exact hpost.trans ((moves_samePlace h hlt).event .newConnection).symm

theorem reachable_posted {s : Server Req Resp}
    (hs : (serverSystem Req Resp options maps).Reachable s) : Posted s := by
  apply hs.invariant (P := Posted)
  · rintro s rfl t i hi
    rw [start_quiet_housed.1.tasks t] at hi
    cases hi
  · intro s l s' hr hp _ hstep
    exact moves_posted (step_moves hstep).2 (reachable_housed hr) hp

/-! ### Steps of a server and its tokens -/

section Steps

variable {s s' : Server Req Resp} {r : Nat}

@[simp] lemma tokensInHand_none : tokensInHand none r = 0 :=
  rfl

lemma tokensInHand_some (r' : Nat) (tag : Tag) (ok : Bool) :
    tokensInHand (some (r', tag, ok)) r = if r' = r ∧ tag = .newConnection then 1 else 0 := by
  simp [tokensInHand, List.countP_cons]

lemma tokensQueued_push (q t : Nat) (e : QueuedEvent) :
    tokensQueued ((s.push q e).eventQueues t) r =
      tokensQueued (s.eventQueues t) r + if t = q ∧ e = .completion r .newConnection then 1 else 0 := by
  simp only [tokensQueued, Server.push, Server.setEventQueue, update_apply]
  by_cases ht : t = q
  · subst ht
    simp [List.count_append, List.count_cons]
  · simp [ht]

lemma next_awaiting {cq r' : Nat} {tag : Tag} {ok : Bool} {request : Option Req}
    (hhand : s.inHand cq = none) (hplace : (s.rpcs r').serverCompletionQueue = cq)
    (hmay : (s.rpcs r').mayReturn tag ok request = true) :
    awaiting ((s.setRpc r' ((s.rpcs r').returnTag tag ok request)).setInHand cq
      (some (r', tag, ok))) r = awaiting s r := by
  by_cases hr : r = r'
  · subst hr
    apply awaiting_congr
    · simpa [Server.setInHand, Server.setRpc] using returnTag_samePlace _ _ _ _
    · intro t _
      have hheld := (mayReturn_iff.mp hmay).1
      simp only [Server.setInHand, Server.setRpc, update_self, hplace, hhand, tokensInHand_some,
        tokensInHand_none, Rpc.returnTag]
      by_cases htag : tag = .newConnection
      · subst htag
        simp only [update_self, and_self, if_true]
        omega
      · simp [htag, Ne.symm htag]
  · apply awaiting_congr
    · simpa [Server.setInHand, Server.setRpc, hr] using SamePlace.refl _
    · intro t _
      simp only [Server.setInHand, Server.setRpc, update_of_ne hr, update_apply]
      split
      · rename_i hcq
        rw [hcq, hhand, tokensInHand_some, if_neg (fun h => hr h.1.symm)]
        rfl
      · rfl

lemma pushToEventQueue_awaiting {cq r' : Nat} {tag : Tag} {ok : Bool}
    (hhand : s.inHand cq = some (r', tag, ok)) (hplace : (s.rpcs r').serverCompletionQueue = cq) :
    awaiting (((s.setRpc r' ((s.rpcs r').setOk tag ok)).setInHand cq none).push
      ((s.rpcs r').event tag).eventQueue (.completion r' tag)) r = awaiting s r := by
  by_cases hr : r = r'
  · subst hr
    apply awaiting_congr
    · simpa [Server.push, Server.setEventQueue, Server.setInHand, Server.setRpc] using
        setOk_samePlace _ _ _
    · intro t ht
      rw [tokensQueued_push]
      simp only [Server.push, Server.setEventQueue, Server.setInHand, Server.setRpc, update_self,
        hplace, hhand, tokensInHand_some, tokensInHand_none, Rpc.setOk]
      by_cases htag : tag = .newConnection
      · subst htag
        simp only [ht, and_self, if_true]
        omega
      · simp [htag]
  · apply awaiting_congr
    · simpa [Server.push, Server.setEventQueue, Server.setInHand, Server.setRpc, hr] using
        SamePlace.refl _
    · intro t _
      rw [tokensQueued_push, if_neg (by rintro ⟨-, h⟩; cases h; exact hr rfl)]
      simp only [Server.push, Server.setEventQueue, Server.setInHand, Server.setRpc,
        update_of_ne hr, update_apply]
      split
      · rename_i hcq
        rw [hcq, hhand, tokensInHand_some, if_neg (fun h => hr h.1.symm)]
        rfl
      · rfl

lemma pop_awaiting {t' : Nat} {e : QueuedEvent} {rest : List QueuedEvent}
    (hidle : (s.tasks t').code = []) (hqueue : s.eventQueues t' = e :: rest) :
    awaiting ((s.setEventQueue t' rest).setTask t' ⟨e.rpc, [Server.handler e]⟩) r =
      awaiting s r := by
  refine awaiting_congr (by exact .refl _) (fun t _ => ?_)
  by_cases ht : t = t'
  · subst ht
    have hrun : tokensRun (s.tasks t) r = 0 := by simp [tokensRun, hidle]
    have hpop : tokensQueued (e :: rest) r =
        tokensQueued rest r + tokensRun ⟨e.rpc, [(Server.handler e : Instr Resp)]⟩ r := by
      simp only [tokensQueued, tokensRun, List.count_cons]
      congr 1
      cases e with
      | completion r' tag =>
        by_cases hr : r' = r
        · subst hr
          cases tag <;> simp [QueuedEvent.rpc, Server.handler, isListening]
        · simp [QueuedEvent.rpc, hr]
      | internal r' => simp [Server.handler, isListening]
    simp only [Server.setTask, Server.setEventQueue, update_self, hqueue, hrun, hpop]
    omega
  · simp [Server.setTask, Server.setEventQueue, ht]

/-- No effect touches the tokens of an `Rpc` that exists. -/
lemma apply_awaiting (r' : Nat) (effect : Effect) (hr : r < s.nextRpc) :
    awaiting (s.apply r' effect) r = awaiting s r := by
  refine awaiting_congr (by rw [apply_rpcs _ _ _ hr]; exact .refl _) (fun t _ => ?_)
  rw [apply_rpcs _ _ _ hr, apply_inHand, apply_tasks]
  cases effect with
  | pushWriteNeeded =>
    rw [Server.apply, tokensQueued_push, if_neg (by rintro ⟨-, h⟩; cases h)]
    rfl
  | none | remove | clone => rfl

/-- An instruction passes its token on, to the clone it asks for or to the instructions that
follow, but for `d` tokens that it drops. -/
lemma exec_tokens {t' r' d : Nat} {i : Instr Resp} {rest : List (Instr Resp)}
    {acts : List (HandlerAction Resp)} {o : Outcome Req Resp} (htask : s.tasks t' = ⟨r', i :: rest⟩)
    (hrun : i.run (s.surroundings r') acts (s.rpcs r') = some o) (hp : Posted s)
    (hcount : r = r' → o.next.countP isListening + (if o.effect = .clone then 1 else 0) + d =
      (isListening i).toNat) :
    awaiting ((s.setRpc r' o.rpc).setTask t' ⟨r', o.next ++ rest⟩) r +
      (if r = r' ∧ o.effect = .clone then 1 else 0) + (if r = r' then d else 0) = awaiting s r := by
  by_cases hr : r = r'
  · subst hr
    replace hcount := hcount rfl
    have hplace := run_samePlace hrun
    rw [awaiting_eq, awaiting_eq]
    simp only [Server.setTask, Server.setRpc, update_self, true_and, run_inFlight hrun,
      hplace.serverCompletionQueue, hplace.event, if_true]
    by_cases ht : ((s.rpcs r).event .newConnection).eventQueue = t'
    · rw [ht, update_self, htask]
      have hone : (if isListening i = true then 1 else 0) = (isListening i).toNat := by
        cases isListening i <;> rfl
      simp only [tokensRun, if_true, List.countP_append, List.countP_cons, hone, ← hcount]
      omega
    · -- The thread of another event of the `Rpc` has no token.
      have hi : isListening i = false := by
        by_contra hi
        have hpost := hp t' i (by simp [htask]) (by simpa using hi)
        rw [htask] at hpost
        exact ht hpost.symm
      rw [hi, Bool.toNat_false] at hcount
      rw [update_of_ne ht]
      omega
  · rw [if_neg (fun h => hr h.1), if_neg hr, Nat.add_zero]
    refine awaiting_congr (by simpa [Server.setTask, Server.setRpc, hr] using SamePlace.refl _)
      (fun t _ => ?_)
    simp only [Server.setTask, Server.setRpc, update_of_ne hr]
    by_cases ht : t = t'
    · subst ht
      simp [tokensRun, htask, Ne.symm hr]
    · rw [update_of_ne ht]

/-- An instruction that asks for a clone gives up a token of its `Rpc`; no other does. -/
lemma exec_awaiting {t' r' : Nat} {i : Instr Resp} {rest : List (Instr Resp)}
    {acts : List (HandlerAction Resp)} {o : Outcome Req Resp} (htask : s.tasks t' = ⟨r', i :: rest⟩)
    (hrun : i.run (s.surroundings r') acts (s.rpcs r') = some o) (hp : Posted s)
    (hserving : r = r' → (s.services (s.rpcs r).service).shuttingDown = false) :
    awaiting ((s.setRpc r' o.rpc).setTask t' ⟨r', o.next ++ rest⟩) r +
      (if r = r' ∧ o.effect = .clone then 1 else 0) = awaiting s r := by
  have htokens := exec_tokens (d := 0) (r := r) htask hrun hp (fun hr => ?_)
  · simpa using htokens
  · subst hr
    exact run_listening hrun (fun _ _ => hserving rfl)

lemma writerStep_inFlight {w w' : WriterCall Resp} {env : Surroundings} {x y : Rpc Req Resp}
    {effect : Effect} (h : w.step env x = some (y, w', effect)) :
    y.inFlight = x.inFlight := by
  unfold WriterCall.step at h
  split at h <;> (try split at h) <;> cases h <;> rfl

lemma stepWriter_awaiting {r' : Nat} {w w' : WriterCall Resp} {x : Rpc Req Resp} {effect : Effect}
    {calls : List (WriterCall Resp)}
    (hstep : w.step (s.surroundings r') (s.rpcs r') = some (x, w', effect)) :
    awaiting ((s.setRpc r' x).setWriters r' calls) r = awaiting s r := by
  by_cases hr : r = r'
  · subst hr
    apply awaiting_congr
    · simpa [Server.setWriters, Server.setRpc] using writerStep_samePlace hstep
    · intro t _
      simp [Server.setWriters, Server.setRpc, writerStep_inFlight hstep]
  · apply awaiting_congr
    · simpa [Server.setWriters, Server.setRpc, hr] using SamePlace.refl _
    · intro t _
      simp [Server.setWriters, Server.setRpc, hr]

/-- A step that makes no `Rpc` leaves all tokens where they are. -/
theorem moves_awaiting {l : Label Req Resp} (h : Moves s l s') (hh : Housed s) (hp : Posted s)
    (hsame : s'.nextRpc = s.nextRpc) (hr : r < s.nextRpc)
    (hserving : (s.services (s.rpcs r).service).shuttingDown = false) :
    awaiting s' r = awaiting s r := by
  cases h with
  | next _ hhand _ hplace hmay => exact next_awaiting hhand hplace hmay
  | pushToEventQueue hhand => exact pushToEventQueue_awaiting hhand (hh.inHand _ _ _ _ hhand).2
  | pop hidle hqueue _ => exact pop_awaiting hidle hqueue
  | @exec t acts r' i rest o htask hrun =>
    have hexec := exec_awaiting (r := r) htask hrun hp (fun _ => hserving)
    have hclone : o.effect ≠ .clone := by
      intro hc
      rw [apply_nextRpc, if_pos hc] at hsame
      exact Nat.succ_ne_self _ hsame
    rw [if_neg (fun h => hclone h.2), Nat.add_zero] at hexec
    exact (apply_awaiting _ _ (by exact hr)).trans hexec
  | stepWriter _ _ hstep =>
    exact (apply_awaiting _ _ (by exact hr)).trans (stepWriter_awaiting hstep)
  | execFault _ _ | callWriter _ _ | writerFault _ _ _ | stopServing => rfl

lemma addRpc_awaiting_old (x : Rpc Req Resp) (hr : r < s.nextRpc) :
    awaiting (s.addRpc x) r = awaiting s r := by
  refine awaiting_congr (by rw [addRpc_rpcs_old _ _ hr]; exact .refl _) (fun t _ => ?_)
  rw [addRpc_rpcs_old _ _ hr]
  rfl

/-- A new `Rpc` is registered, and nothing else knows about it. -/
lemma addRpc_awaiting_new (hh : Housed s) (x : Rpc Req Resp) (hx : x.inFlight .newConnection = 0) :
    awaiting (s.addRpc x) s.nextRpc = 1 := by
  have hhand : ∀ cq, tokensInHand (s.inHand cq) s.nextRpc = 0 := by
    intro cq
    cases h : s.inHand cq with
    | none => rfl
    | some p =>
      obtain ⟨r', tag, ok⟩ := p
      have hlt := (hh.inHand cq r' tag ok h).1
      rw [tokensInHand_some, if_neg (by omega)]
  have hqueue : ∀ t, tokensQueued (s.eventQueues t) s.nextRpc = 0 := by
    intro t
    refine List.count_eq_zero.mpr (fun hmem => ?_)
    exact absurd (hh.queues t _ hmem).1 (lt_irrefl _)
  have hrun : ∀ t, tokensRun (s.tasks t) s.nextRpc = 0 := by
    intro t
    unfold tokensRun
    split
    · rename_i hrpc
      by_cases hcode : (s.tasks t).code = []
      · rw [hcode]
        rfl
      · exact absurd (hrpc ▸ (hh.tasks t hcode).1) (lt_irrefl _)
    · rfl
  have hflight : (x.requestNextMethodInvocation).inFlight .newConnection = 1 := by
    simp [Rpc.requestNextMethodInvocation, Rpc.startOp, Rpc.setRpcEventState, hx]
  rw [awaiting_eq, addRpc_rpcs_new, hflight]
  change 1 + tokensInHand (s.inHand _) _ + tokensQueued (s.eventQueues _) _ + tokensRun (s.tasks _) _ = 1
  rw [hhand, hqueue, hrun]

/-- The connections awaited for a method of a service on a completion queue. -/
def listeners (s : Server Req Resp) (k : Nat × Nat × Nat) : Nat :=
  tokens s.nextRpc (fun r => place (s.rpcs r)) (awaiting s) k

lemma SamePlace.place {x y : Rpc Req Resp} (h : SamePlace x y) : place y = place x := by
  simp only [Proofs.place, h.service, h.methodIndex, h.serverCompletionQueue]

lemma addRpc_place_new (s : Server Req Resp) (x : Rpc Req Resp) :
    place ((s.addRpc x).rpcs s.nextRpc) = place x := by
  rw [addRpc_rpcs_new]
  exact (requestNextMethodInvocation_samePlace x).place

lemma addRpc_listeners (hh : Housed s) (x : Rpc Req Resp) (hx : x.inFlight .newConnection = 0)
    (k : Nat × Nat × Nat) :
    listeners (s.addRpc x) k = listeners s k + if place x = k then 1 else 0 := by
  unfold listeners
  rw [show (s.addRpc x).nextRpc = s.nextRpc + 1 from rfl, tokens_succ, addRpc_place_new,
    addRpc_awaiting_new hh x hx]
  congr 1
  apply tokens_congr
  · intro r hr
    rw [addRpc_rpcs_old _ _ hr]
  · intro r hr _
    exact addRpc_awaiting_old x hr

/-- While a service is not shutting down, no step changes how many connections are awaited for
one of its methods on a completion queue. -/
theorem moves_listeners {l : Label Req Resp} (h : Moves s l s') (hh : Housed s) (hp : Posted s)
    {v : Nat} (hserving : (s.services v).shuttingDown = false) (i cq : Nat) :
    listeners s' (v, i, cq) = listeners s (v, i, cq) := by
  have hservice : ∀ r, place (s.rpcs r) = (v, i, cq) →
      (s.services (s.rpcs r).service).shuttingDown = false := by
    intro r hk
    rw [show (s.rpcs r).service = v from congrArg Prod.fst hk]
    exact hserving
  by_cases hsame : s'.nextRpc = s.nextRpc
  · unfold listeners
    rw [hsame]
    apply tokens_congr
    · intro r hr
      exact (moves_samePlace h hr).place
    · intro r hr hk
      exact moves_awaiting h hh hp hsame hr (hservice r hk)
  · obtain ⟨t, acts, p, rest, rfl, htask, rfl⟩ := moves_born h hsame
    have hcode : (s.tasks t).code ≠ [] := by simp [htask]
    have hlt := (hh.tasks t hcode).1
    have hh' := hh.setTask hcode rest
    rw [htask] at hlt hh'
    -- The clone takes over the token of its parent.
    have hrun : (Instr.clone : Instr Resp).run (s.surroundings p) acts (s.rpcs p) =
        some ⟨s.rpcs p, [], .clone⟩ := rfl
    have htake := fun r (hk : place (s.rpcs r) = (v, i, cq)) =>
      exec_awaiting (r := r) htask hrun hp (fun _ => hservice r hk)
    rw [show s.setRpc p (s.rpcs p) = s by simp [Server.setRpc]] at htake
    have hadd := addRpc_listeners hh'
      { (s.rpcs p).clone.setEventQueue (s.setTask t ⟨p, rest⟩).nextEventQueue with
        parent := some p } rfl (v, i, cq)
    refine hadd.trans (tokens_take hlt (fun r _ hne hk => ?_) (fun hk => ?_))
    · have := htake r hk
      rwa [if_neg (fun h => hne h.1), Nat.add_zero] at this
    · have := htake p hk
      rwa [if_pos ⟨rfl, rfl⟩] at this

end Steps

end AsyncGrpc.Proofs
