import AsyncGrpc.Proofs.Accounting
import AsyncGrpc.Proofs.PartView

/-!
# What a step of a part can do

`Does` lists the steps of a part, `RunBooks` what an instruction does to the operations of its
`Rpc`, and `Placed` on which event threads the events of an `Rpc` are handled: completion queue
events on the thread of the queue they push to, `WRITE_NEEDED` events on the thread of
`event_queue_`.
-/

namespace AsyncGrpc.Proofs

open Function Transition

variable {Req Resp : Type}

inductive Does (c : Part Req Resp) : PartLabel Req Resp → Part Req Resp → Prop
  | next {tag : Tag} {ok : Bool} {request : Option Req} (hhand : c.inHand = none)
      (hmay : c.rpc.mayReturn tag ok request = true) :
      Does c (.next tag ok request)
        { c with rpc := c.rpc.returnTag tag ok request, inHand := some (tag, ok) }
  | pushToEventQueue {tag : Tag} {ok : Bool} (hhand : c.inHand = some (tag, ok)) :
      Does c .pushToEventQueue
        (({ c with rpc := c.rpc.setOk tag ok, inHand := none } : Part Req Resp).push
          (c.rpc.event tag).eventQueue (.completion tag))
  | pop {t : Nat} {e : Mail} {rest : List Mail} (hidle : c.code t = [])
      (hmail : c.mailbox t = e :: rest) :
      Does c (.pop t)
        { c with mailbox := update c.mailbox t rest, code := update c.code t [e.handler] }
  | exec {t : Nat} {acts : List (HandlerAction Resp)} {i : Instr Resp} {rest : List (Instr Resp)}
      {o : Outcome Req Resp} (hcode : c.code t = i :: rest)
      (hrun : i.run c.surroundings acts c.rpc = some o) :
      Does c (.exec t acts)
        (({ c with rpc := o.rpc, code := update c.code t (o.next ++ rest) } : Part Req Resp).apply
          o.effect)
  | callWriter {method : WriterMethod Resp} (hwriter : c.rpc.hasWriter = true) :
      Does c (.callWriter method) { c with writers := c.writers ++ [⟨method.item, .calling⟩] }
  | stepWriter {i : Nat} {w w' : WriterCall Resp} {x : Rpc Req Resp} {effect : Effect}
      (hw : c.writers[i]? = some w) (hstep : w.step c.surroundings c.rpc = some (x, w', effect)) :
      Does c (.stepWriter i)
        (({ c with rpc := x, writers := c.writers.set i w' } : Part Req Resp).apply effect)
  | stopServing : Does c .stopServing { c with shuttingDown := true }

theorem step_does {c c' : Part Req Resp} {m : PartLabel Req Resp} (h : c.step m = some c') :
    Does c m c' := by
  cases m with
  | next tag ok request =>
    simp only [Part.step] at h
    split at h
    · rename_i hg
      cases h
      exact .next hg.1 hg.2
    · cases h
  | pushToEventQueue =>
    obtain ⟨⟨tag, ok⟩, hhand, rfl⟩ := Option.map_eq_some_iff.mp h
    exact .pushToEventQueue hhand
  | pop t =>
    simp only [Part.step] at h
    split at h
    · rename_i hidle hmail
      cases h
      exact .pop hidle hmail
    · cases h
  | exec t acts =>
    simp only [Part.step] at h
    split at h
    · cases h
    · rename_i hcode
      obtain ⟨o, hrun, rfl⟩ := Option.map_eq_some_iff.mp h
      exact .exec hcode hrun
  | callWriter method =>
    simp only [Part.step] at h
    split at h
    · rename_i hwriter
      cases h
      exact .callWriter hwriter
    · cases h
  | stepWriter i =>
    simp only [Part.step] at h
    split at h
    · cases h
    · rename_i hw
      split at h
      · cases h
      · obtain ⟨⟨x, w', effect⟩, hstep, rfl⟩ := Option.map_eq_some_iff.mp h
        exact .stepWriter hw hstep
  | stopServing =>
    cases h
    exact .stopServing

/-! ### Frames of the effects -/

section Effects

variable (c : Part Req Resp) (effect : Effect)

@[simp] lemma Part.apply_rpc : (c.apply effect).rpc = c.rpc := by
  cases effect <;> rfl

@[simp] lemma Part.apply_code : (c.apply effect).code = c.code := by
  cases effect <;> rfl

@[simp] lemma Part.apply_inHand : (c.apply effect).inHand = c.inHand := by
  cases effect <;> rfl

@[simp] lemma Part.apply_writers : (c.apply effect).writers = c.writers := by
  cases effect <;> rfl

@[simp] lemma Part.apply_shuttingDown : (c.apply effect).shuttingDown = c.shuttingDown := by
  cases effect <;> rfl

/-- No effect puts an `Rpc` back into `ActiveRpcs`. -/
lemma Part.active_of_apply (h : (c.apply effect).active = true) : c.active = true := by
  cases effect with
  | remove => cases h
  | _ => exact h

lemma mem_push {c : Part Req Resp} {q t : Nat} {e e' : Mail} :
    e' ∈ (c.push q e).mailbox t ↔ e' ∈ c.mailbox t ∨ (t = q ∧ e' = e) := by
  simp only [Part.push, update_apply]
  split
  · rename_i ht
    simp [ht]
  · rename_i ht
    simp [ht]

lemma mem_pop {c : Part Req Resp} {t t' : Nat} {e e' : Mail} {rest : List Mail}
    (hmail : c.mailbox t = e :: rest) (h : e' ∈ update c.mailbox t rest t') : e' ∈ c.mailbox t' := by
  by_cases ht : t' = t
  · subst ht
    rw [hmail]
    exact List.mem_cons_of_mem _ (by simpa using h)
  · simpa [ht] using h

lemma mem_pop_code {c : Part Req Resp} {t t' : Nat} {i : Instr Resp} {e : Mail}
    (h : i ∈ update c.code t [e.handler] t') : i = e.handler ∨ i ∈ c.code t' := by
  by_cases ht : t' = t
  · subst ht
    exact .inl (by simpa using h)
  · exact .inr (by simpa [ht] using h)

/-- After an instruction a thread has what the instruction adds and what was left to it. -/
lemma mem_exec_code {c : Part Req Resp} {t t' : Nat} {j : Instr Resp}
    {next rest : List (Instr Resp)} (h : j ∈ update c.code t (next ++ rest) t') :
    (t' = t ∧ j ∈ next) ∨ (t' = t ∧ j ∈ rest) ∨ (t' ≠ t ∧ j ∈ c.code t') := by
  by_cases ht : t' = t
  · subst ht
    rw [update_self] at h
    rcases List.mem_append.mp h with h | h
    · exact .inl ⟨rfl, h⟩
    · exact .inr (.inl ⟨rfl, h⟩)
  · exact .inr (.inr ⟨ht, by simpa [ht] using h⟩)

lemma mem_code_of_exec {c : Part Req Resp} {t t' : Nat} {i j : Instr Resp}
    {next rest : List (Instr Resp)} (hcode : c.code t = i :: rest)
    (h : j ∈ update c.code t (next ++ rest) t') : j ∈ next ∨ j ∈ c.code t' := by
  rcases mem_exec_code h with ⟨-, h⟩ | ⟨ht, h⟩ | ⟨-, h⟩
  · exact .inl h
  · exact .inr (by simp [ht, hcode, h])
  · exact .inr h

lemma mem_exec_next {c : Part Req Resp} {t : Nat} {j : Instr Resp} {next rest : List (Instr Resp)}
    (h : j ∈ next) : j ∈ update c.code t (next ++ rest) t := by
  rw [update_self]
  exact List.mem_append_left _ h

/-- An instruction that is not the one executed is still there. -/
lemma mem_exec_of_ne {c : Part Req Resp} {t t' : Nat} {i j : Instr Resp}
    {next rest : List (Instr Resp)} (hcode : c.code t = i :: rest) (h : j ∈ c.code t')
    (hne : j ≠ i) : j ∈ update c.code t (next ++ rest) t' := by
  by_cases ht : t' = t
  · rw [ht, hcode] at h
    rw [ht, update_self]
    exact List.mem_append_right _ ((List.mem_cons.mp h).resolve_left hne)
  · rwa [update_of_ne ht]

/-- An effect adds at most a `WRITE_NEEDED` event, on the `event_queue_` of the `Rpc`. -/
lemma mem_apply_mailbox {c : Part Req Resp} {effect : Effect} {t : Nat} {e : Mail}
    (h : e ∈ (c.apply effect).mailbox t) :
    e ∈ c.mailbox t ∨ (t = c.rpc.eventQueue ∧ e = .internal ∧ effect = .pushWriteNeeded) := by
  cases effect with
  | none | remove | clone => exact .inl h
  | pushWriteNeeded =>
    rcases mem_push.mp h with h | ⟨ht, he⟩
    · exact .inl h
    · exact .inr ⟨ht, he, rfl⟩

@[simp] lemma filterMap_mailTag_apply (t : Nat) :
    ((c.apply effect).mailbox t).filterMap mailTag = (c.mailbox t).filterMap mailTag := by
  cases effect with
  | none | remove | clone => rfl
  | pushWriteNeeded =>
    simp only [Part.apply, Part.push, update_apply]
    split
    · rename_i ht
      simp [ht, mailTag]
    · rfl

end Effects

/-! ### What an instruction does to the operations of its `Rpc` -/

/-- Two states of an `Rpc` with the same operations. -/
structure SameBooks (x y : Rpc Req Resp) : Prop where
  event : y.event = x.event
  inFlight : y.inFlight = x.inFlight
  connected : y.connected = x.connected
  returned : y.returned = x.returned
  handled : y.handled = x.handled

lemma SameBooks.refl (x : Rpc Req Resp) : SameBooks x x :=
  ⟨rfl, rfl, rfl, rfl, rfl⟩

/-- The operation an instruction may start. -/
def mayStart : Instr Resp → Option Tag
  | .requestStreamingReadIfNeeded => some .read
  | .performWrite _ => some .write
  | .performFinish _ => some .finish
  | _ => none

inductive RunBooks (x : Rpc Req Resp) (i : Instr Resp) (y : Rpc Req Resp) : Prop
  | same (hi : ∀ tag, i ≠ .handle tag) (h : SameBooks x y)
  | start (tag : Tag) (hi : mayStart i = some tag) (h : SameBooks (x.startOp tag) y)
  | handle (tag : Tag) (hi : i = .handle tag) (h : y = x.startHandling tag)

theorem run_books {i : Instr Resp} {env : Surroundings} {acts : List (HandlerAction Resp)}
    {x : Rpc Req Resp} {o : Outcome Req Resp} (h : i.run env acts x = some o) :
    RunBooks x i o.rpc := by
  cases run_runs h with
  | handle => exact .handle _ rfl rfl
  | startRead _ => exact .start .read rfl (.refl _)
  | performFinish _ => exact .start .finish rfl ⟨rfl, rfl, rfl, rfl, rfl⟩
  | performWrite _ _ => exact .start .write rfl ⟨rfl, rfl, rfl, rfl, rfl⟩
  | _ => exact .same (by simp) ⟨rfl, rfl, rfl, rfl, rfl⟩

/-! ### The handlers of completion queue events and of `WRITE_NEEDED` -/

/-- An instruction inside a handler: no event is taken up and no scope of an owner ends. -/
def isPlain : Instr Resp → Bool
  | .handle _ | .handleNewConnection _ | .handleInternal | .releaseShared => false
  | _ => true

lemma isPlain_of_producer {i : Instr Resp} (h : isProducer i = true) : isPlain i = true := by
  cases i <;> first | rfl | cases h

lemma run_next_plain {i : Instr Resp} {env : Surroundings} {acts : List (HandlerAction Resp)}
    {x : Rpc Req Resp} {o : Outcome Req Resp} (h : i.run env acts x = some o)
    (hi : isPlain i = true) : ∀ j ∈ o.next, isPlain j = true := by
  cases run_runs h with
  | handle | handleInternal _ | stale _ | releaseShared | handleNewConnection => cases hi
  | callback _ => exact fun j hj => isPlain_of_producer (instrs_producer acts j hj)
  | _ => simp [isPlain]

/-- What is left of the handling of a completion queue event. -/
inductive CompletionCode : List (Instr Resp) → Prop
  | handle (tag : Tag) : CompletionCode [.handle tag]
  | newConnection (ok : Bool) : CompletionCode [.handleNewConnection ok]
  | plain {code : List (Instr Resp)} (h : ∀ i ∈ code, isPlain i = true) : CompletionCode code

/-- What is left of the handling of a `WRITE_NEEDED` event. -/
inductive InternalCode : List (Instr Resp) → Prop
  | handle : InternalCode [.handleInternal]
  | shared {code : List (Instr Resp)} (h : ∀ i ∈ code, isPlain i = true) :
      InternalCode (code ++ [.releaseShared])

lemma handleEvent_completionCode (tag : Tag) (ok : Bool) :
    CompletionCode (Service.handleEvent tag.event ok : List (Instr Resp)) := by
  cases tag with
  | newConnection => exact .newConnection ok
  | read =>
    refine .plain ?_
    cases ok <;> simp [Service.handleEvent, Tag.event, Service.handleRead, isPlain]
  | write => exact .plain (by simp [Service.handleEvent, Tag.event, Service.handleWrite, isPlain])
  | finish => exact .plain (by simp [Service.handleEvent, Tag.event, Service.handleFinish, isPlain])
  | done => exact .plain (by simp [Service.handleEvent, Tag.event, Service.handleDone, isPlain])

lemma handleNewConnection_plain (shuttingDown ok : Bool) :
    ∀ i ∈ (Service.handleNewConnection shuttingDown ok : List (Instr Resp)), isPlain i = true := by
  cases shuttingDown <;> cases ok <;> simp [Service.handleNewConnection, isPlain]

lemma CompletionCode.exec {i : Instr Resp} {rest : List (Instr Resp)} {env : Surroundings}
    {acts : List (HandlerAction Resp)} {x : Rpc Req Resp} {o : Outcome Req Resp}
    (hcode : CompletionCode (i :: rest)) (h : i.run env acts x = some o) :
    CompletionCode (o.next ++ rest) := by
  cases hcode with
  | handle tag =>
    cases h
    rw [List.append_nil]
    exact handleEvent_completionCode tag _
  | newConnection ok =>
    cases h
    rw [List.append_nil]
    exact .plain (handleNewConnection_plain _ ok)
  | plain hplain =>
    refine .plain (fun j hj => ?_)
    rcases List.mem_append.mp hj with hj | hj
    · exact run_next_plain h (hplain i (by simp)) j hj
    · exact hplain j (List.mem_cons_of_mem _ hj)

lemma InternalCode.exec {i : Instr Resp} {rest code : List (Instr Resp)} {env : Surroundings}
    {acts : List (HandlerAction Resp)} {x : Rpc Req Resp} {o : Outcome Req Resp}
    (hcode : InternalCode code) (hi : code = i :: rest) (h : i.run env acts x = some o) :
    o.next ++ rest = [] ∨ InternalCode (o.next ++ rest) := by
  cases hcode with
  | handle =>
    cases hi
    cases run_runs h with
    | handleInternal _ =>
      have hplain : ∀ j ∈ (Service.handleWrite true : List (Instr Resp)), isPlain j = true := by
        simp [Service.handleWrite, isPlain]
      exact .inr (.shared hplain)
    | stale _ => exact .inl rfl
  | @shared front hplain =>
    cases front with
    | nil =>
      cases hi
      cases h
      exact .inl rfl
    | cons j front =>
      obtain ⟨rfl, rfl⟩ := List.cons.inj hi
      change _ ∨ InternalCode (o.next ++ (front ++ [.releaseShared]))
      rw [← List.append_assoc]
      refine .inr (.shared (fun j hj => ?_))
      rcases List.mem_append.mp hj with hj | hj
      · exact run_next_plain h (hplain _ (by simp)) j hj
      · exact hplain j (List.mem_cons_of_mem _ hj)

/-- The queue that the completion queue events of an `Rpc` push to. -/
def queueOf (x : Rpc Req Resp) : Nat :=
  (x.event .done).eventQueue

/-- Where the events of an `Rpc` stand and are handled. -/
structure Placed (c : Part Req Resp) : Prop where
  event : ∀ tag, (c.rpc.event tag).eventQueue = queueOf c.rpc
  completion : ∀ t tag, .completion tag ∈ c.mailbox t → t = queueOf c.rpc
  internal : ∀ t, .internal ∈ c.mailbox t → t = c.rpc.eventQueue
  code : ∀ t, c.code t = [] ∨ (CompletionCode (c.code t) ∧ t = queueOf c.rpc) ∨
    (InternalCode (c.code t) ∧ t = c.rpc.eventQueue)

lemma SamePlace.queueOf {x y : Rpc Req Resp} (h : SamePlace x y) : queueOf y = queueOf x :=
  h.event .done

/-- No step of a part moves its `Rpc`. -/
lemma does_samePlace {c c' : Part Req Resp} {m : PartLabel Req Resp} (h : Does c m c') :
    SamePlace c.rpc c'.rpc := by
  cases h with
  | next _ _ => exact returnTag_samePlace _ _ _ _
  | pushToEventQueue _ => exact setOk_samePlace _ _ _
  | exec _ hrun => simpa using run_samePlace hrun
  | stepWriter _ hstep => simpa using writerStep_samePlace hstep
  | pop _ _ | callWriter _ | stopServing => exact .refl _

/-- The events of a part after a step: those before it, and perhaps the one it pushed. -/
lemma does_mailbox {c c' : Part Req Resp} {m : PartLabel Req Resp} (h : Does c m c') {t : Nat}
    {e : Mail} (he : e ∈ c'.mailbox t) : e ∈ c.mailbox t ∨
      (∃ tag ok, c.inHand = some (tag, ok) ∧ e = .completion tag ∧
        t = (c.rpc.event tag).eventQueue) ∨ (e = .internal ∧ t = c.rpc.eventQueue) := by
  cases h with
  | @pushToEventQueue tag ok hhand =>
    rcases mem_push.mp he with he | ⟨ht, he⟩
    · exact .inl he
    · exact .inr (.inl ⟨tag, ok, hhand, he, ht⟩)
  | pop _ hmail => exact .inl (mem_pop hmail he)
  | exec _ hrun =>
    rcases mem_apply_mailbox he with he | ⟨ht, he, -⟩
    · exact .inl he
    · exact .inr (.inr ⟨he, ht.trans (run_samePlace hrun).eventQueue⟩)
  | stepWriter _ hstep =>
    rcases mem_apply_mailbox he with he | ⟨ht, he, -⟩
    · exact .inl he
    · exact .inr (.inr ⟨he, ht.trans (writerStep_samePlace hstep).eventQueue⟩)
  | next _ _ | callWriter _ | stopServing => exact .inl he

/-- The code of a thread after a step: what it was, the event just popped, or what an
instruction leaves. -/
lemma does_code {c c' : Part Req Resp} {m : PartLabel Req Resp} (h : Does c m c') (t : Nat) :
    c'.code t = c.code t ∨
      (∃ e ∈ c.mailbox t, c.code t = [] ∧ c'.code t = [e.handler]) ∨
      ∃ i rest acts o, c.code t = i :: rest ∧ i.run c.surroundings acts c.rpc = some o ∧
        c'.code t = o.next ++ rest := by
  cases h with
  | @pop t' e rest hidle hmail =>
    by_cases ht : t = t'
    · subst ht
      exact .inr (.inl ⟨e, by simp [hmail], hidle, update_self ..⟩)
    · exact .inl (update_of_ne ht ..)
  | @exec t' acts i rest o hcode hrun =>
    rw [Part.apply_code]
    by_cases ht : t = t'
    · subst ht
      exact .inr (.inr ⟨i, rest, acts, o, hcode, hrun, update_self ..⟩)
    · exact .inl (update_of_ne ht ..)
  | stepWriter _ _ => exact .inl (by rw [Part.apply_code])
  | _ => exact .inl rfl

theorem does_placed {c c' : Part Req Resp} {m : PartLabel Req Resp} (h : Does c m c')
    (hp : Placed c) : Placed c' := by
  have hplace := does_samePlace h
  refine ⟨fun tag => ?_, fun t tag he => ?_, fun t he => ?_, fun t => ?_⟩
  · rw [hplace.event, hplace.queueOf, hp.event]
  · rw [hplace.queueOf]
    rcases does_mailbox h he with he | ⟨tag', ok, -, he, ht⟩ | ⟨he, -⟩
    · exact hp.completion t tag he
    · exact ht.trans (hp.event tag')
    · cases he
  · rw [hplace.eventQueue]
    rcases does_mailbox h he with he | ⟨tag, ok, -, he, -⟩ | ⟨-, ht⟩
    · exact hp.internal t he
    · cases he
    · exact ht
  · rw [hplace.queueOf, hplace.eventQueue]
    rcases does_code h t with hsame | ⟨e, he, -, hcode⟩ | ⟨i, rest, acts, o, hcode, hrun, hcode'⟩
    · rw [hsame]
      exact hp.code t
    · rw [hcode]
      cases e with
      | completion tag => exact .inr (.inl ⟨.handle tag, hp.completion t tag he⟩)
      | internal => exact .inr (.inr ⟨.handle, hp.internal t he⟩)
    · rw [hcode']
      rcases hp.code t with hnil | ⟨hc, ht⟩ | ⟨hi, ht⟩
      · rw [hnil] at hcode
        cases hcode
      · rw [hcode] at hc
        exact .inr (.inl ⟨hc.exec hrun, ht⟩)
      · rcases hi.exec hcode hrun with hnil | hi
        · exact .inl hnil
        · exact .inr (.inr ⟨hi, ht⟩)

/-- The invariant rule for parts, by the steps of `Does`. -/
theorem part_invariant {P : Part Req Resp → Prop}
    (hinit : ∀ c, (partSystem Req Resp).init c → P c)
    (hdoes : ∀ c m c', (partSystem Req Resp).Reachable c → P c → Does c m c' → P c')
    {c : Part Req Resp} (hc : (partSystem Req Resp).Reachable c) : P c := by
  apply hc.invariant (P := P) hinit
  intro c m c' hr hP _ hstep
  exact hdoes c m c' hr hP (step_does hstep)

theorem reachable_placed {c : Part Req Resp} (hc : (partSystem Req Resp).Reachable c) :
    Placed c := by
  apply part_invariant (P := Placed) _ _ hc
  · rintro c ⟨methodIndex, cq, queue, info, service, parent, eventQueue, shuttingDown, rfl⟩
    refine ⟨fun tag => ?_, by simp [Part.listening], by simp [Part.listening], fun _ => .inl rfl⟩
    have hplace := requestNextMethodInvocation_samePlace
      ((Rpc.spawned methodIndex cq queue info service parent : Rpc Req Resp).setEventQueue eventQueue)
    exact (hplace.event tag).trans (hplace.event .done).symm
  · intro c m c' _ hp h
    exact does_placed h hp

end AsyncGrpc.Proofs
