import AsyncGrpc.Proofs.Connection

/-!
# What keeps an `Rpc` in `ActiveRpcs`

An `Rpc` that is still in `ActiveRpcs` waits for its connection, is being decided about, or has a
call of which an operation is pending or an event is about to be checked by `RemoveIfNotPending`.
Once nothing of the `Rpc` is outstanding, waiting or being handled, it has been erased. All of
this holds for any number of event threads.
-/

namespace AsyncGrpc.Proofs

open Function Transition

variable {Req Resp : Type} {c : Part Req Resp}

/-! ### The first event -/

/-- As long as nothing has come back there is no handler and no call to be done with. -/
lemma eq_newConnection_of_mayReturn (hc : (partSystem Req Resp).Reachable c)
    (hnil : c.rpc.returned.map Prod.fst = []) {tag : Tag} {ok : Bool} {request : Option Req}
    (hmay : c.rpc.mayReturn tag ok request = true) : tag = .newConnection := by
  obtain ⟨hheld, hdone, -⟩ := mayReturn_iff.mp hmay
  have hnot : .newConnection ∉ c.rpc.returned.map Prod.fst := by simp [hnil]
  have hhandler : c.rpc.handler = false := by
    refine ((reachable_connecting hc).unhandled ?_).1
    exact fun hmem => hnot (mem_returned_of_handled hc hmem)
  cases tag with
  | newConnection => rfl
  | done =>
    have hsome : c.rpc.connected ≠ none := by simp [hdone rfl]
    exact absurd ((reachable_connected hc).mpr hsome) hnot
  | read | write | finish =>
    rw [(reachable_early hc hhandler).inFlight _ rfl] at hheld
    cases hheld

/-- The first tag that comes back is `NEW_CONNECTION`. -/
lemma first_returned (hc : (partSystem Req Resp).Reachable c) :
    c.rpc.returned.map Prod.fst = [] ∨
      (c.rpc.returned.map Prod.fst).head? = some .newConnection := by
  apply part_invariant (P := fun c => c.rpc.returned.map Prod.fst = [] ∨
    (c.rpc.returned.map Prod.fst).head? = some .newConnection) _ _ hc
  · rintro c ⟨methodIndex, cq, queue, info, service, parent, eventQueue, shuttingDown, rfl⟩
    exact .inl rfl
  · intro c m c' hr ih h
    cases h with
    | next _ hmay =>
      right
      rcases ih with hnil | hhead
      · have htag := eq_newConnection_of_mayReturn hr hnil hmay
        simp [Rpc.returnTag, htag, List.map_eq_nil_iff.mp hnil]
      · simp only [Rpc.returnTag, List.map_append]
        rw [List.head?_append, hhead]
        rfl
    | exec _ hrun =>
      rw [Part.apply_rpc, (run_books hrun).returned]
      exact ih
    | stepWriter _ hstep =>
      rw [Part.apply_rpc, (writerStep_books hstep).returned]
      exact ih
    | pushToEventQueue _ | pop _ _ | callWriter _ | stopServing => exact ih

/-- Before `NEW_CONNECTION` is handled, nothing is. -/
lemma handled_eq_nil (hc : (partSystem Req Resp).Reachable c)
    (h : .newConnection ∉ c.rpc.handled.map Prod.fst) : c.rpc.handled.map Prod.fst = [] := by
  cases hhandled : c.rpc.handled.map Prod.fst with
  | nil => rfl
  | cons tag tags =>
    have hmem : tag ∈ c.rpc.handled.map Prod.fst := by simp [hhandled]
    have hfirst := (first_returned hc).resolve_left
      (List.ne_nil_of_mem (mem_returned_of_handled hc hmem))
    rw [← reachable_ordered hc, hhandled] at hfirst
    simp only [List.cons_append, List.head?_cons, Option.some.injEq] at hfirst
    rw [hfirst] at hmem
    exact absurd hmem h

/-- While the connection is being decided about, `DONE` is not handled. -/
lemma deciding_done (hc : (partSystem Req Resp).Reachable c) :
    ∀ t, ∀ i ∈ c.code t, decides i = true → .done ∉ c.rpc.handled.map Prod.fst := by
  apply part_invariant (P := fun c => ∀ t, ∀ i ∈ c.code t, decides i = true →
    .done ∉ c.rpc.handled.map Prod.fst) _ _ hc
  · rintro c ⟨methodIndex, cq, queue, info, service, parent, eventQueue, shuttingDown, rfl⟩
    simp [Part.listening]
  · intro c m c' hr ih h
    have hp := reachable_placed hr
    have hconn := reachable_connecting hr
    cases h with
    | @pop t e rest _ _ =>
      intro t' i hi hd
      rcases mem_pop_code hi with rfl | hi
      · rw [decides_handler] at hd
        cases hd
      · exact ih t' i hi hd
    | @exec t acts i rest o hcode hrun =>
      have hmem : i ∈ c.code t := by simp [hcode]
      intro t' j hj hd
      rw [Part.apply_code] at hj
      rw [Part.apply_rpc, (run_books hrun).handled]
      rcases mem_exec_code hj with ⟨-, hj⟩ | ⟨-, hj⟩ | ⟨hne, hj⟩
      · rcases run_decides hrun with ⟨rfl, -⟩ | ⟨ok, rfl, -⟩ | hnext
        · have hnot := not_handled_of_waiting hr (mem_waiting_of_handle hp hmem)
          simp [handled_eq_nil hr hnot, handleTag]
        · simpa [handleTag] using ih t _ hmem rfl
        · rw [hnext j hj] at hd
          cases hd
      · have hfalse := hconn.alone t j (by simpa [hcode] using hj)
        rw [hfalse] at hd
        cases hd
      · -- the other thread is the one of the completion queue events, so this one handles none
        have he := reachable_early hr (hconn.deciding t' j hj hd)
        exact absurd (he.same_thread hr hmem hj) hne
    | stepWriter _ hstep =>
      rw [Part.apply_code, Part.apply_rpc, (writerStep_books hstep).handled]
      exact ih
    | next _ _ | pushToEventQueue _ | callWriter _ | stopServing => exact ih

/-! ### Pending operations -/

lemma SameBooks.pending {x y : Rpc Req Resp} (h : SameBooks x y) (tag : Tag) :
    y.isRpcEventPending tag = x.isRpcEventPending tag := by
  rw [Rpc.isRpcEventPending, h.event]
  rfl

/-- What an instruction does to the flag of a tag and to gRPC's operations with it. -/
lemma RunBooks.pending {x y : Rpc Req Resp} {i : Instr Resp} (h : RunBooks x i y) (tag : Tag) :
    (i ≠ .handle tag ∧ y.isRpcEventPending tag = x.isRpcEventPending tag ∧
        y.inFlight tag = x.inFlight tag) ∨
      (mayStart i = some tag ∧ y.isRpcEventPending tag = true ∧
        y.inFlight tag = x.inFlight tag + 1) ∨
      (i = .handle tag ∧ y.isRpcEventPending tag = false ∧ y.inFlight tag = x.inFlight tag) := by
  have hsame : ∀ {z : Rpc Req Resp}, SameBooks z y →
      y.isRpcEventPending tag = z.isRpcEventPending tag ∧ y.inFlight tag = z.inFlight tag := by
    intro z hz
    exact ⟨hz.pending tag, congrFun hz.inFlight tag⟩
  cases h with
  | same hi h => exact .inl ⟨hi tag, hsame h⟩
  | start tag' hi h =>
    obtain ⟨hpending, hflight⟩ := hsame h
    rw [startOp_pending] at hpending
    by_cases htag : tag = tag'
    · subst htag
      refine .inr (.inl ⟨hi, by simpa using hpending, ?_⟩)
      rw [hflight]
      exact update_self _ _ _
    · refine .inl ⟨(by rintro rfl; cases hi), by simpa [htag] using hpending, ?_⟩
      rw [hflight]
      exact update_of_ne htag _ _
  | handle tag' hi h =>
    rw [h, startHandling_pending]
    by_cases htag : tag = tag'
    · subst htag
      exact .inr (.inr ⟨hi, by simp, rfl⟩)
    · refine .inl ⟨?_, by simp [htag], rfl⟩
      rintro rfl
      exact htag (Instr.handle.inj hi)

lemma mem_waiting_kept {c' : Part Req Resp} {m : PartLabel Req Resp}
    (hc : (partSystem Req Resp).Reachable c) (hstep : c.step m = some c') (tag : Tag)
    (hmem : tag ∈ waiting c) :
    tag ∈ waiting c' ∨ ∃ t acts rest, m = .exec t acts ∧ c.code t = .handle tag :: rest := by
  obtain ⟨returned, taken, heq, -, htaken⟩ := waiting_step hc hstep
  have hmem' : tag ∈ taken.toList ++ waiting c' := by
    rw [← heq]
    exact List.mem_append_left _ hmem
  rcases List.mem_append.mp hmem' with hmem' | hmem'
  · exact .inr (htaken tag (Option.mem_toList.mp hmem'))
  · exact .inl hmem'

/-- `DONE` is pending until it is handled. -/
lemma done_pending (hc : (partSystem Req Resp).Reachable c) :
    .done ∉ c.rpc.handled.map Prod.fst → c.rpc.isRpcEventPending .done = true := by
  apply part_invariant (P := fun c => .done ∉ c.rpc.handled.map Prod.fst →
    c.rpc.isRpcEventPending .done = true) _ _ hc
  · rintro c ⟨methodIndex, cq, queue, info, service, parent, eventQueue, shuttingDown, rfl⟩ _
    rfl
  · intro c m c' _ ih h
    cases h with
    | exec _ hrun =>
      intro hnot
      rw [Part.apply_rpc, (run_books hrun).handled, List.mem_append, not_or] at hnot
      rw [Part.apply_rpc]
      rcases (run_books hrun).pending .done with ⟨-, hsame, -⟩ | ⟨-, htrue, -⟩ | ⟨rfl, -⟩
      · rw [hsame]
        exact ih hnot.1
      · exact htrue
      · exact absurd (by simp [handleTag]) hnot.2
    | stepWriter _ hstep =>
      rw [Part.apply_rpc, (writerStep_books hstep).handled, (writerStep_books hstep).pending]
      exact ih
    | pushToEventQueue _ =>
      intro hnot
      exact (setOk_pending _ _ _ _).trans (ih hnot)
    | next _ _ | pop _ _ | callWriter _ | stopServing => exact ih

/-- An operation that is pending is held by gRPC or waits to be handled. -/
lemma pending_covered (hc : (partSystem Req Resp).Reachable c) (tag : Tag) :
    c.rpc.isRpcEventPending tag = true → 0 < c.rpc.inFlight tag ∨ tag ∈ waiting c := by
  apply hc.invariant (P := fun c => c.rpc.isRpcEventPending tag = true →
    0 < c.rpc.inFlight tag ∨ tag ∈ waiting c)
  · rintro c ⟨methodIndex, cq, queue, info, service, parent, eventQueue, shuttingDown, rfl⟩ h
    left
    cases tag <;> first | exact Nat.one_pos | cases h
  · intro c m c' hr ih _ hstep hpending
    have hkept := mem_waiting_kept hr hstep tag
    cases step_does hstep with
    | @next tag' ok request _ _ =>
      by_cases htag : tag = tag'
      · subst htag
        exact .inr (List.mem_append_right _ (by simp))
      · rcases ih hpending with hheld | hmem
        · left
          change 0 < update c.rpc.inFlight tag' _ tag
          rwa [update_of_ne htag]
        · exact .inr ((hkept hmem).resolve_right (by simp))
    | exec hcode hrun =>
      rw [Part.apply_rpc] at hpending ⊢
      rcases (run_books hrun).pending tag with ⟨hi, hsame, hflight⟩ | ⟨-, -, hflight⟩ | ⟨-, hfalse, -⟩
      · rw [hsame] at hpending
        rcases ih hpending with hheld | hmem
        · exact .inl (hflight ▸ hheld)
        · refine .inr ((hkept hmem).resolve_right ?_)
          rintro ⟨t', acts', rest', hm, hcode'⟩
          cases hm
          rw [hcode] at hcode'
          exact hi (List.cons.inj hcode').1
      · exact .inl (hflight ▸ Nat.succ_pos _)
      · rw [hfalse] at hpending
        cases hpending
    | stepWriter _ hwriter =>
      rw [Part.apply_rpc] at hpending ⊢
      rw [(writerStep_books hwriter).pending] at hpending
      rw [(writerStep_books hwriter).inFlight]
      exact (ih hpending).imp_right (fun hmem => (hkept hmem).resolve_right (by simp))
    | pushToEventQueue _ =>
      refine (ih ?_).imp_right (fun hmem => (hkept hmem).resolve_right (by simp))
      exact (setOk_pending _ _ _ _).symm.trans hpending
    | pop _ _ | callWriter _ | stopServing =>
      exact (ih hpending).imp_right (fun hmem => (hkept hmem).resolve_right (by simp))

/-! ### Started operations -/

/-- The instruction starts a gRPC operation, which for a clone is its registration. -/
def starts (x : Rpc Req Resp) : Instr Resp → Bool
  | .requestStreamingReadIfNeeded => x.rpcType.streamsRequests
  | .performFinish _ | .performWrite _ | .clone => true
  | _ => false

lemma run_starts {i : Instr Resp} {env : Surroundings} {acts : List (HandlerAction Resp)}
    {x : Rpc Req Resp} {o : Outcome Req Resp} (h : i.run env acts x = some o)
    (hi : starts x i = false) : o.rpc.inFlight = x.inFlight := by
  cases run_runs h with
  | startRead hstream => exact absurd (hstream.symm.trans hi) (by simp)
  | performFinish _ | performWrite _ _ => cases hi
  | _ => rfl

/-- Only a stream of requests is read. -/
lemma reads_stream (hc : (partSystem Req Resp).Reachable c) :
    0 < c.rpc.inFlight .read ∨ .read ∈ c.rpc.returned.map Prod.fst →
      c.rpc.rpcType.streamsRequests = true := by
  apply part_invariant (P := fun c => 0 < c.rpc.inFlight .read ∨
    .read ∈ c.rpc.returned.map Prod.fst → c.rpc.rpcType.streamsRequests = true) _ _ hc
  · rintro c ⟨methodIndex, cq, queue, info, service, parent, eventQueue, shuttingDown, rfl⟩ h
    rcases h with h | h <;> cases h
  · intro c m c' _ ih h
    have htype : c'.rpc.rpcType = c.rpc.rpcType :=
      congrArg RpcHandlerInfo.rpcType (does_samePlace h).rpcHandlerInfo
    rw [htype]
    cases h with
    | @next tag ok request _ hmay =>
      have hheld := (mayReturn_iff.mp hmay).1
      by_cases htag : tag = .read
      · subst htag
        exact fun _ => ih (.inl hheld)
      · simpa [Rpc.returnTag, Ne.symm htag] using ih
    | @exec t acts i rest o _ hrun =>
      rw [Part.apply_rpc, (run_books hrun).returned]
      rintro (hheld | hmem)
      · rcases (run_books hrun).pending .read with ⟨-, -, hflight⟩ | ⟨hi, -, hflight⟩ | ⟨-, -, hflight⟩
        · exact ih (.inl (hflight ▸ hheld))
        · by_contra hstream
          have hstarts : starts c.rpc i = false := by
            cases i with
            | requestStreamingReadIfNeeded => simpa [starts] using hstream
            | _ => cases hi
          have hsame := congrFun (run_starts hrun hstarts) .read
          omega
        · exact ih (.inl (hflight ▸ hheld))
      · exact ih (.inr hmem)
    | stepWriter _ hstep =>
      rw [Part.apply_rpc, (writerStep_books hstep).inFlight, (writerStep_books hstep).returned]
      exact ih
    | pushToEventQueue _ | pop _ _ | callWriter _ | stopServing => exact ih

/-! ### Membership in `ActiveRpcs` -/

/-- The reasons for which an `Rpc` is still in `ActiveRpcs`. -/
inductive Kept (c : Part Req Resp) : Prop
  | listening (h : .newConnection ∉ c.rpc.handled.map Prod.fst)
  | deciding {t : Nat} {i : Instr Resp} (h : i ∈ c.code t) (hi : decides i = true)
  | pending (hconn : c.rpc.connected = some true) (h : c.rpc.isAnyEventPending = true)
  | removing {t : Nat} (hconn : c.rpc.connected = some true) (h : .removeIfNotPending ∈ c.code t)
  | reading {t : Nat} (hconn : c.rpc.connected = some true)
      (hstream : c.rpc.rpcType.streamsRequests = true)
      (h : .requestStreamingReadIfNeeded ∈ c.code t)

/-- A handler of a completion queue event of a call ends in `RemoveIfNotPending`, unless it goes
on reading. -/
lemma handleEvent_keeps {tag : Tag} (htag : tag ≠ .newConnection) (ok : Bool) :
    .removeIfNotPending ∈ (Service.handleEvent tag.event ok : List (Instr Resp)) ∨
      (tag = .read ∧
        .requestStreamingReadIfNeeded ∈ (Service.handleEvent tag.event ok : List (Instr Resp))) := by
  cases tag <;> cases ok <;>
    simp [Service.handleEvent, Tag.event, Service.handleRead, Service.handleWrite,
      Service.handleFinish, Service.handleDone] at htag ⊢

section Kept

variable {t : Nat} {acts : List (HandlerAction Resp)} {i : Instr Resp} {rest : List (Instr Resp)}
  {o : Outcome Req Resp}

/-- A step that leaves the handled events, the flags and the connection alone and takes no
instruction away takes no reason either. -/
lemma Kept.mono (h : Kept c) {c' : Part Req Resp}
    (hhandled : c'.rpc.handled = c.rpc.handled)
    (hconn : c'.rpc.connected = c.rpc.connected)
    (hpending : ∀ tag, c'.rpc.isRpcEventPending tag = c.rpc.isRpcEventPending tag)
    (htype : c'.rpc.rpcType = c.rpc.rpcType) (hcode : ∀ t, ∀ i ∈ c.code t, i ∈ c'.code t) :
    Kept c' := by
  cases h with
  | listening hnot => exact .listening (by rwa [hhandled])
  | deciding hi hd => exact .deciding (hcode _ _ hi) hd
  | pending h hany =>
    obtain ⟨tag, hne, htag⟩ := (isAnyEventPending_iff _).mp hany
    exact .pending (hconn.trans h)
      ((isAnyEventPending_iff _).mpr ⟨tag, hne, (hpending tag).trans htag⟩)
  | removing h hi => exact .removing (hconn.trans h) (hcode _ _ hi)
  | reading h hstream hi => exact .reading (hconn.trans h) (by rwa [htype]) (hcode _ _ hi)

lemma Kept.apply (h : Kept c) (effect : Effect) : Kept (c.apply effect) := by
  refine h.mono ?_ ?_ (fun tag => ?_) ?_ (fun t i hi => ?_)
  all_goals first | rw [Part.apply_rpc] | rwa [Part.apply_code]

lemma kept_of_pending (hconn : c.rpc.connected = some true) {tag : Tag}
    (htag : tag ≠ .newConnection) (h : c.rpc.isRpcEventPending tag = true) : Kept c :=
  .pending hconn ((isAnyEventPending_iff _).mpr ⟨tag, htag, h⟩)

lemma kept_of_exec_listening (hcode : c.code t = i :: rest)
    (hrun : i.run c.surroundings acts c.rpc = some o)
    (hnot : .newConnection ∉ c.rpc.handled.map Prod.fst) :
    Kept { c with rpc := o.rpc, code := update c.code t (o.next ++ rest) } := by
  by_cases hi : i = .handle .newConnection
  · subst hi
    cases hrun
    have hnext : .handleNewConnection (c.rpc.event .newConnection).ok ∈
        (Service.handleEvent Tag.newConnection.event (c.rpc.event .newConnection).ok :
          List (Instr Resp)) := by
      simp [Service.handleEvent, Tag.event]
    exact .deciding (mem_exec_next hnext) rfl
  · refine .listening ?_
    simp only [(run_books hrun).handled, List.mem_append, not_or]
    refine ⟨hnot, ?_⟩
    cases i <;> simp_all [handleTag, eq_comm]

/-- A decision is followed by another one, erases the `Rpc` or accepts the connection, whose
`DONE` is then pending. -/
lemma kept_of_exec_deciding (hc : (partSystem Req Resp).Reachable c)
    (hcode : c.code t = i :: rest) (hrun : i.run c.surroundings acts c.rpc = some o)
    (heffect : o.effect ≠ .remove) (hd : decides i = true) :
    Kept { c with rpc := o.rpc, code := update c.code t (o.next ++ rest) } := by
  have hmem : i ∈ c.code t := by simp [hcode]
  have hdone := done_pending hc (deciding_done hc t i hmem hd)
  cases run_runs hrun with
  | @handleNewConnection ok =>
    have hdecides : ∃ k ∈ (Service.handleNewConnection c.shuttingDown ok : List (Instr Resp)),
        decides k = true := by
      cases c.shuttingDown <;> cases ok <;> simp [Service.handleNewConnection, decides]
    obtain ⟨k, hk, hdk⟩ := hdecides
    exact .deciding (mem_exec_next hk) hdk
  | remove => exact absurd rfl heffect
  | connect _ | reconnect _ =>
    have hconn := (reachable_connecting hc).accepted t hmem
    exact kept_of_pending hconn (by simp) hdone
  | _ => cases hd

/-- An operation stays pending, or it is handled by what checks the `Rpc` in the end. -/
lemma kept_of_exec_pending (hc : (partSystem Req Resp).Reachable c)
    (hcode : c.code t = i :: rest) (hrun : i.run c.surroundings acts c.rpc = some o)
    (hconn : c.rpc.connected = some true) {tag : Tag} (htag : tag ≠ .newConnection)
    (hpending : c.rpc.isRpcEventPending tag = true) :
    Kept { c with rpc := o.rpc, code := update c.code t (o.next ++ rest) } := by
  have hconn' : o.rpc.connected = some true := (run_books hrun).connected.trans hconn
  rcases (run_books hrun).pending tag with ⟨-, hsame, -⟩ | ⟨-, htrue, -⟩ | ⟨rfl, -⟩
  · exact kept_of_pending hconn' htag (hsame.trans hpending)
  · exact kept_of_pending hconn' htag htrue
  · cases hrun
    rcases handleEvent_keeps htag (c.rpc.event tag).ok with hremove | ⟨rfl, hread⟩
    · exact .removing hconn' (mem_exec_next hremove)
    · have hmem : .handle .read ∈ c.code t := by simp [hcode]
      have hwaiting := mem_waiting_of_handle (reachable_placed hc) hmem
      have hstream := reads_stream hc (.inr (mem_returned_of_waiting hc hwaiting))
      exact .reading hconn' hstream (mem_exec_next hread)

/-- An instruction of an `Rpc` that stays in `ActiveRpcs` gives a new reason where it takes one. -/
lemma Kept.exec (h : Kept c) (hc : (partSystem Req Resp).Reachable c)
    (hcode : c.code t = i :: rest) (hrun : i.run c.surroundings acts c.rpc = some o)
    (heffect : o.effect ≠ .remove) :
    Kept { c with rpc := o.rpc, code := update c.code t (o.next ++ rest) } := by
  have hbooks := run_books hrun
  have htype : o.rpc.rpcType = c.rpc.rpcType :=
    congrArg RpcHandlerInfo.rpcType (run_samePlace hrun).rpcHandlerInfo
  cases h with
  | listening hnot => exact kept_of_exec_listening hcode hrun hnot
  | @deciding t' j hj hd =>
    by_cases hij : j = i
    · subst hij
      exact kept_of_exec_deciding hc hcode hrun heffect hd
    · exact .deciding (mem_exec_of_ne hcode hj hij) hd
  | pending hconn hany =>
    obtain ⟨tag, htag, hpending⟩ := (isAnyEventPending_iff _).mp hany
    exact kept_of_exec_pending hc hcode hrun hconn htag hpending
  | removing hconn hj =>
    by_cases hij : .removeIfNotPending = i
    · subst hij
      cases run_runs hrun with
      | keep hany => exact .pending hconn hany
      | erase _ => exact absurd rfl heffect
    · exact .removing (hbooks.connected.trans hconn) (mem_exec_of_ne hcode hj hij)
  | reading hconn hstream hj =>
    by_cases hij : .requestStreamingReadIfNeeded = i
    · subst hij
      cases run_runs hrun with
      | startRead _ =>
        have hread : (c.rpc.startOp .read).isRpcEventPending .read = true :=
          (startOp_pending _ _ _).trans (by simp)
        exact kept_of_pending hconn (by simp) hread
      | readWhole hfalse => exact absurd (hfalse.symm.trans hstream) Bool.false_ne_true
    · exact .reading (hbooks.connected.trans hconn) (htype ▸ hstream)
        (mem_exec_of_ne hcode hj hij)

theorem reachable_kept (hc : (partSystem Req Resp).Reachable c) : c.active = true → Kept c := by
  apply part_invariant (P := fun c => c.active = true → Kept c) _ _ hc
  · rintro c ⟨methodIndex, cq, queue, info, service, parent, eventQueue, shuttingDown, rfl⟩ _
    exact .listening List.not_mem_nil
  · intro c m c' hr ih h hactive
    have htype : c'.rpc.rpcType = c.rpc.rpcType :=
      congrArg RpcHandlerInfo.rpcType (does_samePlace h).rpcHandlerInfo
    cases h with
    | @next tag ok request _ hmay =>
      have hkept := ih hactive
      by_cases htag : tag = .newConnection
      · subst htag
        exact .listening (not_returned_of_held hr (mayReturn_iff.mp hmay).1).1
      · exact hkept.mono rfl (if_neg htag) (fun _ => rfl) htype (fun _ _ hi => hi)
    | pushToEventQueue _ =>
      exact (ih hactive).mono rfl rfl (setOk_pending _ _ · _) htype (fun _ _ hi => hi)
    | @pop t e rest hidle _ =>
      refine (ih hactive).mono rfl rfl (fun _ => rfl) htype (fun t' i hi => ?_)
      have hne : t' ≠ t := by
        rintro rfl
        simp [hidle] at hi
      simpa [hne] using hi
    | @exec t acts i rest o hcode hrun =>
      have heffect : o.effect ≠ .remove := by
        intro he
        rw [he] at hactive
        cases hactive
      have hbefore := Part.active_of_apply _ _ hactive
      exact ((ih hbefore).exec hr hcode hrun heffect).apply _
    | stepWriter _ hstep =>
      have hbefore := Part.active_of_apply _ _ hactive
      have hbooks := writerStep_books hstep
      refine (ih hbefore).mono ?_ ?_ (fun tag => ?_) htype (fun _ _ hi => ?_)
      · rw [Part.apply_rpc, hbooks.handled]
      · rw [Part.apply_rpc, hbooks.connected]
      · rw [Part.apply_rpc, hbooks.pending]
      · rwa [Part.apply_code]
    | callWriter _ | stopServing =>
      exact (ih hactive).mono rfl rfl (fun _ => rfl) htype (fun _ _ hi => hi)

/-- Nothing of the `Rpc` is left: gRPC owes it no tag, none waits to be handled, and no event
thread is at work on it. Then it has been erased. -/
theorem erased_of_nothing_left (hc : (partSystem Req Resp).Reachable c)
    (howed : ∀ tag, 0 < c.rpc.inFlight tag → tag = .done ∧ c.rpc.connected ≠ some true)
    (hwaiting : waiting c = []) (hcode : ∀ t, c.code t = []) : c.active = false := by
  by_contra hactive
  cases reachable_kept hc (by simpa using hactive) with
  | listening hnot =>
    have hheld := registered_once hc .newConnection rfl
    rw [timesReturned, ← reachable_ordered hc, hwaiting, List.append_nil,
      List.count_eq_zero.mpr hnot] at hheld
    cases (howed .newConnection (by omega)).1
  | deciding hi _ => simp [hcode] at hi
  | pending hconn hany =>
    obtain ⟨tag, -, hpending⟩ := (isAnyEventPending_iff _).mp hany
    rcases pending_covered hc tag hpending with hheld | hmem
    · exact (howed tag hheld).2 hconn
    · simp [hwaiting] at hmem
  | removing _ hi => simp [hcode] at hi
  | reading _ _ hi => simp [hcode] at hi

end Kept

end AsyncGrpc.Proofs
