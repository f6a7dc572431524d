import AsyncGrpc.Proofs.Phases

/-!
# The pending flags of a call

An operation is outstanding from the moment gRPC is given its tag until `Handle` starts: gRPC
holds it, or its tag is in transit. The flag of each event counts its outstanding operations,
which are therefore never two.
-/

namespace AsyncGrpc.Proofs

open Function Transition

variable {Req Resp : Type}

/-! ### Flags after each operation on an `Rpc` -/

section Flags

variable (x : Rpc Req Resp) (t tag : Tag)

@[simp] lemma startOp_pending :
    (x.startOp t).isRpcEventPending tag = (decide (tag = t) || x.isRpcEventPending tag) := by
  by_cases h : tag = t
  · subst h
    simp [Rpc.startOp, Rpc.setRpcEventState, Rpc.isRpcEventPending]
  · simp [Rpc.startOp, Rpc.setRpcEventState, Rpc.isRpcEventPending, h]

@[simp] lemma startHandling_pending :
    (x.startHandling t).isRpcEventPending tag = (decide (tag ≠ t) && x.isRpcEventPending tag) := by
  by_cases h : tag = t
  · subst h
    simp [Rpc.startHandling, Rpc.setRpcEventState, Rpc.isRpcEventPending]
  · simp [Rpc.startHandling, Rpc.setRpcEventState, Rpc.isRpcEventPending, h]

@[simp] lemma setOk_pending (ok : Bool) :
    (x.setOk t ok).isRpcEventPending tag = x.isRpcEventPending tag := by
  by_cases h : tag = t
  · subst h
    simp [Rpc.setOk, Rpc.isRpcEventPending]
  · simp [Rpc.setOk, Rpc.isRpcEventPending, h]

@[simp] lemma returnTag_pending (ok : Bool) (request : Option Req) :
    (x.returnTag t ok request).isRpcEventPending tag = x.isRpcEventPending tag :=
  rfl

@[simp] lemma enqueueMessage_pending (item : SendItem Resp) :
    (x.enqueueMessage item).isRpcEventPending tag = x.isRpcEventPending tag :=
  rfl

lemma isAnyEventPending_iff :
    x.isAnyEventPending = true ↔ ∃ tag, tag ≠ .newConnection ∧ x.isRpcEventPending tag = true := by
  constructor
  · intro h
    simp only [Rpc.isAnyEventPending, Bool.or_eq_true] at h
    rcases h with ((h | h) | h) | h
    · exact ⟨.done, by simp, h⟩
    · exact ⟨.read, by simp, h⟩
    · exact ⟨.write, by simp, h⟩
    · exact ⟨.finish, by simp, h⟩
  · rintro ⟨tag, hne, h⟩
    cases tag with
    | newConnection => exact absurd rfl hne
    | read | write | finish | done => simp [Rpc.isAnyEventPending, h]

end Flags

/-- What gRPC promises when it returns a tag. -/
lemma mayReturn_iff {x : Rpc Req Resp} {tag : Tag} {ok : Bool} {request : Option Req} :
    x.mayReturn tag ok request = true ↔ 0 < x.inFlight tag ∧
      (tag = .done → x.connected = some true) ∧ request.isSome = x.delivers tag ok := by
  simp only [Rpc.mayReturn, Bool.and_eq_true, Bool.or_eq_true, decide_eq_true_eq, and_assoc]
  rw [imp_iff_not_or]

/-! ### Outstanding operations -/

def Phase.handling : Phase Resp → Option Tag
  | .handle tag => some tag
  | _ => none

/-- The operation that the next instruction of a phase may start. -/
def Phase.starts : Phase Resp → Option Tag
  | .requestRead _ => some .read
  | .performFinish _ _ => some .finish
  | .performWrite _ _ => some .write
  | _ => none

def mailTag : Mail → Option Tag
  | .completion tag => some tag
  | .internal => none

/-- The tags gRPC has returned whose `Handle` has not started, first in first out. -/
def transit (c : Call Req Resp) (p : Phase Resp) : List Tag :=
  p.handling.toList ++ c.mailbox.filterMap mailTag ++ (c.inHand.map Prod.fst).toList

@[simp] lemma filterMap_mailTag_completion (tag : Tag) (rest : List Mail) :
    (Mail.completion tag :: rest).filterMap mailTag = tag :: rest.filterMap mailTag :=
  rfl

@[simp] lemma filterMap_mailTag_internal (rest : List Mail) :
    (Mail.internal :: rest).filterMap mailTag = rest.filterMap mailTag :=
  rfl

/-- What a step does to the operations of a call and to their flags. -/
inductive Books (c : Call Req Resp) (p : Phase Resp) (c' : Call Req Resp) (p' : Phase Resp) : Prop
  | same (hflight : c'.rpc.inFlight = c.rpc.inFlight)
      (hpending : ∀ t, c'.rpc.isRpcEventPending t = c.rpc.isRpcEventPending t)
      (htransit : transit c' p' = transit c p) (hconn : c'.rpc.connected = c.rpc.connected)
  | returns (tag : Tag) (ok : Bool) (hheld : 0 < c.rpc.inFlight tag)
      (hdone : tag = .done → c.rpc.connected = some true)
      (hflight : c'.rpc.inFlight = update c.rpc.inFlight tag (c.rpc.inFlight tag - 1))
      (hpending : ∀ t, c'.rpc.isRpcEventPending t = c.rpc.isRpcEventPending t)
      (htransit : transit c' p' = transit c p ++ [tag])
      (hconn : c'.rpc.connected = if tag = .newConnection then some ok else c.rpc.connected)
  | handles (tag : Tag) (hphase : p = .handle tag) (hflight : c'.rpc.inFlight = c.rpc.inFlight)
      (hpending : ∀ t,
        c'.rpc.isRpcEventPending t = (decide (t ≠ tag) && c.rpc.isRpcEventPending t))
      (htransit : transit c p = tag :: transit c' p') (hconn : c'.rpc.connected = c.rpc.connected)
  | starts (tag : Tag) (hphase : p.starts = some tag)
      (hflight : c'.rpc.inFlight = update c.rpc.inFlight tag (c.rpc.inFlight tag + 1))
      (hpending : ∀ t,
        c'.rpc.isRpcEventPending t = (decide (t = tag) || c.rpc.isRpcEventPending t))
      (htransit : transit c' p' = transit c p) (hconn : c'.rpc.connected = c.rpc.connected)

/-- A flag only goes up when its operation is started. -/
lemma Books.pending_of {c c' : Call Req Resp} {p p' : Phase Resp} (h : Books c p c' p') {t : Tag}
    (ht : c'.rpc.isRpcEventPending t = true) :
    c.rpc.isRpcEventPending t = true ∨ p.starts = some t := by
  cases h with
  | same _ hpending _ _ | returns _ _ _ _ _ hpending _ _ => exact .inl ((hpending t).symm.trans ht)
  | handles tag _ _ hpending _ _ =>
    rw [hpending, Bool.and_eq_true] at ht
    exact .inl ht.2
  | starts tag hphase _ hpending _ _ =>
    rw [hpending, Bool.or_eq_true, decide_eq_true_eq] at ht
    rcases ht with rfl | ht
    · exact .inr hphase
    · exact .inl ht

lemma callback_handling {p p' : Phase Resp} {kind : CallbackKind}
    (h : p.callback = some (kind, p')) : p.handling = none ∧ p'.handling = none := by
  cases p <;> cases h <;> exact ⟨rfl, rfl⟩

lemma ofEvent_handling (tag : Tag) (ok : Bool) :
    (Phase.ofEvent tag ok : Phase Resp).handling = none := by
  cases tag <;> cases ok <;> rfl

lemma afterClose_handling (shared : Bool) :
    (Phase.afterClose shared : Phase Resp).handling = none := by
  cases shared <;> rfl

theorem turn_books {c c' : Call Req Resp} {acts acts' : List (Instr Resp)} {p p' : Phase Resp}
    {l : CallLabel Req Resp} (ht : Turn c acts p l c' acts' p') : Books c p c' p' := by
  cases ht with
  | next hhand hmay =>
    obtain ⟨hheld, hdone, -⟩ := mayReturn_iff.mp hmay
    exact .returns _ _ hheld hdone rfl (fun _ => rfl) (by simp [transit, hhand]) rfl
  | pushToEventQueue hhand =>
    exact .same rfl (fun t => setOk_pending _ _ _ _) (by simp [transit, hhand]) rfl
  | pop hmail | popInternal hmail =>
    exact .same rfl (fun _ => rfl) (by simp [transit, hmail, Phase.handling]) rfl
  | writerPush _ | pushWriteNeeded => exact .same rfl (fun _ => rfl) (by simp [transit]) rfl
  | handle =>
    refine .handles _ rfl rfl (fun t => startHandling_pending _ _ _) ?_ rfl
    simp only [transit, ofEvent_handling]
    rfl
  | callback hp _ =>
    refine .same rfl (fun _ => rfl) ?_ rfl
    simp only [transit, (callback_handling hp).1, (callback_handling hp).2]
  | startRead _ | performFinish _ | performWrite _ _ =>
    exact .starts _ rfl rfl (fun t => startOp_pending _ _ _) rfl rfl
  | keep _ | erase _ =>
    refine .same rfl (fun _ => rfl) ?_ rfl
    simp only [transit, afterClose_handling]
    rfl
  | _ => exact .same rfl (fun _ => rfl) rfl rfl

/-- The phases in which the handler is still to be told about its requests and no `Read` is
outstanding. -/
def Phase.betweenReads : Phase Resp → Bool
  | .handleNewConnection _ | .onConnection _ | .onInitialize _ | .requestRead _ | .onRequest _
  | .onOnlyRequest _ | .onReadsDone _ => true
  | _ => false

/-- The item taken off the send queue and not handed to gRPC yet. -/
def Phase.item : Phase Resp → Option (SendItem Resp)
  | .performFinish item _ | .performWrite item _ => some item
  | _ => none

/-- The phases a call without a handler can be in. -/
def Phase.beforeHandler : Phase Resp → Bool
  | .handle _ | .handleNewConnection _ | .remove _ | .onConnection _ | .ending _
  | .releaseShared => true
  | _ => false

/-- What holds as long as the `Rpc` has no handler. -/
def Untouched (c : Call Req Resp) (acts : List (Instr Resp)) : Prop :=
  (∀ tag, tag ≠ .newConnection → tag ≠ .done → c.rpc.isRpcEventPending tag = false) ∧
    c.rpc.hasWriter = false ∧ c.writers = [] ∧ .internal ∉ c.mailbox ∧ acts = []

structure Accounts (c : Call Req Resp) (acts : List (Instr Resp)) (p : Phase Resp) : Prop where
  outstanding : ∀ tag,
    c.rpc.inFlight tag + (transit c p).count tag = (c.rpc.isRpcEventPending tag).toNat
  reading : c.rpc.isRpcEventPending .read = true →
    c.rpc.rpcType.streamsRequests = true ∧ p.betweenReads = false
  sending : c.rpc.isRpcEventPending .write = false ∨ c.rpc.isRpcEventPending .finish = false
  performing : p.item ≠ none →
    c.rpc.isRpcEventPending .write = false ∧ c.rpc.isRpcEventPending .finish = false
  fresh : c.rpc.handler = false → Untouched c acts ∧ p.beforeHandler = true
  waiting : c.rpc.isRpcEventPending .newConnection = true → c.rpc.handler = false ∧
    (p = .handle .newConnection ∨
      p = .idle ∧ (c.mailbox = [] ∨ c.mailbox.head? = some (.completion .newConnection)))
  requested : 0 < c.rpc.inFlight .newConnection → c.rpc.connected = none
  done : .done ∈ transit c p → c.rpc.connected = some true

lemma Accounts.pending_of_mem {c : Call Req Resp} {acts : List (Instr Resp)} {p : Phase Resp}
    (h : Accounts c acts p) {tag : Tag} (hmem : tag ∈ transit c p) :
    c.rpc.isRpcEventPending tag = true := by
  have hcount := List.count_pos_iff.mpr hmem
  have hout := h.outstanding tag
  cases hp : c.rpc.isRpcEventPending tag with
  | true => rfl
  | false =>
    rw [hp] at hout
    simp only [Bool.toNat_false] at hout
    omega

section Turns

variable {c c' : Call Req Resp} {acts acts' : List (Instr Resp)} {p p' : Phase Resp}
  {l : CallLabel Req Resp}

lemma Accounts.pending_of_held (h : Accounts c acts p) {tag : Tag} (hheld : 0 < c.rpc.inFlight tag) :
    c.rpc.isRpcEventPending tag = true := by
  have hout := h.outstanding tag
  cases hp : c.rpc.isRpcEventPending tag with
  | true => rfl
  | false =>
    rw [hp, Bool.toNat_false] at hout
    omega

lemma Accounts.held_ne_read (h : Accounts c acts p)
    (hstream : c.rpc.rpcType.streamsRequests = false) {tag : Tag}
    (hheld : 0 < c.rpc.inFlight tag) : tag ≠ .read := by
  rintro rfl
  have htrue := (h.reading (h.pending_of_held hheld)).1
  exact absurd (hstream.symm.trans htrue) (by simp)

/-- An operation is only started while its flag is down. -/
lemma Accounts.starts_idle (h : Accounts c acts p) {tag : Tag} (hp : p.starts = some tag) :
    c.rpc.isRpcEventPending tag = false := by
  cases p with
  | requestRead e =>
    cases hp
    by_contra hc
    exact absurd (h.reading (by simpa using hc)).2 (by simp [Phase.betweenReads])
  | performFinish item e => cases hp; exact (h.performing (by simp [Phase.item])).2
  | performWrite item e => cases hp; exact (h.performing (by simp [Phase.item])).1
  | _ => cases hp

lemma books_outstanding (h : Accounts c acts p) (hb : Books c p c' p') (t : Tag) :
    c'.rpc.inFlight t + (transit c' p').count t = (c'.rpc.isRpcEventPending t).toNat := by
  have hout := h.outstanding t
  cases hb with
  | same hflight hpending htransit _ => rw [hflight, hpending, htransit, hout]
  | returns tag ok hheld _ hflight hpending htransit _ =>
    rw [hflight, hpending, htransit, ← hout, List.count_append]
    by_cases he : t = tag
    · subst he
      simp only [update_self, List.count_singleton_self]
      omega
    · simp [he, Ne.symm he]
  | handles tag hphase hflight hpending htransit _ =>
    rw [htransit] at hout
    rw [hflight, hpending]
    by_cases he : t = tag
    · subst he
      have hle := Bool.toNat_le (c.rpc.isRpcEventPending t)
      rw [List.count_cons_self] at hout
      simp only [ne_eq, not_true_eq_false, decide_false, Bool.false_and, Bool.toNat_false]
      omega
    · rw [List.count_cons_of_ne (Ne.symm he)] at hout
      simpa [he] using hout
  | starts tag hphase hflight hpending htransit _ =>
    rw [hflight, hpending, htransit]
    by_cases he : t = tag
    · subst he
      rw [h.starts_idle hphase] at hout
      simp only [Bool.toNat_false] at hout
      simp only [update_self, decide_true, Bool.true_or, Bool.toNat_true]
      omega
    · simpa [he] using hout

lemma Accounts.pending_of_handle {tag : Tag} (h : Accounts c acts (.handle tag)) :
    c.rpc.isRpcEventPending tag = true :=
  h.pending_of_mem (by simp [transit, Phase.handling])

lemma turn_reading (h : Accounts c acts p) (ht : Turn c acts p l c' acts' p')
    (hread : c'.rpc.isRpcEventPending .read = true) :
    c'.rpc.rpcType.streamsRequests = true ∧ p'.betweenReads = false := by
  have hold := (turn_books ht).pending_of hread
  cases ht with
  | @handle tag as =>
    have hread' := hold.resolve_right (by simp [Phase.starts])
    refine ⟨(h.reading hread').1, ?_⟩
    cases tag with
    | newConnection =>
      have hfresh := (h.fresh (h.waiting h.pending_of_handle).1).1.1 .read (by simp) (by simp)
      exact absurd (hfresh.symm.trans hread') (by simp)
    | read => exact absurd hread (by simp)
    | write | finish | done => rfl
  | callback hp _ =>
    have hr := h.reading hread
    refine ⟨hr.1, ?_⟩
    cases p <;> cases hp <;> first | rfl | exact absurd hr.2 (by simp [Phase.betweenReads])
  | startRead hstream => exact ⟨hstream, rfl⟩
  | pushToEventQueue _ => exact h.reading (by simpa using hread)
  | performFinish _ | performWrite _ _ => exact h.reading (hold.resolve_right (by simp [Phase.starts]))
  | keep _ | erase _ =>
    refine ⟨(h.reading hread).1, ?_⟩
    rename_i shared as _
    cases shared <;> rfl
  | refuse _ | fail _ => exact ⟨(h.reading hread).1, rfl⟩
  | _ => exact h.reading hread

lemma turn_performing (h : Accounts c acts p) (ht : Turn c acts p l c' acts' p')
    (hitem : p'.item ≠ none) :
    c'.rpc.isRpcEventPending .write = false ∧ c'.rpc.isRpcEventPending .finish = false := by
  cases ht with
  | pushToEventQueue _ => simpa using h.performing hitem
  | @handle tag as =>
    exact absurd (by cases tag <;> cases (c.rpc.event _).ok <;> rfl) hitem
  | callback hp _ => exact absurd (by cases p <;> cases hp <;> rfl) hitem
  | takeFinish _ hwrite hfinish _ => exact ⟨hwrite, hfinish⟩
  | takeWrite _ hwrite hfinish _ _ => exact ⟨hwrite, hfinish⟩
  | keep _ | erase _ =>
    rename_i shared as _
    exact absurd (by cases shared <;> rfl) hitem
  | next _ _ | callWriter _ | writerLock _ _ | writerExpired _ _ | writerEnqueue _ | writerLookUp _ _
  | writerPush _ | writerReturn _ | stopServing | enqueueMessage | getWeakPtr _ | pushWriteNeeded
  | getWriter _ => exact h.performing hitem
  | _ => exact absurd rfl hitem

lemma turn_sending (h : Accounts c acts p) (ht : Turn c acts p l c' acts' p') :
    c'.rpc.isRpcEventPending .write = false ∨ c'.rpc.isRpcEventPending .finish = false := by
  rw [or_iff_not_imp_left, Bool.not_eq_false]
  intro hwrite
  by_contra hfinish
  rw [Bool.not_eq_false] at hfinish
  have hb := turn_books ht
  rcases hb.pending_of hwrite with hw | hw <;> rcases hb.pending_of hfinish with hf | hf
  · rcases h.sending with hs | hs
    · exact absurd (hs.symm.trans hw) (by simp)
    · exact absurd (hs.symm.trans hf) (by simp)
  · cases p <;> cases hf
    exact absurd ((h.performing (by simp [Phase.item])).1.symm.trans hw) (by simp)
  · cases p <;> cases hw
    exact absurd ((h.performing (by simp [Phase.item])).2.symm.trans hf) (by simp)
  · exact absurd (hw.symm.trans hf) (by simp)

lemma turn_fresh (h : Accounts c acts p) (ht : Turn c acts p l c' acts' p')
    (hhandler : c'.rpc.handler = false) : Untouched c' acts' ∧ p'.beforeHandler = true := by
  cases ht with
  | pushToEventQueue _ =>
    obtain ⟨⟨hf, hw, hws, hi, ha⟩, hp⟩ := h.fresh hhandler
    exact ⟨⟨by simpa using hf, hw, hws, by simpa using hi, ha⟩, hp⟩
  | pop hmail =>
    obtain ⟨⟨hf, hw, hws, hi, ha⟩, hp⟩ := h.fresh hhandler
    rw [hmail, List.mem_cons, not_or] at hi
    exact ⟨⟨hf, hw, hws, hi.2, ha⟩, rfl⟩
  | popInternal hmail =>
    obtain ⟨⟨-, -, -, hi, -⟩, -⟩ := h.fresh hhandler
    exact absurd (by simp [hmail]) hi
  | callWriter hwriter =>
    obtain ⟨⟨-, hw, -, -, -⟩, -⟩ := h.fresh hhandler
    exact absurd (hw.symm.trans hwriter) (by simp)
  | writerLock hw _ | writerExpired hw _ | writerEnqueue hw | writerLookUp hw _ | writerPush hw
  | writerReturn hw =>
    obtain ⟨⟨-, -, hws, -, -⟩, -⟩ := h.fresh hhandler
    simp [hws] at hw
  | enqueueMessage | getWeakPtr _ | pushWriteNeeded | getWriter _ =>
    obtain ⟨⟨-, -, -, -, ha⟩, -⟩ := h.fresh hhandler
    cases ha
  | @handle tag as =>
    obtain ⟨⟨hf, hw, hws, hi, ha⟩, hp⟩ := h.fresh hhandler
    have hpend := h.pending_of_handle
    refine ⟨⟨fun t h₁ h₂ => by simp [hf t h₁ h₂], hw, hws, hi, rfl⟩, ?_⟩
    cases tag with
    | newConnection | done => rfl
    | read | write | finish => exact absurd ((hf _ (by simp) (by simp)).symm.trans hpend) (by simp)
  | connect _ => cases hhandler
  | reconnect hh | callback _ hh => exact absurd (hhandler.symm.trans hh) (by simp)
  | handleInternal _ | stale _ | startRead _ | readWhole _ | keepQueue _ | takeFinish _ _ _ _
  | takeWrite _ _ _ _ _ | performFinish _ | performWrite _ _ => cases (h.fresh hhandler).2
  | keep _ | erase _ =>
    refine ⟨(h.fresh hhandler).1, ?_⟩
    rename_i shared as _
    cases shared <;> rfl
  | next _ _ | stopServing => exact h.fresh hhandler
  | _ => exact ⟨(h.fresh hhandler).1, rfl⟩

lemma books_requested (h : Accounts c acts p) (hb : Books c p c' p')
    (hheld : 0 < c'.rpc.inFlight .newConnection) : c'.rpc.connected = none := by
  cases hb with
  | same hflight _ _ hconn | handles _ _ hflight _ _ hconn =>
    rw [hflight] at hheld
    exact hconn.trans (h.requested hheld)
  | returns tag ok _ _ hflight _ _ hconn =>
    rw [hflight] at hheld
    by_cases he : tag = .newConnection
    · subst he
      have hout := h.outstanding .newConnection
      have hle := Bool.toNat_le (c.rpc.isRpcEventPending .newConnection)
      rw [update_self] at hheld
      omega
    · rw [update_of_ne (Ne.symm he)] at hheld
      rw [hconn, if_neg he]
      exact h.requested hheld
  | starts tag hphase hflight _ _ hconn =>
    have he : .newConnection ≠ tag := by
      rintro rfl
      cases p <;> cases hphase
    rw [hflight, update_of_ne he] at hheld
    exact hconn.trans (h.requested hheld)

lemma books_done (h : Accounts c acts p) (hb : Books c p c' p') (hdone : .done ∈ transit c' p') :
    c'.rpc.connected = some true := by
  cases hb with
  | same _ _ htransit hconn | starts _ _ _ _ htransit hconn =>
    exact hconn.trans (h.done (htransit ▸ hdone))
  | handles _ _ _ _ htransit hconn =>
    exact hconn.trans (h.done (htransit ▸ List.mem_cons_of_mem _ hdone))
  | returns tag ok hheld hreturned _ _ htransit hconn =>
    have htrue : c.rpc.connected = some true := by
      rw [htransit, List.mem_append, List.mem_singleton] at hdone
      rcases hdone with hdone | hdone
      · exact h.done hdone
      · exact hreturned hdone.symm
    have hne : tag ≠ .newConnection := by
      rintro rfl
      exact absurd ((h.requested hheld).symm.trans htrue) (by simp)
    rw [hconn, if_neg hne, htrue]

/-- A tag pushed to the empty queue of a call that awaits its connection is the connection. -/
lemma Accounts.first_push (h : Accounts c [] .idle)
    (hpend : c.rpc.isRpcEventPending .newConnection = true) (hmail : c.mailbox = []) {tag : Tag}
    {ok : Bool} (hhand : c.inHand = some (tag, ok)) : tag = .newConnection := by
  have htransit : transit c .idle = [tag] := by simp [transit, hmail, hhand, Phase.handling]
  have htag := h.pending_of_mem (htransit ▸ List.mem_singleton_self tag)
  by_contra hne
  by_cases hd : tag = .done
  · subst hd
    have hout := h.outstanding .newConnection
    rw [htransit, hpend] at hout
    have hnone := h.requested (by simp at hout; omega)
    exact absurd (hnone.symm.trans (h.done (by simp [htransit]))) (by simp)
  · have hfresh := (h.fresh (h.waiting hpend).1).1.1 tag hne hd
    exact absurd (hfresh.symm.trans htag) (by simp)

lemma turn_waiting (h : Accounts c acts p) (ht : Turn c acts p l c' acts' p')
    (hpend' : c'.rpc.isRpcEventPending .newConnection = true) : c'.rpc.handler = false ∧
    (p' = .handle .newConnection ∨ p' = .idle ∧
      (c'.mailbox = [] ∨ c'.mailbox.head? = some (.completion .newConnection))) := by
  have hpend : c.rpc.isRpcEventPending .newConnection = true :=
    ((turn_books ht).pending_of hpend').resolve_right (by cases p <;> simp [Phase.starts])
  obtain ⟨hhandler, hp⟩ := h.waiting hpend
  obtain ⟨⟨-, hwriter, hwriters, hinternal, hacts⟩, hbefore⟩ := h.fresh hhandler
  cases ht with
  | pushToEventQueue hhand =>
    refine ⟨hhandler, hp.imp_right (fun ⟨hidle, hm⟩ => ⟨hidle, .inr ?_⟩)⟩
    subst hidle hacts
    rcases hm with hm | hm
    · rw [h.first_push hpend hm hhand, hm]
      rfl
    · rw [List.head?_append, hm]
      rfl
  | pop hmail =>
    refine ⟨hhandler, .inl ?_⟩
    rcases hp with hp | ⟨-, hm | hm⟩
    · cases hp
    · simp [hmail] at hm
    · simp only [hmail, List.head?_cons, Option.some.injEq, Mail.completion.injEq] at hm
      rw [hm]
  | popInternal hmail => exact absurd (by simp [hmail]) hinternal
  | callWriter hw => exact absurd (hwriter.symm.trans hw) (by simp)
  | writerLock hw _ | writerExpired hw _ | writerEnqueue hw | writerLookUp hw _ | writerPush hw
  | writerReturn hw => simp [hwriters] at hw
  | enqueueMessage | getWeakPtr _ | pushWriteNeeded | getWriter _ => cases hacts
  | next _ _ | stopServing => exact ⟨hhandler, hp⟩
  | handle =>
    rcases hp with hp | ⟨hp, -⟩
    · cases hp
      simp at hpend'
    · cases hp
  | callback hc _ => rcases hp with rfl | ⟨rfl, -⟩ <;> cases hc
  | _ => rcases hp with hp | ⟨hp, -⟩ <;> cases hp

theorem turn_accounts (h : Accounts c acts p) (ht : Turn c acts p l c' acts' p') :
    Accounts c' acts' p' where
  outstanding := books_outstanding h (turn_books ht)
  reading := turn_reading h ht
  sending := turn_sending h ht
  performing := turn_performing h ht
  fresh := turn_fresh h ht
  waiting := turn_waiting h ht
  requested := books_requested h (turn_books ht)
  done := books_done h (turn_books ht)

lemma listening_accounts (h : (callSystem Req Resp).init c) : Accounts c [] .idle := by
  obtain ⟨methodIndex, cq, queue, info, service, parent, shuttingDown, rfl⟩ := h
  refine ⟨?_, ?_, .inl rfl, ?_, ?_, ?_, ?_, ?_⟩
  · intro tag
    cases tag <;> rfl
  · intro h
    cases h
  · intro h
    exact absurd rfl h
  · intro _
    refine ⟨⟨fun tag h₁ h₂ => ?_, rfl, rfl, by simp [Call.listening], rfl⟩, rfl⟩
    cases tag <;> first | rfl | exact absurd rfl h₁ | exact absurd rfl h₂
  · intro _
    exact ⟨rfl, .inr ⟨rfl, .inl rfl⟩⟩
  · intro _
    rfl
  · intro h
    cases h

end Turns

end AsyncGrpc.Proofs
