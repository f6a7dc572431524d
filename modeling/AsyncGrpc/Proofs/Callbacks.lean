import AsyncGrpc.Proofs.Completion
import AsyncGrpc.Proofs.Requests

/-!
# The callback protocol

With one event thread, the callbacks on a handler follow from the events of its `Rpc` that have
been handled: `OnInitialize`, one `OnRequest` for each request, `OnReadsDone`, and one `OnFinish`
for each completed `Finish`. A request that is not streamed is handed over while the new
connection is handled.
-/

namespace AsyncGrpc.Proofs

open Function Transition

variable {Req Resp : Type} {options : Options} {maps : List (List (String × RpcHandlerInfo))}

/-- The handler is to be told that there are no more requests: the only one came with the
connection, or a `READ` with `ok = false` was handled. -/
def readsOver (x : Rpc Req Resp) : Bool :=
  !x.rpcType.streamsRequests || (.read, false) ∈ x.handled

/-- The callbacks about the requests that the handled events call for. -/
def calledFor (x : Rpc Req Resp) : List (Callback Req) :=
  opening (given x) ++ if readsOver x then [.onReadsDone] else []

/-- The results of the `READ`s that gRPC has returned. -/
def readResults (x : Rpc Req Resp) : List Bool :=
  (x.returned.filter (fun e => e.1 = .read)).map Prod.snd

/-- The phases that lead to `OnReadsDone`. -/
def endOwed (streams : Bool) : Phase Resp → Bool
  | .onReadsDone _ => true
  | .onInitialize _ | .requestRead _ | .onOnlyRequest _ => !streams
  | _ => false

def finishOwed : Phase Resp → Nat
  | .onFinish _ => 1
  | _ => 0

/-- The phases of `HandleNewConnection` after its test of `shutting_down_`, and the one before. -/
def Phase.connecting : Phase Resp → Bool
  | .handleNewConnection _ => true
  | .remove e | .onConnection e | .onInitialize e | .requestRead e | .onRequest e
  | .onOnlyRequest e | .onReadsDone e | .onFinish e | .handleSendQueue e | .performFinish _ e
  | .performWrite _ e | .ending e => e = .clone
  | .handle _ | .handleInternal | .releaseShared => false

structure Talks (c : Call Req Resp) (acts : List (Instr Resp)) (p : Phase Resp) : Prop where
  informs : Informs c acts p
  first : ∀ cb, c.rpc.callbacks.head? = some cb → cb = .onInitialize
  unread : c.rpc.handler = false → ∀ ok, (.read, ok) ∉ c.rpc.handled
  endsReads : c.rpc.handler = true → (readsOver c.rpc = true ↔
    .onReadsDone ∈ c.rpc.callbacks ∨ endOwed c.rpc.rpcType.streamsRequests p = true)
  finishes : c.rpc.callbacks.countP isOnFinish + finishOwed p =
    (c.rpc.handled.map Prod.fst).count .finish
  connecting : p.connecting = true → ∃ ok, c.rpc.handled.getLast? = some (.newConnection, ok)
  stops : (.read, false) ∈ c.rpc.returned → c.rpc.inFlight .read = 0
  results : ∃ n, readResults c.rpc = List.replicate n true ∨
    readResults c.rpc = List.replicate n true ++ [false]

section Turns

variable {c c' : Call Req Resp} {acts acts' : List (Instr Resp)} {p p' : Phase Resp}
  {l : CallLabel Req Resp}

/-- The first callback is made in the phase of `OnInitialize`. -/
lemma Informs.first_callback {kind : CallbackKind} (h : Informs c [] p)
    (hp : p.callback = some (kind, p')) (hhandler : c.rpc.handler = true)
    (hnil : c.rpc.callbacks = []) : kind = .onInitialize := by
  have hopened := h.opened hhandler (by simp [hnil])
  rw [hnil, show told ([] : List (Callback Req)) = [] from rfl, List.nil_append] at hopened
  cases p <;> cases hp <;> first | rfl | (simp [owed, opening] at hopened)

lemma turn_first (h : Talks c acts p) (ht : Turn c acts p l c' acts' p') :
    ∀ cb, c'.rpc.callbacks.head? = some cb → cb = .onInitialize := by
  cases ht with
  | callback hp hhandler =>
    intro cb hcb
    cases hold : c.rpc.callbacks with
    | nil =>
      obtain rfl := h.informs.first_callback hp hhandler hold
      simpa [hold, Rpc.callback, eq_comm] using hcb
    | cons cb' rest =>
      refine h.first cb ?_
      simpa [hold] using hcb
  | _ => exact h.first

lemma turn_unread (h : Talks c acts p) (ht : Turn c acts p l c' acts' p')
    (hhandler : c'.rpc.handler = false) (ok : Bool) : (.read, ok) ∉ c'.rpc.handled := by
  cases ht with
  | @handle tag as =>
    intro hmem
    rcases List.mem_append.mp hmem with hmem | hmem
    · exact h.unread hhandler ok hmem
    · have htag : tag = .read := (congrArg Prod.fst (List.mem_singleton.mp hmem)).symm
      subst htag
      have haccounts := h.informs.lives.accounts
      have hflag := (haccounts.fresh hhandler).1.1 .read (by simp) (by simp)
      exact absurd (hflag.symm.trans haccounts.pending_of_handle) (by simp)
  | connect _ => cases hhandler
  | _ => exact h.unread hhandler ok

lemma readsOver_startHandling {x : Rpc Req Resp} {tag : Tag}
    (h : tag ≠ .read ∨ (x.event tag).ok = true) : readsOver (x.startHandling tag) = readsOver x := by
  have hne : (.read, false) ≠ (tag, (x.event tag).ok) := by
    intro he
    obtain ⟨htag, hok⟩ := Prod.mk.inj he
    rcases h with h | h
    · exact h htag.symm
    · rw [h] at hok
      cases hok
  have hmem : (.read, false) ∈ x.handled ++ [(tag, (x.event tag).ok)] ↔ (.read, false) ∈ x.handled := by
    simp [hne]
  simp only [readsOver, Rpc.startHandling, hmem]
  rfl

lemma Talks.over_callback {kind : CallbackKind} (h : Talks c [] p)
    (hp : p.callback = some (kind, p')) (hhandler : c.rpc.handler = true) :
    readsOver c.rpc = true ↔ .onReadsDone ∈ c.rpc.callbacks ++ [c.rpc.callback kind] ∨
      endOwed c.rpc.rpcType.streamsRequests p' = true := by
  have hover := h.endsReads hhandler
  have hfits := h.informs.lives.fits
  rw [List.mem_append, List.mem_singleton]
  cases p <;> cases hp
  case onInitialize e => simpa [Rpc.callback, endOwed] using hover
  case onRequest e => simpa [Rpc.callback, endOwed, hfits.2] using hover
  case onOnlyRequest e => simpa [Rpc.callback, endOwed, hfits.2] using hover
  case onReadsDone e => simpa [Rpc.callback, endOwed] using hover
  case onFinish e => simpa [Rpc.callback, endOwed] using hover

lemma turn_over (h : Talks c acts p) (ht : Turn c acts p l c' acts' p')
    (hhandler : c'.rpc.handler = true) : readsOver c'.rpc = true ↔
      .onReadsDone ∈ c'.rpc.callbacks ∨ endOwed c'.rpc.rpcType.streamsRequests p' = true := by
  have hfits := h.informs.lives.fits
  cases ht with
  | @handle tag as =>
    have hover := h.endsReads hhandler
    cases tag with
    | newConnection =>
      have hwaiting := (h.informs.lives.accounts.waiting h.informs.lives.accounts.pending_of_handle).1
      exact absurd (hwaiting.symm.trans hhandler) (by simp)
    | read =>
      cases hok : (c.rpc.event .read).ok with
      | true =>
        rw [readsOver_startHandling (.inr hok)]
        exact hover
      | false =>
        have hmem : (.read, false) ∈ (c.rpc.startHandling .read).handled := by
          rw [← hok]
          exact List.mem_append_right _ List.mem_cons_self
        simp [readsOver, hmem, Phase.ofEvent, endOwed]
    | write | finish | done =>
      rw [readsOver_startHandling (.inl (by simp))]
      exact hover
  | connect hfalse =>
    have hunread := h.unread hfalse false
    simp [readsOver, hunread, (h.informs.fresh hfalse).1, endOwed, Rpc.rpcType]
  | reconnect htrue => exact absurd (hfits.2.1.symm.trans htrue) (by simp)
  | callback hp _ => exact h.over_callback hp hhandler
  | startRead hstream =>
    have hover := h.endsReads hhandler
    rw [hstream] at hover
    exact hover
  | readWhole hstream => exact h.endsReads hhandler
  | keep _ | erase _ =>
    rename_i shared as _
    cases shared <;> exact h.endsReads hhandler
  | _ => exact h.endsReads hhandler

lemma turn_onFinish (h : Talks c acts p) (ht : Turn c acts p l c' acts' p') :
    c'.rpc.callbacks.countP isOnFinish + finishOwed p' =
      (c'.rpc.handled.map Prod.fst).count .finish := by
  have hold := h.finishes
  cases ht with
  | @handle tag as =>
    have hhandled : (c.rpc.startHandling tag).handled.map Prod.fst =
        c.rpc.handled.map Prod.fst ++ [tag] := by simp [Rpc.startHandling]
    have hcallbacks : (c.rpc.startHandling tag).callbacks = c.rpc.callbacks := rfl
    rw [hhandled, hcallbacks, List.count_append, ← hold]
    cases tag <;> cases (c.rpc.event _).ok <;> rfl
  | callback hp _ =>
    rw [← hold, List.countP_append]
    cases p <;> cases hp <;> rfl
  | keep _ | erase _ =>
    rename_i shared as _
    cases shared <;> exact hold
  | _ => exact hold

lemma ofEvent_connecting {tag : Tag} {ok : Bool}
    (h : (Phase.ofEvent tag ok : Phase Resp).connecting = true) : tag = .newConnection := by
  cases tag <;> cases ok <;> first | rfl | simp [Phase.ofEvent, Phase.connecting] at h

lemma turn_connecting (h : Talks c acts p) (ht : Turn c acts p l c' acts' p')
    (hp' : p'.connecting = true) :
    ∃ ok, c'.rpc.handled.getLast? = some (.newConnection, ok) := by
  cases ht with
  | @handle tag as =>
    obtain rfl := ofEvent_connecting hp'
    exact ⟨_, List.getLast?_concat⟩
  | callback hp _ =>
    refine h.connecting ?_
    cases p <;> cases hp <;> exact hp'
  | keep _ | erase _ =>
    rename_i shared as _
    cases shared <;> cases hp'
  | accept _ | fail _ => exact h.connecting rfl
  | refuse _ | pop _ | popInternal _ | handleInternal _ | stale _ | clone | releaseShared => cases hp'
  | _ => exact h.connecting hp'

/-- The read that would follow the last one is not started. -/
lemma Talks.not_requestRead {e : Ending} (h : Talks c [] (.requestRead e))
    (hstream : c.rpc.rpcType.streamsRequests = true) : (.read, false) ∉ c.rpc.returned := by
  have hlives := h.informs.lives
  have hhandler : c.rpc.handler = true := by
    by_contra hfalse
    cases (hlives.accounts.fresh (by simpa using hfalse)).2
  intro hmem
  rw [← hlives.results, List.mem_append] at hmem
  rcases hmem with hmem | hmem
  · have hover : readsOver c.rpc = true := by simp [readsOver, hmem]
    rcases (h.endsReads hhandler).mp hover with hdone | howed
    · cases (h.informs.ended hdone).2.2
    · simp [endOwed, hstream] at howed
  · have htransit : .read ∈ transit c (.requestRead e) :=
      results_map_fst c _ ▸ List.mem_map_of_mem hmem
    cases (hlives.accounts.reading (hlives.accounts.pending_of_mem htransit)).2

lemma turn_stops (h : Talks c acts p) (ht : Turn c acts p l c' acts' p')
    (hmem : (.read, false) ∈ c'.rpc.returned) : c'.rpc.inFlight .read = 0 := by
  cases ht with
  | @next _ _ tag ok request _ hmay =>
    have hheld := (mayReturn_iff.mp hmay).1
    have hout := h.informs.lives.accounts.outstanding .read
    have hle := Bool.toNat_le (c.rpc.isRpcEventPending .read)
    by_cases htag : tag = .read
    · subst htag
      change update c.rpc.inFlight .read (c.rpc.inFlight .read - 1) .read = 0
      rw [update_self]
      omega
    · have hold : (.read, false) ∈ c.rpc.returned := by
        rcases List.mem_append.mp hmem with hold | hnew
        · exact hold
        · exact absurd (congrArg Prod.fst (List.mem_singleton.mp hnew)).symm htag
      exact (update_of_ne (Ne.symm htag) _ _).trans (h.stops hold)
  | startRead hstream => exact absurd hmem (h.not_requestRead hstream)
  | performFinish _ =>
    change update c.rpc.inFlight .finish (c.rpc.inFlight .finish + 1) .read = 0
    rw [update_of_ne (by simp)]
    exact h.stops hmem
  | performWrite _ _ =>
    change update c.rpc.inFlight .write (c.rpc.inFlight .write + 1) .read = 0
    rw [update_of_ne (by simp)]
    exact h.stops hmem
  | _ => exact h.stops hmem

lemma turn_readResults (h : Talks c acts p) (ht : Turn c acts p l c' acts' p') :
    ∃ n, readResults c'.rpc = List.replicate n true ∨
      readResults c'.rpc = List.replicate n true ++ [false] := by
  cases ht with
  | @next _ _ tag ok request _ hmay =>
    have hheld := (mayReturn_iff.mp hmay).1
    by_cases htag : tag = .read
    · subst htag
      have happend : readResults (c.rpc.returnTag .read ok request) = readResults c.rpc ++ [ok] := by
        simp [readResults, Rpc.returnTag]
      obtain ⟨n, hall | hlast⟩ := h.results
      · rw [happend, hall]
        cases ok with
        | true => exact ⟨n + 1, .inl List.replicate_succ'.symm⟩
        | false => exact ⟨n, .inr rfl⟩
      · -- a `READ` that failed is the last one
        have hfalse : false ∈ readResults c.rpc := by simp [hlast]
        have hmem : (.read, false) ∈ c.rpc.returned := by simpa [readResults] using hfalse
        rw [h.stops hmem] at hheld
        cases hheld
    · have hsame : readResults (c.rpc.returnTag tag ok request) = readResults c.rpc := by
        simp [readResults, Rpc.returnTag, htag]
      rw [hsame]
      exact h.results
  | _ => exact h.results

theorem turn_talks (h : Talks c acts p) (ht : Turn c acts p l c' acts' p') : Talks c' acts' p' where
  informs := turn_informs h.informs ht
  first := turn_first h ht
  unread := turn_unread h ht
  endsReads := turn_over h ht
  finishes := turn_onFinish h ht
  connecting := turn_connecting h ht
  stops := turn_stops h ht
  results := turn_readResults h ht

lemma listening_talks (h : (callSystem Req Resp).init c) : Talks c [] .idle := by
  refine ⟨listening_informs h, ?_, ?_, ?_, ?_, ?_, ?_, ?_⟩ <;>
    obtain ⟨methodIndex, cq, queue, info, service, parent, shuttingDown, rfl⟩ := h
  · intro cb hcb
    cases hcb
  · intro _ ok hmem
    cases hmem
  · intro hhandler
    cases hhandler
  · rfl
  · intro hp
    cases hp
  · intro hmem
    cases hmem
  · exact ⟨0, .inl rfl⟩

end Turns

theorem reachable_talks {c : Call Req Resp} (hc : (callSystem Req Resp).Reachable c) :
    ∃ acts p, At c acts p ∧ Talks c acts p :=
  reach_staged (fun _ => listening_talks) (fun _ _ _ _ _ _ _ _ h _ ht => turn_talks h ht) hc

/-! ### The handler of an `Rpc` -/

/-- The callbacks on the handler of an `Rpc` follow the protocol. -/
structure FollowsProtocol (s : Server Req Resp) (r : Nat) : Prop where
  /-- No callback is made on a missing handler. -/
  present : ∀ kind rest, s.tasks 0 = ⟨r, .callback kind :: rest⟩ → (s.rpcs r).handler = true
  /-- `OnInitialize` comes first. -/
  first : ∀ cb, (s.rpcs r).callbacks.head? = some cb → cb = .onInitialize
  /-- The callbacks are those that the handled events call for, as far as they go, -/
  told : told (s.rpcs r).callbacks <+: calledFor (s.rpcs r)
  /-- and all of them once the event thread is done with the event. -/
  complete : (s.rpcs r).handler = true → ((s.tasks 0).rpc = r → (s.tasks 0).code = []) →
    Proofs.told (s.rpcs r).callbacks = calledFor (s.rpcs r)
  /-- `OnInitialize`, and the callbacks about a request that is not streamed, are made in
  `HandleNewConnection`. -/
  inline : ∀ kind rest, s.tasks 0 = ⟨r, .callback kind :: rest⟩ →
    kind = .onInitialize ∨ (kind ≠ .onFinish ∧ (s.rpcs r).rpcType.streamsRequests = false) →
      (s.rpcs r).handled.getLast? = some (.newConnection, true) ∧ .clone ∈ rest
  /-- There is one request that is not streamed, -/
  single : (s.rpcs r).rpcType.streamsRequests = false → (s.rpcs r).handler = true →
    (s.rpcs r).delivered.length = 1
  /-- and one streamed request for each `READ` that came back with `ok = true`, which are followed
  by at most one with `ok = false`. -/
  streamed : (s.rpcs r).rpcType.streamsRequests = true →
    (s.rpcs r).delivered.length = (s.rpcs r).returned.count (.read, true)
  reads : ∃ n, readResults (s.rpcs r) = List.replicate n true ∨
    readResults (s.rpcs r) = List.replicate n true ++ [false]
  /-- `OnFinish` is called once for each `FINISH` that was handled. -/
  finishes : (s.rpcs r).callbacks.countP isOnFinish ≤ ((s.rpcs r).handled.map Prod.fst).count .finish
  finished : ((s.tasks 0).rpc = r → (s.tasks 0).code = []) →
    (s.rpcs r).callbacks.countP isOnFinish = ((s.rpcs r).handled.map Prod.fst).count .finish
  /-- At most one `Read` is outstanding, -/
  oneRead : outstanding s r .read ≤ 1
  /-- and it is started when the handler has seen all that was read into `request_`. -/
  request : ∀ rest, s.tasks 0 = ⟨r, .requestStreamingReadIfNeeded :: rest⟩ →
    (s.rpcs r).rpcType.streamsRequests = true →
      Proofs.told (s.rpcs r).callbacks = opening (s.rpcs r).delivered

section Handler

variable {c : Call Req Resp} {acts rest : List (Instr Resp)} {p : Phase Resp}

lemma Talks.told_of_done (h : Talks c acts p) (hdone : .onReadsDone ∈ c.rpc.callbacks) :
    told c.rpc.callbacks = calledFor c.rpc := by
  have hhandler : c.rpc.handler = true := by
    by_contra hfalse
    rw [(h.informs.fresh (by simpa using hfalse)).1] at hdone
    cases hdone
  rw [(h.informs.ended hdone).1, calledFor, (h.endsReads hhandler).mpr (.inl hdone)]
  rfl

lemma Talks.told_calledFor (h : Talks c acts p) : told c.rpc.callbacks <+: calledFor c.rpc := by
  by_cases hdone : .onReadsDone ∈ c.rpc.callbacks
  · rw [h.told_of_done hdone]
  · cases hhandler : c.rpc.handler with
    | true =>
      have hopening : told c.rpc.callbacks <+: opening (given c.rpc) :=
        ⟨_, h.informs.opened hhandler hdone⟩
      exact hopening.trans (List.prefix_append _ _)
    | false =>
      rw [(h.informs.fresh hhandler).1]
      exact List.nil_prefix

/-- A handler whose event thread is done with the event has been told all. -/
lemma Talks.told_idle (h : Talks c [] .idle) (hhandler : c.rpc.handler = true) :
    told c.rpc.callbacks = calledFor c.rpc := by
  by_cases hdone : .onReadsDone ∈ c.rpc.callbacks
  · exact h.told_of_done hdone
  · have hopened := h.informs.opened hhandler hdone
    have hmore : readsOver c.rpc = false := by
      by_contra hover
      rcases (h.endsReads hhandler).mp (by simpa using hover) with hmem | howed
      · exact hdone hmem
      · cases howed
    rw [show owed _ _ (.idle : Phase Resp) = [] from rfl, List.append_nil] at hopened
    simp [calledFor, hmore, hopened]

lemma Phase.code_callback {kind : CallbackKind} (h : p.code = .callback kind :: rest) :
    ∃ p', p.callback = some (kind, p') ∧ rest = p'.code := by
  cases p with
  | onInitialize e | onRequest e | onOnlyRequest e | onReadsDone e | onFinish e =>
    cases h
    exact ⟨_, rfl, rfl⟩
  | ending e =>
    cases e with
    | close shared => cases shared <;> cases h
    | _ => cases h
  | _ => cases h

/-- A callback is only made on a handler. -/
lemma Talks.handler_of_callback (h : Talks c acts p) {kind : CallbackKind} {p' : Phase Resp}
    (hp : p.callback = some (kind, p')) : c.rpc.handler = true := by
  by_contra hfalse
  have hbefore := (h.informs.lives.accounts.fresh (by simpa using hfalse)).2
  cases p <;> first | cases hbefore; done | cases hp

lemma Talks.inline_callback (h : Talks c acts p) {kind : CallbackKind} {p' : Phase Resp}
    (hp : p.callback = some (kind, p'))
    (hkind : kind = .onInitialize ∨ (kind ≠ .onFinish ∧ c.rpc.rpcType.streamsRequests = false)) :
    c.rpc.handled.getLast? = some (.newConnection, true) ∧ .clone ∈ p'.code := by
  have hfits := h.informs.lives.fits
  have hconn := h.informs.connected (h.handler_of_callback hp)
  have hlast : p.connecting = true → c.rpc.handled.getLast? = some (.newConnection, true) := by
    intro hp
    obtain ⟨ok, hlast⟩ := h.connecting hp
    have hmem := List.mem_of_getLast? hlast
    have hok := (h.informs.lives.connected_of_handled hmem).symm.trans hconn
    rw [hlast, Option.some.inj hok]
  have hclone : (.clone : Instr Resp) ∈ Ending.clone.code := by simp [Ending.code]
  cases p <;> cases hp
  case onInitialize e =>
    cases hfits
    exact ⟨hlast rfl, List.mem_cons_of_mem _ hclone⟩
  case onRequest e =>
    have hstream := (hkind.resolve_left (by simp)).2
    exact absurd (hfits.2.symm.trans hstream) (by simp)
  case onOnlyRequest e =>
    cases hfits.1
    exact ⟨hlast rfl, List.mem_cons_of_mem _ hclone⟩
  case onReadsDone e =>
    have hstream := (hkind.resolve_left (by simp)).2
    rcases hfits with ⟨rfl, -⟩ | ⟨-, htrue, -⟩
    · exact ⟨hlast rfl, hclone⟩
    · exact absurd (htrue.symm.trans hstream) (by simp)
  case onFinish e => exact absurd rfl (hkind.resolve_left (by simp)).1

/-- When a `Read` is started, the handler has been told about every request. -/
lemma Talks.told_requestRead {e : Ending} (h : Talks c [] (.requestRead e))
    (hstream : c.rpc.rpcType.streamsRequests = true) :
    told c.rpc.callbacks = opening c.rpc.delivered := by
  have haccounts := h.informs.lives.accounts
  have hhandler : c.rpc.handler = true := by
    by_contra hfalse
    cases (haccounts.fresh (by simpa using hfalse)).2
  have hmore : .onReadsDone ∉ c.rpc.callbacks := by
    intro hdone
    cases (h.informs.ended hdone).2.2
  have hopened := h.informs.opened hhandler hmore
  rw [h.informs.given_eq_delivered (haccounts.starts_idle rfl), hstream] at hopened
  exact (List.append_nil _).symm.trans hopened

lemma Phase.code_requestRead (h : p.code = .requestStreamingReadIfNeeded :: rest) :
    ∃ e, p = .requestRead e := by
  cases p with
  | requestRead e => exact ⟨e, rfl⟩
  | ending e =>
    cases e with
    | close shared => cases shared <;> cases h
    | _ => cases h
  | _ => cases h

end Handler

/-- With one event thread, the callbacks on the handler of every `Rpc` follow the protocol in
every state that can be reached. -/
theorem callback_protocol (hn : options.numEventThreads = 1) {s : Server Req Resp}
    (hs : (serverSystem Req Resp options maps).Reachable s) {r : Nat} (hr : r < s.nextRpc) :
    FollowsProtocol s r := by
  obtain ⟨hR, hq⟩ := routed_of_one_thread hn hs hr
  obtain ⟨acts, p, hat, h⟩ := reachable_talks (reachable_call hs hr hR)
  have hcode : ∀ {i rest}, s.tasks 0 = ⟨r, i :: rest⟩ → isProducer i = false →
      acts = [] ∧ p.code = i :: rest := by
    intro i rest htask hi
    exact hat.code_of_phase (by simp [Server.call, hq, htask]) hi
  have hidle : ((s.tasks 0).rpc = r → (s.tasks 0).code = []) → acts = [] ∧ p = .idle := by
    intro hdone
    refine hat.code_eq_nil ?_
    simpa [Server.call, hq] using hdone
  constructor
  case present =>
    intro kind rest htask
    obtain ⟨p', hp, -⟩ := Phase.code_callback (hcode htask rfl).2
    exact h.handler_of_callback hp
  case first => exact h.first
  case told => exact h.told_calledFor
  case complete =>
    intro hhandler hdone
    obtain ⟨rfl, rfl⟩ := hidle hdone
    exact h.told_idle hhandler
  case inline =>
    intro kind rest htask hkind
    obtain ⟨p', hp, rfl⟩ := Phase.code_callback (hcode htask rfl).2
    exact h.inline_callback hp hkind
  case single =>
    intro hstream hhandler
    have hwhole := h.informs.whole hstream
    rwa [if_pos (h.informs.connected hhandler)] at hwhole
  case streamed => exact h.informs.reads
  case reads => exact h.results
  case finishes => exact h.finishes ▸ Nat.le_add_right _ _
  case finished =>
    intro hdone
    obtain ⟨rfl, rfl⟩ := hidle hdone
    exact h.finishes
  case oneRead =>
    rw [outstanding_eq_pending hs hr hR]
    exact Bool.toNat_le _
  case request =>
    intro rest htask hstream
    obtain ⟨rfl, hp⟩ := hcode htask rfl
    obtain ⟨e, rfl⟩ := Phase.code_requestRead hp
    exact h.told_requestRead hstream

/-- The handler has finished the call before the reads are done. -/
theorem callback_protocol_of_run :
    ∃ s, (serverSystem Nat Nat oneEventThread sumService).Reachable s ∧ (s.tasks 0).code = [] ∧
      FollowsProtocol s 0 ∧ (s.rpcs 0).returned.count (.read, true) = 1 ∧
      (s.rpcs 0).callbacks = [.onInitialize, .onRequest (some 0), .onFinish, .onReadsDone] := by
  obtain ⟨s, hs, hp⟩ := exists_reachable oneEventThread sumService
    (finishOnRequest ++ event .read false none ++ execs 3)
    (fun s => 0 < s.nextRpc ∧ (s.tasks 0).code = [] ∧
      (s.rpcs 0).returned.count (.read, true) = 1 ∧
      (s.rpcs 0).callbacks = [.onInitialize, .onRequest (some 0), .onFinish, .onReadsDone])
    (by decide +kernel)
  obtain ⟨hr, hidle, hreads, hcallbacks⟩ := of_decide_eq_true hp
  exact ⟨s, hs, hidle, callback_protocol rfl hs hr, hreads, hcallbacks⟩

end AsyncGrpc.Proofs
