import AsyncGrpc.Call
import AsyncGrpc.Proofs.Instructions

/-!
# The phases of a call

Between two instructions an event thread stands in one of a few phases, after the sends of
the last callback that it still has to make. `Turn` lists the steps of a call phase by phase;
the invariants of calls are proved by cases on it.
-/

namespace AsyncGrpc.Proofs

open Transition

variable {Req Resp : Type}

/-- What is left to do at the end of a handler. -/
inductive Ending
  | none | clone | close (shared : Bool)
  deriving DecidableEq

def Ending.code : Ending → List (Instr Resp)
  | .none => []
  | .clone => [.clone]
  | .close false => [.removeIfNotPending]
  | .close true => [.removeIfNotPending, .releaseShared]

inductive Phase (Resp : Type)
  | handle (tag : Tag)
  | handleInternal
  | handleNewConnection (ok : Bool)
  | remove (e : Ending)
  | onConnection (e : Ending)
  | onInitialize (e : Ending)
  | requestRead (e : Ending)
  | onRequest (e : Ending)
  | onOnlyRequest (e : Ending)
  | onReadsDone (e : Ending)
  | onFinish (e : Ending)
  | handleSendQueue (e : Ending)
  | performFinish (item : SendItem Resp) (e : Ending)
  | performWrite (item : SendItem Resp) (e : Ending)
  | ending (e : Ending)
  | releaseShared

namespace Phase

/-- The thread handles no event of the call. -/
abbrev idle : Phase Resp := .ending .none

def code : Phase Resp → List (Instr Resp)
  | .handle tag => [.handle tag]
  | .handleInternal => [.handleInternal]
  | .handleNewConnection ok => [.handleNewConnection ok]
  | .remove e => .remove :: e.code
  | .onConnection e => .onConnection :: e.code
  | .onInitialize e => .callback .onInitialize :: .requestStreamingReadIfNeeded :: e.code
  | .requestRead e => .requestStreamingReadIfNeeded :: e.code
  | .onRequest e => .callback .onRequest :: .requestStreamingReadIfNeeded :: e.code
  | .onOnlyRequest e => .callback .onRequest :: .callback .onReadsDone :: e.code
  | .onReadsDone e => .callback .onReadsDone :: e.code
  | .onFinish e => .callback .onFinish :: e.code
  | .handleSendQueue e => .handleSendQueue :: e.code
  | .performFinish item e => .performFinish item :: e.code
  | .performWrite item e => .performWrite item :: e.code
  | .ending e => e.code
  | .releaseShared => [.releaseShared]

/-- The phase in which `HandleEvent` starts. -/
def ofEvent : Tag → Bool → Phase Resp
  | .newConnection, ok => .handleNewConnection ok
  | .read, true => .onRequest .none
  | .read, false => .onReadsDone (.close false)
  | .write, _ => .handleSendQueue (.close false)
  | .finish, _ => .onFinish (.close false)
  | .done, _ => .ending (.close false)

/-- The callback made in a phase and the phase after it. -/
def callback : Phase Resp → Option (CallbackKind × Phase Resp)
  | .onInitialize e => some (.onInitialize, .requestRead e)
  | .onRequest e => some (.onRequest, .requestRead e)
  | .onOnlyRequest e => some (.onRequest, .onReadsDone e)
  | .onReadsDone e => some (.onReadsDone, .ending e)
  | .onFinish e => some (.onFinish, .ending e)
  | _ => none

def afterClose (shared : Bool) : Phase Resp :=
  if shared then .releaseShared else .idle

end Phase

/-- The instructions of `Send`, `Finish` and `GetWriter`. -/
def isProducer : Instr Resp → Bool
  | .enqueueMessage _ | .getWeakPtr | .pushWriteNeeded | .getWriter => true
  | _ => false

/-- Every item that is still to be enqueued will be followed by a `WRITE_NEEDED` event. -/
def Wakes : List (Instr Resp) → Prop
  | [] => True
  | .enqueueMessage _ :: rest => .pushWriteNeeded ∈ rest ∧ Wakes rest
  | _ :: rest => Wakes rest

/-- The thread has the sends `acts` of the last callback to make and then goes on with `p`. -/
structure At (c : Call Req Resp) (acts : List (Instr Resp)) (p : Phase Resp) : Prop where
  code : c.code = acts ++ p.code
  producer : ∀ i ∈ acts, isProducer i = true
  wakes : Wakes acts

/-- The steps of a call, with the phase of its thread before and after. -/
inductive Turn (c : Call Req Resp) : List (Instr Resp) → Phase Resp → CallLabel Req Resp →
    Call Req Resp → List (Instr Resp) → Phase Resp → Prop
  | next {acts p tag ok request} (hhand : c.inHand = none)
      (hmay : c.rpc.mayReturn tag ok request = true) :
      Turn c acts p (.next tag ok request)
        { c with rpc := c.rpc.returnTag tag ok request, inHand := some (tag, ok) } acts p
  | pushToEventQueue {acts p tag ok} (hhand : c.inHand = some (tag, ok)) :
      Turn c acts p .pushToEventQueue
        { c with
          rpc := c.rpc.setOk tag ok
          mailbox := c.mailbox ++ [.completion tag]
          inHand := none } acts p
  | pop {e rest} (hmail : c.mailbox = .completion e :: rest) :
      Turn c [] .idle .pop { c with mailbox := rest, code := (Phase.handle e).code } [] (.handle e)
  | popInternal {rest} (hmail : c.mailbox = .internal :: rest) :
      Turn c [] .idle .pop { c with mailbox := rest, code := Phase.handleInternal.code }
        [] .handleInternal
  | callWriter {acts p method} (hwriter : c.rpc.hasWriter = true) :
      Turn c acts p (.callWriter method)
        { c with writers := c.writers ++ [⟨method.item, .calling⟩] } acts p
  | writerLock {acts p i item} (hw : c.writers[i]? = some ⟨item, .calling⟩)
      (halive : c.alive = true) :
      Turn c acts p (.stepWriter i) { c with writers := c.writers.set i ⟨item, .locked⟩ } acts p
  | writerExpired {acts p i item} (hw : c.writers[i]? = some ⟨item, .calling⟩)
      (halive : c.alive = false) :
      Turn c acts p (.stepWriter i)
        { c with writers := c.writers.set i ⟨item, .returned false⟩ } acts p
  | writerEnqueue {acts p i item} (hw : c.writers[i]? = some ⟨item, .locked⟩) :
      Turn c acts p (.stepWriter i)
        { c with
          rpc := c.rpc.enqueueMessage item
          writers := c.writers.set i ⟨item, .enqueued⟩ } acts p
  | writerLookUp {acts p i item} (hw : c.writers[i]? = some ⟨item, .enqueued⟩)
      (hactive : c.active = true) :
      Turn c acts p (.stepWriter i) { c with writers := c.writers.set i ⟨item, .lookedUp⟩ } acts p
  | writerPush {acts p i item} (hw : c.writers[i]? = some ⟨item, .lookedUp⟩) :
      Turn c acts p (.stepWriter i)
        { c with
          mailbox := c.mailbox ++ [.internal]
          writers := c.writers.set i ⟨item, .pushed⟩ } acts p
  | writerReturn {acts p i item} (hw : c.writers[i]? = some ⟨item, .pushed⟩) :
      Turn c acts p (.stepWriter i)
        { c with writers := c.writers.set i ⟨item, .returned true⟩ } acts p
  | stopServing {acts p} : Turn c acts p .stopServing { c with shuttingDown := true } acts p
  | enqueueMessage {acts p as item} :
      Turn c (.enqueueMessage item :: acts) p (.exec as)
        { c with rpc := c.rpc.enqueueMessage item, code := acts ++ p.code } acts p
  | getWeakPtr {acts p as} (hactive : c.active = true) :
      Turn c (.getWeakPtr :: acts) p (.exec as) { c with code := acts ++ p.code } acts p
  | pushWriteNeeded {acts p as} :
      Turn c (.pushWriteNeeded :: acts) p (.exec as)
        { c with mailbox := c.mailbox ++ [.internal], code := acts ++ p.code } acts p
  | getWriter {acts p as} (hactive : c.active = true) :
      Turn c (.getWriter :: acts) p (.exec as)
        { c with rpc := { c.rpc with hasWriter := true }, code := acts ++ p.code } acts p
  | handle {tag as} :
      Turn c [] (.handle tag) (.exec as)
        { c with
          rpc := c.rpc.startHandling tag
          code := (Phase.ofEvent tag (c.rpc.event tag).ok).code }
        [] (.ofEvent tag (c.rpc.event tag).ok)
  | handleInternal {as} (halive : c.alive = true) :
      Turn c [] .handleInternal (.exec as)
        { c with code := (Phase.handleSendQueue (.close true)).code } [] (.handleSendQueue (.close true))
  | stale {as} (halive : c.alive = false) :
      Turn c [] .handleInternal (.exec as) { c with code := Phase.idle.code } [] .idle
  | refuse {ok as} (hshut : c.shuttingDown = true) :
      Turn c [] (.handleNewConnection ok) (.exec as)
        { c with code := (Phase.remove .none).code } [] (.remove .none)
  | fail {as} (hshut : c.shuttingDown = false) :
      Turn c [] (.handleNewConnection false) (.exec as)
        { c with code := (Phase.remove .clone).code } [] (.remove .clone)
  | accept {as} (hshut : c.shuttingDown = false) :
      Turn c [] (.handleNewConnection true) (.exec as)
        { c with code := (Phase.onConnection .clone).code } [] (.onConnection .clone)
  | remove {e as} :
      Turn c [] (.remove e) (.exec as)
        { c with active := false, code := (Phase.ending e).code } [] (.ending e)
  | clone {as} :
      Turn c [] (.ending .clone) (.exec as) { c with code := Phase.idle.code } [] .idle
  | connect {e as} (hhandler : c.rpc.handler = false) :
      Turn c [] (.onConnection e) (.exec as)
        { c with rpc := { c.rpc with handler := true }, code := (Phase.onInitialize e).code }
        [] (.onInitialize e)
  | reconnect {e as} (hhandler : c.rpc.handler = true) :
      Turn c [] (.onConnection e) (.exec as)
        { c with code := (Phase.requestRead e).code } [] (.requestRead e)
  | callback {p kind p' as} (hp : p.callback = some (kind, p')) (hhandler : c.rpc.handler = true) :
      Turn c [] p (.exec as)
        { c with
          rpc := { c.rpc with
            callbacks := c.rpc.callbacks ++ [c.rpc.callback kind]
            passed := c.rpc.passed ++ as.filterMap HandlerAction.item }
          code := as.flatMap HandlerAction.instrs ++ p'.code }
        (as.flatMap HandlerAction.instrs) p'
  | startRead {e as} (hstream : c.rpc.rpcType.streamsRequests = true) :
      Turn c [] (.requestRead e) (.exec as)
        { c with rpc := c.rpc.startOp .read, code := (Phase.ending e).code } [] (.ending e)
  | readWhole {e as} (hstream : c.rpc.rpcType.streamsRequests = false) :
      Turn c [] (.requestRead e) (.exec as)
        { c with code := (Phase.onOnlyRequest e).code } [] (.onOnlyRequest e)
  | keepQueue {e as} (hqueue : c.rpc.sendQueue = [] ∨ c.rpc.isRpcEventPending .write = true ∨
        c.rpc.isRpcEventPending .finish = true) :
      Turn c [] (.handleSendQueue e) (.exec as)
        { c with code := (Phase.ending e).code } [] (.ending e)
  | takeFinish {e as item rest} (hqueue : c.rpc.sendQueue = item :: rest)
      (hwrite : c.rpc.isRpcEventPending .write = false)
      (hfinish : c.rpc.isRpcEventPending .finish = false)
      (hitem : item.msg = none ∨ c.rpc.rpcType.streamsResponses = false) :
      Turn c [] (.handleSendQueue e) (.exec as)
        { c with
          rpc := { c.rpc with sendQueue := rest }
          code := (Phase.performFinish item e).code } [] (.performFinish item e)
  | takeWrite {e as item rest m} (hqueue : c.rpc.sendQueue = item :: rest)
      (hwrite : c.rpc.isRpcEventPending .write = false)
      (hfinish : c.rpc.isRpcEventPending .finish = false)
      (hitem : item.msg = some m) (hstream : c.rpc.rpcType.streamsResponses = true) :
      Turn c [] (.handleSendQueue e) (.exec as)
        { c with
          rpc := { c.rpc with sendQueue := rest }
          code := (Phase.performWrite item e).code } [] (.performWrite item e)
  | performFinish {e as item op} (hop : Rpc.finishOp c.rpc.rpcType item = some op) :
      Turn c [] (.performFinish item e) (.exec as)
        { c with
          rpc := { c.rpc.startOp .finish with
            response := item.msg.or c.rpc.response
            sends := c.rpc.sends ++ [op] }
          code := (Phase.ending e).code } [] (.ending e)
  | performWrite {e as item m} (hmsg : item.msg = some m)
      (hstream : c.rpc.rpcType.streamsResponses = true) :
      Turn c [] (.performWrite item e) (.exec as)
        { c with
          rpc := { c.rpc.startOp .write with
            response := some m
            sends := c.rpc.sends ++ [.write m] }
          code := (Phase.ending e).code } [] (.ending e)
  | keep {shared as} (hpending : c.rpc.isAnyEventPending = true) :
      Turn c [] (.ending (.close shared)) (.exec as)
        { c with code := (Phase.afterClose shared).code } [] (.afterClose shared)
  | erase {shared as} (hpending : c.rpc.isAnyEventPending = false) :
      Turn c [] (.ending (.close shared)) (.exec as)
        { c with active := false, code := (Phase.afterClose shared).code } [] (.afterClose shared)
  | releaseShared {as} :
      Turn c [] .releaseShared (.exec as) { c with code := Phase.idle.code } [] .idle

/-! ### Every step of a call is a turn -/

lemma instrs_producer (acts : List (HandlerAction Resp)) :
    ∀ i ∈ acts.flatMap HandlerAction.instrs, isProducer i = true := by
  intro i hi
  obtain ⟨a, -, ha⟩ := List.mem_flatMap.mp hi
  cases a <;> simp only [HandlerAction.instrs, Rpc.write, Rpc.finish, List.mem_cons,
    List.not_mem_nil, or_false] at ha <;> aesop

lemma instrs_wakes (acts : List (HandlerAction Resp)) :
    Wakes (acts.flatMap HandlerAction.instrs) := by
  induction acts with
  | nil => trivial
  | cons a acts ih =>
    cases a <;> simp [HandlerAction.instrs, Rpc.write, Rpc.finish, Wakes, ih]

lemma At.of_eq {c c' : Call Req Resp} {acts : List (Instr Resp)} {p : Phase Resp} (h : At c acts p)
    (hcode : c'.code = c.code) : At c' acts p :=
  ⟨hcode.trans h.code, h.producer, h.wakes⟩

lemma At.of_code {c : Call Req Resp} {p : Phase Resp} (hcode : c.code = p.code) : At c [] p :=
  ⟨hcode, by simp, trivial⟩

lemma At.tail {c c' : Call Req Resp} {i : Instr Resp} {acts : List (Instr Resp)} {p : Phase Resp}
    (h : At c (i :: acts) p) (hcode : c'.code = acts ++ p.code) : At c' acts p := by
  refine ⟨hcode, fun j hj => h.producer j (List.mem_cons_of_mem _ hj), ?_⟩
  have hw := h.wakes
  cases i <;> simp only [Wakes] at hw <;> first | exact hw | exact hw.2

/-- The turns of a thread that still has sends of the last callback to make. -/
lemma exec_turn_acts {c c' : Call Req Resp} {i : Instr Resp} {acts : List (Instr Resp)}
    {p : Phase Resp} {as : List (HandlerAction Resp)} (hat : At c (i :: acts) p)
    (h : c.step (.exec as) = some c') :
    At c' acts p ∧ Turn c (i :: acts) p (.exec as) c' acts p := by
  have hi := hat.producer i (by simp)
  have hcode := hat.code
  simp only [List.cons_append] at hcode
  simp only [Call.step, hcode, Option.map_eq_some_iff] at h
  obtain ⟨o, hrun, rfl⟩ := h
  cases run_runs hrun with
  | enqueueMessage => exact ⟨hat.tail rfl, .enqueueMessage⟩
  | getWeakPtr hactive => exact ⟨hat.tail rfl, .getWeakPtr hactive⟩
  | pushWriteNeeded => exact ⟨hat.tail rfl, .pushWriteNeeded⟩
  | getWriter hactive => exact ⟨hat.tail rfl, .getWriter hactive⟩
  | _ => cases hi

lemma exec_run {c c' : Call Req Resp} {p : Phase Resp} {as : List (HandlerAction Resp)}
    (hat : At c [] p) (h : c.step (.exec as) = some c') :
    ∃ i rest o, p.code = i :: rest ∧ i.run c.surroundings as c.rpc = some o ∧
      c' = ({ c with rpc := o.rpc, code := o.next ++ rest } : Call Req Resp).apply o.effect := by
  have hcode := hat.code
  rw [List.nil_append] at hcode
  simp only [Call.step] at h
  split at h
  · cases h
  · rename_i i rest hc
    obtain ⟨o, hrun, rfl⟩ := Option.map_eq_some_iff.mp h
    exact ⟨i, rest, o, hcode ▸ hc, hrun, rfl⟩

lemma handleEvent_code (tag : Tag) (ok : Bool) :
    (Service.handleEvent tag.event ok : List (Instr Resp)) = (Phase.ofEvent tag ok).code := by
  cases tag <;> cases ok <;> rfl

lemma callback_turn {c c' : Call Req Resp} {p p' : Phase Resp} {kind : CallbackKind}
    {as : List (HandlerAction Resp)} (hp : p.callback = some (kind, p'))
    (hcode : p.code = .callback kind :: p'.code) (hat : At c [] p)
    (h : c.step (.exec as) = some c') :
    ∃ acts' p', At c' acts' p' ∧ Turn c [] p (.exec as) c' acts' p' := by
  obtain ⟨i, rest, o, hc, hrun, rfl⟩ := exec_run hat h
  rw [hcode] at hc
  cases hc
  cases run_runs hrun with
  | callback hhandler =>
    exact ⟨_, _, ⟨rfl, instrs_producer as, instrs_wakes as⟩, .callback hp hhandler⟩

/-- The turns of a thread that has made the sends of the last callback. -/
lemma exec_turn_phase {c c' : Call Req Resp} {p : Phase Resp} {as : List (HandlerAction Resp)}
    (hat : At c [] p) (h : c.step (.exec as) = some c') :
    ∃ acts' p', At c' acts' p' ∧ Turn c [] p (.exec as) c' acts' p' := by
  obtain ⟨i, rest, o, hc, hrun, rfl⟩ := exec_run hat h
  cases p with
  | onInitialize e | onRequest e | onOnlyRequest e | onReadsDone e | onFinish e =>
    exact callback_turn rfl rfl hat h
  | handle tag =>
    cases hc
    cases run_runs hrun
    simp only [handleEvent_code, List.append_nil]
    exact ⟨[], _, .of_code rfl, .handle⟩
  | handleInternal =>
    cases hc
    cases run_runs hrun with
    | handleInternal halive => exact ⟨[], _, .of_code rfl, .handleInternal halive⟩
    | stale halive => exact ⟨[], _, .of_code rfl, .stale halive⟩
  | handleNewConnection ok =>
    cases hc
    cases run_runs hrun
    rcases Bool.eq_false_or_eq_true c.shuttingDown with hshut | hshut
    · rw [show c.surroundings.shuttingDown = true from hshut]
      exact ⟨[], _, .of_code rfl, .refuse hshut⟩
    · rw [show c.surroundings.shuttingDown = false from hshut]
      cases ok with
      | true => exact ⟨[], _, .of_code rfl, .accept hshut⟩
      | false => exact ⟨[], _, .of_code rfl, .fail hshut⟩
  | remove e =>
    cases hc
    cases run_runs hrun
    exact ⟨[], _, .of_code rfl, .remove⟩
  | onConnection e =>
    cases hc
    cases run_runs hrun with
    | connect hhandler => exact ⟨[], _, .of_code rfl, .connect hhandler⟩
    | reconnect hhandler => exact ⟨[], _, .of_code rfl, .reconnect hhandler⟩
  | requestRead e =>
    cases hc
    cases run_runs hrun with
    | startRead hstream => exact ⟨[], _, .of_code rfl, .startRead hstream⟩
    | readWhole hstream => exact ⟨[], _, .of_code rfl, .readWhole hstream⟩
  | handleSendQueue e =>
    cases hc
    cases run_runs hrun with
    | keepQueue hqueue => exact ⟨[], _, .of_code rfl, .keepQueue hqueue⟩
    | takeFinish hqueue hwrite hfinish hitem =>
      exact ⟨[], _, .of_code rfl, .takeFinish hqueue hwrite hfinish hitem⟩
    | takeWrite hqueue hwrite hfinish hitem hstream =>
      exact ⟨[], _, .of_code rfl, .takeWrite hqueue hwrite hfinish hitem hstream⟩
  | performFinish item e =>
    cases hc
    cases run_runs hrun with
    | performFinish hop => exact ⟨[], _, .of_code rfl, .performFinish hop⟩
  | performWrite item e =>
    cases hc
    cases run_runs hrun with
    | performWrite hmsg hstream => exact ⟨[], _, .of_code rfl, .performWrite hmsg hstream⟩
  | ending e =>
    rcases e with _ | _ | shared
    · cases hc
    · cases hc
      cases run_runs hrun
      exact ⟨[], _, .of_code rfl, .clone⟩
    · have hclose : i = .removeIfNotPending ∧ rest = (Phase.afterClose shared).code := by
        cases shared <;> cases hc <;> exact ⟨rfl, rfl⟩
      obtain ⟨rfl, rfl⟩ := hclose
      cases run_runs hrun with
      | keep hpending => exact ⟨[], _, .of_code rfl, .keep hpending⟩
      | erase hpending => exact ⟨[], _, .of_code rfl, .erase hpending⟩
  | releaseShared =>
    cases hc
    cases run_runs hrun
    exact ⟨[], _, .of_code rfl, .releaseShared⟩

lemma stepWriter_turn {c c' : Call Req Resp} {acts : List (Instr Resp)} {p : Phase Resp} {i : Nat}
    (hat : At c acts p) (h : c.step (.stepWriter i) = some c') :
    At c' acts p ∧ Turn c acts p (.stepWriter i) c' acts p := by
  simp only [Call.step] at h
  split at h
  · cases h
  · rename_i w hw
    split at h
    · cases h
    · rename_i hret
      obtain ⟨q, hq, rfl⟩ := Option.map_eq_some_iff.mp h
      obtain ⟨item, pc⟩ := w
      cases pc with
      | calling =>
        simp only [WriterCall.step] at hq
        split at hq <;> cases hq
        · rename_i halive
          exact ⟨hat.of_eq rfl, .writerLock hw halive⟩
        · rename_i halive
          exact ⟨hat.of_eq rfl, .writerExpired hw (Bool.eq_false_of_not_eq_true halive)⟩
      | locked =>
        cases hq
        exact ⟨hat.of_eq rfl, .writerEnqueue hw⟩
      | enqueued =>
        simp only [WriterCall.step] at hq
        split at hq <;> cases hq
        rename_i hactive
        exact ⟨hat.of_eq rfl, .writerLookUp hw hactive⟩
      | lookedUp =>
        cases hq
        exact ⟨hat.of_eq rfl, .writerPush hw⟩
      | pushed =>
        cases hq
        exact ⟨hat.of_eq rfl, .writerReturn hw⟩
      | returned result => exact absurd rfl hret

/-- An instruction that is not a send of the last callback is the next one of the phase. -/
lemma At.code_of_phase {c : Call Req Resp} {acts rest : List (Instr Resp)} {p : Phase Resp}
    {i : Instr Resp} (hat : At c acts p) (h : c.code = i :: rest) (hi : isProducer i = false) :
    acts = [] ∧ p.code = i :: rest := by
  have hcode := hat.code.symm.trans h
  cases acts with
  | nil => exact ⟨rfl, hcode⟩
  | cons j acts =>
    obtain rfl : j = i := (List.cons.inj hcode).1
    rw [hat.producer j (by simp)] at hi
    cases hi

lemma At.code_eq_nil {c : Call Req Resp} {acts : List (Instr Resp)} {p : Phase Resp}
    (hat : At c acts p) (h : c.code = []) : acts = [] ∧ p = .idle := by
  have hnil := hat.code.symm.trans h
  rw [List.append_eq_nil_iff] at hnil
  refine ⟨hnil.1, ?_⟩
  rcases p with _ | _ | _ | _ | _ | _ | _ | _ | _ | _ | _ | _ | _ | _ | (_ | _ | (_ | _)) | _ <;>
    first | rfl | cases hnil.2

/-- Every step of a call is a turn. -/
theorem step_turn {c c' : Call Req Resp} {acts : List (Instr Resp)} {p : Phase Resp}
    {l : CallLabel Req Resp} (hat : At c acts p) (h : c.step l = some c') :
    ∃ acts' p', At c' acts' p' ∧ Turn c acts p l c' acts' p' := by
  cases l with
  | next tag ok request =>
    simp only [Call.step] at h
    split at h
    · rename_i hg
      cases h
      exact ⟨acts, p, hat.of_eq rfl, .next hg.1 hg.2⟩
    · cases h
  | pushToEventQueue =>
    obtain ⟨⟨tag, ok⟩, hhand, rfl⟩ := Option.map_eq_some_iff.mp h
    exact ⟨acts, p, hat.of_eq rfl, .pushToEventQueue hhand⟩
  | pop =>
    simp only [Call.step] at h
    split at h
    · rename_i e rest hcode hmail
      cases h
      obtain ⟨rfl, rfl⟩ := hat.code_eq_nil hcode
      cases e with
      | completion tag => exact ⟨[], _, .of_code rfl, .pop hmail⟩
      | internal => exact ⟨[], _, .of_code rfl, .popInternal hmail⟩
    · cases h
  | exec as =>
    cases acts with
    | nil => exact exec_turn_phase hat h
    | cons i acts => exact ⟨acts, p, exec_turn_acts hat h⟩
  | callWriter method =>
    simp only [Call.step] at h
    split at h
    · rename_i hw
      cases h
      exact ⟨acts, p, hat.of_eq rfl, .callWriter hw⟩
    · cases h
  | stepWriter i => exact ⟨acts, p, stepWriter_turn hat h⟩
  | stopServing =>
    cases h
    exact ⟨acts, p, hat.of_eq rfl, .stopServing⟩

lemma turn_rpcType {c c' : Call Req Resp} {acts acts' : List (Instr Resp)} {p p' : Phase Resp}
    {l : CallLabel Req Resp} (ht : Turn c acts p l c' acts' p') :
    c'.rpc.rpcType = c.rpc.rpcType := by
  cases ht <;> rfl

/-- Only an event thread without sends left to make leaves its phase. -/
lemma turn_phase {c c' : Call Req Resp} {acts acts' : List (Instr Resp)} {p p' : Phase Resp}
    {l : CallLabel Req Resp} (ht : Turn c acts p l c' acts' p') :
    p' = p ∨ acts = [] ∧ (l = .pop ∨ ∃ as, l = .exec as) := by
  cases ht <;> first | exact .inl rfl | exact .inr ⟨rfl, .inl rfl⟩ | exact .inr ⟨rfl, .inr ⟨_, rfl⟩⟩

/-- The invariant rule for calls: the thread is always in some phase, and what holds of every
listening call and is kept by every turn holds of every call that can be reached. -/
theorem reach_staged {G : Call Req Resp → CallLabel Req Resp → Prop}
    {P : Call Req Resp → List (Instr Resp) → Phase Resp → Prop}
    (hinit : ∀ c, (callSystem Req Resp).init c → P c [] .idle)
    (hturn : ∀ c acts p l c' acts' p', At c acts p → P c acts p → G c l →
      Turn c acts p l c' acts' p' → P c' acts' p')
    {c : Call Req Resp} (hc : (callSystem Req Resp).Reach G c) :
    ∃ acts p, At c acts p ∧ P c acts p := by
  apply hc.invariant (P := fun c => ∃ acts p, At c acts p ∧ P c acts p)
  · rintro c ⟨methodIndex, cq, queue, info, service, parent, shuttingDown, rfl⟩
    exact ⟨[], .idle, .of_code rfl,
      hinit _ ⟨methodIndex, cq, queue, info, service, parent, shuttingDown, rfl⟩⟩
  · rintro c l c' _ ⟨acts, p, hat, hP⟩ hG hstep
    obtain ⟨acts', p', hat', ht⟩ := step_turn hat hstep
    exact ⟨acts', p', hat', hturn c acts p l c' acts' p' hat hP hG ht⟩

end AsyncGrpc.Proofs
