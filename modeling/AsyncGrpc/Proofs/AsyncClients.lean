import AsyncGrpc.AsyncClient

/-!
# The callbacks of the asynchronous clients

What a streaming client calls is a function of what `Next` has returned for it: a small machine
reads the completions one after another, and the client follows it through every interleaving of
gRPC and the thread of its completion queue.
-/

namespace AsyncGrpc.Proofs

open Transition

variable {Resp : Type}

/-! ### The protocol -/

/-- What a streaming client waits for. The flag of `finishing` tells whether it still has its
callback. -/
inductive ClientStage
  | writing
  | reading
  | finishing (callback : Bool)
  | ended
  deriving DecidableEq, Repr

namespace ClientStage

/-- The operation the client has started, or is about to start. -/
def due : ClientStage → List ClientEvent
  | .writing => [.write]
  | .reading => [.read]
  | .finishing _ => [.finish]
  | .ended => []

def callback : ClientStage → Bool
  | .writing => true
  | .reading => true
  | .finishing callback => callback
  | .ended => false

def next : ClientStage → Completion Resp → ClientStage
  | .writing, .write ok => if ok then .reading else .finishing false
  | .reading, .read response => if response.isSome then .reading else .finishing true
  | .finishing _, .finish _ _ => .ended
  | stage, _ => stage

def calls : ClientStage → Completion Resp → List (ClientCall Resp)
  | .writing, .write ok => if ok then [] else [⟨StreamingAsyncClient.writeFailed, none⟩]
  | .reading, .read (some response) => [⟨.ok, some response⟩]
  | .finishing true, .finish ok _ =>
    [⟨if ok then .ok else StreamingAsyncClient.finishFailed, none⟩]
  | _, _ => []

end ClientStage

/-- The callbacks of a streaming client, completion by completion. -/
def clientProtocol (Resp : Type) : Machine ClientStage (Completion Resp) (ClientCall Resp) where
  start := .writing
  next := ClientStage.next
  out := ClientStage.calls

lemma length_calls (stage : ClientStage) (completion : Completion Resp) :
    (stage.calls completion).length ≤ 1 := by
  unfold ClientStage.calls
  split
  · split <;> simp
  all_goals simp

lemma length_due (stage : ClientStage) : stage.due.length ≤ 1 := by
  cases stage <;> simp [ClientStage.due]

/-- The callbacks for the responses among some completions. -/
def callsFor (xs : List (Completion Resp)) : List (ClientCall Resp) :=
  (xs.filterMap Completion.response).map (fun response => ⟨.ok, some response⟩)

/-- The last call of the callback is made exactly when the callback is given up. -/
def Closes (stage : ClientStage) (terminal : List (ClientCall Resp)) : Prop :=
  if stage.callback then terminal = [] else ∃ status, terminal = [⟨status, none⟩]

lemma calls_of_callback {stage : ClientStage} {x : Completion Resp}
    (hdue : stage.due = [x.event]) (hcallback : stage.callback = true) :
    ∃ terminal, stage.calls x = callsFor [x] ++ terminal ∧ Closes (stage.next x) terminal := by
  cases x with
  | write ok =>
    cases stage <;> cases hdue
    cases ok
    · exact ⟨_, rfl, _, rfl⟩
    · exact ⟨_, rfl, rfl⟩
  | read response =>
    cases stage <;> cases hdue
    cases response
    · exact ⟨_, rfl, rfl⟩
    · exact ⟨[], rfl, rfl⟩
  | finish ok status =>
    cases stage <;> cases hdue
    cases hcallback
    exact ⟨_, rfl, _, rfl⟩

lemma calls_of_no_callback {stage : ClientStage} {x : Completion Resp}
    (hdue : stage.due = [x.event]) (hcallback : stage.callback = false) :
    stage.calls x = [] ∧ callsFor [x] = [] ∧ (stage.next x).callback = false := by
  cases x with
  | write ok =>
    cases stage <;> cases hdue
    cases hcallback
  | read response =>
    cases stage <;> cases hdue
    cases hcallback
  | finish ok status =>
    cases stage <;> cases hdue
    cases hcallback
    exact ⟨rfl, rfl, rfl⟩

/-- The completions of operations that were due, one after another. -/
inductive Accepted : List (Completion Resp) → Prop
  | nil : Accepted []
  | concat {xs : List (Completion Resp)} {x : Completion Resp} : Accepted xs →
      ((clientProtocol Resp).after xs).due = [x.event] → Accepted (xs ++ [x])

namespace Accepted

variable {xs : List (Completion Resp)}

/-- One call for each response, then one last call when the callback is given up. -/
theorem outputs (h : Accepted xs) : ∃ terminal,
    (clientProtocol Resp).outputs xs = callsFor xs ++ terminal ∧
      Closes ((clientProtocol Resp).after xs) terminal := by
  induction h with
  | nil => exact ⟨[], rfl, rfl⟩
  | @concat xs x _ hdue ih =>
    obtain ⟨terminal, houtputs, hcloses⟩ := ih
    have hcallsFor : callsFor (xs ++ [x]) = callsFor xs ++ callsFor [x] := by simp [callsFor]
    rw [Machine.outputs_concat, Machine.after_concat, houtputs, hcallsFor]
    cases hcallback : ((clientProtocol Resp).after xs).callback with
    | true =>
      obtain ⟨terminal', hcalls, hcloses'⟩ := calls_of_callback hdue hcallback
      obtain rfl : terminal = [] := by simpa [Closes, hcallback] using hcloses
      refine ⟨terminal', ?_, hcloses'⟩
      rw [List.append_nil, List.append_assoc]
      exact congrArg _ hcalls
    | false =>
      obtain ⟨hcalls, hnone, hcallback'⟩ := calls_of_no_callback hdue hcallback
      refine ⟨terminal, ?_, ?_⟩
      · rw [hnone, List.append_nil]
        exact (congrArg _ hcalls).trans (List.append_nil _)
      · unfold Closes at hcloses ⊢
        rw [hcallback] at hcloses
        rw [show ((clientProtocol Resp).next _ x).callback = false from hcallback']
        exact hcloses

/-- After the `FINISH` nothing more is due. -/
lemma of_finish (h : Accepted xs) {ok : Bool} {status : Status} (hx : .finish ok status ∈ xs) :
    (clientProtocol Resp).after xs = .ended ∧ ∃ ys callback, xs = ys ++ [.finish ok status] ∧
      Accepted ys ∧ (clientProtocol Resp).after ys = .finishing callback := by
  induction h with
  | nil => cases hx
  | @concat xs x h hdue ih =>
    rcases List.mem_append.mp hx with hx | hx
    · rw [(ih hx).1] at hdue
      cases hdue
    · obtain rfl := (List.mem_singleton.mp hx).symm
      obtain ⟨callback, hstage⟩ :
          ∃ callback, (clientProtocol Resp).after xs = .finishing callback := by
        cases hstage : (clientProtocol Resp).after xs <;> rw [hstage] at hdue <;> cases hdue
        exact ⟨_, rfl⟩
      refine ⟨?_, xs, callback, rfl, h, hstage⟩
      rw [Machine.after_concat, hstage]
      rfl

/-- A client whose write succeeded keeps its callback until the `FINISH`. -/
lemma of_write (h : Accepted xs) (hx : .write true ∈ xs) :
    (clientProtocol Resp).after xs ≠ .writing ∧
      (clientProtocol Resp).after xs ≠ .finishing false := by
  induction h with
  | nil => cases hx
  | @concat xs x _ hdue ih =>
    rw [Machine.after_concat]
    cases hstage : (clientProtocol Resp).after xs with
    | writing =>
      rw [hstage] at ih
      have hx' : x = .write true := by
        rcases List.mem_append.mp hx with hx | hx
        · exact absurd rfl (ih hx).1
        · exact (List.mem_singleton.mp hx).symm
      subst hx'
      simp [clientProtocol, ClientStage.next]
    | reading =>
      rw [hstage] at hdue
      cases x <;> cases hdue
      rename_i response
      cases response <;> simp [clientProtocol, ClientStage.next]
    | finishing callback =>
      rw [hstage] at hdue
      cases x <;> cases hdue
      simp [clientProtocol, ClientStage.next]
    | ended =>
      rw [hstage] at hdue
      cases hdue

end Accepted

/-! ### The client follows the protocol -/

def startOf : ClientInstr → Option ClientEvent
  | .startRead => some .read
  | .startFinish => some .finish
  | _ => none

/-- What an instruction leaves to be done. -/
def returnOf : ClientInstr → Option ClientInstr
  | .callCallback _ _ => some .callbackReturns
  | _ => none

/-- Whether the callback survives the instruction. -/
def keepsCallback (eventOk : ClientEvent → Bool) : ClientInstr → Bool
  | .clearCallback => false
  | .clearCallbackUnlessOk event => eventOk event
  | _ => true

def callOf (response : Resp) : ClientInstr → Option (ClientCall Resp)
  | .callCallback status withResponse =>
    some ⟨status, if withResponse then some response else none⟩
  | _ => none

@[simp]
lemma filterMap_startOf_returnOf (instr : ClientInstr) :
    (returnOf instr).toList.filterMap startOf = [] := by
  cases instr <;> rfl

@[simp]
lemma filterMap_callOf_returnOf (response : Resp) (instr : ClientInstr) :
    (returnOf instr).toList.filterMap (callOf response) = [] := by
  cases instr <;> rfl

@[simp]
lemma all_keepsCallback_returnOf (eventOk : ClientEvent → Bool) (instr : ClientInstr) :
    (returnOf instr).toList.all (keepsCallback eventOk) = true := by
  cases instr <;> rfl

lemma returnOf_eq {instr returns : ClientInstr} (h : returnOf instr = some returns) :
    returns = .callbackReturns ∧ startOf instr = none := by
  cases instr <;> cases h
  exact ⟨rfl, rfl⟩

/-- The rest of the running handler takes the client to where the protocol is after all that was
returned. -/
structure Follows (c : StreamingAsyncClient Resp) : Prop where
  fresh : c.written = false → c.inFlight = [] ∧ c.completed = [] ∧ c.task = [] ∧ c.returned = []
  due : c.written = true → c.inFlight ++ c.completed.map Completion.event ++
    c.task.filterMap startOf = ((clientProtocol Resp).after c.returned).due
  callback : (c.callback && c.task.all (keepsCallback c.eventOk)) =
    ((clientProtocol Resp).after c.returned).callback
  calls : c.calls ++ c.task.filterMap (callOf c.response) =
    (clientProtocol Resp).outputs c.returned
  busy : c.task ≠ [] → c.inFlight = [] ∧ c.completed = []
  startsLast : ∀ instr ∈ c.task.dropLast, startOf instr = none
  response : ∀ r, .read (some r) ∈ c.completed → c.response = r
  accepted : Accepted c.returned
  pending : (c.task.filterMap (callOf c.response)).length ≤ 1

/-- Completing an operation changes nothing of the client but what gRPC stores. -/
lemma store_eq (completion : Completion Resp) (c : StreamingAsyncClient Resp) :
    ∃ response status, c.store completion =
        { c with response := response, finishStatus := status } ∧
      ∀ r, completion = .read (some r) → response = r := by
  rcases completion with ok | (_ | r) | ⟨ok, status⟩
  · exact ⟨_, _, rfl, fun _ hr => by cases hr⟩
  · exact ⟨_, _, rfl, fun _ hr => by cases hr⟩
  · exact ⟨r, _, rfl, fun _ hr => by cases hr; rfl⟩
  · exact ⟨_, status, rfl, fun _ hr => by cases hr⟩

/-- A handler does what the protocol says for its event, and starts an operation only at its
end. -/
structure Handles (stage : ClientStage) (completion : Completion Resp)
    (c : StreamingAsyncClient Resp) (code : List ClientInstr) : Prop where
  due : code.filterMap startOf = (stage.next completion).due
  callback : (c.callback && code.all (keepsCallback c.eventOk)) = (stage.next completion).callback
  calls : code.filterMap (callOf c.response) = stage.calls completion
  startsLast : ∀ instr ∈ code.dropLast, startOf instr = none

lemma handleWriteEvent_spec {c : StreamingAsyncClient Resp} {ok : Bool}
    (hcallback : c.callback = true) (hok : c.eventOk .write = ok) :
    Handles .writing (.write ok) c c.handleWriteEvent := by
  unfold StreamingAsyncClient.handleWriteEvent
  rw [hok, hcallback]
  cases ok
  · exact ⟨rfl, by simp [keepsCallback, ClientStage.next, ClientStage.callback], rfl,
      by simp [startOf]⟩
  · exact ⟨rfl, by simp [hcallback, keepsCallback, ClientStage.next, ClientStage.callback], rfl,
      by simp⟩

lemma handleReadEvent_spec {c : StreamingAsyncClient Resp} {response : Option Resp}
    (hcallback : c.callback = true) (hok : c.eventOk .read = response.isSome)
    (hresponse : ∀ r, response = some r → c.response = r) :
    Handles .reading (.read response) c c.handleReadEvent := by
  unfold StreamingAsyncClient.handleReadEvent
  rw [hok, hcallback]
  cases response with
  | none =>
    exact ⟨rfl, by simp [hcallback, keepsCallback, ClientStage.next, ClientStage.callback], rfl,
      by simp [startOf]⟩
  | some r =>
    have hr := hresponse r rfl
    exact ⟨rfl, by simp [hcallback, hok, keepsCallback, ClientStage.next, ClientStage.callback],
      by rw [hr]; rfl, by simp [startOf]⟩

lemma handleFinishEvent_spec {c : StreamingAsyncClient Resp} {callback ok : Bool} {status : Status}
    (hcallback : c.callback = callback) (hok : c.eventOk .finish = ok) :
    Handles (.finishing callback) (.finish ok status) c c.handleFinishEvent := by
  unfold StreamingAsyncClient.handleFinishEvent
  rw [hok, hcallback]
  cases callback
  · exact ⟨rfl, by simp [hcallback, ClientStage.next, ClientStage.callback], rfl, by simp⟩
  · exact ⟨rfl, by simp [keepsCallback, ClientStage.next, ClientStage.callback], rfl,
      by simp [startOf]⟩

lemma handleEvent_spec {c : StreamingAsyncClient Resp} {stage : ClientStage}
    {completion : Completion Resp} (hdue : stage.due = [completion.event])
    (hcallback : c.callback = stage.callback)
    (hok : c.eventOk completion.event = completion.ok)
    (hresponse : ∀ r, completion = .read (some r) → c.response = r) :
    Handles stage completion c (c.handleEvent completion.event) := by
  cases completion with
  | write ok =>
    obtain rfl : stage = .writing := by
      cases stage <;> cases hdue
      rfl
    exact handleWriteEvent_spec hcallback hok
  | read response =>
    obtain rfl : stage = .reading := by
      cases stage <;> cases hdue
      rfl
    exact handleReadEvent_spec hcallback hok (fun r hr => hresponse r (hr ▸ rfl))
  | finish ok status =>
    obtain ⟨callback, rfl⟩ : ∃ callback, stage = .finishing callback := by
      cases stage <;> cases hdue
      exact ⟨_, rfl⟩
    exact handleFinishEvent_spec hcallback hok

/-- What an instruction does to the client. -/
lemma exec_eq {c c' : StreamingAsyncClient Resp} (hc : c.exec = some c') :
    ∃ instr task status, c.task = instr :: task ∧ c' = { c with
      task := (returnOf instr).toList ++ task
      finishStatus := status
      inFlight := c.inFlight ++ (startOf instr).toList
      callback := c.callback && keepsCallback c.eventOk instr
      calls := c.calls ++ (callOf c.response instr).toList } := by
  simp only [StreamingAsyncClient.exec] at hc
  split at hc
  · cases hc
  rename_i instr task htask
  refine ⟨instr, task, c'.finishStatus, htask, ?_⟩
  cases hc
  cases instr with
  | clearCallbackUnlessOk event =>
    cases hok : c.eventOk event <;> simp [startOf, keepsCallback, callOf, returnOf, hok]
  | _ => simp [startOf, keepsCallback, callOf, returnOf]

namespace Follows

variable {c c' : StreamingAsyncClient Resp}

lemma new (response : Resp) : Follows (.new true response) where
  fresh _ := ⟨rfl, rfl, rfl, rfl⟩
  due hw := by cases hw
  callback := rfl
  calls := rfl
  busy hne := absurd rfl hne
  startsLast := by simp [StreamingAsyncClient.new]
  response := by simp [StreamingAsyncClient.new]
  accepted := .nil
  pending := by simp [StreamingAsyncClient.new]

lemma writeAsync (h : Follows c) (hw : c.written = false) : Follows c.writeAsync := by
  obtain ⟨hflight, hcompleted, htask, hreturned⟩ := h.fresh hw
  refine { h with
    fresh := fun hw' => (by cases hw')
    due := fun _ => ?_
    busy := fun hne => absurd htask hne }
  simp [StreamingAsyncClient.writeAsync, hflight, hcompleted, htask, hreturned]
  rfl

/-- An operation gRPC holds is the only one, and no handler is running. -/
lemma of_inFlight (h : Follows c) {event : ClientEvent} (he : event ∈ c.inFlight) :
    c.written = true ∧ c.inFlight = [event] ∧ c.completed = [] ∧ c.task = [] := by
  have hw : c.written = true := by
    by_contra hw
    rw [(h.fresh (by simpa using hw)).1] at he
    cases he
  have htask : c.task = [] := by
    by_contra hne
    rw [(h.busy hne).1] at he
    cases he
  have hlength := congrArg List.length (h.due hw)
  have hdue := length_due ((clientProtocol Resp).after c.returned)
  simp only [htask, List.filterMap_nil, List.append_nil, List.length_append, List.length_map]
    at hlength
  have hpos := List.length_pos_of_mem he
  obtain ⟨x, hx⟩ := List.length_eq_one_iff.mp (show c.inFlight.length = 1 by omega)
  rw [hx, List.mem_singleton] at he
  exact ⟨hw, he ▸ hx, List.length_eq_zero_iff.mp (by omega), htask⟩

lemma complete (h : Follows c) {completion : Completion Resp}
    (hc : c.complete completion = some c') : Follows c' := by
  simp only [StreamingAsyncClient.complete] at hc
  split at hc
  · rename_i he
    obtain ⟨hw, hflight, hcompleted, htask⟩ := h.of_inFlight he
    obtain ⟨response, status, hstore, hread⟩ := store_eq completion { c with
      inFlight := c.inFlight.erase completion.event, completed := c.completed ++ [completion] }
    rw [hstore] at hc
    cases hc
    have hdue := h.due hw
    have hcalls := h.calls
    refine ⟨fun hw' => absurd hw (by simpa using hw'), fun _ => ?_, h.callback, ?_,
      fun hne => absurd htask hne, h.startsLast, fun r hr => ?_, h.accepted, by simp [htask]⟩
    · rw [hflight, hcompleted, htask] at hdue
      simpa [hflight, hcompleted, htask] using hdue
    · rw [htask] at hcalls
      simpa [htask] using hcalls
    · rw [hcompleted] at hr
      exact hread r (List.mem_singleton.mp hr).symm
  · cases hc

/-- A handler starts when its operation was the only one. -/
lemma of_completed (h : Follows c) {completion : Completion Resp}
    {completed : List (Completion Resp)} (hc : c.completed = completion :: completed) :
    c.written = true ∧ c.inFlight = [] ∧ completed = [] ∧ c.task = [] ∧
      ((clientProtocol Resp).after c.returned).due = [completion.event] := by
  have hw : c.written = true := by
    by_contra hw
    rw [(h.fresh (by simpa using hw)).2.1] at hc
    cases hc
  have htask : c.task = [] := by
    by_contra hne
    rw [(h.busy hne).2] at hc
    cases hc
  have hdue := h.due hw
  have hlength := congrArg List.length hdue
  have hle := length_due ((clientProtocol Resp).after c.returned)
  simp only [hc, htask, List.filterMap_nil, List.append_nil, List.length_append, List.length_map,
    List.length_cons] at hlength
  have hflight : c.inFlight = [] := List.length_eq_zero_iff.mp (by omega)
  have hrest : completed = [] := List.length_eq_zero_iff.mp (by omega)
  refine ⟨hw, hflight, hrest, htask, ?_⟩
  rw [← hdue, hc, hflight, hrest, htask]
  rfl

lemma next (h : Follows c) (hc : c.next = some c') : Follows c' := by
  simp only [StreamingAsyncClient.next] at hc
  split at hc
  · rename_i completion completed htask hcompleted
    obtain ⟨hw, hflight, hrest, -, hstage⟩ := h.of_completed hcompleted
    have hcallback := h.callback
    have hcalls := h.calls
    rw [htask] at hcallback hcalls
    simp only [List.all_nil, Bool.and_true, List.filterMap_nil, List.append_nil]
      at hcallback hcalls
    have hafter := (clientProtocol Resp).after_concat c.returned completion
    have houtputs := (clientProtocol Resp).outputs_concat c.returned completion
    rw [← hcalls] at houtputs
    cases hc
    have hhandler := handleEvent_spec (c := { c with
        completed := completed
        returned := c.returned ++ [completion]
        eventOk := Function.update c.eventOk completion.event completion.ok })
      hstage hcallback (Function.update_self ..)
      (fun r hr => h.response r (by simp [hcompleted, hr]))
    refine ⟨fun hw' => absurd hw (by simpa using hw'), fun _ => ?_, ?_, ?_,
      fun _ => ⟨hflight, hrest⟩, hhandler.startsLast, fun r hr => ?_, h.accepted.concat hstage,
      hhandler.calls ▸ length_calls _ _⟩
    · rw [hafter]
      refine Eq.trans ?_ hhandler.due
      simp [hflight, hrest]
    · rw [hafter]
      exact hhandler.callback
    · exact (congrArg (c.calls ++ ·) hhandler.calls).trans houtputs.symm
    · simp [hrest] at hr
  · cases hc

/-- What an instruction calls, starts or clears is no longer ahead. -/
lemma exec (h : Follows c) (hc : c.exec = some c') : Follows c' := by
  obtain ⟨instr, task, status, htask, rfl⟩ := exec_eq hc
  obtain ⟨hflight, hcompleted⟩ := h.busy (by simp [htask])
  have hw : c.written = true := by
    by_contra hw
    rw [(h.fresh (by simpa using hw)).2.2.1] at htask
    cases htask
  have hdue := h.due hw
  have hcallback := h.callback
  have hcalls := h.calls
  have hlast := h.startsLast
  rw [htask] at hdue hcallback hcalls hlast
  refine ⟨fun hw' => absurd hw (by simpa using hw'), fun _ => ?_, ?_, ?_,
    fun hne => ⟨?_, hcompleted⟩, ?_, h.response, h.accepted, ?_⟩
  · rw [← hdue]
    cases hstart : startOf instr <;> simp [hcompleted, hstart]
  · rw [← hcallback]
    simp [Bool.and_assoc]
  · rw [← hcalls]
    cases hcall : callOf c.response instr <;> simp [hcall]
  · cases hreturn : returnOf instr with
    | none =>
      have hne' : task ≠ [] := by simpa [hreturn] using hne
      have hstart := hlast instr (by simp [List.dropLast_cons_of_ne_nil hne'])
      simp [hflight, hstart]
    | some returns => simp [hflight, (returnOf_eq hreturn).2]
  · intro i hi
    have hrest : ∀ i ∈ task.dropLast, startOf i = none := fun i hi => hlast i (by
      have hne' : task ≠ [] := fun hnil => by simp [hnil] at hi
      rw [List.dropLast_cons_of_ne_nil hne']
      exact List.mem_cons_of_mem _ hi)
    cases hreturn : returnOf instr with
    | none => exact hrest i (by simpa [hreturn] using hi)
    | some returns =>
      rw [(returnOf_eq hreturn).1] at hreturn
      by_cases hnil : task = []
      · simp [hreturn, hnil] at hi
      · simp only [hreturn, Option.toList_some, List.singleton_append,
          List.dropLast_cons_of_ne_nil hnil, List.mem_cons] at hi
        rcases hi with rfl | hi
        · rfl
        · exact hrest i hi
  · have hpending := h.pending
    rw [htask, List.filterMap_cons] at hpending
    rw [List.filterMap_append, filterMap_callOf_returnOf, List.nil_append]
    split at hpending
    · exact hpending
    · exact Nat.le_trans (Nat.le_succ _) hpending

end Follows

theorem reachable_follows {c : StreamingAsyncClient Resp}
    (hc : (streamingAsyncClient Resp).Reachable c) : Follows c := by
  refine hc.invariant ?_ ?_
  · rintro c ⟨response, rfl⟩
    exact .new response
  · intro c l c' _ h _ hstep
    cases l with
    | writeAsync =>
      simp only [streamingAsyncClient] at hstep
      split at hstep
      · cases hstep
      · rename_i hw
        cases hstep
        exact h.writeAsync (by simpa using hw)
    | complete completion => exact h.complete hstep
    | next => exact h.next hstep
    | exec => exact h.exec hstep

/-- The callbacks of a streaming client in every run: one call for each successful read, in the
order of arrival, then at most one call without a response, which has been made once the `FINISH`
is handled. No operation is outstanding while a handler runs its callback, and there are never
two. The call of the handler that is running may still be `pending`. -/
theorem streaming_callbacks {c : StreamingAsyncClient Resp}
    (hc : (streamingAsyncClient Resp).Reachable c) :
    c.inFlight.length + c.completed.length ≤ 1 ∧
      (∃ pending terminal : List (ClientCall Resp),
        c.calls ++ pending = callsFor c.returned ++ terminal ∧
        pending.length ≤ 1 ∧ (c.task = [] → pending = []) ∧
        terminal.length ≤ 1 ∧ (∀ t ∈ terminal, t.response = none) ∧
        (∀ ok status, .finish ok status ∈ c.returned → terminal.length = 1)) ∧
      (c.InCallback → c.inFlight = [] ∧ c.completed = []) := by
  have h := reachable_follows hc
  refine ⟨?_, ?_, fun hcallback => h.busy fun hnil => ?_⟩
  · cases hw : c.written with
    | false => simp [(h.fresh hw).1, (h.fresh hw).2.1]
    | true =>
      have hlength := congrArg List.length (h.due hw)
      have hdue := length_due ((clientProtocol Resp).after c.returned)
      simp only [List.length_append, List.length_map] at hlength
      omega
  · obtain ⟨terminal, houtputs, hcloses⟩ := h.accepted.outputs
    refine ⟨_, terminal, h.calls.trans houtputs, h.pending, fun hnil => by simp [hnil], ?_⟩
    unfold Closes at hcloses
    split at hcloses
    · rename_i hcallback
      subst hcloses
      refine ⟨Nat.zero_le _, fun t ht => absurd ht List.not_mem_nil, fun ok status hf => ?_⟩
      rw [(h.accepted.of_finish hf).1] at hcallback
      cases hcallback
    · obtain ⟨status, rfl⟩ := hcloses
      exact ⟨Nat.le_refl _, fun t ht => by rw [List.mem_singleton.mp ht], fun _ _ _ => rfl⟩
  · rw [StreamingAsyncClient.InCallback, hnil] at hcallback
    cases hcallback

/-- The labels of a client that receives some responses and a status. -/
def clientRun (responses : List Resp) (status : Status) : List (ClientLabel Resp) :=
  [.writeAsync, .complete (.write true), .next, .exec] ++
    responses.flatMap (fun response =>
      [.complete (.read (some response)), .next, .exec, .exec, .exec, .exec]) ++
    [.complete (.read none), .next, .exec, .exec, .complete (.finish true status), .next, .exec,
      .exec, .exec]

lemma exists_clientRun (p : StreamingAsyncClient Nat → Bool) (labels : List (ClientLabel Nat))
    (h : ((streamingAsyncClient Nat).run (fun _ _ => true) (.new true 0) labels).any p = true) :
    ∃ c, (streamingAsyncClient Nat).Reachable c ∧ p c = true :=
  System.exists_reach_of_run (fun _ _ _ => trivial) (.init ⟨0, rfl⟩) h

/-- Two responses and the end of the call. -/
theorem streaming_callbacks_of_run :
    ∃ c, (streamingAsyncClient Nat).Reachable c ∧
      c.calls = [⟨.ok, some 4⟩, ⟨.ok, some 7⟩, ⟨.ok, none⟩] ∧
      c.inFlight.length + c.completed.length ≤ 1 := by
  obtain ⟨c, hc, hp⟩ := exists_clientRun (fun c => decide (c.calls =
    [⟨.ok, some 4⟩, ⟨.ok, some 7⟩, ⟨.ok, none⟩])) (clientRun [4, 7] .ok) (by decide +kernel)
  exact ⟨c, hc, of_decide_eq_true hp, (streaming_callbacks hc).1⟩

/-- When the write and the `FINISH` succeed, the last callback reports `OK`. -/
lemma outputs_of_finish {xs : List (Completion Resp)} {status : Status} (h : Accepted xs)
    (hwrite : .write true ∈ xs) (hfinish : .finish true status ∈ xs) :
    (clientProtocol Resp).outputs xs = callsFor xs ++ [⟨.ok, none⟩] := by
  obtain ⟨-, ys, callback, rfl, hys, hstage⟩ := h.of_finish hfinish
  have hwrite' : .write true ∈ ys := by simpa using hwrite
  obtain rfl : callback = true := by
    have hne := (hys.of_write hwrite').2
    rw [hstage] at hne
    cases callback
    · exact absurd rfl hne
    · rfl
  obtain ⟨terminal, houtputs, hcloses⟩ := hys.outputs
  obtain rfl : terminal = [] := by simpa [hstage, Closes, ClientStage.callback] using hcloses
  rw [Machine.outputs_concat, houtputs, hstage, List.append_nil]
  simp [callsFor, Completion.response, clientProtocol, ClientStage.calls]

/-- When the write and the `FINISH` succeed, the last callback of a handled call reports the
status of the call if and only if that status is `OK`. -/
theorem terminal_status_iff {c : StreamingAsyncClient Resp} {status : Status}
    (hc : (streamingAsyncClient Resp).Reachable c) (hwrite : .write true ∈ c.returned)
    (hfinish : .finish true status ∈ c.returned) (htask : c.task = []) :
    (∃ t ∈ c.calls, t.response = none) ∧
      ((∀ t ∈ c.calls, t.response = none → t.status = status) ↔ status = .ok) := by
  have h := reachable_follows hc
  have hcalls : c.calls = callsFor c.returned ++ [⟨.ok, none⟩] := by
    rw [← outputs_of_finish h.accepted hwrite hfinish, ← h.calls, htask]
    simp
  rw [hcalls]
  refine ⟨⟨⟨.ok, none⟩, by simp, rfl⟩, fun hall => ?_, ?_⟩
  · exact (hall ⟨.ok, none⟩ (by simp) rfl).symm
  · rintro rfl t ht hnone
    rcases List.mem_append.mp ht with ht | ht
    · obtain ⟨response, -, rfl⟩ := List.mem_map.mp ht
      cases hnone
    · rw [List.mem_singleton.mp ht]

theorem terminal_status_of_run :
    ∃ c, (streamingAsyncClient Nat).Reachable c ∧ .finish true .ok ∈ c.returned ∧
      ∀ t ∈ c.calls, t.response = none → t.status = .ok := by
  obtain ⟨c, hc, hp⟩ := exists_clientRun (fun c => decide (.write true ∈ c.returned ∧
    .finish true .ok ∈ c.returned ∧ c.task = [])) (clientRun [4] .ok) (by decide +kernel)
  obtain ⟨hwrite, hfinish, htask⟩ := of_decide_eq_true hp
  exact ⟨c, hc, hfinish, (terminal_status_iff hc hwrite hfinish htask).2.mpr rfl⟩

/-- The server ends the call with an error after one response, and the last callback says `OK`. -/
theorem error_reported_as_ok :
    ∃ c, (streamingAsyncClient Nat).Reachable c ∧ .write true ∈ c.returned ∧
      .finish true ⟨.unavailable, "gone"⟩ ∈ c.returned ∧ c.task = [] ∧
      c.finishStatus = ⟨.unavailable, "gone"⟩ ∧ c.calls = [⟨.ok, some 4⟩, ⟨.ok, none⟩] := by
  obtain ⟨c, hc, hp⟩ := exists_clientRun (fun c => decide (.write true ∈ c.returned ∧
    .finish true ⟨.unavailable, "gone"⟩ ∈ c.returned ∧ c.task = [] ∧
    c.finishStatus = ⟨.unavailable, "gone"⟩ ∧ c.calls = [⟨.ok, some 4⟩, ⟨.ok, none⟩]))
    (clientRun [4] ⟨.unavailable, "gone"⟩) (by decide +kernel)
  exact ⟨c, hc, of_decide_eq_true hp⟩

/-! ### The unary client -/

/-- There is one operation in all, and its handler makes the only call. -/
structure UnaryFollows (c : UnaryAsyncClient Resp) : Prop where
  callback : c.callback = true
  started : c.inFlight + c.completed + c.calls.length = c.written.toNat
  ended : c.completed + c.calls.length = c.final.isSome.toNat
  final : 0 < c.completed → c.final = some (c.status, c.response)
  calls : ∀ t ∈ c.calls, ∃ status response, c.final = some (status, response) ∧
    t = ⟨status, if status.isOk then some response else none⟩

namespace UnaryFollows

variable {c c' : UnaryAsyncClient Resp}

lemma writeAsync (h : UnaryFollows c) (hw : c.written = false) : UnaryFollows c.writeAsync := by
  have hstarted := h.started
  refine { h with started := ?_ }
  simp only [hw, Bool.toNat_false, UnaryAsyncClient.writeAsync, Bool.toNat_true] at hstarted ⊢
  omega

lemma complete (h : UnaryFollows c) {status : Status} {response : Resp}
    (hc : c.complete status response = some c') : UnaryFollows c' := by
  have hstarted := h.started
  have hwritten := c.written.toNat_le
  simp only [UnaryAsyncClient.complete] at hc
  split at hc
  · cases hc
    have hnil : c.calls = [] := List.length_eq_zero_iff.mp (by omega)
    refine ⟨h.callback, ?_, ?_, fun _ => rfl, fun t ht => by simp [hnil] at ht⟩
    · simp only
      omega
    · simp only [hnil, List.length_nil, Option.isSome_some, Bool.toNat_true]
      omega
  · cases hc

lemma next (h : UnaryFollows c) (hc : c.next = some c') : UnaryFollows c' := by
  have hstarted := h.started
  have hended := h.ended
  have hwritten := c.written.toNat_le
  simp only [UnaryAsyncClient.next, UnaryAsyncClient.handleFinishEvent, h.callback, if_true] at hc
  split at hc
  · rename_i hcompleted
    cases hc
    have hnil : c.calls = [] := List.length_eq_zero_iff.mp (by omega)
    refine ⟨rfl, ?_, ?_, fun hpos => ?_, fun t ht => ?_⟩
    · simp only [hnil, List.nil_append, List.length_singleton]
      omega
    · simp only [hnil, List.nil_append, List.length_singleton]
      omega
    · simp only at hpos
      omega
    · rw [hnil, List.nil_append, List.mem_singleton] at ht
      exact ⟨c.status, c.response, h.final hcompleted, ht⟩
  · cases hc

end UnaryFollows

lemma reachable_unaryFollows {c : UnaryAsyncClient Resp}
    (hc : (unaryAsyncClient Resp).Reachable c) : UnaryFollows c := by
  refine hc.invariant ?_ ?_
  · rintro c ⟨response, rfl⟩
    exact ⟨rfl, rfl, rfl, fun h => absurd h (Nat.lt_irrefl 0),
      fun t ht => absurd ht List.not_mem_nil⟩
  · intro c l c' _ h _ hstep
    cases l with
    | writeAsync =>
      simp only [unaryAsyncClient] at hstep
      split at hstep
      · cases hstep
      · rename_i hw
        cases hstep
        exact h.writeAsync (by simpa using hw)
    | complete status response => exact h.complete hstep
    | next => exact h.next hstep

/-- The unary client calls its callback with the status that gRPC stored. -/
theorem unary_callback {c : UnaryAsyncClient Resp} {status : Status} {response : Resp}
    (hc : (unaryAsyncClient Resp).Reachable c) (hfinal : c.final = some (status, response))
    (hhandled : c.completed = 0) :
    c.calls = [⟨status, if status.isOk then some response else none⟩] := by
  have h := reachable_unaryFollows hc
  have hended := h.ended
  rw [hfinal, hhandled, Nat.zero_add] at hended
  obtain ⟨t, ht⟩ := List.length_eq_one_iff.mp hended
  obtain ⟨status', response', hfinal', rfl⟩ := h.calls t (by simp [ht])
  rw [hfinal] at hfinal'
  cases hfinal'
  exact ht

end AsyncGrpc.Proofs
