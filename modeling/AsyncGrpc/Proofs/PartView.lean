import AsyncGrpc.Part
import AsyncGrpc.Proofs.Startup

/-!
# Every `Rpc` runs as a part

Every step of the server is a step of the part of an `Rpc` or leaves the part as it is. Laws
proved for all runs of a part therefore hold of every `Rpc` of the server, for any number of
event threads and in whatever company it runs.
-/

namespace AsyncGrpc.Proofs

open Function Transition

variable {Req Resp : Type} {options : Options} {maps : List (List (String × RpcHandlerInfo))}

lemma handler_mail (e : QueuedEvent) : (Server.handler e : Instr Resp) = e.mail.handler := by
  cases e <;> rfl

lemma part_surroundings (s : Server Req Resp) (r : Nat) :
    (s.part r).surroundings = s.surroundings r := by
  have hshared : ((s.part r).code (s.part r).rpc.eventQueue).any Instr.isReleaseShared =
      s.sharedByTask r := by
    simp only [Server.part, Server.sharedByTask]
    by_cases h : (s.tasks (s.rpcs r).eventQueue).rpc = r <;> simp [h]
  simp only [Part.surroundings, Part.alive, Server.surroundings, Server.alive, hshared]
  rfl

/-! ### How the updates of the server look to a part -/

section Updates

variable (s : Server Req Resp) {r : Nat}

lemma part_setRpc_self {x : Rpc Req Resp} (h : SamePlace (s.rpcs r) x) :
    (s.setRpc r x).part r = { s.part r with rpc := x } := by
  simp [Server.part, Server.setRpc, Server.active, h.service, h.serverCompletionQueue]
  rfl

lemma part_setRpc_ne {r' : Nat} (h : r ≠ r') (x : Rpc Req Resp) :
    (s.setRpc r' x).part r = s.part r := by
  simp [Server.part, Server.setRpc, Server.active, h]
  rfl

lemma part_setTask (t : Nat) (task : Task Resp) : (s.setTask t task).part r =
    { s.part r with
      code := update (s.part r).code t (if task.rpc = r then task.code else []) } := by
  have hcode : ((s.setTask t task).part r).code =
      update (s.part r).code t (if task.rpc = r then task.code else []) := by
    funext t'
    by_cases h : t' = t
    · subst h
      simp [Server.part, Server.setTask]
    · simp [Server.part, Server.setTask, h]
  rw [← hcode]
  rfl

lemma part_setInHand (cq : Nat) (tag : Option (Nat × Tag × Bool)) : (s.setInHand cq tag).part r =
    if cq = (s.rpcs r).serverCompletionQueue then
      { s.part r with inHand := tag.bind (fun p => if p.1 = r then some p.2 else none) }
    else s.part r := by
  by_cases h : cq = (s.rpcs r).serverCompletionQueue
  · subst h
    simp only [Server.part, Server.setInHand, update_self, if_true]
    rfl
  · simp only [Server.part, Server.setInHand, update_of_ne (Ne.symm h), if_neg h]
    rfl

lemma part_setEventQueue (q : Nat) (events : List QueuedEvent) :
    (s.setEventQueue q events).part r =
      { s.part r with
        mailbox := update (s.part r).mailbox q
          ((events.filter (fun e => e.rpc = r)).map QueuedEvent.mail) } := by
  have hmail : ((s.setEventQueue q events).part r).mailbox =
      update (s.part r).mailbox q ((events.filter (fun e => e.rpc = r)).map QueuedEvent.mail) := by
    funext t
    by_cases h : t = q
    · subst h
      simp [Server.part, Server.setEventQueue]
    · simp [Server.part, Server.setEventQueue, h]
  rw [← hmail]
  rfl

lemma part_push_self (q : Nat) (e : QueuedEvent) (he : e.rpc = r) :
    (s.push q e).part r = (s.part r).push q e.mail := by
  rw [Server.push, part_setEventQueue]
  simp [Part.push, Server.part, List.filter_append, he]

lemma part_push_ne (q : Nat) (e : QueuedEvent) (he : e.rpc ≠ r) :
    (s.push q e).part r = s.part r := by
  have hsame : ((s.eventQueues q ++ [e]).filter (fun e => e.rpc = r)).map QueuedEvent.mail =
      (s.part r).mailbox q := by
    simp [Server.part, List.filter_append, he]
  rw [Server.push, part_setEventQueue, hsame, update_eq_self]

lemma part_setWriters_self (calls : List (WriterCall Resp)) :
    (s.setWriters r calls).part r = { s.part r with writers := calls } := by
  simp only [Server.part, Server.setWriters, update_self]
  rfl

lemma part_setWriters_ne {r' : Nat} (h : r ≠ r') (calls : List (WriterCall Resp)) :
    (s.setWriters r' calls).part r = s.part r := by
  simp only [Server.part, Server.setWriters, update_of_ne h]
  rfl

lemma part_stopServing (v : Nat) : (s.stopServing v).part r =
    if v = (s.rpcs r).service then { s.part r with shuttingDown := true } else s.part r := by
  by_cases h : v = (s.rpcs r).service
  · subst h
    simp only [Server.part, Server.stopServing, Server.active, update_self, if_true]
    rfl
  · simp only [Server.part, Server.stopServing, Server.active, update_of_ne (Ne.symm h), if_neg h]
    rfl

lemma part_removeRpc_self : (s.removeRpc r).part r = { s.part r with active := false } := by
  have h : (s.removeRpc r).active r = false := by
    simp [Server.removeRpc, Server.setActive, Server.active]
  simp only [Server.part, h]
  simp only [Server.removeRpc, Server.setActive, update_self]
  rfl

lemma part_removeRpc_ne {r' : Nat} (h : r ≠ r') : (s.removeRpc r').part r = s.part r := by
  have hactive : (s.removeRpc r').active r = s.active r := by
    simp only [Server.removeRpc, Server.setActive, Server.active, update_apply]
    split
    · rename_i hv
      simp [hv, h]
    · rfl
  have hshut : ((s.removeRpc r').services (s.rpcs r).service).shuttingDown =
      (s.services (s.rpcs r).service).shuttingDown := apply_shuttingDown s r' .remove _
  simp only [Server.part, hactive, ← hshut]
  rfl

lemma part_addRpc_old (x : Rpc Req Resp) (hr : r < s.nextRpc) : (s.addRpc x).part r = s.part r := by
  have hne : r ≠ s.nextRpc := by omega
  have hactive : (s.addRpc x).active r = s.active r := by
    simp only [Server.active, addRpc_rpcs_old s x hr, addRpc_activeRpcs, hne, false_and, or_false]
  have hshut : ((s.addRpc x).services (s.rpcs r).service).shuttingDown =
      (s.services (s.rpcs r).service).shuttingDown := by
    simp only [Server.addRpc, Server.setActive, Server.setRpc, update_apply]
    split <;> simp_all
  simp only [Server.part, hactive, addRpc_rpcs_old s x hr, hshut]
  rfl

lemma part_apply_ne {r' : Nat} (h : r ≠ r') (hr : r < s.nextRpc) (effect : Effect) :
    (s.apply r' effect).part r = s.part r := by
  cases effect with
  | none => rfl
  | pushWriteNeeded => exact part_push_ne s _ (.internal r') (Ne.symm h)
  | remove => exact part_removeRpc_ne s h
  | clone => exact part_addRpc_old s _ hr

lemma part_apply_self (hr : r < s.nextRpc) (effect : Effect) :
    (s.apply r effect).part r = (s.part r).apply effect := by
  cases effect with
  | none => rfl
  | pushWriteNeeded => exact part_push_self s _ (.internal r) rfl
  | remove => exact part_removeRpc_self s
  | clone => exact part_addRpc_old s _ hr

end Updates

/-! ### Steps of the server as steps of a part -/

section Steps

variable {s : Server Req Resp} {r : Nat}

/-- The part takes the step the label stands for, or nothing happens to it. -/
def PartMoves (s : Server Req Resp) (r : Nat) (l : Label Req Resp) (s' : Server Req Resp) : Prop :=
  s'.part r = s.part r ∨ ∃ m, l.part s r = some m ∧ (s.part r).step m = some (s'.part r)

lemma next_part {r' cq : Nat} {tag : Tag} {ok : Bool} {request : Option Req}
    (hhand : s.inHand cq = none) (hplace : (s.rpcs r').serverCompletionQueue = cq)
    (hmay : (s.rpcs r').mayReturn tag ok request = true) :
    PartMoves s r (.next cq r' tag ok request)
      ((s.setRpc r' ((s.rpcs r').returnTag tag ok request)).setInHand cq (some (r', tag, ok))) := by
  subst hplace
  by_cases he : r' = r
  · subst he
    have hin : (s.part r').inHand = none := by simp [Server.part, hhand]
    refine .inr ⟨.next tag ok request, by simp [Label.part], ?_⟩
    rw [part_setInHand, part_setRpc_self s (returnTag_samePlace _ _ _ _),
      if_pos (by simp [Server.setRpc, Rpc.returnTag])]
    simp only [Part.step, hin, true_and]
    rw [if_pos (by exact hmay)]
    simp [Server.part]
  · left
    rw [part_setInHand, part_setRpc_ne s (Ne.symm he)]
    split
    · rename_i hcq
      have hin : (s.part r).inHand = none := by
        simp only [Server.setRpc, update_of_ne (Ne.symm he)] at hcq
        simp [Server.part, ← hcq, hhand]
      simp [he, ← hin]
    · rfl

lemma pushToEventQueue_part (hh : Housed s) {r' cq : Nat} {tag : Tag} {ok : Bool}
    (hhand : s.inHand cq = some (r', tag, ok)) :
    PartMoves s r (.pushToEventQueue cq)
      (((s.setRpc r' ((s.rpcs r').setOk tag ok)).setInHand cq none).push
        ((s.rpcs r').event tag).eventQueue (.completion r' tag)) := by
  have hplace := (hh.inHand _ _ _ _ hhand).2
  subst hplace
  by_cases he : r' = r
  · subst he
    have hin : (s.part r').inHand = some (tag, ok) := by simp [Server.part, hhand]
    refine .inr ⟨.pushToEventQueue, by simp [Label.part, hhand], ?_⟩
    rw [part_push_self (r := r') _ _ (.completion r' tag) rfl, part_setInHand,
      if_pos (by simp [Server.setRpc, Rpc.setOk]), part_setRpc_self s (setOk_samePlace _ _ _)]
    simp only [Part.step, hin, Option.map_some]
    rfl
  · left
    rw [part_push_ne _ _ (.completion r' tag) he, part_setInHand, part_setRpc_ne s (Ne.symm he)]
    split
    · rename_i hcq
      have hin : (s.part r).inHand = none := by
        simp only [Server.setRpc, update_of_ne (Ne.symm he)] at hcq
        simp [Server.part, ← hcq, hhand, he]
      simp [← hin]
    · rfl

lemma pop_part {t : Nat} {e : QueuedEvent} {rest : List QueuedEvent}
    (hidle : (s.tasks t).code = []) (hqueue : s.eventQueues t = e :: rest) :
    PartMoves s r (.pop t) ((s.setEventQueue t rest).setTask t ⟨e.rpc, [Server.handler e]⟩) := by
  have hmail : (s.part r).mailbox t =
      ((e :: rest).filter (fun e => e.rpc = r)).map QueuedEvent.mail := by
    simp only [Server.part, hqueue]
  have hcode : (s.part r).code t = [] := by
    simp [Server.part, hidle]
  rw [PartMoves, part_setTask, part_setEventQueue]
  by_cases he : e.rpc = r
  · refine .inr ⟨.pop t, by simp [Label.part, hqueue, he], ?_⟩
    simp only [List.filter_cons, he, decide_true, if_true, List.map_cons] at hmail ⊢
    simp only [Part.step, hcode, hmail, handler_mail]
  · left
    simp only [List.filter_cons, he, decide_false, Bool.false_eq_true, if_false] at hmail ⊢
    rw [← hmail, update_eq_self, ← hcode, update_eq_self]

lemma exec_part (hr : r < s.nextRpc) {t r' : Nat} {acts : List (HandlerAction Resp)}
    {i : Instr Resp} {rest : List (Instr Resp)} {o : Outcome Req Resp}
    (htask : s.tasks t = ⟨r', i :: rest⟩)
    (hrun : i.run (s.surroundings r') acts (s.rpcs r') = some o) :
    PartMoves s r (.exec t acts)
      (((s.setRpc r' o.rpc).setTask t ⟨r', o.next ++ rest⟩).apply r' o.effect) := by
  by_cases he : r' = r
  · subst he
    have hcode : (s.part r').code t = i :: rest := by simp [Server.part, htask]
    refine .inr ⟨.exec t acts, by simp [Label.part, htask], ?_⟩
    rw [part_apply_self _ (by exact hr), part_setTask, part_setRpc_self s (run_samePlace hrun)]
    simp only [Part.step, hcode, part_surroundings]
    rw [show (s.part r').rpc = s.rpcs r' from rfl, hrun]
    simp
  · left
    have hcode : (s.part r).code t = [] := by simp [Server.part, htask, he]
    rw [part_apply_ne _ (Ne.symm he) (by exact hr), part_setTask, part_setRpc_ne s (Ne.symm he),
      if_neg he, ← hcode, update_eq_self]

lemma stepWriter_part (hr : r < s.nextRpc) {r' i : Nat} {w w' : WriterCall Resp} {x : Rpc Req Resp}
    {effect : Effect} (hw : (s.writers r')[i]? = some w) (hret : w.isReturned = false)
    (hstep : w.step (s.surroundings r') (s.rpcs r') = some (x, w', effect)) :
    PartMoves s r (.stepWriter r' i)
      (((s.setRpc r' x).setWriters r' ((s.writers r').set i w')).apply r' effect) := by
  by_cases he : r' = r
  · subst he
    refine .inr ⟨.stepWriter i, by simp [Label.part], ?_⟩
    rw [part_apply_self _ (by exact hr), part_setWriters_self,
      part_setRpc_self s (writerStep_samePlace hstep)]
    simp only [Part.step, part_surroundings]
    rw [show (s.part r').writers = s.writers r' from rfl,
      show (s.part r').rpc = s.rpcs r' from rfl, hw]
    simp [hret, hstep]
  · left
    rw [part_apply_ne _ (Ne.symm he) (by exact hr), part_setWriters_ne _ (Ne.symm he),
      part_setRpc_ne s (Ne.symm he)]

/-- Every step of the server is a step of a part or leaves the part as it is. -/
theorem moves_part {s' : Server Req Resp} {l : Label Req Resp} (h : Moves s l s') (hh : Housed s)
    (hr : r < s.nextRpc) : PartMoves s r l s' := by
  cases h with
  | next _ hhand _ hplace hmay => exact next_part hhand hplace hmay
  | pushToEventQueue hhand => exact pushToEventQueue_part hh hhand
  | pop hidle hqueue _ => exact pop_part hidle hqueue
  | exec htask hrun => exact exec_part hr htask hrun
  | execFault _ _ | writerFault _ _ _ => exact .inl rfl
  | @callWriter r' method _ hwriter =>
    by_cases he : r' = r
    · subst he
      refine .inr ⟨.callWriter method, by simp [Label.part], ?_⟩
      rw [part_setWriters_self]
      simp only [Part.step]
      rw [if_pos (by exact hwriter)]
      rfl
    · exact .inl (part_setWriters_ne s (Ne.symm he) _)
  | stepWriter hw hret hstep => exact stepWriter_part hr hw hret hstep
  | @stopServing v =>
    rw [PartMoves, part_stopServing]
    split
    · rename_i hv
      exact .inr ⟨.stopServing, by simp [Label.part, hv], rfl⟩
    · exact .inl rfl

end Steps

/-! ### Births of parts -/

/-- Nothing on the server names a new `Rpc`, so that its part starts from scratch. -/
lemma part_addRpc_new {s : Server Req Resp} (hh : Housed s) (x : Rpc Req Resp) :
    (s.addRpc x).part s.nextRpc =
      Part.listening x (s.services x.service).shuttingDown := by
  have hrpc := addRpc_rpcs_new s x
  have hsame := requestNextMethodInvocation_samePlace x
  have hactive : (s.addRpc x).active s.nextRpc = true := by
    simp [Server.active, hrpc, addRpc_activeRpcs, hsame.service]
  have hshut : ((s.addRpc x).services x.service).shuttingDown =
      (s.services x.service).shuttingDown := by
    simp [Server.addRpc, Server.setActive, Server.setRpc]
  have hin : ((s.addRpc x).inHand x.serverCompletionQueue).bind
      (fun p => if p.1 = s.nextRpc then some p.2 else none) = none := by
    rw [Option.bind_eq_none_iff]
    rintro ⟨r, tag, ok⟩ hp
    exact if_neg (hh.inHand _ r tag ok hp).1.ne
  have hmail : ∀ t, ((s.addRpc x).eventQueues t).filter (fun e => e.rpc = s.nextRpc) = [] := by
    intro t
    rw [List.filter_eq_nil_iff]
    intro e he
    simpa using (hh.queues t e he).1.ne
  have hcode : ∀ t, (if ((s.addRpc x).tasks t).rpc = s.nextRpc then
      ((s.addRpc x).tasks t).code else []) = [] := by
    intro t
    rw [ite_eq_right_iff]
    intro he
    by_contra hc
    exact (hh.tasks t hc).1.ne he
  have hwriters : (s.addRpc x).writers s.nextRpc = [] := by
    by_contra hc
    exact (hh.writers _ hc).ne rfl
  simp only [Server.part, hrpc, hactive, hsame.service, hsame.serverCompletionQueue, hshut, hin,
    hmail, hcode, hwriters]
  rfl

lemma start_part {r : Nat} (hr : r < (Server.start options maps : Server Req Resp).nextRpc) :
    (partSystem Req Resp).init ((Server.start options maps : Server Req Resp).part r) := by
  have hall : Quiet (Server.start options maps : Server Req Resp) ∧
      Housed (Server.start options maps : Server Req Resp) ∧
      ∀ r < (Server.start options maps : Server Req Resp).nextRpc,
        (partSystem Req Resp).init ((Server.start options maps : Server Req Resp).part r) := by
    apply start_induction (P := fun s : Server Req Resp => Quiet s ∧ Housed s ∧
      ∀ r < s.nextRpc, (partSystem Req Resp).init (s.part r))
    · exact ⟨new_quiet, new_housed, fun r hr => absurd hr (Nat.not_lt_zero r)⟩
    · intro s v i cq info _ _ ⟨hq, hh, ih⟩
      refine ⟨hq.addRpc _, hq.addRpc_housed hh _, fun r hr => ?_⟩
      rcases Nat.lt_succ_iff_lt_or_eq.mp hr with hr | rfl
      · rw [part_addRpc_old _ _ hr]
        exact ih r hr
      · rw [part_addRpc_new hh]
        exact ⟨i, cq, s.nextEventQueue, info, v, none, s.nextEventQueue, _, rfl⟩
  exact hall.2.2 r hr

lemma Housed.setTask {s : Server Req Resp} (hh : Housed s) {t : Nat} (hc : (s.tasks t).code ≠ [])
    (code : List (Instr Resp)) : Housed (s.setTask t ⟨(s.tasks t).rpc, code⟩) where
  queues := hh.queues
  tasks := by
    intro t' ht'
    by_cases he : t' = t
    · subst he
      simpa [Server.setTask] using hh.tasks t' hc
    · simp only [Server.setTask, update_of_ne he] at ht' ⊢
      exact hh.tasks t' ht'
  inHand := hh.inHand
  writers := hh.writers
  activeRpcs := hh.activeRpcs

lemma cloneRpc_part {s : Server Req Resp} (hh : Housed s) (p : Nat) :
    (partSystem Req Resp).init ((s.cloneRpc p).part s.nextRpc) :=
  ⟨(s.rpcs p).methodIndex, (s.rpcs p).serverCompletionQueue, (s.rpcs p).eventQueue,
    (s.rpcs p).rpcHandlerInfo, (s.rpcs p).service, some p, s.nextEventQueue,
    (s.services (s.rpcs p).service).shuttingDown, part_addRpc_new hh _⟩

/-- The part of an `Rpc` that a step has just made. -/
lemma moves_born_part {s s' : Server Req Resp} {l : Label Req Resp} {r : Nat} (h : Moves s l s')
    (hh : Housed s) (hr : r < s'.nextRpc) (hlt : ¬ r < s.nextRpc) :
    (partSystem Req Resp).init (s'.part r) := by
  obtain ⟨t, acts, p, rest, rfl, htask, rfl⟩ := moves_born h (by omega)
  have hr' : r = s.nextRpc := by
    have : r < s.nextRpc + 1 := hr
    omega
  subst hr'
  have hh' := hh.setTask (t := t) (by simp [htask]) rest
  rw [htask] at hh'
  exact cloneRpc_part hh' p

/-- Laws of parts hold of the `Rpc`s of a server: what an `Rpc` sees of a guarded run of the
server is a guarded run of its part. -/
theorem reach_part {G : Server Req Resp → Label Req Resp → Prop}
    {F : Nat → Part Req Resp → PartLabel Req Resp → Prop}
    (hF : ∀ s l s' r m, (serverSystem Req Resp options maps).Reach G s → G s l →
      s.step l = some s' → r < s.nextRpc → l.part s r = some m → F r (s.part r) m)
    {s : Server Req Resp} (hs : (serverSystem Req Resp options maps).Reach G s) {r : Nat}
    (hr : r < s.nextRpc) : (partSystem Req Resp).Reach (F r) (s.part r) := by
  apply hs.component (fun s r => r < s.nextRpc) Server.part _ _ r hr
  · rintro s r rfl hr
    exact start_part hr
  · intro s l s' r hs hG hstep hr
    have hh := reachable_housed hs.reachable
    have hm := (step_moves hstep).2
    by_cases hlt : r < s.nextRpc
    · refine .inr ⟨hlt, ?_⟩
      rcases moves_part hm hh hlt with he | ⟨m, hpart, hmove⟩
      · exact .inl he
      · exact .inr ⟨m, hF s l s' r m hs hG hstep hlt hpart, hmove⟩
    · exact .inl (moves_born_part hm hh hr hlt)

theorem reachable_part {s : Server Req Resp}
    (hs : (serverSystem Req Resp options maps).Reachable s) {r : Nat} (hr : r < s.nextRpc) :
    (partSystem Req Resp).Reachable (s.part r) :=
  reach_part (F := fun _ _ _ => True) (fun _ _ _ _ _ _ _ _ _ _ => trivial) hs hr

/-- What every step of a part keeps, every run of the server keeps from a given state on. -/
theorem leads_part {P : Part Req Resp → Prop}
    (hP : ∀ c m c', (partSystem Req Resp).Reachable c → P c → c.step m = some c' → P c')
    {s s' : Server Req Resp} (hs : (serverSystem Req Resp options maps).Reachable s)
    (h : (serverSystem Req Resp options maps).Leads (fun _ _ => True) s s') {r : Nat}
    (hr : r < s.nextRpc) (hpart : P (s.part r)) : r < s'.nextRpc ∧ P (s'.part r) := by
  apply h.invariant (P := fun s : Server Req Resp => r < s.nextRpc ∧ P (s.part r)) ⟨hr, hpart⟩
  rintro s₁ l s₂ hl ⟨hlt, ih⟩ _ hstep
  have hs₁ := hl.reach hs
  have hm := (step_moves hstep).2
  refine ⟨hlt.trans_le (moves_nextRpc hm), ?_⟩
  rcases moves_part hm (reachable_housed hs₁) hlt with he | ⟨m, -, hpstep⟩
  · rw [he]
    exact ih
  · exact hP _ _ _ (reachable_part hs₁ hlt) ih hpstep

end AsyncGrpc.Proofs
