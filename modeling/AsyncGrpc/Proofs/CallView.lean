import AsyncGrpc.Proofs.PartView
import AsyncGrpc.Proofs.Routing

/-!
# A routed `Rpc` runs as a call

For an `Rpc` whose six queue pointers agree, nothing of its part stands outside its event queue,
and every step of the part is a step of its call. Laws proved for all runs of a call therefore
hold of every such `Rpc` of the server, in whatever company it runs.
-/

namespace AsyncGrpc.Proofs

open Function Transition

variable {Req Resp : Type} {options : Options} {maps : List (List (String × RpcHandlerInfo))}

lemma call_surroundings (s : Server Req Resp) (r : Nat) :
    (s.call r).surroundings = s.surroundings r :=
  part_surroundings s r

/-- Nothing of the part stands outside the event queue of the `Rpc`. -/
def Alone (c : Part Req Resp) : Prop :=
  ∀ t, t ≠ c.rpc.eventQueue → c.mailbox t = [] ∧ c.code t = []

lemma Housed.alone {s : Server Req Resp} (hh : Housed s) {r : Nat} (hR : (s.rpcs r).Routed) :
    Alone (s.part r) := by
  intro t ht
  constructor
  · simp only [Server.part, List.map_eq_nil_iff, List.filter_eq_nil_iff, decide_eq_true_eq]
    intro e he her
    have hhome := (hh.queues t e he).2
    rw [her, home_of_routed hR] at hhome
    exact ht hhome
  · simp only [Server.part, ite_eq_right_iff]
    intro hr
    by_contra hcode
    have htask := hh.task_eq hcode (hr ▸ hR)
    rw [hr] at htask
    exact ht htask

lemma call_apply {c : Part Req Resp} (effect : Effect) :
    (c.apply effect).call = c.call.apply effect := by
  cases effect with
  | none | remove | clone => rfl
  | pushWriteNeeded => simp [Part.apply, Part.push, Part.call, Call.apply]

/-- A part that stands in one place steps as a call. -/
lemma step_call {c c' : Part Req Resp} {m : PartLabel Req Resp} (hR : c.rpc.Routed)
    (ha : Alone c) (h : c.step m = some c') : c.call.step m.call = some c'.call := by
  cases m with
  | next tag ok request =>
    simp only [Part.step] at h
    split at h
    · rename_i hg
      cases h
      exact if_pos hg
    · cases h
  | pushToEventQueue =>
    simp only [Part.step, Option.map_eq_some_iff] at h
    obtain ⟨p, hhand, rfl⟩ := h
    simp [PartLabel.call, Call.step, Part.call, hhand, Part.push, Rpc.setOk, hR p.1]
  | pop t =>
    simp only [Part.step] at h
    split at h
    · rename_i e rest hcode hmail
      have ht : t = c.rpc.eventQueue := by
        by_contra ht
        simp [(ha t ht).1] at hmail
      subst ht
      cases h
      simp [PartLabel.call, Call.step, Part.call, hcode, hmail]
    · cases h
  | exec t acts =>
    simp only [Part.step] at h
    split at h
    · cases h
    · rename_i i rest hcode
      obtain ⟨o, hrun, rfl⟩ := Option.map_eq_some_iff.mp h
      have ht : t = c.rpc.eventQueue := by
        by_contra ht
        simp [(ha t ht).2] at hcode
      subst ht
      have hcode' : c.call.code = i :: rest := hcode
      have hrun' : i.run c.call.surroundings acts c.call.rpc = some o := hrun
      simp only [PartLabel.call, Call.step, hcode', hrun', Option.map_some]
      rw [call_apply]
      simp [Part.call, (run_samePlace hrun).eventQueue]
  | callWriter method =>
    simp only [Part.step] at h
    split at h
    · rename_i hw
      cases h
      exact if_pos hw
    · cases h
  | stepWriter i =>
    simp only [Part.step] at h
    split at h
    · cases h
    · rename_i w hw
      split at h
      · cases h
      · rename_i hret
        obtain ⟨p, hstep, rfl⟩ := Option.map_eq_some_iff.mp h
        have hw' : c.call.writers[i]? = some w := hw
        have hstep' : w.step c.call.surroundings c.call.rpc = some p := hstep
        simp only [PartLabel.call, Call.step, hw', hret, hstep', Option.map_some]
        rw [call_apply]
        simp [Part.call, (writerStep_samePlace hstep).eventQueue]
  | stopServing =>
    cases h
    rfl

lemma project_eq (s : Server Req Resp) (r : Nat) (l : Label Req Resp) :
    l.project s r = (l.part s r).map PartLabel.call := by
  cases l with
  | pushToEventQueue cq =>
    cases hhand : s.inHand cq with
    | none => simp [Label.project, Label.part, hhand]
    | some p =>
      simp only [Label.project, Label.part, hhand, Option.bind_some]
      split <;> rfl
  | pop t =>
    cases hhead : (s.eventQueues t).head? with
    | none => simp [Label.project, Label.part, hhead]
    | some e =>
      simp only [Label.project, Label.part, hhead, Option.bind_some]
      split <;> rfl
  | _ =>
    simp only [Label.project, Label.part]
    split <;> rfl

/-- The call takes the step the label projects to, or nothing happens to it. -/
def CallMoves (s : Server Req Resp) (r : Nat) (l : Label Req Resp) (s' : Server Req Resp) : Prop :=
  s'.call r = s.call r ∨ ∃ m, l.project s r = some m ∧ (s.call r).step m = some (s'.call r)

/-- Every step of the server is a step of a routed call or leaves the call as it is. -/
theorem moves_call {s s' : Server Req Resp} {l : Label Req Resp} {r : Nat} (h : Moves s l s')
    (hh : Housed s) (hr : r < s.nextRpc) (hR : (s.rpcs r).Routed) : CallMoves s r l s' := by
  rcases moves_part h hh hr with he | ⟨m, hpart, hstep⟩
  · exact .inl (congrArg Part.call he)
  · refine .inr ⟨m.call, ?_, step_call hR (hh.alone hR) hstep⟩
    rw [project_eq, hpart, Option.map_some]

lemma project_next {s : Server Req Resp} {r : Nat} {l : Label Req Resp} {tag : Tag} {ok : Bool}
    {request : Option Req} (h : l.project s r = some (.next tag ok request)) :
    ∃ cq, l = .next cq r tag ok request := by
  cases l <;> simp_all [Label.project, Option.bind_eq_some_iff]

lemma project_callWriter {s : Server Req Resp} {r : Nat} {l : Label Req Resp}
    {method : WriterMethod Resp} (h : l.project s r = some (.callWriter method)) :
    l = .callWriter r method := by
  cases l <;> simp_all [Label.project, Option.bind_eq_some_iff]

/-- A step that projects to an instruction of a routed call is the step of its event thread. -/
lemma project_exec {s s' : Server Req Resp} {l : Label Req Resp} {r : Nat}
    {acts : List (HandlerAction Resp)} (hh : Housed s) (hR : (s.rpcs r).Routed)
    (hstep : s.step l = some s') (hproj : l.project s r = some (.exec acts)) :
    ∃ t, l = .exec t acts ∧ s.tasks t = ⟨r, (s.call r).code⟩ := by
  have hm := (step_moves hstep).2
  cases l with
  | exec t acts' =>
    simp only [Label.project, Option.ite_none_right_eq_some, Option.some.injEq,
      CallLabel.exec.injEq] at hproj
    obtain ⟨hr, rfl⟩ := hproj
    have hcode : (s.tasks t).code ≠ [] := by
      cases hm with
      | exec htask _ | execFault htask _ => simp [htask]
    have ht := hh.task_eq hcode (hr ▸ hR)
    rw [hr] at ht
    refine ⟨t, rfl, ?_⟩
    simp only [Server.call, ← ht, hr, if_true]
    rw [← hr]
  | next cq r' tag ok request => simp [Label.project] at hproj
  | pushToEventQueue cq => simp [Label.project, Option.bind_eq_some_iff] at hproj
  | pop t => simp [Label.project, Option.bind_eq_some_iff] at hproj
  | callWriter r' method => simp [Label.project] at hproj
  | stepWriter r' i => simp [Label.project] at hproj
  | stopServing v => simp [Label.project] at hproj

/-- A part whose queue pointers agree is born as a listening call. -/
lemma init_call {c : Part Req Resp} (h : (partSystem Req Resp).init c) (hR : c.rpc.Routed) :
    (callSystem Req Resp).init c.call := by
  obtain ⟨methodIndex, cq, queue, info, service, parent, eventQueue, shuttingDown, rfl⟩ := h
  have hq : queue = eventQueue :=
    ((requestNextMethodInvocation_samePlace _).routed.mp hR) .done
  subst hq
  exact ⟨methodIndex, cq, queue, info, service, parent, shuttingDown, rfl⟩

/-- Laws of calls hold of the routed `Rpc`s of a server: what such an `Rpc` sees of a guarded
run of the server is a guarded run of its call. -/
theorem reach_call {G : Server Req Resp → Label Req Resp → Prop}
    {F : Nat → Call Req Resp → CallLabel Req Resp → Prop}
    (hF : ∀ s l s' r m, (serverSystem Req Resp options maps).Reach G s → G s l →
      s.step l = some s' → r < s.nextRpc → (s.rpcs r).Routed → l.project s r = some m →
      F r (s.call r) m)
    {s : Server Req Resp} (hs : (serverSystem Req Resp options maps).Reach G s) {r : Nat}
    (hr : r < s.nextRpc) (hR : (s.rpcs r).Routed) :
    (callSystem Req Resp).Reach (F r) (s.call r) := by
  apply hs.component (fun s r => r < s.nextRpc ∧ (s.rpcs r).Routed) Server.call _ _ r ⟨hr, hR⟩
  · rintro s r rfl ⟨hr, hR⟩
    exact init_call (start_part hr) hR
  · rintro s l s' r hs hG hstep ⟨hr, hR⟩
    have hh := reachable_housed hs.reachable
    have hm := (step_moves hstep).2
    by_cases hlt : r < s.nextRpc
    · have hRs := (moves_samePlace hm hlt).routed.mp hR
      refine .inr ⟨⟨hlt, hRs⟩, ?_⟩
      rcases moves_call hm hh hlt hRs with he | ⟨m, hproj, hcall⟩
      · exact .inl he
      · exact .inr ⟨m, hF s l s' r m hs hG hstep hlt hRs hproj, hcall⟩
    · exact .inl (init_call (moves_born_part hm hh hr hlt) hR)

end AsyncGrpc.Proofs
