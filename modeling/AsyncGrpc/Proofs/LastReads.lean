import AsyncGrpc.Proofs.Connection
import AsyncGrpc.Proofs.Work

/-!
# The last requests of a server

Once no further `Read` succeeds, the `READ` events that ask for another request die out: none is
made, and each is handled once. The sums run over all `Rpc`s of a server.
-/

namespace AsyncGrpc.Proofs

open Function Transition Workload

variable {Req Resp : Type} {options : Options} {maps : List (List (String × RpcHandlerInfo))}

/-! ### `Read`s that have succeeded -/

/-- The tags of an `Rpc` that have been pushed and whose `Handle` has not started. -/
def unhandled (c : Part Req Resp) : List Tag :=
  (c.code (queueOf c.rpc)).filterMap handleTag ++ (c.mailbox (queueOf c.rpc)).filterMap mailTag

/-- The completion queue thread holds a `Read` that has succeeded. -/
def goodHand (c : Part Req Resp) : Nat :=
  if c.inHand = some (.read, true) then 1 else 0

/-- The `READ` events whose handling will ask for another request. -/
def goodReads (c : Part Req Resp) : Nat :=
  if (c.rpc.event .read).ok then (unhandled c).count .read else 0

section Reads

variable {c c' : Part Req Resp} {m : PartLabel Req Resp}

lemma goodReads_congr (hok : (c'.rpc.event .read).ok = (c.rpc.event .read).ok)
    (hcount : (unhandled c').count .read = (unhandled c).count .read) :
    goodReads c' = goodReads c := by
  rw [goodReads, goodReads, hok, hcount]

/-- What an instruction leaves of the events that have been pushed. -/
lemma unhandled_exec (hc : (partSystem Req Resp).Reachable c) {t : Nat}
    {acts : List (HandlerAction Resp)} {i : Instr Resp} {rest : List (Instr Resp)}
    {o : Outcome Req Resp} (hcode : c.code t = i :: rest)
    (hrun : i.run c.surroundings acts c.rpc = some o) :
    (handleTag i).toList ++ unhandled
      (({ c with rpc := o.rpc, code := update c.code t (o.next ++ rest) } : Part Req Resp).apply
        o.effect) = unhandled c := by
  have hcodes := exec_ordered (reachable_placed hc) hcode hrun
  have hq := (run_samePlace hrun).queueOf
  simp only [unhandled, Part.apply_rpc, Part.apply_code, filterMap_mailTag_apply, hq]
  rw [← hcodes, List.append_assoc]

lemma goodReads_exec (hc : (partSystem Req Resp).Reachable c) {t : Nat}
    {acts : List (HandlerAction Resp)} {i : Instr Resp} {rest : List (Instr Resp)}
    (hcode : c.code t = i :: rest) (h : Does c (.exec t acts) c') :
    goodReads c' ≤ goodReads c ∧
      (i = .handle .read → (c.rpc.event .read).ok = true → goodReads c' < goodReads c) := by
  cases h with
  | @exec _ _ i' rest' o hcode' hrun =>
    rw [hcode] at hcode'
    cases hcode'
    have hleft := congrArg (List.count Tag.read) (unhandled_exec hc hcode hrun)
    rw [List.count_append] at hleft
    rw [goodReads, goodReads, Part.apply_rpc, (run_books hrun).ok .read]
    constructor
    · split <;> omega
    · rintro rfl hok
      simp only [handleTag, Option.toList_some, List.count_singleton_self] at hleft
      simp only [hok, if_true]
      omega

/-- A `READ` event that asks for another request is not made again unless a `Read` succeeds. -/
lemma does_reads (hc : (partSystem Req Resp).Reachable c) (h : Does c m c')
    (hm : ∀ request, m ≠ .next .read true request) :
    goodHand c' < goodHand c ∨ goodHand c' ≤ goodHand c ∧ goodReads c' ≤ goodReads c := by
  cases h with
  | @next tag ok request hhand _ =>
    have hne : (tag, ok) ≠ (.read, true) := by
      rintro ⟨⟩
      exact hm request rfl
    exact .inr ⟨by simp [goodHand, hne], le_rfl⟩
  | @pushToEventQueue tag ok hhand =>
    by_cases hread : tag = .read
    · subst hread
      cases ok with
      | true => exact .inl (by simp [goodHand, hhand, Part.push])
      | false => exact .inr ⟨by simp [goodHand, Part.push], by simp [goodReads, Part.push, Rpc.setOk]⟩
    · refine .inr ⟨by simp [goodHand, Part.push], le_of_eq (goodReads_congr ?_ ?_)⟩
      · simp [Part.push, Rpc.setOk, Ne.symm hread]
      · have hq : queueOf (c.rpc.setOk tag ok) = queueOf c.rpc := (setOk_samePlace _ _ _).queueOf
        simp only [unhandled, Part.push, hq, (reachable_placed hc).event tag, update_self]
        simp [mailTag, hread]
  | @pop t e rest hidle hmail =>
    refine .inr ⟨le_rfl, le_of_eq (goodReads_congr rfl ?_)⟩
    simp only [unhandled]
    by_cases ht : queueOf c.rpc = t
    · subst ht
      rw [update_self, update_self, hidle, hmail]
      simp only [List.filterMap_cons, List.filterMap_nil, handleTag_handler]
      cases mailTag e <;> simp
    · simp [ht]
  | exec hcode hrun =>
    exact .inr ⟨by simp [goodHand], (goodReads_exec hc hcode (.exec hcode hrun)).1⟩
  | stepWriter hw hstep =>
    refine .inr ⟨by simp [goodHand], le_of_eq (goodReads_congr ?_ ?_)⟩
    · rw [Part.apply_rpc]
      exact congrArg CompletionQueueRpcEvent.ok (congrFun (writerStep_books hstep).event .read)
    · have hq := (writerStep_samePlace hstep).queueOf
      simp only [unhandled, Part.apply_rpc, Part.apply_code, filterMap_mailTag_apply, hq]
  | callWriter _ | stopServing => exact .inr ⟨le_rfl, le_rfl⟩

end Reads

/-! ### Sums over the `Rpc`s of a server -/

/-- A measure of parts, summed over all `Rpc`s. -/
def total (f : Part Req Resp → Nat) (s : Server Req Resp) : Nat :=
  ∑ r ∈ Finset.range s.nextRpc, f (s.part r)

section Total

variable {s s' : Server Req Resp} {l : Label Req Resp} {f : Part Req Resp → Nat}

/-- The sum after a step of the server, as long as new `Rpc`s count nothing. -/
lemma total_moves (hs : (serverSystem Req Resp options maps).Reachable s) (h : Moves s l s')
    (hf : ∀ c, (partSystem Req Resp).init c → f c = 0) :
    total f s' = ∑ r ∈ Finset.range s.nextRpc, f (s'.part r) := by
  apply sum_grow (moves_nextRpc h)
  intro r hr hr'
  exact hf _ (moves_born_part h (reachable_housed hs) hr' (not_lt.mpr hr))

lemma total_le (hs : (serverSystem Req Resp options maps).Reachable s) (h : Moves s l s')
    (hf : ∀ c, (partSystem Req Resp).init c → f c = 0)
    (hle : ∀ r < s.nextRpc, f (s'.part r) ≤ f (s.part r)) : total f s' ≤ total f s := by
  rw [total_moves hs h hf]
  apply Finset.sum_le_sum
  intro r hr
  exact hle r (Finset.mem_range.mp hr)

lemma total_lt (hs : (serverSystem Req Resp options maps).Reachable s) (h : Moves s l s')
    (hf : ∀ c, (partSystem Req Resp).init c → f c = 0)
    (hle : ∀ r < s.nextRpc, f (s'.part r) ≤ f (s.part r)) {r : Nat} (hr : r < s.nextRpc)
    (hlt : f (s'.part r) < f (s.part r)) : total f s' < total f s := by
  rw [total_moves hs h hf]
  apply Finset.sum_lt_sum
  · intro r hr
    exact hle r (Finset.mem_range.mp hr)
  · exact ⟨r, Finset.mem_range.mpr hr, hlt⟩

lemma goodHand_init {c : Part Req Resp} (h : (partSystem Req Resp).init c) : goodHand c = 0 := by
  obtain ⟨methodIndex, cq, queue, info, service, parent, eventQueue, shuttingDown, rfl⟩ := h
  rfl

lemma goodReads_init {c : Part Req Resp} (h : (partSystem Req Resp).init c) : goodReads c = 0 := by
  obtain ⟨methodIndex, cq, queue, info, service, parent, eventQueue, shuttingDown, rfl⟩ := h
  simp [goodReads, unhandled, Part.listening]

lemma part_next {r : Nat} {tag : Tag} {ok : Bool} {request : Option Req}
    (h : l.part s r = some (.next tag ok request)) : ∃ cq, l = .next cq r tag ok request := by
  cases l with
  | next cq r' tag' ok' request' =>
    simp only [Label.part] at h
    split at h
    · rename_i hr
      cases h
      exact ⟨cq, by rw [hr]⟩
    · cases h
  | pushToEventQueue cq =>
    obtain ⟨p, -, hp⟩ := Option.bind_eq_some_iff.mp h
    split at hp <;> cases hp
  | pop t =>
    obtain ⟨e, -, he⟩ := Option.bind_eq_some_iff.mp h
    split at he <;> cases he
  | exec t acts | callWriter r' method | stepWriter r' i | stopServing v =>
    simp only [Label.part] at h
    split at h <;> cases h

/-- An event thread takes up a `READ` event with a request. -/
def HandlesRequest (s : Server Req Resp) (l : Label Req Resp) : Prop :=
  ∃ t acts r rest, l = .exec t acts ∧ s.tasks t = ⟨r, .handle .read :: rest⟩ ∧
    ((s.rpcs r).event .read).ok = true

lemma part_reads (hs : (serverSystem Req Resp options maps).Reachable s) (h : Moves s l s')
    (hl : ∀ cq r request, l ≠ .next cq r .read true request) {r : Nat} (hr : r < s.nextRpc) :
    goodHand (s'.part r) < goodHand (s.part r) ∨ goodHand (s'.part r) ≤ goodHand (s.part r) ∧
      goodReads (s'.part r) ≤ goodReads (s.part r) := by
  rcases moves_part h (reachable_housed hs) hr with he | ⟨m, hpart, hstep⟩
  · rw [he]
    exact .inr ⟨le_rfl, le_rfl⟩
  · have hm : ∀ request, m ≠ .next .read true request := by
      rintro request rfl
      obtain ⟨cq, rfl⟩ := part_next hpart
      exact hl cq r request rfl
    exact does_reads (reachable_part hs hr) (step_does hstep) hm

/-- Handling a request lowers the number of `READ` events with requests. -/
lemma handlesRequest_reads (hs : (serverSystem Req Resp options maps).Reachable s)
    (h : Moves s l s') (hl : HandlesRequest s l) :
    ∃ r < s.nextRpc, goodReads (s'.part r) < goodReads (s.part r) := by
  obtain ⟨t, acts, r, rest, rfl, htask, hok⟩ := hl
  have hh := reachable_housed hs
  have hr := (hh.tasks t (by simp [htask])).1
  simp only [htask] at hr
  have hcode : (s.part r).code t = .handle .read :: rest := by simp [Server.part, htask]
  refine ⟨r, hr, ?_⟩
  rcases moves_part h hh hr with he | ⟨m, hpart, hstep⟩
  · -- the step takes the first instruction off the code
    have hcode' : (s'.part r).code t ≠ .handle .read :: rest := by
      cases h with
      | exec htask' hrun =>
        rw [htask] at htask'
        cases htask'
        cases hrun
        simp [Server.part, Server.setTask, Service.handleEvent, Tag.event, Service.handleRead, hok]
      | execFault htask' hrun =>
        rw [htask] at htask'
        cases htask'
        cases hrun
    rw [he] at hcode'
    exact absurd hcode hcode'
  · obtain rfl : m = .exec t acts := by simpa [Label.part, htask] using hpart.symm
    exact (goodReads_exec (reachable_part hs hr) hcode (step_does hstep)).2 rfl hok

lemma moves_reads (hs : (serverSystem Req Resp options maps).Reachable s) (h : Moves s l s')
    (hl : ∀ cq r request, l ≠ .next cq r .read true request) :
    total goodHand s' < total goodHand s ∨ total goodHand s' ≤ total goodHand s ∧
      (total goodReads s' < total goodReads s ∨
        total goodReads s' ≤ total goodReads s ∧ ¬HandlesRequest s l) := by
  have hparts := fun r hr => part_reads hs h hl (r := r) hr
  by_cases hhand : ∃ r < s.nextRpc, goodHand (s'.part r) < goodHand (s.part r)
  · obtain ⟨r, hr, hlt⟩ := hhand
    refine .inl (total_lt hs h (fun _ => goodHand_init) (fun r hr => ?_) hr hlt)
    rcases hparts r hr with hlt | ⟨hle, -⟩ <;> omega
  · push Not at hhand
    have hle : ∀ r < s.nextRpc, goodHand (s'.part r) ≤ goodHand (s.part r) ∧
        goodReads (s'.part r) ≤ goodReads (s.part r) := by
      intro r hr
      exact (hparts r hr).resolve_left (not_lt.mpr (hhand r hr))
    refine .inr ⟨total_le hs h (fun _ => goodHand_init) (fun r hr => (hle r hr).1), ?_⟩
    by_cases hrequest : HandlesRequest s l
    · obtain ⟨r, hr, hlt⟩ := handlesRequest_reads hs h hrequest
      exact .inl (total_lt hs h (fun _ => goodReads_init) (fun r hr => (hle r hr).2) hr hlt)
    · exact .inr ⟨total_le hs h (fun _ => goodReads_init) (fun r hr => (hle r hr).2), hrequest⟩

end Total

end AsyncGrpc.Proofs
