import AsyncGrpc.Proofs.Listeners
import Mathlib.Data.Int.CardIntervalMod

/-!
# The round robin over the event queues

`SelectNextEventQueueRoundRobin` is called once for every `Rpc` that is made, so the queue of an
`Rpc` is told by its number. The five events of a clone, however, go to the queue of the `Rpc` it
was cloned from. Since no `Rpc` is cloned twice, this shifts the load of the event threads but does
not pile it up.
-/

namespace AsyncGrpc.Proofs

open Function Transition

variable {Req Resp : Type} {options : Options} {maps : List (List (String × RpcHandlerInfo))}

/-! ### The table of the `Rpc`s -/

lemma moves_currentEventQueueId {s s' : Server Req Resp} {l : Label Req Resp} (h : Moves s l s')
    (hsame : s'.nextRpc = s.nextRpc) : s'.currentEventQueueId = s.currentEventQueueId := by
  have hkeeps : ∀ (s : Server Req Resp) r (effect : Effect),
      (s.apply r effect).nextRpc = s.nextRpc →
      (s.apply r effect).currentEventQueueId = s.currentEventQueueId := by
    intro s r effect hsame
    cases effect with
    | clone => exact absurd hsame (Nat.succ_ne_self _)
    | none | pushWriteNeeded | remove => rfl
  cases h with
  | exec _ _ => exact hkeeps _ _ _ hsame
  | stepWriter _ _ _ => exact hkeeps _ _ _ hsame
  | _ => rfl

/-- The servers have the same `Rpc`s, as far as their places go. -/
structure SameTable (s s' : Server Req Resp) : Prop where
  options : s'.options = s.options
  nextRpc : s'.nextRpc = s.nextRpc
  current : s'.currentEventQueueId = s.currentEventQueueId
  rpcs : ∀ r < s.nextRpc, SamePlace (s.rpcs r) (s'.rpcs r)

/-- What `StartServing` and cloning establish, and what only depends on the places of the `Rpc`s,
holds of every server that can be reached. -/
theorem reachable_table {P : Server Req Resp → Prop} (hsame : ∀ s s', SameTable s s' → P s → P s')
    (hnew : P (.new options (fun v => maps.getD v [])))
    (hadd : ∀ s v i cq info, P s → P (s.addRpc (.new i cq s.nextEventQueue info v)))
    (hclone : ∀ s p, p < s.nextRpc → P s → P (s.cloneRpc p)) {s : Server Req Resp}
    (hs : (serverSystem Req Resp options maps).Reachable s) : P s := by
  refine hs.invariant ?_ ?_
  · rintro s rfl
    exact start_induction hnew (fun s v i cq info _ _ => hadd s v i cq info)
  · intro s l s' hreach ih _ hstep
    have hm := (step_moves hstep).2
    by_cases hne : s'.nextRpc = s.nextRpc
    · exact hsame s s' ⟨moves_options hm, hne, moves_currentEventQueueId hm hne,
        fun r => moves_samePlace hm⟩ ih
    · obtain ⟨t, acts, p, rest, rfl, htask, rfl⟩ := moves_born hm hne
      have hp := ((reachable_housed hreach).tasks t (by simp [htask])).1
      rw [htask] at hp
      refine hclone _ p hp (hsame s _ ⟨rfl, rfl, rfl, fun r _ => .refl _⟩ ih)

/-- The queues that the `Rpc`s of a server were told. -/
structure Rotates (n : Nat) (s : Server Req Resp) : Prop where
  threads : s.options.numEventThreads = n
  current : s.currentEventQueueId = s.nextRpc % n
  queue : ∀ r < s.nextRpc, (s.rpcs r).eventQueue = (r + 1) % n
  own : ∀ r < s.nextRpc, (s.rpcs r).parent = none →
    ∀ tag, ((s.rpcs r).event tag).eventQueue = (r + 1) % n
  inherited : ∀ r < s.nextRpc, ∀ p, (s.rpcs r).parent = some p →
    p < r ∧ ∀ tag, ((s.rpcs r).event tag).eventQueue = (p + 1) % n

lemma Rotates.nextEventQueue {n : Nat} {s : Server Req Resp} (h : Rotates n s) :
    s.nextEventQueue = (s.nextRpc + 1) % n := by
  rw [Server.nextEventQueue, h.threads, h.current, Nat.mod_add_mod]

lemma Rotates.sameTable {n : Nat} {s s' : Server Req Resp} (h : Rotates n s) (ht : SameTable s s') :
    Rotates n s' where
  threads := (congrArg Options.numEventThreads ht.options).trans h.threads
  current := by rw [ht.current, ht.nextRpc, h.current]
  queue r hr := by
    rw [ht.nextRpc] at hr
    rw [(ht.rpcs r hr).eventQueue, h.queue r hr]
  own r hr hparent tag := by
    rw [ht.nextRpc] at hr
    rw [(ht.rpcs r hr).parent] at hparent
    rw [(ht.rpcs r hr).event, h.own r hr hparent]
  inherited r hr p hparent := by
    rw [ht.nextRpc] at hr
    rw [(ht.rpcs r hr).parent] at hparent
    refine ⟨(h.inherited r hr p hparent).1, fun tag => ?_⟩
    rw [(ht.rpcs r hr).event, (h.inherited r hr p hparent).2]

/-- The next `Rpc` is told the next queue. Its events go there or to the queue of its parent. -/
lemma Rotates.addRpc {n : Nat} {s : Server Req Resp} (h : Rotates n s) {x : Rpc Req Resp}
    (hqueue : x.eventQueue = s.nextEventQueue)
    (hown : x.parent = none → ∀ tag, (x.event tag).eventQueue = s.nextEventQueue)
    (hinherited : ∀ p, x.parent = some p →
      p < s.nextRpc ∧ ∀ tag, (x.event tag).eventQueue = (p + 1) % n) :
    Rotates n (s.addRpc x) := by
  have hnew := requestNextMethodInvocation_samePlace x
  have hlast : ∀ {r}, r < (s.addRpc x).nextRpc → r < s.nextRpc ∨ r = s.nextRpc :=
    fun hr => Nat.lt_succ_iff_lt_or_eq.mp hr
  refine ⟨h.threads, h.nextEventQueue, fun r hr => ?_, fun r hr hparent tag => ?_,
    fun r hr p hparent => ?_⟩
  · rcases hlast hr with hr | rfl
    · rw [addRpc_rpcs_old _ _ hr, h.queue r hr]
    · rw [addRpc_rpcs_new, hnew.eventQueue, hqueue, h.nextEventQueue]
  · rcases hlast hr with hr | rfl
    · rw [addRpc_rpcs_old _ _ hr] at hparent ⊢
      exact h.own r hr hparent tag
    · rw [addRpc_rpcs_new] at hparent ⊢
      rw [hnew.event, hown (hnew.parent ▸ hparent), h.nextEventQueue]
  · rcases hlast hr with hr | rfl
    · rw [addRpc_rpcs_old _ _ hr] at hparent ⊢
      exact h.inherited r hr p hparent
    · rw [addRpc_rpcs_new] at hparent ⊢
      obtain ⟨hlt, hevents⟩ := hinherited p (hnew.parent ▸ hparent)
      exact ⟨hlt, fun tag => (hnew.event tag).trans (hevents tag)⟩

theorem reachable_rotates {s : Server Req Resp}
    (hs : (serverSystem Req Resp options maps).Reachable s) :
    Rotates options.numEventThreads s := by
  refine reachable_table (fun s s' ht h => h.sameTable ht) ?_ ?_ ?_ hs
  · exact ⟨rfl, (Nat.zero_mod _).symm, fun r hr => absurd hr (Nat.not_lt_zero r),
      fun r hr => absurd hr (Nat.not_lt_zero r), fun r hr => absurd hr (Nat.not_lt_zero r)⟩
  · intro s v i cq info h
    exact h.addRpc rfl (fun _ _ => rfl) (fun p hparent => by cases hparent)
  · intro s p hp h
    refine h.addRpc rfl (fun hparent => by cases hparent) (fun p' hparent => ?_)
    cases hparent
    exact ⟨hp, fun tag => h.queue p hp⟩

/-! ### One clone for every connection -/

/-- The clones of an `Rpc`. -/
def clones (s : Server Req Resp) (p : Nat) : Finset Nat :=
  (Finset.range s.nextRpc).filter (fun r => (s.rpcs r).parent = some p)

lemma mem_clones {s : Server Req Resp} {p r : Nat} : r ∈ clones s p ↔ CloneOf s p r := by
  simp [clones, CloneOf]

lemma SameTable.clones {s s' : Server Req Resp} (h : SameTable s s') (p : Nat) :
    clones s' p = clones s p := by
  unfold Proofs.clones
  rw [h.nextRpc]
  refine Finset.filter_congr (fun r hr => ?_)
  rw [(h.rpcs r (Finset.mem_range.mp hr)).parent]

lemma card_clones_addRpc (s : Server Req Resp) (x : Rpc Req Resp) (p : Nat) :
    (clones (s.addRpc x) p).card = (clones s p).card + if x.parent = some p then 1 else 0 := by
  have hold : (Finset.range s.nextRpc).filter (fun r => ((s.addRpc x).rpcs r).parent = some p) =
      clones s p := by
    refine Finset.filter_congr (fun r hr => ?_)
    rw [addRpc_rpcs_old _ _ (Finset.mem_range.mp hr)]
  have hnew : ((s.addRpc x).rpcs s.nextRpc).parent = x.parent := by
    rw [addRpc_rpcs_new]
    exact (requestNextMethodInvocation_samePlace x).parent
  unfold clones
  rw [show (s.addRpc x).nextRpc = s.nextRpc + 1 from rfl, Finset.range_add_one,
    Finset.filter_insert, hnew, hold]
  split
  · exact Finset.card_insert_of_notMem (fun hmem => lt_irrefl _ (mem_clones.mp hmem).1)
  · rfl

lemma card_clones_cloneRpc (s : Server Req Resp) (p q : Nat) :
    (clones (s.cloneRpc p) q).card = (clones s q).card + if p = q then 1 else 0 := by
  rw [Server.cloneRpc, card_clones_addRpc]
  simp only [Option.some.injEq]

/-- Whether or not the service is shutting down, no instruction passes on more than its token. -/
lemma run_listening_le {i : Instr Resp} {env : Surroundings} {acts : List (HandlerAction Resp)}
    {x : Rpc Req Resp} {o : Outcome Req Resp} (h : i.run env acts x = some o) :
    o.next.countP isListening + (if o.effect = .clone then 1 else 0) ≤ (isListening i).toNat := by
  by_cases hshut : ∃ ok, i = .handleNewConnection ok ∧ env.shuttingDown = true
  · obtain ⟨ok, rfl, hshut⟩ := hshut
    cases run_runs h with
    | handleNewConnection =>
      simp only [Service.handleNewConnection, hshut, if_true]
      exact Nat.zero_le 1
  · push Not at hshut
    exact (run_listening h (fun ok hi => by simpa using hshut ok hi)).le

lemma moves_awaiting_le {s s' : Server Req Resp} {l : Label Req Resp} (h : Moves s l s')
    (hh : Housed s) (hpost : Posted s) (hsame : s'.nextRpc = s.nextRpc) {r : Nat}
    (hr : r < s.nextRpc) : awaiting s' r ≤ awaiting s r := by
  cases h with
  | next _ hhand _ hplace hmay => exact (next_awaiting hhand hplace hmay).le
  | pushToEventQueue hhand =>
    exact (pushToEventQueue_awaiting hhand (hh.inHand _ _ _ _ hhand).2).le
  | pop hidle hqueue _ => exact (pop_awaiting hidle hqueue).le
  | @exec t acts r' i rest o htask hrun =>
    have htokens := exec_tokens (r := r) htask hrun hpost
      (fun _ => Nat.add_sub_of_le (run_listening_le hrun))
    refine (apply_awaiting _ _ (by exact hr)).trans_le ?_
    omega
  | stepWriter _ _ hstep =>
    exact ((apply_awaiting _ _ (by exact hr)).trans (stepWriter_awaiting hstep)).le
  | execFault _ _ | callWriter _ _ | writerFault _ _ _ | stopServing => exact le_refl _

/-- The token of an `Rpc` is never doubled: either the clone has it, or it was dropped by a
service that is shutting down. -/
theorem moves_clones {s s' : Server Req Resp} {l : Label Req Resp} (h : Moves s l s') (hh : Housed s)
    (hpost : Posted s) {p : Nat} (hp : p < s.nextRpc) :
    awaiting s' p + (clones s' p).card ≤ awaiting s p + (clones s p).card ∧
    ((s.services (s.rpcs p).service).shuttingDown = false →
      awaiting s' p + (clones s' p).card = awaiting s p + (clones s p).card) := by
  by_cases hsame : s'.nextRpc = s.nextRpc
  · have htable : SameTable s s' := ⟨moves_options h, hsame, moves_currentEventQueueId h hsame,
      fun r => moves_samePlace h⟩
    rw [htable.clones]
    refine ⟨Nat.add_le_add_right ?_ _, fun hserving => ?_⟩
    · exact moves_awaiting_le h hh hpost hsame hp
    · rw [moves_awaiting h hh hpost hsame hp hserving]
  · obtain ⟨t, acts, p', rest, rfl, htask, rfl⟩ := moves_born h hsame
    have htake := exec_tokens (d := 0) (r := p) htask
      (show (Instr.clone : Instr Resp).run (s.surroundings p') acts (s.rpcs p') =
        some ⟨s.rpcs p', [], .clone⟩ from rfl) hpost (fun _ => rfl)
    rw [show s.setRpc p' (s.rpcs p') = s by simp [Server.setRpc]] at htake
    have hkept : awaiting ((s.setTask t ⟨p', rest⟩).cloneRpc p') p +
        (clones ((s.setTask t ⟨p', rest⟩).cloneRpc p') p).card =
        awaiting s p + (clones s p).card := by
      have hclones : clones (s.setTask t ⟨p', rest⟩) p = clones s p := rfl
      have hold : awaiting ((s.setTask t ⟨p', rest⟩).cloneRpc p') p =
          awaiting (s.setTask t ⟨p', rest⟩) p := addRpc_awaiting_old _ hp
      rw [card_clones_cloneRpc, hold, hclones, ← htake]
      simp only [eq_comm, and_true, List.nil_append, ite_self]
      omega
    exact ⟨hkept.le, fun _ => hkept⟩

/-- The connection that an `Rpc` awaits, or the clone that took it over. -/
def Conserves (s : Server Req Resp) (p : Nat) : Prop :=
  awaiting s p + (clones s p).card ≤ 1 ∧
  ((s.services (s.rpcs p).service).shuttingDown = false → awaiting s p + (clones s p).card = 1)

lemma Conserves.of_eq {s : Server Req Resp} {p : Nat} (h : awaiting s p + (clones s p).card = 1) :
    Conserves s p := ⟨h.le, fun _ => h⟩

/-- `StartServing` registers every `Rpc` it makes, and clones none. -/
lemma start_fresh : ∀ p < (Server.start options maps : Server Req Resp).nextRpc,
    awaiting (Server.start options maps : Server Req Resp) p = 1 ∧
    ((Server.start options maps : Server Req Resp).rpcs p).parent = none := by
  have hall : Quiet (Server.start options maps : Server Req Resp) ∧
      Housed (Server.start options maps : Server Req Resp) ∧
      ∀ p < (Server.start options maps : Server Req Resp).nextRpc,
        awaiting (Server.start options maps : Server Req Resp) p = 1 ∧
        ((Server.start options maps : Server Req Resp).rpcs p).parent = none := by
    apply start_induction (P := fun s : Server Req Resp => Quiet s ∧ Housed s ∧
      ∀ p < s.nextRpc, awaiting s p = 1 ∧ (s.rpcs p).parent = none)
    · exact ⟨new_quiet, new_housed, fun p hp => absurd hp (Nat.not_lt_zero p)⟩
    · rintro s v i cq info _ _ ⟨hq, hh, ih⟩
      refine ⟨hq.addRpc _, hq.addRpc_housed hh _, fun p hp => ?_⟩
      rcases Nat.lt_succ_iff_lt_or_eq.mp hp with hp | rfl
      · rw [addRpc_awaiting_old _ hp, addRpc_rpcs_old _ _ hp]
        exact ih p hp
      · rw [addRpc_awaiting_new hh _ rfl, addRpc_rpcs_new]
        exact ⟨rfl, rfl⟩
  exact hall.2.2

lemma moves_serving {s s' : Server Req Resp} {l : Label Req Resp} (h : Moves s l s') {v : Nat}
    (hserving : (s'.services v).shuttingDown = false) : (s.services v).shuttingDown = false := by
  by_cases hl : l = .stopServing v
  · subst hl
    cases h
    simp [Server.stopServing] at hserving
  · rwa [moves_shuttingDown h hl] at hserving

/-- A new `Rpc` awaits a connection, and was not cloned yet. -/
lemma moves_conserves_new {s s' : Server Req Resp} {l : Label Req Resp} (h : Moves s l s')
    (hh : Housed s) (hparents : ∀ p r, CloneOf s p r → p < r) (hne : s'.nextRpc ≠ s.nextRpc) :
    s'.nextRpc = s.nextRpc + 1 ∧ Conserves s' s.nextRpc := by
  obtain ⟨t, acts, p, rest, rfl, htask, rfl⟩ := moves_born h hne
  have hcode : (s.tasks t).code ≠ [] := by simp [htask]
  have hlt := (hh.tasks t hcode).1
  have hh' := hh.setTask hcode rest
  rw [htask] at hlt hh'
  have hnone : clones (s.setTask t ⟨p, rest⟩) s.nextRpc = ∅ := by
    refine Finset.eq_empty_of_forall_notMem (fun r hr => ?_)
    have hclone : CloneOf s s.nextRpc r := mem_clones.mp hr
    exact absurd (hparents _ _ hclone) (lt_asymm hclone.1)
  have hawaits : awaiting ((s.setTask t ⟨p, rest⟩).cloneRpc p) s.nextRpc = 1 :=
    addRpc_awaiting_new hh' _ rfl
  refine ⟨rfl, .of_eq ?_⟩
  rw [hawaits, card_clones_cloneRpc, hnone, if_neg hlt.ne, Finset.card_empty]

theorem reachable_conserves {s : Server Req Resp}
    (hs : (serverSystem Req Resp options maps).Reachable s) :
    ∀ p < s.nextRpc, Conserves s p := by
  apply hs.invariant (P := fun s => ∀ p < s.nextRpc, Conserves s p)
  · rintro s rfl p hp
    have hnone : clones (Server.start options maps : Server Req Resp) p = ∅ := by
      refine Finset.filter_eq_empty_iff.mpr (fun r hr => ?_)
      simp [(start_fresh r (Finset.mem_range.mp hr)).2]
    exact .of_eq (by rw [(start_fresh p hp).1, hnone, Finset.card_empty])
  · intro s l s' hreach ih _ hstep p hp
    have hm := (step_moves hstep).2
    have hh := reachable_housed hreach
    by_cases hold : p < s.nextRpc
    · obtain ⟨hle, heq⟩ := moves_clones hm hh (reachable_posted hreach) hold
      refine ⟨hle.trans (ih p hold).1, fun hserving => ?_⟩
      rw [(moves_samePlace hm hold).service] at hserving
      have hbefore := moves_serving hm hserving
      exact (heq hbefore).trans ((ih p hold).2 hbefore)
    · obtain ⟨hsucc, hnew⟩ := moves_conserves_new hm hh
        (fun p r hclone => (reachable_cloneOf hreach p r hclone).1) (by omega)
      obtain rfl : p = s.nextRpc := by omega
      exact hnew

/-- No `Rpc` is cloned twice, whatever becomes of the connections and whenever the services are
told to stop; and while its service is serving, an `Rpc` that was not cloned is registered with
gRPC or its connection is on the way to `HandleNewConnection`. -/
theorem cloned_once {s : Server Req Resp}
    (hs : (serverSystem Req Resp options maps).Reachable s) {p : Nat} (hp : p < s.nextRpc) :
    (∀ r r', CloneOf s p r → CloneOf s p r' → r = r' ∧ awaiting s p = 0) ∧ awaiting s p ≤ 1 ∧
    ((s.services (s.rpcs p).service).shuttingDown = false →
      (∃ r, CloneOf s p r) ∨ awaiting s p = 1) := by
  obtain ⟨hle, hserving⟩ := reachable_conserves hs p hp
  refine ⟨fun r r' hr hr' => ?_, by omega, fun h => ?_⟩
  · have hone : (clones s p).card ≤ 1 := by omega
    have hpos : 0 < (clones s p).card := Finset.card_pos.mpr ⟨r, mem_clones.mpr hr⟩
    exact ⟨Finset.card_le_one.mp hone r (mem_clones.mpr hr) r' (mem_clones.mpr hr'), by omega⟩
  · by_cases hnone : clones s p = ∅
    · rw [hnone] at hserving
      exact .inr (hserving h)
    · obtain ⟨r, hr⟩ := Finset.nonempty_iff_ne_empty.mpr hnone
      exact .inl ⟨r, mem_clones.mp hr⟩

theorem cloned_once_of_run :
    ∃ s, (serverSystem Nat Nat twoEventThreads sequenceService).Reachable s ∧ CloneOf s 0 1 ∧
      awaiting s 0 = 0 ∧ (∀ r, CloneOf s 0 r → r = 1) ∧
      ((∃ r, CloneOf s 1 r) ∨ awaiting s 1 = 1) := by
  obtain ⟨s, hs, hp⟩ := exists_reachable twoEventThreads sequenceService firstConnection
    (fun s => (1 < s.nextRpc ∧ (s.rpcs 1).parent = some 0) ∧
      (s.services (s.rpcs 1).service).shuttingDown = false) (by decide +kernel)
  obtain ⟨hclone, hserving⟩ := of_decide_eq_true hp
  have hfirst := (cloned_once hs (Nat.zero_lt_of_lt hclone.1)).1
  have hsecond := (cloned_once hs hclone.1).2.2 hserving
  exact ⟨s, hs, hclone, (hfirst 1 1 hclone hclone).2, fun r hr => (hfirst r 1 hr hclone).1, hsecond⟩

/-! ### The load of an event thread -/

/-- Of consecutive numbers, every queue is told its share. -/
lemma card_turns {n t : Nat} (ht : t < n) (N : Nat) :
    N / n ≤ ((Finset.range N).filter (fun r => (r + 1) % n = t)).card ∧
    ((Finset.range N).filter (fun r => (r + 1) % n = t)).card ≤ N / n + 1 := by
  have hn : 0 < n := by omega
  have hcount : ((Finset.range N).filter (fun r => (r + 1) % n = t)).card =
      N.count (fun r => r ≡ t + (n - 1) [MOD n]) := by
    rw [Nat.count_eq_card_filter_range]
    congr 1
    refine Finset.filter_congr (fun r _ => ?_)
    have hback : t + (n - 1) + 1 ≡ t [MOD n] := by
      rw [show t + (n - 1) + 1 = t + n by omega]
      exact Nat.add_modEq_right
    constructor
    · intro h
      have hr : r + 1 ≡ t [MOD n] := by rw [Nat.ModEq, h, Nat.mod_eq_of_lt ht]
      exact Nat.ModEq.add_right_cancel' 1 (hr.trans hback.symm)
    · intro h
      have hr : r + 1 ≡ t [MOD n] := (h.add_right 1).trans hback
      rw [hr, Nat.mod_eq_of_lt ht]
  rw [hcount, Nat.count_modEq_card N hn]
  split <;> omega

lemma start_nextRpc : (Server.start options maps : Server Req Resp).nextRpc =
    (startPlaces options maps).length := by
  have hplaces : places (Server.start options maps : Server Req Resp) = _ := start_places
  rw [← hplaces, places, List.length_map, List.length_range]

/-- The `Rpc`s that are no clones are those of `StartServing`. -/
lemma reachable_ancestors {s : Server Req Resp}
    (hs : (serverSystem Req Resp options maps).Reachable s) :
    (startPlaces options maps).length ≤ s.nextRpc ∧
    ∀ r < s.nextRpc, (s.rpcs r).parent = none ↔ r < (startPlaces options maps).length := by
  apply hs.invariant (P := fun s => (startPlaces options maps).length ≤ s.nextRpc ∧
    ∀ r < s.nextRpc, (s.rpcs r).parent = none ↔ r < (startPlaces options maps).length)
  · rintro s rfl
    refine ⟨start_nextRpc.ge, fun r hr => ⟨fun _ => start_nextRpc ▸ hr, fun _ => ?_⟩⟩
    exact (start_fresh r hr).2
  · rintro s l s' hreach ⟨hstart, ih⟩ _ hstep
    have hm := (step_moves hstep).2
    refine ⟨hstart.trans (moves_nextRpc hm), fun r hr => ?_⟩
    by_cases hold : r < s.nextRpc
    · rw [(moves_samePlace hm hold).parent]
      exact ih r hold
    · obtain ⟨t, acts, p, rest, rfl, htask, rfl⟩ := moves_born hm (by omega)
      obtain rfl : r = (s.setTask t ⟨p, rest⟩).nextRpc := by
        exact (Nat.lt_succ_iff_lt_or_eq.mp hr).resolve_left hold
      rw [cloneRpc_rpcs_new]
      constructor
      · intro h
        cases h
      · intro h
        exact absurd (h.trans_le hstart) (lt_irrefl _)

/-- The `Rpc`s whose events of a kind an event thread handles. -/
def handledBy (s : Server Req Resp) (tag : Tag) (t : Nat) : Finset Nat :=
  (Finset.range s.nextRpc).filter (fun r => ((s.rpcs r).event tag).eventQueue = t)

/-- The `Rpc`s whose `WRITE_NEEDED` events an event thread handles. -/
def wokenBy (s : Server Req Resp) (t : Nat) : Finset Nat :=
  (Finset.range s.nextRpc).filter (fun r => (s.rpcs r).eventQueue = t)

section Load

variable {s : Server Req Resp} (Q : Nat → Prop) [DecidablePred Q]

/-- The clones of the `Rpc`s with a property. -/
def clonesOf (s : Server Req Resp) (Q : Nat → Prop) [DecidablePred Q] : Finset Nat :=
  ((Finset.range s.nextRpc).filter Q).biUnion (clones s)

lemma card_clonesOf :
    (clonesOf s Q).card = ∑ p ∈ (Finset.range s.nextRpc).filter Q, (clones s p).card := by
  refine Finset.card_biUnion (fun p _ q _ hne => ?_)
  refine Finset.disjoint_left.mpr (fun r hr hr' => hne ?_)
  have hp := (mem_clones.mp hr).2
  rw [(mem_clones.mp hr').2] at hp
  exact (Option.some.inj hp).symm

variable (hs : (serverSystem Req Resp options maps).Reachable s)
include hs

lemma mem_clonesOf {r : Nat} : r ∈ clonesOf s Q ↔ ∃ p, CloneOf s p r ∧ Q p := by
  simp only [clonesOf, Finset.mem_biUnion, Finset.mem_filter, Finset.mem_range, mem_clones]
  constructor
  · rintro ⟨p, ⟨-, hq⟩, hclone⟩
    exact ⟨p, hclone, hq⟩
  · rintro ⟨p, hclone, hq⟩
    exact ⟨p, ⟨(reachable_cloneOf hs p r hclone).1.trans hclone.1, hq⟩, hclone⟩

/-- All `Rpc`s but those of `StartServing` are clones. -/
lemma card_clonesOf_all :
    (clonesOf s (fun _ => True)).card + (startPlaces options maps).length = s.nextRpc := by
  obtain ⟨hstart, hancestors⟩ := reachable_ancestors hs
  have hall : clonesOf s (fun _ => True) =
      Finset.Ico (startPlaces options maps).length s.nextRpc := by
    ext r
    rw [mem_clonesOf _ hs, Finset.mem_Ico]
    constructor
    · rintro ⟨p, ⟨hr, hparent⟩, -⟩
      have hne := mt (hancestors r hr).mpr (by simp [hparent])
      omega
    · rintro ⟨hle, hr⟩
      have hne := mt (hancestors r hr).mp (by omega)
      obtain ⟨p, hparent⟩ := Option.ne_none_iff_exists'.mp hne
      exact ⟨p, ⟨hr, hparent⟩, trivial⟩
  rw [hall, Nat.card_Ico]
  omega

/-- `Rpc`s have one clone each, but for as many as `StartServing` made. -/
theorem card_clonesOf_le :
    (clonesOf s Q).card ≤ ((Finset.range s.nextRpc).filter Q).card ∧
    ((Finset.range s.nextRpc).filter Q).card ≤
      (clonesOf s Q).card + (startPlaces options maps).length := by
  have hone : ∀ p ∈ Finset.range s.nextRpc, (clones s p).card + (1 - (clones s p).card) = 1 := by
    intro p hp
    have hle := (reachable_conserves hs p (Finset.mem_range.mp hp)).1
    omega
  have hpart : (clonesOf s Q).card +
      ∑ p ∈ (Finset.range s.nextRpc).filter Q, (1 - (clones s p).card) =
      ((Finset.range s.nextRpc).filter Q).card := by
    rw [card_clonesOf, ← Finset.sum_add_distrib, Finset.card_eq_sum_ones]
    exact Finset.sum_congr rfl (fun p hp => hone p (Finset.mem_of_mem_filter p hp))
  have hwhole : (clonesOf s (fun _ => True)).card +
      ∑ p ∈ Finset.range s.nextRpc, (1 - (clones s p).card) = s.nextRpc := by
    rw [card_clonesOf, Finset.filter_true, ← Finset.sum_add_distrib, Finset.sum_congr rfl hone]
    simp
  have hsub : ∑ p ∈ (Finset.range s.nextRpc).filter Q, (1 - (clones s p).card) ≤
      ∑ p ∈ Finset.range s.nextRpc, (1 - (clones s p).card) :=
    Finset.sum_le_sum_of_subset (Finset.filter_subset _ _)
  have hborn := card_clonesOf_all hs
  omega

/-- A clone has all its events on one queue if and only if its turn is that of its parent. -/
lemma routed_iff_modEq {p r : Nat} (h : CloneOf s p r) :
    (s.rpcs r).Routed ↔ r ≡ p [MOD options.numEventThreads] := by
  have hrot := reachable_rotates hs
  have hinherited := (hrot.inherited r h.1 p h.2).2
  rw [Rpc.Routed, hrot.queue r h.1]
  constructor
  · intro hrouted
    have hturn : r + 1 ≡ p + 1 [MOD options.numEventThreads] :=
      ((hrouted .done).symm.trans (hinherited .done))
    exact hturn.add_right_cancel' 1
  · intro hmod tag
    rw [hinherited tag]
    exact (hmod.add_right 1).symm

/-- An event thread handles the events of the `Rpc`s of `StartServing` whose turn is its own, and
of the clones of the `Rpc`s whose turn is its own. -/
lemma handledBy_eq (tag : Tag) (t : Nat) : handledBy s tag t =
    ((Finset.range (startPlaces options maps).length).filter
      (fun r => (r + 1) % options.numEventThreads = t)) ∪
    clonesOf s (fun p => (p + 1) % options.numEventThreads = t) := by
  have hrot := reachable_rotates hs
  obtain ⟨hstart, hancestors⟩ := reachable_ancestors hs
  ext r
  rw [Finset.mem_union, mem_clonesOf _ hs, handledBy]
  simp only [Finset.mem_filter, Finset.mem_range]
  constructor
  · rintro ⟨hr, hqueue⟩
    cases hparent : (s.rpcs r).parent with
    | none =>
      rw [hrot.own r hr hparent tag] at hqueue
      exact .inl ⟨(hancestors r hr).mp hparent, hqueue⟩
    | some p =>
      rw [(hrot.inherited r hr p hparent).2 tag] at hqueue
      exact .inr ⟨p, ⟨hr, hparent⟩, hqueue⟩
  · rintro (⟨hlt, hturn⟩ | ⟨p, hclone, hturn⟩)
    · have hr := hlt.trans_le hstart
      rw [hrot.own r hr ((hancestors r hr).mpr hlt) tag]
      exact ⟨hr, hturn⟩
    · rw [(hrot.inherited r hclone.1 p hclone.2).2 tag]
      exact ⟨hclone.1, hturn⟩

end Load

/-- The round robin of the event queues. An `Rpc` has its `WRITE_NEEDED` events on the queue of its
turn, and a clone its other events on that of its parent, so that they are the same if and only if
the two turns are. Still every event thread is woken for, and handles the events of, its share of
all `Rpc`s, up to as many as `StartServing` made. -/
theorem round_robin {s : Server Req Resp}
    (hs : (serverSystem Req Resp options maps).Reachable s) {t : Nat}
    (ht : t < options.numEventThreads) :
    (∀ p r, CloneOf s p r → ((s.rpcs r).Routed ↔ r ≡ p [MOD options.numEventThreads])) ∧
    s.nextRpc / options.numEventThreads ≤ (wokenBy s t).card ∧
    (wokenBy s t).card ≤ s.nextRpc / options.numEventThreads + 1 ∧
    ∀ tag, s.nextRpc / options.numEventThreads ≤
        (handledBy s tag t).card + (startPlaces options maps).length ∧
      (handledBy s tag t).card ≤ s.nextRpc / options.numEventThreads +
        (startPlaces options maps).length / options.numEventThreads + 2 := by
  have hturns := card_turns ht s.nextRpc
  have hwoken : wokenBy s t =
      (Finset.range s.nextRpc).filter (fun r => (r + 1) % options.numEventThreads = t) := by
    refine Finset.filter_congr (fun r hr => ?_)
    rw [(reachable_rotates hs).queue r (Finset.mem_range.mp hr)]
  refine ⟨fun p r => routed_iff_modEq hs, hwoken ▸ hturns.1, hwoken ▸ hturns.2, fun tag => ?_⟩
  obtain ⟨hclones, hparents⟩ :=
    card_clonesOf_le (fun p => (p + 1) % options.numEventThreads = t) hs
  have hfirst := (card_turns ht (startPlaces options maps).length).2
  have hunion := handledBy_eq hs tag t
  constructor
  · have hsub := Finset.card_le_card (Finset.subset_union_right.trans hunion.ge)
    omega
  · have hle := (congrArg Finset.card hunion).trans_le (Finset.card_union_le _ _)
    omega

theorem round_robin_of_run :
    ∃ s, (serverSystem Nat Nat twoEventThreads sequenceService).Reachable s ∧ CloneOf s 0 1 ∧
      ¬ (s.rpcs 1).Routed ∧ (wokenBy s 1).card ≤ 2 ∧ ∀ tag, (handledBy s tag 1).card ≤ 3 := by
  obtain ⟨s, hs, hp⟩ := exists_reachable twoEventThreads sequenceService firstConnection
    (fun s => s.nextRpc = 2 ∧ (s.rpcs 1).parent = some 0) (by decide +kernel)
  obtain ⟨hn, hparent⟩ := of_decide_eq_true hp
  have hclone : CloneOf s 0 1 := ⟨by omega, hparent⟩
  obtain ⟨hrouted, -, hwoken, hhandled⟩ := round_robin hs (show 1 < 2 by decide)
  rw [hn] at hwoken hhandled
  refine ⟨s, hs, hclone, ?_, hwoken, fun tag => (hhandled tag).2⟩
  rw [hrouted 0 1 hclone]
  decide

end AsyncGrpc.Proofs
