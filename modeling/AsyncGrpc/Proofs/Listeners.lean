import AsyncGrpc.Proofs.Awaiting

/-!
# The listeners of a service

For each method and completion queue of a service that is not shutting down there is exactly
one `Rpc` that awaits a connection: `StartServing` makes one for each, and no step changes their
number. Every `Rpc` is registered under the index of the method whose handler info it holds.
-/

namespace AsyncGrpc.Proofs

open Function Transition Tokens

variable {Req Resp : Type} {options : Options} {maps : List (List (String × RpcHandlerInfo))}

/-! ### The started server -/

/-- What the `Rpc`s of a server are registered for, in the order in which they were made. -/
def places (s : Server Req Resp) : List (Nat × Nat × Nat) :=
  (List.range s.nextRpc).map (fun r => place (s.rpcs r))

lemma addRpc_places (s : Server Req Resp) (x : Rpc Req Resp) :
    places (s.addRpc x) = places s ++ [place x] := by
  have hold : (List.range s.nextRpc).map (fun r => place ((s.addRpc x).rpcs r)) = places s := by
    apply List.map_congr_left
    intro r hr
    rw [addRpc_rpcs_old _ _ (List.mem_range.mp hr)]
  unfold places at hold ⊢
  rw [show (s.addRpc x).nextRpc = s.nextRpc + 1 from rfl, List.range_succ, List.map_append, hold,
    List.map_singleton, addRpc_place_new]

lemma startMethod_places (s : Server Req Resp) (v i : Nat) (info : RpcHandlerInfo) :
    (s.startMethod v i info).options = s.options ∧ places (s.startMethod v i info) =
      places s ++ (List.range s.options.numGrpcThreads).map (fun cq => (v, i, cq)) := by
  unfold Server.startMethod
  generalize List.range s.options.numGrpcThreads = cqs
  induction cqs generalizing s with
  | nil => exact ⟨rfl, (List.append_nil _).symm⟩
  | cons cq cqs ih =>
    obtain ⟨ho, hp⟩ := ih (s.addRpc (.new i cq s.nextEventQueue info v))
    refine ⟨ho, hp.trans ?_⟩
    rw [addRpc_places, List.append_assoc]
    rfl

lemma startServing_places (v i : Nat) (infos : List (String × RpcHandlerInfo))
    (s : Server Req Resp) :
    (Server.startServing v i infos s).options = s.options ∧
      places (Server.startServing v i infos s) = places s ++
        (List.range' i infos.length).flatMap (fun j =>
          (List.range s.options.numGrpcThreads).map (fun cq => (v, j, cq))) := by
  induction infos generalizing i s with
  | nil => exact ⟨rfl, (List.append_nil _).symm⟩
  | cons info infos ih =>
    obtain ⟨ho, hp⟩ := startMethod_places s v i info.2
    obtain ⟨ho', hp'⟩ := ih (i + 1) (s.startMethod v i info.2)
    refine ⟨ho'.trans ho, hp'.trans ?_⟩
    rw [hp, ho, List.append_assoc, List.length_cons, List.range'_succ, List.flatMap_cons]

/-- The order in which `Server::Start` registers `Rpc`s: by service, method, completion queue. -/
def startPlaces (options : Options) (maps : List (List (String × RpcHandlerInfo))) :
    List (Nat × Nat × Nat) :=
  (List.range maps.length).flatMap (fun v =>
    (List.range (maps.getD v []).length).flatMap (fun i =>
      (List.range options.numGrpcThreads).map (fun cq => (v, i, cq))))

lemma start_places : places (Server.start options maps : Server Req Resp) =
    startPlaces options maps := by
  have hloop : ∀ (services : List Nat) (s : Server Req Resp), s.options = options →
      places (services.foldl (fun s v => Server.startServing v 0 (maps.getD v []) s) s) =
        places s ++ services.flatMap (fun v =>
          (List.range (maps.getD v []).length).flatMap (fun i =>
            (List.range options.numGrpcThreads).map (fun cq => (v, i, cq)))) := by
    intro services
    induction services with
    | nil => exact fun s _ => (List.append_nil _).symm
    | cons v services ih =>
      intro s ho
      obtain ⟨ho', hp⟩ := startServing_places v 0 (maps.getD v []) s
      rw [List.foldl_cons, ih _ (ho'.trans ho), hp, ho, List.append_assoc, List.flatMap_cons,
        ← List.range_eq_range']
  exact hloop (List.range maps.length) _ rfl

lemma startPlaces_nodup (options : Options) (maps : List (List (String × RpcHandlerInfo))) :
    (startPlaces options maps).Nodup := by
  unfold startPlaces
  refine List.nodup_flatMap.mpr ⟨fun v _ => List.nodup_flatMap.mpr ⟨fun i _ => ?_, ?_⟩, ?_⟩
  · exact List.nodup_range.map (fun cq cq' h => by simpa using h)
  · refine List.nodup_range.imp (fun {i j} hne => ?_)
    simp only [Function.onFun, List.disjoint_left, List.mem_map]
    rintro k ⟨cq, -, rfl⟩ ⟨cq', -, h⟩
    exact hne (congrArg (fun k => k.2.1) h).symm
  · refine List.nodup_range.imp (fun {v w} hne => ?_)
    simp only [Function.onFun, List.disjoint_left, List.mem_flatMap, List.mem_map]
    rintro k ⟨i, -, cq, -, rfl⟩ ⟨j, -, cq', -, h⟩
    exact hne (congrArg (fun k => k.1) h).symm

lemma mem_startPlaces {v i cq : Nat} (hi : i < (maps.getD v []).length)
    (hcq : cq < options.numGrpcThreads) : (v, i, cq) ∈ startPlaces options maps := by
  have hv : v < maps.length := by
    by_contra hv
    rw [List.getD_eq_getElem?_getD, List.getElem?_eq_none (by omega)] at hi
    cases hi
  simp only [startPlaces, List.mem_flatMap, List.mem_map, List.mem_range]
  exact ⟨v, hv, i, hi, cq, hcq, rfl⟩

lemma start_listeners {v i cq : Nat} (hi : i < (maps.getD v []).length)
    (hcq : cq < options.numGrpcThreads) :
    listeners (Server.start options maps : Server Req Resp) (v, i, cq) = 1 := by
  have hcount : Quiet (Server.start options maps : Server Req Resp) ∧
      Housed (Server.start options maps : Server Req Resp) ∧
      ∀ k, listeners (Server.start options maps : Server Req Resp) k =
        (places (Server.start options maps : Server Req Resp)).count k := by
    apply start_induction (P := fun s : Server Req Resp => Quiet s ∧ Housed s ∧
      ∀ k, listeners s k = (places s).count k)
    · exact ⟨new_quiet, new_housed, fun _ => rfl⟩
    · rintro s v i cq info _ _ ⟨hq, hh, hk⟩
      refine ⟨hq.addRpc _, hq.addRpc_housed hh _, fun k => ?_⟩
      rw [addRpc_listeners hh _ rfl, addRpc_places, List.count_append, hk k, List.count_singleton]
      simp
  rw [hcount.2.2, start_places]
  exact List.count_eq_one_of_mem (startPlaces_nodup options maps) (mem_startPlaces hi hcq)

/-- Every method of a service that is not told to stop has one connection awaited on every
completion queue, in every state of every run. -/
theorem reach_listeners {v i cq : Nat} {s : Server Req Resp}
    (hs : (serverSystem Req Resp options maps).Reach (fun _ l => l ≠ .stopServing v) s)
    (hi : i < (maps.getD v []).length) (hcq : cq < options.numGrpcThreads) :
    listeners s (v, i, cq) = 1 := by
  apply hs.invariant (P := fun s => listeners s (v, i, cq) = 1)
  · rintro s rfl
    exact start_listeners hi hcq
  · intro s l s' hr hP _ hstep
    have hreach := hr.reachable
    rw [moves_listeners (step_moves hstep).2 (reachable_housed hreach) (reachable_posted hreach)
      (reach_serving hr)]
    exact hP

/-! ### What an `Rpc` is registered for -/

/-- An `Rpc` holds the handler info of the method that the constructor of its service has
registered at the position `method_index_`. -/
structure Indexed (service : Service) (x : Rpc Req Resp) : Prop where
  info : ∃ name, service.rpcHandlerInfos[x.methodIndex]? = some (name, x.rpcHandlerInfo)
  method : service.methods[x.methodIndex]? =
    some (x.rpcHandlerInfo.fullyQualifiedName, x.rpcHandlerInfo.rpcType)

/-- The `Rpc` `r` is a clone of the `Rpc` `p`. -/
def CloneOf (s : Server Req Resp) (p r : Nat) : Prop :=
  r < s.nextRpc ∧ (s.rpcs r).parent = some p

theorem reachable_registered {s : Server Req Resp}
    (hs : (serverSystem Req Resp options maps).Reachable s) {r : Nat} (hr : r < s.nextRpc) :
    Registered options maps (s.rpcs r).service (s.rpcs r).methodIndex
      (s.rpcs r).serverCompletionQueue (s.rpcs r).rpcHandlerInfo := by
  apply reachable_rpcs (P := fun x : Rpc Req Resp => Registered options maps x.service x.methodIndex
    x.serverCompletionQueue x.rpcHandlerInfo) _ _ _ hs r hr
  · intro x y hxy hx
    rwa [hxy.service, hxy.methodIndex, hxy.serverCompletionQueue, hxy.rpcHandlerInfo]
  · exact fun v i cq q info hreg _ => hreg
  · exact fun x p q _ hx => hx

lemma reachable_indexed {s : Server Req Resp}
    (hs : (serverSystem Req Resp options maps).Reachable s) {r : Nat} (hr : r < s.nextRpc) :
    Indexed (s.services (s.rpcs r).service) (s.rpcs r) := by
  obtain ⟨name, hinfo⟩ := (reachable_registered hs hr).method
  have hreg := reachable_registration hs (s.rpcs r).service
  refine ⟨⟨name, ?_⟩, ?_⟩
  · rw [show (s.services (s.rpcs r).service).rpcHandlerInfos = _ from congrArg Prod.fst hreg]
    exact hinfo
  · rw [show (s.services (s.rpcs r).service).methods = _ from congrArg Prod.snd hreg,
      List.getElem?_map, hinfo]
    rfl

/-- A clone is made after the `Rpc` it is a clone of, for the same method and completion queue. -/
lemma reachable_cloneOf {s : Server Req Resp}
    (hs : (serverSystem Req Resp options maps).Reachable s) :
    ∀ p r, CloneOf s p r → p < r ∧ place (s.rpcs r) = place (s.rpcs p) := by
  apply hs.invariant (P := fun s => ∀ p r, CloneOf s p r →
    p < r ∧ place (s.rpcs r) = place (s.rpcs p))
  · rintro s rfl
    apply start_induction (P := fun s : Server Req Resp => ∀ p r, CloneOf s p r →
      p < r ∧ place (s.rpcs r) = place (s.rpcs p))
    · exact fun p r h => absurd h.1 (Nat.not_lt_zero r)
    · rintro s v i cq info _ _ ih p r ⟨hr, hparent⟩
      rcases Nat.lt_succ_iff_lt_or_eq.mp hr with hr | rfl
      · rw [addRpc_rpcs_old _ _ hr] at hparent ⊢
        obtain ⟨hlt, hplace⟩ := ih p r ⟨hr, hparent⟩
        rw [addRpc_rpcs_old _ _ (hlt.trans hr)]
        exact ⟨hlt, hplace⟩
      · rw [addRpc_rpcs_new] at hparent
        cases hparent
  · rintro s l s' hreach ih _ hstep p r ⟨hr, hparent⟩
    have hmoves := (step_moves hstep).2
    by_cases hold : r < s.nextRpc
    · obtain ⟨hlt, hplace⟩ := ih p r ⟨hold, (moves_samePlace hmoves hold).parent ▸ hparent⟩
      refine ⟨hlt, ?_⟩
      rw [(moves_samePlace hmoves hold).place, (moves_samePlace hmoves (hlt.trans hold)).place, hplace]
    · obtain ⟨t, acts, p', rest, rfl, htask, rfl⟩ := moves_born hmoves (by omega)
      obtain rfl : r = s.nextRpc := by
        have : r < s.nextRpc + 1 := hr
        omega
      have hlt := ((reachable_housed hreach).tasks t (by simp [htask])).1
      rw [htask] at hlt
      have hnew : s.nextRpc = (s.setTask t ⟨p', rest⟩).nextRpc := rfl
      rw [hnew, cloneRpc_rpcs_new] at hparent ⊢
      obtain rfl : p' = p := Option.some.inj hparent
      refine ⟨hlt, ?_⟩
      rw [(requestNextMethodInvocation_samePlace _).place, Server.cloneRpc,
        addRpc_rpcs_old _ _ (by exact hlt)]
      rfl

/-- However often an `Rpc` was cloned, what it is registered for is that of its ancestor. -/
theorem reachable_ancestor {s : Server Req Resp}
    (hs : (serverSystem Req Resp options maps).Reachable s) {a r : Nat}
    (h : Relation.ReflTransGen (CloneOf s) a r) : place (s.rpcs r) = place (s.rpcs a) := by
  induction h with
  | refl => rfl
  | tail _ hclone ih => exact (reachable_cloneOf hs _ _ hclone).2.trans ih

/-- While a service is not told to stop, exactly one `Rpc` awaits a connection for each of its
methods on each completion queue, and every `Rpc` of the server is registered under the index of
the method whose handler info it holds, on the completion queue of its ancestors. -/
theorem one_listener {v : Nat} {s : Server Req Resp}
    (hs : (serverSystem Req Resp options maps).Reach (fun _ l => l ≠ .stopServing v) s) :
    (∀ i < (s.services v).methods.length, ∀ cq < s.options.numGrpcThreads,
      ∃! r, r < s.nextRpc ∧ place (s.rpcs r) = (v, i, cq) ∧ 0 < awaiting s r) ∧
    ((Finset.range s.nextRpc).filter (fun r => (s.rpcs r).service = v ∧ 0 < awaiting s r)).card =
      s.options.numGrpcThreads * (s.services v).methods.length ∧
    ∀ r < s.nextRpc, Indexed (s.services (s.rpcs r).service) (s.rpcs r) ∧
      ∀ a, Relation.ReflTransGen (CloneOf s) a r → place (s.rpcs r) = place (s.rpcs a) := by
  have hreach := hs.reachable
  have hmethods : (s.services v).methods.length = (maps.getD v []).length := by
    rw [show (s.services v).methods = _ from congrArg Prod.snd (reachable_registration hreach v),
      List.length_map]
  rw [hmethods, reachable_options hreach]
  have hone : ∀ i < (maps.getD v []).length, ∀ cq < options.numGrpcThreads,
      listeners s (v, i, cq) = 1 := fun i hi cq hcq => reach_listeners hs hi hcq
  refine ⟨fun i hi cq hcq => existsUnique_of_tokens_eq_one (hone i hi cq hcq), ?_,
    fun r hr => ⟨reachable_indexed hreach hr, fun a => reachable_ancestor hreach⟩⟩
  -- The places of the service, with one listener each.
  let kinds := ({v} : Finset Nat) ×ˢ Finset.range (maps.getD v []).length ×ˢ
    Finset.range options.numGrpcThreads
  have hcard : kinds.card = options.numGrpcThreads * (maps.getD v []).length := by
    simp [kinds, Nat.mul_comm]
  have hkinds : ∀ k ∈ kinds, listeners s k = 1 := by
    rintro ⟨w, i, cq⟩ hk
    simp only [kinds, Finset.mem_product, Finset.mem_singleton, Finset.mem_range] at hk
    obtain ⟨rfl, hi, hcq⟩ := hk
    exact hone i hi cq hcq
  have hholders : ((Finset.range s.nextRpc).filter
      (fun r => place (s.rpcs r) ∈ kinds ∧ 0 < awaiting s r)).card = kinds.card := card_holders hkinds
  rw [← hcard, ← hholders]
  congr 1
  apply Finset.filter_congr
  intro r hr
  have hreg := reachable_registered hreach (Finset.mem_range.mp hr)
  obtain ⟨name, hinfo⟩ := hreg.method
  have hi := (List.getElem?_eq_some_iff.mp hinfo).1
  simp only [kinds, place, Finset.mem_product, Finset.mem_singleton, Finset.mem_range]
  constructor
  · rintro ⟨rfl, hpos⟩
    exact ⟨⟨rfl, hi, hreg.completionQueue⟩, hpos⟩
  · rintro ⟨⟨hv, -⟩, hpos⟩
    exact ⟨hv, hpos⟩

/-- A service with two methods. -/
def squareService : List (List (String × RpcHandlerInfo)) :=
  [[("GetSequence", ⟨0, .serverStreaming, "/async_grpc.proto.Math/GetSequence"⟩),
    ("GetSquare", ⟨1, .normalRpc, "/async_grpc.proto.Math/GetSquare"⟩)]]

def twoQueues : Options := { twoEventThreads with numGrpcThreads := 2 }

theorem one_listener_of_run :
    ∃ s, (serverSystem Nat Nat twoQueues squareService).Reach (fun _ l => l ≠ .stopServing 0) s ∧
      CloneOf s 0 4 ∧ awaiting s 0 = 0 ∧ awaiting s 4 = 1 ∧
      (∃! r, r < s.nextRpc ∧ place (s.rpcs r) = (0, 0, 0) ∧ 0 < awaiting s r) ∧
      ((Finset.range s.nextRpc).filter
        (fun r => (s.rpcs r).service = 0 ∧ 0 < awaiting s r)).card = 4 := by
  obtain ⟨s, hs, hp⟩ := exists_reach twoQueues squareService
    (G := fun _ l => l ≠ .stopServing 0) (fun _ l => decide (l ≠ .stopServing 0))
    (fun _ _ h => of_decide_eq_true h) firstConnection
    (fun s => s.options.numGrpcThreads = 2 ∧ (s.services 0).methods.length = 2 ∧
      (4 < s.nextRpc ∧ (s.rpcs 4).parent = some 0) ∧ awaiting s 0 = 0 ∧ awaiting s 4 = 1)
    (by decide +kernel)
  obtain ⟨hn, hm, hclone, hparent, hchild⟩ := of_decide_eq_true hp
  obtain ⟨hone, htotal, -⟩ := one_listener hs
  rw [hn, hm] at hone htotal
  exact ⟨s, hs, hclone, hparent, hchild, hone 0 (by decide) 0 (by decide), htotal⟩

end AsyncGrpc.Proofs
