import AsyncGrpc.Proofs.Listeners
import AsyncGrpc.Proofs.MethodNames

/-!
# From the registered handlers to the `Rpc`s

`RegisterHandler` files a handler under the two parts of its method's name, `Build` makes one
service of each map of methods, and `StartServing` numbers the methods in the order of the map. The
full name in a handler info tells the way back: from an `Rpc` of a running server to the entry, and
to the handler that was registered first with its key.
-/

namespace AsyncGrpc.Proofs

open Std Transition Tokens Server Server.Builder

variable {Req Resp : Type} {options : Options}

/-! ### The positions of the entries -/

/-- The entry of a key, by the number of its service and of its method. -/
def Entry (b : Builder) (v i : Nat) (key : String × String) (info : RpcHandlerInfo) : Prop :=
  ∃ methods, b.rpcHandlers.toList[v]? = some (key.1, methods) ∧
    methods.toList[i]? = some (key.2, info)

lemma position_unique {α β : Type} {l : List (α × β)} (hl : (l.map Prod.fst).Nodup) {k : α}
    {x y : β} {i j : Nat} (hi : l[i]? = some (k, x)) (hj : l[j]? = some (k, y)) : i = j := by
  have hlt : i < (l.map Prod.fst).length := by
    rw [List.length_map]
    exact (List.getElem?_eq_some_iff.mp hi).1
  refine (List.getElem?_inj hlt hl).mp ?_
  rw [List.getElem?_map, List.getElem?_map, hi, hj]
  rfl

lemma toList_position_unique {β : Type} {m : TreeMap String β} {k : String} {x y : β} {i j : Nat}
    (hi : m.toList[i]? = some (k, x)) (hj : m.toList[j]? = some (k, y)) : i = j :=
  position_unique (TreeMap.map_fst_toList_eq_keys ▸ TreeMap.nodup_keys) hi hj

lemma Entry.unique {b : Builder} {v v' i i' : Nat} {key : String × String}
    {info info' : RpcHandlerInfo} (h : Entry b v i key info) (h' : Entry b v' i' key info') :
    v = v' ∧ i = i' := by
  obtain ⟨methods, hservice, hmethod⟩ := h
  obtain ⟨methods', hservice', hmethod'⟩ := h'
  obtain rfl := toList_position_unique hservice hservice'
  rw [hservice] at hservice'
  cases hservice'
  exact ⟨rfl, toList_position_unique hmethod hmethod'⟩

/-- The entries are those of the two maps. -/
lemma exists_entry_iff {b : Builder} {key : String × String} {info : RpcHandlerInfo} :
    (∃ v i, Entry b v i key info) ↔ b.handlerInfo key = some info := by
  rw [handlerInfo, Option.bind_eq_some_iff]
  constructor
  · rintro ⟨v, i, methods, hservice, hmethod⟩
    exact ⟨methods, TreeMap.mem_toList_iff_getElem?_eq_some.mp (List.mem_of_getElem? hservice),
      TreeMap.mem_toList_iff_getElem?_eq_some.mp (List.mem_of_getElem? hmethod)⟩
  · rintro ⟨methods, hservice, hmethod⟩
    obtain ⟨v, hv⟩ := List.mem_iff_getElem?.mp (TreeMap.mem_toList_iff_getElem?_eq_some.mpr hservice)
    obtain ⟨i, hi⟩ := List.mem_iff_getElem?.mp (TreeMap.mem_toList_iff_getElem?_eq_some.mpr hmethod)
    exact ⟨v, i, methods, hv, hi⟩

lemma Entry.services {b : Builder} {v i : Nat} {key : String × String} {info : RpcHandlerInfo}
    (h : Entry b v i key info) : (b.services.getD v [])[i]? = some (key.2, info) := by
  obtain ⟨methods, hservice, hmethod⟩ := h
  rw [List.getD_eq_getElem?_getD, Builder.services, List.getElem?_map, hservice]
  exact hmethod

lemma Entry.keys {b : Builder} {v i : Nat} {key : String × String} {info : RpcHandlerInfo}
    (h : Entry b v i key info) : b.rpcHandlers.keys[v]? = some key.1 := by
  obtain ⟨methods, hservice, -⟩ := h
  rw [← TreeMap.map_fst_toList_eq_keys, List.getElem?_map, hservice]
  rfl

lemma exists_entry_of_services {b : Builder} {v i : Nat} {name : String} {info : RpcHandlerInfo}
    (hv : v < b.services.length) (h : (b.services.getD v [])[i]? = some (name, info)) :
    ∃ service, Entry b v i (service, name) info := by
  rw [Builder.services, List.length_map] at hv
  rw [List.getD_eq_getElem?_getD, Builder.services, List.getElem?_map,
    List.getElem?_eq_getElem hv] at h
  exact ⟨_, _, List.getElem?_eq_getElem hv, h⟩

/-- Every `Rpc` is made for an entry. -/
lemma reachable_entry {b : Builder} {s : Server Req Resp}
    (hs : (serverSystem Req Resp b.options b.services).Reachable s) {r : Nat} (hr : r < s.nextRpc) :
    ∃ key, Entry b (s.rpcs r).service (s.rpcs r).methodIndex key (s.rpcs r).rpcHandlerInfo := by
  have hregistered := reachable_registered hs hr
  obtain ⟨name, hname⟩ := hregistered.method
  obtain ⟨service, hentry⟩ := exists_entry_of_services hregistered.service hname
  exact ⟨_, hentry⟩

/-! ### The handlers -/

/-- The handler that was registered first with a key. -/
def firstHandler (handlers : List RpcHandlerType) (key : String × String) : Option RpcHandlerType :=
  handlers.find? (fun h => decide (parseMethodFullName h.methodName = .ok key))

lemma firstHandler_parse {handlers : List RpcHandlerType} {key : String × String}
    {handler : RpcHandlerType} (h : firstHandler handlers key = some handler) :
    parseMethodFullName handler.methodName = .ok key := by
  simpa using List.find?_some h

section Registered

variable {handlers : List RpcHandlerType} {b : Builder}
  (hreg : registerHandlers (.new options) handlers = .ok b)
include hreg

lemma handlerInfo_eq_firstHandler (key : String × String) :
    b.handlerInfo key = (firstHandler handlers key).map RpcHandlerType.info := by
  rw [handlerInfo_registerHandlers hreg, handlerInfo_new, Option.none_or]
  rfl

/-- A handler info has one entry, that of the key its full name has. -/
lemma Entry.firstHandler {v i : Nat} {key : String × String} {info : RpcHandlerInfo}
    (h : Entry b v i key info) :
    ∃ handler, Proofs.firstHandler handlers key = some handler ∧ handler.info = info := by
  have hinfo := exists_entry_iff.mp ⟨v, i, h⟩
  rw [handlerInfo_eq_firstHandler hreg] at hinfo
  exact Option.map_eq_some_iff.mp hinfo

lemma Entry.parse {v i : Nat} {key : String × String} {info : RpcHandlerInfo}
    (h : Entry b v i key info) : parseMethodFullName info.fullyQualifiedName = .ok key := by
  obtain ⟨handler, hfirst, rfl⟩ := h.firstHandler hreg
  exact firstHandler_parse hfirst

lemma exists_entry_of_firstHandler {key : String × String} {handler : RpcHandlerType}
    (h : Proofs.firstHandler handlers key = some handler) :
    ∃ v i, Entry b v i key handler.info := by
  rw [exists_entry_iff, handlerInfo_eq_firstHandler hreg, h]
  rfl

/-- The place of an `Rpc` is told by its handler info. -/
lemma reachable_place_iff {s : Server Req Resp}
    (hs : (serverSystem Req Resp b.options b.services).Reachable s) {r : Nat} (hr : r < s.nextRpc)
    {v i : Nat} {key : String × String} {info : RpcHandlerInfo} (h : Entry b v i key info) :
    (s.rpcs r).rpcHandlerInfo = info ↔ (s.rpcs r).service = v ∧ (s.rpcs r).methodIndex = i := by
  obtain ⟨key', hentry⟩ := reachable_entry hs hr
  constructor
  · intro hinfo
    have hkey : key' = key := by
      have hparse := hentry.parse hreg
      rw [hinfo, h.parse hreg] at hparse
      exact (Except.ok.inj hparse).symm
    subst hkey
    exact hentry.unique h
  · rintro ⟨rfl, rfl⟩
    have heq := hentry.services.symm.trans h.services
    exact congrArg Prod.snd (Option.some.inj heq)

end Registered

/-- The handler that was registered first with a key is served: while its service is not told to
stop, on every completion queue exactly one `Rpc` made with its info awaits a connection. No other
handler ever has an `Rpc`. -/
theorem registered_listens {handlers : List RpcHandlerType} {b : Builder}
    (hreg : registerHandlers (.new options) handlers = .ok b) :
    (∀ key handler, firstHandler handlers key = some handler →
      ∃ v, b.rpcHandlers.keys[v]? = some key.1 ∧ ∀ s : Server Req Resp,
        (serverSystem Req Resp b.options b.services).Reach (fun _ l => l ≠ .stopServing v) s →
        ∀ cq < b.options.numGrpcThreads, ∃! r, r < s.nextRpc ∧
          (s.rpcs r).rpcHandlerInfo = handler.info ∧ (s.rpcs r).serverCompletionQueue = cq ∧
          0 < awaiting s r) ∧
    ∀ s : Server Req Resp, (serverSystem Req Resp b.options b.services).Reachable s →
      ∀ r < s.nextRpc, ∃ key handler, firstHandler handlers key = some handler ∧
        (s.rpcs r).rpcHandlerInfo = handler.info := by
  constructor
  · intro key handler hfirst
    obtain ⟨v, i, hentry⟩ := exists_entry_of_firstHandler hreg hfirst
    refine ⟨v, hentry.keys, fun s hs cq hcq => ?_⟩
    have hi := (List.getElem?_eq_some_iff.mp hentry.services).1
    obtain ⟨r, ⟨hr, hplace, hawaits⟩, hunique⟩ :=
      existsUnique_of_tokens_eq_one (reach_listeners hs hi hcq)
    have hiff := fun r hr => reachable_place_iff hreg hs.reachable (r := r) hr hentry
    simp only [place, Prod.mk.injEq] at hplace hunique
    obtain ⟨hv, hi, hqueue⟩ := hplace
    refine ⟨r, ⟨hr, (hiff r hr).mpr ⟨hv, hi⟩, hqueue, hawaits⟩, ?_⟩
    rintro r' ⟨hr', hinfo, hqueue', hawaits'⟩
    obtain ⟨hv', hi'⟩ := (hiff r' hr').mp hinfo
    exact hunique r' ⟨hr', ⟨hv', hi', hqueue'⟩, hawaits'⟩
  · intro s hs r hr
    obtain ⟨key, hentry⟩ := reachable_entry hs hr
    obtain ⟨handler, hfirst, hinfo⟩ := hentry.firstHandler hreg
    exact ⟨key, handler, hfirst, hinfo.symm⟩

/-- A handler whose name goes on after that of another is never served. -/
theorem registered_listens_of_two :
    ∃ b, registerHandlers (.new ⟨1, 1, by decide⟩)
        [⟨"/a/b", .normalRpc, 1⟩, ⟨"/a/b/c", .normalRpc, 2⟩] = .ok b ∧
      (∃ v, b.rpcHandlers.keys[v]? = some "a" ∧ ∀ s : Server Nat Nat,
        (serverSystem Nat Nat b.options b.services).Reach (fun _ l => l ≠ .stopServing v) s →
        ∀ cq < b.options.numGrpcThreads, ∃! r, r < s.nextRpc ∧
          (s.rpcs r).rpcHandlerInfo = ⟨1, .normalRpc, "/a/b"⟩ ∧
          (s.rpcs r).serverCompletionQueue = cq ∧ 0 < awaiting s r) ∧
      ∀ s : Server Nat Nat, (serverSystem Nat Nat b.options b.services).Reachable s →
        ∀ r < s.nextRpc, (s.rpcs r).rpcHandlerInfo ≠ ⟨2, .normalRpc, "/a/b/c"⟩ := by
  have hab : parseMethodFullName "/a/b" = .ok ("a", "b") := by decide +kernel
  have habc : parseMethodFullName "/a/b/c" = .ok ("a", "b") := by decide +kernel
  have hreg : registerHandlers (.new ⟨1, 1, by decide⟩)
      [⟨"/a/b", .normalRpc, 1⟩, ⟨"/a/b/c", .normalRpc, 2⟩] = registerHandlers _ [] :=
    (registerHandlers_accepted hab _ _).trans (registerHandlers_accepted habc _ _)
  obtain ⟨hserved, honly⟩ := registered_listens hreg
  refine ⟨_, hreg, hserved ("a", "b") ⟨"/a/b", .normalRpc, 1⟩ (by decide +kernel), ?_⟩
  intro s hs r hr hinfo
  obtain ⟨key, handler, hfirst, heq⟩ := honly s hs r hr
  have hname : handler.methodName = "/a/b/c" :=
    congrArg RpcHandlerInfo.fullyQualifiedName (heq.symm.trans hinfo)
  have hkey := firstHandler_parse hfirst
  rw [hname, habc] at hkey
  cases hkey
  rw [show firstHandler _ ("a", "b") = some ⟨"/a/b", .normalRpc, 1⟩ by decide +kernel] at hfirst
  cases hfirst
  cases heq.symm.trans hinfo

/-- The started server is the one that `Build` makes, after `StartServing` of each service. -/
example (b : Builder) : Server.start b.options b.services =
    (List.range b.services.length).foldl (fun s v => startServing v 0 (b.services.getD v []) s)
      (b.build : Server Req Resp) :=
  rfl

end AsyncGrpc.Proofs
