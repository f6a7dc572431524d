import AsyncGrpc.Proofs.ServerSteps

/-!
# The started server

The two loops of `StartServing` add one `Rpc` for each method and completion queue. An
induction rule for them carries every fact about the started server.
-/

namespace AsyncGrpc.Proofs

open Function Transition

variable {Req Resp : Type} {options : Options} {maps : List (List (String × RpcHandlerInfo))}

/-- What `StartServing` passes to the constructor of an `Rpc`. -/
structure Registered (options : Options) (maps : List (List (String × RpcHandlerInfo)))
    (v i cq : Nat) (info : RpcHandlerInfo) : Prop where
  service : v < maps.length
  completionQueue : cq < options.numGrpcThreads
  method : ∃ name, (maps.getD v [])[i]? = some (name, info)

lemma startMethod_induction {P : Server Req Resp → Prop} {v i : Nat} {info : RpcHandlerInfo}
    (hadd : ∀ s cq, cq < options.numGrpcThreads → s.options = options → P s →
      P (s.addRpc (.new i cq s.nextEventQueue info v)))
    {s : Server Req Resp} (ho : s.options = options) (hs : P s) :
    (s.startMethod v i info).options = options ∧ P (s.startMethod v i info) := by
  unfold Server.startMethod
  rw [ho]
  generalize hn : List.range options.numGrpcThreads = cqs
  have hcqs : ∀ cq ∈ cqs, cq < options.numGrpcThreads := by
    intro cq hcq
    rw [← hn] at hcq
    exact List.mem_range.mp hcq
  clear hn
  induction cqs generalizing s with
  | nil => exact ⟨ho, hs⟩
  | cons cq cqs ih =>
    exact ih (by exact ho) (hadd s cq (hcqs cq (by simp)) ho hs)
      (fun cq' h => hcqs cq' (List.mem_cons_of_mem _ h))

lemma startServing_induction {P : Server Req Resp → Prop} {v : Nat} (hv : v < maps.length)
    (hadd : ∀ s v i cq info, Registered options maps v i cq info → s.options = options → P s →
      P (s.addRpc (.new i cq s.nextEventQueue info v)))
    (front infos : List (String × RpcHandlerInfo)) (hmap : maps.getD v [] = front ++ infos)
    {s : Server Req Resp} (ho : s.options = options) (hs : P s) :
    (Server.startServing v front.length infos s).options = options ∧
      P (Server.startServing v front.length infos s) := by
  induction infos generalizing front s with
  | nil => exact ⟨ho, hs⟩
  | cons info infos ih =>
    have hinfo : (maps.getD v [])[front.length]? = some (info.1, info.2) := by
      rw [hmap]
      simp
    have hm := startMethod_induction
      (fun s cq hcq ho hP => hadd s v front.length cq info.2 ⟨hv, hcq, info.1, hinfo⟩ ho hP) ho hs
    have hi := ih (front ++ [info]) (by rw [hmap]; simp) hm.1 hm.2
    simpa only [List.length_append, List.length_singleton, Server.startServing] using hi

/-- A property of the server under construction that `addRpc` keeps holds of the started
server. -/
theorem start_induction {P : Server Req Resp → Prop}
    (hnew : P (.new options (fun v => maps.getD v [])))
    (hadd : ∀ s v i cq info, Registered options maps v i cq info → s.options = options → P s →
      P (s.addRpc (.new i cq s.nextEventQueue info v))) :
    P (.start options maps) := by
  unfold Server.start
  generalize hn : List.range maps.length = services
  have hservices : ∀ v ∈ services, v < maps.length := by
    intro v hv
    rw [← hn] at hv
    exact List.mem_range.mp hv
  clear hn
  have ho : (Server.new options (fun v => maps.getD v []) : Server Req Resp).options = options := rfl
  generalize (Server.new options (fun v => maps.getD v []) : Server Req Resp) = s at hnew ho
  induction services generalizing s with
  | nil => exact hnew
  | cons v services ih =>
    have hv := startServing_induction (hservices v (by simp)) hadd [] (maps.getD v []) rfl ho hnew
    exact ih (fun v' h => hservices v' (List.mem_cons_of_mem _ h)) _ hv.2 hv.1

/-- Nothing has happened on the server yet. -/
structure Quiet (s : Server Req Resp) : Prop where
  eventQueues : ∀ t, s.eventQueues t = []
  tasks : ∀ t, (s.tasks t).code = []
  inHand : ∀ cq, s.inHand cq = none
  writers : ∀ r, s.writers r = []
  fault : s.fault = none

lemma Quiet.addRpc {s : Server Req Resp} (h : Quiet s) (x : Rpc Req Resp) : Quiet (s.addRpc x) :=
  ⟨h.eventQueues, h.tasks, h.inHand, h.writers, h.fault⟩

lemma Quiet.housed {s : Server Req Resp} (h : Quiet s)
    (hactive : ∀ v, ∀ r ∈ (s.services v).activeRpcs, r < s.nextRpc ∧ (s.rpcs r).service = v) :
    Housed s where
  queues := fun t e he => absurd he (by simp [h.eventQueues t])
  tasks := fun t ht => absurd (h.tasks t) ht
  inHand := fun cq r tag ok hr => absurd hr (by simp [h.inHand cq])
  writers := fun r hr => absurd (h.writers r) hr
  activeRpcs := hactive

lemma new_quiet : Quiet (Server.new options (fun v => maps.getD v []) : Server Req Resp) :=
  ⟨fun _ => rfl, fun _ => rfl, fun _ => rfl, fun _ => rfl, rfl⟩

lemma new_housed : Housed (Server.new options (fun v => maps.getD v []) : Server Req Resp) :=
  new_quiet.housed (fun _ _ hr => absurd hr (by simp [Server.new, Service.new]))

lemma Quiet.addRpc_housed {s : Server Req Resp} (h : Quiet s) (hh : Housed s) (x : Rpc Req Resp) :
    Housed (s.addRpc x) := by
  refine (h.addRpc x).housed (fun v r hr => ?_)
  rcases (addRpc_activeRpcs _ _ _ _).mp hr with hr | ⟨rfl, rfl⟩
  · obtain ⟨hlt, hv⟩ := hh.activeRpcs v r hr
    exact ⟨Nat.lt_succ_of_lt hlt, by rw [addRpc_rpcs_old _ _ hlt, hv]⟩
  · exact ⟨Nat.lt_succ_self _, by rw [addRpc_rpcs_new]; rfl⟩

lemma start_quiet_housed : Quiet (Server.start options maps : Server Req Resp) ∧
    Housed (Server.start options maps : Server Req Resp) := by
  apply start_induction (P := fun s : Server Req Resp => Quiet s ∧ Housed s)
  · exact ⟨new_quiet, new_housed⟩
  · intro s v i cq info _ _ hs
    exact ⟨hs.1.addRpc _, hs.1.addRpc_housed hs.2 _⟩

theorem reachable_housed {s : Server Req Resp}
    (hs : (serverSystem Req Resp options maps).Reachable s) : Housed s := by
  apply hs.invariant (P := Housed)
  · rintro s rfl
    exact start_quiet_housed.2
  · intro s l s' _ hh _ hstep
    exact moves_housed (step_moves hstep).2 hh

theorem reachable_options {s : Server Req Resp}
    (hs : (serverSystem Req Resp options maps).Reachable s) : s.options = options := by
  apply hs.invariant (P := fun s => s.options = options)
  · rintro s rfl
    exact start_induction (P := fun s : Server Req Resp => s.options = options) rfl
      (fun _ _ _ _ _ _ ho _ => ho)
  · intro s l s' _ ho _ hstep
    exact (moves_options (step_moves hstep).2).trans ho

lemma start_serving (v : Nat) :
    ((Server.start options maps : Server Req Resp).services v).shuttingDown = false := by
  apply start_induction (P := fun s : Server Req Resp => (s.services v).shuttingDown = false)
  · rfl
  · intro s v' i cq info _ _ hs
    obtain ⟨activeRpcs, h⟩ := addRpc_services s (.new i cq s.nextEventQueue info v') v
    rw [h]
    exact hs

lemma addMethods_eq (infos : List (String × RpcHandlerInfo)) (methods : List (String × RpcType)) :
    Service.addMethods methods infos =
      methods ++ infos.map (fun info => (info.2.fullyQualifiedName, info.2.rpcType)) := by
  induction infos generalizing methods with
  | nil => exact (List.append_nil methods).symm
  | cons info infos ih =>
    rw [Service.addMethods, ih, List.append_assoc]
    rfl

/-- The maps and method tables of the services stay as their constructors made them. -/
theorem reachable_registration {s : Server Req Resp}
    (hs : (serverSystem Req Resp options maps).Reachable s) (v : Nat) :
    registration (s.services v) = (maps.getD v [], (maps.getD v []).map
      (fun info => (info.2.fullyQualifiedName, info.2.rpcType))) := by
  apply hs.invariant (P := fun s => registration (s.services v) = (maps.getD v [],
    (maps.getD v []).map (fun info => (info.2.fullyQualifiedName, info.2.rpcType))))
  · rintro s rfl
    apply start_induction (P := fun s : Server Req Resp => registration (s.services v) =
      (maps.getD v [], (maps.getD v []).map
        (fun info => (info.2.fullyQualifiedName, info.2.rpcType))))
    · exact congrArg (Prod.mk _) (addMethods_eq (maps.getD v []) [])
    · intro s v' i cq info _ _ hs
      obtain ⟨activeRpcs, h⟩ := addRpc_services s (.new i cq s.nextEventQueue info v') v
      rw [h]
      exact hs
  · intro s l s' _ hP _ hstep
    exact (moves_registration (step_moves hstep).2 v).trans hP

/-- A service that has not been told to stop is not shutting down. -/
lemma reach_serving {v : Nat} {s : Server Req Resp}
    (hs : (serverSystem Req Resp options maps).Reach (fun _ l => l ≠ .stopServing v) s) :
    (s.services v).shuttingDown = false := by
  apply hs.invariant (P := fun s => (s.services v).shuttingDown = false)
  · rintro s rfl
    exact start_serving v
  · intro s l s' _ hP hl hstep
    exact (moves_shuttingDown (step_moves hstep).2 hl).trans hP

/-- A list of labels that all pass a test and lead from the started server to a state with
some property. -/
lemma exists_reach (options : Options) (maps : List (List (String × RpcHandlerInfo)))
    {G : Server Req Resp → Label Req Resp → Prop} (g : Server Req Resp → Label Req Resp → Bool)
    (hg : ∀ s l, g s l = true → G s l) (labels : List (Label Req Resp)) (p : Server Req Resp → Bool)
    (h : ((serverSystem Req Resp options maps).run g (.start options maps) labels).any p = true) :
    ∃ s, (serverSystem Req Resp options maps).Reach G s ∧ p s = true :=
  System.exists_reach_of_run hg (.init rfl) h

lemma exists_reachable (options : Options) (maps : List (List (String × RpcHandlerInfo)))
    (labels : List (Label Req Resp)) (p : Server Req Resp → Bool)
    (h : ((serverSystem Req Resp options maps).run (fun _ _ => true) (.start options maps)
      labels).any p = true) :
    ∃ s, (serverSystem Req Resp options maps).Reachable s ∧ p s = true :=
  exists_reach options maps _ (fun _ _ _ => trivial) labels p h

/-! ### Every `Rpc` ever created -/

lemma cloneRpc_rpcs_new (s : Server Req Resp) (p : Nat) :
    (s.cloneRpc p).rpcs s.nextRpc =
      ({ (s.rpcs p).clone.setEventQueue s.nextEventQueue with
        parent := some p } : Rpc Req Resp).requestNextMethodInvocation :=
  update_self _ _ _

lemma requestNextMethodInvocation_samePlace (x : Rpc Req Resp) :
    SamePlace x x.requestNextMethodInvocation := by
  refine ⟨rfl, rfl, rfl, rfl, rfl, rfl, fun tag => ?_⟩
  rw [Rpc.requestNextMethodInvocation, (startOp_samePlace _ _).event, (startOp_samePlace _ _).event]

lemma cloneRpc_rpcs_old (s : Server Req Resp) (p : Nat) {r : Nat} (hr : r < s.nextRpc) :
    (s.cloneRpc p).rpcs r = s.rpcs r :=
  update_of_ne (by omega) _ _

lemma nextEventQueue_lt (s : Server Req Resp) : s.nextEventQueue < s.options.numEventThreads :=
  Nat.mod_lt _ s.options.numEventThreads_pos

/-- A property of the place of an `Rpc` holds of all of them when `StartServing` establishes
it and cloning keeps it. -/
theorem reachable_rpcs {P : Rpc Req Resp → Prop} (hplace : ∀ x y, SamePlace x y → P x → P y)
    (hstart : ∀ v i cq q info, Registered options maps v i cq info → q < options.numEventThreads →
      P (.new i cq q info v))
    (hclone : ∀ (x : Rpc Req Resp) (p q : Nat), q < options.numEventThreads → P x →
      P { x.clone.setEventQueue q with parent := some p })
    {s : Server Req Resp} (hs : (serverSystem Req Resp options maps).Reachable s) :
    ∀ r < s.nextRpc, P (s.rpcs r) := by
  apply hs.invariant (P := fun s : Server Req Resp => ∀ r < s.nextRpc, P (s.rpcs r))
  · rintro s rfl
    apply start_induction (P := fun s : Server Req Resp => ∀ r < s.nextRpc, P (s.rpcs r))
    · intro r hr
      exact absurd hr (Nat.not_lt_zero r)
    · intro s v i cq info hreg ho ih r hr
      rcases Nat.lt_succ_iff_lt_or_eq.mp hr with hr | rfl
      · rw [addRpc_rpcs_old _ _ hr]
        exact ih r hr
      · rw [addRpc_rpcs_new]
        exact hplace _ _ (requestNextMethodInvocation_samePlace _)
          (hstart v i cq _ info hreg (ho ▸ nextEventQueue_lt s))
  · intro s l s' hr ih _ h r hlt
    have hm := (step_moves h).2
    by_cases hne : s'.nextRpc = s.nextRpc
    · rw [hne] at hlt
      exact hplace _ _ (moves_samePlace hm hlt) (ih r hlt)
    · obtain ⟨t, acts, p, rest, rfl, htask, rfl⟩ := moves_born hm hne
      rcases Nat.lt_succ_iff_lt_or_eq.mp hlt with hlt | rfl
      · rw [cloneRpc_rpcs_old _ _ hlt]
        exact ih r hlt
      · have hp := ((reachable_housed hr).tasks t (by simp [htask])).1
        rw [htask] at hp
        have hq := nextEventQueue_lt s
        rw [reachable_options hr] at hq
        change P (((s.setTask t ⟨p, rest⟩).cloneRpc p).rpcs (s.setTask t ⟨p, rest⟩).nextRpc)
        rw [cloneRpc_rpcs_new]
        exact hplace _ _ (requestNextMethodInvocation_samePlace _) (hclone _ p _ hq (ih p hp))

lemma reachable_completionQueue {s : Server Req Resp}
    (hs : (serverSystem Req Resp options maps).Reachable s) {r : Nat} (hr : r < s.nextRpc) :
    (s.rpcs r).serverCompletionQueue < options.numGrpcThreads := by
  refine reachable_rpcs (P := fun x => x.serverCompletionQueue < options.numGrpcThreads)
    (fun x y hplace hx => ?_) (fun v i cq q info hreg _ => hreg.completionQueue)
    (fun x p q _ hx => hx) hs r hr
  rwa [hplace.serverCompletionQueue]

lemma reachable_service {s : Server Req Resp}
    (hs : (serverSystem Req Resp options maps).Reachable s) {r : Nat} (hr : r < s.nextRpc) :
    (s.rpcs r).service < maps.length := by
  refine reachable_rpcs (P := fun x => x.service < maps.length) (fun x y hplace hx => ?_)
    (fun v i cq q info hreg _ => hreg.service) (fun x p q _ hx => hx) hs r hr
  rwa [hplace.service]

end AsyncGrpc.Proofs
