import AsyncGrpc.Transition
import Mathlib.Logic.Function.Basic

/-!
# Monitors

A mutex with one condition variable that protects a shared state. A method locks the mutex,
waits until its predicate holds or its timeout is reached, runs its body, unlocks, and only
then wakes every sleeper. Calls are numbered; a thread that makes several calls appears under
several numbers. A wait may also end for no reason, and a timeout may strike at any time.

The bodies run one after another, as if the methods were atomic, and no wake-up is lost.
-/

namespace Monitor

open Function Transition

/-- The methods of a monitor. Methods that do not write leave the shared state as it is. -/
structure Methods (σ ο ρ : Type*) where
  ready : ο → σ → Bool
  onTimeout : ο → Option ρ
  body : ο → σ → σ × ρ
  writes : ο → Bool
  body_of_not_writes : ∀ o s, writes o = false → (body o s).1 = s

/-- Where a call stands. A wait that ended by its timeout carries the result to return if the
predicate still fails. A call past its wait carries its result and whether its body has run. -/
inductive Pc (ρ : Type*)
  | calling
  | testing (expired : Option ρ)
  | waiting
  | asleep
  | woken (expired : Option ρ)
  | running
  | leaving (ran : Bool) (result : ρ)
  | notifying (ran : Bool) (result : ρ)
  | returned (ran : Bool) (result : ρ)
  deriving DecidableEq, Repr

variable {σ ο ρ : Type*}

/-- The call holds the mutex. -/
def Pc.holds : Pc ρ → Bool
  | .testing _ | .waiting | .running | .leaving _ _ => true
  | .calling | .asleep | .woken _ | .notifying _ _ | .returned _ _ => false

/-- Whether the body has run, and the result, of a call that is past its wait. -/
def Pc.outcome : Pc ρ → Option (Bool × ρ)
  | .leaving ran result | .notifying ran result | .returned ran result => some (ran, result)
  | .calling | .testing _ | .waiting | .asleep | .woken _ | .running => none

/-- The run of a body. -/
structure Entry (ο ρ : Type*) where
  call : Nat
  method : ο
  result : ρ
  deriving DecidableEq, Repr

/-- The history lists the bodies in the order in which they ran. -/
structure State (σ ο ρ : Type*) where
  shared : σ
  owner : Option Nat
  calls : Nat → Option (ο × Pc ρ)
  history : List (Entry ο ρ)

inductive Label (ο : Type*)
  | call (k : Nat) (o : ο)
  | step (k : Nat)
  | wake (k : Nat)
  | timeOut (k : Nat)
  deriving DecidableEq, Repr

namespace State

def set (s : State σ ο ρ) (k : Nat) (o : ο) (pc : Pc ρ) : State σ ο ρ :=
  { s with calls := update s.calls k (some (o, pc)) }

def setOwner (s : State σ ο ρ) (owner : Option Nat) : State σ ο ρ :=
  { s with owner := owner }

/-- A sleeper that was notified. -/
def notified : Option (ο × Pc ρ) → Option (ο × Pc ρ)
  | some (o, .asleep) => some (o, .woken none)
  | c => c

def notifyAll (s : State σ ο ρ) : State σ ο ρ :=
  { s with calls := fun k => notified (s.calls k) }

def runBody (M : Methods σ ο ρ) (s : State σ ο ρ) (k : Nat) (o : ο) : State σ ο ρ :=
  { s.set k o (.leaving true (M.body o s.shared).2) with
    shared := (M.body o s.shared).1
    history := s.history ++ [⟨k, o, (M.body o s.shared).2⟩] }

def acquire (s : State σ ο ρ) (k : Nat) (o : ο) (expired : Option ρ) : Option (State σ ο ρ) :=
  if s.owner = none then some ((s.set k o (.testing expired)).setOwner (some k)) else none

/-- The next step of a call. -/
def next (M : Methods σ ο ρ) (s : State σ ο ρ) (k : Nat) (o : ο) : Pc ρ → Option (State σ ο ρ)
  | .calling => s.acquire k o none
  | .woken expired => s.acquire k o expired
  | .testing expired =>
    if M.ready o s.shared then some (s.set k o .running)
    else match expired with
    | none => some (s.set k o .waiting)
    | some result => some (s.set k o (.leaving false result))
  | .waiting => some ((s.set k o .asleep).setOwner none)
  | .asleep => none
  | .running => some (s.runBody M k o)
  | .leaving ran result => some ((s.set k o (.notifying ran result)).setOwner none)
  | .notifying ran result => some (s.notifyAll.set k o (.returned ran result))
  | .returned _ _ => none

def step (M : Methods σ ο ρ) (s : State σ ο ρ) : Label ο → Option (State σ ο ρ)
  | .call k o => if (s.calls k).isNone then some (s.set k o .calling) else none
  | .step k => (s.calls k).bind (fun c => s.next M k c.1 c.2)
  | .wake k =>
    match s.calls k with
    | some (o, .asleep) => some (s.set k o (.woken none))
    | _ => none
  | .timeOut k =>
    match s.calls k with
    | some (o, .asleep) => (M.onTimeout o).map (fun result => s.set k o (.woken (some result)))
    | _ => none

end State

/-- The runs of a monitor, from a shared state that nobody has touched. -/
def system (M : Methods σ ο ρ) (start : σ) : System (State σ ο ρ) (Label ο) where
  init s := s = ⟨start, none, fun _ => none, []⟩
  step := State.step M

section Steps

variable {M : Methods σ ο ρ} {s s' : State σ ο ρ} {l : Label ο}

/-- The steps of a monitor. -/
inductive Moves (M : Methods σ ο ρ) (s : State σ ο ρ) : Label ο → State σ ο ρ → Prop
  | call {k : Nat} {o : ο} (hnew : s.calls k = none) : Moves M s (.call k o) (s.set k o .calling)
  | wake {k : Nat} {o : ο} (hcall : s.calls k = some (o, .asleep)) :
      Moves M s (.wake k) (s.set k o (.woken none))
  | timeOut {k : Nat} {o : ο} {result : ρ} (hcall : s.calls k = some (o, .asleep))
      (hresult : M.onTimeout o = some result) :
      Moves M s (.timeOut k) (s.set k o (.woken (some result)))
  | lock {k : Nat} {o : ο} (hcall : s.calls k = some (o, .calling)) (hfree : s.owner = none) :
      Moves M s (.step k) ((s.set k o (.testing none)).setOwner (some k))
  | relock {k : Nat} {o : ο} {expired : Option ρ} (hcall : s.calls k = some (o, .woken expired))
      (hfree : s.owner = none) :
      Moves M s (.step k) ((s.set k o (.testing expired)).setOwner (some k))
  | pass {k : Nat} {o : ο} {expired : Option ρ} (hcall : s.calls k = some (o, .testing expired))
      (hready : M.ready o s.shared = true) : Moves M s (.step k) (s.set k o .running)
  | fail {k : Nat} {o : ο} (hcall : s.calls k = some (o, .testing none))
      (hready : M.ready o s.shared = false) : Moves M s (.step k) (s.set k o .waiting)
  | expire {k : Nat} {o : ο} {result : ρ} (hcall : s.calls k = some (o, .testing (some result)))
      (hready : M.ready o s.shared = false) :
      Moves M s (.step k) (s.set k o (.leaving false result))
  | sleep {k : Nat} {o : ο} (hcall : s.calls k = some (o, .waiting)) :
      Moves M s (.step k) ((s.set k o .asleep).setOwner none)
  | run {k : Nat} {o : ο} (hcall : s.calls k = some (o, .running)) :
      Moves M s (.step k) (s.runBody M k o)
  | unlock {k : Nat} {o : ο} {ran : Bool} {result : ρ}
      (hcall : s.calls k = some (o, .leaving ran result)) :
      Moves M s (.step k) ((s.set k o (.notifying ran result)).setOwner none)
  | notify {k : Nat} {o : ο} {ran : Bool} {result : ρ}
      (hcall : s.calls k = some (o, .notifying ran result)) :
      Moves M s (.step k) (s.notifyAll.set k o (.returned ran result))

lemma next_moves {k : Nat} {o : ο} {pc : Pc ρ} (hcall : s.calls k = some (o, pc))
    (h : s.next M k o pc = some s') : Moves M s (.step k) s' := by
  have hacquire : ∀ expired, s.acquire k o expired = some s' →
      s.owner = none ∧ s' = (s.set k o (.testing expired)).setOwner (some k) := by
    intro expired h
    unfold State.acquire at h
    split at h
    · rename_i hfree
      exact ⟨hfree, (Option.some.inj h).symm⟩
    · cases h
  cases pc with
  | calling =>
    obtain ⟨hfree, rfl⟩ := hacquire none h
    exact .lock hcall hfree
  | woken expired =>
    obtain ⟨hfree, rfl⟩ := hacquire expired h
    exact .relock hcall hfree
  | testing expired =>
    simp only [State.next] at h
    split at h
    · rename_i hready
      cases h
      exact .pass hcall hready
    · rename_i hready
      cases expired with
      | none =>
        cases h
        exact .fail hcall (by simpa using hready)
      | some result =>
        cases h
        exact .expire hcall (by simpa using hready)
  | waiting =>
    cases h
    exact .sleep hcall
  | asleep => cases h
  | running =>
    cases h
    exact .run hcall
  | leaving ran result =>
    cases h
    exact .unlock hcall
  | notifying ran result =>
    cases h
    exact .notify hcall
  | returned ran result => cases h

theorem step_moves (h : s.step M l = some s') : Moves M s l s' := by
  cases l with
  | call k o =>
    simp only [State.step] at h
    split at h
    · rename_i hnew
      cases h
      exact .call (Option.isNone_iff_eq_none.mp hnew)
    · cases h
  | step k =>
    obtain ⟨⟨o, pc⟩, hcall, hnext⟩ := Option.bind_eq_some_iff.mp h
    exact next_moves hcall hnext
  | wake k =>
    simp only [State.step] at h
    split at h
    · rename_i hcall
      cases h
      exact .wake hcall
    · cases h
  | timeOut k =>
    simp only [State.step] at h
    split at h
    · rename_i hcall
      obtain ⟨result, hresult, rfl⟩ := Option.map_eq_some_iff.mp h
      exact .timeOut hcall hresult
    · cases h

/-! ### Mutual exclusion -/

/-- The result of a call: its body ran and is in the history, or its timeout struck. -/
def Resulted (M : Methods σ ο ρ) (s : State σ ο ρ) (k : Nat) (o : ο) (ran : Bool) (result : ρ) :
    Prop :=
  if ran then ⟨k, o, result⟩ ∈ s.history else M.onTimeout o = some result

/-- What is known of a call: it holds the mutex where it should, its last test is still right,
a timeout that has struck is one of its method, and its result is accounted for. -/
def Sound (M : Methods σ ο ρ) (s : State σ ο ρ) (k : Nat) (o : ο) : Pc ρ → Prop
  | .calling | .asleep => True
  | .woken expired => ∀ result, expired = some result → M.onTimeout o = some result
  | .testing expired =>
    s.owner = some k ∧ ∀ result, expired = some result → M.onTimeout o = some result
  | .waiting => s.owner = some k ∧ M.ready o s.shared = false
  | .running => s.owner = some k ∧ M.ready o s.shared = true
  | .leaving ran result => s.owner = some k ∧ Resulted M s k o ran result
  | .notifying ran result | .returned ran result => Resulted M s k o ran result

lemma Sound.owner {k : Nat} {o : ο} {pc : Pc ρ} (h : Sound M s k o pc) (hpc : pc.holds = true) :
    s.owner = some k := by
  cases pc with
  | testing _ | waiting | running | leaving _ _ => exact h.1
  | calling | asleep | woken _ | notifying _ _ | returned _ _ => cases hpc

lemma Resulted.mono {k : Nat} {o : ο} {ran : Bool} {result : ρ}
    (h : Resulted M s k o ran result) (hhistory : ∀ e ∈ s.history, e ∈ s'.history) :
    Resulted M s' k o ran result := by
  cases ran with
  | true => exact hhistory _ h
  | false => exact h

/-- Steps of others: they leave alone what a holder of the mutex relies on. -/
lemma Sound.frame {k : Nat} {o : ο} {pc : Pc ρ} (h : Sound M s k o pc)
    (hholds : pc.holds = true → s'.owner = s.owner ∧ s'.shared = s.shared)
    (hhistory : ∀ e ∈ s.history, e ∈ s'.history) : Sound M s' k o pc := by
  cases pc with
  | calling | asleep => trivial
  | woken expired => exact h
  | testing expired => exact ⟨(hholds rfl).1.trans h.1, h.2⟩
  | waiting | running =>
    refine ⟨(hholds rfl).1.trans h.1, ?_⟩
    rw [(hholds rfl).2]
    exact h.2
  | leaving ran result => exact ⟨(hholds rfl).1.trans h.1, h.2.mono hhistory⟩
  | notifying ran result | returned ran result => exact Resulted.mono h hhistory

/-- Every call is sound, and every entry of the history belongs to a call whose body ran. -/
structure Orderly (M : Methods σ ο ρ) (s : State σ ο ρ) : Prop where
  sound : ∀ k o pc, s.calls k = some (o, pc) → Sound M s k o pc
  entries : ∀ e ∈ s.history, ∃ pc, s.calls e.call = some (e.method, pc) ∧
    pc.outcome = some (true, e.result)

/-- At most one call holds the mutex. -/
lemma Orderly.exclusive (h : Orderly M s) {j k : Nat} {o o' : ο} {pc pc' : Pc ρ}
    (hk : s.calls k = some (o, pc)) (hj : s.calls j = some (o', pc')) (hpc : pc.holds = true)
    (hpc' : pc'.holds = true) : j = k :=
  Option.some.inj (((h.sound j o' pc' hj).owner hpc').symm.trans ((h.sound k o pc hk).owner hpc))

/-- A call moves on; the others rely on nothing that changes. -/
lemma Orderly.move (h : Orderly M s) {k : Nat} {o : ο} {pc pc' : Pc ρ}
    (hk : s.calls k = some (o, pc)) (hcalls : s'.calls = update s.calls k (some (o, pc')))
    (hself : Sound M s' k o pc')
    (hothers : ∀ j o' pc', j ≠ k → s.calls j = some (o', pc') → pc'.holds = true →
      s'.owner = s.owner ∧ s'.shared = s.shared)
    (hhistory : ∀ e ∈ s.history, e ∈ s'.history)
    (hnew : ∀ e ∈ s'.history, e ∈ s.history ∨
      e.call = k ∧ e.method = o ∧ pc'.outcome = some (true, e.result))
    (houtcome : pc.outcome = none ∨ pc'.outcome = pc.outcome) : Orderly M s' where
  sound j o' pc'' hj := by
    rw [hcalls, update_apply] at hj
    split at hj
    · rename_i hjk
      subst hjk
      cases hj
      exact hself
    · rename_i hjk
      exact (h.sound j o' pc'' hj).frame (hothers j o' pc'' hjk hj) hhistory
  entries e he := by
    obtain he | ⟨hcall, hmethod, hran⟩ := hnew e he
    swap
    · exact ⟨pc', by rw [hcalls, hcall, hmethod, update_self], hran⟩
    obtain ⟨pc₀, hcall, hran⟩ := h.entries e he
    by_cases hek : e.call = k
    · rw [hek] at hcall
      cases hk.symm.trans hcall
      refine ⟨pc', by rw [hcalls, hek, update_self], ?_⟩
      obtain hnone | hsame := houtcome
      · rw [hnone] at hran
        cases hran
      · exact hsame.trans hran
    · exact ⟨pc₀, by rw [hcalls, update_of_ne hek]; exact hcall, hran⟩

lemma notified_eq_some {c : Option (ο × Pc ρ)} {o : ο} {pc : Pc ρ}
    (h : State.notified c = some (o, pc)) :
    c = some (o, .asleep) ∧ pc = .woken none ∨ c = some (o, pc) ∧ pc ≠ .asleep := by
  unfold State.notified at h
  split at h
  · cases h
    exact .inl ⟨rfl, rfl⟩
  · rename_i hc
    refine .inr ⟨h, ?_⟩
    rintro rfl
    exact hc o h

lemma notified_of_ne {c : Option (ο × Pc ρ)} (h : ∀ o, c ≠ some (o, .asleep)) :
    State.notified c = c := by
  unfold State.notified
  split
  · exact absurd rfl (h _)
  · rfl

lemma Orderly.notifyAll (h : Orderly M s) : Orderly M s.notifyAll where
  sound k o pc hk := by
    obtain ⟨hcall, rfl⟩ | ⟨hcall, -⟩ := notified_eq_some hk
    · exact fun result hc => by cases hc
    · exact (h.sound k o pc hcall).frame (fun _ => ⟨rfl, rfl⟩) (fun _ he => he)
  entries e he := by
    obtain ⟨pc, hcall, hran⟩ := h.entries e he
    refine ⟨pc, ?_, hran⟩
    have hne : ∀ o, s.calls e.call ≠ some (o, .asleep) := by
      intro o hc
      cases hcall.symm.trans hc
      cases hran
    exact (notified_of_ne hne).trans hcall

lemma Orderly.call (h : Orderly M s) {k : Nat} (hk : s.calls k = none) (o : ο) :
    Orderly M (s.set k o .calling) where
  sound j o' pc hj := by
    simp only [State.set, update_apply] at hj
    split at hj
    · cases hj
      trivial
    · exact (h.sound j o' pc hj).frame (fun _ => ⟨rfl, rfl⟩) (fun _ he => he)
  entries e he := by
    obtain ⟨pc, hcall, hran⟩ := h.entries e he
    have hne : e.call ≠ k := by
      intro hek
      rw [hek, hk] at hcall
      cases hcall
    exact ⟨pc, (update_of_ne hne _ _).trans hcall, hran⟩

section Kinds

variable {k : Nat} {o : ο} {pc pc' : Pc ρ} (h : Orderly M s) (hcall : s.calls k = some (o, pc))

include h hcall

/-- A step that only moves its call on. -/
lemma Orderly.set (hself : Sound M (s.set k o pc') k o pc')
    (houtcome : pc.outcome = none ∨ pc'.outcome = pc.outcome) : Orderly M (s.set k o pc') :=
  h.move hcall rfl hself (fun _ _ _ _ _ _ => ⟨rfl, rfl⟩) (fun _ he => he) (fun _ he => .inl he)
    houtcome

/-- The mutex is taken: nobody held it. -/
lemma Orderly.lock (hfree : s.owner = none) (houtcome : pc.outcome = none) {expired : Option ρ}
    (hexpired : ∀ result, expired = some result → M.onTimeout o = some result) :
    Orderly M ((s.set k o (.testing expired)).setOwner (some k)) := by
  refine h.move hcall rfl ⟨rfl, hexpired⟩ ?_ (fun _ he => he) (fun _ he => .inl he) (.inl houtcome)
  intro j o' pc' _ hj hpc'
  exact absurd (hfree.symm.trans ((h.sound j o' pc' hj).owner hpc')) (by simp)

/-- The mutex is released: nobody else held it. -/
lemma Orderly.unlock (hpc : pc.holds = true) (hself : Sound M ((s.set k o pc').setOwner none) k o pc')
    (houtcome : pc.outcome = none ∨ pc'.outcome = pc.outcome) :
    Orderly M ((s.set k o pc').setOwner none) := by
  refine h.move hcall rfl hself ?_ (fun _ he => he) (fun _ he => .inl he) houtcome
  intro j o' pc'' hjk hj hpc''
  exact absurd (h.exclusive hcall hj hpc hpc'') hjk

end Kinds

theorem moves_orderly (h : Orderly M s) (hm : Moves M s l s') : Orderly M s' := by
  cases hm with
  | call hnew => exact h.call hnew _
  | wake hcall => exact h.set hcall (fun _ hc => by cases hc) (.inl rfl)
  | @timeOut k o result hcall hresult =>
    refine h.set hcall (fun result' hc => ?_) (.inl rfl)
    cases hc
    exact hresult
  | lock hcall hfree => exact h.lock hcall hfree rfl (fun _ hc => by cases hc)
  | relock hcall hfree => exact h.lock hcall hfree rfl (h.sound _ _ _ hcall)
  | pass hcall hready =>
    exact h.set hcall ⟨(h.sound _ _ _ hcall).1, hready⟩ (.inl rfl)
  | fail hcall hready =>
    exact h.set hcall ⟨(h.sound _ _ _ hcall).1, hready⟩ (.inl rfl)
  | expire hcall hready =>
    have hsound := h.sound _ _ _ hcall
    exact h.set hcall ⟨hsound.1, hsound.2 _ rfl⟩ (.inl rfl)
  | sleep hcall => exact h.unlock hcall rfl trivial (.inl rfl)
  | @run k o hcall =>
    refine h.move hcall rfl ⟨(h.sound _ _ _ hcall).1, ?_⟩ ?_ ?_ ?_ (.inl rfl)
    · exact List.mem_append_right _ (List.mem_singleton.mpr rfl)
    · intro j o' pc' hjk hj hpc'
      exact absurd (h.exclusive hcall hj rfl hpc') hjk
    · exact fun _ he => List.mem_append_left _ he
    · intro e he
      obtain he | he := List.mem_append.mp he
      · exact .inl he
      · rw [List.mem_singleton.mp he]
        exact .inr ⟨rfl, rfl, rfl⟩
  | unlock hcall => exact h.unlock hcall rfl (h.sound _ _ _ hcall).2 (.inr rfl)
  | @notify k o ran result hcall =>
    have hcall' : s.notifyAll.calls k = some (o, .notifying ran result) :=
      congrArg State.notified hcall
    exact h.notifyAll.move hcall' rfl (h.sound _ _ _ hcall) (fun _ _ _ _ _ _ => ⟨rfl, rfl⟩)
      (fun _ he => he) (fun _ he => .inl he) (.inr rfl)

/-! ### Wake-ups -/

/-- Some call whose body may have changed the shared state holds the mutex still, or has
released it and not notified yet. -/
def WillNotify (M : Methods σ ο ρ) (s : State σ ο ρ) : Prop :=
  ∃ j o result, M.writes o = true ∧
    (s.calls j = some (o, .leaving true result) ∨ s.calls j = some (o, .notifying true result))

/-- No call sleeps although its predicate holds, unless it is about to be notified. -/
def NoLostWakeUp (M : Methods σ ο ρ) (s : State σ ο ρ) : Prop :=
  ∀ k o, s.calls k = some (o, .asleep) → M.ready o s.shared = true → WillNotify M s

/-- A call that is not about to notify moves on. -/
lemma WillNotify.move (h : WillNotify M s) {k : Nat} {c : Option (ο × Pc ρ)}
    (hcalls : s'.calls = update s.calls k c)
    (hk : ∀ o result, s.calls k ≠ some (o, .leaving true result) ∧
      s.calls k ≠ some (o, .notifying true result)) : WillNotify M s' := by
  obtain ⟨j, o, result, hwrites, hj⟩ := h
  have hjk : j ≠ k := by
    rintro rfl
    exact hj.elim (hk o result).1 (hk o result).2
  refine ⟨j, o, result, hwrites, ?_⟩
  rw [hcalls, update_of_ne hjk]
  exact hj

lemma asleep_of_move {j k : Nat} {o o' : ο} {pc : Pc ρ}
    (hcalls : s'.calls = update s.calls k (some (o', pc))) (hpc : pc ≠ .asleep)
    (hj : s'.calls j = some (o, .asleep)) : s.calls j = some (o, .asleep) := by
  rw [hcalls, update_apply] at hj
  split at hj
  · cases hj
    exact absurd rfl hpc
  · exact hj

/-- A step that does not touch the shared state, of a call that is not about to notify. -/
lemma NoLostWakeUp.move (h : NoLostWakeUp M s) {k : Nat} {o' : ο} {pc : Pc ρ}
    (hcalls : s'.calls = update s.calls k (some (o', pc))) (hpc : pc ≠ .asleep)
    (hshared : s'.shared = s.shared)
    (hk : ∀ o result, s.calls k ≠ some (o, .leaving true result) ∧
      s.calls k ≠ some (o, .notifying true result)) : NoLostWakeUp M s' := by
  intro j o hj hready
  rw [hshared] at hready
  exact (h j o (asleep_of_move hcalls hpc hj) hready).move hcalls hk

theorem moves_noLostWakeUp (h : Orderly M s) (hw : NoLostWakeUp M s) (hm : Moves M s l s') :
    NoLostWakeUp M s' := by
  cases hm with
  | call hnew => exact hw.move rfl (by simp) rfl (by simp [hnew])
  | wake hcall => exact hw.move rfl (by simp) rfl (by simp [hcall])
  | timeOut hcall _ => exact hw.move rfl (by simp) rfl (by simp [hcall])
  | lock hcall _ => exact hw.move rfl (by simp) rfl (by simp [hcall])
  | relock hcall _ => exact hw.move rfl (by simp) rfl (by simp [hcall])
  | pass hcall _ => exact hw.move rfl (by simp) rfl (by simp [hcall])
  | fail hcall _ => exact hw.move rfl (by simp) rfl (by simp [hcall])
  | expire hcall _ => exact hw.move rfl (by simp) rfl (by simp [hcall])
  | @sleep k o hcall =>
    intro j o' hj hready
    by_cases hjk : j = k
    · -- The predicate was tested under the mutex, which the call has not released since.
      subst hjk
      obtain rfl : o = o' := by simpa [State.set, State.setOwner] using hj
      exact absurd ((h.sound _ _ _ hcall).2.symm.trans hready) (by simp)
    · have hj' : s.calls j = some (o', .asleep) := by
        simpa [State.set, State.setOwner, hjk] using hj
      exact (hw j o' hj' hready).move rfl (by simp [hcall])
  | @run k o hcall =>
    intro j o' hj hready
    have hj' := asleep_of_move rfl (by simp) hj
    cases hwrites : M.writes o with
    | true => exact ⟨k, o, (M.body o s.shared).2, hwrites, .inl (update_self _ _ _)⟩
    | false =>
      have hready' : M.ready o' s.shared = true := by
        rw [← M.body_of_not_writes o s.shared hwrites]
        exact hready
      exact (hw j o' hj' hready').move rfl (by simp [hcall])
  | @unlock k o ran result hcall =>
    intro j o' hj hready
    obtain ⟨i, oi, ri, hwrites, hi⟩ := hw j o' (asleep_of_move rfl (by simp) hj) hready
    refine ⟨i, oi, ri, hwrites, ?_⟩
    by_cases hik : i = k
    · subst hik
      obtain hi | hi := hi
      · cases hcall.symm.trans hi
        exact .inr (update_self _ _ _)
      · cases hcall.symm.trans hi
    · simpa [State.set, State.setOwner, hik] using hi
  | @notify k o ran result hcall =>
    intro j o' hj hready
    obtain ⟨-, hc⟩ | ⟨-, hc⟩ := notified_eq_some (asleep_of_move rfl (by simp) hj)
    · cases hc
    · exact absurd rfl hc

/-! ### The history -/

/-- The bodies in the history, run one after another from the start, each when its predicate
holds, give these results and lead to this state. -/
inductive Legal (M : Methods σ ο ρ) (start : σ) : List (Entry ο ρ) → σ → Prop
  | nil : Legal M start [] start
  | snoc {history : List (Entry ο ρ)} {s : σ} {k : Nat} {o : ο} (h : Legal M start history s)
      (hready : M.ready o s = true) :
      Legal M start (history ++ [⟨k, o, (M.body o s).2⟩]) (M.body o s).1

theorem moves_legal {start : σ} (h : Orderly M s) (hl : Legal M start s.history s.shared)
    (hm : Moves M s l s') : Legal M start s'.history s'.shared := by
  cases hm with
  | run hcall => exact .snoc hl (h.sound _ _ _ hcall).2
  | _ => exact hl

lemma Legal.entry {start s : σ} {history : List (Entry ο ρ)} (h : Legal M start history s)
    {e : Entry ο ρ} (he : e ∈ history) :
    ∃ s, M.ready e.method s = true ∧ e.result = (M.body e.method s).2 := by
  induction h with
  | nil => cases he
  | @snoc history s k o _ hready ih =>
    obtain he | he := List.mem_append.mp he
    · exact ih he
    · rw [List.mem_singleton.mp he]
      exact ⟨s, hready, rfl⟩

/-- Only the step that runs a body changes the shared state, and it is recorded. -/
lemma moves_shared (hm : Moves M s l s') (hne : s'.shared ≠ s.shared) :
    ∃ k o, l = .step k ∧ s.calls k = some (o, .running) ∧
      s'.history = s.history ++ [⟨k, o, (M.body o s.shared).2⟩] := by
  cases hm with
  | @run k o hcall => exact ⟨k, o, rfl, hcall, rfl⟩
  | _ => exact absurd rfl hne

end Steps

/-! ### Every run -/

section Runs

variable {M : Methods σ ο ρ} {start : σ} {s : State σ ο ρ}

theorem reachable_orderly (hs : (system M start).Reachable s) : Orderly M s := by
  apply hs.invariant (P := Orderly M)
  · rintro s rfl
    exact ⟨fun k o pc hk => (by cases hk), fun e he => (by cases he)⟩
  · intro s l s' _ hP _ hstep
    exact moves_orderly hP (step_moves hstep)

theorem reachable_noLostWakeUp (hs : (system M start).Reachable s) : NoLostWakeUp M s := by
  apply hs.invariant (P := NoLostWakeUp M)
  · rintro s rfl k o hk
    cases hk
  · intro s l s' hs hP _ hstep
    exact moves_noLostWakeUp (reachable_orderly hs) hP (step_moves hstep)

/-- The methods are atomic: the shared state is what the history makes of the start. -/
theorem reachable_legal (hs : (system M start).Reachable s) :
    Legal M start s.history s.shared := by
  apply hs.invariant (P := fun s => Legal M start s.history s.shared)
  · rintro s rfl
    exact .nil
  · intro s l s' hs hP _ hstep
    exact moves_legal (reachable_orderly hs) hP (step_moves hstep)

/-- A call whose timeout struck never ran its body. -/
theorem not_mem_history_of_expired (hs : (system M start).Reachable s) {k : Nat} {o : ο}
    {pc : Pc ρ} {result : ρ} (hcall : s.calls k = some (o, pc))
    (hpc : pc.outcome = some (false, result)) : ∀ e ∈ s.history, e.call ≠ k := by
  rintro e he rfl
  obtain ⟨pc', hcall', hran⟩ := (reachable_orderly hs).entries e he
  cases hcall.symm.trans hcall'
  cases hpc.symm.trans hran

/-- A call that has returned with its body run is in the history. -/
theorem mem_history_of_ran (hs : (system M start).Reachable s) {k : Nat} {o : ο} {result : ρ}
    (hcall : s.calls k = some (o, .returned true result)) : ⟨k, o, result⟩ ∈ s.history :=
  (reachable_orderly hs).sound k o _ hcall

end Runs

end Monitor
