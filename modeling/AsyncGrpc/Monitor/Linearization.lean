import AsyncGrpc.Monitor
import AsyncGrpc.Refinement

/-!
# Monitors are linearizable

The object that a monitor implements: a call takes effect in one step, at some moment between
its call and its answer, when its predicate holds, or gives up in one step when its predicate does
not hold. A monitor shows the calls and the answers of such an object and no others, and all of
them.
-/

namespace Monitor

open Function Transition

variable {σ ο ρ : Type*}

/-- What the callers see. -/
inductive Event (ο ρ : Type*)
  | called (k : Nat) (o : ο)
  | answered (k : Nat) (result : ρ)
  deriving DecidableEq, Repr

/-- A call before its effect, after it, and after its answer. -/
inductive Stage (ρ : Type*)
  | pending
  | effected (result : ρ)
  | answered (result : ρ)
  deriving DecidableEq, Repr

structure Atomic (σ ο ρ : Type*) where
  shared : σ
  calls : Nat → Option (ο × Stage ρ)

inductive AtomicLabel (ο : Type*)
  | call (k : Nat) (o : ο)
  | effect (k : Nat)
  | giveUp (k : Nat)
  | answer (k : Nat)
  deriving DecidableEq, Repr

namespace Atomic

def set (a : Atomic σ ο ρ) (k : Nat) (o : ο) (stage : Stage ρ) : Atomic σ ο ρ :=
  { a with calls := update a.calls k (some (o, stage)) }

def step (M : Methods σ ο ρ) (a : Atomic σ ο ρ) : AtomicLabel ο → Option (Atomic σ ο ρ)
  | .call k o => if (a.calls k).isNone then some (a.set k o .pending) else none
  | .effect k =>
    match a.calls k with
    | some (o, .pending) =>
      if M.ready o a.shared then
        some { a.set k o (.effected (M.body o a.shared).2) with shared := (M.body o a.shared).1 }
      else none
    | _ => none
  | .giveUp k =>
    match a.calls k with
    | some (o, .pending) =>
      if M.ready o a.shared then none
      else (M.onTimeout o).map (fun result => a.set k o (.effected result))
    | _ => none
  | .answer k =>
    match a.calls k with
    | some (o, .effected result) => some (a.set k o (.answered result))
    | _ => none

end Atomic

/-- The object whose methods are atomic. -/
def atomic (M : Methods σ ο ρ) (start : σ) : System (Atomic σ ο ρ) (AtomicLabel ο) where
  init a := a = ⟨start, fun _ => none⟩
  step := Atomic.step M

def Atomic.shows (a : Atomic σ ο ρ) : AtomicLabel ο → Option (Event ο ρ)
  | .call k o => some (.called k o)
  | .answer k =>
    match a.calls k with
    | some (_, .effected result) => some (.answered k result)
    | _ => none
  | .effect _ | .giveUp _ => none

/-- A call of a monitor returns once it has notified the sleepers. -/
def State.shows (s : State σ ο ρ) : Label ο → Option (Event ο ρ)
  | .call k o => some (.called k o)
  | .step k =>
    match s.calls k with
    | some (_, .notifying _ result) => some (.answered k result)
    | _ => none
  | .wake _ | .timeOut _ => none

def Pc.stage : Pc ρ → Stage ρ
  | .calling | .testing _ | .waiting | .asleep | .woken _ | .running => .pending
  | .leaving _ result | .notifying _ result => .effected result
  | .returned _ result => .answered result

def State.atomic (s : State σ ο ρ) : Atomic σ ο ρ :=
  ⟨s.shared, fun k => (s.calls k).map (fun c => (c.1, c.2.stage))⟩

section Refines

variable {M : Methods σ ο ρ} {start : σ} {s s' : State σ ο ρ} {l : Label ο} {k : Nat} {o : ο}
  {pc pc' : Pc ρ}

@[simp] lemma atomic_setOwner (owner : Option Nat) : (s.setOwner owner).atomic = s.atomic :=
  rfl

@[simp] lemma atomic_set : (s.set k o pc).atomic = s.atomic.set k o pc.stage := by
  simp only [State.atomic, State.set, Atomic.set, Atomic.mk.injEq, true_and]
  funext j
  by_cases hj : j = k
  · subst hj
    simp
  · simp [hj]

lemma atomic_calls (hcall : s.calls k = some (o, pc)) :
    s.atomic.calls k = some (o, pc.stage) := by
  simp [State.atomic, hcall]

lemma atomic_calls_none (hcall : s.calls k = none) : s.atomic.calls k = none := by
  simp [State.atomic, hcall]

@[simp] lemma atomic_notifyAll : s.notifyAll.atomic = s.atomic := by
  simp only [State.atomic, State.notifyAll, Atomic.mk.injEq, true_and]
  funext j
  unfold State.notified
  split
  · rename_i hj
    rw [hj]
    rfl
  · rfl

/-- Most of the steps of a call happen within one stage. -/
lemma atomic_set_same (hcall : s.calls k = some (o, pc)) (hstage : pc'.stage = pc.stage) :
    (s.set k o pc').atomic = s.atomic := by
  rw [atomic_set, hstage, Atomic.set, ← atomic_calls hcall, update_eq_self]

lemma shows_step (hcall : s.calls k = some (o, pc))
    (hpc : ∀ ran result, pc ≠ .notifying ran result) : s.shows (.step k) = none := by
  simp only [State.shows, hcall]
  cases pc with
  | notifying ran result => exact absurd rfl (hpc ran result)
  | _ => rfl

/-- A step of a monitor shows nothing and changes nothing of the object, or is a step of it. -/
theorem moves_atomic (h : Orderly M s) (hm : Moves M s l s') :
    (s'.atomic = s.atomic ∧ s.shows l = none) ∨
      ∃ l', s.atomic.step M l' = some s'.atomic ∧ s.atomic.shows l' = s.shows l := by
  cases hm with
  | @call k o hnew =>
    refine .inr ⟨.call k o, ?_, rfl⟩
    simp [Atomic.step, atomic_calls_none hnew, Pc.stage]
  | wake hcall => exact .inl ⟨atomic_set_same hcall rfl, rfl⟩
  | timeOut hcall _ => exact .inl ⟨atomic_set_same hcall rfl, rfl⟩
  | lock hcall _ | relock hcall _ | sleep hcall =>
    exact .inl ⟨atomic_set_same hcall rfl,
      shows_step hcall (by simp)⟩
  | pass hcall _ | fail hcall _ =>
    exact .inl ⟨atomic_set_same hcall rfl, shows_step hcall (by simp)⟩
  | @expire k o result hcall hready =>
    refine .inr ⟨.giveUp k, ?_, (shows_step hcall (by simp)).symm⟩
    have hresult := (h.sound _ _ _ hcall).2 result rfl
    have hshared : M.ready o s.atomic.shared = false := hready
    simp [Atomic.step, atomic_calls hcall, Pc.stage, hshared, hresult]
  | @run k o hcall =>
    refine .inr ⟨.effect k, ?_, (shows_step hcall (by simp)).symm⟩
    have hready : M.ready o s.atomic.shared = true := (h.sound _ _ _ hcall).2
    have hbody : (s.runBody M k o).atomic =
        { (s.set k o (.leaving true (M.body o s.shared).2)).atomic with
          shared := (M.body o s.shared).1 } := rfl
    rw [hbody, atomic_set]
    simp only [Atomic.step, atomic_calls hcall, Pc.stage, hready, if_true]
    rfl
  | unlock hcall =>
    exact .inl ⟨atomic_set_same hcall rfl,
      shows_step hcall (by simp)⟩
  | @notify k o ran result hcall =>
    refine .inr ⟨.answer k, ?_, ?_⟩
    · simp [Atomic.step, atomic_calls hcall, Pc.stage]
    · simp [Atomic.shows, State.shows, atomic_calls hcall, hcall, Pc.stage]

/-- Whatever the calls of a monitor show, the atomic object can show. -/
theorem traces_atomic {events : List (Event ο ρ)}
    (h : (system M start).Traces State.shows events s) :
    (atomic M start).Traces Atomic.shows events s.atomic := by
  have hsim : ∃ a, (atomic M start).Traces Atomic.shows events a ∧ a = s.atomic := by
    apply h.simulate (fun s a => a = s.atomic)
    · rintro s rfl
      exact ⟨_, rfl, rfl⟩
    · rintro s l s' a hs rfl hstep
      refine ⟨s'.atomic, ?_, rfl⟩
      obtain ⟨heq, hshows⟩ | ⟨l', hl', hshows⟩ :=
        moves_atomic (reachable_orderly hs) (step_moves hstep)
      · rw [hshows, heq]
        exact .refl
      · exact .single hl' hshows
  obtain ⟨a, ha, rfl⟩ := hsim
  exact ha

end Refines

/-! ### Every behaviour of the object -/

section Converse

variable {M : Methods σ ο ρ} {start : σ}

/-- Where a call stands in a monitor that takes each effect in one go. -/
def Stage.Matches : Stage ρ → Pc ρ → Prop
  | .pending, pc => pc = .calling
  | .effected result, pc => ∃ ran, pc = .notifying ran result
  | .answered result, pc => ∃ ran, pc = .returned ran result

/-- The monitor between two steps of the object: the mutex is free and nobody sleeps. -/
structure Mimics (a : Atomic σ ο ρ) (s : State σ ο ρ) : Prop where
  shared : s.shared = a.shared
  free : s.owner = none
  absent : ∀ k, a.calls k = none → s.calls k = none
  present : ∀ k o stage, a.calls k = some (o, stage) →
    ∃ pc, s.calls k = some (o, pc) ∧ stage.Matches pc

variable {a a' : Atomic σ ο ρ} {s s' : State σ ο ρ} {k : Nat} {o : ο} {stage : Stage ρ} {pc : Pc ρ}

lemma Mimics.set (h : Mimics a s) (hshared : s'.shared = a'.shared) (hfree : s'.owner = none)
    (hcalls : a'.calls = update a.calls k (some (o, stage)))
    (hcalls' : s'.calls = update s.calls k (some (o, pc))) (hstage : stage.Matches pc) :
    Mimics a' s' where
  shared := hshared
  free := hfree
  absent j hj := by
    rw [hcalls] at hj
    rw [hcalls']
    by_cases hjk : j = k
    · subst hjk
      simp at hj
    · rw [update_of_ne hjk] at hj ⊢
      exact h.absent j hj
  present j o' stage' hj := by
    rw [hcalls] at hj
    rw [hcalls']
    by_cases hjk : j = k
    · subst hjk
      rw [update_self] at hj ⊢
      cases hj
      exact ⟨pc, rfl, hstage⟩
    · rw [update_of_ne hjk] at hj ⊢
      exact h.present j o' stage' hj

lemma Stage.Matches.ne_asleep (h : stage.Matches pc) : pc ≠ .asleep := by
  rintro rfl
  cases stage <;> simp [Stage.Matches] at h

lemma Mimics.notifyAll (h : Mimics a s) : s.notifyAll = s := by
  have hcalls : ∀ j, State.notified (s.calls j) = s.calls j := by
    intro j
    apply notified_of_ne
    intro o hj
    cases ha : a.calls j with
    | none => cases (h.absent j ha).symm.trans hj
    | some c =>
      obtain ⟨pc, hpc, hmatch⟩ := h.present j c.1 c.2 ha
      cases hpc.symm.trans hj
      exact hmatch.ne_asleep rfl
  simp only [State.notifyAll, hcalls]

lemma Mimics.calling (h : Mimics a s) (hcall : a.calls k = some (o, .pending)) :
    s = ⟨a.shared, none, update s.calls k (some (o, .calling)), s.history⟩ := by
  obtain ⟨pc, hpc, rfl⟩ := h.present k o _ hcall
  rw [← hpc, update_eq_self, ← h.shared, ← h.free]

variable {shared : σ} {calls : Nat → Option (ο × Pc ρ)} {history : List (Entry ο ρ)}

/-- A call that has the monitor for itself and finds its predicate true. -/
lemma path_effect (hready : M.ready o shared = true) :
    (system M start).Path State.shows ⟨shared, none, update calls k (some (o, .calling)), history⟩
      [] ⟨(M.body o shared).1, none,
        update calls k (some (o, .notifying true (M.body o shared).2)),
        history ++ [⟨k, o, (M.body o shared).2⟩]⟩ := by
  apply System.path_of_run (List.replicate 4 (.step k))
  simp [System.run, List.replicate, system, State.step, State.next, State.acquire, State.set,
    State.setOwner, State.runBody, State.shows, hready]

/-- A call that has the monitor for itself, finds its predicate false and waits for its timeout. -/
lemma path_giveUp (hready : M.ready o shared = false) {result : ρ}
    (hresult : M.onTimeout o = some result) :
    (system M start).Path State.shows ⟨shared, none, update calls k (some (o, .calling)), history⟩
      [] ⟨shared, none, update calls k (some (o, .notifying false result)), history⟩ := by
  apply System.path_of_run
    (List.replicate 3 (.step k) ++ .timeOut k :: List.replicate 3 (.step k))
  simp [System.run, List.replicate, system, State.step, State.next, State.acquire, State.set,
    State.setOwner, State.shows, hready, hresult]

/-- The monitor takes each step of the object. -/
lemma Mimics.step (h : Mimics a s) {l : AtomicLabel ο} (hstep : a.step M l = some a') :
    ∃ s', (system M start).Path State.shows s (a.shows l).toList s' ∧ Mimics a' s' := by
  cases l with
  | call k o =>
    simp only [Atomic.step] at hstep
    split at hstep
    · rename_i hnew
      cases hstep
      have hs := h.absent k (Option.isNone_iff_eq_none.mp hnew)
      refine ⟨s.set k o .calling, .single (l := .call k o) ?_ rfl, ?_⟩
      · simp [system, State.step, hs]
      · exact h.set h.shared h.free rfl rfl rfl
    · cases hstep
  | effect k =>
    simp only [Atomic.step] at hstep
    split at hstep
    · rename_i o hcall
      split at hstep
      · rename_i hready
        cases hstep
        rw [h.calling hcall]
        exact ⟨_, path_effect hready, h.set rfl rfl rfl rfl ⟨true, rfl⟩⟩
      · cases hstep
    · cases hstep
  | giveUp k =>
    simp only [Atomic.step] at hstep
    split at hstep
    · rename_i o hcall
      split at hstep
      · cases hstep
      · rename_i hready
        obtain ⟨result, hresult, rfl⟩ := Option.map_eq_some_iff.mp hstep
        rw [h.calling hcall]
        exact ⟨_, path_giveUp (by simpa using hready) hresult,
          h.set rfl rfl rfl rfl ⟨false, rfl⟩⟩
    · cases hstep
  | answer k =>
    simp only [Atomic.step] at hstep
    split at hstep
    · rename_i o result hcall
      cases hstep
      obtain ⟨pc, hpc, ran, rfl⟩ := h.present k o _ hcall
      refine ⟨s.set k o (.returned ran result), .single (l := .step k) ?_ ?_, ?_⟩
      · simp [system, State.step, State.next, hpc, h.notifyAll]
      · simp [State.shows, Atomic.shows, hpc, hcall]
      · exact h.set h.shared h.free rfl rfl ⟨ran, rfl⟩
    · cases hstep

/-- All that the atomic object can show, the monitor can show. -/
theorem traces_monitor {events : List (Event ο ρ)}
    (h : (atomic M start).Traces Atomic.shows events a) :
    ∃ s, (system M start).Traces State.shows events s ∧ Mimics a s := by
  apply h.simulate Mimics
  · rintro a rfl
    exact ⟨_, rfl, rfl, rfl, fun k hk => rfl, fun k o stage hk => by cases hk⟩
  · intro a l a' s _ hs hstep
    exact hs.step hstep

end Converse

/-- A monitor and the atomic object show the same, with the same shared states. -/
theorem traces_iff {M : Methods σ ο ρ} {start shared : σ} {events : List (Event ο ρ)} :
    (∃ s, (system M start).Traces State.shows events s ∧ s.shared = shared) ↔
      ∃ a, (atomic M start).Traces Atomic.shows events a ∧ a.shared = shared := by
  constructor
  · rintro ⟨s, hs, rfl⟩
    exact ⟨s.atomic, traces_atomic hs, rfl⟩
  · rintro ⟨a, ha, rfl⟩
    obtain ⟨s, hs, hmimics⟩ := traces_monitor ha
    exact ⟨s, hs, hmimics.shared⟩

/-! ### Two representations of the shared state -/

section Representation

variable {τ : Type*} {M : Methods σ ο ρ} {N : Methods τ ο ρ} {R : σ → τ → Prop}

/-- On related states the methods wait for the same, return the same and keep the relation. -/
structure Related (R : σ → τ → Prop) (M : Methods σ ο ρ) (N : Methods τ ο ρ) : Prop where
  ready : ∀ o x y, R x y → M.ready o x = N.ready o y
  onTimeout : ∀ o, M.onTimeout o = N.onTimeout o
  result : ∀ o x y, R x y → M.ready o x = true → (M.body o x).2 = (N.body o y).2
  body : ∀ o x y, R x y → M.ready o x = true → R (M.body o x).1 (N.body o y).1

lemma Related.symm (h : Related R M N) : Related (fun y x => R x y) N M where
  ready o y x hR := (h.ready o x y hR).symm
  onTimeout o := (h.onTimeout o).symm
  result o y x hR hready := (h.result o x y hR ((h.ready o x y hR).trans hready)).symm
  body o y x hR hready := h.body o x y hR ((h.ready o x y hR).trans hready)

lemma Related.step (h : Related R M N) {a a' : Atomic σ ο ρ} {b : Atomic τ ο ρ}
    (hcalls : a.calls = b.calls) (hR : R a.shared b.shared) {l : AtomicLabel ο}
    (hstep : a.step M l = some a') :
    ∃ b', b.step N l = some b' ∧ a'.calls = b'.calls ∧ R a'.shared b'.shared := by
  cases l with
  | call k o =>
    simp only [Atomic.step] at hstep ⊢
    rw [hcalls] at hstep
    split at hstep
    · rename_i hnew
      cases hstep
      exact ⟨_, if_pos hnew, by simp [Atomic.set, hcalls], hR⟩
    · cases hstep
  | effect k =>
    simp only [Atomic.step] at hstep ⊢
    rw [hcalls] at hstep
    split at hstep
    · rename_i o hcall
      split at hstep
      · rename_i hready
        cases hstep
        rw [if_pos ((h.ready o _ _ hR).symm.trans hready), ← h.result o _ _ hR hready]
        exact ⟨_, rfl, by simp [Atomic.set, hcalls], h.body o _ _ hR hready⟩
      · cases hstep
    · cases hstep
  | giveUp k =>
    simp only [Atomic.step] at hstep ⊢
    rw [hcalls] at hstep
    split at hstep
    · rename_i o hcall
      split at hstep
      · cases hstep
      · rename_i hready
        obtain ⟨result, hresult, rfl⟩ := Option.map_eq_some_iff.mp hstep
        rw [← h.ready o _ _ hR, if_neg hready, ← h.onTimeout o, hresult]
        exact ⟨_, rfl, by simp [Atomic.set, hcalls], hR⟩
    · cases hstep
  | answer k =>
    simp only [Atomic.step] at hstep ⊢
    rw [hcalls] at hstep
    split at hstep
    · cases hstep
      exact ⟨_, rfl, by simp [Atomic.set, hcalls], hR⟩
    · cases hstep

/-- Objects with related methods show the same. -/
theorem Related.traces (h : Related R M N) {x : σ} {y : τ} (hR : R x y)
    {events : List (Event ο ρ)} {a : Atomic σ ο ρ}
    (ha : (atomic M x).Traces Atomic.shows events a) :
    ∃ b, (atomic N y).Traces Atomic.shows events b ∧ a.calls = b.calls ∧ R a.shared b.shared := by
  apply ha.simulate (fun (a : Atomic σ ο ρ) (b : Atomic τ ο ρ) =>
    a.calls = b.calls ∧ R a.shared b.shared)
  · rintro a rfl
    exact ⟨_, rfl, rfl, hR⟩
  · rintro a l a' b - ⟨hcalls, hR⟩ hstep
    obtain ⟨b', hb', hcalls', hR'⟩ := h.step hcalls hR hstep
    have hshows : b.shows l = a.shows l := by
      cases l <;> simp [Atomic.shows, hcalls]
    exact ⟨b', .single hb' hshows, hcalls', hR'⟩

end Representation

end Monitor
