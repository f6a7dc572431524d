import AsyncGrpc.Monitor
import AsyncGrpc.Termination

/-!
# Monitors do not deadlock

The calls that have been made, left to themselves, come to rest: no run of their steps and
timeouts is infinite. At rest a call has returned, or it sleeps, its method has no timeout, and its
predicate is false. So nobody waits for the mutex, and nobody waits for what has already happened.
-/

namespace Monitor

open Function Transition Workload

variable {σ ο ρ : Type*} {M : Methods σ ο ρ} {start : σ} {s s' : State σ ο ρ} {l : Label ο}

/-- The steps and the timeouts of the calls: neither a new call nor a wake-up without a reason. -/
def OfCalls (l : Label ο) : Prop :=
  ∃ k, l = .step k ∨ l = .timeOut k

/-- Every call has returned or waits, without a timeout, for what is not so. -/
def AtRest (M : Methods σ ο ρ) (s : State σ ο ρ) : Prop :=
  ∀ k o pc, s.calls k = some (o, pc) → (∃ ran result, pc = .returned ran result) ∨
    pc = .asleep ∧ M.onTimeout o = none ∧ M.ready o s.shared = false

/-! ### Ending -/

/-- What may still become of a call: its timeout, and its return. -/
def Pc.outlook : Pc ρ → ℕ
  | .calling | .waiting | .asleep | .testing none | .woken none => 2
  | .running | .leaving _ _ | .notifying _ _ | .testing (some _) | .woken (some _) => 1
  | .returned _ _ => 0

/-- The steps of a call until it sleeps or notifies. -/
def Pc.ahead : Pc ρ → ℕ
  | .calling | .woken _ => 4
  | .testing _ => 3
  | .running => 2
  | .waiting | .leaving _ _ => 1
  | .asleep | .notifying _ _ | .returned _ _ => 0

def weight (f : Pc ρ → ℕ) : Option (ο × Pc ρ) → ℕ
  | none => 0
  | some (_, pc) => f pc

/-- The weight of the first calls. -/
def total (n : ℕ) (f : Pc ρ → ℕ) (s : State σ ο ρ) : ℕ :=
  ∑ k ∈ Finset.range n, weight f (s.calls k)

/-- Only the first calls have been made. -/
def Within (n : ℕ) (s : State σ ο ρ) : Prop :=
  ∀ k, n ≤ k → s.calls k = none

lemma Within.lt {n k : ℕ} (h : Within n s) {c : ο × Pc ρ} (hcall : s.calls k = some c) : k < n := by
  by_contra hk
  cases (h k (by omega)).symm.trans hcall

lemma Within.move {n k : ℕ} (h : Within n s) (hk : k < n) {c : Option (ο × Pc ρ)}
    (hcalls : s'.calls = update s.calls k c) : Within n s' := by
  intro j hj
  rw [hcalls, update_of_ne (by omega)]
  exact h j hj

lemma Within.notifyAll {n : ℕ} (h : Within n s) : Within n s.notifyAll := by
  intro k hk
  simp only [State.notifyAll, h k hk]
  rfl

/-- A step of the calls moves one of them, lowering its outlook or else what is ahead of it. If it
wakes the sleepers, then its outlook has become lower. -/
lemma moves_call (hm : Moves M s l s') (hl : OfCalls l) :
    ∃ k o pc pc', s.calls k = some (o, pc) ∧
      (s'.calls = update s.calls k (some (o, pc')) ∧
          Lower [Pc.outlook, Pc.ahead] (fun f => f pc') (fun f => f pc) ∨
        s'.calls = update s.notifyAll.calls k (some (o, pc')) ∧ pc ≠ .asleep ∧
          pc'.outlook < pc.outlook) := by
  cases hm with
  | call _ | wake _ =>
    obtain ⟨j, hl | hl⟩ := hl <;> cases hl
  | @relock k o expired hcall _ | @pass k o expired hcall _ =>
    refine ⟨_, _, _, _, hcall, .inl ⟨rfl, ?_⟩⟩
    cases expired <;> simp [Lower, Pc.outlook, Pc.ahead]
  | timeOut hcall _ | lock hcall _ | fail hcall _ | expire hcall _ | sleep hcall | run hcall
  | unlock hcall =>
    exact ⟨_, _, _, _, hcall, .inl ⟨rfl, by simp [Lower, Pc.outlook, Pc.ahead]⟩⟩
  | notify hcall =>
    exact ⟨_, _, _, _, hcall, .inr ⟨rfl, by simp, by simp [Pc.outlook]⟩⟩

lemma moves_within {n : ℕ} (h : Within n s) (hm : Moves M s l s') (hl : OfCalls l) :
    Within n s' := by
  obtain ⟨k, o, pc, pc', hcall, ⟨hcalls, -⟩ | ⟨hcalls, -⟩⟩ := moves_call hm hl
  · exact h.move (h.lt hcall) hcalls
  · exact h.notifyAll.move (h.lt hcall) hcalls

theorem reachable_within (hs : (system M start).Reachable s) : ∃ n, Within n s := by
  apply hs.invariant (P := fun s => ∃ n, Within n s)
  · rintro s rfl
    exact ⟨0, fun _ _ => rfl⟩
  · rintro s l s' - ⟨n, hn⟩ - hstep
    have hm := step_moves hstep
    cases l with
    | call k o =>
      cases hm
      exact ⟨max n (k + 1), Within.move (fun j hj => hn j (by omega)) (by omega) rfl⟩
    | wake k =>
      cases hm with
      | wake hcall => exact ⟨n, hn.move (hn.lt hcall) rfl⟩
    | step k => exact ⟨n, moves_within hn hm ⟨k, .inl rfl⟩⟩
    | timeOut k => exact ⟨n, moves_within hn hm ⟨k, .inr rfl⟩⟩

lemma total_move {n k : ℕ} {o : ο} {pc pc' : Pc ρ} (h : Within n s)
    (hcall : s.calls k = some (o, pc)) (hcalls : s'.calls = update s.calls k (some (o, pc')))
    (f : Pc ρ → ℕ) : total n f s' + f pc = total n f s + f pc' := by
  have hchange := sum_change (f := fun k => weight f (s.calls k))
    (g := fun k => weight f (s'.calls k)) (h.lt hcall)
    (fun j _ hj => by simp only [hcalls, update_of_ne hj])
  simpa [total, weight, hcall, hcalls] using hchange

/-- A wake-up does not change what may become of the sleepers. -/
lemma total_notifyAll (n : ℕ) : total n Pc.outlook s.notifyAll = total n Pc.outlook s := by
  apply Finset.sum_congr rfl
  intro k _
  simp only [State.notifyAll]
  unfold State.notified
  split
  · rename_i hk
    rw [hk]
    rfl
  · rfl

lemma moves_lower {n : ℕ} (h : Within n s) (hm : Moves M s l s') (hl : OfCalls l) :
    Lower [Pc.outlook, Pc.ahead] (fun f => total n f s') (fun f => total n f s) := by
  obtain ⟨k, o, pc, pc', hcall, ⟨hcalls, hlower⟩ | ⟨hcalls, hpc, hlt⟩⟩ := moves_call hm hl
  · exact hlower.change (total_move h hcall hcalls)
  · have hcall' : s.notifyAll.calls k = some (o, pc) := by
      rw [← hcall]
      apply notified_of_ne
      intro o' hc
      cases hcall.symm.trans hc
      exact hpc rfl
    have hchange := total_move h.notifyAll hcall' hcalls Pc.outlook
    rw [total_notifyAll] at hchange
    left
    simp only
    omega

theorem calls_end (hs : (system M start).Reachable s) : (system M start).Ends OfCalls s := by
  obtain ⟨n, hn⟩ := reachable_within hs
  apply System.ends_of_lower (I := Within n) [Pc.outlook, Pc.ahead] (total n)
  · intro s l s' h hl hstep
    exact moves_within h (step_moves hstep) hl
  · intro s l s' h hl hstep
    exact moves_lower h (step_moves hstep) hl
  · exact hn

/-! ### The states of rest -/

/-- A mutex that is held is held by a call. -/
def Held (s : State σ ο ρ) : Prop :=
  ∀ k, s.owner = some k → ∃ o pc, s.calls k = some (o, pc) ∧ pc.holds = true

lemma Held.move (h : Held s) {k : ℕ} {o : ο} {pc' : Pc ρ}
    (hcalls : s'.calls = update s.calls k (some (o, pc'))) (howner : s'.owner = s.owner)
    (hk : ∀ o pc, s.calls k = some (o, pc) → pc.holds = true → pc'.holds = true) : Held s' := by
  intro j hj
  rw [howner] at hj
  obtain ⟨o', pc, hcall, hpc⟩ := h j hj
  rw [hcalls]
  by_cases hjk : j = k
  · subst hjk
    exact ⟨o, pc', update_self _ _ _, hk o' pc hcall hpc⟩
  · rw [update_of_ne hjk]
    exact ⟨o', pc, hcall, hpc⟩

lemma Held.notifyAll (h : Held s) : Held s.notifyAll := by
  intro j hj
  obtain ⟨o, pc, hcall, hpc⟩ := h j hj
  refine ⟨o, pc, ?_, hpc⟩
  rw [← hcall]
  apply notified_of_ne
  intro o' hc
  cases hcall.symm.trans hc
  cases hpc

theorem reachable_held (hs : (system M start).Reachable s) : Held s := by
  apply hs.invariant (P := Held)
  · rintro s rfl k hk
    cases hk
  · rintro s l s' - h - hstep
    cases step_moves hstep with
    | call hnew => exact h.move rfl rfl (by simp [hnew])
    | wake hcall => exact h.move rfl rfl (by simp [hcall, Pc.holds])
    | timeOut hcall _ => exact h.move rfl rfl (by simp [hcall, Pc.holds])
    | lock hcall _ | relock hcall _ =>
      intro j hj
      cases hj
      exact ⟨_, _, update_self _ _ _, rfl⟩
    | pass hcall _ | fail hcall _ | expire hcall _ | run hcall =>
      exact h.move rfl rfl (fun _ _ _ _ => rfl)
    | sleep hcall | unlock hcall =>
      intro j hj
      cases hj
    | notify hcall => exact h.notifyAll.move rfl rfl (by simp [State.notifyAll, State.notified, hcall, Pc.holds])

theorem atRest_of_rests (hs : (system M start).Reachable s)
    (hrest : (system M start).Rests OfCalls s) : AtRest M s := by
  have hnext : ∀ k o pc, s.calls k = some (o, pc) → s.next M k o pc = none := by
    intro k o pc hcall
    have hstep := hrest (.step k) ⟨k, .inl rfl⟩
    simpa [system, State.step, hcall] using hstep
  -- A holder of the mutex could go on, so the mutex is free.
  have hholds : ∀ k o pc, s.calls k = some (o, pc) → pc.holds = false := by
    intro k o pc hcall
    have hstuck := hnext k o pc hcall
    cases pc with
    | testing expired =>
      simp only [State.next] at hstuck
      split at hstuck
      · cases hstuck
      · cases expired <;> cases hstuck
    | waiting | running | leaving _ _ => cases hstuck
    | calling | asleep | woken _ | notifying _ _ | returned _ _ => rfl
  have hfree : s.owner = none := by
    cases howner : s.owner with
    | none => rfl
    | some k =>
      obtain ⟨o, pc, hcall, hpc⟩ := reachable_held hs k howner
      cases (hholds k o pc hcall).symm.trans hpc
  intro k o pc hcall
  have hstuck := hnext k o pc hcall
  cases pc with
  | returned ran result => exact .inl ⟨ran, result, rfl⟩
  | asleep =>
    refine .inr ⟨rfl, ?_, ?_⟩
    · have htimeOut := hrest (.timeOut k) ⟨k, .inr rfl⟩
      simpa [system, State.step, hcall] using htimeOut
    · -- A call whose predicate holds would be about to be notified.
      by_contra hready
      obtain ⟨j, o', result, -, hj | hj⟩ :=
        reachable_noLostWakeUp hs k o hcall (by simpa using hready)
      · cases hnext j o' _ hj
      · cases hnext j o' _ hj
  | calling | woken _ => simp [State.next, State.acquire, hfree] at hstuck
  | testing _ | waiting | running | leaving _ _ => cases hholds k o _ hcall
  | notifying _ _ => cases hstuck

/-- The calls of a monitor come to rest, in whichever order they go on. -/
theorem calls_come_to_rest (hs : (system M start).Reachable s) :
    (system M start).Forces OfCalls (AtRest M) s := by
  apply (calls_end hs).forces.imp (I := (system M start).Reachable) hs
  · intro s l s' hs _ hstep
    exact .step hs trivial hstep
  · intro s hs hrest
    exact atRest_of_rests hs hrest

end Monitor
