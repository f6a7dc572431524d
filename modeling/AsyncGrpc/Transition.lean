import Mathlib.Tactic.Common

/-!
# Guarded transition systems

A labelled transition system with a partial step function. `Reach G` collects the states
reached by steps that all meet a guard `G`, so that an environment assumption, or the
condition under which a law holds, is a guard on steps and never a hypothesis on states.
The last rule transports reachability to the components of a system that spawns them.

A `Machine` is a deterministic component of such a system: what it puts out is a function of
what it has been given, however the system schedules it.
-/

namespace Transition

/-- Initial states, and the partial function that takes one labelled step. -/
structure System (σ ι : Type*) where
  init : σ → Prop
  step : σ → ι → Option σ

namespace System

variable {σ ι τ κ μ : Type*} {S : System σ ι} {G H : σ → ι → Prop}

/-- States reached from an initial state by steps that all meet the guard. -/
inductive Reach (S : System σ ι) (G : σ → ι → Prop) : σ → Prop
  | init {s : σ} : S.init s → Reach S G s
  | step {s s' : σ} {l : ι} : Reach S G s → G s l → S.step s l = some s' → Reach S G s'

/-- Every state a system can reach, whatever its steps. -/
abbrev Reachable (S : System σ ι) : σ → Prop :=
  S.Reach (fun _ _ => True)

lemma Reach.mono (h : ∀ s l, G s l → H s l) {s : σ} (hs : S.Reach G s) : S.Reach H s := by
  induction hs with
  | init hi => exact .init hi
  | step _ hg hstep ih => exact .step ih (h _ _ hg) hstep

lemma Reach.reachable {s : σ} (hs : S.Reach G s) : S.Reachable s :=
  hs.mono (fun _ _ _ => trivial)

/-- The invariant rule. The step case may use that the state is reached. -/
theorem Reach.invariant {P : σ → Prop} (hinit : ∀ s, S.init s → P s)
    (hstep : ∀ s l s', S.Reach G s → P s → G s l → S.step s l = some s' → P s')
    {s : σ} (hs : S.Reach G s) : P s := by
  induction hs with
  | init hi => exact hinit _ hi
  | step hr hg hs ih => exact hstep _ _ _ hr ih hg hs

/-- States reached from a given state by steps that all meet the guard. -/
inductive Leads (S : System σ ι) (G : σ → ι → Prop) (s : σ) : σ → Prop
  | refl : Leads S G s s
  | step {s' s'' : σ} {l : ι} : Leads S G s s' → G s' l → S.step s' l = some s'' → Leads S G s s''

lemma Leads.reach {s s' : σ} (h : S.Leads G s s') (hs : S.Reach G s) : S.Reach G s' := by
  induction h with
  | refl => exact hs
  | step _ hg hstep ih => exact .step ih hg hstep

/-- The invariant rule from a given state on. -/
theorem Leads.invariant {P : σ → Prop} {s : σ} (hP : P s)
    (hstep : ∀ s₁ l s₂, S.Leads G s s₁ → P s₁ → G s₁ l → S.step s₁ l = some s₂ → P s₂)
    {s' : σ} (h : S.Leads G s s') : P s' := by
  induction h with
  | refl => exact hP
  | step hl hg hst ih => exact hstep _ _ _ hl ih hg hst

/-- Whichever of the labels in `L` are taken, a state with the property is reached after
finitely many steps, and until then one of them is enabled. -/
inductive Forces (S : System σ ι) (L : ι → Prop) (P : σ → Prop) : σ → Prop
  | now {s : σ} : P s → Forces S L P s
  | next {s s₁ : σ} {l : ι} : L l → S.step s l = some s₁ →
      (∀ l s', L l → S.step s l = some s' → Forces S L P s') → Forces S L P s

/-- Runs a list of labels, stopping at the first step that is not enabled or fails the test. -/
def run (S : System σ ι) (g : σ → ι → Bool) : σ → List ι → Option σ
  | s, [] => some s
  | s, l :: ls => if g s l then (S.step s l).bind (fun s' => S.run g s' ls) else none

/-- A run whose steps all pass a test that implies the guard, and that ends in a state with
some property, reaches such a state. -/
lemma exists_reach_of_run {g : σ → ι → Bool} (hg : ∀ s l, g s l = true → G s l) {s : σ}
    {ls : List ι} {p : σ → Bool} (hs : S.Reach G s) (h : (S.run g s ls).any p = true) :
    ∃ s', S.Reach G s' ∧ p s' = true := by
  induction ls generalizing s with
  | nil => exact ⟨s, hs, by simpa [run] using h⟩
  | cons l ls ih =>
    simp only [run] at h
    split at h
    · rename_i hl
      cases hstep : S.step s l with
      | none => simp [hstep] at h
      | some s' =>
        rw [hstep] at h
        exact ih (.step hs (hg s l hl) hstep) h
    · cases h

/-- Every state the run passes through satisfies `P`. -/
def AllStates (S : System σ ι) (P : σ → Prop) : σ → List ι → Prop
  | s, [] => P s
  | s, l :: ls => P s ∧ ∀ s', S.step s l = some s' → S.AllStates P s' ls

/-- Every step the run takes meets `G`. -/
def AllSteps (S : System σ ι) (G : σ → ι → Prop) : σ → List ι → Prop
  | _, [] => True
  | s, l :: ls => ∀ s', S.step s l = some s' → G s l ∧ S.AllSteps G s' ls

lemma AllStates.head {P : σ → Prop} {s : σ} {ls : List ι} (h : S.AllStates P s ls) : P s := by
  cases ls with
  | nil => exact h
  | cons l ls => exact h.1

/-- When a step keeps `P` exactly when it meets `G`, a run keeps `P` throughout exactly
when all its steps meet `G`. -/
theorem allStates_iff_allSteps {P : σ → Prop}
    (hstep : ∀ s l s', S.Reachable s → P s → S.step s l = some s' → (P s' ↔ G s l))
    {s : σ} (hs : S.Reachable s) (hP : P s) (ls : List ι) :
    S.AllStates P s ls ↔ S.AllSteps G s ls := by
  induction ls generalizing s with
  | nil => simp [AllStates, AllSteps, hP]
  | cons l ls ih =>
    simp only [AllStates, AllSteps, hP, true_and]
    constructor
    · intro h s₁ h₁
      have hP₁ := (h s₁ h₁).head
      exact ⟨(hstep s l s₁ hs hP h₁).mp hP₁, (ih (.step hs trivial h₁) hP₁).mp (h s₁ h₁)⟩
    · intro h s₁ h₁
      have hP₁ := (hstep s l s₁ hs hP h₁).mpr (h s₁ h₁).1
      exact (ih (.step hs trivial h₁) hP₁).mpr (h s₁ h₁).2

/-- Component simulation. Each component `k` of a system, once it is `live`, takes a step of
`T`, stutters, or has just been spawned in an initial state of `T`. -/
theorem Reach.component {T : System τ μ} {F : κ → τ → μ → Prop} (live : σ → κ → Prop)
    (view : σ → κ → τ)
    (hinit : ∀ s k, S.init s → live s k → T.init (view s k))
    (hstep : ∀ s l s' k, S.Reach G s → G s l → S.step s l = some s' → live s' k →
      T.init (view s' k) ∨ (live s k ∧ (view s' k = view s k ∨
        ∃ m, F k (view s k) m ∧ T.step (view s k) m = some (view s' k))))
    {s : σ} (hs : S.Reach G s) (k : κ) (hk : live s k) : T.Reach (F k) (view s k) := by
  induction hs with
  | init hi => exact .init (hinit _ k hi hk)
  | step hr hg hst ih =>
    rcases hstep _ _ _ k hr hg hst hk with h | ⟨hl, h | ⟨m, hF, hm⟩⟩
    · exact .init h
    · exact h ▸ ih hl
    · exact .step (ih hl) hF hm

end System

/-- A deterministic machine that answers each input with a list of outputs. -/
structure Machine (σ ι ο : Type*) where
  start : σ
  next : σ → ι → σ
  out : σ → ι → List ο

namespace Machine

variable {σ ι ο : Type*} (M : Machine σ ι ο)

def after (inputs : List ι) : σ :=
  inputs.foldl M.next M.start

lemma after_concat (xs : List ι) (x : ι) : M.after (xs ++ [x]) = M.next (M.after xs) x := by
  simp [after]

def outputsFrom : σ → List ι → List ο
  | _, [] => []
  | q, i :: inputs => M.out q i ++ outputsFrom (M.next q i) inputs

/-- All that the machine puts out when it is given the inputs one after another. -/
def outputs (inputs : List ι) : List ο :=
  M.outputsFrom M.start inputs

lemma outputsFrom_append (q : σ) (xs ys : List ι) :
    M.outputsFrom q (xs ++ ys) = M.outputsFrom q xs ++ M.outputsFrom (xs.foldl M.next q) ys := by
  induction xs generalizing q with
  | nil => rfl
  | cons x xs ih =>
    simp only [List.cons_append, outputsFrom, List.foldl_cons]
    rw [ih, List.append_assoc]

lemma outputs_concat (xs : List ι) (x : ι) :
    M.outputs (xs ++ [x]) = M.outputs xs ++ M.out (M.after xs) x := by
  unfold outputs
  rw [outputsFrom_append, outputsFrom, outputsFrom, List.append_nil]
  rfl

/-- Every output answers some input. -/
lemma exists_out_of_mem {q : σ} {inputs : List ι} {o : ο} (h : o ∈ M.outputsFrom q inputs) :
    ∃ i ∈ inputs, ∃ q', o ∈ M.out q' i := by
  induction inputs generalizing q with
  | nil => cases h
  | cons i inputs ih =>
    rcases List.mem_append.mp h with h | h
    · exact ⟨i, List.mem_cons_self, q, h⟩
    · obtain ⟨i', hi', hout⟩ := ih h
      exact ⟨i', List.mem_cons_of_mem _ hi', hout⟩

/-- Outputs are never taken back. -/
lemma outputs_mono {xs ys : List ι} (h : xs <+: ys) : M.outputs xs <+: M.outputs ys := by
  obtain ⟨zs, rfl⟩ := h
  unfold outputs
  rw [outputsFrom_append]
  exact List.prefix_append _ _

end Machine

end Transition
