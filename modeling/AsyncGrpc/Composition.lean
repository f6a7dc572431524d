import AsyncGrpc.Transition
import Mathlib.Data.Sum.Basic

/-!
# Systems side by side

Two transition systems that run next to each other, and a coupling that says which of their
steps the surroundings allow. Whatever the coupling, each side only ever takes steps of its own
system, so that what holds of all runs of one side holds of it in company.
-/

namespace Transition.System

variable {σ τ ι κ : Type*} {S : System σ ι} {T : System τ κ}
  {allows : σ × τ → ι ⊕ κ → Bool} {G : σ × τ → ι ⊕ κ → Prop}

/-- A step of the whole is a step of one side that the coupling allows. -/
def beside (S : System σ ι) (T : System τ κ) (allows : σ × τ → ι ⊕ κ → Bool) :
    System (σ × τ) (ι ⊕ κ) where
  init s := S.init s.1 ∧ T.init s.2
  step s l :=
    if allows s l then
      match l with
      | .inl l => (S.step s.1 l).map (fun a => (a, s.2))
      | .inr l => (T.step s.2 l).map (fun b => (s.1, b))
    else none

/-- The two kinds of steps of the whole. -/
inductive Beside (S : System σ ι) (T : System τ κ) (s : σ × τ) : ι ⊕ κ → σ × τ → Prop
  | left {l : ι} {a : σ} (hstep : S.step s.1 l = some a) : Beside S T s (.inl l) (a, s.2)
  | right {l : κ} {b : τ} (hstep : T.step s.2 l = some b) : Beside S T s (.inr l) (s.1, b)

lemma beside_step {s s' : σ × τ} {l : ι ⊕ κ} (h : (beside S T allows).step s l = some s') :
    allows s l = true ∧ Beside S T s l s' := by
  unfold beside at h
  dsimp only at h
  split at h
  · rename_i hallows
    refine ⟨hallows, ?_⟩
    cases l with
    | inl l =>
      obtain ⟨a, hstep, rfl⟩ := Option.map_eq_some_iff.mp h
      exact .left hstep
    | inr l =>
      obtain ⟨b, hstep, rfl⟩ := Option.map_eq_some_iff.mp h
      exact .right hstep
  · cases h

/-- What the left side does in company it can do alone, under whatever guard the steps of the
whole meet. -/
theorem Reach.left {F : σ → ι → Prop}
    (hF : ∀ s l a, (beside S T allows).Reach G s → G s (.inl l) → allows s (.inl l) = true →
      S.step s.1 l = some a → F s.1 l) {s : σ × τ}
    (hs : (beside S T allows).Reach G s) : S.Reach F s.1 := by
  induction hs with
  | init hinit => exact .init hinit.1
  | @step s s' l hr hg hstep ih =>
    obtain ⟨hallows, hmove⟩ := beside_step hstep
    cases hmove with
    | left hleft => exact .step ih (hF s _ _ hr hg hallows hleft) hleft
    | right _ => exact ih

/-- What the right side does in company it can do alone. -/
theorem Reach.right {s : σ × τ} (hs : (beside S T allows).Reach G s) : T.Reachable s.2 := by
  induction hs with
  | init hinit => exact .init hinit.2
  | @step s s' l _ hg hstep ih =>
    cases (beside_step hstep).2 with
    | left _ => exact ih
    | right hright => exact .step ih trivial hright

end Transition.System
