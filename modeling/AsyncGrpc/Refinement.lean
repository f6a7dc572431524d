import AsyncGrpc.Transition

/-!
# Refinement of observable behaviour

What a run of a transition system shows of itself is the list of its observable events. One
system refines another if it shows nothing that the other cannot show; the rule for it is a
simulation that matches each step by a path with the same events.
-/

namespace Transition.System

variable {σ τ ι κ ω : Type*} {S : System σ ι} {T : System τ κ} {obs : σ → ι → Option ω}
  {obs' : τ → κ → Option ω}

/-- A run from an initial state that shows these events and ends in this state. -/
inductive Traces (S : System σ ι) (obs : σ → ι → Option ω) : List ω → σ → Prop
  | init {s : σ} : S.init s → Traces S obs [] s
  | step {s s' : σ} {l : ι} {events : List ω} : Traces S obs events s → S.step s l = some s' →
      Traces S obs (events ++ (obs s l).toList) s'

/-- A part of a run, between two states. -/
inductive Path (S : System σ ι) (obs : σ → ι → Option ω) (s : σ) : List ω → σ → Prop
  | refl : Path S obs s [] s
  | step {s₁ s₂ : σ} {l : ι} {events : List ω} : Path S obs s events s₁ →
      S.step s₁ l = some s₂ → Path S obs s (events ++ (obs s₁ l).toList) s₂

lemma Traces.reachable {events : List ω} {s : σ} (h : S.Traces obs events s) : S.Reachable s := by
  induction h with
  | init hi => exact .init hi
  | step _ hstep ih => exact .step ih trivial hstep

lemma Traces.append {events events' : List ω} {s s' : σ} (h : S.Traces obs events s)
    (hpath : S.Path obs s events' s') : S.Traces obs (events ++ events') s' := by
  induction hpath with
  | refl => simpa using h
  | step _ hstep ih =>
    rw [← List.append_assoc]
    exact ih.step hstep

lemma Path.single {s s' : σ} {l : ι} {o : Option ω} (hstep : S.step s l = some s')
    (hobs : obs s l = o) : S.Path obs s o.toList s' := by
  have h : S.Path obs s ([] ++ (obs s l).toList) s' := Path.refl.step hstep
  rwa [hobs, List.nil_append] at h

lemma Path.trans {s s₁ s₂ : σ} {events events' : List ω} (h : S.Path obs s events s₁)
    (h' : S.Path obs s₁ events' s₂) : S.Path obs s (events ++ events') s₂ := by
  induction h' with
  | refl => simpa using h
  | step _ hstep ih =>
    rw [← List.append_assoc]
    exact ih.step hstep

/-- A run of steps that show nothing. -/
lemma path_of_run {s s' : σ} (ls : List ι)
    (h : S.run (fun s l => (obs s l).isNone) s ls = some s') : S.Path obs s [] s' := by
  induction ls generalizing s with
  | nil =>
    cases h
    exact .refl
  | cons l ls ih =>
    simp only [run] at h
    split at h
    · rename_i hobs
      obtain ⟨s₁, hstep, hrun⟩ := Option.bind_eq_some_iff.mp h
      exact (Path.single hstep (Option.isNone_iff_eq_none.mp hobs)).trans (ih hrun)
    · cases h

/-- The simulation rule: all that `S` shows, `T` can show. -/
theorem Traces.simulate (R : σ → τ → Prop) (hinit : ∀ s, S.init s → ∃ t, T.init t ∧ R s t)
    (hstep : ∀ s l s' t, S.Reachable s → R s t → S.step s l = some s' →
      ∃ t', T.Path obs' t (obs s l).toList t' ∧ R s' t')
    {events : List ω} {s : σ} (h : S.Traces obs events s) :
    ∃ t, T.Traces obs' events t ∧ R s t := by
  induction h with
  | init hi =>
    obtain ⟨t, ht, hR⟩ := hinit _ hi
    exact ⟨t, .init ht, hR⟩
  | step hs hst ih =>
    obtain ⟨t, ht, hR⟩ := ih
    obtain ⟨t', hpath, hR'⟩ := hstep _ _ _ t hs.reachable hR hst
    exact ⟨t', ht.append hpath, hR'⟩

end Transition.System
