import AsyncGrpc.Transition
import Mathlib.Algebra.Order.BigOperators.Group.Finset

/-!
# Steps that cannot go on for ever

A set of labels of a transition system *ends* from a state if no run of such steps is infinite.
Then some state without such a step is forced, whichever steps are taken. The rule for it is a
lexicographic order of measures that every step lowers; the measures are sums of weights over the
lists that the parts of a state hold.
-/

namespace Transition

variable {σ ι μ : Type*}

/-- One of the measures goes down and none before it goes up. -/
def Lower : List μ → (μ → ℕ) → (μ → ℕ) → Prop
  | [], _, _ => False
  | m :: ms, after, before => after m < before m ∨ after m ≤ before m ∧ Lower ms after before

/-- A step that takes `before` off the measures and adds `after` to them lowers them if `after` is
lower than `before`. -/
lemma Lower.change {ms : List μ} {after before new old : μ → ℕ} (h : Lower ms after before)
    (heq : ∀ m, new m + before m = old m + after m) : Lower ms new old := by
  induction ms with
  | nil => exact h
  | cons m ms ih =>
    have hm := heq m
    rcases h with h | ⟨hle, h⟩
    · exact .inl (by omega)
    · exact .inr ⟨by omega, ih h⟩

lemma Lower.append {ms : List μ} {after before : μ → ℕ} (h : Lower ms after before)
    (ms' : List μ) : Lower (ms ++ ms') after before := by
  induction ms with
  | nil => exact h.elim
  | cons m ms ih => exact h.imp_right (fun h => ⟨h.1, ih h.2⟩)

lemma Lower.append_of_le {ms ms' : List μ} {after before : μ → ℕ}
    (hle : ∀ m ∈ ms, after m ≤ before m) (h : Lower ms' after before) :
    Lower (ms ++ ms') after before := by
  induction ms with
  | nil => exact h
  | cons m ms ih =>
    rw [List.forall_mem_cons] at hle
    exact .inr ⟨hle.1, ih hle.2⟩

lemma lower_map {ν : Type*} {ms : List ν} {f : ν → μ} {after before : μ → ℕ} :
    Lower (ms.map f) after before ↔ Lower ms (fun m => after (f m)) (fun m => before (f m)) := by
  induction ms with
  | nil => rfl
  | cons m ms ih => simp only [List.map_cons, Lower, ih]

theorem wellFounded_lower (ms : List μ) (value : μ → σ → ℕ) :
    WellFounded (fun s' s => Lower ms (fun m => value m s') (fun m => value m s)) := by
  induction ms with
  | nil => exact ⟨fun s => .intro s (fun _ h => h.elim)⟩
  | cons m ms ih =>
    refine Subrelation.wf ?_ (InvImage.wf (fun s => (value m s, s)) (Nat.lt_wfRel.wf.prod_lex ih))
    rintro s' s (h | ⟨hle, h⟩)
    · exact .left _ _ h
    · rcases Nat.lt_or_eq_of_le hle with hlt | heq
      · exact .left _ _ hlt
      · have heq : value m s' = value m s := heq
        rw [InvImage, heq]
        exact .right _ h

namespace System

variable {S : System σ ι} {L : ι → Prop} {P Q I : σ → Prop} {s : σ}

/-- The system in which only the steps that pass a test are taken. -/
def restrict (S : System σ ι) (g : σ → ι → Bool) : System σ ι where
  init := S.init
  step := fun s l => if g s l then S.step s l else none

lemma restrict_step {g : σ → ι → Bool} {l : ι} {s' : σ} :
    (S.restrict g).step s l = some s' ↔ g s l = true ∧ S.step s l = some s' := by
  simp [restrict]

/-- No run of steps with labels in `L` is infinite. -/
def Ends (S : System σ ι) (L : ι → Prop) : σ → Prop :=
  Acc (fun s' s => ∃ l, L l ∧ S.step s l = some s')

/-- No step with a label in `L` can be taken. -/
def Rests (S : System σ ι) (L : ι → Prop) (s : σ) : Prop :=
  ∀ l, L l → S.step s l = none

/-- Steps that keep an invariant and lower a list of measures end. -/
theorem ends_of_lower (ms : List μ) (value : μ → σ → ℕ)
    (hkeep : ∀ s l s', I s → L l → S.step s l = some s' → I s')
    (hstep : ∀ s l s', I s → L l → S.step s l = some s' →
      Lower ms (fun m => value m s') (fun m => value m s)) (hs : I s) : S.Ends L s := by
  induction s using (wellFounded_lower ms value).induction with
  | h s ih =>
    refine .intro s ?_
    rintro s' ⟨l, hl, hs'⟩
    exact ih s' (hstep s l s' hs hl hs') (hkeep s l s' hs hl hs')

/-- Steps that end force a state in which none of them can be taken. -/
theorem Ends.forces (h : S.Ends L s) : S.Forces L (S.Rests L) s := by
  induction h with
  | intro s _ ih =>
    by_cases hrest : S.Rests L s
    · exact .now hrest
    · unfold Rests at hrest
      push Not at hrest
      obtain ⟨l, hl, hne⟩ := hrest
      obtain ⟨s₁, hstep⟩ := Option.ne_none_iff_exists'.mp hne
      exact .next hl hstep (fun l s' hl hstep => ih s' ⟨l, hl, hstep⟩)

/-- What is forced may be weakened by an invariant of the steps. -/
lemma Forces.imp (h : S.Forces L P s) (hs : I s)
    (hkeep : ∀ s l s', I s → L l → S.step s l = some s' → I s') (hPQ : ∀ s, I s → P s → Q s) :
    S.Forces L Q s := by
  induction h with
  | now hP => exact .now (hPQ _ hs hP)
  | next hl hstep _ ih =>
    exact .next hl hstep (fun l s' hl hstep => ih l s' hl hstep (hkeep _ l s' hs hl hstep))

end System

end Transition

namespace Workload

variable {α : Type*} {w : α → ℕ}

/-- The weight of all that is left to do in a list. -/
def load (w : α → ℕ) : List α → ℕ
  | [] => 0
  | a :: l => w a + load w l

@[simp] lemma load_nil : load w [] = 0 :=
  rfl

@[simp] lemma load_cons (a : α) (l : List α) : load w (a :: l) = w a + load w l :=
  rfl

@[simp] lemma load_append (l l' : List α) : load w (l ++ l') = load w l + load w l' := by
  induction l with
  | nil => simp
  | cons a l ih => simp [ih, Nat.add_assoc]

lemma load_eq_zero {l : List α} (h : ∀ a ∈ l, w a = 0) : load w l = 0 := by
  induction l with
  | nil => rfl
  | cons a l ih =>
    rw [load_cons, h a List.mem_cons_self, ih (fun b hb => h b (List.mem_cons_of_mem _ hb))]

lemma load_set {l : List α} {i : ℕ} {a : α} (h : l[i]? = some a) (b : α) :
    load w (l.set i b) + w a = load w l + w b := by
  induction l generalizing i with
  | nil => cases h
  | cons c l ih =>
    cases i with
    | zero =>
      cases h
      simp only [List.set_cons_zero, load_cons]
      omega
    | succ i =>
      have := ih (i := i) (by simpa using h)
      simp only [List.set_cons_succ, load_cons]
      omega

/-- Two families of numbers that differ in one place. -/
lemma sum_change {n k : ℕ} {f g : ℕ → ℕ} (hk : k < n) (h : ∀ i < n, i ≠ k → g i = f i) :
    ∑ i ∈ Finset.range n, g i + f k = ∑ i ∈ Finset.range n, f i + g k := by
  have hmem : k ∈ Finset.range n := Finset.mem_range.mpr hk
  have hrest : ∑ i ∈ (Finset.range n).erase k, g i = ∑ i ∈ (Finset.range n).erase k, f i := by
    apply Finset.sum_congr rfl
    intro i hi
    rw [Finset.mem_erase, Finset.mem_range] at hi
    exact h i hi.2 hi.1
  rw [← Finset.sum_erase_add _ _ hmem, ← Finset.sum_erase_add _ _ hmem, hrest]
  omega

/-- A family that grows by zeros has the same sum. -/
lemma sum_grow {n n' : ℕ} {f : ℕ → ℕ} (hn : n ≤ n') (hnew : ∀ i, n ≤ i → i < n' → f i = 0) :
    ∑ i ∈ Finset.range n', f i = ∑ i ∈ Finset.range n, f i := by
  symm
  apply Finset.sum_subset (Finset.range_subset_range.mpr hn)
  intro i hi hi'
  rw [Finset.mem_range] at hi hi'
  exact hnew i (not_lt.mp hi') hi

end Workload
