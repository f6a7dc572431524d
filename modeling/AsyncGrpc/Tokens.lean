import Mathlib.Algebra.BigOperators.Group.Finset.Basic
import Mathlib.Algebra.BigOperators.Group.Finset.Piecewise
import Mathlib.Algebra.Order.BigOperators.Group.Finset

/-!
# Tokens passed on among numbered objects

Objects are numbered in the order in which they are made. Each has a kind and holds some
tokens. A system that makes an object only while taking a token of its kind from another one,
and gives that token to the new object, never changes how many tokens of a kind there are.
-/

namespace Tokens

variable {κ : Type*} [DecidableEq κ]

/-- The tokens of one kind that the first `n` objects hold. -/
def tokens (n : Nat) (kind : Nat → κ) (held : Nat → Nat) (k : κ) : Nat :=
  ∑ r ∈ Finset.range n, if kind r = k then held r else 0

variable {n : Nat} {kind kind' : Nat → κ} {held held' : Nat → Nat} {k : κ}

lemma tokens_congr (hkind : ∀ r < n, kind' r = kind r)
    (hheld : ∀ r < n, kind r = k → held' r = held r) :
    tokens n kind' held' k = tokens n kind held k := by
  unfold tokens
  apply Finset.sum_congr rfl
  intro r hr
  rw [Finset.mem_range] at hr
  rw [hkind r hr]
  split
  · rename_i hk
    exact hheld r hr hk
  · rfl

lemma tokens_succ : tokens (n + 1) kind held k =
    tokens n kind held k + if kind n = k then held n else 0 :=
  Finset.sum_range_succ _ n

/-- One object gives up a token. -/
lemma tokens_take {p : Nat} (hp : p < n) (hheld : ∀ r < n, r ≠ p → kind r = k → held' r = held r)
    (htake : kind p = k → held' p + 1 = held p) :
    tokens n kind held' k + (if kind p = k then 1 else 0) = tokens n kind held k := by
  have hsum : (if kind p = k then 1 else 0) =
      ∑ r ∈ Finset.range n, if r = p then (if kind r = k then 1 else 0) else 0 := by
    rw [Finset.sum_ite_eq', if_pos (Finset.mem_range.mpr hp)]
  unfold tokens
  rw [hsum, ← Finset.sum_add_distrib]
  apply Finset.sum_congr rfl
  intro r hr
  by_cases hk : kind r = k
  · by_cases he : r = p
    · subst he
      simp [hk, htake hk]
    · simp [hk, he, hheld r (Finset.mem_range.mp hr) he hk]
  · simp [hk]

/-- The only token of a kind is held by exactly one object of that kind. -/
theorem existsUnique_of_tokens_eq_one (h : tokens n kind held k = 1) :
    ∃! r, r < n ∧ kind r = k ∧ 0 < held r := by
  unfold tokens at h
  obtain ⟨r, hr, hpos⟩ := Finset.exists_ne_zero_of_sum_ne_zero (h.trans_ne one_ne_zero)
  have hholds : ∀ r', (if kind r' = k then held r' else 0) ≠ 0 → kind r' = k ∧ 0 < held r' := by
    intro r' h'
    split at h'
    · rename_i hk
      exact ⟨hk, Nat.pos_of_ne_zero h'⟩
    · exact absurd rfl h'
  refine ⟨r, ⟨Finset.mem_range.mp hr, hholds r hpos⟩, ?_⟩
  rintro r' ⟨hr', hk', hpos'⟩
  by_contra hne
  have htwo : ∑ a ∈ {r, r'}, (if kind a = k then held a else 0) ≤ 1 := by
    rw [← h]
    apply Finset.sum_le_sum_of_subset
    intro a ha
    rcases Finset.mem_insert.mp ha with rfl | ha
    · exact hr
    · rw [Finset.mem_singleton.mp ha]
      exact Finset.mem_range.mpr hr'
  rw [Finset.sum_pair (Ne.symm hne), if_pos hk'] at htwo
  omega

/-- With one token of each of some kinds, as many objects hold one as there are kinds. -/
theorem card_holders {kinds : Finset κ} (h : ∀ k ∈ kinds, tokens n kind held k = 1) :
    ((Finset.range n).filter (fun r => kind r ∈ kinds ∧ 0 < held r)).card = kinds.card := by
  rw [Finset.card_eq_sum_card_fiberwise (f := kind) (t := kinds)]
  · rw [Finset.card_eq_sum_ones]
    apply Finset.sum_congr rfl
    intro k hk
    obtain ⟨r, ⟨hr, rfl, hpos⟩, huniq⟩ := existsUnique_of_tokens_eq_one (h k hk)
    refine Finset.card_eq_one.mpr ⟨r, Finset.ext (fun r' => ?_)⟩
    simp only [Finset.mem_filter, Finset.mem_range, Finset.mem_singleton]
    constructor
    · rintro ⟨⟨hr', -, hpos'⟩, hk'⟩
      exact huniq r' ⟨hr', hk', hpos'⟩
    · rintro rfl
      exact ⟨⟨hr, hk, hpos⟩, rfl⟩
  · intro r hr
    exact (Finset.mem_filter.mp hr).2.1

end Tokens
