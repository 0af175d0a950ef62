-- Counting by key. What is counted under each of some keys is no more than what
-- is counted in all, when nothing is counted under two keys; and no less, when
-- all that is counted has a key.
import Mathlib.Algebra.BigOperators.Group.Finset.Piecewise
import Mathlib.Algebra.Order.BigOperators.Group.Finset

namespace Tally

variable {α κ : Type*} {s : Finset κ} {p : κ → α → Bool} {q : α → Bool}

/-- One more item is counted under each key that it has. -/
theorem sum_countP_cons (s : Finset κ) (p : κ → α → Bool) (a : α) (l : List α) :
    ∑ k ∈ s, (a :: l).countP (p k) =
      ∑ k ∈ s, l.countP (p k) + (s.filter fun k => p k a = true).card := by
  rw [Finset.card_filter, ← Finset.sum_add_distrib]
  apply Finset.sum_congr rfl
  intro k _
  exact List.countP_cons

theorem sum_countP_le (hone : ∀ a k k', p k a = true → p k' a = true → k = k')
    (hq : ∀ a k, p k a = true → q a = true) (l : List α) :
    ∑ k ∈ s, l.countP (p k) ≤ l.countP q := by
  induction l with
  | nil => simp
  | cons a l ih =>
    rw [sum_countP_cons, List.countP_cons]
    apply Nat.add_le_add ih
    split
    · rw [Finset.card_le_one]
      intro k hk k' hk'
      exact hone a k k' (Finset.mem_filter.mp hk).2 (Finset.mem_filter.mp hk').2
    · rename_i hnot
      rw [Nat.le_zero, Finset.card_eq_zero, Finset.filter_eq_empty_iff]
      intro k _ hk
      exact hnot (hq a k hk)

theorem countP_le_sum {l : List α} (hkey : ∀ a ∈ l, q a = true → ∃ k ∈ s, p k a = true) :
    l.countP q ≤ ∑ k ∈ s, l.countP (p k) := by
  induction l with
  | nil => simp
  | cons a l ih =>
    rw [sum_countP_cons, List.countP_cons]
    apply Nat.add_le_add (ih fun b hb => hkey b (List.mem_cons_of_mem _ hb))
    split
    · rename_i hq
      obtain ⟨k, hk, hp⟩ := hkey a List.mem_cons_self hq
      exact Finset.card_pos.mpr ⟨k, Finset.mem_filter.mpr ⟨hk, hp⟩⟩
    · exact Nat.zero_le _

end Tally
