-- Lists of timed entries that are written in the order of their times, stretch
-- after stretch.
import Mathlib.Data.List.Induction

namespace Timeline

variable {α τ : Type*} [LE τ] {time : α → τ} {a b c : τ} {l l' : List α}

/-- The entries are in the order of their times, and these lie between `a` and `b`. -/
structure Within (time : α → τ) (a b : τ) (l : List α) : Prop where
  ordered : l.Pairwise fun x y => time x ≤ time y
  after : ∀ x ∈ l, a ≤ time x
  before : ∀ x ∈ l, time x ≤ b

theorem Within.nil : Within time a b [] where
  ordered := List.Pairwise.nil
  after := by
    intro x hx
    cases hx
  before := by
    intro x hx
    cases hx

theorem Within.single {x : α} (ha : a ≤ time x) (hb : time x ≤ b) : Within time a b [x] where
  ordered := List.pairwise_singleton _ x
  after := by simpa using ha
  before := by simpa using hb

variable [Std.IsPreorder τ]

theorem Within.mono (h : Within time a b l) (hbc : b ≤ c) : Within time a c l where
  ordered := h.ordered
  after := h.after
  before := fun x hx => Std.le_trans (h.before x hx) hbc

/-- A stretch that starts where the one before it ends. -/
theorem Within.append (h : Within time a b l) (h' : Within time b c l') (hab : a ≤ b)
    (hbc : b ≤ c) : Within time a c (l ++ l') where
  ordered := by
    rw [List.pairwise_append]
    refine ⟨h.ordered, h'.ordered, ?_⟩
    intro x hx y hy
    exact Std.le_trans (h.before x hx) (h'.after y hy)
  after := by
    intro x hx
    rcases List.mem_append.mp hx with hx | hx
    · exact h.after x hx
    · exact Std.le_trans hab (h'.after x hx)
  before := by
    intro x hx
    rcases List.mem_append.mp hx with hx | hx
    · exact Std.le_trans (h.before x hx) hbc
    · exact h'.before x hx

/-- In a list that is in order, the last time bounds them all. -/
theorem le_getLast (h : l.Pairwise fun x y => time x ≤ time y) {x : α} (hx : x ∈ l) :
    ∃ y ∈ l.getLast?, time x ≤ time y := by
  induction l using List.reverseRecOn with
  | nil => cases hx
  | append_singleton l z _ =>
    refine ⟨z, by simp, ?_⟩
    rcases List.mem_append.mp hx with hx | hx
    · exact (List.pairwise_append.mp h).2.2 x hx z (List.mem_singleton_self z)
    · rw [List.mem_singleton.mp hx]
      exact Std.le_refl _

end Timeline
