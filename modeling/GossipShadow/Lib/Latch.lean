-- Latches. Some entries of a log use a latch and shut it, and some release it.
-- A log obeys the latch when no entry uses it while it is shut: then there is
-- a release between any two uses.
import Mathlib.Data.List.Basic

namespace Latch

variable {α : Type*} (use release : α → Bool)

/-- Whether the latch is shut after one more entry. -/
def next (shut : Bool) (a : α) : Bool :=
  if use a then true else if release a then false else shut

/-- Whether the latch is shut after a log. -/
def after (shut : Bool) (log : List α) : Bool := log.foldl (next use release) shut

/-- No entry uses the latch while it is shut. -/
def Obeys : Bool → List α → Prop
  | _, [] => True
  | shut, a :: log => (use a = true → shut = false) ∧ Obeys (next use release shut a) log

variable {use release}

theorem obeys_append {shut : Bool} {log log' : List α} :
    Obeys use release shut (log ++ log') ↔
      Obeys use release shut log ∧ Obeys use release (after use release shut log) log' := by
  induction log generalizing shut with
  | nil => simp [Obeys, after]
  | cons a log ih =>
    simp only [List.cons_append, Obeys, ih, and_assoc]
    rfl

/-- Without a release the latch stays shut. -/
theorem after_of_no_release {log : List α} (h : ∀ a ∈ log, release a = false) :
    after use release true log = true := by
  induction log with
  | nil => rfl
  | cons a log ih =>
    have hnext : next use release true a = true := by
      unfold next
      rw [h a List.mem_cons_self]
      simp
    have hrest := ih fun a ha => h a (List.mem_cons_of_mem _ ha)
    unfold after at hrest ⊢
    rwa [List.foldl_cons, hnext]

/-- Between any two uses there is a release. -/
theorem Obeys.exists_release {shut : Bool} {before between rest : List α} {a b : α}
    (h : Obeys use release shut (before ++ a :: (between ++ b :: rest))) (ha : use a = true)
    (hb : use b = true) : ∃ r ∈ between, release r = true := by
  by_contra hnone
  have hstays : after use release true between = true := by
    apply after_of_no_release
    intro r hr
    exact Bool.eq_false_iff.mpr fun hrelease => hnone ⟨r, hr, hrelease⟩
  obtain ⟨-, -, hrest⟩ := obeys_append.mp h
  have hshut : next use release (after use release shut before) a = true := by
    unfold next
    rw [ha]
    rfl
  rw [hshut] at hrest
  have hopen := (obeys_append.mp hrest).2.1 hb
  rw [hstays] at hopen
  cases hopen

/-- There is at most one use more than there are releases. -/
theorem Obeys.countP_le {shut : Bool} {log : List α} (h : Obeys use release shut log) :
    log.countP use + shut.toNat ≤ log.countP release + 1 := by
  induction log generalizing shut with
  | nil =>
    have := Bool.toNat_le shut
    simpa using this
  | cons a log ih =>
    obtain ⟨hopen, hrest⟩ := h
    have hle := ih hrest
    rw [List.countP_cons, List.countP_cons]
    unfold next at hle
    cases huse : use a with
    | true =>
      rw [huse] at hle
      rw [hopen huse]
      simp only [if_true, Bool.toNat_true, Bool.toNat_false] at hle ⊢
      omega
    | false =>
      rw [huse] at hle
      have := Bool.toNat_le shut
      cases hrelease : release a with
      | true =>
        rw [hrelease] at hle
        simp only [if_true, Bool.false_eq_true, if_false, Bool.toNat_false] at hle ⊢
        omega
      | false =>
        rw [hrelease] at hle
        simpa using hle

end Latch
