-- Claims and what covers them: each claim has something of its own that meets
-- it, and there may be more than is claimed. So a machine that keeps all that
-- another may still use can lose, where the other loses, without losing track.
import Mathlib.Algebra.Order.Group.Multiset
import Mathlib.Data.List.Perm.Basic
import Mathlib.Data.Multiset.Filter
import Mathlib.Data.Multiset.ZeroCons

/-! ## Lists with one item out or changed -/

namespace List

variable {α β : Type*} {R : α → β → Prop}

theorem perm_cons_eraseIdx {l : List α} {i : Nat} {a : α} (h : l[i]? = some a) :
    l.Perm (a :: l.eraseIdx i) := by
  obtain ⟨hlt, rfl⟩ := getElem?_eq_some_iff.mp h
  exact (getElem_cons_eraseIdx_perm hlt).symm

theorem flatMap_eraseIdx_perm {l : List α} {i : Nat} {a : α} (h : l[i]? = some a) (f : α → List β) :
    (l.flatMap f).Perm (f a ++ (l.eraseIdx i).flatMap f) :=
  (perm_cons_eraseIdx h).flatMap_right f

theorem flatMap_set_perm {l : List α} {i : Nat} {a : α} (h : l[i]? = some a) (b : α)
    (f : α → List β) : ((l.set i b).flatMap f).Perm (f b ++ (l.eraseIdx i).flatMap f) := by
  obtain ⟨hlt, -⟩ := getElem?_eq_some_iff.mp h
  exact (set_perm_cons_eraseIdx hlt b).flatMap_right f

theorem set_of_getElem? {l : List α} {i : Nat} {a : α} (h : l[i]? = some a) : l.set i a = l := by
  obtain ⟨hlt, rfl⟩ := getElem?_eq_some_iff.mp h
  exact set_getElem_self hlt

theorem Forall₂.set {l : List α} {l' : List β} (h : Forall₂ R l l') {a : α} {b : β} (hab : R a b)
    (i : Nat) : Forall₂ R (l.set i a) (l'.set i b) := by
  induction h generalizing i with
  | nil => exact .nil
  | cons hhead htail ih =>
    cases i with
    | zero => exact .cons hab htail
    | succ i => exact .cons hhead (ih i)

theorem Forall₂.exists_getElem? {l : List α} {l' : List β} (h : Forall₂ R l l') {i : Nat} {a : α}
    (ha : l[i]? = some a) : ∃ b, l'[i]? = some b ∧ R a b := by
  induction h generalizing i with
  | nil => cases ha
  | @cons a' b' l l' hhead htail ih =>
    cases i with
    | zero =>
      cases ha
      exact ⟨b', rfl, hhead⟩
    | succ i => exact ih ha

end List

/-! ## Claims -/

namespace Multiset

variable {α β : Type*} {R : α → β → Prop}

/-- What a list shows without one of its items. -/
theorem coe_filter_map_eraseIdx {l : List α} {i : Nat} {a : α} (h : l[i]? = some a)
    (test : α → Bool) (f : α → β) :
    (((l.filter test).map f : List β) : Multiset β) =
      (if test a then {f a} else 0) + (((l.eraseIdx i).filter test).map f : List β) := by
  have hperm := ((List.perm_cons_eraseIdx h).filter test).map f
  rw [coe_eq_coe.mpr hperm]
  split
  · rename_i htest
    rw [List.filter_cons_of_pos htest]
    rfl
  · rename_i htest
    rw [List.filter_cons_of_neg htest, zero_add]

/-- Each of the claims is met by a member of its own. -/
def Covers (R : α → β → Prop) (claims : Multiset α) (members : Multiset β) : Prop :=
  ∃ used ≤ members, Rel R claims used

theorem Covers.zero (R : α → β → Prop) (members : Multiset β) : Covers R 0 members :=
  ⟨0, zero_le members, .zero⟩

/-- More members, and fewer claims. -/
theorem Covers.mono {claims claims' : Multiset α} {members members' : Multiset β}
    (h : Covers R claims members) (hclaims : claims' ≤ claims) (hmembers : members ≤ members') :
    Covers R claims' members' := by
  obtain ⟨used, hused, hrel⟩ := h
  obtain ⟨dropped, rfl⟩ := le_iff_exists_add.mp hclaims
  obtain ⟨used₁, used₂, hrel₁, -, rfl⟩ := rel_add_left.mp hrel
  exact ⟨used₁, (le_add_right used₁ used₂).trans (hused.trans hmembers), hrel₁⟩

theorem Covers.cons {claims : Multiset α} {members : Multiset β} {a : α} {b : β}
    (h : Covers R claims members) (hab : R a b) : Covers R (a ::ₘ claims) (b ::ₘ members) := by
  obtain ⟨used, hused, hrel⟩ := h
  exact ⟨b ::ₘ used, cons_le_cons b hused, .cons hab hrel⟩

/-- A claim is met by a member, and the others cover the rest. -/
theorem Covers.take {claims : Multiset α} {members : Multiset β} {a : α}
    (h : Covers R (a ::ₘ claims) members) :
    ∃ b rest, members = b ::ₘ rest ∧ R a b ∧ Covers R claims rest := by
  obtain ⟨used, hused, hrel⟩ := h
  obtain ⟨b, used', hab, hrel', rfl⟩ := rel_cons_left.mp hrel
  obtain ⟨rest, rfl⟩ := exists_cons_of_mem (mem_of_le hused (mem_cons_self b used'))
  exact ⟨b, rest, rfl, hab, used', (cons_le_cons_iff b).mp hused, hrel'⟩

/-- A claim gives way to another, which is met by all that may meet it. -/
theorem Covers.replace {claims : Multiset α} {members : Multiset β} {a a' : α}
    (h : Covers R (a ::ₘ claims) members) (haa' : ∀ b ∈ members, R a b → R a' b) :
    Covers R (a' ::ₘ claims) members := by
  obtain ⟨b, rest, rfl, hab, hrest⟩ := h.take
  exact hrest.cons (haa' b (mem_cons_self b rest) hab)

end Multiset
