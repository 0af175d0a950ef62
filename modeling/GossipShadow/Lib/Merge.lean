-- Merging streams that are sorted: again and again, one of the smallest first
-- elements is taken out of its stream, until all streams are exhausted.
import Mathlib.Data.List.Flatten
import Mathlib.Data.List.MinMax
import Mathlib.Data.List.Basic
import Mathlib.Data.List.Perm.Basic
import Mathlib.Order.Defs.Unbundled

variable {α : Type*} {r : α → α → Prop}

/-- The merge of the lists gives `out`. Of several first elements that come before all of them, any
may be taken. -/
inductive Merges (r : α → α → Prop) : List (List α) → List α → Prop
  | done {lists : List (List α)} (h : ∀ l ∈ lists, l = []) : Merges r lists []
  | take {lists rest : List (List α)} {l out : List α} {a : α}
      (hlists : lists.Perm ((a :: l) :: rest)) (hfirst : ∀ b l', b :: l' ∈ lists → r a b)
      (h : Merges r (l :: rest) out) : Merges r lists (a :: out)

namespace Merges

theorem of_perm {lists lists' : List (List α)} {out : List α} (h : Merges r lists out)
    (hperm : lists'.Perm lists) : Merges r lists' out := by
  cases h with
  | done hdone => exact done fun l hl => hdone l (hperm.mem_iff.mp hl)
  | take hlists hfirst hrest =>
    apply take (hperm.trans hlists) _ hrest
    intro b l' hb
    exact hfirst b l' (hperm.mem_iff.mp hb)

/-- A stream that is exhausted changes nothing. -/
theorem nil_cons {lists : List (List α)} {out : List α} (h : Merges r lists out) :
    Merges r ([] :: lists) out := by
  induction h with
  | done hdone => exact done (List.forall_mem_cons.mpr ⟨rfl, hdone⟩)
  | @take lists rest l out a hlists hfirst _ ih =>
    apply take ((hlists.cons []).trans (List.Perm.swap _ _ _))
    · intro b l' hb
      rcases List.mem_cons.mp hb with hnil | hb
      · cases hnil
      · exact hfirst b l' hb
    · exact ih.of_perm (List.Perm.swap _ _ _)

theorem nils_append {lists : List (List α)} {out : List α} (h : Merges r lists out) (count : Nat) :
    Merges r (List.replicate count [] ++ lists) out := by
  induction count with
  | zero => exact h
  | succ count ih => exact ih.nil_cons

/-- Every element comes out once. -/
theorem perm {lists : List (List α)} {out : List α} (h : Merges r lists out) :
    out.Perm lists.flatten := by
  induction h with
  | done hdone =>
    rw [List.flatten_eq_nil_iff.mpr hdone]
  | @take lists rest l out a hlists _ _ ih =>
    have hflatten := hlists.flatten
    rw [List.flatten_cons, List.cons_append] at hflatten
    exact (ih.cons a).trans hflatten.symm

/-- The elements of one list come out in their order. -/
theorem sublist {lists : List (List α)} {out : List α} (h : Merges r lists out) :
    ∀ l ∈ lists, l.Sublist out := by
  induction h with
  | done hdone =>
    intro l hl
    rw [hdone l hl]
  | @take lists rest l out a hlists _ _ ih =>
    intro l' hl'
    rcases List.mem_cons.mp (hlists.mem_iff.mp hl') with rfl | hrest
    · exact (ih l List.mem_cons_self).cons_cons a
    · exact (ih l' (List.mem_cons_of_mem _ hrest)).cons a

/-- Sorted lists give a sorted list. -/
theorem pairwise [IsTrans α r] {lists : List (List α)} {out : List α} (h : Merges r lists out)
    (hsorted : ∀ l ∈ lists, l.Pairwise r) : out.Pairwise r := by
  induction h with
  | done _ => exact List.Pairwise.nil
  | @take lists rest l out a hlists hfirst hmerges ih =>
    have hal : (a :: l) ∈ lists := hlists.mem_iff.mpr List.mem_cons_self
    obtain ⟨hlater, hl⟩ := List.pairwise_cons.mp (hsorted _ hal)
    have hrest : ∀ l' ∈ rest, l' ∈ lists := by
      intro l' hl'
      exact hlists.mem_iff.mpr (List.mem_cons_of_mem _ hl')
    apply List.pairwise_cons.mpr
    refine ⟨?_, ih (List.forall_mem_cons.mpr ⟨hl, fun l' hl' => hsorted l' (hrest l' hl')⟩)⟩
    intro b hb
    obtain ⟨l', hl', hbl⟩ := List.mem_flatten.mp (hmerges.perm.mem_iff.mp hb)
    rcases List.mem_cons.mp hl' with rfl | hl'
    · exact hlater b hbl
    · cases l' with
      | nil => cases hbl
      | cons c l' =>
        have hac : r a c := hfirst c l' (hrest _ hl')
        rcases List.mem_cons.mp hbl with rfl | hbl
        · exact hac
        · exact trans_of r hac ((List.pairwise_cons.mp (hsorted _ (hrest _ hl'))).1 b hbl)

end Merges

/-! ## A queue that gives one of its smallest -/

namespace MinQueue

variable {κ : Type*} [LinearOrder κ] (key : α → κ)

/-- Where the smallest are. -/
def smallest (queue : List α) : List Nat :=
  (List.range queue.length).filter fun i =>
    queue[i]?.any fun a => queue.all fun b => decide (key a ≤ key b)

/-- Takes out one of the smallest. Which one of several is decided by `tie`. -/
def pop (tie : Nat) (queue : List α) : Option (α × List α) :=
  (smallest key queue)[tie % (smallest key queue).length]?.bind fun i =>
    queue[i]?.map fun a => (a, queue.eraseIdx i)

variable {key}

theorem pop_spec {tie : Nat} {queue rest : List α} {a : α}
    (h : pop key tie queue = some (a, rest)) :
    queue.Perm (a :: rest) ∧ ∀ b ∈ queue, key a ≤ key b := by
  simp only [pop, Option.bind_eq_some_iff, Option.map_eq_some_iff] at h
  obtain ⟨i, hi, b, hb, h⟩ := h
  cases h
  have hmem := List.mem_of_getElem? hi
  simp only [smallest, List.mem_filter, hb, Option.any_some, List.all_eq_true,
    decide_eq_true_eq] at hmem
  refine ⟨?_, hmem.2⟩
  obtain ⟨hlt, hget⟩ := List.getElem?_eq_some_iff.mp hb
  rw [← hget]
  exact (List.getElem_cons_eraseIdx_perm hlt).symm

/-- A queue that is not empty has a smallest. -/
theorem eq_nil_of_pop {tie : Nat} {queue : List α} (h : pop key tie queue = none) : queue = [] := by
  by_contra hne
  have hsome : queue.argmin key ≠ none := mt List.argmin_eq_none.mp hne
  obtain ⟨a, hleast⟩ := Option.ne_none_iff_exists'.mp hsome
  obtain ⟨i, hi, hget⟩ := List.mem_iff_getElem.mp (List.argmin_mem hleast)
  have hmem : i ∈ smallest key queue := by
    simp only [smallest, List.mem_filter, List.mem_range, List.getElem?_eq_getElem hi, hget,
      Option.any_some, List.all_eq_true, decide_eq_true_eq]
    exact ⟨hi, fun b hb => List.le_of_mem_argmin hb hleast⟩
  have htie : tie % (smallest key queue).length < (smallest key queue).length :=
    Nat.mod_lt _ (List.length_pos_of_mem hmem)
  have hlt : (smallest key queue)[tie % (smallest key queue).length] < queue.length :=
    List.mem_range.mp (List.mem_filter.mp (List.getElem_mem htie)).1
  simp [pop, List.getElem?_eq_getElem htie, List.getElem?_eq_getElem hlt] at h

end MinQueue
