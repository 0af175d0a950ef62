-- Forests that grow by leaves. Each node of the forest names its parent, or
-- itself when it is a root; a new node is a root, or it hangs on a node that is
-- already there. From every node the parents then lead to a root, never twice
-- over the same node. What the edges cost is counted by the nodes.
import Mathlib.Algebra.BigOperators.Group.Finset.Piecewise
import Mathlib.Algebra.Group.Action.Defs
import Mathlib.Algebra.GroupWithZero.Nat
import Mathlib.Algebra.Order.BigOperators.Group.Finset
import Mathlib.Data.List.Chain
import Mathlib.Data.List.Nodup

namespace Forest

variable {V : Type*} {parent parent' : V → Option V} {v r : V} {path : List V}

/-- The nodes from `v` up to the root `r`, both included. -/
inductive Lineage (parent : V → Option V) : V → List V → V → Prop
  | root {r : V} : parent r = some r → Lineage parent r [r] r
  | child {v p r : V} {path : List V} : parent v = some p → v ∉ path → Lineage parent p path r →
      Lineage parent v (v :: path) r

theorem Lineage.parent_root (h : Lineage parent v path r) : parent r = some r := by
  induction h with
  | root hroot => exact hroot
  | child _ _ _ ih => exact ih

theorem Lineage.head (h : Lineage parent v path r) : path.head? = some v := by
  cases h with
  | root _ => rfl
  | child _ _ _ => rfl

theorem Lineage.last (h : Lineage parent v path r) : path.getLast? = some r := by
  induction h with
  | root _ => rfl
  | @child v p r path _ _ hrest ih =>
    obtain ⟨first, rest, rfl⟩ : ∃ first rest, path = first :: rest := by
      cases hrest with
      | root _ => exact ⟨_, _, rfl⟩
      | child _ _ _ => exact ⟨_, _, rfl⟩
    rw [List.getLast?_cons_cons]
    exact ih

/-- No node is met twice. -/
theorem Lineage.nodup (h : Lineage parent v path r) : path.Nodup := by
  induction h with
  | root _ => exact List.nodup_singleton _
  | child _ hnew _ ih => exact List.nodup_cons.mpr ⟨hnew, ih⟩

theorem Lineage.chain (h : Lineage parent v path r) :
    path.IsChain fun a b => parent a = some b := by
  induction h with
  | root _ => exact List.isChain_singleton _
  | child hparent _ hrest ih =>
    rw [List.isChain_cons]
    refine ⟨?_, ih⟩
    intro b hb
    rw [hrest.head] at hb
    cases hb
    exact hparent

theorem Lineage.mem (h : Lineage parent v path r) {u : V} (hu : u ∈ path) :
    ∃ p, parent u = some p := by
  induction h with
  | root hroot =>
    rw [List.mem_singleton.mp hu]
    exact ⟨_, hroot⟩
  | child hparent _ _ ih =>
    rcases List.mem_cons.mp hu with rfl | hu
    · exact ⟨_, hparent⟩
    · exact ih hu

theorem Lineage.mono (h : Lineage parent v path r)
    (hkeeps : ∀ v p, parent v = some p → parent' v = some p) : Lineage parent' v path r := by
  induction h with
  | root hroot => exact .root (hkeeps _ _ hroot)
  | child hparent hnew _ ih => exact .child (hkeeps _ _ hparent) hnew ih

/-- From every node of the forest, the parents lead to a root. -/
def Rooted (parent : V → Option V) : Prop :=
  ∀ v p, parent v = some p → ∃ path r, Lineage parent v path r

theorem rooted_empty (h : ∀ v, parent v = none) : Rooted parent := by
  intro v p hp
  rw [h v] at hp
  cases hp

/-- The nodes of `parent` keep their parents, and each new node is a root or hangs on one of
them. -/
structure Grows (parent parent' : V → Option V) : Prop where
  keeps : ∀ v p, parent v = some p → parent' v = some p
  new : ∀ v p, parent v = none → parent' v = some p → p = v ∨ ∃ q, parent p = some q

theorem Rooted.grow (h : Rooted parent) (hgrows : Grows parent parent') : Rooted parent' := by
  intro v p hp
  cases hold : parent v with
  | some q =>
    obtain ⟨path, r, hline⟩ := h v q hold
    exact ⟨path, r, hline.mono hgrows.keeps⟩
  | none =>
    rcases hgrows.new v p hold hp with rfl | ⟨q, hq⟩
    · exact ⟨[p], p, .root hp⟩
    · -- the lineage of the parent was there before the new node was
      obtain ⟨path, r, hline⟩ := h p q hq
      have hnew : v ∉ path := by
        intro hmem
        obtain ⟨p', hp'⟩ := hline.mem hmem
        rw [hold] at hp'
        cases hp'
      exact ⟨v :: path, r, .child hp hnew (hline.mono hgrows.keeps)⟩

/-! ## What a forest costs -/

section

variable [DecidableEq V] {nodes : Finset V} {cost : V → V → Nat}

/-- The nodes that are in the forest. -/
def members (nodes : Finset V) (parent : V → Option V) : Finset V :=
  nodes.filter fun v => (parent v).isSome

/-- The nodes of the forest that are no roots. -/
def children (nodes : Finset V) (parent : V → Option V) : Finset V :=
  (members nodes parent).filter fun v => ¬ parent v = some v

/-- The cost of all edges between two nodes. -/
def total (nodes : Finset V) (cost : V → V → Nat) : Nat :=
  ∑ v ∈ nodes, ∑ w ∈ nodes.erase v, cost v w

/-- There is one root at most, so all nodes of the forest but one have a parent. -/
theorem card_members_le (hroot : ∀ v w, parent v = some v → parent w = some w → v = w) :
    (members nodes parent).card ≤ (children nodes parent).card + 1 := by
  have hsplit := Finset.card_filter_add_card_filter_not (s := members nodes parent)
    fun v => parent v = some v
  have hone : ((members nodes parent).filter fun v => parent v = some v).card ≤ 1 := by
    rw [Finset.card_le_one]
    intro v hv w hw
    exact hroot v w (Finset.mem_filter.mp hv).2 (Finset.mem_filter.mp hw).2
  unfold children
  omega

/-- A node of the forest that is no root has another node as its parent. -/
theorem exists_parent (hv : v ∈ children nodes parent) :
    v ∈ nodes ∧ ∃ p, parent v = some p ∧ p ≠ v := by
  obtain ⟨hmember, hne⟩ := Finset.mem_filter.mp hv
  obtain ⟨hnode, hsome⟩ := Finset.mem_filter.mp hmember
  obtain ⟨p, hp⟩ := Option.isSome_iff_exists.mp hsome
  refine ⟨hnode, p, hp, ?_⟩
  rintro rfl
  exact hne hp

/-- Where each edge to a child costs something, the forest has at most one node more than it
costs. -/
theorem card_members_le_total
    (hroot : ∀ v w, parent v = some v → parent w = some w → v = w)
    (hedge : ∀ v p, parent v = some p → p ≠ v → p ∈ nodes ∧ 0 < cost p v) :
    (members nodes parent).card ≤ total nodes cost + 1 := by
  refine (card_members_le hroot).trans (Nat.add_le_add_right ?_ 1)
  have hpaid : ∀ v ∈ children nodes parent, 1 ≤ ∑ p ∈ nodes.erase v, cost p v := by
    intro v hv
    obtain ⟨-, p, hp, hne⟩ := exists_parent hv
    obtain ⟨hnode, hpos⟩ := hedge v p hp hne
    have hone := Finset.single_le_sum (f := fun p => cost p v) (fun _ _ => Nat.zero_le _)
      (Finset.mem_erase.mpr ⟨hne, hnode⟩)
    exact Nat.le_trans hpos hone
  have hsubset : children nodes parent ⊆ nodes := fun v hv => (exists_parent hv).1
  calc (children nodes parent).card
      ≤ ∑ v ∈ children nodes parent, ∑ p ∈ nodes.erase v, cost p v := by
        simpa using Finset.card_nsmul_le_sum (children nodes parent) _ 1 hpaid
    _ ≤ ∑ v ∈ nodes, ∑ p ∈ nodes.erase v, cost p v :=
        Finset.sum_le_sum_of_subset hsubset
    _ = total nodes cost := by
        apply Finset.sum_comm'
        intro v p
        simp only [Finset.mem_erase]
        tauto

/-- Where only the nodes of the forest pay, once for each edge and never for the one to the parent,
the forest costs no more than all the edges of its nodes that do not lead to a parent. -/
theorem total_add_card_members_le
    (hroot : ∀ v w, parent v = some v → parent w = some w → v = w)
    (hone : ∀ v w, cost v w ≤ 1)
    (hpays : ∀ v w, 0 < cost v w → ∃ p, parent v = some p)
    (hback : ∀ v p, parent v = some p → p ≠ v → p ∈ nodes ∧ cost v p = 0) :
    total nodes cost + (members nodes parent).card ≤
      (members nodes parent).card * (nodes.card - 1) + 1 := by
  have hsum : total nodes cost = ∑ v ∈ members nodes parent, ∑ w ∈ nodes.erase v, cost v w := by
    symm
    apply Finset.sum_subset (Finset.filter_subset _ _)
    intro v hv hnot
    apply Finset.sum_eq_zero
    intro w _
    by_contra hne
    obtain ⟨p, hp⟩ := hpays v w (Nat.pos_of_ne_zero hne)
    exact hnot (Finset.mem_filter.mpr ⟨hv, by rw [hp]; rfl⟩)
  have hcard : (children nodes parent).card =
      ∑ v ∈ members nodes parent, if ¬ parent v = some v then 1 else 0 :=
    Finset.card_filter _ _
  have hnode : ∀ v ∈ members nodes parent,
      (∑ w ∈ nodes.erase v, cost v w) + (if ¬ parent v = some v then 1 else 0) ≤
        nodes.card - 1 := by
    intro v hv
    have hmem := (Finset.mem_filter.mp hv).1
    rw [← Finset.card_erase_of_mem hmem]
    split
    · rename_i hne
      obtain ⟨-, p, hp, hother⟩ := exists_parent (Finset.mem_filter.mpr ⟨hv, hne⟩)
      obtain ⟨hpnode, hzero⟩ := hback v p hp hother
      have hpmem : p ∈ nodes.erase v := Finset.mem_erase.mpr ⟨hother, hpnode⟩
      rw [← Finset.add_sum_erase _ _ hpmem, hzero, ← Finset.card_erase_add_one hpmem, Nat.zero_add]
      have hrest := Finset.sum_le_card_nsmul ((nodes.erase v).erase p) (cost v) 1
        fun w _ => hone v w
      simpa using hrest
    · have hrest := Finset.sum_le_card_nsmul (nodes.erase v) (cost v) 1 fun w _ => hone v w
      simpa using hrest
  have hboth : total nodes cost + (children nodes parent).card ≤
      (members nodes parent).card * (nodes.card - 1) := by
    rw [hsum, hcard, ← Finset.sum_add_distrib, ← smul_eq_mul]
    exact Finset.sum_le_card_nsmul _ _ _ hnode
  have hroots : (members nodes parent).card ≤ (children nodes parent).card + 1 :=
    card_members_le hroot
  omega

end

end Forest
