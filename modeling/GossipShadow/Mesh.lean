-- The random mesh of `experiment.py`: each node draws others until it is
-- connected to enough of them. The function is fed with what `random.randint`
-- draws, and stops at the test of its inner loop at which the draws run out.
import GossipShadow.Experiment
import GossipShadow.Lib.Fallible
import Mathlib.Combinatorics.SimpleGraph.Basic
import Mathlib.Data.Set.Card
import Mathlib.Order.Interval.Finset.Defs
import Mathlib.Data.Int.Interval

namespace experiment

/-- `random.randint(a, b)`; the draw stands for the generator. -/
def randint (a b : Int) (draw : Nat) : Int := a + draw % (b - a + 1)

def range (count : Int) : List Int := (List.range count.toNat).map Nat.cast

/-- What `random_mesh_connections` builds. -/
structure Mesh where
  connections : Table NodeID (Finset NodeID)
  connect_to : Table NodeID (List NodeID)

namespace Mesh

def neighbours (mesh : Mesh) (node_id : NodeID) : Finset NodeID :=
  (mesh.connections.lookup node_id).getD ∅

/-- `connections[node_id].add(target)`. -/
def add (mesh : Mesh) (node_id target : NodeID) : Mesh :=
  { mesh with
    connections := mesh.connections.put node_id (insert target (mesh.neighbours node_id)) }

/-- A draw that does not make the loop go on at once. -/
def acceptable (mesh : Mesh) (node_id target : NodeID) : Prop :=
  ¬ (target = node_id ∨ target ∈ mesh.neighbours node_id)

instance (mesh : Mesh) (node_id target : NodeID) : Decidable (mesh.acceptable node_id target) :=
  inferInstanceAs (Decidable (¬ _))

/-- The body of the inner loop. -/
def turn (mesh : Mesh) (node_id target : NodeID) : Mesh :=
  if mesh.acceptable node_id target then
    let mesh := mesh.add node_id target
    let mesh := { mesh with connect_to := mesh.connect_to.extend node_id [target] }
    mesh.add target node_id
  else mesh

/-- The inner loop: what is left of the draws, or the node whose test waits for one. -/
def connect_node (node_count num_connections : Int) (node_id : NodeID) :
    List Nat → Mesh → (Mesh × List Nat) × Option NodeID
  | [], mesh =>
    if (mesh.neighbours node_id).card < num_connections then ((mesh, []), some node_id)
    else ((mesh, []), none)
  | draw :: draws, mesh =>
    if (mesh.neighbours node_id).card < num_connections then
      connect_node node_count num_connections node_id draws
        (mesh.turn node_id (randint 0 (node_count - 1) draw))
    else ((mesh, draw :: draws), none)

/-- The outer loop. -/
def connect_nodes (node_count num_connections : Int) (draws : List Nat) :
    (Mesh × List Nat) × Option NodeID :=
  Fallible.each (fun node_id s => connect_node node_count num_connections node_id s.2 s.1)
    (range node_count) ({ connections := ∅, connect_to := ∅ }, draws)

end Mesh

/-- `none` when it waits for more draws. -/
def random_mesh_connections (node_count num_connections : Int) (draws : List Nat) :
    Option (Table NodeID (List NodeID)) :=
  match Mesh.connect_nodes node_count num_connections draws with
  | (s, none) => some s.1.connect_to
  | (_, some _) => none

/-! ## The graph of the lists -/

/-- The pairs of nodes that the lists connect, once for each time. -/
def edges (connect_to : Table NodeID (List NodeID)) : List (Sym2 NodeID) :=
  connect_to.items.map fun e => s(e.1, e.2)

def graph (connect_to : Table NodeID (List NodeID)) : SimpleGraph NodeID :=
  SimpleGraph.fromEdgeSet {e | e ∈ edges connect_to}

theorem mem_range {count n : Int} : n ∈ range count ↔ 0 ≤ n ∧ n < count := by
  simp only [range, List.mem_map, List.mem_range]
  constructor
  · rintro ⟨k, hk, rfl⟩
    omega
  · intro h
    exact ⟨n.toNat, by omega, by omega⟩

theorem randint_mem {node_count : Int} (h : 0 < node_count) (draw : Nat) :
    0 ≤ randint 0 (node_count - 1) draw ∧ randint 0 (node_count - 1) draw < node_count := by
  have hcount : node_count - 1 - 0 + 1 = node_count := by omega
  unfold randint
  rw [hcount, Int.zero_add]
  exact ⟨Int.emod_nonneg _ (by omega), Int.emod_lt_of_pos _ h⟩

theorem randint_of_mem {node_count target : Int} (hlow : 0 ≤ target) (hhigh : target < node_count) :
    ∃ draw, randint 0 (node_count - 1) draw = target := by
  refine ⟨target.toNat, ?_⟩
  have hcount : node_count - 1 - 0 + 1 = node_count := by omega
  have hcast : (target.toNat : Int) = target := Int.toNat_of_nonneg hlow
  unfold randint
  rw [hcount, Int.zero_add, hcast]
  exact Int.emod_eq_of_lt hlow hhigh

namespace Mesh

theorem neighbours_add (mesh : Mesh) (node_id target n : NodeID) :
    (mesh.add node_id target).neighbours n =
      if n = node_id then insert target (mesh.neighbours n) else mesh.neighbours n := by
  unfold neighbours add
  rw [Table.lookup_put]
  by_cases hn : n = node_id
  · subst hn
    simp only [if_true]
    rfl
  · rw [if_neg hn, if_neg hn]

/-- The nodes that a node knows to be connected to are those that the lists connect it to, and no
pair of nodes is connected twice. -/
structure Simple (node_count : Int) (mesh : Mesh) : Prop where
  loopless : ∀ n, n ∉ mesh.neighbours n
  nodes : ∀ n m, m ∈ mesh.neighbours n → 0 ≤ m ∧ m < node_count
  connected : ∀ n m, s(n, m) ∈ edges mesh.connect_to ↔ m ∈ mesh.neighbours n
  once : (edges mesh.connect_to).Nodup

theorem Simple.empty (node_count : Int) :
    Simple node_count { connections := ∅, connect_to := ∅ } where
  loopless _ := Finset.notMem_empty _
  nodes _ _ h := (Finset.notMem_empty _ h).elim
  connected n m := by simp [edges, Table.items, neighbours]
  once := List.nodup_nil

theorem Simple.symm {node_count : Int} {mesh : Mesh} (h : Simple node_count mesh) {n m : NodeID}
    (hm : m ∈ mesh.neighbours n) : n ∈ mesh.neighbours m := by
  rw [← h.connected, Sym2.eq_swap]
  exact (h.connected n m).mpr hm

/-- A turn that accepts its draw connects the pair, and no other. -/
theorem turn_of_acceptable {mesh : Mesh} {node_id target : NodeID}
    (haccept : mesh.acceptable node_id target) :
    (∀ n m, m ∈ (mesh.turn node_id target).neighbours n ↔
      m ∈ mesh.neighbours n ∨ s(n, m) = s(node_id, target)) ∧
    (edges (mesh.turn node_id target).connect_to).Perm
      (edges mesh.connect_to ++ [s(node_id, target)]) := by
  unfold turn
  rw [if_pos haccept]
  refine ⟨?_, ?_⟩
  · intro n m
    rw [neighbours_add]
    have hfirst := neighbours_add mesh node_id target n
    have hsame : Mesh.neighbours { mesh.add node_id target with
        connect_to := (mesh.add node_id target).connect_to.extend node_id [target] } n =
          (mesh.add node_id target).neighbours n := rfl
    rw [hsame, hfirst, Sym2.eq_iff]
    by_cases hn : n = node_id
    · by_cases ht : n = target
      · subst hn ht
        simp
        tauto
      · subst hn
        simp [ht]
        tauto
    · by_cases ht : n = target
      · subst ht
        simp [hn]
        tauto
      · simp [hn, ht]
  · have hitems := (mesh.connect_to.items_extend node_id [target]).map fun e => s(e.1, e.2)
    rw [List.map_append] at hitems
    exact hitems

theorem Simple.turn {node_count : Int} {mesh : Mesh} (h : Simple node_count mesh)
    {node_id target : NodeID} (hnode : 0 ≤ node_id ∧ node_id < node_count)
    (htarget : 0 ≤ target ∧ target < node_count) :
      Simple node_count (mesh.turn node_id target) := by
  by_cases haccept : mesh.acceptable node_id target
  · obtain ⟨hneighbours, hedges⟩ := turn_of_acceptable haccept
    obtain ⟨hne, hnew⟩ := not_or.mp haccept
    have hfresh : s(node_id, target) ∉ edges mesh.connect_to := by
      intro hmem
      exact hnew ((h.connected node_id target).mp hmem)
    refine ⟨?_, ?_, ?_, ?_⟩
    · intro n hn
      rcases (hneighbours n n).mp hn with hold | hpair
      · exact h.loopless n hold
      · rcases Sym2.eq_iff.mp hpair with ⟨h₁, h₂⟩ | ⟨h₁, h₂⟩
        · exact hne (h₂ ▸ h₁)
        · exact hne (h₁ ▸ h₂)
    · intro n m hm
      rcases (hneighbours n m).mp hm with hold | hpair
      · exact h.nodes n m hold
      · rcases Sym2.eq_iff.mp hpair with ⟨-, rfl⟩ | ⟨-, rfl⟩
        · exact htarget
        · exact hnode
    · intro n m
      rw [hedges.mem_iff, List.mem_append, List.mem_singleton, hneighbours, h.connected]
    · rw [hedges.nodup_iff, List.nodup_append]
      refine ⟨h.once, List.nodup_singleton _, ?_⟩
      intro e he e' he' hee
      rw [hee, List.mem_singleton.mp he'] at he
      exact hfresh he
  · unfold Mesh.turn
    rw [if_neg haccept]
    exact h

theorem neighbours_turn (mesh : Mesh) (node_id target n : NodeID) :
    mesh.neighbours n ⊆ (mesh.turn node_id target).neighbours n := by
  by_cases haccept : mesh.acceptable node_id target
  · intro m hm
    exact ((turn_of_acceptable haccept).1 n m).mpr (Or.inl hm)
  · unfold turn
    rw [if_neg haccept]

/-! ## The loops -/

/-- The test of the inner loop enters the body. -/
def wants (mesh : Mesh) (num_connections : Int) (node_id : NodeID) : Prop :=
  (mesh.neighbours node_id).card < num_connections

/-- What the loops make of a mesh: it stays simple and loses no connection. -/
structure Grows (node_count : Int) (mesh mesh' : Mesh) : Prop where
  simple : Simple node_count mesh'
  keeps : ∀ n, mesh.neighbours n ⊆ mesh'.neighbours n

theorem Grows.trans {node_count : Int} {mesh₁ mesh₂ mesh₃ : Mesh}
    (h₁ : Grows node_count mesh₁ mesh₂)
    (h₂ : Grows node_count mesh₂ mesh₃) : Grows node_count mesh₁ mesh₃ where
  simple := h₂.simple
  keeps n := (h₁.keeps n).trans (h₂.keeps n)

/-- The inner loop ends when its node has enough connections, and waits when it has not. -/
theorem connect_node_spec {node_count num_connections : Int} {node_id : NodeID}
    (hnode : 0 ≤ node_id ∧ node_id < node_count) (draws : List Nat) {mesh : Mesh}
    (h : Simple node_count mesh) {mesh' : Mesh} {rest : List Nat} {waits : Option NodeID}
    (hloop : connect_node node_count num_connections node_id draws mesh = ((mesh', rest), waits)) :
    Grows node_count mesh mesh' ∧
      (waits = none → ¬ mesh'.wants num_connections node_id) ∧
      ∀ n, waits = some n → n = node_id ∧ mesh'.wants num_connections node_id := by
  induction draws generalizing mesh with
  | nil =>
    unfold connect_node at hloop
    split at hloop
    · rename_i hwants
      cases hloop
      refine ⟨⟨h, fun n => Finset.Subset.refl _⟩, ?_, ?_⟩
      · intro hnone
        cases hnone
      · intro n hn
        exact ⟨(Option.some.inj hn).symm, hwants⟩
    · rename_i hwants
      cases hloop
      refine ⟨⟨h, fun n => Finset.Subset.refl _⟩, fun _ => hwants, ?_⟩
      intro n hn
      cases hn
  | cons draw draws ih =>
    unfold connect_node at hloop
    split at hloop
    · have hpos : 0 < node_count := lt_of_le_of_lt hnode.1 hnode.2
      have hturn := h.turn hnode (randint_mem hpos draw)
      obtain ⟨hgrows, hend⟩ := ih hturn hloop
      exact ⟨Grows.trans ⟨hturn, mesh.neighbours_turn node_id _⟩ hgrows, hend⟩
    · rename_i hwants
      cases hloop
      refine ⟨⟨h, fun n => Finset.Subset.refl _⟩, fun _ => hwants, ?_⟩
      intro n hn
      cases hn

/-- The outer loop: each node that it is done with has enough connections. -/
theorem connect_nodes_spec {node_count num_connections : Int} {node_ids : List NodeID}
    (hnodes : ∀ n ∈ node_ids, 0 ≤ n ∧ n < node_count) {draws : List Nat} {mesh : Mesh}
    (h : Simple node_count mesh) {mesh' : Mesh} {rest : List Nat} {waits : Option NodeID}
    (hloop : Fallible.each
      (fun node_id s => connect_node node_count num_connections node_id s.2 s.1)
      node_ids (mesh, draws) = ((mesh', rest), waits)) :
    Grows node_count mesh mesh' ∧
      (waits = none → ∀ n ∈ node_ids, ¬ mesh'.wants num_connections n) ∧
      ∀ n, waits = some n → n ∈ node_ids ∧ mesh'.wants num_connections n := by
  induction node_ids generalizing draws mesh with
  | nil =>
    cases hloop
    refine ⟨⟨h, fun n => Finset.Subset.refl _⟩, ?_, ?_⟩
    · intro _ n hn
      cases hn
    · intro n hn
      cases hn
  | cons node_id node_ids ih =>
    obtain ⟨hnode, hnodes⟩ := List.forall_mem_cons.mp hnodes
    cases hinner : connect_node node_count num_connections node_id draws mesh with
    | mk s stop =>
      obtain ⟨hgrows, hdone, hwaits⟩ := connect_node_spec hnode draws h hinner
      cases stop with
      | none =>
        rw [Fallible.each_cons_go hinner] at hloop
        obtain ⟨hrest, hdones, hwaitss⟩ := ih hnodes hgrows.simple hloop
        refine ⟨hgrows.trans hrest, ?_, ?_⟩
        · intro hnone n hn
          rcases List.mem_cons.mp hn with rfl | hn
          · intro hwants
            have hcard := Finset.card_le_card (hrest.keeps n)
            have henough := hdone rfl
            unfold wants at hwants henough
            omega
          · exact hdones hnone n hn
        · intro n hn
          obtain ⟨hmem, hwants⟩ := hwaitss n hn
          exact ⟨List.mem_cons_of_mem _ hmem, hwants⟩
      | some n =>
        rw [Fallible.each_cons_stop hinner] at hloop
        cases hloop
        refine ⟨hgrows, ?_, ?_⟩
        · intro hnone
          cases hnone
        · intro m hm
          cases hm
          obtain ⟨rfl, hwants⟩ := hwaits n rfl
          exact ⟨List.mem_cons_self, hwants⟩

/-- A node with too few connections is connected neither to itself nor to all the others. -/
theorem Simple.exists_acceptable {node_count num_connections : Int}
    (hlt : num_connections < node_count) {mesh : Mesh} {node_id : NodeID}
    (hwants : mesh.wants num_connections node_id) :
    ∃ draw, mesh.acceptable node_id (randint 0 (node_count - 1) draw) := by
  have hcard : (insert node_id (mesh.neighbours node_id)).card <
      (Finset.Ico 0 node_count).card := by
    have hinsert := Finset.card_insert_le node_id (mesh.neighbours node_id)
    unfold wants at hwants
    rw [Int.card_Ico]
    omega
  obtain ⟨target, hmem, hnew⟩ := Finset.exists_mem_notMem_of_card_lt_card hcard
  obtain ⟨hlow, hhigh⟩ := Finset.mem_Ico.mp hmem
  obtain ⟨draw, hdraw⟩ := randint_of_mem hlow hhigh
  refine ⟨draw, ?_⟩
  rw [hdraw]
  rw [Finset.mem_insert] at hnew
  exact hnew

end Mesh

/-! ## What the function returns -/

theorem not_mem_under_of_simple {node_count : Int} {mesh : Mesh} (h : mesh.Simple node_count)
    (n : NodeID) : n ∉ mesh.connect_to.under n := by
  intro hmem
  apply h.loopless n
  apply (h.connected n n).mp
  exact List.mem_map.mpr ⟨(n, n), Table.mem_items.mpr hmem, rfl⟩

/-- The neighbours of a node in the graph of the lists are the nodes that it knows to be connected
to. -/
theorem neighborSet_of_simple {node_count : Int} {mesh : Mesh} (h : mesh.Simple node_count)
    (n : NodeID) : (graph mesh.connect_to).neighborSet n = mesh.neighbours n := by
  ext m
  simp only [graph, SimpleGraph.mem_neighborSet, SimpleGraph.fromEdgeSet_adj, Set.mem_ofPred_eq,
    h.connected, Finset.mem_coe]
  constructor
  · exact And.left
  · intro hm
    refine ⟨hm, ?_⟩
    rintro rfl
    exact h.loopless n hm

/-- The lists that are returned tell no node to connect to itself, connect no pair twice, and give
each node enough neighbours; and no test of the inner loop waits for a draw that cannot come. -/
theorem random_mesh_connections_is_simple {node_count num_connections : Int}
    (hlt : num_connections < node_count) (draws : List Nat) :
    (∀ connect_to, random_mesh_connections node_count num_connections draws = some connect_to →
      (∀ n, n ∉ connect_to.under n) ∧ (edges connect_to).Nodup ∧
      ∀ n ∈ range node_count, num_connections ≤ ((graph connect_to).neighborSet n).ncard) ∧
    ∀ mesh rest node_id,
      Mesh.connect_nodes node_count num_connections draws = ((mesh, rest), some node_id) →
      ∃ draw, mesh.acceptable node_id (randint 0 (node_count - 1) draw) := by
  have hnodes : ∀ n ∈ range node_count, 0 ≤ n ∧ n < node_count := fun n => mem_range.mp
  refine ⟨?_, ?_⟩
  · intro connect_to hreturns
    unfold random_mesh_connections at hreturns
    split at hreturns
    · rename_i s hloop
      cases hreturns
      obtain ⟨⟨hsimple, -⟩, hdone, -⟩ := Mesh.connect_nodes_spec hnodes (.empty node_count) hloop
      refine ⟨not_mem_under_of_simple hsimple, hsimple.once, ?_⟩
      intro n hn
      have henough := hdone rfl n hn
      rw [neighborSet_of_simple hsimple, Set.ncard_coe_finset]
      unfold Mesh.wants at henough
      omega
    · cases hreturns
  · intro mesh rest node_id hloop
    obtain ⟨-, -, hwaits⟩ := Mesh.connect_nodes_spec hnodes (.empty node_count) hloop
    exact Mesh.Simple.exists_acceptable hlt (hwaits node_id rfl).2

/-- Three nodes that want one connection each: the second node draws itself in vain. -/
theorem random_mesh_connections_of_three_nodes :
    ∃ connect_to, random_mesh_connections 3 1 [1, 2, 1] = some connect_to ∧
      (edges connect_to).Nodup := by
  have hsome : (random_mesh_connections 3 1 [1, 2, 1]).isSome = true := by decide +kernel
  obtain ⟨connect_to, hreturns⟩ := Option.isSome_iff_exists.mp hsome
  exact ⟨connect_to, hreturns,
    ((random_mesh_connections_is_simple (by decide) [1, 2, 1]).1 connect_to hreturns).2.1⟩

end experiment
