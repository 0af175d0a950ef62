-- The router and the redundancy controller (dog.rs). The router lists the
-- routes that are disabled and counts the HaveTx sent to each peer; the
-- controller counts first-time and duplicate transactions.
import GossipShadow.Lib.Table
import GossipShadow.Types

namespace libp2p_dog

/-- `IteratorRandom::choose`: any item of a list, by the draw of the random generator. -/
def choose {α : Type} (draw : Nat) (l : List α) : Option α := l[draw % l.length]?

theorem choose_mem {α : Type} {draw : Nat} {l : List α} {a : α} (h : choose draw l = some a) :
    a ∈ l := List.mem_of_getElem? h

theorem choose_eq_none {α : Type} {draw : Nat} {l : List α} : choose draw l = none ↔ l = [] := by
  constructor
  · intro h
    by_contra hl
    have hpos : 0 < l.length := List.length_pos_of_ne_nil hl
    have hlt := Nat.mod_lt draw hpos
    rw [choose, List.getElem?_eq_getElem hlt] at h
    cases h
  · rintro rfl
    simp [choose]

/-- Every item of the list is the choice of some draw. -/
theorem exists_choose {α : Type} {l : List α} {a : α} (h : a ∈ l) :
    ∃ draw, choose draw l = some a := by
  obtain ⟨i, hi, he⟩ := List.getElem_of_mem h
  refine ⟨i, ?_⟩
  rw [choose, Nat.mod_eq_of_lt hi, List.getElem?_eq_getElem hi, he]

structure Route (P : Type) where
  source : P
  target : P
deriving DecidableEq, Repr

structure Router (P : Type) where
  disabled_routes : List (Route P)
  have_tx_sent_per_peer : Table P Nat

namespace Router

variable {P : Type} [DecidableEq P]

def new : Router P := { disabled_routes := [], have_tx_sent_per_peer := ∅ }

def disable_route (r : Router P) (source target : P) : Router P :=
  { r with disabled_routes := r.disabled_routes ++ [{ source, target }] }

/-- The places of the routes to a peer in the list. -/
def routes_to_peer (r : Router P) (peer : P) : List (Route P × Nat) :=
  r.disabled_routes.zipIdx.filter fun route => decide (route.1.target = peer)

def enable_random_route_to_peer (r : Router P) (draw : Nat) (peer : P) :
    Option (Route P) × Router P :=
  match choose draw (r.routes_to_peer peer) with
  | some (route, index) => (some route, { r with
      disabled_routes := r.disabled_routes.eraseIdx index })
  | none => (none, r)

/-- A route from a peer or to it. -/
def with_peer (peer : P) (route : Route P) : Bool :=
  decide (route.source = peer) || decide (route.target = peer)

/-- The first part of the answer is the list of the routes that were removed. -/
def reset_routes_with_peer (r : Router P) (peer : P) : List (Route P) × Router P :=
  (r.disabled_routes.filter (with_peer peer), { r with
    disabled_routes := r.disabled_routes.filter fun route => !with_peer peer route })

def filter_valid_routes (r : Router P) (source : P) (targets : List P) : List P :=
  targets.filter fun target =>
    !r.disabled_routes.any fun route =>
      decide (route.source = source) && decide (route.target = target)

/-- The number of HaveTx sent to a peer, less the number of ResetRoute sent to it. -/
def have_tx_sent (r : Router P) (peer : P) : Nat := Table.getD r.have_tx_sent_per_peer peer 0

def register_have_tx_sent (r : Router P) (peer : P) : Router P :=
  { r with have_tx_sent_per_peer := r.have_tx_sent_per_peer.insert peer (r.have_tx_sent peer + 1) }

/-- The peers with a positive count. -/
def have_tx_sent_peers (r : Router P) : List P :=
  r.have_tx_sent_per_peer.entries.filterMap fun entry =>
    if entry.2 > 0 then some entry.1 else none

def get_random_have_tx_sent_peer (r : Router P) (draw : Nat) : Option P :=
  choose draw r.have_tx_sent_peers

def remove_have_tx_sent (r : Router P) (peer : P) : Router P :=
  let decrement := fun counter => if counter > 0 then counter - 1 else counter
  { r with have_tx_sent_per_peer := Table.modify peer decrement r.have_tx_sent_per_peer }

/-! ## The lemmas of the router -/

theorem mem_filter_valid_routes {r : Router P} {source p : P} {targets : List P} :
    p ∈ r.filter_valid_routes source targets ↔
      p ∈ targets ∧ (⟨source, p⟩ : Route P) ∉ r.disabled_routes := by
  unfold filter_valid_routes
  simp only [List.mem_filter, Bool.not_eq_true', List.any_eq_false, Bool.and_eq_true,
    decide_eq_true_eq, not_and]
  refine and_congr_right fun _ => ⟨?_, ?_⟩
  · intro h hmem
    exact h _ hmem rfl rfl
  · rintro h ⟨s, t⟩ hmem rfl rfl
    exact h hmem

theorem filter_valid_routes_nodup {r : Router P} {source : P} {targets : List P}
    (h : targets.Nodup) : (r.filter_valid_routes source targets).Nodup :=
  h.sublist List.filter_sublist

theorem mem_have_tx_sent_peers {r : Router P} {p : P} :
    p ∈ r.have_tx_sent_peers ↔ 0 < r.have_tx_sent p := by
  unfold have_tx_sent_peers have_tx_sent Table.getD
  rw [List.mem_filterMap]
  constructor
  · rintro ⟨⟨q, n⟩, hmem, he⟩
    split at he
    · rename_i hn
      cases he
      rw [AList.mem_lookup_iff.mpr hmem]
      exact hn
    · cases he
  · intro h
    cases hl : r.have_tx_sent_per_peer.lookup p with
    | none => simp [hl] at h
    | some n =>
      rw [hl] at h
      exact ⟨⟨p, n⟩, AList.mem_lookup_iff.mp hl, if_pos h⟩

@[simp] theorem have_tx_sent_register_self (r : Router P) (p : P) :
    (r.register_have_tx_sent p).have_tx_sent p = r.have_tx_sent p + 1 := by
  simp [register_have_tx_sent, have_tx_sent]

theorem have_tx_sent_register_ne {p q : P} (h : q ≠ p) (r : Router P) :
    (r.register_have_tx_sent p).have_tx_sent q = r.have_tx_sent q :=
  Table.getD_insert_ne h _ _ _

@[simp] theorem have_tx_sent_remove_self (r : Router P) (p : P) :
    (r.remove_have_tx_sent p).have_tx_sent p = r.have_tx_sent p - 1 := by
  unfold remove_have_tx_sent have_tx_sent
  simp only [Table.getD_modify, if_true]
  unfold Table.getD
  cases r.have_tx_sent_per_peer.lookup p with
  | none => rfl
  | some n =>
    simp only [Option.map_some, Option.getD_some]
    split <;> omega

theorem have_tx_sent_remove_ne {p q : P} (h : q ≠ p) (r : Router P) :
    (r.remove_have_tx_sent p).have_tx_sent q = r.have_tx_sent q := by
  unfold remove_have_tx_sent have_tx_sent
  simp [Table.getD_modify, h]

theorem get_random_have_tx_sent_peer_pos {r : Router P} {draw : Nat} {p : P}
    (h : r.get_random_have_tx_sent_peer draw = some p) : 0 < r.have_tx_sent p :=
  mem_have_tx_sent_peers.mp (choose_mem h)

omit [DecidableEq P] in
@[simp] theorem disable_route_routes (r : Router P) (s t : P) :
    (r.disable_route s t).disabled_routes = r.disabled_routes ++ [{ source := s, target := t }] :=
  rfl

omit [DecidableEq P] in
@[simp] theorem disable_route_counts (r : Router P) (s t : P) :
    (r.disable_route s t).have_tx_sent_per_peer = r.have_tx_sent_per_peer := rfl

@[simp] theorem register_have_tx_sent_routes (r : Router P) (p : P) :
    (r.register_have_tx_sent p).disabled_routes = r.disabled_routes := rfl

@[simp] theorem remove_have_tx_sent_routes (r : Router P) (p : P) :
    (r.remove_have_tx_sent p).disabled_routes = r.disabled_routes := rfl

@[simp] theorem reset_routes_counts (r : Router P) (p : P) :
    (r.reset_routes_with_peer p).2.have_tx_sent_per_peer = r.have_tx_sent_per_peer := rfl

theorem mem_reset_routes {r : Router P} {p : P} {route : Route P} :
    route ∈ (r.reset_routes_with_peer p).2.disabled_routes ↔
      route ∈ r.disabled_routes ∧ route.source ≠ p ∧ route.target ≠ p := by
  simp [reset_routes_with_peer, with_peer]

theorem mem_routes_to_peer {r : Router P} {peer : P} {route : Route P} {index : Nat} :
    (route, index) ∈ r.routes_to_peer peer ↔
      r.disabled_routes[index]? = some route ∧ route.target = peer := by
  simp [routes_to_peer, List.mem_filter, List.mk_mem_zipIdx_iff_getElem?]

/-- What the random choice of a route does: it takes out one route to the peer, at some place of
the list, and it finds none only when there is none. -/
theorem enable_random_route_spec (r : Router P) (draw : Nat) (peer : P) :
    (∃ before route after, r.disabled_routes = before ++ route :: after ∧ route.target = peer ∧
      r.enable_random_route_to_peer draw peer =
        (some route, { r with disabled_routes := before ++ after })) ∨
    ((∀ route ∈ r.disabled_routes, route.target ≠ peer) ∧
      r.enable_random_route_to_peer draw peer = (none, r)) := by
  unfold enable_random_route_to_peer
  cases h : choose draw (r.routes_to_peer peer) with
  | none =>
    right
    refine ⟨?_, rfl⟩
    intro route hroute ht
    obtain ⟨i, hi⟩ := List.getElem?_of_mem hroute
    have hmem := mem_routes_to_peer.mpr ⟨hi, ht⟩
    rw [choose_eq_none.mp h] at hmem
    cases hmem
  | some e =>
    left
    obtain ⟨route, index⟩ := e
    obtain ⟨hi, ht⟩ := mem_routes_to_peer.mp (choose_mem h)
    obtain ⟨hlt, hget⟩ := List.getElem?_eq_some_iff.mp hi
    refine ⟨r.disabled_routes.take index, route, r.disabled_routes.drop (index + 1), ?_, ht, ?_⟩
    · rw [← hget, ← List.drop_eq_getElem_cons hlt, List.take_append_drop]
    · simp only [List.eraseIdx_eq_take_drop_succ]

/-- Every route to the peer, at its place in the list, is the choice of some draw. -/
theorem exists_draw_enable (r : Router P) {before after : List (Route P)} {route : Route P}
    (h : r.disabled_routes = before ++ route :: after) :
    ∃ draw, r.enable_random_route_to_peer draw route.target =
      (some route, { r with disabled_routes := before ++ after }) := by
  have hmem : (route, before.length) ∈ r.routes_to_peer route.target := by
    rw [mem_routes_to_peer, h]
    simp
  obtain ⟨draw, hdraw⟩ := exists_choose hmem
  refine ⟨draw, ?_⟩
  unfold enable_random_route_to_peer
  rw [hdraw]
  simp [h, List.eraseIdx_append_of_length_le]

theorem enable_random_route_counts (r : Router P) (draw : Nat) (p : P) :
    (r.enable_random_route_to_peer draw p).2.have_tx_sent_per_peer = r.have_tx_sent_per_peer := by
  rcases enable_random_route_spec r draw p with ⟨_, _, _, _, _, h⟩ | ⟨_, h⟩
  · rw [h]
  · rw [h]

end Router

structure Controller (F : Type) where
  lower_bound : F
  upper_bound : F
  first_time_txs_count : Nat
  duplicate_txs_count : Nat
  is_have_tx_blocked : Bool

namespace Controller

variable {P F : Type} [F64 F]

def new (config : Config P F) : Controller F :=
  let delta := F64.mul config.target_redundancy
    (F64.div (F64.ofNat config.redundancy_delta_percent.toNat) (F64.ofNat 100))
  { lower_bound := F64.sub config.target_redundancy delta
    upper_bound := F64.add config.target_redundancy delta
    first_time_txs_count := 0
    duplicate_txs_count := 0
    is_have_tx_blocked := false }

def incr_first_time_txs_count (c : Controller F) : Controller F :=
  { c with first_time_txs_count := c.first_time_txs_count + 1 }

def incr_duplicate_txs_count (c : Controller F) : Controller F :=
  { c with duplicate_txs_count := c.duplicate_txs_count + 1 }

def block_have_tx (c : Controller F) : Controller F := { c with is_have_tx_blocked := true }

def redundancy (c : Controller F) : F :=
  if c.first_time_txs_count = 0 then c.upper_bound
  else F64.div (F64.ofNat c.duplicate_txs_count) (F64.ofNat c.first_time_txs_count)

/-- Gives the redundancy, and whether to send a ResetRoute. -/
def evaluate (c : Controller F) : (F × Bool) × Controller F :=
  if c.first_time_txs_count + c.duplicate_txs_count = 0 then ((c.upper_bound, false), c)
  else
    let redundancy := c.redundancy
    if F64.lt redundancy c.lower_bound then ((redundancy, true), c)
    else if F64.lt c.upper_bound redundancy then
      ((redundancy, false), { c with is_have_tx_blocked := false })
    else ((redundancy, false), c)

def reset_counters (c : Controller F) : Controller F :=
  { c with first_time_txs_count := 0, duplicate_txs_count := 0 }

end Controller

end libp2p_dog
