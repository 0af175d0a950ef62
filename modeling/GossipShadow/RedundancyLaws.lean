-- Laws of the redundancy timer: when low redundancy makes the node send a
-- ResetRoute, and to whom.
import GossipShadow.Node

namespace libp2p_dog

section

variable {P F : Type} [Libp2p P] [DecidableEq P] [F64 F] [Schema]

/-- `adjust_redundancy` puts one ResetRoute in the queue of `p`, a connected peer with a positive
count, takes one from that count, and touches no other queue and no other count. -/
structure Behaviour.Acts (b : Behaviour P F) (now draw : Nat) (p : P) : Prop where
  connected : p ∈ b.connected_peers
  counted : 0 < b.router.have_tx_sent p
  enqueued : (b.adjust_redundancy now draw).queue p =
    (b.queue p).map (·.push [.ResetRoute {}])
  other_queues : ∀ q, q ≠ p → (b.adjust_redundancy now draw).queue q = b.queue q
  count : (b.adjust_redundancy now draw).router.have_tx_sent p + 1 = b.router.have_tx_sent p
  other_counts : ∀ q, q ≠ p →
    (b.adjust_redundancy now draw).router.have_tx_sent q = b.router.have_tx_sent q

/-- The states in which a call runs `adjust_redundancy`, with its reading of the clock and its
draw. -/
inductive Adjusts (b : Behaviour P F) : Call P → Nat → Nat → Behaviour P F → Prop
  | poll (now draw : Nat) (h : b.events = []) : Adjusts b (.poll now draw true) now draw b
  | closed (now draw : Nat) (p : P) (connection_id : ConnectionId) :
    Adjusts b (.on_swarm_event now draw (.ConnectionClosed p connection_id 0)) now draw
      (b.disconnect p)

/-- The peer drawn is connected, so the node acts. -/
theorem acts_of_drawn {b : Behaviour P F} {now draw : Nat} {p : P}
    (hasks : b.asks_reset_route = true)
    (hdrawn : b.router.get_random_have_tx_sent_peer draw = some p)
    (hconnected : p ∈ b.connected_peers) : b.Acts now draw p := by
  have hcounted := Router.get_random_have_tx_sent_peer_pos hdrawn
  cases Behaviour.adjust_redundancy_spec b now draw with
  | idle no _ _ _ =>
    rcases no with hno | hno
    · rw [hasks] at hno
      cases hno
    · rw [hdrawn] at hno
      cases hno
  | reset q _ hq sends router _ =>
    obtain rfl : p = q := by simpa [hdrawn] using hq
    rw [if_pos hconnected] at router
    refine ⟨hconnected, hcounted, ?_, ?_, ?_, ?_⟩
    · rw [sends.queue]
      simp [enqueued, Behaviour.reset_route_attempt, hconnected]
    · intro q hq
      rw [sends.queue]
      simp only [enqueued, Behaviour.reset_route_attempt, List.filter_cons, Ne.symm hq,
        decide_false, Bool.false_and, Bool.false_eq_true, if_false, List.filter_nil, List.map_nil,
        Sender.push_nil]
      exact Option.map_id'
    · rw [router, Router.have_tx_sent_remove_self]
      omega
    · intro q hq
      rw [router, Router.have_tx_sent_remove_ne hq]

/-- The peer drawn is not connected, so the node keeps its counts. -/
theorem idle_of_drawn {b : Behaviour P F} {now draw : Nat} {p : P}
    (hdrawn : b.router.get_random_have_tx_sent_peer draw = some p)
    (hgone : p ∉ b.connected_peers) :
    (b.adjust_redundancy now draw).router = b.router := by
  cases Behaviour.adjust_redundancy_spec b now draw with
  | idle _ _ router _ => exact router
  | reset q _ hq _ router _ =>
    obtain rfl : p = q := by simpa [hdrawn] using hq
    rw [router, if_neg hgone]

/-- Low redundancy is acted on, whatever the draw, exactly when every peer with a positive count is
connected. -/
theorem acts_iff {b : Behaviour P F} (now : Nat) (hasks : b.asks_reset_route = true)
    (hsome : ∃ p ∈ b.connected_peers, 0 < b.router.have_tx_sent p) :
    (∀ draw, ∃ p, b.Acts now draw p) ↔
      ∀ p, 0 < b.router.have_tx_sent p → p ∈ b.connected_peers := by
  constructor
  · intro h p hcounted
    by_contra hgone
    obtain ⟨draw, hdraw⟩ := exists_choose (Router.mem_have_tx_sent_peers.mpr hcounted)
    obtain ⟨q, hq⟩ := h draw
    have hcount := hq.count
    rw [idle_of_drawn hdraw hgone] at hcount
    omega
  · intro h draw
    obtain ⟨p, -, hp⟩ := hsome
    cases hdraw : b.router.get_random_have_tx_sent_peer draw with
    | none =>
      have hmem := Router.mem_have_tx_sent_peers.mpr hp
      rw [choose_eq_none.mp hdraw] at hmem
      cases hmem
    | some q =>
      exact ⟨q, acts_of_drawn hasks hdraw (h q (Router.get_random_have_tx_sent_peer_pos hdraw))⟩

/-! ## Over whole runs -/

/-- Each peer with a positive count is connected. -/
def Behaviour.Counted (b : Behaviour P F) : Prop :=
  ∀ p, 0 < b.router.have_tx_sent p → p ∈ b.connected_peers

/-- No peer leaves while its count is positive. -/
def leaves_uncounted (b : Behaviour P F) : Call P → Bool
  | .on_swarm_event _ _ (.ConnectionClosed p _ 0) => decide (b.router.have_tx_sent p = 0)
  | _ => true

omit [Libp2p P] [DecidableEq P] [F64 F] [Schema] in
/-- A count rises only with an RPC sent. -/
theorem tally_pos {rpcs : List (RpcOut P)} {count : Nat} (h : 0 < rpcs.foldl RpcOut.tally count) :
    0 < count ∨ rpcs ≠ [] := by
  cases rpcs with
  | nil => exact .inl h
  | cons rpc rpcs => exact .inr (by simp)

omit [F64 F] [Schema] in
theorem Behaviour.Counted.sends {b b' : Behaviour P F} {new : List (Attempt P)} (h : b.Counted)
    (hsends : Sends b new b') (htally : Tallies b new b') : b'.Counted := by
  intro p hp
  rw [hsends.mem_keys]
  rw [htally p] at hp
  rcases tally_pos hp with hp | hp
  · exact h p hp
  · obtain ⟨rpc, hrpc⟩ := List.exists_mem_of_ne_nil _ hp
    obtain ⟨a, ha, rfl, haccepted, -⟩ := mem_enqueued.mp hrpc
    exact hsends.reached a ha haccepted

omit [F64 F] [Schema] in
theorem Behaviour.Counted.disconnect {b : Behaviour P F} {p : P} (h : b.Counted)
    (hp : b.router.have_tx_sent p = 0) : (b.disconnect p).Counted := by
  obtain ⟨-, -, -, -, -, -, hpeers, hrouter⟩ := Behaviour.disconnect_spec b p
  intro q hq
  have hq : 0 < b.router.have_tx_sent q := by simpa [hrouter, Router.have_tx_sent] using hq
  rw [hpeers, AList.mem_erase]
  refine ⟨?_, h q hq⟩
  rintro rfl
  omega

theorem Behaviour.Counted.call {b b' : Behaviour P F} {c : Call P} (h : b.Counted)
    (hleaves : leaves_uncounted b c = true) (hcall : b.call c = some b') : b'.Counted := by
  cases call_routed hcall with
  | sends new sends tallies _ => exact h.sends sends tallies
  | joined connection_id p _ => exact fun q hq => (AList.mem_insert _).mpr (.inr (h q hq))
  | left now draw p connection_id new sends tallies _ =>
    exact (h.disconnect (of_decide_eq_true hleaves)).sends sends tallies
  | rpc clock draw source rpc invalid new sends tallies _ => exact h.sends sends tallies

/-- As long as no peer leaves with a positive count, low redundancy is acted on whenever it can be.
In any state it is, for every draw, exactly when every peer with a positive count is connected. -/
theorem low_redundancy_is_acted_on {s : Setup P F} {n : Node P F} {ops : List (Op P)}
    (hrun : s.machine.Run s.node ops n) :
    (s.machine.Meets (fun n op => on_calls leaves_uncounted n op = true) s.node ops →
      ∀ c now draw b, leaves_uncounted n.behaviour c = true → Adjusts n.behaviour c now draw b →
        b.asks_reset_route = true → (∃ p ∈ b.connected_peers, 0 < b.router.have_tx_sent p) →
        ∃ p, b.Acts now draw p) ∧
    ∀ now, n.behaviour.asks_reset_route = true →
      (∃ p ∈ n.behaviour.connected_peers, 0 < n.behaviour.router.have_tx_sent p) →
      ((∀ draw, ∃ p, n.behaviour.Acts now draw p) ↔
        ∀ p, 0 < n.behaviour.router.have_tx_sent p → p ∈ n.behaviour.connected_peers) := by
  refine ⟨?_, fun now hasks hsome => acts_iff now hasks hsome⟩
  intro hok c now draw b hleaves hadjusts hasks hsome
  have hcounted : n.behaviour.Counted := by
    refine run_invariant (p := Behaviour.Counted) hrun hok ?_
      (fun _ _ _ h hleaves hcall => h.call hleaves hcall) ?_
    · intro p hp
      exact absurd hp (Nat.lt_irrefl 0)
    · intro b peers h hkeys p hp
      rw [AList.mem_keys, hkeys, ← AList.mem_keys]
      exact h p hp
  have hb : b.Counted := by
    cases hadjusts with
    | poll _ _ _ => exact hcounted
    | closed _ _ p _ => exact hcounted.disconnect (of_decide_eq_true hleaves)
  exact (acts_iff now hasks hsome).mpr hb draw

end

/-- Peer 2 repeats a transaction of peer 1 twice, which earns it a HaveTx and, once the timer has
run, lifts the block on HaveTx; peer 1 then repeats a transaction of peer 2. -/
def two_candidates : List (Op Sample.Peer) :=
  [Sample.connect 1, Sample.connect 2, Sample.connect 3, Sample.deliver 1 [Sample.raw 1 1] [],
    Sample.deliver 2 [Sample.raw 1 1] [], Sample.deliver 2 [Sample.raw 1 1] [], Sample.close 3,
    Sample.deliver 2 [Sample.raw 2 1] [], Sample.deliver 1 [Sample.raw 2 1] []]

/-- The first transaction of the next period: the redundancy is zero. -/
def new_period (leaver : UInt8) : List (Op Sample.Peer) :=
  [Sample.close leaver, Sample.deliver 2 [Sample.raw 2 2] []]

theorem low_redundancy_is_acted_on_with_two_candidates :
    ∃ n, (Sample.setup 0).machine.Run (Sample.setup 0).node (two_candidates ++ new_period 3) n ∧
      ∀ now draw, ∃ p, (n.behaviour.disconnect ⟨3⟩).Acts now draw p := by
  have hrun : (Machine.exec (Machine.guarded (on_calls leaves_uncounted) Node.step)
      (Sample.setup 0).node (two_candidates ++ new_period 3)).map
      (fun n => ((n.behaviour.disconnect ⟨3⟩).asks_reset_route,
        decide (⟨1⟩ ∈ (n.behaviour.disconnect ⟨3⟩).connected_peers),
        (n.behaviour.disconnect ⟨3⟩).router.have_tx_sent ⟨1⟩,
        leaves_uncounted n.behaviour (.on_swarm_event 0 0 (.ConnectionClosed ⟨3⟩ ⟨0⟩ 0)))) =
      some (true, true, 1, true) := by decide +kernel
  obtain ⟨n, hrun, hok, hsee⟩ := Setup.exists_run hrun
  simp only [Prod.mk.injEq, decide_eq_true_eq] at hsee
  obtain ⟨hasks, hconnected, hcount, hleaves⟩ := hsee
  refine ⟨n, hrun, ?_⟩
  intro now draw
  have hadjusts : Adjusts n.behaviour
      (.on_swarm_event now draw (.ConnectionClosed ⟨3⟩ ⟨0⟩ 0)) now draw
      (n.behaviour.disconnect ⟨3⟩) := .closed now draw _ _
  exact (low_redundancy_is_acted_on hrun).1 hok
    (.on_swarm_event now draw (.ConnectionClosed ⟨3⟩ ⟨0⟩ 0)) now draw _ hleaves hadjusts hasks
    ⟨⟨1⟩, hconnected, by omega⟩

/-- Peer 1 leaves with a positive count. Its count is drawn later, and nothing is sent, although
peer 2 could be asked. -/
theorem low_redundancy_is_not_acted_on_when_the_draw_is_a_peer_that_left :
    ¬ ∀ (s : Setup Sample.Peer Rat) (n : Node Sample.Peer Rat), s.machine.Reachable n →
      n.behaviour.asks_reset_route = true →
      (∃ p ∈ n.behaviour.connected_peers, 0 < n.behaviour.router.have_tx_sent p) →
      ∀ now draw, ∃ p, n.behaviour.Acts now draw p := by
  intro hclaim
  have hrun : (Machine.exec Node.step (Sample.setup 0).node
      (two_candidates ++ new_period 1)).map
      (fun n => (n.behaviour.asks_reset_route, decide (⟨2⟩ ∈ n.behaviour.connected_peers),
        n.behaviour.router.have_tx_sent ⟨2⟩, decide (⟨1⟩ ∈ n.behaviour.connected_peers),
        n.behaviour.router.have_tx_sent ⟨1⟩)) = some (true, true, 1, false, 1) := by
    decide +kernel
  obtain ⟨n, hrun, hsee⟩ := Machine.exists_run_of_exec hrun
  simp only [Prod.mk.injEq, decide_eq_true_eq, decide_eq_false_iff_not] at hsee
  obtain ⟨hasks, hconnected, hcount, hgone, hstale⟩ := hsee
  have hsome : ∃ p ∈ n.behaviour.connected_peers, 0 < n.behaviour.router.have_tx_sent p :=
    ⟨⟨2⟩, hconnected, by omega⟩
  have hacts := hclaim _ n ⟨_, _, rfl, hrun⟩ hasks hsome 0
  exact hgone ((acts_iff 0 hasks hsome).mp hacts ⟨1⟩ (by omega))

end libp2p_dog
