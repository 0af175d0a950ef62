-- Laws of the redundancy controller: how its decisions follow what it has
-- counted, and whether the repair that it asks for finds a peer.
import Mathlib.Algebra.Order.Field.Basic
import Mathlib.Algebra.Order.Field.Rat
import GossipShadow.Lib.Tally
import GossipShadow.HaveTxLaws

namespace libp2p_dog

/-! ## The decisions, on exact numbers -/

namespace Controller

/-- The controller, with these transactions counted. -/
def counted (c : Controller Rat) (first_time duplicate : Nat) : Controller Rat :=
  { c with first_time_txs_count := first_time, duplicate_txs_count := duplicate }

/-- Fewer duplicates for each first-time transaction than the lower bound says. With duplicates
alone, the upper bound stands for the redundancy. -/
def Low (c : Controller Rat) : Prop :=
  0 < c.first_time_txs_count ∧
    (c.duplicate_txs_count : Rat) < c.lower_bound * c.first_time_txs_count ∨
  c.first_time_txs_count = 0 ∧ 0 < c.duplicate_txs_count ∧ c.upper_bound < c.lower_bound

instance (c : Controller Rat) : Decidable c.Low := inferInstanceAs (Decidable (_ ∨ _))

/-- More duplicates for each first-time transaction than the upper bound says. -/
def High (c : Controller Rat) : Prop :=
  0 < c.first_time_txs_count ∧
    c.upper_bound * c.first_time_txs_count < (c.duplicate_txs_count : Rat)

theorem redundancy_lt_iff {c : Controller Rat} (h : 0 < c.first_time_txs_count) (bound : Rat) :
    F64.lt c.redundancy bound = true ↔
      (c.duplicate_txs_count : Rat) < bound * c.first_time_txs_count := by
  have hpos : (0 : Rat) < c.first_time_txs_count := by exact_mod_cast h
  have hne : c.first_time_txs_count ≠ 0 := by omega
  simp only [redundancy, hne, if_false, F64.lt, F64.div, F64.ofNat, decide_eq_true_eq]
  exact div_lt_iff₀ hpos

theorem lt_redundancy_iff {c : Controller Rat} (h : 0 < c.first_time_txs_count) (bound : Rat) :
    F64.lt bound c.redundancy = true ↔
      bound * c.first_time_txs_count < (c.duplicate_txs_count : Rat) := by
  have hpos : (0 : Rat) < c.first_time_txs_count := by exact_mod_cast h
  have hne : c.first_time_txs_count ≠ 0 := by omega
  simp only [redundancy, hne, if_false, F64.lt, F64.div, F64.ofNat, decide_eq_true_eq]
  exact lt_div_iff₀ hpos

/-- The controller asks for a ResetRoute exactly when the redundancy is low. -/
theorem asks_iff (c : Controller Rat) : c.evaluate.1.2 = true ↔ c.Low := by
  unfold evaluate Low
  by_cases hfirst : c.first_time_txs_count = 0
  · have hredundancy : c.redundancy = c.upper_bound := by simp [redundancy, hfirst]
    by_cases hduplicate : c.duplicate_txs_count = 0
    · simp [hfirst, hduplicate]
    · simp only [hfirst, hredundancy, Nat.zero_add, hduplicate, if_false, lt_irrefl, false_and,
        false_or, true_and, F64.lt, decide_eq_true_eq]
      have hpos : 0 < c.duplicate_txs_count := by omega
      by_cases hlt : c.upper_bound < c.lower_bound
      · simp [hlt, hpos]
      · simp [hlt]
  · have hpos : 0 < c.first_time_txs_count := by omega
    have hsum : c.first_time_txs_count + c.duplicate_txs_count ≠ 0 := by omega
    simp only [hsum, if_false, hpos, hfirst, true_and, false_and, or_false]
    rw [← redundancy_lt_iff hpos]
    by_cases hlow : F64.lt c.redundancy c.lower_bound = true
    · simp [hlow]
    · simp only [hlow, if_false, Bool.false_eq_true]
      split <;> simp

/-- With the bounds in order, an evaluation lifts the block exactly when the redundancy is high. -/
theorem unblocked_iff {c : Controller Rat} (hbounds : c.lower_bound ≤ c.upper_bound) :
    c.evaluate.2.is_have_tx_blocked = false ↔ c.is_have_tx_blocked = false ∨ c.High := by
  unfold evaluate High
  by_cases hfirst : c.first_time_txs_count = 0
  · have hredundancy : c.redundancy = c.upper_bound := by simp [redundancy, hfirst]
    by_cases hduplicate : c.duplicate_txs_count = 0
    · simp [hfirst, hduplicate]
    · simp [hfirst, hredundancy, hduplicate, F64.lt, not_lt.mpr hbounds]
  · have hpos : 0 < c.first_time_txs_count := by omega
    have hsum : c.first_time_txs_count + c.duplicate_txs_count ≠ 0 := by omega
    simp only [hsum, if_false, hpos, true_and]
    rw [← lt_redundancy_iff hpos]
    by_cases hhigh : F64.lt c.upper_bound c.redundancy = true
    · have hnot : ¬ F64.lt c.redundancy c.lower_bound = true := by
        simp only [F64.lt, decide_eq_true_eq] at hhigh ⊢
        exact not_lt.mpr (hbounds.trans hhigh.le)
      simp [hhigh, hnot]
    · simp only [hhigh, if_false, Bool.false_eq_true, or_false]
      split <;> rfl

/-! ## More redundancy and less -/

/-- Neither decision on fewer first-time transactions and more duplicates is weaker than it should
be: a lifted block stays lifted, and a repair that is asked for would be asked for with less
redundancy too. -/
structure Monotone (c : Controller Rat) (first dup first' dup' : Nat) : Prop where
  prunes : (c.counted first dup).evaluate.2.is_have_tx_blocked = false →
    (c.counted first' dup').evaluate.2.is_have_tx_blocked = false
  repairs : (c.counted first' dup').evaluate.1.2 = true → (c.counted first dup).evaluate.1.2 = true

theorem Low.mono {c : Controller Rat} {first dup first' dup' : Nat}
    (hlower : 0 ≤ c.lower_bound) (hbounds : c.lower_bound ≤ c.upper_bound)
    (hfirst : first' ≤ first) (hdup : dup ≤ dup') (h : (c.counted first' dup').Low) :
    (c.counted first dup).Low := by
  rcases h with ⟨hpos, hlow⟩ | ⟨-, -, hcross⟩
  · left
    have hpos : 0 < first' := hpos
    have hlow : (dup' : Rat) < c.lower_bound * first' := hlow
    have hfirst' : (first' : Rat) ≤ first := by exact_mod_cast hfirst
    have hdup' : (dup : Rat) ≤ dup' := by exact_mod_cast hdup
    refine ⟨show 0 < first by omega, ?_⟩
    calc (dup : Rat) ≤ dup' := hdup'
      _ < c.lower_bound * first' := hlow
      _ ≤ c.lower_bound * first := mul_le_mul_of_nonneg_left hfirst' hlower
  · exact absurd hbounds (not_le.mpr hcross)

theorem High.mono {c : Controller Rat} {first dup first' dup' : Nat} (hupper : 0 ≤ c.upper_bound)
    (hfirst : first' ≤ first) (hdup : dup ≤ dup') (hpos : 0 < first')
    (h : (c.counted first dup).High) : (c.counted first' dup').High := by
  refine ⟨hpos, ?_⟩
  have hhigh : c.upper_bound * first < (dup : Rat) := h.2
  have hfirst' : (first' : Rat) ≤ first := by exact_mod_cast hfirst
  have hdup' : (dup : Rat) ≤ dup' := by exact_mod_cast hdup
  calc c.upper_bound * first' ≤ c.upper_bound * first := mul_le_mul_of_nonneg_left hfirst' hupper
    _ < dup := hhigh
    _ ≤ dup' := hdup'

/-- More redundancy weakens a decision in one case alone: HaveTx is blocked, the transactions would
lift the block, and with more redundancy none of them is received for the first time. -/
theorem more_redundancy_weakens_no_decision_iff {c : Controller Rat} {first dup first' dup' : Nat}
    (hlower : 0 ≤ c.lower_bound) (hbounds : c.lower_bound ≤ c.upper_bound)
    (hfirst : first' ≤ first) (hdup : dup ≤ dup') :
    c.Monotone first dup first' dup' ↔
      ¬ (c.is_have_tx_blocked = true ∧ first' = 0 ∧ 0 < first ∧
        c.upper_bound * first < (dup : Rat)) := by
  have hunblocked : ∀ first dup, (c.counted first dup).evaluate.2.is_have_tx_blocked = false ↔
      c.is_have_tx_blocked = false ∨ (c.counted first dup).High :=
    fun first dup => unblocked_iff (c := c.counted first dup) hbounds
  constructor
  · rintro h ⟨hblocked, rfl, hpos, hhigh⟩
    rcases (hunblocked 0 dup').mp (h.prunes ((hunblocked first dup).mpr (.inr ⟨hpos, hhigh⟩)))
      with hopen | ⟨hnone, -⟩
    · rw [hblocked] at hopen
      cases hopen
    · exact absurd hnone (Nat.lt_irrefl 0)
  · intro h
    refine ⟨?_, ?_⟩
    · intro hlifted
      rw [hunblocked] at hlifted ⊢
      rcases hlifted with hopen | hhigh
      · exact .inl hopen
      · by_cases hblocked : c.is_have_tx_blocked = true
        · right
          have hpos : 0 < first' := by
            by_contra hzero
            exact h ⟨hblocked, by omega, hhigh.1, hhigh.2⟩
          exact hhigh.mono (hlower.trans hbounds) hfirst hdup hpos
        · exact .inl (Bool.eq_false_iff.mpr hblocked)
    · intro hasks
      rw [asks_iff] at hasks ⊢
      exact hasks.mono hlower hbounds hfirst hdup

end Controller

namespace Sample

/-- The controller of the default configuration, with HaveTx blocked. -/
def blocked : Controller Rat := (Controller.new (setup 0).config).block_have_tx

theorem blocked_bounds : blocked.lower_bound = 9 / 10 ∧ blocked.upper_bound = 11 / 10 := by
  decide +kernel

end Sample

theorem more_redundancy_weakens_no_decision_with_a_first_time_transaction :
    Sample.blocked.Monotone 2 3 1 3 := by
  obtain ⟨hlower, hupper⟩ := Sample.blocked_bounds
  apply (Controller.more_redundancy_weakens_no_decision_iff (by rw [hlower]; decide +kernel)
    (by rw [hlower, hupper]; decide +kernel) (by decide) (by decide)).mpr
  rintro ⟨-, hzero, -⟩
  cases hzero

/-- Two duplicates of one transaction lift the block. Two duplicates alone do not. -/
theorem duplicates_alone_do_not_lift_the_block :
    ¬ ∀ (c : Controller Rat) (first dup first' dup' : Nat), 0 ≤ c.lower_bound →
      c.lower_bound ≤ c.upper_bound → (first, dup) ≠ (0, 0) → (first', dup') ≠ (0, 0) →
      first' ≤ first → dup ≤ dup' → c.Monotone first dup first' dup' := by
  intro hclaim
  obtain ⟨hlower, hupper⟩ := Sample.blocked_bounds
  have hmono := hclaim Sample.blocked 1 2 0 2 (by rw [hlower]; decide +kernel)
    (by rw [hlower, hupper]; decide +kernel) (by decide) (by decide) (by decide) (by decide)
  have hlifted : (Sample.blocked.counted 1 2).evaluate.2.is_have_tx_blocked = false := by
    decide +kernel
  have hkept : (Sample.blocked.counted 0 2).evaluate.2.is_have_tx_blocked = true := by
    decide +kernel
  rw [hmono.prunes hlifted] at hkept
  cases hkept

/-! ## The counts, and what was sent to each peer -/

section

variable {P F : Type}

def RpcOut.isHaveTx : RpcOut P → Bool
  | HaveTx _ => true
  | _ => false

def RpcOut.isResetRoute : RpcOut P → Bool
  | ResetRoute _ => true
  | _ => false

theorem foldl_tally_of_no_reset {rpcs : List (RpcOut P)}
    (h : ∀ rpc ∈ rpcs, rpc.isResetRoute = false) (count : Nat) :
    rpcs.foldl RpcOut.tally count = count + rpcs.countP (·.isHaveTx) := by
  induction rpcs generalizing count with
  | nil => rfl
  | cons rpc rpcs ih =>
    have hrest := ih fun r hr => h r (List.mem_cons_of_mem _ hr)
    have hrpc := h rpc (List.mem_cons_self ..)
    rw [List.foldl_cons, hrest, List.countP_cons]
    cases rpc with
    | Publish tx timeout => simp [RpcOut.tally, RpcOut.isHaveTx]
    | Forward tx timeout => simp [RpcOut.tally, RpcOut.isHaveTx]
    | HaveTx have_tx =>
      simp only [RpcOut.tally, RpcOut.isHaveTx, if_true]
      omega
    | ResetRoute reset_route => cases hrpc

variable [DecidableEq P]

/-- The HaveTx that attempts put in the queue of a peer. -/
def have_txs_to (p : P) (attempts : List (Attempt P)) : Nat :=
  (enqueued p attempts).countP (·.isHaveTx)

/-- The ResetRoute that attempts put in the queue of a peer. -/
def reset_routes_to (p : P) (attempts : List (Attempt P)) : Nat :=
  (enqueued p attempts).countP (·.isResetRoute)

/-- What attempts put in the queue of a peer, counted among the attempts. -/
theorem enqueued_countP (test : RpcOut P → Bool) (p : P) (attempts : List (Attempt P)) :
    (enqueued p attempts).countP test =
      attempts.countP fun a => test a.rpc && (decide (a.peer = p) && a.accepted) := by
  unfold enqueued
  rw [List.countP_map, List.countP_filter]
  rfl

/-- What attempts put in the queues of the peers that they go to is all that queues took. -/
theorem sum_enqueued (test : RpcOut P → Bool) (attempts : List (Attempt P)) :
    ∑ p ∈ (attempts.map (·.peer)).toFinset, (enqueued p attempts).countP test =
      attempts.countP fun a => test a.rpc && a.accepted := by
  simp only [enqueued_countP]
  apply Nat.le_antisymm
  · apply Tally.sum_countP_le
    · intro a p q hp hq
      simp only [Bool.and_eq_true, decide_eq_true_eq] at hp hq
      exact hp.2.1.symm.trans hq.2.1
    · intro a p hp
      simp only [Bool.and_eq_true] at hp ⊢
      exact ⟨hp.1, hp.2.2⟩
  · apply Tally.countP_le_sum
    intro a ha htest
    refine ⟨a.peer, List.mem_toFinset.mpr (List.mem_map_of_mem ha), ?_⟩
    simp only [Bool.and_eq_true] at htest
    simp [htest]

variable [Libp2p P]

/-- The counts and the queues balance: each HaveTx that a queue takes is counted, and each
ResetRoute is taken off a count that is not zero. So many ResetRoutes are tried. -/
def Balanced (b : Behaviour P F) (resets : Nat) (b' : Behaviour P F) : Prop :=
  ∃ new, b'.history = b.history ++ new ∧ new.countP (·.rpc.isResetRoute) = resets ∧ ∀ p,
    b.router.have_tx_sent p + have_txs_to p new =
      b'.router.have_tx_sent p + reset_routes_to p new

theorem Balanced.trans {b b' b'' : Behaviour P F} {resets resets' : Nat} (h : Balanced b resets b')
    (h' : Balanced b' resets' b'') : Balanced b (resets + resets') b'' := by
  obtain ⟨new, hhistory, hresets, hcounts⟩ := h
  obtain ⟨new', hhistory', hresets', hcounts'⟩ := h'
  refine ⟨new ++ new', by rw [hhistory', hhistory, List.append_assoc], ?_, ?_⟩
  · rw [List.countP_append, hresets, hresets']
  · intro p
    have hfirst := hcounts p
    have hsecond := hcounts' p
    simp only [have_txs_to, reset_routes_to, enqueued_append, List.countP_append] at *
    omega

/-- Without a ResetRoute the counts follow the HaveTx. -/
theorem Balanced.of_tallies {b b' : Behaviour P F} {new : List (Attempt P)}
    (hsends : Sends b new b')
    (htally : Tallies b new b') (hnone : ∀ a ∈ new, a.rpc.isResetRoute = false) :
    Balanced b 0 b' := by
  refine ⟨new, hsends.history, ?_, ?_⟩
  · apply List.countP_eq_zero.mpr
    intro a ha
    simp [hnone a ha]
  · intro p
    have hrpcs : ∀ rpc ∈ enqueued p new, rpc.isResetRoute = false := by
      intro rpc hrpc
      obtain ⟨a, ha, -, -, rfl⟩ := mem_enqueued.mp hrpc
      exact hnone a ha
    have hzero : reset_routes_to p new = 0 := by
      apply List.countP_eq_zero.mpr
      intro rpc hrpc
      simp [hrpcs rpc hrpc]
    rw [htally p, foldl_tally_of_no_reset hrpcs, hzero]
    rfl

theorem Balanced.quiet {b b' : Behaviour P F} (hsends : Sends b [] b')
    (hcounts : b'.router.have_tx_sent_per_peer = b.router.have_tx_sent_per_peer) :
    Balanced b 0 b' :=
  .of_tallies hsends (.none hcounts) (by simp)

theorem Sends.unique {b b' : Behaviour P F} {new new' : List (Attempt P)} (h : Sends b new b')
    (h' : Sends b new' b') : new = new' := by
  have hsame := h.history.symm.trans h'.history
  exact List.append_cancel_left hsame

variable [Schema]

theorem received_balanced (b : Behaviour P F) (now : Nat) (raw : RawTransaction P) (source : P) :
    Balanced b 0 (b.handle_received_transaction now raw source) := by
  obtain ⟨new, hsends, htally, -⟩ := Behaviour.received_router b now raw source
  refine .of_tallies hsends htally ?_
  cases Behaviour.received_spec b now raw source with
  | invalid e _ sends _ _ =>
    rw [hsends.unique sends]
    simp
  | duplicate tx tx_id _ _ _ _ answer =>
    rcases answer with ⟨sends, -⟩ | ⟨sends, -⟩
    · rw [hsends.unique sends]
      simp
    · rw [hsends.unique sends]
      intro a ha
      rw [List.mem_singleton.mp ha]
      rfl
  | first_time tx tx_id sent _ _ _ _ _ sends spread =>
    rw [hsends.unique sends]
    intro a ha
    rw [(spread.all a ha).2.2]
    rfl

theorem transactions_balanced (b : Behaviour P F) (clock : Nat → Nat) (source : P) (count : Nat)
    (raws : List (RawTransaction P)) :
    Balanced b 0 (b.handle_transactions clock source count raws) := by
  induction raws generalizing b count with
  | nil => exact .quiet (Sends.refl b) rfl
  | cons raw raws ih =>
    unfold Behaviour.handle_transactions
    split
    · exact .quiet (Sends.refl b) rfl
    · exact (received_balanced b (clock count) raw source).trans (ih _ _)

variable [F64 F]

omit [DecidableEq P] [Schema] in
/-- A ResetRoute is tried when one must be sent and a peer is drawn for it. -/
def Behaviour.tries_reset (b : Behaviour P F) (draw : Nat) : Bool :=
  b.asks_reset_route && (b.router.get_random_have_tx_sent_peer draw).isSome

/-- The peer drawn has a count that is not zero, and one is taken off it. -/
theorem adjust_redundancy_balanced (b : Behaviour P F) (now draw : Nat) :
    Balanced b (b.tries_reset draw).toNat (b.adjust_redundancy now draw) := by
  cases Behaviour.adjust_redundancy_spec b now draw with
  | idle no sends router _ =>
    have hno : b.tries_reset draw = false := by
      rcases no with hno | hno <;> simp [Behaviour.tries_reset, hno]
    rw [hno]
    exact .quiet sends (by rw [router])
  | reset p asks drawn sends router _ =>
    have htries : b.tries_reset draw = true := by simp [Behaviour.tries_reset, asks, drawn]
    have hpos := Router.get_random_have_tx_sent_peer_pos drawn
    rw [htries]
    refine ⟨_, sends.history, rfl, ?_⟩
    intro q
    rw [router]
    by_cases hp : p ∈ b.connected_peers
    · by_cases hq : q = p
      · subst hq
        simp only [hp, if_true, Router.have_tx_sent_remove_self, have_txs_to, reset_routes_to,
          enqueued, Behaviour.reset_route_attempt]
        simp only [decide_true, Bool.and_self, List.filter_cons_of_pos, List.filter_nil,
          List.map_cons, List.map_nil, List.countP_singleton, RpcOut.isHaveTx, RpcOut.isResetRoute,
          if_true, Bool.false_eq_true, if_false]
        omega
      · simp [hp, have_txs_to, reset_routes_to, enqueued, Behaviour.reset_route_attempt,
          Ne.symm hq, Router.have_tx_sent_remove_ne hq]
    · simp [hp, have_txs_to, reset_routes_to, enqueued, Behaviour.reset_route_attempt]

omit [Schema] [F64 F] in
theorem Adjusts.not_idles {b d : Behaviour P F} {c : Call P} {now draw : Nat}
    (h : Adjusts b c now draw d) : b.idles c = false := by
  cases h with
  | poll _ _ hevents => simp [Behaviour.idles, hevents]
  | closed _ _ p connection_id => rfl

/-- A call adjusts the redundancy, or it tries no ResetRoute. -/
theorem call_balanced {b b' : Behaviour P F} {c : Call P} (h : b.call c = some b') :
    (∃ now draw d, Adjusts b c now draw d ∧ Balanced b (d.tries_reset draw).toNat b') ∨
    (∀ now draw d, ¬ Adjusts b c now draw d) ∧ Balanced b 0 b' := by
  cases Behaviour.call_cases h with
  | published now data answer publish =>
    refine .inr ⟨fun _ _ _ hadjusts => (by cases hadjusts), ?_⟩
    cases Behaviour.publish_spec publish with
    | refused e _ sends router _ => exact .quiet sends (by rw [router])
    | taken raw tx_id new _ _ _ _ _ _ sends spread router _ =>
      refine .of_tallies sends (spread.tallies rfl (by rw [router])) ?_
      intro a ha
      rw [(spread.all a ha).2.2]
      rfl
  | joined connection_id p call =>
    refine .inr ⟨?_, [], (List.append_nil _).symm, rfl, fun q => rfl⟩
    intro now draw d hadjusts
    rcases call with rfl | rfl
    · cases hadjusts
    · cases hadjusts
  | left now draw p connection_id =>
    obtain ⟨-, -, -, hhistory, -, -, -, hrouter⟩ := Behaviour.disconnect_spec b p
    have hdisconnect : Balanced b 0 (b.disconnect p) := by
      refine ⟨[], by rw [hhistory, List.append_nil], rfl, fun q => ?_⟩
      rw [hrouter]
      rfl
    have hadjust := hdisconnect.trans (adjust_redundancy_balanced (b.disconnect p) now draw)
    have hleft := hadjust.trans (.quiet (Behaviour.with_metrics_sends (·.dec_peers_count) _) rfl)
    rw [Nat.zero_add, Nat.add_zero] at hleft
    exact .inl ⟨now, draw, b.disconnect p, .closed now draw p connection_id, hleft⟩
  | rpc clock draw source rpc invalid =>
    refine .inr ⟨fun _ _ _ hadjusts => (by cases hadjusts), ?_⟩
    apply Behaviour.on_rpc_rule (p := fun b' => Balanced b 0 b')
    · exact transactions_balanced b clock source 0 rpc.transactions
    · intro b' hb'
      obtain ⟨hsends, -, hrouter⟩ :=
        Behaviour.handle_have_tx_spec b' (Behaviour.have_tx_ids rpc.control_msgs) source
      exact hb'.trans (.quiet hsends (by rw [hrouter]))
    · intro b' hb'
      obtain ⟨hsends, -, hrouter⟩ := Behaviour.handle_reset_route_spec b' draw source
      exact hb'.trans (.quiet hsends (by rw [hrouter, Router.enable_random_route_counts]))
  | ticked now draw events =>
    exact .inl ⟨now, draw, b, .poll now draw events, adjust_redundancy_balanced b now draw⟩
  | idle idles sends router =>
    refine .inr ⟨?_, .quiet sends (by rw [router])⟩
    intro now draw d hadjusts
    rw [hadjusts.not_idles] at idles
    cases idles

/-- A step adjusts the redundancy, or it tries no ResetRoute. -/
theorem step_balanced {n n' : Node P F} {op : Op P} (h : n.step op = some n') :
    (∃ c now draw d, op = .call c ∧ Adjusts n.behaviour c now draw d ∧
      Balanced n.behaviour (d.tries_reset draw).toNat n'.behaviour) ∨
    (∀ c now draw d, op = .call c → ¬ Adjusts n.behaviour c now draw d) ∧
      Balanced n.behaviour 0 n'.behaviour := by
  cases Node.step_cases h with
  | called c b' call =>
    rcases call_balanced call with ⟨now, draw, d, hadjusts, hbalanced⟩ | ⟨hnone, hbalanced⟩
    · exact .inl ⟨c, now, draw, d, rfl, hadjusts, hbalanced⟩
    · refine .inr ⟨?_, hbalanced⟩
      rintro c now draw d ⟨⟩
      exact hnone now draw d
  | polled peers no_call _ same =>
    refine .inr ⟨?_, ?_⟩
    · rintro c now draw d rfl
      exact absurd rfl (no_call c)
    · rw [same]
      exact ⟨[], (List.append_nil _).symm, rfl, fun q => rfl⟩

/-- The count of a peer is the number of HaveTx that its queue took less that of ResetRoute. -/
theorem counts_of_run {s : Setup P F} {n : Node P F} {ops : List (Op P)}
    (hrun : s.machine.Run s.node ops n) (p : P) :
    have_txs_to p n.behaviour.history =
      n.behaviour.router.have_tx_sent p + reset_routes_to p n.behaviour.history := by
  have hbalanced : ∃ resets, Balanced s.behaviour resets n.behaviour := by
    apply hrun.invariant (p := fun n => ∃ resets, Balanced s.behaviour resets n.behaviour)
    · exact ⟨0, .quiet (Sends.refl _) rfl⟩
    · rintro n op n' ⟨resets, h⟩ hstep
      rcases step_balanced hstep with ⟨c, now, draw, d, -, -, hbalanced⟩ | ⟨-, hbalanced⟩
      · exact ⟨_, h.trans hbalanced⟩
      · exact ⟨_, h.trans hbalanced⟩
  obtain ⟨resets, new, hhistory, -, hcounts⟩ := hbalanced
  have hnew : n.behaviour.history = new := hhistory
  have hzero : s.behaviour.router.have_tx_sent p = 0 := rfl
  have hcount := hcounts p
  rw [hzero, ← hnew] at hcount
  omega

/-! ## The books of a run -/

omit [F64 F] [Libp2p P] [Schema] [DecidableEq P] in
/-- The ResetRoutes that were put in a queue so far. -/
def Behaviour.repairs (b : Behaviour P F) : Nat :=
  b.history.countP fun a => a.rpc.isResetRoute && a.accepted

omit [F64 F] [Libp2p P] [Schema] [DecidableEq P] in
/-- The ResetRoutes that no queue took, since the peer that was drawn had left. -/
def Behaviour.missed (b : Behaviour P F) : Nat :=
  b.history.countP fun a => a.rpc.isResetRoute && !a.accepted

omit [DecidableEq P] [Schema] [F64 F] in
/-- A ResetRoute that was tried was put in a queue or not. -/
theorem Behaviour.tried_eq (b : Behaviour P F) :
    b.history.countP (·.rpc.isResetRoute) = b.repairs + b.missed := by
  unfold repairs missed
  induction b.history with
  | nil => rfl
  | cons a attempts ih =>
    simp only [List.countP_cons, ih]
    cases a.rpc.isResetRoute <;> cases a.accepted <;> simp <;> omega

/-- The duplicates that a run answered with a HaveTx: they came from a connected peer while HaveTx
were sent and not blocked. -/
def Setup.answered (s : Setup P F) (ops : List (Op P)) : Nat :=
  (s.marks ops).countP (·.have_tx?.isSome)

/-- Each duplicate that was answered is in a count, or a ResetRoute has taken it off again. -/
theorem answered_eq {s : Setup P F} {n : Node P F} {ops : List (Op P)}
    (hrun : s.machine.Run s.node ops n) :
    s.answered ops =
      ∑ p ∈ (n.behaviour.history.map (·.peer)).toFinset, n.behaviour.router.have_tx_sent p +
        n.behaviour.repairs := by
  have hanswered : s.answered ops =
      n.behaviour.history.countP fun a => a.rpc.isHaveTx && a.accepted := by
    have hhave_txs : n.behaviour.have_txs = (s.marks ops).filterMap (·.have_tx?) :=
      (run_marked hrun).have_txs
    unfold Setup.answered
    rw [← List.length_filterMap_eq_countP, ← hhave_txs, Behaviour.have_txs,
      List.length_filterMap_eq_countP]
    apply List.countP_congr
    intro a _
    unfold Attempt.have_tx?
    cases a.rpc <;> cases a.accepted <;> simp [RpcOut.isHaveTx]
  rw [hanswered, ← sum_enqueued, Behaviour.repairs, ← sum_enqueued, ← Finset.sum_add_distrib]
  exact Finset.sum_congr rfl fun p _ => counts_of_run hrun p

/-- Some peer has a count that is not zero exactly when more duplicates were answered than
ResetRoutes were put in a queue. -/
theorem exists_counted_iff {s : Setup P F} {n : Node P F} {ops : List (Op P)}
    (hrun : s.machine.Run s.node ops n) :
    (∃ p, 0 < n.behaviour.router.have_tx_sent p) ↔ n.behaviour.repairs < s.answered ops := by
  have hanswered := answered_eq hrun
  set peers := (n.behaviour.history.map (·.peer)).toFinset with hpeers
  constructor
  · rintro ⟨p, hp⟩
    have hmem : p ∈ peers := by
      have hpos : 0 < have_txs_to p n.behaviour.history := by
        rw [counts_of_run hrun p]
        omega
      obtain ⟨rpc, hrpc, -⟩ := List.countP_pos_iff.mp hpos
      obtain ⟨a, ha, rfl, -, -⟩ := mem_enqueued.mp hrpc
      exact List.mem_toFinset.mpr (List.mem_map_of_mem ha)
    have hle : n.behaviour.router.have_tx_sent p ≤
        ∑ p ∈ peers, n.behaviour.router.have_tx_sent p :=
      Finset.single_le_sum (fun _ _ => Nat.zero_le _) hmem
    omega
  · intro hlt
    by_contra hnone
    have hzero : ∑ p ∈ peers, n.behaviour.router.have_tx_sent p = 0 := by
      apply Finset.sum_eq_zero
      intro p _
      by_contra hp
      exact hnone ⟨p, Nat.pos_of_ne_zero hp⟩
    omega

end

section

variable {P : Type}

/-- Fewer duplicates for each first-time transaction than the lower bound says. With duplicates
alone, the upper bound stands for the redundancy. -/
def Tally.Low (t : Tally) (lower_bound upper_bound : Rat) : Prop :=
  0 < t.first_time ∧ (t.duplicate : Rat) < lower_bound * t.first_time ∨
  t.first_time = 0 ∧ 0 < t.duplicate ∧ upper_bound < lower_bound

instance (t : Tally) (lower_bound upper_bound : Rat) : Decidable (t.Low lower_bound upper_bound) :=
  inferInstanceAs (Decidable (_ ∨ _))

/-- The redundancy is adjusted when too few duplicates were received since it last was. -/
def shortage (lower_bound upper_bound : Rat) (entry : Tally × Mark P) : Bool :=
  match entry.2 with
  | .adjusted => decide (entry.1.Low lower_bound upper_bound)
  | _ => false

theorem shortage_of_not_adjusted (lower_bound upper_bound : Rat) (t : Tally) {marks : List (Mark P)}
    (h : .adjusted ∉ marks) : (t.timeline marks).countP (shortage lower_bound upper_bound) = 0 := by
  apply List.countP_eq_zero.mpr
  intro entry hentry
  have hmark : entry.2 ∈ marks := by
    rw [← Tally.timeline_marks t marks]
    exact List.mem_map_of_mem hentry
  unfold shortage
  split
  · rename_i hadjusted
    rw [hadjusted] at hmark
    exact absurd hmark h
  · exact Bool.false_ne_true

theorem Controller.Counts.low_iff {c : Controller Rat} {t : Tally} (h : c.Counts t) :
    c.Low ↔ t.Low c.lower_bound c.upper_bound := by
  unfold Controller.Low Tally.Low
  rw [h.1, h.2]

variable [DecidableEq P] [Libp2p P] [Schema]

namespace Setup

/-- What was received in a run since the redundancy was last adjusted. -/
def tally (s : Setup P Rat) (ops : List (Op P)) : Tally := (s.marks ops).foldl Tally.next ⟨0, 0⟩

/-- The shortage, by the bounds of the configuration. -/
def short (s : Setup P Rat) (entry : Tally × Mark P) : Bool :=
  shortage (Controller.new s.config : Controller Rat).lower_bound
    (Controller.new s.config : Controller Rat).upper_bound entry

/-- How often the redundancy was adjusted in a run when too few duplicates were received. -/
def shortages (s : Setup P Rat) (ops : List (Op P)) : Nat :=
  (Tally.timeline ⟨0, 0⟩ (s.marks ops)).countP s.short

/-- If a step adjusts the redundancy when too few duplicates were received, the run before it has
answered more duplicates than there were shortages, save those in which the peer drawn had left. -/
def Covers (s : Setup P Rat) (before : List (Op P)) (n : Node P Rat) (op : Op P) : Prop :=
  .adjusted ∈ n.marks op → s.short (s.tally before, .adjusted) = true →
    s.shortages before < s.answered before + n.behaviour.missed

instance (s : Setup P Rat) (before : List (Op P)) (n : Node P Rat) (op : Op P) :
    Decidable (s.Covers before n op) :=
  inferInstanceAs (Decidable (_ → _ → _))

/-- Each shortage of a run is covered. -/
def CoversShortages (s : Setup P Rat) (ops : List (Op P)) : Prop :=
  s.machine.MeetsAfter s.Covers s.node ops

instance (s : Setup P Rat) (ops : List (Op P)) : Decidable (s.CoversShortages ops) :=
  inferInstanceAs (Decidable ((Machine.ofFun _ Node.step).MeetsAfter _ _ _))

end Setup

end

/-! ## Whether the repair finds a peer -/

section

variable {P F : Type} [DecidableEq P] [Libp2p P] [Schema] [F64 F]

/-- When a step adjusts the redundancy and a ResetRoute must be sent, a peer is drawn for it. -/
def Node.FindsPeer (n : Node P F) (op : Op P) : Prop :=
  ∀ c now draw b, op = .call c → Adjusts n.behaviour c now draw b → b.asks_reset_route = true →
    ∃ p, b.router.get_random_have_tx_sent_peer draw = some p ∧ 0 < b.router.have_tx_sent p

omit [F64 F] [Libp2p P] [Schema] in
/-- A peer can be drawn, whatever the draw, exactly when one has a count. -/
theorem exists_drawn_iff (r : Router P) (draw : Nat) :
    (∃ p, r.get_random_have_tx_sent_peer draw = some p ∧ 0 < r.have_tx_sent p) ↔
      ∃ p, 0 < r.have_tx_sent p := by
  constructor
  · rintro ⟨p, -, hp⟩
    exact ⟨p, hp⟩
  · rintro ⟨p, hp⟩
    cases hdraw : r.get_random_have_tx_sent_peer draw with
    | none =>
      have hmem := Router.mem_have_tx_sent_peers.mpr hp
      rw [choose_eq_none.mp hdraw] at hmem
      cases hmem
    | some q => exact ⟨q, rfl, Router.get_random_have_tx_sent_peer_pos hdraw⟩

omit [Schema] [F64 F] in
/-- The redundancy is adjusted with the controller and the counts of the node. -/
theorem Adjusts.same {b d : Behaviour P F} {c : Call P} {now draw : Nat}
    (h : Adjusts b c now draw d) : d.redundancy_controller = b.redundancy_controller ∧
      ∀ p, d.router.have_tx_sent p = b.router.have_tx_sent p := by
  cases h with
  | poll _ _ _ => exact ⟨rfl, fun _ => rfl⟩
  | closed _ _ p connection_id =>
    obtain ⟨-, -, -, -, -, hcontroller, -, hrouter⟩ := Behaviour.disconnect_spec b p
    refine ⟨hcontroller, fun q => ?_⟩
    rw [hrouter]
    rfl

omit [F64 F] in
theorem Adjusts.call_marks {b d : Behaviour P F} {c : Call P} {now draw : Nat}
    (h : Adjusts b c now draw d) : b.call_marks c = [.adjusted] := by
  cases h with
  | poll _ _ hevents => simp [Behaviour.call_marks, hevents]
  | closed _ _ p connection_id => rfl

omit [F64 F] in
theorem Behaviour.adjusted_not_mem_transactions_marks (b : Behaviour P F) (clock : Nat → Nat)
    (source : P) (count : Nat) (raws : List (RawTransaction P)) :
    .adjusted ∉ b.transactions_marks clock source count raws := by
  induction raws generalizing b count with
  | nil => exact List.not_mem_nil
  | cons raw raws ih =>
    unfold transactions_marks
    split
    · exact List.not_mem_nil
    · rw [List.mem_append, not_or]
      refine ⟨?_, ih _ _⟩
      unfold received_marks
      split
      · exact List.not_mem_nil
      · dsimp only
        split
        · simp
        · split <;> simp

omit [F64 F] in
/-- The calls that adjust the redundancy are those that note it. -/
theorem adjusts_of_call_marks {b : Behaviour P F} {c : Call P} (h : .adjusted ∈ b.call_marks c) :
    ∃ now draw d, Adjusts b c now draw d := by
  unfold Behaviour.call_marks at h
  split at h
  · exact absurd h (b.adjusted_not_mem_transactions_marks _ _ _ _)
  · exact ⟨_, _, _, .closed _ _ _ _⟩
  · rename_i now draw
    by_cases hevents : b.events = []
    · exact ⟨now, draw, b, .poll now draw hevents⟩
    · simp [hevents] at h
  · cases h

omit [F64 F] in
/-- A step adjusts the redundancy exactly when it notes it. -/
theorem adjusted_mem_marks_iff {n : Node P F} {op : Op P} :
    .adjusted ∈ n.marks op ↔ ∃ c now draw d, op = .call c ∧ Adjusts n.behaviour c now draw d := by
  constructor
  · intro h
    cases op with
    | call c =>
      obtain ⟨now, draw, d, hadjusts⟩ := adjusts_of_call_marks h
      exact ⟨c, now, draw, d, rfl, hadjusts⟩
    | poll_next index => cases h
    | poll_stale index elapsed => cases h
    | poll_is_empty index => cases h
  · rintro ⟨c, now, draw, d, rfl, hadjusts⟩
    change .adjusted ∈ n.behaviour.call_marks c
    rw [hadjusts.call_marks]
    exact List.mem_singleton_self _

omit [DecidableEq P] [Libp2p P] [Schema] in
theorem Controller.mark_bounds (c : Controller F) (m : Mark P) :
    (c.mark m).lower_bound = c.lower_bound ∧ (c.mark m).upper_bound = c.upper_bound := by
  refine ⟨?_, c.mark_upper_bound m⟩
  cases m with
  | first_time => rfl
  | duplicate => rfl
  | have_tx peer tx_id source => rfl
  | adjusted =>
    unfold mark evaluate reset_counters
    dsimp only
    split
    · rfl
    · split
      · rfl
      · split <;> rfl

omit [DecidableEq P] [Libp2p P] [Schema] in
theorem Controller.marks_bounds (c : Controller F) (marks : List (Mark P)) :
    (marks.foldl mark c).lower_bound = c.lower_bound ∧
      (marks.foldl mark c).upper_bound = c.upper_bound := by
  induction marks generalizing c with
  | nil => exact ⟨rfl, rfl⟩
  | cons m marks ih =>
    obtain ⟨hlower, hupper⟩ := ih (c.mark m)
    exact ⟨hlower.trans (c.mark_bounds m).1, hupper.trans (c.mark_bounds m).2⟩

/-- The controller asks for a ResetRoute exactly when too few duplicates were received since the
redundancy was last adjusted. -/
theorem asks_reset_route_iff {s : Setup P Rat} {n : Node P Rat} {ops : List (Op P)}
    (hrun : s.machine.Run s.node ops n) {c : Call P} {now draw : Nat} {d : Behaviour P Rat}
    (hadjusts : Adjusts n.behaviour c now draw d) :
    d.asks_reset_route = true ↔ s.short (s.tally ops, .adjusted) = true := by
  have hmarked := (run_marked hrun).controller
  have hcounts : n.behaviour.redundancy_controller.Counts (s.tally ops) := by
    have hzero : s.behaviour.redundancy_controller.Counts ⟨0, 0⟩ := ⟨rfl, rfl⟩
    rw [hmarked]
    exact hzero.marks (s.marks ops)
  obtain ⟨hlower, hupper⟩ :=
    s.behaviour.redundancy_controller.marks_bounds (s.marks ops)
  have hasks : d.asks_reset_route = true ↔ n.behaviour.redundancy_controller.Low := by
    rw [← hadjusts.same.1]
    exact Controller.asks_iff _
  rw [hasks, hcounts.low_iff, hmarked, hlower, hupper]
  exact (decide_eq_true_iff).symm

/-- A step finds a peer exactly when, if it comes at a shortage, more duplicates were answered than
ResetRoutes were put in a queue. -/
theorem finds_peer_iff {s : Setup P Rat} {n : Node P Rat} {ops : List (Op P)}
    (hrun : s.machine.Run s.node ops n) (op : Op P) :
    n.FindsPeer op ↔ (.adjusted ∈ n.marks op → s.short (s.tally ops, .adjusted) = true →
      n.behaviour.repairs < s.answered ops) := by
  have hdrawn : ∀ c now draw d, Adjusts n.behaviour c now draw d →
      ((∃ p, d.router.get_random_have_tx_sent_peer draw = some p ∧ 0 < d.router.have_tx_sent p) ↔
        n.behaviour.repairs < s.answered ops) := by
    intro c now draw d hadjusts
    rw [exists_drawn_iff, ← exists_counted_iff hrun]
    simp only [hadjusts.same.2]
  constructor
  · intro h hmark hshort
    obtain ⟨c, now, draw, d, hc, hadjusts⟩ := adjusted_mem_marks_iff.mp hmark
    exact (hdrawn c now draw d hadjusts).mp
      (h c now draw d hc hadjusts ((asks_reset_route_iff hrun hadjusts).mpr hshort))
  · intro h c now draw d hc hadjusts hasks
    have hmark : .adjusted ∈ n.marks op :=
      adjusted_mem_marks_iff.mpr ⟨c, now, draw, d, hc, hadjusts⟩
    exact (hdrawn c now draw d hadjusts).mpr
      (h hmark ((asks_reset_route_iff hrun hadjusts).mp hasks))

/-- While each repair finds a peer, a ResetRoute is tried at each shortage. -/
theorem tried_of_finds {s : Setup P Rat} {n : Node P Rat} {ops : List (Op P)}
    (hrun : s.machine.Run s.node ops n) (hfinds : s.machine.Meets Node.FindsPeer s.node ops) :
    n.behaviour.history.countP (·.rpc.isResetRoute) = s.shortages ops := by
  induction hrun with
  | nil => rfl
  | @snoc m m' ops op hrun hstep ih =>
    obtain ⟨hbefore, hop⟩ := (Machine.meets_snoc hrun op).mp hfinds
    have htried := ih hbefore
    have hshortages : s.shortages (ops ++ [op]) = s.shortages ops +
        ((s.tally ops).timeline (m.marks op)).countP s.short := by
      unfold Setup.shortages Setup.marks
      rw [Machine.observe_snoc Node.marks hrun, Tally.timeline_append, List.countP_append]
      rfl
    rw [hshortages]
    rcases step_balanced hstep with
      ⟨c, now, draw, d, rfl, hadjusts, new, hhistory, hresets, -⟩ |
      ⟨hnone, new, hhistory, hresets, -⟩
    · have hmarks : m.marks (.call c) = [.adjusted] := hadjusts.call_marks
      have htries : d.tries_reset draw = s.short (s.tally ops, .adjusted) := by
        rw [Bool.eq_iff_iff, ← asks_reset_route_iff hrun hadjusts, Behaviour.tries_reset,
          Bool.and_eq_true]
        refine ⟨And.left, fun hasks => ⟨hasks, ?_⟩⟩
        obtain ⟨p, hp, -⟩ := hop c now draw d rfl hadjusts hasks
        rw [hp]
        rfl
      rw [hhistory, List.countP_append, htried, hresets, htries, hmarks]
      unfold Tally.timeline Tally.timeline
      rw [List.countP_singleton]
      cases s.short (s.tally ops, .adjusted) <;> rfl
    · have hmarks : .adjusted ∉ m.marks op := by
        intro hmark
        obtain ⟨c, now, draw, d, hc, hadjusts⟩ := adjusted_mem_marks_iff.mp hmark
        exact hnone c now draw d hc hadjusts
      have hzero : ((s.tally ops).timeline (m.marks op)).countP s.short = 0 :=
        shortage_of_not_adjusted _ _ (s.tally ops) hmarks
      rw [hhistory, List.countP_append, htried, hresets, hzero]

/-- In a run every repair that is due finds a peer exactly when each shortage comes after enough
duplicates that the node has answered: more than the shortages before it, save those in which the
peer drawn had left. -/
theorem a_repair_finds_a_peer_iff {s : Setup P Rat} {n : Node P Rat} {ops : List (Op P)}
    (hrun : s.machine.Run s.node ops n) :
    s.machine.Meets Node.FindsPeer s.node ops ↔ s.CoversShortages ops := by
  unfold Setup.CoversShortages
  induction hrun with
  | nil => exact iff_of_true (Machine.meets_nil _) (Machine.meetsAfter_nil _)
  | @snoc m m' ops op hrun hstep ih =>
    refine (Machine.meets_snoc hrun op).trans (Iff.trans ?_ (Machine.meetsAfter_snoc hrun op).symm)
    change s.machine.Meets _ _ _ ∧ _ ↔ s.machine.MeetsAfter _ _ _ ∧ _
    rw [← ih, finds_peer_iff hrun op]
    unfold Setup.Covers
    refine and_congr_right fun hfinds => ?_
    have htried := tried_of_finds hrun hfinds
    have hsplit := m.behaviour.tried_eq
    refine imp_congr_right fun _ => imp_congr_right fun _ => ?_
    omega

end

/-- The run in which two peers were asked before the redundancy was low, up to the departure of a
third one. -/
theorem a_repair_finds_one_of_two_candidates :
    ∃ n, (Sample.setup 0).machine.Run (Sample.setup 0).node
        (two_candidates ++ new_period 3 ++ [Sample.close 1]) n ∧
      (Sample.setup 0).machine.Meets Node.FindsPeer (Sample.setup 0).node
        (two_candidates ++ new_period 3 ++ [Sample.close 1]) := by
  have hrun : (Machine.exec Node.step (Sample.setup 0).node
      (two_candidates ++ new_period 3 ++ [Sample.close 1])).map
      (fun n => n.behaviour.connected_peers.keys.length) = some 1 := by decide +kernel
  have hcovers : (Sample.setup 0).CoversShortages
      (two_candidates ++ new_period 3 ++ [Sample.close 1]) := by decide +kernel
  obtain ⟨n, hrun, -⟩ := Machine.exists_run_of_exec hrun
  exact ⟨n, hrun, (a_repair_finds_a_peer_iff hrun).mpr hcovers⟩

/-- A node that starts up receives its first transaction, and a peer leaves: the redundancy is low,
and no peer was ever asked to stop anything. -/
def start_up : List (Op Sample.Peer) :=
  [Sample.connect 1, Sample.connect 2, Sample.deliver 1 [Sample.raw 1 1] [], Sample.close 2]

theorem a_repair_finds_no_peer_at_start_up :
    ¬ ∀ (s : Setup Sample.Peer Rat) (n : Node Sample.Peer Rat) (ops : List (Op Sample.Peer)),
      0 < (Controller.new s.config : Controller Rat).lower_bound →
      s.machine.Run s.node ops n → s.machine.Meets Node.FindsPeer s.node ops := by
  intro hclaim
  have hlower : 0 < (Controller.new (Sample.setup 0).config : Controller Rat).lower_bound := by
    decide +kernel
  have hfirst : (Machine.exec Node.step (Sample.setup 0).node
      [Sample.connect 1, Sample.connect 2, Sample.deliver 1 [Sample.raw 1 1] []]).map
      (fun n => ((n.behaviour.disconnect ⟨2⟩).asks_reset_route,
        (n.behaviour.disconnect ⟨2⟩).router.get_random_have_tx_sent_peer 0)) =
      some (true, none) := by decide +kernel
  have hall : (Machine.exec Node.step (Sample.setup 0).node start_up).map
      (fun n => n.behaviour.connected_peers.keys.length) = some 1 := by decide +kernel
  obtain ⟨m, hm, hsee⟩ := Machine.exists_run_of_exec hfirst
  obtain ⟨n, hn, -⟩ := Machine.exists_run_of_exec hall
  simp only [Prod.mk.injEq] at hsee
  obtain ⟨hasks, hnone⟩ := hsee
  have hsplit : start_up = [Sample.connect 1, Sample.connect 2,
      Sample.deliver 1 [Sample.raw 1 1] []] ++ Sample.close 2 :: [] := rfl
  have hfinds := hclaim (Sample.setup 0) n start_up hlower hn _ _ _ m hsplit hm
  obtain ⟨p, hp, -⟩ := hfinds _ 0 0 (m.behaviour.disconnect ⟨2⟩) rfl
    (.closed 0 0 (⟨2⟩ : Sample.Peer) ⟨2⟩) hasks
  rw [hnone] at hp
  cases hp

end libp2p_dog
