-- An overlay falls silent. Each RPC is a copy of a transaction, a HaveTx that
-- answers such a copy, or a ResetRoute that the redundancy timer or a lost peer
-- asked for. So what the nodes send in a run is bounded by what was published
-- and by how often the redundancy was adjusted.
import GossipShadow.ControllerLaws
import GossipShadow.CostLaws
import GossipShadow.Lib.Tally

namespace libp2p_dog

section

variable {P F : Type}

/-! ## The kinds of RPCs -/

namespace RpcOut

def isTx (rpc : RpcOut P) : Bool := rpc.tx?.isSome

/-- Each RPC is of one kind. -/
theorem countP_kinds (rpcs : List (RpcOut P)) :
    rpcs.length = rpcs.countP isTx + rpcs.countP isHaveTx + rpcs.countP isResetRoute := by
  induction rpcs with
  | nil => rfl
  | cons rpc rpcs ih =>
    simp only [List.length_cons, List.countP_cons]
    cases rpc <;> simp [isTx, isHaveTx, isResetRoute, tx?] <;> omega

end RpcOut

/-- The call lets the redundancy be adjusted, if there is no event to hand out first. -/
def Call.adjusts : Call P → Bool
  | poll _ _ redundancy_interval => redundancy_interval
  | on_swarm_event _ _ (.ConnectionClosed _ _ remaining_established) =>
    decide (remaining_established = 0)
  | _ => false

def Op.adjusts : Op P → Bool
  | call c => c.adjusts
  | _ => false

def OverlayOp.adjusts : OverlayOp P → Bool
  | act _ op => op.adjusts
  | _ => false

/-- The step lets the redundancy of `v` be adjusted. -/
def OverlayOp.adjusts_at [DecidableEq P] (v : P) : OverlayOp P → Bool
  | act u op => decide (u = v) && op.adjusts
  | _ => false

def OverlayOp.publishes : OverlayOp P → Bool
  | act _ (.call (.publish _ _)) => true
  | _ => false

/-! ## The control RPCs of one node -/

variable [Libp2p P] [DecidableEq P]

/-- A call that tries to send so many HaveTx and so many ResetRoutes at most. -/
structure Controls (b : Behaviour P F) (have_txs resets : Nat) (b' : Behaviour P F) : Prop where
  have_tx : b'.history.countP (·.rpc.isHaveTx) ≤ b.history.countP (·.rpc.isHaveTx) + have_txs
  reset_route :
    b'.history.countP (·.rpc.isResetRoute) ≤ b.history.countP (·.rpc.isResetRoute) + resets

omit [DecidableEq P] in
theorem Controls.trans {b b' b'' : Behaviour P F} {m n m' n' : Nat} (h : Controls b m n b')
    (h' : Controls b' m' n' b'') : Controls b (m + m') (n + n') b'' := by
  have h₁ := h.have_tx
  have h₂ := h.reset_route
  have h₃ := h'.have_tx
  have h₄ := h'.reset_route
  constructor
  · omega
  · omega

omit [DecidableEq P] in
theorem Controls.mono {b b' : Behaviour P F} {m n m' n' : Nat} (h : Controls b m n b')
    (hm : m ≤ m') (hn : n ≤ n') : Controls b m' n' b' :=
  ⟨h.have_tx.trans (Nat.add_le_add_left hm _), h.reset_route.trans (Nat.add_le_add_left hn _)⟩

omit [DecidableEq P] in
theorem Controls.of_history {b b' : Behaviour P F} {new : List (Attempt P)}
    (h : b'.history = b.history ++ new) :
    Controls b (new.countP (·.rpc.isHaveTx)) (new.countP (·.rpc.isResetRoute)) b' := by
  constructor
  · rw [h, List.countP_append]
  · rw [h, List.countP_append]

omit [DecidableEq P] in
theorem Controls.same {b b' : Behaviour P F} (h : b'.history = b.history) : Controls b 0 0 b' :=
  .of_history (h.trans (List.append_nil _).symm)

omit [DecidableEq P] in
/-- The copies of one transaction are no control RPCs. -/
theorem Spread.controls {b b' : Behaviour P F} {now : Nat} {tx_id : TransactionId} {rpc : RpcOut P}
    {peers : List P} {new : List (Attempt P)} (h : Spread now tx_id rpc peers new)
    (hrpc : rpc.isTx = true) (hhistory : b'.history = b.history ++ new) : Controls b 0 0 b' := by
  apply (Controls.of_history hhistory).mono
  · rw [Nat.le_zero, List.countP_eq_zero]
    intro a ha
    rw [(h.all a ha).2.2]
    cases rpc <;> simp_all [RpcOut.isTx, RpcOut.isHaveTx, RpcOut.tx?]
  · rw [Nat.le_zero, List.countP_eq_zero]
    intro a ha
    rw [(h.all a ha).2.2]
    cases rpc <;> simp_all [RpcOut.isTx, RpcOut.isResetRoute, RpcOut.tx?]

namespace Behaviour

variable [Schema]

theorem received_controls (b : Behaviour P F) (now : Nat) (raw : RawTransaction P) (source : P) :
    Controls b 1 0 (b.handle_received_transaction now raw source) := by
  cases received_spec b now raw source with
  | invalid e _ sends _ _ =>
    exact (Controls.of_history sends.history).mono (Nat.zero_le _) (Nat.zero_le _)
  | duplicate tx tx_id _ _ _ _ answer =>
    rcases answer with ⟨sends, -⟩ | ⟨sends, -⟩
    · exact (Controls.of_history sends.history).mono (Nat.zero_le _) (Nat.zero_le _)
    · exact (Controls.of_history sends.history).mono List.countP_le_length (Nat.le_refl _)
  | first_time tx tx_id new _ _ _ _ _ sends spread =>
    exact (spread.controls rfl sends.history).mono (Nat.zero_le _) (Nat.le_refl _)

theorem transactions_controls (b : Behaviour P F) (clock : Nat → Nat) (source : P) (count : Nat)
    (raws : List (RawTransaction P)) :
    Controls b (b.handled_from count raws).length 0
      (b.handle_transactions clock source count raws) := by
  induction raws generalizing b count with
  | nil => exact (Controls.same rfl).mono (Nat.zero_le _) (Nat.le_refl _)
  | cons raw raws ih =>
    unfold handle_transactions
    rw [handled_from_cons]
    split
    · exact (Controls.same rfl).mono (Nat.zero_le _) (Nat.le_refl _)
    · have hraw := received_controls b (clock count) raw source
      have hrest := ih (b.handle_received_transaction (clock count) raw source) (count + 1)
      rw [handled_from_received] at hrest
      rw [List.length_cons, Nat.add_comm]
      exact hraw.trans hrest

theorem adjust_redundancy_controls [F64 F] (b : Behaviour P F) (now draw : Nat) :
    Controls b 0 1 (b.adjust_redundancy now draw) := by
  cases adjust_redundancy_spec b now draw with
  | idle _ sends _ _ =>
    exact (Controls.of_history sends.history).mono (Nat.le_refl _) (Nat.zero_le _)
  | reset p _ _ sends _ _ =>
    exact (Controls.of_history sends.history).mono (Nat.le_refl _) List.countP_le_length

/-- A call sends a HaveTx at most for each transaction that it handles, and a ResetRoute when the
redundancy is adjusted. -/
theorem call_controls [F64 F] {b b' : Behaviour P F} {c : Call P} (h : b.call c = some b') :
    Controls b (b.receptions c).length (if c.adjusts then 1 else 0) b' := by
  cases call_cases h with
  | published now data answer publish =>
    have hnone : Controls b 0 0 b' := by
      cases publish_spec publish with
      | refused e _ sends _ _ => exact .of_history sends.history
      | taken raw tx_id new _ _ _ _ _ _ sends spread _ _ => exact spread.controls rfl sends.history
    exact hnone.mono (Nat.zero_le _) (Nat.zero_le _)
  | joined connection_id p _ =>
    exact Controls.mono (m := 0) (n := 0) (.same rfl) (Nat.zero_le _) (Nat.zero_le _)
  | left now draw p connection_id =>
    obtain ⟨-, -, -, hhistory, -, -, -, -⟩ := disconnect_spec b p
    have hboth :=
      (Controls.same hhistory).trans ((b.disconnect p).adjust_redundancy_controls now draw)
    exact ⟨hboth.have_tx, hboth.reset_route⟩
  | rpc clock draw source rpc invalid =>
    have hrpc :
        Controls b (b.handled rpc.transactions).length 0 (b.on_rpc clock draw source rpc) := by
      apply on_rpc_rule
        (p := fun b' => Controls b (b.handled rpc.transactions).length 0 b')
      · exact transactions_controls b clock source 0 rpc.transactions
      · intro b' h'
        have hsends := (handle_have_tx_spec b' (have_tx_ids rpc.control_msgs) source).1
        exact h'.trans (.of_history hsends.history)
      · intro b' h'
        have hsends := (handle_reset_route_spec b' draw source).1
        exact h'.trans (.of_history hsends.history)
    apply hrpc.mono
    · simp [receptions]
    · exact Nat.zero_le _
  | ticked now draw _ =>
    exact (b.adjust_redundancy_controls now draw).mono (Nat.zero_le _) (Nat.le_refl _)
  | idle _ sends _ _ _ =>
    exact (Controls.of_history sends.history).mono (Nat.zero_le _) (Nat.zero_le _)

end Behaviour

variable [F64 F] [Schema]

/-- In a run of a node. -/
theorem controls_of_run {s : Setup P F} {n : Node P F} {ops : List (Op P)}
    (hrun : s.machine.Run s.node ops n) :
    Controls s.behaviour (s.receptions ops).length (ops.countP (·.adjusts)) n.behaviour := by
  unfold Setup.receptions
  induction hrun with
  | nil => exact .same rfl
  | @snoc m n ops op hrun hstep ih =>
    rw [Machine.observe_snoc _ hrun, List.length_append, List.countP_append, List.countP_singleton]
    apply ih.trans
    cases Node.step_cases hstep with
    | called c b' call => exact Behaviour.call_controls call
    | polled peers _ _ same =>
      rw [same]
      exact Controls.mono (m := 0) (n := 0) (.same rfl) (Nat.zero_le _) (Nat.zero_le _)

/-! ## In an overlay -/

namespace Overlay

variable {o : Overlay P F} {n n' : OverlayState P F} {start : Nat}

/-- The RPCs that the queues of the nodes for each other took. -/
def queued (o : Overlay P F) (n : OverlayState P F) : Nat :=
  ∑ v ∈ o.nodes.toFinset, ∑ w ∈ o.nodes.toFinset, (enqueued w (n.node v).behaviour.history).length

omit [F64 F] [Schema] in
/-- What the queues for the nodes took is no more than was tried. -/
theorem sum_enqueued_le (o : Overlay P F) (n : OverlayState P F) (v : P)
    (test : RpcOut P → Bool) :
    ∑ w ∈ o.nodes.toFinset, (enqueued w (n.node v).behaviour.history).countP test ≤
      (n.node v).behaviour.history.countP fun a => test a.rpc := by
  simp only [enqueued_countP]
  apply Tally.sum_countP_le
  · intro a w w' hw hw'
    simp only [Bool.and_eq_true, decide_eq_true_eq] at hw hw'
    exact hw.2.1.symm.trans hw'.2.1
  · intro a w hw
    simp only [Bool.and_eq_true] at hw
    exact hw.1

/-- All that arrives, arrives from a node at a node. -/
theorem delivered_between {ops : List (OverlayOp P)} (hrun : o.machine.Run o.initial ops n)
    (hwindow : o.InWindow start ops) :
    ∀ packet ∈ o.delivered ops, packet.sender ∈ o.nodes ∧ packet.recipient ∈ o.nodes := by
  unfold delivered
  induction hrun with
  | nil => rintro packet ⟨⟩
  | @snoc m m' ops op hrun hstep ih =>
    obtain ⟨hbefore, -⟩ := (inWindow_snoc hrun _).mp hwindow
    rw [Machine.observe_snoc arrivals hrun, List.forall_mem_append]
    refine ⟨ih hbefore, ?_⟩
    cases step_cases hstep with
    | acted u op node _ _ _ => rintro packet ⟨⟩
    | delivered index now draw valid packet node there member _ =>
      intro packet' hpacket
      simp only [arrivals, there, Option.toList_some, List.mem_singleton] at hpacket
      subst hpacket
      exact ⟨((good_of_run hrun hbefore).air packet' (List.mem_of_getElem? there)).1, member⟩
    | lost index => rintro packet ⟨⟩

/-- What arrives, the queues of the nodes for each other took. -/
theorem delivered_le {ops : List (OverlayOp P)} (hrun : o.machine.Run o.initial ops n)
    (hwindow : o.InWindow start ops) (test : RpcOut P → Bool) :
    (o.delivered ops).countP (fun packet => test packet.rpc) ≤
      ∑ v ∈ o.nodes.toFinset, ∑ w ∈ o.nodes.toFinset,
        (enqueued w (n.node v).behaviour.history).countP test := by
  have hlink : ∀ v ∈ o.nodes.toFinset, ∀ w ∈ o.nodes.toFinset,
      (o.delivered ops).countP (goes v w test) ≤
        (enqueued w (n.node v).behaviour.history).countP test := by
    intro v _ w _
    have hflow := flows_of_run hrun v w test
    unfold Flows at hflow
    omega
  refine Nat.le_trans ?_
    (Finset.sum_le_sum fun v hv => Finset.sum_le_sum fun w hw => hlink v hv w hw)
  rw [← Finset.sum_product']
  apply Tally.countP_le_sum
  intro packet hpacket htest
  obtain ⟨hsender, hrecipient⟩ := delivered_between hrun hwindow packet hpacket
  refine ⟨(packet.sender, packet.recipient), ?_, ?_⟩
  · rw [Finset.mem_product, List.mem_toFinset, List.mem_toFinset]
    exact ⟨hsender, hrecipient⟩
  · simp [goes, htest]

/-- What the nodes handle has arrived. -/
theorem sum_received_le {ops : List (OverlayOp P)} (hrun : o.machine.Run o.initial ops n) :
    ∑ w ∈ o.nodes.toFinset, (o.received w ops).length ≤
      (o.delivered ops).countP fun packet => packet.rpc.isTx := by
  have hone : ∀ w, (o.received w ops).length ≤ (o.delivered ops).countP fun packet =>
      decide (packet.recipient = w) && packet.rpc.isTx := by
    intro w
    rw [received_eq hrun]
    unfold delivered
    induction hrun with
    | nil => exact Nat.le_refl 0
    | @snoc m m' ops op hrun hstep ih =>
      rw [Machine.observe_snoc _ hrun, Machine.observe_snoc arrivals hrun, List.length_append,
        List.countP_append]
      apply Nat.add_le_add ih
      rcases receptions_cases hstep w with
        hnone | ⟨index, now, draw, valid, packet, raw, rfl, there, hw, hraw, hone⟩
      · rw [hnone]
        exact Nat.zero_le _
      · rw [hone]
        simp [arrivals, there, hw, RpcOut.isTx, hraw]
  refine Nat.le_trans (Finset.sum_le_sum fun w _ => hone w) ?_
  apply Tally.sum_countP_le
  · intro packet w w' hw hw'
    simp only [Bool.and_eq_true, decide_eq_true_eq] at hw hw'
    exact hw.1.symm.trans hw'.1
  · intro packet w hw
    simp only [Bool.and_eq_true] at hw
    exact hw.2

/-- The parts of the nodes in which the redundancy is adjusted are steps of the overlay. -/
theorem sum_adjusts_le {ops : List (OverlayOp P)} (hrun : o.machine.Run o.initial ops n) :
    ∑ v ∈ o.nodes.toFinset, (o.part v ops).countP (·.adjusts) ≤ ops.countP (·.adjusts) := by
  have hone : ∀ v, (o.part v ops).countP (·.adjusts) ≤ ops.countP (·.adjusts_at v) := by
    intro v
    unfold part
    induction hrun with
    | nil => exact Nat.le_refl 0
    | @snoc m m' ops op hrun hstep ih =>
      rw [Machine.observe_snoc _ hrun, List.countP_append, List.countP_append,
        List.countP_singleton]
      apply Nat.add_le_add ih
      cases op with
      | act u op => by_cases hu : u = v <;> simp [OverlayState.part, OverlayOp.adjusts_at, hu]
      | deliver index now draw valid =>
        cases hthere : m.air[index]? with
        | none => simp [OverlayState.part, hthere]
        | some packet =>
          by_cases hv : packet.recipient = v <;>
            simp [OverlayState.part, hthere, hv, Packet.arrives, Op.adjusts, Call.adjusts]
      | lose index => simp [OverlayState.part]
  refine Nat.le_trans (Finset.sum_le_sum fun v _ => hone v) ?_
  apply Tally.sum_countP_le
  · intro op v v' hv hv'
    cases op with
    | act u op =>
      simp only [OverlayOp.adjusts_at, Bool.and_eq_true, decide_eq_true_eq] at hv hv'
      exact hv.1.symm.trans hv'.1
    | deliver index now draw valid => cases hv
    | lose index => cases hv
  · intro op v hv
    cases op with
    | act u op =>
      simp only [OverlayOp.adjusts_at, Bool.and_eq_true] at hv
      exact hv.2
    | deliver index now draw valid => cases hv
    | lose index => cases hv

theorem made_le {ops : List (OverlayOp P)} (hrun : o.machine.Run o.initial ops n) :
    (o.made ops).length ≤ ops.countP (·.publishes) := by
  unfold made
  induction hrun with
  | nil => exact Nat.le_refl 0
  | @snoc m m' ops op hrun hstep ih =>
    rw [Machine.observe_snoc makes hrun, List.length_append, List.countP_append,
      List.countP_singleton]
    apply Nat.add_le_add ih
    cases op with
    | act v op =>
      cases op with
      | call c =>
        cases c with
        | publish now data =>
          simp only [makes, Node.made, Op.on_call, Behaviour.made, OverlayOp.publishes, if_true]
          split <;> simp
        | _ => exact Nat.le_refl 0
      | _ => exact Nat.le_refl 0
    | _ => exact Nat.le_refl 0

/-- What a node offers has been made. -/
theorem id_of_offered {ops : List (OverlayOp P)} (hrun : o.machine.Run o.initial ops n)
    (hwindow : o.InWindow start ops) {v w : P} {id : TransactionId}
    (h : w ∈ (n.node v).behaviour.offered id) : id ∈ (o.made ops).map o.id_of_made := by
  have hthrifty := thrifty_of_run hrun hwindow v
  have hsourced := sourced_of_run hrun
  cases hs : (n.node v).behaviour.cache.get id with
  | none =>
    rw [hthrifty.silent id hs] at h
    cases h
  | some s =>
    obtain ⟨raw, ⟨data, hmade⟩, hid⟩ := hsourced.cached id v s hs
    rw [hsourced.id_of hmade] at hid
    exact List.mem_map.mpr ⟨_, hmade, Option.some.inj hid⟩

/-- A node offers each transaction to another once, so it offers it no more than were made. -/
theorem enqueued_tx_le {ops : List (OverlayOp P)} (hrun : o.machine.Run o.initial ops n)
    (hwindow : o.InWindow start ops) (v w : P) :
    (enqueued w (n.node v).behaviour.history).countP (·.isTx) ≤ (o.made ops).length := by
  have hthrifty := thrifty_of_run hrun hwindow v
  set sent := (n.node v).behaviour.history.filter fun a =>
    a.rpc.isTx && (decide (a.peer = w) && a.accepted) with hsent
  have hlength : (enqueued w (n.node v).behaviour.history).countP (·.isTx) =
      (sent.map (·.tx_id)).length := by
    unfold enqueued
    rw [List.countP_map, List.countP_filter, List.length_map, hsent, List.countP_eq_length_filter]
    rfl
  have hlabel : ∀ a ∈ sent, ∃ id, a.tx_id = some id ∧ w ∈ (n.node v).behaviour.offered id := by
    intro a ha
    obtain ⟨hmem, ha⟩ := List.mem_filter.mp ha
    simp only [Bool.and_eq_true, decide_eq_true_eq] at ha
    obtain ⟨htx, hpeer, -⟩ := ha
    obtain ⟨id, hid⟩ := Option.isSome_iff_exists.mp (hthrifty.labelled a hmem htx)
    refine ⟨id, hid, List.mem_map.mpr ⟨a, List.mem_filter.mpr ⟨hmem, ?_⟩, hpeer⟩⟩
    unfold RpcOut.isTx at htx
    simp [Attempt.offers, htx, hid]
  have hnodup : (sent.map (·.tx_id)).Nodup := by
    rw [List.nodup_iff_count_le_one]
    intro x
    cases x with
    | none =>
      rw [List.count_eq_zero_of_not_mem]
      · exact Nat.zero_le 1
      · intro hmem
        obtain ⟨a, ha, hnone⟩ := List.mem_map.mp hmem
        obtain ⟨id, hid, -⟩ := hlabel a ha
        rw [hid] at hnone
        cases hnone
    | some id =>
      refine Nat.le_trans ?_ (List.nodup_iff_count_le_one.mp (hthrifty.once id) w)
      unfold Behaviour.offered
      rw [hsent, List.count, List.countP_map, List.countP_filter, List.count, List.countP_map,
        List.countP_filter]
      apply List.countP_mono_left
      intro a _ ha
      simp only [Function.comp_apply, Bool.and_eq_true, beq_iff_eq, decide_eq_true_eq] at ha ⊢
      obtain ⟨hid, htx, hpeer, -⟩ := ha
      unfold RpcOut.isTx at htx
      simp [Attempt.offers, hid, htx, hpeer]
  have hsubset : sent.map (·.tx_id) ⊆ (o.made ops).map fun m => some (o.id_of_made m) := by
    intro x hx
    obtain ⟨a, ha, rfl⟩ := List.mem_map.mp hx
    obtain ⟨id, hid, hoffered⟩ := hlabel a ha
    obtain ⟨m, hm, rfl⟩ := List.mem_map.mp (id_of_offered hrun hwindow hoffered)
    exact List.mem_map.mpr ⟨m, hm, hid.symm⟩
  rw [hlength]
  simpa using (hnodup.subperm hsubset).length_le

/-- A call of `publish` costs a copy for each node and each other node at most. -/
theorem sum_enqueued_tx_le {ops : List (OverlayOp P)} (hrun : o.machine.Run o.initial ops n)
    (hwindow : o.InWindow start ops) :
    ∑ v ∈ o.nodes.toFinset, ∑ w ∈ o.nodes.toFinset,
        (enqueued w (n.node v).behaviour.history).countP (·.isTx) ≤
      o.nodes.toFinset.card * o.nodes.toFinset.card * ops.countP (·.publishes) := by
  have hlink : ∀ v w, (enqueued w (n.node v).behaviour.history).countP (·.isTx) ≤
      ops.countP (·.publishes) :=
    fun v w => (enqueued_tx_le hrun hwindow v w).trans (made_le hrun)
  have hnode : ∀ v ∈ o.nodes.toFinset, ∑ w ∈ o.nodes.toFinset,
      (enqueued w (n.node v).behaviour.history).countP (·.isTx) ≤
        o.nodes.toFinset.card * ops.countP (·.publishes) := by
    intro v _
    rw [← smul_eq_mul]
    exact Finset.sum_le_card_nsmul _ _ _ fun w _ => hlink v w
  rw [Nat.mul_assoc, ← smul_eq_mul (a := o.nodes.toFinset.card)]
  exact Finset.sum_le_card_nsmul _ _ _ hnode

/-- Each HaveTx answers a copy that has arrived. -/
theorem sum_enqueued_have_tx_le {ops : List (OverlayOp P)}
    (hrun : o.machine.Run o.initial ops n) :
    ∑ v ∈ o.nodes.toFinset, ∑ w ∈ o.nodes.toFinset,
        (enqueued w (n.node v).behaviour.history).countP (·.isHaveTx) ≤
      (o.delivered ops).countP fun packet => packet.rpc.isTx := by
  refine Nat.le_trans ?_ (sum_received_le hrun)
  apply Finset.sum_le_sum
  intro v _
  have hstart : (o.setup v).behaviour.history = [] := rfl
  have hsent := (controls_of_run (run_part hrun v)).have_tx
  rw [hstart, List.countP_nil, Nat.zero_add] at hsent
  exact (o.sum_enqueued_le n v _).trans hsent

/-- Each ResetRoute is due to an adjustment of the redundancy. -/
theorem sum_enqueued_reset_route_le {ops : List (OverlayOp P)}
    (hrun : o.machine.Run o.initial ops n) :
    ∑ v ∈ o.nodes.toFinset, ∑ w ∈ o.nodes.toFinset,
        (enqueued w (n.node v).behaviour.history).countP (·.isResetRoute) ≤
      ops.countP (·.adjusts) := by
  refine Nat.le_trans ?_ (sum_adjusts_le hrun)
  apply Finset.sum_le_sum
  intro v _
  have hstart : (o.setup v).behaviour.history = [] := rfl
  have hsent := (controls_of_run (run_part hrun v)).reset_route
  rw [hstart, List.countP_nil, Nat.zero_add] at hsent
  exact (o.sum_enqueued_le n v _).trans hsent

end Overlay

/-- In an overlay of honest nodes, whatever they do, whichever connections come and go and whatever
is lost, as long as no entry of a cache expires: each call of `publish` lets no more than two RPCs
go from each node to each node, a copy of the transaction and the HaveTx that answers a copy, and
each time the redundancy is adjusted one more. So when nothing is published and no timer fires any
more, the nodes fall silent. -/
theorem an_overlay_falls_silent {o : Overlay P F} {n : OverlayState P F}
    {ops : List (OverlayOp P)} (hrun : o.machine.Run o.initial ops n) {start : Nat}
    (hwindow : o.InWindow start ops) :
    (o.delivered ops).length ≤ o.queued n ∧
      o.queued n ≤ 2 * (o.nodes.toFinset.card * o.nodes.toFinset.card) * ops.countP (·.publishes) +
        ops.countP (·.adjusts) := by
  have hdelivered := Overlay.delivered_le hrun hwindow fun _ => true
  simp only [List.countP_true] at hdelivered
  refine ⟨hdelivered, ?_⟩
  -- the three kinds of RPCs
  have hkinds : o.queued n =
      (∑ v ∈ o.nodes.toFinset, ∑ w ∈ o.nodes.toFinset,
        (enqueued w (n.node v).behaviour.history).countP (·.isTx)) +
      (∑ v ∈ o.nodes.toFinset, ∑ w ∈ o.nodes.toFinset,
        (enqueued w (n.node v).behaviour.history).countP (·.isHaveTx)) +
      ∑ v ∈ o.nodes.toFinset, ∑ w ∈ o.nodes.toFinset,
        (enqueued w (n.node v).behaviour.history).countP (·.isResetRoute) := by
    unfold Overlay.queued
    simp only [RpcOut.countP_kinds, Finset.sum_add_distrib]
  have htx := Overlay.sum_enqueued_tx_le hrun hwindow
  have hhave_tx := Overlay.sum_enqueued_have_tx_le hrun
  have harrived := (Overlay.delivered_le hrun hwindow fun rpc => rpc.isTx).trans htx
  have hreset := Overlay.sum_enqueued_reset_route_le hrun
  rw [hkinds, Nat.mul_assoc]
  omega

end

/-- One publish that two hops carry on. -/
theorem two_hops_fall_silent :
    let o := Sample.overlay [⟨0⟩, ⟨1⟩, ⟨2⟩]
    ∃ n, o.machine.Run o.initial Sample.two_hops n ∧
      ((o.delivered Sample.two_hops).length = 2 ∧ Sample.two_hops.countP (·.publishes) = 1) ∧
      (o.delivered Sample.two_hops).length ≤ o.queued n := by
  intro o
  have hexec : (Machine.exec o.step o.initial Sample.two_hops).map (fun _ =>
      decide ((o.delivered Sample.two_hops).length = 2 ∧
        Sample.two_hops.countP (·.publishes) = 1)) = some true := by decide +kernel
  obtain ⟨n, hrun, hcount⟩ := Machine.exists_run_of_exec hexec
  exact ⟨n, hrun, of_decide_eq_true hcount,
    (an_overlay_falls_silent hrun Sample.two_hops_in_window).1⟩

end libp2p_dog
