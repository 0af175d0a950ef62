-- A malicious node takes and gives nothing: it forwards nothing, sends no
-- HaveTx and ignores the HaveTx of its peers. In an overlay it sends what it
-- publishes itself, to all its peers, and no node ever leaves it out.
import GossipShadow.OriginLaws

namespace libp2p_dog

section

variable {P F : Type}

/-- The configuration of a malicious node (`MaliciousDOGNode`). -/
structure Config.Malicious (c : Config P F) : Prop where
  send_have_tx : c.send_have_tx = false
  ignore_have_tx : c.ignore_have_tx = true
  forward_transactions : c.forward_transactions = false

/-- The RPC is a transaction of `p`, from `p` itself. -/
def RpcOut.published_by [DecidableEq P] (p : P) : RpcOut P → Bool
  | Publish tx _ => decide (tx.from_ = p)
  | _ => false

theorem RpcOut.published_by_spec [DecidableEq P] {p : P} {rpc : RpcOut P}
    (h : rpc.published_by p = true) : ∃ tx timeout, rpc = Publish tx timeout ∧ tx.from_ = p := by
  cases rpc with
  | Publish tx timeout => exact ⟨tx, timeout, rfl, of_decide_eq_true h⟩
  | _ => cases h

variable [Libp2p P] [DecidableEq P]

/-! ## One malicious node -/

/-- The node has given away its own transactions only. It asked for no silence, and it grants
none. -/
structure Behaviour.Takes (b : Behaviour P F) : Prop where
  gives : ∀ a ∈ b.history, a.rpc.published_by b.own_id = true
  asked : ∀ p, b.router.have_tx_sent p = 0
  routes : b.router.disabled_routes = []

namespace Behaviour

omit [DecidableEq P] in
theorem Takes.sends {b b' : Behaviour P F} [DecidableEq P] (h : b.Takes) {new : List (Attempt P)}
    (hsends : Sends b new b') (hnew : ∀ a ∈ new, a.rpc.published_by b.own_id = true)
    (hrouter : b'.router = b.router) : b'.Takes := by
  constructor
  · intro a ha
    rw [hsends.history] at ha
    rw [hsends.own_id]
    rcases List.mem_append.mp ha with ha | ha
    · exact h.gives a ha
    · exact hnew a ha
  · rw [hrouter]
    exact h.asked
  · rw [hrouter]
    exact h.routes

theorem Takes.quiet {b b' : Behaviour P F} (h : b.Takes) (hsends : Sends b [] b')
    (hrouter : b'.router = b.router) : b'.Takes := h.sends hsends (by simp) hrouter

variable [F64 F] [Schema]

omit [F64 F] in
theorem handle_duplicate_of_malicious {b : Behaviour P F} (hconfig : b.config.Malicious) (now : Nat)
    (tx_id : TransactionId) (source : P) :
    Sends b [] (b.handle_duplicate now tx_id source) ∧
      (b.handle_duplicate now tx_id source).router = b.router := by
  unfold handle_duplicate
  have hno : (!b.config.send_have_tx) = true := by simp [hconfig.send_have_tx]
  simp only [with_metrics, hno, if_true]
  exact ⟨.none rfl rfl rfl rfl rfl, trivial⟩

omit [F64 F] in
theorem handle_first_time_of_malicious {b : Behaviour P F} (hconfig : b.config.Malicious)
    (now : Nat)
    (tx_id : TransactionId) (raw : RawTransaction P) (source : P) :
    Sends b [] (b.handle_first_time now tx_id raw source) ∧
      (b.handle_first_time now tx_id raw source).router = b.router := by
  obtain ⟨new, hsends, hspread, hrouter, -⟩ := handle_first_time_sends b now tx_id raw source
  have hpeers := hspread.peers
  rw [hconfig.forward_transactions] at hpeers
  rw [List.map_eq_nil_iff.mp hpeers] at hsends
  exact ⟨hsends, hrouter⟩

omit [F64 F] in
/-- A transaction lets a malicious node send nothing. -/
theorem received_of_malicious {b : Behaviour P F} (hconfig : b.config.Malicious) (now : Nat)
    (raw : RawTransaction P) (source : P) :
    Sends b [] (b.handle_received_transaction now raw source) ∧
      (b.handle_received_transaction now raw source).router = b.router := by
  unfold handle_received_transaction
  dsimp only
  set counted := b.with_metrics (·.tx_recv_unfiltered raw.raw_protobuf_len) with hcounted
  have hsends : Sends b [] counted := with_metrics_sends _ b
  split
  · exact ⟨hsends.trans_none (with_metrics_sends _ _), rfl⟩
  · rename_i transaction _
    set tx_id := counted.config.transaction_id transaction
    set told := ({ counted.push_event (.TransactionReceived source tx_id transaction) with
      cache :=
        ((counted.push_event (.TransactionReceived source tx_id transaction)).cache.insert now
        tx_id source).2 } : Behaviour P F) with htold
    have htold_sends : Sends b [] told := .none rfl rfl rfl rfl rfl
    have htold_config : told.config.Malicious := hconfig
    split
    · obtain ⟨hquiet, hrouter⟩ := handle_duplicate_of_malicious htold_config now tx_id source
      exact ⟨htold_sends.none_trans hquiet, hrouter⟩
    · obtain ⟨hquiet, hrouter⟩ := handle_first_time_of_malicious htold_config now tx_id raw source
      exact ⟨htold_sends.none_trans hquiet, hrouter⟩

omit [F64 F] in
theorem transactions_of_malicious {b : Behaviour P F} (hconfig : b.config.Malicious)
    (clock : Nat → Nat) (source : P) (count : Nat) (raws : List (RawTransaction P)) :
    Sends b [] (b.handle_transactions clock source count raws) ∧
      (b.handle_transactions clock source count raws).router = b.router := by
  induction raws generalizing b count with
  | nil => exact ⟨Sends.refl b, rfl⟩
  | cons raw raws ih =>
    unfold handle_transactions
    split
    · exact ⟨Sends.refl b, rfl⟩
    · obtain ⟨hsends, hrouter⟩ := received_of_malicious hconfig (clock count) raw source
      have hconfig' :
          (b.handle_received_transaction (clock count) raw source).config.Malicious := by
        rw [hsends.config]
        exact hconfig
      obtain ⟨hsends', hrouter'⟩ := ih hconfig' (count + 1)
      exact ⟨hsends.none_trans hsends', hrouter'.trans hrouter⟩

omit [F64 F] in
/-- Nor does a whole RPC: there is no route that a ResetRoute could enable. -/
theorem Takes.on_rpc {b : Behaviour P F} (h : b.Takes) (hconfig : b.config.Malicious)
    (clock : Nat → Nat) (draw : Nat) (source : P) (rpc : Rpc P) :
    (b.on_rpc clock draw source rpc).Takes := by
  obtain ⟨hsends, hrouter⟩ := transactions_of_malicious hconfig clock source 0 rpc.transactions
  have htakes := h.quiet hsends hrouter
  unfold Behaviour.on_rpc
  dsimp only
  set after := b.handle_transactions clock source 0 rpc.transactions
  have hignores : (!after.config.ignore_have_tx) = false := by
    rw [hsends.config, hconfig.ignore_have_tx]
    rfl
  rw [hignores, Bool.and_false, if_neg Bool.false_ne_true]
  split
  · obtain ⟨hreset, -, hrouter'⟩ := handle_reset_route_spec after draw source
    refine htakes.quiet hreset (hrouter'.trans ?_)
    rcases Router.enable_random_route_spec after.router draw source with
      ⟨before, route, rest, hsplit, -, -⟩ | ⟨-, hsame⟩
    · rw [htakes.routes] at hsplit
      exact absurd hsplit.symm (by simp)
    · rw [hsame]
  · exact htakes

/-- A malicious node was asked by nobody, so the redundancy timer finds no one to ask. -/
theorem Takes.adjust_redundancy {b : Behaviour P F} (h : b.Takes) (now draw : Nat) :
    (b.adjust_redundancy now draw).Takes := by
  cases adjust_redundancy_spec b now draw with
  | idle _ sends router _ => exact h.quiet sends router
  | reset p _ drawn _ _ _ =>
    have hpos := Router.mem_have_tx_sent_peers.mp (choose_mem drawn)
    rw [h.asked p] at hpos
    exact absurd hpos (Nat.lt_irrefl 0)

theorem Takes.call {b b' : Behaviour P F} {c : Call P} (h : b.Takes) (hconfig : b.config.Malicious)
    (hcall : b.call c = some b') : b'.Takes := by
  cases call_cases hcall with
  | published now data answer publish =>
    cases publish_spec publish with
    | refused e _ sends router _ => exact h.quiet sends router
    | taken raw tx_id new author _ _ _ _ _ sends spread router _ =>
      refine h.sends sends ?_ router
      intro a ha
      rw [(spread.all a ha).2.2]
      exact decide_eq_true author
  | joined connection_id p _ => exact ⟨h.gives, h.asked, h.routes⟩
  | left now draw p connection_id =>
    obtain ⟨-, -, hown, hhistory, -, -, -, hrouter⟩ := disconnect_spec b p
    have hleft : (b.disconnect p).Takes := by
      constructor
      · rw [hhistory, hown]
        exact h.gives
      · rw [hrouter]
        exact h.asked
      · rw [hrouter]
        simp [Router.reset_routes_with_peer, h.routes]
    have htimer := hleft.adjust_redundancy now draw
    exact ⟨htimer.gives, htimer.asked, htimer.routes⟩
  | rpc clock draw source rpc invalid => exact h.on_rpc hconfig clock draw source rpc
  | ticked now draw _ => exact h.adjust_redundancy now draw
  | idle _ sends router _ _ => exact h.quiet sends router

end Behaviour

variable [F64 F] [Schema]

/-- In every run of a malicious node, against any peers. -/
theorem takes_of_run {s : Setup P F} (hconfig : s.config.Malicious) {n : Node P F}
    {ops : List (Op P)}
    (hrun : s.machine.Run s.node ops n) : n.behaviour.Takes := by
  have hboth := hrun.invariant
    (p := fun n => Fixed s.behaviour n.behaviour ∧ n.behaviour.Takes) ⟨⟨rfl, rfl, rfl⟩, ?_⟩ ?_
  · exact hboth.2
  · exact ⟨by rintro a ⟨⟩, fun _ => rfl, rfl⟩
  · rintro n op n' ⟨hfixed, htakes⟩ hstep
    refine ⟨hfixed.trans (step_fixed hstep), ?_⟩
    cases Node.step_cases hstep with
    | called c b' call =>
      have hmalicious : n.behaviour.config.Malicious := by
        rw [hfixed.config]
        exact hconfig
      exact htakes.call hmalicious call
    | polled peers _ _ same =>
      rw [same]
      exact ⟨htakes.gives, htakes.asked, htakes.routes⟩

/-! ## In an overlay -/

namespace Overlay

variable {o : Overlay P F} {n n' : OverlayState P F} {v : P}

theorem takes_in_run (hmalicious : (o.config v).Malicious) {ops : List (OverlayOp P)}
    (hrun : o.machine.Run o.initial ops n) : (n.node v).behaviour.Takes := by
  have hconfig : (o.setup v).config.Malicious := hmalicious
  exact takes_of_run hconfig (run_part hrun v)

/-- What is in the air from a malicious node, it has published itself. -/
theorem air_of_malicious (hv : v ∈ o.nodes) (hmalicious : (o.config v).Malicious)
    {ops : List (OverlayOp P)} (hrun : o.machine.Run o.initial ops n) :
    ∀ packet ∈ n.air, packet.sender = v → packet.rpc.published_by v = true := by
  intro packet hpacket hsender
  have hflows := flows_of_run hrun v packet.recipient fun rpc => !rpc.published_by v
  unfold Flows at hflows
  have hnone : (enqueued packet.recipient (n.node v).behaviour.history).countP
      (fun rpc => !rpc.published_by v) = 0 := by
    rw [List.countP_eq_zero]
    intro rpc hrpc
    obtain ⟨a, ha, -, -, rfl⟩ := mem_enqueued.mp hrpc
    have hown := (takes_in_run hmalicious hrun).gives a ha
    rw [(fit_in_run hrun v).own_id hv] at hown
    simp [hown]
  have hair : n.air.countP (goes v packet.recipient fun rpc => !rpc.published_by v) = 0 := by omega
  have hnot := List.countP_eq_zero.mp hair packet hpacket
  simpa [goes, hsender] using hnot

/-- What a node gets from a malicious node is a transaction of this node. -/
theorem received_of_malicious (hv : v ∈ o.nodes) (hmalicious : (o.config v).Malicious)
    {ops : List (OverlayOp P)} (hrun : o.machine.Run o.initial ops n) {w : P}
    {raw : RawTransaction P} (h : (v, raw) ∈ o.received w ops) : raw.from_ = v := by
  rw [received_eq hrun] at h
  induction hrun with
  | nil => cases h
  | @snoc m m' ops op hrun hstep ih =>
    rw [Machine.observe_snoc _ hrun] at h
    rcases List.mem_append.mp h with h | h
    · exact ih h
    · rcases receptions_cases hstep w with
        hnone | ⟨_, _, _, _, packet, raw', -, there, -, hraw, hone⟩
      · rw [hnone] at h
        cases h
      · rw [hone] at h
        obtain ⟨hsender, rfl⟩ := Prod.mk.inj (List.mem_singleton.mp h)
        have hown := air_of_malicious hv hmalicious hrun packet (List.mem_of_getElem? there)
          hsender.symm
        obtain ⟨tx, timeout, hrpc, hfrom⟩ := RpcOut.published_by_spec hown
        rw [hrpc] at hraw
        cases hraw
        exact hfrom

/-- No route to `v` is disabled. -/
def Reachable (v : P) (n : OverlayState P F) : Prop :=
  ∀ u, ∀ route ∈ (n.node u).behaviour.router.disabled_routes, route.target ≠ v

/-- A call that brings no HaveTx of `v` disables no route to `v`. -/
theorem routes_of_call {b b' : Behaviour P F} {c : Call P} (hcall : b.call c = some b')
    (hold : ∀ route ∈ b.router.disabled_routes, route.target ≠ v)
    (hnone : ∀ clock draw rpc invalid,
      c = .on_connection_handler_event clock draw v (.Transaction rpc invalid) →
        rpc.control_msgs = []) :
    ∀ route ∈ b'.router.disabled_routes, route.target ≠ v := by
  cases call_routed hcall with
  | sends new _ _ routes =>
    rw [routes]
    exact hold
  | joined connection_id p _ => exact hold
  | left now draw p connection_id new _ _ routes =>
    obtain ⟨-, -, -, -, -, -, -, hrouter⟩ := Behaviour.disconnect_spec b p
    rw [routes, hrouter]
    intro route hroute
    exact hold route (List.mem_of_mem_filter hroute)
  | rpc clock draw source rpc invalid new _ _ routes =>
    intro route hroute
    rcases List.mem_append.mp ((routes_sublist routes).subset hroute) with hroute | hroute
    · exact hold route hroute
    · obtain ⟨htarget, -, tx_id, hmem, -⟩ := Behaviour.mem_rpc_routes hroute
      rintro rfl
      rw [hnone clock draw rpc invalid (by rw [htarget])] at hmem
      cases hmem

theorem reachable_in_run (hv : v ∈ o.nodes) (hmalicious : (o.config v).Malicious)
    {ops : List (OverlayOp P)} (hrun : o.machine.Run o.initial ops n) : Reachable v n := by
  induction hrun with
  | nil => rintro u route ⟨⟩
  | @snoc m m' ops op hrun hstep ih =>
    have hpolled : ∀ {u : P} {node : Node P F} {peers : Table P (PeerConnections P)},
        node.behaviour = { (m.node u).behaviour with connected_peers := peers } →
        ∀ route ∈ node.behaviour.router.disabled_routes, route.target ≠ v := by
      intro u node peers same
      rw [same]
      exact ih u
    cases step_cases hstep with
    | acted u op node _ own step =>
      refine (Function.forall_update_iff m.node fun _ node =>
        ∀ route ∈ node.behaviour.router.disabled_routes, route.target ≠ v).mpr ⟨?_, fun u _ => ih u⟩
      cases Node.step_cases step with
      | called c b' call =>
        refine routes_of_call call (ih u) ?_
        rintro clock draw rpc invalid rfl
        cases own
      | polled peers _ _ same => exact hpolled same
    | delivered index now draw valid packet node there _ step =>
      refine (Function.forall_update_iff m.node fun _ node =>
        ∀ route ∈ node.behaviour.router.disabled_routes, route.target ≠ v).mpr ⟨?_, fun u _ => ih u⟩
      cases Node.step_cases step with
      | called c b' call =>
        refine routes_of_call call (ih _) ?_
        intro clock draw' rpc invalid hc
        obtain ⟨-, -, hsender, hevent⟩ := Call.on_connection_handler_event.inj hc
        have hown := air_of_malicious hv hmalicious hrun packet (List.mem_of_getElem? there) hsender
        obtain ⟨tx, timeout, hrpc, -⟩ := RpcOut.published_by_spec hown
        obtain ⟨rfl, -⟩ := HandlerEvent.Transaction.inj hevent
        rw [hrpc]
        rfl
      | polled peers _ _ same => exact hpolled same
    | lost index => exact ih

end Overlay

/-- In an overlay, whatever happens: a malicious node sends only what it publishes itself, and sends
it to all its peers. What a node gets or has from it was published by it, so no transaction goes
through it. Yet no node ever leaves it out. -/
theorem a_malicious_node_only_takes {o : Overlay P F} {n : OverlayState P F}
    {ops : List (OverlayOp P)} (hrun : o.machine.Run o.initial ops n) {v : P} (hv : v ∈ o.nodes)
    (hmalicious : (o.config v).Malicious) :
    (∀ a ∈ (n.node v).behaviour.history, ∃ raw timeout data, a.rpc = .Publish raw timeout ∧
      o.data_transform.outbound_transform data = .ok raw.data ∧
      o.Publishes ops { from_ := v, seqno := raw.seqno, data }) ∧
    (∀ w id tx, .TransactionReceived v id tx ∈ o.told w ops → tx.from_ = v ∧ o.Publishes ops tx) ∧
    (∀ w id, w ≠ v → n.source id w = some v →
      ∃ tx, tx.from_ = v ∧ id = o.transaction_id_fn tx ∧ o.Publishes ops tx) ∧
    (∀ source peers, (n.node v).behaviour.router.filter_valid_routes source peers = peers) ∧
    ∀ u source peers, v ∈ peers →
      v ∈ (n.node u).behaviour.router.filter_valid_routes source peers := by
  have htakes := Overlay.takes_in_run hmalicious hrun
  have hsourced := Overlay.sourced_of_run hrun
  refine ⟨?_, ?_, ?_, ?_, ?_⟩
  · intro a ha
    have hown := htakes.gives a ha
    rw [(Overlay.fit_in_run hrun v).own_id hv] at hown
    obtain ⟨raw, timeout, hrpc, rfl⟩ := RpcOut.published_by_spec hown
    obtain ⟨data, hmade⟩ := hsourced.tried _ a ha raw (by rw [hrpc]; rfl)
    obtain ⟨-, houtbound, -⟩ := hsourced.authored.authors _ hmade
    exact ⟨raw, timeout, data, hrpc, houtbound, Overlay.publishes_of_made hrun hmade⟩
  · intro w id tx h
    obtain ⟨raw, data, hreceived, hmade, rfl, -⟩ := Overlay.received_of_told hrun h
    exact ⟨Overlay.received_of_malicious hv hmalicious hrun hreceived,
      Overlay.publishes_of_made hrun hmade⟩
  · intro w id hne hsource
    obtain ⟨raw, hreceived, hid⟩ := Overlay.received_of_source hrun hsource (Ne.symm hne)
    obtain ⟨data, hmade⟩ := Overlay.received_made hrun hreceived
    rw [hsourced.id_of hmade] at hid
    exact ⟨_, Overlay.received_of_malicious hv hmalicious hrun hreceived,
      (Option.some.inj hid).symm, Overlay.publishes_of_made hrun hmade⟩
  · intro source peers
    unfold Router.filter_valid_routes
    rw [htakes.routes]
    exact List.filter_eq_self.mpr fun _ _ => rfl
  · intro u source peers hmem
    rw [Router.mem_filter_valid_routes]
    refine ⟨hmem, fun hroute => ?_⟩
    exact Overlay.reachable_in_run hv hmalicious hrun u _ hroute rfl

end

namespace Sample

def malicious : Config Peer Rat :=
  { Config.default with
    send_have_tx := false
    ignore_have_tx := true
    forward_transactions := false }

/-- An overlay in which one node is malicious. -/
def malicious_overlay (nodes : List Peer) (bad : Peer) : Overlay Peer Rat :=
  { overlay nodes with
    config v := if v = bad then malicious else .default
    agree v := by split <;> rfl }

end Sample

/-- The malicious node gets a transaction from node 0, and sends its own to node 0. -/
def Sample.one_sided : List (OverlayOp Sample.Peer) :=
  [.act ⟨0⟩ (Sample.connect 1), .act ⟨1⟩ (Sample.connect 0),
   .act ⟨0⟩ (.call (.publish 0 [7])), .act ⟨0⟩ (.poll_next 0), .deliver 0 0 0 true,
   .act ⟨1⟩ (.call (.publish 0 [8])), .act ⟨1⟩ (.poll_next 0), .deliver 0 0 0 true]

theorem one_malicious_node_only_takes :
    let o := Sample.malicious_overlay [⟨0⟩, ⟨1⟩] ⟨1⟩
    ∃ n, o.machine.Run o.initial Sample.one_sided n ∧
      (.TransactionReceived ⟨1⟩ (Sample.tx_id 1 1) { from_ := ⟨1⟩, seqno := 1, data := [8] }) ∈
        o.told ⟨0⟩ Sample.one_sided ∧
      o.Publishes Sample.one_sided { from_ := ⟨1⟩, seqno := 1, data := [8] } := by
  intro o
  have hexec : (Machine.exec o.step o.initial Sample.one_sided).map (fun _ =>
      (o.told ⟨0⟩ Sample.one_sided).contains
        (.TransactionReceived ⟨1⟩ (Sample.tx_id 1 1) { from_ := ⟨1⟩, seqno := 1, data := [8] })) =
      some true := by decide +kernel
  obtain ⟨n, hrun, htold⟩ := Machine.exists_run_of_exec hexec
  rw [List.contains_iff_mem] at htold
  have hmalicious : (o.config ⟨1⟩).Malicious := ⟨rfl, rfl, rfl⟩
  exact ⟨n, hrun, htold,
    ((a_malicious_node_only_takes hrun (by decide) hmalicious).2.1 _ _ _ htold).2⟩

end libp2p_dog
