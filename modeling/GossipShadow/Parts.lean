-- The part that each node has in a run of an overlay. Each step of the overlay
-- is a step of one node, or the loss of an RPC, so the part of a node is a run
-- of this node on its own: what holds in every run of a node holds here.
import GossipShadow.OwnLaws
import GossipShadow.Hands

namespace libp2p_dog

section

variable {P F : Type} [Libp2p P] [DecidableEq P]

/-- The arrival of an RPC, as a step of its recipient. -/
def Packet.arrives (packet : Packet P) (now draw : Nat) (valid : Bool) : Op P :=
  .call (.on_connection_handler_event (fun _ => now) draw packet.sender
    (.Transaction (packet.rpc.arrival valid) []))

/-- What `v` does in a step of the overlay. -/
def OverlayState.part (n : OverlayState P F) (v : P) : OverlayOp P → List (Op P)
  | .act u op => if u = v then [op] else []
  | .deliver index now draw valid =>
    match n.air[index]? with
    | some packet => if packet.recipient = v then [packet.arrives now draw valid] else []
    | none => []
  | .lose _ => []

omit [DecidableEq P] in
/-- A node handles transactions only when an RPC arrives. -/
theorem Node.receptions_eq_nil {op : Op P} (h : op.arrives = false) (m : Node P F) :
    m.receptions op = [] := by
  cases op with
  | call c =>
    cases c with
    | on_connection_handler_event clock draw source event =>
      cases event with
      | Transaction rpc invalid => cases h
      | TransactionDropped rpc => rfl
    | publish now data => rfl
    | handle_established_inbound_connection connection_id peer_id => rfl
    | handle_established_outbound_connection connection_id peer => rfl
    | on_swarm_event now draw event => rfl
    | poll now draw redundancy_interval => rfl
  | poll_next index => rfl
  | poll_stale index elapsed => rfl
  | poll_is_empty index => rfl

namespace Overlay

variable [F64 F] [Schema] {o : Overlay P F} {n n' : OverlayState P F}

/-- What a step of an overlay is: a step of one node of its own, the arrival of an RPC at one node,
or the loss of an RPC. -/
inductive Stepped (o : Overlay P F) (n : OverlayState P F) : OverlayOp P → OverlayState P F → Prop
  | acted (v : P) (op : Op P) (node : Node P F) (member : v ∈ o.nodes)
      (own : op.arrives = false) (step : (n.node v).step op = some node) :
      Stepped o n (.act v op)
        { node := Function.update n.node v node
          air := n.air ++ ((n.node v).sent v op).toList }
  | delivered (index now draw : Nat) (valid : Bool) (packet : Packet P) (node : Node P F)
      (there : n.air[index]? = some packet) (member : packet.recipient ∈ o.nodes)
      (step : (n.node packet.recipient).step (packet.arrives now draw valid) = some node) :
      Stepped o n (.deliver index now draw valid)
        { node := Function.update n.node packet.recipient node, air := n.air.eraseIdx index }
  | lost (index : Nat) : Stepped o n (.lose index) { n with air := n.air.eraseIdx index }

theorem step_cases {op : OverlayOp P} (h : o.step n op = some n') : o.Stepped n op n' := by
  cases op with
  | act v op =>
    simp only [step] at h
    split at h
    · rename_i hguard
      simp only [Bool.and_eq_true, decide_eq_true_eq, Bool.not_eq_true'] at hguard
      obtain ⟨node, hnode, rfl⟩ := Option.map_eq_some_iff.mp h
      exact .acted v op node hguard.1 hguard.2 hnode
    · cases h
  | deliver index now draw valid =>
    simp only [step, Option.bind_eq_bind, Option.bind_eq_some_iff] at h
    obtain ⟨packet, hpacket, h⟩ := h
    split at h
    · rename_i hmember
      obtain ⟨node, hnode, rfl⟩ := Option.map_eq_some_iff.mp h
      exact .delivered index now draw valid packet node hpacket hmember hnode
    · cases h
  | lose index =>
    cases h
    exact .lost index

omit [F64 F] [Schema] in
theorem source_update (n : OverlayState P F) (v : P) (node : Node P F) (air : List (Packet P))
    (id : TransactionId) (u : P) :
    ({ node := Function.update n.node v node, air } : OverlayState P F).source id u =
      if u = v then node.behaviour.cache.get id else n.source id u := by
  simp only [OverlayState.source, Function.update_apply]
  split
  · rfl
  · rfl

/-- A call of `publish` that is a step of a run gives its answer and the next state of the node. -/
theorem step_publish {v : P} {now : Nat} {data : Bytes}
    (hstep : o.step n (.act v (.call (.publish now data))) = some n') :
    v ∈ o.nodes ∧ ∃ answer b, (n.node v).behaviour.publish now data = some (answer, b) ∧
      (n'.node v).behaviour = b := by
  cases step_cases hstep with
  | acted v op node member own step =>
    obtain ⟨b, hb, rfl⟩ := Option.map_eq_some_iff.mp step
    obtain ⟨⟨answer, b⟩, hpublish, rfl⟩ := Option.map_eq_some_iff.mp hb
    refine ⟨member, answer, b, hpublish, ?_⟩
    simp

/-- The step of the overlay, seen at one node. -/
theorem step_part {op : OverlayOp P} (h : o.step n op = some n') (v : P) :
    (o.setup v).machine.Run (n.node v) (n.part v op) (n'.node v) := by
  have hstep : ∀ u node op', (n.node u).step op' = some node →
      (o.setup v).machine.Run (n.node v) (if u = v then [op'] else [])
        (Function.update n.node u node v) := by
    intro u node op' hnode
    by_cases hu : u = v
    · subst hu
      rw [if_pos rfl, Function.update_self]
      exact Machine.Run.single hnode
    · rw [if_neg hu, Function.update_of_ne (Ne.symm hu)]
      exact .nil _
  cases step_cases h with
  | acted u op node _ _ step => exact hstep u node op step
  | delivered index now draw valid packet node there _ step =>
    simp only [OverlayState.part, there]
    exact hstep packet.recipient node _ step
  | lost index => exact .nil _

/-- What `v` does in a run. -/
def part (o : Overlay P F) (v : P) (ops : List (OverlayOp P)) : List (Op P) :=
  Machine.observe o.step (fun n => n.part v) o.initial ops

/-- The part of a node in a run of the overlay is a run of the node. -/
theorem run_part {ops : List (OverlayOp P)} (hrun : o.machine.Run o.initial ops n) (v : P) :
    (o.setup v).machine.Run (o.setup v).node (o.part v ops) (n.node v) := by
  have hsteps : ∀ n op n', o.step n op = some n' →
      (o.setup v).machine.Run (n.node v) (n.part v op) (n'.node v) :=
    fun _ _ _ hstep => step_part hstep v
  have hpart := Machine.Run.component hsteps hrun
  exact hpart

/-! ## What a node keeps -/

omit [F64 F] [Schema] [DecidableEq P] in
/-- What stays as it was at the start. -/
structure Fit (o : Overlay P F) (v : P) (b : Behaviour P F) : Prop where
  config : b.config = o.config v
  data_transform : b.data_transform = o.data_transform
  own_id : v ∈ o.nodes → b.own_id = v

section

omit [F64 F] [Schema] [DecidableEq P]

variable {v w : P} {b b' : Behaviour P F}

theorem Fit.lawful (h : o.Fit v b) : b.data_transform.Lawful := by
  rw [h.data_transform]
  exact o.lawful

/-- All nodes see the same id in a transaction. -/
theorem Fit.id_of (h : o.Fit v b) (h' : o.Fit w b') (raw : RawTransaction P) :
    b.id_of raw = b'.id_of raw := by
  unfold Behaviour.id_of
  rw [h.data_transform, h'.data_transform, h.config, h'.config, o.agree, o.agree]

end

theorem fit_in_run {ops : List (OverlayOp P)} (hrun : o.machine.Run o.initial ops n) (v : P) :
    o.Fit v (n.node v).behaviour := by
  have hfixed := run_fixed (run_part hrun v)
  exact ⟨hfixed.config, hfixed.data_transform, fun hv => hfixed.own_id.trans (o.identity v hv)⟩

theorem sound_in_run {ops : List (OverlayOp P)} (hrun : o.machine.Run o.initial ops n) (v : P) :
    (n.node v).Sound :=
  (run_part hrun v).invariant (o.setup v).node_sound fun _ _ _ h hstep => h.step hstep

/-! ## What a node is told, and what it handles -/

/-- The events that the calls of `v` push in a run. -/
def told (o : Overlay P F) (v : P) (ops : List (OverlayOp P)) : List (Event P) :=
  Machine.observe Node.step Node.generated (o.setup v).node (o.part v ops)

/-- The transactions that `v` handles in a run, with the peer that each came from. -/
def received (o : Overlay P F) (v : P) (ops : List (OverlayOp P)) : List (P × RawTransaction P) :=
  (o.setup v).receptions (o.part v ops)

/-- The transactions that `v` handles in a step, with the peer that each came from. -/
def receptions (n : OverlayState P F) (v : P) (op : OverlayOp P) : List (P × RawTransaction P) :=
  Machine.observe Node.step Node.receptions (n.node v) (n.part v op)

theorem received_eq {ops : List (OverlayOp P)} (hrun : o.machine.Run o.initial ops n) (v : P) :
    o.received v ops = Machine.observe o.step (receptions · v) o.initial ops := by
  have hsteps : ∀ n op n', o.step n op = some n' →
      (o.setup v).machine.Run (n.node v) (n.part v op) (n'.node v) :=
    fun _ _ _ hstep => step_part hstep v
  have hseen : Machine.observe o.step (receptions · v) o.initial ops =
      Machine.observe Node.step Node.receptions (o.setup v).node (o.part v ops) :=
    Machine.Run.observe_component hsteps hrun
  exact hseen.symm

omit [F64 F] [DecidableEq P] [Schema] in
/-- An RPC that arrives brings its transaction, or none. -/
theorem receptions_of_arrival (packet : Packet P) (now draw : Nat) (valid : Bool) (m : Node P F) :
    m.receptions (packet.arrives now draw valid) = [] ∨
      ∃ raw, packet.rpc.tx? = some raw ∧
        m.receptions (packet.arrives now draw valid) = [(packet.sender, raw)] := by
  have hhandled : ∀ raws, m.receptions (.call (.on_connection_handler_event (fun _ => now) draw
      packet.sender (.Transaction raws []))) =
      (m.behaviour.handled raws.transactions).map fun raw => (packet.sender, raw) := fun _ => rfl
  unfold Packet.arrives
  rw [hhandled]
  have hone : ∀ raw, m.behaviour.handled [raw] = [] ∨ m.behaviour.handled [raw] = [raw] := by
    intro raw
    unfold Behaviour.handled
    rw [Behaviour.handled_from_cons, Behaviour.handled_from_nil]
    split
    · exact .inl rfl
    · exact .inr rfl
  have htx : ∀ raw, (m.behaviour.handled (if valid then [raw] else [])).map
        (fun raw => (packet.sender, raw)) = [] ∨
      (m.behaviour.handled (if valid then [raw] else [])).map
        (fun raw => (packet.sender, raw)) = [(packet.sender, raw)] := by
    intro raw
    cases valid with
    | false => exact .inl (by simp [Behaviour.handled])
    | true =>
      rcases hone raw with h | h
      · exact .inl (by simp [h])
      · exact .inr (by simp [h])
  cases packet.rpc with
  | Publish tx timeout => exact (htx tx).imp_right fun h => ⟨tx, rfl, h⟩
  | Forward tx timeout => exact (htx tx).imp_right fun h => ⟨tx, rfl, h⟩
  | HaveTx have_tx => exact .inl (by simp [RpcOut.arrival, Behaviour.handled])
  | ResetRoute reset_route => exact .inl (by simp [RpcOut.arrival, Behaviour.handled])

/-- What a step of one node lets `w` handle. -/
theorem observe_one {at_ : P → Node P F} {u w : P} {op : Op P} {node : Node P F}
    (hstep : (at_ u).step op = some node) :
    Machine.observe Node.step Node.receptions (at_ w) (if u = w then [op] else []) =
      if u = w then (at_ u).receptions op else [] := by
  by_cases hu : u = w
  · subst hu
    simp [Machine.observe, hstep]
  · simp [hu, Machine.observe]

/-- What a step of the overlay lets `w` handle: nothing, or the transaction of the RPC that arrives
at `w`. -/
theorem receptions_cases {op : OverlayOp P} (h : o.step n op = some n') (w : P) :
    receptions n w op = [] ∨
      ∃ index now draw valid packet raw, op = .deliver index now draw valid ∧
        n.air[index]? = some packet ∧ packet.recipient = w ∧ packet.rpc.tx? = some raw ∧
        receptions n w op = [(packet.sender, raw)] := by
  unfold receptions
  cases step_cases h with
  | acted u op node _ own step =>
    left
    simp only [OverlayState.part]
    rw [observe_one step, Node.receptions_eq_nil own]
    exact ite_self _
  | delivered index now draw valid packet node there _ step =>
    simp only [OverlayState.part, there]
    rw [observe_one step]
    by_cases hw : packet.recipient = w
    · rw [if_pos hw]
      rcases receptions_of_arrival packet now draw valid (n.node packet.recipient) with
        hnone | ⟨raw, hraw, hone⟩
      · exact .inl hnone
      · exact .inr ⟨index, now, draw, valid, packet, raw, rfl, there, hw, hraw, hone⟩
    · rw [if_neg hw]
      exact .inl rfl
  | lost index => exact .inl rfl

end Overlay

end

end libp2p_dog
