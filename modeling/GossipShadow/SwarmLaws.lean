-- The swarms refine the overlay: whatever handlers, substreams and codecs do,
-- the behaviours go through states that they go through in a run of the
-- overlay, where the RPCs jump from the queues into the air and out of it.
import GossipShadow.Lib.Cover
import GossipShadow.CodecLaws
import GossipShadow.CostLaws
import GossipShadow.OriginLaws
import GossipShadow.Swarm

namespace libp2p_dog

section

variable {P F S : Type} [Libp2p P]

/-! ## What is on its way -/

/-- What is on its way: a frame or an RPC that waits for a substream, or an RPC that was read. -/
inductive Claim (P : Type) where
  | frame (rpc : proto.RPC)
  | event (rpc : Rpc P)

/-- It is this RPC that is on its way. -/
def Claim.Met : Claim P → RpcOut P → Prop
  | frame rpc, out => out.into_protobuf = rpc
  | event rpc, out => out.arrival true = rpc

omit [Libp2p P] in
/-- The RPC that waits for a substream of the handler. -/
def Handler.held : Handler P S → Option proto.RPC
  | Enabled h => h.held
  | Disabled _ => none

variable [DecidableEq P]

omit [Libp2p P] in
def HandledConnection.claims (p : P) (c : HandledConnection P S) : List (Claim P) :=
  if c.peer_id = p then c.handler.held.toList.map .frame else []

omit [Libp2p P] in
def event_claim (p : P) : P × HandlerEvent P → Option (Claim P)
  | (source, .Transaction rpc _) => if source = p then some (.event rpc) else none
  | _ => none

omit [Libp2p P] in
/-- The frame is on its way from `v` to `w`. -/
def Frame.goes (v w : P) (frame : Frame P) : Bool :=
  decide (frame.sender = v) && decide (frame.recipient = w)

def frame_claims (v w : P) (frames : List (Frame P)) : List (Claim P) :=
  (frames.filter (·.goes v w)).map fun frame => .frame frame.rpc

/-- All that is on its way from `v` to `w`. -/
def Swarms.claims (s : Swarms P F S) (v w : P) : Multiset (Claim P) :=
  (frame_claims v w s.frames ++ (s.swarm v).connections.flatMap (·.claims w) ++
    (s.swarm w).handler_events.filterMap (event_claim v) : List (Claim P))

omit [Libp2p P] in
def Packet.goes (v w : P) (packet : Packet P) : Bool :=
  decide (packet.sender = v) && decide (packet.recipient = w)

/-- The RPCs in the air from `v` to `w`. -/
def OverlayState.airborne (n : OverlayState P F) (v w : P) : Multiset (RpcOut P) :=
  ((n.air.filter (·.goes v w)).map (·.rpc) : List (RpcOut P))

/-! ## The simulation -/

omit [Libp2p P] [DecidableEq P] in
/-- The connection of the overlay has the receiver that the handler has. -/
structure HandledConnection.Matches (c : HandledConnection P S) (c' : Connection P) : Prop where
  peer_id : c'.peer_id = c.peer_id
  connection_id : c'.connection_id = c.connection_id
  receiver : ∀ h, c.handler = .Enabled h → c'.receiver = h.send_queue

/-- The behaviours are the same, the handlers have the receivers, and what is on its way is in the
air. -/
structure Swarms.Simulated (s : Swarms P F S) (n : OverlayState P F) : Prop where
  behaviour : ∀ v, (n.node v).behaviour = (s.swarm v).behaviour
  connections : ∀ v, List.Forall₂ HandledConnection.Matches (s.swarm v).connections
    (n.node v).connections
  links : ∀ v w, Multiset.Covers Claim.Met (s.claims v w) (n.airborne v w)

/-- The calls of the behaviours that do not come from handlers. -/
def SwarmOp.calls : SwarmOp P S → List (P × Call P)
  | call v c => [(v, c)]
  | _ => []

def OverlayOp.calls : OverlayOp P → List (P × Call P)
  | act v (.call c) => if c.of_swarm then [(v, c)] else []
  | _ => []

variable [F64 F] [Schema]

/-- The events that `v` hands out in a step. -/
def OverlayState.hands_out (v : P) (n : OverlayState P F) (op : OverlayOp P) : List (Event P) :=
  Machine.observe Node.step Node.emitted (n.node v) (n.part v op)

theorem OverlayState.hands_out_act (n : OverlayState P F) (u v : P) (op : Op P) :
    n.hands_out v (.act u op) = if u = v then (n.node v).emitted op else [] := by
  have hpart : n.part v (.act u op) = if u = v then [op] else [] := rfl
  unfold hands_out
  rw [hpart]
  split
  · simp only [Machine.observe]
    split <;> exact List.append_nil _
  · rfl

/-- An arrival makes a node hand out nothing. -/
theorem OverlayState.hands_out_deliver (n : OverlayState P F) (v : P) (index now draw : Nat)
    (valid : Bool) : n.hands_out v (.deliver index now draw valid) = [] := by
  have hone : ∀ packet : Packet P, Machine.observe Node.step Node.emitted (n.node v)
      (if packet.recipient = v then [packet.arrives now draw valid] else []) = [] := by
    intro packet
    split
    · exact Machine.observe_eq_nil (by simp [Packet.arrives, Node.emitted, Op.on_call,
        Behaviour.emitted]) _
    · rfl
  unfold hands_out part
  dsimp only
  split
  · exact hone _
  · rfl

/-- The steps of the overlay that take it from `n` to `n'` make the calls, hand out the events and
read no other clocks. -/
structure Overlay.Follows (o : Overlay P F) (n n' : OverlayState P F) (calls : List (P × Call P))
    (told : P → List (Event P)) (readings : List (P × Nat)) (ops : List (OverlayOp P)) : Prop where
  run : o.machine.Run n ops n'
  calls : ops.flatMap (·.calls) = calls
  told : ∀ v, Machine.observe o.step (OverlayState.hands_out v) n ops = told v
  readings : Machine.observe o.step OverlayState.readings n ops ⊆ readings

/-! ## The polls of a receiver -/

/-- The step polls a receiver. -/
def OverlayOp.polls : OverlayOp P → Bool
  | act _ (.poll_next _) => true
  | act _ (.poll_stale _ _) => true
  | act _ (.poll_is_empty _) => true
  | _ => false

namespace Overlay

variable {o : Overlay P F} {n n' n'' : OverlayState P F}

theorem Follows.trans {calls calls' : List (P × Call P)} {told told' : P → List (Event P)}
    {readings readings' : List (P × Nat)} {ops ops' : List (OverlayOp P)}
    (h : o.Follows n n' calls told readings ops)
    (h' : o.Follows n' n'' calls' told' readings' ops') :
    o.Follows n n'' (calls ++ calls') (fun v => told v ++ told' v) (readings ++ readings')
      (ops ++ ops') where
  run := h.run.append h'.run
  calls := by rw [List.flatMap_append, h.calls, h'.calls]
  told v := by rw [Machine.observe_append _ h.run, h.told, h'.told]
  readings := by
    rw [Machine.observe_append _ h.run]
    exact List.append_subset.mpr ⟨List.subset_append_of_subset_left _ h.readings,
      List.subset_append_of_subset_right _ h'.readings⟩

/-- Polls of receivers make no calls, hand out nothing and read no clock. -/
theorem follows_of_polls {ops : List (OverlayOp P)} (hrun : o.machine.Run n ops n')
    (hpolls : ∀ op ∈ ops, op.polls = true) : o.Follows n n' [] (fun _ => []) [] ops where
  run := hrun
  calls := by
    rw [List.flatMap_eq_nil_iff]
    intro op hop
    have hpoll := hpolls op hop
    unfold OverlayOp.polls at hpoll
    split at hpoll <;> first | rfl | cases hpoll
  told v := by
    have hnone : ∀ op ∈ ops, ∀ n : OverlayState P F, n.hands_out v op = [] := by
      intro op hop n
      have hpoll := hpolls op hop
      have hone : ∀ u (op : Op P), (∀ c, op ≠ .call c) → n.hands_out v (.act u op) = [] := by
        intro u op hno
        have hemitted : (n.node v).emitted op = [] := Op.on_call_eq_nil hno _
        rw [n.hands_out_act, hemitted]
        exact ite_self _
      unfold OverlayOp.polls at hpoll
      split at hpoll
      · exact hone _ _ (by simp)
      · exact hone _ _ (by simp)
      · exact hone _ _ (by simp)
      · cases hpoll
    exact Machine.observe_eq_nil hnone n
  readings := by
    have hnone : ∀ op ∈ ops, ∀ n : OverlayState P F, n.readings op = [] := by
      intro op hop n
      have hpoll := hpolls op hop
      unfold OverlayOp.polls at hpoll
      split at hpoll <;> first | rfl | cases hpoll
    rw [Machine.observe_eq_nil hnone n]
    exact List.nil_subset _

end Overlay

omit [F64 F] [Schema] in
theorem Behaviour.set_queue_set_queue (b : Behaviour P F) (p : P) (queue queue' : Sender P) :
    (b.set_queue p queue).set_queue p queue' = b.set_queue p queue' := by
  unfold set_queue
  dsimp only
  rw [Table.modify_modify]

omit [F64 F] [Schema] in
theorem Behaviour.set_queue_of_queue {b : Behaviour P F} {p : P} {queue : Sender P}
    (h : b.queue p = some queue) : b.set_queue p queue = b := by
  have hsame : b.connected_peers.modify p (fun peer => { peer with sender := queue }) =
      b.connected_peers := by
    apply Table.modify_of_fixed
    intro peer hpeer
    have hsender : peer.sender = queue := by simpa [Behaviour.queue, hpeer] using h
    rw [← hsender]
  unfold set_queue
  rw [hsame]

/-- The overlay after polls of one receiver of `v`: this is left of the receiver and of its queue,
and the RPCs are in the air. -/
def OverlayState.polled (n : OverlayState P F) (v : P) (index : Nat) (c : Connection P)
    (receiver : Receiver P) (queue : Sender P) (outs : List (RpcOut P)) : OverlayState P F where
  node := Function.update n.node v {
    behaviour := (n.node v).behaviour.set_queue c.peer_id queue
    connections := (n.node v).connections.set index { c with receiver } }
  air := n.air ++ outs.map (Packet.mk v c.peer_id)

section

variable {o : Overlay P F} {n : OverlayState P F} {v : P} {index : Nat} {c : Connection P}
  {queue : Sender P}

omit [F64 F] [Schema] in
/-- A poll of the receiver of one connection. -/
theorem Node.poll_receiver_eq {m : Node P F} (hc : m.connections[index]? = some c)
    (hqueue : m.behaviour.queue c.peer_id = some queue)
    (poll : Receiver P → Sender P → Receiver P × Sender P) :
    m.poll_receiver index poll = some {
      behaviour := m.behaviour.set_queue c.peer_id (poll c.receiver queue).2
      connections :=
        m.connections.set index { c with receiver := (poll c.receiver queue).1 } } := by
  simp [poll_receiver, hc, hqueue]

omit [F64 F] [Schema] in
theorem OverlayState.polled_connection (hc : (n.node v).connections[index]? = some c)
    (receiver : Receiver P) (queue : Sender P) (outs : List (RpcOut P)) :
    ((n.polled v index c receiver queue outs).node v).connections[index]? =
      some { c with receiver } := by
  obtain ⟨hlt, -⟩ := List.getElem?_eq_some_iff.mp hc
  simp [polled, hlt]

omit [F64 F] [Schema] in
theorem OverlayState.polled_queue (index : Nat)
    (hqueue : (n.node v).behaviour.queue c.peer_id = some queue)
    (receiver : Receiver P) (queue' : Sender P) (outs : List (RpcOut P)) :
    ((n.polled v index c receiver queue' outs).node v).behaviour.queue c.peer_id = some queue' := by
  simp [polled, Behaviour.queue_set_queue_self, hqueue]

omit [F64 F] [Schema] in
/-- Polls after polls. -/
theorem OverlayState.polled_polled (receiver receiver' : Receiver P) (queue queue' : Sender P)
    (outs outs' : List (RpcOut P)) :
    (n.polled v index c receiver queue outs).polled v index { c with receiver }
        receiver' queue' outs' =
      n.polled v index c receiver' queue' (outs ++ outs') := by
  simp [polled, Behaviour.set_queue_set_queue]

omit [F64 F] [Schema] [DecidableEq P] [Libp2p P] in
/-- The polls of receivers are steps of a node of its own. -/
theorem OverlayOp.own_of_polls {op : Op P} (hpolls : (OverlayOp.act v op).polls = true) :
    op.arrives = false := by
  cases op with
  | call c => cases hpolls
  | poll_next index => rfl
  | poll_stale index elapsed => rfl
  | poll_is_empty index => rfl

/-- A poll of a receiver is a step of the overlay. -/
theorem Overlay.step_poll (hv : v ∈ o.nodes) (hc : (n.node v).connections[index]? = some c)
    (hqueue : (n.node v).behaviour.queue c.peer_id = some queue) {op : Op P}
    (hpolls : (OverlayOp.act v op).polls = true)
    {poll : Receiver P → Sender P → Receiver P × Sender P}
    (hop : (n.node v).step op = (n.node v).poll_receiver index poll) (out : Option (RpcOut P))
    (hsent : (n.node v).sent v op = out.map (Packet.mk v c.peer_id)) :
    o.step n (.act v op) = some (n.polled v index c (poll c.receiver queue).1
      (poll c.receiver queue).2 out.toList) := by
  have hown : op.arrives = false := OverlayOp.own_of_polls hpolls
  have hout : ((n.node v).sent v op).toList = out.toList.map (Packet.mk v c.peer_id) := by
    rw [hsent]
    cases out <;> rfl
  simp [step, hv, hown, hop, Node.poll_receiver_eq hc hqueue, OverlayState.polled, hout]

/-! ## What a poll of a handler does -/

/-- What a handler has given to substreams, and what waits for one. -/
def outbound_claims (deeds : List (Deed P)) (held : List proto.RPC) : List (Claim P) :=
  (handed deeds ++ held).map .frame

/-- The loop over the outbound substream, as polls of the receiver in the overlay. What was on its
way besides what the handler had, is `rest`; and `base` was in the air. -/
def Tracks (o : Overlay P F) (n : OverlayState P F) (v : P) (index : Nat) (c : Connection P)
    (rest : Multiset (Claim P)) (base : Multiset (RpcOut P)) (deeds : List (Deed P))
    (state : EnabledHandler P S × Sender P) : Prop :=
  ∃ ops outs, o.machine.Run n ops (n.polled v index c state.1.send_queue state.2 outs) ∧
    (∀ op ∈ ops, op.polls = true) ∧
    Multiset.Covers Claim.Met (rest + .ofList (outbound_claims deeds state.1.held.toList))
      (base + .ofList outs)

variable {rest : Multiset (Claim P)} {base : Multiset (RpcOut P)} {deeds more : List (Deed P)}
  {h h' : EnabledHandler P S} {queue' : Sender P}

omit [DecidableEq P] [Libp2p P] [Schema] in
theorem outbound_claims_sublist (deeds : List (Deed P)) {held held' : List proto.RPC}
    (h : (handed more ++ held').Sublist held) :
    (outbound_claims (deeds ++ more) held').Sublist (outbound_claims deeds held) := by
  unfold outbound_claims handed
  rw [List.filterMap_append, List.append_assoc]
  exact (h.append_left _).map _

/-- The handler leaves the queue alone, and may lose what it has. -/
theorem Tracks.idle (htracks : Tracks o n v index c rest base deeds (h, queue))
    (hqueue : h'.send_queue = h.send_queue)
    (hclaims : (handed more ++ h'.held.toList).Sublist h.held.toList) :
    Tracks o n v index c rest base (deeds ++ more) (h', queue) := by
  obtain ⟨ops, outs, hrun, hpolls, hcovers⟩ := htracks
  refine ⟨ops, outs, ?_, hpolls, hcovers.mono ?_ le_rfl⟩
  · rw [hqueue]
    exact hrun
  · exact Multiset.add_le_add_left
      (Multiset.coe_le.mpr (outbound_claims_sublist deeds hclaims).subperm)

/-- The handler polls the queue, which may give it an RPC. -/
theorem Tracks.poll {queue₀ : Sender P} (hv : v ∈ o.nodes)
    (hc : (n.node v).connections[index]? = some c)
    (hqueue₀ : (n.node v).behaviour.queue c.peer_id = some queue₀)
    (htracks : Tracks o n v index c rest base deeds (h, queue)) {op : Op P}
    (hpolls : (OverlayOp.act v op).polls = true)
    {poll : Receiver P → Sender P → Receiver P × Sender P}
    (hop : ∀ m : Node P F, m.step op = m.poll_receiver index poll) (out : Option (RpcOut P))
    (hsent : ∀ m : Node P F, m.connections[index]? = some { c with receiver := h.send_queue } →
      m.behaviour.queue c.peer_id = some queue → m.sent v op = out.map (Packet.mk v c.peer_id))
    (hnext : poll h.send_queue queue = (h'.send_queue, queue'))
    (hclaims : (handed more ++ h'.held.toList).Sublist
      (out.toList.map (·.into_protobuf) ++ h.held.toList)) :
    Tracks o n v index c rest base (deeds ++ more) (h', queue') := by
  obtain ⟨ops, outs, hrun, hall, hcovers⟩ := htracks
  have hfound := OverlayState.polled_connection hc h.send_queue queue outs
  have hqueue := OverlayState.polled_queue index hqueue₀ h.send_queue queue outs
  have hstep := Overlay.step_poll hv hfound hqueue hpolls (hop _) out (hsent _ hfound hqueue)
  simp only [hnext, OverlayState.polled_polled] at hstep
  have hlast : o.machine.step (n.polled v index c h.send_queue queue outs) (.act v op)
    (n.polled v index c h'.send_queue queue' (outs ++ out.toList)) := hstep
  refine ⟨ops ++ [.act v op], outs ++ out.toList, .snoc hrun hlast, ?_, ?_⟩
  · simpa [or_imp, forall_and] using ⟨hall, hpolls⟩
  · cases out with
    | none =>
      have hless := (outbound_claims_sublist deeds hclaims).subperm
      exact hcovers.mono (Multiset.add_le_add_left (Multiset.coe_le.mpr hless)) (by simp)
    | some rpc =>
      have hmet : Claim.Met (.frame rpc.into_protobuf) rpc := rfl
      have hless : (outbound_claims (deeds ++ more) h'.held.toList).Subperm
          (.frame rpc.into_protobuf :: outbound_claims deeds h.held.toList) := by
        refine (outbound_claims_sublist deeds hclaims).subperm.trans (List.Perm.subperm ?_)
        have hmiddle : (handed deeds ++ rpc.into_protobuf :: h.held.toList).Perm
          (rpc.into_protobuf :: (handed deeds ++ h.held.toList)) := List.perm_middle
        exact hmiddle.map Claim.frame
      refine (hcovers.cons hmet).mono ?_ (le_of_eq ?_)
      · rw [← Multiset.add_cons]
        exact Multiset.add_le_add_left (Multiset.coe_le.mpr hless)
      · rw [← Multiset.add_cons, Multiset.cons_coe]
        congr 1
        have hperm : ([rpc] ++ outs).Perm (outs ++ [rpc]) := List.perm_append_comm
        exact Multiset.coe_eq_coe.mpr hperm

namespace EnabledHandler

/-- How the loop over the outbound substream ends. -/
def Tracked (o : Overlay P F) (n : OverlayState P F) (v : P) (index : Nat) (c : Connection P)
    (rest : Multiset (Claim P)) (base : Multiset (RpcOut P)) (deeds : List (Deed P)) :
    Exit (EnabledHandler P S × Sender P) (ConnectionHandlerEvent P) → Prop
  | .Break state => Tracks o n v index c rest base deeds state
  | .Return _ state => Tracks o n v index c rest base deeds state
  | .Panic => True

theorem outbound_turn_tracks {queue₀ : Sender P} (hv : v ∈ o.nodes)
    (hc : (n.node v).connections[index]? = some c)
    (hqueue₀ : (n.node v).behaviour.queue c.peer_id = some queue₀) (io : Framed P S)
    (elapsed : Delay → Bool) (deeds : List (Deed P)) (state : EnabledHandler P S × Sender P)
    (htracks : Tracks o n v index c rest base deeds state) :
    Loop.Preserves
      (fun next => Tracks o n v index c rest base (deeds ++ turn_deeds io false state) next)
      (Tracked o n v index c rest base (deeds ++ turn_deeds io false state))
      (outbound_turn io false elapsed state) := by
  obtain ⟨h, queue⟩ := state
  unfold outbound_turn turn_deeds
  dsimp only
  cases hstate : h.outbound_substream with
  | none =>
    refine htracks.idle rfl ?_
    simp [handed, held, hstate]
  | some outbound =>
    cases outbound with
    | Poisoned => trivial
    | WaitingOutput substream =>
      have hnone : h.held = none := by simp [held, hstate]
      -- the turn is a poll of the receiver, whatever comes of it
      have hpolled : ∀ {more : List (Deed P)} {h' : EnabledHandler P S} {queue' : Sender P},
          (h.send_queue.poll_next false queue).2 = (h'.send_queue, queue') →
          (handed more ++ h'.held.toList).Sublist
            ((Receiver.out (h.send_queue.poll_next false queue).1).toList.map (·.into_protobuf)) →
          Tracks o n v index c rest base (deeds ++ more) (h', queue') := by
        intro more h' queue' hnext hclaims
        have hop : ∀ m : Node P F, m.step (.poll_next index) =
          m.poll_receiver index fun r s => (r.poll_next false s).2 := fun _ => rfl
        refine htracks.poll hv hc hqueue₀ rfl hop _ ?_ hnext (by simpa [hnone] using hclaims)
        intro m hfound hqueue
        simp only [Node.sent, hfound, hqueue, Option.bind_eq_bind, Option.bind_some]
        cases Receiver.out (h.send_queue.poll_next false queue).1 <;> rfl
      dsimp only
      generalize h.send_queue.poll_next false queue = next at hpolled
      obtain ⟨polled, send_queue, queue'⟩ := next
      cases polled with
      | Pending => exact hpolled rfl (by simp [handed, held, Receiver.out, Deed.handed?])
      | Ready item =>
        cases item with
        | none => exact hpolled rfl (by simp [handed, held, Receiver.out, Deed.handed?])
        | some transaction =>
          dsimp only
          split
          · exact hpolled rfl (by simp [handed, held, Receiver.out, Deed.handed?])
          · exact hpolled rfl (by simp [handed, held, Receiver.out, Deed.handed?])
    | PendingSend substream rpc =>
      dsimp only
      generalize io.poll_ready substream = ready
      obtain ⟨polled, substream'⟩ := ready
      cases polled with
      | Pending => exact htracks.idle rfl (by simp [handed, held, hstate, Deed.handed?])
      | Ready result =>
        cases result with
        | error e => exact htracks.idle rfl (by simp [handed, held, hstate, Deed.handed?])
        | ok _ =>
          dsimp only
          generalize io.start_send substream' rpc = sent
          obtain ⟨result, substream''⟩ := sent
          cases result with
          | error e => exact htracks.idle rfl (by simp [handed, held, hstate, Deed.handed?])
          | ok _ => exact htracks.idle rfl (by simp [handed, held, hstate, Deed.handed?])
    | PendingFlush substream =>
      dsimp only
      split
      · exact htracks.idle rfl (by simp [handed, held])
      · exact htracks.idle rfl (by simp [handed, held])
      · exact htracks.idle rfl (by simp [handed, held])

/-- The loop over the inbound substream does nothing with the queue, nor with what waits for the
outbound substream. -/
theorem inbound_turn_tracks (io : Framed P S)
    (htracks : Tracks o n v index c rest base deeds (h, queue)) :
    Loop.Preserves (fun h => Tracks o n v index c rest base deeds (h, queue))
      (fun
        | .Break h => Tracks o n v index c rest base deeds (h, queue)
        | .Return _ h => Tracks o n v index c rest base deeds (h, queue)
        | .Panic => True)
      (inbound_turn io h) := by
  unfold inbound_turn
  dsimp only
  split
  · split
    · exact htracks
    · exact htracks
    · exact htracks
    · exact htracks
  · split
    · exact htracks
    · exact htracks
  · exact htracks
  · trivial

theorem poll_queue_tracks {queue₀ : Sender P} (hv : v ∈ o.nodes)
    (hc : (n.node v).connections[index]? = some c)
    (hqueue₀ : (n.node v).behaviour.queue c.peer_id = some queue₀) {elapsed : Delay → Bool}
    (htracks : Tracks o n v index c rest base deeds (h, queue))
    {answer : Poll (ConnectionHandlerEvent P)}
    (hpoll : h.poll_queue false elapsed queue = .Returned answer h' queue') :
    Tracks o n v index c rest base (deeds ++ h.stale_deeds false elapsed queue) (h', queue') := by
  have hpolled : ∀ send_queue,
      (h.send_queue.poll_stale false elapsed queue).2 = (send_queue, queue') →
      Tracks o n v index c rest base (deeds ++ h.stale_deeds false elapsed queue)
        ({ h with send_queue }, queue') := by
    intro send_queue hnext
    have hop : ∀ m : Node P F, m.step (.poll_stale index elapsed) =
      m.poll_receiver index fun r s => (r.poll_stale false elapsed s).2 := fun _ => rfl
    have hhanded : handed (h.stale_deeds false elapsed queue) = [] := by
      unfold stale_deeds
      cases Receiver.out (h.send_queue.poll_stale false elapsed queue).1 <;> rfl
    refine htracks.poll hv hc hqueue₀ rfl hop none (fun _ _ _ => rfl) hnext ?_
    rw [hhanded]
    exact .refl _
  unfold poll_queue at hpoll
  split at hpoll
  · rename_i hnext
    cases hpoll
    exact hpolled _ (by rw [hnext])
  · rename_i hnext
    cases hpoll
    exact hpolled _ (by rw [hnext])

/-- A poll of a handler, as polls of its receiver in the overlay. -/
theorem poll_tracks (hv : v ∈ o.nodes) (hc : (n.node v).connections[index]? = some c)
    (hqueue : (n.node v).behaviour.queue c.peer_id = some queue)
    (hreceiver : c.receiver = h.send_queue)
    (hcovers : Multiset.Covers Claim.Met (rest + .ofList (outbound_claims [] h.held.toList)) base)
    {io : Framed P S} {elapsed : Delay → Bool} {fuel : Nat}
    {answer : Poll (ConnectionHandlerEvent P)}
    (hpoll : h.poll io false elapsed fuel queue = some (.Returned answer h' queue')) :
    Tracks o n v index c rest base (h.poll_deeds io false elapsed fuel queue) (h', queue') := by
  have hpeeked : Tracks o n v index c rest base [] (h.peeked false queue) := by
    have hop : (n.node v).step (.poll_is_empty index) =
      (n.node v).poll_receiver index fun r s => (r.poll_is_empty false s).2 := rfl
    have hstep := Overlay.step_poll hv hc hqueue rfl hop none rfl
    rw [hreceiver] at hstep
    exact ⟨_, [], .single hstep, by simp [OverlayOp.polls], hcovers.mono le_rfl (by simp)⟩
  have houtbound : ∀ {e}, Loop.run (outbound_turn io false elapsed) fuel (h.peeked false queue) =
      some e → Tracked o n v index c rest base ([] ++ Loop.trace (outbound_turn io false elapsed)
        (turn_deeds io false) fuel (h.peeked false queue)) e :=
    Loop.run_trace (turn_deeds io false)
      (fun notes state hs => outbound_turn_tracks hv hc hqueue io elapsed notes state hs) [] hpeeked
  obtain ⟨done, hdone, hends⟩ := poll_ends hpoll
  rw [hdone]
  cases hends with
  | asked asks => exact hpeeked
  | outbound asks run => exact houtbound run
  | inbound asks run run_inbound =>
    exact Loop.run_preserves (fun h hs => inbound_turn_tracks io hs) (houtbound run) run_inbound
  | swept asks run run_inbound rest =>
    apply poll_queue_tracks hv hc hqueue _ rest
    exact Loop.run_preserves (fun h hs => inbound_turn_tracks io hs) (houtbound run) run_inbound

end EnabledHandler

end

/-! ## What is in the air is read as it was sent -/

/-- The codec gives the RPC back, whatever it validates. -/
def RpcOut.ReadBack (out : RpcOut P) : Prop :=
  ∀ validation_mode random, DogCodec.decode_rpc validation_mode random out.into_protobuf =
    .Transaction (out.arrival true) []

omit [F64 F] in
theorem RpcOut.read_back {out : RpcOut P} (h : ∀ tx, out.tx? = some tx →
    tx.normalise = tx ∧ ∀ validation_mode, Passes validation_mode tx) : out.ReadBack := by
  intro validation_mode random
  rw [decode_rpc_out_of_passes random fun tx htx => (h tx htx).2 validation_mode]
  congr 1
  cases out with
  | Publish tx timeout => simp [arrival, Rpc.normalise, (h tx rfl).1]
  | Forward tx timeout => simp [arrival, Rpc.normalise, (h tx rfl).1]
  | HaveTx have_tx => rfl
  | ResetRoute reset_route => rfl

section

variable {o : Overlay P F} {n : OverlayState P F} {ops : List (OverlayOp P)}

/-- What is made is the same on the wire, and passes every validation. -/
theorem Overlay.made_passes (hlaws : Libp2p.Lawful P) (hrun : o.machine.Run o.initial ops n) :
    ∀ m ∈ o.made ops, m.1.normalise = m.1 ∧ ∀ validation_mode, Passes validation_mode m.1 := by
  unfold made
  induction hrun with
  | nil => rintro m ⟨⟩
  | @snoc m m' ops op hrun hstep ih =>
    rw [Machine.observe_snoc makes hrun, List.forall_mem_append]
    refine ⟨ih, ?_⟩
    intro made hmade
    cases op with
    | act v op =>
      cases op with
      | call c =>
        have hmade : made ∈ (m.node v).behaviour.made c := hmade
        have hsigns := signs_of_run (s := o.setup v) rfl (run_part hrun v)
        obtain ⟨seqno, data, config, hbuild⟩ := Behaviour.made_signed hsigns hmade
        obtain ⟨hnormal, hstrict⟩ := signed_passes hlaws hbuild
        refine ⟨hnormal, ?_⟩
        rintro (_ | _)
        · exact hstrict
        · exact passes_none hlaws.from_bytes _
      | poll_next index => cases hmade
      | poll_stale index elapsed => cases hmade
      | poll_is_empty index => cases hmade
    | deliver index now draw valid => cases hmade
    | lose index => cases hmade

theorem Overlay.air_read_back (hlaws : Libp2p.Lawful P) (hrun : o.machine.Run o.initial ops n) :
    ∀ packet ∈ n.air, packet.rpc.ReadBack := by
  intro packet hpacket
  apply RpcOut.read_back
  intro tx htx
  obtain ⟨data, hmade⟩ := (sourced_of_run hrun).air packet hpacket tx htx
  exact made_passes hlaws hrun _ hmade

end

/-! ## What an operation does to what is on its way -/

section

variable {s s' : Swarms P F S} {n : OverlayState P F}

omit [F64 F] [Schema] in
/-- Nothing is on its way that was not. -/
theorem Swarms.claims_le (hframes : s'.frames.Sublist s.frames)
    (hconnections : ∀ v w, ((s'.swarm v).connections.flatMap (·.claims w)).Subperm
      ((s.swarm v).connections.flatMap (·.claims w)))
    (hevents : ∀ v, (s'.swarm v).handler_events.Sublist (s.swarm v).handler_events) (v w : P) :
    s'.claims v w ≤ s.claims v w := by
  have hsent : (frame_claims v w s'.frames).Sublist (frame_claims v w s.frames) :=
    (hframes.filter _).map _
  have hread := (hevents w).filterMap (event_claim v)
  exact Multiset.coe_le.mpr ((hsent.subperm.append (hconnections v w)).append hread.subperm)

omit [F64 F] [Schema] in
/-- The connections of one swarm may have lost what they had. -/
theorem Swarms.flatMap_update {m : Swarm P F S} {v : P}
    (h : ∀ w, (m.connections.flatMap (·.claims w)).Subperm
      ((s.swarm v).connections.flatMap (·.claims w))) (u w : P) :
    (((s.update v m).swarm u).connections.flatMap (·.claims w)).Subperm
      ((s.swarm u).connections.flatMap (·.claims w)) := by
  unfold update
  dsimp only
  by_cases hu : u = v
  · subst hu
    rw [Function.update_self]
    exact h w
  · rw [Function.update_of_ne hu]

omit [F64 F] [Schema] in
theorem Swarms.events_update {m : Swarm P F S} {v : P}
    (h : m.handler_events.Sublist (s.swarm v).handler_events) (u : P) :
    ((s.update v m).swarm u).handler_events.Sublist (s.swarm u).handler_events := by
  unfold update
  dsimp only
  by_cases hu : u = v
  · subst hu
    rw [Function.update_self]
    exact h
  · rw [Function.update_of_ne hu]

omit [F64 F] [Schema] in
/-- An RPC that leaves the air is one less on its link. -/
theorem OverlayState.airborne_eraseIdx {i : Nat} {packet : Packet P}
    (hthere : n.air[i]? = some packet) (v w : P) :
    n.airborne v w = (if packet.goes v w then {packet.rpc} else 0) +
      ({ n with air := n.air.eraseIdx i } : OverlayState P F).airborne v w :=
  Multiset.coe_filter_map_eraseIdx hthere _ _

omit [F64 F] [Schema] in
theorem OverlayState.exists_packet {v w : P} {out : RpcOut P} (h : out ∈ n.airborne v w) :
    ∃ i : Nat, n.air[i]? = some { sender := v, recipient := w, rpc := out } := by
  obtain ⟨packet, hpacket, rfl⟩ := List.mem_map.mp (Multiset.mem_coe.mp h)
  obtain ⟨hin, hgoes⟩ := List.mem_filter.mp hpacket
  have hbetween : packet.sender = v ∧ packet.recipient = w := by
    simpa [Packet.goes] using hgoes
  obtain ⟨rfl, rfl⟩ := hbetween
  exact List.mem_iff_getElem?.mp hin

omit [F64 F] [Schema] in
theorem OverlayState.airborne_polled (v w : P) {u : P} {index : Nat} {c : Connection P}
    {receiver : Receiver P} {queue : Sender P} {outs : List (RpcOut P)} :
    (n.polled u index c receiver queue outs).airborne v w =
      n.airborne v w + if u = v ∧ c.peer_id = w then .ofList outs else 0 := by
  have hgoes : ∀ rpc, (Packet.mk u c.peer_id rpc).goes v w = decide (u = v ∧ c.peer_id = w) := by
    intro rpc
    simp [Packet.goes]
  unfold airborne polled
  simp only [List.filter_append, List.map_append, List.filter_map, Function.comp_def, hgoes]
  split
  · rename_i heq
    simp [heq, Function.comp_def]
  · rename_i hne
    simp [hne]

end

/-! ## The operations, one by one -/

omit [F64 F] [Schema] in
/-- A new handler has nothing yet. -/
theorem Swarm.connections_after_claims (m : Swarm P F S) (c : Call P) (w : P) :
    ((m.connections_after c).flatMap (·.claims w)).Sublist
      (m.connections.flatMap (·.claims w)) := by
  have hnew : ∀ peer_id connection_id config (receiver : Receiver P),
      (HandledConnection.mk peer_id connection_id (.new config receiver : Handler P S)).claims w =
        [] := by
    intro peer_id connection_id config receiver
    exact ite_self _
  cases c with
  | handle_established_inbound_connection connection_id peer_id =>
    simp [connections_after, hnew]
  | handle_established_outbound_connection connection_id peer_id =>
    simp [connections_after, hnew]
  | on_swarm_event now draw event =>
    cases event with
    | ConnectionClosed peer_id connection_id remaining_established =>
      exact List.filter_sublist.flatMap _
    | ConnectionEstablished peer_id => exact .refl _
    | Other => exact .refl _
  | publish now data => exact .refl _
  | on_connection_handler_event clock draw source event => exact .refl _
  | poll now draw redundancy_interval => exact .refl _

/-- The overlay with one node changed. -/
def OverlayState.update (n : OverlayState P F) (v : P) (node : Node P F) : OverlayState P F :=
  { n with node := Function.update n.node v node }

omit [F64 F] [Schema] in
@[simp] theorem OverlayState.airborne_update (n : OverlayState P F) (u : P) (node : Node P F)
    (v w : P) : (n.update u node).airborne v w = n.airborne v w := rfl

omit [F64 F] [Schema] in
theorem OverlayState.update_self (n : OverlayState P F) (v : P) : n.update v (n.node v) = n := by
  simp [update]

/-- The operation is done by steps of the overlay. -/
def Swarms.Followed (o : Overlay P F) (s : Swarms P F S) (n : OverlayState P F) (op : SwarmOp P S)
    (s' : Swarms P F S) : Prop :=
  ∃ ops n' told, o.Follows n n' op.calls told op.readings ops ∧
    (∀ v, s'.told v = s.told v ++ told v) ∧
    s'.Simulated n'

namespace Swarms.Simulated

variable {o : Overlay P F} {s s' : Swarms P F S} {n n' : OverlayState P F}

/-- Nothing happens in the overlay. -/
theorem followed {op : SwarmOp P S} (h : s'.Simulated n) (hcalls : op.calls = [])
    (htold : ∀ v, s'.told v = s.told v) : s.Followed o n op s' := by
  refine ⟨[], n, fun _ => [], ⟨.nil n, hcalls.symm, fun _ => rfl, List.nil_subset _⟩, ?_, h⟩
  intro v
  rw [htold, List.append_nil]

omit [F64 F] [Schema] in
/-- The connections match after the same call of the same behaviour. -/
theorem connections_after (h : s.Simulated n) (v : P) (c : Call P) :
    List.Forall₂ HandledConnection.Matches ((s.swarm v).connections_after c)
      ((n.node v).connections_after c) := by
  have hsame := h.behaviour v
  have hold := h.connections v
  cases c with
  | handle_established_inbound_connection connection_id peer_id =>
    refine List.rel_append hold (.cons ⟨rfl, rfl, ?_⟩ .nil)
    rintro handler ⟨⟩
    rw [hsame]
  | handle_established_outbound_connection connection_id peer_id =>
    refine List.rel_append hold (.cons ⟨rfl, rfl, ?_⟩ .nil)
    rintro handler ⟨⟩
    rw [hsame]
  | on_swarm_event now draw event =>
    cases event with
    | ConnectionClosed peer_id connection_id remaining_established =>
      refine List.rel_filter ?_ hold
      intro c c' hmatches
      simp only [hmatches.peer_id, hmatches.connection_id]
    | ConnectionEstablished peer_id => exact hold
    | Other => exact hold
  | publish now data => exact hold
  | on_connection_handler_event clock draw source event => exact hold
  | poll now draw redundancy_interval => exact hold

omit [F64 F] [Schema] in
/-- A swarm and its node change alike, and nothing more is on its way. -/
theorem updated (h : s.Simulated n) {v : P} (m : Swarm P F S) (node : Node P F)
    (hbehaviour : node.behaviour = m.behaviour)
    (hconnections : List.Forall₂ HandledConnection.Matches m.connections node.connections)
    (hclaims : ∀ w, (m.connections.flatMap (·.claims w)).Subperm
      ((s.swarm v).connections.flatMap (·.claims w)))
    (hevents : m.handler_events.Sublist (s.swarm v).handler_events) :
    (s.update v m).Simulated (n.update v node) where
  behaviour u := by
    unfold Swarms.update OverlayState.update
    by_cases hu : u = v
    · subst hu
      simpa using hbehaviour
    · simpa [hu] using h.behaviour u
  connections u := by
    unfold Swarms.update OverlayState.update
    by_cases hu : u = v
    · subst hu
      simpa using hconnections
    · simpa [hu] using h.connections u
  links u w := by
    have hframes : (s.update v m).frames.Sublist s.frames := .refl _
    exact (h.links u w).mono (Swarms.claims_le hframes (Swarms.flatMap_update hclaims)
      (Swarms.events_update hevents) u w) le_rfl

/-- A call of a behaviour is a step of the overlay. -/
theorem step_call (h : s.Simulated n) {v : P} {c : Call P} {b' : Behaviour P F} (hv : v ∈ o.nodes)
    (hown : Op.arrives (.call c) = false) (hcall : (s.swarm v).behaviour.call c = some b') :
    o.step n (.act v (.call c)) =
      some (n.update v { behaviour := b', connections := (n.node v).connections_after c }) := by
  have hnode : (n.node v).step (.call c) =
      some { behaviour := b', connections := (n.node v).connections_after c } := by
    simp [Node.step, h.behaviour, hcall]
  simp [Overlay.step, hv, hown, hnode, Node.sent, OverlayState.update]

/-- A behaviour is called. -/
theorem call (h : s.Simulated n) {v : P} {c : Call P} {b' : Behaviour P F} (hv : v ∈ o.nodes)
    (hswarm : c.of_swarm = true) (hcall : (s.swarm v).behaviour.call c = some b') :
    s.Followed o n (.call v c)
      { s.update v { s.swarm v with
          behaviour := b', connections := (s.swarm v).connections_after c } with
        told := Function.update s.told v (s.told v ++ (s.swarm v).behaviour.emitted c) } := by
  have hown : Op.arrives (.call c) = false := by
    cases c <;> first | rfl | cases hswarm
  have hstep := h.step_call hv hown hcall
  have hupdated : (s.update v { s.swarm v with
      behaviour := b', connections := (s.swarm v).connections_after c }).Simulated
      (n.update v { behaviour := b', connections := (n.node v).connections_after c }) :=
    h.updated _ _ rfl (h.connections_after v c)
      (fun w => (Swarm.connections_after_claims _ c w).subperm) (.refl _)
  refine ⟨[.act v (.call c)], _, fun w => n.hands_out w (.act v (.call c)),
    ⟨.single hstep, ?_, ?_, ?_⟩, ?_, ⟨hupdated.behaviour, hupdated.connections, hupdated.links⟩⟩
  · simp [OverlayOp.calls, SwarmOp.calls, hswarm]
  · intro w
    simp [Machine.observe, hstep]
  · simp only [Machine.observe, hstep, List.append_nil]
    cases c <;> exact List.Subset.refl _
  · intro w
    dsimp only
    rw [n.hands_out_act]
    by_cases hw : w = v
    · subst hw
      simp [Node.emitted, Op.on_call, h.behaviour]
    · simp [hw, Ne.symm hw]

omit [F64 F] [Schema] in
/-- What waits for a behaviour is on its way to it, until it is told. -/
theorem claims_of_event {v p : P} {index : Nat} {rpc : Rpc P}
    {invalid : List (RawTransaction P × ValidationError)} (b' : Behaviour P F)
    (hthere : (s.swarm v).handler_events[index]? = some (p, .Transaction rpc invalid)) :
    s.claims p v = .event rpc ::ₘ (s.update v { s.swarm v with
      behaviour := b'
      handler_events := (s.swarm v).handler_events.eraseIdx index }).claims p v := by
  have hevents : ((s.swarm v).handler_events.filterMap (event_claim p)).Perm (.event rpc ::
      ((s.swarm v).handler_events.eraseIdx index).filterMap (event_claim p)) := by
    have hperm := (List.perm_cons_eraseIdx hthere).filterMap (event_claim p)
    have hclaim : event_claim p (p, .Transaction rpc invalid) = some (.event rpc) := if_pos rfl
    rwa [List.filterMap_cons_some hclaim] at hperm
  have hconnections : ((s.update v { s.swarm v with
      behaviour := b'
      handler_events := (s.swarm v).handler_events.eraseIdx index }).swarm p).connections =
      (s.swarm p).connections := by
    unfold Swarms.update
    by_cases hp : p = v
    · subst hp
      simp
    · simp [hp]
  unfold Swarms.claims
  rw [hconnections]
  simp only [Swarms.update, Function.update_self]
  exact Multiset.coe_eq_coe.mpr ((hevents.append_left _).trans List.perm_middle)

/-- A behaviour is told of what a handler told. An RPC that was read arrives in the overlay. -/
theorem notify (h : s.Simulated n) {v p : P} {index now draw : Nat} {event : HandlerEvent P}
    (hv : v ∈ o.nodes)
    (hthere : (s.swarm v).handler_events[index]? = some (p, event)) :
    s.Followed o n (.notify v index now draw) (s.update v { s.swarm v with
      behaviour := (s.swarm v).behaviour.on_connection_handler_event (fun _ => now) draw p event
      handler_events := (s.swarm v).handler_events.eraseIdx index }) := by
  cases event with
  | TransactionDropped rpc =>
    have hstep := h.step_call (c := .on_connection_handler_event (fun _ => now) draw p
      (.TransactionDropped rpc)) hv rfl rfl
    refine ⟨_, _, fun _ => [], ⟨.single hstep, rfl, ?_, ?_⟩, fun w => (List.append_nil _).symm, ?_⟩
    · intro w
      have hnone := n.hands_out_act v w (.call (.on_connection_handler_event (fun _ => now) draw p
        (.TransactionDropped rpc)))
      simp [Machine.observe, hstep, hnone, Node.emitted, Op.on_call, Behaviour.emitted]
    · simp [Machine.observe, hstep, OverlayState.readings]
    · exact h.updated _ _ rfl (h.connections v) (fun _ => .refl _) (List.eraseIdx_sublist _ _)
  | Transaction rpc invalid =>
    have hclaim := claims_of_event ((s.swarm v).behaviour.on_connection_handler_event
      (fun _ => now) draw p (.Transaction rpc invalid)) hthere
    have hlink := h.links p v
    rw [hclaim] at hlink
    -- the RPC is in the air
    obtain ⟨out, rest, hair, hmet, hcovers⟩ := hlink.take
    have hmet : out.arrival true = rpc := hmet
    obtain ⟨i, hpacket⟩ := OverlayState.exists_packet
      (hair ▸ Multiset.mem_cons_self out rest : out ∈ n.airborne p v)
    have herased := OverlayState.airborne_eraseIdx hpacket
    have hstep : o.step n (.deliver i now draw true) =
        some (({ n with air := n.air.eraseIdx i } : OverlayState P F).update v
          { behaviour := (s.swarm v).behaviour.on_connection_handler_event (fun _ => now) draw p
              (.Transaction rpc invalid)
            connections := (n.node v).connections }) := by
      simp only [Overlay.step, hpacket, Option.bind_eq_bind, Option.bind_some, hv, if_true, hmet,
        Node.step, Behaviour.call, h.behaviour]
      rfl
    have hupdated := h.updated (v := v) { s.swarm v with
        behaviour := (s.swarm v).behaviour.on_connection_handler_event (fun _ => now) draw p
          (.Transaction rpc invalid)
        handler_events := (s.swarm v).handler_events.eraseIdx index }
      ⟨_, (n.node v).connections⟩ rfl (h.connections v) (fun _ => .refl _)
      (List.eraseIdx_sublist _ _)
    refine ⟨_, _, fun _ => [], ⟨.single hstep, rfl, ?_, ?_⟩, fun w => (List.append_nil _).symm,
      hupdated.behaviour, hupdated.connections, ?_⟩
    · intro w
      simp [Machine.observe, hstep, n.hands_out_deliver]
    · simp [Machine.observe, hstep, OverlayState.readings, hpacket, SwarmOp.readings]
    · intro a b
      rw [OverlayState.airborne_update]
      by_cases hgoes : (Packet.mk p v out).goes a b = true
      · have hbetween : p = a ∧ v = b := by simpa [Packet.goes] using hgoes
        obtain ⟨rfl, rfl⟩ := hbetween
        have hsame := herased p v
        rw [if_pos hgoes, hair, Multiset.singleton_add, Multiset.cons_inj_right] at hsame
        rwa [← hsame]
      · have hcovers := hupdated.links a b
        have hsame := herased a b
        rw [if_neg hgoes, zero_add] at hsame
        rwa [OverlayState.airborne_update, hsame] at hcovers

omit [F64 F] [Schema] in
/-- A handler that is changed may lose what it has. -/
theorem set_handler (h : s.Simulated n) {v : P} {index : Nat} {c : HandledConnection P S}
    {handler : Handler P S} (hthere : (s.swarm v).connections[index]? = some c)
    (hreceiver : ∀ h', handler = .Enabled h' →
      ∃ h, c.handler = .Enabled h ∧ h'.send_queue = h.send_queue)
    (hheld : handler.held.toList.Sublist c.handler.held.toList) :
    (s.set_handler v index c handler).Simulated n := by
  obtain ⟨c', hthere', hmatches⟩ := (h.connections v).exists_getElem? hthere
  have hconnections : List.Forall₂ HandledConnection.Matches
      ((s.swarm v).connections.set index { c with handler }) (n.node v).connections := by
    have hset := (h.connections v).set (a := { c with handler }) (b := c')
      ⟨hmatches.peer_id, hmatches.connection_id, by
        intro h' hh'
        obtain ⟨h₀, hh₀, hqueue⟩ := hreceiver h' hh'
        rw [hmatches.receiver h₀ hh₀, hqueue]⟩ index
    rwa [List.set_of_getElem? hthere'] at hset
  have hclaims : ∀ w, (((s.swarm v).connections.set index { c with handler }).flatMap
      (·.claims w)).Subperm ((s.swarm v).connections.flatMap (·.claims w)) := by
    intro w
    have hone : (HandledConnection.claims w { c with handler }).Sublist (c.claims w) := by
      unfold HandledConnection.claims
      dsimp only
      split
      · exact hheld.map _
      · exact .refl _
    refine (List.flatMap_set_perm hthere _ _).subperm.trans ?_
    refine List.Subperm.trans ?_ (List.flatMap_eraseIdx_perm hthere _).symm.subperm
    exact (hone.append_right _).subperm
  have hupdated := h.updated (v := v) { s.swarm v with
    connections := (s.swarm v).connections.set index { c with handler } } (n.node v)
    (h.behaviour v) hconnections hclaims (.refl _)
  rwa [OverlayState.update_self] at hupdated

/-- A handler is told of an event of its connection. -/
theorem connection_event (h : s.Simulated n) {v : P} {index : Nat} {event : ConnectionEvent S}
    {c : HandledConnection P S} {handler : Handler P S}
    (hthere : (s.swarm v).connections[index]? = some c)
    (htold : c.handler.on_connection_event event = some handler) :
    s.Followed o n (.connection_event v index event) (s.set_handler v index c handler) := by
  have hsimulated : (s.set_handler v index c handler).Simulated n := by
    refine h.set_handler hthere ?_ ?_
    · rintro h' rfl
      obtain ⟨h₀, hh₀, hcounted⟩ := Handler.enabled_of_event htold
      exact ⟨h₀, hh₀, hcounted.send_queue⟩
    · cases handler with
      | Disabled d => exact List.nil_sublist _
      | Enabled h' =>
        obtain ⟨h₀, hh₀, hcounted⟩ := Handler.enabled_of_event htold
        have hsame : (Handler.Enabled h').held = (Handler.Enabled h₀).held := hcounted.held
        rw [hh₀, hsame]
  exact hsimulated.followed rfl fun _ => rfl

theorem lose (h : s.Simulated n) (index : Nat) :
    s.Followed o n (.lose index) { s with frames := s.frames.eraseIdx index } := by
  have hclaims : ∀ v w, ({ s with frames := s.frames.eraseIdx index } : Swarms P F S).claims v w ≤
      s.claims v w :=
    Swarms.claims_le (List.eraseIdx_sublist _ _) (fun _ _ => .refl _) (fun _ => .refl _)
  have hsimulated : ({ s with frames := s.frames.eraseIdx index } : Swarms P F S).Simulated n :=
    ⟨h.behaviour, h.connections, fun v w => (h.links v w).mono (hclaims v w) le_rfl⟩
  exact hsimulated.followed rfl fun _ => rfl

theorem forget (h : s.Simulated n) (v : P) (index : Nat) :
    s.Followed o n (.forget v index) (s.update v { s.swarm v with
      handler_events := (s.swarm v).handler_events.eraseIdx index }) := by
  have hsimulated := h.updated (v := v) { s.swarm v with
    handler_events := (s.swarm v).handler_events.eraseIdx index } (n.node v)
    (h.behaviour v) (h.connections v) (fun _ => .refl _) (List.eraseIdx_sublist _ _)
  rw [OverlayState.update_self] at hsimulated
  exact hsimulated.followed rfl fun _ => rfl

end Swarms.Simulated

/-! ## A poll of a handler -/

/-- The swarms when a handler of `v` has done what it does with its queue and its outbound
substream. -/
def Swarms.handed_over (s : Swarms P F S) (v : P) (index : Nat) (c : HandledConnection P S)
    (queue : Sender P) (handler : Handler P S) (deeds : List (Deed P)) : Swarms P F S :=
  { s.update v { s.swarm v with
      behaviour := (s.swarm v).behaviour.set_queue c.peer_id queue
      connections := (s.swarm v).connections.set index { c with handler } } with
    frames := s.frames ++ (handed deeds).map (Frame.mk v c.peer_id) }

section

variable {o : Overlay P F} {s s' : Swarms P F S} {n n' : OverlayState P F} {v : P} {index : Nat}
  {c : HandledConnection P S} {queue queue' : Sender P} {handler : Handler P S}
  {deeds : List (Deed P)}

omit [Libp2p P] [F64 F] [Schema] in
theorem frame_claims_append (a b : P) (frames : List (Frame P)) (rpcs : List proto.RPC) (v p : P) :
    frame_claims a b (frames ++ rpcs.map (Frame.mk v p)) =
      frame_claims a b frames ++ if v = a ∧ p = b then rpcs.map .frame else [] := by
  have hgoes : ∀ rpc, (Frame.mk v p rpc).goes a b = decide (v = a ∧ p = b) := by
    intro rpc
    simp [Frame.goes]
  unfold frame_claims
  simp only [List.filter_append, List.map_append, List.filter_map, Function.comp_def, hgoes]
  split
  · rename_i heq
    simp [heq, Function.comp_def]
  · rename_i hne
    simp [hne]

omit [F64 F] [Schema] in
theorem Swarms.events_handed_over (w : P) :
    ((s.handed_over v index c queue handler deeds).swarm w).handler_events =
      (s.swarm w).handler_events := by
  unfold handed_over update
  by_cases hw : w = v
  · subst hw
    simp
  · simp [hw]

omit [F64 F] [Schema] in
theorem Swarms.connections_handed_over (a : P) :
    ((s.handed_over v index c queue handler deeds).swarm a).connections =
      if v = a then (s.swarm v).connections.set index { c with handler }
      else (s.swarm a).connections := by
  unfold handed_over update
  by_cases ha : v = a
  · subst ha
    simp
  · simp [ha, Ne.symm ha]

omit [F64 F] [Schema] in
/-- What a handler has and hands over is on its link, and the rest stays as it is. -/
theorem Swarms.claims_handed_over (queue : Sender P) (handler : Handler P S)
    (deeds : List (Deed P)) (hthere : (s.swarm v).connections[index]? = some c) :
    ∃ rest : Multiset (Claim P),
      s.claims v c.peer_id = rest + .ofList (outbound_claims [] c.handler.held.toList) ∧
      (s.handed_over v index c queue handler deeds).claims v c.peer_id =
        rest + .ofList (outbound_claims deeds handler.held.toList) := by
  have hbefore : c.claims c.peer_id = c.handler.held.toList.map .frame := if_pos rfl
  have hafter : HandledConnection.claims c.peer_id { c with handler } =
      handler.held.toList.map .frame := if_pos rfl
  have hold := Multiset.coe_eq_coe.mpr (List.flatMap_eraseIdx_perm hthere (·.claims c.peer_id))
  have hnew := Multiset.coe_eq_coe.mpr
    (List.flatMap_set_perm hthere { c with handler } (·.claims c.peer_id))
  rw [hbefore] at hold
  rw [hafter] at hnew
  refine ⟨.ofList (frame_claims v c.peer_id s.frames ++
    (((s.swarm v).connections.eraseIdx index).flatMap (·.claims c.peer_id) ++
      (s.swarm c.peer_id).handler_events.filterMap (event_claim v))), ?_, ?_⟩
  · unfold Swarms.claims outbound_claims
    simp only [← Multiset.coe_add, hold, handed, List.filterMap_nil, List.nil_append]
    ac_rfl
  · have hframes : frame_claims v c.peer_id
        (s.handed_over v index c queue handler deeds).frames =
        frame_claims v c.peer_id s.frames ++ (handed deeds).map .frame := by
      unfold handed_over
      rw [frame_claims_append, if_pos ⟨rfl, rfl⟩]
    unfold Swarms.claims outbound_claims
    rw [events_handed_over, connections_handed_over, if_pos rfl, hframes]
    simp only [← Multiset.coe_add, hnew, List.map_append]
    ac_rfl

omit [F64 F] [Schema] in
theorem Swarms.claims_handed_over_of_ne (hthere : (s.swarm v).connections[index]? = some c)
    {a b : P}
    (hne : ¬ (v = a ∧ c.peer_id = b)) :
    (s.handed_over v index c queue handler deeds).claims a b = s.claims a b := by
  have hframes : frame_claims a b (s.handed_over v index c queue handler deeds).frames =
      frame_claims a b s.frames := by
    unfold handed_over
    rw [frame_claims_append, if_neg hne, List.append_nil]
  have hconnections : Multiset.ofList
      (((s.handed_over v index c queue handler deeds).swarm a).connections.flatMap (·.claims b)) =
      .ofList ((s.swarm a).connections.flatMap (·.claims b)) := by
    rw [connections_handed_over]
    by_cases ha : v = a
    · subst ha
      have hb : c.peer_id ≠ b := fun hb => hne ⟨rfl, hb⟩
      have hbefore : c.claims b = [] := if_neg hb
      have hafter : HandledConnection.claims b { c with handler } = [] := if_neg hb
      have hold := List.flatMap_eraseIdx_perm hthere (·.claims b)
      have hnew := List.flatMap_set_perm hthere { c with handler } (·.claims b)
      rw [hbefore] at hold
      rw [hafter] at hnew
      rw [if_pos rfl]
      exact Multiset.coe_eq_coe.mpr (hnew.trans hold.symm)
    · rw [if_neg ha]
  unfold Swarms.claims
  simp only [← Multiset.coe_add, hframes, hconnections, events_handed_over]

omit [DecidableEq P] [F64 F] [Schema] in
/-- A poll of a disabled handler does nothing. -/
theorem Handler.ReturnsWith.of_disabled {d : DisabledHandler} {io : Framed P S}
    {elapsed : Delay → Bool} {answer : Poll (ConnectionHandlerEvent P)}
    (hreturns :
      (Handler.Disabled d).ReturnsWith io false elapsed queue answer handler queue' deeds) :
    handler = .Disabled d ∧ queue' = queue ∧ deeds = [] := by
  obtain ⟨enough, hrun⟩ := hreturns
  obtain ⟨hpoll, hdeeds⟩ := hrun (enough + 1) (Nat.lt_succ_self enough)
  cases hpoll
  exact ⟨rfl, rfl, hdeeds.symm⟩

/-- What a handler does with its queue and its outbound substream, as polls of its receiver in the
overlay. -/
theorem Swarms.Simulated.hands_over (h : s.Simulated n) (hv : v ∈ o.nodes)
    (hthere : (s.swarm v).connections[index]? = some c)
    (hqueued : (s.swarm v).behaviour.queue c.peer_id = some queue) {io : Framed P S}
    {elapsed : Delay → Bool} {answer : Poll (ConnectionHandlerEvent P)}
    (hreturns : c.handler.ReturnsWith io false elapsed queue answer handler queue' deeds) :
    ∃ ops n', o.machine.Run n ops n' ∧ (∀ op ∈ ops, op.polls = true) ∧
      (s.handed_over v index c queue' handler deeds).Simulated n' := by
  obtain ⟨c', hc, hmatches⟩ := (h.connections v).exists_getElem? hthere
  obtain ⟨rest, hbefore, hafter⟩ := Swarms.claims_handed_over queue' handler deeds hthere
  have hqueue : (n.node v).behaviour.queue c'.peer_id = some queue := by
    rw [h.behaviour, hmatches.peer_id]
    exact hqueued
  -- what holds of the other links, and of the other nodes
  have hfinish : ∀ (n' : OverlayState P F) (d : Connection P),
      (∀ u, u ≠ v → n'.node u = n.node u) →
      (n'.node v).behaviour = (s.swarm v).behaviour.set_queue c.peer_id queue' →
      (n'.node v).connections = (n.node v).connections.set index d →
      HandledConnection.Matches { c with handler } d →
      Multiset.Covers Claim.Met ((s.handed_over v index c queue' handler deeds).claims v c.peer_id)
        (n'.airborne v c.peer_id) →
      (∀ a b, ¬ (v = a ∧ c.peer_id = b) → n'.airborne a b = n.airborne a b) →
      (s.handed_over v index c queue' handler deeds).Simulated n' := by
    intro n' d hnodes hbehaviour hconnections hd hlink hlinks
    refine ⟨?_, ?_, ?_⟩
    · intro u
      unfold Swarms.handed_over Swarms.update
      by_cases hu : u = v
      · subst hu
        simpa using hbehaviour
      · simpa [hu, hnodes u hu] using h.behaviour u
    · intro u
      rw [Swarms.connections_handed_over]
      by_cases hu : v = u
      · subst hu
        rw [if_pos rfl, hconnections]
        exact (h.connections v).set hd index
      · rw [if_neg hu, hnodes u (Ne.symm hu)]
        exact h.connections u
    · intro a b
      by_cases hab : v = a ∧ c.peer_id = b
      · obtain ⟨rfl, rfl⟩ := hab
        exact hlink
      · rw [Swarms.claims_handed_over_of_ne hthere hab, hlinks a b hab]
        exact h.links a b
  cases hhandler : c.handler with
  | Disabled d =>
    rw [hhandler] at hreturns hbefore
    obtain ⟨rfl, rfl, rfl⟩ := hreturns.of_disabled
    refine ⟨[], n, .nil n, by simp, hfinish n c' (fun _ _ => rfl) ?_ ?_ ?_ ?_ (fun _ _ _ => rfl)⟩
    · rw [h.behaviour, Behaviour.set_queue_of_queue hqueued]
    · rw [List.set_of_getElem? hc]
    · exact ⟨hmatches.peer_id, hmatches.connection_id, by rintro h' ⟨⟩⟩
    · rw [hafter, ← hbefore]
      exact h.links v c.peer_id
  | Enabled h₀ =>
    rw [hhandler] at hreturns hbefore
    rcases hreturns.cases with ⟨h₁, h', fuel, hh₁, rfl, hpoll, hdeeds⟩ | ⟨d, hd, -⟩
    · cases hh₁
      have hcovers : Multiset.Covers Claim.Met (rest + .ofList (outbound_claims [] h₀.held.toList))
          (n.airborne v c.peer_id) := by
        have hlink := h.links v c.peer_id
        rwa [hbefore] at hlink
      obtain ⟨ops, outs, hrun, hpolls, hcovers'⟩ := EnabledHandler.poll_tracks hv hc hqueue
        (hmatches.receiver h₀ hhandler) hcovers hpoll
      rw [hdeeds] at hcovers'
      refine ⟨ops, _, hrun, hpolls,
        hfinish _ { c' with receiver := h'.send_queue } ?_ ?_ ?_ ?_ ?_ ?_⟩
      · intro u hu
        simp [OverlayState.polled, hu]
      · simp [OverlayState.polled, h.behaviour, hmatches.peer_id]
      · simp [OverlayState.polled]
      · exact ⟨hmatches.peer_id, hmatches.connection_id, by rintro h'' ⟨⟩; rfl⟩
      · rw [hafter, OverlayState.airborne_polled, if_pos ⟨rfl, hmatches.peer_id⟩]
        exact hcovers'
      · intro a b hab
        rw [OverlayState.airborne_polled, hmatches.peer_id, if_neg hab, add_zero]
    · cases hd

omit [F64 F] in
/-- What a handler reads was a frame on its link, and is told as it was sent. -/
theorem Swarms.Simulated.reads (h : s.Simulated n) (hair : ∀ packet ∈ n.air, packet.rpc.ReadBack)
    {validation_mode : ValidationMode} {p : P} {answer : Poll (ConnectionHandlerEvent P)}
    (hreads : Reads validation_mode v p s.frames answer s'.frames)
    (hbehaviour : ∀ u, (s'.swarm u).behaviour = (s.swarm u).behaviour)
    (hconnections : ∀ u, (s'.swarm u).connections = (s.swarm u).connections)
    (hevents : ∀ u, (s'.swarm u).handler_events = (s.swarm u).handler_events ++
      if v = u then (handler_event answer).toList.map (p, ·) else []) : s'.Simulated n := by
  have hclaims : ∀ a b, s'.claims a b = .ofList (frame_claims a b s'.frames) +
      .ofList ((s.swarm a).connections.flatMap (·.claims b)) +
      .ofList ((s.swarm b).handler_events.filterMap (event_claim a)) +
      .ofList ((if v = b then (handler_event answer).toList.map (p, ·) else []).filterMap
        (event_claim a)) := by
    intro a b
    unfold Swarms.claims
    rw [hconnections, hevents]
    simp only [List.filterMap_append, ← Multiset.coe_add, add_assoc]
  refine ⟨fun u => (h.behaviour u).trans (hbehaviour u).symm, fun u => ?_, fun a b => ?_⟩
  · rw [hconnections]
    exact h.connections u
  · generalize s'.frames = frames at hreads hclaims
    rw [hclaims]
    cases hreads with
    | nothing answer no_rpc =>
      have hnone : (if v = b then (handler_event answer).toList.map (p, ·) else []).filterMap
          (event_claim a) = [] := by
        split
        · cases hanswer : handler_event answer with
          | none => rfl
          | some event =>
            cases event with
            | Transaction rpc invalid => exact absurd hanswer (no_rpc rpc invalid)
            | TransactionDropped rpc => rfl
        · rfl
      rw [hnone, Multiset.coe_nil, add_zero, Multiset.coe_add, Multiset.coe_add]
      exact h.links a b
    | frame i random frame rpc invalid there sender recipient decoded =>
      have hlink := h.links a b
      have herased := Multiset.coe_filter_map_eraseIdx there (·.goes a b)
        (fun frame => (Claim.frame frame.rpc : Claim P))
      have hgoes : frame.goes a b = decide (p = a ∧ v = b) := by
        simp [Frame.goes, sender, recipient]
      rw [hgoes] at herased
      unfold Swarms.claims at hlink
      rw [← Multiset.coe_add, ← Multiset.coe_add] at hlink
      unfold frame_claims at hlink ⊢
      rw [herased] at hlink
      by_cases hab : p = a ∧ v = b
      · obtain ⟨rfl, rfl⟩ := hab
        have hclaim : [(p, HandlerEvent.Transaction rpc invalid)].filterMap (event_claim p) =
            [.event rpc] := by
          simp [event_claim]
        have hevent : (handler_event (P := P) (.Ready (.NotifyBehaviour
          (.Transaction rpc invalid)))).toList.map (p, ·) = [(p, .Transaction rpc invalid)] := rfl
        rw [if_pos rfl, hevent, hclaim, Multiset.coe_singleton, add_comm, Multiset.singleton_add]
        rw [if_pos (by simp), Multiset.singleton_add, Multiset.cons_add, Multiset.cons_add] at hlink
        refine hlink.replace ?_
        -- the frame and what is read of it are the same RPC
        intro out hout hmet
        obtain ⟨j, hpacket⟩ := OverlayState.exists_packet hout
        have hread := hair _ (List.mem_of_getElem? hpacket) validation_mode random
        have hmet : out.into_protobuf = frame.rpc := hmet
        rw [hmet, decoded] at hread
        exact (HandlerEvent.Transaction.inj hread).1.symm
      · rw [if_neg (by simpa using hab), zero_add] at hlink
        have hnone : (if v = b then (handler_event (P := P) (.Ready (.NotifyBehaviour
            (.Transaction rpc invalid)))).toList.map (p, ·) else []).filterMap (event_claim a) =
              [] := by
          split
          · rename_i hb
            have hp : p ≠ a := fun hp => hab ⟨hp, hb⟩
            simp [handler_event, event_claim, hp]
          · rfl
        rw [hnone, Multiset.coe_nil, add_zero]
        exact hlink

/-- A handler is polled. -/
theorem Swarms.Simulated.poll (hlaws : Libp2p.Lawful P) {before : List (OverlayOp P)}
    (hrun : o.machine.Run o.initial before n) (h : s.Simulated n) (hv : v ∈ o.nodes)
    (hthere : (s.swarm v).connections[index]? = some c)
    (hqueued : (s.swarm v).behaviour.queue c.peer_id = some queue) {io : Framed P S}
    {elapsed : Delay → Bool} {answer : Poll (ConnectionHandlerEvent P)}
    (hreturns : c.handler.ReturnsWith io false elapsed queue answer handler queue' deeds)
    {validation_mode : ValidationMode} {frames : List (Frame P)}
    (hreads : Reads validation_mode v c.peer_id
      (s.frames ++ (handed deeds).map (Frame.mk v c.peer_id)) answer frames) :
    s.Followed o n (.poll v index io elapsed)
      { s.update v {
          behaviour := (s.swarm v).behaviour.set_queue c.peer_id queue'
          connections := (s.swarm v).connections.set index { c with handler }
          handler_events := (s.swarm v).handler_events ++
            (handler_event answer).toList.map (c.peer_id, ·) } with
        frames } := by
  obtain ⟨ops, n', hsteps, hpolls, hhanded⟩ := h.hands_over hv hthere hqueued hreturns
  have hair := Overlay.air_read_back hlaws (hrun.append hsteps)
  refine ⟨ops, n', fun _ => [], Overlay.follows_of_polls hsteps hpolls,
    fun w => (List.append_nil _).symm, ?_⟩
  refine hhanded.reads (v := v) hair hreads ?_ ?_ ?_
  · intro u
    unfold Swarms.handed_over Swarms.update
    by_cases hu : u = v
    · subst hu
      simp
    · simp [hu]
  · intro u
    rw [Swarms.connections_handed_over]
    unfold Swarms.update
    by_cases hu : v = u
    · subst hu
      simp
    · simp [hu, Ne.symm hu]
  · intro u
    rw [Swarms.events_handed_over]
    unfold Swarms.update
    by_cases hu : v = u
    · subst hu
      simp
    · simp [hu, Ne.symm hu]

/-- Each operation of the swarms is done by steps of the overlay. -/
theorem Swarms.Simulated.step (hlaws : Libp2p.Lawful P) {before : List (OverlayOp P)}
    (hrun : o.machine.Run o.initial before n) (h : s.Simulated n) {op : SwarmOp P S}
    (hstep : Swarms.Step o s op s') : s.Followed o n op s' := by
  cases hstep with
  | call member of_swarm called => exact h.call member of_swarm called
  | notify member there => exact h.notify member there
  | poll member there queued returns reads =>
    exact h.poll hlaws hrun member there queued returns reads
  | connection_event there event_told => exact h.connection_event there event_told
  | lose index => exact h.lose index
  | forget v index => exact h.forget v index

end

/-! ## Whole runs -/

section

variable {o : Overlay P F} {s : Swarms P F S} {n : OverlayState P F}

/-- The events that `v` hands out in a run of the overlay. -/
def Overlay.handed_out (o : Overlay P F) (v : P) (ops : List (OverlayOp P)) : List (Event P) :=
  Machine.observe o.step (OverlayState.hands_out v) o.initial ops

/-- What a node was told waits, or was handed out. -/
theorem Overlay.told_eq {ops : List (OverlayOp P)} (hrun : o.machine.Run o.initial ops n) (v : P) :
    o.told v ops = o.handed_out v ops ++ (n.node v).behaviour.events := by
  have hsteps : ∀ n op n', o.step n op = some n' →
      (o.setup v).machine.Run (n.node v) (n.part v op) (n'.node v) :=
    fun _ _ _ hstep => step_part hstep v
  have hseen : o.handed_out v ops =
      Machine.observe Node.step Node.emitted (o.setup v).node (o.part v ops) :=
    Machine.Run.observe_component hsteps hrun
  have htold : o.told v ops = (o.setup v).pushed (o.part v ops) (n.node v) :=
    generated_of_run (run_part hrun v)
  rw [htold, hseen]
  rfl

/-- A node is told of a transaction from each peer at most once. -/
theorem Overlay.received_le_one {ops : List (OverlayOp P)} (hrun : o.machine.Run o.initial ops n)
    {start : Nat} (hwindow : o.InWindow start ops) (v w : P) (id : TransactionId) :
    (o.told w ops).countP (·.received_from v id) ≤ 1 := by
  have hcopies := copies_of_run hrun v w id
  have honce := (told_sent_le hrun hwindow v w id).1
  rw [← told_received hrun, ← told_sent hrun] at hcopies
  omega

omit [Schema] in
theorem Swarms.simulated_initial (o : Overlay P F) :
    (Swarms.initial o : Swarms P F S).Simulated o.initial where
  behaviour _ := rfl
  connections _ := .nil
  links _ _ := .zero _ _

theorem Swarms.simulated_of_run (hlaws : Libp2p.Lawful P) {ops : List (SwarmOp P S)}
    (hrun : (Swarms.machine o).Run (Swarms.initial o) ops s) :
    ∃ steps n,
      o.Follows o.initial n (ops.flatMap (·.calls)) s.told (ops.flatMap (·.readings)) steps ∧
      s.Simulated n := by
  induction hrun with
  | nil =>
    exact ⟨[], o.initial, ⟨.nil _, rfl, fun _ => rfl, List.nil_subset _⟩,
      Swarms.simulated_initial o⟩
  | @snoc s s' ops op hrun hstep ih =>
    obtain ⟨steps, n, hfollows, hsimulated⟩ := ih
    obtain ⟨more, n', told, hmore, htold, hsimulated'⟩ :=
      hsimulated.step hlaws hfollows.run hstep
    refine ⟨steps ++ more, n', ?_, hsimulated'⟩
    have hboth := hfollows.trans hmore
    have hsame : s'.told = fun v => s.told v ++ told v := funext htold
    rwa [hsame, List.flatMap_append, List.flatMap_singleton, List.flatMap_append,
      List.flatMap_singleton]

omit [F64 F] [Schema] in
/-- A frame on a substream is in the air. -/
theorem Swarms.Simulated.frame_in_air (h : s.Simulated n) {frame : Frame P}
    (hframe : frame ∈ s.frames) : ∃ packet ∈ n.air, packet.sender = frame.sender ∧
      packet.recipient = frame.recipient ∧ packet.rpc.into_protobuf = frame.rpc := by
  have hclaim : .frame frame.rpc ∈ s.claims frame.sender frame.recipient := by
    have hsent : Claim.frame frame.rpc ∈
        (frame_claims frame.sender frame.recipient s.frames : List (Claim P)) :=
      List.mem_map.mpr ⟨frame, List.mem_filter.mpr ⟨hframe, by simp [Frame.goes]⟩, rfl⟩
    exact Multiset.mem_coe.mpr (List.mem_append_left _ (List.mem_append_left _ hsent))
  obtain ⟨others, hothers⟩ := Multiset.exists_cons_of_mem hclaim
  have hlink := h.links frame.sender frame.recipient
  rw [hothers] at hlink
  obtain ⟨out, rest, hair, hmet, -⟩ := hlink.take
  obtain ⟨i, hpacket⟩ := OverlayState.exists_packet
    (hair ▸ Multiset.mem_cons_self out rest : out ∈ n.airborne frame.sender frame.recipient)
  exact ⟨_, List.mem_of_getElem? hpacket, rfl, rfl, hmet⟩

end

end

/-! ## Two swarms to run -/

namespace Sample

def never : Delay → Bool := fun _ => false

/-- What node 0 publishes, as it arrives. -/
def arrived : Rpc Peer := { transactions := [raw 0 1], control_msgs := [] }

/-- The answers of a substream from which it is read. -/
def reading : Framed Peer Unit :=
  { idle_streams with poll_next := fun _ => (.Ready (some (.ok (.Transaction arrived []))), ()) }

/-- Two nodes connect, and node 0 publishes; its handler asks for a substream, takes the transaction
and sends it, and the handler of node 1 reads it. -/
def one_frame : List (SwarmOp Peer Unit) :=
  [.call ⟨0⟩ (.handle_established_inbound_connection ⟨1⟩ ⟨1⟩),
    .call ⟨1⟩ (.handle_established_inbound_connection ⟨0⟩ ⟨0⟩), .call ⟨0⟩ (.publish 0 [0]),
    .poll ⟨0⟩ 0 idle_streams never, .connection_event ⟨0⟩ 0 (.FullyNegotiatedOutbound ()),
    .connection_event ⟨1⟩ 0 (.FullyNegotiatedInbound (.inl ())), .poll ⟨0⟩ 0 ready_streams never,
    .poll ⟨1⟩ 0 idle_streams never, .poll ⟨1⟩ 0 reading never, .notify ⟨1⟩ 0 0 0,
    .call ⟨1⟩ (.poll 0 0 false)]

theorem returns_with {handler handler' : Handler Peer Unit} {io : Framed Peer Unit}
    {queue queue' : Sender Peer} (answer : Poll (ConnectionHandlerEvent Peer))
    (h : handler.poll io false never 4 queue = some (.Returned answer handler' queue')) :
    handler.ReturnsWith io false never queue answer handler' queue'
      (handler.poll_deeds io false never 4 queue) :=
  .of_poll h

theorem raw_read_back (timeout : Delay) : (RpcOut.Publish (raw 0 1) timeout).ReadBack := by
  apply RpcOut.read_back
  rintro tx ⟨⟩
  have hbuild : (PublishConfig.from_authenticity 0
      (.Signed (⟨0⟩ : Peer))).build_raw_transaction [0] =
      some (.ok (raw 0 1), .from_authenticity 1 (.Signed (⟨0⟩ : Peer))) := rfl
  obtain ⟨hnormal, hstrict⟩ := signed_passes lawful hbuild
  refine ⟨hnormal, ?_⟩
  rintro (_ | _)
  · exact hstrict
  · exact passes_none lawful.from_bytes _

theorem one_frame_runs : ∃ s : Swarms Peer Rat Unit,
    (Swarms.machine (overlay [⟨0⟩, ⟨1⟩])).Run (Swarms.initial (overlay [⟨0⟩, ⟨1⟩])) one_frame s ∧
      .TransactionReceived ⟨0⟩ (tx_id 0 1) { from_ := ⟨0⟩, seqno := 1, data := [0] } ∈
        s.told ⟨1⟩ := by
  refine ⟨?s, ?run, ?told⟩
  case run =>
    refine .cons (.call (by decide) rfl rfl) ?_
    refine .cons (.call (by decide) rfl rfl) ?_
    refine .cons (.call (by decide) rfl rfl) ?_
    -- each handler first asks for its outbound substream
    refine .cons (.poll (by decide) rfl rfl (returns_with _ rfl)
      (.nothing _ (by rintro _ _ ⟨⟩))) ?_
    refine .cons (.connection_event rfl rfl) ?_
    refine .cons (.connection_event rfl rfl) ?_
    refine .cons (.poll (by decide) rfl rfl (returns_with _ rfl)
      (.nothing _ (by rintro _ _ ⟨⟩))) ?_
    refine .cons (.poll (by decide) rfl rfl (returns_with _ rfl)
      (.nothing _ (by rintro _ _ ⟨⟩))) ?_
    apply Machine.Run.cons
    · apply Swarms.Step.poll (by decide) rfl rfl
        (returns_with (.Ready (.NotifyBehaviour (.Transaction arrived []))) rfl)
      apply Reads.frame 0 (fun _ => (⟨0⟩ : Peer))
        { sender := ⟨0⟩, recipient := ⟨1⟩, rpc := (raw 0 1).into_rpc }
      · decide +kernel
      · rfl
      · rfl
      · exact raw_read_back ⟨0, 0⟩ _ _
    · refine .cons (.notify (by decide) rfl) ?_
      refine .cons (.call (by decide) rfl rfl) ?_
      exact .nil _
  case told => decide +kernel

end Sample

/-- Whatever the handlers, the substreams and the codecs do, and whatever they lose: the behaviours
of the swarms are those of a run of the overlay in which they get the same calls, read no other
clocks and hand out the same events; and what is on the substreams is in the air. -/
theorem the_swarms_refine_the_overlay {P F S : Type} [Libp2p P] [DecidableEq P] [F64 F] [Schema]
    {o : Overlay P F} (hlaws : Libp2p.Lawful P) {s : Swarms P F S} {ops : List (SwarmOp P S)}
    (hrun : (Swarms.machine o).Run (Swarms.initial o) ops s) :
    ∃ steps n, o.machine.Run o.initial steps n ∧
      steps.flatMap (·.calls) = ops.flatMap (·.calls) ∧
      o.readings steps ⊆ ops.flatMap (·.readings) ∧
      (∀ v, (n.node v).behaviour = (s.swarm v).behaviour ∧ o.handed_out v steps = s.told v) ∧
      ∀ frame ∈ s.frames, ∃ packet ∈ n.air, packet.sender = frame.sender ∧
        packet.recipient = frame.recipient ∧ packet.rpc.into_protobuf = frame.rpc := by
  obtain ⟨steps, n, hfollows, hsimulated⟩ := Swarms.simulated_of_run hlaws hrun
  exact ⟨steps, n, hfollows.run, hfollows.calls, hfollows.readings,
    fun v => ⟨hsimulated.behaviour v, hfollows.told v⟩, fun _ => hsimulated.frame_in_air⟩

theorem two_swarms_refine_two_nodes :
    let o := Sample.overlay [⟨0⟩, ⟨1⟩]
    ∃ s : Swarms Sample.Peer Rat Unit,
      (Swarms.machine o).Run (Swarms.initial o) Sample.one_frame s ∧
      ∃ steps n, o.machine.Run o.initial steps n ∧
        steps.flatMap (·.calls) = Sample.one_frame.flatMap (·.calls) ∧
        o.readings steps ⊆ Sample.one_frame.flatMap (·.readings) ∧
        (∀ v, (n.node v).behaviour = (s.swarm v).behaviour ∧ o.handed_out v steps = s.told v) ∧
        ∀ frame ∈ s.frames, ∃ packet ∈ n.air, packet.sender = frame.sender ∧
          packet.recipient = frame.recipient ∧ packet.rpc.into_protobuf = frame.rpc := by
  obtain ⟨s, hrun, -⟩ := Sample.one_frame_runs
  exact ⟨s, hrun, the_swarms_refine_the_overlay Sample.lawful hrun⟩

/-- With the handlers, the substreams and the codecs in place: what the user of a node is told to
have come from a peer, its author was called to publish with just this data; and as long as no entry
of a cache expires, the user is told of it once for the peer. -/
theorem a_user_is_told_what_was_published {P F S : Type} [Libp2p P] [DecidableEq P] [F64 F] [Schema]
    {o : Overlay P F} (hlaws : Libp2p.Lawful P) {s : Swarms P F S} {ops : List (SwarmOp P S)}
    (hrun : (Swarms.machine o).Run (Swarms.initial o) ops s) {w p : P} {id : TransactionId}
    {tx : Transaction P} (h : .TransactionReceived p id tx ∈ s.told w) :
    id = o.transaction_id_fn tx ∧ tx.from_ ∈ o.nodes ∧
      (∃ now, .call tx.from_ (.publish now tx.data) ∈ ops) ∧
      ∀ start, Swarms.InWindow o start ops → (s.told w).countP (·.received_from p id) = 1 := by
  obtain ⟨steps, n, hfollows, hsimulated⟩ := Swarms.simulated_of_run hlaws hrun
  have htold := Overlay.told_eq hfollows.run w
  have hhanded : o.handed_out w steps = s.told w := hfollows.told w
  rw [hhanded] at htold
  have hmem : .TransactionReceived p id tx ∈ o.told w steps := by
    rw [htold]
    exact List.mem_append_left _ h
  obtain ⟨raw, data, -, hmade, rfl, rfl⟩ := Overlay.received_of_told hfollows.run hmem
  obtain ⟨hnode, -, -⟩ := (Overlay.sourced_of_run hfollows.run).authored.authors _ hmade
  refine ⟨rfl, hnode, ?_, ?_⟩
  · obtain ⟨before, now, after, -, -, -, hsteps, -⟩ := Overlay.publishes_of_made hfollows.run hmade
    have hcalled : (raw.from_, Call.publish now data) ∈ steps.flatMap (·.calls) := by
      rw [hsteps]
      simp [OverlayOp.calls, Call.of_swarm]
    rw [hfollows.calls] at hcalled
    obtain ⟨op, hop, hcalls⟩ := List.mem_flatMap.mp hcalled
    cases op with
    | call v c =>
      obtain ⟨rfl, rfl⟩ := Prod.mk.inj (List.mem_singleton.mp hcalls)
      exact ⟨now, hop⟩
    | _ => cases hcalls
  · intro start hwindow
    have hsteps : o.InWindow start steps := fun r hr => hwindow r (hfollows.readings hr)
    have hle := Overlay.received_le_one hfollows.run hsteps p w
      (o.transaction_id_fn { from_ := raw.from_, seqno := raw.seqno, data })
    rw [htold, List.countP_append] at hle
    have hpos : 0 < (s.told w).countP (·.received_from p
        (o.transaction_id_fn { from_ := raw.from_, seqno := raw.seqno, data })) :=
      List.countP_pos_iff.mpr ⟨_, h, by simp [Event.received_from]⟩
    omega

/-- Node 0 publishes, and the user of node 1 is told. -/
theorem a_swarm_is_told_what_was_published :
    let o := Sample.overlay [⟨0⟩, ⟨1⟩]
    ∃ s : Swarms Sample.Peer Rat Unit,
      (Swarms.machine o).Run (Swarms.initial o) Sample.one_frame s ∧
      .TransactionReceived ⟨0⟩ (Sample.tx_id 0 1) { from_ := ⟨0⟩, seqno := 1, data := [0] } ∈
        s.told ⟨1⟩ ∧
      Sample.tx_id 0 1 = o.transaction_id_fn { from_ := ⟨0⟩, seqno := 1, data := [0] } ∧
      ⟨0⟩ ∈ o.nodes ∧ (∃ now, .call ⟨0⟩ (.publish now [0]) ∈ Sample.one_frame) ∧
      (s.told ⟨1⟩).countP (·.received_from ⟨0⟩ (Sample.tx_id 0 1)) = 1 := by
  intro o
  obtain ⟨s, hrun, htold⟩ := Sample.one_frame_runs
  obtain ⟨hid, hnode, hcalled, honce⟩ := a_user_is_told_what_was_published Sample.lawful hrun htold
  have hwindow : Swarms.InWindow o 0 Sample.one_frame := by
    unfold Swarms.InWindow
    decide
  exact ⟨s, hrun, htold, hid, hnode, hcalled, honce 0 hwindow⟩

end libp2p_dog
