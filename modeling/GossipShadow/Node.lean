-- One node as the swarm runs it: the behaviour, and the receivers that the
-- handlers of its connections hold. A run is any order of calls of the
-- behaviour and polls of the receivers.
import GossipShadow.Lib.Machine
import GossipShadow.Routing

namespace libp2p_dog

/-- The calls of the behaviour, by the user and by the swarm. -/
inductive Call (P : Type) where
  | publish (now : Nat) (data : Bytes)
  | handle_established_inbound_connection (connection_id : ConnectionId) (peer_id : P)
  | handle_established_outbound_connection (connection_id : ConnectionId) (peer : P)
  | on_swarm_event (now draw : Nat) (event : FromSwarm P)
  | on_connection_handler_event (clock : Nat → Nat) (draw : Nat) (propagation_source : P)
      (event : HandlerEvent P)
  | poll (now draw : Nat) (redundancy_interval : Bool)

/-- The handler's end of the queue, for one connection. -/
structure Connection (P : Type) where
  peer_id : P
  connection_id : ConnectionId
  receiver : Receiver P

structure Node (P F : Type) [Libp2p P] where
  behaviour : Behaviour P F
  connections : List (Connection P)

/-- What a node does in one step. The polls name a connection by its place. -/
inductive Op (P : Type) where
  | call (c : Call P)
  | poll_next (index : Nat)
  | poll_stale (index : Nat) (elapsed : Delay → Bool)
  | poll_is_empty (index : Nat)

/-- What a call lets one see; a poll of a receiver lets one see nothing. -/
def Op.on_call {P α : Type} (see : Call P → List α) : Op P → List α
  | .call c => see c
  | _ => []

theorem Op.on_call_eq_nil {P α : Type} {op : Op P} (h : ∀ c, op ≠ .call c)
    (see : Call P → List α) : op.on_call see = [] := by
  cases op with
  | call c => exact absurd rfl (h c)
  | poll_next index => rfl
  | poll_stale index elapsed => rfl
  | poll_is_empty index => rfl

/-- The RPC as the behaviour of the receiver gets it. The codec takes out a transaction that is not
valid. -/
def RpcOut.arrival {P : Type} (valid : Bool) : RpcOut P → Rpc P
  | .Publish tx _ => { transactions := if valid then [tx] else [], control_msgs := [] }
  | .Forward tx _ => { transactions := if valid then [tx] else [], control_msgs := [] }
  | .HaveTx have_tx => { transactions := [], control_msgs := [.HaveTx have_tx] }
  | .ResetRoute reset_route => { transactions := [], control_msgs := [.ResetRoute reset_route] }

/-- What a node is made with. -/
structure Setup (P F : Type) [Libp2p P] where
  clock : UInt64
  authenticity : TransactionAuthenticity P
  config : Config P F
  metrics : Bool
  data_transform : DataTransform P

section

variable {P F : Type} [Libp2p P] [DecidableEq P] [F64 F] [Schema]

/-- The state after a call; `none` is a panic. -/
def Behaviour.call (b : Behaviour P F) : Call P → Option (Behaviour P F)
  | .publish now data => (b.publish now data).map (·.2)
  | .handle_established_inbound_connection connection_id peer_id =>
    some (b.handle_established_inbound_connection connection_id peer_id).2
  | .handle_established_outbound_connection connection_id peer =>
    some (b.handle_established_outbound_connection connection_id peer).2
  | .on_swarm_event now draw event => some (b.on_swarm_event now draw event)
  | .on_connection_handler_event clock draw propagation_source event =>
    some (b.on_connection_handler_event clock draw propagation_source event)
  | .poll now draw redundancy_interval => some (b.poll now draw redundancy_interval).2

/-! ## What a call does -/

/-- The calls that leave the routes, the queues, the cache and the redundancy alone. -/
def Behaviour.idles (b : Behaviour P F) : Call P → Bool
  | .on_swarm_event _ _ (.ConnectionClosed _ _ 0) => false
  | .on_swarm_event _ _ _ => true
  | .on_connection_handler_event _ _ _ (.TransactionDropped _) => true
  | .poll _ _ redundancy_interval => !(redundancy_interval && b.events.isEmpty)
  | _ => false

/-- The calls, by the part of the behaviour that does the work. -/
inductive Behaviour.Called (b : Behaviour P F) : Call P → Behaviour P F → Prop
  | published {b' : Behaviour P F} (now : Nat) (data : Bytes)
      (answer : Except PublishError TransactionId)
      (publish : b.publish now data = some (answer, b')) : Called b (.publish now data) b'
  | joined {c : Call P} (connection_id : ConnectionId) (p : P)
      (call : c = .handle_established_inbound_connection connection_id p ∨
        c = .handle_established_outbound_connection connection_id p) :
      Called b c (b.handle_established_connection connection_id p).2
  | left (now draw : Nat) (p : P) (connection_id : ConnectionId) :
      Called b (.on_swarm_event now draw (.ConnectionClosed p connection_id 0))
        (((b.disconnect p).adjust_redundancy now draw).with_metrics (·.dec_peers_count))
  | rpc (clock : Nat → Nat) (draw : Nat) (source : P) (rpc : Rpc P)
      (invalid : List (RawTransaction P × ValidationError)) :
      Called b (.on_connection_handler_event clock draw source (.Transaction rpc invalid))
        (b.on_rpc clock draw source rpc)
  | ticked (now draw : Nat) (events : b.events = []) :
      Called b (.poll now draw true) (b.adjust_redundancy now draw)
  | idle {c : Call P} {b' : Behaviour P F} (idles : b.idles c = true) (sends : Sends b [] b')
      (router : b'.router = b.router) (cache : b'.cache = b.cache)
      (controller : b'.redundancy_controller = b.redundancy_controller) : Called b c b'

/-- A connection that closes while others of the peer stay open changes no queue. -/
theorem closed_sends (b : Behaviour P F) (now draw : Nat) (p : P) (connection_id : ConnectionId)
    (remaining : Nat) :
    Sends b [] (b.on_connection_closed now draw p connection_id (remaining + 1)) := by
  refine ⟨rfl, rfl, rfl, Table.keys_modify _ _ _, (List.append_nil _).symm, ?_, by simp⟩
  intro q
  unfold Behaviour.queue Behaviour.on_connection_closed
  simp only [ne_eq, Nat.succ_ne_zero, not_false_eq_true, if_true, Table.lookup_modify, enqueued_nil,
    Sender.push_nil]
  by_cases hq : q = p
  · subst hq
    cases b.connected_peers.lookup q <;> simp
  · simp [hq]
    rfl

theorem Behaviour.call_cases {b b' : Behaviour P F} {c : Call P} (h : b.call c = some b') :
    b.Called c b' := by
  cases c with
  | publish now data =>
    obtain ⟨⟨answer, after⟩, hpublish, rfl⟩ := Option.map_eq_some_iff.mp h
    exact .published now data answer hpublish
  | handle_established_inbound_connection connection_id peer_id =>
    cases h
    exact .joined connection_id peer_id (.inl rfl)
  | handle_established_outbound_connection connection_id peer =>
    cases h
    exact .joined connection_id peer (.inr rfl)
  | on_swarm_event now draw event =>
    cases h
    cases event with
    | ConnectionEstablished peer_id => exact .idle rfl (with_metrics_sends _ b) rfl rfl rfl
    | ConnectionClosed peer_id connection_id remaining_established =>
      cases remaining_established with
      | zero => exact .left now draw peer_id connection_id
      | succ remaining =>
        exact .idle rfl (closed_sends b now draw peer_id connection_id remaining) rfl rfl rfl
    | Other => exact .idle rfl (Sends.refl b) rfl rfl rfl
  | on_connection_handler_event clock draw source event =>
    cases h
    cases event with
    | Transaction rpc invalid => exact .rpc clock draw source rpc invalid
    | TransactionDropped rpc =>
      refine .idle rfl (.none ?_ ?_ ?_ ?_ ?_) ?_ ?_ ?_ <;> cases rpc <;> rfl
  | poll now draw redundancy_interval =>
    cases h
    unfold poll
    cases hevents : b.events with
    | cons event events =>
      refine .idle ?_ (.none rfl rfl rfl rfl rfl) rfl rfl rfl
      simp [idles, hevents]
    | nil =>
      cases redundancy_interval with
      | false => exact .idle rfl (Sends.refl b) rfl rfl rfl
      | true => exact .ticked now draw hevents

/-! ## What a call does to the routes -/

/-- The calls, by what they do to the peers and to the routes: most only send; one kind adds a peer,
one removes it, and the RPCs change the routes to their sender. -/
inductive Routed (b : Behaviour P F) : Call P → Behaviour P F → Prop
  | sends {c : Call P} {b' : Behaviour P F} (new : List (Attempt P)) (sends : Sends b new b')
      (tallies : Tallies b new b')
      (routes : b'.router.disabled_routes = b.router.disabled_routes) : Routed b c b'
  | joined {c : Call P} (connection_id : ConnectionId) (p : P)
      (call : c = .handle_established_inbound_connection connection_id p ∨
        c = .handle_established_outbound_connection connection_id p) :
      Routed b c (b.handle_established_connection connection_id p).2
  | left {b' : Behaviour P F} (now draw : Nat) (p : P) (connection_id : ConnectionId)
      (new : List (Attempt P)) (sends : Sends (b.disconnect p) new b')
      (tallies : Tallies (b.disconnect p) new b')
      (routes : b'.router.disabled_routes = (b.disconnect p).router.disabled_routes) :
      Routed b (.on_swarm_event now draw (.ConnectionClosed p connection_id 0)) b'
  | rpc {b' : Behaviour P F} (clock : Nat → Nat) (draw : Nat) (source : P) (rpc : Rpc P)
      (invalid : List (RawTransaction P × ValidationError)) (new : List (Attempt P))
      (sends : Sends b new b') (tallies : Tallies b new b')
      (routes :
        b'.router.disabled_routes = b.router.disabled_routes ++ b.rpc_routes clock source rpc ∧
          (Behaviour.has_reset_route rpc.control_msgs = true →
            ∀ route ∈ b.router.disabled_routes ++ b.rpc_routes clock source rpc,
              route.target ≠ source) ∨
        Behaviour.has_reset_route rpc.control_msgs = true ∧ ∃ before route after,
          b.router.disabled_routes ++ b.rpc_routes clock source rpc = before ++ route :: after ∧
          route.target = source ∧ b'.router.disabled_routes = before ++ after) :
      Routed b (.on_connection_handler_event clock draw source (.Transaction rpc invalid)) b'

omit [Libp2p P] [DecidableEq P] [Schema] in
/-- At most one of the routes is enabled: what is left of them is in its order. -/
theorem routes_sublist {all routes : List (Route P)} {kept reset : Prop} {enables : Route P → Prop}
    (h : routes = all ∧ kept ∨ reset ∧ ∃ before route after,
      all = before ++ route :: after ∧ enables route ∧ routes = before ++ after) :
    routes.Sublist all := by
  rcases h with ⟨rfl, -⟩ | ⟨-, before, route, after, rfl, -, rfl⟩
  · exact List.Sublist.refl _
  · exact List.Sublist.append_left (List.sublist_cons_self _ _) _

/-- A call that changes neither the routes nor the queues only sends. -/
theorem Routed.quiet {b b' : Behaviour P F} {c : Call P} (h : Sends b [] b')
    (hrouter : b'.router = b.router) : Routed b c b' :=
  .sends [] h (.none (by rw [hrouter])) (by rw [hrouter])

theorem Behaviour.Published.routed {b b' : Behaviour P F} {now : Nat} {data : Bytes}
    {answer : Except PublishError TransactionId} (h : b.Published now data answer b') :
    Routed b (.publish now data) b' := by
  cases h with
  | refused e _ sends router _ => exact .quiet sends router
  | taken raw tx_id new _ _ _ _ _ _ sends spread router _ =>
    exact .sends new sends (spread.tallies rfl (by rw [router])) (by rw [router])

theorem call_routed {b b' : Behaviour P F} {c : Call P} (h : b.call c = some b') :
    Routed b c b' := by
  cases Behaviour.call_cases h with
  | published now data answer publish => exact (Behaviour.publish_spec publish).routed
  | joined connection_id p call => exact .joined connection_id p call
  | left now draw p connection_id =>
    obtain ⟨new, hsends, htally, hroutes⟩ :=
      Behaviour.adjust_redundancy_router (b.disconnect p) now draw
    exact .left now draw p connection_id new
      (hsends.trans_none (Behaviour.with_metrics_sends _ _)) (htally.trans_none rfl) hroutes
  | rpc clock draw source rpc invalid =>
    obtain ⟨new, hsends, htally, -, hroutes⟩ := Behaviour.on_rpc_spec b clock draw source rpc
    exact .rpc clock draw source rpc invalid new hsends htally hroutes
  | ticked now draw _ =>
    obtain ⟨new, hsends, htally, hroutes⟩ := Behaviour.adjust_redundancy_router b now draw
    exact .sends new hsends htally hroutes
  | idle _ sends router => exact .quiet sends router

/-! ## Steps and runs of a node -/

/-- The connections after a call: a new one is added, and a closed one is gone. -/
def Node.connections_after (n : Node P F) : Call P → List (Connection P)
  | .handle_established_inbound_connection connection_id peer_id =>
    n.connections ++ [{ peer_id, connection_id, receiver :=
      (n.behaviour.handle_established_inbound_connection connection_id peer_id).1 }]
  | .handle_established_outbound_connection connection_id peer_id =>
    n.connections ++ [{ peer_id, connection_id, receiver :=
      (n.behaviour.handle_established_outbound_connection connection_id peer_id).1 }]
  | .on_swarm_event _ _ (.ConnectionClosed peer_id connection_id _) =>
    n.connections.filter fun c =>
      !(decide (c.peer_id = peer_id) && decide (c.connection_id = connection_id))
  | _ => n.connections

/-- A poll of the receiver at a place. -/
def Node.poll_receiver (n : Node P F) (index : Nat)
    (poll : Receiver P → Sender P → Receiver P × Sender P) : Option (Node P F) := do
  let connection ← n.connections[index]?
  let sender ← n.behaviour.queue connection.peer_id
  let (receiver, sender) := poll connection.receiver sender
  some {
    behaviour := n.behaviour.set_queue connection.peer_id sender
    connections := n.connections.set index { connection with receiver } }

def Node.step (n : Node P F) : Op P → Option (Node P F)
  | .call c => (n.behaviour.call c).map fun behaviour =>
    { behaviour, connections := n.connections_after c }
  | .poll_next index => n.poll_receiver index fun r s => (r.poll_next false s).2
  | .poll_stale index elapsed => n.poll_receiver index fun r s => (r.poll_stale false elapsed s).2
  | .poll_is_empty index => n.poll_receiver index fun r s => (r.poll_is_empty false s).2

def Setup.behaviour (s : Setup P F) : Behaviour P F :=
  .new_with_transform s.clock s.authenticity s.config s.metrics s.data_transform

def Setup.node (s : Setup P F) : Node P F := { behaviour := s.behaviour, connections := [] }

/-- The runs of a node. -/
def Setup.machine (s : Setup P F) : Machine (Node P F) (Op P) := .ofFun (· = s.node) Node.step

/-! ## Invariants of the behaviour -/

/-- A condition on the calls of a run. -/
def on_calls (ok : Behaviour P F → Call P → Bool) (n : Node P F) : Op P → Bool
  | .call c => ok n.behaviour c
  | _ => true

omit [F64 F] [Schema] in
/-- A poll of a receiver changes nothing of the behaviour but what waits in a queue. -/
theorem Node.poll_receiver_behaviour {n n' : Node P F} {index : Nat}
    {poll : Receiver P → Sender P → Receiver P × Sender P}
    (h : n.poll_receiver index poll = some n') :
    ∃ peers, peers.keys = n.behaviour.connected_peers.keys ∧
      n'.behaviour = { n.behaviour with connected_peers := peers } := by
  simp only [poll_receiver, Option.bind_eq_bind, Option.bind_eq_some_iff] at h
  obtain ⟨connection, -, sender, -, h⟩ := h
  cases h
  exact ⟨_, Behaviour.set_queue_keys _ _ _, rfl⟩

/-- What a step is: a call of the behaviour, or a poll that only changes what waits in a queue. -/
inductive Node.Stepped (n : Node P F) : Op P → Node P F → Prop
  | called (c : Call P) (b' : Behaviour P F) (call : n.behaviour.call c = some b') :
      Stepped n (.call c) { behaviour := b', connections := n.connections_after c }
  | polled {op : Op P} {n' : Node P F} (peers : Table P (PeerConnections P))
      (no_call : ∀ c, op ≠ .call c) (keys : peers.keys = n.behaviour.connected_peers.keys)
      (same : n'.behaviour = { n.behaviour with connected_peers := peers }) : Stepped n op n'

theorem Node.step_cases {n n' : Node P F} {op : Op P} (h : n.step op = some n') :
    n.Stepped op n' := by
  cases op with
  | call c =>
    obtain ⟨b', hcall, rfl⟩ := Option.map_eq_some_iff.mp h
    exact .called c b' hcall
  | poll_next index =>
    simp only [step] at h
    obtain ⟨peers, hkeys, hsame⟩ := poll_receiver_behaviour h
    exact .polled peers (by simp) hkeys hsame
  | poll_stale index elapsed =>
    simp only [step] at h
    obtain ⟨peers, hkeys, hsame⟩ := poll_receiver_behaviour h
    exact .polled peers (by simp) hkeys hsame
  | poll_is_empty index =>
    simp only [step] at h
    obtain ⟨peers, hkeys, hsame⟩ := poll_receiver_behaviour h
    exact .polled peers (by simp) hkeys hsame

/-- What the calls that meet `ok` preserve, and the polls of the receivers too, holds at the end of
every run whose calls meet `ok`. -/
theorem run_invariant {s : Setup P F} {n : Node P F} {ops : List (Op P)}
    {ok : Behaviour P F → Call P → Bool} {p : Behaviour P F → Prop}
    (hrun : s.machine.Run s.node ops n)
    (hok : s.machine.Meets (fun n op => on_calls ok n op = true) s.node ops)
    (hstart : p s.behaviour)
    (hcall : ∀ b c b', p b → ok b c = true → b.call c = some b' → p b')
    (hpoll : ∀ b peers, p b → peers.keys = b.connected_peers.keys →
      p { b with connected_peers := peers }) : p n.behaviour := by
  refine hrun.invariant_of_meets (p := fun n => p n.behaviour) hok hstart ?_
  intro n op n' hn hop hstep
  cases Node.step_cases hstep with
  | called c b' call => exact hcall _ _ _ hn hop call
  | polled peers _ keys same =>
    rw [same]
    exact hpoll _ _ hn keys

/-- A run that is computed with a test on its calls, by what can be seen of its end. -/
theorem Setup.exists_run {s : Setup P F} {ops : List (Op P)} {ok : Behaviour P F → Call P → Bool}
    {α : Type} {see : Node P F → α} {v : α}
    (h : (Machine.exec (Machine.guarded (on_calls ok) Node.step) s.node ops).map see = some v) :
    ∃ n, s.machine.Run s.node ops n ∧
      s.machine.Meets (fun n op => on_calls ok n op = true) s.node ops ∧ see n = v :=
  Machine.exists_guarded_run h

end

/-! ## A concrete node to run -/

namespace Sample

structure Peer where
  number : UInt8
deriving DecidableEq, Repr

/-- A checksum in the place of the digest of a signature. -/
def digest (bytes : Bytes) : UInt8 := bytes.foldl (fun sum byte => sum * 31 + byte) 7

/-- Identities with the lengths of Ed25519 ones: keys of 32 bytes, signatures of 64. -/
instance : Libp2p Peer where
  Keypair := Peer
  PublicKey := Peer
  public_key := id
  sign keypair bytes := .ok (List.replicate 32 keypair.number ++ List.replicate 32 (digest bytes))
  verify key bytes signature :=
    signature == List.replicate 32 key.number ++ List.replicate 32 (digest bytes)
  encode_protobuf key := [8, 1, 18, 32] ++ List.replicate 32 key.number
  try_decode_protobuf bytes :=
    if bytes.length = 36 then bytes.getLast?.map fun number => { number } else none
  to_peer_id := id
  to_bytes peer := [0, 36, 8, 1, 18, 32] ++ List.replicate 32 peer.number
  from_bytes bytes :=
    if bytes.length = 38 then bytes.getLast?.map fun number => { number } else none
  to_base58 peer := [49 + peer.number]

instance : F64 Rat where
  ofNat n := n
  add := (· + ·)
  sub := (· - ·)
  mul := (· * ·)
  div := (· / ·)
  lt x y := decide (x < y)

instance : Schema where
  from_ := 1
  seqno := 2
  seqno_wire := .varint
  data := 3
  signature := 4
  key := 5
  tx_id := 1
  have_tx := 1
  reset_route := 2
  txs := 1
  control := 2

/-- A node with the default configuration. -/
def setup (number : UInt8) : Setup Peer Rat where
  clock := 0
  authenticity := .Signed ({ number } : Peer)
  config := .default
  metrics := false
  data_transform := IdentityTransform

def raw (author : UInt8) (seqno : UInt64) : RawTransaction Peer :=
  let keypair : Libp2p.Keypair Peer := ({ number := author } : Peer)
  { from_ := { number := author }
    seqno
    data := [author]
    signature := (Libp2p.sign keypair
      (signature_bytes ({ number := author } : Peer) seqno [author])).toOption
    key := none }

def tx_id (author : UInt8) (seqno : UInt64) : TransactionId :=
  Config.default_transaction_id
    { from_ := ({ number := author } : Peer), seqno := seqno, data := [author] }

/-- A connection to a peer is made. -/
def connect (peer : UInt8) : Op Peer :=
  .call (.handle_established_inbound_connection ⟨peer.toNat⟩ { number := peer })

/-- The one connection to a peer is closed. -/
def close (peer : UInt8) : Op Peer :=
  .call (.on_swarm_event 0 0 (.ConnectionClosed { number := peer } ⟨peer.toNat⟩ 0))

/-- An RPC of a peer arrives. -/
def deliver (peer : UInt8) (transactions : List (RawTransaction Peer))
    (control_msgs : List ControlAction) : Op Peer :=
  .call (.on_connection_handler_event (fun _ => 0) 0 { number := peer }
    (.Transaction { transactions, control_msgs } []))

end Sample

end libp2p_dog
