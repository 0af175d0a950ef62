-- A network of honest nodes: their behaviours, the handlers' ends of the
-- queues, and the wires. The connections are fixed, the wires lose nothing and
-- keep the order, no queue refuses an RPC and none times out, and no entry of a
-- cache expires.
import GossipShadow.Acceptance

namespace libp2p_dog

/-- What a network is made of. All nodes have the same idea of which transactions are the same,
and undo each other's transforms; otherwise each has a configuration of its own. -/
structure Network (P F : Type) [Libp2p P] where
  nodes : List P
  link : P → P → Bool
  keypair : P → Libp2p.Keypair P
  config : P → Config P F
  seqno : P → UInt64
  metrics : P → Bool
  transaction_id_fn : Transaction P → TransactionId
  data_transform : DataTransform P
  /-- No clock is read before this time. -/
  start : Nat
  symmetric : ∀ v w, link v w = link w v
  irreflexive : ∀ v, link v v = false
  identity : ∀ v ∈ nodes, Libp2p.to_peer_id (Libp2p.public_key (keypair v)) = v
  agree : ∀ v, (config v).transaction_id_fn = transaction_id_fn
  lawful : data_transform.Lawful
  forward_transactions : ∀ v, (config v).forward_transactions = true

/-- The state of a network. The receiver `receiver v w` is held by the handler that `v` has for its
connection to `w`, and `wire v w` is what this handler has sent and `w` has not processed. -/
structure Net (P F : Type) [Libp2p P] where
  node : P → Behaviour P F
  receiver : P → P → Receiver P
  wire : P → P → List (RpcOut P)

/-- What happens in a network. A node publishes, or is polled; a handler of `v` polls its queue to
`w`; or the next RPC on the wire from `v` to `w` arrives. -/
inductive NetOp (P : Type) where
  | publish (v : P) (now : Nat) (data : Bytes)
  | poll (v : P) (now draw : Nat) (redundancy_interval : Bool)
  | deliver (v w : P) (now draw : Nat)
  | poll_next (v w : P)
  | poll_stale (v w : P)
  | poll_is_empty (v w : P)

section

variable {P F : Type} [Libp2p P] [DecidableEq P] [F64 F] [Schema]

/-- No RPC was refused by its queue between the two states of a node. -/
def Behaviour.none_refused (b b' : Behaviour P F) : Bool :=
  (b'.history.drop b.history.length).all (·.accepted)

namespace Network

def setup (net : Network P F) (v : P) : Setup P F where
  clock := net.seqno v
  authenticity := .Signed (net.keypair v)
  config := net.config v
  metrics := net.metrics v
  data_transform := net.data_transform

def neighbours (net : Network P F) (v : P) : List P := net.nodes.filter (net.link v)

/-- A node that has just been connected to its neighbours. -/
def connected (net : Network P F) (v : P) : Behaviour P F :=
  (net.neighbours v).foldl
    (fun b w => (b.handle_established_inbound_connection ⟨0⟩ w).2) (net.setup v).behaviour

def initial (net : Network P F) : Net P F where
  node := net.connected
  receiver _ _ := { priority_receiver := .new, non_priority_receiver := .new }
  wire _ _ := []

/-- No entry of the cache of `v` made since the start has expired. -/
def in_time (net : Network P F) (v : P) (now : Nat) : Bool :=
  decide (net.start ≤ now) && decide (now < net.start + (net.config v).cache_time)

/-- A node changes its state, in time and without a refusal. -/
def act (net : Network P F) (n : Net P F) (v : P) (now : Nat) (b : Behaviour P F) :
    Option (Net P F) :=
  if decide (v ∈ net.nodes) && net.in_time v now && (n.node v).none_refused b then
    some { n with node := Function.update n.node v b }
  else none

end Network

/-- A handler of `v` polls its queue to `w`; what it takes out goes on the wire. -/
def Net.poll_receiver (n : Net P F) (v w : P) (poll : Receiver P → Sender P →
    Option (RpcOut P) × Receiver P × Sender P) : Option (Net P F) := do
  let sender ← (n.node v).queue w
  let (out, receiver, sender) := poll (n.receiver v w) sender
  some {
    node := Function.update n.node v ((n.node v).set_queue w sender)
    receiver := Function.update n.receiver v (Function.update (n.receiver v) w receiver)
    wire := Function.update n.wire v (Function.update (n.wire v) w (n.wire v w ++ out.toList)) }

namespace Network

/-- A frame that the codec of the neighbour refuses, as one above its limit, counts as a lost one,
and this network loses none. -/
def step (net : Network P F) (n : Net P F) : NetOp P → Option (Net P F)
  | .publish v now data => ((n.node v).publish now data).bind fun (_, b) => net.act n v now b
  | .poll v now draw redundancy_interval =>
    net.act n v now ((n.node v).poll now draw redundancy_interval).2
  | .deliver v w now draw => match n.wire v w with
    | [] => none
    | rpc :: wire =>
      -- the codec takes nothing out: the nodes sign what they publish
      let event := .Transaction (rpc.arrival true) []
      let b := (n.node w).on_connection_handler_event (fun _ => now) draw v event
      let wire := Function.update n.wire v (Function.update (n.wire v) w wire)
      net.act { n with wire } w now b
  | .poll_next v w => n.poll_receiver v w fun r q =>
    let (polled, r, q) := r.poll_next false q
    (Receiver.out polled, r, q)
  | .poll_stale v w => n.poll_receiver v w fun r q =>
    (none, (r.poll_stale false (fun _ => false) q).2)
  | .poll_is_empty v w => n.poll_receiver v w fun r q =>
    (none, (r.poll_is_empty false q).2)

def machine (net : Network P F) : Machine (Net P F) (NetOp P) :=
  .ofFun (· = net.initial) net.step

end Network

/-- What `v` has sent to `w` and `w` has not processed. -/
def Net.pending (n : Net P F) (v w : P) : List (RpcOut P) :=
  n.wire v w ++ match (n.node v).queue w with
    | some q => (n.receiver v w).waiting q
    | none => []

namespace Network

/-- A connection of the network. -/
def Linked (net : Network P F) (v w : P) : Prop := v ∈ net.nodes ∧ w ∈ net.neighbours v

instance (net : Network P F) (v w : P) : Decidable (net.Linked v w) :=
  inferInstanceAs (Decidable (_ ∧ _))

/-- No RPC is queued or in flight. -/
def Quiet (net : Network P F) (n : Net P F) : Prop :=
  ∀ v ∈ net.nodes, ∀ w ∈ net.nodes, n.pending v w = []

instance (net : Network P F) (n : Net P F) : Decidable (net.Quiet n) :=
  inferInstanceAs (Decidable (∀ v ∈ net.nodes, ∀ w ∈ net.nodes, n.pending v w = []))

/-- In the run, a call of `publish` of `v` gives `id`. -/
def Published (net : Network P F) (ops : List (NetOp P)) (v : P) (id : TransactionId) : Prop :=
  ∃ before now data after n b, ops = before ++ .publish v now data :: after ∧
    net.machine.Run net.initial before n ∧ (n.node v).publish now data = some (.ok id, b)

end Network

end

namespace Sample

/-- Nodes with the default configuration, up to the number of transactions that they process. -/
def network (nodes : List Peer) (links : List (Peer × Peer)) (max : Peer → Option Nat) :
    Network Peer Rat where
  nodes := nodes
  link v w := decide (v ≠ w) && (links.contains (v, w) || links.contains (w, v))
  keypair v := v
  config v := { Config.default with max_transactions_per_rpc := max v }
  seqno _ := 0
  metrics _ := false
  transaction_id_fn := Config.default_transaction_id
  data_transform := IdentityTransform
  start := 0
  symmetric v w := by
    rw [Bool.or_comm]
    simp only [ne_comm]
  irreflexive v := by simp
  identity _ _ := rfl
  agree _ := rfl
  lawful := identityTransform_lawful
  forward_transactions _ := rfl

/-- The first RPC that waits for a connection is sent and arrives. -/
def send (v w : Peer) : List (NetOp Peer) := [.poll_next v w, .deliver v w 0 0]

end Sample

end libp2p_dog
