-- The dog behaviour (behaviour.rs, metrics.rs): what one node does with its
-- own transactions, with the events of its handlers and with its timer.
import GossipShadow.TimeCache
import GossipShadow.Dog
import GossipShadow.Rpc

namespace libp2p_dog

/-! ## metrics.rs -/

structure Metrics (F : Type) where
  peers_count : Int
  redundancy : F
  have_tx_sent_counts : Nat
  reset_route_sent_counts : Nat
  disabled_routes_count : Int
  txs_sent_counts : Nat
  txs_sent_bytes : Nat
  txs_sent_published : Nat
  published_txs_dropped : Nat
  forwarded_txs_dropped : Nat
  timedout_txs_dropped : Nat
  txs_recv_counts_unfiltered : Nat
  txs_recv_counts : Nat
  txs_invalid_counts : Nat
  txs_recv_bytes : Nat
  txs_cache_size : Int

namespace Metrics

variable {F : Type}

def new [F64 F] : Metrics F where
  peers_count := 0
  redundancy := F64.ofNat 0
  have_tx_sent_counts := 0
  reset_route_sent_counts := 0
  disabled_routes_count := 0
  txs_sent_counts := 0
  txs_sent_bytes := 0
  txs_sent_published := 0
  published_txs_dropped := 0
  forwarded_txs_dropped := 0
  timedout_txs_dropped := 0
  txs_recv_counts_unfiltered := 0
  txs_recv_counts := 0
  txs_invalid_counts := 0
  txs_recv_bytes := 0
  txs_cache_size := 0

def inc_peers_count (m : Metrics F) : Metrics F := { m with peers_count := m.peers_count + 1 }

def dec_peers_count (m : Metrics F) : Metrics F := { m with peers_count := m.peers_count - 1 }

def set_redundancy (m : Metrics F) (redundancy : F) : Metrics F := { m with redundancy }

def register_have_tx_sent (m : Metrics F) : Metrics F :=
  { m with have_tx_sent_counts := m.have_tx_sent_counts + 1 }

def register_reset_route_sent (m : Metrics F) : Metrics F :=
  { m with reset_route_sent_counts := m.reset_route_sent_counts + 1 }

def set_disabled_routes_count (m : Metrics F) (count : Nat) : Metrics F :=
  { m with disabled_routes_count := count }

def tx_sent (m : Metrics F) (bytes : Nat) : Metrics F :=
  { m with
    txs_sent_counts := m.txs_sent_counts + 1
    txs_sent_bytes := m.txs_sent_bytes + bytes }

def register_published_tx (m : Metrics F) : Metrics F :=
  { m with txs_sent_published := m.txs_sent_published + 1 }

def tx_recv_unfiltered (m : Metrics F) (bytes : Nat) : Metrics F :=
  { m with
    txs_recv_counts_unfiltered := m.txs_recv_counts_unfiltered + 1
    txs_recv_bytes := m.txs_recv_bytes + bytes }

def tx_recv (m : Metrics F) : Metrics F := { m with txs_recv_counts := m.txs_recv_counts + 1 }

def register_published_tx_dropped (m : Metrics F) : Metrics F :=
  { m with published_txs_dropped := m.published_txs_dropped + 1 }

def register_forwarded_tx_dropped (m : Metrics F) : Metrics F :=
  { m with forwarded_txs_dropped := m.forwarded_txs_dropped + 1 }

def register_timedout_tx_dropped (m : Metrics F) : Metrics F :=
  { m with timedout_txs_dropped := m.timedout_txs_dropped + 1 }

def register_invalid_tx (m : Metrics F) : Metrics F :=
  { m with txs_invalid_counts := m.txs_invalid_counts + 1 }

def set_txs_cache_size (m : Metrics F) (size : Nat) : Metrics F := { m with txs_cache_size := size }

end Metrics

/-! ## The state -/

inductive TransactionAuthenticity (P : Type) [Libp2p P] where
  | Signed (keypair : Libp2p.Keypair P)
  | Author (author : P)

inductive Event (P : Type) where
  | TransactionReceived (propagation_source : P) (transaction_id : TransactionId)
      (transaction : Transaction P)
  | TransactionSent (propagation_target : P) (transaction_id : TransactionId)
      (transaction : Transaction P)
  | HaveTxReceived (propagation_source : P) (transaction_id : TransactionId)
  | HaveTxSent (propagation_target : P) (transaction_id : TransactionId)
  | ResetRouteReceived (propagation_source : P)
  | ResetRouteSent (propagation_target : P)
  | RoutingUpdated (disabled_routes : List (Route P))
deriving DecidableEq, Repr

inductive PublishConfig (P : Type) [Libp2p P] where
  | Signing (keypair : Libp2p.Keypair P) (author : P) (inline_key : Option Bytes)
      (last_seqno : UInt64)
  | Author (author : P) (last_seqno : UInt64)

structure PeerConnections (P : Type) where
  connections : List ConnectionId
  sender : Sender P
deriving DecidableEq, Repr

/-- One call of `send_transaction`: when, to which peer, with which transaction id at hand, and
whether the queue accepted the RPC. -/
structure Attempt (P : Type) where
  time : Nat
  peer : P
  tx_id : Option TransactionId
  rpc : RpcOut P
  accepted : Bool
deriving DecidableEq, Repr

structure Behaviour (P F : Type) [Libp2p P] where
  config : Config P F
  events : List (Event P)
  publish_config : PublishConfig P
  data_transform : DataTransform P
  connected_peers : Table P (PeerConnections P)
  redundancy_controller : Controller F
  router : Router P
  cache : DuplicateCache TransactionId P
  metrics : Option (Metrics F)
  /-- A history variable, oldest first: no function of the code reads it. -/
  history : List (Attempt P)

variable {P F : Type} [Libp2p P]

/-! ## The author and the sequence number -/

namespace PublishConfig

def get_own_id : PublishConfig P → P
  | Signing _ author _ _ => author
  | Author author _ => author

/-- `impl From<TransactionAuthenticity> for PublishConfig`. The clock gives the first number. -/
def from_authenticity (clock : UInt64) : TransactionAuthenticity P → PublishConfig P
  | .Signed keypair =>
    let public_key := Libp2p.public_key keypair
    let key_enc := Libp2p.encode_protobuf public_key
    let key := if key_enc.length ≤ 42 then none else some key_enc
    Signing keypair (Libp2p.to_peer_id public_key) key clock
  | .Author author => Author author clock

end PublishConfig

/-- `SequenceNumber::next`: `none` is the panic at the end of the `u64` range. -/
def next_seqno (last_seqno : UInt64) : Option UInt64 :=
  if last_seqno.toNat + 1 < UInt64.size then some (last_seqno + 1) else none

def SIGNING_PREFIX : Bytes := "libp2p-dog:".toUTF8.toList

/-- The bytes that the author signs: the transaction with neither signature nor key. -/
def signature_bytes [Schema] (author : P) (seqno : UInt64) (data : Bytes) : Bytes :=
  SIGNING_PREFIX ++ proto.Transaction.write_message
    { from_ := Libp2p.to_bytes author, seqno, data, signature := [], key := [] }

/-- `none` is a panic. -/
def PublishConfig.build_raw_transaction [Schema] (c : PublishConfig P) (data : Bytes) :
    Option (Except PublishError (RawTransaction P) × PublishConfig P) :=
  match c with
  | .Signing keypair author inline_key last_seqno =>
    (next_seqno last_seqno).map fun seqno =>
      let c := .Signing keypair author inline_key seqno
      match Libp2p.sign keypair (signature_bytes author seqno data) with
      | .error e => (.error (.SigningError e), c)
      | .ok signature =>
        (.ok { from_ := author, seqno, data, signature := some signature, key := inline_key }, c)
  | .Author author last_seqno =>
    (next_seqno last_seqno).map fun seqno =>
      (.ok { from_ := author, seqno, data, signature := none, key := none }, .Author author seqno)

/-! ## Sending -/

namespace Behaviour

def new_with_transform [F64 F] (clock : UInt64) (authenticity : TransactionAuthenticity P)
    (config : Config P F) (metrics : Bool) (data_transform : DataTransform P) :
    Behaviour P F where
  config := config
  events := []
  publish_config := .from_authenticity clock authenticity
  data_transform := data_transform
  connected_peers := ∅
  redundancy_controller := .new config
  router := .new
  cache := .new config.cache_time
  metrics := if metrics then some .new else none
  history := []

/-- The node's own id. -/
def own_id (b : Behaviour P F) : P := b.publish_config.get_own_id

def with_metrics (f : Metrics F → Metrics F) (b : Behaviour P F) : Behaviour P F :=
  { b with metrics := b.metrics.map f }

def push_event (event : Event P) (b : Behaviour P F) : Behaviour P F :=
  { b with events := b.events ++ [event] }

/-- The event that tells the routing table as it is now. -/
def push_routing_updated (b : Behaviour P F) : Behaviour P F :=
  (b.push_event (.RoutingUpdated b.router.disabled_routes)).with_metrics
    (·.set_disabled_routes_count b.router.disabled_routes.length)

variable [DecidableEq P] [F64 F] [Schema]

/-- What `send_transaction` does to the metrics. -/
def count_tx_sent (b : Behaviour P F) (rpc : RpcOut P) : Behaviour P F :=
  match rpc.tx? with
  | some tx => b.with_metrics (·.tx_sent tx.raw_protobuf_len)
  | none => b

/-- `true` if the sending was successful. -/
def send_transaction (b : Behaviour P F) (peer_id : P) (rpc : RpcOut P) :
    Bool × Behaviour P F :=
  let b := b.count_tx_sent rpc
  match b.connected_peers.lookup peer_id with
  | none => (false, b)
  | some peer =>
    match peer.sender.send_transaction rpc with
    | .ok sender =>
      (true, { b with connected_peers := b.connected_peers.replace peer_id { peer with sender } })
    | .error _ => (false, b)

/-- `send_transaction`, noted in the history. -/
def send (b : Behaviour P F) (now : Nat) (tx_id : Option TransactionId) (peer : P)
    (rpc : RpcOut P) : Bool × Behaviour P F :=
  let (accepted, b) := b.send_transaction peer rpc
  (accepted, { b with history := b.history ++ [{ time := now, peer, tx_id, rpc, accepted }] })

/-- The loop over the recipients, in `publish` and in `forward_transaction`: each recipient whose
queue accepts the RPC makes a `TransactionSent` event. The answer says whether one did. -/
def send_to_each (b : Behaviour P F) (now : Nat) (tx_id : TransactionId)
    (transaction : Transaction P) (rpc : RpcOut P) : List P → Bool × Behaviour P F
  | [] => (false, b)
  | peer_id :: peers =>
    let (accepted, b) := b.send now (some tx_id) peer_id rpc
    let b := if accepted then b.push_event (.TransactionSent peer_id tx_id transaction) else b
    let (any, b) := b.send_to_each now tx_id transaction rpc peers
    (accepted || any, b)

/-- The rest of `publish`, for an id that is not in the cache. -/
def publish_new (b : Behaviour P F) (now : Nat) (raw_transaction : RawTransaction P)
    (transaction : Transaction P) (tx_id : TransactionId) :
    Except PublishError TransactionId × Behaviour P F :=
  let b := { b with cache := (b.cache.insert now tx_id b.own_id).2 }
  let b := b.with_metrics (·.set_txs_cache_size b.cache.len)
  let recipient_peers := b.router.filter_valid_routes b.own_id b.connected_peers.keys
  let timeout := { created := now, duration := b.config.connection_handler_publish_duration }
  let (sent, b) := b.send_to_each now tx_id transaction (.Publish raw_transaction timeout)
    recipient_peers
  if recipient_peers = [] then (.error .InsufficientPeers, b)
  else if !sent then (.error (.AllQueuesFull b.connected_peers.keys.length), b)
  else (.ok tx_id, b.with_metrics (·.register_published_tx))

/-- The rest of `publish`, for what `build_raw_transaction` gives. -/
def publish_built (b : Behaviour P F) (now : Nat) (data : Bytes) :
    Except PublishError (RawTransaction P) × PublishConfig P →
      Except PublishError TransactionId × Behaviour P F
  | (.error e, publish_config) => (.error e, { b with publish_config })
  | (.ok raw_transaction, publish_config) =>
    let b := { b with publish_config }
    let transaction := { from_ := raw_transaction.from_, seqno := raw_transaction.seqno, data }
    let tx_id := b.config.transaction_id transaction
    if b.cache.contains tx_id then (.error .Duplicate, b)
    else b.publish_new now raw_transaction transaction tx_id

/-- `none` is a panic. -/
def publish (b : Behaviour P F) (now : Nat) (data : Bytes) :
    Option (Except PublishError TransactionId × Behaviour P F) :=
  match b.data_transform.outbound_transform data with
  | .error e => some (.error (.TransformFailed e), b)
  | .ok transformed_data =>
    if transformed_data.length > b.config.max_transmit_size then
      some (.error .TransactionTooLarge, b)
    else
      (b.publish_config.build_raw_transaction transformed_data).map (b.publish_built now data)

/-- `true` if the transaction was forwarded. -/
def forward_transaction (b : Behaviour P F) (now : Nat) (transaction_id : TransactionId)
    (raw_transaction : RawTransaction P) (propagation_source : P) : Bool × Behaviour P F :=
  let recipient_peers := b.router.filter_valid_routes propagation_source
    (b.connected_peers.keys.filter fun peer =>
      decide (peer ≠ propagation_source) && decide (peer ≠ raw_transaction.from_))
  if recipient_peers = [] then (false, b)
  else
    let transaction :=
      { from_ := raw_transaction.from_, seqno := raw_transaction.seqno
        data := raw_transaction.data }
    let timeout := { created := now, duration := b.config.connection_handler_forward_duration }
    (true, (b.send_to_each now transaction_id transaction (.Forward raw_transaction timeout)
      recipient_peers).2)

/-! ## The redundancy timer and the connections -/

/-- The part of `adjust_redundancy` that sends a ResetRoute. -/
def send_reset_route (b : Behaviour P F) (now draw : Nat) : Behaviour P F :=
  match b.router.get_random_have_tx_sent_peer draw with
  | none => b
  | some peer_id =>
    let (accepted, b) := b.send now none peer_id (.ResetRoute {})
    if accepted then
      let b := { b with router := b.router.remove_have_tx_sent peer_id }
      (b.with_metrics (·.register_reset_route_sent)).push_event (.ResetRouteSent peer_id)
    else b

def adjust_redundancy (b : Behaviour P F) (now draw : Nat) : Behaviour P F :=
  let ((redundancy, send_reset_route), redundancy_controller) := b.redundancy_controller.evaluate
  let b := { b with redundancy_controller }
  let b := if send_reset_route then b.send_reset_route now draw else b
  let b := b.with_metrics (·.set_redundancy redundancy)
  { b with redundancy_controller := b.redundancy_controller.reset_counters }

def on_connection_established (b : Behaviour P F) (_peer_id : P) : Behaviour P F :=
  b.with_metrics (·.inc_peers_count)

/-- What `on_connection_closed` does first when the last connection to a peer is gone. -/
def disconnect (b : Behaviour P F) (peer_id : P) : Behaviour P F :=
  let (removed_routes, router) := b.router.reset_routes_with_peer peer_id
  let b := { b with router }
  let b := if removed_routes ≠ [] then b.push_routing_updated else b
  { b with connected_peers := b.connected_peers.erase peer_id }

def on_connection_closed (b : Behaviour P F) (now draw : Nat) (peer_id : P)
    (connection_id : ConnectionId) (remaining_established : Nat) : Behaviour P F :=
  if remaining_established ≠ 0 then
    let retain := fun peer : PeerConnections P =>
      { peer with connections := peer.connections.filter fun id => decide (id ≠ connection_id) }
    { b with connected_peers := Table.modify peer_id retain b.connected_peers }
  else
    ((b.disconnect peer_id).adjust_redundancy now draw).with_metrics (·.dec_peers_count)

/-- The entry of a peer, made when there is none. -/
def entry_or_insert (b : Behaviour P F) (peer : P) : PeerConnections P :=
  (b.connected_peers.lookup peer).getD
    { connections := [], sender := .new b.config.connection_handler_queue_len }

/-- What both directions of a new connection do to the peer table. The receiver of the new
handler reads the peer's queue. -/
def handle_established_connection (b : Behaviour P F) (connection_id : ConnectionId) (peer : P) :
    Receiver P × Behaviour P F :=
  let connected_peer := b.entry_or_insert peer
  (connected_peer.sender.new_receiver, { b with
    connected_peers := b.connected_peers.insert peer { connected_peer with
      connections := connected_peer.connections ++ [connection_id] } })

def handle_established_inbound_connection (b : Behaviour P F) (connection_id : ConnectionId)
    (peer_id : P) : Receiver P × Behaviour P F :=
  b.handle_established_connection connection_id peer_id

def handle_established_outbound_connection (b : Behaviour P F) (connection_id : ConnectionId)
    (peer : P) : Receiver P × Behaviour P F :=
  b.handle_established_connection connection_id peer

/-! ## The events of the handlers -/

def handle_invalid_transaction (b : Behaviour P F) (_propagation_source : P)
    (_raw_transaction : RawTransaction P) : Behaviour P F :=
  b.with_metrics (·.register_invalid_tx)

/-- The part of `handle_received_transaction` that sends a HaveTx. -/
def send_have_tx (b : Behaviour P F) (now : Nat) (tx_id : TransactionId)
    (propagation_source : P) : Behaviour P F :=
  let (accepted, b) := b.send now (some tx_id) propagation_source (.HaveTx { tx_id })
  if accepted then
    let b := { b with
      router := b.router.register_have_tx_sent propagation_source
      redundancy_controller := b.redundancy_controller.block_have_tx }
    (b.with_metrics (·.register_have_tx_sent)).push_event (.HaveTxSent propagation_source tx_id)
  else b

/-- The branch of `handle_received_transaction` for an id that is in the cache. -/
def handle_duplicate (b : Behaviour P F) (now : Nat) (tx_id : TransactionId)
    (propagation_source : P) : Behaviour P F :=
  let b := b.with_metrics (·.set_txs_cache_size b.cache.len)
  let b := { b with redundancy_controller := b.redundancy_controller.incr_duplicate_txs_count }
  if !b.config.send_have_tx then b
  else if b.redundancy_controller.is_have_tx_blocked then b
  else b.send_have_tx now tx_id propagation_source

/-- The branch of `handle_received_transaction` for an id that is new. -/
def handle_first_time (b : Behaviour P F) (now : Nat) (tx_id : TransactionId)
    (raw_transaction : RawTransaction P) (propagation_source : P) : Behaviour P F :=
  let b := { b with redundancy_controller := b.redundancy_controller.incr_first_time_txs_count }
  let b := (b.with_metrics (·.tx_recv)).with_metrics (·.set_txs_cache_size b.cache.len)
  if b.config.forward_transactions then
    (b.forward_transaction now tx_id raw_transaction propagation_source).2
  else b

def handle_received_transaction (b : Behaviour P F) (now : Nat)
    (raw_transaction : RawTransaction P) (propagation_source : P) : Behaviour P F :=
  let b := b.with_metrics (·.tx_recv_unfiltered raw_transaction.raw_protobuf_len)
  match b.data_transform.inbound_transform raw_transaction with
  | .error _ => b.handle_invalid_transaction propagation_source raw_transaction
  | .ok transaction =>
    let tx_id := b.config.transaction_id transaction
    let b := b.push_event (.TransactionReceived propagation_source tx_id transaction)
    let (inserted, cache) := b.cache.insert now tx_id propagation_source
    let b := { b with cache }
    if !inserted then b.handle_duplicate now tx_id propagation_source
    else b.handle_first_time now tx_id raw_transaction propagation_source

/-- One turn of the loop of `handle_have_tx`. -/
def handle_have_tx_id (b : Behaviour P F) (propagation_source : P) (tx_id : TransactionId) :
    Behaviour P F :=
  let b := b.push_event (.HaveTxReceived propagation_source tx_id)
  match b.cache.get tx_id with
  | some source =>
    if source = propagation_source then b
    else { b with router := b.router.disable_route source propagation_source }
  | none => b

def handle_have_tx (b : Behaviour P F) (tx_ids : List TransactionId) (propagation_source : P) :
    Behaviour P F :=
  (tx_ids.foldl (fun b tx_id => b.handle_have_tx_id propagation_source tx_id)
    b).push_routing_updated

def handle_reset_route (b : Behaviour P F) (draw : Nat) (propagation_source : P) :
    Behaviour P F :=
  let b := b.push_event (.ResetRouteReceived propagation_source)
  match b.router.enable_random_route_to_peer draw propagation_source with
  | (some _, router) => { b with router }.push_routing_updated
  | (none, _) => b

/-- The loop over the transactions of an RPC, from number `count`. The clock is read for each
transaction. -/
def handle_transactions (b : Behaviour P F) (clock : Nat → Nat) (propagation_source : P) :
    Nat → List (RawTransaction P) → Behaviour P F
  | _, [] => b
  | count, raw_transaction :: rest =>
    if b.config.max_transactions_per_rpc.any (fun max => decide (count ≥ max)) then b
    else (b.handle_received_transaction (clock count) raw_transaction
      propagation_source).handle_transactions clock propagation_source (count + 1) rest

/-- The ids of the HaveTx of an RPC. -/
def have_tx_ids (control_msgs : List ControlAction) : List TransactionId :=
  control_msgs.filterMap fun
    | .HaveTx have_tx => some have_tx.tx_id
    | .ResetRoute _ => none

/-- Whether a ResetRoute is among the control messages. -/
def has_reset_route (control_msgs : List ControlAction) : Bool :=
  control_msgs.any fun
    | .HaveTx _ => false
    | .ResetRoute _ => true

/-- The branch of `on_connection_handler_event` for an RPC. -/
def on_rpc (b : Behaviour P F) (clock : Nat → Nat) (draw : Nat) (propagation_source : P)
    (rpc : Rpc P) : Behaviour P F :=
  let b := b.handle_transactions clock propagation_source 0 rpc.transactions
  let b := if have_tx_ids rpc.control_msgs ≠ [] && !b.config.ignore_have_tx then
    b.handle_have_tx (have_tx_ids rpc.control_msgs) propagation_source else b
  if has_reset_route rpc.control_msgs then b.handle_reset_route draw propagation_source else b

def on_connection_handler_event (b : Behaviour P F) (clock : Nat → Nat) (draw : Nat)
    (propagation_source : P) (event : HandlerEvent P) : Behaviour P F :=
  match event with
  | .Transaction rpc _ => b.on_rpc clock draw propagation_source rpc
  | .TransactionDropped rpc =>
    let b := match rpc with
      | .Publish _ _ => b.with_metrics (·.register_published_tx_dropped)
      | .Forward _ _ => b.with_metrics (·.register_forwarded_tx_dropped)
      | _ => b
    b.with_metrics (·.register_timedout_tx_dropped)

/-- `redundancy_interval` says whether the timer has fired. -/
def poll (b : Behaviour P F) (now draw : Nat) (redundancy_interval : Bool) :
    Poll (Event P) × Behaviour P F :=
  match b.events with
  | event :: events => (.Ready event, { b with events })
  | [] => (.Pending, if redundancy_interval then b.adjust_redundancy now draw else b)

end Behaviour

inductive FromSwarm (P : Type) where
  | ConnectionEstablished (peer_id : P)
  | ConnectionClosed (peer_id : P) (connection_id : ConnectionId) (remaining_established : Nat)
  | Other

def Behaviour.on_swarm_event [DecidableEq P] [F64 F] [Schema] (b : Behaviour P F) (now draw : Nat) :
    FromSwarm P → Behaviour P F
  | .ConnectionEstablished peer_id => b.on_connection_established peer_id
  | .ConnectionClosed peer_id connection_id remaining_established =>
    b.on_connection_closed now draw peer_id connection_id remaining_established
  | .Other => b

end libp2p_dog
