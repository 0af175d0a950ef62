-- The data that the dog code passes around: transactions, RPCs, the
-- configuration, and the libp2p functions that the code calls.
import GossipShadow.Lib.Protobuf

namespace libp2p_dog

export Protobuf (Bytes)

/-- `Duration::from_secs`. An `Instant` is a reading of the monotonic clock and a `Duration` a
length of time, both as a number of nanoseconds. -/
def from_secs (secs : Nat) : Nat := secs * 1000000000

/-! ## libp2p -/

structure SigningError where
  reason : String
deriving DecidableEq, Repr

/-- The text of a `std::io::Error`. -/
structure IoError where
  reason : String
deriving DecidableEq, Repr

/-- What the code uses of libp2p's identities. -/
class Libp2p (PeerId : Type) where
  Keypair : Type
  PublicKey : Type
  public_key : Keypair → PublicKey
  sign : Keypair → Bytes → Except SigningError Bytes
  verify : PublicKey → Bytes → Bytes → Bool
  encode_protobuf : PublicKey → Bytes
  try_decode_protobuf : Bytes → Option PublicKey
  to_peer_id : PublicKey → PeerId
  to_bytes : PeerId → Bytes
  from_bytes : Bytes → Option PeerId
  to_base58 : PeerId → Bytes

/-- The arithmetic of `f64` that the code uses. -/
class F64 (F : Type) where
  ofNat : Nat → F
  add : F → F → F
  sub : F → F → F
  mul : F → F → F
  div : F → F → F
  lt : F → F → Bool

/-- The field numbers of the protobuf schema. The code is generated from the
schema when the crate is built, so the numbers are a parameter. -/
class Schema where
  from_ : Nat
  seqno : Nat
  seqno_wire : Protobuf.IntWire
  data : Nat
  signature : Nat
  key : Nat
  tx_id : Nat
  have_tx : Nat
  reset_route : Nat
  txs : Nat
  control : Nat

/-! ## types.rs -/

structure TransactionId where
  val : Bytes
deriving DecidableEq, Repr

/-- A `futures_timer::Delay`: it is done once `duration` has passed since `created`. -/
structure Delay where
  created : Nat
  duration : Nat
deriving DecidableEq, Repr

structure ConnectionId where
  id : Nat
deriving DecidableEq, Repr

structure RawTransaction (P : Type) where
  from_ : P
  seqno : UInt64
  data : Bytes
  signature : Option Bytes
  key : Option Bytes
deriving DecidableEq, Repr

structure Transaction (P : Type) where
  from_ : P
  seqno : UInt64
  data : Bytes
deriving DecidableEq, Repr

structure HaveTx where
  tx_id : TransactionId
deriving DecidableEq, Repr

structure ResetRoute where
deriving DecidableEq, Repr

inductive ControlAction where
  | HaveTx (have_tx : HaveTx)
  | ResetRoute (reset_route : ResetRoute)
deriving DecidableEq, Repr

inductive RpcOut (P : Type) where
  | Publish (tx : RawTransaction P) (timeout : Delay)
  | Forward (tx : RawTransaction P) (timeout : Delay)
  | HaveTx (have_tx : HaveTx)
  | ResetRoute (reset_route : ResetRoute)
deriving DecidableEq, Repr

structure Rpc (P : Type) where
  transactions : List (RawTransaction P)
  control_msgs : List ControlAction
deriving DecidableEq, Repr

namespace RpcOut

variable {P : Type}

def isPublish : RpcOut P → Bool
  | Publish _ _ => true
  | _ => false

def isForward : RpcOut P → Bool
  | Forward _ _ => true
  | _ => false

/-- The transaction that the RPC carries, if it carries one. -/
def tx? : RpcOut P → Option (RawTransaction P)
  | Publish tx _ => some tx
  | Forward tx _ => some tx
  | HaveTx _ => none
  | ResetRoute _ => none

end RpcOut

/-! ## error.rs -/

inductive PublishError where
  | Duplicate
  | SigningError (error : SigningError)
  | InsufficientPeers
  | TransactionTooLarge
  | TransformFailed (error : IoError)
  | AllQueuesFull (peers : Nat)
deriving DecidableEq, Repr

inductive ValidationError where
  | InvalidPeerId
  | InvalidSignature
deriving DecidableEq, Repr

/-! ## handler.rs: what the handler tells the behaviour -/

inductive HandlerEvent (P : Type) where
  | Transaction (rpc : Rpc P) (invalid_transactions : List (RawTransaction P × ValidationError))
  | TransactionDropped (rpc : RpcOut P)

/-! ## transform.rs -/

structure DataTransform (P : Type) where
  inbound_transform : RawTransaction P → Except IoError (Transaction P)
  outbound_transform : Bytes → Except IoError Bytes

def IdentityTransform {P : Type} : DataTransform P where
  inbound_transform raw := .ok { from_ := raw.from_, seqno := raw.seqno, data := raw.data }
  outbound_transform data := .ok data

/-- What the trait asks of a transform: a transaction that carries outbound
data comes back with the data as it was, and with its author and number. -/
def DataTransform.Lawful {P : Type} (D : DataTransform P) : Prop :=
  ∀ data sent, D.outbound_transform data = .ok sent →
    ∀ from_ seqno signature key,
      D.inbound_transform { from_, seqno, data := sent, signature, key } =
        .ok { from_, seqno, data }

theorem identityTransform_lawful {P : Type} : (IdentityTransform : DataTransform P).Lawful := by
  intro data sent h from_ seqno signature key
  cases h
  rfl

/-! ## config.rs -/

inductive ValidationMode where
  | Strict
  | None
deriving DecidableEq, Repr

structure ProtocolConfig where
  max_transmit_size : Nat
  validation_mode : ValidationMode
deriving DecidableEq, Repr

def ProtocolConfig.default : ProtocolConfig where
  max_transmit_size := 65536
  validation_mode := .Strict

structure Config (P F : Type) where
  protocol : ProtocolConfig
  transaction_id_fn : Transaction P → TransactionId
  max_transactions_per_rpc : Option Nat
  connection_handler_queue_len : Nat
  cache_time : Nat
  target_redundancy : F
  redundancy_delta_percent : UInt8
  redundancy_interval : Nat
  connection_handler_publish_duration : Nat
  connection_handler_forward_duration : Nat
  deliver_own_transactions : Bool
  forward_transactions : Bool
  send_have_tx : Bool
  ignore_have_tx : Bool

namespace Config

variable {P F : Type}

def transaction_id (c : Config P F) (tx : Transaction P) : TransactionId := c.transaction_id_fn tx

def max_transmit_size (c : Config P F) : Nat := c.protocol.max_transmit_size

/-- `u64::to_string`, as bytes. -/
def decimal (n : UInt64) : Bytes := (Nat.toDigits 10 n.toNat).map fun c => c.toUInt8

/-- The id of a transaction by default: its author, then its sequence number. -/
def default_transaction_id [Libp2p P] (tx : Transaction P) : TransactionId :=
  ⟨Libp2p.to_base58 tx.from_ ++ decimal tx.seqno⟩

def default [Libp2p P] [F64 F] : Config P F where
  protocol := .default
  transaction_id_fn := default_transaction_id
  max_transactions_per_rpc := none
  connection_handler_queue_len := 5000
  cache_time := from_secs 30
  target_redundancy := F64.ofNat 1
  redundancy_delta_percent := 10
  redundancy_interval := from_secs 1
  connection_handler_publish_duration := from_secs 5
  connection_handler_forward_duration := from_secs 1
  deliver_own_transactions := false
  forward_transactions := true
  send_have_tx := true
  ignore_have_tx := false

end Config

/-! ## The generated protobuf types, and the conversions of types.rs -/

namespace proto

structure Transaction where
  from_ : Bytes
  seqno : UInt64
  data : Bytes
  signature : Bytes
  key : Bytes
deriving DecidableEq, Repr

structure ControlHaveTx where
  tx_id : Bytes
deriving DecidableEq, Repr

structure ControlResetRoute where
deriving DecidableEq, Repr

structure ControlMessage where
  have_tx : List ControlHaveTx
  reset_route : List ControlResetRoute
deriving DecidableEq, Repr

structure RPC where
  txs : List Transaction
  control : Option ControlMessage
deriving DecidableEq, Repr

variable [Schema]

open Protobuf

def Transaction.write_message (tx : Transaction) : Bytes :=
  bytesField (Schema.from_) tx.from_ ++
  uintField Schema.seqno_wire Schema.seqno tx.seqno.toNat ++
  bytesField Schema.data tx.data ++
  bytesField Schema.signature tx.signature ++
  bytesField Schema.key tx.key

def ControlHaveTx.write_message (have_tx : ControlHaveTx) : Bytes :=
  bytesField Schema.tx_id have_tx.tx_id

def ControlMessage.write_message (control : ControlMessage) : Bytes :=
  control.have_tx.flatMap (fun m => lengthField Schema.have_tx m.write_message) ++
  control.reset_route.flatMap (fun _ => lengthField Schema.reset_route [])

def RPC.write_message (rpc : RPC) : Bytes :=
  rpc.txs.flatMap (fun tx => lengthField Schema.txs tx.write_message) ++
  (rpc.control.map fun c => lengthField Schema.control c.write_message).getD []

def Transaction.get_size (tx : Transaction) : Nat := tx.write_message.length

def RPC.get_size (rpc : RPC) : Nat := rpc.write_message.length

end proto

variable {P : Type}

/-- `impl From<RawTransaction> for proto::Transaction` -/
def RawTransaction.into_proto [Libp2p P] (tx : RawTransaction P) : proto.Transaction where
  from_ := Libp2p.to_bytes tx.from_
  seqno := tx.seqno
  data := tx.data
  signature := tx.signature.getD []
  key := tx.key.getD []

def RawTransaction.raw_protobuf_len [Libp2p P] [Schema] (tx : RawTransaction P) : Nat :=
  tx.into_proto.get_size

def HaveTx.into_proto (have_tx : HaveTx) : proto.ControlHaveTx := { tx_id := have_tx.tx_id.val }

def ResetRoute.into_proto (_ : ResetRoute) : proto.ControlResetRoute := {}

/-- `impl From<RpcOut> for proto::RPC` -/
def RpcOut.into_protobuf [Libp2p P] : RpcOut P → proto.RPC
  | .Publish tx _ => { txs := [tx.into_proto], control := none }
  | .Forward tx _ => { txs := [tx.into_proto], control := none }
  | .HaveTx have_tx =>
    { txs := [], control := some { have_tx := [have_tx.into_proto], reset_route := [] } }
  | .ResetRoute reset_route =>
    { txs := [], control := some { have_tx := [], reset_route := [reset_route.into_proto] } }

end libp2p_dog
