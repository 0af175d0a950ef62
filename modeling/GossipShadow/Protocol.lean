-- The wire format of the dog protocol (protocol.rs, and the conversions of
-- types.rs): what a frame holds, which of its transactions the decoder lets
-- through, and how an author's signature is checked.
import GossipShadow.Behaviour

namespace libp2p_dog

/-- `quick_protobuf_codec::Codec<proto::RPC>`: the frames of a stream. `decode` gives the bytes that
are left, and no RPC as long as the frame is not complete. -/
structure Codec where
  encode : proto.RPC → Except IoError Bytes
  decode : Bytes → Except IoError (Option proto.RPC × Bytes)

structure DogCodec where
  validation_mode : ValidationMode
  codec : Codec

section

variable {P : Type} [Libp2p P]

/-! ## From the RPC to the protobuf types -/

def ControlAction.have_tx : ControlAction → Option proto.ControlHaveTx
  | HaveTx have_tx => some have_tx.into_proto
  | ResetRoute _ => none

def ControlAction.reset_route : ControlAction → Option proto.ControlResetRoute
  | HaveTx _ => none
  | ResetRoute reset_route => some reset_route.into_proto

/-- `impl From<Rpc> for proto::RPC` -/
def Rpc.into_protobuf (rpc : Rpc P) : proto.RPC where
  txs := rpc.transactions.map (·.into_proto)
  control := some {
    have_tx := rpc.control_msgs.filterMap (·.have_tx)
    reset_route := rpc.control_msgs.filterMap (·.reset_route) }

/-- `impl TryFrom<proto::ControlHaveTx> for HaveTx` -/
def HaveTx.try_from (have_tx : proto.ControlHaveTx) : Option HaveTx :=
  some { tx_id := ⟨have_tx.tx_id⟩ }

/-! ## DogCodec -/

namespace DogCodec

/-- An empty field of the wire format stands for an absent one. -/
def field (bytes : Bytes) : Option Bytes := if bytes = [] then none else some bytes

/-- The transaction of a frame, with the author that its bytes were parsed to. -/
def raw_transaction (source : P) (transaction : proto.Transaction) : RawTransaction P where
  from_ := source
  seqno := transaction.seqno
  data := transaction.data
  signature := field transaction.signature
  key := field transaction.key

/-- The public key of the author: the one in the key field, or else the one inlined in the peer id.
A peer id has at least the two bytes that are dropped, the code and the size of its digest. -/
def public_key (peer_id : P) (transaction : proto.Transaction) : Option (Libp2p.PublicKey P) :=
  match (Libp2p.try_decode_protobuf transaction.key : Option (Libp2p.PublicKey P)) with
  | some key => some key
  | none => Libp2p.try_decode_protobuf ((Libp2p.to_bytes peer_id).drop 2)

variable [DecidableEq P] [Schema]

def verify_signature (P : Type) [Libp2p P] [DecidableEq P] (transaction : proto.Transaction) :
    Bool :=
  match (Libp2p.from_bytes transaction.from_ : Option P) with
  | none => false
  | some peer_id =>
    match public_key peer_id transaction with
    | none => false
    | some public_key =>
      if peer_id ≠ Libp2p.to_peer_id public_key then false
      else
        -- signature and key are not part of what is signed
        let transaction_sig := { transaction with signature := [], key := [] }
        Libp2p.verify public_key (SIGNING_PREFIX ++ transaction_sig.write_message)
          transaction.signature

/-- One turn of the loop of `decode`. The author of a transaction that has none is a random one. -/
def decode_transaction (validation_mode : ValidationMode) (random : P)
    (transaction : proto.Transaction) :
    Except (RawTransaction P × ValidationError) (RawTransaction P) :=
  match (Libp2p.from_bytes transaction.from_ : Option P) with
  | none => .error (raw_transaction random transaction, .InvalidPeerId)
  | some source =>
    if decide (validation_mode = .Strict) && !verify_signature P transaction then
      .error (raw_transaction source transaction, .InvalidSignature)
    else .ok (raw_transaction source transaction)

/-- The loop of `decode` over the transactions of a frame, from number `count`: those that go to the
node, and the invalid ones. -/
def decode_transactions (validation_mode : ValidationMode) (random : Nat → P) :
    Nat → List proto.Transaction →
      List (RawTransaction P) × List (RawTransaction P × ValidationError)
  | _, [] => ([], [])
  | count, transaction :: rest =>
    let (transactions, invalid_transactions) :=
      decode_transactions validation_mode random (count + 1) rest
    match decode_transaction validation_mode (random count) transaction with
    | .ok raw => (raw :: transactions, invalid_transactions)
    | .error invalid => (transactions, invalid :: invalid_transactions)

omit [Libp2p P] [DecidableEq P] [Schema] in
/-- The control messages of a frame: its HaveTx, then its ResetRoute. -/
def decode_control (control : proto.ControlMessage) : List ControlAction :=
  (control.have_tx.filterMap fun have_tx => (HaveTx.try_from have_tx).map .HaveTx) ++
    control.reset_route.map fun _ => .ResetRoute {}

/-- What `decode` makes of the RPC of a frame. -/
def decode_rpc (validation_mode : ValidationMode) (random : Nat → P) (rpc : proto.RPC) :
    HandlerEvent P :=
  let (transactions, invalid_transactions) :=
    decode_transactions validation_mode random 0 rpc.txs
  .Transaction
    { transactions, control_msgs := (rpc.control.map decode_control).getD [] }
    invalid_transactions

def decode (c : DogCodec) (random : Nat → P) (src : Bytes) :
    Except IoError (Option (HandlerEvent P) × Bytes) :=
  match c.codec.decode src with
  | .error e => .error e
  | .ok (none, src) => .ok (none, src)
  | .ok (some rpc, src) => .ok (some (decode_rpc c.validation_mode random rpc), src)

def encode (c : DogCodec) (item : proto.RPC) : Except IoError Bytes := c.codec.encode item

end DogCodec

end

end libp2p_dog
