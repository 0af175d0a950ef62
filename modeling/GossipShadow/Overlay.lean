-- An overlay of honest nodes whose connections come and go. Each node is run as
-- in a network of one; what its handlers send is in the air until it arrives or
-- is lost, in any order and at any time.
import GossipShadow.Acceptance

namespace libp2p_dog

/-- What an overlay is made of. All nodes sign what they publish, have the same idea of which
transactions are the same, and undo each other's transforms. -/
structure Overlay (P F : Type) [Libp2p P] where
  nodes : List P
  keypair : P → Libp2p.Keypair P
  config : P → Config P F
  seqno : P → UInt64
  metrics : P → Bool
  transaction_id_fn : Transaction P → TransactionId
  data_transform : DataTransform P
  identity : ∀ v ∈ nodes, Libp2p.to_peer_id (Libp2p.public_key (keypair v)) = v
  agree : ∀ v, (config v).transaction_id_fn = transaction_id_fn
  lawful : data_transform.Lawful

/-- An RPC that a handler of one node has sent to another node. -/
structure Packet (P : Type) where
  sender : P
  recipient : P
  rpc : RpcOut P
deriving DecidableEq, Repr

structure OverlayState (P F : Type) [Libp2p P] where
  node : P → Node P F
  air : List (Packet P)

/-- What happens in an overlay. A node does a step of its own; or an RPC arrives, and the codec
takes its transaction out or does not; or an RPC is lost. -/
inductive OverlayOp (P : Type) where
  | act (v : P) (op : Op P)
  | deliver (index now draw : Nat) (valid : Bool)
  | lose (index : Nat)

section

variable {P F : Type} [Libp2p P] [DecidableEq P]

/-- The RPC that a poll of a receiver gives to the handler, which sends it. -/
def Node.sent (n : Node P F) (v : P) : Op P → Option (Packet P)
  | .poll_next index => do
    let connection ← n.connections[index]?
    let queue ← n.behaviour.queue connection.peer_id
    let rpc ← Receiver.out (connection.receiver.poll_next false queue).1
    some { sender := v, recipient := connection.peer_id, rpc }
  | _ => none

/-- The operation is the arrival of an RPC. -/
def Op.arrives {P : Type} : Op P → Bool
  | .call (.on_connection_handler_event _ _ _ (.Transaction _ _)) => true
  | _ => false

namespace Overlay

def setup (o : Overlay P F) (v : P) : Setup P F where
  clock := o.seqno v
  authenticity := .Signed (o.keypair v)
  config := o.config v
  metrics := o.metrics v
  data_transform := o.data_transform

/-- Distinct authors and sequence numbers give distinct ids, among what the nodes publish. -/
def Distinct (o : Overlay P F) : Prop :=
  ∀ tx tx', tx.from_ ∈ o.nodes → tx'.from_ ∈ o.nodes →
    o.transaction_id_fn tx = o.transaction_id_fn tx' →
    tx.from_ = tx'.from_ ∧ tx.seqno = tx'.seqno

variable [F64 F] [Schema]

def initial (o : Overlay P F) : OverlayState P F where
  node v := (o.setup v).node
  air := []

def step (o : Overlay P F) (n : OverlayState P F) : OverlayOp P → Option (OverlayState P F)
  | .act v op =>
    -- the RPCs of peers come out of the air
    if decide (v ∈ o.nodes) && !op.arrives then
      ((n.node v).step op).map fun node =>
        { node := Function.update n.node v node
          air := n.air ++ ((n.node v).sent v op).toList }
    else none
  | .deliver index now draw valid => do
    let packet ← n.air[index]?
    if packet.recipient ∈ o.nodes then
      -- the behaviour does not look at what the codec has taken out
      let event := .Transaction (packet.rpc.arrival valid) []
      let op := .call (.on_connection_handler_event (fun _ => now) draw packet.sender event)
      ((n.node packet.recipient).step op).map fun node =>
        { node := Function.update n.node packet.recipient node
          air := n.air.eraseIdx index }
    else none
  | .lose index => some { n with air := n.air.eraseIdx index }

def machine (o : Overlay P F) : Machine (OverlayState P F) (OverlayOp P) :=
  .ofFun (· = o.initial) o.step

end Overlay

/-- The cached source of a transaction at a node. -/
def OverlayState.source (n : OverlayState P F) (id : TransactionId) (v : P) : Option P :=
  (n.node v).behaviour.cache.get id

/-- The clock that a step reads for a cache, with the node of the cache. -/
def OverlayState.readings (n : OverlayState P F) : OverlayOp P → List (P × Nat)
  | .act v (.call (.publish now _)) => [(v, now)]
  | .deliver index now _ _ => n.air[index]?.toList.map fun packet => (packet.recipient, now)
  | _ => []

namespace Overlay

variable [F64 F] [Schema]

/-- The clock readings of a run. -/
def readings (o : Overlay P F) (ops : List (OverlayOp P)) : List (P × Nat) :=
  Machine.observe o.step OverlayState.readings o.initial ops

/-- The clocks of the run are read from `start` on, and before a cache would let go of an entry that
it took then. -/
def InWindow (o : Overlay P F) (start : Nat) (ops : List (OverlayOp P)) : Prop :=
  ∀ r ∈ o.readings ops, start ≤ r.2 ∧ r.2 < start + (o.config r.1).cache_time

instance (o : Overlay P F) (start : Nat) (ops : List (OverlayOp P)) :
    Decidable (o.InWindow start ops) :=
  inferInstanceAs (Decidable (∀ r ∈ o.readings ops, _))

end Overlay

end

/-! ## The ids that nodes give by default -/

theorem toUInt8_of_isDigit {c : Char} (h : c.isDigit = true) :
    c.toUInt8.toNat = c.toNat ∧ 48 ≤ c.toNat ∧ c.toNat ≤ 57 := by
  unfold Char.isDigit at h
  simp only [Bool.and_eq_true, decide_eq_true_eq] at h
  have hlow : 48 ≤ c.toNat := UInt32.le_iff_toNat_le.mp h.1
  have hle : c.toNat ≤ 57 := UInt32.le_iff_toNat_le.mp h.2
  refine ⟨?_, hlow, hle⟩
  unfold Char.toUInt8 Char.toNat at *
  rw [UInt32.toNat_toUInt8]
  omega

theorem digit_of_toUInt8 {c : Char} (h : c.isDigit = true) : Char.ofNat c.toUInt8.toNat = c := by
  rw [(toUInt8_of_isDigit h).1, Char.ofNat_toNat]

theorem decimal_injective {m n : UInt64} (h : Config.decimal m = Config.decimal n) : m = n := by
  have hback : ∀ n : UInt64, (Config.decimal n).map (fun b => Char.ofNat b.toNat) =
      Nat.toDigits 10 n.toNat := by
    intro n
    unfold Config.decimal
    rw [List.map_map]
    calc (Nat.toDigits 10 n.toNat).map ((fun b : UInt8 => Char.ofNat b.toNat) ∘ Char.toUInt8)
        = (Nat.toDigits 10 n.toNat).map id := by
          apply List.map_congr_left
          intro c hc
          exact digit_of_toUInt8 (Nat.isDigit_of_mem_toDigits (by omega) (by omega) hc)
      _ = Nat.toDigits 10 n.toNat := List.map_id _
  have hdigits := congrArg (List.map fun b => Char.ofNat b.toNat) h
  rw [hback, hback] at hdigits
  have hnat := congrArg (fun l => Nat.ofDigitChars 10 l 0) hdigits
  simp only [Nat.ofDigitChars_ten_toDigits] at hnat
  exact UInt64.toNat_inj.mp hnat

/-- The default ids of nodes whose names have one length are distinct. -/
theorem default_transaction_id_distinct {P F : Type} [Libp2p P] {o : Overlay P F}
    (hid : o.transaction_id_fn = Config.default_transaction_id)
    (hlength : ∀ p ∈ o.nodes, ∀ q ∈ o.nodes,
      (Libp2p.to_base58 p).length = (Libp2p.to_base58 q).length)
    (hinjective : ∀ p ∈ o.nodes, ∀ q ∈ o.nodes,
      Libp2p.to_base58 p = Libp2p.to_base58 q → p = q) : o.Distinct := by
  intro tx tx' hfrom hfrom' h
  rw [hid] at h
  unfold Config.default_transaction_id at h
  obtain ⟨hauthor, hseqno⟩ :=
    List.append_inj (TransactionId.mk.inj h) (hlength _ hfrom _ hfrom')
  exact ⟨hinjective _ hfrom _ hfrom' hauthor, decimal_injective hseqno⟩

namespace Sample

theorem identity_of_keypair (nodes : List Peer) :
    ∀ v ∈ nodes, Libp2p.to_peer_id (Libp2p.public_key (v : Libp2p.Keypair Peer)) = v :=
  fun _ _ => rfl

theorem agree_default : ∀ _ : Peer,
    (Config.default : Config Peer Rat).transaction_id_fn = Config.default_transaction_id :=
  fun _ => rfl

/-- Nodes with the default configuration, not connected yet. -/
def overlay (nodes : List Peer) : Overlay Peer Rat where
  nodes := nodes
  keypair v := v
  config _ := .default
  seqno _ := 0
  metrics _ := false
  transaction_id_fn := Config.default_transaction_id
  data_transform := IdentityTransform
  identity := identity_of_keypair nodes
  agree := agree_default
  lawful := identityTransform_lawful

theorem overlay_distinct (nodes : List Peer) : (overlay nodes).Distinct := by
  refine default_transaction_id_distinct rfl (fun _ _ _ _ => rfl) ?_
  intro p _ q _ hpq
  obtain ⟨m⟩ := p
  obtain ⟨n⟩ := q
  have hbyte : 49 + m = 49 + n := List.head_eq_of_cons_eq hpq
  rw [UInt8.add_right_inj] at hbyte
  rw [hbyte]

/-- Node 0 publishes to node 1 and then loses the connection; node 1 forwards to node 2. -/
def two_hops : List (OverlayOp Peer) :=
  [.act ⟨0⟩ (connect 1), .act ⟨1⟩ (connect 0),
   .act ⟨1⟩ (connect 2), .act ⟨2⟩ (connect 1),
   .act ⟨0⟩ (.call (.publish 0 [7])), .act ⟨0⟩ (.poll_next 0), .act ⟨0⟩ (close 1),
   .deliver 0 0 0 true, .act ⟨1⟩ (.poll_next 1), .deliver 0 0 0 true]

theorem two_hops_in_window : (overlay [⟨0⟩, ⟨1⟩, ⟨2⟩]).InWindow 0 two_hops := by decide +kernel

end Sample

end libp2p_dog
