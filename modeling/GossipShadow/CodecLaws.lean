-- Laws of the wire format: decoding gives back what was encoded, up to the
-- difference between an empty field and an absent one and the order of the
-- control messages, and a published transaction passes any number of hops.
import GossipShadow.Acceptance
import GossipShadow.Protocol

namespace libp2p_dog

/-! ## What the wire format does not keep -/

section

variable {P : Type}

/-- A field that is there but empty is absent. -/
def RawTransaction.normalise (tx : RawTransaction P) : RawTransaction P :=
  { tx with
    signature := tx.signature.bind DogCodec.field
    key := tx.key.bind DogCodec.field }

def ControlAction.isHaveTx : ControlAction → Bool
  | HaveTx _ => true
  | ResetRoute _ => false

/-- The HaveTx, in order, come before the ResetRoute. -/
def Rpc.normalise (rpc : Rpc P) : Rpc P where
  transactions := rpc.transactions.map (·.normalise)
  control_msgs :=
    rpc.control_msgs.filter (·.isHaveTx) ++ rpc.control_msgs.filter (!·.isHaveTx)

theorem field_idem (bytes : Option Bytes) :
    (bytes.bind DogCodec.field).bind DogCodec.field = bytes.bind DogCodec.field := by
  cases bytes with
  | none => rfl
  | some bytes =>
    by_cases h : bytes = []
    · simp [DogCodec.field, h]
    · simp [DogCodec.field, h]

theorem field_of_ne {bytes : Option Bytes} (h : bytes ≠ some []) :
    bytes.bind DogCodec.field = bytes := by
  cases bytes with
  | none => rfl
  | some bytes => exact if_neg fun hnil => h (congrArg some hnil)

theorem field_getD (bytes : Option Bytes) :
    DogCodec.field (bytes.getD []) = bytes.bind DogCodec.field := by
  cases bytes with
  | none => rfl
  | some bytes => rfl

theorem getD_field (bytes : Option Bytes) :
    (bytes.bind DogCodec.field).getD [] = bytes.getD [] := by
  cases bytes with
  | none => rfl
  | some bytes =>
    by_cases h : bytes = []
    · simp [DogCodec.field, h]
    · simp [DogCodec.field, h]

@[simp] theorem RawTransaction.normalise_idem (tx : RawTransaction P) :
    tx.normalise.normalise = tx.normalise := by
  simp [normalise, field_idem]

theorem RawTransaction.normalise_of_ne {tx : RawTransaction P} (hsignature : tx.signature ≠ some [])
    (hkey : tx.key ≠ some []) : tx.normalise = tx := by
  unfold normalise
  rw [field_of_ne hsignature, field_of_ne hkey]

theorem Rpc.normalise_idem (rpc : Rpc P) : rpc.normalise.normalise = rpc.normalise := by
  simp [normalise, List.filter_append, List.filter_filter]

variable [Libp2p P]

@[simp] theorem RawTransaction.into_proto_normalise (tx : RawTransaction P) :
    tx.normalise.into_proto = tx.into_proto := by
  simp [normalise, into_proto, getD_field]

omit [Libp2p P] in
/-- To bring the HaveTx to the front changes nothing for what is read off one of the two kinds. -/
theorem filterMap_normalise {α : Type} {f : ControlAction → Option α} (kind : Bool)
    (h : ∀ msg, msg.isHaveTx ≠ kind → f msg = none) (rpc : Rpc P) :
    rpc.normalise.control_msgs.filterMap f = rpc.control_msgs.filterMap f := by
  have hnone : ∀ p : ControlAction → Bool, (∀ msg, p msg = true → msg.isHaveTx ≠ kind) →
      (rpc.control_msgs.filter p).filterMap f = [] := by
    intro p hp
    rw [List.filterMap_eq_nil_iff]
    intro msg hmsg
    exact h msg (hp msg (List.mem_filter.mp hmsg).2)
  have hall : ∀ p : ControlAction → Bool, (∀ msg, p msg = false → msg.isHaveTx ≠ kind) →
      (rpc.control_msgs.filter p).filterMap f = rpc.control_msgs.filterMap f := by
    intro p hp
    rw [List.filterMap_filter]
    congr 1
    funext msg
    cases hmsg : p msg with
    | true => rfl
    | false => exact (h msg (hp msg hmsg)).symm
  unfold Rpc.normalise
  rw [List.filterMap_append]
  cases kind with
  | true => rw [hall _ (by simp), hnone _ (by simp), List.append_nil]
  | false => rw [hnone _ (by simp), hall _ (by simp), List.nil_append]

/-- The wire format does not see the difference. -/
theorem Rpc.into_protobuf_normalise (rpc : Rpc P) :
    rpc.normalise.into_protobuf = rpc.into_protobuf := by
  have hhave : rpc.normalise.control_msgs.filterMap (·.have_tx) =
      rpc.control_msgs.filterMap (·.have_tx) := by
    apply filterMap_normalise true
    rintro (have_tx | reset_route) hkind
    · exact absurd rfl hkind
    · rfl
  have hreset : rpc.normalise.control_msgs.filterMap (·.reset_route) =
      rpc.control_msgs.filterMap (·.reset_route) := by
    apply filterMap_normalise false
    rintro (have_tx | reset_route) hkind
    · rfl
    · exact absurd rfl hkind
  have htxs : rpc.normalise.transactions.map (·.into_proto) =
      rpc.transactions.map (·.into_proto) := by
    simp [normalise]
  unfold into_protobuf
  rw [hhave, hreset, htxs]

/-! ## What the decoder gives back -/

/-- The control messages come back in the order in which the wire format keeps them. -/
theorem decode_control_into_protobuf (rpc : Rpc P) :
    (rpc.into_protobuf.control.map DogCodec.decode_control).getD [] =
      rpc.normalise.control_msgs := by
  have hhave : (rpc.control_msgs.filterMap (·.have_tx)).filterMap
      (fun have_tx => (HaveTx.try_from have_tx).map ControlAction.HaveTx) =
      rpc.control_msgs.filter (·.isHaveTx) := by
    rw [List.filterMap_filterMap, ← List.filterMap_eq_filter]
    congr 1
    funext msg
    cases msg <;> rfl
  have hreset : (rpc.control_msgs.filterMap (·.reset_route)).map
      (fun _ => ControlAction.ResetRoute {}) = rpc.control_msgs.filter (!·.isHaveTx) := by
    rw [List.map_filterMap, ← List.filterMap_eq_filter]
    congr 1
    funext msg
    cases msg <;> rfl
  simp only [Rpc.into_protobuf, DogCodec.decode_control, Option.map_some, Option.getD_some, hhave,
    hreset, Rpc.normalise]

theorem raw_transaction_into_proto (tx : RawTransaction P) :
    DogCodec.raw_transaction tx.from_ tx.into_proto = tx.normalise := by
  simp [DogCodec.raw_transaction, RawTransaction.into_proto, RawTransaction.normalise, field_getD]

variable [DecidableEq P] [Schema]

/-- The decoder lets the transaction through. -/
def Passes (validation_mode : ValidationMode) (tx : RawTransaction P) : Prop :=
  ∀ random, DogCodec.decode_transaction validation_mode random tx.into_proto = .ok tx.normalise

/-- Transactions that all pass come out as they are, and none is invalid. -/
theorem decode_transactions_of_passes {validation_mode : ValidationMode} (random : Nat → P)
    {txs : List (RawTransaction P)} (h : ∀ tx ∈ txs, Passes validation_mode tx) (count : Nat) :
    DogCodec.decode_transactions validation_mode random count (txs.map (·.into_proto)) =
      (txs.map (·.normalise), []) := by
  induction txs generalizing count with
  | nil => rfl
  | cons tx txs ih =>
    have hrest := ih (fun tx htx => h tx (List.mem_cons_of_mem _ htx)) (count + 1)
    have hfirst := h tx List.mem_cons_self (random count)
    simp only [List.map_cons, DogCodec.decode_transactions, hrest, hfirst]

theorem decode_rpc_of_passes {validation_mode : ValidationMode} (random : Nat → P) {rpc : Rpc P}
    (h : ∀ tx ∈ rpc.transactions, Passes validation_mode tx) :
    DogCodec.decode_rpc validation_mode random rpc.into_protobuf =
      .Transaction rpc.normalise [] := by
  unfold DogCodec.decode_rpc
  rw [decode_control_into_protobuf]
  simp only [Rpc.into_protobuf, decode_transactions_of_passes random h]
  rfl

/-- What a node sends arrives as `arrival` says. -/
theorem decode_rpc_out_of_passes {validation_mode : ValidationMode} (random : Nat → P)
    {out : RpcOut P} (h : ∀ tx, out.tx? = some tx → Passes validation_mode tx) :
    DogCodec.decode_rpc validation_mode random out.into_protobuf =
      .Transaction (out.arrival true).normalise [] := by
  cases out with
  | Publish tx timeout =>
    have htx := decode_transactions_of_passes random (List.forall_mem_singleton.mpr (h tx rfl)) 0
    simp only [List.map_cons, List.map_nil] at htx
    simp only [DogCodec.decode_rpc, RpcOut.into_protobuf, htx]
    rfl
  | Forward tx timeout =>
    have htx := decode_transactions_of_passes random (List.forall_mem_singleton.mpr (h tx rfl)) 0
    simp only [List.map_cons, List.map_nil] at htx
    simp only [DogCodec.decode_rpc, RpcOut.into_protobuf, htx]
    rfl
  | HaveTx have_tx => rfl
  | ResetRoute reset_route => rfl

/-- Without validation, each transaction whose author can be parsed passes. -/
theorem passes_none (hpeer : ∀ p : P, Libp2p.from_bytes (Libp2p.to_bytes p) = some p)
    (tx : RawTransaction P) : Passes .None tx := by
  intro random
  have hfrom : (Libp2p.from_bytes tx.into_proto.from_ : Option P) = some tx.from_ :=
    hpeer tx.from_
  unfold DogCodec.decode_transaction
  rw [hfrom, ← raw_transaction_into_proto]
  rfl

/-! ## Frames -/

/-- The framing gives this RPC back. -/
def Codec.RoundTrips (codec : Codec) (rpc : proto.RPC) : Prop :=
  ∃ frame, codec.encode rpc = .ok frame ∧
    ∀ rest, codec.decode (frame ++ rest) = .ok (some rpc, rest)

/-- What arrives when the RPC is sent. -/
def DogCodec.Transmits (c : DogCodec) (random : Nat → P) (rpc : proto.RPC)
    (event : HandlerEvent P) : Prop :=
  ∃ frame, c.encode rpc = .ok frame ∧
    ∀ rest, c.decode random (frame ++ rest) = .ok (some event, rest)

theorem Codec.RoundTrips.transmits {c : DogCodec} {rpc : proto.RPC} (h : c.codec.RoundTrips rpc)
    (random : Nat → P) :
    c.Transmits random rpc (DogCodec.decode_rpc c.validation_mode random rpc) := by
  obtain ⟨frame, hencode, hdecode⟩ := h
  refine ⟨frame, hencode, ?_⟩
  intro rest
  unfold DogCodec.decode
  rw [hdecode]

/-- Decoding undoes encoding. An RPC comes back in its normal form, from which the same frame is
made again; and what a node sends comes back as the one transaction or control message that it
carries. -/
theorem decoding_undoes_encoding {c : DogCodec} (hmode : c.validation_mode = .None)
    (hpeer : ∀ p : P, Libp2p.from_bytes (Libp2p.to_bytes p) = some p) :
    (∀ (rpc : Rpc P) random, c.codec.RoundTrips rpc.into_protobuf →
      c.Transmits random rpc.into_protobuf (.Transaction rpc.normalise [])) ∧
    (∀ rpc : Rpc P, rpc.normalise.normalise = rpc.normalise ∧
      rpc.normalise.into_protobuf = rpc.into_protobuf ∧
      rpc.normalise.control_msgs.Perm rpc.control_msgs) ∧
    ∀ (out : RpcOut P) random, c.codec.RoundTrips out.into_protobuf →
      c.Transmits random out.into_protobuf (.Transaction (out.arrival true).normalise []) := by
  refine ⟨?_, ?_, ?_⟩
  · intro rpc random hframe
    have h := hframe.transmits random
    rwa [hmode, decode_rpc_of_passes random fun tx _ => passes_none hpeer tx] at h
  · intro rpc
    exact ⟨rpc.normalise_idem, rpc.into_protobuf_normalise, List.filter_append_perm _ _⟩
  · intro out random hframe
    have h := hframe.transmits random
    rwa [hmode, decode_rpc_out_of_passes random fun tx _ => passes_none hpeer tx] at h

/-! ## A published transaction, hop by hop -/

/-- What the code relies on of libp2p's identities. A short key is the digest of the peer id, after
the code and the size of the digest. -/
structure Libp2p.Lawful (P : Type) [Libp2p P] : Prop where
  from_bytes : ∀ p : P, from_bytes (to_bytes p) = some p
  signature : ∀ (keypair : Keypair P) bytes signature, sign keypair bytes = .ok signature →
    signature ≠ [] ∧ verify (public_key keypair) bytes signature = true
  key : ∀ key : PublicKey P, try_decode_protobuf (encode_protobuf key) = some key
  no_key : (try_decode_protobuf [] : Option (PublicKey P)) = none
  inlined : ∀ key : PublicKey P, (encode_protobuf key).length ≤ 42 →
    to_bytes (to_peer_id key) =
      0 :: UInt8.ofNat (encode_protobuf key).length :: encode_protobuf key

omit [DecidableEq P] [Schema] in
/-- The verifier finds the key of the author: in the key field when it is long, and else in the peer
id. -/
theorem public_key_of_signed (hlaws : Libp2p.Lawful P) (keypair : Libp2p.Keypair P)
    {tx : proto.Transaction}
    (hkey : tx.key = (if (Libp2p.encode_protobuf (Libp2p.public_key keypair)).length ≤ 42 then []
      else Libp2p.encode_protobuf (Libp2p.public_key keypair))) :
    DogCodec.public_key (Libp2p.to_peer_id (Libp2p.public_key keypair)) tx =
      some (Libp2p.public_key keypair) := by
  unfold DogCodec.public_key
  split at hkey
  · rename_i hshort
    rw [hkey, hlaws.no_key, hlaws.inlined _ hshort]
    exact hlaws.key _
  · rw [hkey, hlaws.key]

omit [DecidableEq P] in
/-- The transaction that a signing author builds. -/
theorem build_signed {keypair : Libp2p.Keypair P} {seqno : UInt64} {data : Bytes}
    {raw : RawTransaction P} {c : PublishConfig P}
    (h : (PublishConfig.from_authenticity seqno (.Signed keypair)).build_raw_transaction data =
      some (.ok raw, c)) :
    raw.from_ = Libp2p.to_peer_id (Libp2p.public_key keypair) ∧
    raw.key = (if (Libp2p.encode_protobuf (Libp2p.public_key keypair)).length ≤ 42 then none
      else some (Libp2p.encode_protobuf (Libp2p.public_key keypair))) ∧
    ∃ signature, raw.signature = some signature ∧
      Libp2p.sign keypair (signature_bytes raw.from_ raw.seqno raw.data) = .ok signature := by
  simp only [PublishConfig.from_authenticity, PublishConfig.build_raw_transaction,
    Option.map_eq_some_iff] at h
  obtain ⟨next, -, h⟩ := h
  cases hsign : Libp2p.sign keypair
      (signature_bytes (Libp2p.to_peer_id (Libp2p.public_key keypair)) next data) with
  | error e =>
    rw [hsign] at h
    cases h
  | ok signature =>
    rw [hsign] at h
    cases h
    exact ⟨rfl, rfl, signature, rfl, hsign⟩

/-- The transaction of a signing author is kept as it is on the wire, and it passes the strictest
validation. -/
theorem signed_passes (hlaws : Libp2p.Lawful P) {keypair : Libp2p.Keypair P} {seqno : UInt64}
    {data : Bytes} {raw : RawTransaction P} {c : PublishConfig P}
    (h : (PublishConfig.from_authenticity seqno (.Signed keypair)).build_raw_transaction data =
      some (.ok raw, c)) :
    raw.normalise = raw ∧ Passes .Strict raw := by
  obtain ⟨hfrom, hkey, signature, hsignature, hsign⟩ := build_signed h
  obtain ⟨hsome, hverify⟩ := hlaws.signature _ _ _ hsign
  have hparsed : (Libp2p.from_bytes raw.into_proto.from_ : Option P) = some raw.from_ :=
    hlaws.from_bytes raw.from_
  have hpublic : DogCodec.public_key raw.from_ raw.into_proto =
      some (Libp2p.public_key keypair) := by
    rw [hfrom]
    apply public_key_of_signed hlaws
    simp only [RawTransaction.into_proto, hkey]
    split <;> rfl
  have hverified : DogCodec.verify_signature P raw.into_proto = true := by
    unfold DogCodec.verify_signature
    rw [hparsed]
    simp only [hpublic]
    rw [if_neg (not_not.mpr hfrom)]
    -- what the verifier writes is what the author signed
    simp only [RawTransaction.into_proto, hsignature, Option.getD_some]
    exact hverify
  refine ⟨RawTransaction.normalise_of_ne ?_ ?_, ?_⟩
  · rw [hsignature]
    simpa using hsome
  · rw [hkey]
    split
    · simp
    · rename_i hlong
      intro hnil
      rw [Option.some.inj hnil] at hlong
      exact hlong (Nat.zero_le _)
  · intro random
    unfold DogCodec.decode_transaction
    rw [hparsed, ← raw_transaction_into_proto]
    simp [hverified]

/-- Sends an RPC over a connection. -/
def DogCodec.transmit (c : DogCodec) (random : Nat → P) (rpc : proto.RPC) :
    Option (HandlerEvent P) :=
  match c.encode rpc with
  | .error _ => none
  | .ok frame => match c.decode random frame with
    | .error _ => none
    | .ok (event, _) => event

omit [Libp2p P] [DecidableEq P] [Schema] in
/-- The one transaction of an event, if the decoder let it through. -/
def HandlerEvent.accepted : HandlerEvent P → Option (RawTransaction P)
  | .Transaction { transactions := [raw], control_msgs := _ } [] => some raw
  | _ => none

/-- What arrives after the transaction is sent as a Publish over connection 0 and then forwarded
over the connections up to `n`. -/
def travel (c : Nat → DogCodec) (random : Nat → Nat → P) (timeout : Nat → Delay)
    (raw : RawTransaction P) : Nat → Option (HandlerEvent P)
  | 0 => (c 0).transmit (random 0) (RpcOut.Publish raw (timeout 0)).into_protobuf
  | n + 1 => do
    let event ← travel c random timeout raw n
    let accepted ← event.accepted
    (c (n + 1)).transmit (random (n + 1)) (RpcOut.Forward accepted (timeout (n + 1))).into_protobuf

theorem DogCodec.Transmits.transmit {c : DogCodec} {random : Nat → P} {rpc : proto.RPC}
    {event : HandlerEvent P} (h : c.Transmits random rpc event) :
    c.transmit random rpc = some event := by
  obtain ⟨frame, hencode, hdecode⟩ := h
  have hframe := hdecode []
  rw [List.append_nil] at hframe
  unfold DogCodec.transmit
  simp only [hencode, hframe]

/-- The RPC that carries one transaction, as a Publish or as a Forward. -/
def RawTransaction.into_rpc (raw : RawTransaction P) : proto.RPC :=
  { txs := [raw.into_proto], control := none }

theorem travel_of_passes {c : Nat → DogCodec} {raw : RawTransaction P}
    (hmode : ∀ i, (c i).validation_mode = .Strict) (hpasses : Passes .Strict raw)
    (hnormal : raw.normalise = raw) (hframe : ∀ i, (c i).codec.RoundTrips raw.into_rpc)
    (random : Nat → Nat → P) (timeout : Nat → Delay) (n : Nat) :
    travel c random timeout raw n =
      some (.Transaction { transactions := [raw], control_msgs := [] } []) := by
  have hhop : ∀ i (out : RpcOut P), out.tx? = some raw → out.into_protobuf = raw.into_rpc →
      (c i).transmit (random i) out.into_protobuf = some (.Transaction (out.arrival true) []) := by
    intro i out hout hrpc
    have htransmits := ((hframe i).transmits (random i)).transmit
    rw [← hrpc, hmode, decode_rpc_out_of_passes] at htransmits
    · rw [htransmits]
      cases out with
      | Publish tx timeout =>
        cases hout
        simp [RpcOut.arrival, Rpc.normalise, hnormal]
      | Forward tx timeout =>
        cases hout
        simp [RpcOut.arrival, Rpc.normalise, hnormal]
      | HaveTx have_tx => cases hout
      | ResetRoute reset_route => cases hout
    · intro tx htx
      rw [hout] at htx
      cases htx
      exact hpasses
  induction n with
  | zero => exact hhop 0 _ rfl rfl
  | succ n ih =>
    unfold travel
    rw [ih]
    exact hhop (n + 1) _ rfl rfl

/-- What a signing author builds is accepted at every hop as it was built. If the author's data
transform is undone by the nodes, they all give the published transaction the id that `publish`
returned. -/
theorem a_published_transaction_survives_every_hop {F : Type} [F64 F] (hlaws : Libp2p.Lawful P)
    {c : Nat → DogCodec} (hmode : ∀ i, (c i).validation_mode = .Strict)
    (keypair : Libp2p.Keypair P) (seqno : UInt64) :
    (∀ data raw config, (PublishConfig.from_authenticity seqno
        (.Signed keypair)).build_raw_transaction data = some (.ok raw, config) →
      (∀ i, (c i).codec.RoundTrips raw.into_rpc) →
      ∀ random timeout n, travel c random timeout raw n =
        some (.Transaction { transactions := [raw], control_msgs := [] } [])) ∧
    ∀ (b b' : Behaviour P F) now data id,
      b.publish_config = .from_authenticity seqno (.Signed keypair) →
      b.data_transform.Lawful → b.publish now data = some (.ok id, b') →
      ∃ raw new, Sends b new b' ∧ (∀ a ∈ new, ∃ timeout, a.rpc = .Publish raw timeout) ∧
        ((∀ i, (c i).codec.RoundTrips raw.into_rpc) →
          ∀ random timeout n, travel c random timeout raw n =
            some (.Transaction { transactions := [raw], control_msgs := [] } [])) ∧
        ∀ peer : Behaviour P F, peer.data_transform = b.data_transform →
          peer.config.transaction_id_fn = b.config.transaction_id_fn →
            peer.id_of raw = some id := by
  have htravel : ∀ data raw config, (PublishConfig.from_authenticity seqno
      (.Signed keypair)).build_raw_transaction data = some (.ok raw, config) →
      (∀ i, (c i).codec.RoundTrips raw.into_rpc) →
      ∀ random timeout n, travel c random timeout raw n =
        some (.Transaction { transactions := [raw], control_msgs := [] } []) := by
    intro data raw config hbuild hframe random timeout n
    obtain ⟨hnormal, hpasses⟩ := signed_passes hlaws hbuild
    exact travel_of_passes hmode hpasses hnormal hframe random timeout n
  refine ⟨htravel, ?_⟩
  intro b b' now data id hauthor hlawful hpublish
  cases Behaviour.publish_spec hpublish with
  | refused e answer_eq =>
    cases answer_eq
  | taken raw tx_id new author outbound built tx_id_eq _ answer_eq sends spread =>
    refine ⟨raw, new, sends, ?_, ?_, ?_⟩
    · intro a ha
      exact ⟨_, (spread.all a ha).2.2⟩
    · obtain ⟨config, hbuild⟩ := built
      rw [hauthor] at hbuild
      exact htravel _ _ _ hbuild
    · intro peer htransform hid
      obtain ⟨raw_from, raw_seqno, raw_data, signature, key⟩ := raw
      unfold Behaviour.id_of DataTransform.id_of
      rw [htransform, hid, hlawful data raw_data outbound, answer_eq id rfl, tx_id_eq, ← author]
      rfl

end

/-! ## A codec to run -/

namespace Sample

theorem lawful : Libp2p.Lawful Peer where
  from_bytes p := by
    simp [Libp2p.from_bytes, Libp2p.to_bytes]
  signature keypair bytes signature h := by
    cases h
    simp [Libp2p.verify, Libp2p.public_key]
  key key := by
    simp [Libp2p.try_decode_protobuf, Libp2p.encode_protobuf]
    rfl
  no_key := rfl
  inlined key _ := by
    simp [Libp2p.to_bytes, Libp2p.encode_protobuf, Libp2p.to_peer_id]

/-- The frame of an RPC: its length, then the message. -/
def frame (rpc : proto.RPC) : Bytes :=
  Protobuf.varint rpc.get_size ++ rpc.write_message

/-- The codec on the frames of one RPC. -/
def codec (rpc : proto.RPC) : Codec where
  encode item := .ok (frame item)
  decode src :=
    if (frame rpc).isPrefixOf src then .ok (some rpc, src.drop (frame rpc).length)
    else .ok (none, src)

theorem codec_roundTrips (rpc : proto.RPC) : (codec rpc).RoundTrips rpc := by
  refine ⟨frame rpc, rfl, ?_⟩
  intro rest
  simp [codec]

/-- An RPC that is not in its normal form. -/
def mixed : Rpc Peer where
  transactions := [{ raw 1 1 with signature := some [], key := some [7] }]
  control_msgs := [.ResetRoute {}, .HaveTx { tx_id := tx_id 1 1 }]

/-- A node with peer 2 that has published nothing so far. -/
def publisher : Behaviour Peer Rat :=
  ((setup 1).behaviour.handle_established_inbound_connection ⟨0⟩ ⟨2⟩).2

end Sample

open Sample

theorem decoding_undoes_encoding_of_a_mixed_rpc :
    DogCodec.Transmits { validation_mode := .None, codec := codec mixed.into_protobuf }
      (fun _ => (⟨0⟩ : Peer)) mixed.into_protobuf (.Transaction
        { transactions := [{ raw 1 1 with signature := none, key := some [7] }]
          control_msgs := [.HaveTx { tx_id := tx_id 1 1 }, .ResetRoute {}] } []) :=
  (decoding_undoes_encoding rfl lawful.from_bytes).1 mixed _ (codec_roundTrips _)

theorem a_published_transaction_survives_three_hops :
    travel (fun _ => { validation_mode := .Strict, codec := codec (raw 1 1).into_rpc })
      (fun _ _ => (⟨0⟩ : Peer)) (fun _ => ⟨0, 0⟩) (raw 1 1) 2 =
      some (.Transaction { transactions := [raw 1 1], control_msgs := [] } []) ∧
    ∃ b' raw, publisher.publish 0 [1] = some (.ok (tx_id 1 1), b') ∧
      (setup 2).behaviour.id_of raw = some (tx_id 1 1) := by
  have hlaw := a_published_transaction_survives_every_hop (F := Rat) lawful
    (c := fun _ => { validation_mode := .Strict, codec := codec (raw 1 1).into_rpc })
    (fun _ => rfl) (⟨1⟩ : Peer) 0
  constructor
  · exact hlaw.1 [1] (raw 1 1) _ rfl (fun _ => codec_roundTrips _) _ _ 2
  · have hanswer : (publisher.publish 0 [1]).map (·.1) = some (.ok (tx_id 1 1)) := by
      decide +kernel
    obtain ⟨⟨answer, b'⟩, hpublish, rfl⟩ := Option.map_eq_some_iff.mp hanswer
    obtain ⟨raw, new, -, -, -, hids⟩ :=
      hlaw.2 publisher b' 0 [1] _ rfl identityTransform_lawful hpublish
    exact ⟨b', raw, hpublish, hids (setup 2).behaviour rfl rfl⟩

end libp2p_dog
