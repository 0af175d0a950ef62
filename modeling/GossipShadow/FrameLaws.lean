-- The size of a published transaction on the wire, against the limit that
-- `publish` tests and that the codec of the receiver enforces.
import GossipShadow.Node

namespace libp2p_dog

open Protobuf

section

variable {P F : Type} [Libp2p P] [Schema]

/-- The length of an encoded transaction, from its number and the lengths of its fields. -/
def transaction_len (author : Nat) (seqno : UInt64) (data signature key : Nat) : Nat :=
  bytesFieldLen Schema.from_ author +
    uintFieldLen Schema.seqno_wire Schema.seqno seqno.toNat +
    bytesFieldLen Schema.data data + bytesFieldLen Schema.signature signature +
    bytesFieldLen Schema.key key

/-- The length of the RPC that carries one transaction. -/
def frame_len (author : Nat) (seqno : UInt64) (data signature key : Nat) : Nat :=
  lengthFieldLen Schema.txs (transaction_len author seqno data signature key)

theorem publish_get_size (raw : RawTransaction P) (timeout : Delay) :
    (RpcOut.Publish raw timeout).into_protobuf.get_size =
      frame_len (Libp2p.to_bytes raw.from_).length raw.seqno raw.data.length
        (raw.signature.getD []).length (raw.key.getD []).length := by
  simp [RpcOut.into_protobuf, proto.RPC.get_size, proto.RPC.write_message,
    proto.Transaction.write_message, RawTransaction.into_proto, frame_len, transaction_len,
    uintFieldLen, Nat.add_assoc]

/-- The length of the frame that the next transaction of the author makes; `none` when there is
none. -/
def PublishConfig.next_frame_len (c : PublishConfig P) (data : Bytes) : Option Nat :=
  match c with
  | .Signing keypair author inline_key last_seqno =>
    (next_seqno last_seqno).bind fun seqno =>
      match Libp2p.sign keypair (signature_bytes author seqno data) with
      | .error _ => none
      | .ok signature => some (frame_len (Libp2p.to_bytes author).length seqno data.length
          signature.length (inline_key.getD []).length)
  | .Author author last_seqno =>
    (next_seqno last_seqno).map fun seqno =>
      frame_len (Libp2p.to_bytes author).length seqno data.length 0 0

theorem PublishConfig.next_frame_len_of_built {c c' : PublishConfig P} {data : Bytes}
    {raw : RawTransaction P} (timeout : Delay)
    (h : c.build_raw_transaction data = some (.ok raw, c')) :
    c.next_frame_len data = some (RpcOut.Publish raw timeout).into_protobuf.get_size := by
  rw [publish_get_size]
  cases c with
  | Signing keypair author inline_key last_seqno =>
    simp only [build_raw_transaction, Option.map_eq_some_iff] at h
    obtain ⟨seqno, hseqno, h⟩ := h
    simp only [next_frame_len, hseqno, Option.bind_some]
    cases hsign : Libp2p.sign keypair (signature_bytes author seqno data) with
    | error e =>
      simp only [hsign] at h
      cases h
    | ok signature =>
      simp only [hsign] at h
      cases h
      rfl
  | Author author last_seqno =>
    simp only [build_raw_transaction, Option.map_eq_some_iff] at h
    obtain ⟨seqno, hseqno, h⟩ := h
    cases h
    simp [next_frame_len, hseqno]

/-- The whole frame of the payload stays within the limit. -/
def Behaviour.frame_fits (b : Behaviour P F) (data : Bytes) : Bool :=
  match b.data_transform.outbound_transform data with
  | .ok transformed_data => (b.publish_config.next_frame_len transformed_data).any fun len =>
      decide (len ≤ b.config.max_transmit_size)
  | .error _ => false

variable [DecidableEq P]

/-- When `publish` hands a transaction to a queue, the frame is within the limit of the receiver
exactly when the whole frame was, and not only its data. -/
theorem a_published_frame_is_within_the_limit_iff {b b' : Behaviour P F} {now : Nat} {data : Bytes}
    {answer : Except PublishError TransactionId} {new : List (Attempt P)}
    (h : b.publish now data = some (answer, b')) (hnew : b'.history = b.history ++ new)
    (hhanded : ∃ a ∈ new, a.accepted = true) :
    (∀ a ∈ new, a.accepted = true →
      a.rpc.into_protobuf.get_size ≤ b.config.max_transmit_size) ↔ b.frame_fits data = true := by
  cases Behaviour.publish_spec h with
  | refused e _ sends _ _ =>
    obtain rfl : new = [] := by simpa [sends.history] using hnew.symm
    obtain ⟨a, ha, -⟩ := hhanded
    cases ha
  | taken raw tx_id sent _ outbound built _ _ _ sends spread _ _ =>
    obtain rfl : sent = new := by simpa [sends.history] using hnew
    obtain ⟨c, hbuilt⟩ := built
    have hlen := PublishConfig.next_frame_len_of_built
      { created := now, duration := b.config.connection_handler_publish_duration } hbuilt
    have hfits : b.frame_fits data = true ↔ (RpcOut.Publish raw
        { created := now,
          duration := b.config.connection_handler_publish_duration }).into_protobuf.get_size ≤
        b.config.max_transmit_size := by
      simp [Behaviour.frame_fits, outbound, hlen]
    rw [hfits]
    constructor
    · intro hall
      obtain ⟨a, ha, haccepted⟩ := hhanded
      have := hall a ha haccepted
      rwa [(spread.all a ha).2.2] at this
    · intro hle a ha _
      rwa [(spread.all a ha).2.2]

end

/-- A node whose frames are limited to 300 bytes, with peer 1 connected. -/
def small_frames : Setup Sample.Peer Rat :=
  { Sample.setup 0 with
    config := { Config.default with
      protocol := { max_transmit_size := 300, validation_mode := .Strict } } }

theorem a_published_frame_is_within_the_limit_for_a_small_payload :
    ∃ n b' new, small_frames.machine.Run small_frames.node [Sample.connect 1] n ∧
      (∃ answer, n.behaviour.publish 0 [1, 2, 3] = some (answer, b')) ∧
      b'.history = n.behaviour.history ++ new ∧ new ≠ [] ∧
      ∀ a ∈ new, a.accepted = true → a.rpc.into_protobuf.get_size ≤ 300 := by
  have hrun : (Machine.exec Node.step small_frames.node [Sample.connect 1]).map
      (fun n => (n.behaviour.config.max_transmit_size, n.behaviour.history,
        (n.behaviour.publish 0 [1, 2, 3]).map fun r => r.2.history.map (·.accepted),
        n.behaviour.frame_fits [1, 2, 3])) = some (300, [], some [true], true) := by
    decide +kernel
  obtain ⟨n, hrun, hsee⟩ := Machine.exists_run_of_exec hrun
  simp only [Prod.mk.injEq, Option.map_eq_some_iff] at hsee
  obtain ⟨hmax, hhistory, ⟨⟨answer, b'⟩, hpublish, haccepted⟩, hfits⟩ := hsee
  have hnew : b'.history = n.behaviour.history ++ b'.history := by simp [hhistory]
  have hhanded : ∃ a ∈ b'.history, a.accepted = true :=
    List.mem_map.mp (haccepted ▸ List.mem_singleton.mpr rfl)
  have hlaw := (a_published_frame_is_within_the_limit_iff hpublish hnew hhanded).mpr hfits
  rw [hmax] at hlaw
  refine ⟨n, b', b'.history, hrun, ⟨answer, hpublish⟩, hnew, ?_, hlaw⟩
  rintro hnil
  rw [hnil] at haccepted
  cases haccepted

/-- A payload of 300 bytes passes the test of `publish` and is handed to the queue of peer 1. -/
theorem a_published_frame_exceeds_the_limit :
    ¬ ∀ (s : Setup Sample.Peer Rat) (n : Node Sample.Peer Rat), s.machine.Reachable n →
      ∀ now data answer b' new, n.behaviour.publish now data = some (answer, b') →
        b'.history = n.behaviour.history ++ new → ∀ a ∈ new, a.accepted = true →
        a.rpc.into_protobuf.get_size ≤ n.behaviour.config.max_transmit_size := by
  intro hclaim
  have hrun : (Machine.exec Node.step small_frames.node [Sample.connect 1]).map
      (fun n => (n.behaviour.history, (n.behaviour.publish 0 (List.replicate 300 0)).map
        fun r => r.2.history.map fun a => (a.accepted,
          decide (a.rpc.into_protobuf.get_size ≤ n.behaviour.config.max_transmit_size)))) =
      some ([], some [(true, false)]) := by decide +kernel
  obtain ⟨n, hrun, hsee⟩ := Machine.exists_run_of_exec hrun
  simp only [Prod.mk.injEq, Option.map_eq_some_iff] at hsee
  obtain ⟨hhistory, ⟨answer, b'⟩, hpublish, hsent⟩ := hsee
  have hnew : b'.history = n.behaviour.history ++ b'.history := by simp [hhistory]
  obtain ⟨a, ha, hsee⟩ : ∃ a ∈ b'.history, (a.accepted,
      decide (a.rpc.into_protobuf.get_size ≤ n.behaviour.config.max_transmit_size)) =
        (true, false) := List.mem_map.mp (hsent ▸ List.mem_singleton.mpr rfl)
  simp only [Prod.mk.injEq, decide_eq_false_iff_not] at hsee
  exact hsee.2 (hclaim _ n ⟨_, _, rfl, hrun⟩ 0 _ answer b' _ hpublish hnew a ha hsee.1)

end libp2p_dog
