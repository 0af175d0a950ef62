-- A node as an author: only publish draws a sequence number, and each number
-- that it draws is above all those that it drew before.
import GossipShadow.Labels

namespace libp2p_dog

section

variable {P F : Type} [Libp2p P]

def PublishConfig.last_seqno : PublishConfig P → UInt64
  | Signing _ _ _ last_seqno => last_seqno
  | Author _ last_seqno => last_seqno

theorem next_seqno_spec {last_seqno seqno : UInt64} (h : next_seqno last_seqno = some seqno) :
    seqno.toNat = last_seqno.toNat + 1 := by
  unfold next_seqno at h
  split at h
  · rename_i hlt
    cases h
    rw [UInt64.toNat_add]
    exact Nat.mod_eq_of_lt hlt
  · cases h

/-- The number drawn is the one of the transaction, and it stays when the signature fails. -/
theorem build_raw_transaction_seqno [Schema] {c c' : PublishConfig P} {data : Bytes}
    {r : Except PublishError (RawTransaction P)}
    (h : c.build_raw_transaction data = some (r, c')) :
    c'.last_seqno.toNat = c.last_seqno.toNat + 1 ∧ ∀ raw, r = .ok raw →
      raw.seqno = c'.last_seqno := by
  cases c with
  | Signing keypair author inline_key last_seqno =>
    simp only [PublishConfig.build_raw_transaction, Option.map_eq_some_iff] at h
    obtain ⟨seqno, hseqno, h⟩ := h
    split at h
    · cases h
      exact ⟨next_seqno_spec hseqno, by rintro raw ⟨⟩⟩
    · cases h
      exact ⟨next_seqno_spec hseqno, by rintro raw ⟨⟩; rfl⟩
  | Author author last_seqno =>
    simp only [PublishConfig.build_raw_transaction, Option.map_eq_some_iff] at h
    obtain ⟨seqno, hseqno, h⟩ := h
    cases h
    exact ⟨next_seqno_spec hseqno, by rintro raw ⟨⟩; rfl⟩

/-- To build a transaction fails on its signature, or not at all. -/
theorem build_raw_transaction_error [Schema] {c c' : PublishConfig P} {data : Bytes}
    {e : PublishError} (h : c.build_raw_transaction data = some (.error e, c')) :
    e ≠ .Duplicate := by
  cases c with
  | Signing keypair author inline_key last_seqno =>
    simp only [PublishConfig.build_raw_transaction, Option.map_eq_some_iff] at h
    obtain ⟨seqno, -, h⟩ := h
    split at h
    · cases h
      simp
    · cases h
  | Author author last_seqno =>
    simp only [PublishConfig.build_raw_transaction, Option.map_eq_some_iff] at h
    obtain ⟨seqno, -, h⟩ := h
    cases h

variable [DecidableEq P]

namespace Behaviour

theorem disconnect_publish_config (b : Behaviour P F) (p : P) :
    (b.disconnect p).publish_config = b.publish_config := by
  unfold disconnect
  dsimp only
  split <;> rfl

theorem handle_reset_route_publish_config (b : Behaviour P F) (draw : Nat) (source : P) :
    (b.handle_reset_route draw source).publish_config = b.publish_config := by
  unfold handle_reset_route
  dsimp only
  split <;> rfl

theorem handle_have_tx_publish_config (b : Behaviour P F) (tx_ids : List TransactionId)
    (source : P) : (b.handle_have_tx tx_ids source).publish_config = b.publish_config := by
  have hone : ∀ (b : Behaviour P F) tx_id,
      (b.handle_have_tx_id source tx_id).publish_config = b.publish_config := by
    intro b tx_id
    unfold handle_have_tx_id
    dsimp only
    split
    · split <;> rfl
    · rfl
  have hloop : (tx_ids.foldl (fun b tx_id => b.handle_have_tx_id source tx_id) b).publish_config =
      b.publish_config := by
    induction tx_ids generalizing b with
    | nil => rfl
    | cons tx_id tx_ids ih => rw [List.foldl_cons, ih, hone]
  exact hloop

variable [Schema]

theorem send_publish_config (b : Behaviour P F) (now : Nat) (tx_id : Option TransactionId) (p : P)
    (rpc : RpcOut P) : (b.send now tx_id p rpc).2.publish_config = b.publish_config := by
  rcases send_transaction_cases b p rpc with ⟨f, peer, sender, _, _, he⟩ | ⟨f, _, he⟩
  · simp [send, he, with_metrics]
  · simp [send, he, with_metrics]

theorem send_to_each_publish_config (b : Behaviour P F) (now : Nat) (tx_id : TransactionId)
    (transaction : Transaction P) (rpc : RpcOut P) (peers : List P) :
    (b.send_to_each now tx_id transaction rpc peers).2.publish_config = b.publish_config := by
  induction peers generalizing b with
  | nil => rfl
  | cons p peers ih =>
    simp only [send_to_each, ih]
    split
    · exact send_publish_config b now (some tx_id) p rpc
    · exact send_publish_config b now (some tx_id) p rpc

theorem publish_new_publish_config (b : Behaviour P F) (now : Nat) (raw : RawTransaction P)
    (transaction : Transaction P) (tx_id : TransactionId) :
    (b.publish_new now raw transaction tx_id).2.publish_config = b.publish_config := by
  unfold publish_new
  dsimp only
  split
  · apply send_to_each_publish_config
  · split
    · apply send_to_each_publish_config
    · apply send_to_each_publish_config

theorem send_have_tx_publish_config (b : Behaviour P F) (now : Nat) (tx_id : TransactionId)
    (source : P) : (b.send_have_tx now tx_id source).publish_config = b.publish_config := by
  unfold send_have_tx
  dsimp only
  split
  · exact send_publish_config b now (some tx_id) source _
  · exact send_publish_config b now (some tx_id) source _

theorem send_reset_route_publish_config (b : Behaviour P F) (now draw : Nat) :
    (b.send_reset_route now draw).publish_config = b.publish_config := by
  unfold send_reset_route
  split
  · rfl
  · rename_i p _
    dsimp only
    split
    · exact send_publish_config b now none p _
    · exact send_publish_config b now none p _

theorem adjust_redundancy_publish_config [F64 F] (b : Behaviour P F) (now draw : Nat) :
    (b.adjust_redundancy now draw).publish_config = b.publish_config := by
  unfold adjust_redundancy
  dsimp only
  split
  · exact send_reset_route_publish_config
      { b with redundancy_controller := b.redundancy_controller.evaluate.2 } now draw
  · rfl

theorem received_publish_config (b : Behaviour P F) (now : Nat) (raw : RawTransaction P)
    (source : P) : (b.handle_received_transaction now raw source).publish_config =
      b.publish_config := by
  have hduplicate : ∀ (b : Behaviour P F) tx_id,
      (b.handle_duplicate now tx_id source).publish_config = b.publish_config := by
    intro b tx_id
    unfold handle_duplicate
    dsimp only
    split
    · rfl
    · split
      · rfl
      · apply send_have_tx_publish_config
  have hfirst : ∀ (b : Behaviour P F) tx_id,
      (b.handle_first_time now tx_id raw source).publish_config = b.publish_config := by
    intro b tx_id
    unfold handle_first_time forward_transaction
    dsimp only
    split
    · split
      · rfl
      · apply send_to_each_publish_config
    · rfl
  unfold handle_received_transaction
  dsimp only
  split
  · rfl
  · split
    · apply hduplicate
    · apply hfirst

theorem handle_transactions_publish_config (b : Behaviour P F) (clock : Nat → Nat) (source : P)
    (count : Nat) (raws : List (RawTransaction P)) :
    (b.handle_transactions clock source count raws).publish_config = b.publish_config := by
  induction raws generalizing b count with
  | nil => rfl
  | cons raw raws ih =>
    unfold handle_transactions
    split
    · rfl
    · rw [ih, received_publish_config]

/-- `publish` leaves the node with what `prepare` has made of its author. -/
theorem publish_publish_config {b b' : Behaviour P F} {now : Nat} {data : Bytes}
    {answer : Except PublishError TransactionId} (h : b.publish now data = some (answer, b')) :
    ∃ result, b.prepare data = some (result, b'.publish_config) := by
  rw [publish_eq] at h
  obtain ⟨⟨result, config⟩, hprepare, hbuilt⟩ := Option.map_eq_some_iff.mp h
  have hconfig : b'.publish_config = config := by
    cases result with
    | error e =>
      cases hbuilt
      rfl
    | ok raw =>
      simp only [publish_built] at hbuilt
      split at hbuilt
      · cases hbuilt
        rfl
      · have hnew := publish_new_publish_config { b with publish_config := config } now raw
          { from_ := raw.from_, seqno := raw.seqno, data }
          (b.config.transaction_id { from_ := raw.from_, seqno := raw.seqno, data })
        rw [hbuilt] at hnew
        exact hnew
  rw [hconfig]
  exact ⟨result, hprepare⟩

/-- What `publish` keeps of what it draws. -/
theorem publish_seqno {b b' : Behaviour P F} {now : Nat} {data : Bytes}
    {answer : Except PublishError TransactionId} (h : b.publish now data = some (answer, b')) :
    b.publish_config.last_seqno.toNat ≤ b'.publish_config.last_seqno.toNat ∧
    ∀ m ∈ b.made (.publish now data),
      b.publish_config.last_seqno < m.1.seqno ∧ m.1.seqno = b'.publish_config.last_seqno := by
  obtain ⟨result, hprepare⟩ := publish_publish_config h
  revert hprepare
  generalize b'.publish_config = config
  intro hprepare
  have hdrawn : b.publish_config.last_seqno.toNat ≤ config.last_seqno.toNat ∧
      ∀ raw, result = .ok raw →
        b.publish_config.last_seqno.toNat < config.last_seqno.toNat ∧
          raw.seqno = config.last_seqno := by
    unfold prepare at hprepare
    split at hprepare
    · cases hprepare
      exact ⟨Nat.le_refl _, by rintro raw ⟨⟩⟩
    · split at hprepare
      · cases hprepare
        exact ⟨Nat.le_refl _, by rintro raw ⟨⟩⟩
      · obtain ⟨hnext, hraw⟩ := build_raw_transaction_seqno hprepare
        exact ⟨by omega, fun raw he => ⟨by omega, hraw raw he⟩⟩
  refine ⟨hdrawn.1, ?_⟩
  rintro ⟨raw, data'⟩ hm
  simp only [made, hprepare] at hm
  cases result with
  | error e => cases hm
  | ok raw' =>
    obtain ⟨rfl, -⟩ := Prod.mk.inj (List.mem_singleton.mp hm)
    obtain ⟨hlt, hseqno⟩ := hdrawn.2 raw rfl
    refine ⟨?_, hseqno⟩
    rw [UInt64.lt_iff_toNat_lt, hseqno]
    exact hlt

/-- When `publish` answers Duplicate, the id of what it made is in the cache. -/
theorem publish_duplicate {b b' : Behaviour P F} {now : Nat} {data : Bytes}
    (h : b.publish now data = some (.error .Duplicate, b')) :
    ∃ raw, (raw, data) ∈ b.made (.publish now data) ∧
      b.cache.contains (b.publish_id raw data) = true := by
  rw [publish_eq] at h
  obtain ⟨⟨result, config⟩, hprepare, hbuilt⟩ := Option.map_eq_some_iff.mp h
  have hnot : result ≠ .error .Duplicate := by
    rintro rfl
    unfold prepare at hprepare
    split at hprepare
    · cases hprepare
    · split at hprepare
      · cases hprepare
      · exact absurd rfl (build_raw_transaction_error hprepare)
  cases result with
  | error e =>
    cases hbuilt
    exact absurd rfl hnot
  | ok raw =>
    refine ⟨raw, by simp [made, hprepare], ?_⟩
    simp only [publish_built] at hbuilt
    split at hbuilt
    · assumption
    · unfold publish_new at hbuilt
      dsimp only at hbuilt
      split at hbuilt
      · cases hbuilt
      · split at hbuilt
        · cases hbuilt
        · cases hbuilt

/-- Only `publish` changes the author. -/
theorem call_publish_config [F64 F] {b b' : Behaviour P F} {c : Call P} (h : b.call c = some b') :
    (b'.publish_config = b.publish_config ∧ b.made c = []) ∨
      ∃ now data answer, c = .publish now data ∧ b.publish now data = some (answer, b') := by
  cases c with
  | publish now data =>
    obtain ⟨⟨answer, after⟩, hpublish, rfl⟩ := Option.map_eq_some_iff.mp h
    exact .inr ⟨now, data, answer, rfl, hpublish⟩
  | handle_established_inbound_connection connection_id peer_id =>
    cases h
    exact .inl ⟨rfl, rfl⟩
  | handle_established_outbound_connection connection_id peer =>
    cases h
    exact .inl ⟨rfl, rfl⟩
  | on_swarm_event now draw event =>
    cases h
    refine .inl ⟨?_, rfl⟩
    cases event with
    | ConnectionEstablished peer_id => rfl
    | ConnectionClosed peer_id connection_id remaining_established =>
      cases remaining_established with
      | zero =>
        have hadjust := adjust_redundancy_publish_config (b.disconnect peer_id) now draw
        exact hadjust.trans (disconnect_publish_config b peer_id)
      | succ remaining => rfl
    | Other => rfl
  | on_connection_handler_event clock draw source event =>
    cases h
    refine .inl ⟨?_, rfl⟩
    cases event with
    | Transaction rpc invalid =>
      apply on_rpc_rule (p := fun b' => b'.publish_config = b.publish_config)
      · exact handle_transactions_publish_config b clock source 0 rpc.transactions
      · intro b' hb'
        exact (handle_have_tx_publish_config b' _ source).trans hb'
      · intro b' hb'
        exact (handle_reset_route_publish_config b' draw source).trans hb'
    | TransactionDropped rpc => cases rpc <;> rfl
  | poll now draw redundancy_interval =>
    cases h
    refine .inl ⟨?_, rfl⟩
    unfold poll
    split
    · rfl
    · cases redundancy_interval with
      | false => rfl
      | true => exact adjust_redundancy_publish_config b now draw

/-- A call draws sequence numbers upwards, and only for what it makes. -/
theorem call_seqno [F64 F] {b b' : Behaviour P F} {c : Call P} (h : b.call c = some b') :
    b.publish_config.last_seqno ≤ b'.publish_config.last_seqno ∧
    ∀ m ∈ b.made c,
      b.publish_config.last_seqno < m.1.seqno ∧ m.1.seqno ≤ b'.publish_config.last_seqno := by
  rcases call_publish_config h with ⟨hsame, hnone⟩ | ⟨now, data, answer, rfl, hpublish⟩
  · rw [hsame, hnone]
    exact ⟨UInt64.le_refl _, by rintro m ⟨⟩⟩
  · obtain ⟨hle, hmade⟩ := publish_seqno hpublish
    refine ⟨UInt64.le_iff_toNat_le.mpr hle, ?_⟩
    intro m hm
    obtain ⟨hlt, he⟩ := hmade m hm
    exact ⟨hlt, UInt64.le_of_eq he⟩

end Behaviour

/-! ## The key of an author -/

variable [Schema]

/-- The author signs with the key. -/
def PublishConfig.Signs (keypair : Libp2p.Keypair P) (c : PublishConfig P) : Prop :=
  ∃ seqno, c = .from_authenticity seqno (.Signed keypair)

omit [DecidableEq P] in
/-- An author that builds a transaction keeps its key. -/
theorem PublishConfig.Signs.build {keypair : Libp2p.Keypair P} {c c' : PublishConfig P}
    (h : c.Signs keypair) {data : Bytes} {r : Except PublishError (RawTransaction P)}
    (hbuild : c.build_raw_transaction data = some (r, c')) : c'.Signs keypair := by
  obtain ⟨seqno, rfl⟩ := h
  simp only [from_authenticity, build_raw_transaction, Option.map_eq_some_iff] at hbuild
  obtain ⟨next, -, hbuild⟩ := hbuild
  split at hbuild
  · cases hbuild
    exact ⟨next, rfl⟩
  · cases hbuild
    exact ⟨next, rfl⟩

omit [DecidableEq P] in
/-- What a signing node makes, it has built with its key. -/
theorem Behaviour.made_signed {b : Behaviour P F} {keypair : Libp2p.Keypair P}
    (h : b.publish_config.Signs keypair) {c : Call P} {m : RawTransaction P × Bytes}
    (hm : m ∈ b.made c) :
    ∃ seqno data config, (PublishConfig.from_authenticity seqno
      (.Signed keypair)).build_raw_transaction data = some (.ok m.1, config) := by
  obtain ⟨seqno, hconfig⟩ := h
  obtain ⟨raw, data⟩ := m
  obtain ⟨-, -, -, config, -, hprepare⟩ := made_spec hm
  unfold prepare at hprepare
  split at hprepare
  · cases hprepare
  · split at hprepare
    · cases hprepare
    · rw [hconfig] at hprepare
      exact ⟨seqno, _, config, hprepare⟩

theorem Behaviour.call_signs [F64 F] {b b' : Behaviour P F} {c : Call P}
    {keypair : Libp2p.Keypair P} (h : b.publish_config.Signs keypair) (hcall : b.call c = some b') :
    b'.publish_config.Signs keypair := by
  rcases call_publish_config hcall with ⟨hsame, -⟩ | ⟨now, data, answer, rfl, hpublish⟩
  · rwa [hsame]
  · obtain ⟨result, hprepare⟩ := publish_publish_config hpublish
    unfold prepare at hprepare
    split at hprepare
    · obtain ⟨-, hsame⟩ := Prod.mk.inj (Option.some.inj hprepare)
      rwa [← hsame]
    · split at hprepare
      · obtain ⟨-, hsame⟩ := Prod.mk.inj (Option.some.inj hprepare)
        rwa [← hsame]
      · exact h.build hprepare

/-- A node signs all its life with the key that it was made with. -/
theorem signs_of_run [F64 F] {s : Setup P F} {keypair : Libp2p.Keypair P}
    (hkey : s.authenticity = .Signed keypair) {n : Node P F} {ops : List (Op P)}
    (hrun : s.machine.Run s.node ops n) : n.behaviour.publish_config.Signs keypair := by
  refine hrun.invariant (p := fun n => n.behaviour.publish_config.Signs keypair) ?_ ?_
  · refine ⟨s.clock, ?_⟩
    rw [← hkey]
    rfl
  · intro n op n' hsigns hstep
    cases Node.step_cases hstep with
    | called c b' call => exact Behaviour.call_signs hsigns call
    | polled peers _ _ same =>
      rw [same]
      exact hsigns

end

end libp2p_dog
