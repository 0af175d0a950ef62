-- An overlay under attack: everything but the honest nodes is in the hands of an
-- adversary, who lets any frame arrive anywhere, but cannot sign for an honest
-- node. With strict validation nobody is told, and nobody forwards, what an
-- honest author did not publish.
import Mathlib.Algebra.Order.BigOperators.Group.List
import Mathlib.Algebra.Order.Group.Nat
import GossipShadow.OriginLaws
import GossipShadow.ValidationLaws

namespace libp2p_dog

/-! ## What a signature is about -/

section

variable [Schema]

/-- The fields of a transaction have numbers of their own, in the range of protobuf. -/
structure Schema.Lawful : Prop where
  from_ : Protobuf.FieldNumber (Schema.from_)
  seqno : Protobuf.FieldNumber Schema.seqno
  data : Protobuf.FieldNumber Schema.data
  from_seqno : Schema.from_ ≠ Schema.seqno
  from_data : Schema.from_ ≠ Schema.data
  seqno_data : Schema.seqno ≠ Schema.data

namespace proto

/-- The part of a transaction that is signed. -/
def Transaction.unsigned (tx : Transaction) : Transaction :=
  { from_ := tx.from_, seqno := tx.seqno, data := tx.data, signature := [], key := [] }

/-- The bytes that a signature of the transaction is about. -/
def Transaction.signed_bytes (tx : Transaction) : Bytes :=
  SIGNING_PREFIX ++ tx.unsigned.write_message

theorem Transaction.size_of_unsigned (tx : Transaction) : tx.unsigned.get_size ≤ tx.get_size := by
  simp only [get_size, write_message, unsigned, List.length_append, Protobuf.length_bytesField]
  have hnone : ∀ field, Protobuf.bytesFieldLen field ([] : Bytes).length = 0 := fun _ => rfl
  rw [hnone, hnone]
  omega

/-- All that is signed can be read off the signed bytes. -/
theorem Transaction.signed_bytes_inj (hschema : Schema.Lawful) {tx tx' : Transaction}
    (hsize : tx.get_size < 2 ^ 64) (h : tx.signed_bytes = tx'.signed_bytes) :
    tx.unsigned = tx'.unsigned := by
  have hbytes := List.append_cancel_left h
  have hlength := congrArg List.length hbytes
  have hle := tx.size_of_unsigned
  obtain ⟨from_, seqno, data, signature, key⟩ := tx
  obtain ⟨from', seqno', data', signature', key'⟩ := tx'
  simp only [get_size, write_message, unsigned, List.length_append,
    Protobuf.length_bytesField] at hlength hle hsize
  have hfrom := Protobuf.le_bytesFieldLen (Schema.from_) from_.length
  have hfrom' := Protobuf.le_bytesFieldLen (Schema.from_) from'.length
  have hdata := Protobuf.le_bytesFieldLen Schema.data data.length
  have hdata' := Protobuf.le_bytesFieldLen Schema.data data'.length
  -- the fields in their order, from the last
  have hseqno_avoids : ∀ rest : Bytes, Protobuf.Avoids Schema.seqno
      (Protobuf.bytesField Schema.data rest ++ []) := by
    intro rest
    exact (Protobuf.avoids_nil _).bytesField hschema.seqno_data hschema.seqno hschema.data rest
  have hfrom_avoids : ∀ (n : Nat) (rest : Bytes), Protobuf.Avoids (Schema.from_)
      (Protobuf.uintField Schema.seqno_wire Schema.seqno n ++
        (Protobuf.bytesField Schema.data rest ++ [])) := by
    intro n rest
    apply Protobuf.Avoids.uintField
    · exact (Protobuf.avoids_nil _).bytesField hschema.from_data hschema.from_ hschema.data rest
    · exact hschema.from_seqno
    · exact hschema.from_
    · exact hschema.seqno
  have hempty : ∀ field, Protobuf.bytesField field [] = [] := fun _ => rfl
  simp only [write_message, unsigned, hempty, List.append_assoc, List.nil_append] at hbytes
  obtain ⟨rfl, hrest⟩ := Protobuf.bytesField_append_inj (by omega) (by omega) (hfrom_avoids _ _)
    (hfrom_avoids _ _) hbytes
  obtain ⟨hnumber, hlast⟩ := Protobuf.uintField_append_inj seqno.toNat_lt seqno'.toNat_lt
    (hseqno_avoids _) (hseqno_avoids _) hrest
  obtain ⟨rfl, -⟩ := Protobuf.bytesField_append_inj (by omega) (by omega) (Protobuf.avoids_nil _)
    (Protobuf.avoids_nil _) hlast
  rw [UInt64.toNat_inj.mp hnumber]
  rfl

/-- A transaction is smaller than the frame that it is in. -/
theorem RPC.size_of_mem {frame : RPC} {tx : Transaction} (h : tx ∈ frame.txs) :
    tx.get_size ≤ frame.get_size := by
  unfold get_size write_message
  rw [List.length_append, List.length_flatMap]
  have hmem : (Protobuf.lengthField Schema.txs tx.write_message).length ∈
      frame.txs.map fun tx => (Protobuf.lengthField Schema.txs tx.write_message).length :=
    List.mem_map_of_mem h
  have hone := List.le_sum_of_mem hmem
  have hfield := Protobuf.add_two_le_lengthFieldLen Schema.txs tx.write_message.length
  rw [Protobuf.length_lengthField] at hone
  unfold Transaction.get_size
  omega

end proto

end

/-! ## An overlay under attack -/

/-- The honest nodes of an overlay under attack, with all that they made so far, and its data. -/
structure Siege (P F : Type) [Libp2p P] where
  node : P → Node P F
  made : List (RawTransaction P × Bytes)

/-- What happens under attack: an honest node does a step of its own, or a frame arrives at one.
What the nodes send is in the hands of the adversary. -/
inductive SiegeOp (P : Type) where
  | act (v : P) (op : Op P)
  | arrive (w source : P) (clock : Nat → Nat) (draw : Nat) (random : Nat → P) (frame : proto.RPC)

section

variable {P F : Type} [Libp2p P] [DecidableEq P] [Schema]

namespace Overlay

/-- No signature of the frame is a forgery: what passes for signed by an honest node, this node has
signed for something that it made. -/
def unforged (o : Overlay P F) (made : List (RawTransaction P × Bytes)) (frame : proto.RPC) :
    Bool :=
  frame.txs.all fun tx => o.nodes.all fun v =>
    !Libp2p.verify (Libp2p.public_key (o.keypair v)) tx.signed_bytes tx.signature ||
      made.any fun m => decide (m.1.from_ = v) &&
        decide (m.1.into_proto.signed_bytes = tx.signed_bytes)

/-- The frame arrives at `w`, and goes through its codec. -/
def arrival (o : Overlay P F) (w source : P) (clock : Nat → Nat) (draw : Nat) (random : Nat → P)
    (frame : proto.RPC) : Op P :=
  .call (.on_connection_handler_event clock draw source
    (DogCodec.decode_rpc (o.config w).protocol.validation_mode random frame))

variable [F64 F]

/-- A frame that is too large for the codec does not come through. -/
def siege_step (o : Overlay P F) (n : Siege P F) : SiegeOp P → Option (Siege P F)
  | .act v op =>
    if decide (v ∈ o.nodes) && !op.arrives then
      ((n.node v).step op).map fun node =>
        { node := Function.update n.node v node, made := n.made ++ (n.node v).made op }
    else none
  | .arrive w source clock draw random frame =>
    if decide (w ∈ o.nodes) && decide (frame.get_size ≤ (o.config w).max_transmit_size) &&
        o.unforged n.made frame then
      ((n.node w).step (o.arrival w source clock draw random frame)).map fun node =>
        { n with node := Function.update n.node w node }
    else none

def besieged (o : Overlay P F) : Siege P F where
  node v := (o.setup v).node
  made := []

def siege (o : Overlay P F) : Machine (Siege P F) (SiegeOp P) :=
  .ofFun (· = o.besieged) o.siege_step

/-- What an honest node can rely on. -/
structure Defended (o : Overlay P F) : Prop where
  strict : ∀ v ∈ o.nodes, (o.config v).protocol.validation_mode = .Strict
  /-- The largest size is a `usize`. -/
  size : ∀ v ∈ o.nodes, (o.config v).max_transmit_size < usizeSize
  /-- No other key has the id of an honest node. -/
  key : ∀ v ∈ o.nodes, ∀ key, Libp2p.to_peer_id key = v → key = Libp2p.public_key (o.keypair v)
  /-- The transform leaves the author alone. -/
  author : ∀ raw tx, o.data_transform.inbound_transform raw = .ok tx → tx.from_ = raw.from_

/-- What a step under attack is: a step of one honest node of its own, or the arrival of a frame at
one. -/
inductive Besieged (o : Overlay P F) (n : Siege P F) : SiegeOp P → Siege P F → Prop
  | acted (v : P) (op : Op P) (node : Node P F) (member : v ∈ o.nodes) (own : op.arrives = false)
      (step : (n.node v).step op = some node) :
      Besieged o n (.act v op)
        { node := Function.update n.node v node, made := n.made ++ (n.node v).made op }
  | arrived (w source : P) (clock : Nat → Nat) (draw : Nat) (random : Nat → P) (frame : proto.RPC)
      (node : Node P F) (member : w ∈ o.nodes)
      (size : frame.get_size ≤ (o.config w).max_transmit_size)
      (unforged : o.unforged n.made frame = true)
      (step : (n.node w).step (o.arrival w source clock draw random frame) = some node) :
      Besieged o n (.arrive w source clock draw random frame)
        { n with node := Function.update n.node w node }

variable {o : Overlay P F} {n n' : Siege P F}

theorem siege_cases {op : SiegeOp P} (h : o.siege_step n op = some n') : o.Besieged n op n' := by
  cases op with
  | act v op =>
    simp only [siege_step] at h
    split at h
    · rename_i hguard
      simp only [Bool.and_eq_true, decide_eq_true_eq, Bool.not_eq_true'] at hguard
      obtain ⟨node, hnode, rfl⟩ := Option.map_eq_some_iff.mp h
      exact .acted v op node hguard.1 hguard.2 hnode
    · cases h
  | arrive w source clock draw random frame =>
    simp only [siege_step] at h
    split at h
    · rename_i hguard
      simp only [Bool.and_eq_true, decide_eq_true_eq] at hguard
      obtain ⟨node, hnode, rfl⟩ := Option.map_eq_some_iff.mp h
      exact .arrived w source clock draw random frame node hguard.1.1 hguard.1.2 hguard.2 hnode
    · cases h

/-! ### The part of a node -/

/-- What `v` does in a step under attack. -/
def siege_part (o : Overlay P F) (v : P) : SiegeOp P → List (Op P)
  | .act u op => if u = v then [op] else []
  | .arrive w source clock draw random frame =>
    if w = v then [o.arrival w source clock draw random frame] else []

theorem siege_part_step {op : SiegeOp P} (h : o.siege_step n op = some n') (v : P) :
    (o.setup v).machine.Run (n.node v) (o.siege_part v op) (n'.node v) := by
  have hstep : ∀ u node op', (n.node u).step op' = some node →
      (o.setup v).machine.Run (n.node v) (if u = v then [op'] else [])
        (Function.update n.node u node v) := by
    intro u node op' hnode
    by_cases hu : u = v
    · subst hu
      rw [if_pos rfl, Function.update_self]
      exact Machine.Run.single hnode
    · rw [if_neg hu, Function.update_of_ne (Ne.symm hu)]
      exact .nil _
  cases siege_cases h with
  | acted u op node _ _ step => exact hstep u node op step
  | arrived w source clock draw random frame node _ _ _ step => exact hstep w node _ step

/-- The part of a node in a run under attack is a run of the node. -/
theorem run_siege_part {ops : List (SiegeOp P)} (hrun : o.siege.Run o.besieged ops n) (v : P) :
    (o.setup v).machine.Run (o.setup v).node (ops.flatMap (o.siege_part v)) (n.node v) := by
  induction hrun with
  | nil => exact .nil _
  | snoc hrun hstep ih =>
    rw [List.flatMap_append, List.flatMap_singleton]
    exact ih.append (siege_part_step hstep v)

/-- The events that the calls of `v` push in a run under attack. -/
def siege_told (o : Overlay P F) (v : P) (ops : List (SiegeOp P)) : List (Event P) :=
  Machine.observe Node.step Node.generated (o.setup v).node (ops.flatMap (o.siege_part v))

/-! ### What arrives -/

/-- If the author is an honest node, it has made the transaction. -/
def Backed (o : Overlay P F) (made : List (RawTransaction P × Bytes)) (raw : RawTransaction P) :
    Prop :=
  raw.from_ ∈ o.nodes →
    ∃ m ∈ made, m.1.from_ = raw.from_ ∧ m.1.seqno = raw.seqno ∧ m.1.data = raw.data

omit [F64 F] [Schema] [DecidableEq P] in
theorem Backed.mono {made more : List (RawTransaction P × Bytes)} {raw : RawTransaction P}
    (h : o.Backed made raw) : o.Backed (made ++ more) raw := by
  intro hfrom
  obtain ⟨m, hm, hsame⟩ := h hfrom
  exact ⟨m, List.mem_append_left _ hm, hsame⟩

omit [F64 F] in
/-- An authentic transaction of an honest author is one that the author made. -/
theorem backed_of_authentic (hdefended : o.Defended) (hschema : Schema.Lawful)
    {made : List (RawTransaction P × Bytes)} {frame : proto.RPC} {tx : proto.Transaction}
    (hunforged : o.unforged made frame = true) (htx : tx ∈ frame.txs)
    (hsize : tx.get_size < usizeSize) {p : P} (hauthentic : Authentic tx p) :
    o.Backed made (DogCodec.raw_transaction p tx) := by
  intro hp
  obtain ⟨-, key, -, hkey, hverify⟩ := hauthentic
  rw [hdefended.key p hp key hkey] at hverify
  unfold unforged at hunforged
  have hone := List.all_eq_true.mp (List.all_eq_true.mp hunforged tx htx) p hp
  have hverify : Libp2p.verify (Libp2p.public_key (o.keypair p)) tx.signed_bytes tx.signature =
      true := hverify
  rw [hverify] at hone
  obtain ⟨m, hm, hsame⟩ := List.any_eq_true.mp hone
  simp only [Bool.and_eq_true, decide_eq_true_eq] at hsame
  obtain ⟨hfrom, hbytes⟩ := hsame
  have hunsigned := proto.Transaction.signed_bytes_inj hschema hsize hbytes.symm
  refine ⟨m, hm, hfrom, ?_, ?_⟩
  · exact (congrArg proto.Transaction.seqno hunsigned).symm
  · exact (congrArg proto.Transaction.data hunsigned).symm

omit [F64 F] in
/-- What an honest node handles of a frame is backed. -/
theorem arrival_backed (hdefended : o.Defended) (hschema : Schema.Lawful) {w source : P}
    (hw : w ∈ o.nodes) {made : List (RawTransaction P × Bytes)} {frame : proto.RPC}
    (hunforged : o.unforged made frame = true)
    (hsize : frame.get_size ≤ (o.config w).max_transmit_size) {clock : Nat → Nat} {draw : Nat}
    {random : Nat → P} {m : Node P F} {r : P × RawTransaction P}
    (hr : r ∈ m.receptions (o.arrival w source clock draw random frame)) : o.Backed made r.2 := by
  unfold arrival at hr
  rw [hdefended.strict w hw] at hr
  obtain ⟨outcomes, hjudges, houtcomes⟩ := decode_transactions_judges random 0 frame.txs
  have hr :
      r ∈ (m.behaviour.handled (DogCodec.decode_transactions .Strict random 0 frame.txs).1).map
      fun raw => (source, raw) := hr
  rw [houtcomes] at hr
  obtain ⟨raw, hraw, rfl⟩ := List.mem_map.mp hr
  obtain ⟨tx, htx, heq, hauthentic⟩ :=
    authentic_of_judged hjudges (m.behaviour.handled_subset hraw)
  have hlt := hdefended.size w hw
  have hle := proto.RPC.size_of_mem htx
  dsimp only
  rw [heq]
  exact backed_of_authentic hdefended hschema hunforged htx (by omega) hauthentic

/-- All that an honest node handled in a run under attack is backed. -/
theorem backed_of_run (hdefended : o.Defended) (hschema : Schema.Lawful) {ops : List (SiegeOp P)}
    (hrun : o.siege.Run o.besieged ops n) (w : P) :
    ∀ r ∈ (o.setup w).receptions (ops.flatMap (o.siege_part w)), o.Backed n.made r.2 := by
  induction hrun with
  | nil =>
    intro r hr
    cases hr
  | @snoc m m' ops op hrun hstep ih =>
    intro r hr
    rw [List.flatMap_append, List.flatMap_singleton, Setup.receptions,
      Machine.observe_append _ (run_siege_part hrun w)] at hr
    cases siege_cases hstep with
    | acted v op node _ own step =>
      rw [siege_part, observe_one step, Node.receptions_eq_nil own, ite_self, List.append_nil] at hr
      exact (ih r hr).mono
    | arrived u source clock draw random frame node member size unforged step =>
      rw [siege_part, observe_one step] at hr
      rcases List.mem_append.mp hr with hr | hr
      · exact ih r hr
      · split at hr
        · exact arrival_backed hdefended hschema member unforged size hr
        · cases hr

/-! ### What was made -/

theorem authored_of_siege {ops : List (SiegeOp P)} (hrun : o.siege.Run o.besieged ops n) :
    o.Authored n.made n.node := by
  induction hrun with
  | nil => exact authored_nil o _
  | @snoc m m' ops op hrun hstep ih =>
    have hfixed := fun v => run_fixed (run_siege_part hrun v)
    have hown : ∀ v ∈ o.nodes, (m.node v).behaviour.own_id = v := by
      intro v hv
      rw [(hfixed v).own_id]
      exact o.identity v hv
    cases siege_cases hstep with
    | acted v op node member own step =>
      exact ih.stepped member (hown v member) (hfixed v).data_transform step
    | arrived w source clock draw random frame node member _ _ step =>
      have hstepped := ih.stepped member (hown w member) (hfixed w).data_transform step
      have hnone : (m.node w).made (o.arrival w source clock draw random frame) = [] := rfl
      rw [hnone, List.append_nil] at hstepped
      exact hstepped

/-- In the run under attack, the author of the transaction calls `publish` with its data, and draws
its number. -/
def SiegePublishes (o : Overlay P F) (ops : List (SiegeOp P)) (tx : Transaction P) : Prop :=
  ∃ before now after m raw config,
    ops = before ++ .act tx.from_ (.call (.publish now tx.data)) :: after ∧
    o.siege.Run o.besieged before m ∧
    (m.node tx.from_).behaviour.prepare tx.data = some (.ok raw, config) ∧ raw.seqno = tx.seqno

theorem siege_publishes_of_made {ops : List (SiegeOp P)} (hrun : o.siege.Run o.besieged ops n)
    {raw : RawTransaction P} {data : Bytes} (h : (raw, data) ∈ n.made) :
    o.SiegePublishes ops { from_ := raw.from_, seqno := raw.seqno, data } := by
  induction hrun with
  | nil => cases h
  | @snoc m m' ops op hrun hstep ih =>
    have hold : (raw, data) ∈ m.made →
        o.SiegePublishes (ops ++ [op]) { from_ := raw.from_, seqno := raw.seqno, data } := by
      intro h
      obtain ⟨before, now, after, m₀, raw', config, rfl, hbefore, hprepare, hseqno⟩ := ih h
      exact ⟨before, now, after ++ [op], m₀, raw', config, by simp, hbefore, hprepare, hseqno⟩
    cases siege_cases hstep with
    | acted v op node member own step =>
      rcases List.mem_append.mp h with h | h
      · exact hold h
      · cases op with
        | call c =>
          have h : (raw, data) ∈ (m.node v).behaviour.made c := h
          obtain ⟨hfrom, -, now, config, rfl, hprepare⟩ := Behaviour.made_spec h
          have hown : (m.node v).behaviour.own_id = v := by
            rw [(run_fixed (run_siege_part hrun v)).own_id]
            exact o.identity v member
          rw [hown] at hfrom
          subst hfrom
          exact ⟨ops, now, [], m, raw, config, rfl, hrun, hprepare, rfl⟩
        | poll_next index => cases h
        | poll_stale index elapsed => cases h
        | poll_is_empty index => cases h
    | arrived w source clock draw random frame node _ _ _ step => exact hold h

/-- What an honest node is told of, it has handled. -/
theorem handled_of_siege_told {ops : List (SiegeOp P)} (hrun : o.siege.Run o.besieged ops n)
    {w s : P} {id : TransactionId} {tx : Transaction P}
    (h : .TransactionReceived s id tx ∈ o.siege_told w ops) :
    id = o.transaction_id_fn tx ∧
      ∃ raw, (s, raw) ∈ (o.setup w).receptions (ops.flatMap (o.siege_part w)) ∧
        o.data_transform.inbound_transform raw = .ok tx := by
  have hpart := run_siege_part hrun w
  have hevents := received_events_of_run hpart
  rw [← generated_of_run hpart] at hevents
  have hmem : Event.TransactionReceived s id tx ∈
      ((o.setup w).receptions (ops.flatMap (o.siege_part w))).flatMap fun r =>
        (o.setup w).behaviour.received_event r.1 r.2 := by
    rw [← hevents]
    exact List.mem_filter.mpr ⟨h, rfl⟩
  obtain ⟨⟨source, raw⟩, hr, hevent⟩ := List.mem_flatMap.mp hmem
  have htransform : (o.setup w).behaviour.data_transform = o.data_transform := rfl
  have hid : (o.setup w).behaviour.config.transaction_id = o.transaction_id_fn := o.agree w
  simp only [Behaviour.received_event, htransform, hid] at hevent
  split at hevent
  · cases hevent
  · rename_i read hread
    simp only [List.mem_singleton, Event.TransactionReceived.injEq] at hevent
    obtain ⟨rfl, rfl, rfl⟩ := hevent
    exact ⟨rfl, raw, hr, hread⟩

/-- What an honest node is told of under the name of an honest author, this author made. -/
theorem made_of_siege_told (hdefended : o.Defended) (hschema : Schema.Lawful)
    {ops : List (SiegeOp P)} (hrun : o.siege.Run o.besieged ops n) {w s : P} {id : TransactionId}
    {tx : Transaction P} (h : .TransactionReceived s id tx ∈ o.siege_told w ops)
    (hfrom : tx.from_ ∈ o.nodes) :
    ∃ raw, (raw, tx.data) ∈ n.made ∧ raw.from_ = tx.from_ ∧ raw.seqno = tx.seqno := by
  obtain ⟨-, raw, hr, hread⟩ := handled_of_siege_told hrun h
  rw [hdefended.author raw tx hread] at hfrom
  obtain ⟨⟨made, data⟩, hm, hauthor, hseqno, hdata⟩ :=
    backed_of_run hdefended hschema hrun w _ hr hfrom
  obtain ⟨-, houtbound, -⟩ := (authored_of_siege hrun).authors _ hm
  -- so the transform undoes what it did to the data of the author
  obtain ⟨from_, seqno, sent, signature, key⟩ := raw
  dsimp only at hauthor hseqno hdata houtbound
  rw [hdata] at houtbound
  rw [o.lawful data sent houtbound] at hread
  cases hread
  exact ⟨made, hm, hauthor, hseqno⟩

omit [F64 F] [Schema] [DecidableEq P] in
/-- An author makes one transaction under one number. -/
theorem Authored.unique {made : List (RawTransaction P × Bytes)} {node : P → Node P F}
    (h : o.Authored made node) {m m' : RawTransaction P × Bytes} (hm : m ∈ made) (hm' : m' ∈ made)
    (hfrom : m.1.from_ = m'.1.from_) (hseqno : m.1.seqno = m'.1.seqno) : m = m' := by
  by_contra hne
  have hnumbers : made.Pairwise fun m m' => m.1.from_ = m'.1.from_ → m.1.seqno ≠ m'.1.seqno :=
    h.numbers.imp fun hlt hfrom => UInt64.ne_of_lt (hlt hfrom)
  have : Std.Symm fun m m' : RawTransaction P × Bytes =>
      m.1.from_ = m'.1.from_ → m.1.seqno ≠ m'.1.seqno :=
    ⟨fun m m' hne hfrom hseqno => hne hfrom.symm hseqno.symm⟩
  exact hnumbers.forall hm hm' hne hfrom hseqno

end Overlay

variable [F64 F]

/-- In an overlay under attack, whatever frames the adversary lets arrive: what an honest node is
told of under the name of an honest author, this author has published, with just this data and under
just this number; and what an honest node forwards under this name, the author has made. -/
theorem no_peer_can_forge {o : Overlay P F} (hdefended : o.Defended) (hschema : Schema.Lawful)
    {n : Siege P F} {ops : List (SiegeOp P)} (hrun : o.siege.Run o.besieged ops n) (w : P) :
    (∀ s id tx, .TransactionReceived s id tx ∈ o.siege_told w ops → tx.from_ ∈ o.nodes →
      id = o.transaction_id_fn tx ∧ o.SiegePublishes ops tx) ∧
    ∀ raw ∈ (n.node w).behaviour.forwarded, raw.from_ ∈ o.nodes →
      ∃ data, o.data_transform.outbound_transform data = .ok raw.data ∧
        o.SiegePublishes ops { from_ := raw.from_, seqno := raw.seqno, data } := by
  constructor
  · intro s id tx h hfrom
    obtain ⟨raw, hmade, hauthor, hseqno⟩ :=
      Overlay.made_of_siege_told hdefended hschema hrun h hfrom
    have hpublishes := Overlay.siege_publishes_of_made hrun hmade
    rw [hauthor, hseqno] at hpublishes
    exact ⟨(Overlay.handled_of_siege_told hrun h).1, hpublishes⟩
  · intro raw hraw hfrom
    obtain ⟨source, hr⟩ := forwarded_of_run (Overlay.run_siege_part hrun w) raw hraw
    obtain ⟨m, hm, hauthor, hseqno, hdata⟩ :=
      Overlay.backed_of_run hdefended hschema hrun w _ hr hfrom
    obtain ⟨-, houtbound, -⟩ := (Overlay.authored_of_siege hrun).authors m hm
    have hpublishes := Overlay.siege_publishes_of_made hrun hm
    rw [hauthor, hseqno] at hpublishes
    rw [hdata] at houtbound
    exact ⟨m.2, houtbound, hpublishes⟩

/-- Under attack the honest nodes agree on what an honest author has published: under one author and
one number they are told of the same data and the same id. Where the ids of the honest authors are
distinct, an id stands for one transaction of theirs. -/
theorem under_attack_the_nodes_agree {o : Overlay P F} (hdefended : o.Defended)
    (hschema : Schema.Lawful) {n : Siege P F} {ops : List (SiegeOp P)}
    (hrun : o.siege.Run o.besieged ops n) {w w' s s' : P} {id id' : TransactionId}
    {tx tx' : Transaction P} (h : .TransactionReceived s id tx ∈ o.siege_told w ops)
    (h' : .TransactionReceived s' id' tx' ∈ o.siege_told w' ops) (hfrom : tx.from_ ∈ o.nodes)
    (hfrom' : tx'.from_ ∈ o.nodes) :
    (tx.from_ = tx'.from_ → tx.seqno = tx'.seqno → tx = tx' ∧ id = id') ∧
      (o.Distinct → id = id' → tx = tx') := by
  have hid := (Overlay.handled_of_siege_told hrun h).1
  have hid' := (Overlay.handled_of_siege_told hrun h').1
  have hsame : tx.from_ = tx'.from_ → tx.seqno = tx'.seqno → tx = tx' := by
    intro hauthors hnumbers
    obtain ⟨raw, hmade, hauthor, hseqno⟩ :=
      Overlay.made_of_siege_told hdefended hschema hrun h hfrom
    obtain ⟨raw', hmade', hauthor', hseqno'⟩ :=
      Overlay.made_of_siege_told hdefended hschema hrun h' hfrom'
    have hone := (Overlay.authored_of_siege hrun).unique hmade hmade'
      (hauthor.trans (hauthors.trans hauthor'.symm)) (hseqno.trans (hnumbers.trans hseqno'.symm))
    obtain ⟨from_, seqno, data⟩ := tx
    obtain ⟨from', seqno', data'⟩ := tx'
    obtain ⟨-, rfl⟩ := Prod.mk.inj hone
    dsimp only at hauthors hnumbers
    rw [hauthors, hnumbers]
  constructor
  · intro hauthors hnumbers
    obtain rfl := hsame hauthors hnumbers
    exact ⟨rfl, hid.trans hid'.symm⟩
  · intro hdistinct hids
    rw [hid, hid'] at hids
    obtain ⟨hauthors, hnumbers⟩ := hdistinct tx tx' hfrom hfrom' hids
    exact hsame hauthors hnumbers

end

namespace Sample

theorem schema_lawful : Schema.Lawful where
  from_ := by unfold Protobuf.FieldNumber; decide
  seqno := by unfold Protobuf.FieldNumber; decide
  data := by unfold Protobuf.FieldNumber; decide
  from_seqno := by decide
  from_data := by decide
  seqno_data := by decide

theorem overlay_defended (nodes : List Peer) : (overlay nodes).Defended where
  strict _ _ := rfl
  size _ _ := (by decide : 65536 < usizeSize)
  key _ _ _ h := h
  author _ _ h := by
    cases h
    rfl

/-- Node 0 publishes to a stranger, who lets it arrive at node 1, with a forged transaction of node
2, and at node 2. -/
def replayed : List (SiegeOp Peer) :=
  let honest : RawTransaction Peer := raw 0 1
  let clock : Nat → Nat := fun _ => 0
  let random : Nat → Peer := fun _ => ⟨0⟩
  [.act ⟨0⟩ (connect 9), .act ⟨0⟩ (.call (.publish 0 [0])),
   .arrive ⟨1⟩ ⟨9⟩ clock 0 random
     { txs := [forged.into_proto, honest.into_proto], control := none },
   .arrive ⟨2⟩ ⟨9⟩ clock 0 random { txs := [honest.into_proto], control := none }]

end Sample

theorem a_forged_transaction_comes_to_nothing :
    let o := Sample.overlay [⟨0⟩, ⟨1⟩, ⟨2⟩]
    let tx : Transaction Sample.Peer := { from_ := ⟨0⟩, seqno := 1, data := [0] }
    o.siege_told ⟨1⟩ Sample.replayed = [.TransactionReceived ⟨9⟩ (Sample.tx_id 0 1) tx] ∧
      o.SiegePublishes Sample.replayed tx := by
  intro o tx
  have hexec : (Machine.exec o.siege_step o.besieged Sample.replayed).map (fun _ => ()) =
      some () := by decide +kernel
  have htold : o.siege_told ⟨1⟩ Sample.replayed =
      [.TransactionReceived ⟨9⟩ (Sample.tx_id 0 1) tx] := by decide +kernel
  obtain ⟨n, hrun, -⟩ := Machine.exists_run_of_exec hexec
  have hreal := (no_peer_can_forge (Sample.overlay_defended _) Sample.schema_lawful hrun ⟨1⟩).1 ⟨9⟩
    (Sample.tx_id 0 1) tx (by rw [htold]; exact List.mem_singleton.mpr rfl) (by decide)
  exact ⟨htold, hreal.2⟩

theorem two_nodes_agree_on_a_replay :
    let o := Sample.overlay [⟨0⟩, ⟨1⟩, ⟨2⟩]
    ∃ tx tx', .TransactionReceived ⟨9⟩ (Sample.tx_id 0 1) tx ∈ o.siege_told ⟨1⟩ Sample.replayed ∧
      .TransactionReceived ⟨9⟩ (Sample.tx_id 0 1) tx' ∈ o.siege_told ⟨2⟩ Sample.replayed ∧
      tx = tx' := by
  intro o
  have hexec : (Machine.exec o.siege_step o.besieged Sample.replayed).map (fun _ => ()) =
      some () := by decide +kernel
  obtain ⟨n, hrun, -⟩ := Machine.exists_run_of_exec hexec
  have htold : ∀ w ∈ [(⟨1⟩ : Sample.Peer), ⟨2⟩], (o.siege_told w Sample.replayed).contains
      (.TransactionReceived ⟨9⟩ (Sample.tx_id 0 1) { from_ := ⟨0⟩, seqno := 1, data := [0] }) =
        true := by decide +kernel
  have htold₁ := List.contains_iff_mem.mp (htold ⟨1⟩ (by decide))
  have htold₂ := List.contains_iff_mem.mp (htold ⟨2⟩ (by decide))
  exact ⟨_, _, htold₁, htold₂, ((under_attack_the_nodes_agree (Sample.overlay_defended _)
    Sample.schema_lawful hrun htold₁ htold₂ (by decide) (by decide)).1 rfl rfl).1⟩

end libp2p_dog
