-- Where the transactions of an overlay come from: what travels, what a node
-- handles and what it keeps in its cache was made by the publish of an honest
-- author, whose sequence numbers count up. So no id is made twice.
import GossipShadow.AuthorLaws
import GossipShadow.LinkLaws

namespace libp2p_dog

section

variable {P F : Type} [Libp2p P] [DecidableEq P] [F64 F] [Schema]

namespace Overlay

variable {o : Overlay P F} {n n' : OverlayState P F}

/-- What is made in a step, with the data that it is made of. -/
def makes (n : OverlayState P F) : OverlayOp P → List (RawTransaction P × Bytes)
  | .act v op => (n.node v).made op
  | _ => []

/-- The transactions that the nodes make in a run, in order. -/
def made (o : Overlay P F) (ops : List (OverlayOp P)) : List (RawTransaction P × Bytes) :=
  Machine.observe o.step makes o.initial ops

/-- The id that the author gives to what it makes. -/
def id_of_made (o : Overlay P F) (m : RawTransaction P × Bytes) : TransactionId :=
  o.transaction_id_fn { from_ := m.1.from_, seqno := m.1.seqno, data := m.2 }

/-- The transaction has been made. -/
def Known (made : List (RawTransaction P × Bytes)) (raw : RawTransaction P) : Prop :=
  ∃ data, (raw, data) ∈ made

/-- The transaction of the RPC, if it carries one, has been made. -/
def KnownIn (made : List (RawTransaction P × Bytes)) (rpc : RpcOut P) : Prop :=
  ∀ raw, rpc.tx? = some raw → Known made raw

/-- What was made has its author among the nodes, and a number of its own. -/
structure Authored (o : Overlay P F) (made : List (RawTransaction P × Bytes))
    (node : P → Node P F) : Prop where
  authors : ∀ m ∈ made, m.1.from_ ∈ o.nodes ∧
    o.data_transform.outbound_transform m.2 = .ok m.1.data ∧
    m.1.seqno ≤ (node m.1.from_).behaviour.publish_config.last_seqno
  numbers : made.Pairwise fun m m' => m.1.from_ = m'.1.from_ → m.1.seqno < m'.1.seqno

omit [F64 F] [Schema] [DecidableEq P] in
theorem authored_nil (o : Overlay P F) (node : P → Node P F) : o.Authored [] node :=
  ⟨by rintro m ⟨⟩, .nil⟩

/-- What holds in every state: all that the nodes tried to send, have in their hands, in the air and
in their caches was made, by an author of the overlay, and under a number of its own. -/
structure Sourced (o : Overlay P F) (made : List (RawTransaction P × Bytes))
    (n : OverlayState P F) : Prop where
  tried : ∀ v, ∀ a ∈ (n.node v).behaviour.history, KnownIn made a.rpc
  air : ∀ packet ∈ n.air, KnownIn made packet.rpc
  hands : ∀ v w, ∀ rpc ∈ (n.node v).hands w, KnownIn made rpc
  cached : ∀ id v s, n.source id v = some s → ∃ raw, Known made raw ∧ o.id_of raw = some id
  authored : o.Authored made n.node

omit [Schema] in
theorem sourced_initial (o : Overlay P F) : o.Sourced [] o.initial where
  tried := by rintro v a ⟨⟩
  air := by rintro packet ⟨⟩
  hands := by rintro v w rpc ⟨⟩
  cached := by rintro id v s ⟨⟩
  authored := authored_nil o _

omit [F64 F] [Schema] [DecidableEq P] [Libp2p P] in
theorem Known.mono {made more : List (RawTransaction P × Bytes)} {raw : RawTransaction P}
    (h : Known made raw) : Known (made ++ more) raw := by
  obtain ⟨data, hmem⟩ := h
  exact ⟨data, List.mem_append_left _ hmem⟩

omit [F64 F] [Schema] in
/-- The id of a transaction is the one that its author gave to it. -/
theorem Sourced.id_of {made : List (RawTransaction P × Bytes)} (h : o.Sourced made n)
    {m : RawTransaction P × Bytes} (hm : m ∈ made) : o.id_of m.1 = some (o.id_of_made m) := by
  obtain ⟨⟨from_, seqno, sent, signature, key⟩, data⟩ := m
  obtain ⟨-, houtbound, -⟩ := h.authored.authors _ hm
  unfold Overlay.id_of DataTransform.id_of
  rw [o.lawful data sent houtbound]
  rfl

omit [F64 F] [Schema] [DecidableEq P] in
/-- All nodes see the id that the overlay gives. -/
theorem Fit.id_of_eq {v : P} {b : Behaviour P F} (h : o.Fit v b) (raw : RawTransaction P) :
    b.id_of raw = o.id_of raw := by
  unfold Behaviour.id_of Overlay.id_of
  rw [h.data_transform, h.config, o.agree]

/-! ## One step of one node -/

section

variable {v : P} {op : Op P} {node : Node P F} {made : List (RawTransaction P × Bytes)}

/-- All that the operation brings into the node has been made. -/
def Brings (made : List (RawTransaction P × Bytes)) (m : Node P F) (op : Op P) : Prop :=
  ∀ c, op = .call c → ∀ raw ∈ m.behaviour.brought c, Known made raw

omit [F64 F] [DecidableEq P] in
theorem brings_of_receptions {m : Node P F} (h : ∀ r ∈ m.receptions op, Known made r.2) :
    Brings (made ++ m.made op) m op := by
  rintro c rfl raw hraw
  rcases List.mem_append.mp hraw with hraw | hraw
  · obtain ⟨entry, hentry, rfl⟩ := List.mem_map.mp hraw
    exact ⟨entry.2, List.mem_append_right _ hentry⟩
  · obtain ⟨r, hr, rfl⟩ := List.mem_map.mp hraw
    exact (h r hr).mono

/-- What the node tries to send has been made. -/
theorem Fit.step_tries (h : o.Fit v (n.node v).behaviour) (hstep : (n.node v).step op = some node)
    (hbrings : Brings made (n.node v) op)
    (htried : ∀ a ∈ (n.node v).behaviour.history, KnownIn made a.rpc) :
    ∀ a ∈ node.behaviour.history, KnownIn made a.rpc := by
  cases Node.step_cases hstep with
  | called c b' call =>
    obtain ⟨attempts, hhistory, hlabels⟩ := Behaviour.call_labels h.lawful call
    intro a ha
    rw [hhistory] at ha
    rcases List.mem_append.mp ha with hold | hnew
    · exact htried a hold
    · exact fun raw hraw => hbrings c rfl raw (hlabels a hnew raw hraw).1
  | polled peers _ _ same =>
    rw [same]
    exact htried

/-- What the node sends, and what it then has in its hands, has been made. -/
theorem step_sends (hsound : (n.node v).Sound) (hstep : (n.node v).step op = some node)
    (htried : ∀ a ∈ node.behaviour.history, KnownIn made a.rpc)
    (hhands : ∀ w, ∀ rpc ∈ (n.node v).hands w, KnownIn made rpc) (w : P) :
    ∀ rpc ∈ (n.node v).sent_to v w op ++ node.hands w, KnownIn made rpc := by
  obtain ⟨attempts, hhistory, hsubperm⟩ := Node.hands_step hsound v hstep
  intro rpc hrpc
  rcases List.mem_append.mp ((hsubperm w).subset hrpc) with hold | hnew
  · exact hhands w rpc hold
  · obtain ⟨a, ha, -, -, rfl⟩ := mem_enqueued.mp hnew
    apply htried
    rw [hhistory]
    exact List.mem_append_right _ ha

/-- What the node has in its cache has been made. -/
theorem Fit.step_caches (h : o.Fit v (n.node v).behaviour)
    (hstep : (n.node v).step op = some node) (hbrings : Brings made (n.node v) op)
    (hcached : ∀ id s, n.source id v = some s → ∃ raw, Known made raw ∧ o.id_of raw = some id)
    {id : TransactionId} {s : P} (hget : node.behaviour.cache.get id = some s) :
    ∃ raw, Known made raw ∧ o.id_of raw = some id := by
  cases Node.step_cases hstep with
  | called c b' call =>
    rcases Behaviour.call_caches h.lawful call hget with hold | ⟨raw, hraw, hid⟩
    · exact hcached id s hold
    · rw [h.id_of_eq] at hid
      exact ⟨raw, hbrings c rfl raw hraw, hid⟩
  | polled peers _ _ same =>
    rw [same] at hget
    exact hcached id s hget

/-- A node draws its numbers upwards, for transactions of its own. -/
theorem step_draws {m : Node P F} (hstep : m.step op = some node) :
    m.behaviour.publish_config.last_seqno ≤ node.behaviour.publish_config.last_seqno ∧
    ∀ x ∈ m.made op, x.1.from_ = m.behaviour.own_id ∧
      m.behaviour.data_transform.outbound_transform x.2 = .ok x.1.data ∧
      m.behaviour.publish_config.last_seqno < x.1.seqno ∧
      x.1.seqno ≤ node.behaviour.publish_config.last_seqno := by
  cases Node.step_cases hstep with
  | called c b' call =>
    obtain ⟨hle, hnumbers⟩ := Behaviour.call_seqno call
    refine ⟨hle, ?_⟩
    rintro ⟨raw, data⟩ hm
    obtain ⟨hfrom, houtbound, -⟩ := Behaviour.made_spec hm
    exact ⟨hfrom, houtbound, hnumbers _ hm⟩
  | polled peers no_call _ same =>
    rw [Node.made, Op.on_call_eq_nil no_call, same]
    exact ⟨UInt64.le_refl _, by rintro m ⟨⟩⟩

omit [F64 F] [DecidableEq P] in
/-- A step makes one transaction at most. -/
theorem made_pairwise (m : Node P F) (op : Op P)
    (p : RawTransaction P × Bytes → RawTransaction P × Bytes → Prop) :
    (m.made op).Pairwise p := by
  unfold Node.made Op.on_call Behaviour.made
  split
  · split
    · split
      · exact List.pairwise_singleton _ _
      · exact .nil
    · exact .nil
  · exact .nil

/-- What a node makes in a step is its own, and new. -/
theorem Authored.stepped {at_ : P → Node P F} (h : o.Authored made at_) (hv : v ∈ o.nodes)
    (hown : (at_ v).behaviour.own_id = v)
    (htransform : (at_ v).behaviour.data_transform = o.data_transform)
    (hstep : (at_ v).step op = some node) :
    o.Authored (made ++ (at_ v).made op) (Function.update at_ v node) := by
  obtain ⟨hle, hdraws⟩ := step_draws hstep
  rw [hown, htransform] at hdraws
  constructor
  · intro m hm
    rcases List.mem_append.mp hm with hm | hm
    · obtain ⟨hfrom, houtbound, hnumber⟩ := h.authors m hm
      refine ⟨hfrom, houtbound, ?_⟩
      by_cases hu : m.1.from_ = v
      · rw [hu] at hnumber ⊢
        rw [Function.update_self]
        exact UInt64.le_trans hnumber hle
      · rw [Function.update_of_ne hu]
        exact hnumber
    · obtain ⟨hfrom, houtbound, -, hnumber⟩ := hdraws m hm
      rw [hfrom, Function.update_self]
      exact ⟨hv, houtbound, hnumber⟩
  · rw [List.pairwise_append]
    refine ⟨h.numbers, made_pairwise _ _ _, ?_⟩
    intro m hm m' hm' hsame
    obtain ⟨-, -, hnumber⟩ := h.authors m hm
    obtain ⟨hfrom, -, hlt, -⟩ := hdraws m' hm'
    rw [hsame, hfrom] at hnumber
    exact UInt64.lt_of_le_of_lt hnumber hlt

/-- A step of one node keeps the books, when all that it handles has been made. -/
theorem Sourced.stepped (h : o.Sourced made n) (hfit : o.Fit v (n.node v).behaviour)
    (hsound : (n.node v).Sound) (hv : v ∈ o.nodes) (hstep : (n.node v).step op = some node)
    (hreceptions : ∀ r ∈ (n.node v).receptions op, Known made r.2) {air : List (Packet P)}
    (hair : ∀ packet ∈ air, packet ∈ n.air ∨ packet ∈ (n.node v).sent v op) :
    o.Sourced (made ++ (n.node v).made op) { node := Function.update n.node v node, air } := by
  have hbrings := brings_of_receptions hreceptions
  have htried := hfit.step_tries hstep hbrings
    fun a ha raw hraw => (h.tried v a ha raw hraw).mono
  have hsends := step_sends hsound hstep htried
    fun w rpc hrpc raw hraw => (h.hands v w rpc hrpc raw hraw).mono
  constructor
  · refine (Function.forall_update_iff n.node fun _ node => ∀ a ∈ node.behaviour.history,
      KnownIn _ a.rpc).mpr ⟨htried, ?_⟩
    intro u _ a ha raw hraw
    exact (h.tried u a ha raw hraw).mono
  · intro packet hpacket raw hraw
    rcases hair packet hpacket with hold | hsent
    · exact (h.air packet hold raw hraw).mono
    · have hmem : packet.rpc ∈ (n.node v).sent_to v packet.recipient op := by
        refine List.mem_map.mpr ⟨packet, List.mem_filter.mpr ⟨?_, by simp⟩, rfl⟩
        exact Option.mem_toList.mpr hsent
      exact hsends packet.recipient packet.rpc (List.mem_append_left _ hmem) raw hraw
  · refine (Function.forall_update_iff n.node fun _ node => ∀ w, ∀ rpc ∈ node.hands w,
      KnownIn _ rpc).mpr ⟨?_, ?_⟩
    · intro w rpc hrpc
      exact hsends w rpc (List.mem_append_right _ hrpc)
    · intro u _ w rpc hrpc raw hraw
      exact (h.hands u w rpc hrpc raw hraw).mono
  · have hold : ∀ id u s, n.source id u = some s →
        ∃ raw, Known (made ++ (n.node v).made op) raw ∧ o.id_of raw = some id := by
      intro id u s hsource
      obtain ⟨raw, hknown, hid⟩ := h.cached id u s hsource
      exact ⟨raw, hknown.mono, hid⟩
    intro id u s hsource
    rw [source_update] at hsource
    split at hsource
    · exact hfit.step_caches hstep hbrings (hold · v) hsource
    · exact hold id u s hsource
  · exact h.authored.stepped hv (hfit.own_id hv) hfit.data_transform hstep

end

/-! ## Over whole runs -/

theorem Sourced.step {made : List (RawTransaction P × Bytes)} (h : o.Sourced made n)
    (hfit : ∀ v, o.Fit v (n.node v).behaviour) (hsound : ∀ v, (n.node v).Sound)
    {op : OverlayOp P} (hstep : o.step n op = some n') :
    o.Sourced (made ++ makes n op) n' := by
  cases step_cases hstep with
  | acted v op node member own step =>
    refine h.stepped (hfit v) (hsound v) member step ?_ ?_
    · rw [Node.receptions_eq_nil own]
      rintro r ⟨⟩
    · intro packet hpacket
      rcases List.mem_append.mp hpacket with hold | hnew
      · exact .inl hold
      · exact .inr (Option.mem_toList.mp hnew)
  | delivered index now draw valid packet node there member step =>
    have hpacket := h.air packet (List.mem_of_getElem? there)
    have hnone : makes n (.deliver index now draw valid) =
        (n.node packet.recipient).made (packet.arrives now draw valid) := rfl
    rw [hnone]
    refine h.stepped (hfit _) (hsound _) member step ?_ ?_
    · intro r hr
      rcases receptions_of_arrival packet now draw valid (n.node packet.recipient) with
        hnone | ⟨raw, hraw, hone⟩
      · rw [hnone] at hr
        cases hr
      · rw [hone] at hr
        rw [List.mem_singleton.mp hr]
        exact hpacket raw hraw
    · intro other hother
      exact .inl (List.mem_of_mem_eraseIdx hother)
  | lost index =>
    have hnone : makes n (.lose index) = [] := rfl
    rw [hnone, List.append_nil]
    exact ⟨h.tried, fun packet hpacket => h.air packet (List.mem_of_mem_eraseIdx hpacket), h.hands,
      h.cached, h.authored⟩

theorem sourced_of_run {ops : List (OverlayOp P)} (hrun : o.machine.Run o.initial ops n) :
    o.Sourced (o.made ops) n := by
  unfold made
  induction hrun with
  | nil => exact sourced_initial o
  | snoc hrun hstep ih =>
    rw [Machine.observe_snoc makes hrun]
    exact ih.step (fit_in_run hrun) (sound_in_run hrun) hstep

/-- In the run, the author of the transaction calls `publish` with its data, and draws its
number. -/
def Publishes (o : Overlay P F) (ops : List (OverlayOp P)) (tx : Transaction P) : Prop :=
  ∃ before now after m raw config,
    ops = before ++ .act tx.from_ (.call (.publish now tx.data)) :: after ∧
    o.machine.Run o.initial before m ∧
    (m.node tx.from_).behaviour.prepare tx.data = some (.ok raw, config) ∧ raw.seqno = tx.seqno

theorem publishes_of_made {ops : List (OverlayOp P)} (hrun : o.machine.Run o.initial ops n)
    {raw : RawTransaction P} {data : Bytes} (h : (raw, data) ∈ o.made ops) :
    o.Publishes ops { from_ := raw.from_, seqno := raw.seqno, data } := by
  unfold made at h
  induction hrun with
  | nil => cases h
  | @snoc m m' ops op hrun hstep ih =>
    rw [Machine.observe_snoc makes hrun] at h
    rcases List.mem_append.mp h with h | h
    · obtain ⟨before, now, after, m₀, raw', config, rfl, hbefore, hprepare, hseqno⟩ := ih h
      exact ⟨before, now, after ++ [op], m₀, raw', config, by simp, hbefore, hprepare, hseqno⟩
    · cases step_cases hstep with
      | acted v op node member _ _ =>
        cases op with
        | call c =>
          have h : (raw, data) ∈ (m.node v).behaviour.made c := h
          obtain ⟨hfrom, -, now, config, rfl, hprepare⟩ := Behaviour.made_spec h
          rw [(fit_in_run hrun v).own_id member] at hfrom
          subst hfrom
          exact ⟨ops, now, [], m, raw, config, rfl, hrun, hprepare, rfl⟩
        | poll_next index => cases h
        | poll_stale index elapsed => cases h
        | poll_is_empty index => cases h
      | delivered index now draw valid packet node _ _ _ => cases h
      | lost index => cases h

/-- All that a node handles in a run has been made. -/
theorem received_made {ops : List (OverlayOp P)} (hrun : o.machine.Run o.initial ops n) {w : P}
    {r : P × RawTransaction P} (hr : r ∈ o.received w ops) :
    ∃ data, (r.2, data) ∈ o.made ops := by
  rw [received_eq hrun] at hr
  unfold made
  induction hrun with
  | nil => cases hr
  | @snoc m m' ops op hrun hstep ih =>
    rw [Machine.observe_snoc _ hrun] at hr
    rw [Machine.observe_snoc makes hrun]
    rcases List.mem_append.mp hr with hr | hr
    · obtain ⟨data, hmade⟩ := ih hr
      exact ⟨data, List.mem_append_left _ hmade⟩
    · rcases receptions_cases hstep w with
        hnone | ⟨_, _, _, _, packet, raw, -, hthere, -, hraw, hone⟩
      · rw [hnone] at hr
        cases hr
      · rw [hone] at hr
        rw [List.mem_singleton.mp hr]
        obtain ⟨data, hmade⟩ :=
          (sourced_of_run hrun).air packet (List.mem_of_getElem? hthere) raw hraw
        exact ⟨data, List.mem_append_left _ hmade⟩

/-- What a node was told to have received, it has handled. -/
theorem received_of_told {ops : List (OverlayOp P)} (hrun : o.machine.Run o.initial ops n)
    {w s : P} {id : TransactionId} {tx : Transaction P}
    (h : .TransactionReceived s id tx ∈ o.told w ops) :
    ∃ raw data, (s, raw) ∈ o.received w ops ∧ (raw, data) ∈ o.made ops ∧
      tx = { from_ := raw.from_, seqno := raw.seqno, data } ∧ id = o.transaction_id_fn tx := by
  have hpart := run_part hrun w
  have hevents := received_events_of_run hpart
  rw [← generated_of_run hpart] at hevents
  have hmem : Event.TransactionReceived s id tx ∈ (o.received w ops).flatMap fun r =>
      (o.setup w).behaviour.received_event r.1 r.2 := by
    rw [received, ← hevents]
    exact List.mem_filter.mpr ⟨h, rfl⟩
  obtain ⟨⟨source, raw⟩, hr, hevent⟩ := List.mem_flatMap.mp hmem
  obtain ⟨data, hmade⟩ := received_made hrun hr
  obtain ⟨-, houtbound, -⟩ := (sourced_of_run hrun).authored.authors _ hmade
  have hread : o.data_transform.inbound_transform raw =
      .ok { from_ := raw.from_, seqno := raw.seqno, data } := by
    obtain ⟨from_, seqno, sent, signature, key⟩ := raw
    exact o.lawful data sent houtbound _ _ _ _
  have htransform : (o.setup w).behaviour.data_transform = o.data_transform := rfl
  have hid : (o.setup w).behaviour.config.transaction_id = o.transaction_id_fn := o.agree w
  simp only [Behaviour.received_event, htransform, hread, List.mem_singleton,
    Event.TransactionReceived.injEq, hid] at hevent
  obtain ⟨rfl, rfl, rfl⟩ := hevent
  exact ⟨raw, data, hr, hmade, rfl, rfl⟩

/-- What a node was told to have received, the peer that it came from was told to have sent. -/
theorem sent_of_received {ops : List (OverlayOp P)} (hrun : o.machine.Run o.initial ops n)
    {v w : P} {id : TransactionId} {tx : Transaction P}
    (h : .TransactionReceived v id tx ∈ o.told w ops) :
    ∃ sent, .TransactionSent w id sent ∈ o.told v ops := by
  have hreceived : 0 < (o.told w ops).countP (·.received_from v id) :=
    List.countP_pos_iff.mpr ⟨_, h, by simp [Event.received_from]⟩
  have hflow := copies_of_run hrun v w id
  rw [← told_received hrun, ← told_sent hrun] at hflow
  have hpos : 0 < (o.told v ops).countP (·.sent_to w id) := by omega
  obtain ⟨e, he, hsent⟩ := List.countP_pos_iff.mp hpos
  cases e with
  | TransactionSent target tid transaction =>
    simp only [Event.sent_to, Bool.and_eq_true, decide_eq_true_eq] at hsent
    obtain ⟨rfl, rfl⟩ := hsent
    exact ⟨transaction, he⟩
  | _ => cases hsent

/-! ## Where a source comes from -/

/-- Only the nodes of the overlay do anything. -/
theorem member_of_part {ops : List (OverlayOp P)} (hrun : o.machine.Run o.initial ops n) {w : P}
    (h : o.part w ops ≠ []) : w ∈ o.nodes := by
  unfold part at h
  induction hrun with
  | nil => exact absurd rfl h
  | @snoc m m' ops op hrun hstep ih =>
    rw [Machine.observe_snoc _ hrun] at h
    by_cases hbefore : Machine.observe o.step (fun n => n.part w) o.initial ops = []
    · rw [hbefore, List.nil_append] at h
      cases step_cases hstep with
      | acted v op node member _ _ =>
        by_cases hv : v = w
        · rwa [← hv]
        · exact absurd (if_neg hv) h
      | delivered index now draw valid packet node there member _ =>
        simp only [OverlayState.part, there] at h
        by_cases hw : packet.recipient = w
        · rwa [← hw]
        · exact absurd (if_neg hw) h
      | lost index => exact absurd rfl h
    · exact ih hbefore

/-- Only the nodes of the overlay get a transaction. -/
theorem member_of_source {ops : List (OverlayOp P)} (hrun : o.machine.Run o.initial ops n)
    {id : TransactionId} {w s : P} (hs : n.source id w = some s) : w ∈ o.nodes := by
  obtain ⟨before, c, after, -, -, hops, -⟩ := cached_by (run_part hrun w) hs
  apply member_of_part hrun
  rw [hops]
  simp

/-- A node that has a transaction from another has handled a copy that came from that one. -/
theorem received_of_source {ops : List (OverlayOp P)} (hrun : o.machine.Run o.initial ops n)
    {id : TransactionId} {w s : P} (hs : n.source id w = some s) (hne : s ≠ w) :
    ∃ raw, (s, raw) ∈ o.received w ops ∧ o.id_of raw = some id := by
  obtain ⟨before, c, after, n₁, n₂, hops, hbefore, -, -, -, horigin⟩ :=
    cached_by (run_part hrun w) hs
  have hown : (o.setup w).behaviour.own_id = w := o.identity w (member_of_source hrun hs)
  rcases horigin with ⟨-, hself⟩ | ⟨raw, hraw, hid⟩
  · exact absurd (hself.trans hown) hne
  · refine ⟨raw, ?_, ?_⟩
    · unfold received
      rw [hops]
      exact mem_receptions hbefore hraw
    · rw [← hid]
      exact congrArg (fun f => o.data_transform.id_of f raw) (o.agree w).symm

end Overlay

/-- In an overlay of honest nodes, whatever they do and whichever connections come and go: a node is
told of a transaction only when its author has published just this data under just this number, and
the peer that it came from was told to have sent it. -/
theorem what_is_delivered_was_published {o : Overlay P F} {n : OverlayState P F}
    {ops : List (OverlayOp P)} (hrun : o.machine.Run o.initial ops n) {w s : P}
    {id : TransactionId} {tx : Transaction P} (h : .TransactionReceived s id tx ∈ o.told w ops) :
    id = o.transaction_id_fn tx ∧ tx.from_ ∈ o.nodes ∧ o.Publishes ops tx ∧
      ∃ sent, .TransactionSent w id sent ∈ o.told s ops := by
  obtain ⟨raw, data, -, hmade, rfl, rfl⟩ := Overlay.received_of_told hrun h
  obtain ⟨hnode, -, -⟩ := (Overlay.sourced_of_run hrun).authored.authors _ hmade
  exact ⟨rfl, hnode, Overlay.publishes_of_made hrun hmade, Overlay.sent_of_received hrun h⟩

/-- In an overlay of honest nodes whose ids are distinct no id is made twice, and `publish` never
answers Duplicate. -/
theorem no_id_is_made_twice {o : Overlay P F} (hdistinct : o.Distinct) {n : OverlayState P F}
    {ops : List (OverlayOp P)} (hrun : o.machine.Run o.initial ops n) :
    ((o.made ops).map o.id_of_made).Nodup ∧
    ∀ before v now data after m answer b,
      ops = before ++ .act v (.call (.publish now data)) :: after →
      o.machine.Run o.initial before m →
      (m.node v).behaviour.publish now data = some (answer, b) → answer ≠ .error .Duplicate := by
  constructor
  · have hauthored := (Overlay.sourced_of_run hrun).authored
    rw [List.Nodup, List.pairwise_map]
    refine hauthored.numbers.imp_of_mem ?_
    intro m m' hm hm' hnumbers hid
    obtain ⟨hfrom, hseqno⟩ :=
      hdistinct _ _ (hauthored.authors m hm).1 (hauthored.authors m' hm').1 hid
    exact absurd hseqno (UInt64.ne_of_lt (hnumbers hfrom))
  · rintro before v now data after m answer b rfl hbefore hpublish rfl
    have hsourced := Overlay.sourced_of_run hbefore
    have hfit := Overlay.fit_in_run hbefore v
    -- the call is a step of the run, so the node is one of the overlay
    obtain ⟨m', hbefore', hrest⟩ := hrun.split
    obtain rfl := Machine.run_unique hbefore' hbefore
    obtain ⟨u, hstep, -⟩ := hrest.cons_inv
    obtain ⟨hv, -⟩ := Overlay.step_publish hstep
    obtain ⟨raw, hmade, hcontains⟩ := Behaviour.publish_duplicate hpublish
    obtain ⟨hfrom, -⟩ := Behaviour.made_spec hmade
    have hlt := ((Behaviour.publish_seqno hpublish).2 _ hmade).1
    obtain ⟨s, hs⟩ := DuplicateCache.contains_iff_get.mp hcontains
    obtain ⟨raw', ⟨data', hmade'⟩, hid⟩ := hsourced.cached _ v s hs
    rw [hsourced.id_of hmade'] at hid
    have hsame : o.id_of_made (raw', data') = o.id_of_made (raw, data) := by
      rw [Option.some.inj hid, Behaviour.publish_id, Config.transaction_id, hfit.config, o.agree]
      rfl
    obtain ⟨hnode, -, hle⟩ := hsourced.authored.authors _ hmade'
    have hauthor : raw.from_ ∈ o.nodes := by
      rw [hfrom, hfit.own_id hv]
      exact hv
    obtain ⟨hfrom', hseqno'⟩ := hdistinct _ _ hnode hauthor hsame
    have hauthor : raw'.from_ = v := hfrom'.trans (hfrom.trans (hfit.own_id hv))
    have hseqno' : raw'.seqno = raw.seqno := hseqno'
    have hle : raw'.seqno ≤ (m'.node raw'.from_).behaviour.publish_config.last_seqno := hle
    rw [hauthor, hseqno'] at hle
    exact absurd hlt (UInt64.not_lt.mpr hle)

end

theorem two_hops_deliver_what_was_published :
    let o := Sample.overlay [⟨0⟩, ⟨1⟩, ⟨2⟩]
    ∃ n, o.machine.Run o.initial Sample.two_hops n ∧
      o.Publishes Sample.two_hops { from_ := ⟨0⟩, seqno := 1, data := [7] } := by
  intro o
  have hexec : (Machine.exec o.step o.initial Sample.two_hops).map (fun _ =>
      (o.told ⟨2⟩ Sample.two_hops).contains
        (.TransactionReceived ⟨1⟩ (Sample.tx_id 0 1) { from_ := ⟨0⟩, seqno := 1, data := [7] })) =
      some true := by decide +kernel
  obtain ⟨n, hrun, htold⟩ := Machine.exists_run_of_exec hexec
  rw [List.contains_iff_mem] at htold
  exact ⟨n, hrun, (what_is_delivered_was_published hrun htold).2.2.1⟩

theorem two_hops_make_no_id_twice :
    let o := Sample.overlay [⟨0⟩, ⟨1⟩, ⟨2⟩]
    ((o.made Sample.two_hops).map o.id_of_made).Nodup := by
  intro o
  have hexec : (Machine.exec o.step o.initial Sample.two_hops).map (fun _ => ()) = some () := by
    decide +kernel
  obtain ⟨n, hrun, -⟩ := Machine.exists_run_of_exec hexec
  exact (no_id_is_made_twice (Sample.overlay_distinct _) hrun).1

end libp2p_dog
