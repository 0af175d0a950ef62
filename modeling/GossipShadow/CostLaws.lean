-- What it costs to spread a transaction over an overlay of honest nodes: each
-- node sends it at most once over each link and never back to its source. So
-- there is one copy at least for each node that gets it, and few that are not
-- needed.
import GossipShadow.OriginLaws
import GossipShadow.TreeLaws

namespace libp2p_dog

section

variable {P F : Type} [Libp2p P] [DecidableEq P]

/-! ## What one node offers -/

/-- The attempt sends the transaction with the id. -/
def Attempt.offers (a : Attempt P) (id : TransactionId) : Bool :=
  a.rpc.tx?.isSome && decide (a.tx_id = some id)

namespace Behaviour

/-- The peers to which a node has tried to send the transaction. -/
def offered (b : Behaviour P F) (id : TransactionId) : List P :=
  (b.history.filter (·.offers id)).map (·.peer)

/-- A call offers no transaction; or one that it puts in the cache, once to each of some peers, and
not to the peer that it came from. -/
inductive Offering (b b' : Behaviour P F) : Prop
  | none (new : List (Attempt P)) (history : b'.history = b.history ++ new)
      (own : b'.own_id = b.own_id) (control : ∀ a ∈ new, a.rpc.tx? = .none)
      (cache : b'.cache = b.cache)
  | one (new : List (Attempt P)) (source : P) (id : TransactionId)
      (history : b'.history = b.history ++ new) (own : b'.own_id = b.own_id)
      (label : ∀ a ∈ new, a.tx_id = some id) (peers : (new.map (·.peer)).Nodup)
      (apart : source ≠ b.own_id → source ∉ new.map (·.peer))
      (fresh : b.cache.get id = .none)
      (get : ∀ k, b'.cache.get k = if k = id then some source else b.cache.get k)

theorem AcceptsNone.offering {b b' : Behaviour P F} {new : List (Attempt P)}
    (h : b.AcceptsNone new b') : b.Offering b' :=
  .none new h.sends.history h.sends.own_id h.control h.cache

theorem Caches.offering {b b' : Behaviour P F} {now : Nat} {raw : RawTransaction P} {source : P}
    {id : TransactionId} {new : List (Attempt P)} (h : b.Caches now raw source id new b')
    {rpc : RpcOut P} {peers : List P} (hspread : Spread now id rpc peers new) (hnodup : peers.Nodup)
    (hapart : source ≠ b.own_id → source ∉ peers) : b.Offering b' := by
  rw [← hspread.peers] at hnodup hapart
  exact .one new source id h.sends.history h.sends.own_id (fun a ha => (hspread.all a ha).2.1)
    hnodup hapart h.fresh h.get

omit [Libp2p P] [DecidableEq P] in
theorem get_none_of_insert {c : DuplicateCache TransactionId P} {now : Nat} {id : TransactionId}
    {source : P}
    (halive : ∀ e ∈ c.list, now < e.expiration) (h : (c.insert now id source).1 = true) :
    c.get id = none := by
  rcases DuplicateCache.insert_alive halive id source with ⟨-, he⟩ | ⟨hget, -⟩
  · rw [he] at h
    cases h
  · exact hget

variable [Schema]

theorem publish_offering {b b' : Behaviour P F} {now : Nat} {data : Bytes}
    {answer : Except PublishError TransactionId} (hlawful : b.data_transform.Lawful)
    (halive : b.Alive now) (h : b.publish now data = some (answer, b')) : b.Offering b' := by
  cases publish_spec h with
  | refused e _ sends _ cache =>
    have hnone : b.AcceptsNone [] b' := ⟨sends, by simp, cache⟩
    exact hnone.offering
  | taken raw tx_id new author outbound _ tx_id_eq fresh _ sends spread _ cache =>
    have hget : b.cache.get tx_id = none := DuplicateCache.get_of_not_contains fresh
    have hid : b.id_of raw = some tx_id := by
      obtain ⟨raw_from, seqno, raw_data, signature, key⟩ := raw
      rw [id_of_read (hlawful data raw_data outbound _ _ _ _), tx_id_eq, ← author]
    have hcaches : b.Caches now raw b.own_id tx_id new b' :=
      .of_insert halive hid hget cache sends (spread.carries rfl)
    apply hcaches.offering spread
    · exact Router.filter_valid_routes_nodup b.connected_peers.keys_nodup
    · intro hne
      exact absurd rfl hne

theorem received_offering {b : Behaviour P F} {now : Nat} (raw : RawTransaction P) (source : P)
    (halive : b.Alive now) : b.Offering (b.handle_received_transaction now raw source) := by
  cases received_spec b now raw source with
  | invalid e _ sends _ cache =>
    have hnone : b.AcceptsNone [] _ := ⟨sends, by simp, cache⟩
    exact hnone.offering
  | duplicate tx tx_id _ _ known cache answer =>
    rcases DuplicateCache.insert_alive halive tx_id source with ⟨-, he⟩ | ⟨-, hnew, -⟩
    · rw [he] at cache
      rcases answer with ⟨sends, -⟩ | ⟨sends, -⟩
      · have hnone : b.AcceptsNone [] _ := ⟨sends, by simp, cache⟩
        exact hnone.offering
      · refine .none _ sends.history sends.own_id ?_ cache
        intro a ha
        rw [List.mem_singleton.mp ha]
        rfl
    · rw [known] at hnew
      cases hnew
  | first_time tx tx_id new inbound tx_id_eq fresh cache _ sends spread =>
    have hid : b.id_of raw = some tx_id := by rw [id_of_read inbound, tx_id_eq]
    have hcaches : b.Caches now raw source tx_id new _ :=
      .of_insert halive hid (get_none_of_insert halive fresh) cache sends (spread.carries rfl)
    apply hcaches.offering spread
    · split
      · exact Router.filter_valid_routes_nodup (b.connected_peers.keys_nodup.filter _)
      · exact List.nodup_nil
    · intro _ hmem
      split at hmem
      · have hpeer := (Router.mem_filter_valid_routes.mp hmem).1
        simp at hpeer
      · cases hmem

/-- An RPC that arrives is handled as the one transaction that it carries, or nothing comes of it
but control. -/
theorem arrival_offering [F64 F] {b : Behaviour P F} {now : Nat} (draw : Nat) (source : P)
    (rpc : RpcOut P) (valid : Bool) (halive : b.Alive now) :
    b.Offering (b.on_rpc (fun _ => now) draw source (rpc.arrival valid)) := by
  have hcontrol : ∀ arrived : Rpc P, arrived.transactions = [] →
      b.Offering (b.on_rpc (fun _ => now) draw source arrived) :=
    fun _ hnone => (on_rpc_control b _ draw source hnone).offering
  have hone : ∀ raw, b.Offering (b.on_rpc (fun _ => now) draw source
      { transactions := if valid then [raw] else [], control_msgs := [] }) := by
    intro raw
    cases valid with
    | false => exact hcontrol _ rfl
    | true =>
      rw [if_pos rfl, on_rpc_transaction]
      split
      · have hnone : b.AcceptsNone [] b := ⟨Sends.refl b, by simp, rfl⟩
        exact hnone.offering
      · exact received_offering raw source halive
  cases rpc with
  | Publish raw timeout => exact hone raw
  | Forward raw timeout => exact hone raw
  | HaveTx have_tx => exact hcontrol _ rfl
  | ResetRoute reset_route => exact hcontrol _ rfl

theorem call_offering [F64 F] {b b' : Behaviour P F} {c : Call P} (hcall : b.call c = some b')
    (hlawful : b.data_transform.Lawful) (hpublish : ∀ now data, c = .publish now data → b.Alive now)
    (hown : ∀ clock draw source rpc invalid,
      c ≠ .on_connection_handler_event clock draw source (.Transaction rpc invalid)) :
    b.Offering b' := by
  cases call_cases hcall with
  | published now data answer publish =>
    exact publish_offering hlawful (hpublish now data rfl) publish
  | joined connection_id p _ => exact .none [] (List.append_nil _).symm rfl (by simp) rfl
  | left now draw p connection_id =>
    obtain ⟨-, -, hself, hhistory, hcache, -, -, -⟩ := disconnect_spec b p
    obtain ⟨new, hnone⟩ := (b.disconnect p).adjust_redundancy_accepts now draw
    have hnew := hnone.sends.history
    rw [hhistory] at hnew
    exact .none new hnew (hnone.sends.own_id.trans hself) hnone.control (hnone.cache.trans hcache)
  | rpc clock draw source rpc invalid => exact absurd rfl (hown clock draw source rpc invalid)
  | ticked now draw _ =>
    obtain ⟨new, hnone⟩ := b.adjust_redundancy_accepts now draw
    exact hnone.offering
  | idle _ sends _ cache =>
    have hnone : b.AcceptsNone [] b' := ⟨sends, by simp, cache⟩
    exact hnone.offering

omit [Schema] in
/-- What holds of a node: it offers only what it has in its cache, to each peer once, and not to the
peer that it has it from. -/
structure Thrifty (b : Behaviour P F) : Prop where
  silent : ∀ id, b.cache.get id = none → b.offered id = []
  once : ∀ id, (b.offered id).Nodup
  apart : ∀ id source, b.cache.get id = some source → source ≠ b.own_id → source ∉ b.offered id
  labelled : ∀ a ∈ b.history, a.rpc.tx?.isSome = true → a.tx_id.isSome = true

omit [Schema] [DecidableEq P] in
theorem offered_append {b b' : Behaviour P F} {new : List (Attempt P)}
    (h : b'.history = b.history ++ new) (id : TransactionId) :
    b'.offered id = b.offered id ++ (new.filter (·.offers id)).map (·.peer) := by
  unfold offered
  rw [h, List.filter_append, List.map_append]

omit [Schema] [DecidableEq P] in
theorem Thrifty.offering {b b' : Behaviour P F} (h : b.Thrifty) (hoffering : b.Offering b') :
    b'.Thrifty := by
  cases hoffering with
  | none new history own control cache =>
    have hsame : ∀ id, b'.offered id = b.offered id := by
      intro id
      rw [offered_append history id]
      have hnone : new.filter (·.offers id) = [] := by
        rw [List.filter_eq_nil_iff]
        intro a ha
        simp [Attempt.offers, control a ha]
      rw [hnone, List.map_nil, List.append_nil]
    constructor
    · intro id hget
      rw [cache] at hget
      rw [hsame]
      exact h.silent id hget
    · intro id
      rw [hsame]
      exact h.once id
    · intro id source hget hne
      rw [cache] at hget
      rw [own] at hne
      rw [hsame]
      exact h.apart id source hget hne
    · intro a ha htx
      rw [history] at ha
      rcases List.mem_append.mp ha with ha | ha
      · exact h.labelled a ha htx
      · rw [control a ha] at htx
        cases htx
  | one new source id history own label peers apart fresh get =>
    have hother : ∀ k, k ≠ id → b'.offered k = b.offered k := by
      intro k hk
      rw [offered_append history k]
      have hnone : new.filter (·.offers k) = [] := by
        rw [List.filter_eq_nil_iff]
        intro a ha
        simp [Attempt.offers, label a ha, Ne.symm hk]
      rw [hnone, List.map_nil, List.append_nil]
    have hsub : ((new.filter (·.offers id)).map (·.peer)).Sublist (new.map (·.peer)) :=
      List.filter_sublist.map _
    have hself : b'.offered id = (new.filter (·.offers id)).map (·.peer) := by
      rw [offered_append history id, h.silent id fresh, List.nil_append]
    constructor
    · intro k hget
      rw [get] at hget
      split at hget
      · cases hget
      · rename_i hk
        rw [hother k hk]
        exact h.silent k hget
    · intro k
      by_cases hk : k = id
      · rw [hk, hself]
        exact peers.sublist hsub
      · rw [hother k hk]
        exact h.once k
    · intro k s hget hne
      rw [own] at hne
      rw [get] at hget
      split at hget
      · rename_i hk
        cases hget
        rw [hk, hself]
        exact fun hmem => apart hne (hsub.subset hmem)
      · rename_i hk
        rw [hother k hk]
        exact h.apart k s hget hne
    · intro a ha htx
      rw [history] at ha
      rcases List.mem_append.mp ha with ha | ha
      · exact h.labelled a ha htx
      · rw [label a ha]
        rfl

end Behaviour

/-! ## What the nodes of an overlay offer -/

variable [F64 F] [Schema]

namespace Overlay

variable {o : Overlay P F} {n n' : OverlayState P F} {start : Nat}

theorem step_thrifty {m m' : Node P F} {op : Op P} (hthrifty : m.behaviour.Thrifty)
    (hstep : m.step op = some m') (hoffering : ∀ c b', op = .call c →
      m.behaviour.call c = some b' → m.behaviour.Offering b') : m'.behaviour.Thrifty := by
  cases Node.step_cases hstep with
  | called c b' call => exact hthrifty.offering (hoffering c b' rfl call)
  | polled peers _ _ same =>
    apply hthrifty.offering
    rw [same]
    exact .none [] (List.append_nil _).symm rfl (by simp) rfl

theorem Good.step_thrifty (h : o.Good start n) (hthrifty : ∀ v, (n.node v).behaviour.Thrifty)
    {op : OverlayOp P} (hread : o.OnTime start n op) (hstep : o.step n op = some n') (v : P) :
    (n'.node v).behaviour.Thrifty := by
  cases step_cases hstep with
  | acted u op node member own step =>
    refine (Function.forall_update_iff n.node fun _ node => node.behaviour.Thrifty).mpr
      ⟨?_, fun u _ => hthrifty u⟩ v
    apply step_thrifty (hthrifty u) step
    rintro c b' rfl hcall
    apply Behaviour.call_offering hcall (h.fit u).lawful
    · rintro now data rfl
      exact (h.lasts u).alive (hread _ List.mem_cons_self).2
    · rintro clock draw source rpc invalid rfl
      cases own
  | delivered index now draw valid packet node there member step =>
    refine (Function.forall_update_iff n.node fun _ node => node.behaviour.Thrifty).mpr
      ⟨?_, fun u _ => hthrifty u⟩ v
    apply step_thrifty (hthrifty packet.recipient) step
    rintro c b' hc hcall
    cases hc
    cases hcall
    have hnow := hread (packet.recipient, now) (by simp [OverlayState.readings, there])
    exact Behaviour.arrival_offering draw packet.sender packet.rpc valid
      ((h.lasts packet.recipient).alive hnow.2)
  | lost index => exact hthrifty v

theorem thrifty_of_run {ops : List (OverlayOp P)} (hrun : o.machine.Run o.initial ops n)
    (hwindow : o.InWindow start ops) (v : P) : (n.node v).behaviour.Thrifty := by
  induction hrun generalizing v with
  | nil => exact ⟨fun _ _ => rfl, fun _ => .nil, by rintro id source ⟨⟩, by rintro a ⟨⟩⟩
  | snoc hrun hstep ih =>
    obtain ⟨hbefore, hread⟩ := (inWindow_snoc hrun _).mp hwindow
    exact (good_of_run hrun hbefore).step_thrifty (ih hbefore) hread hstep v

/-- The transaction went from `v` to `w` at most once, and from a node that has it. -/
theorem told_sent_le {ops : List (OverlayOp P)} (hrun : o.machine.Run o.initial ops n)
    (hwindow : o.InWindow start ops) (v w : P) (id : TransactionId) :
    (o.told v ops).countP (·.sent_to w id) ≤ 1 ∧ (0 < (o.told v ops).countP (·.sent_to w id) →
      w ∈ (n.node v).behaviour.offered id) := by
  have hcount : ((n.node v).behaviour.history.filterMap (·.sent?)).count (w, some id) ≤
      ((n.node v).behaviour.offered id).count w := by
    unfold Behaviour.offered
    rw [List.count_filterMap, List.count, List.countP_map, List.countP_filter]
    apply List.countP_mono_left
    intro a _ ha
    simp only [Attempt.sent?, Attempt.has_transaction, beq_iff_eq, Option.ite_none_right_eq_some,
      Bool.and_eq_true, Option.some.injEq, Prod.mk.injEq] at ha
    obtain ⟨⟨-, hsome⟩, hpeer, hlabel⟩ := ha
    simp [Attempt.offers, hsome, hpeer, hlabel]
  rw [told_sent_of_history hrun]
  have honce := List.nodup_iff_count_le_one.mp ((thrifty_of_run hrun hwindow v).once id) w
  exact ⟨by omega, fun hpos => List.count_pos_iff.mp (by omega)⟩

/-- A node that has a transaction from another was sent it by that one. -/
theorem sent_of_source {ops : List (OverlayOp P)} (hrun : o.machine.Run o.initial ops n)
    {id : TransactionId} {w s : P} (hs : n.source id w = some s) (hne : s ≠ w) :
    0 < (o.told s ops).countP (·.sent_to w id) := by
  obtain ⟨raw, hreceived, hid⟩ := received_of_source hrun hs hne
  have hpos : 0 < (o.received w ops).countP (o.arrives_from s id) :=
    List.countP_pos_iff.mpr ⟨_, hreceived, by simp [arrives_from, hid]⟩
  have hflow := copies_of_run hrun s w id
  rw [← told_sent hrun] at hflow
  omega

/-- The nodes that have the transaction. -/
def holders (o : Overlay P F) (n : OverlayState P F) (id : TransactionId) : Finset P :=
  o.nodes.toFinset.filter fun v => (n.source id v).isSome

/-- The copies of the transaction that the nodes were told to have sent to each other. -/
def cost (o : Overlay P F) (ops : List (OverlayOp P)) (id : TransactionId) : Nat :=
  ∑ v ∈ o.nodes.toFinset, ∑ w ∈ o.nodes.toFinset.erase v,
    (o.told v ops).countP (·.sent_to w id)

theorem source_root (hdistinct : o.Distinct) {ops : List (OverlayOp P)}
    (hrun : o.machine.Run o.initial ops n) (hwindow : o.InWindow start ops) {id : TransactionId}
    {v w : P} (hv : n.source id v = some v) (hw : n.source id w = some w) : v = w := by
  have hpublished : ∀ v, n.source id v = some v → o.Published ops v id := by
    intro v hv
    rcases source_origin hrun hwindow hv with ⟨-, hpublished⟩ | ⟨hne, -⟩
    · exact hpublished
    · exact absurd rfl hne
  exact (hpublished v hv).unique hdistinct hrun (hpublished w hw)

end Overlay

/-- In an overlay of honest nodes whose ids are distinct, whatever they do, whichever connections
come and go and whatever is lost, as long as no entry of a cache expires: a transaction goes from
one node to another at most once, and never back to the node that the sender has it from. So it
costs one copy at least for each node that gets it, and at most one for each other node, for each
node that has it, less those that would go back. -/
theorem a_transaction_costs_few_copies {o : Overlay P F} (hdistinct : o.Distinct)
    {n : OverlayState P F} {ops : List (OverlayOp P)} (hrun : o.machine.Run o.initial ops n)
    {start : Nat} (hwindow : o.InWindow start ops) (id : TransactionId) :
    (∀ v w, (o.told w ops).countP (·.received_from v id) ≤ (o.told v ops).countP (·.sent_to w id) ∧
      (o.told v ops).countP (·.sent_to w id) ≤ 1 ∧
      (0 < (o.told v ops).countP (·.sent_to w id) →
        ∃ s, n.source id v = some s ∧ (s ≠ v → s ≠ w))) ∧
    (o.holders n id).card ≤ o.cost ops id + 1 ∧
    o.cost ops id + (o.holders n id).card ≤
      (o.holders n id).card * (o.nodes.toFinset.card - 1) + 1 := by
  have hlink : ∀ v w, 0 < (o.told v ops).countP (·.sent_to w id) →
      ∃ s, n.source id v = some s ∧ (s ≠ v → s ≠ w) := by
    intro v w hpos
    have hthrifty := Overlay.thrifty_of_run hrun hwindow v
    have hoffered := (Overlay.told_sent_le hrun hwindow v w id).2 hpos
    cases hs : (n.node v).behaviour.cache.get id with
    | none =>
      rw [hthrifty.silent id hs] at hoffered
      cases hoffered
    | some s =>
      have hown : (n.node v).behaviour.own_id = v :=
        (Overlay.fit_in_run hrun v).own_id (Overlay.member_of_source hrun hs)
      refine ⟨s, hs, ?_⟩
      rintro hne rfl
      rw [← hown] at hne
      exact hthrifty.apart id s hs hne hoffered
  have hroot : ∀ v w, n.source id v = some v → n.source id w = some w → v = w :=
    fun _ _ => Overlay.source_root hdistinct hrun hwindow
  refine ⟨?_, ?_, ?_⟩
  · intro v w
    refine ⟨?_, (Overlay.told_sent_le hrun hwindow v w id).1, hlink v w⟩
    have hflow := Overlay.copies_of_run hrun v w id
    rw [← Overlay.told_received hrun, ← Overlay.told_sent hrun] at hflow
    omega
  · apply Forest.card_members_le_total hroot
    intro v p hp hne
    rcases Overlay.source_origin hrun hwindow hp with ⟨hself, -⟩ | ⟨-, hmember, -⟩
    · exact absurd hself hne
    · exact ⟨List.mem_toFinset.mpr hmember, Overlay.sent_of_source hrun hp hne⟩
  · apply Forest.total_add_card_members_le hroot
    · exact fun v w => (Overlay.told_sent_le hrun hwindow v w id).1
    · intro v w hpos
      obtain ⟨s, hs, -⟩ := hlink v w hpos
      exact ⟨s, hs⟩
    · intro v p hp hne
      rcases Overlay.source_origin hrun hwindow hp with ⟨hself, -⟩ | ⟨-, hmember, -⟩
      · exact absurd hself hne
      · refine ⟨List.mem_toFinset.mpr hmember, ?_⟩
        by_contra hpos
        obtain ⟨s, hs, hapart⟩ := hlink v p (Nat.pos_of_ne_zero hpos)
        rw [hp] at hs
        cases hs
        exact hapart hne rfl

end

/-- The two copies that three nodes need. -/
theorem two_hops_cost_two_copies :
    let o := Sample.overlay [⟨0⟩, ⟨1⟩, ⟨2⟩]
    ∃ n, o.machine.Run o.initial Sample.two_hops n ∧
      ((o.holders n (Sample.tx_id 0 1)).card = 3 ∧ o.cost Sample.two_hops (Sample.tx_id 0 1) = 2) ∧
      (o.holders n (Sample.tx_id 0 1)).card ≤ o.cost Sample.two_hops (Sample.tx_id 0 1) + 1 := by
  intro o
  have hexec : (Machine.exec o.step o.initial Sample.two_hops).map (fun n =>
      decide ((o.holders n (Sample.tx_id 0 1)).card = 3 ∧
        o.cost Sample.two_hops (Sample.tx_id 0 1) = 2)) = some true := by decide +kernel
  obtain ⟨n, hrun, hcost⟩ := Machine.exists_run_of_exec hexec
  exact ⟨n, hrun, of_decide_eq_true hcost,
    (a_transaction_costs_few_copies (Sample.overlay_distinct _) hrun Sample.two_hops_in_window
      _).2.1⟩

end libp2p_dog
