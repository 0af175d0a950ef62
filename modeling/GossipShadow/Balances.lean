-- The books of a node: the transactions that it tried to send, and the
-- events and the counters that tell of them. A call adds the same attempts to
-- all of them.
import GossipShadow.EventLaws
import GossipShadow.PublishLaws
import Mathlib.Algebra.GroupWithZero.Nat

namespace libp2p_dog

section

variable {P F : Type}

/-! ## What is entered in the books -/

/-- The peer and the id, for an event that tells of a transaction sent. -/
def Event.sent? : Event P → Option (P × Option TransactionId)
  | TransactionSent propagation_target transaction_id _ =>
    some (propagation_target, some transaction_id)
  | _ => none

namespace Attempt

/-- The attempt to send a transaction, in a Publish or a Forward. -/
def has_transaction (a : Attempt P) : Bool := a.rpc.tx?.isSome

/-- The peer and the id, for a transaction that the queue of the peer took. -/
def sent? (a : Attempt P) : Option (P × Option TransactionId) :=
  if a.accepted && a.has_transaction then some (a.peer, a.tx_id) else none

/-- The queue of the peer refused a transaction. -/
def refused (a : Attempt P) : Bool := a.has_transaction && !a.accepted

end Attempt

variable [Libp2p P] [Schema]

/-- The size of the transaction of an attempt, encoded. -/
def Attempt.bytes (a : Attempt P) : Nat :=
  match a.rpc.tx? with
  | some tx => tx.raw_protobuf_len
  | none => 0

/-- The counters of the transactions sent, after more attempts. -/
def bill (attempts : List (Attempt P)) (traffic : Nat × Nat) : Nat × Nat :=
  (traffic.1 + attempts.countP (·.has_transaction), traffic.2 + (attempts.map (·.bytes)).sum)

omit [Schema] in
/-- The counters of the transactions sent and of their bytes, if there are metrics. -/
def Behaviour.traffic (b : Behaviour P F) : Option (Nat × Nat) :=
  b.metrics.map fun m => (m.txs_sent_counts, m.txs_sent_bytes)

omit [Schema] in
/-- The number of peers that the metrics show, if there are metrics. -/
def Behaviour.peer_gauge (b : Behaviour P F) : Option Int := b.metrics.map (·.peers_count)

theorem bill_nil (traffic : Option (Nat × Nat)) :
    traffic.map (bill ([] : List (Attempt P))) = traffic := by
  cases traffic <;> rfl

theorem bill_append (attempts more : List (Attempt P)) (traffic : Nat × Nat) :
    bill (attempts ++ more) traffic = bill more (bill attempts traffic) := by
  simp only [bill, List.countP_append, List.map_append, List.sum_append, Prod.mk.injEq]
  omega

/-- `b'` is `b` after the attempts, which the counters and the events tell of. -/
structure Bills (b : Behaviour P F) (new : List (Attempt P)) (b' : Behaviour P F) : Prop where
  history : b'.history = b.history ++ new
  traffic : b'.traffic = b.traffic.map (bill new)
  events : ∃ pushed, b'.events = b.events ++ pushed ∧
    pushed.filterMap (·.sent?) = new.filterMap (·.sent?)

theorem Bills.trans {b b' b'' : Behaviour P F} {new new' : List (Attempt P)} (h : Bills b new b')
    (h' : Bills b' new' b'') : Bills b (new ++ new') b'' := by
  obtain ⟨pushed, hevents, hsent⟩ := h.events
  obtain ⟨pushed', hevents', hsent'⟩ := h'.events
  refine ⟨by rw [h'.history, h.history, List.append_assoc], ?_, pushed ++ pushed', ?_, ?_⟩
  · rw [h'.traffic, h.traffic, Option.map_map]
    congr 1
    funext traffic
    exact (bill_append new new' traffic).symm
  · rw [hevents', hevents, List.append_assoc]
  · rw [List.filterMap_append, List.filterMap_append, hsent, hsent']

/-- Nothing is sent, and no event tells of a transaction sent. -/
theorem Bills.none {b b' : Behaviour P F} (hhistory : b'.history = b.history)
    (htraffic : b'.traffic = b.traffic)
    (hevents : ∃ pushed, b'.events = b.events ++ pushed ∧ ∀ e ∈ pushed, e.sent? = none) :
    Bills b [] b' := by
  obtain ⟨pushed, hpushed, hnone⟩ := hevents
  refine ⟨by rw [hhistory, List.append_nil], by rw [htraffic, bill_nil], pushed, hpushed, ?_⟩
  exact List.filterMap_eq_nil_iff.mpr hnone

theorem Bills.none_trans {b b' b'' : Behaviour P F} {new : List (Attempt P)} (h : Bills b [] b')
    (h' : Bills b' new b'') : Bills b new b'' := by simpa using h.trans h'

theorem Bills.trans_none {b b' b'' : Behaviour P F} {new : List (Attempt P)} (h : Bills b new b')
    (h' : Bills b' [] b'') : Bills b new b'' := by simpa using h.trans h'

variable [DecidableEq P]

omit [Schema] in
/-- The connections that the node knows of a peer. -/
def Behaviour.connections_of (b : Behaviour P F) (p : P) : Option (List ConnectionId) :=
  (b.connected_peers.lookup p).map (·.connections)

omit [Schema] in
/-- Neither the connections nor the number of peers shown change. -/
structure SamePeers (b b' : Behaviour P F) : Prop where
  connections : ∀ p, b'.connections_of p = b.connections_of p
  gauge : b'.peer_gauge = b.peer_gauge

omit [Schema] in
theorem SamePeers.trans {b b' b'' : Behaviour P F} (h : SamePeers b b') (h' : SamePeers b' b'') :
    SamePeers b b'' :=
  ⟨fun p => (h'.connections p).trans (h.connections p), h'.gauge.trans h.gauge⟩

/-- A call that makes the attempts and leaves the peers as they are. -/
structure Balances (b : Behaviour P F) (new : List (Attempt P)) (b' : Behaviour P F) : Prop where
  bills : Bills b new b'
  peers : SamePeers b b'

theorem Balances.trans {b b' b'' : Behaviour P F} {new new' : List (Attempt P)}
    (h : Balances b new b') (h' : Balances b' new' b'') : Balances b (new ++ new') b'' :=
  ⟨h.bills.trans h'.bills, h.peers.trans h'.peers⟩

theorem Balances.none_trans {b b' b'' : Behaviour P F} {new : List (Attempt P)}
    (h : Balances b [] b') (h' : Balances b' new b'') : Balances b new b'' :=
  ⟨h.bills.none_trans h'.bills, h.peers.trans h'.peers⟩

theorem Balances.trans_none {b b' b'' : Behaviour P F} {new : List (Attempt P)}
    (h : Balances b new b') (h' : Balances b' [] b'') : Balances b new b'' :=
  ⟨h.bills.trans_none h'.bills, h.peers.trans h'.peers⟩

theorem Balances.of_eq {b b' : Behaviour P F} (hhistory : b'.history = b.history)
    (hevents : b'.events = b.events) (hmetrics : b'.metrics = b.metrics)
    (hpeers : b'.connected_peers = b.connected_peers) : Balances b [] b' := by
  refine ⟨.none hhistory (by rw [Behaviour.traffic, hmetrics]; rfl) ⟨[], ?_, by simp⟩, ?_, ?_⟩
  · rw [hevents, List.append_nil]
  · intro p
    rw [Behaviour.connections_of, hpeers]
    rfl
  · rw [Behaviour.peer_gauge, hmetrics]
    rfl

theorem Balances.refl (b : Behaviour P F) : Balances b [] b := .of_eq rfl rfl rfl rfl

/-! ## The calls, one by one -/

namespace Behaviour

/-- Other counters are not in these books. -/
theorem with_metrics_balances {f : Metrics F → Metrics F}
    (hpeers : ∀ m, (f m).peers_count = m.peers_count)
    (htraffic : ∀ m, (f m).txs_sent_counts = m.txs_sent_counts ∧
      (f m).txs_sent_bytes = m.txs_sent_bytes) (b : Behaviour P F) :
    Balances b [] (b.with_metrics f) := by
  refine ⟨.none rfl ?_ ⟨[], (List.append_nil _).symm, by simp⟩, fun p => rfl, ?_⟩
  · simp only [traffic, with_metrics, Option.map_map]
    congr 1
    funext m
    exact Prod.ext (htraffic m).1 (htraffic m).2
  · simp only [peer_gauge, with_metrics, Option.map_map]
    congr 1
    funext m
    exact hpeers m

theorem push_event_balances {e : Event P} (he : e.sent? = none) (b : Behaviour P F) :
    Balances b [] (b.push_event e) :=
  ⟨.none rfl rfl ⟨[e], rfl, by simpa using he⟩, fun _ => rfl, rfl⟩

theorem push_routing_updated_balances (b : Behaviour P F) : Balances b [] b.push_routing_updated :=
  (push_event_balances rfl b).trans_none (with_metrics_balances
    (f := (·.set_disabled_routes_count b.router.disabled_routes.length))
    (fun _ => rfl) (fun _ => ⟨rfl, rfl⟩) _)

/-- What one attempt changes: the history, the counters, and what waits in a queue. -/
theorem send_frame (b : Behaviour P F) (now : Nat) (tx_id : Option TransactionId) (p : P)
    (rpc : RpcOut P) :
    (b.send now tx_id p rpc).2.metrics = (b.count_tx_sent rpc).metrics ∧
      ∀ q, (b.send now tx_id p rpc).2.connections_of q = b.connections_of q := by
  have hpeers : (b.count_tx_sent rpc).connected_peers = b.connected_peers := by
    obtain ⟨f, hf⟩ := count_tx_sent_eq b rpc
    rw [hf]
    rfl
  unfold send send_transaction
  dsimp only
  rw [hpeers]
  cases hlookup : b.connected_peers.lookup p with
  | none =>
    refine ⟨rfl, fun q => ?_⟩
    simp only [connections_of, hpeers]
  | some peer =>
    dsimp only
    cases peer.sender.send_transaction rpc with
    | error e =>
      refine ⟨rfl, fun q => ?_⟩
      simp only [connections_of, hpeers]
    | ok sender =>
      refine ⟨rfl, fun q => ?_⟩
      simp only [connections_of, Table.lookup_replace]
      by_cases hq : q = p
      · subst hq
        simp [hlookup]
      · simp [hq]

omit [DecidableEq P] in
theorem count_tx_sent_bills (b : Behaviour P F) (a : Attempt P) :
    (b.count_tx_sent a.rpc).traffic = b.traffic.map (bill [a]) ∧
      (b.count_tx_sent a.rpc).peer_gauge = b.peer_gauge := by
  unfold count_tx_sent bill Attempt.has_transaction Attempt.bytes
  cases htx : a.rpc.tx? with
  | none =>
    refine ⟨?_, rfl⟩
    cases b.traffic <;> simp [htx]
  | some tx =>
    simp only [traffic, peer_gauge, with_metrics, Option.map_map]
    refine ⟨?_, rfl⟩
    congr 1
    funext m
    simp [htx, Metrics.tx_sent]

/-- The attempt is in the counters; its event is the caller's to push. -/
theorem send_balances (b : Behaviour P F) (now : Nat) (tx_id : Option TransactionId) (p : P)
    (rpc : RpcOut P) :
    (b.send now tx_id p rpc).2.history = b.history ++ [b.attempt now tx_id p rpc] ∧
      (b.send now tx_id p rpc).2.traffic = b.traffic.map (bill [b.attempt now tx_id p rpc]) ∧
      SamePeers b (b.send now tx_id p rpc).2 := by
  obtain ⟨hmetrics, hconnections⟩ := send_frame b now tx_id p rpc
  obtain ⟨htraffic, hgauge⟩ := count_tx_sent_bills b (b.attempt now tx_id p rpc)
  refine ⟨(send_sends b now tx_id p rpc).history, ?_, hconnections, ?_⟩
  · rw [traffic, hmetrics]
    exact htraffic
  · rw [peer_gauge, hmetrics]
    exact hgauge

theorem send_control_balances (b : Behaviour P F) (now : Nat) (tx_id : Option TransactionId) (p : P)
    {rpc : RpcOut P} (hrpc : rpc.tx? = none) :
    Balances b [b.attempt now tx_id p rpc] (b.send now tx_id p rpc).2 := by
  obtain ⟨hhistory, htraffic, hpeers⟩ := send_balances b now tx_id p rpc
  refine ⟨⟨hhistory, htraffic, [], ?_, ?_⟩, hpeers⟩
  · rw [(send_spec b now tx_id p rpc).2.1, List.append_nil]
  · simp [Attempt.sent?, Attempt.has_transaction, attempt, hrpc]

/-! ## The loop over the recipients -/

omit [Schema] in
/-- One attempt for each peer, which succeeds when the queue of the peer takes the RPC. -/
def attempts_to (b : Behaviour P F) (now : Nat) (tx_id : TransactionId) (rpc : RpcOut P)
    (peers : List P) : List (Attempt P) :=
  peers.map fun peer =>
    { time := now, peer, tx_id := some tx_id, rpc, accepted := b.takes rpc peer }

theorem send_to_each_balances (b : Behaviour P F) (now : Nat) (tx_id : TransactionId)
    (transaction : Transaction P) {rpc : RpcOut P} (hrpc : rpc.tx?.isSome = true) {peers : List P}
    (hnodup : peers.Nodup) :
    Balances b (b.attempts_to now tx_id rpc peers)
      (b.send_to_each now tx_id transaction rpc peers).2 := by
  induction peers generalizing b with
  | nil => exact .refl b
  | cons p peers ih =>
    obtain ⟨hp, hnodup⟩ := List.nodup_cons.mp hnodup
    obtain ⟨haccepted, hevents, -⟩ := send_spec b now (some tx_id) p rpc
    obtain ⟨hhistory, htraffic, hpeers⟩ := send_balances b now (some tx_id) p rpc
    have hattempt : b.attempt now (some tx_id) p rpc =
        { time := now, peer := p, tx_id := some tx_id, rpc, accepted := b.takes rpc p } := by
      simp only [attempt, haccepted]
    have hrest : ∀ b' : Behaviour P F,
        (∀ q, b'.queue q = (b.send now (some tx_id) p rpc).2.queue q) →
        b'.attempts_to now tx_id rpc peers = b.attempts_to now tx_id rpc peers := by
      intro b' hqueue
      apply List.map_congr_left
      intro q hq
      have hne : q ≠ p := by
        rintro rfl
        exact hp hq
      rw [takes_after_send hqueue hne]
    simp only [send_to_each]
    by_cases htakes : b.takes rpc p = true
    · rw [haccepted, if_pos htakes]
      set sent :=
        (b.send now (some tx_id) p rpc).2.push_event (.TransactionSent p tx_id transaction)
        with hsent
      have hone : Balances b [b.attempt now (some tx_id) p rpc] sent := by
        refine ⟨⟨hhistory, htraffic, [.TransactionSent p tx_id transaction], ?_, ?_⟩,
          hpeers.connections, hpeers.gauge⟩
        · rw [← hevents]
          rfl
        · simp [hattempt, Event.sent?, Attempt.sent?, Attempt.has_transaction, htakes, hrpc]
      have hall := hone.trans (ih sent hnodup)
      rwa [hrest sent (fun _ => rfl), hattempt] at hall
    · rw [haccepted, if_neg htakes]
      have hone : Balances b [b.attempt now (some tx_id) p rpc]
          (b.send now (some tx_id) p rpc).2 := by
        refine ⟨⟨hhistory, htraffic, [], ?_, ?_⟩, hpeers⟩
        · rw [hevents, List.append_nil]
        · simp [hattempt, Attempt.sent?, htakes]
      have hall := hone.trans (ih (b.send now (some tx_id) p rpc).2 hnodup)
      rwa [hrest _ (fun _ => rfl), hattempt] at hall

/-- No queue refused a transaction of the attempts. -/
def accepts_all (attempts : List (Attempt P)) : Bool := attempts.all fun a => !a.refused

omit [Libp2p P] [DecidableEq P] [Schema] in
@[simp] theorem accepts_all_nil : accepts_all ([] : List (Attempt P)) = true := rfl

omit [Libp2p P] [DecidableEq P] [Schema] in
theorem accepts_all_append (attempts more : List (Attempt P)) :
    accepts_all (attempts ++ more) = (accepts_all attempts && accepts_all more) :=
  List.all_append

omit [Schema] in
theorem accepts_all_attempts_to (b : Behaviour P F) (now : Nat) (tx_id : TransactionId)
    {rpc : RpcOut P} (hrpc : rpc.tx?.isSome = true) (peers : List P) :
    accepts_all (b.attempts_to now tx_id rpc peers) = peers.all (b.takes rpc) := by
  unfold accepts_all attempts_to
  rw [List.all_map]
  congr 1
  funext p
  have hsome : rpc.tx? ≠ none := Option.isSome_iff_ne_none.mp hrpc
  simp [Attempt.refused, Attempt.has_transaction, hsome]

/-! ## What the node publishes and forwards -/

/-- Each queue that `publish` offers the transaction to has room for it. -/
def publish_fits (b : Behaviour P F) (data : Bytes) : Bool :=
  match b.prepare data with
  | some (.ok raw, _) => b.cache.contains (b.publish_id raw data) || b.recipients.all b.has_room
  | _ => true

theorem publish_new_balances (b : Behaviour P F) (now : Nat) (raw : RawTransaction P)
    (transaction : Transaction P) (tx_id : TransactionId) :
    Balances b (b.attempts_to now tx_id (b.publish_rpc now raw) b.recipients)
      (b.publish_new now raw transaction tx_id).2 := by
  unfold publish_new
  simp only
  set start := ({ b with cache := (b.cache.insert now tx_id b.own_id).2 } : Behaviour P F)
    with hstart
  set noted := start.with_metrics (·.set_txs_cache_size start.cache.len) with hnoted
  have hrecipients : noted.router.filter_valid_routes noted.own_id noted.connected_peers.keys =
      b.recipients := recipients_eq b
  have hstarted : Balances b [] start := .of_eq rfl rfl rfl rfl
  have hnote : Balances b [] noted := hstarted.trans_none
    (with_metrics_balances (f := (·.set_txs_cache_size start.cache.len)) (fun _ => rfl)
      (fun _ => ⟨rfl, rfl⟩) start)
  have hsent : Balances b (b.attempts_to now tx_id (b.publish_rpc now raw) b.recipients)
      (noted.send_to_each now tx_id transaction (b.publish_rpc now raw) b.recipients).2 :=
    hnote.none_trans (send_to_each_balances noted now tx_id transaction rfl b.recipients_nodup)
  have hrpc : RpcOut.Publish raw { created := now, duration :=
      noted.config.connection_handler_publish_duration } = b.publish_rpc now raw := rfl
  rw [hrecipients, hrpc]
  split
  · exact hsent
  · split
    · exact hsent
    · exact hsent.trans_none (with_metrics_balances (f := (·.register_published_tx))
        (fun _ => rfl) (fun _ => ⟨rfl, rfl⟩) _)

theorem publish_balances {b b' : Behaviour P F} {now : Nat} {data : Bytes}
    {answer : Except PublishError TransactionId} (h : b.publish now data = some (answer, b')) :
    ∃ new, Balances b new b' ∧ accepts_all new = b.publish_fits data := by
  rw [publish_eq] at h
  obtain ⟨⟨made, c⟩, hprepare, hbuilt⟩ := Option.map_eq_some_iff.mp h
  have hfits : ∀ made, b.prepare data = some (made, c) → b.publish_fits data =
      match made with
      | .ok raw => b.cache.contains (b.publish_id raw data) || b.recipients.all b.has_room
      | .error _ => true := by
    intro made hmade
    unfold publish_fits
    rw [hmade]
    cases made <;> rfl
  have hstart : Balances b [] { b with publish_config := c } := .of_eq rfl rfl rfl rfl
  cases made with
  | error e =>
    cases hbuilt
    exact ⟨[], hstart, (hfits _ hprepare).symm⟩
  | ok raw =>
    rw [hfits _ hprepare]
    unfold publish_built at hbuilt
    simp only at hbuilt
    split at hbuilt
    · rename_i hknown
      cases hbuilt
      have hknown : b.cache.contains (b.publish_id raw data) = true := hknown
      exact ⟨[], hstart, by simp [hknown]⟩
    · rename_i hfresh
      obtain ⟨-, rfl⟩ := Prod.mk.inj hbuilt
      have hfresh : b.cache.contains (b.publish_id raw data) = false :=
        (Bool.not_eq_true _).mp hfresh
      set start := ({ b with publish_config := c } : Behaviour P F) with hs
      have hrecipients : start.recipients = b.recipients := by
        unfold recipients
        have hself : start.own_id = b.own_id := prepare_own_id hprepare
        rw [hself]
      have htakes : start.takes (start.publish_rpc now raw) = b.has_room := by
        funext p
        exact takes_publish start raw _ p
      refine ⟨_, hstart.none_trans (publish_new_balances start now raw
        { from_ := raw.from_, seqno := raw.seqno, data } (b.publish_id raw data)), ?_⟩
      rw [accepts_all_attempts_to _ _ _ rfl, hrecipients, htakes]
      simp only [hfresh, Bool.false_or]

/-- The RPC in which the node forwards a transaction. -/
def forward_rpc (b : Behaviour P F) (now : Nat) (raw : RawTransaction P) : RpcOut P :=
  .Forward raw { created := now, duration := b.config.connection_handler_forward_duration }

/-- Each queue that a received transaction is offered to has room for it. -/
def forward_fits (b : Behaviour P F) (now : Nat) (raw : RawTransaction P) (source : P) : Bool :=
  match b.data_transform.inbound_transform raw with
  | .error _ => true
  | .ok transaction =>
    !(b.cache.insert now (b.config.transaction_id transaction) source).1 ||
      !b.config.forward_transactions ||
      (b.forward_peers raw.from_ source).all (b.takes (b.forward_rpc now raw))

theorem forward_transaction_balances (b : Behaviour P F) (now : Nat) (tx_id : TransactionId)
    (raw : RawTransaction P) (source : P) :
    Balances b
      (b.attempts_to now tx_id (b.forward_rpc now raw) (b.forward_peers raw.from_ source))
      (b.forward_transaction now tx_id raw source).2 := by
  have hnodup : (b.forward_peers raw.from_ source).Nodup :=
    Router.filter_valid_routes_nodup (b.connected_peers.keys_nodup.filter _)
  have hrpc : (b.forward_rpc now raw).tx?.isSome = true := rfl
  have hsent := send_to_each_balances b now tx_id
    { from_ := raw.from_, seqno := raw.seqno, data := raw.data } hrpc hnodup
  unfold forward_transaction
  dsimp only
  split
  · rename_i hnone
    have hnone : b.forward_peers raw.from_ source = [] := hnone
    rw [hnone]
    exact .refl b
  · exact hsent

/-! ## Control messages and received transactions -/

/-- The attempts hold no transaction: none can be refused. -/
theorem accepts_all_control (b : Behaviour P F) (now : Nat) (tx_id : Option TransactionId) (p : P)
    {rpc : RpcOut P} (hrpc : rpc.tx? = none) : accepts_all [b.attempt now tx_id p rpc] = true := by
  simp [accepts_all, Attempt.refused, Attempt.has_transaction, attempt, hrpc]

theorem send_have_tx_balances (b : Behaviour P F) (now : Nat) (tx_id : TransactionId)
    (source : P) : ∃ new, Balances b new (b.send_have_tx now tx_id source) ∧
      accepts_all new = true := by
  have hrpc : (RpcOut.HaveTx { tx_id } : RpcOut P).tx? = none := rfl
  have hsend := send_control_balances b now (some tx_id) source hrpc
  refine ⟨_, ?_, accepts_all_control b now (some tx_id) source hrpc⟩
  unfold send_have_tx
  dsimp only
  split
  · set sent := (b.send now (some tx_id) source (.HaveTx { tx_id })).2
    have hcount : Balances sent [] { sent with
        router := sent.router.register_have_tx_sent source
        redundancy_controller := sent.redundancy_controller.block_have_tx } :=
      .of_eq rfl rfl rfl rfl
    have hmetrics := hcount.trans_none (with_metrics_balances (f := (·.register_have_tx_sent))
      (fun _ => rfl) (fun _ => ⟨rfl, rfl⟩) _)
    exact hsend.trans_none (hmetrics.trans_none (push_event_balances rfl _))
  · exact hsend

theorem handle_duplicate_balances (b : Behaviour P F) (now : Nat) (tx_id : TransactionId)
    (source : P) : ∃ new, Balances b new (b.handle_duplicate now tx_id source) ∧
      accepts_all new = true := by
  unfold handle_duplicate
  dsimp only
  have hmetrics := with_metrics_balances (f := (·.set_txs_cache_size b.cache.len))
    (fun _ => rfl) (fun _ => ⟨rfl, rfl⟩) b
  have hcount : Balances b [] { b.with_metrics (·.set_txs_cache_size b.cache.len) with
      redundancy_controller := b.redundancy_controller.incr_duplicate_txs_count } :=
    hmetrics.trans_none (.of_eq rfl rfl rfl rfl)
  split
  · exact ⟨[], hcount, rfl⟩
  · split
    · exact ⟨[], hcount, rfl⟩
    · obtain ⟨new, hsent, hnone⟩ := send_have_tx_balances
        { b.with_metrics (·.set_txs_cache_size b.cache.len) with
          redundancy_controller := b.redundancy_controller.incr_duplicate_txs_count }
        now tx_id source
      exact ⟨new, hcount.none_trans hsent, hnone⟩

theorem handle_first_time_balances (b : Behaviour P F) (now : Nat) (tx_id : TransactionId)
    (raw : RawTransaction P) (source : P) :
    ∃ new, Balances b new (b.handle_first_time now tx_id raw source) ∧
      accepts_all new = (!b.config.forward_transactions ||
        (b.forward_peers raw.from_ source).all (b.takes (b.forward_rpc now raw))) := by
  unfold handle_first_time
  dsimp only
  have hcount : Balances b [] { b with
      redundancy_controller := b.redundancy_controller.incr_first_time_txs_count } :=
    .of_eq rfl rfl rfl rfl
  have hmetrics := (hcount.trans_none (with_metrics_balances (f := (·.tx_recv))
    (fun _ => rfl) (fun _ => ⟨rfl, rfl⟩) _)).trans_none
      (with_metrics_balances (f := (·.set_txs_cache_size b.cache.len)) (fun _ => rfl)
        (fun _ => ⟨rfl, rfl⟩) _)
  split
  · rename_i hforward
    have hforward : b.config.forward_transactions = true := hforward
    refine ⟨_, hmetrics.none_trans (forward_transaction_balances _ now tx_id raw source), ?_⟩
    rw [accepts_all_attempts_to _ _ _ rfl, hforward]
    rfl
  · rename_i hforward
    have hforward : b.config.forward_transactions = false := (Bool.not_eq_true _).mp hforward
    exact ⟨[], hmetrics, by rw [hforward]; rfl⟩

theorem received_balances (b : Behaviour P F) (now : Nat) (raw : RawTransaction P) (source : P) :
    ∃ new, Balances b new (b.handle_received_transaction now raw source) ∧
      accepts_all new = b.forward_fits now raw source := by
  have hmetrics := with_metrics_balances (f := (·.tx_recv_unfiltered raw.raw_protobuf_len))
    (fun _ => rfl) (fun _ => ⟨rfl, rfl⟩) b
  unfold handle_received_transaction forward_fits
  dsimp only
  set start := b.with_metrics (·.tx_recv_unfiltered raw.raw_protobuf_len) with hstart
  have htransform : start.data_transform = b.data_transform := rfl
  rw [htransform]
  cases b.data_transform.inbound_transform raw with
  | error e =>
    exact ⟨[], hmetrics.trans_none (with_metrics_balances (f := (·.register_invalid_tx))
      (fun _ => rfl) (fun _ => ⟨rfl, rfl⟩) start), rfl⟩
  | ok transaction =>
    set tx_id := b.config.transaction_id transaction with hid
    set told := ({ start.push_event (.TransactionReceived source tx_id transaction) with
      cache := (b.cache.insert now tx_id source).2 } : Behaviour P F) with htold
    have hpushed : Balances b []
        (start.push_event (.TransactionReceived source tx_id transaction)) :=
      hmetrics.trans_none (push_event_balances rfl _)
    have hheard : Balances b [] told := hpushed.trans_none (.of_eq rfl rfl rfl rfl)
    cases hfresh : (b.cache.insert now tx_id source).1 with
    | false =>
      obtain ⟨new, hnew, hnone⟩ := handle_duplicate_balances told now tx_id source
      have hinsert : (start.cache.insert now tx_id source).1 = false := hfresh
      refine ⟨new, ?_, by simp [hnone, ← hid, hfresh]⟩
      have hall := hheard.none_trans hnew
      have hsplit : (if (!(start.cache.insert now tx_id source).1) = true then
          told.handle_duplicate now tx_id source
        else told.handle_first_time now tx_id raw source) =
          told.handle_duplicate now tx_id source := by simp [hinsert]
      rw [← hsplit] at hall
      exact hall
    | true =>
      obtain ⟨new, hnew, hfits⟩ := handle_first_time_balances told now tx_id raw source
      have hinsert : (start.cache.insert now tx_id source).1 = true := hfresh
      have hgoal : accepts_all new = (!true || !b.config.forward_transactions ||
          (b.forward_peers raw.from_ source).all (b.takes (b.forward_rpc now raw))) := hfits
      refine ⟨new, ?_, by simpa only [← hid, hfresh] using hgoal⟩
      have hall := hheard.none_trans hnew
      have hsplit : (if (!(start.cache.insert now tx_id source).1) = true then
          told.handle_duplicate now tx_id source
        else told.handle_first_time now tx_id raw source) =
          told.handle_first_time now tx_id raw source := by simp [hinsert]
      rw [← hsplit] at hall
      exact hall

/-- Each queue that the transactions of an RPC are offered to has room, from number `count`. -/
def transactions_fit (b : Behaviour P F) (clock : Nat → Nat) (source : P) :
    Nat → List (RawTransaction P) → Bool
  | _, [] => true
  | count, raw :: rest =>
    b.config.max_transactions_per_rpc.any (fun max => decide (count ≥ max)) ||
      b.forward_fits (clock count) raw source &&
        (b.handle_received_transaction (clock count) raw source).transactions_fit clock source
          (count + 1) rest

theorem transactions_balances (b : Behaviour P F) (clock : Nat → Nat) (source : P) (count : Nat)
    (raws : List (RawTransaction P)) :
    ∃ new, Balances b new (b.handle_transactions clock source count raws) ∧
      accepts_all new = b.transactions_fit clock source count raws := by
  induction raws generalizing b count with
  | nil => exact ⟨[], .refl b, rfl⟩
  | cons raw raws ih =>
    unfold handle_transactions transactions_fit
    split
    · rename_i hmax
      exact ⟨[], .refl b, by simp [hmax]⟩
    · rename_i hmax
      obtain ⟨new, hnew, hfits⟩ := received_balances b (clock count) raw source
      obtain ⟨new', hnew', hfits'⟩ :=
        ih (b.handle_received_transaction (clock count) raw source) (count + 1)
      refine ⟨new ++ new', hnew.trans hnew', ?_⟩
      rw [accepts_all_append, hfits, hfits']
      simp [hmax]

theorem handle_have_tx_balances (b : Behaviour P F) (tx_ids : List TransactionId) (source : P) :
    Balances b [] (b.handle_have_tx tx_ids source) := by
  have hloop : ∀ (tx_ids : List TransactionId) (b : Behaviour P F),
      Balances b [] (tx_ids.foldl (fun b tx_id => b.handle_have_tx_id source tx_id) b) := by
    intro tx_ids
    induction tx_ids with
    | nil => exact fun b => .refl b
    | cons tx_id tx_ids ih =>
      intro b
      have hpush := push_event_balances (e := .HaveTxReceived source tx_id) rfl b
      have hone : Balances b [] (b.handle_have_tx_id source tx_id) := by
        unfold handle_have_tx_id
        dsimp only
        split
        · split
          · exact hpush
          · exact hpush.trans_none (.of_eq rfl rfl rfl rfl)
        · exact hpush
      exact hone.trans_none (ih _)
  exact (hloop tx_ids b).trans_none (push_routing_updated_balances _)

theorem handle_reset_route_balances (b : Behaviour P F) (draw : Nat) (source : P) :
    Balances b [] (b.handle_reset_route draw source) := by
  have hpush := push_event_balances (e := .ResetRouteReceived source) rfl b
  unfold handle_reset_route
  dsimp only
  split
  · have hrouter : ∀ router, Balances (b.push_event (.ResetRouteReceived source)) []
        { b.push_event (.ResetRouteReceived source) with router } := fun _ => .of_eq rfl rfl rfl rfl
    exact (hpush.trans_none (hrouter _)).trans_none (push_routing_updated_balances _)
  · exact hpush

theorem on_rpc_balances [F64 F] (b : Behaviour P F) (clock : Nat → Nat) (draw : Nat) (source : P)
    (rpc : Rpc P) :
    ∃ new, Balances b new (b.on_rpc clock draw source rpc) ∧
      accepts_all new = b.transactions_fit clock source 0 rpc.transactions := by
  obtain ⟨new, hnew, hfits⟩ := transactions_balances b clock source 0 rpc.transactions
  refine ⟨new, ?_, hfits⟩
  apply on_rpc_rule (p := fun b' => Balances b new b') hnew
  · intro b' hb'
    exact hb'.trans_none (handle_have_tx_balances b' _ source)
  · intro b' hb'
    exact hb'.trans_none (handle_reset_route_balances b' draw source)

/-! ## The timer and the connections -/

theorem send_reset_route_balances (b : Behaviour P F) (now draw : Nat) :
    ∃ new, Balances b new (b.send_reset_route now draw) ∧ accepts_all new = true := by
  unfold send_reset_route
  split
  · exact ⟨[], .refl b, rfl⟩
  · rename_i p _
    have hrpc : (RpcOut.ResetRoute {} : RpcOut P).tx? = none := rfl
    have hsend := send_control_balances b now none p hrpc
    refine ⟨_, ?_, accepts_all_control b now none p hrpc⟩
    dsimp only
    split
    · set sent := (b.send now none p (.ResetRoute {})).2
      have hcount : Balances sent [] { sent with router := sent.router.remove_have_tx_sent p } :=
        .of_eq rfl rfl rfl rfl
      have hmetrics := hcount.trans_none (with_metrics_balances
        (f := (·.register_reset_route_sent)) (fun _ => rfl) (fun _ => ⟨rfl, rfl⟩) _)
      exact hsend.trans_none (hmetrics.trans_none (push_event_balances rfl _))
    · exact hsend

theorem adjust_redundancy_balances [F64 F] (b : Behaviour P F) (now draw : Nat) :
    ∃ new, Balances b new (b.adjust_redundancy now draw) ∧ accepts_all new = true := by
  unfold adjust_redundancy
  dsimp only
  set evaluated : Behaviour P F :=
    { b with redundancy_controller := b.redundancy_controller.evaluate.2 } with hevaluated
  have hevaluate : Balances b [] evaluated := .of_eq rfl rfl rfl rfl
  obtain ⟨new, hreset, hnone⟩ : ∃ new, Balances b new
      (if b.redundancy_controller.evaluate.1.2 = true then evaluated.send_reset_route now draw
        else evaluated) ∧ accepts_all new = true := by
    split
    · obtain ⟨new, hnew, hnone⟩ := send_reset_route_balances evaluated now draw
      exact ⟨new, hevaluate.none_trans hnew, hnone⟩
    · exact ⟨[], hevaluate, rfl⟩
  have hmetrics := hreset.trans_none (with_metrics_balances
    (f := (·.set_redundancy b.redundancy_controller.evaluate.1.1)) (fun _ => rfl)
    (fun _ => ⟨rfl, rfl⟩) _)
  exact ⟨new, hmetrics.trans_none (.of_eq rfl rfl rfl rfl), hnone⟩

/-- A peer that has gone is out of the table; the books are as they were. -/
theorem disconnect_bills (b : Behaviour P F) (p : P) :
    Bills b [] (b.disconnect p) ∧ (b.disconnect p).peer_gauge = b.peer_gauge := by
  set forgot : Behaviour P F := { b with router := (b.router.reset_routes_with_peer p).2 }
    with hforgot
  have hreset : Balances b [] forgot := .of_eq rfl rfl rfl rfl
  obtain hsplit : Balances b [] (if (b.router.reset_routes_with_peer p).1 ≠ [] then
      forgot.push_routing_updated else forgot) := by
    split
    · exact hreset.trans_none (push_routing_updated_balances _)
    · exact hreset
  obtain ⟨⟨hhistory, htraffic, hevents⟩, -, hgauge⟩ := hsplit
  exact ⟨⟨hhistory, htraffic, hevents⟩, hgauge⟩

/-- The calls that tell of connections. -/
def concerns_connections : Call P → Bool
  | .handle_established_inbound_connection _ _ => true
  | .handle_established_outbound_connection _ _ => true
  | .on_swarm_event _ _ (.ConnectionEstablished _) => true
  | .on_swarm_event _ _ (.ConnectionClosed _ _ _) => true
  | _ => false

/-- Each queue that a call offers a transaction to has room for it. -/
def call_fits (b : Behaviour P F) : Call P → Bool
  | .publish _ data => b.publish_fits data
  | .on_connection_handler_event clock _ source (.Transaction rpc _) =>
    b.transactions_fit clock source 0 rpc.transactions
  | _ => true

/-- `b'` is `b` after the call, which hands out the first event or none, and makes the attempts. -/
theorem call_balances [F64 F] {b b' : Behaviour P F} {c : Call P} (h : b.call c = some b')
    (hc : concerns_connections c = false) :
    ∃ new left, b.events = b.emitted c ++ left ∧ Balances { b with events := left } new b' ∧
      accepts_all new = b.call_fits c := by
  have hpushes : b.emitted c = [] →
      (∃ new, Balances b new b' ∧ accepts_all new = b.call_fits c) →
      ∃ new left, b.events = b.emitted c ++ left ∧ Balances { b with events := left } new b' ∧
        accepts_all new = b.call_fits c := by
    rintro hnone ⟨new, hnew, hfits⟩
    exact ⟨new, b.events, by rw [hnone, List.nil_append], hnew, hfits⟩
  cases c with
  | publish now data =>
    obtain ⟨⟨answer, after⟩, hpublish, rfl⟩ := Option.map_eq_some_iff.mp h
    exact hpushes rfl (publish_balances hpublish)
  | handle_established_inbound_connection connection_id peer_id => cases hc
  | handle_established_outbound_connection connection_id peer => cases hc
  | on_swarm_event now draw event =>
    cases event with
    | ConnectionEstablished peer_id => cases hc
    | ConnectionClosed peer_id connection_id remaining_established => cases hc
    | Other =>
      cases h
      exact hpushes rfl ⟨[], .refl b, rfl⟩
  | on_connection_handler_event clock draw source event =>
    cases h
    apply hpushes rfl
    cases event with
    | Transaction rpc invalid => exact on_rpc_balances b clock draw source rpc
    | TransactionDropped rpc =>
      have htimedout : ∀ b : Behaviour P F,
          Balances b [] (b.with_metrics (·.register_timedout_tx_dropped)) :=
        with_metrics_balances (fun _ => rfl) (fun _ => ⟨rfl, rfl⟩)
      cases rpc with
      | Publish tx timeout =>
        have hdropped := with_metrics_balances (f := (·.register_published_tx_dropped))
          (fun _ => rfl) (fun _ => ⟨rfl, rfl⟩) b
        exact ⟨[], hdropped.trans_none (htimedout _), rfl⟩
      | Forward tx timeout =>
        have hdropped := with_metrics_balances (f := (·.register_forwarded_tx_dropped))
          (fun _ => rfl) (fun _ => ⟨rfl, rfl⟩) b
        exact ⟨[], hdropped.trans_none (htimedout _), rfl⟩
      | HaveTx have_tx => exact ⟨[], htimedout b, rfl⟩
      | ResetRoute reset_route => exact ⟨[], htimedout b, rfl⟩
  | poll now draw redundancy_interval =>
    cases h
    unfold emitted poll
    cases hevents : b.events with
    | cons event events => exact ⟨[], events, rfl, .refl _, rfl⟩
    | nil =>
      have hsame : ({ b with events := [] } : Behaviour P F) = b := by rw [← hevents]
      cases redundancy_interval with
      | false => exact ⟨[], [], rfl, by rw [hsame]; exact .refl b, rfl⟩
      | true =>
        obtain ⟨new, hnew, hnone⟩ := adjust_redundancy_balances b now draw
        exact ⟨new, [], rfl, by rw [hsame]; exact hnew, hnone⟩

/-- Every call is in the books, also those that tell of connections. -/
theorem call_bills [F64 F] {b b' : Behaviour P F} {c : Call P} (h : b.call c = some b') :
    ∃ new left, b.events = b.emitted c ++ left ∧ Bills { b with events := left } new b' ∧
      accepts_all new = b.call_fits c := by
  by_cases hc : concerns_connections c = false
  · obtain ⟨new, left, hevents, hnew, hfits⟩ := call_balances h hc
    exact ⟨new, left, hevents, hnew.bills, hfits⟩
  · have hquiet : ∀ b' : Behaviour P F, b'.history = b.history → b'.traffic = b.traffic →
        b'.events = b.events → Bills b [] b' := by
      intro b' hhistory htraffic hevents
      exact .none hhistory htraffic ⟨[], by rw [hevents, List.append_nil], by simp⟩
    cases c with
    | publish now data => exact absurd rfl hc
    | handle_established_inbound_connection connection_id peer_id =>
      cases h
      exact ⟨[], b.events, rfl, hquiet _ rfl rfl rfl, rfl⟩
    | handle_established_outbound_connection connection_id peer =>
      cases h
      exact ⟨[], b.events, rfl, hquiet _ rfl rfl rfl, rfl⟩
    | on_swarm_event now draw event =>
      cases h
      cases event with
      | ConnectionEstablished peer_id =>
        have htraffic : (b.with_metrics (·.inc_peers_count)).traffic = b.traffic := by
          simp only [traffic, with_metrics, Option.map_map]
          rfl
        exact ⟨[], b.events, rfl, hquiet _ rfl htraffic rfl, rfl⟩
      | ConnectionClosed peer_id connection_id remaining_established =>
        cases remaining_established with
        | zero =>
          obtain ⟨new, hnew, hnone⟩ := adjust_redundancy_balances (b.disconnect peer_id) now draw
          obtain ⟨hhistory, htraffic, hevents⟩ :=
            (disconnect_bills b peer_id).1.none_trans hnew.bills
          refine ⟨new, b.events, rfl, ⟨hhistory, ?_, hevents⟩, hnone⟩
          rw [← htraffic]
          simp only [traffic, on_swarm_event, on_connection_closed, with_metrics, ne_eq,
            not_true_eq_false, if_false, Option.map_map]
          rfl
        | succ remaining => exact ⟨[], b.events, rfl, hquiet _ rfl rfl rfl, rfl⟩
      | Other => exact absurd rfl hc
    | on_connection_handler_event clock draw source event => exact absurd rfl hc
    | poll now draw redundancy_interval => exact absurd rfl hc

end Behaviour

end

end libp2p_dog
