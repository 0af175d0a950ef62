-- What the calls of the behaviour send, and what they leave alone. Each call
-- appends attempts to the history; the queues then hold what the attempts
-- put there. Every law about sending starts from these facts.
import GossipShadow.Behaviour

namespace libp2p_dog

variable {P F : Type} [Libp2p P] [DecidableEq P]

/-! ## The queues of the peers -/

/-- The sender of a peer, if the peer is connected. -/
def Behaviour.queue (b : Behaviour P F) (p : P) : Option (Sender P) :=
  (b.connected_peers.lookup p).map (·.sender)

theorem Behaviour.queue_isSome {b : Behaviour P F} {p : P} :
    (b.queue p).isSome ↔ p ∈ b.connected_peers := by
  simp [queue, AList.lookup_isSome]

/-- The handlers of a peer change its queue; the behaviour holds the sender of the same queue. -/
def Behaviour.set_queue (b : Behaviour P F) (p : P) (sender : Sender P) : Behaviour P F :=
  let connected_peers := Table.modify p (fun peer => { peer with sender }) b.connected_peers
  { b with connected_peers }

theorem Behaviour.set_queue_keys (b : Behaviour P F) (p : P) (sender : Sender P) :
    (b.set_queue p sender).connected_peers.keys = b.connected_peers.keys :=
  Table.keys_modify _ _ _

theorem Behaviour.mem_set_queue {b : Behaviour P F} {p q : P} {sender : Sender P} :
    q ∈ (b.set_queue p sender).connected_peers ↔ q ∈ b.connected_peers :=
  Table.mem_modify

theorem Behaviour.queue_set_queue_self (b : Behaviour P F) (p : P) (sender : Sender P) :
    (b.set_queue p sender).queue p = (b.queue p).map fun _ => sender := by
  unfold queue set_queue
  simp only [Table.lookup_modify_self, Option.map_map]
  rfl

theorem Behaviour.queue_set_queue_ne {p q : P} (h : q ≠ p) (b : Behaviour P F)
    (sender : Sender P) : (b.set_queue p sender).queue q = b.queue q := by
  unfold queue set_queue
  rw [Table.lookup_modify_ne h]

/-- The RPCs that the attempts put in the queue of peer `p`. -/
def enqueued (p : P) (new : List (Attempt P)) : List (RpcOut P) :=
  (new.filter fun a => decide (a.peer = p) && a.accepted).map (·.rpc)

omit [Libp2p P] in
@[simp] theorem enqueued_nil (p : P) : enqueued p ([] : List (Attempt P)) = [] := rfl

omit [Libp2p P] in
theorem enqueued_append (p : P) (new new' : List (Attempt P)) :
    enqueued p (new ++ new') = enqueued p new ++ enqueued p new' := by
  simp [enqueued]

omit [Libp2p P] in
theorem mem_enqueued {p : P} {new : List (Attempt P)} {rpc : RpcOut P} :
    rpc ∈ enqueued p new ↔ ∃ a ∈ new, a.peer = p ∧ a.accepted = true ∧ a.rpc = rpc := by
  simp [enqueued, and_assoc]

/-! ## Calls that send -/

/-- `b'` is `b` after the attempts `new`. The call may also change the events, the metrics, the
controller, the router and the cache, which the facts about that call tell. -/
structure Sends (b : Behaviour P F) (new : List (Attempt P)) (b' : Behaviour P F) : Prop where
  config : b'.config = b.config
  data_transform : b'.data_transform = b.data_transform
  own_id : b'.own_id = b.own_id
  keys : b'.connected_peers.keys = b.connected_peers.keys
  history : b'.history = b.history ++ new
  queue : ∀ p, b'.queue p = (b.queue p).map (·.push (enqueued p new))
  reached : ∀ a ∈ new, a.accepted = true → a.peer ∈ b.connected_peers

/-- A call that sends nothing. -/
theorem Sends.none {b b' : Behaviour P F} (config : b'.config = b.config)
    (data_transform : b'.data_transform = b.data_transform)
    (publish_config : b'.own_id = b.own_id)
    (connected_peers : b'.connected_peers = b.connected_peers)
    (history : b'.history = b.history) : Sends b [] b' where
  config := config
  data_transform := data_transform
  own_id := publish_config
  keys := by rw [connected_peers]
  history := by simp [history]
  queue p := by
    simp [Behaviour.queue, connected_peers]
    rfl
  reached := by simp

theorem Sends.refl (b : Behaviour P F) : Sends b [] b := .none rfl rfl rfl rfl rfl

theorem Sends.trans {b b' b'' : Behaviour P F} {new new' : List (Attempt P)}
    (h : Sends b new b') (h' : Sends b' new' b'') : Sends b (new ++ new') b'' where
  config := h'.config.trans h.config
  data_transform := h'.data_transform.trans h.data_transform
  own_id := h'.own_id.trans h.own_id
  keys := h'.keys.trans h.keys
  history := by rw [h'.history, h.history, List.append_assoc]
  queue p := by
    rw [h'.queue, h.queue, Option.map_map]
    congr 1
    funext s
    simp [enqueued_append, Sender.push_append]
  reached a ha hacc := by
    rcases List.mem_append.mp ha with ha | ha
    · exact h.reached a ha hacc
    · rw [AList.mem_keys, ← h.keys, ← AList.mem_keys]
      exact h'.reached a ha hacc

theorem Sends.trans_none {b b' b'' : Behaviour P F} {new : List (Attempt P)}
    (h : Sends b new b') (h' : Sends b' [] b'') : Sends b new b'' := by
  simpa using h.trans h'

theorem Sends.none_trans {b b' b'' : Behaviour P F} {new : List (Attempt P)}
    (h : Sends b [] b') (h' : Sends b' new b'') : Sends b new b'' := by
  simpa using h.trans h'

theorem Sends.mem_keys {b b' : Behaviour P F} {new : List (Attempt P)} (h : Sends b new b')
    {p : P} : p ∈ b'.connected_peers ↔ p ∈ b.connected_peers := by
  rw [AList.mem_keys, AList.mem_keys, h.keys]

/-- The attempts of a loop: one for each recipient, in order, for the same transaction. -/
structure Spread (now : Nat) (tx_id : TransactionId) (rpc : RpcOut P) (peers : List P)
    (new : List (Attempt P)) : Prop where
  peers : new.map (·.peer) = peers
  all : ∀ a ∈ new, a.time = now ∧ a.tx_id = some tx_id ∧ a.rpc = rpc

omit [Libp2p P] [DecidableEq P] in
theorem Spread.mem_peers {now : Nat} {tx_id : TransactionId} {rpc : RpcOut P} {peers : List P}
    {new : List (Attempt P)} (h : Spread now tx_id rpc peers new) {p : P} (hp : p ∈ peers) :
    ∃ a ∈ new, a.peer = p := by
  rw [← h.peers] at hp
  exact List.mem_map.mp hp

omit [Libp2p P] [DecidableEq P] in
theorem Spread.carries {now : Nat} {tx_id : TransactionId} {rpc : RpcOut P} {peers : List P}
    {new : List (Attempt P)} (h : Spread now tx_id rpc peers new) {raw : RawTransaction P}
    (hraw : rpc.tx? = some raw) : ∀ a ∈ new, a.rpc.tx? = some raw := by
  intro a ha
  rw [(h.all a ha).2.2]
  exact hraw

/-! ## Metrics and events send nothing -/

namespace Behaviour

section
omit [DecidableEq P]

@[simp] theorem with_metrics_router (f : Metrics F → Metrics F) (b : Behaviour P F) :
    (b.with_metrics f).router = b.router := rfl

@[simp] theorem with_metrics_cache (f : Metrics F → Metrics F) (b : Behaviour P F) :
    (b.with_metrics f).cache = b.cache := rfl

@[simp] theorem with_metrics_controller (f : Metrics F → Metrics F) (b : Behaviour P F) :
    (b.with_metrics f).redundancy_controller = b.redundancy_controller := rfl

@[simp] theorem push_event_router (e : Event P) (b : Behaviour P F) :
    (b.push_event e).router = b.router := rfl

@[simp] theorem push_event_cache (e : Event P) (b : Behaviour P F) :
    (b.push_event e).cache = b.cache := rfl

@[simp] theorem push_routing_updated_router (b : Behaviour P F) :
    b.push_routing_updated.router = b.router := rfl

@[simp] theorem push_routing_updated_cache (b : Behaviour P F) :
    b.push_routing_updated.cache = b.cache := rfl

end

theorem with_metrics_sends (f : Metrics F → Metrics F) (b : Behaviour P F) :
    Sends b [] (b.with_metrics f) := .none rfl rfl rfl rfl rfl

theorem push_event_sends (e : Event P) (b : Behaviour P F) : Sends b [] (b.push_event e) :=
  .none rfl rfl rfl rfl rfl

theorem push_routing_updated_sends (b : Behaviour P F) : Sends b [] b.push_routing_updated :=
  .none rfl rfl rfl rfl rfl

/-! ## One attempt -/

variable [Schema]

omit [DecidableEq P] in
theorem count_tx_sent_eq (b : Behaviour P F) (rpc : RpcOut P) :
    ∃ f, b.count_tx_sent rpc = b.with_metrics f := by
  unfold count_tx_sent
  split
  · exact ⟨_, rfl⟩
  · exact ⟨id, by simp [with_metrics]⟩

/-- What `send_transaction` does: with a queue that takes the RPC it succeeds, and else the queues
stay as they are. -/
theorem send_transaction_cases (b : Behaviour P F) (p : P) (rpc : RpcOut P) :
    (∃ f peer sender, b.connected_peers.lookup p = some peer ∧
      peer.sender.send_transaction rpc = .ok sender ∧
      b.send_transaction p rpc = (true, { b.with_metrics f with
        connected_peers := b.connected_peers.replace p { peer with sender } })) ∨
    (∃ f, (∀ s, b.queue p = some s → ∃ e, s.send_transaction rpc = .error e) ∧
      b.send_transaction p rpc = (false, b.with_metrics f)) := by
  obtain ⟨f, hf⟩ := count_tx_sent_eq b rpc
  have hpeers : (b.with_metrics f).connected_peers = b.connected_peers := rfl
  unfold send_transaction
  rw [hf]
  simp only [hpeers]
  cases hp : b.connected_peers.lookup p with
  | none =>
    right
    refine ⟨f, ?_, rfl⟩
    intro s hs
    simp [queue, hp] at hs
  | some peer =>
    cases hs : peer.sender.send_transaction rpc with
    | ok sender => exact Or.inl ⟨f, peer, sender, rfl, hs, by simp [hs]⟩
    | error e =>
      right
      refine ⟨f, ?_, by simp [hs]⟩
      intro s hq
      simp only [queue, hp, Option.map_some, Option.some.injEq] at hq
      exact ⟨e, hq ▸ hs⟩

/-- The attempt that `send` notes. -/
def attempt (b : Behaviour P F) (now : Nat) (tx_id : Option TransactionId) (p : P)
    (rpc : RpcOut P) : Attempt P :=
  { time := now, peer := p, tx_id, rpc, accepted := (b.send now tx_id p rpc).1 }

theorem send_sends (b : Behaviour P F) (now : Nat) (tx_id : Option TransactionId) (p : P)
    (rpc : RpcOut P) : Sends b [b.attempt now tx_id p rpc] (b.send now tx_id p rpc).2 := by
  rcases send_transaction_cases b p rpc with ⟨f, peer, sender, hp, hs, he⟩ | ⟨f, -, he⟩
  · have hattempt : b.attempt now tx_id p rpc =
        { time := now, peer := p, tx_id, rpc, accepted := true } := by simp [attempt, send, he]
    have hsent : (b.send now tx_id p rpc).2 = { b.with_metrics f with
        connected_peers := b.connected_peers.replace p { peer with sender }
        history := b.history ++ [b.attempt now tx_id p rpc] } := by
      simp [send, he, hattempt, with_metrics]
    rw [hsent]
    refine ⟨rfl, rfl, rfl, AList.keys_replace _ _ _, rfl, ?_, ?_⟩
    · intro q
      simp only [queue, Table.lookup_replace, hattempt]
      by_cases hq : q = p
      · subst hq
        simp [hp, enqueued, Sender.send_transaction_ok hs]
      · simp [hq, Ne.symm hq, enqueued]
        rfl
    · intro a ha _
      rw [List.mem_singleton.mp ha, hattempt]
      exact Table.mem_iff_lookup.mpr ⟨peer, hp⟩
  · have hattempt : b.attempt now tx_id p rpc =
        { time := now, peer := p, tx_id, rpc, accepted := false } := by simp [attempt, send, he]
    have hsent : (b.send now tx_id p rpc).2 = { b.with_metrics f with
        history := b.history ++ [b.attempt now tx_id p rpc] } := by
      simp [send, he, hattempt, with_metrics]
    rw [hsent]
    refine ⟨rfl, rfl, rfl, rfl, rfl, ?_, ?_⟩
    · intro q
      simp [queue, hattempt, enqueued, with_metrics]
      rfl
    · intro a ha hacc
      rw [List.mem_singleton.mp ha, hattempt] at hacc
      cases hacc

theorem send_accepted_iff (b : Behaviour P F) (now : Nat) (tx_id : Option TransactionId) (p : P)
    (rpc : RpcOut P) : (b.send now tx_id p rpc).1 = true ↔
      ∃ s s', b.queue p = some s ∧ s.send_transaction rpc = .ok s' := by
  rcases send_transaction_cases b p rpc with ⟨_, peer, sender, hp, hs, he⟩ | ⟨_, hno, he⟩
  · simp only [send, he, true_iff]
    exact ⟨peer.sender, sender, by simp [queue, hp], hs⟩
  · simp only [send, he, Bool.false_eq_true, false_iff]
    rintro ⟨s, s', hq, hok⟩
    obtain ⟨e, herr⟩ := hno s hq
    rw [herr] at hok
    cases hok

@[simp] theorem send_router (b : Behaviour P F) (now : Nat) (tx_id : Option TransactionId) (p : P)
    (rpc : RpcOut P) : (b.send now tx_id p rpc).2.router = b.router := by
  rcases send_transaction_cases b p rpc with ⟨_, _, _, _, _, he⟩ | ⟨_, _, he⟩ <;> simp [send, he]

@[simp] theorem send_cache (b : Behaviour P F) (now : Nat) (tx_id : Option TransactionId) (p : P)
    (rpc : RpcOut P) : (b.send now tx_id p rpc).2.cache = b.cache := by
  rcases send_transaction_cases b p rpc with ⟨_, _, _, _, _, he⟩ | ⟨_, _, he⟩ <;> simp [send, he]

/-! ## The loop over the recipients -/

theorem send_to_each_sends (b : Behaviour P F) (now : Nat) (tx_id : TransactionId)
    (transaction : Transaction P) (rpc : RpcOut P) (peers : List P) :
    ∃ new, Sends b new (b.send_to_each now tx_id transaction rpc peers).2 ∧
      Spread now tx_id rpc peers new := by
  induction peers generalizing b with
  | nil => exact ⟨[], Sends.refl b, ⟨rfl, by simp⟩⟩
  | cons p peers ih =>
    simp only [send_to_each]
    set sent := b.send now (some tx_id) p rpc with hsent
    have h₁ : Sends b [b.attempt now (some tx_id) p rpc]
        (if sent.1 then sent.2.push_event (.TransactionSent p tx_id transaction) else sent.2) := by
      split
      · exact (send_sends b now (some tx_id) p rpc).trans_none (push_event_sends _ _)
      · exact send_sends b now (some tx_id) p rpc
    obtain ⟨new, h₂, hspread⟩ := ih
      (if sent.1 then sent.2.push_event (.TransactionSent p tx_id transaction) else sent.2)
    refine ⟨_, h₁.trans h₂, ?_, ?_⟩
    · simp [hspread.peers, attempt]
    · intro a ha
      rcases List.mem_append.mp ha with ha | ha
      · rw [List.mem_singleton] at ha
        subst ha
        exact ⟨rfl, rfl, rfl⟩
      · exact hspread.all a ha

@[simp] theorem send_to_each_router (b : Behaviour P F) (now : Nat) (tx_id : TransactionId)
    (transaction : Transaction P) (rpc : RpcOut P) (peers : List P) :
    (b.send_to_each now tx_id transaction rpc peers).2.router = b.router := by
  induction peers generalizing b with
  | nil => rfl
  | cons p peers ih =>
    simp only [send_to_each, ih]
    split <;> simp

@[simp] theorem send_to_each_cache (b : Behaviour P F) (now : Nat) (tx_id : TransactionId)
    (transaction : Transaction P) (rpc : RpcOut P) (peers : List P) :
    (b.send_to_each now tx_id transaction rpc peers).2.cache = b.cache := by
  induction peers generalizing b with
  | nil => rfl
  | cons p peers ih =>
    simp only [send_to_each, ih]
    split <;> simp

/-! ## The calls, one by one -/

theorem publish_new_sends (b : Behaviour P F) (now : Nat) (raw : RawTransaction P)
    (transaction : Transaction P) (tx_id : TransactionId) :
    ∃ new, Sends b new (b.publish_new now raw transaction tx_id).2 ∧
      Spread now tx_id
        (.Publish raw
          { created := now, duration := b.config.connection_handler_publish_duration })
        (b.router.filter_valid_routes b.own_id b.connected_peers.keys) new ∧
      (b.publish_new now raw transaction tx_id).2.router = b.router ∧
      (b.publish_new now raw transaction tx_id).2.cache =
        (b.cache.insert now tx_id b.own_id).2 := by
  unfold publish_new
  simp only
  set start := ({ b with cache := (b.cache.insert now tx_id b.own_id).2 } : Behaviour P F)
    with hstart
  set noted := start.with_metrics (·.set_txs_cache_size start.cache.len) with hnoted
  have h₀ : Sends b [] noted := .none rfl rfl rfl rfl rfl
  obtain ⟨new, h₁, hspread⟩ := send_to_each_sends noted now tx_id transaction
    (.Publish raw { created := now, duration := noted.config.connection_handler_publish_duration })
    (noted.router.filter_valid_routes noted.own_id noted.connected_peers.keys)
  refine ⟨new, ?_, hspread, ?_, ?_⟩
  · split
    · exact h₀.none_trans h₁
    · split
      · exact h₀.none_trans h₁
      · exact (h₀.none_trans h₁).trans_none (with_metrics_sends _ _)
  · split
    · simp [hnoted, hstart]
    · split <;> simp [hnoted, hstart]
  · split
    · simp [hnoted, hstart]
    · split <;> simp [hnoted, hstart]

theorem publish_new_ok {b : Behaviour P F} {now : Nat} {raw : RawTransaction P}
    {transaction : Transaction P} {tx_id id : TransactionId}
    (h : (b.publish_new now raw transaction tx_id).1 = .ok id) : id = tx_id := by
  unfold publish_new at h
  simp only at h
  split at h
  · cases h
  · split at h
    · cases h
    · cases h
      rfl

omit [DecidableEq P] in
/-- The transaction is the node's own, it carries the data, and the node stays the same author. -/
theorem build_raw_transaction_spec {c c' : PublishConfig P} {data : Bytes}
    {r : Except PublishError (RawTransaction P)}
    (h : c.build_raw_transaction data = some (r, c')) :
    c'.get_own_id = c.get_own_id ∧
      ∀ raw, r = .ok raw → raw.from_ = c.get_own_id ∧ raw.data = data := by
  cases c with
  | Signing keypair author inline_key last_seqno =>
    simp only [PublishConfig.build_raw_transaction, Option.map_eq_some_iff] at h
    obtain ⟨seqno, -, h⟩ := h
    split at h
    · cases h
      exact ⟨rfl, by rintro raw ⟨⟩⟩
    · cases h
      refine ⟨rfl, ?_⟩
      rintro raw ⟨⟩
      exact ⟨rfl, rfl⟩
  | Author author last_seqno =>
    simp only [PublishConfig.build_raw_transaction, Option.map_eq_some_iff] at h
    obtain ⟨seqno, -, h⟩ := h
    cases h
    refine ⟨rfl, ?_⟩
    rintro raw ⟨⟩
    exact ⟨rfl, rfl⟩

/-- What a call of `publish` does when it does not panic. -/
inductive Published (b : Behaviour P F) (now : Nat) (data : Bytes)
    (answer : Except PublishError TransactionId) (b' : Behaviour P F) : Prop
  | refused (e : PublishError) (answer_eq : answer = .error e) (sends : Sends b [] b')
      (router : b'.router = b.router) (cache : b'.cache = b.cache)
  | taken (raw : RawTransaction P) (tx_id : TransactionId) (new : List (Attempt P))
      (author : raw.from_ = b.own_id)
      (outbound : b.data_transform.outbound_transform data = .ok raw.data)
      (built : ∃ c, b.publish_config.build_raw_transaction raw.data = some (.ok raw, c))
      (tx_id_eq : tx_id = b.config.transaction_id { from_ := b.own_id, seqno := raw.seqno, data })
      (fresh : b.cache.contains tx_id = false)
      (answer_eq : ∀ id, answer = .ok id → id = tx_id)
      (sends : Sends b new b')
      (spread : Spread now tx_id
        (.Publish raw
          { created := now, duration := b.config.connection_handler_publish_duration })
        (b.router.filter_valid_routes b.own_id b.connected_peers.keys) new)
      (router : b'.router = b.router)
      (cache : b'.cache = (b.cache.insert now tx_id b.own_id).2)

theorem publish_spec {b b' : Behaviour P F} {now : Nat} {data : Bytes}
    {answer : Except PublishError TransactionId}
    (h : b.publish now data = some (answer, b')) : Published b now data answer b' := by
  unfold publish at h
  cases hout : b.data_transform.outbound_transform data with
  | error e =>
    simp only [hout, Option.some.injEq] at h
    cases h
    exact .refused _ rfl (Sends.refl b) rfl rfl
  | ok sent =>
    simp only [hout] at h
    split at h
    · cases h
      exact .refused _ rfl (Sends.refl b) rfl rfl
    obtain ⟨⟨built, config'⟩, hbuild, hres⟩ := Option.map_eq_some_iff.mp h
    obtain ⟨hown, hraw⟩ := build_raw_transaction_spec hbuild
    cases built with
    | error e =>
      cases hres
      exact .refused _ rfl (.none rfl rfl hown rfl rfl) rfl rfl
    | ok raw =>
      obtain ⟨hfrom, rfl⟩ := hraw raw rfl
      simp only [publish_built] at hres
      set start := ({ b with publish_config := config' } : Behaviour P F) with hstart
      have hself : start.own_id = b.own_id := hown
      have h₀ : Sends b [] start := .none rfl rfl hown rfl rfl
      split at hres
      · obtain ⟨rfl, rfl⟩ := Prod.mk.inj hres
        exact .refused _ rfl h₀ rfl rfl
      · rename_i hcontains
        obtain ⟨new, hsends, hspread, hrouter, hcache⟩ := publish_new_sends start now raw
          { from_ := raw.from_, seqno := raw.seqno, data }
          (start.config.transaction_id { from_ := raw.from_, seqno := raw.seqno, data })
        have hok : ∀ id, (start.publish_new now raw
            { from_ := raw.from_, seqno := raw.seqno, data }
            (start.config.transaction_id { from_ := raw.from_, seqno := raw.seqno, data })).1 =
              .ok id →
            id = start.config.transaction_id { from_ := raw.from_, seqno := raw.seqno, data } :=
          fun id => publish_new_ok
        rw [hself] at hspread hcache
        rw [hres] at hsends hrouter hcache hok
        refine .taken raw _ new hfrom hout ⟨_, hbuild⟩ ?_ (by simpa using hcontains) hok
          (h₀.none_trans hsends) hspread hrouter hcache
        rw [hfrom]
        rfl

/-- The peers that a transaction is forwarded to. -/
def forward_peers (b : Behaviour P F) (author source : P) : List P :=
  b.router.filter_valid_routes source (b.connected_peers.keys.filter fun peer =>
    decide (peer ≠ source) && decide (peer ≠ author))

theorem forward_transaction_sends (b : Behaviour P F) (now : Nat) (tx_id : TransactionId)
    (raw : RawTransaction P) (source : P) :
    ∃ new, Sends b new (b.forward_transaction now tx_id raw source).2 ∧
      Spread now tx_id
        (.Forward raw
          { created := now, duration := b.config.connection_handler_forward_duration })
        (b.forward_peers raw.from_ source) new ∧
      (b.forward_transaction now tx_id raw source).2.router = b.router ∧
      (b.forward_transaction now tx_id raw source).2.cache = b.cache := by
  unfold forward_transaction
  simp only
  split
  · rename_i hnone
    refine ⟨[], Sends.refl b, ⟨?_, by simp⟩, rfl, rfl⟩
    exact hnone.symm
  · obtain ⟨new, hsends, hspread⟩ := send_to_each_sends b now tx_id
      { from_ := raw.from_, seqno := raw.seqno, data := raw.data }
      (.Forward raw { created := now, duration := b.config.connection_handler_forward_duration })
      (b.forward_peers raw.from_ source)
    exact ⟨new, hsends, hspread, send_to_each_router _ _ _ _ _ _, send_to_each_cache _ _ _ _ _ _⟩

/-- A control RPC reaches the queue of each connected peer, and of no other. -/
theorem send_control (b : Behaviour P F) (now : Nat) (tx_id : Option TransactionId) (p : P)
    {rpc : RpcOut P} (h : rpc.tx? = none) :
    (b.send now tx_id p rpc).1 = decide (p ∈ b.connected_peers) := by
  rw [Bool.eq_iff_iff, send_accepted_iff, decide_eq_true_eq, ← queue_isSome,
    Option.isSome_iff_exists]
  constructor
  · rintro ⟨s, -, hs, -⟩
    exact ⟨s, hs⟩
  · rintro ⟨s, hs⟩
    exact ⟨s, s.push [rpc], hs, Sender.send_control h⟩

/-- The HaveTx that answers a duplicate. -/
def have_tx_attempt (b : Behaviour P F) (now : Nat) (tx_id : TransactionId) (source : P) :
    Attempt P :=
  { time := now, peer := source, tx_id := some tx_id, rpc := .HaveTx { tx_id }
    accepted := decide (source ∈ b.connected_peers) }

theorem send_have_tx_sends (b : Behaviour P F) (now : Nat) (tx_id : TransactionId) (source : P) :
    Sends b [b.have_tx_attempt now tx_id source] (b.send_have_tx now tx_id source) ∧
    (b.send_have_tx now tx_id source).router =
      (if source ∈ b.connected_peers then b.router.register_have_tx_sent source else b.router) ∧
    (b.send_have_tx now tx_id source).cache = b.cache := by
  have haccepted : (b.send now (some tx_id) source (.HaveTx { tx_id })).1 =
      decide (source ∈ b.connected_peers) := send_control b now (some tx_id) source (by rfl)
  have h := send_sends b now (some tx_id) source (.HaveTx { tx_id })
  have hattempt : b.attempt now (some tx_id) source (.HaveTx { tx_id }) =
      b.have_tx_attempt now tx_id source := by
    simp only [attempt, have_tx_attempt, haccepted]
  rw [hattempt] at h
  unfold send_have_tx
  simp only [haccepted]
  by_cases hmem : source ∈ b.connected_peers
  · simp only [hmem, decide_true, if_true]
    exact ⟨h.trans_none (.none rfl rfl rfl rfl rfl), by simp, by simp⟩
  · simp only [hmem, decide_false, Bool.false_eq_true, if_false]
    exact ⟨h, by simp, by simp⟩

/-- What a duplicate does: nothing, or it sends a HaveTx to its sender. -/
theorem handle_duplicate_sends (b : Behaviour P F) (now : Nat) (tx_id : TransactionId)
    (source : P) :
    (b.handle_duplicate now tx_id source).cache = b.cache ∧
    ((Sends b [] (b.handle_duplicate now tx_id source) ∧
        (b.handle_duplicate now tx_id source).router = b.router) ∨
      (Sends b [b.have_tx_attempt now tx_id source] (b.handle_duplicate now tx_id source) ∧
        (b.handle_duplicate now tx_id source).router =
          if source ∈ b.connected_peers then b.router.register_have_tx_sent source
          else b.router)) := by
  unfold handle_duplicate
  simp only
  set start := ({ b.with_metrics (·.set_txs_cache_size b.cache.len) with
    redundancy_controller := (b.with_metrics
      (·.set_txs_cache_size b.cache.len)).redundancy_controller.incr_duplicate_txs_count } :
    Behaviour P F) with hstart
  have h₀ : Sends b [] start := .none rfl rfl rfl rfl rfl
  split
  · exact ⟨rfl, .inl ⟨h₀, rfl⟩⟩
  split
  · exact ⟨rfl, .inl ⟨h₀, rfl⟩⟩
  obtain ⟨hsends, hrouter, hcache⟩ := send_have_tx_sends start now tx_id source
  exact ⟨hcache, .inr ⟨h₀.none_trans hsends, hrouter⟩⟩

theorem handle_first_time_sends (b : Behaviour P F) (now : Nat) (tx_id : TransactionId)
    (raw : RawTransaction P) (source : P) :
    ∃ new, Sends b new (b.handle_first_time now tx_id raw source) ∧
      Spread now tx_id
        (.Forward raw
          { created := now, duration := b.config.connection_handler_forward_duration })
        (if b.config.forward_transactions then b.forward_peers raw.from_ source else []) new ∧
      (b.handle_first_time now tx_id raw source).router = b.router ∧
      (b.handle_first_time now tx_id raw source).cache = b.cache := by
  unfold handle_first_time
  simp only
  set start := (({ b with
    redundancy_controller := b.redundancy_controller.incr_first_time_txs_count } :
    Behaviour P F).with_metrics (·.tx_recv)).with_metrics (·.set_txs_cache_size b.cache.len)
    with hstart
  have h₀ : Sends b [] start := .none rfl rfl rfl rfl rfl
  have hconfig : start.config = b.config := rfl
  rw [hconfig]
  by_cases hforward : b.config.forward_transactions = true
  · simp only [hforward, if_true]
    obtain ⟨new, hsends, hspread, hrouter, hcache⟩ :=
      forward_transaction_sends start now tx_id raw source
    exact ⟨new, h₀.none_trans hsends, hspread, hrouter, hcache⟩
  · simp only [hforward, Bool.false_eq_true, if_false]
    exact ⟨[], h₀, ⟨rfl, by simp⟩, rfl, rfl⟩

/-- What a received transaction does. -/
inductive Received (b : Behaviour P F) (now : Nat) (raw : RawTransaction P) (source : P)
    (b' : Behaviour P F) : Prop
  | invalid (e : IoError) (inbound : b.data_transform.inbound_transform raw = .error e)
      (sends : Sends b [] b') (router : b'.router = b.router) (cache : b'.cache = b.cache)
  | duplicate (tx : Transaction P) (tx_id : TransactionId)
      (inbound : b.data_transform.inbound_transform raw = .ok tx)
      (tx_id_eq : tx_id = b.config.transaction_id tx)
      (known : (b.cache.insert now tx_id source).1 = false)
      (cache : b'.cache = (b.cache.insert now tx_id source).2)
      (answer : (Sends b [] b' ∧ b'.router = b.router) ∨
        (Sends b [b.have_tx_attempt now tx_id source] b' ∧ b'.router =
          if source ∈ b.connected_peers then b.router.register_have_tx_sent source
          else b.router))
  | first_time (tx : Transaction P) (tx_id : TransactionId) (new : List (Attempt P))
      (inbound : b.data_transform.inbound_transform raw = .ok tx)
      (tx_id_eq : tx_id = b.config.transaction_id tx)
      (fresh : (b.cache.insert now tx_id source).1 = true)
      (cache : b'.cache = (b.cache.insert now tx_id source).2)
      (router : b'.router = b.router)
      (sends : Sends b new b')
      (spread : Spread now tx_id
        (.Forward raw
          { created := now, duration := b.config.connection_handler_forward_duration })
        (if b.config.forward_transactions then b.forward_peers raw.from_ source else []) new)

theorem received_spec (b : Behaviour P F) (now : Nat) (raw : RawTransaction P) (source : P) :
    Received b now raw source (b.handle_received_transaction now raw source) := by
  unfold handle_received_transaction
  simp only
  set start := b.with_metrics (·.tx_recv_unfiltered raw.raw_protobuf_len) with hstart
  have h₀ : Sends b [] start := with_metrics_sends _ b
  have htransform : start.data_transform = b.data_transform := rfl
  cases hin : b.data_transform.inbound_transform raw with
  | error e =>
    simp only [htransform, hin]
    exact .invalid e hin (h₀.trans_none (with_metrics_sends _ _)) rfl rfl
  | ok tx =>
    simp only [htransform, hin]
    set tx_id := b.config.transaction_id tx with hid
    set told := ({ start.push_event (.TransactionReceived source tx_id tx) with
      cache := (b.cache.insert now tx_id source).2 } : Behaviour P F) with htold
    have h₁ : Sends b [] told := .none rfl rfl rfl rfl rfl
    split
    · rename_i hnot
      have hknown : (b.cache.insert now tx_id source).1 = false :=
        (Bool.not_eq_true' _).mp hnot
      obtain ⟨hcache, hanswer⟩ := handle_duplicate_sends told now tx_id source
      refine .duplicate tx tx_id hin hid hknown hcache ?_
      rcases hanswer with ⟨hsends, hrouter⟩ | ⟨hsends, hrouter⟩
      · exact .inl ⟨h₁.none_trans hsends, hrouter⟩
      · exact .inr ⟨h₁.none_trans hsends, hrouter⟩
    · rename_i hnot
      have hfresh : (b.cache.insert now tx_id source).1 = true := by
        have hnot : ¬ (!(b.cache.insert now tx_id source).1) = true := hnot
        simpa using hnot
      obtain ⟨new, hsends, hspread, hrouter, hcache⟩ :=
        handle_first_time_sends told now tx_id raw source
      exact .first_time tx tx_id new hin hid hfresh hcache hrouter (h₁.none_trans hsends) hspread

end Behaviour
end libp2p_dog
