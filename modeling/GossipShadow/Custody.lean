-- What a node has in its hands for its peers: the RPCs in its queues, and those
-- that its handlers have read ahead. A node passes on a transaction only when it
-- has the id of it in its cache.
import GossipShadow.Acceptance

namespace libp2p_dog

/-! ## Queues and slots -/

section

variable {P : Type}

/-- What waits in the two channels. -/
def Sender.waits (s : Sender P) : List (RpcOut P) := s.priority ++ s.non_priority

theorem Sender.mem_waits_push {s : Sender P} {rpcs : List (RpcOut P)} {rpc : RpcOut P} :
    rpc ∈ (s.push rpcs).waits ↔ rpc ∈ s.waits ∨ rpc ∈ rpcs := by
  simp only [waits, push, List.mem_append, List.mem_filter]
  cases rpc.isForward <;> simp <;> tauto

theorem Receiver.mem_waiting_iff {r : Receiver P} {s : Sender P} {rpc : RpcOut P} :
    rpc ∈ r.waiting s ↔ rpc ∈ r.slots ∨ rpc ∈ s.waits := by
  simp only [waiting, priority_waiting, non_priority_waiting, Peekable.waiting, slots, Sender.waits,
    List.mem_append]
  tauto

end

section

variable {P F : Type} [Libp2p P] [DecidableEq P]

/-! ## What a call adds to the queues -/

/-- The node stays who it is, and what a call adds to its queues is of a kind. -/
structure Behaviour.Adds (b : Behaviour P F) (kind : RpcOut P → Prop) (b' : Behaviour P F) :
    Prop where
  config : b'.config = b.config
  data_transform : b'.data_transform = b.data_transform
  own_id : b'.own_id = b.own_id
  queue : ∀ p q', b'.queue p = some q' → ∀ rpc ∈ q'.waits,
    kind rpc ∨ ∃ q, b.queue p = some q ∧ rpc ∈ q.waits

theorem Sends.adds {b b' : Behaviour P F} {new : List (Attempt P)} (h : Sends b new b')
    {kind : RpcOut P → Prop} (hnew : ∀ a ∈ new, kind a.rpc) : b.Adds kind b' where
  config := h.config
  data_transform := h.data_transform
  own_id := h.own_id
  queue p q' hq' rpc hrpc := by
    rw [h.queue p] at hq'
    obtain ⟨q, hq, rfl⟩ := Option.map_eq_some_iff.mp hq'
    rcases Sender.mem_waits_push.mp hrpc with hrpc | hrpc
    · exact .inr ⟨q, hq, hrpc⟩
    · obtain ⟨a, ha, -, -, rfl⟩ := mem_enqueued.mp hrpc
      exact .inl (hnew a ha)

theorem Behaviour.Adds.trans {b b' b'' : Behaviour P F} {kind : RpcOut P → Prop}
    (h : b.Adds kind b') (h' : b'.Adds kind b'') : b.Adds kind b'' where
  config := h'.config.trans h.config
  data_transform := h'.data_transform.trans h.data_transform
  own_id := h'.own_id.trans h.own_id
  queue p q'' hq'' rpc hrpc := by
    rcases h'.queue p q'' hq'' rpc hrpc with hkind | ⟨q', hq', hrpc⟩
    · exact .inl hkind
    · exact h.queue p q' hq' rpc hrpc

namespace Behaviour

/-- A new connection adds nothing to a queue. -/
theorem established_adds (b : Behaviour P F) (connection_id : ConnectionId) (p : P)
    (kind : RpcOut P → Prop) : b.Adds kind (b.handle_established_connection connection_id p).2 where
  config := rfl
  data_transform := rfl
  own_id := rfl
  queue q s' hs' rpc hrpc := by
    rw [established_queue] at hs'
    split at hs'
    · rename_i hq
      subst hq
      cases hs'
      cases hold : b.queue q with
      | none =>
        rw [hold] at hrpc
        cases hrpc
      | some s =>
        rw [hold] at hrpc
        exact .inr ⟨s, rfl, hrpc⟩
    · exact .inr ⟨s', hs', hrpc⟩

theorem disconnect_adds (b : Behaviour P F) (p : P) (kind : RpcOut P → Prop) :
    b.Adds kind (b.disconnect p) := by
  obtain ⟨hconfig, htransform, hown, -, -, -, -, -⟩ := disconnect_spec b p
  refine ⟨hconfig, htransform, hown, ?_⟩
  intro q s hs rpc hrpc
  rw [disconnect_queue] at hs
  split at hs
  · cases hs
  · exact .inr ⟨s, hs, hrpc⟩

/-- What a call does to the cache, and what it then adds to the queues: nothing new and control
RPCs, or one transaction. -/
inductive Caching (b : Behaviour P F) (origin : RawTransaction P → P → Prop) (start : Nat)
    (b' : Behaviour P F) : Prop
  | none (adds : b.Adds (fun rpc => rpc.tx? = none) b') (cache : b'.cache = b.cache)
  | one (now : Nat) (raw : RawTransaction P) (source : P) (id : TransactionId)
      (adds : b.Adds (fun rpc => rpc.tx? = some raw) b') (id_of : b.id_of raw = some id)
      (fresh : b.cache.get id = none)
      (get : ∀ k, b'.cache.get k = if k = id then some source else b.cache.get k)
      (kept : ∀ e ∈ b'.cache.list, e ∈ b.cache.list ∨ start + b.cache.ttl ≤ e.expiration)
      (ttl : b'.cache.ttl = b.cache.ttl) (origin : origin raw source)

theorem AcceptsNone.caching {b b' : Behaviour P F} {new : List (Attempt P)}
    (h : b.AcceptsNone new b') (origin : RawTransaction P → P → Prop) (start : Nat) :
    b.Caching origin start b' :=
  .none (h.sends.adds h.control) h.cache

theorem Caches.caching {b b' : Behaviour P F} {now start : Nat} {raw : RawTransaction P}
    {source : P} {id : TransactionId} {new : List (Attempt P)}
    (h : b.Caches now raw source id new b') (hstart : start ≤ now)
    {origin : RawTransaction P → P → Prop} (horigin : origin raw source) :
    b.Caching origin start b' := by
  refine .one now raw source id (h.sends.adds h.carry) h.id_of h.fresh h.get ?_ h.ttl horigin
  intro e he
  rw [h.list, List.mem_append, List.mem_singleton] at he
  rcases he with he | rfl
  · exact .inl he
  · exact .inr (Nat.add_le_add_right hstart _)

/-- The calls that bring no RPC of a peer. Only `publish` puts a transaction in the cache, and it is
the node's own. -/
theorem call_caching [F64 F] [Schema] {b b' : Behaviour P F} {c : Call P} (start : Nat)
    (hcall : b.call c = some b') (hlawful : b.data_transform.Lawful)
    (hpublish : ∀ now data, c = .publish now data → start ≤ now ∧ b.Alive now)
    (hown : ∀ clock draw source rpc invalid,
      c ≠ .on_connection_handler_event clock draw source (.Transaction rpc invalid)) :
    b.Caching (fun raw source => raw.from_ = b.own_id ∧ source = b.own_id ∧
      ∃ now data, c = .publish now data) start b' := by
  cases call_cases hcall with
  | published now data answer publish =>
    obtain ⟨hstart, halive⟩ := hpublish now data rfl
    rcases publish_accepts hlawful halive publish with
      ⟨hnone, -⟩ | ⟨raw, id, new, hauthor, haccepts, -⟩
    · exact hnone.caching _ start
    · exact haccepts.caches.caching hstart ⟨hauthor, rfl, now, data, rfl⟩
  | joined connection_id p _ => exact .none (established_adds b connection_id p _) rfl
  | left now draw p connection_id =>
    obtain ⟨-, -, -, -, hcache, -, -, -⟩ := disconnect_spec b p
    obtain ⟨new, hnone⟩ := (b.disconnect p).adjust_redundancy_accepts now draw
    have hsends := hnone.sends.trans_none (with_metrics_sends (·.dec_peers_count) _)
    have hadds := (b.disconnect_adds p (fun rpc => rpc.tx? = none)).trans
      (hsends.adds hnone.control)
    exact .none hadds (hnone.cache.trans hcache)
  | rpc clock draw source rpc invalid => exact absurd rfl (hown clock draw source rpc invalid)
  | ticked now draw _ =>
    obtain ⟨new, hnone⟩ := b.adjust_redundancy_accepts now draw
    exact hnone.caching _ start
  | idle _ sends _ cache =>
    have hnone : b.AcceptsNone [] b' := ⟨sends, by simp, cache⟩
    exact hnone.caching _ start

/-- The arrival of an RPC puts nothing but its transaction in the cache. -/
theorem arrival_caching [F64 F] [Schema] {b : Behaviour P F} {now start : Nat} (draw : Nat)
    (sender : P) (rpc : RpcOut P) (valid : Bool) (hstart : start ≤ now) (halive : b.Alive now) :
    b.Caching (fun raw source => rpc.tx? = some raw ∧ source = sender) start
      (b.on_rpc (fun _ => now) draw sender (rpc.arrival valid)) := by
  rcases arrival_caches draw sender rpc valid halive with
    ⟨new, hnone, -⟩ | ⟨raw, id, new, hraw, hcaches, -⟩
  · exact hnone.caching _ start
  · exact hcaches.caching hstart ⟨hraw, rfl⟩

/-- The transaction of the RPC, if it carries one, is in the cache. -/
def Cached (b : Behaviour P F) (rpc : RpcOut P) : Prop :=
  ∀ raw, rpc.tx? = some raw → ∃ id source, b.id_of raw = some id ∧ b.cache.get id = some source

variable {b b' : Behaviour P F} {origin : RawTransaction P → P → Prop} {start : Nat}

theorem Caching.same (h : b.Caching origin start b') :
    b'.config = b.config ∧ b'.data_transform = b.data_transform ∧ b'.own_id = b.own_id := by
  cases h with
  | none adds _ => exact ⟨adds.config, adds.data_transform, adds.own_id⟩
  | one _ _ _ _ adds _ _ _ _ _ _ => exact ⟨adds.config, adds.data_transform, adds.own_id⟩

theorem Caching.id_of (h : b.Caching origin start b') (raw : RawTransaction P) :
    b'.id_of raw = b.id_of raw := by
  obtain ⟨hconfig, htransform, -⟩ := h.same
  exact id_of_congr hconfig htransform raw

/-- A source stays as it is. -/
theorem Caching.get (h : b.Caching origin start b') {id : TransactionId} {source : P}
    (hsource : b.cache.get id = some source) : b'.cache.get id = some source := by
  cases h with
  | none _ cache => rwa [cache]
  | one now raw s id' _ _ fresh get _ _ _ =>
    have hne : id ≠ id' := by
      rintro rfl
      rw [fresh] at hsource
      cases hsource
    rw [get, if_neg hne]
    exact hsource

theorem Caching.cached (h : b.Caching origin start b') {rpc : RpcOut P} (hcached : b.Cached rpc) :
    b'.Cached rpc := by
  intro raw hraw
  obtain ⟨id, source, hid, hsource⟩ := hcached raw hraw
  exact ⟨id, source, by rw [h.id_of, hid], h.get hsource⟩

/-- What the call adds to a queue is in the cache. -/
theorem Caching.queue (h : b.Caching origin start b') {p : P} {q' : Sender P}
    (hq' : b'.queue p = some q') {rpc : RpcOut P} (hrpc : rpc ∈ q'.waits) :
    b'.Cached rpc ∨ ∃ q, b.queue p = some q ∧ rpc ∈ q.waits := by
  cases h with
  | none adds _ =>
    refine (adds.queue p q' hq' rpc hrpc).imp_left ?_
    intro hnone raw hraw
    rw [hnone] at hraw
    cases hraw
  | one now raw source id adds id_of fresh get kept ttl origin =>
    refine (adds.queue p q' hq' rpc hrpc).imp_left ?_
    intro htx raw' hraw'
    rw [htx] at hraw'
    cases hraw'
    refine ⟨id, source, ?_, by rw [get, if_pos rfl]⟩
    rw [id_of_congr adds.config adds.data_transform, id_of]

end Behaviour

/-! ## What a node holds -/

/-- The receivers of the connections are sound, whatever waits in the queues. -/
def Node.Sound (n : Node P F) : Prop := ∀ c ∈ n.connections, ∀ q, c.receiver.Sound false q

/-- All that the node has in its hands is in its cache. -/
structure Node.Holds (n : Node P F) : Prop where
  queues : ∀ p q, n.behaviour.queue p = some q → ∀ rpc ∈ q.waits, n.behaviour.Cached rpc
  slots : ∀ c ∈ n.connections, ∀ rpc ∈ c.receiver.slots, n.behaviour.Cached rpc
  sound : n.Sound

omit [DecidableEq P] in
theorem Setup.node_sound [F64 F] (s : Setup P F) : s.node.Sound := by
  rintro c ⟨⟩

theorem Setup.node_holds [F64 F] (s : Setup P F) : s.node.Holds where
  queues := by
    rintro p q ⟨⟩
  slots := by
    rintro c ⟨⟩
  sound := s.node_sound

namespace Node

variable {n n' : Node P F}

/-- After a call a connection is as it was, or its receiver has read nothing ahead. -/
theorem mem_connections_after {c : Call P} {connection : Connection P}
    (h : connection ∈ n.connections_after c) :
    connection ∈ n.connections ∨
      connection.receiver = { priority_receiver := .new, non_priority_receiver := .new } := by
  have hnew : ∀ new : Connection P,
      new.receiver = { priority_receiver := .new, non_priority_receiver := .new } →
      connection ∈ n.connections ++ [new] → connection ∈ n.connections ∨
        connection.receiver = { priority_receiver := .new, non_priority_receiver := .new } := by
    intro new hreceiver hmem
    rcases List.mem_append.mp hmem with hmem | hmem
    · exact .inl hmem
    · rw [List.mem_singleton.mp hmem]
      exact .inr hreceiver
  cases c with
  | handle_established_inbound_connection connection_id peer_id => exact hnew _ rfl h
  | handle_established_outbound_connection connection_id peer_id => exact hnew _ rfl h
  | on_swarm_event now draw event =>
    cases event with
    | ConnectionClosed peer_id connection_id remaining_established =>
      exact .inl (List.mem_of_mem_filter h)
    | ConnectionEstablished peer_id => exact .inl h
    | Other => exact .inl h
  | publish now data => exact .inl h
  | on_connection_handler_event clock draw source event => exact .inl h
  | poll now draw redundancy_interval => exact .inl h

theorem Sound.called (h : n.Sound) (b' : Behaviour P F) (c : Call P) :
    Sound { behaviour := b', connections := n.connections_after c } := by
  intro connection hmem q
  rcases mem_connections_after hmem with hold | hreceiver
  · exact h connection hold q
  · rw [hreceiver]
    exact ⟨Peekable.sound_new false _, Peekable.sound_new false _⟩

theorem Sound.polled (h : n.Sound) {index : Nat} {poll : Receiver P → Sender P →
      Receiver P × Sender P} (out : Receiver P → Sender P → Option (RpcOut P))
    (hpoll : ∀ (r : Receiver P) q, r.Sound false q →
      r.Takes false q (out r q) (poll r q).1 (poll r q).2)
    (hstep : n.poll_receiver index poll = some n') : n'.Sound := by
  simp only [poll_receiver, Option.bind_eq_bind, Option.bind_eq_some_iff] at hstep
  obtain ⟨c, hc, q, hq, hstep⟩ := hstep
  cases hstep
  have htakes := hpoll c.receiver q (h c (List.mem_of_getElem? hc) q)
  intro c' hc' q'
  rcases List.mem_or_eq_of_mem_set hc' with hc' | rfl
  · exact h c' hc' q'
  · exact htakes.sound.of_open q'

/-- Each step leaves the receivers sound. -/
theorem Sound.step [F64 F] [Schema] (h : n.Sound) {op : Op P} (hstep : n.step op = some n') :
    n'.Sound := by
  cases op with
  | call c =>
    obtain ⟨b', -, rfl⟩ := Option.map_eq_some_iff.mp hstep
    exact h.called b' c
  | poll_next index =>
    exact h.polled (fun r q => Receiver.out (r.poll_next false q).1)
      (fun r q hsound => (Receiver.poll_next_spec hsound).1) hstep
  | poll_stale index elapsed =>
    exact h.polled (fun r q => Receiver.out (r.poll_stale false elapsed q).1)
      (fun r q hsound => (Receiver.poll_stale_spec hsound).1) hstep
  | poll_is_empty index =>
    exact h.polled (fun _ _ => none) (fun r q hsound => (Receiver.poll_is_empty_spec hsound).1)
      hstep

theorem Holds.called (h : n.Holds) {c : Call P} {b' : Behaviour P F}
    {origin : RawTransaction P → P → Prop} {start : Nat}
    (hcaching : n.behaviour.Caching origin start b') :
    Holds { behaviour := b', connections := n.connections_after c } := by
  refine ⟨?_, ?_, h.sound.called b' c⟩
  · intro p q' hq' rpc hrpc
    rcases hcaching.queue hq' hrpc with hcached | ⟨q, hq, hrpc⟩
    · exact hcached
    · exact hcaching.cached (h.queues p q hq rpc hrpc)
  · intro connection hmem rpc hrpc
    rcases mem_connections_after hmem with hold | hreceiver
    · exact hcaching.cached (h.slots connection hold rpc hrpc)
    · rw [hreceiver] at hrpc
      cases hrpc

/-- A poll of a receiver, which gives out an RPC that the node held, or none. -/
theorem Holds.polled (h : n.Holds) {index : Nat} {poll : Receiver P → Sender P →
      Receiver P × Sender P} (out : Receiver P → Sender P → Option (RpcOut P))
    (hpoll : ∀ (r : Receiver P) q, r.Sound false q →
      r.Takes false q (out r q) (poll r q).1 (poll r q).2)
    (hstep : n.poll_receiver index poll = some n') :
    n'.Holds ∧ ∀ c q, n.connections[index]? = some c → n.behaviour.queue c.peer_id = some q →
      ∀ rpc ∈ out c.receiver q, n.behaviour.Cached rpc := by
  have hsound := h.sound.polled out hpoll hstep
  simp only [poll_receiver, Option.bind_eq_bind, Option.bind_eq_some_iff] at hstep
  obtain ⟨c, hc, q, hq, hstep⟩ := hstep
  cases hstep
  have hmem : c ∈ n.connections := List.mem_of_getElem? hc
  have htakes := hpoll c.receiver q (h.sound c hmem q)
  -- what waits for the receiver is in the hands of the node
  have hwaiting : ∀ rpc ∈ c.receiver.waiting q, n.behaviour.Cached rpc := by
    intro rpc hrpc
    rcases Receiver.mem_waiting_iff.mp hrpc with hrpc | hrpc
    · exact h.slots c hmem rpc hrpc
    · exact h.queues c.peer_id q hq rpc hrpc
  have hafter : ∀ rpc ∈ (poll c.receiver q).1.waiting (poll c.receiver q).2,
      n.behaviour.Cached rpc := fun rpc hrpc => hwaiting rpc (htakes.mem_waiting.mpr (.inr hrpc))
  refine ⟨⟨?_, ?_, hsound⟩, ?_⟩
  · intro p q' hq' rpc hrpc
    change n.behaviour.Cached rpc
    by_cases hp : p = c.peer_id
    · subst hp
      rw [Behaviour.queue_set_queue_self, hq] at hq'
      cases hq'
      exact hafter rpc (Receiver.mem_waiting_iff.mpr (.inr hrpc))
    · rw [Behaviour.queue_set_queue_ne hp] at hq'
      exact h.queues p q' hq' rpc hrpc
  · intro c' hc' rpc hrpc
    change n.behaviour.Cached rpc
    rcases List.mem_or_eq_of_mem_set hc' with hc' | rfl
    · exact h.slots c' hc' rpc hrpc
    · exact hafter rpc (Receiver.mem_waiting_iff.mpr (.inl hrpc))
  · intro c' q' hc' hq' rpc hrpc
    rw [hc] at hc'
    cases hc'
    rw [hq] at hq'
    cases hq'
    exact hwaiting rpc (htakes.mem_waiting.mpr (.inl (Option.mem_toList.mpr hrpc)))

end Node

end

end libp2p_dog
