-- What a step of a network does: which RPCs it adds to what is on its way, which
-- one arrives, and which transaction a node accepts. In every state a transaction
-- on its way is known to its sender and to its author.
import GossipShadow.Lib.Flood
import GossipShadow.Network

namespace libp2p_dog

section

variable {P F : Type} [Libp2p P] [DecidableEq P] [F64 F] [Schema]

/-! ## What a step does to what is on its way -/

/-- What the calls of `v` send, and the RPC that arrives at `v`, if one does. -/
structure Net.Traffic (n n' : Net P F) (v : P) (new : List (Attempt P))
    (arrived : Option (P × RpcOut P)) : Prop where
  came : ∀ a rpc, arrived = some (a, rpc) → rpc ∈ n.pending a v
  before : ∀ a c rpc, rpc ∈ n'.pending a c →
    rpc ∈ n.pending a c ∨ a = v ∧ ∃ x ∈ new, x.peer = c ∧ x.rpc = rpc
  after : ∀ a c rpc, rpc ∈ n.pending a c →
    rpc ∈ n'.pending a c ∨ c = v ∧ arrived = some (a, rpc)
  sent : ∀ x ∈ new, x.rpc ∈ n'.pending v x.peer

section
omit [F64 F] [Schema]

theorem Sends.none_refused_iff {b b' : Behaviour P F} {new : List (Attempt P)}
    (h : Sends b new b') : b.none_refused b' = true ↔ ∀ a ∈ new, a.accepted = true := by
  unfold Behaviour.none_refused
  rw [h.history, List.drop_left, List.all_eq_true]

/-- What a node sends is on its way. -/
theorem Net.mem_pending_act {n : Net P F} {v : P} {b : Behaviour P F} {new : List (Attempt P)}
    (hsends : Sends (n.node v) new b) (haccepted : ∀ x ∈ new, x.accepted = true) {a c : P}
    {rpc : RpcOut P} : rpc ∈ ({ n with node := Function.update n.node v b } : Net P F).pending a c ↔
      rpc ∈ n.pending a c ∨ a = v ∧ ∃ x ∈ new, x.peer = c ∧ x.rpc = rpc := by
  unfold Net.pending
  by_cases ha : a = v
  · subst ha
    simp only [Function.update_self, hsends.queue c, true_and]
    cases hq : (n.node a).queue c with
    | none =>
      simp only [Option.map_none, List.append_nil]
      refine ⟨.inl, ?_⟩
      rintro (h | ⟨x, hx, rfl, -⟩)
      · exact h
      · have hsome := Behaviour.queue_isSome.mpr (hsends.reached x hx (haccepted x hx))
        rw [hq] at hsome
        cases hsome
    | some q =>
      simp only [Option.map_some, List.mem_append, Receiver.mem_waiting_push, mem_enqueued,
        or_assoc]
      refine or_congr_right (or_congr_right ?_)
      constructor
      · rintro ⟨x, hx, hpeer, -, hrpc⟩
        exact ⟨x, hx, hpeer, hrpc⟩
      · rintro ⟨x, hx, hpeer, hrpc⟩
        exact ⟨x, hx, hpeer, haccepted x hx, hrpc⟩
  · simp [ha]

/-- A node acts, and no RPC arrives at it. -/
theorem Net.traffic_act {n : Net P F} {v : P} {b : Behaviour P F} {new : List (Attempt P)}
    (hsends : Sends (n.node v) new b) (haccepted : ∀ x ∈ new, x.accepted = true) :
    n.Traffic { n with node := Function.update n.node v b } v new none where
  came := by rintro a rpc ⟨⟩
  before a c rpc h := (mem_pending_act hsends haccepted).mp h
  after a c rpc h := .inl ((mem_pending_act hsends haccepted).mpr (.inl h))
  sent x hx := (mem_pending_act hsends haccepted).mpr (.inr ⟨rfl, x, hx, rfl, rfl⟩)

/-- An RPC that has arrived is no longer on the wire. -/
theorem Net.mem_pending_wire {n : Net P F} {u v : P} {rpc : RpcOut P} {wire : List (RpcOut P)}
    (hwire : n.wire u v = rpc :: wire) {a c : P} {rpc' : RpcOut P} :
    (rpc' ∈ ({ n with wire := Function.update n.wire u (Function.update (n.wire u) v wire) } :
        Net P F).pending a c → rpc' ∈ n.pending a c) ∧
    (rpc' ∈ n.pending a c →
      rpc' ∈ ({ n with wire := Function.update n.wire u (Function.update (n.wire u) v wire) } :
        Net P F).pending a c ∨ c = v ∧ (u, rpc) = (a, rpc')) := by
  unfold Net.pending
  by_cases ha : a = u
  · subst ha
    by_cases hc : c = v
    · subst hc
      simp only [Function.update_self, hwire, List.cons_append, List.mem_cons, true_and,
        Prod.mk.injEq]
      refine ⟨.inr, ?_⟩
      rintro (rfl | h)
      · exact .inr rfl
      · exact .inl h
    · simp [hc]
  · simp only [Function.update_of_ne ha]
    exact ⟨id, .inl⟩

/-- A node acts on an RPC that arrives at it. -/
theorem Net.traffic_deliver {n : Net P F} {u v : P} {rpc : RpcOut P} {wire : List (RpcOut P)}
    (hwire : n.wire u v = rpc :: wire) {b : Behaviour P F} {new : List (Attempt P)}
    (hsends : Sends (n.node v) new b) (haccepted : ∀ x ∈ new, x.accepted = true) :
    n.Traffic { n with
      node := Function.update n.node v b
      wire := Function.update n.wire u (Function.update (n.wire u) v wire) } v new
      (some (u, rpc)) := by
  set taken : Net P F :=
    { n with wire := Function.update n.wire u (Function.update (n.wire u) v wire) } with htaken
  have hact := traffic_act (n := taken) hsends haccepted
  constructor
  · rintro a rpc' ⟨⟩
    unfold Net.pending
    rw [hwire]
    exact List.mem_cons_self
  · intro a c rpc' h
    rcases hact.before a c rpc' h with h | h
    · exact .inl ((mem_pending_wire hwire).1 h)
    · exact .inr h
  · intro a c rpc' h
    rcases (mem_pending_wire hwire).2 h with h | ⟨hc, he⟩
    · rcases hact.after a c rpc' h with h | ⟨-, ⟨⟩⟩
      exact .inl h
    · exact .inr ⟨hc, congrArg some he⟩
  · exact hact.sent

/-- A poll of a queue moves an RPC on, or leaves it where it is. -/
theorem Net.mem_pending_polled {n : Net P F} {v w : P} {q q' : Sender P} {r : Receiver P}
    {out : Option (RpcOut P)} (hq : (n.node v).queue w = some q)
    (htakes : (n.receiver v w).Takes false q out r q') {a c : P} {rpc : RpcOut P} :
    rpc ∈ ({ node := Function.update n.node v ((n.node v).set_queue w q')
             receiver := Function.update n.receiver v (Function.update (n.receiver v) w r)
             wire := Function.update n.wire v
               (Function.update (n.wire v) w (n.wire v w ++ out.toList)) } : Net P F).pending a c ↔
      rpc ∈ n.pending a c := by
  unfold Net.pending
  by_cases ha : a = v
  · subst ha
    by_cases hc : c = w
    · subst hc
      simp only [Function.update_self, Behaviour.queue_set_queue_self, hq, Option.map_some,
        List.mem_append, htakes.mem_waiting, or_assoc]
    · simp [hc, Behaviour.queue_set_queue_ne hc]
  · simp [ha]

end

/-! ## What a node of a network keeps -/

namespace Network

variable {net : Network P F} {n n' : Net P F}

/-- The id of a transaction that travels in the network. -/
def id_of (net : Network P F) (raw : RawTransaction P) : Option TransactionId :=
  net.data_transform.id_of net.transaction_id_fn raw

/-- Who has which transaction in its cache, and which transactions are on their way. -/
def flood (net : Network P F) : Flood (Net P F) P TransactionId where
  knows n v id := ∃ source, (n.node v).cache.get id = some source
  travels n v w id := ∃ rpc ∈ n.pending v w, ∃ raw, rpc.tx? = some raw ∧ net.id_of raw = some id

/-- What stays as it was at the start, and the entries of the cache live until the end. -/
structure Fit (net : Network P F) (v : P) (b : Behaviour P F) : Prop where
  config : b.config = net.config v
  data_transform : b.data_transform = net.data_transform
  own_id : v ∈ net.nodes → b.own_id = v
  peers : ∀ w, w ∈ b.connected_peers ↔ w ∈ net.neighbours v
  ttl : b.cache.ttl = (net.config v).cache_time
  kept : ∀ e ∈ b.cache.list, net.start + (net.config v).cache_time ≤ e.expiration

section
omit [F64 F] [Schema]

omit [DecidableEq P] in
theorem Fit.alive {v : P} {b : Behaviour P F} (h : net.Fit v b) {now : Nat}
    (hnow : net.in_time v now = true) : b.Alive now := by
  unfold in_time at hnow
  simp only [Bool.and_eq_true, decide_eq_true_eq] at hnow
  intro e he
  have := h.kept e he
  omega

omit [DecidableEq P] in
theorem Fit.id_of {v : P} {b : Behaviour P F} (h : net.Fit v b) (raw : RawTransaction P) :
    b.id_of raw = net.id_of raw := by
  unfold Behaviour.id_of Network.id_of
  rw [h.data_transform, h.config, net.agree]

omit [DecidableEq P] in
theorem Fit.lawful {v : P} {b : Behaviour P F} (h : net.Fit v b) : b.data_transform.Lawful := by
  rw [h.data_transform]
  exact net.lawful

omit [DecidableEq P] in
theorem Fit.forwards {v : P} {b : Behaviour P F} (h : net.Fit v b) :
    b.config.forward_transactions = true := by
  rw [h.config]
  exact net.forward_transactions v

theorem Fit.accepted_id {v source : P} {b b' : Behaviour P F} {now : Nat}
    {raw : RawTransaction P} {id : TransactionId} {new : List (Attempt P)} (h : net.Fit v b)
    (haccepts : b.Accepts now raw source id new b') : net.id_of raw = some id :=
  (h.id_of raw).symm.trans haccepts.id_of

theorem Fit.sends {v : P} {b b' : Behaviour P F} {new : List (Attempt P)} (h : net.Fit v b)
    (hsends : Sends b new b') (httl : b'.cache.ttl = b.cache.ttl)
    (hkept : ∀ e ∈ b'.cache.list, e ∈ b.cache.list ∨
      net.start + (net.config v).cache_time ≤ e.expiration) : net.Fit v b' where
  config := hsends.config.trans h.config
  data_transform := hsends.data_transform.trans h.data_transform
  own_id hv := hsends.own_id.trans (h.own_id hv)
  peers w := hsends.mem_keys.trans (h.peers w)
  ttl := httl.trans h.ttl
  kept e he := by
    rcases hkept e he with he | he
    · exact h.kept e he
    · exact he

theorem Fit.accepts_none {v : P} {b b' : Behaviour P F} {new : List (Attempt P)}
    (h : net.Fit v b) (haccepts : b.AcceptsNone new b') : net.Fit v b' := by
  apply h.sends haccepts.sends
  · rw [haccepts.cache]
  · rw [haccepts.cache]
    exact fun e he => .inl he

theorem Fit.accepts {v : P} {b b' : Behaviour P F} {now : Nat} {raw : RawTransaction P}
    {source : P} {id : TransactionId} {new : List (Attempt P)} (h : net.Fit v b)
    (hnow : net.in_time v now = true) (haccepts : b.Accepts now raw source id new b') :
    net.Fit v b' := by
  unfold in_time at hnow
  simp only [Bool.and_eq_true, decide_eq_true_eq] at hnow
  apply h.sends haccepts.sends haccepts.ttl
  intro e he
  rw [haccepts.list, List.mem_append, List.mem_singleton] at he
  rcases he with he | rfl
  · exact .inl he
  · right
    rw [h.ttl]
    exact Nat.add_le_add_right hnow.1 _

omit [DecidableEq P] in
theorem Fit.polled {v : P} {b : Behaviour P F} (h : net.Fit v b)
    {peers : Table P (PeerConnections P)} (hkeys : peers.keys = b.connected_peers.keys) :
    net.Fit v { b with connected_peers := peers } where
  config := h.config
  data_transform := h.data_transform
  own_id := h.own_id
  peers w := by
    rw [← h.peers w, AList.mem_keys, AList.mem_keys, hkeys]
  ttl := h.ttl
  kept := h.kept

end

/-- What holds in every state of a network: the nodes keep what they started with, the queues are
open, and a transaction on its way is known to its sender and to its author. -/
structure Good (net : Network P F) (n : Net P F) : Prop where
  fit : ∀ v, net.Fit v (n.node v)
  sound : ∀ v w q, (n.receiver v w).Sound false q
  carried : ∀ v w, ∀ rpc ∈ n.pending v w, ∀ raw, rpc.tx? = some raw →
    ∃ id, net.id_of raw = some id ∧ net.flood.knows n v id ∧ net.flood.knows n raw.from_ id

/-! ## The steps -/

/-- What a step does: a handler polls its queue, or a node acts, alone or on an RPC that arrives,
and accepts a transaction or none. -/
inductive Moved (net : Network P F) (n n' : Net P F) : Prop
  | polled (node : ∀ v, ∃ peers, peers.keys = (n.node v).connected_peers.keys ∧
        n'.node v = { n.node v with connected_peers := peers })
      (pending : ∀ v w rpc, rpc ∈ n'.pending v w ↔ rpc ∈ n.pending v w)
      (sound : ∀ v w q, (n'.receiver v w).Sound false q)
  | none (v : P) (b : Behaviour P F) (new : List (Attempt P)) (arrived : Option (P × RpcOut P))
      (accepts : (n.node v).AcceptsNone new b) (node : n'.node = Function.update n.node v b)
      (receiver : n'.receiver = n.receiver) (traffic : n.Traffic n' v new arrived)
      (known : ∀ a rpc raw id, arrived = some (a, rpc) → rpc.tx? = some raw →
        net.id_of raw = some id → (net.config v).max_transactions_per_rpc ≠ some 0 →
        net.flood.knows n v id)
  | one (v : P) (b : Behaviour P F) (now : Nat) (raw : RawTransaction P) (source : P)
      (id : TransactionId) (new : List (Attempt P)) (arrived : Option (P × RpcOut P))
      (in_time : net.in_time v now = true)
      (accepts : (n.node v).Accepts now raw source id new b)
      (node : n'.node = Function.update n.node v b) (receiver : n'.receiver = n.receiver)
      (traffic : n.Traffic n' v new arrived)
      (origin : arrived = none ∧ source = v ∧ raw.from_ = v ∨
        ∃ rpc, arrived = some (source, rpc) ∧ rpc.tx? = some raw)

section
omit [Schema] [F64 F]

theorem act_spec {v : P} {now : Nat} {b : Behaviour P F} (h : net.act n v now b = some n') :
    v ∈ net.nodes ∧ net.in_time v now = true ∧ (n.node v).none_refused b = true ∧
      n' = { n with node := Function.update n.node v b } := by
  unfold act at h
  split at h
  · rename_i hok
    simp only [Bool.and_eq_true, decide_eq_true_eq] at hok
    cases h
    exact ⟨hok.1.1, hok.1.2, hok.2, rfl⟩
  · cases h

theorem Good.poll_receiver (h : net.Good n) {v w : P} {poll : Receiver P → Sender P →
    Option (RpcOut P) × Receiver P × Sender P}
    (hpoll : ∀ (r : Receiver P) q, r.Sound false q →
      r.Takes false q (poll r q).1 (poll r q).2.1 (poll r q).2.2)
    (hstep : n.poll_receiver v w poll = some n') : net.Moved n n' := by
  simp only [Net.poll_receiver, Option.bind_eq_bind, Option.bind_eq_some_iff] at hstep
  obtain ⟨q, hq, hstep⟩ := hstep
  cases hstep
  have htakes := hpoll (n.receiver v w) q (h.sound v w q)
  refine .polled ?_ (fun _ _ _ => Net.mem_pending_polled hq htakes) ?_
  · intro u
    by_cases hu : u = v
    · subst hu
      refine ⟨_, Behaviour.set_queue_keys (n.node u) w (poll (n.receiver u w) q).2.2, ?_⟩
      exact Function.update_self _ _ _
    · refine ⟨_, rfl, ?_⟩
      exact Function.update_of_ne hu _ _
  · apply (Function.forall_update_iff n.receiver fun _ f => ∀ c q', (f c).Sound false q').mpr
    refine ⟨?_, fun a _ => h.sound a⟩
    apply (Function.forall_update_iff (n.receiver v) fun _ r => ∀ q', r.Sound false q').mpr
    exact ⟨htakes.sound.of_open, fun c _ => h.sound v c⟩

end

theorem Good.moved (h : net.Good n) {op : NetOp P} (hstep : net.step n op = some n') :
    net.Moved n n' := by
  cases op with
  | publish v now data =>
    obtain ⟨⟨answer, b⟩, hpublish, hact⟩ := Option.bind_eq_some_iff.mp hstep
    obtain ⟨hv, hnow, hrefused, rfl⟩ := act_spec hact
    have hfit := h.fit v
    rcases Behaviour.publish_accepts hfit.lawful (hfit.alive hnow) hpublish with
      ⟨hnone, -⟩ | ⟨raw, id, new, hauthor, haccepts, -⟩
    · have haccepted := hnone.sends.none_refused_iff.mp hrefused
      exact .none v b [] Option.none hnone rfl rfl (Net.traffic_act hnone.sends haccepted)
        (by rintro a rpc raw id ⟨⟩)
    · have haccepted := haccepts.sends.none_refused_iff.mp hrefused
      rw [hfit.own_id hv] at hauthor haccepts
      exact .one v b now raw v id new Option.none hnow haccepts rfl rfl
        (Net.traffic_act haccepts.sends haccepted) (.inl ⟨rfl, rfl, hauthor⟩)
  | poll v now draw redundancy_interval =>
    obtain ⟨hv, hnow, hrefused, rfl⟩ := act_spec hstep
    obtain ⟨new, hnone⟩ := (n.node v).poll_accepts now draw redundancy_interval
    have haccepted := hnone.sends.none_refused_iff.mp hrefused
    exact .none v _ new Option.none hnone rfl rfl (Net.traffic_act hnone.sends haccepted)
      (by rintro a rpc raw id ⟨⟩)
  | deliver u v now draw =>
    simp only [step] at hstep
    split at hstep
    · cases hstep
    · rename_i rpc wire hwire
      obtain ⟨hv, hnow, hrefused, rfl⟩ := act_spec hstep
      have hfit := h.fit v
      rcases Behaviour.arrival_accepts draw u rpc (hfit.alive hnow) hfit.forwards with
        ⟨new, hnone, hknown⟩ | ⟨raw, id, new, hraw, haccepts⟩
      · have haccepted := hnone.sends.none_refused_iff.mp hrefused
        refine .none v _ new (some (u, rpc)) hnone rfl rfl
          (Net.traffic_deliver hwire hnone.sends haccepted) ?_
        rintro a rpc' raw id ⟨⟩ hraw hid hmax
        apply hknown raw id hraw
        · rw [hfit.id_of, hid]
        · rwa [hfit.config]
      · have haccepted := haccepts.sends.none_refused_iff.mp hrefused
        exact .one v _ now raw u id new (some (u, rpc)) hnow haccepts rfl rfl
          (Net.traffic_deliver hwire haccepts.sends haccepted) (.inr ⟨rpc, rfl, hraw⟩)
  | poll_next v w =>
    simp only [step] at hstep
    refine h.poll_receiver ?_ hstep
    intro r q hsound
    exact (Receiver.poll_next_spec hsound).1
  | poll_stale v w =>
    simp only [step] at hstep
    refine h.poll_receiver ?_ hstep
    intro r q hsound
    exact Receiver.poll_stale_never_spec hsound
  | poll_is_empty v w =>
    simp only [step] at hstep
    refine h.poll_receiver ?_ hstep
    intro r q hsound
    exact (Receiver.poll_is_empty_spec hsound).1

omit [F64 F] [Schema] in
/-- The cache of a node keeps a transaction with its source. -/
theorem Moved.get (h : net.Moved n n') {v source : P} {id : TransactionId}
    (hsource : (n.node v).cache.get id = some source) :
    (n'.node v).cache.get id = some source := by
  cases h with
  | polled node _ _ =>
    obtain ⟨peers, -, he⟩ := node v
    rw [he]
    exact hsource
  | none u b new arrived accepts node _ _ _ =>
    rw [node]
    by_cases hu : v = u
    · subst hu
      rw [Function.update_self, accepts.cache]
      exact hsource
    · rw [Function.update_of_ne hu]
      exact hsource
  | one u b now raw s id' new arrived _ accepts node _ _ _ =>
    rw [node]
    by_cases hu : v = u
    · subst hu
      have hne : id ≠ id' := by
        rintro rfl
        rw [accepts.fresh] at hsource
        cases hsource
      rw [Function.update_self, accepts.get, if_neg hne]
      exact hsource
    · rw [Function.update_of_ne hu]
      exact hsource

omit [F64 F] [Schema] in
theorem Moved.knows (h : net.Moved n n') {v : P} {id : TransactionId}
    (hv : net.flood.knows n v id) : net.flood.knows n' v id := by
  obtain ⟨source, hsource⟩ := hv
  exact ⟨source, h.get hsource⟩

omit [F64 F] [Schema] in
theorem Good.of_moved (h : net.Good n) (hmoved : net.Moved n n') : net.Good n' := by
  have hknows : ∀ v id, net.flood.knows n v id → net.flood.knows n' v id :=
    fun v id => hmoved.knows
  have hold : ∀ v w, ∀ rpc ∈ n.pending v w, ∀ raw, rpc.tx? = some raw →
      ∃ id, net.id_of raw = some id ∧ net.flood.knows n' v id ∧
        net.flood.knows n' raw.from_ id := by
    intro v w rpc hrpc raw hraw
    obtain ⟨id, hid, hsender, hauthor⟩ := h.carried v w rpc hrpc raw hraw
    exact ⟨id, hid, hknows _ _ hsender, hknows _ _ hauthor⟩
  cases hmoved with
  | polled node pending sound =>
    refine ⟨?_, sound, ?_⟩
    · intro v
      obtain ⟨peers, hkeys, he⟩ := node v
      rw [he]
      exact (h.fit v).polled hkeys
    · intro v w rpc hrpc
      exact hold v w rpc ((pending v w rpc).mp hrpc)
  | none v b new arrived accepts node receiver traffic _ =>
    refine ⟨?_, by rw [receiver]; exact h.sound, ?_⟩
    · rw [node]
      exact (Function.forall_update_iff n.node net.Fit).mpr
        ⟨(h.fit v).accepts_none accepts, fun u _ => h.fit u⟩
    · intro u w rpc hrpc raw hraw
      rcases traffic.before u w rpc hrpc with hrpc | ⟨-, x, hx, -, rfl⟩
      · exact hold u w rpc hrpc raw hraw
      · rw [accepts.control x hx] at hraw
        cases hraw
  | one v b now raw source id new arrived in_time accepts node receiver traffic origin =>
    have hself : net.flood.knows n' v id := by
      refine ⟨source, ?_⟩
      rw [node, Function.update_self, accepts.get, if_pos rfl]
    have hid := (h.fit v).accepted_id accepts
    refine ⟨?_, by rw [receiver]; exact h.sound, ?_⟩
    · rw [node]
      exact (Function.forall_update_iff n.node net.Fit).mpr
        ⟨(h.fit v).accepts in_time accepts, fun u _ => h.fit u⟩
    · intro u w rpc hrpc raw' hraw'
      rcases traffic.before u w rpc hrpc with hrpc | ⟨rfl, x, hx, -, rfl⟩
      · exact hold u w rpc hrpc raw' hraw'
      · -- the node passes on what it has just accepted
        rw [accepts.carry x hx] at hraw'
        cases hraw'
        refine ⟨id, hid, hself, ?_⟩
        rcases origin with ⟨-, -, hauthor⟩ | ⟨rpc, harrived, hrpc⟩
        · rwa [hauthor]
        · obtain ⟨id', hid', -, hauthor⟩ :=
            h.carried source u rpc (traffic.came _ _ harrived) raw hrpc
          rw [hid] at hid'
          cases hid'
          exact hknows _ _ hauthor

/-! ## The start -/

omit [Schema] in
theorem connected_spec (net : Network P F) (v : P) :
    (net.connected v).config = net.config v ∧
    (net.connected v).data_transform = net.data_transform ∧
    (net.connected v).own_id = (net.setup v).behaviour.own_id ∧
    (net.connected v).cache = (net.setup v).behaviour.cache ∧
    (∀ w, w ∈ (net.connected v).connected_peers ↔ w ∈ net.neighbours v) ∧
    ∀ w q, (net.connected v).queue w = some q → q.priority = [] ∧ q.non_priority = [] := by
  unfold connected
  generalize net.neighbours v = neighbours
  induction neighbours using List.reverseRecOn with
  | nil =>
    refine ⟨rfl, rfl, rfl, rfl, ?_, ?_⟩
    · intro w
      exact iff_of_false (AList.notMem_empty _) (by simp)
    · rintro w q ⟨⟩
  | append_singleton neighbours u ih =>
    obtain ⟨h₁, h₂, h₃, h₄, h₅, h₆⟩ := ih
    rw [List.foldl_append]
    refine ⟨h₁, h₂, h₃, h₄, ?_, ?_⟩
    · intro w
      rw [List.mem_append, List.mem_singleton, ← h₅ w, or_comm]
      exact AList.mem_insert _
    · intro w q hq
      simp only [List.foldl_cons, List.foldl_nil, Behaviour.handle_established_inbound_connection,
        Behaviour.established_queue] at hq
      split at hq
      · cases hold : (neighbours.foldl (fun b w =>
            (b.handle_established_inbound_connection ⟨0⟩ w).2) (net.setup v).behaviour).queue u with
        | none =>
          unfold Behaviour.handle_established_inbound_connection at hold
          rw [hold] at hq
          cases hq
          exact ⟨rfl, rfl⟩
        | some q' =>
          have hq' := h₆ u q' hold
          unfold Behaviour.handle_established_inbound_connection at hold
          rw [hold] at hq
          cases hq
          exact hq'
      · exact h₆ w q hq

omit [Schema] in
theorem good_initial (net : Network P F) : net.Good net.initial where
  fit v := by
    obtain ⟨h₁, h₂, h₃, h₄, h₅, -⟩ := net.connected_spec v
    change net.Fit v (net.connected v)
    refine ⟨h₁, h₂, ?_, h₅, ?_, ?_⟩
    · intro hv
      rw [h₃]
      exact net.identity v hv
    · rw [h₄]
      rfl
    · rw [h₄]
      rintro e ⟨⟩
  sound v w q := ⟨Peekable.sound_new false _, Peekable.sound_new false _⟩
  carried v w rpc hrpc := by
    obtain ⟨-, -, -, -, -, hqueue⟩ := net.connected_spec v
    have hnode : (net.initial.node v).queue w = (net.connected v).queue w := rfl
    unfold Net.pending at hrpc
    rw [hnode] at hrpc
    cases hq : (net.connected v).queue w with
    | none => simp [hq, initial] at hrpc
    | some q =>
      obtain ⟨h₁, h₂⟩ := hqueue w q hq
      simp [hq, initial, Receiver.waiting, Receiver.priority_waiting,
        Receiver.non_priority_waiting, h₁, h₂] at hrpc

theorem good_of_reachable (h : net.machine.Reachable n) : net.Good n := by
  apply h.invariant
  · rintro n rfl
    exact good_initial net
  · intro n op n' hn hstep
    exact hn.of_moved (hn.moved hstep)

theorem run_get (h : net.Good n) {ops : List (NetOp P)} (hrun : net.machine.Run n ops n')
    {v source : P} {id : TransactionId} (hsource : (n.node v).cache.get id = some source) :
    (n'.node v).cache.get id = some source := by
  have hboth := hrun.invariant
    (p := fun n => net.Good n ∧ (n.node v).cache.get id = some source) ⟨h, hsource⟩ ?_
  · exact hboth.2
  · rintro n op n' ⟨hn, hget⟩ hstep
    have hmoved := hn.moved hstep
    exact ⟨hn.of_moved hmoved, hmoved.get hget⟩

end Network

end

end libp2p_dog
