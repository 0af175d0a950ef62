-- Laws of the peer table: the connections that a node knows, as the swarm
-- opens and closes them, and the number of peers that the metrics show.
import GossipShadow.Balances

namespace libp2p_dog

/-- What the swarm does with a node. A new connection is told of twice, by its handler and by its
event; a closed one with the number that stay open. -/
inductive SwarmEvent (P : Type) where
  | established (inbound : Bool) (connection_id : ConnectionId) (peer : P)
  | closed (now draw : Nat) (connection_id : ConnectionId) (peer : P)
  | other (op : Op P)

def Op.concerns_connections {P : Type} : Op P → Bool
  | .call c => Behaviour.concerns_connections c
  | _ => false

section

variable {P F : Type} [Libp2p P] [DecidableEq P]

/-- The connections to a peer that are open, oldest first. -/
def Node.open_to (n : Node P F) (p : P) : List ConnectionId :=
  (n.connections.filter fun c => decide (c.peer_id = p)).map (·.connection_id)

variable [F64 F] [Schema]

/-- A connection closes only when it is open. -/
def Node.swarm_step (n : Node P F) : SwarmEvent P → Option (Node P F)
  | .established inbound connection_id peer => do
    let n ← n.step (.call (if inbound then
      .handle_established_inbound_connection connection_id peer
      else .handle_established_outbound_connection connection_id peer))
    n.step (.call (.on_swarm_event 0 0 (.ConnectionEstablished peer)))
  | .closed now draw connection_id peer =>
    if connection_id ∈ n.open_to peer then
      let remaining_established :=
        ((n.open_to peer).filter fun id => decide (id ≠ connection_id)).length
      n.step (.call (.on_swarm_event now draw
        (.ConnectionClosed peer connection_id remaining_established)))
    else none
  | .other op => if op.concerns_connections then none else n.step op

/-- The runs of a node under a swarm. -/
def Setup.swarm (s : Setup P F) : Machine (Node P F) (SwarmEvent P) :=
  .ofFun (· = s.node) Node.swarm_step

/-! ## The table and the gauge -/

/-- The table holds the peers with an open connection, each with its open connections. -/
def Node.TableExact (n : Node P F) : Prop :=
  ∀ p, n.behaviour.connections_of p = if n.open_to p = [] then none else some (n.open_to p)

/-- The peer, when a connection to it is established while another one is open. -/
def Node.second_connection (n : Node P F) : SwarmEvent P → List P
  | .established _ _ peer => if n.open_to peer = [] then [] else [peer]
  | _ => []

/-- The gauge shows the peers of the table, and one more for each second connection so far. -/
structure Gauged (seconds : List P) (n : Node P F) : Prop where
  table : n.TableExact
  gauge : ∀ count, n.behaviour.peer_gauge = some count →
    count = n.behaviour.connected_peers.keys.length + seconds.length

omit [F64 F] [Schema] in
theorem Behaviour.mem_iff_connections {b : Behaviour P F} {p : P} :
    p ∈ b.connected_peers ↔ b.connections_of p ≠ none := by
  unfold connections_of
  rw [Table.mem_iff_lookup]
  cases b.connected_peers.lookup p <;> simp

omit [F64 F] [Schema] in
/-- The same connections: as many peers. -/
theorem SamePeers.length {b b' : Behaviour P F} (h : SamePeers b b') :
    b'.connected_peers.keys.length = b.connected_peers.keys.length := by
  apply List.Perm.length_eq
  apply (List.perm_ext_iff_of_nodup b'.connected_peers.keys_nodup b.connected_peers.keys_nodup).mpr
  intro p
  rw [← AList.mem_keys, ← AList.mem_keys, Behaviour.mem_iff_connections,
    Behaviour.mem_iff_connections, h.connections]

omit [F64 F] [Schema] in
/-- Neither the peers nor the open connections change. -/
theorem Gauged.same {seconds : List P} {n n' : Node P F} (h : Gauged seconds n)
    (hpeers : SamePeers n.behaviour n'.behaviour) (hopen : ∀ p, n'.open_to p = n.open_to p) :
    Gauged seconds n' := by
  refine ⟨?_, ?_⟩
  · intro p
    rw [hpeers.connections, hopen]
    exact h.table p
  · intro count hcount
    rw [hpeers.gauge] at hcount
    rw [hpeers.length]
    exact h.gauge count hcount

omit [F64 F] [Schema] in
/-- A poll of a receiver changes no connection. -/
theorem poll_receiver_peers {n n' : Node P F} {index : Nat}
    {poll : Receiver P → Sender P → Receiver P × Sender P}
    (h : n.poll_receiver index poll = some n') :
    SamePeers n.behaviour n'.behaviour ∧ ∀ p, n'.open_to p = n.open_to p := by
  simp only [Node.poll_receiver, Option.bind_eq_bind, Option.bind_eq_some_iff] at h
  obtain ⟨connection, hconnection, sender, -, h⟩ := h
  cases h
  refine ⟨⟨?_, rfl⟩, ?_⟩
  · intro p
    unfold Behaviour.connections_of Behaviour.set_queue
    by_cases hp : p = connection.peer_id
    · subst hp
      simp only [Table.lookup_modify_self, Option.map_map]
      rfl
    · rw [Table.lookup_modify_ne hp]
  · intro p
    obtain ⟨hlt, hget⟩ := List.getElem?_eq_some_iff.mp hconnection
    have hpairs : ∀ connections : List (Connection P),
        (connections.filter fun c => decide (c.peer_id = p)).map (·.connection_id) =
          ((connections.map fun c => (c.peer_id, c.connection_id)).filter
            fun c => decide (c.1 = p)).map (·.2) := by
      intro connections
      rw [List.filter_map, List.map_map]
      rfl
    have hlt' : index < (n.connections.map fun c => (c.peer_id, c.connection_id)).length := by
      simpa using hlt
    have hpair : (n.connections.map fun c => (c.peer_id, c.connection_id))[index] =
        (connection.peer_id, connection.connection_id) := by simp [hget]
    unfold Node.open_to
    rw [hpairs, hpairs, List.map_set, ← hpair, List.set_getElem_self]

/-! ## The steps of the swarm -/

omit [F64 F] [Schema] in
theorem open_to_append (n : Node P F) (b : Behaviour P F) (c : Connection P) (p : P) :
    Node.open_to { behaviour := b, connections := n.connections ++ [c] } p =
      if p = c.peer_id then n.open_to p ++ [c.connection_id] else n.open_to p := by
  unfold Node.open_to
  rw [List.filter_append, List.map_append]
  by_cases hp : p = c.peer_id
  · simp [hp]
  · simp [hp, Ne.symm hp]

omit [F64 F] [Schema] in
/-- A connection is opened: its peer is in the table, with one connection more. -/
theorem Behaviour.established_peers (b : Behaviour P F) (connection_id : ConnectionId)
    (peer p : P) :
    (b.handle_established_connection connection_id peer).2.connections_of p =
      if p = peer then some ((b.connections_of peer).getD [] ++ [connection_id])
      else b.connections_of p := by
  unfold handle_established_connection entry_or_insert connections_of
  by_cases hp : p = peer
  · subst hp
    cases b.connected_peers.lookup p <;> simp
  · simp [hp, AList.lookup_insert_ne hp]

omit [F64 F] [Schema] in
theorem Behaviour.established_length (b : Behaviour P F) (connection_id : ConnectionId) (peer : P) :
    (b.handle_established_connection connection_id peer).2.connected_peers.keys.length =
      b.connected_peers.keys.length + if b.connections_of peer = none then 1 else 0 := by
  unfold handle_established_connection
  simp only [AList.keys_insert, List.length_cons]
  by_cases hpeer : peer ∈ b.connected_peers
  · have hsome := mem_iff_connections.mp hpeer
    have hkeys : peer ∈ b.connected_peers.keys := AList.mem_keys.mp hpeer
    have hpos := List.length_pos_of_mem hkeys
    rw [List.length_erase_of_mem hkeys, if_neg hsome]
    omega
  · have hnone : b.connections_of peer = none := by
      by_contra hsome
      exact hpeer (mem_iff_connections.mpr hsome)
    have hkeys : peer ∉ b.connected_peers.keys := fun h => hpeer (AList.mem_keys.mpr h)
    rw [List.erase_of_not_mem hkeys, if_pos hnone]

/-- A new connection: the event of the swarm counts the peer, whether or not it is new. -/
theorem Gauged.established {seconds : List P} {n n' : Node P F} (h : Gauged seconds n)
    {inbound : Bool} {connection_id : ConnectionId} {peer : P}
    (hstep : n.swarm_step (.established inbound connection_id peer) = some n') :
    Gauged (seconds ++ n.second_connection (.established inbound connection_id peer)) n' := by
  have hopened : ∃ connection : Connection P, connection.peer_id = peer ∧
      connection.connection_id = connection_id ∧ n' = {
        behaviour := (n.behaviour.handle_established_connection connection_id peer).2.with_metrics
          (·.inc_peers_count)
        connections := n.connections ++ [connection] } := by
    cases inbound with
    | false =>
      cases hstep
      exact ⟨_, rfl, rfl, rfl⟩
    | true =>
      cases hstep
      exact ⟨_, rfl, rfl, rfl⟩
  obtain ⟨connection, hpeer, hid, rfl⟩ := hopened
  have hconnections : ∀ p, ((n.behaviour.handle_established_connection connection_id
      peer).2.with_metrics (·.inc_peers_count)).connections_of p =
        if p = peer then some ((n.behaviour.connections_of peer).getD [] ++ [connection_id])
        else n.behaviour.connections_of p := n.behaviour.established_peers connection_id peer
  refine ⟨?_, ?_⟩
  · intro p
    rw [hconnections, open_to_append, hpeer, hid]
    by_cases hp : p = peer
    · subst hp
      rw [if_pos rfl, if_pos rfl, h.table p]
      by_cases hnone : n.open_to p = []
      · simp [hnone]
      · simp [hnone]
    · rw [if_neg hp, if_neg hp]
      exact h.table p
  · intro count hcount
    have hgauge : ((n.behaviour.handle_established_connection connection_id peer).2.with_metrics
        (·.inc_peers_count)).peer_gauge = n.behaviour.peer_gauge.map (· + 1) := by
      simp only [Behaviour.peer_gauge, Behaviour.with_metrics, Option.map_map]
      rfl
    rw [hgauge] at hcount
    obtain ⟨before, hbefore, rfl⟩ := Option.map_eq_some_iff.mp hcount
    have hlength : ((n.behaviour.handle_established_connection connection_id
        peer).2.with_metrics (·.inc_peers_count)).connected_peers.keys.length =
          n.behaviour.connected_peers.keys.length +
            if n.behaviour.connections_of peer = none then 1 else 0 :=
      n.behaviour.established_length connection_id peer
    have hcounted := h.gauge before hbefore
    rw [hlength, List.length_append, Node.second_connection, h.table peer]
    by_cases hnone : n.open_to peer = []
    · simp only [hnone, if_true, List.length_nil]
      omega
    · simp only [hnone, if_false, reduceCtorEq, List.length_singleton]
      omega

omit [F64 F] [Schema] in
theorem open_to_filter (n : Node P F) (b : Behaviour P F) (connection_id : ConnectionId)
    (peer p : P) :
    Node.open_to { behaviour := b, connections := n.connections.filter fun c =>
        !(decide (c.peer_id = peer) && decide (c.connection_id = connection_id)) } p =
      if p = peer then (n.open_to p).filter fun id => decide (id ≠ connection_id)
      else n.open_to p := by
  unfold Node.open_to
  rw [List.filter_filter]
  by_cases hp : p = peer
  · rw [if_pos hp, List.filter_map, List.filter_filter]
    congr 1
    apply List.filter_congr
    intro c _
    by_cases hc : c.peer_id = p
    · simp [hc, hp]
    · simp [hc]
  · rw [if_neg hp]
    congr 1
    apply List.filter_congr
    intro c _
    by_cases hc : c.peer_id = p
    · simp [hc, hp]
    · simp [hc]

/-- The last connection to a peer closes: the peer leaves the table and is counted no more. -/
theorem Behaviour.last_closed_peers (b : Behaviour P F) (now draw : Nat) (peer : P)
    (connection_id : ConnectionId) :
    (∀ p, (b.on_connection_closed now draw peer connection_id 0).connections_of p =
      if p = peer then none else b.connections_of p) ∧
    (b.on_connection_closed now draw peer connection_id 0).peer_gauge =
      b.peer_gauge.map (· - 1) ∧
    (b.on_connection_closed now draw peer connection_id 0).connected_peers.keys.length =
      (b.connected_peers.keys.erase peer).length := by
  obtain ⟨-, -, -, -, -, -, hpeers, -⟩ := disconnect_spec b peer
  obtain ⟨new, hbalances, -⟩ := adjust_redundancy_balances (b.disconnect peer) now draw
  have hsame := hbalances.peers
  have hafter : b.on_connection_closed now draw peer connection_id 0 =
      ((b.disconnect peer).adjust_redundancy now draw).with_metrics (·.dec_peers_count) := rfl
  rw [hafter]
  refine ⟨?_, ?_, ?_⟩
  · intro p
    have hkept : (((b.disconnect peer).adjust_redundancy now draw).with_metrics
        (·.dec_peers_count)).connections_of p = (b.disconnect peer).connections_of p :=
      hsame.connections p
    rw [hkept]
    unfold connections_of
    rw [hpeers]
    by_cases hp : p = peer
    · subst hp
      simp
    · simp [hp, AList.lookup_erase_ne hp]
  · rw [← (disconnect_bills b peer).2, ← hsame.gauge]
    simp only [peer_gauge, with_metrics, Option.map_map]
    rfl
  · rw [← AList.keys_erase, ← hpeers]
    exact hsame.length

/-- A connection to a peer closes while others stay open. -/
theorem Behaviour.one_closed_peers (b : Behaviour P F) (now draw : Nat) (peer : P)
    (connection_id : ConnectionId) {remaining_established : Nat} (h : remaining_established ≠ 0) :
    (∀ p,
      (b.on_connection_closed now draw peer connection_id remaining_established).connections_of p =
      if p = peer then (b.connections_of peer).map fun ids =>
        ids.filter fun id => decide (id ≠ connection_id)
      else b.connections_of p) ∧
    (b.on_connection_closed now draw peer connection_id remaining_established).peer_gauge =
      b.peer_gauge ∧
    (b.on_connection_closed now draw peer connection_id
      remaining_established).connected_peers.keys.length = b.connected_peers.keys.length := by
  unfold on_connection_closed
  simp only [h, ne_eq, not_false_eq_true, if_true]
  refine ⟨?_, rfl, by rw [Table.keys_modify]⟩
  intro p
  simp only [connections_of, Table.lookup_modify]
  by_cases hp : p = peer
  · simp only [hp, if_true, Option.map_map]
    rfl
  · simp [hp]

/-- A connection closes: with the last one its peer leaves the table, and is counted no more. -/
theorem Gauged.closed {seconds : List P} {n n' : Node P F} (h : Gauged seconds n)
    {now draw : Nat} {connection_id : ConnectionId} {peer : P}
    (hstep : n.swarm_step (.closed now draw connection_id peer) = some n') :
    Gauged seconds n' := by
  simp only [Node.swarm_step] at hstep
  split at hstep
  · rename_i hopen
    set left := (n.open_to peer).filter fun id => decide (id ≠ connection_id) with hleft
    simp only [Node.step] at hstep
    obtain ⟨b', hcall, rfl⟩ := Option.map_eq_some_iff.mp hstep
    cases hcall
    have htable : n.behaviour.connections_of peer = some (n.open_to peer) := by
      rw [h.table peer, if_neg (List.ne_nil_of_mem hopen)]
    set event : FromSwarm P := .ConnectionClosed peer connection_id left.length with hevent
    have hopen_to : ∀ (b : Behaviour P F) (p : P), Node.open_to
        { behaviour := b, connections := n.connections_after (.on_swarm_event now draw event) } p =
          if p = peer then left else n.open_to p := by
      intro b p
      have hfilter := open_to_filter n b connection_id peer p
      by_cases hp : p = peer
      · subst hp
        rw [if_pos rfl] at hfilter ⊢
        exact hfilter
      · rw [if_neg hp] at hfilter ⊢
        exact hfilter
    change Gauged seconds (Node.mk (n.behaviour.on_connection_closed now draw peer connection_id
      left.length) (n.connections_after (.on_swarm_event now draw event)))
    by_cases hlast : left = []
    · have hzero : left.length = 0 := by rw [hlast]; rfl
      obtain ⟨hconnections, hgauge, hlength⟩ :=
        n.behaviour.last_closed_peers now draw peer connection_id
      rw [← hzero] at hconnections hgauge hlength
      refine ⟨?_, ?_⟩
      · intro p
        rw [hconnections, hopen_to, hlast]
        by_cases hp : p = peer
        · simp [hp]
        · rw [if_neg hp, if_neg hp]
          exact h.table p
      · intro count hcount
        rw [hgauge] at hcount
        obtain ⟨before, hbefore, rfl⟩ := Option.map_eq_some_iff.mp hcount
        have hconnected : peer ∈ n.behaviour.connected_peers := by
          apply Behaviour.mem_iff_connections.mpr
          simp [htable]
        have hkeys : peer ∈ n.behaviour.connected_peers.keys := AList.mem_keys.mp hconnected
        have hpos := List.length_pos_of_mem hkeys
        have hcounted := h.gauge before hbefore
        rw [hlength, List.length_erase_of_mem hkeys]
        omega
    · have hne : left.length ≠ 0 := fun hzero => hlast (List.length_eq_zero_iff.mp hzero)
      obtain ⟨hconnections, hgauge, hlength⟩ :=
        n.behaviour.one_closed_peers now draw peer connection_id hne
      refine ⟨?_, ?_⟩
      · intro p
        rw [hconnections, hopen_to]
        by_cases hp : p = peer
        · rw [if_pos hp, if_pos hp, htable, if_neg hlast]
          rfl
        · rw [if_neg hp, if_neg hp]
          exact h.table p
      · intro count hcount
        rw [hgauge] at hcount
        rw [hlength]
        exact h.gauge count hcount
  · cases hstep

/-- A step that tells of no connection. -/
theorem Gauged.other {seconds : List P} {n n' : Node P F} (h : Gauged seconds n) {op : Op P}
    (hstep : n.swarm_step (.other op) = some n') : Gauged seconds n' := by
  simp only [Node.swarm_step] at hstep
  split at hstep
  · cases hstep
  · rename_i hop
    cases op with
    | call c =>
      have hc : Behaviour.concerns_connections c = false := by
        simpa [Op.concerns_connections] using hop
      simp only [Node.step] at hstep
      obtain ⟨b', hcall, rfl⟩ := Option.map_eq_some_iff.mp hstep
      obtain ⟨new, left, -, hbalances, -⟩ := Behaviour.call_balances hcall hc
      have hconnections : n.connections_after c = n.connections := by
        unfold Node.connections_after
        split
        · cases hc
        · cases hc
        · cases hc
        · rfl
      refine h.same ⟨hbalances.peers.connections, hbalances.peers.gauge⟩ fun p => ?_
      unfold Node.open_to
      rw [hconnections]
    | poll_next index =>
      simp only [Node.step] at hstep
      obtain ⟨hpeers, hopen⟩ := poll_receiver_peers hstep
      exact h.same hpeers hopen
    | poll_stale index elapsed =>
      simp only [Node.step] at hstep
      obtain ⟨hpeers, hopen⟩ := poll_receiver_peers hstep
      exact h.same hpeers hopen
    | poll_is_empty index =>
      simp only [Node.step] at hstep
      obtain ⟨hpeers, hopen⟩ := poll_receiver_peers hstep
      exact h.same hpeers hopen

theorem gauged_of_run {s : Setup P F} {n : Node P F} {events : List (SwarmEvent P)}
    (hrun : s.swarm.Run s.node events n) :
    Gauged (Machine.observe Node.swarm_step Node.second_connection s.node events) n := by
  apply Machine.Run.observe_invariant (p := Gauged) hrun
  · refine ⟨fun p => rfl, ?_⟩
    intro count hcount
    simp only [Behaviour.peer_gauge, Setup.node, Setup.behaviour, Behaviour.new_with_transform]
      at hcount
    split at hcount
    · cases hcount
      rfl
    · cases hcount
  · intro seconds n event n' h hstep
    cases event with
    | established inbound connection_id peer => exact h.established hstep
    | closed now draw connection_id peer =>
      have hnone : n.second_connection (.closed now draw connection_id peer) = [] := rfl
      rw [hnone, List.append_nil]
      exact h.closed hstep
    | other op =>
      have hnone : n.second_connection (.other op) = [] := rfl
      rw [hnone, List.append_nil]
      exact h.other hstep

/-- No connection is established to a peer that has one. -/
def Node.first_connection (n : Node P F) (event : SwarmEvent P) : Bool :=
  (n.second_connection event).isEmpty

/-- The table holds the peers with an open connection, each with its open connections. The gauge
shows their number exactly when no peer was given a second connection so far. -/
theorem the_peer_gauge_follows_the_table_iff {s : Setup P F} {n : Node P F}
    {events : List (SwarmEvent P)} (hrun : s.swarm.Run s.node events n) :
    n.TableExact ∧ ∀ m, n.behaviour.metrics = some m →
      (m.peers_count = n.behaviour.connected_peers.keys.length ↔
        s.swarm.Meets (fun n event => n.first_connection event = true) s.node events) := by
  obtain ⟨htable, hgauge⟩ := gauged_of_run hrun
  refine ⟨htable, ?_⟩
  intro m hm
  have hcount := hgauge m.peers_count (by simp [Behaviour.peer_gauge, hm])
  set seconds := Machine.observe Node.swarm_step Node.second_connection s.node events with hseconds
  have hnone : (∀ p ∈ seconds, False) ↔
      s.swarm.Meets (fun n event => ∀ p ∈ n.second_connection event, False) s.node events :=
    Machine.Run.forall_observe_iff hrun
  have hempty : ∀ l : List P, (∀ p ∈ l, False) ↔ l.isEmpty = true := by
    intro l
    cases l with
    | nil => simp
    | cons p l =>
      constructor
      · intro h
        exact (h p List.mem_cons_self).elim
      · intro h
        cases h
  simp only [hempty] at hnone
  unfold Node.first_connection
  rw [← hnone, List.isEmpty_iff, hcount]
  constructor
  · intro hsame
    apply List.length_eq_zero_iff.mp
    omega
  · intro hnil
    simp [hnil]

end

namespace Sample

/-- A connection to a peer. -/
def connection (connection_id : Nat) (peer : UInt8) : SwarmEvent Peer :=
  .established true ⟨connection_id⟩ { number := peer }

/-- A node with metrics. -/
def gauged : Setup Peer Rat := { setup 0 with metrics := true }

end Sample

theorem the_peer_gauge_follows_two_peers :
    ∃ n m, Sample.gauged.swarm.Run Sample.gauged.node
        [Sample.connection 1 1, Sample.connection 2 2, .closed 0 0 ⟨1⟩ ⟨1⟩] n ∧
      n.behaviour.metrics = some m ∧ m.peers_count = n.behaviour.connected_peers.keys.length := by
  have hrun : (Machine.exec (Machine.guarded Node.first_connection Node.swarm_step)
      Sample.gauged.node [Sample.connection 1 1, Sample.connection 2 2, .closed 0 0 ⟨1⟩ ⟨1⟩]).map
      (·.behaviour.metrics.isSome) = some true := by decide +kernel
  obtain ⟨n, hrun, hok, hsome⟩ := Machine.exists_guarded_run hrun
  obtain ⟨m, hm⟩ := Option.isSome_iff_exists.mp hsome
  exact ⟨n, m, hrun, hm, ((the_peer_gauge_follows_the_table_iff hrun).2 m hm).mpr hok⟩

/-- Two nodes dial each other: one peer has two connections, and the gauge shows two peers. -/
theorem the_peer_gauge_counts_a_peer_twice :
    ¬ ∀ (s : Setup Sample.Peer Rat) (n : Node Sample.Peer Rat)
      (events : List (SwarmEvent Sample.Peer)) (m : Metrics Rat), s.swarm.Run s.node events n →
      n.behaviour.metrics = some m → m.peers_count = n.behaviour.connected_peers.keys.length := by
  intro hclaim
  have hrun : (Machine.exec Node.swarm_step Sample.gauged.node
      [Sample.connection 1 1, Sample.connection 2 1]).map
      (fun n => (n.behaviour.metrics.map (·.peers_count),
        n.behaviour.connected_peers.keys.length)) =
      some (some 2, 1) := by decide +kernel
  obtain ⟨n, hrun, hsee⟩ := Machine.exists_run_of_exec hrun
  obtain ⟨hmetrics, hlength⟩ := Prod.mk.inj hsee
  obtain ⟨m, hm, hcount⟩ := Option.map_eq_some_iff.mp hmetrics
  have hsame := hclaim _ n _ m hrun hm
  rw [hcount, hlength] at hsame
  cases hsame

end libp2p_dog
