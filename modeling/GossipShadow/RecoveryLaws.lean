-- Two nodes joined by a connection: what the one has asked the other to
-- withhold is never less than what the other withholds from it. The connection
-- may close and open again, and both nodes deal with other peers throughout.
import GossipShadow.Lib.Books
import GossipShadow.Node

namespace libp2p_dog

/-- Node A, the handler of its connection to B, what the handler has sent and B has not processed,
and node B. There is a receiver while the connection is open. -/
structure Pair (P F : Type) [Libp2p P] where
  a : Behaviour P F
  receiver : Option (Receiver P)
  wire : List (RpcOut P)
  b : Behaviour P F

/-- What happens in a pair. The calls are those that do not concern the connection between the two,
and the other handlers of a node may do anything with their queues. -/
inductive PairOp (P : Type) where
  | a_call (c : Call P)
  | b_call (c : Call P)
  | a_handler (p : P) (sender : Sender P)
  | b_handler (p : P) (sender : Sender P)
  | poll_next
  | poll_stale (elapsed : Delay → Bool)
  | poll_is_empty
  | deliver (clock : Nat → Nat) (draw : Nat) (valid : Bool)
  | close (now draw now' draw' : Nat) (id id' : ConnectionId)
  | establish (id id' : ConnectionId)

/-- The call opens or closes a connection to the peer. -/
def Call.connects {P : Type} [DecidableEq P] (p : P) : Call P → Bool
  | .handle_established_inbound_connection _ peer_id => decide (peer_id = p)
  | .handle_established_outbound_connection _ peer => decide (peer = p)
  | .on_swarm_event _ _ (.ConnectionClosed peer_id _ _) => decide (peer_id = p)
  | _ => false

/-- The call brings an RPC of the peer. -/
def Call.brings_rpc {P : Type} [DecidableEq P] (p : P) : Call P → Bool
  | .on_connection_handler_event _ _ source (.Transaction _ _) => decide (source = p)
  | _ => false

section

variable {P F : Type} [Libp2p P] [DecidableEq P] [F64 F] [Schema]

namespace Pair

/-- A poll of the receiver of the connection. -/
def poll (s : Pair P F) (pb : P) (poll : Receiver P → Sender P →
    Poll (Option (RpcOut P)) × Receiver P × Sender P) : Option (Option (RpcOut P) × Pair P F) := do
  let receiver ← s.receiver
  let sender ← s.a.queue pb
  let (answer, receiver, sender) := poll receiver sender
  some (Receiver.out answer, { s with a := s.a.set_queue pb sender, receiver := some receiver })

/-- One step of the pair; `pa` and `pb` are the ids of the nodes. -/
def step (pa pb : P) (s : Pair P F) : PairOp P → Option (Pair P F)
  | .a_call c =>
    if c.connects pb then none else (s.a.call c).map fun a => { s with a }
  | .b_call c =>
    if c.connects pa || c.brings_rpc pa then none else (s.b.call c).map fun b => { s with b }
  | .a_handler p sender =>
    if p = pb then none else some { s with a := s.a.set_queue p sender }
  | .b_handler p sender => some { s with b := s.b.set_queue p sender }
  | .poll_next => (s.poll pb fun r q => r.poll_next false q).map fun (out, s) =>
    { s with wire := s.wire ++ out.toList }
  | .poll_stale elapsed => (s.poll pb fun r q => r.poll_stale false elapsed q).map (·.2)
  | .poll_is_empty => (s.poll pb fun r q =>
    let (_, r, q) := r.poll_is_empty false q
    (.Pending, r, q)).map (·.2)
  | .deliver clock draw valid => match s.wire with
    | [] => none
    | rpc :: wire =>
      let event := .Transaction (rpc.arrival valid) []
      some { s with wire, b := s.b.on_connection_handler_event clock draw pa event }
  | .close now draw now' draw' id id' =>
    if s.receiver.isNone then none
    else some {
      a := s.a.on_swarm_event now draw (.ConnectionClosed pb id 0)
      receiver := none
      wire := []
      b := s.b.on_swarm_event now' draw' (.ConnectionClosed pa id' 0) }
  | .establish id id' =>
    if s.receiver.isSome then none
    else
      let (receiver, a) := s.a.handle_established_outbound_connection id pb
      some { s with
        a
        receiver := some receiver
        b := (s.b.handle_established_inbound_connection id' pa).2 }

/-- Two fresh nodes with no connection. -/
def start (sa sb : Setup P F) : Pair P F :=
  { a := sa.behaviour, receiver := none, wire := [], b := sb.behaviour }

/-- The runs of a pair: each node is known by its own id. -/
def machine (sa sb : Setup P F) : Machine (Pair P F) (PairOp P) :=
  .ofFun (· = start sa sb) (step sa.behaviour.own_id sb.behaviour.own_id)

/-! ## The books of the two nodes -/

/-- The routes to a peer in the list of a node, with repetition. -/
def withheld (b : Behaviour P F) (p : P) : Nat :=
  b.router.disabled_routes.countP fun route => decide (route.target = p)

/-- What A has sent and B has not processed: on the wire, then in the slot, then in the channel. -/
def pending (s : Pair P F) (pb : P) : List (RpcOut P) :=
  s.wire ++ match s.receiver, s.a.queue pb with
    | some r, some q => r.priority_waiting q
    | _, _ => []

def books (s : Pair P F) (pa pb : P) : Books Nat (RpcOut P) where
  near := s.a.router.have_tx_sent pb
  pending := s.pending pb
  far := withheld s.b pa

/-- What holds in every state of a pair. -/
structure Good (pa pb : P) (s : Pair P F) : Prop where
  behind : (s.books pa pb).Behind RpcOut.tally
  a_connected : pb ∈ s.a.connected_peers ↔ s.receiver.isSome
  b_connected : pa ∈ s.b.connected_peers ↔ s.receiver.isSome
  closed : s.receiver = none → s.wire = [] ∧ withheld s.b pa = 0
  sound : ∀ r q, s.receiver = some r → s.a.queue pb = some q → r.Sound false q
  forwards : ∀ r q, s.receiver = some r → s.a.queue pb = some q →
    ∀ rpc ∈ r.non_priority_waiting q, rpc.isForward = true

end Pair

omit [Libp2p P] [DecidableEq P] [Schema] in
theorem RpcOut.tally_mono (rpc : RpcOut P) : Monotone fun count => rpc.tally count := by
  intro m n h
  cases rpc <;> simp only [RpcOut.tally] <;> omega

omit [Libp2p P] [DecidableEq P] [Schema] in
theorem RpcOut.tally_forward {rpc : RpcOut P} (h : rpc.isForward = true) (count : Nat) :
    rpc.tally count = count := by
  cases rpc with
  | Forward _ _ => rfl
  | Publish _ _ | HaveTx _ | ResetRoute _ => cases h

/-! ## Calls that do not concern the connection -/

/-- What a call does to the queue of a peer that it does not connect: it sends, and counts what it
sends. -/
theorem Routed.at_peer {b b' : Behaviour P F} {c : Call P} {p : P} (h : Routed b c b')
    (hc : c.connects p = false) : ∃ rpcs, b'.queue p = (b.queue p).map (·.push rpcs) ∧
      b'.router.have_tx_sent p = rpcs.foldl RpcOut.tally (b.router.have_tx_sent p) ∧
      (p ∈ b'.connected_peers ↔ p ∈ b.connected_peers) := by
  cases h with
  | sends new sends tallies _ => exact ⟨enqueued p new, sends.queue p, tallies p, sends.mem_keys⟩
  | joined connection_id q call =>
    have hne : p ≠ q := by
      rintro rfl
      rcases call with rfl | rfl <;> simp [Call.connects] at hc
    refine ⟨[], ?_, rfl, ?_⟩
    · rw [Behaviour.established_queue, if_neg hne]
      simp
    · exact (AList.mem_insert _).trans (or_iff_right hne)
  | left now draw q connection_id new sends tallies _ =>
    have hne : p ≠ q := by
      rintro rfl
      simp [Call.connects] at hc
    obtain ⟨-, -, -, -, -, -, hpeers, hrouter⟩ := Behaviour.disconnect_spec b q
    refine ⟨enqueued p new, ?_, ?_, ?_⟩
    · rw [sends.queue, Behaviour.disconnect_queue, if_neg hne]
    · rw [tallies p, hrouter]
      rfl
    · rw [sends.mem_keys, hpeers, AList.mem_erase]
      exact and_iff_right hne
  | rpc clock draw source rpc invalid new sends tallies _ =>
    exact ⟨enqueued p new, sends.queue p, tallies p, sends.mem_keys⟩

/-- A call that neither connects the peer nor brings an RPC of it withholds no more from it. -/
theorem Routed.withheld_le {b b' : Behaviour P F} {c : Call P} {p : P} (h : Routed b c b')
    (hc : c.brings_rpc p = false) : Pair.withheld b' p ≤ Pair.withheld b p := by
  unfold Pair.withheld
  cases h with
  | sends new _ _ routes => rw [routes]
  | joined connection_id q call => exact Nat.le_refl _
  | left now draw q connection_id new _ _ routes =>
    obtain ⟨-, -, -, -, -, -, -, hrouter⟩ := Behaviour.disconnect_spec b q
    rw [routes, hrouter]
    exact List.filter_sublist.countP_le
  | rpc clock draw source rpc invalid new _ _ routes =>
    have hne : source ≠ p := by simpa [Call.brings_rpc] using hc
    have hnew : (b.rpc_routes clock source rpc).countP (fun route => decide (route.target = p)) =
        0 := by
      rw [List.countP_eq_zero]
      intro route hroute
      simpa [(Behaviour.mem_rpc_routes hroute).1] using hne
    have hall : (b.router.disabled_routes ++ b.rpc_routes clock source rpc).countP
        (fun route => decide (route.target = p)) =
        b.router.disabled_routes.countP fun route => decide (route.target = p) := by
      rw [List.countP_append, hnew, Nat.add_zero]
    rw [← hall]
    exact (routes_sublist routes).countP_le

namespace Pair

section
omit [F64 F] [Schema]

theorem pending_open {a b : Behaviour P F} {wire : List (RpcOut P)} {pb : P} {r : Receiver P}
    {q : Sender P} (hq : a.queue pb = some q) :
    ({ a, receiver := some r, wire, b } : Pair P F).pending pb = wire ++ r.priority_waiting q := by
  simp [pending, hq]

theorem pending_closed {a b : Behaviour P F} {wire : List (RpcOut P)} {pb : P} :
    ({ a, receiver := none, wire, b } : Pair P F).pending pb = wire := by
  simp [pending]

/-- While the connection is closed, B withholds nothing, and its book is not ahead. -/
theorem good_of_closed {pa pb : P} {a b : Behaviour P F} (ha : pb ∉ a.connected_peers)
    (hb : pa ∉ b.connected_peers) (hwithheld : withheld b pa = 0) :
    ({ a, receiver := none, wire := [], b } : Pair P F).Good pa pb where
  behind := by
    unfold Books.Behind books
    rw [pending_closed, hwithheld]
    exact Nat.zero_le _
  a_connected := by simpa using ha
  b_connected := by simpa using hb
  closed _ := ⟨rfl, hwithheld⟩
  sound := by rintro r q ⟨⟩
  forwards := by rintro r q ⟨⟩

/-- While the connection is open, A has a queue for B. -/
structure Open (pa pb : P) (a : Behaviour P F) (r : Receiver P) (wire : List (RpcOut P))
    (b : Behaviour P F) (q : Sender P) : Prop where
  queue : a.queue pb = some q
  behind : Books.Behind RpcOut.tally { near := a.router.have_tx_sent pb
                                       pending := wire ++ r.priority_waiting q
                                       far := withheld b pa }
  b_connected : pa ∈ b.connected_peers
  sound : r.Sound false q
  forwards : ∀ rpc ∈ r.non_priority_waiting q, rpc.isForward = true

theorem good_iff_open {pa pb : P} {a b : Behaviour P F} {r : Receiver P}
    {wire : List (RpcOut P)} :
    ({ a, receiver := some r, wire, b } : Pair P F).Good pa pb ↔ ∃ q, Open pa pb a r wire b q := by
  constructor
  · intro h
    obtain ⟨q, hq⟩ : ∃ q, a.queue pb = some q := by
      rw [← Option.isSome_iff_exists, Behaviour.queue_isSome]
      exact h.a_connected.mpr rfl
    have hbehind := h.behind
    simp only [books, pending_open hq] at hbehind
    exact ⟨q, hq, hbehind, h.b_connected.mpr rfl, h.sound r q rfl hq, h.forwards r q rfl hq⟩
  · rintro ⟨q, hq, hbehind, hb, hsound, hforwards⟩
    refine ⟨?_, ?_, ?_, by rintro ⟨⟩, ?_, ?_⟩
    · simpa only [books, pending_open hq] using hbehind
    · rw [← Behaviour.queue_isSome, hq]
      exact Iff.rfl
    · exact iff_of_true hb rfl
    · intro r' q' hr' hq'
      cases hr'
      cases hq.symm.trans hq'
      exact hsound
    · intro r' q' hr' hq'
      cases hr'
      cases hq.symm.trans hq'
      exact hforwards

theorem Good.opened {pa pb : P} {s : Pair P F} (h : s.Good pa pb) {r : Receiver P} {q : Sender P}
    (hr : s.receiver = some r) (hq : s.a.queue pb = some q) : Open pa pb s.a r s.wire s.b q := by
  obtain ⟨a, receiver, wire, b⟩ := s
  cases hr
  obtain ⟨q', hopen⟩ := good_iff_open.mp h
  cases hopen.queue.symm.trans hq
  exact hopen

end

/-! ## The steps -/

theorem Good.a_call {pa pb : P} {s : Pair P F} (h : s.Good pa pb) {c : Call P}
    {a' : Behaviour P F} (hc : c.connects pb = false) (hcall : s.a.call c = some a') :
    ({ s with a := a' } : Pair P F).Good pa pb := by
  obtain ⟨rpcs, hqueue, hcount, hconnected⟩ := (call_routed hcall).at_peer hc
  obtain ⟨a, receiver, wire, b⟩ := s
  cases receiver with
  | none =>
    obtain ⟨hwire, hwithheld⟩ := h.closed rfl
    obtain rfl : wire = [] := hwire
    apply good_of_closed
    · intro hmem
      exact absurd (h.a_connected.mp (hconnected.mp hmem)) (by simp)
    · intro hmem
      exact absurd (h.b_connected.mp hmem) (by simp)
    · exact hwithheld
  | some r =>
    obtain ⟨q, hq, hbehind, hb, hsound, hforwards⟩ := good_iff_open.mp h
    apply good_iff_open.mpr
    refine ⟨q.push rpcs, ?_, ?_, hb, ?_, ?_⟩
    · rw [hqueue, hq]
      rfl
    · have hsend := hbehind.send RpcOut.tally_mono (rpcs.filter (!·.isForward))
      have hneutral : ∀ count (rpc : RpcOut P), (!rpc.isForward) = false →
          rpc.tally count = count := by
        intro count rpc hrpc
        exact RpcOut.tally_forward (by simpa using hrpc) count
      have hwaiting : r.priority_waiting (q.push rpcs) =
          r.priority_waiting q ++ rpcs.filter (!·.isForward) := by
        simp [Receiver.priority_waiting, Peekable.waiting, Sender.push]
      rw [Books.foldl_filter_of_neutral hneutral] at hsend
      rw [hcount, hwaiting, ← List.append_assoc]
      exact hsend
    · exact hsound.of_open _
    · intro rpc hrpc
      have hwaiting : r.non_priority_waiting (q.push rpcs) =
          r.non_priority_waiting q ++ rpcs.filter (·.isForward) := by
        simp [Receiver.non_priority_waiting, Peekable.waiting, Sender.push]
      rw [hwaiting, List.mem_append, List.mem_filter] at hrpc
      rcases hrpc with hrpc | ⟨-, hrpc⟩
      · exact hforwards rpc hrpc
      · exact hrpc

theorem Good.b_call {pa pb : P} {s : Pair P F} (h : s.Good pa pb) {c : Call P}
    {b' : Behaviour P F} (hconnects : c.connects pa = false) (hrpc : c.brings_rpc pa = false)
    (hcall : s.b.call c = some b') : ({ s with b := b' } : Pair P F).Good pa pb := by
  obtain ⟨-, -, -, hconnected⟩ := (call_routed hcall).at_peer hconnects
  have hle := (call_routed hcall).withheld_le hrpc
  obtain ⟨a, receiver, wire, b⟩ := s
  cases receiver with
  | none =>
    obtain ⟨hwire, hwithheld⟩ := h.closed rfl
    obtain rfl : wire = [] := hwire
    apply good_of_closed
    · intro hmem
      exact absurd (h.a_connected.mp hmem) (by simp)
    · intro hmem
      exact absurd (h.b_connected.mp (hconnected.mp hmem)) (by simp)
    · exact Nat.le_zero.mp (hle.trans (Nat.le_of_eq hwithheld))
  | some r =>
    obtain ⟨q, hq, hbehind, hb, hsound, hforwards⟩ := good_iff_open.mp h
    apply good_iff_open.mpr
    exact ⟨q, hq, hbehind.lower RpcOut.tally_mono hle, hconnected.mpr hb, hsound, hforwards⟩

omit [F64 F] [Schema] in
/-- A poll of the receiver keeps the books, as long as what leaves the queue goes on the wire or
does not count. -/
theorem Open.polled {pa pb : P} {a b : Behaviour P F} {r r' : Receiver P}
    {wire wire' : List (RpcOut P)} {q q' : Sender P} {out : Option (RpcOut P)}
    (h : Open pa pb a r wire b q) (htakes : r.Takes false q out r' q')
    (hpending : ∀ count, (wire' ++ r'.priority_waiting q').foldl RpcOut.tally count =
      (wire ++ r.priority_waiting q).foldl RpcOut.tally count) :
    Open pa pb (a.set_queue pb q') r' wire' b q' := by
  refine ⟨?_, ?_, h.b_connected, htakes.sound, ?_⟩
  · rw [Behaviour.queue_set_queue_self, h.queue]
    rfl
  · have hbehind := h.behind
    unfold Books.Behind at hbehind ⊢
    simp only [hpending] at hbehind ⊢
    exact hbehind
  · intro rpc hrpc
    apply h.forwards
    rcases htakes.taken with ⟨-, -, h₂⟩ | ⟨x, -, -, h₂⟩ | ⟨x, -, -, h₂⟩
    · rwa [h₂] at hrpc
    · rwa [h₂] at hrpc
    · rw [h₂]
      exact List.mem_cons_of_mem _ hrpc

omit [F64 F] [Schema] in
theorem Open.poll_next {pa pb : P} {a b : Behaviour P F} {r : Receiver P} {wire : List (RpcOut P)}
    {q : Sender P} (h : Open pa pb a r wire b q) :
    Open pa pb (a.set_queue pb (r.poll_next false q).2.2) (r.poll_next false q).2.1
      (wire ++ (Receiver.out (r.poll_next false q).1).toList) b (r.poll_next false q).2.2 := by
  obtain ⟨htakes, -⟩ := Receiver.poll_next_spec h.sound
  apply h.polled htakes
  intro count
  rcases htakes.taken with ⟨hout, h₁, -⟩ | ⟨x, hout, h₁, -⟩ | ⟨x, hout, h₁, h₂⟩
  · simp [hout, h₁]
  · simp [hout, h₁]
  · -- a Forward goes ahead, and it does not count
    have hx := h.forwards x (by simp [h₂])
    simp [hout, h₁, RpcOut.tally_forward hx]

omit [F64 F] [Schema] in
theorem Open.poll_stale {pa pb : P} {a b : Behaviour P F} {r : Receiver P}
    {wire : List (RpcOut P)} {q : Sender P} (h : Open pa pb a r wire b q)
    (elapsed : Delay → Bool) :
    Open pa pb (a.set_queue pb (r.poll_stale false elapsed q).2.2)
      (r.poll_stale false elapsed q).2.1 wire b (r.poll_stale false elapsed q).2.2 := by
  obtain ⟨htakes, -⟩ := @Receiver.poll_stale_spec P false elapsed r q h.sound
  apply h.polled htakes
  intro count
  rcases htakes.taken with ⟨-, h₁, -⟩ | ⟨x, -, h₁, -⟩ | ⟨x, -, h₁, -⟩
  · rw [h₁]
  · -- the head of the priority queue was stale, so it is a Publish
    have hstale := Receiver.head_stale_of_taken h.sound h₁
    rw [h₁] at hstale
    have hx := Receiver.isPublish_of_head_stale hstale
    cases x with
    | Publish _ _ => simp [h₁, RpcOut.tally]
    | Forward _ _ | HaveTx _ | ResetRoute _ => cases hx
  · rw [h₁]

omit [F64 F] [Schema] in
theorem Open.poll_is_empty {pa pb : P} {a b : Behaviour P F} {r : Receiver P}
    {wire : List (RpcOut P)} {q : Sender P} (h : Open pa pb a r wire b q) :
    Open pa pb (a.set_queue pb (r.poll_is_empty false q).2.2) (r.poll_is_empty false q).2.1 wire b
      (r.poll_is_empty false q).2.2 := by
  obtain ⟨htakes, -⟩ := Receiver.poll_is_empty_spec h.sound
  apply h.polled htakes
  intro count
  rcases htakes.taken with ⟨-, h₁, -⟩ | ⟨x, ⟨⟩, -⟩ | ⟨x, ⟨⟩, -⟩
  rw [h₁]

/-- What an RPC of A does to the routes that B withholds from A. -/
theorem withheld_after_rpc (b : Behaviour P F) (pa : P) (clock : Nat → Nat) (draw : Nat)
    (rpc : RpcOut P) (valid : Bool) :
    withheld (b.on_rpc clock draw pa (rpc.arrival valid)) pa ≤ rpc.tally (withheld b pa) := by
  obtain ⟨-, -, -, -, hroutes⟩ := Behaviour.on_rpc_spec b clock draw pa (rpc.arrival valid)
  have hlen : (b.rpc_routes clock pa (rpc.arrival valid)).countP
      (fun route => decide (route.target = pa)) ≤
      (Behaviour.have_tx_ids (rpc.arrival valid).control_msgs).length := by
    apply List.countP_le_length.trans
    unfold Behaviour.rpc_routes
    split
    · exact Nat.zero_le _
    · exact List.length_filterMap_le _ _
  unfold withheld
  rcases hroutes with ⟨hroutes, hnone⟩ | ⟨hreset, before, route, after, hsplit, htarget, hroutes⟩
  · rw [hroutes, List.countP_append]
    cases rpc with
    | Publish tx timeout =>
      simp only [RpcOut.arrival, Behaviour.have_tx_ids, List.filterMap_nil, List.length_nil,
        RpcOut.tally] at hlen ⊢
      omega
    | Forward tx timeout =>
      simp only [RpcOut.arrival, Behaviour.have_tx_ids, List.filterMap_nil, List.length_nil,
        RpcOut.tally] at hlen ⊢
      omega
    | HaveTx have_tx =>
      have hone : (Behaviour.have_tx_ids
          (RpcOut.arrival (P := P) valid (.HaveTx have_tx)).control_msgs).length = 1 := rfl
      simp only [RpcOut.tally]
      omega
    | ResetRoute reset_route =>
      -- there was no route to A to enable
      have hzero : (b.router.disabled_routes ++ b.rpc_routes clock pa
          (RpcOut.arrival valid (.ResetRoute reset_route))).countP
          (fun route => decide (route.target = pa)) = 0 := by
        rw [List.countP_eq_zero]
        intro route hroute
        simpa using hnone rfl route hroute
      rw [← List.countP_append, hzero]
      exact Nat.zero_le _
  · have hcount := congrArg
      (List.countP fun route : Route P => decide (route.target = pa)) hsplit
    rw [hroutes]
    simp only [List.countP_append, List.countP_cons, htarget, decide_true, if_true] at hcount ⊢
    cases rpc with
    | Publish _ _ | Forward _ _ | HaveTx _ => cases hreset
    | ResetRoute reset_route =>
      have hzero : (Behaviour.have_tx_ids
          (RpcOut.arrival (P := P) valid (.ResetRoute reset_route)).control_msgs).length = 0 := rfl
      simp only [RpcOut.tally]
      omega

theorem Open.deliver {pa pb : P} {a b : Behaviour P F} {r : Receiver P} {rpc : RpcOut P}
    {wire : List (RpcOut P)} {q : Sender P} (h : Open pa pb a r (rpc :: wire) b q)
    (clock : Nat → Nat) (draw : Nat) (valid : Bool) :
    Open pa pb a r wire (b.on_rpc clock draw pa (rpc.arrival valid)) q := by
  obtain ⟨new, hsends, -⟩ := Behaviour.on_rpc_spec b clock draw pa (rpc.arrival valid)
  refine ⟨h.queue, ?_, hsends.mem_keys.mpr h.b_connected, h.sound, h.forwards⟩
  exact h.behind.arrive RpcOut.tally_mono (withheld_after_rpc b pa clock draw rpc valid)

/-- Each side forgets the other when the connection closes. -/
theorem closed_behaviour (b : Behaviour P F) (now draw : Nat) (p : P)
    (connection_id : ConnectionId) :
    p ∉ (b.on_swarm_event now draw (.ConnectionClosed p connection_id 0)).connected_peers ∧
    withheld (b.on_swarm_event now draw (.ConnectionClosed p connection_id 0)) p = 0 := by
  obtain ⟨-, -, -, -, -, -, hpeers, hrouter⟩ := Behaviour.disconnect_spec b p
  obtain ⟨new, hsends, -, hroutes⟩ :=
    Behaviour.adjust_redundancy_router (b.disconnect p) now draw
  constructor
  · change p ∉ ((b.disconnect p).adjust_redundancy now draw).connected_peers
    rw [hsends.mem_keys, hpeers, AList.mem_erase]
    exact fun h => h.1 rfl
  · unfold withheld
    change ((b.disconnect p).adjust_redundancy now draw).router.disabled_routes.countP _ = 0
    rw [hroutes, hrouter, List.countP_eq_zero]
    intro route hroute
    simpa using (Router.mem_reset_routes.mp hroute).2.2

omit [F64 F] [Schema] in
theorem poll_spec {s s' : Pair P F} {pb : P} {f : Receiver P → Sender P →
    Poll (Option (RpcOut P)) × Receiver P × Sender P} {out : Option (RpcOut P)}
    (h : s.poll pb f = some (out, s')) : ∃ r q, s.receiver = some r ∧ s.a.queue pb = some q ∧
      out = Receiver.out (f r q).1 ∧
      s' = { s with a := s.a.set_queue pb (f r q).2.2, receiver := some (f r q).2.1 } := by
  simp only [poll, Option.bind_eq_bind, Option.bind_eq_some_iff] at h
  obtain ⟨r, hr, q, hq, h⟩ := h
  cases h
  exact ⟨r, q, hr, hq, rfl, rfl⟩

omit [F64 F] [Schema] in
/-- The handler of another connection of A takes out of its own queue. -/
theorem Good.a_handler {pa pb p : P} {s : Pair P F} (h : s.Good pa pb) (hne : pb ≠ p)
    (sender : Sender P) : Good pa pb { s with a := s.a.set_queue p sender } := by
  have hqueue : (s.a.set_queue p sender).queue pb = s.a.queue pb :=
    Behaviour.queue_set_queue_ne hne s.a sender
  refine ⟨?_, Behaviour.mem_set_queue.trans h.a_connected, h.b_connected, h.closed, ?_, ?_⟩
  · have hbehind := h.behind
    unfold books pending at hbehind ⊢
    rw [hqueue]
    exact hbehind
  · intro r q hr hq
    exact h.sound r q hr (hqueue.symm.trans hq)
  · intro r q hr hq
    exact h.forwards r q hr (hqueue.symm.trans hq)

omit [F64 F] [Schema] in
/-- A connection opens between two nodes that have none: A makes a new queue for B. -/
theorem Good.establish {pa pb : P} {s : Pair P F} (h : s.Good pa pb) (hs : s.receiver = none)
    (id id' : ConnectionId) :
    Good pa pb { s with
      a := (s.a.handle_established_outbound_connection id pb).2
      receiver := some (s.a.handle_established_outbound_connection id pb).1
      b := (s.b.handle_established_inbound_connection id' pa).2 } := by
  obtain ⟨hwire, hwithheld⟩ := h.closed hs
  have hnone : s.a.queue pb = none := by
    rw [← Option.not_isSome_iff_eq_none, Behaviour.queue_isSome, h.a_connected, hs]
    exact Bool.false_ne_true
  apply good_iff_open.mpr
  refine ⟨.new s.a.config.connection_handler_queue_len, ?_, ?_, ?_, ?_, ?_⟩
  · unfold Behaviour.handle_established_outbound_connection
    rw [Behaviour.established_queue, if_pos rfl, hnone]
    rfl
  · rw [hwire]
    change withheld s.b pa ≤ _
    rw [hwithheld]
    exact Nat.zero_le _
  · exact (AList.mem_insert _).mpr (.inl rfl)
  · exact ⟨Peekable.sound_new false [], Peekable.sound_new false []⟩
  · intro rpc hrpc
    cases hrpc

theorem Good.step {pa pb : P} {s s' : Pair P F} {op : PairOp P} (h : s.Good pa pb)
    (hstep : s.step pa pb op = some s') : s'.Good pa pb := by
  cases op with
  | a_call c =>
    simp only [Pair.step] at hstep
    split at hstep
    · cases hstep
    · rename_i hc
      obtain ⟨a', hcall, rfl⟩ := Option.map_eq_some_iff.mp hstep
      exact h.a_call (Bool.eq_false_iff.mpr hc) hcall
  | b_call c =>
    simp only [Pair.step] at hstep
    split at hstep
    · cases hstep
    · rename_i hc
      obtain ⟨b', hcall, rfl⟩ := Option.map_eq_some_iff.mp hstep
      obtain ⟨hconnects, hrpc⟩ := Bool.or_eq_false_iff.mp (Bool.eq_false_iff.mpr hc)
      exact h.b_call hconnects hrpc hcall
  | a_handler p sender =>
    simp only [Pair.step] at hstep
    split at hstep
    · cases hstep
    · rename_i hne
      cases hstep
      exact h.a_handler (Ne.symm hne) sender
  | b_handler p sender =>
    cases hstep
    exact ⟨h.behind, h.a_connected, Behaviour.mem_set_queue.trans h.b_connected, h.closed, h.sound,
      h.forwards⟩
  | poll_next =>
    obtain ⟨⟨out, polled⟩, hpoll, rfl⟩ := Option.map_eq_some_iff.mp hstep
    obtain ⟨r, q, hr, hq, rfl, rfl⟩ := poll_spec hpoll
    exact good_iff_open.mpr ⟨_, (h.opened hr hq).poll_next⟩
  | poll_stale elapsed =>
    obtain ⟨⟨out, polled⟩, hpoll, rfl⟩ := Option.map_eq_some_iff.mp hstep
    obtain ⟨r, q, hr, hq, rfl, rfl⟩ := poll_spec hpoll
    exact good_iff_open.mpr ⟨_, (h.opened hr hq).poll_stale elapsed⟩
  | poll_is_empty =>
    obtain ⟨⟨out, polled⟩, hpoll, rfl⟩ := Option.map_eq_some_iff.mp hstep
    obtain ⟨r, q, hr, hq, rfl, rfl⟩ := poll_spec hpoll
    exact good_iff_open.mpr ⟨_, (h.opened hr hq).poll_is_empty⟩
  | deliver clock draw valid =>
    obtain ⟨a, receiver, wire, b⟩ := s
    cases wire with
    | nil => cases hstep
    | cons rpc wire =>
      cases hstep
      cases receiver with
      | none => cases (h.closed rfl).1
      | some r =>
        obtain ⟨q, hopen⟩ := good_iff_open.mp h
        exact good_iff_open.mpr ⟨q, hopen.deliver clock draw valid⟩
  | close now draw now' draw' id id' =>
    simp only [Pair.step] at hstep
    split at hstep
    · cases hstep
    · cases hstep
      obtain ⟨ha, -⟩ := closed_behaviour s.a now draw pb id
      obtain ⟨hb, hwithheld⟩ := closed_behaviour s.b now' draw' pa id'
      exact good_of_closed ha hb hwithheld
  | establish id id' =>
    simp only [Pair.step] at hstep
    split at hstep
    · cases hstep
    · rename_i hclosed
      cases hstep
      exact h.establish (Option.not_isSome_iff_eq_none.mp hclosed) id id'

theorem good_of_reachable {sa sb : Setup P F} {s : Pair P F} (h : (machine sa sb).Reachable s) :
    s.Good sa.behaviour.own_id sb.behaviour.own_id := by
  apply h.invariant
  · rintro s rfl
    apply good_of_closed
    · exact AList.notMem_empty _
    · exact AList.notMem_empty _
    · rfl
  · intro s op s' hs hstep
    exact hs.step hstep

/-- Every route that B withholds from A stays recoverable. When no HaveTx and no ResetRoute of A is
on its way, A counts at least as many HaveTx to B as B withholds routes from A. So as long as B
withholds one, A may draw B when it sends a ResetRoute. -/
theorem what_is_withheld_can_be_recovered (sa sb : Setup P F) {s : Pair P F}
    (hreachable : (machine sa sb).Reachable s)
    (hquiet : ∀ rpc ∈ s.pending sb.behaviour.own_id, rpc.tx?.isSome) :
    withheld s.b sa.behaviour.own_id ≤ s.a.router.have_tx_sent sb.behaviour.own_id ∧
    (0 < withheld s.b sa.behaviour.own_id →
      ∃ draw, s.a.router.get_random_have_tx_sent_peer draw = some sb.behaviour.own_id) := by
  have hsettled := (good_of_reachable hreachable).behind.settled ?_
  · refine ⟨hsettled, ?_⟩
    intro hpos
    apply exists_choose
    exact Router.mem_have_tx_sent_peers.mpr (Nat.lt_of_lt_of_le hpos hsettled)
  · intro count rpc hrpc
    exact RpcOut.tally_of_tx (hquiet rpc hrpc) count

end Pair

end

namespace Pair

/-- Node 1 gets a transaction of peer 3 from peer 4 and from node 2, which has it from peer 3. Its
HaveTx makes node 2 withhold the route from peer 3. -/
def one_have_tx : List (PairOp Sample.Peer) :=
  let rpc : Rpc Sample.Peer := { transactions := [Sample.raw 3 1], control_msgs := [] }
  let receive (source : Sample.Peer) : Call Sample.Peer :=
    .on_connection_handler_event (fun _ => 0) 0 source (.Transaction rpc [])
  [.establish ⟨1⟩ ⟨1⟩, .b_call (.handle_established_inbound_connection ⟨2⟩ ⟨3⟩),
    .b_call (receive ⟨3⟩), .a_call (receive ⟨4⟩), .a_call (receive ⟨2⟩), .poll_is_empty, .poll_next,
    .deliver (fun _ => 0) 0 true]

theorem what_one_have_tx_withholds_can_be_recovered :
    ∃ s, (machine (Sample.setup 1) (Sample.setup 2)).Reachable s ∧ withheld s.b ⟨1⟩ = 1 ∧
      withheld s.b ⟨1⟩ ≤ s.a.router.have_tx_sent ⟨2⟩ ∧
      ∃ draw, s.a.router.get_random_have_tx_sent_peer draw = some ⟨2⟩ := by
  have hrun : (Machine.exec (step ⟨1⟩ ⟨2⟩) (start (Sample.setup 1) (Sample.setup 2))
      one_have_tx).map (fun s => (s.pending ⟨2⟩, withheld s.b ⟨1⟩)) = some ([], 1) := by
    decide +kernel
  obtain ⟨s, hrun, hsee⟩ := Machine.exists_run_of_exec hrun
  obtain ⟨hpending, hwithheld⟩ := Prod.mk.inj hsee
  have hreachable : (machine (Sample.setup 1) (Sample.setup 2)).Reachable s :=
    ⟨_, _, rfl, hrun⟩
  have hquiet : ∀ rpc ∈ s.pending ⟨2⟩, rpc.tx?.isSome := by simp [hpending]
  obtain ⟨hle, hdraw⟩ :=
    what_is_withheld_can_be_recovered (Sample.setup 1) (Sample.setup 2) hreachable hquiet
  have hpos : 0 < withheld s.b (⟨1⟩ : Sample.Peer) := by omega
  exact ⟨s, hreachable, hwithheld, hle, hdraw hpos⟩

end Pair

end libp2p_dog
