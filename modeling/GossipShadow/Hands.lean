-- What a node has in its hands for one peer, counted: in the queue of the peer,
-- and in the slots of the receivers of its connections. What the handlers send
-- to the peer, its queue took before, and they send it once.
import Mathlib.Data.List.Flatten
import Mathlib.Data.List.Perm.Subperm
import GossipShadow.Overlay
import GossipShadow.Custody

namespace libp2p_dog

/-! ## Queues and slots -/

section

variable {P : Type}

theorem Sender.waits_push (s : Sender P) (rpcs : List (RpcOut P)) :
    (s.push rpcs).waits.Perm (s.waits ++ rpcs) := by
  classical
  rw [List.perm_iff_count]
  intro rpc
  have hsplit := (List.filter_append_perm (fun rpc => rpc.isForward) rpcs).count_eq rpc
  simp only [waits, push, List.count_append] at hsplit ⊢
  omega

/-- A poll takes what it gives out from the channels and the slots. -/
theorem Receiver.Takes.hands {closed : Bool} {r r' : Receiver P} {s s' : Sender P}
    {out : Option (RpcOut P)} (h : r.Takes closed s out r' s') :
    (s.waits ++ r.slots).Perm (out.toList ++ (s'.waits ++ r'.slots)) := by
  classical
  rw [List.perm_iff_count]
  intro rpc
  have hcount : ∀ (r : Receiver P) s, List.count rpc (s.waits ++ r.slots) =
      List.count rpc (r.priority_waiting s) + List.count rpc (r.non_priority_waiting s) := by
    intro r s
    simp only [Sender.waits, slots, priority_waiting, non_priority_waiting, Peekable.waiting,
      List.count_append]
    omega
  rw [hcount, List.count_append, hcount]
  rcases h.taken with ⟨rfl, h₁, h₂⟩ | ⟨x, rfl, h₁, h₂⟩ | ⟨x, rfl, h₁, h₂⟩
  · simp [h₁, h₂]
  · simp only [h₁, h₂, Option.toList_some, List.count_cons, List.count_nil]
    omega
  · simp only [h₁, h₂, Option.toList_some, List.count_cons, List.count_nil]
    omega

end

section

variable {P F : Type} [Libp2p P] [DecidableEq P]

/-! ## What is in a node's hands -/

/-- What the receiver of a connection to `p` has read ahead. -/
def Connection.slots_for (p : P) (c : Connection P) : List (RpcOut P) :=
  if c.peer_id = p then c.receiver.slots else []

/-- What waits in the queue of `p`. -/
def Behaviour.waits_for (b : Behaviour P F) (p : P) : List (RpcOut P) :=
  ((b.queue p).map (·.waits)).getD []

/-- All that a node has in its hands for `p`. -/
def Node.hands (n : Node P F) (p : P) : List (RpcOut P) :=
  n.behaviour.waits_for p ++ n.connections.flatMap (·.slots_for p)

/-- What an operation of `v` sends to `p`. -/
def Node.sent_to (n : Node P F) (v p : P) (op : Op P) : List (RpcOut P) :=
  ((n.sent v op).toList.filter fun packet => decide (packet.recipient = p)).map (·.rpc)

theorem Sends.waits_for {b b' : Behaviour P F} {new : List (Attempt P)} (h : Sends b new b')
    (p : P) : (b'.waits_for p).Subperm (b.waits_for p ++ enqueued p new) := by
  unfold Behaviour.waits_for
  rw [h.queue p]
  cases b.queue p with
  | none => exact List.nil_subperm
  | some q => exact (q.waits_push _).subperm

/-- What a call leaves in the queues was there before, or it is what the call sends. -/
theorem call_waits_for [F64 F] [Schema] {b b' : Behaviour P F} {c : Call P}
    (h : b.call c = some b') :
    ∃ new, b'.history = b.history ++ new ∧
      ∀ p, (b'.waits_for p).Subperm (b.waits_for p ++ enqueued p new) := by
  cases call_routed h with
  | sends new sends _ _ => exact ⟨new, sends.history, sends.waits_for⟩
  | joined connection_id p _ =>
    refine ⟨[], (List.append_nil _).symm, ?_⟩
    intro q
    rw [enqueued_nil, List.append_nil]
    unfold Behaviour.waits_for
    rw [Behaviour.established_queue]
    split
    · rename_i hq
      subst hq
      cases b.queue q with
      | none => exact List.nil_subperm
      | some s => exact List.Subperm.refl _
    · exact List.Subperm.refl _
  | left now draw p connection_id new sends _ _ =>
    obtain ⟨-, -, -, hhistory, -, -, -, -⟩ := Behaviour.disconnect_spec b p
    refine ⟨new, by rw [sends.history, hhistory], ?_⟩
    intro q
    apply (sends.waits_for q).trans
    rw [List.subperm_append_right]
    unfold Behaviour.waits_for
    rw [Behaviour.disconnect_queue]
    split
    · exact List.nil_subperm
    · exact List.Subperm.refl _
  | rpc clock draw source rpc invalid new sends _ _ => exact ⟨new, sends.history, sends.waits_for⟩

namespace Node

variable {n n' : Node P F}

omit [DecidableEq P] in
/-- A call reads nothing ahead. -/
theorem slots_after_call [DecidableEq P] (n : Node P F) (c : Call P) (p : P) :
    ((n.connections_after c).flatMap (·.slots_for p)).Sublist
      (n.connections.flatMap (·.slots_for p)) := by
  have hnew : ∀ connection : Connection P,
      connection.receiver = { priority_receiver := .new, non_priority_receiver := .new } →
      ((n.connections ++ [connection]).flatMap (·.slots_for p)).Sublist
        (n.connections.flatMap (·.slots_for p)) := by
    intro connection hreceiver
    have hnil : connection.slots_for p = [] := by
      unfold Connection.slots_for
      rw [hreceiver]
      exact ite_self _
    simp [hnil]
  cases c with
  | handle_established_inbound_connection connection_id peer_id => exact hnew _ rfl
  | handle_established_outbound_connection connection_id peer_id => exact hnew _ rfl
  | on_swarm_event now draw event =>
    cases event with
    | ConnectionClosed peer_id connection_id remaining_established =>
      exact List.filter_sublist.flatMap _
    | ConnectionEstablished peer_id => exact List.Sublist.refl _
    | Other => exact List.Sublist.refl _
  | publish now data => exact List.Sublist.refl _
  | on_connection_handler_event clock draw source event => exact List.Sublist.refl _
  | poll now draw redundancy_interval => exact List.Sublist.refl _

/-- A poll of the receiver of one connection takes what it gives out from what the node has for the
peer of the connection. -/
theorem hands_polled (hsound : n.Sound) {index : Nat}
    {poll : Receiver P → Sender P → Receiver P × Sender P}
    (out : Receiver P → Sender P → Option (RpcOut P))
    (hpoll : ∀ (r : Receiver P) q, r.Sound false q →
      r.Takes false q (out r q) (poll r q).1 (poll r q).2)
    (hstep : n.poll_receiver index poll = some n') :
    ∃ c q, n.connections[index]? = some c ∧ n.behaviour.queue c.peer_id = some q ∧
      n'.behaviour.history = n.behaviour.history ∧
      ∀ p, (n.hands p).Perm
        ((if c.peer_id = p then (out c.receiver q).toList else []) ++ n'.hands p) := by
  simp only [poll_receiver, Option.bind_eq_bind, Option.bind_eq_some_iff] at hstep
  obtain ⟨c, hc, q, hq, hstep⟩ := hstep
  cases hstep
  refine ⟨c, q, hc, hq, rfl, ?_⟩
  have htakes := hpoll c.receiver q (hsound c (List.mem_of_getElem? hc) q)
  obtain ⟨hlt, hget⟩ := List.getElem?_eq_some_iff.mp hc
  intro p
  -- the connection, and the others
  have hbefore := (List.getElem_cons_eraseIdx_perm hlt).symm.flatMap_right (·.slots_for p)
  rw [hget, List.flatMap_cons] at hbefore
  set c' : Connection P := { c with receiver := (poll c.receiver q).1 } with hc'
  have hlt' : index < (n.connections.set index c').length := by simpa using hlt
  have hafter := (List.getElem_cons_eraseIdx_perm hlt').symm.flatMap_right (·.slots_for p)
  rw [List.getElem_set_self, List.eraseIdx_set_eq, List.flatMap_cons] at hafter
  classical
  rw [List.perm_iff_count] at *
  intro rpc
  have h₁ := hbefore rpc
  have h₂ := hafter rpc
  unfold hands Behaviour.waits_for
  by_cases hp : c.peer_id = p
  · subst hp
    have h₃ := htakes.hands.count_eq rpc
    simp only [Behaviour.queue_set_queue_self, hq, Option.map_some, Option.getD_some,
      Connection.slots_for, hc', if_pos, List.count_append] at h₁ h₂ h₃ ⊢
    omega
  · have hne : p ≠ c.peer_id := fun h => hp h.symm
    simp only [Behaviour.queue_set_queue_ne hne, Connection.slots_for, hc', if_neg hp,
      List.nil_append, List.count_append] at h₁ h₂ ⊢
    omega

/-- What an operation sends to `p`, and what the node then has in its hands for `p`, it had in its
hands before, or a queue takes it now. -/
theorem hands_step [F64 F] [Schema] (hsound : n.Sound) {op : Op P} (v : P)
    (hstep : n.step op = some n') :
    ∃ new, n'.behaviour.history = n.behaviour.history ++ new ∧
      ∀ p, (n.sent_to v p op ++ n'.hands p).Subperm (n.hands p ++ enqueued p new) := by
  have hpolled : ∀ {index : Nat} {poll : Receiver P → Sender P → Receiver P × Sender P}
      (out : Receiver P → Sender P → Option (RpcOut P)),
      (∀ (r : Receiver P) q, r.Sound false q →
        r.Takes false q (out r q) (poll r q).1 (poll r q).2) →
      n.poll_receiver index poll = some n' → n.sent v op = none →
      ∃ new, n'.behaviour.history = n.behaviour.history ++ new ∧
        ∀ p, (n.sent_to v p op ++ n'.hands p).Subperm (n.hands p ++ enqueued p new) := by
    intro index poll out hpoll hstep hnone
    obtain ⟨c, q, -, -, hhistory, hhands⟩ := hands_polled hsound out hpoll hstep
    refine ⟨[], by rw [hhistory, List.append_nil], ?_⟩
    intro p
    unfold sent_to
    rw [hnone, enqueued_nil, List.append_nil]
    exact (List.sublist_append_right _ _).subperm.trans (hhands p).symm.subperm
  cases op with
  | call c =>
    obtain ⟨b', hcall, rfl⟩ := Option.map_eq_some_iff.mp hstep
    obtain ⟨new, hhistory, hwaits⟩ := call_waits_for hcall
    refine ⟨new, hhistory, ?_⟩
    intro p
    have hslots := (slots_after_call n c p).subperm
    have hboth := (hwaits p).append hslots
    refine List.Subperm.trans hboth (List.Perm.subperm ?_)
    unfold hands
    rw [List.append_assoc, List.append_assoc]
    exact List.perm_append_comm.append_left _
  | poll_next index =>
    obtain ⟨c, q, hc, hq, hhistory, hhands⟩ := hands_polled hsound
      (fun r q => Receiver.out (r.poll_next false q).1)
      (fun r q hsound => (Receiver.poll_next_spec hsound).1) hstep
    refine ⟨[], by rw [hhistory, List.append_nil], ?_⟩
    intro p
    rw [enqueued_nil, List.append_nil]
    refine (List.Perm.symm ?_).subperm
    have hsent : n.sent_to v p (.poll_next index) =
        if c.peer_id = p then (Receiver.out (c.receiver.poll_next false q).1).toList else [] := by
      unfold sent_to sent
      simp only [Option.bind_eq_bind, hc, hq, Option.bind_some]
      cases Receiver.out (c.receiver.poll_next false q).1 with
      | none => simp
      | some rpc => by_cases hp : c.peer_id = p <;> simp [hp]
    rw [hsent]
    exact hhands p
  | poll_stale index elapsed =>
    exact hpolled (fun r q => Receiver.out (r.poll_stale false elapsed q).1)
      (fun r q hsound => (Receiver.poll_stale_spec hsound).1) hstep rfl
  | poll_is_empty index =>
    exact hpolled (fun _ _ => none) (fun r q hsound => (Receiver.poll_is_empty_spec hsound).1)
      hstep rfl

end Node

end

end libp2p_dog
