-- What goes over the links of an overlay: a node is told of no more copies of
-- a transaction from a peer than the peer was told to have sent to it. The rest
-- is on its way, or it is lost.
import GossipShadow.Labels
import GossipShadow.MetricsLaws
import GossipShadow.Parts

namespace libp2p_dog

section

variable {P F : Type} [Libp2p P] [DecidableEq P]

/-- The event tells of the transaction received from `p`. -/
def Event.received_from (p : P) (tx_id : TransactionId) : Event P → Bool
  | TransactionReceived propagation_source transaction_id _ =>
    decide (propagation_source = p) && decide (transaction_id = tx_id)
  | _ => false

/-- The event tells of the transaction sent to `p`. -/
def Event.sent_to (p : P) (tx_id : TransactionId) : Event P → Bool
  | TransactionSent propagation_target transaction_id _ =>
    decide (propagation_target = p) && decide (transaction_id = tx_id)
  | _ => false

omit [Libp2p P] in
theorem Event.isReceived_of_received_from {p : P} {tx_id : TransactionId} {e : Event P}
    (h : e.received_from p tx_id = true) : e.isReceived = true := by
  cases e <;> first | rfl | cases h

variable [F64 F] [Schema]

/-! ## What is on its way -/

namespace Overlay

variable {o : Overlay P F} {n n' : OverlayState P F}

/-- The id of a transaction as it travels. -/
def id_of (o : Overlay P F) (raw : RawTransaction P) : Option TransactionId :=
  o.data_transform.id_of o.transaction_id_fn raw

/-- The RPC carries the transaction with the id. -/
def carries (o : Overlay P F) (id : TransactionId) (rpc : RpcOut P) : Bool :=
  rpc.tx?.any fun raw => decide (o.id_of raw = some id)

/-- The packet is a copy of the transaction, on its way from `v` to `w`. -/
def copies (o : Overlay P F) (v w : P) (id : TransactionId) (packet : Packet P) : Bool :=
  decide (packet.sender = v) && decide (packet.recipient = w) && o.carries id packet.rpc

/-- A copy of the transaction has arrived from `v`. -/
def arrives_from (o : Overlay P F) (v : P) (id : TransactionId) (r : P × RawTransaction P) : Bool :=
  decide (r.1 = v) && decide (o.id_of r.2 = some id)

/-- The packet goes from `v` to `w`, and its RPC passes the test. -/
def goes (v w : P) (test : RpcOut P → Bool) (packet : Packet P) : Bool :=
  decide (packet.sender = v) && decide (packet.recipient = w) && test packet.rpc

/-- The packet that arrives in a step. -/
def arrivals (n : OverlayState P F) : OverlayOp P → List (Packet P)
  | .deliver index _ _ _ => n.air[index]?.toList
  | _ => []

/-- The packets that arrive in a run, in order. -/
def delivered (o : Overlay P F) (ops : List (OverlayOp P)) : List (Packet P) :=
  Machine.observe o.step arrivals o.initial ops

/-- What has left `v` for `w`: the RPCs that arrived at `w`, those in the air, and those in the
hands of `v` are no more than the queues took, of each kind. -/
def Flows (v w : P) (test : RpcOut P → Bool) (delivered : List (Packet P))
    (n : OverlayState P F) : Prop :=
  delivered.countP (goes v w test) + n.air.countP (goes v w test) +
      ((n.node v).hands w).countP test ≤
    (enqueued w (n.node v).behaviour.history).countP test

omit [F64 F] [Schema] in
/-- What a node sends is in the air, under its name. -/
theorem countP_sent (m : Node P F) (u v w : P) (test : RpcOut P → Bool) (op : Op P) :
    (m.sent u op).toList.countP (goes v w test) =
      if u = v then (m.sent_to u w op).countP test else 0 := by
  have hsender : ∀ packet, m.sent u op = some packet → packet.sender = u := by
    intro packet hpacket
    cases op with
    | poll_next index =>
      simp only [Node.sent, Option.bind_eq_bind, Option.bind_eq_some_iff] at hpacket
      obtain ⟨c, -, q, -, rpc, -, hpacket⟩ := hpacket
      cases hpacket
      rfl
    | call c => cases hpacket
    | poll_stale index elapsed => cases hpacket
    | poll_is_empty index => cases hpacket
  unfold Node.sent_to
  cases hsent : m.sent u op with
  | none => simp
  | some packet =>
    have hu := hsender packet hsent
    by_cases huv : u = v
    · by_cases hw : packet.recipient = w
      · simp [goes, hu, huv, hw]
      · simp [goes, huv, hw]
    · simp [goes, hu, huv]

omit [F64 F] [Schema] [DecidableEq P] in
theorem countP_air {index : Nat} {packet : Packet P} (hpacket : n.air[index]? = some packet)
    (p : Packet P → Bool) :
    n.air.countP p = (n.air.eraseIdx index).countP p + if p packet then 1 else 0 := by
  obtain ⟨hlt, rfl⟩ := List.getElem?_eq_some_iff.mp hpacket
  rw [← (List.getElem_cons_eraseIdx_perm hlt).countP_eq p, List.countP_cons]

/-- A node steps: what it has in its hands for `w` and what it sends to `w`, it had before, or its
queues take it now. -/
theorem hands_step (hsound : ∀ v, (n.node v).Sound) {u : P} {op : Op P} {node : Node P F}
    (hstep : (n.node u).step op = some node) (v w : P) (test : RpcOut P → Bool) :
    (if u = v then ((n.node u).sent_to u w op).countP test else 0) +
        ((Function.update n.node u node v).hands w).countP test +
        (enqueued w (n.node v).behaviour.history).countP test ≤
      ((n.node v).hands w).countP test +
        (enqueued w (Function.update n.node u node v).behaviour.history).countP test := by
  by_cases hu : u = v
  · subst hu
    obtain ⟨new, hhistory, hhands⟩ := Node.hands_step (hsound u) u hstep
    have hcount := (hhands w).countP_le test
    rw [Function.update_self, if_pos rfl, hhistory, enqueued_append]
    simp only [List.countP_append] at hcount ⊢
    omega
  · rw [Function.update_of_ne (Ne.symm hu), if_neg hu]
    omega

theorem Flows.step {v w : P} {test : RpcOut P → Bool} {delivered : List (Packet P)}
    (h : Flows v w test delivered n) (hsound : ∀ v, (n.node v).Sound) {op : OverlayOp P}
    (hstep : o.step n op = some n') : Flows v w test (delivered ++ arrivals n op) n' := by
  unfold Flows at h ⊢
  rw [List.countP_append]
  cases step_cases hstep with
  | acted u op node _ own step =>
    have hhands := hands_step hsound step v w test
    have hnone : arrivals n (.act u op) = [] := rfl
    rw [hnone, List.countP_append, countP_sent]
    simp only [List.countP_nil]
    omega
  | delivered index now draw valid packet node there _ step =>
    have hhands := hands_step hsound step v w test
    have hair := countP_air there (goes v w test)
    -- what arrives was in the air
    have harrived : arrivals n (.deliver index now draw valid) = [packet] := by
      simp [arrivals, there]
    rw [harrived, List.countP_singleton]
    simp only at hhands ⊢
    omega
  | lost index =>
    have hair : (n.air.eraseIdx index).countP (goes v w test) ≤
        n.air.countP (goes v w test) := (List.eraseIdx_sublist _ _).countP_le
    have hnone : arrivals n (.lose index) = [] := rfl
    rw [hnone]
    simp only [List.countP_nil]
    omega

theorem flows_of_run {ops : List (OverlayOp P)} (hrun : o.machine.Run o.initial ops n) (v w : P)
    (test : RpcOut P → Bool) : Flows v w test (o.delivered ops) n := by
  unfold delivered
  induction hrun with
  | nil => exact Nat.le_refl 0
  | snoc hrun hstep ih =>
    rw [Machine.observe_snoc arrivals hrun]
    exact ih.step (sound_in_run hrun) hstep

/-- What a node handles of a transaction has arrived. -/
theorem received_le_delivered {ops : List (OverlayOp P)} (hrun : o.machine.Run o.initial ops n)
    (v w : P) (id : TransactionId) :
    (o.received w ops).countP (o.arrives_from v id) ≤
      (o.delivered ops).countP (o.copies v w id) := by
  rw [received_eq hrun]
  unfold delivered
  induction hrun with
  | nil => exact Nat.le_refl 0
  | @snoc m m' ops op hrun hstep ih =>
    rw [Machine.observe_snoc _ hrun, Machine.observe_snoc arrivals hrun, List.countP_append,
      List.countP_append]
    apply Nat.add_le_add ih
    rcases receptions_cases hstep w with
      hnone | ⟨_, _, _, _, packet, raw, rfl, there, hw, hraw, hone⟩
    · rw [hnone]
      exact Nat.zero_le _
    · have harrived : ∀ index now draw valid, m.air[index]? = some packet →
          arrivals m (.deliver index now draw valid) = [packet] := by
        intro index now draw valid there
        simp [arrivals, there]
      rw [hone, harrived _ _ _ _ there]
      simp [arrives_from, copies, carries, hraw, hw]

/-- The copies of a transaction on a link: those that `w` handled, those in the air, and those in
the hands of `v` are no more than the queues took. -/
theorem copies_of_run {ops : List (OverlayOp P)} (hrun : o.machine.Run o.initial ops n) (v w : P)
    (id : TransactionId) :
    (o.received w ops).countP (o.arrives_from v id) + n.air.countP (o.copies v w id) +
        ((n.node v).hands w).countP (o.carries id) ≤
      (enqueued w (n.node v).behaviour.history).countP (o.carries id) := by
  have hflows : (o.delivered ops).countP (o.copies v w id) + n.air.countP (o.copies v w id) +
      ((n.node v).hands w).countP (o.carries id) ≤
      (enqueued w (n.node v).behaviour.history).countP (o.carries id) :=
    flows_of_run hrun v w (o.carries id)
  have hreceived := received_le_delivered hrun v w id
  omega

/-! ## What the users are told -/

omit [F64 F] [Schema] in
/-- The events tell of each transaction that arrives and can be read. -/
theorem countP_received_from {b : Behaviour P F} (hid : ∀ raw, b.id_of raw = o.id_of raw) (v : P)
    (id : TransactionId) (received : List (P × RawTransaction P)) :
    (received.flatMap fun r => b.received_event r.1 r.2).countP (·.received_from v id) =
      received.countP (o.arrives_from v id) := by
  induction received with
  | nil => rfl
  | cons r received ih =>
    rw [List.flatMap_cons, List.countP_append, ih, List.countP_cons, Nat.add_comm]
    congr 1
    unfold Behaviour.received_event arrives_from
    rw [← hid]
    cases hread : b.data_transform.inbound_transform r.2 with
    | error e => simp [Behaviour.id_of_unread hread]
    | ok transaction => simp [Behaviour.id_of_read hread, Event.received_from]

theorem told_received {ops : List (OverlayOp P)} (hrun : o.machine.Run o.initial ops n) (v w : P)
    (id : TransactionId) :
    (o.told w ops).countP (·.received_from v id) =
      (o.received w ops).countP (o.arrives_from v id) := by
  have hpart := run_part hrun w
  have hid : ∀ raw, (o.setup w).behaviour.id_of raw = o.id_of raw := by
    intro raw
    exact congrArg (fun f => o.data_transform.id_of f raw) (o.agree w)
  have hevents := received_events_of_run hpart
  rw [← generated_of_run hpart] at hevents
  unfold received
  rw [← countP_received_from hid, ← hevents, List.countP_filter]
  apply List.countP_congr
  intro e _
  rw [Bool.and_eq_true]
  constructor
  · intro he
    exact ⟨he, Event.isReceived_of_received_from he⟩
  · exact fun he => he.1

omit [F64 F] [Schema] in
/-- Of labelled attempts, those that the queue of `w` took for the transaction. -/
theorem countP_enqueued {w : P} {id : TransactionId} {attempts : List (Attempt P)}
    (hlabels : ∀ a ∈ attempts, ∀ raw, a.rpc.tx? = some raw → a.tx_id = o.id_of raw) :
    (enqueued w attempts).countP (o.carries id) =
      (attempts.filterMap (·.sent?)).count (w, some id) := by
  induction attempts with
  | nil => rfl
  | cons a attempts ih =>
    have hrest := ih fun a' ha' => hlabels a' (List.mem_cons_of_mem _ ha')
    have hone : enqueued w (a :: attempts) = enqueued w [a] ++ enqueued w attempts :=
      enqueued_append w [a] attempts
    have hsent : (a :: attempts).filterMap (·.sent?) =
        [a].filterMap (·.sent?) ++ attempts.filterMap (·.sent?) :=
      List.filterMap_append (l := [a])
    rw [hone, hsent, List.countP_append, List.count_append, hrest]
    congr 1
    have hlabel := hlabels a List.mem_cons_self
    unfold enqueued carries Attempt.sent? Attempt.has_transaction
    cases htx : a.rpc.tx? with
    | none => by_cases hp : a.peer = w <;> cases hacc : a.accepted <;> simp [hp, hacc, htx]
    | some raw =>
      rw [htx] at hlabel
      have hid := hlabel raw rfl
      by_cases hp : a.peer = w <;> cases hacc : a.accepted <;>
        simp [hp, hacc, htx, hid, List.count_cons]

/-- The users of `v` are told of each transaction that a queue took. -/
theorem told_sent_of_history {ops : List (OverlayOp P)} (hrun : o.machine.Run o.initial ops n)
    (v w : P) (id : TransactionId) :
    (o.told v ops).countP (·.sent_to w id) =
      ((n.node v).behaviour.history.filterMap (·.sent?)).count (w, some id) := by
  have hpart := run_part hrun v
  have hbooked := (booked_of_run hpart).events
  rw [← hbooked]
  have htold : o.told v ops =
      Machine.observe Node.step Node.emitted (o.setup v).node (o.part v ops) ++
      (n.node v).behaviour.events := generated_of_run hpart
  rw [htold]
  generalize Machine.observe Node.step Node.emitted (o.setup v).node (o.part v ops) ++
    (n.node v).behaviour.events = events
  rw [List.count_filterMap]
  apply List.countP_congr
  intro e _
  cases e <;> simp [Event.sent?, Event.sent_to]

theorem told_sent {ops : List (OverlayOp P)} (hrun : o.machine.Run o.initial ops n) (v w : P)
    (id : TransactionId) :
    (o.told v ops).countP (·.sent_to w id) =
      (enqueued w (n.node v).behaviour.history).countP (o.carries id) := by
  have hlabels : ∀ a ∈ (n.node v).behaviour.history, ∀ raw, a.rpc.tx? = some raw →
      a.tx_id = o.id_of raw := by
    intro a ha raw hraw
    rw [labelled_of_run o.lawful (run_part hrun v) a ha raw hraw]
    exact congrArg (fun f => o.data_transform.id_of f raw) (o.agree v)
  rw [countP_enqueued hlabels, told_sent_of_history hrun]

end Overlay

/-- In an overlay of honest nodes, whatever they do, whichever connections come and go and whatever
is lost: the copies of a transaction that `w` was told to have received from `v`, those in the air
from `v` to `w` and those in the hands of `v` for `w` are together no more than `v` was told to have
sent to `w`. -/
theorem no_more_is_received_than_was_sent {o : Overlay P F} {n : OverlayState P F}
    {ops : List (OverlayOp P)} (hrun : o.machine.Run o.initial ops n) (v w : P)
    (id : TransactionId) :
    (o.told w ops).countP (·.received_from v id) + n.air.countP (o.copies v w id) +
        ((n.node v).hands w).countP (o.carries id) ≤
      (o.told v ops).countP (·.sent_to w id) := by
  rw [Overlay.told_received hrun, Overlay.told_sent hrun]
  exact Overlay.copies_of_run hrun v w id

end

/-- Of the two copies that node 0 sends, one arrives and one is lost. -/
theorem one_copy_arrives_in_two_hops :
    let o := Sample.overlay [⟨0⟩, ⟨1⟩, ⟨2⟩]
    ∃ n, o.machine.Run o.initial Sample.two_hops n ∧
      (o.told ⟨2⟩ Sample.two_hops).countP (·.received_from ⟨1⟩ (Sample.tx_id 0 1)) = 1 ∧
      (o.told ⟨2⟩ Sample.two_hops).countP (·.received_from ⟨1⟩ (Sample.tx_id 0 1)) +
          n.air.countP (o.copies ⟨1⟩ ⟨2⟩ (Sample.tx_id 0 1)) +
          ((n.node ⟨1⟩).hands ⟨2⟩).countP (o.carries (Sample.tx_id 0 1)) ≤
        (o.told ⟨1⟩ Sample.two_hops).countP (·.sent_to ⟨2⟩ (Sample.tx_id 0 1)) := by
  intro o
  have hexec : (Machine.exec o.step o.initial Sample.two_hops).map (fun _ =>
      (o.told ⟨2⟩ Sample.two_hops).countP (·.received_from ⟨1⟩ (Sample.tx_id 0 1))) =
      some 1 := by decide +kernel
  obtain ⟨n, hrun, htold⟩ := Machine.exists_run_of_exec hexec
  exact ⟨n, hrun, htold, no_more_is_received_than_was_sent hrun _ _ _⟩

end libp2p_dog
