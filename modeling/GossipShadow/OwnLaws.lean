-- Laws of a node's own transactions: when the user sees one, and what the
-- option deliver_own_transactions has to do with it.
import GossipShadow.PollLaws
import GossipShadow.ValidationLaws

namespace libp2p_dog

section

variable {P F : Type} [DecidableEq P]

/-- The event delivers a transaction of the author. -/
def Event.delivers_of (author : P) : Event P → Bool
  | TransactionReceived _ _ transaction => decide (transaction.from_ = author)
  | _ => false

omit [DecidableEq P] in
/-- The event delivers the transaction with the id. -/
def Event.delivers (tx_id : TransactionId) : Event P → Bool
  | TransactionReceived _ transaction_id _ => decide (transaction_id = tx_id)
  | _ => false

theorem Event.isReceived_of_delivers_of {author : P} {e : Event P}
    (h : e.delivers_of author = true) : e.isReceived = true := by
  cases e <;> first | rfl | cases h

omit [DecidableEq P] in
theorem Event.isReceived_of_delivers {tx_id : TransactionId} {e : Event P}
    (h : e.delivers tx_id = true) : e.isReceived = true := by
  cases e <;> first | rfl | cases h

variable [Libp2p P] [F64 F] [Schema]

/-! ## What a call delivers -/

namespace Behaviour

omit [F64 F] [Schema] in
/-- The author of what the node reads is the node itself. -/
def comes_home (b : Behaviour P F) (raw : RawTransaction P) : Bool :=
  match b.data_transform.inbound_transform raw with
  | .ok transaction => decide (transaction.from_ = b.own_id)
  | .error _ => false

/-- The events that a call pushes tell of each transaction that it handles and reads. -/
theorem generated_received (b : Behaviour P F) (c : Call P) :
    (b.generated c).filter (·.isReceived) =
      (b.receptions c).flatMap fun r => b.received_event r.1 r.2 := by
  cases hcall : b.call c with
  | none =>
    have hnone : b.generated c = [] := by
      unfold generated
      rw [hcall]
    cases c with
    | publish now data =>
      rw [hnone]
      rfl
    | handle_established_inbound_connection connection_id peer_id => cases hcall
    | handle_established_outbound_connection connection_id peer => cases hcall
    | on_swarm_event now draw event => cases hcall
    | on_connection_handler_event clock draw source event => cases hcall
    | poll now draw redundancy_interval => cases hcall
  | some b' =>
    obtain ⟨new, left, hevents, htells, hnew⟩ := call_tells hcall
    have hafter : b'.events = left ++ new := htells.events
    have hgenerated : b.generated c = new := by
      have hspec := generated_spec hcall
      rw [hevents, hafter, List.append_assoc] at hspec
      exact List.append_cancel_left (List.append_cancel_left hspec)
    rw [hgenerated, hnew]
    rfl

omit [DecidableEq P] [F64 F] [Schema] in
theorem countP_received (b : Behaviour P F) (tx_id : TransactionId)
    (received : List (P × RawTransaction P)) :
    (received.flatMap fun r => b.received_event r.1 r.2).countP (·.delivers tx_id) =
      received.countP fun r => decide (b.id_of r.2 = some tx_id) := by
  induction received with
  | nil => rfl
  | cons r received ih =>
    rw [List.flatMap_cons, List.countP_append, ih, List.countP_cons, Nat.add_comm]
    congr 1
    unfold received_event
    cases hread : b.data_transform.inbound_transform r.2 with
    | error e => simp [id_of_unread hread]
    | ok transaction => simp [id_of_read hread, Event.delivers]

omit [F64 F] [Schema] in
theorem any_received (b : Behaviour P F) (received : List (P × RawTransaction P)) :
    (received.flatMap fun r => b.received_event r.1 r.2).any (·.delivers_of b.own_id) =
      received.any fun r => b.comes_home r.2 := by
  induction received with
  | nil => rfl
  | cons r received ih =>
    rw [List.flatMap_cons, List.any_append, ih, List.any_cons]
    congr 1
    unfold received_event comes_home
    cases b.data_transform.inbound_transform r.2 with
    | error e => rfl
    | ok transaction => simp [Event.delivers_of]

end Behaviour

/-! ## What a run delivers -/

/-- The id of the transaction that a step publishes, when its answer is Ok. -/
def Node.published (n : Node P F) : Op P → Option TransactionId
  | .call (.publish now data) =>
    (n.behaviour.publish now data).bind fun answer => answer.1.toOption
  | _ => none

/-- Each transaction that is published, with what is seen from its publish on. -/
def Node.after_publishes {α : Type} (see : Node P F → Op P → List α) (n : Node P F) :
    List (Op P) → List (TransactionId × List α)
  | [] => []
  | op :: ops =>
    ((n.published op).toList.map fun tx_id =>
      (tx_id, Machine.observe Node.step see n (op :: ops))) ++
    match n.step op with
    | some n' => n'.after_publishes see ops
    | none => []

/-- The option decides whether the user sees the node's own transactions: none of them, or each one
once after it was published. -/
def Setup.HonoursOption (s : Setup P F) (ops : List (Op P)) : Prop :=
  if s.config.deliver_own_transactions then
    ∀ p ∈ s.node.after_publishes Node.generated ops, p.2.countP (·.delivers p.1) = 1
  else ∀ e ∈ Machine.observe Node.step Node.generated s.node ops,
    e.delivers_of s.behaviour.own_id = false

/-- No transaction of the node comes back to it, or each one does once after it was published. -/
def Setup.EchoesFit (s : Setup P F) (ops : List (Op P)) : Prop :=
  if s.config.deliver_own_transactions then
    ∀ p ∈ s.node.after_publishes Node.receptions ops,
      p.2.countP (fun r => decide (s.behaviour.id_of r.2 = some p.1)) = 1
  else ∀ r ∈ s.receptions ops, s.behaviour.comes_home r.2 = false

theorem step_fixed {n n' : Node P F} {op : Op P} (h : n.step op = some n') :
    Fixed n.behaviour n'.behaviour := by
  cases Node.step_cases h with
  | called c b' call => exact call_fixed call
  | polled peers _ _ same =>
    rw [same]
    exact ⟨rfl, rfl, rfl⟩

theorem step_received (n : Node P F) (op : Op P) :
    (n.generated op).filter (·.isReceived) =
      (n.receptions op).flatMap fun r => n.behaviour.received_event r.1 r.2 := by
  cases op with
  | call c => exact Behaviour.generated_received n.behaviour c
  | poll_next index => rfl
  | poll_stale index elapsed => rfl
  | poll_is_empty index => rfl

/-- The TransactionReceived events from some state on: one for each transaction that is handled and
can be read. -/
theorem received_from {b : Behaviour P F} {n : Node P F} (h : Fixed b n.behaviour)
    (ops : List (Op P)) :
    (Machine.observe Node.step Node.generated n ops).filter (·.isReceived) =
      (Machine.observe Node.step Node.receptions n ops).flatMap fun r =>
        b.received_event r.1 r.2 := by
  induction ops generalizing n with
  | nil => rfl
  | cons op ops ih =>
    have hevent : n.behaviour.received_event = b.received_event := by
      funext source raw
      unfold Behaviour.received_event
      rw [h.config, h.data_transform]
    unfold Machine.observe
    rw [List.filter_append, List.flatMap_append, step_received, hevent]
    congr 1
    cases hstep : n.step op with
    | none => rfl
    | some n' => exact ih (h.trans (step_fixed hstep))

theorem delivered_from {b : Behaviour P F} {n : Node P F} (h : Fixed b n.behaviour)
    (tx_id : TransactionId) (ops : List (Op P)) :
    (Machine.observe Node.step Node.generated n ops).countP (·.delivers tx_id) =
      (Machine.observe Node.step Node.receptions n ops).countP fun r =>
        decide (b.id_of r.2 = some tx_id) := by
  rw [← b.countP_received, ← received_from h ops, List.countP_filter]
  apply List.countP_congr
  intro e _
  rw [Bool.and_eq_true]
  constructor
  · intro he
    exact ⟨he, Event.isReceived_of_delivers he⟩
  · exact fun he => he.1

/-- What follows a publish: as many deliveries of its transaction as copies of it come in. -/
theorem after_publishes_iff {b : Behaviour P F} {n : Node P F} (h : Fixed b n.behaviour)
    (ops : List (Op P)) :
    (∀ p ∈ n.after_publishes Node.generated ops, p.2.countP (·.delivers p.1) = 1) ↔
      ∀ p ∈ n.after_publishes Node.receptions ops,
        p.2.countP (fun r => decide (b.id_of r.2 = some p.1)) = 1 := by
  induction ops generalizing n with
  | nil => simp [Node.after_publishes]
  | cons op ops ih =>
    unfold Node.after_publishes
    rw [List.forall_mem_append, List.forall_mem_append]
    refine and_congr ?_ ?_
    · simp only [List.forall_mem_map, delivered_from h]
    · cases hstep : n.step op with
      | none => simp
      | some n' => exact ih (h.trans (step_fixed hstep))

/-- No code reads the option: the node honours it exactly when what comes back to it fits it. -/
theorem the_option_is_honoured_iff (s : Setup P F) (ops : List (Op P)) :
    s.HonoursOption ops ↔ s.EchoesFit ops := by
  have hfixed : Fixed s.behaviour s.node.behaviour := ⟨rfl, rfl, rfl⟩
  unfold Setup.HonoursOption Setup.EchoesFit
  split
  · exact after_publishes_iff hfixed ops
  · have hany : (Machine.observe Node.step Node.generated s.node ops).any
        (·.delivers_of s.behaviour.own_id) =
          (s.receptions ops).any fun r => s.behaviour.comes_home r.2 := by
      unfold Setup.receptions
      rw [← Behaviour.any_received, ← received_from hfixed ops, List.any_filter]
      congr 1
      funext e
      cases he : e.delivers_of s.behaviour.own_id with
      | false => simp
      | true => simp [Event.isReceived_of_delivers_of he]
    have hall := congrArg (· = false) hany
    simpa only [List.any_eq_false, Bool.not_eq_true] using iff_of_eq hall

end

namespace Sample

/-- A node, with a value of the option. -/
def delivering (deliver_own_transactions : Bool) : Setup Peer Rat :=
  { setup 0 with config := { (setup 0).config with deliver_own_transactions } }

end Sample

/-- With the option off, a peer sends a transaction of the node back to it. With the option on, no
peer does, and the user never sees it. -/
theorem no_value_of_the_option_is_honoured :
    (¬ ∀ (n : Node Sample.Peer Rat) (ops : List (Op Sample.Peer)),
      (Sample.delivering false).machine.Run (Sample.delivering false).node ops n →
        (Sample.delivering false).HonoursOption ops) ∧
    ¬ ∀ (n : Node Sample.Peer Rat) (ops : List (Op Sample.Peer)),
      (Sample.delivering true).machine.Run (Sample.delivering true).node ops n →
        (Sample.delivering true).HonoursOption ops := by
  constructor
  · intro hclaim
    have hrun : (Machine.exec Node.step (Sample.delivering false).node
        [Sample.connect 1, .call (.publish 0 [0]), Sample.deliver 1 [Sample.raw 0 1] []]).map
        (fun n => n.behaviour.events.length) = some 3 := by decide +kernel
    have hgenerated : (Machine.observe Node.step Node.generated (Sample.delivering false).node
        [Sample.connect 1, .call (.publish 0 [0]), Sample.deliver 1 [Sample.raw 0 1] []]).any
        (·.delivers_of (Sample.delivering false).behaviour.own_id) = true := by decide +kernel
    obtain ⟨n, hn, -⟩ := Machine.exists_run_of_exec hrun
    have hnone := hclaim n _ hn
    obtain ⟨e, he, hown⟩ := List.any_eq_true.mp hgenerated
    have hclean : e.delivers_of (Sample.delivering false).behaviour.own_id = false := hnone e he
    rw [hclean] at hown
    cases hown
  · intro hclaim
    have hrun : (Machine.exec Node.step (Sample.delivering true).node
        [Sample.connect 1, .call (.publish 0 [0])]).map
        (fun n => n.behaviour.events.length) = some 1 := by decide +kernel
    have hafter : ((Sample.delivering true).node.after_publishes Node.generated
        [Sample.connect 1, .call (.publish 0 [0])]).map
        (fun p => (p.1, p.2.countP (·.delivers p.1))) = [(Sample.tx_id 0 1, 0)] := by decide +kernel
    obtain ⟨n, hn, -⟩ := Machine.exists_run_of_exec hrun
    have hone := hclaim n _ hn
    obtain ⟨p, hp, heq⟩ := List.mem_map.mp (hafter ▸ List.mem_singleton_self (Sample.tx_id 0 1, 0))
    have hcount : p.2.countP (·.delivers p.1) = 1 := hone p hp
    rw [hcount] at heq
    cases (Prod.mk.inj heq).2

end libp2p_dog
