-- Laws of the HaveTx that a node sends: how often it sends one, and whether it
-- ever asks the peer that a transaction came from.
import GossipShadow.Lib.Latch
import GossipShadow.Acceptance
import GossipShadow.RedundancyLaws

namespace libp2p_dog

/-! ## What the HaveTx of a node turn on -/

/-- What happens to the redundancy controller, in its order. A HaveTx that is put in a queue is
noted with the source that the node has in its cache for the id. -/
inductive Mark (P : Type) where
  | first_time
  | duplicate
  | have_tx (peer : P) (tx_id : TransactionId) (source : Option P)
  | adjusted
deriving DecidableEq, Repr

section

variable {P F : Type}

def Mark.have_tx? : Mark P → Option (P × TransactionId)
  | have_tx peer tx_id _ => some (peer, tx_id)
  | _ => none

/-- The HaveTx of an attempt that a queue accepted. -/
def Attempt.have_tx? (a : Attempt P) : Option (P × TransactionId) :=
  match a.rpc with
  | .HaveTx have_tx => if a.accepted then some (a.peer, have_tx.tx_id) else none
  | _ => none

variable [F64 F]

def Controller.mark (c : Controller F) : Mark P → Controller F
  | .first_time => c.incr_first_time_txs_count
  | .duplicate => c.incr_duplicate_txs_count
  | .have_tx _ _ _ => c.block_have_tx
  | .adjusted => c.evaluate.2.reset_counters

/-- Each HaveTx finds the controller unblocked. -/
def Controller.Permits : Controller F → List (Mark P) → Prop
  | _, [] => True
  | c, m :: marks => (m.have_tx?.isSome = true → c.is_have_tx_blocked = false) ∧
    (c.mark m).Permits marks

theorem Controller.permits_append {c : Controller F} {marks marks' : List (Mark P)} :
    c.Permits (marks ++ marks') ↔ c.Permits marks ∧ (marks.foldl mark c).Permits marks' := by
  induction marks generalizing c with
  | nil => simp [Permits]
  | cons m marks ih => simp only [List.cons_append, Permits, ih, and_assoc, List.foldl_cons]

variable [Libp2p P] [DecidableEq P] [Schema]

namespace Behaviour

/-- The HaveTx that were put in a queue so far. -/
def have_txs (b : Behaviour P F) : List (P × TransactionId) := b.history.filterMap (·.have_tx?)

/-- Whether a duplicate from `source` is answered with a HaveTx. -/
def answers (b : Behaviour P F) (source : P) : Bool :=
  b.config.send_have_tx && !b.redundancy_controller.is_have_tx_blocked &&
    decide (source ∈ b.connected_peers)

/-- What a received transaction notes. -/
def received_marks (b : Behaviour P F) (now : Nat) (raw : RawTransaction P) (source : P) :
    List (Mark P) :=
  match b.data_transform.inbound_transform raw with
  | .error _ => []
  | .ok transaction =>
    let tx_id := b.config.transaction_id transaction
    if (b.cache.insert now tx_id source).1 then [.first_time]
    else if b.answers source then
      [.duplicate, .have_tx source tx_id
        ((b.handle_received_transaction now raw source).cache.get tx_id)]
    else [.duplicate]

/-- What the transactions of an RPC note, one after the other. -/
def transactions_marks (b : Behaviour P F) (clock : Nat → Nat) (source : P) :
    Nat → List (RawTransaction P) → List (Mark P)
  | _, [] => []
  | count, raw :: rest =>
    if b.config.max_transactions_per_rpc.any (fun max => decide (count ≥ max)) then []
    else b.received_marks (clock count) raw source ++
      (b.handle_received_transaction (clock count) raw source).transactions_marks clock source
        (count + 1) rest

def call_marks (b : Behaviour P F) : Call P → List (Mark P)
  | .on_connection_handler_event clock _ source (.Transaction rpc _) =>
    b.transactions_marks clock source 0 rpc.transactions
  | .on_swarm_event _ _ (.ConnectionClosed _ _ 0) => [.adjusted]
  | .poll _ _ true => if b.events.isEmpty then [.adjusted] else []
  | _ => []

end Behaviour

def Node.marks (n : Node P F) (op : Op P) : List (Mark P) := op.on_call n.behaviour.call_marks

/-- What a run notes. -/
def Setup.marks (s : Setup P F) (ops : List (Op P)) : List (Mark P) :=
  Machine.observe Node.step Node.marks s.node ops

/-- `b'` is `b` after what the marks note: they tell what the controller did and which HaveTx were
put in a queue. -/
structure Marked (b : Behaviour P F) (marks : List (Mark P)) (b' : Behaviour P F) : Prop where
  controller : b'.redundancy_controller = marks.foldl Controller.mark b.redundancy_controller
  have_txs : b'.have_txs = b.have_txs ++ marks.filterMap (·.have_tx?)
  permits : b.redundancy_controller.Permits marks

omit [DecidableEq P] [Schema] in
theorem Marked.trans {b b' b'' : Behaviour P F} {marks marks' : List (Mark P)}
    (h : Marked b marks b') (h' : Marked b' marks' b'') : Marked b (marks ++ marks') b'' := by
  refine ⟨?_, ?_, ?_⟩
  · rw [List.foldl_append, ← h.controller, h'.controller]
  · rw [List.filterMap_append, ← List.append_assoc, ← h.have_txs, h'.have_txs]
  · rw [Controller.permits_append, ← h.controller]
    exact ⟨h.permits, h'.permits⟩

omit [Schema] in
/-- Nothing to note: the controller is as it was, and no HaveTx is among the attempts. -/
theorem Marked.none {b b' : Behaviour P F} {new : List (Attempt P)} (hsends : Sends b new b')
    (hnew : ∀ a ∈ new, a.have_tx? = .none)
    (hcontroller : b'.redundancy_controller = b.redundancy_controller) : Marked b [] b' := by
  refine ⟨hcontroller, ?_, trivial⟩
  have hnil : new.filterMap (·.have_tx?) = [] := List.filterMap_eq_nil_iff.mpr hnew
  rw [Behaviour.have_txs, hsends.history, List.filterMap_append, hnil]
  rfl

omit [Schema] in
theorem Marked.quiet {b b' : Behaviour P F} (hsends : Sends b [] b')
    (hcontroller : b'.redundancy_controller = b.redundancy_controller) : Marked b [] b' :=
  .none hsends (by simp) hcontroller

omit [Schema] in
theorem Marked.refl (b : Behaviour P F) : Marked b [] b := .quiet (Sends.refl b) rfl

omit [DecidableEq P] [Schema] in
theorem Marked.trans_none {b b' b'' : Behaviour P F} {marks : List (Mark P)} (h : Marked b marks b')
    (h' : Marked b' [] b'') : Marked b marks b'' := by simpa using h.trans h'

omit [DecidableEq P] [Schema] in
theorem Marked.none_trans {b b' b'' : Behaviour P F} {marks : List (Mark P)} (h : Marked b [] b')
    (h' : Marked b' marks b'') : Marked b marks b'' := by simpa using h.trans h'

omit [Libp2p P] [DecidableEq P] [F64 F] [Schema] in
theorem Spread.no_have_tx {now : Nat} {tx_id : TransactionId} {rpc : RpcOut P} {peers : List P}
    {new : List (Attempt P)} (h : Spread now tx_id rpc peers new) (hrpc : rpc.tx?.isSome = true) :
    ∀ a ∈ new, a.have_tx? = .none := by
  intro a ha
  unfold Attempt.have_tx?
  rw [(h.all a ha).2.2]
  cases rpc with
  | Publish tx timeout => rfl
  | Forward tx timeout => rfl
  | HaveTx have_tx => cases hrpc
  | ResetRoute reset_route => cases hrpc

/-! ## The calls, one by one -/

namespace Behaviour

omit [F64 F] in
@[simp] theorem send_controller (b : Behaviour P F) (now : Nat) (tx_id : Option TransactionId)
    (p : P) (rpc : RpcOut P) :
    (b.send now tx_id p rpc).2.redundancy_controller = b.redundancy_controller := by
  rcases send_transaction_cases b p rpc with ⟨_, _, _, _, _, he⟩ | ⟨_, _, he⟩ <;> simp [send, he]

omit [F64 F] in
@[simp] theorem send_to_each_controller (b : Behaviour P F) (now : Nat) (tx_id : TransactionId)
    (transaction : Transaction P) (rpc : RpcOut P) (peers : List P) :
    (b.send_to_each now tx_id transaction rpc peers).2.redundancy_controller =
      b.redundancy_controller := by
  induction peers generalizing b with
  | nil => rfl
  | cons p peers ih =>
    simp only [send_to_each, ih]
    split
    · exact send_controller b now (some tx_id) p rpc
    · exact send_controller b now (some tx_id) p rpc

omit [F64 F] in
theorem publish_new_controller (b : Behaviour P F) (now : Nat) (raw : RawTransaction P)
    (transaction : Transaction P) (tx_id : TransactionId) :
    (b.publish_new now raw transaction tx_id).2.redundancy_controller =
      b.redundancy_controller := by
  unfold publish_new
  dsimp only
  split
  · exact send_to_each_controller _ _ _ _ _ _
  · split
    · exact send_to_each_controller _ _ _ _ _ _
    · exact send_to_each_controller _ _ _ _ _ _

omit [F64 F] in
theorem publish_controller {b b' : Behaviour P F} {now : Nat} {data : Bytes}
    {answer : Except PublishError TransactionId} (h : b.publish now data = some (answer, b')) :
    b'.redundancy_controller = b.redundancy_controller := by
  unfold publish at h
  split at h
  · cases h
    rfl
  · split at h
    · cases h
      rfl
    · obtain ⟨⟨built, config⟩, -, hres⟩ := Option.map_eq_some_iff.mp h
      cases built with
      | error e =>
        cases hres
        rfl
      | ok raw =>
        simp only [publish_built] at hres
        split at hres
        · cases hres
          rfl
        · have hnew := publish_new_controller { b with publish_config := config } now raw
            { from_ := raw.from_, seqno := raw.seqno, data }
            (b.config.transaction_id { from_ := raw.from_, seqno := raw.seqno, data })
          rwa [hres] at hnew

theorem publish_marked {b b' : Behaviour P F} {now : Nat} {data : Bytes}
    {answer : Except PublishError TransactionId} (h : b.publish now data = some (answer, b')) :
    Marked b [] b' := by
  have hcontroller := publish_controller h
  cases publish_spec h with
  | refused e _ sends _ _ => exact .quiet sends hcontroller
  | taken raw tx_id new _ _ _ _ _ _ sends spread _ _ =>
    exact .none sends (spread.no_have_tx rfl) hcontroller

omit [F64 F] in
theorem send_reset_route_controller (b : Behaviour P F) (now draw : Nat) :
    (b.send_reset_route now draw).redundancy_controller = b.redundancy_controller := by
  unfold send_reset_route
  split
  · rfl
  · dsimp only
    split
    · exact send_controller b now none _ _
    · exact send_controller b now none _ _

theorem adjust_redundancy_marked (b : Behaviour P F) (now draw : Nat) :
    Marked b [.adjusted] (b.adjust_redundancy now draw) := by
  refine ⟨?_, ?_, ?_⟩
  · unfold adjust_redundancy
    dsimp only
    split
    · rw [with_metrics_controller, send_reset_route_controller]
      rfl
    · rfl
  · have hnil : ∀ new : List (Attempt P), Sends b new (b.adjust_redundancy now draw) →
        (∀ a ∈ new, a.have_tx? = none) →
        (b.adjust_redundancy now draw).have_txs = b.have_txs ++ [] := by
      intro new hsends hnew
      have hnil : new.filterMap (·.have_tx?) = [] := List.filterMap_eq_nil_iff.mpr hnew
      rw [have_txs, hsends.history, List.filterMap_append, hnil]
      rfl
    cases adjust_redundancy_spec b now draw with
    | idle _ sends _ _ => exact hnil [] sends (by simp)
    | reset p _ _ sends _ _ =>
      apply hnil _ sends
      intro a ha
      rw [List.mem_singleton.mp ha]
      rfl
  · exact ⟨fun h => (Bool.noConfusion h), trivial⟩

/-! ## Received transactions -/

theorem send_have_tx_marked (b : Behaviour P F) (now : Nat) (tx_id : TransactionId) (source : P)
    (cached : Option P) (hopen : b.redundancy_controller.is_have_tx_blocked = false) :
    Marked b (if source ∈ b.connected_peers then [.have_tx source tx_id cached] else [])
      (b.send_have_tx now tx_id source) := by
  obtain ⟨hsends, -, -⟩ := send_have_tx_sends b now tx_id source
  have haccepted : (b.send now (some tx_id) source (.HaveTx { tx_id })).1 =
      decide (source ∈ b.connected_peers) := send_control b now (some tx_id) source (by rfl)
  have hhave_txs : (b.send_have_tx now tx_id source).have_txs =
      b.have_txs ++ if source ∈ b.connected_peers then [(source, tx_id)] else [] := by
    rw [have_txs, hsends.history, List.filterMap_append]
    by_cases hmem : source ∈ b.connected_peers
    · simp [have_tx_attempt, Attempt.have_tx?, hmem, have_txs]
    · simp [have_tx_attempt, Attempt.have_tx?, hmem, have_txs]
  by_cases hmem : source ∈ b.connected_peers
  · rw [if_pos hmem] at hhave_txs ⊢
    refine ⟨?_, hhave_txs, fun _ => hopen, trivial⟩
    unfold send_have_tx
    simp only [haccepted, hmem, decide_true, if_true]
    change Controller.block_have_tx (b.send now (some tx_id) source _).2.redundancy_controller = _
    rw [send_controller]
    rfl
  · rw [if_neg hmem] at hhave_txs ⊢
    refine ⟨?_, hhave_txs, trivial⟩
    unfold send_have_tx
    simp only [haccepted, hmem, decide_false, Bool.false_eq_true, if_false]
    exact send_controller b now (some tx_id) source _

theorem handle_duplicate_marked (b : Behaviour P F) (now : Nat) (tx_id : TransactionId)
    (source : P) (cached : Option P) :
    Marked b (if b.answers source then [.duplicate, .have_tx source tx_id cached]
      else [.duplicate]) (b.handle_duplicate now tx_id source) := by
  obtain ⟨counted, hcounted⟩ : ∃ counted : Behaviour P F, counted =
      { b.with_metrics (·.set_txs_cache_size b.cache.len) with
        redundancy_controller := b.redundancy_controller.incr_duplicate_txs_count } := ⟨_, rfl⟩
  have hduplicate : b.handle_duplicate now tx_id source =
      if !b.config.send_have_tx then counted
      else if b.redundancy_controller.is_have_tx_blocked then counted
      else counted.send_have_tx now tx_id source := by
    rw [hcounted]
    rfl
  have hcount : Marked b [.duplicate] counted := by
    rw [hcounted]
    refine ⟨rfl, ?_, fun h => Bool.noConfusion h, trivial⟩
    exact (List.append_nil _).symm
  have hpeers : counted.connected_peers = b.connected_peers := by
    rw [hcounted]
    rfl
  rw [hduplicate, answers]
  cases b.config.send_have_tx with
  | false => exact hcount
  | true =>
    cases hopen : b.redundancy_controller.is_have_tx_blocked with
    | true => exact hcount
    | false =>
      have hopen' : counted.redundancy_controller.is_have_tx_blocked = false := by
        rw [hcounted]
        exact hopen
      have hsent := hcount.trans (send_have_tx_marked counted now tx_id source cached hopen')
      rw [hpeers] at hsent
      by_cases hmem : source ∈ b.connected_peers
      · simpa [hmem] using hsent
      · simpa [hmem] using hsent

theorem handle_first_time_marked (b : Behaviour P F) (now : Nat) (tx_id : TransactionId)
    (raw : RawTransaction P) (source : P) :
    Marked b [.first_time] (b.handle_first_time now tx_id raw source) := by
  obtain ⟨new, hsends, hspread, -, -⟩ := handle_first_time_sends b now tx_id raw source
  have hnil : new.filterMap (·.have_tx?) = [] :=
    List.filterMap_eq_nil_iff.mpr (hspread.no_have_tx rfl)
  refine ⟨?_, ?_, fun h => Bool.noConfusion h, trivial⟩
  · unfold handle_first_time forward_transaction
    dsimp only
    split
    · split
      · rfl
      · exact send_to_each_controller _ _ _ _ _ _
    · rfl
  · rw [have_txs, hsends.history, List.filterMap_append, hnil]
    rfl

theorem received_marked (b : Behaviour P F) (now : Nat) (raw : RawTransaction P) (source : P) :
    Marked b (b.received_marks now raw source) (b.handle_received_transaction now raw source) := by
  unfold received_marks
  generalize hcached : (b.handle_received_transaction now raw source).cache = cached
  unfold handle_received_transaction
  dsimp only
  have h₀ : Marked b [] (b.with_metrics (·.tx_recv_unfiltered raw.raw_protobuf_len)) :=
    .quiet (with_metrics_sends _ b) rfl
  have htransform : (b.with_metrics (·.tx_recv_unfiltered raw.raw_protobuf_len)).data_transform =
      b.data_transform := rfl
  rw [htransform]
  cases b.data_transform.inbound_transform raw with
  | error e => exact h₀.trans_none (.quiet (with_metrics_sends _ _) rfl)
  | ok tx =>
    obtain ⟨tx_id, hid⟩ : ∃ tx_id, tx_id = b.config.transaction_id tx := ⟨_, rfl⟩
    obtain ⟨told, htold⟩ : ∃ told : Behaviour P F, told =
        { (b.with_metrics (·.tx_recv_unfiltered raw.raw_protobuf_len)).push_event
            (.TransactionReceived source tx_id tx) with
          cache := (b.cache.insert now tx_id source).2 } := ⟨_, rfl⟩
    have h₁ : Marked b [] told := by
      rw [htold]
      exact .quiet (.none rfl rfl rfl rfl rfl) rfl
    have hanswers : told.answers source = b.answers source := by
      rw [htold]
      rfl
    have hgoal : Marked b (if (b.cache.insert now tx_id source).1 then [.first_time]
        else if b.answers source then
          [.duplicate, .have_tx source tx_id (cached.get tx_id)] else [.duplicate])
        (if (!(b.cache.insert now tx_id source).1) = true then
          told.handle_duplicate now tx_id source
        else told.handle_first_time now tx_id raw source) := by
      cases (b.cache.insert now tx_id source).1 with
      | true => exact h₁.none_trans (handle_first_time_marked told now tx_id raw source)
      | false =>
        rw [← hanswers]
        exact h₁.none_trans (handle_duplicate_marked told now tx_id source (cached.get tx_id))
    rw [htold, hid] at hgoal
    exact hgoal

theorem transactions_marked (b : Behaviour P F) (clock : Nat → Nat) (source : P) (count : Nat)
    (raws : List (RawTransaction P)) :
    Marked b (b.transactions_marks clock source count raws)
      (b.handle_transactions clock source count raws) := by
  induction raws generalizing b count with
  | nil => exact .refl b
  | cons raw raws ih =>
    unfold handle_transactions transactions_marks
    split
    · exact .refl b
    · exact (received_marked b (clock count) raw source).trans (ih _ _)

omit [F64 F] [Schema] in
theorem handle_have_tx_controller (b : Behaviour P F) (tx_ids : List TransactionId) (source : P) :
    (b.handle_have_tx tx_ids source).redundancy_controller = b.redundancy_controller := by
  have hloop : ∀ (tx_ids : List TransactionId) (b : Behaviour P F),
      (tx_ids.foldl (fun b tx_id => b.handle_have_tx_id source tx_id) b).redundancy_controller =
        b.redundancy_controller := by
    intro tx_ids
    induction tx_ids with
    | nil => intro b; rfl
    | cons tx_id tx_ids ih =>
      intro b
      rw [List.foldl_cons, ih]
      unfold handle_have_tx_id
      dsimp only
      split
      · split
        · rfl
        · rfl
      · rfl
  exact hloop tx_ids b

omit [F64 F] [Schema] in
theorem handle_reset_route_controller (b : Behaviour P F) (draw : Nat) (source : P) :
    (b.handle_reset_route draw source).redundancy_controller = b.redundancy_controller := by
  unfold handle_reset_route
  dsimp only
  split
  · rfl
  · rfl

theorem on_rpc_marked (b : Behaviour P F) (clock : Nat → Nat) (draw : Nat) (source : P)
    (rpc : Rpc P) :
    Marked b (b.transactions_marks clock source 0 rpc.transactions)
      (b.on_rpc clock draw source rpc) := by
  apply on_rpc_rule (transactions_marked b clock source 0 rpc.transactions)
  · intro b' h
    have hsends := (handle_have_tx_spec b' (have_tx_ids rpc.control_msgs) source).1
    exact h.trans_none (.quiet hsends (handle_have_tx_controller b' _ source))
  · intro b' h
    have hsends := (handle_reset_route_spec b' draw source).1
    exact h.trans_none (.quiet hsends (handle_reset_route_controller b' draw source))

omit [F64 F] in
theorem call_marks_of_idles {b : Behaviour P F} {c : Call P} (h : b.idles c = true) :
    b.call_marks c = [] := by
  unfold call_marks
  split
  · cases h
  · cases h
  · simp only [idles, Bool.true_and, Bool.not_eq_true'] at h
    simp [h]
  · rfl

theorem call_marked {b b' : Behaviour P F} {c : Call P} (h : b.call c = some b') :
    Marked b (b.call_marks c) b' := by
  cases call_cases h with
  | published now data answer publish => exact publish_marked publish
  | joined connection_id p call =>
    have hnone : b.call_marks c = [] := by
      rcases call with rfl | rfl
      · rfl
      · rfl
    rw [hnone]
    exact ⟨rfl, (List.append_nil _).symm, trivial⟩
  | left now draw p connection_id =>
    obtain ⟨-, -, -, hhistory, -, hcontroller, -, -⟩ := disconnect_spec b p
    have hdisconnect : Marked b [] (b.disconnect p) := by
      refine ⟨hcontroller, ?_, trivial⟩
      rw [have_txs, hhistory]
      exact (List.append_nil _).symm
    have hadjust := hdisconnect.none_trans (adjust_redundancy_marked (b.disconnect p) now draw)
    exact hadjust.trans_none (.quiet (with_metrics_sends _ _) rfl)
  | rpc clock draw source rpc invalid => exact on_rpc_marked b clock draw source rpc
  | ticked now draw events =>
    have hmarks : b.call_marks (.poll now draw true) = [.adjusted] := by
      simp [call_marks, events]
    rw [hmarks]
    exact adjust_redundancy_marked b now draw
  | idle idles sends _ _ controller =>
    rw [call_marks_of_idles idles]
    exact .quiet sends controller

end Behaviour

/-! ## Over whole runs -/

theorem step_marked {n n' : Node P F} {op : Op P} (h : n.step op = some n') :
    Marked n.behaviour (n.marks op) n'.behaviour := by
  cases Node.step_cases h with
  | called c b' call => exact Behaviour.call_marked call
  | polled peers no_call _ same =>
    rw [Node.marks, Op.on_call_eq_nil no_call, same]
    exact ⟨rfl, (List.append_nil _).symm, trivial⟩

/-- The marks of a run tell what became of the controller and of the HaveTx. -/
theorem run_marked {s : Setup P F} {n : Node P F} {ops : List (Op P)}
    (hrun : s.machine.Run s.node ops n) : Marked s.behaviour (s.marks ops) n.behaviour := by
  apply Machine.Run.observe_invariant (p := fun seen n => Marked s.behaviour seen n.behaviour) hrun
  · exact .refl s.behaviour
  · intro seen n op n' h hstep
    exact h.trans (step_marked hstep)

/-! ## How often a node sends a HaveTx -/

/-- The transactions received since the redundancy was last adjusted. -/
structure Tally where
  first_time : Nat
  duplicate : Nat
deriving DecidableEq, Repr

namespace Tally

def next (t : Tally) : Mark P → Tally
  | .first_time => { t with first_time := t.first_time + 1 }
  | .duplicate => { t with duplicate := t.duplicate + 1 }
  | .have_tx _ _ _ => t
  | .adjusted => { first_time := 0, duplicate := 0 }

/-- Each mark, with the tally that it finds. -/
def timeline : Tally → List (Mark P) → List (Tally × Mark P)
  | _, [] => []
  | t, m :: marks => (t, m) :: (t.next m).timeline marks

omit [Libp2p P] [DecidableEq P] [Schema] in
theorem timeline_marks (t : Tally) (marks : List (Mark P)) :
    (t.timeline marks).map (·.2) = marks := by
  induction marks generalizing t with
  | nil => rfl
  | cons m marks ih => simp only [timeline, List.map_cons, ih]

omit [Libp2p P] [DecidableEq P] [Schema] in
theorem timeline_append (t : Tally) (marks marks' : List (Mark P)) :
    t.timeline (marks ++ marks') = t.timeline marks ++ (marks.foldl next t).timeline marks' := by
  induction marks generalizing t with
  | nil => rfl
  | cons m marks ih => simp only [List.cons_append, timeline, ih, List.foldl_cons]

end Tally

/-- The redundancy is adjusted, transactions were received for the first time since it last was, and
the redundancy is above the bound. -/
def excess (upper_bound : F) (entry : Tally × Mark P) : Bool :=
  match entry.2 with
  | .adjusted => decide (0 < entry.1.first_time) &&
      F64.lt upper_bound (F64.div (F64.ofNat entry.1.duplicate) (F64.ofNat entry.1.first_time))
  | _ => false

/-- The counters of the controller are the tally. -/
def Controller.Counts (c : Controller F) (t : Tally) : Prop :=
  c.first_time_txs_count = t.first_time ∧ c.duplicate_txs_count = t.duplicate

omit [Libp2p P] [DecidableEq P] [Schema] in
theorem Controller.mark_upper_bound (c : Controller F) (m : Mark P) :
    (c.mark m).upper_bound = c.upper_bound := by
  cases m with
  | first_time => rfl
  | duplicate => rfl
  | have_tx peer tx_id source => rfl
  | adjusted =>
    unfold mark evaluate reset_counters
    dsimp only
    split
    · rfl
    · split
      · rfl
      · split <;> rfl

omit [Libp2p P] [DecidableEq P] [Schema] in
theorem Controller.Counts.mark {c : Controller F} {t : Tally} (h : c.Counts t) (m : Mark P) :
    (c.mark m).Counts (t.next m) := by
  obtain ⟨hfirst, hduplicate⟩ := h
  cases m with
  | first_time => exact ⟨congrArg (· + 1) hfirst, hduplicate⟩
  | duplicate => exact ⟨hfirst, congrArg (· + 1) hduplicate⟩
  | have_tx peer tx_id source => exact ⟨hfirst, hduplicate⟩
  | adjusted => exact ⟨rfl, rfl⟩

omit [Schema] in
/-- An evaluation lifts the block only when it finds first-time transactions and a redundancy above
the bound: without them it takes the bound itself for the redundancy. -/
theorem Controller.evaluate_keeps_block (hlt : ∀ x : F, F64.lt x x = false) {c : Controller F}
    (hblocked : c.is_have_tx_blocked = true)
    (hno : (decide (0 < c.first_time_txs_count) && F64.lt c.upper_bound
      (F64.div (F64.ofNat c.duplicate_txs_count) (F64.ofNat c.first_time_txs_count))) = false) :
    c.evaluate.2.is_have_tx_blocked = true := by
  unfold evaluate redundancy
  split
  · exact hblocked
  · by_cases hzero : c.first_time_txs_count = 0
    · simp only [hzero, if_true, hlt]
      split <;> exact hblocked
    · have hpos : 0 < c.first_time_txs_count := Nat.pos_of_ne_zero hzero
      simp only [hpos, decide_true, Bool.true_and] at hno
      simp only [hzero, if_false, hno]
      split <;> exact hblocked

omit [Libp2p P] [DecidableEq P] [Schema] in
/-- The HaveTx obey a latch that an excess of redundancy releases. -/
theorem Controller.Permits.obeys (hlt : ∀ x : F, F64.lt x x = false) {c : Controller F} {t : Tally}
    {shut : Bool} {marks : List (Mark P)} (h : c.Permits marks) (hcounts : c.Counts t)
    (hshut : shut = true → c.is_have_tx_blocked = true) :
    Latch.Obeys (fun entry => entry.2.have_tx?.isSome) (excess c.upper_bound) shut
      (t.timeline marks) := by
  induction marks generalizing c t shut with
  | nil => trivial
  | cons m marks ih =>
    obtain ⟨hopen, hrest⟩ := h
    constructor
    · intro huse
      by_contra hne
      have hblocked := hshut (by simpa using hne)
      rw [hopen huse] at hblocked
      cases hblocked
    · rw [← c.mark_upper_bound m]
      refine ih hrest (hcounts.mark m) ?_
      intro hnext
      rw [c.mark_upper_bound m] at hnext
      cases m with
      | first_time => exact hshut hnext
      | duplicate => exact hshut hnext
      | have_tx peer tx_id source => rfl
      | adjusted =>
        have hkept : excess c.upper_bound (t, (.adjusted : Mark P)) = false ∧ shut = true := by
          unfold Latch.next at hnext
          simpa [Mark.have_tx?] using hnext
        obtain ⟨hno, hshut'⟩ := hkept
        refine Controller.evaluate_keeps_block hlt (hshut hshut') ?_
        rw [hcounts.1, hcounts.2]
        exact hno

omit [Libp2p P] [DecidableEq P] [Schema] in
theorem Controller.Counts.marks {c : Controller F} {t : Tally} (h : c.Counts t)
    (marks : List (Mark P)) :
    (marks.foldl Controller.mark c).Counts (marks.foldl Tally.next t) := by
  induction marks generalizing c t with
  | nil => exact h
  | cons m marks ih => exact ih (h.mark m)

/-- Between two HaveTx the redundancy was adjusted, with first-time transactions and a redundancy
above the bound. The controller counts what was received since it was last adjusted. -/
theorem a_have_tx_waits_for_an_excess_of_redundancy (hlt : ∀ x : F, F64.lt x x = false)
    {s : Setup P F} {n : Node P F} {ops : List (Op P)} (hrun : s.machine.Run s.node ops n) :
    let timeline := Tally.timeline ⟨0, 0⟩ (s.marks ops)
    let upper_bound := (Controller.new s.config : Controller F).upper_bound
    n.behaviour.have_txs = timeline.filterMap (·.2.have_tx?) ∧
    n.behaviour.redundancy_controller.Counts ((s.marks ops).foldl Tally.next ⟨0, 0⟩) ∧
    (∀ before first between second after,
      timeline = before ++ first :: (between ++ second :: after) →
      first.2.have_tx?.isSome = true → second.2.have_tx?.isSome = true →
      ∃ entry ∈ between, excess upper_bound entry = true) ∧
    n.behaviour.have_txs.length ≤ 1 + timeline.countP (excess upper_bound) := by
  intro timeline upper_bound
  have hmarked := run_marked hrun
  have hcounts : s.behaviour.redundancy_controller.Counts ⟨0, 0⟩ := ⟨rfl, rfl⟩
  have hobeys : Latch.Obeys (fun entry => entry.2.have_tx?.isSome) (excess upper_bound) false
      timeline := hmarked.permits.obeys hlt hcounts fun h => Bool.noConfusion h
  have hhave_txs : n.behaviour.have_txs = timeline.filterMap (·.2.have_tx?) := by
    have hmarks : (s.marks ops).filterMap (·.have_tx?) = timeline.filterMap (·.2.have_tx?) := by
      conv_lhs => rw [← Tally.timeline_marks ⟨0, 0⟩ (s.marks ops)]
      exact List.filterMap_map
    rw [hmarked.have_txs, hmarks]
    rfl
  refine ⟨hhave_txs, ?_, ?_, ?_⟩
  · rw [hmarked.controller]
    exact hcounts.marks (s.marks ops)
  · intro before first between second after hsplit hfirst hsecond
    rw [hsplit] at hobeys
    exact hobeys.exists_release hfirst hsecond
  · have hle := hobeys.countP_le
    rw [hhave_txs, List.length_filterMap_eq_countP]
    simp only [Bool.toNat_false] at hle
    omega

/-! ## Whom a HaveTx asks -/

/-- A HaveTx does not go to the peer that the transaction came from. -/
def Mark.SparesSource : Mark P → Prop
  | have_tx peer _ source => source ≠ some peer
  | _ => True

namespace Behaviour

/-- A peer sends again what is still cached from it, when a HaveTx can be sent to it. -/
def repeats (b : Behaviour P F) (now : Nat) (raw : RawTransaction P) (source : P) : Bool :=
  b.answers source && match b.id_of raw with
    | some tx_id => decide ((b.cache.remove_expired_values now).get tx_id = some source)
    | none => false

/-- No transaction of an RPC repeats, from number `count`. -/
def no_repeats (b : Behaviour P F) (clock : Nat → Nat) (source : P) :
    Nat → List (RawTransaction P) → Bool
  | _, [] => true
  | count, raw :: rest =>
    b.config.max_transactions_per_rpc.any (fun max => decide (count ≥ max)) ||
      !b.repeats (clock count) raw source &&
        (b.handle_received_transaction (clock count) raw source).no_repeats clock source
          (count + 1) rest

omit [F64 F] in
theorem received_spares_iff (b : Behaviour P F) (now : Nat) (raw : RawTransaction P) (source : P) :
    (∀ m ∈ b.received_marks now raw source, m.SparesSource) ↔ b.repeats now raw source = false := by
  have hreceived := received_spec b now raw source
  unfold received_marks repeats id_of DataTransform.id_of
  cases hinbound : b.data_transform.inbound_transform raw with
  | error e => simp [Except.toOption]
  | ok tx =>
    dsimp only [Except.toOption, Option.map_some]
    have hid : b.config.transaction_id_fn tx = b.config.transaction_id tx := rfl
    rw [hid]
    set tx_id := b.config.transaction_id tx with htx_id
    rcases DuplicateCache.insert_spec b.cache now tx_id source with ⟨-, he⟩ | ⟨hnew, hfresh, -⟩
    · have hcache : (b.handle_received_transaction now raw source).cache =
          b.cache.remove_expired_values now := by
        cases hreceived with
        | invalid e inbound =>
          rw [hinbound] at inbound
          cases inbound
        | duplicate tx' id inbound id_eq _ cache _ =>
          rw [hinbound] at inbound
          cases inbound
          rw [cache, id_eq, ← htx_id, he]
        | first_time tx' id new inbound id_eq fresh _ _ _ _ =>
          rw [hinbound] at inbound
          cases inbound
          rw [id_eq, ← htx_id, he] at fresh
          cases fresh
      rw [he, hcache]
      cases b.answers source with
      | false => simp [Mark.SparesSource]
      | true => simp [Mark.SparesSource]
    · have hnone : (b.cache.remove_expired_values now).get tx_id = none := by
        unfold DuplicateCache.get
        rwa [← Option.not_isSome_iff_eq_none, AList.lookup_isSome]
      simp [hfresh, hnone, Mark.SparesSource]

omit [F64 F] in
theorem transactions_spare_iff (b : Behaviour P F) (clock : Nat → Nat) (source : P) (count : Nat)
    (raws : List (RawTransaction P)) :
    (∀ m ∈ b.transactions_marks clock source count raws, m.SparesSource) ↔
      b.no_repeats clock source count raws = true := by
  induction raws generalizing b count with
  | nil => simp [transactions_marks, no_repeats]
  | cons raw raws ih =>
    unfold transactions_marks no_repeats
    split
    · rename_i hmax
      simp [hmax]
    · rename_i hmax
      rw [List.forall_mem_append, received_spares_iff, ih]
      simp [hmax]

end Behaviour

/-- No peer repeats. -/
def no_source_repeats (b : Behaviour P F) : Call P → Bool
  | .on_connection_handler_event clock _ source (.Transaction rpc _) =>
    b.no_repeats clock source 0 rpc.transactions
  | _ => true

omit [F64 F] in
theorem step_spares_iff (n : Node P F) (op : Op P) :
    (∀ m ∈ n.marks op, m.SparesSource) ↔ on_calls no_source_repeats n op = true := by
  have hadjusted : ∀ m ∈ ([.adjusted] : List (Mark P)), m.SparesSource := by
    intro m hm
    rw [List.mem_singleton.mp hm]
    trivial
  have hnone : ∀ m ∈ ([] : List (Mark P)), m.SparesSource := by simp
  cases op with
  | call c =>
    cases c with
    | on_connection_handler_event clock draw source event =>
      cases event with
      | Transaction rpc invalid => exact Behaviour.transactions_spare_iff _ _ _ _ _
      | TransactionDropped rpc => exact iff_of_true hnone rfl
    | on_swarm_event now draw event =>
      cases event with
      | ConnectionEstablished peer_id => exact iff_of_true hnone rfl
      | ConnectionClosed peer_id connection_id remaining_established =>
        cases remaining_established with
        | zero => exact iff_of_true hadjusted rfl
        | succ remaining => exact iff_of_true hnone rfl
      | Other => exact iff_of_true hnone rfl
    | poll now draw redundancy_interval =>
      cases redundancy_interval with
      | false => exact iff_of_true hnone rfl
      | true =>
        refine iff_of_true ?_ rfl
        change ∀ m ∈ (if n.behaviour.events.isEmpty then [.adjusted] else [] : List (Mark P)),
          m.SparesSource
        split
        · exact hadjusted
        · exact hnone
    | publish now data => exact iff_of_true hnone rfl
    | handle_established_inbound_connection connection_id peer_id => exact iff_of_true hnone rfl
    | handle_established_outbound_connection connection_id peer => exact iff_of_true hnone rfl
  | poll_next index => exact iff_of_true hnone rfl
  | poll_stale index elapsed => exact iff_of_true hnone rfl
  | poll_is_empty index => exact iff_of_true hnone rfl

/-- The HaveTx of a run all spare the peer that the transaction came from exactly when no peer
repeats a transaction that is cached from it while it would be answered with a HaveTx. -/
theorem a_have_tx_spares_the_source_iff {s : Setup P F} {n : Node P F} {ops : List (Op P)}
    (hrun : s.machine.Run s.node ops n) :
    n.behaviour.have_txs = (s.marks ops).filterMap (·.have_tx?) ∧
    ((∀ m ∈ s.marks ops, m.SparesSource) ↔
      s.machine.Meets (fun n op => on_calls no_source_repeats n op = true) s.node ops) := by
  constructor
  · exact (run_marked hrun).have_txs
  · unfold Setup.marks
    rw [Machine.Run.forall_observe_iff hrun]
    simp only [step_spares_iff]
    rfl

end

theorem two_have_tx_have_an_excess_of_redundancy_between_them :
    ∃ n, (Sample.setup 0).machine.Run (Sample.setup 0).node (two_candidates ++ new_period 3) n ∧
      n.behaviour.have_txs = [(⟨2⟩, Sample.tx_id 1 1), (⟨1⟩, Sample.tx_id 2 1)] ∧
      n.behaviour.have_txs.length ≤ 1 +
        (Tally.timeline ⟨0, 0⟩ ((Sample.setup 0).marks (two_candidates ++ new_period 3))).countP
          (excess (11 / 10 : Rat)) := by
  have hrun : (Machine.exec Node.step (Sample.setup 0).node (two_candidates ++ new_period 3)).map
      (·.behaviour.have_txs) = some [(⟨2⟩, Sample.tx_id 1 1), (⟨1⟩, Sample.tx_id 2 1)] := by
    decide +kernel
  obtain ⟨n, hrun, hsee⟩ := Machine.exists_run_of_exec hrun
  have hlaw := a_have_tx_waits_for_an_excess_of_redundancy (F := Rat)
    (fun x => by simp [F64.lt]) hrun
  have hbound : (Controller.new (Sample.setup 0).config : Controller Rat).upper_bound =
      11 / 10 := by
    decide +kernel
  rw [← hbound]
  exact ⟨n, hrun, hsee, hlaw.2.2.2⟩

theorem two_have_tx_spare_the_source :
    ∃ n, (Sample.setup 0).machine.Run (Sample.setup 0).node (two_candidates ++ new_period 3) n ∧
      n.behaviour.have_txs = [(⟨2⟩, Sample.tx_id 1 1), (⟨1⟩, Sample.tx_id 2 1)] ∧
      ∀ m ∈ (Sample.setup 0).marks (two_candidates ++ new_period 3), m.SparesSource := by
  have hrun : (Machine.exec (Machine.guarded (on_calls no_source_repeats) Node.step)
      (Sample.setup 0).node (two_candidates ++ new_period 3)).map (·.behaviour.have_txs) =
      some [(⟨2⟩, Sample.tx_id 1 1), (⟨1⟩, Sample.tx_id 2 1)] := by decide +kernel
  obtain ⟨n, hrun, hok, hsee⟩ := Setup.exists_run hrun
  exact ⟨n, hrun, hsee, (a_have_tx_spares_the_source_iff hrun).2.mpr hok⟩

/-- Peer 1 sends the same transaction twice, and is asked to stop the transactions of its own
source. -/
theorem a_have_tx_goes_to_the_source :
    ¬ ∀ (s : Setup Sample.Peer Rat) (n : Node Sample.Peer Rat) (ops : List (Op Sample.Peer)),
      s.machine.Run s.node ops n → ∀ m ∈ s.marks ops, m.SparesSource := by
  intro hclaim
  have hrun : (Machine.exec Node.step (Sample.setup 0).node [Sample.connect 1,
      Sample.deliver 1 [Sample.raw 1 1] [], Sample.deliver 1 [Sample.raw 1 1] []]).map
      (fun n => (n.behaviour.have_txs, n.behaviour.cache.get (Sample.tx_id 1 1))) =
      some ([(⟨1⟩, Sample.tx_id 1 1)], some ⟨1⟩) := by decide +kernel
  have hmarks : (Sample.setup 0).marks [Sample.connect 1,
      Sample.deliver 1 [Sample.raw 1 1] [], Sample.deliver 1 [Sample.raw 1 1] []] =
      [.first_time, .duplicate, .have_tx ⟨1⟩ (Sample.tx_id 1 1) (some ⟨1⟩)] := by decide +kernel
  obtain ⟨n, hrun, -⟩ := Machine.exists_run_of_exec hrun
  have hspares := hclaim _ n _ hrun
  rw [hmarks] at hspares
  exact hspares (.have_tx ⟨1⟩ (Sample.tx_id 1 1) (some ⟨1⟩)) (by simp) rfl

end libp2p_dog
