-- Laws of the metrics of traffic: what the counters of the transactions sent
-- say, beside the events and the queues.
import GossipShadow.Balances

namespace libp2p_dog

section

variable {P F : Type} [Libp2p P] [DecidableEq P] [F64 F] [Schema]

/-- The books at some point of a run: the counters hold every attempt so far, and the events tell of
those that a queue took. -/
structure Booked (start : Behaviour P F) (seen : List (Event P)) (b : Behaviour P F) : Prop where
  traffic : b.traffic = start.traffic.map (bill b.history)
  events : (seen ++ b.events).filterMap (·.sent?) = b.history.filterMap (·.sent?)

omit [DecidableEq P] [F64 F] in
theorem Booked.bills {start b b' : Behaviour P F} {seen out left : List (Event P)}
    {new : List (Attempt P)} (h : Booked start seen b) (hevents : b.events = out ++ left)
    (hbills : Bills { b with events := left } new b') : Booked start (seen ++ out) b' := by
  obtain ⟨hhistory, htraffic, pushed, hpushed, hsent⟩ := hbills
  have hhistory : b'.history = b.history ++ new := hhistory
  have htraffic : b'.traffic = b.traffic.map (bill new) := htraffic
  have hpushed : b'.events = left ++ pushed := hpushed
  refine ⟨?_, ?_⟩
  · rw [htraffic, h.traffic, hhistory, Option.map_map]
    congr 1
    funext traffic
    exact (bill_append b.history new traffic).symm
  · have hbefore := h.events
    rw [hevents, ← List.append_assoc, List.filterMap_append] at hbefore
    rw [hpushed, hhistory, ← List.append_assoc, List.filterMap_append, List.filterMap_append, hsent,
      hbefore, List.filterMap_append]

theorem Booked.step {start : Behaviour P F} {seen : List (Event P)} {n n' : Node P F} {op : Op P}
    (h : Booked start seen n.behaviour) (hstep : n.step op = some n') :
    Booked start (seen ++ n.emitted op) n'.behaviour := by
  cases Node.step_cases hstep with
  | called c b' call =>
    obtain ⟨new, left, hevents, hbills, -⟩ := Behaviour.call_bills call
    exact h.bills hevents hbills
  | polled peers no_call _ same =>
    rw [Node.emitted, Op.on_call_eq_nil no_call, List.append_nil, same]
    exact ⟨h.traffic, h.events⟩

theorem booked_of_run {s : Setup P F} {n : Node P F} {ops : List (Op P)}
    (hrun : s.machine.Run s.node ops n) :
    Booked s.behaviour (Machine.observe Node.step Node.emitted s.node ops) n.behaviour := by
  apply Machine.Run.observe_invariant (p := fun seen n => Booked s.behaviour seen n.behaviour) hrun
  · exact ⟨(bill_nil _).symm, rfl⟩
  · intro seen n op n' h hstep
    exact h.step hstep

/-- Every queue took what it was offered, step by step. -/
theorem accepts_all_iff_of_run {s : Setup P F} {n : Node P F} {ops : List (Op P)}
    (hrun : s.machine.Run s.node ops n) :
    Behaviour.accepts_all n.behaviour.history = true ↔
      s.machine.Meets (fun n op => on_calls Behaviour.call_fits n op = true) s.node ops := by
  induction hrun with
  | nil => exact iff_of_true rfl (Machine.meets_nil _)
  | @snoc n n' ops op hrun hstep ih =>
    unfold Setup.machine at ih ⊢
    rw [Machine.meets_snoc hrun, ← ih]
    cases Node.step_cases hstep with
    | called c b' call =>
      obtain ⟨new, left, -, hbills, hfits⟩ := Behaviour.call_bills call
      have hhistory : b'.history = n.behaviour.history ++ new := hbills.history
      rw [hhistory, Behaviour.accepts_all_append, Bool.and_eq_true, hfits]
      rfl
    | polled peers no_call _ same =>
      have hop : on_calls Behaviour.call_fits n op = true := by
        cases op with
        | call c => exact absurd rfl (no_call c)
        | poll_next index => rfl
        | poll_stale index elapsed => rfl
        | poll_is_empty index => rfl
      rw [same]
      exact (and_iff_left hop).symm

omit [Libp2p P] [DecidableEq P] [F64 F] [Schema] in
/-- The attempts to send a transaction: those that a queue took, and those that it refused. -/
theorem count_sent_add_refused (attempts : List (Attempt P)) :
    attempts.countP (·.has_transaction) =
      (attempts.filterMap (·.sent?)).length + attempts.countP (·.refused) := by
  induction attempts with
  | nil => rfl
  | cons a attempts ih =>
    rw [List.countP_cons, List.countP_cons, List.filterMap_cons, ih]
    by_cases htx : a.has_transaction = true
    · by_cases haccepted : a.accepted = true
      · have hsent : a.sent? = some (a.peer, a.tx_id) := by simp [Attempt.sent?, htx, haccepted]
        have hrefused : a.refused = false := by simp [Attempt.refused, haccepted]
        simp only [hsent, hrefused, htx, if_true, List.length_cons, Bool.false_eq_true, if_false]
        omega
      · have hsent : a.sent? = none := by simp [Attempt.sent?, haccepted]
        have hrefused : a.refused = true := by simp [Attempt.refused, htx, haccepted]
        simp only [hsent, hrefused, htx, if_true]
        omega
    · have hsent : a.sent? = none := by simp [Attempt.sent?, htx]
      have hrefused : a.refused = false := by simp [Attempt.refused, htx]
      simp [hsent, hrefused, htx]

omit [Libp2p P] [DecidableEq P] [F64 F] [Schema] in
theorem accepts_all_iff (attempts : List (Attempt P)) :
    Behaviour.accepts_all attempts = true ↔ attempts.countP (·.refused) = 0 := by
  unfold Behaviour.accepts_all
  rw [List.all_eq_true, List.countP_eq_zero]
  simp

/-- The bytes of the transactions that a queue took. -/
def bytes_taken (attempts : List (Attempt P)) : Nat :=
  ((attempts.filter (·.accepted)).map (·.bytes)).sum

omit [DecidableEq P] [F64 F] in
theorem bytes_taken_of_accepts_all {attempts : List (Attempt P)}
    (h : Behaviour.accepts_all attempts = true) :
    (attempts.map (·.bytes)).sum = bytes_taken attempts := by
  unfold bytes_taken
  induction attempts with
  | nil => rfl
  | cons a attempts ih =>
    simp only [Behaviour.accepts_all, List.all_cons, Bool.and_eq_true] at h
    obtain ⟨ha, hrest⟩ := h
    rw [List.map_cons, List.sum_cons, ih hrest, List.filter_cons]
    by_cases haccepted : a.accepted = true
    · simp [haccepted]
    · have hnone : a.rpc.tx? = none := by
        simpa [Attempt.refused, Attempt.has_transaction, haccepted] using ha
      simp [haccepted, Attempt.bytes, hnone]

/-- The events tell of the transactions that a queue took. The counters tell the same exactly when
every queue had room for each transaction that it was offered. -/
theorem the_traffic_counters_tell_the_events_iff {s : Setup P F} {n : Node P F} {ops : List (Op P)}
    {m : Metrics F} (hrun : s.machine.Run s.node ops n) (hm : n.behaviour.metrics = some m) :
    (s.pushed ops n).filterMap (·.sent?) = n.behaviour.history.filterMap (·.sent?) ∧
    ((m.txs_sent_counts = ((s.pushed ops n).filterMap (·.sent?)).length ∧
        m.txs_sent_bytes = bytes_taken n.behaviour.history) ↔
      s.machine.Meets (fun n op => on_calls Behaviour.call_fits n op = true) s.node ops) := by
  obtain ⟨htraffic, hevents⟩ := booked_of_run hrun
  have hevents : (s.pushed ops n).filterMap (·.sent?) =
      n.behaviour.history.filterMap (·.sent?) := hevents
  have hcounters : m.txs_sent_counts = n.behaviour.history.countP (·.has_transaction) ∧
      m.txs_sent_bytes = (n.behaviour.history.map (·.bytes)).sum := by
    simp only [Behaviour.traffic, hm, Option.map_some, Setup.behaviour,
      Behaviour.new_with_transform] at htraffic
    split at htraffic
    · simpa [bill, Metrics.new] using htraffic
    · cases htraffic
  refine ⟨hevents, ?_⟩
  rw [hevents, ← accepts_all_iff_of_run hrun]
  obtain ⟨hcounts, hbytes⟩ := hcounters
  have hsplit := count_sent_add_refused n.behaviour.history
  constructor
  · rintro ⟨hsame, -⟩
    apply (accepts_all_iff _).mpr
    omega
  · intro haccepts
    have hnone := (accepts_all_iff _).mp haccepts
    refine ⟨by omega, ?_⟩
    rw [hbytes]
    exact bytes_taken_of_accepts_all haccepts

end

namespace Sample

/-- A node with metrics, whose queues have room for one Publish. -/
def metered : Setup Peer Rat :=
  { setup 0 with
    metrics := true
    config := { (setup 0).config with connection_handler_queue_len := 2 } }

end Sample

theorem the_traffic_counters_tell_of_one_transaction :
    ∃ n m, Sample.metered.machine.Run Sample.metered.node
        [Sample.connect 1, .call (.publish 0 [0])] n ∧ n.behaviour.metrics = some m ∧
      m.txs_sent_counts = ((Sample.metered.pushed
        [Sample.connect 1, .call (.publish 0 [0])] n).filterMap (·.sent?)).length ∧
      m.txs_sent_bytes = bytes_taken n.behaviour.history := by
  have hrun : (Machine.exec (Machine.guarded (on_calls Behaviour.call_fits) Node.step)
      Sample.metered.node [Sample.connect 1, .call (.publish 0 [0])]).map
      (·.behaviour.metrics.isSome) = some true := by decide +kernel
  obtain ⟨n, hrun, hok, hsome⟩ := Setup.exists_run hrun
  obtain ⟨m, hm⟩ := Option.isSome_iff_exists.mp hsome
  obtain ⟨hcounts, hbytes⟩ := (the_traffic_counters_tell_the_events_iff hrun hm).2.mpr hok
  exact ⟨n, m, hrun, hm, hcounts, hbytes⟩

/-- The second of two transactions finds the queue full: it makes no event, and it is counted. -/
theorem the_traffic_counters_count_a_refused_transaction :
    ¬ ∀ (s : Setup Sample.Peer Rat) (n : Node Sample.Peer Rat) (ops : List (Op Sample.Peer))
      (m : Metrics Rat), s.machine.Run s.node ops n → n.behaviour.metrics = some m →
      m.txs_sent_counts = ((s.pushed ops n).filterMap (·.sent?)).length ∧
        m.txs_sent_bytes = bytes_taken n.behaviour.history := by
  intro hclaim
  have hrun : (Machine.exec Node.step Sample.metered.node
      [Sample.connect 1, .call (.publish 0 [0]), .call (.publish 0 [0])]).map
      (fun n => (n.behaviour.metrics.map (·.txs_sent_counts),
        ((Sample.metered.pushed [Sample.connect 1, .call (.publish 0 [0]),
          .call (.publish 0 [0])] n).filterMap (·.sent?)).length)) = some (some 2, 1) := by
    decide +kernel
  obtain ⟨n, hrun, hsee⟩ := Machine.exists_run_of_exec hrun
  obtain ⟨hmetrics, hevents⟩ := Prod.mk.inj hsee
  obtain ⟨m, hm, hcounts⟩ := Option.map_eq_some_iff.mp hmetrics
  have hsame := (hclaim _ n _ m hrun hm).1
  rw [hcounts, hevents] at hsame
  cases hsame

end libp2p_dog
