-- Laws of the poll of the behaviour: what it leaves in the queue of events
-- when it puts the task to sleep.
import GossipShadow.EventLaws
import GossipShadow.PublishLaws

namespace libp2p_dog

section

variable {P F : Type}

/-- Transactions were received since the last evaluation, and the redundancy is below the bound. -/
def Controller.is_low [F64 F] (c : Controller F) : Bool :=
  decide (0 < c.first_time_txs_count + c.duplicate_txs_count) &&
    F64.lt c.redundancy c.lower_bound

theorem Controller.asks_eq_is_low [F64 F] (c : Controller F) : c.evaluate.1.2 = c.is_low := by
  unfold evaluate is_low
  by_cases hnone : c.first_time_txs_count + c.duplicate_txs_count = 0
  · simp [hnone]
  · have hpos : 0 < c.first_time_txs_count + c.duplicate_txs_count := by omega
    simp only [hnone, if_false, hpos, decide_true, Bool.true_and]
    by_cases hlow : F64.lt c.redundancy c.lower_bound = true
    · simp [hlow]
    · simp only [hlow, Bool.false_eq_true, if_false]
      split
      · rfl
      · rfl

variable [Libp2p P] [DecidableEq P]

namespace Behaviour

/-- The peer that a ResetRoute would go to: the one drawn, when it is connected. -/
def reset_route_peer (b : Behaviour P F) (draw : Nat) : Option P :=
  (b.router.get_random_have_tx_sent_peer draw).filter fun p => decide (p ∈ b.connected_peers)

variable [F64 F] [Schema]

/-- The event that `adjust_redundancy` pushes, if it pushes one. -/
def adjust_events (b : Behaviour P F) (draw : Nat) : List (Event P) :=
  if b.redundancy_controller.is_low then
    (b.reset_route_peer draw).toList.map (.ResetRouteSent ·)
  else []

omit [F64 F] in
theorem send_reset_route_events (b : Behaviour P F) (now draw : Nat) :
    (b.send_reset_route now draw).events =
      b.events ++ (b.reset_route_peer draw).toList.map (.ResetRouteSent ·) := by
  unfold send_reset_route reset_route_peer
  cases hdraw : b.router.get_random_have_tx_sent_peer draw with
  | none => exact (List.append_nil _).symm
  | some p =>
    have haccepted : (b.send now none p (.ResetRoute {})).1 = decide (p ∈ b.connected_peers) :=
      send_control b now none p (by rfl)
    have hevents := (send_spec b now none p (.ResetRoute {})).2.1
    dsimp only
    rw [haccepted]
    by_cases hmem : p ∈ b.connected_peers
    · simp [hmem, Option.filter, push_event, with_metrics, hevents]
    · simp [hmem, Option.filter, hevents]

theorem adjust_redundancy_events (b : Behaviour P F) (now draw : Nat) :
    (b.adjust_redundancy now draw).events = b.events ++ b.adjust_events draw := by
  unfold adjust_redundancy adjust_events
  dsimp only
  rw [Controller.asks_eq_is_low]
  by_cases hlow : b.redundancy_controller.is_low = true
  · simp only [hlow, if_true]
    exact send_reset_route_events
      { b with redundancy_controller := b.redundancy_controller.evaluate.2 } now draw
  · simp only [hlow, Bool.false_eq_true, if_false]
    exact (List.append_nil _).symm

/-- A poll that puts the task to sleep leaves the event that the timer pushed. -/
theorem poll_pending {b : Behaviour P F} {now draw : Nat} {fired : Bool}
    (h : (b.poll now draw fired).1 = .Pending) :
    b.events = [] ∧
      (b.poll now draw fired).2.events = if fired then b.adjust_events draw else [] := by
  unfold poll at h ⊢
  cases hevents : b.events with
  | cons event events =>
    rw [hevents] at h
    cases h
  | nil =>
    refine ⟨rfl, ?_⟩
    cases fired with
    | false => exact hevents
    | true =>
      simp only [if_true, adjust_redundancy_events, hevents]
      rfl

end Behaviour

variable [F64 F] [Schema]

/-- The events that a call pushes: what stands behind those that it found and did not hand out. -/
def Behaviour.generated (b : Behaviour P F) (c : Call P) : List (Event P) :=
  match b.call c with
  | some b' => b'.events.drop (b.events.length - (b.emitted c).length)
  | none => []

theorem Behaviour.generated_spec {b b' : Behaviour P F} {c : Call P} (h : b.call c = some b') :
    b.events ++ b.generated c = b.emitted c ++ b'.events := by
  obtain ⟨new, left, hevents, htells, -⟩ := call_tells h
  have hafter : b'.events = left ++ new := htells.events
  have hleft : b.events.length - (b.emitted c).length = left.length := by
    rw [hevents, List.length_append]
    omega
  unfold generated
  rw [h]
  simp only [hleft, hafter, List.drop_left]
  rw [hevents, List.append_assoc]

/-! ## Over whole runs -/

def Node.generated (n : Node P F) (op : Op P) : List (Event P) := op.on_call n.behaviour.generated

/-- The events that the calls of a run push are handed out, or wait. -/
theorem generated_of_run {s : Setup P F} {n : Node P F} {ops : List (Op P)}
    (hrun : s.machine.Run s.node ops n) :
    Machine.observe Node.step Node.generated s.node ops = s.pushed ops n := by
  unfold Setup.pushed
  induction hrun with
  | nil => rfl
  | @snoc n n' ops op hrun hstep ih =>
    rw [Machine.observe_snoc _ hrun, Machine.observe_snoc _ hrun, ih, List.append_assoc,
      List.append_assoc]
    congr 1
    cases Node.step_cases hstep with
    | called c b' call => exact Behaviour.generated_spec call
    | polled peers no_call _ same =>
      rw [Node.generated, Node.emitted, Op.on_call_eq_nil no_call, Op.on_call_eq_nil no_call, same]
      exact List.append_nil _

/-- A poll of the behaviour that puts the task to sleep leaves no event in the queue. -/
def Node.SleepsEmpty (n : Node P F) (op : Op P) : Prop :=
  ∀ now draw fired, op = .call (.poll now draw fired) →
    (n.behaviour.poll now draw fired).1 = .Pending →
    (n.behaviour.poll now draw fired).2.events = []

/-- The timer does not fire on an empty queue while the redundancy is low and the peer drawn, one
with a count, is connected. -/
def timer_is_quiet (b : Behaviour P F) : Call P → Bool
  | .poll _ draw true => !(b.events.isEmpty && b.redundancy_controller.is_low &&
      (b.reset_route_peer draw).isSome)
  | _ => true

theorem sleeps_empty_iff (n : Node P F) (op : Op P) :
    n.SleepsEmpty op ↔ on_calls timer_is_quiet n op = true := by
  constructor
  · intro h
    cases op with
    | call c =>
      cases c with
      | poll now draw fired =>
        cases fired with
        | false => rfl
        | true =>
          by_cases hevents : n.behaviour.events = []
          · have hpending : (n.behaviour.poll now draw true).1 = .Pending := by
              unfold Behaviour.poll
              rw [hevents]
            have hempty := h now draw true rfl hpending
            rw [(Behaviour.poll_pending hpending).2] at hempty
            simp only [on_calls, timer_is_quiet, hevents, List.isEmpty_nil, Bool.true_and,
              Bool.not_eq_true', Bool.and_eq_false_iff]
            by_cases hlow : n.behaviour.redundancy_controller.is_low = true
            · right
              simp only [Behaviour.adjust_events, hlow, if_true] at hempty
              cases hpeer : n.behaviour.reset_route_peer draw with
              | none => rfl
              | some p =>
                rw [hpeer] at hempty
                cases hempty
            · exact .inl (Bool.eq_false_iff.mpr hlow)
          · simp [on_calls, timer_is_quiet, hevents]
      | publish now data => rfl
      | handle_established_inbound_connection connection_id p => rfl
      | handle_established_outbound_connection connection_id p => rfl
      | on_swarm_event now draw event => rfl
      | on_connection_handler_event clock draw source event => rfl
    | poll_next index => rfl
    | poll_stale index elapsed => rfl
    | poll_is_empty index => rfl
  · rintro h now draw fired rfl hpending
    obtain ⟨hevents, hleft⟩ := Behaviour.poll_pending hpending
    rw [hleft]
    cases fired with
    | false => rfl
    | true =>
      simp only [on_calls, timer_is_quiet, hevents, List.isEmpty_nil, Bool.true_and,
        Bool.not_eq_true', Bool.and_eq_false_iff] at h
      unfold Behaviour.adjust_events
      rcases h with hlow | hpeer
      · simp [hlow]
      · have hnone : n.behaviour.reset_route_peer draw = none := by simpa using hpeer
        simp [hnone]

/-- Every poll of a run that puts the task to sleep leaves no event exactly when the timer never
fires on an empty queue with a ResetRoute to send. With no event left, all that the calls pushed
have been handed out. -/
theorem no_poll_sleeps_on_events_iff {s : Setup P F} {n : Node P F} {ops : List (Op P)}
    (hrun : s.machine.Run s.node ops n) :
    (s.machine.Meets Node.SleepsEmpty s.node ops ↔
      s.machine.Meets (fun n op => on_calls timer_is_quiet n op = true) s.node ops) ∧
    (n.behaviour.events = [] → Machine.observe Node.step Node.generated s.node ops =
      Machine.observe Node.step Node.emitted s.node ops) := by
  constructor
  · constructor
    · intro h before op after m he hm
      exact (sleeps_empty_iff m op).mp (h before op after m he hm)
    · intro h before op after m he hm
      exact (sleeps_empty_iff m op).mpr (h before op after m he hm)
  · intro hempty
    rw [generated_of_run hrun, Setup.pushed, hempty, List.append_nil]

end

/-- A transaction comes from peer 1 and goes to peer 2. Both events are handed out, and the timer
fires. -/
def a_transaction_and_its_events : List (Op Sample.Peer) :=
  [Sample.connect 1, Sample.connect 2, Sample.deliver 1 [Sample.raw 1 1] [],
    .call (.poll 0 0 false), .call (.poll 0 0 false), .call (.poll 0 0 true)]

theorem no_poll_sleeps_on_the_events_of_a_transaction :
    ∃ n, (Sample.setup 0).machine.Run (Sample.setup 0).node a_transaction_and_its_events n ∧
      n.behaviour.events = [] ∧
      (Sample.setup 0).machine.Meets Node.SleepsEmpty (Sample.setup 0).node
        a_transaction_and_its_events := by
  have hrun : (Machine.exec (Machine.guarded (on_calls timer_is_quiet) Node.step)
      (Sample.setup 0).node a_transaction_and_its_events).map (·.behaviour.events) =
      some [] := by decide +kernel
  obtain ⟨n, hrun, hok, hempty⟩ := Setup.exists_run hrun
  exact ⟨n, hrun, hempty, (no_poll_sleeps_on_events_iff hrun).1.mpr hok⟩

/-- Peer 2 is sent a HaveTx, two more transactions make the redundancy low, and all events are
handed out. -/
def asked_and_low : List (Op Sample.Peer) :=
  [Sample.connect 1, Sample.connect 2, Sample.deliver 1 [Sample.raw 1 1] [],
    Sample.deliver 2 [Sample.raw 1 1] [], Sample.deliver 1 [Sample.raw 1 2] [],
    Sample.deliver 1 [Sample.raw 1 3] []] ++ List.replicate 8 (.call (.poll 0 0 false))

/-- The timer fires on the empty queue: the poll sends a ResetRoute, and sleeps on its event. -/
theorem a_poll_sleeps_on_the_event_of_a_reset_route :
    ¬ ∀ (s : Setup Sample.Peer Rat) (n : Node Sample.Peer Rat), s.machine.Reachable n →
      ∀ now draw fired, (n.behaviour.poll now draw fired).1 = .Pending →
        (n.behaviour.poll now draw fired).2.events = [] := by
  intro hclaim
  have hrun : (Machine.exec Node.step (Sample.setup 0).node asked_and_low).map
      (fun n => (n.behaviour.events, (n.behaviour.poll 0 0 true).2.events)) =
      some ([], [.ResetRouteSent ⟨2⟩]) := by decide +kernel
  obtain ⟨n, hrun, hsee⟩ := Machine.exists_run_of_exec hrun
  simp only [Prod.mk.injEq] at hsee
  obtain ⟨hempty, hleft⟩ := hsee
  have hpending : (n.behaviour.poll 0 0 true).1 = .Pending := by
    unfold Behaviour.poll
    rw [hempty]
  have hnone := hclaim (Sample.setup 0) n ⟨_, _, rfl, hrun⟩ 0 0 true hpending
  rw [hnone] at hleft
  cases hleft

end libp2p_dog
