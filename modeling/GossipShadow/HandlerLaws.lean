-- Laws of the connection handler: whatever its streams and its queue do, a poll
-- ends, and neither the unreachable branches nor the assertion are reached.
import GossipShadow.Handler
import GossipShadow.Node

namespace libp2p_dog

section

variable {P S : Type}

/-! ## What waits in the queue -/

namespace Receiver

/-- How many RPCs a receiver can still give out of its queue. -/
def waiting_len (r : Receiver P) (s : Sender P) : Nat :=
  (r.priority_waiting s).length + (r.non_priority_waiting s).length

theorem poll_next_less {closed : Bool} {r r' : Receiver P} {s s' : Sender P} {rpc : RpcOut P}
    (h : r.poll_next closed s = (.Ready (some rpc), r', s')) :
    r'.waiting_len s' < r.waiting_len s := by
  unfold poll_next at h
  split at h
  · rename_i out p items hpriority
    cases h
    have hwaiting := Peekable.poll_next_some hpriority
    unfold waiting_len priority_waiting non_priority_waiting
    rw [hwaiting, List.length_cons]
    dsimp only
    omega
  · rename_i p items hpriority
    obtain ⟨rfl, rfl⟩ := Peekable.poll_next_pending hpriority
    split at h
    rename_i polled p' items' hnon_priority
    cases h
    have hwaiting := Peekable.poll_next_some hnon_priority
    unfold waiting_len priority_waiting non_priority_waiting
    rw [hwaiting, List.length_cons]
    dsimp only
    omega

end Receiver

/-! ## What holds between the calls -/

namespace EnabledHandler

/-- No substream is poisoned. While an outbound substream is asked for there is none, and the one
request is not answered yet. -/
structure Fits (h : EnabledHandler P S) (outstanding : Nat) : Prop where
  outbound : h.outbound_substream ≠ some .Poisoned
  inbound : h.inbound_substream ≠ some .Poisoned
  none_yet : h.outbound_substream_establishing = true → h.outbound_substream = none
  requests : outstanding = h.outbound_substream_establishing.toNat

/-- How far the outbound substream is from taking the next RPC. -/
def turns_left : Option (OutboundSubstreamState S) → Nat
  | some (.PendingSend _ _) => 2
  | some (.PendingFlush _) => 1
  | _ => 0

def outbound_measure (state : EnabledHandler P S × Sender P) : Nat :=
  3 * state.1.send_queue.waiting_len state.2 + turns_left state.1.outbound_substream

def inbound_measure (h : EnabledHandler P S) : Nat :=
  match h.inbound_substream with
  | some (.WaitingInput _) => 1
  | _ => 0

/-- How a loop of `poll` ends: the handler fits, and an event that it leaves with asks for no
substream. -/
def Ends {σ : Type} (handler : σ → EnabledHandler P S) (outstanding : Nat) :
    Exit σ (ConnectionHandlerEvent P) → Prop
  | .Break s => (handler s).Fits outstanding
  | .Return event s => (∃ e, event = .NotifyBehaviour e) ∧ (handler s).Fits outstanding
  | .Panic => False

theorem Fits.with_outbound {h : EnabledHandler P S} {outstanding : Nat} (hfits : h.Fits outstanding)
    (hsome : h.outbound_substream ≠ none) {state : Option (OutboundSubstreamState S)}
    (hstate : state ≠ some .Poisoned) (send_queue : Receiver P) :
    ({ h with outbound_substream := state, send_queue } : EnabledHandler P S).Fits outstanding where
  outbound := hstate
  inbound := hfits.inbound
  none_yet hestablishing := absurd (hfits.none_yet hestablishing) hsome
  requests := hfits.requests

theorem Fits.with_inbound {h : EnabledHandler P S} {outstanding : Nat} (hfits : h.Fits outstanding)
    {state : Option (InboundSubstreamState S)} (hstate : state ≠ some .Poisoned) :
    ({ h with inbound_substream := state } : EnabledHandler P S).Fits outstanding where
  outbound := hfits.outbound
  inbound := hstate
  none_yet := hfits.none_yet
  requests := hfits.requests

variable [Libp2p P]

theorem outbound_turn_keeps (io : Framed P S) (closed : Bool) (elapsed : Delay → Bool)
    (outstanding : Nat) (state : EnabledHandler P S × Sender P) (hfits : state.1.Fits outstanding) :
    Loop.Keeps (·.1.Fits outstanding) (Ends (·.1) outstanding) outbound_measure state
      (outbound_turn io closed elapsed state) := by
  obtain ⟨h, queue⟩ := state
  unfold outbound_turn
  dsimp only
  have hinbound := hfits.inbound
  cases hstate : h.outbound_substream with
  | none => exact ⟨by simp, hinbound, fun _ => rfl, hfits.requests⟩
  | some outbound =>
    have hsome : h.outbound_substream ≠ none := by simp [hstate]
    cases outbound with
    | Poisoned => exact absurd hstate hfits.outbound
    | WaitingOutput substream =>
      dsimp only
      split
      · rename_i transaction send_queue queue' hnext
        split
        · exact ⟨⟨_, rfl⟩, hfits.with_outbound hsome (by simp) _⟩
        · refine ⟨hfits.with_outbound hsome (by simp) _, ?_⟩
          have hless := Receiver.poll_next_less hnext
          simp only [outbound_measure, turns_left, hstate]
          omega
      · exact hfits.with_outbound hsome (by simp) _
    | PendingSend substream rpc =>
      dsimp only
      split
      · split
        · refine ⟨hfits.with_outbound hsome (by simp) _, ?_⟩
          simp only [outbound_measure, turns_left, hstate]
          omega
        · exact hfits.with_outbound hsome (by simp) _
      · exact hfits.with_outbound hsome (by simp) _
      · exact hfits.with_outbound hsome (by simp) _
    | PendingFlush substream =>
      dsimp only
      split
      · refine ⟨hfits.with_outbound hsome (by simp) _, ?_⟩
        simp only [outbound_measure, turns_left, hstate]
        omega
      · exact hfits.with_outbound hsome (by simp) _
      · exact hfits.with_outbound hsome (by simp) _

omit [Libp2p P] in
theorem inbound_turn_keeps (io : Framed P S) (outstanding : Nat) (h : EnabledHandler P S)
    (hfits : h.Fits outstanding) :
    Loop.Keeps (·.Fits outstanding) (Ends id outstanding) inbound_measure h
      (inbound_turn io h) := by
  unfold inbound_turn
  dsimp only
  cases hstate : h.inbound_substream with
  | none => exact hfits.with_inbound (by simp)
  | some inbound =>
    cases inbound with
    | Poisoned => exact absurd hstate hfits.inbound
    | WaitingInput substream =>
      dsimp only
      split
      · exact ⟨⟨_, rfl⟩, hfits.with_inbound (by simp)⟩
      · refine ⟨hfits.with_inbound (by simp), ?_⟩
        simp only [inbound_measure, hstate]
        omega
      · refine ⟨hfits.with_inbound (by simp), ?_⟩
        simp only [inbound_measure, hstate]
        omega
      · exact hfits.with_inbound (by simp)
    | Closing substream =>
      dsimp only
      split
      · exact hfits.with_inbound (by simp)
      · exact hfits.with_inbound (by simp)

end EnabledHandler

/-! ## A poll -/

/-- How many outbound substreams an answer asks for. -/
def requests : Poll (ConnectionHandlerEvent P) → Nat
  | .Ready (.OutboundSubstreamRequest _) => 1
  | _ => 0

namespace EnabledHandler

/-- A poll that returns, and leaves a handler that fits the requests made so far. -/
def Good (outstanding : Nat) (polled : Polled P (EnabledHandler P S)) : Prop :=
  ∃ answer h queue, polled = .Returned answer h queue ∧ h.Fits (outstanding + requests answer)

theorem Fits.with_queue {h : EnabledHandler P S} {outstanding : Nat} (hfits : h.Fits outstanding)
    (send_queue : Receiver P) : ({ h with send_queue } : EnabledHandler P S).Fits outstanding :=
  ⟨hfits.outbound, hfits.inbound, hfits.none_yet, hfits.requests⟩

theorem poll_queue_good (closed : Bool) (elapsed : Delay → Bool) {h : EnabledHandler P S}
    {outstanding : Nat} (hfits : h.Fits outstanding) (queue : Sender P) :
    Good outstanding (h.poll_queue closed elapsed queue) := by
  unfold poll_queue
  split
  · exact ⟨_, _, _, rfl, hfits.with_queue _⟩
  · exact ⟨_, _, _, rfl, hfits.with_queue _⟩

theorem poll_inbound_good (io : Framed P S) (closed : Bool) (elapsed : Delay → Bool)
    {h : EnabledHandler P S} {outstanding : Nat} (hfits : h.Fits outstanding) (queue : Sender P) :
    ∃ enough polled, Good outstanding polled ∧
      ∀ fuel, enough < fuel → h.poll_inbound io closed elapsed fuel queue = some polled := by
  obtain ⟨e, hends, hrun⟩ :=
    Loop.run_of_measure (fun h hfits => inbound_turn_keeps io outstanding h hfits) hfits
  refine ⟨inbound_measure h, _, ?_, fun fuel hfuel => by rw [poll_inbound, hrun fuel hfuel]; rfl⟩
  cases e with
  | Break h => exact poll_queue_good closed elapsed hends queue
  | Return event h =>
    obtain ⟨⟨e, rfl⟩, hfits⟩ := hends
    exact ⟨_, _, _, rfl, hfits⟩
  | Panic => exact hends.elim

variable [Libp2p P]

theorem poll_good (io : Framed P S) (closed : Bool) (elapsed : Delay → Bool)
    {h : EnabledHandler P S} {outstanding : Nat} (hfits : h.Fits outstanding) (queue : Sender P) :
    ∃ enough polled, Good outstanding polled ∧
      ∀ fuel, enough < fuel → h.poll io closed elapsed fuel queue = some polled := by
  unfold poll
  obtain ⟨⟨is_empty, send_queue, queue'⟩, hempty⟩ :
      ∃ peeked, peeked = h.send_queue.poll_is_empty closed queue := ⟨_, rfl⟩
  rw [← hempty]
  dsimp only
  split
  · rename_i hasks
    simp only [Bool.and_eq_true, Bool.not_eq_true', Option.isNone_iff_eq_none] at hasks
    obtain ⟨⟨-, hnone⟩, hidle⟩ := hasks
    refine ⟨0, _, ⟨_, _, _, rfl, ?_⟩, fun _ _ => rfl⟩
    have hzero : outstanding = 0 := by rw [hfits.requests, hidle]; rfl
    exact ⟨hfits.outbound, hfits.inbound, fun _ => hnone, by rw [hzero]; rfl⟩
  · obtain ⟨e, hends, hrun⟩ := Loop.run_of_measure
      (fun state hfits => outbound_turn_keeps io closed elapsed outstanding state hfits)
      (s := ({ h with send_queue }, queue')) (hfits.with_queue send_queue)
    cases e with
    | Break state =>
      obtain ⟨enough, polled, hgood, hinbound⟩ :=
        poll_inbound_good io closed elapsed hends state.2
      refine ⟨max (outbound_measure ({ h with send_queue }, queue')) enough, polled, hgood, ?_⟩
      intro fuel hfuel
      rw [hrun fuel (by omega), Option.bind_some]
      exact hinbound fuel (by omega)
    | Return event state =>
      obtain ⟨⟨e, rfl⟩, hfits⟩ := hends
      refine ⟨outbound_measure ({ h with send_queue }, queue'),
        .Returned (.Ready (.NotifyBehaviour e)) state.1 state.2, ⟨_, _, _, rfl, hfits⟩, ?_⟩
      intro fuel hfuel
      rw [hrun fuel hfuel]
      rfl
    | Panic => exact hends.elim

end EnabledHandler

/-! ## An event -/

/-- If the handler is enabled, it fits the outstanding requests. -/
def Handler.Fits (handler : Handler P S) (outstanding : Nat) : Prop :=
  ∀ h, handler = .Enabled h → h.Fits outstanding

theorem Handler.Fits.disabled (d : DisabledHandler) (outstanding : Nat) :
    (Handler.Disabled d : Handler P S).Fits outstanding := by
  intro h hh
  cases hh

theorem Handler.Fits.enabled {h : EnabledHandler P S} {outstanding : Nat}
    (hfits : h.Fits outstanding) : (Handler.Enabled h).Fits outstanding := by
  intro h' hh
  cases hh
  exact hfits

namespace EnabledHandler

/-- The outcome of the one request: nothing is outstanding after it, and there is no outbound
substream yet. -/
theorem Fits.answered {h : EnabledHandler P S} {outstanding : Nat} (hfits : h.Fits outstanding)
    (hpos : 0 < outstanding) (attempts : Nat) :
    h.outbound_substream = none ∧
      ({ h with
          outbound_substream_establishing := false
          outbound_substream_attempts := attempts } :
        EnabledHandler P S).Fits (outstanding - 1) := by
  have hestablishing : h.outbound_substream_establishing = true := by
    by_contra hidle
    rw [hfits.requests, Bool.eq_false_iff.mpr hidle] at hpos
    cases hpos
  have hone : outstanding = 1 := by rw [hfits.requests, hestablishing]; rfl
  exact ⟨hfits.none_yet hestablishing, hfits.outbound, hfits.inbound, Bool.noConfusion, by
    rw [hone]
    rfl⟩

theorem Fits.counted {h : EnabledHandler P S} {outstanding : Nat} (hfits : h.Fits outstanding)
    (attempts : Nat) :
    ({ h with inbound_substream_attempts := attempts } : EnabledHandler P S).Fits outstanding :=
  ⟨hfits.outbound, hfits.inbound, hfits.none_yet, hfits.requests⟩

end EnabledHandler

/-- The assertion holds when an outbound substream comes: there is none yet. -/
theorem EnabledHandler.on_counted_event_fits {h : EnabledHandler P S} {outstanding : Nat}
    (hfits : h.Fits outstanding) (e : ConnectionEvent S)
    (hanswered : e.is_outbound = true →
      h.outbound_substream = none ∧ h.outbound_substream_establishing = false) :
    ∃ handler, h.on_counted_event e = some handler ∧ handler.Fits outstanding := by
  cases e with
  | FullyNegotiatedInbound protocol =>
    cases protocol with
    | inl protocol => exact ⟨_, rfl, .enabled (hfits.with_inbound (by simp))⟩
    | inr v => exact v.elim
  | FullyNegotiatedOutbound protocol =>
    obtain ⟨hnone, hidle⟩ := hanswered rfl
    refine ⟨.Enabled { h with outbound_substream := some (.WaitingOutput protocol) }, ?_, ?_⟩
    · simp [on_counted_event, on_fully_negotiated_outbound, hnone]
    · apply Handler.Fits.enabled
      refine ⟨by simp, hfits.inbound, ?_, hfits.requests⟩
      intro hestablishing
      rw [hidle] at hestablishing
      cases hestablishing
  | DialUpgradeError error =>
    cases error with
    | Timeout => exact ⟨_, rfl, .enabled hfits⟩
    | Apply e => exact e.elim
    | NegotiationFailed => exact ⟨_, rfl, .disabled _ _⟩
    | Io e => exact ⟨_, rfl, .enabled hfits⟩
  | AddressChange => exact ⟨_, rfl, .enabled hfits⟩
  | ListenUpgradeError => exact ⟨_, rfl, .enabled hfits⟩
  | LocalProtocolsChange => exact ⟨_, rfl, .enabled hfits⟩
  | RemoteProtocolsChange => exact ⟨_, rfl, .enabled hfits⟩

theorem Handler.on_connection_event_fits {handler : Handler P S} {outstanding : Nat}
    (hfits : handler.Fits outstanding) (e : ConnectionEvent S)
    (hallowed : e.is_outbound = true → 0 < outstanding) :
    ∃ handler', handler.on_connection_event e = some handler' ∧
      handler'.Fits (outstanding - e.is_outbound.toNat) := by
  cases handler with
  | Disabled d => exact ⟨_, rfl, Fits.disabled d _⟩
  | Enabled h =>
    unfold on_connection_event
    dsimp only
    have hcounted : (if e.is_inbound = true then
        { h with inbound_substream_attempts := h.inbound_substream_attempts + 1 } else h).Fits
          outstanding := by
      split
      · exact (hfits h rfl).counted _
      · exact hfits h rfl
    revert hcounted
    generalize (if e.is_inbound = true then
      { h with inbound_substream_attempts := h.inbound_substream_attempts + 1 } else h) = counted
    intro hcounted
    split
    · exact ⟨_, rfl, Fits.disabled _ _⟩
    · cases houtbound : e.is_outbound with
      | false =>
        simp only [Bool.false_eq_true, if_false, Bool.false_and]
        refine counted.on_counted_event_fits hcounted e ?_
        intro h
        rw [houtbound] at h
        cases h
      | true =>
        obtain ⟨hnone, hanswered⟩ := hcounted.answered (hallowed houtbound)
          (counted.outbound_substream_attempts + 1)
        simp only [if_true, Bool.true_and]
        split
        · exact ⟨_, rfl, Fits.disabled _ _⟩
        · exact EnabledHandler.on_counted_event_fits hanswered e fun _ => ⟨hnone, rfl⟩

/-! ## Over whole runs -/

/-- The poll returns: with enough fuel it gives this answer, this handler and this queue. -/
def Handler.Returns [Libp2p P] (handler : Handler P S) (io : Framed P S) (closed : Bool)
    (elapsed : Delay → Bool) (queue : Sender P) (answer : Poll (ConnectionHandlerEvent P))
    (handler' : Handler P S) (queue' : Sender P) : Prop :=
  ∃ enough, ∀ fuel, enough < fuel →
    handler.poll io closed elapsed fuel queue = some (.Returned answer handler' queue')

theorem Handler.Fits.poll [Libp2p P] {handler : Handler P S} {outstanding : Nat}
    (hfits : handler.Fits outstanding) (io : Framed P S) (closed : Bool) (elapsed : Delay → Bool)
    (queue : Sender P) :
    ∃ answer handler' queue', handler.Returns io closed elapsed queue answer handler' queue' ∧
      handler'.Fits (outstanding + requests answer) := by
  cases handler with
  | Disabled d =>
    exact ⟨.Pending, .Disabled d, queue, ⟨0, fun _ _ => rfl⟩, .disabled d _⟩
  | Enabled h =>
    obtain ⟨enough, polled, ⟨answer, h', queue', rfl, hgood⟩, hrun⟩ :=
      EnabledHandler.poll_good io closed elapsed (hfits h rfl) queue
    refine ⟨answer, .Enabled h', queue', ⟨enough, ?_⟩, .enabled hgood⟩
    intro fuel hfuel
    simp only [Handler.poll, hrun fuel hfuel]
    rfl

theorem Handler.Returns.unique [Libp2p P] {handler h₁ h₂ : Handler P S} {io : Framed P S}
    {closed : Bool} {elapsed : Delay → Bool} {queue q₁ q₂ : Sender P}
    {a₁ a₂ : Poll (ConnectionHandlerEvent P)}
    (hret₁ : handler.Returns io closed elapsed queue a₁ h₁ q₁)
    (hret₂ : handler.Returns io closed elapsed queue a₂ h₂ q₂) : a₁ = a₂ ∧ h₁ = h₂ := by
  obtain ⟨enough₁, hrun₁⟩ := hret₁
  obtain ⟨enough₂, hrun₂⟩ := hret₂
  have h₁ := hrun₁ (max enough₁ enough₂ + 1) (by omega)
  have h₂ := hrun₂ (max enough₁ enough₂ + 1) (by omega)
  rw [h₁] at h₂
  cases h₂
  exact ⟨rfl, rfl⟩

/-- A handler with its connection. Of the outbound substreams that the handler has asked for, some
are not answered yet. -/
structure Link (P S : Type) where
  handler : Handler P S
  outstanding : Nat

namespace Link

/-- What happens to a handler: it is polled, with any streams and any queue, or it is told of an
event. -/
inductive Input (P S : Type) where
  | poll (io : Framed P S) (closed : Bool) (elapsed : Delay → Bool) (queue : Sender P)
  | event (e : ConnectionEvent S)

/-- An outbound substream comes, or fails, for a request, and once. -/
def Allows (c : Link P S) (e : ConnectionEvent S) : Prop :=
  e.is_outbound = true → 0 < c.outstanding

variable [Libp2p P]

inductive Step (c : Link P S) : Input P S → Link P S → Prop
  | poll {io : Framed P S} {closed : Bool} {elapsed : Delay → Bool} {queue queue' : Sender P}
      {answer : Poll (ConnectionHandlerEvent P)} {handler : Handler P S}
      (returns : c.handler.Returns io closed elapsed queue answer handler queue') :
      Step c (.poll io closed elapsed queue)
        { handler, outstanding := c.outstanding + requests answer }
  | event {e : ConnectionEvent S} {handler : Handler P S} (allowed : c.Allows e)
      (told : c.handler.on_connection_event e = some handler) :
      Step c (.event e) { handler, outstanding := c.outstanding - e.is_outbound.toNat }

def machine : Machine (Link P S) (Input P S) where
  init c := ∃ protocol_config transaction_queue,
    c = { handler := .new protocol_config transaction_queue, outstanding := 0 }
  step := Step

end Link

/-- Whatever the streams and the queue do: no substream is poisoned between the calls, each poll
returns, and no event fails the assertion. -/
theorem the_handler_does_not_panic [Libp2p P] {c : Link P S} (hc : Link.machine.Reachable c) :
    (∀ h, c.handler = .Enabled h →
      h.outbound_substream ≠ some .Poisoned ∧ h.inbound_substream ≠ some .Poisoned) ∧
    (∀ io closed elapsed queue, ∃ answer handler queue',
      c.handler.Returns io closed elapsed queue answer handler queue') ∧
    ∀ e, c.Allows e → ∃ handler, c.handler.on_connection_event e = some handler := by
  have hfits : c.handler.Fits c.outstanding := by
    refine hc.invariant (p := fun c => c.handler.Fits c.outstanding) ?_ ?_
    · rintro c ⟨protocol_config, transaction_queue, rfl⟩
      exact .enabled ⟨by simp, by simp, fun _ => rfl, rfl⟩
    · intro c i c' hfits hstep
      cases hstep with
      | poll returns =>
        obtain ⟨answer, handler, queue', hreturns, hgood⟩ := hfits.poll _ _ _ _
        obtain ⟨rfl, rfl⟩ := returns.unique hreturns
        exact hgood
      | event allowed told =>
        obtain ⟨handler, htold, hgood⟩ := Handler.on_connection_event_fits hfits _ allowed
        rw [told] at htold
        cases htold
        exact hgood
  refine ⟨?_, ?_, ?_⟩
  · intro h hh
    exact ⟨(hfits h hh).outbound, (hfits h hh).inbound⟩
  · intro io closed elapsed queue
    obtain ⟨answer, handler, queue', hreturns, -⟩ := hfits.poll io closed elapsed queue
    exact ⟨answer, handler, queue', hreturns⟩
  · intro e hallowed
    obtain ⟨handler, htold, -⟩ := Handler.on_connection_event_fits hfits e hallowed
    exact ⟨handler, htold⟩

end

/-- The answers of streams that nothing is ready on. -/
def idle_streams : Framed Sample.Peer Unit where
  poll_ready _ := (.Pending, ())
  start_send _ _ := (.ok (), ())
  poll_flush _ := (.Pending, ())
  poll_next _ := (.Pending, ())
  poll_close _ := (.Pending, ())

/-- A HaveTx waits, and the handler asks for a substream; it comes. -/
theorem the_handler_takes_the_substream_that_it_asked_for :
    ∃ (c : Link Sample.Peer Unit) (handler : Handler Sample.Peer Unit),
      Link.machine.Reachable c ∧ c.outstanding = 1 ∧
      c.handler.on_connection_event (.FullyNegotiatedOutbound ()) = some handler := by
  let queue : Sender Sample.Peer :=
    (Sender.new 2).push [.HaveTx { tx_id := Sample.tx_id 1 1 }]
  let start : Link Sample.Peer Unit :=
    { handler := .new .default queue.new_receiver, outstanding := 0 }
  have hreturns : ∃ handler queue', start.handler.Returns idle_streams false (fun _ => false) queue
      (.Ready (.OutboundSubstreamRequest .default)) handler queue' :=
    ⟨_, _, 0, fun _ _ => rfl⟩
  obtain ⟨handler, queue', hreturns⟩ := hreturns
  have hreachable :
      Link.machine.Reachable ({ handler, outstanding := 1 } : Link Sample.Peer Unit) :=
    ⟨start, [_], ⟨_, _, rfl⟩, .single (.poll hreturns)⟩
  obtain ⟨-, -, hevent⟩ := the_handler_does_not_panic hreachable
  obtain ⟨handler', htold⟩ := hevent (.FullyNegotiatedOutbound ()) fun _ => Nat.one_pos
  exact ⟨_, handler', hreachable, rfl, htold⟩

end libp2p_dog
