-- Laws of a handler and the sender of its queue: when the handler takes the
-- queue for empty, and when it asks for a substream.
import GossipShadow.LifeLaws

namespace libp2p_dog

section

variable {P S : Type}

/-! ## What a poll does with the queue -/

/-- The two streams are empty when they have ended, both of them. -/
theorem Receiver.poll_is_empty_iff {closed : Bool} {r : Receiver P} {s : Sender P}
    (h : r.Sound closed s) :
    (r.poll_is_empty closed s).1 = true ↔ closed = true ∧ r.waiting s = [] := by
  obtain ⟨-, -, hpriority⟩ := Peekable.poll_peek_spec h.priority
  obtain ⟨-, -, hnon_priority⟩ := Peekable.poll_peek_spec h.non_priority
  unfold poll_is_empty waiting priority_waiting non_priority_waiting
  dsimp only
  cases hwaiting : r.priority_receiver.waiting s.priority with
  | cons rpc rest =>
    rw [hwaiting] at hpriority
    simp [hpriority.1]
  | nil =>
    rw [hwaiting] at hpriority
    cases hwaiting' : r.non_priority_receiver.waiting s.non_priority with
    | cons rpc rest =>
      rw [hwaiting'] at hnon_priority
      simp only at hpriority
      rw [hpriority]
      cases closed <;> simp [hnon_priority.1]
    | nil =>
      rw [hwaiting'] at hnon_priority
      simp only at hpriority hnon_priority
      rw [hpriority, hnon_priority]
      cases closed <;> simp

/-- The receiver is sound, and what waits for it is of `accepted`. -/
structure Receiver.Serves (closed : Bool) (accepted : List (RpcOut P)) (r : Receiver P)
    (s : Sender P) : Prop where
  sound : r.Sound closed s
  accepted : ∀ rpc ∈ r.waiting s, rpc ∈ accepted

theorem Receiver.Serves.takes {closed : Bool} {accepted : List (RpcOut P)} {r r' : Receiver P}
    {s s' : Sender P} {out : Option (RpcOut P)} (h : r.Serves closed accepted s)
    (htakes : Takes closed r s out r' s') : r'.Serves closed accepted s' where
  sound := htakes.sound
  accepted rpc hrpc := h.accepted rpc (htakes.mem_waiting.mpr (.inr hrpc))

/-- The sender accepts an RPC. -/
theorem Receiver.Serves.sent {accepted : List (RpcOut P)} {r : Receiver P} {s s' : Sender P}
    (h : r.Serves false accepted s) {rpc : RpcOut P} (hsent : s.send_transaction rpc = .ok s') :
    r.Serves false (accepted ++ [rpc]) s' where
  sound := h.sound.of_open s'
  accepted rpc' hrpc := by
    rw [Sender.send_transaction_ok hsent, mem_waiting_push] at hrpc
    rcases hrpc with hrpc | hrpc
    · exact List.mem_append_left _ (h.accepted rpc' hrpc)
    · exact List.mem_append_right _ hrpc

/-- Another receiver takes out of the channels. -/
theorem Receiver.Serves.share {closed : Bool} {accepted : List (RpcOut P)} {r : Receiver P}
    {s s' : Sender P} (h : r.Serves closed accepted s) (hpriority : s'.priority <:+ s.priority)
    (hnon_priority : s'.non_priority <:+ s.non_priority) : r.Serves closed accepted s' where
  sound := by
    constructor
    · intro hdone
      obtain ⟨hclosed, hnone, hnil⟩ := h.sound.priority hdone
      rw [hnil] at hpriority
      exact ⟨hclosed, hnone, List.suffix_nil.mp hpriority⟩
    · intro hdone
      obtain ⟨hclosed, hnone, hnil⟩ := h.sound.non_priority hdone
      rw [hnil] at hnon_priority
      exact ⟨hclosed, hnone, List.suffix_nil.mp hnon_priority⟩
  accepted rpc hrpc := by
    apply h.accepted rpc
    simp only [waiting, priority_waiting, non_priority_waiting, Peekable.waiting,
      List.mem_append] at hrpc ⊢
    rcases hrpc with (hslot | hrpc) | hslot | hrpc
    · exact .inl (.inl hslot)
    · exact .inl (.inr (hpriority.subset hrpc))
    · exact .inr (.inl hslot)
    · exact .inr (.inr (hnon_priority.subset hrpc))

/-- The sender is dropped. -/
theorem Receiver.Serves.drop_sender {accepted : List (RpcOut P)} {r : Receiver P} {s : Sender P}
    (h : r.Serves false accepted s) : r.Serves true accepted s where
  sound := by
    constructor
    · intro hdone
      rw [Peekable.sound_open.mp h.sound.priority] at hdone
      cases hdone
    · intro hdone
      rw [Peekable.sound_open.mp h.sound.non_priority] at hdone
      cases hdone
  accepted := h.accepted

namespace EnabledHandler

variable {closed : Bool} {accepted : List (RpcOut P)}

theorem inbound_turn_serves (io : Framed P S) {h : EnabledHandler P S} {queue : Sender P}
    (hserves : h.send_queue.Serves closed accepted queue) :
    Loop.Preserves (fun h => h.send_queue.Serves closed accepted queue)
      (fun
        | .Break h => h.send_queue.Serves closed accepted queue
        | .Return _ h => h.send_queue.Serves closed accepted queue
        | .Panic => True)
      (inbound_turn io h) := by
  unfold inbound_turn
  dsimp only
  split
  · split
    · exact hserves
    · exact hserves
    · exact hserves
    · exact hserves
  · split
    · exact hserves
    · exact hserves
  · exact hserves
  · trivial

theorem poll_queue_serves {elapsed : Delay → Bool} {h h' : EnabledHandler P S}
    {queue queue' : Sender P} {answer : Poll (ConnectionHandlerEvent P)}
    (hserves : h.send_queue.Serves closed accepted queue)
    (hpoll : h.poll_queue closed elapsed queue = .Returned answer h' queue') :
    h'.send_queue.Serves closed accepted queue' := by
  have hstale := hserves.takes (@Receiver.poll_stale_spec P closed elapsed _ _ hserves.sound).1
  unfold poll_queue at hpoll
  split at hpoll
  · rename_i hpolled
    cases hpoll
    rw [hpolled] at hstale
    exact hstale
  · rename_i hpolled
    cases hpoll
    rw [hpolled] at hstale
    exact hstale

variable [Libp2p P]

theorem outbound_turn_serves (io : Framed P S) (elapsed : Delay → Bool)
    {state : EnabledHandler P S × Sender P}
    (hserves : state.1.send_queue.Serves closed accepted state.2) :
    Loop.Preserves (fun state => state.1.send_queue.Serves closed accepted state.2)
      (fun
        | .Break state => state.1.send_queue.Serves closed accepted state.2
        | .Return _ state => state.1.send_queue.Serves closed accepted state.2
        | .Panic => True)
      (outbound_turn io closed elapsed state) := by
  obtain ⟨h, queue⟩ := state
  have hnext := hserves.takes (Receiver.poll_next_spec hserves.sound).1
  unfold outbound_turn
  dsimp only at hserves hnext ⊢
  split
  · split
    · rename_i hpolled
      rw [hpolled] at hnext
      split
      · exact hnext
      · exact hnext
    · rename_i hpolled
      rw [hpolled] at hnext
      exact hnext
  · split
    · split
      · exact hserves
      · exact hserves
    · exact hserves
    · exact hserves
  · split
    · exact hserves
    · exact hserves
    · exact hserves
  · exact hserves
  · trivial

/-- A poll only takes out of the queue. -/
theorem poll_serves {io : Framed P S} {elapsed : Delay → Bool} {fuel : Nat}
    {h h' : EnabledHandler P S} {queue queue' : Sender P}
    {answer : Poll (ConnectionHandlerEvent P)} (hserves : h.send_queue.Serves closed accepted queue)
    (hpoll : h.poll io closed elapsed fuel queue = some (.Returned answer h' queue')) :
    h'.send_queue.Serves closed accepted queue' := by
  have hpeeked : (h.peeked closed queue).1.send_queue.Serves closed accepted
      (h.peeked closed queue).2 := hserves.takes (Receiver.poll_is_empty_spec hserves.sound).1
  obtain ⟨deeds, -, hends⟩ := poll_ends hpoll
  cases hends with
  | asked asks => exact hpeeked
  | outbound asks run =>
    exact Loop.run_preserves (fun state hs => outbound_turn_serves io elapsed hs) hpeeked run
  | inbound asks run run_inbound =>
    have hsent :=
      Loop.run_preserves (fun state hs => outbound_turn_serves io elapsed hs) hpeeked run
    exact Loop.run_preserves (fun h hs => inbound_turn_serves io hs) hsent run_inbound
  | swept asks run run_inbound rest =>
    have hsent :=
      Loop.run_preserves (fun state hs => outbound_turn_serves io elapsed hs) hpeeked run
    have hread := Loop.run_preserves (fun h hs => inbound_turn_serves io hs) hsent run_inbound
    exact poll_queue_serves hread rest

end EnabledHandler

/-! ## A handler and its sender -/

/-- A handler with its connection, and the sender of its queue. -/
structure Session (P S : Type) extends Link P S where
  sender : Sender P
  /-- The sender was not dropped yet. -/
  alive : Bool
  /-- What the sender accepted. -/
  accepted : List (RpcOut P)
  /-- How many outbound substreams the handler has asked for. -/
  requested : Nat

theorem requests_cases (answer : Poll (ConnectionHandlerEvent P)) :
    requests answer = 0 ∨ requests answer = 1 := by
  unfold requests
  split
  · exact .inr rfl
  · exact .inl rfl

namespace Session

inductive Input (P S : Type) where
  | send (rpc : RpcOut P)
  | poll (io : Framed P S) (elapsed : Delay → Bool)
  | event (e : ConnectionEvent S)
  /-- The receiver of another connection takes out of the channels. -/
  | share (sender : Sender P)
  | drop_sender

/-- At the start of the connection the sender may have accepted RPCs for others before. -/
def start (protocol_config : ProtocolConfig) (sender : Sender P) : Session P S where
  handler := .new protocol_config sender.new_receiver
  outstanding := 0
  sender
  alive := true
  accepted := sender.priority ++ sender.non_priority
  requested := 0

variable [Libp2p P]

inductive Step (c : Session P S) : Input P S → Session P S → Prop
  | send {rpc : RpcOut P} {sender : Sender P} (alive : c.alive = true)
      (sent : c.sender.send_transaction rpc = .ok sender) :
      Step c (.send rpc) { c with sender, accepted := c.accepted ++ [rpc] }
  | refuse {rpc rpc' : RpcOut P} (alive : c.alive = true)
      (refused : c.sender.send_transaction rpc = .error rpc') : Step c (.send rpc) c
  | poll {io : Framed P S} {elapsed : Delay → Bool} {answer : Poll (ConnectionHandlerEvent P)}
      {handler : Handler P S} {sender : Sender P}
      (returns : c.handler.Returns io (!c.alive) elapsed c.sender answer handler sender) :
      Step c (.poll io elapsed) { c with
        handler
        outstanding := c.outstanding + requests answer
        sender
        requested := c.requested + requests answer }
  | event {e : ConnectionEvent S} {handler : Handler P S} (allowed : c.Allows e)
      (told : c.handler.on_connection_event e = some handler) :
      Step c (.event e) { c with handler, outstanding := c.outstanding - e.is_outbound.toNat }
  | share {sender : Sender P} (priority : sender.priority <:+ c.sender.priority)
      (non_priority : sender.non_priority <:+ c.sender.non_priority) :
      Step c (.share sender) { c with sender }
  | drop_sender (alive : c.alive = true) : Step c .drop_sender { c with alive := false }

def machine : Machine (Session P S) (Input P S) where
  init c := ∃ protocol_config sender, c = start protocol_config sender
  step := Step

/-- What waits for the handler was accepted, and its queue is sound. -/
def Serves (c : Session P S) : Prop :=
  ∀ h, c.handler = .Enabled h → h.send_queue.Serves (!c.alive) c.accepted c.sender

omit [Libp2p P] in
theorem Serves.start (protocol_config : ProtocolConfig) (sender : Sender P) :
    (start protocol_config sender : Session P S).Serves := by
  rintro h ⟨⟩
  refine ⟨⟨Peekable.sound_new _ _, Peekable.sound_new _ _⟩, ?_⟩
  intro rpc hrpc
  exact hrpc

theorem Serves.step {c c' : Session P S} (hserves : c.Serves) {i : Input P S}
    (hstep : Step c i c') : c'.Serves := by
  cases hstep with
  | send alive sent =>
    intro h hh
    have hbefore := hserves h hh
    rw [alive] at hbefore
    simp only [alive]
    exact hbefore.sent sent
  | refuse => exact hserves
  | poll returns =>
    obtain ⟨deeds, hreturns⟩ := returns.with_deeds
    rcases hreturns.cases with ⟨h, h', fuel, hh, rfl, hpoll, -⟩ | ⟨d, -, rfl, -⟩
    · rintro _ ⟨⟩
      exact EnabledHandler.poll_serves (hserves h hh) hpoll
    · rintro _ ⟨⟩
  | event allowed told =>
    rintro h' rfl
    obtain ⟨h, hh, hcounted⟩ := Handler.enabled_of_event told
    rw [hcounted.send_queue]
    exact hserves h hh
  | share priority non_priority =>
    intro h hh
    exact (hserves h hh).share priority non_priority
  | drop_sender alive =>
    intro h hh
    have hbefore := hserves h hh
    rw [alive] at hbefore
    exact hbefore.drop_sender

theorem serves_of_run {c c' : Session P S} (hinit : machine.init c) {is : List (Input P S)}
    (hrun : machine.Run c is c') : c'.Serves := by
  refine hrun.invariant ?_ ?_
  · obtain ⟨protocol_config, sender, rfl⟩ := hinit
    exact .start protocol_config sender
  · intro c i c' hserves hstep
    exact hserves.step hstep

/-! ## When the handler asks for a substream -/

/-- A poll takes the queue for empty when nothing waits in it, and asks for a substream only to send
what waits, when it has none and has asked for none. -/
def Right (c : Session P S) : Input P S → Prop
  | .poll io elapsed => ∀ h, c.handler = .Enabled h →
    ((h.send_queue.poll_is_empty (!c.alive) c.sender).1 = true ↔
      h.send_queue.waiting c.sender = []) ∧
    ∀ answer handler sender,
      c.handler.Returns io (!c.alive) elapsed c.sender answer handler sender →
      requests answer = 1 →
      (∃ rpc ∈ h.send_queue.waiting c.sender, rpc ∈ c.accepted) ∧
      h.outbound_substream = none ∧ h.outbound_substream_establishing = false
  | _ => True

/-- A poll finds an RPC that waits, or the sender is gone. -/
def Busy (c : Session P S) : Input P S → Prop
  | .poll _ _ => ∀ h, c.handler = .Enabled h → c.alive = true → h.send_queue.waiting c.sender ≠ []
  | _ => True

theorem Serves.right_iff {c : Session P S} (hserves : c.Serves) (i : Input P S) :
    c.Right i ↔ c.Busy i := by
  cases i with
  | poll io elapsed =>
    constructor
    · intro hright h hh halive hnil
      have hempty := (hright h hh).1.mpr hnil
      rw [Receiver.poll_is_empty_iff (hserves h hh).sound, halive] at hempty
      cases hempty.1
    · intro hbusy h hh
      have hserving := hserves h hh
      have hempty : (h.send_queue.poll_is_empty (!c.alive) c.sender).1 = true ↔
          h.send_queue.waiting c.sender = [] := by
        rw [Receiver.poll_is_empty_iff hserving.sound]
        refine and_iff_right_of_imp ?_
        intro hnil
        rw [Bool.not_eq_true']
        exact (Bool.not_eq_true _).mp fun halive => hbusy h hh halive hnil
      refine ⟨hempty, ?_⟩
      intro answer handler sender hreturns hrequests
      obtain ⟨deeds, hreturns⟩ := hreturns.with_deeds
      rcases hreturns.cases with ⟨h₁, h', fuel, hh₁, -, hpoll, -⟩ | ⟨d, hd, -⟩
      · rw [hh] at hh₁
        cases hh₁
        rcases EnabledHandler.poll_cases hpoll with ⟨hasks, -, -⟩ | ⟨-, hnone, -⟩
        · simp only [EnabledHandler.asks, Bool.and_eq_true, Bool.not_eq_true',
            Option.isNone_iff_eq_none] at hasks
          obtain ⟨⟨hwaits, hnone⟩, hidle⟩ := hasks
          refine ⟨?_, hnone, hidle⟩
          have hne : h.send_queue.waiting c.sender ≠ [] := by
            intro hnil
            rw [hempty.mpr hnil] at hwaits
            cases hwaits
          obtain ⟨rpc, hrpc⟩ := List.exists_mem_of_ne_nil _ hne
          exact ⟨rpc, hrpc, hserving.accepted rpc hrpc⟩
        · omega
      · rw [hh] at hd
        cases hd
  | send | event | share | drop_sender => exact Iff.rfl

/-- Nothing was accepted, and no substream was asked for. -/
def Unused (c : Session P S) : Prop := c.accepted = [] → c.requested = 0

theorem Unused.step {c c' : Session P S} (hunused : c.Unused) {i : Input P S} (hright : c.Right i)
    (hstep : Step c i c') : c'.Unused := by
  cases hstep with
  | send => exact fun hnil => absurd hnil (by simp)
  | refuse => exact hunused
  | @poll io elapsed answer handler sender returns =>
    intro hnil
    have hzero : c.requested = 0 := hunused hnil
    dsimp only
    obtain ⟨deeds, hreturns⟩ := returns.with_deeds
    rcases hreturns.cases with ⟨h, h', fuel, hh, -⟩ | ⟨d, -, -, rfl, -⟩
    · rcases requests_cases answer with hnone | hone
      · omega
      · obtain ⟨⟨rpc, -, hrpc⟩, -⟩ := (hright h hh).2 answer handler sender returns hone
        have hnil : c.accepted = [] := hnil
        rw [hnil] at hrpc
        cases hrpc
    · rw [hzero]
      rfl
  | event => exact hunused
  | share => exact hunused
  | drop_sender => exact hunused

end Session

/-- Over a run, the queue is taken for empty when nothing waits, a substream is asked for only to
send what waits, and an unused connection asks for none, as long as no poll finds the sender alive
and nothing that waits, and no longer. -/
theorem the_handler_asks_only_to_send_iff [Libp2p P] {c c' : Session P S}
    (hinit : Session.machine.init c) {is : List (Session.Input P S)}
    (hrun : Session.machine.Run c is c') :
    (Session.machine.Meets Session.Right c is ∧ (c'.accepted = [] → c'.requested = 0)) ↔
      Session.machine.Meets Session.Busy c is := by
  have hiff : Session.machine.Meets Session.Right c is ↔
      Session.machine.Meets Session.Busy c is := by
    unfold Machine.Meets
    refine forall₄_congr fun is₁ i is₂ t => forall₂_congr fun _ hrun => ?_
    exact (Session.serves_of_run hinit hrun).right_iff i
  rw [hiff]
  refine and_iff_left_of_imp fun hbusy => ?_
  refine hrun.invariant_of_meets (p := Session.Unused) (hiff.mpr hbusy) ?_ ?_
  · obtain ⟨protocol_config, sender, rfl⟩ := hinit
    exact fun _ => rfl
  · intro c i c' hunused hright hstep
    exact hunused.step hright hstep

end

/-- A HaveTx is sent, and the handler asks for a substream. -/
theorem the_handler_asks_for_a_substream_to_send_a_have_tx :
    ∃ (c c' : Session Sample.Peer Unit) (is : List (Session.Input Sample.Peer Unit)),
      Session.machine.init c ∧ Session.machine.Run c is c' ∧ c'.requested = 1 ∧
      Session.machine.Meets Session.Right c is ∧ (c'.accepted = [] → c'.requested = 0) := by
  let rpc : RpcOut Sample.Peer := .HaveTx { tx_id := Sample.tx_id 1 1 }
  let c : Session Sample.Peer Unit := Session.start .default (.new 2)
  have haccepted : c.sender.send_transaction rpc = .ok ((Sender.new 2).push [rpc]) := rfl
  have hsent := Session.Step.send (c := c) rfl haccepted
  have hreturns : c.handler.Returns idle_streams false (fun _ => false)
      ((Sender.new 2).push [rpc]) (.Ready (.OutboundSubstreamRequest .default)) _ _ :=
    ⟨0, fun _ _ => rfl⟩
  have hasked := Session.Step.poll
    (c := { c with sender := (Sender.new 2).push [rpc], accepted := c.accepted ++ [rpc] }) hreturns
  have hinit : Session.machine.init c := ⟨_, _, rfl⟩
  have hrun := Machine.Run.snoc (M := Session.machine) (.single hsent) hasked
  have hbusy : Session.machine.Meets Session.Busy c
      [.send rpc, .poll idle_streams fun _ => false] := by
    rintro (_ | ⟨j, _ | ⟨k, is₁⟩⟩) i is₂ t he hrun
    · cases he
      trivial
    · cases he
      obtain ⟨t', hstep, hnil⟩ := hrun.cons_inv
      obtain rfl := hnil.nil_inv
      cases hstep with
      | send alive sent =>
        rw [haccepted] at sent
        cases sent
        rintro h ⟨⟩ - hnil
        cases hnil
      | refuse alive refused =>
        rw [haccepted] at refused
        cases refused
    · simp at he
  exact ⟨_, _, _, hinit, hrun, rfl, (the_handler_asks_only_to_send_iff hinit hrun).mpr hbusy⟩

/-! ## A connection that nothing is sent on -/

/-- Such a connection after so many attempts. -/
def unused (attempts : Nat) (asked : Bool) : Session Sample.Peer Unit where
  handler := .Enabled {
    listen_protocol := .default
    outbound_substream := none
    inbound_substream := none
    send_queue := (Sender.new 2 : Sender Sample.Peer).new_receiver
    outbound_substream_establishing := asked
    outbound_substream_attempts := attempts
    inbound_substream_attempts := 0 }
  outstanding := asked.toNat
  sender := .new 2
  alive := true
  accepted := []
  requested := attempts + asked.toNat

/-- The handler asks for a substream, and the request times out. -/
def times_out : List (Session.Input Sample.Peer Unit) :=
  [.poll idle_streams fun _ => false] ++ [.event (.DialUpgradeError .Timeout)]

theorem unused_asks (attempts : Nat) : Session.machine.step (unused attempts false)
    (.poll idle_streams fun _ => false) (unused attempts true) := by
  have hreturns :
      (unused attempts false).handler.Returns idle_streams (!(unused attempts false).alive)
      (fun _ => false) (unused attempts false).sender
      (.Ready (.OutboundSubstreamRequest .default)) (unused attempts true).handler
      (unused attempts true).sender := ⟨0, fun _ _ => rfl⟩
  have hstep := Session.Step.poll hreturns
  exact hstep

theorem unused_times_out (attempts : Nat) (hbelow : attempts + 1 < MAX_SUBSTREAM_ATTEMPS) :
    Session.machine.Run (unused attempts false) times_out (unused (attempts + 1) false) := by
  have htold : (unused attempts true).handler.on_connection_event (.DialUpgradeError .Timeout) =
      some (unused (attempts + 1) false).handler := by
    have hne : attempts + 1 ≠ MAX_SUBSTREAM_ATTEMPS := Nat.ne_of_lt hbelow
    simp [unused, Handler.on_connection_event, ConnectionEvent.is_inbound,
      ConnectionEvent.is_outbound, hne, EnabledHandler.on_counted_event]
  have hstep := Session.Step.event (c := unused attempts true) (fun _ => Nat.one_pos) htold
  exact .snoc (.single (unused_asks attempts)) hstep

/-- With nothing to send and the sender alive, the handler asks for substreams that time out, until
it is disabled. -/
theorem an_unused_connection_uses_up_its_attempts :
    ∃ (c c' : Session Sample.Peer Unit) (is : List (Session.Input Sample.Peer Unit)),
      Session.machine.init c ∧ Session.machine.Run c is c' ∧ c'.alive = true ∧ c'.accepted = [] ∧
      c'.requested = MAX_SUBSTREAM_ATTEMPS ∧ c'.handler = .Disabled .MaxSubstreamAttempts ∧
      ¬ (Session.machine.Meets Session.Right c is ∧ (c'.accepted = [] → c'.requested = 0)) := by
  have htold : (unused 4 true).handler.on_connection_event (.DialUpgradeError .Timeout) =
      some (.Disabled .MaxSubstreamAttempts) := rfl
  have hstep := Session.Step.event (c := unused 4 true) (fun _ => Nat.one_pos) htold
  have hrun := (((unused_times_out 0 (by decide)).append
    (unused_times_out 1 (by decide))).append
    (unused_times_out 2 (by decide))).append
    (unused_times_out 3 (by decide))
  refine ⟨unused 0 false, _, _, ⟨.default, .new 2, rfl⟩,
    .snoc (.snoc hrun (unused_asks 4)) hstep, rfl, rfl, rfl, rfl, ?_⟩
  rintro ⟨-, hnone⟩
  cases hnone rfl

end libp2p_dog
