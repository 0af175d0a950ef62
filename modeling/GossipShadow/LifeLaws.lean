-- Laws of a handler over the whole life of its connection: how many substreams
-- it asks for, and what becomes of the RPCs that it takes out of its queue.
import GossipShadow.Lib.Ledger
import GossipShadow.HandlerLaws
import GossipShadow.Protocol

namespace libp2p_dog

section

variable {P S : Type}

/-! ## What a poll changes -/

namespace EnabledHandler

/-- What the loops of `poll` leave alone. -/
structure SameCounts (h h' : EnabledHandler P S) : Prop where
  listen_protocol : h'.listen_protocol = h.listen_protocol
  establishing : h'.outbound_substream_establishing = h.outbound_substream_establishing
  outbound_attempts : h'.outbound_substream_attempts = h.outbound_substream_attempts
  inbound_attempts : h'.inbound_substream_attempts = h.inbound_substream_attempts

theorem SameCounts.trans {h h' h'' : EnabledHandler P S} (hsame : SameCounts h h')
    (hsame' : SameCounts h' h'') : SameCounts h h'' where
  listen_protocol := hsame'.listen_protocol.trans hsame.listen_protocol
  establishing := hsame'.establishing.trans hsame.establishing
  outbound_attempts := hsame'.outbound_attempts.trans hsame.outbound_attempts
  inbound_attempts := hsame'.inbound_attempts.trans hsame.inbound_attempts

/-- How a loop of `poll` may end: it asks for no substream. -/
def Quiet {σ : Type} (handler : σ → EnabledHandler P S) (start : EnabledHandler P S) :
    Exit σ (ConnectionHandlerEvent P) → Prop
  | .Break s => SameCounts start (handler s)
  | .Return event s => (∃ e, event = .NotifyBehaviour e) ∧ SameCounts start (handler s)
  | .Panic => True

theorem inbound_turn_quiet (io : Framed P S) {start h : EnabledHandler P S}
    (hsame : SameCounts start h) :
    Loop.Preserves (SameCounts start) (Quiet id start) (inbound_turn io h) := by
  have hnext : ∀ state, SameCounts start { h with inbound_substream := state } := by
    intro state
    exact ⟨hsame.1, hsame.2, hsame.3, hsame.4⟩
  unfold inbound_turn
  dsimp only
  split
  · split
    · exact ⟨⟨_, rfl⟩, hnext _⟩
    · exact hnext _
    · exact hnext _
    · exact hnext _
  · split
    · exact hnext _
    · exact hnext _
  · exact hnext _
  · trivial

variable [Libp2p P]

theorem outbound_turn_quiet (io : Framed P S) (closed : Bool) (elapsed : Delay → Bool)
    {start : EnabledHandler P S} {state : EnabledHandler P S × Sender P}
    (hsame : SameCounts start state.1) :
    Loop.Preserves (fun state => SameCounts start state.1) (Quiet (·.1) start)
      (outbound_turn io closed elapsed state) := by
  obtain ⟨h, queue⟩ := state
  have hnext : ∀ state send_queue,
      SameCounts start { h with outbound_substream := state, send_queue } := by
    intro state send_queue
    exact ⟨hsame.1, hsame.2, hsame.3, hsame.4⟩
  unfold outbound_turn
  dsimp only
  split
  · split
    · split
      · exact ⟨⟨_, rfl⟩, hnext _ _⟩
      · exact hnext _ _
    · exact hnext _ _
  · split
    · split
      · exact hnext _ _
      · exact hnext _ _
    · exact hnext _ _
    · exact hnext _ _
  · split
    · exact hnext _ _
    · exact hnext _ _
    · exact hnext _ _
  · exact hnext _ _
  · trivial

omit [Libp2p P] in
theorem poll_queue_quiet {closed : Bool} {elapsed : Delay → Bool} {h h' : EnabledHandler P S}
    {queue queue' : Sender P} {answer : Poll (ConnectionHandlerEvent P)}
    (hpoll : h.poll_queue closed elapsed queue = .Returned answer h' queue') :
    requests answer = 0 ∧ SameCounts h h' := by
  unfold poll_queue at hpoll
  split at hpoll
  · cases hpoll
    exact ⟨rfl, rfl, rfl, rfl, rfl⟩
  · cases hpoll
    exact ⟨rfl, rfl, rfl, rfl, rfl⟩

/-- The test at the head of `poll`. -/
def asks (h : EnabledHandler P S) (closed : Bool) (queue : Sender P) : Bool :=
  !(h.send_queue.poll_is_empty closed queue).1 && h.outbound_substream.isNone &&
    !h.outbound_substream_establishing

end EnabledHandler

/-! ## What becomes of the RPCs -/

/-- What the handler does with an RPC: it takes one out of the queue, a substream accepts it, or it
is gone with a substream that fails. -/
inductive Deed (P : Type) where
  | took (rpc : RpcOut P)
  | handed (rpc : proto.RPC)
  | lost (rpc : proto.RPC)

namespace Deed

def took? : Deed P → Option (RpcOut P)
  | took rpc => some rpc
  | _ => none

def handed? : Deed P → Option proto.RPC
  | handed rpc => some rpc
  | _ => none

def lost? : Deed P → Option proto.RPC
  | lost rpc => some rpc
  | _ => none

end Deed

/-- The substream fails before the RPC that waits for it is handed to it. -/
def Framed.fails (io : Framed P S) : Option (OutboundSubstreamState S) → Bool
  | some (.PendingSend substream rpc) =>
    match io.poll_ready substream with
    | (.Ready (.ok ()), substream) =>
      match io.start_send substream rpc with
      | (.ok (), _) => false
      | (.error _, _) => true
    | (.Ready (.error _), _) => true
    | (.Pending, _) => false
  | _ => false

namespace EnabledHandler

/-- The RPC that waits for the substream. -/
def held (h : EnabledHandler P S) : Option proto.RPC :=
  match h.outbound_substream with
  | some (.PendingSend _ rpc) => some rpc
  | _ => none

/-- What one turn of the loop over the outbound substream does. -/
def turn_deeds (io : Framed P S) (closed : Bool) :
    EnabledHandler P S × Sender P → List (Deed P) :=
  fun (h, queue) =>
  match h.outbound_substream with
  | some (.WaitingOutput _) =>
    ((Receiver.out (h.send_queue.poll_next closed queue).1).map .took).toList
  | some (.PendingSend substream rpc) =>
    match io.poll_ready substream with
    | (.Ready (.ok ()), substream) =>
      match io.start_send substream rpc with
      | (.ok (), _) => [.handed rpc]
      | (.error _, _) => [.lost rpc]
    | (.Ready (.error _), _) => [.lost rpc]
    | (.Pending, _) => []
  | _ => []

/-- What `poll_stale` takes out at the end of a poll. -/
def stale_deeds (closed : Bool) (elapsed : Delay → Bool) (h : EnabledHandler P S)
    (queue : Sender P) : List (Deed P) :=
  ((Receiver.out (h.send_queue.poll_stale closed elapsed queue).1).map .took).toList

/-- The RPCs that an answer tells the behaviour of as dropped, and whether their timeout is over. -/
def reports (elapsed : Delay → Bool) : Poll (ConnectionHandlerEvent P) → List (RpcOut P × Bool)
  | .Ready (.NotifyBehaviour (.TransactionDropped rpc)) => [(rpc, (timeout rpc).any elapsed)]
  | _ => []

variable [Libp2p P]

/-- No turn of the poll comes upon a substream that fails with an RPC waiting for it. -/
def Sends (io : Framed P S) (closed : Bool) (elapsed : Delay → Bool) (h : EnabledHandler P S)
    (queue : Sender P) : Prop :=
  h.asks closed queue = true ∨
    ∀ state, Loop.Visits (outbound_turn io closed elapsed)
      ({ h with send_queue := (h.send_queue.poll_is_empty closed queue).2.1 },
        (h.send_queue.poll_is_empty closed queue).2.2) state →
      io.fails state.1.outbound_substream = false

/-- What a poll does. -/
def poll_deeds (io : Framed P S) (closed : Bool) (elapsed : Delay → Bool) (fuel : Nat)
    (h : EnabledHandler P S) (queue : Sender P) : List (Deed P) :=
  if h.asks closed queue then []
  else
    let peeked := h.send_queue.poll_is_empty closed queue
    let start := ({ h with send_queue := peeked.2.1 }, peeked.2.2)
    Loop.trace (outbound_turn io closed elapsed) (turn_deeds io closed) fuel start ++
      match Loop.run (outbound_turn io closed elapsed) fuel start with
      | some (.Break (h, queue)) =>
        match Loop.run (inbound_turn io) fuel h with
        | some (.Break h) => h.stale_deeds closed elapsed queue
        | _ => []
      | _ => []

/-! ## How a poll ends -/

/-- The first thing that a poll does: it looks at its queue. -/
def peeked (h : EnabledHandler P S) (closed : Bool) (queue : Sender P) :
    EnabledHandler P S × Sender P :=
  ({ h with send_queue := (h.send_queue.poll_is_empty closed queue).2.1 },
    (h.send_queue.poll_is_empty closed queue).2.2)

omit [Libp2p P] in
theorem SameCounts.peeked (h : EnabledHandler P S) (closed : Bool) (queue : Sender P) :
    SameCounts h (h.peeked closed queue).1 := ⟨rfl, rfl, rfl, rfl⟩

/-- A poll that returns asks for a substream, or one of its loops returns, or it comes to the queue
at its end; and what it has done until then. -/
inductive PollEnds (io : Framed P S) (closed : Bool) (elapsed : Delay → Bool) (fuel : Nat)
    (h : EnabledHandler P S) (queue : Sender P) :
    Poll (ConnectionHandlerEvent P) → EnabledHandler P S → Sender P → List (Deed P) → Prop
  | asked (asks : h.asks closed queue = true) :
      PollEnds io closed elapsed fuel h queue
        (.Ready (.OutboundSubstreamRequest h.listen_protocol))
        { (h.peeked closed queue).1 with outbound_substream_establishing := true }
        (h.peeked closed queue).2 []
  | outbound {event : ConnectionHandlerEvent P} {state : EnabledHandler P S × Sender P}
      (asks : h.asks closed queue = false)
      (run : Loop.run (outbound_turn io closed elapsed) fuel (h.peeked closed queue) =
        some (.Return event state)) :
      PollEnds io closed elapsed fuel h queue (.Ready event) state.1 state.2
        (Loop.trace (outbound_turn io closed elapsed) (turn_deeds io closed) fuel
          (h.peeked closed queue))
  | inbound {state : EnabledHandler P S × Sender P} {event : ConnectionHandlerEvent P}
      {h' : EnabledHandler P S} (asks : h.asks closed queue = false)
      (run : Loop.run (outbound_turn io closed elapsed) fuel (h.peeked closed queue) =
        some (.Break state))
      (run_inbound : Loop.run (inbound_turn io) fuel state.1 = some (.Return event h')) :
      PollEnds io closed elapsed fuel h queue (.Ready event) h' state.2
        (Loop.trace (outbound_turn io closed elapsed) (turn_deeds io closed) fuel
          (h.peeked closed queue))
  | swept {state : EnabledHandler P S × Sender P} {h₁ h' : EnabledHandler P S} {queue' : Sender P}
      {answer : Poll (ConnectionHandlerEvent P)} (asks : h.asks closed queue = false)
      (run : Loop.run (outbound_turn io closed elapsed) fuel (h.peeked closed queue) =
        some (.Break state))
      (run_inbound : Loop.run (inbound_turn io) fuel state.1 = some (.Break h₁))
      (rest : h₁.poll_queue closed elapsed state.2 = .Returned answer h' queue') :
      PollEnds io closed elapsed fuel h queue answer h' queue'
        (Loop.trace (outbound_turn io closed elapsed) (turn_deeds io closed) fuel
          (h.peeked closed queue) ++ h₁.stale_deeds closed elapsed state.2)

theorem poll_ends {io : Framed P S} {closed : Bool} {elapsed : Delay → Bool} {fuel : Nat}
    {h h' : EnabledHandler P S} {queue queue' : Sender P} {answer : Poll (ConnectionHandlerEvent P)}
    (hpoll : h.poll io closed elapsed fuel queue = some (.Returned answer h' queue')) :
    ∃ deeds, h.poll_deeds io closed elapsed fuel queue = deeds ∧
      PollEnds io closed elapsed fuel h queue answer h' queue' deeds := by
  refine ⟨_, rfl, ?_⟩
  unfold poll at hpoll
  unfold poll_deeds
  simp only at hpoll
  split at hpoll
  · rename_i hasks
    have hasks : h.asks closed queue = true := hasks
    rw [if_pos hasks]
    cases hpoll
    exact .asked hasks
  · rename_i hasks
    have hasks : h.asks closed queue = false := (Bool.not_eq_true _).mp hasks
    rw [if_neg (by simp [hasks])]
    obtain ⟨e, hrun, hend⟩ := Option.bind_eq_some_iff.mp hpoll
    simp only [hrun]
    cases e with
    | Panic => cases hend
    | Return event state =>
      cases hend
      rw [List.append_nil]
      exact .outbound hasks hrun
    | Break state =>
      obtain ⟨e, hinbound, hend⟩ := Option.map_eq_some_iff.mp hend
      simp only [hinbound]
      cases e with
      | Panic => cases hend
      | Return event h₁ =>
        cases hend
        rw [List.append_nil]
        exact .inbound hasks hrun hinbound
      | Break h₁ => exact .swept hasks hrun hinbound hend

/-- A poll asks for a substream and ends there, or it runs its loops and asks for none. -/
theorem poll_cases {io : Framed P S} {closed : Bool} {elapsed : Delay → Bool} {fuel : Nat}
    {h h' : EnabledHandler P S} {queue queue' : Sender P} {answer : Poll (ConnectionHandlerEvent P)}
    (hpoll : h.poll io closed elapsed fuel queue = some (.Returned answer h' queue')) :
    (h.asks closed queue = true ∧ answer = .Ready (.OutboundSubstreamRequest h.listen_protocol) ∧
      h' = { h with
        send_queue := (h.send_queue.poll_is_empty closed queue).2.1
        outbound_substream_establishing := true }) ∨
    (h.asks closed queue = false ∧ requests answer = 0 ∧ SameCounts h h') := by
  have houtbound : ∀ {e}, Loop.run (outbound_turn io closed elapsed) fuel (h.peeked closed queue) =
      some e → Quiet (·.1) h e :=
    Loop.run_preserves (fun s hs => outbound_turn_quiet io closed elapsed hs)
      (.peeked h closed queue)
  have hinbound : ∀ {h₁ e}, SameCounts h h₁ → Loop.run (inbound_turn io) fuel h₁ = some e →
      Quiet id h e :=
    Loop.run_preserves (fun s hs => inbound_turn_quiet io hs)
  obtain ⟨deeds, -, hends⟩ := poll_ends hpoll
  cases hends with
  | asked asks => exact .inl ⟨asks, rfl, rfl⟩
  | outbound asks run =>
    obtain ⟨⟨e, rfl⟩, hsame⟩ := houtbound run
    exact .inr ⟨asks, rfl, hsame⟩
  | inbound asks run run_inbound =>
    obtain ⟨⟨e, rfl⟩, hsame⟩ := hinbound (houtbound run) run_inbound
    exact .inr ⟨asks, rfl, hsame⟩
  | swept asks run run_inbound rest =>
    obtain ⟨hanswer, hsame⟩ := poll_queue_quiet rest
    exact .inr ⟨asks, hanswer, (hinbound (houtbound run) run_inbound).trans hsame⟩

end EnabledHandler

/-! ## The ledger of the RPCs -/

/-- What is read from a substream are RPCs, as the codec makes them. -/
def Framed.Reads (io : Framed P S) : Prop :=
  ∀ substream event substream', io.poll_next substream = (.Ready (some (.ok event)), substream') →
    ∃ rpc invalid_transactions, event = .Transaction rpc invalid_transactions

/-- The ledger of the RPCs that the handler took, when it has done `deeds` and made `reported`. -/
def Accounts (deeds : List (Deed P)) (reported : List (RpcOut P × Bool)) [Libp2p P]
    (h : EnabledHandler P S) : Prop :=
  ∃ entries, Ledger.Books RpcOut.into_protobuf entries (deeds.filterMap (·.took?)) h.held
    (deeds.filterMap (·.handed?)) (deeds.filterMap (·.lost?)) (reported.map (·.1))

section

variable [Libp2p P] {deeds : List (Deed P)} {reported : List (RpcOut P × Bool)}
  {h h' : EnabledHandler P S}

/-- The handler and the answer of a poll, when it has done `deeds`. -/
def Accounts.AfterPoll (deeds : List (Deed P)) (reported : List (RpcOut P × Bool))
    (elapsed : Delay → Bool) (answer : Poll (ConnectionHandlerEvent P)) (h : EnabledHandler P S) :
    Prop :=
  Accounts deeds (reported ++ EnabledHandler.reports elapsed answer) h ∧
    ∀ report ∈ EnabledHandler.reports elapsed answer, report.2 = true

theorem Accounts.of_held (haccounts : Accounts deeds reported h) (hheld : h'.held = h.held) :
    Accounts deeds reported h' := by
  unfold Accounts
  rw [hheld]
  exact haccounts

/-- Nothing is done. -/
theorem Accounts.idle (haccounts : Accounts deeds reported h) (hheld : h'.held = h.held) :
    Accounts (deeds ++ []) reported h' := by
  rw [List.append_nil]
  exact haccounts.of_held hheld

theorem Accounts.quiet {elapsed : Delay → Bool} {answer : Poll (ConnectionHandlerEvent P)}
    (haccounts : Accounts deeds reported h) (hanswer : EnabledHandler.reports elapsed answer = []) :
    Accounts.AfterPoll deeds reported elapsed answer h := by
  unfold AfterPoll
  rw [hanswer, List.append_nil]
  exact ⟨haccounts, by simp⟩

/-- An RPC is taken, and waits for the substream. -/
theorem Accounts.take (haccounts : Accounts deeds reported h) (hnone : h.held = none)
    {rpc : RpcOut P} (hheld : h'.held = some rpc.into_protobuf) :
    Accounts (deeds ++ [.took rpc]) reported h' := by
  obtain ⟨entries, hbooks⟩ := haccounts
  rw [hnone] at hbooks
  refine ⟨entries ++ [(rpc, .Held)], ?_⟩
  simpa [hheld, Deed.took?, Deed.handed?, Deed.lost?] using hbooks.take rpc

/-- An RPC is taken and reported, as its timeout is over. -/
theorem Accounts.report {elapsed : Delay → Bool} (haccounts : Accounts deeds reported h)
    {rpc : RpcOut P} (hheld : h'.held = h.held)
    (hdue : (EnabledHandler.timeout rpc).any elapsed = true) :
    Accounts.AfterPoll (deeds ++ [.took rpc]) reported elapsed
      (.Ready (.NotifyBehaviour (.TransactionDropped rpc))) h' := by
  obtain ⟨entries, hbooks⟩ := haccounts
  refine ⟨⟨entries ++ [(rpc, .Reported)], ?_⟩, ?_⟩
  · simpa [hheld, Deed.took?, Deed.handed?, Deed.lost?, EnabledHandler.reports]
      using hbooks.report rpc
  · intro report hreport
    rw [EnabledHandler.reports, List.mem_singleton] at hreport
    rw [hreport]
    exact hdue

theorem Accounts.hand (haccounts : Accounts deeds reported h) {rpc : proto.RPC}
    (hheld : h.held = some rpc) (hnone : h'.held = none) :
    Accounts (deeds ++ [.handed rpc]) reported h' := by
  obtain ⟨entries, hbooks⟩ := haccounts
  rw [hheld] at hbooks
  obtain ⟨entries', hbooks'⟩ := hbooks.hand
  refine ⟨entries', ?_⟩
  simpa [hnone, Deed.took?, Deed.handed?, Deed.lost?] using hbooks'

theorem Accounts.lose (haccounts : Accounts deeds reported h) {rpc : proto.RPC}
    (hheld : h.held = some rpc) (hnone : h'.held = none) :
    Accounts (deeds ++ [.lost rpc]) reported h' := by
  obtain ⟨entries, hbooks⟩ := haccounts
  rw [hheld] at hbooks
  obtain ⟨entries', hbooks'⟩ := hbooks.lose
  refine ⟨entries', ?_⟩
  simpa [hnone, Deed.took?, Deed.handed?, Deed.lost?] using hbooks'

namespace EnabledHandler

/-- How the loop over the outbound substream ends. -/
def Accounted (reported : List (RpcOut P × Bool)) (elapsed : Delay → Bool) (deeds : List (Deed P)) :
    Exit (EnabledHandler P S × Sender P) (ConnectionHandlerEvent P) → Prop
  | .Break state => Accounts deeds reported state.1
  | .Return event state => Accounts.AfterPoll deeds reported elapsed (.Ready event) state.1
  | .Panic => True

theorem outbound_turn_accounts (io : Framed P S) (closed : Bool) (elapsed : Delay → Bool)
    (deeds : List (Deed P)) (state : EnabledHandler P S × Sender P)
    (haccounts : Accounts deeds reported state.1) :
    Loop.Preserves (fun next => Accounts (deeds ++ turn_deeds io closed state) reported next.1)
      (Accounted reported elapsed (deeds ++ turn_deeds io closed state))
      (outbound_turn io closed elapsed state) := by
  obtain ⟨h, queue⟩ := state
  unfold outbound_turn turn_deeds
  dsimp only
  cases hstate : h.outbound_substream with
  | none => exact haccounts.idle (by simp [held, hstate])
  | some outbound =>
    cases outbound with
    | Poisoned => trivial
    | WaitingOutput substream =>
      have hnone : h.held = none := by simp [held, hstate]
      dsimp only
      generalize h.send_queue.poll_next closed queue = next
      obtain ⟨polled, send_queue, queue'⟩ := next
      cases polled with
      | Pending => exact haccounts.idle hnone.symm
      | Ready item =>
        cases item with
        | none => exact haccounts.idle hnone.symm
        | some transaction =>
          dsimp only
          split
          · rename_i hdue
            exact haccounts.report hnone.symm hdue
          · exact haccounts.take hnone rfl
    | PendingSend substream rpc =>
      have hheld : h.held = some rpc := by simp [held, hstate]
      dsimp only
      generalize io.poll_ready substream = ready
      obtain ⟨polled, substream'⟩ := ready
      cases polled with
      | Pending => exact haccounts.idle hheld.symm
      | Ready result =>
        cases result with
        | error e => exact haccounts.lose hheld rfl
        | ok _ =>
          dsimp only
          generalize io.start_send substream' rpc = sent
          obtain ⟨result, substream''⟩ := sent
          cases result with
          | error e => exact haccounts.lose hheld rfl
          | ok _ => exact haccounts.hand hheld rfl
    | PendingFlush substream =>
      have hnone : h.held = none := by simp [held, hstate]
      dsimp only
      split
      · exact haccounts.idle hnone.symm
      · exact haccounts.idle hnone.symm
      · exact haccounts.idle hnone.symm

/-- The loop over the inbound substream leaves the outbound one alone, and what it reads is no
report of a dropped RPC. -/
theorem inbound_turn_accounts {io : Framed P S} (hreads : io.Reads) (elapsed : Delay → Bool)
    {h : EnabledHandler P S} (haccounts : Accounts deeds reported h) :
    Loop.Preserves (Accounts deeds reported)
      (fun
        | .Break h => Accounts deeds reported h
        | .Return event h => Accounts.AfterPoll deeds reported elapsed (.Ready event) h
        | .Panic => True)
      (inbound_turn io h) := by
  unfold inbound_turn
  dsimp only
  split
  · split
    · rename_i event substream' hread
      obtain ⟨rpc, invalid_transactions, rfl⟩ := hreads _ _ _ hread
      have hread : Accounts deeds reported
          { h with inbound_substream := some (.WaitingInput substream') } := haccounts.of_held rfl
      exact hread.quiet rfl
    · exact haccounts.of_held rfl
    · exact haccounts.of_held rfl
    · exact haccounts.of_held rfl
  · split
    · exact haccounts.of_held rfl
    · exact haccounts.of_held rfl
  · exact haccounts.of_held rfl
  · trivial

omit [Libp2p P] in
/-- What is dropped from a queue has a timeout that is over. -/
theorem poll_stale_queue_due {closed : Bool} {timed : RpcOut P → Option Delay}
    {elapsed : Delay → Bool} {p : Peekable (RpcOut P)} {items : List (RpcOut P)} {rpc : RpcOut P}
    (hout : (Receiver.poll_stale_queue closed timed elapsed p items).1.1 = some rpc) :
    (timed rpc).any elapsed = true := by
  unfold Receiver.poll_stale_queue at hout
  split at hout
  · rename_i shown p' items' hpeek
    split at hout
    · rename_i delay htimed
      split at hout
      · rename_i hdue
        rw [Peekable.poll_next_of_peek hpeek] at hout
        cases hout
        simpa [htimed] using hdue
      · cases hout
    · cases hout
  · cases hout
  · cases hout

omit [Libp2p P] in
theorem poll_stale_due {closed : Bool} {elapsed : Delay → Bool} {r : Receiver P} {s : Sender P}
    {rpc : RpcOut P} (hout : Receiver.out (r.poll_stale closed elapsed s).1 = some rpc) :
    (timeout rpc).any elapsed = true := by
  have hfirst := @poll_stale_queue_due P closed Receiver.publish_timeout elapsed
    r.priority_receiver s.priority rpc
  have hsecond := @poll_stale_queue_due P closed Receiver.forward_timeout elapsed
    r.non_priority_receiver s.non_priority rpc
  unfold Receiver.poll_stale at hout
  split at hout
  · rename_i dropped _ _ _ hstale
    rw [hstale] at hfirst
    have hdue := hfirst hout
    cases rpc with
    | Publish tx delay => exact hdue
    | Forward tx delay | HaveTx m | ResetRoute m => cases hdue
  · dsimp only at hout
    split at hout
    · rename_i dropped _ _ _ hstale
      rw [hstale] at hsecond
      have hdue := hsecond hout
      cases rpc with
      | Forward tx delay => exact hdue
      | Publish tx delay | HaveTx m | ResetRoute m => cases hdue
    · split at hout <;> cases hout

theorem poll_queue_accounts (closed : Bool) (elapsed : Delay → Bool) {h h' : EnabledHandler P S}
    (haccounts : Accounts deeds reported h) {queue queue' : Sender P}
    {answer : Poll (ConnectionHandlerEvent P)}
    (hpoll : h.poll_queue closed elapsed queue = .Returned answer h' queue') :
    Accounts.AfterPoll (deeds ++ h.stale_deeds closed elapsed queue) reported elapsed answer
      h' := by
  unfold poll_queue at hpoll
  unfold stale_deeds
  generalize hstale : h.send_queue.poll_stale closed elapsed queue = stale at hpoll
  obtain ⟨polled, send_queue, queue''⟩ := stale
  cases polled with
  | Pending =>
    cases hpoll
    exact (haccounts.idle rfl).quiet rfl
  | Ready item =>
    cases item with
    | none =>
      cases hpoll
      exact (haccounts.idle rfl).quiet rfl
    | some rpc =>
      cases hpoll
      have hout : Receiver.out (h.send_queue.poll_stale closed elapsed queue).1 = some rpc := by
        rw [hstale]
        rfl
      exact haccounts.report rfl (poll_stale_due hout)

/-- A poll accounts for the RPCs that it takes. -/
theorem poll_accounts {io : Framed P S} (hreads : io.Reads) {closed : Bool} {elapsed : Delay → Bool}
    {fuel : Nat} {h h' : EnabledHandler P S} (haccounts : Accounts deeds reported h)
    {queue queue' : Sender P} {answer : Poll (ConnectionHandlerEvent P)}
    (hpoll : h.poll io closed elapsed fuel queue = some (.Returned answer h' queue')) :
    Accounts.AfterPoll (deeds ++ h.poll_deeds io closed elapsed fuel queue) reported elapsed answer
      h' := by
  have hpeeked : Accounts deeds reported (h.peeked closed queue).1 := haccounts.of_held rfl
  have houtbound : ∀ {e}, Loop.run (outbound_turn io closed elapsed) fuel (h.peeked closed queue) =
      some e → Accounted reported elapsed (deeds ++ Loop.trace (outbound_turn io closed elapsed)
        (turn_deeds io closed) fuel (h.peeked closed queue)) e :=
    Loop.run_trace (turn_deeds io closed)
      (fun notes state hs => outbound_turn_accounts io closed elapsed notes state hs)
      (p := fun notes state => Accounts notes reported state.1) deeds hpeeked
  obtain ⟨done, hdone, hends⟩ := poll_ends hpoll
  rw [hdone]
  cases hends with
  | asked asks => exact (hpeeked.idle rfl).quiet rfl
  | outbound asks run => exact houtbound run
  | inbound asks run run_inbound =>
    exact Loop.run_preserves (fun h hs => inbound_turn_accounts hreads elapsed hs) (houtbound run)
      run_inbound
  | swept asks run run_inbound rest =>
    rw [← List.append_assoc]
    apply poll_queue_accounts closed elapsed _ rest
    exact Loop.run_preserves (fun h hs => inbound_turn_accounts hreads elapsed hs) (houtbound run)
      run_inbound

end EnabledHandler

end

/-! ## When nothing is lost -/

namespace EnabledHandler

theorem turn_deeds_lost_iff (io : Framed P S) (closed : Bool)
    (state : EnabledHandler P S × Sender P) :
    (∀ deed ∈ turn_deeds io closed state, deed.lost? = none) ↔
      io.fails state.1.outbound_substream = false := by
  obtain ⟨h, queue⟩ := state
  unfold turn_deeds Framed.fails
  dsimp only
  cases h.outbound_substream with
  | none => simp
  | some outbound =>
    cases outbound with
    | Poisoned => simp
    | PendingFlush substream => simp
    | WaitingOutput substream =>
      cases Receiver.out (h.send_queue.poll_next closed queue).1 <;> simp [Deed.lost?]
    | PendingSend substream rpc =>
      dsimp only
      split
      · split <;> simp [Deed.lost?]
      · simp [Deed.lost?]
      · simp

theorem stale_deeds_lost (closed : Bool) (elapsed : Delay → Bool) (h : EnabledHandler P S)
    (queue : Sender P) : ∀ deed ∈ h.stale_deeds closed elapsed queue, deed.lost? = none := by
  unfold stale_deeds
  cases Receiver.out (h.send_queue.poll_stale closed elapsed queue).1 <;> simp [Deed.lost?]

theorem poll_deeds_lost_iff [Libp2p P] {io : Framed P S} {closed : Bool} {elapsed : Delay → Bool}
    {fuel : Nat} {h h' : EnabledHandler P S} {queue queue' : Sender P}
    {answer : Poll (ConnectionHandlerEvent P)}
    (hpoll : h.poll io closed elapsed fuel queue = some (.Returned answer h' queue')) :
    (∀ deed ∈ h.poll_deeds io closed elapsed fuel queue, deed.lost? = none) ↔
      h.Sends io closed elapsed queue := by
  have hloop : ∀ {e}, Loop.run (outbound_turn io closed elapsed) fuel (h.peeked closed queue) =
      some e → h.asks closed queue = false →
      ((∀ deed ∈ Loop.trace (outbound_turn io closed elapsed) (turn_deeds io closed) fuel
        (h.peeked closed queue), deed.lost? = none) ↔ h.Sends io closed elapsed queue) := by
    intro e hrun hasks
    rw [Loop.forall_trace_iff hrun]
    simp only [turn_deeds_lost_iff, Sends, hasks, Bool.false_eq_true, false_or]
    rfl
  obtain ⟨done, hdone, hends⟩ := poll_ends hpoll
  rw [hdone]
  cases hends with
  | asked asks => simp [Sends, asks]
  | outbound asks run => exact hloop run asks
  | inbound asks run run_inbound => exact hloop run asks
  | swept asks run run_inbound rest =>
    rw [List.forall_mem_append, hloop run asks]
    exact and_iff_left (stale_deeds_lost closed elapsed _ _)

end EnabledHandler

/-! ## What an event changes -/

theorem EnabledHandler.on_counted_event_keeps {h h' : EnabledHandler P S} {e : ConnectionEvent S}
    (hevent : h.on_counted_event e = some (.Enabled h')) : SameCounts h h' ∧ h'.held = h.held ∧
      h'.send_queue = h.send_queue := by
  unfold on_counted_event at hevent
  split at hevent
  · cases hevent
    exact ⟨⟨rfl, rfl, rfl, rfl⟩, rfl, rfl⟩
  · rename_i v
    exact v.elim
  · obtain ⟨h₁, hnegotiated, hsame⟩ := Option.map_eq_some_iff.mp hevent
    cases hsame
    unfold on_fully_negotiated_outbound at hnegotiated
    split at hnegotiated
    · rename_i hnone
      rw [Option.isNone_iff_eq_none] at hnone
      cases hnegotiated
      exact ⟨⟨rfl, rfl, rfl, rfl⟩, by simp [held, hnone], rfl⟩
    · cases hnegotiated
  · cases hevent
    exact ⟨⟨rfl, rfl, rfl, rfl⟩, rfl, rfl⟩
  · rename_i e
    exact e.elim
  · cases hevent
  · cases hevent
    exact ⟨⟨rfl, rfl, rfl, rfl⟩, rfl, rfl⟩
  · cases hevent
    exact ⟨⟨rfl, rfl, rfl, rfl⟩, rfl, rfl⟩

/-- The handler once it has counted the event. -/
def EnabledHandler.counted (h : EnabledHandler P S) (e : ConnectionEvent S) : EnabledHandler P S :=
  { h with
    outbound_substream_establishing := h.outbound_substream_establishing && !e.is_outbound
    outbound_substream_attempts := h.outbound_substream_attempts + e.is_outbound.toNat
    inbound_substream_attempts := h.inbound_substream_attempts + e.is_inbound.toNat }

/-- A handler that stays enabled has counted the event below the bound. -/
theorem Handler.on_connection_event_counted {h h' : EnabledHandler P S} {e : ConnectionEvent S}
    (hevent : (Handler.Enabled h).on_connection_event e = some (.Enabled h')) :
    (h.counted e).on_counted_event e = some (.Enabled h') ∧
      (e.is_inbound = true → h.inbound_substream_attempts + 1 ≠ MAX_SUBSTREAM_ATTEMPS) ∧
      (e.is_outbound = true → h.outbound_substream_attempts + 1 ≠ MAX_SUBSTREAM_ATTEMPS) := by
  unfold on_connection_event at hevent
  unfold EnabledHandler.counted
  cases hin : e.is_inbound <;> cases hout : e.is_outbound <;>
    simp only [hin, hout, Bool.false_eq_true, if_false, if_true, Bool.false_and, Bool.true_and,
      decide_eq_true_eq] at hevent
  · exact ⟨by simpa using hevent, by simp, by simp⟩
  · split at hevent
    · cases hevent
    · rename_i hbelow
      exact ⟨by simpa using hevent, by simp, fun _ => hbelow⟩
  · split at hevent
    · cases hevent
    · rename_i hbelow
      exact ⟨by simpa using hevent, fun _ => hbelow, by simp⟩
  · split at hevent
    · cases hevent
    · rename_i hbelow
      split at hevent
      · cases hevent
      · rename_i hbelow'
        exact ⟨by simpa using hevent, fun _ => hbelow, fun _ => hbelow'⟩

/-- What an event counts in a handler that stays enabled. -/
structure EnabledHandler.Counted (h : EnabledHandler P S) (e : ConnectionEvent S)
    (h' : EnabledHandler P S) : Prop where
  outbound : h'.outbound_substream_attempts = h.outbound_substream_attempts + e.is_outbound.toNat
  inbound : h'.inbound_substream_attempts = h.inbound_substream_attempts + e.is_inbound.toNat
  outbound_ne : e.is_outbound = true → h'.outbound_substream_attempts ≠ MAX_SUBSTREAM_ATTEMPS
  inbound_ne : e.is_inbound = true → h'.inbound_substream_attempts ≠ MAX_SUBSTREAM_ATTEMPS
  held : h'.held = h.held
  send_queue : h'.send_queue = h.send_queue

/-- A counter that is not at its bound when it counts is below it. -/
theorem below_of_counted {bound n n' : Nat} {counts : Bool} (hcount : n' = n + counts.toNat)
    (hne : counts = true → n' ≠ bound) (hbelow : n < bound) : n' < bound := by
  cases counts with
  | true =>
    have hbound := hne rfl
    rw [Bool.toNat_true] at hcount
    omega
  | false =>
    rw [Bool.toNat_false] at hcount
    omega

theorem Handler.on_connection_event_counts {h h' : EnabledHandler P S} {e : ConnectionEvent S}
    (hevent : (Handler.Enabled h).on_connection_event e = some (.Enabled h')) : h.Counted e h' := by
  obtain ⟨hcounted, hinbound, houtbound⟩ := on_connection_event_counted hevent
  obtain ⟨hsame, hheld, hqueue⟩ := EnabledHandler.on_counted_event_keeps hcounted
  refine ⟨hsame.outbound_attempts, hsame.inbound_attempts, ?_, ?_, hheld, hqueue⟩
  · intro hout
    rw [hsame.outbound_attempts]
    simpa [EnabledHandler.counted, hout] using houtbound hout
  · intro hin
    rw [hsame.inbound_attempts]
    simpa [EnabledHandler.counted, hin] using hinbound hin

/-- Only an enabled handler is enabled after an event. -/
theorem Handler.enabled_of_event {handler : Handler P S} {e : ConnectionEvent S}
    {h' : EnabledHandler P S} (told : handler.on_connection_event e = some (.Enabled h')) :
    ∃ h, handler = .Enabled h ∧ h.Counted e h' := by
  cases handler with
  | Disabled d => cases told
  | Enabled h => exact ⟨h, rfl, on_connection_event_counts told⟩

/-! ## A handler and its connection -/

/-- A handler over the life of its connection, with what it did so far. -/
structure Life (P S : Type) extends Link P S where
  /-- How many outbound substreams the handler has asked for. -/
  requested : Nat
  /-- How many inbound substreams were installed. -/
  installed : Nat
  deeds : List (Deed P)
  reported : List (RpcOut P × Bool)

/-- What the substreams of an input read are RPCs. -/
def Link.Input.Reads : Link.Input P S → Prop
  | .poll io _ _ _ => io.Reads
  | .event _ => True

/-- An event installs an inbound substream in a handler that stays enabled. -/
def installs (e : ConnectionEvent S) (handler : Handler P S) : Nat :=
  match e, handler with
  | .FullyNegotiatedInbound _, .Enabled _ => 1
  | _, _ => 0

theorem installs_le (e : ConnectionEvent S) (handler : Handler P S) :
    installs e handler ≤ e.is_inbound.toNat := by
  unfold installs
  split
  · simp [ConnectionEvent.is_inbound]
  · exact Nat.zero_le _

/-- Of the requests at most one is not answered yet. -/
theorem EnabledHandler.Fits.outstanding_le {h : EnabledHandler P S} {outstanding : Nat}
    (hfits : h.Fits outstanding) : outstanding ≤ 1 := by
  rw [hfits.requests]
  exact Bool.toNat_le _

section

variable [Libp2p P]

def Handler.poll_deeds (io : Framed P S) (closed : Bool) (elapsed : Delay → Bool) (fuel : Nat)
    (handler : Handler P S) (queue : Sender P) : List (Deed P) :=
  match handler with
  | Enabled h => h.poll_deeds io closed elapsed fuel queue
  | Disabled _ => []

/-- The poll returns, and has done `deeds`. -/
def Handler.ReturnsWith (handler : Handler P S) (io : Framed P S) (closed : Bool)
    (elapsed : Delay → Bool) (queue : Sender P) (answer : Poll (ConnectionHandlerEvent P))
    (handler' : Handler P S) (queue' : Sender P) (deeds : List (Deed P)) : Prop :=
  ∃ enough, ∀ fuel, enough < fuel →
    handler.poll io closed elapsed fuel queue = some (.Returned answer handler' queue') ∧
      handler.poll_deeds io closed elapsed fuel queue = deeds

theorem Handler.ReturnsWith.returns {handler handler' : Handler P S} {io : Framed P S}
    {closed : Bool} {elapsed : Delay → Bool} {queue queue' : Sender P}
    {answer : Poll (ConnectionHandlerEvent P)} {deeds : List (Deed P)}
    (hreturns : handler.ReturnsWith io closed elapsed queue answer handler' queue' deeds) :
    handler.Returns io closed elapsed queue answer handler' queue' := by
  obtain ⟨enough, hrun⟩ := hreturns
  exact ⟨enough, fun fuel hfuel => (hrun fuel hfuel).1⟩

omit [Libp2p P] in
theorem EnabledHandler.poll_inbound_mono {io : Framed P S} {closed : Bool} {elapsed : Delay → Bool}
    {fuel fuel' : Nat} {h : EnabledHandler P S} {queue : Sender P}
    {polled : Polled P (EnabledHandler P S)}
    (hpoll : h.poll_inbound io closed elapsed fuel queue = some polled) (hle : fuel ≤ fuel') :
    h.poll_inbound io closed elapsed fuel' queue = some polled ∧
      Loop.run (inbound_turn io) fuel' h = Loop.run (inbound_turn io) fuel h := by
  obtain ⟨e, hrun, hend⟩ := Option.map_eq_some_iff.mp hpoll
  have hrun' := (Loop.run_mono (fun _ => ([] : List Unit)) hrun hle).1
  exact ⟨Option.map_eq_some_iff.mpr ⟨e, hrun', hend⟩, hrun'.trans hrun.symm⟩

theorem EnabledHandler.poll_mono {io : Framed P S} {closed : Bool} {elapsed : Delay → Bool}
    {fuel fuel' : Nat} {h : EnabledHandler P S} {queue : Sender P}
    {polled : Polled P (EnabledHandler P S)}
    (hpoll : h.poll io closed elapsed fuel queue = some polled) (hle : fuel ≤ fuel') :
    h.poll io closed elapsed fuel' queue = some polled ∧
      h.poll_deeds io closed elapsed fuel' queue = h.poll_deeds io closed elapsed fuel queue := by
  unfold poll at hpoll ⊢
  unfold poll_deeds asks
  simp only at hpoll ⊢
  split at hpoll
  · rename_i hasks
    rw [if_pos hasks, if_pos hasks, if_pos hasks]
    exact ⟨hpoll, rfl⟩
  · rename_i hasks
    rw [if_neg hasks, if_neg hasks, if_neg hasks]
    obtain ⟨e, hrun, hend⟩ := Option.bind_eq_some_iff.mp hpoll
    obtain ⟨hrun', htrace⟩ := Loop.run_mono (turn_deeds io closed) hrun hle
    simp only [hrun, hrun', htrace, Option.bind_some]
    cases e with
    | Return event state => exact ⟨hend, rfl⟩
    | Panic => exact ⟨hend, rfl⟩
    | Break state =>
      obtain ⟨hpoll', hinbound⟩ := poll_inbound_mono hend hle
      simp only [hinbound, and_true]
      exact hpoll'

/-- One run of a poll that ends says how it ends. -/
theorem Handler.ReturnsWith.of_poll {handler handler' : Handler P S} {io : Framed P S}
    {closed : Bool} {elapsed : Delay → Bool} {fuel : Nat} {queue queue' : Sender P}
    {answer : Poll (ConnectionHandlerEvent P)}
    (hpoll : handler.poll io closed elapsed fuel queue = some (.Returned answer handler' queue')) :
    handler.ReturnsWith io closed elapsed queue answer handler' queue'
      (handler.poll_deeds io closed elapsed fuel queue) := by
  refine ⟨fuel, ?_⟩
  intro fuel' hlt
  cases handler with
  | Disabled d => exact ⟨hpoll, rfl⟩
  | Enabled h =>
    obtain ⟨polled, hpolled, hend⟩ := Option.map_eq_some_iff.mp hpoll
    obtain ⟨hpolled', hdeeds⟩ := EnabledHandler.poll_mono hpolled (Nat.le_of_lt hlt)
    exact ⟨Option.map_eq_some_iff.mpr ⟨polled, hpolled', hend⟩, hdeeds⟩

theorem Handler.Returns.with_deeds {handler handler' : Handler P S} {io : Framed P S}
    {closed : Bool} {elapsed : Delay → Bool} {queue queue' : Sender P}
    {answer : Poll (ConnectionHandlerEvent P)}
    (hreturns : handler.Returns io closed elapsed queue answer handler' queue') :
    ∃ deeds, handler.ReturnsWith io closed elapsed queue answer handler' queue' deeds := by
  obtain ⟨enough, hrun⟩ := hreturns
  exact ⟨_, .of_poll (hrun (enough + 1) (Nat.lt_succ_self enough))⟩

theorem Handler.ReturnsWith.deeds_unique {handler h₁ h₂ : Handler P S} {io : Framed P S}
    {closed : Bool} {elapsed : Delay → Bool} {queue q₁ q₂ : Sender P}
    {a₁ a₂ : Poll (ConnectionHandlerEvent P)} {deeds₁ deeds₂ : List (Deed P)}
    (hret₁ : handler.ReturnsWith io closed elapsed queue a₁ h₁ q₁ deeds₁)
    (hret₂ : handler.ReturnsWith io closed elapsed queue a₂ h₂ q₂ deeds₂) : deeds₁ = deeds₂ := by
  obtain ⟨enough₁, hrun₁⟩ := hret₁
  obtain ⟨enough₂, hrun₂⟩ := hret₂
  have h₁ := (hrun₁ (max enough₁ enough₂ + 1) (by omega)).2
  have h₂ := (hrun₂ (max enough₁ enough₂ + 1) (by omega)).2
  exact h₁.symm.trans h₂

/-- A poll that returns is a poll of an enabled handler, or a disabled one has nothing to do. -/
theorem Handler.ReturnsWith.cases {handler handler' : Handler P S} {io : Framed P S}
    {closed : Bool} {elapsed : Delay → Bool} {queue queue' : Sender P}
    {answer : Poll (ConnectionHandlerEvent P)} {deeds : List (Deed P)}
    (hreturns : handler.ReturnsWith io closed elapsed queue answer handler' queue' deeds) :
    (∃ h h' fuel, handler = .Enabled h ∧ handler' = .Enabled h' ∧
      h.poll io closed elapsed fuel queue = some (.Returned answer h' queue') ∧
      h.poll_deeds io closed elapsed fuel queue = deeds) ∨
    ∃ d, handler = .Disabled d ∧ handler' = .Disabled d ∧ answer = .Pending ∧ deeds = [] := by
  obtain ⟨enough, hrun⟩ := hreturns
  obtain ⟨hpoll, hdeeds⟩ := hrun (enough + 1) (Nat.lt_succ_self enough)
  cases handler with
  | Disabled d =>
    cases hpoll
    exact .inr ⟨d, rfl, rfl, rfl, hdeeds.symm⟩
  | Enabled h =>
    obtain ⟨polled, hpolled, hend⟩ := Option.map_eq_some_iff.mp hpoll
    cases polled with
    | Panicked => cases hend
    | Returned answer₁ h₁ queue₁ =>
      cases hend
      exact .inl ⟨h, h₁, enough + 1, rfl, rfl, hpolled, hdeeds⟩

namespace Life

inductive Step (c : Life P S) : Link.Input P S → Life P S → Prop
  | poll {io : Framed P S} {closed : Bool} {elapsed : Delay → Bool} {queue queue' : Sender P}
      {answer : Poll (ConnectionHandlerEvent P)} {handler : Handler P S} {deeds : List (Deed P)}
      (returns : c.handler.ReturnsWith io closed elapsed queue answer handler queue' deeds) :
      Step c (.poll io closed elapsed queue)
        { handler
          outstanding := c.outstanding + requests answer
          requested := c.requested + requests answer
          installed := c.installed
          deeds := c.deeds ++ deeds
          reported := c.reported ++ EnabledHandler.reports elapsed answer }
  | event {e : ConnectionEvent S} {handler : Handler P S} (allowed : c.Allows e)
      (told : c.handler.on_connection_event e = some handler) :
      Step c (.event e)
        { handler
          outstanding := c.outstanding - e.is_outbound.toNat
          requested := c.requested
          installed := c.installed + installs e handler
          deeds := c.deeds
          reported := c.reported }

def start (protocol_config : ProtocolConfig) (transaction_queue : Receiver P) : Life P S where
  handler := .new protocol_config transaction_queue
  outstanding := 0
  requested := 0
  installed := 0
  deeds := []
  reported := []

def machine : Machine (Life P S) (Link.Input P S) where
  init c := ∃ protocol_config transaction_queue, c = start protocol_config transaction_queue
  step := Step

/-! ## How many substreams -/

/-- The bounds, and what ties them to the counters of an enabled handler. -/
structure Bounded (c : Life P S) : Prop where
  fits : c.handler.Fits c.outstanding
  outbound : ∀ h, c.handler = .Enabled h → c.requested =
    h.outbound_substream_attempts + c.outstanding ∧
      h.outbound_substream_attempts < MAX_SUBSTREAM_ATTEMPS
  inbound : ∀ h, c.handler = .Enabled h → c.installed ≤ h.inbound_substream_attempts ∧
    h.inbound_substream_attempts < MAX_SUBSTREAM_ATTEMPS
  outstanding : c.outstanding ≤ 1
  requested : c.requested ≤ MAX_SUBSTREAM_ATTEMPS
  installed : c.installed < MAX_SUBSTREAM_ATTEMPS

omit [Libp2p P] in
theorem Bounded.start (protocol_config : ProtocolConfig) (transaction_queue : Receiver P) :
    (start protocol_config transaction_queue : Life P S).Bounded where
  fits := .enabled ⟨by simp, by simp, fun _ => rfl, rfl⟩
  outbound h hh := by
    cases hh
    exact ⟨rfl, Nat.succ_pos 4⟩
  inbound h hh := by
    cases hh
    exact ⟨Nat.le_refl 0, Nat.succ_pos 4⟩
  outstanding := Nat.zero_le 1
  requested := Nat.zero_le MAX_SUBSTREAM_ATTEMPS
  installed := Nat.succ_pos 4

theorem Bounded.poll {c : Life P S} (hbounded : c.Bounded) {io : Framed P S} {closed : Bool}
    {elapsed : Delay → Bool} {queue queue' : Sender P} {answer : Poll (ConnectionHandlerEvent P)}
    {handler : Handler P S} {deeds : List (Deed P)}
    (returns : c.handler.ReturnsWith io closed elapsed queue answer handler queue' deeds)
    (reported : List (RpcOut P × Bool)) :
    Bounded {
      handler
      outstanding := c.outstanding + requests answer
      requested := c.requested + requests answer
      installed := c.installed
      deeds := c.deeds ++ deeds
      reported } := by
  obtain ⟨answer₁, handler₁, queue₁, hreturns, hfits⟩ :=
    hbounded.fits.poll io closed elapsed queue
  obtain ⟨rfl, rfl⟩ := returns.returns.unique hreturns
  rcases returns.cases with ⟨h, h', fuel, hh, rfl, hpoll, -⟩ | ⟨d, hd, rfl, rfl, -⟩
  · obtain ⟨hrequested, hbelow⟩ := hbounded.outbound h hh
    have hinbound := hbounded.inbound h hh
    have hsame : h'.outbound_substream_attempts = h.outbound_substream_attempts ∧
        h'.inbound_substream_attempts = h.inbound_substream_attempts := by
      rcases EnabledHandler.poll_cases hpoll with ⟨-, -, rfl⟩ | ⟨-, -, hsame⟩
      · exact ⟨rfl, rfl⟩
      · exact ⟨hsame.outbound_attempts, hsame.inbound_attempts⟩
    have hone := (hfits h' rfl).outstanding_le
    refine ⟨hfits, ?_, ?_, hone, ?_, hbounded.installed⟩
    · rintro _ ⟨⟩
      rw [hsame.1]
      dsimp only
      omega
    · rintro _ ⟨⟩
      rw [hsame.2]
      exact hinbound
    · dsimp only
      omega
  · exact ⟨hfits, by rintro _ ⟨⟩, by rintro _ ⟨⟩, hbounded.outstanding, hbounded.requested,
      hbounded.installed⟩

omit [Libp2p P] in
theorem Bounded.event {c : Life P S} (hbounded : c.Bounded) {e : ConnectionEvent S}
    {handler : Handler P S} (allowed : c.Allows e)
    (told : c.handler.on_connection_event e = some handler) :
    Bounded { c with
      handler
      outstanding := c.outstanding - e.is_outbound.toNat
      installed := c.installed + installs e handler } := by
  obtain ⟨handler₁, htold, hfits⟩ := Handler.on_connection_event_fits hbounded.fits e allowed
  rw [told] at htold
  cases htold
  have hone : c.outstanding - e.is_outbound.toNat ≤ 1 :=
    Nat.le_trans (Nat.sub_le _ _) hbounded.outstanding
  cases handler with
  | Disabled d =>
    have hnone : installs e (.Disabled d : Handler P S) = 0 := by
      unfold installs
      cases e <;> rfl
    refine ⟨hfits, by rintro _ ⟨⟩, by rintro _ ⟨⟩, hone, hbounded.requested, ?_⟩
    rw [hnone]
    exact hbounded.installed
  | Enabled h' =>
    obtain ⟨h, hh, hcounted⟩ := Handler.enabled_of_event told
    obtain ⟨hrequested, houtbound⟩ := hbounded.outbound h hh
    obtain ⟨hinstalled, hinbound⟩ := hbounded.inbound h hh
    have hinstalls := installs_le e (.Enabled h' : Handler P S)
    have hcounts := hcounted.outbound
    have hcounts' := hcounted.inbound
    have hinbound' := below_of_counted hcounts' hcounted.inbound_ne hinbound
    -- an outcome is counted once it is no longer outstanding
    have hanswered : e.is_outbound.toNat ≤ c.outstanding := by
      cases hout : e.is_outbound with
      | true => exact allowed hout
      | false => exact Nat.zero_le _
    refine ⟨hfits, ?_, ?_, hone, hbounded.requested, ?_⟩
    · rintro _ ⟨⟩
      refine ⟨?_, below_of_counted hcounts hcounted.outbound_ne houtbound⟩
      dsimp only
      omega
    · rintro _ ⟨⟩
      refine ⟨?_, hinbound'⟩
      dsimp only
      omega
    · dsimp only
      omega

theorem Bounded.step {c c' : Life P S} (hbounded : c.Bounded) {i : Link.Input P S}
    (hstep : Step c i c') : c'.Bounded := by
  cases hstep with
  | poll returns => exact hbounded.poll returns _
  | event allowed told => exact hbounded.event allowed told

/-- Each run of a handler and its connection has a ledger. -/
theorem exists_run {c c' : Link P S} {is : List (Link.Input P S)} (hrun : Link.machine.Run c is c')
    (d : Life P S) (hd : d.toLink = c) :
    ∃ d' : Life P S, d'.toLink = c' ∧ machine.Run d is d' := by
  induction hrun with
  | nil => exact ⟨d, hd, .nil d⟩
  | snoc hrun hstep ih =>
    obtain ⟨d', rfl, hrun'⟩ := ih
    cases hstep with
    | poll returns =>
      obtain ⟨deeds, hreturns⟩ := returns.with_deeds
      exact ⟨_, rfl, .snoc hrun' (.poll hreturns)⟩
    | event allowed told => exact ⟨_, rfl, .snoc hrun' (.event allowed told)⟩

theorem bounded_of_reachable {c : Life P S} (hc : machine.Reachable c) : c.Bounded := by
  refine hc.invariant ?_ ?_
  · rintro c ⟨protocol_config, transaction_queue, rfl⟩
    exact .start protocol_config transaction_queue
  · intro c i c' hbounded hstep
    exact hbounded.step hstep

/-- A handler that is disabled stays so. -/
theorem disabled_of_run {c c' : Life P S} {is : List (Link.Input P S)} (hrun : machine.Run c is c')
    {d : DisabledHandler} (hd : c.handler = .Disabled d) : c'.handler = .Disabled d := by
  refine hrun.invariant (p := fun c => c.handler = .Disabled d) hd ?_
  intro c i c' hd hstep
  cases hstep with
  | poll returns =>
    rcases returns.cases with ⟨h, h', fuel, hh, -⟩ | ⟨d', hd', rfl, -⟩
    · rw [hd] at hh
      cases hh
    · rw [hd] at hd'
      exact hd'.symm
  | event allowed told =>
    rw [hd] at told
    cases told
    rfl

/-! ## What becomes of the RPCs that were taken -/

/-- Each RPC that the handler took waits for the substream, was handed to one, or was reported; one
that was reported had a timeout, and it was over. -/
def Accounted (c : Life P S) (h : EnabledHandler P S) : Prop :=
  (∃ entries, Ledger.Books RpcOut.into_protobuf entries (c.deeds.filterMap (·.took?)) h.held
    (c.deeds.filterMap (·.handed?)) [] (c.reported.map (·.1))) ∧
  ∀ report ∈ c.reported, report.2 = true

/-- No substream fails while an RPC waits for it. -/
def Sends (c : Life P S) : Link.Input P S → Prop
  | .poll io closed elapsed queue =>
    ∀ h, c.handler = .Enabled h → h.Sends io closed elapsed queue
  | .event _ => True

theorem step_unique (c : Life P S) (i : Link.Input P S) (c₁ c₂ : Life P S)
    (hstep₁ : machine.step c i c₁)
    (hstep₂ : machine.step c i c₂) : c₁ = c₂ := by
  cases hstep₁ with
  | poll returns₁ =>
    cases hstep₂ with
    | poll returns₂ =>
      obtain ⟨rfl, rfl⟩ := returns₁.returns.unique returns₂.returns
      obtain rfl := returns₁.deeds_unique returns₂
      rfl
  | event _ told₁ =>
    cases hstep₂ with
    | event _ told₂ =>
      rw [told₁] at told₂
      cases told₂
      rfl

/-- The ledger of a handler that is enabled. -/
def Kept (c : Life P S) : Prop :=
  (∀ h, c.handler = .Enabled h → Accounts c.deeds c.reported h) ∧
    ∀ report ∈ c.reported, report.2 = true

theorem Kept.start (protocol_config : ProtocolConfig) (transaction_queue : Receiver P) :
    (start protocol_config transaction_queue : Life P S).Kept := by
  refine ⟨?_, by simp [Life.start]⟩
  rintro h ⟨⟩
  exact ⟨[], .empty _⟩

theorem Kept.step {c c' : Life P S} (hkept : c.Kept) {i : Link.Input P S} (hreads : i.Reads)
    (hstep : Step c i c') : c'.Kept := by
  obtain ⟨haccounts, hdue⟩ := hkept
  cases hstep with
  | poll returns =>
    rcases returns.cases with ⟨h, h', fuel, hh, rfl, hpoll, rfl⟩ | ⟨d, hd, rfl, rfl, rfl⟩
    · obtain ⟨hafter, hreported⟩ := EnabledHandler.poll_accounts hreads (haccounts h hh) hpoll
      refine ⟨?_, List.forall_mem_append.mpr ⟨hdue, hreported⟩⟩
      rintro _ ⟨⟩
      exact hafter
    · refine ⟨by rintro _ ⟨⟩, ?_⟩
      simpa [EnabledHandler.reports] using hdue
  | event allowed told =>
    refine ⟨?_, hdue⟩
    rintro h' rfl
    obtain ⟨h, hh, hcounted⟩ := Handler.enabled_of_event told
    exact (haccounts h hh).of_held hcounted.held

theorem kept_of_run {c c' : Life P S} (hinit : machine.init c) {is : List (Link.Input P S)}
    (hrun : machine.Run c is c') (hreads : ∀ i ∈ is, i.Reads) : c'.Kept := by
  refine hrun.invariant_of_meets (Machine.meets_of_forall hreads) ?_ ?_
  · obtain ⟨protocol_config, transaction_queue, rfl⟩ := hinit
    exact .start protocol_config transaction_queue
  · intro c i c' hkept hreads hstep
    exact hkept.step hreads hstep

/-- The step of a run in which an RPC is lost. -/
theorem Step.lost_iff {c c' : Life P S} {i : Link.Input P S} (hstep : Step c i c') :
    (∀ deed ∈ c'.deeds, deed.lost? = none) ↔
      (∀ deed ∈ c.deeds, deed.lost? = none) ∧ c.Sends i := by
  cases hstep with
  | poll returns =>
    rw [List.forall_mem_append]
    refine and_congr_right fun _ => ?_
    rcases returns.cases with ⟨h, h', fuel, hh, -, hpoll, rfl⟩ | ⟨d, hd, -, -, rfl⟩
    · rw [EnabledHandler.poll_deeds_lost_iff hpoll]
      simp [Sends, hh]
    · simp [Sends, hd]
  | event => simp [Sends]

theorem lost_iff_of_run {c c' : Life P S} (hinit : machine.init c) {is : List (Link.Input P S)}
    (hrun : machine.Run c is c') :
    (∀ deed ∈ c'.deeds, deed.lost? = none) ↔ machine.Meets Sends c is := by
  induction hrun with
  | nil =>
    obtain ⟨protocol_config, transaction_queue, rfl⟩ := hinit
    refine iff_of_true ?_ (Machine.meets_nil _)
    simp [start]
  | snoc hrun hstep ih => rw [hstep.lost_iff, ih, hrun.meets_last step_unique]

end Life

/-- Whatever polls and events come, and each request is answered once: the bounds hold, a request
waits for its answer alone and without a substream, and a disabled handler does nothing any more. -/
theorem the_substream_attempts_are_bounded {c : Life P S} (hc : Life.machine.Reachable c) :
    c.requested ≤ MAX_SUBSTREAM_ATTEMPS ∧ c.outstanding ≤ 1 ∧
    (∀ h, c.handler = .Enabled h → 0 < c.outstanding → h.outbound_substream = none) ∧
    c.installed < MAX_SUBSTREAM_ATTEMPS ∧
    ∀ d, c.handler = .Disabled d → ∀ is c', Life.machine.Run c is c' →
      c'.handler = .Disabled d ∧
      ∀ io closed elapsed queue,
        c'.handler.Returns io closed elapsed queue .Pending c'.handler queue := by
  have hbounded := Life.bounded_of_reachable hc
  refine ⟨hbounded.requested, hbounded.outstanding, ?_, hbounded.installed, ?_⟩
  · intro h hh hpos
    exact ((hbounded.fits h hh).answered hpos h.outbound_substream_attempts).1
  · intro d hd is c' hrun
    have hd' := Life.disabled_of_run hrun hd
    refine ⟨hd', ?_⟩
    intro io closed elapsed queue
    rw [hd']
    exact ⟨0, fun _ _ => rfl⟩

/-- Over a run, the handler accounts for each RPC that it took as long as no substream fails while
one waits for it, and no longer. -/
theorem the_handler_accounts_for_each_rpc_iff {c c' : Life P S} (hinit : Life.machine.init c)
    {is : List (Link.Input P S)} (hrun : Life.machine.Run c is c') (hreads : ∀ i ∈ is, i.Reads)
    {h : EnabledHandler P S} (hh : c'.handler = .Enabled h) :
    c'.Accounted h ↔ Life.machine.Meets Life.Sends c is := by
  obtain ⟨haccounts, hdue⟩ := Life.kept_of_run hinit hrun hreads
  rw [← Life.lost_iff_of_run hinit hrun]
  obtain ⟨entries, hbooks⟩ := haccounts h hh
  constructor
  · rintro ⟨⟨entries', hbooks'⟩, -⟩
    have hlength := hbooks.length
    have hlength' := hbooks'.length
    rw [List.length_nil] at hlength'
    have hnone : (c'.deeds.filterMap (·.lost?)).length = 0 := by omega
    exact List.filterMap_eq_nil_iff.mp (List.eq_nil_of_length_eq_zero hnone)
  · intro hlost
    rw [List.filterMap_eq_nil_iff.mpr hlost] at hbooks
    exact ⟨⟨entries, hbooks⟩, hdue⟩

end

end

/-! ## Runs with one HaveTx -/

def one_waits : Sender Sample.Peer := (Sender.new 2).push [.HaveTx { tx_id := Sample.tx_id 1 1 }]

/-- A handler that has looked at its queue, and asked for a substream. -/
def asking : EnabledHandler Sample.Peer Unit where
  listen_protocol := .default
  outbound_substream := none
  inbound_substream := none
  send_queue := (one_waits.new_receiver.poll_is_empty false one_waits).2.1
  outbound_substream_establishing := true
  outbound_substream_attempts := 0
  inbound_substream_attempts := 0

/-- The channels once the handler has looked at its queue. -/
def drained : Sender Sample.Peer := (one_waits.new_receiver.poll_is_empty false one_waits).2.2

def asked : Life Sample.Peer Unit where
  handler := .Enabled asking
  outstanding := 1
  requested := 1
  installed := 0
  deeds := []
  reported := []

theorem asked_of_poll : Life.machine.step (Life.start .default one_waits.new_receiver)
    (.poll idle_streams false (fun _ => false) one_waits) asked := by
  have hreturns : (Handler.new .default one_waits.new_receiver).ReturnsWith idle_streams false
      (fun _ => false) one_waits (.Ready (.OutboundSubstreamRequest .default)) (.Enabled asking)
      (one_waits.new_receiver.poll_is_empty false one_waits).2.2 [] :=
    ⟨0, fun _ _ => ⟨rfl, rfl⟩⟩
  have hstep := Life.Step.poll (c := Life.start .default one_waits.new_receiver) hreturns
  exact hstep

/-- The handler asks for a substream, and the peer does not know the protocol. -/
theorem the_substream_attempts_are_bounded_when_the_protocol_is_unknown :
    ∃ c : Life Sample.Peer Unit, Life.machine.Reachable c ∧ c.requested = 1 ∧
      c.handler = .Disabled .ProtocolUnsupported ∧ c.requested ≤ MAX_SUBSTREAM_ATTEMPS ∧
      ∀ is c', Life.machine.Run c is c' → c'.handler = .Disabled .ProtocolUnsupported := by
  have hfailed : Life.machine.step asked (.event (.DialUpgradeError .NegotiationFailed))
      { asked with handler := .Disabled .ProtocolUnsupported, outstanding := 0 } :=
    .event (fun _ => Nat.one_pos) rfl
  have hreachable : Life.machine.Reachable
      ({ asked with handler := .Disabled .ProtocolUnsupported, outstanding := 0 } :
        Life Sample.Peer Unit) :=
    ⟨_, _, ⟨_, _, rfl⟩, .snoc (.single asked_of_poll) hfailed⟩
  obtain ⟨hrequested, -, -, -, hdisabled⟩ := the_substream_attempts_are_bounded hreachable
  exact ⟨_, hreachable, rfl, rfl, hrequested, fun is c' hrun => (hdisabled _ rfl is c' hrun).1⟩

/-- The handler with the substream that it asked for. -/
def opened : EnabledHandler Sample.Peer Unit :=
  { asking with
    outbound_substream := some (.WaitingOutput ())
    outbound_substream_establishing := false
    outbound_substream_attempts := 1 }

theorem opened_of_run : Life.machine.Run (Life.start .default one_waits.new_receiver)
    [.poll idle_streams false (fun _ => false) one_waits, .event (.FullyNegotiatedOutbound ())]
    { asked with handler := .Enabled opened, outstanding := 0 } :=
  .snoc (.single asked_of_poll) (.event (fun _ => Nat.one_pos) rfl)

/-- Streams on which nothing comes in. -/
theorem reads_of_idle {io : Framed Sample.Peer Unit}
    (hidle : ∀ substream, io.poll_next substream = (.Pending, ())) : io.Reads := by
  intro substream event substream' hread
  rw [hidle] at hread
  cases hread

/-- The inputs up to the substream, and a poll with it. -/
def inputs (io : Framed Sample.Peer Unit) : List (Link.Input Sample.Peer Unit) :=
  [.poll idle_streams false (fun _ => false) one_waits, .event (.FullyNegotiatedOutbound ())] ++
    [.poll io false (fun _ => false) drained]

theorem inputs_read {io : Framed Sample.Peer Unit}
    (hidle : ∀ substream, io.poll_next substream = (.Pending, ())) : ∀ i ∈ inputs io, i.Reads := by
  simp only [inputs, List.cons_append, List.nil_append, List.forall_mem_cons]
  exact ⟨reads_of_idle fun _ => rfl, trivial, reads_of_idle hidle, by simp⟩

/-- The answers of a substream that takes what it is sent. -/
def ready_streams : Framed Sample.Peer Unit :=
  { idle_streams with
    poll_ready := fun _ => (.Ready (.ok ()), ())
    poll_flush := fun _ => (.Ready (.ok ()), ()) }

/-- The answers of a substream that is broken. -/
def broken_streams : Framed Sample.Peer Unit :=
  { idle_streams with poll_ready := fun _ => (.Ready (.error { reason := "broken pipe" }), ()) }

/-- The handler takes the HaveTx, and the substream takes it from the handler. -/
theorem the_handler_accounts_for_a_rpc_that_it_sends :
    ∃ (c c' : Life Sample.Peer Unit) (is : List (Link.Input Sample.Peer Unit))
      (h : EnabledHandler Sample.Peer Unit),
      Life.machine.init c ∧ Life.machine.Run c is c' ∧ c'.handler = .Enabled h ∧
      c'.deeds = [.took (.HaveTx { tx_id := Sample.tx_id 1 1 }),
        .handed (RpcOut.HaveTx { tx_id := Sample.tx_id 1 1 } : RpcOut Sample.Peer).into_protobuf] ∧
      c'.Accounted h := by
  have hpoll : (Handler.Enabled opened).poll ready_streams false (fun _ => false) 4 drained =
      some (.Returned .Pending (.Enabled _) _) := rfl
  have hstep := Life.Step.poll
    (c := { asked with handler := .Enabled opened, outstanding := 0 }) (.of_poll hpoll)
  have hinit : Life.machine.init
      (Life.start .default one_waits.new_receiver : Life Sample.Peer Unit) := ⟨_, _, rfl⟩
  have hrun : Life.machine.Run _ (inputs ready_streams) _ := .snoc opened_of_run hstep
  have hsends := (Life.lost_iff_of_run hinit hrun).mp (by
    rintro deed (_ | ⟨_, _ | ⟨_, ⟨⟩⟩⟩) <;> rfl)
  exact ⟨_, _, _, _, hinit, hrun, rfl, rfl,
    (the_handler_accounts_for_each_rpc_iff hinit hrun (inputs_read fun _ => rfl) rfl).mpr hsends⟩

/-- The handler takes the HaveTx, and the substream breaks before it takes it: the handler is
enabled, and the HaveTx is nowhere. -/
theorem the_handler_loses_a_rpc_with_its_substream :
    ∃ (c c' : Life Sample.Peer Unit) (is : List (Link.Input Sample.Peer Unit))
      (h : EnabledHandler Sample.Peer Unit),
      Life.machine.init c ∧ Life.machine.Run c is c' ∧ (∀ i ∈ is, i.Reads) ∧
      c'.handler = .Enabled h ∧
      c'.deeds.filterMap (·.took?) = [.HaveTx { tx_id := Sample.tx_id 1 1 }] ∧
      h.held = none ∧ c'.deeds.filterMap (·.handed?) = [] ∧ c'.reported = [] ∧
        ¬ c'.Accounted h := by
  have hpoll : (Handler.Enabled opened).poll broken_streams false (fun _ => false) 4 drained =
      some (.Returned .Pending (.Enabled _) _) := rfl
  have hstep := Life.Step.poll
    (c := { asked with handler := .Enabled opened, outstanding := 0 }) (.of_poll hpoll)
  have hinit : Life.machine.init
      (Life.start .default one_waits.new_receiver : Life Sample.Peer Unit) := ⟨_, _, rfl⟩
  have hrun : Life.machine.Run _ (inputs broken_streams) _ := .snoc opened_of_run hstep
  refine ⟨_, _, _, _, hinit, hrun, inputs_read fun _ => rfl, rfl, rfl, rfl, rfl, rfl, ?_⟩
  rintro ⟨⟨entries, hbooks⟩, -⟩
  cases hbooks.length

end libp2p_dog
