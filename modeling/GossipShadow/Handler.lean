-- The connection handler (handler.rs): one substream in each direction, the
-- queue of what is to be sent, and when the handler gives up.
import GossipShadow.Lib.Loop
import GossipShadow.Rpc

namespace libp2p_dog

/-- `Framed<Stream, DogCodec>`: what the handler does with a substream. The functions are the
outcomes of one poll of the handler, whatever they are. -/
structure Framed (P S : Type) where
  poll_ready : S → Poll (Except IoError Unit) × S
  start_send : S → proto.RPC → Except IoError Unit × S
  poll_flush : S → Poll (Except IoError Unit) × S
  poll_next : S → Poll (Option (Except IoError (HandlerEvent P))) × S
  poll_close : S → Poll (Except IoError Unit) × S

/-- The maximum number of inbound or outbound substream attempts. -/
def MAX_SUBSTREAM_ATTEMPS : Nat := 5

inductive InboundSubstreamState (S : Type) where
  | WaitingInput (substream : S)
  | Closing (substream : S)
  | Poisoned

inductive OutboundSubstreamState (S : Type) where
  | WaitingOutput (substream : S)
  | PendingSend (substream : S) (rpc : proto.RPC)
  | PendingFlush (substream : S)
  | Poisoned

structure EnabledHandler (P S : Type) where
  listen_protocol : ProtocolConfig
  outbound_substream : Option (OutboundSubstreamState S)
  inbound_substream : Option (InboundSubstreamState S)
  send_queue : Receiver P
  outbound_substream_establishing : Bool
  outbound_substream_attempts : Nat
  inbound_substream_attempts : Nat

inductive DisabledHandler where
  | ProtocolUnsupported
  | MaxSubstreamAttempts

inductive Handler (P S : Type) where
  | Enabled (handler : EnabledHandler P S)
  | Disabled (handler : DisabledHandler)

inductive ConnectionHandlerEvent (P : Type) where
  | OutboundSubstreamRequest (protocol : ProtocolConfig)
  | NotifyBehaviour (event : HandlerEvent P)

/-- `StreamUpgradeError<Infallible>`: an upgrade to the protocol does not fail. -/
inductive StreamUpgradeError where
  | Timeout
  | Apply (error : Empty)
  | NegotiationFailed
  | Io (error : IoError)

/-- The events that libp2p tells a handler of. An inbound substream of a disabled handler is denied,
so there is none. -/
inductive ConnectionEvent (S : Type) where
  | FullyNegotiatedInbound (protocol : S ⊕ Empty)
  | FullyNegotiatedOutbound (protocol : S)
  | AddressChange
  | DialUpgradeError (error : StreamUpgradeError)
  | ListenUpgradeError
  | LocalProtocolsChange
  | RemoteProtocolsChange

namespace ConnectionEvent

variable {S : Type}

def is_inbound : ConnectionEvent S → Bool
  | FullyNegotiatedInbound _ => true
  | ListenUpgradeError => true
  | _ => false

def is_outbound : ConnectionEvent S → Bool
  | FullyNegotiatedOutbound _ => true
  | DialUpgradeError _ => true
  | _ => false

end ConnectionEvent

section

variable {P S : Type}

/-- The end of a poll of the handler: its answer, the handler and its queue, or a panic. -/
inductive Polled (P H : Type) where
  | Returned (answer : Poll (ConnectionHandlerEvent P)) (handler : H) (queue : Sender P)
  | Panicked

namespace EnabledHandler

def on_fully_negotiated_inbound (h : EnabledHandler P S) (substream : S) : EnabledHandler P S :=
  { h with inbound_substream := some (.WaitingInput substream) }

/-- `none` is the failed assertion. -/
def on_fully_negotiated_outbound (h : EnabledHandler P S) (substream : S) :
    Option (EnabledHandler P S) :=
  if h.outbound_substream.isNone then
    some { h with outbound_substream := some (.WaitingOutput substream) }
  else none

/-- The timeout of an RPC that is bound in time. -/
def timeout : RpcOut P → Option Delay
  | .Publish _ timeout => some timeout
  | .Forward _ timeout => some timeout
  | _ => none

variable [Libp2p P]

/-- One turn of the loop over the outbound substream. It starts with taking the state out, and each
branch has to put one back. -/
def outbound_turn (io : Framed P S) (closed : Bool) (elapsed : Delay → Bool) :
    EnabledHandler P S × Sender P →
      Turn (EnabledHandler P S × Sender P) (ConnectionHandlerEvent P) :=
  fun (taken, queue) =>
  let h := { taken with outbound_substream := some .Poisoned }
  match taken.outbound_substream with
  | some (.WaitingOutput substream) =>
    match h.send_queue.poll_next closed queue with
    | (.Ready (some transaction), send_queue, queue) =>
      let h := { h with send_queue }
      if (timeout transaction).any elapsed then
        .Leave (.Return (.NotifyBehaviour (.TransactionDropped transaction))
          ({ h with outbound_substream := some (.WaitingOutput substream) }, queue))
      else .Continue ({ h with
        outbound_substream := some (.PendingSend substream transaction.into_protobuf) }, queue)
    | (_, send_queue, queue) =>
      .Leave (.Break ({ h with
        send_queue, outbound_substream := some (.WaitingOutput substream) }, queue))
  | some (.PendingSend substream rpc) =>
    match io.poll_ready substream with
    | (.Ready (.ok ()), substream) =>
      match io.start_send substream rpc with
      | (.ok (), substream) =>
        .Continue ({ h with outbound_substream := some (.PendingFlush substream) }, queue)
      | (.error _, _) => .Leave (.Break ({ h with outbound_substream := none }, queue))
    | (.Ready (.error _), _) => .Leave (.Break ({ h with outbound_substream := none }, queue))
    | (.Pending, substream) =>
      .Leave (.Break ({ h with outbound_substream := some (.PendingSend substream rpc) }, queue))
  | some (.PendingFlush substream) =>
    match io.poll_flush substream with
    | (.Ready (.ok ()), substream) =>
      .Continue ({ h with outbound_substream := some (.WaitingOutput substream) }, queue)
    | (.Ready (.error _), _) => .Leave (.Break ({ h with outbound_substream := none }, queue))
    | (.Pending, substream) =>
      .Leave (.Break ({ h with outbound_substream := some (.PendingFlush substream) }, queue))
  | none => .Leave (.Break ({ h with outbound_substream := none }, queue))
  | some .Poisoned => .Leave .Panic

omit [Libp2p P] in
/-- One turn of the loop over the inbound substream. -/
def inbound_turn (io : Framed P S) (taken : EnabledHandler P S) :
    Turn (EnabledHandler P S) (ConnectionHandlerEvent P) :=
  let h := { taken with inbound_substream := some .Poisoned }
  match taken.inbound_substream with
  | some (.WaitingInput substream) =>
    match io.poll_next substream with
    | (.Ready (some (.ok transaction)), substream) =>
      .Leave (.Return (.NotifyBehaviour transaction)
        { h with inbound_substream := some (.WaitingInput substream) })
    | (.Ready (some (.error _)), substream) =>
      .Continue { h with inbound_substream := some (.Closing substream) }
    | (.Ready none, substream) =>
      .Continue { h with inbound_substream := some (.Closing substream) }
    | (.Pending, substream) =>
      .Leave (.Break { h with inbound_substream := some (.WaitingInput substream) })
  | some (.Closing substream) =>
    match io.poll_close substream with
    | (.Ready _, _) => .Leave (.Break { h with inbound_substream := none })
    | (.Pending, substream) =>
      .Leave (.Break { h with inbound_substream := some (.Closing substream) })
  | none => .Leave (.Break { h with inbound_substream := none })
  | some .Poisoned => .Leave .Panic

omit [Libp2p P] in
/-- The rest of `poll`, after the loops. -/
def poll_queue (closed : Bool) (elapsed : Delay → Bool) (h : EnabledHandler P S)
    (queue : Sender P) : Polled P (EnabledHandler P S) :=
  match h.send_queue.poll_stale closed elapsed queue with
  | (.Ready (some rpc), send_queue, queue) =>
    .Returned (.Ready (.NotifyBehaviour (.TransactionDropped rpc))) { h with send_queue } queue
  | (_, send_queue, queue) => .Returned .Pending { h with send_queue } queue

omit [Libp2p P] in
/-- The rest of `poll`, after the loop over the outbound substream. -/
def poll_inbound (io : Framed P S) (closed : Bool) (elapsed : Delay → Bool) (fuel : Nat)
    (h : EnabledHandler P S) (queue : Sender P) : Option (Polled P (EnabledHandler P S)) :=
  (Loop.run (inbound_turn io) fuel h).map fun
    | .Break h => h.poll_queue closed elapsed queue
    | .Return event h => .Returned (.Ready event) h queue
    | .Panic => .Panicked

/-- `none` when the fuel does not suffice for the two loops. -/
def poll (io : Framed P S) (closed : Bool) (elapsed : Delay → Bool) (fuel : Nat)
    (h : EnabledHandler P S) (queue : Sender P) : Option (Polled P (EnabledHandler P S)) :=
  let (is_empty, send_queue, queue) := h.send_queue.poll_is_empty closed queue
  let h := { h with send_queue }
  if !is_empty && h.outbound_substream.isNone && !h.outbound_substream_establishing then
    some (.Returned (.Ready (.OutboundSubstreamRequest h.listen_protocol))
      { h with outbound_substream_establishing := true } queue)
  else
    (Loop.run (outbound_turn io closed elapsed) fuel (h, queue)).bind fun
      | .Break (h, queue) => h.poll_inbound io closed elapsed fuel queue
      | .Return event (h, queue) => some (.Returned (.Ready event) h queue)
      | .Panic => some .Panicked

omit [Libp2p P] in
/-- What `on_connection_event` does with an event once it is counted. `none` is a panic. -/
def on_counted_event (h : EnabledHandler P S) : ConnectionEvent S → Option (Handler P S)
  | .FullyNegotiatedInbound (.inl protocol) =>
    some (.Enabled (h.on_fully_negotiated_inbound protocol))
  | .FullyNegotiatedInbound (.inr v) => nomatch v
  | .FullyNegotiatedOutbound protocol => (h.on_fully_negotiated_outbound protocol).map .Enabled
  | .DialUpgradeError .Timeout => some (.Enabled h)
  | .DialUpgradeError (.Apply e) => nomatch e
  | .DialUpgradeError .NegotiationFailed => some (.Disabled .ProtocolUnsupported)
  | .DialUpgradeError (.Io _) => some (.Enabled h)
  | _ => some (.Enabled h)

end EnabledHandler

namespace Handler

def new (protocol_config : ProtocolConfig) (transaction_queue : Receiver P) : Handler P S :=
  Enabled {
    listen_protocol := protocol_config
    outbound_substream := none
    inbound_substream := none
    send_queue := transaction_queue
    outbound_substream_establishing := false
    outbound_substream_attempts := 0
    inbound_substream_attempts := 0 }

def poll [Libp2p P] (io : Framed P S) (closed : Bool) (elapsed : Delay → Bool) (fuel : Nat)
    (handler : Handler P S) (queue : Sender P) : Option (Polled P (Handler P S)) :=
  match handler with
  | Enabled h => (h.poll io closed elapsed fuel queue).map fun
    | .Returned answer h queue => .Returned answer (Enabled h) queue
    | .Panicked => .Panicked
  | Disabled d => some (.Returned .Pending (Disabled d) queue)

/-- `none` is a panic. -/
def on_connection_event (handler : Handler P S) (event : ConnectionEvent S) :
    Option (Handler P S) :=
  match handler with
  | Disabled d => some (Disabled d)
  | Enabled h =>
    let h := if event.is_inbound then
      { h with inbound_substream_attempts := h.inbound_substream_attempts + 1 } else h
    if event.is_inbound && decide (h.inbound_substream_attempts = MAX_SUBSTREAM_ATTEMPS) then
      some (Disabled .MaxSubstreamAttempts)
    else
      let h := if event.is_outbound then { h with
        outbound_substream_establishing := false
        outbound_substream_attempts := h.outbound_substream_attempts + 1 } else h
      if event.is_outbound && decide (h.outbound_substream_attempts = MAX_SUBSTREAM_ATTEMPS) then
        some (Disabled .MaxSubstreamAttempts)
      else h.on_counted_event event

end Handler

end

end libp2p_dog
