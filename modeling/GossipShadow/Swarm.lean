-- An overlay with the handlers in place. Each node is a swarm: the handlers of
-- its connections take the RPCs out of the queues and put them on substreams,
-- and what they read there waits until the behaviour is told of it.
import GossipShadow.LifeLaws
import GossipShadow.Parts

namespace libp2p_dog

/-- A connection of a swarm. -/
structure HandledConnection (P S : Type) where
  peer_id : P
  connection_id : ConnectionId
  handler : Handler P S

structure Swarm (P F S : Type) [Libp2p P] where
  behaviour : Behaviour P F
  connections : List (HandledConnection P S)
  /-- What the handlers have told, with the peers of their connections, and the behaviour has not
  processed. -/
  handler_events : List (P × HandlerEvent P)

/-- An RPC on a substream of the sender to the recipient. -/
structure Frame (P : Type) where
  sender : P
  recipient : P
  rpc : proto.RPC
deriving DecidableEq, Repr

structure Swarms (P F S : Type) [Libp2p P] where
  swarm : P → Swarm P F S
  frames : List (Frame P)
  /-- A history variable: the events that the behaviours handed out. -/
  told : P → List (Event P)

/-- What happens to the swarms. A behaviour is called, by its user or by its swarm, or is told of
what a handler told; a handler is polled, with a stream that gives any answers, or is told of an
event of its connection. A substream may lose a frame, and a connection that closes what its handler
told. -/
inductive SwarmOp (P S : Type) where
  | call (v : P) (c : Call P)
  | notify (v : P) (index now draw : Nat)
  | poll (v : P) (index : Nat) (io : Framed P S) (elapsed : Delay → Bool)
  | connection_event (v : P) (index : Nat) (event : ConnectionEvent S)
  | lose (index : Nat)
  | forget (v : P) (index : Nat)

/-- The call comes from the user or from the swarm, and not from a handler. -/
def Call.of_swarm {P : Type} : Call P → Bool
  | on_connection_handler_event _ _ _ _ => false
  | _ => true

section

variable {P F S : Type} [Libp2p P]

/-- The connections after a call. The handler of a new one is made with the receiver that the
behaviour gives. -/
def Swarm.connections_after [DecidableEq P] (n : Swarm P F S) :
    Call P → List (HandledConnection P S)
  | .handle_established_inbound_connection connection_id peer_id =>
    let receiver := (n.behaviour.handle_established_inbound_connection connection_id peer_id).1
    n.connections ++
      [{ peer_id, connection_id, handler := .new n.behaviour.config.protocol receiver }]
  | .handle_established_outbound_connection connection_id peer_id =>
    let receiver := (n.behaviour.handle_established_outbound_connection connection_id peer_id).1
    n.connections ++
      [{ peer_id, connection_id, handler := .new n.behaviour.config.protocol receiver }]
  | .on_swarm_event _ _ (.ConnectionClosed peer_id connection_id _) =>
    n.connections.filter fun c =>
      !(decide (c.peer_id = peer_id) && decide (c.connection_id = connection_id))
  | _ => n.connections

/-- What a handler tells the behaviour with its answer. -/
def handler_event : Poll (ConnectionHandlerEvent P) → Option (HandlerEvent P)
  | .Ready (.NotifyBehaviour event) => some event
  | _ => none

/-- The RPCs that a substream has taken. -/
def handed (deeds : List (Deed P)) : List proto.RPC := deeds.filterMap (·.handed?)

variable [DecidableEq P] [Schema]

/-- What a handler of `v` reads from a substream of `p` is what the codec makes of a frame, which is
gone then. Without a RPC to tell of, no frame is gone. -/
inductive Reads (validation_mode : ValidationMode) (v p : P) (frames : List (Frame P)) :
    Poll (ConnectionHandlerEvent P) → List (Frame P) → Prop
  | frame (index : Nat) (random : Nat → P) (frame : Frame P) (rpc : Rpc P)
      (invalid : List (RawTransaction P × ValidationError)) (there : frames[index]? = some frame)
      (sender : frame.sender = p) (recipient : frame.recipient = v)
      (decoded : DogCodec.decode_rpc validation_mode random frame.rpc = .Transaction rpc invalid) :
      Reads validation_mode v p frames (.Ready (.NotifyBehaviour (.Transaction rpc invalid)))
        (frames.eraseIdx index)
  | nothing (answer : Poll (ConnectionHandlerEvent P))
      (no_rpc : ∀ rpc invalid, handler_event answer ≠ some (.Transaction rpc invalid)) :
      Reads validation_mode v p frames answer frames

namespace Swarms

variable [F64 F]

def update (s : Swarms P F S) (v : P) (n : Swarm P F S) : Swarms P F S :=
  { s with swarm := Function.update s.swarm v n }

/-- A handler of `v` after a call of it. -/
def set_handler (s : Swarms P F S) (v : P) (index : Nat) (c : HandledConnection P S)
    (handler : Handler P S) : Swarms P F S :=
  s.update v { s.swarm v with connections := (s.swarm v).connections.set index { c with handler } }

/-- The nodes of the overlay, not connected yet. -/
def initial (o : Overlay P F) : Swarms P F S where
  swarm v := { behaviour := (o.setup v).behaviour, connections := [], handler_events := [] }
  frames := []
  told _ := []

inductive Step (o : Overlay P F) (s : Swarms P F S) : SwarmOp P S → Swarms P F S → Prop
  | call {v : P} {c : Call P} {b' : Behaviour P F} (member : v ∈ o.nodes)
      (of_swarm : c.of_swarm = true) (called : (s.swarm v).behaviour.call c = some b') :
      Step o s (.call v c)
        { s.update v { s.swarm v with
            behaviour := b', connections := (s.swarm v).connections_after c } with
          told := Function.update s.told v (s.told v ++ (s.swarm v).behaviour.emitted c) }
  | notify {v p : P} {index now draw : Nat} {event : HandlerEvent P} (member : v ∈ o.nodes)
      (there : (s.swarm v).handler_events[index]? = some (p, event)) :
      Step o s (.notify v index now draw) (s.update v { s.swarm v with
        behaviour := (s.swarm v).behaviour.on_connection_handler_event (fun _ => now) draw p event
        handler_events := (s.swarm v).handler_events.eraseIdx index })
  | poll {v : P} {index : Nat} {io : Framed P S} {elapsed : Delay → Bool}
      {c : HandledConnection P S} {queue queue' : Sender P} {handler : Handler P S}
      {answer : Poll (ConnectionHandlerEvent P)} {deeds : List (Deed P)} {frames : List (Frame P)}
      (member : v ∈ o.nodes) (there : (s.swarm v).connections[index]? = some c)
      (queued : (s.swarm v).behaviour.queue c.peer_id = some queue)
      (returns : c.handler.ReturnsWith io false elapsed queue answer handler queue' deeds)
      (reads : Reads (o.config v).protocol.validation_mode v c.peer_id
        (s.frames ++ (handed deeds).map (Frame.mk v c.peer_id)) answer frames) :
      Step o s (.poll v index io elapsed)
        { s.update v {
            behaviour := (s.swarm v).behaviour.set_queue c.peer_id queue'
            connections := (s.swarm v).connections.set index { c with handler }
            handler_events := (s.swarm v).handler_events ++
              (handler_event answer).toList.map (c.peer_id, ·) } with
          frames }
  | connection_event {v : P} {index : Nat} {event : ConnectionEvent S} {c : HandledConnection P S}
      {handler : Handler P S} (there : (s.swarm v).connections[index]? = some c)
      (event_told : c.handler.on_connection_event event = some handler) :
      Step o s (.connection_event v index event) (s.set_handler v index c handler)
  | lose (index : Nat) : Step o s (.lose index) { s with frames := s.frames.eraseIdx index }
  | forget (v : P) (index : Nat) : Step o s (.forget v index) (s.update v { s.swarm v with
      handler_events := (s.swarm v).handler_events.eraseIdx index })

def machine (o : Overlay P F) : Machine (Swarms P F S) (SwarmOp P S) where
  init s := s = initial o
  step := Step o

end Swarms

omit [DecidableEq P] [Schema] in
/-- The clock that an operation reads for a cache, with the node of the cache. -/
def SwarmOp.readings : SwarmOp P S → List (P × Nat)
  | call v (.publish now _) => [(v, now)]
  | notify v _ now _ => [(v, now)]
  | _ => []

omit [DecidableEq P] [Schema] in
/-- The clocks are read from `start` on, and before a cache would let go of an entry that it took
then. -/
def Swarms.InWindow (o : Overlay P F) (start : Nat) (ops : List (SwarmOp P S)) : Prop :=
  ∀ r ∈ ops.flatMap (·.readings), start ≤ r.2 ∧ r.2 < start + (o.config r.1).cache_time

end

end libp2p_dog
