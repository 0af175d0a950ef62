-- What the control messages, the redundancy timer and the connections do to
-- the routing table, and how the count of HaveTx follows the RPCs sent.
import GossipShadow.Sends

namespace libp2p_dog

variable {P F : Type}

/-! ## The tally of the HaveTx sent -/

/-- What an RPC to a peer does to the count of HaveTx of the peer. -/
def RpcOut.tally (count : Nat) : RpcOut P → Nat
  | .HaveTx _ => count + 1
  | .ResetRoute _ => count - 1
  | .Publish _ _ | .Forward _ _ => count

variable [Libp2p P] [DecidableEq P]

/-- The counts of HaveTx follow the RPCs that the attempts put in the queues. -/
def Tallies (b : Behaviour P F) (new : List (Attempt P)) (b' : Behaviour P F) : Prop :=
  ∀ p, b'.router.have_tx_sent p =
    (enqueued p new).foldl RpcOut.tally (b.router.have_tx_sent p)

theorem Tallies.none {b b' : Behaviour P F}
    (h : b'.router.have_tx_sent_per_peer = b.router.have_tx_sent_per_peer) :
    Tallies b [] b' := by
  intro p
  simp [Router.have_tx_sent, h]

theorem Tallies.trans {b b' b'' : Behaviour P F} {new new' : List (Attempt P)}
    (h : Tallies b new b') (h' : Tallies b' new' b'') : Tallies b (new ++ new') b'' := by
  intro p
  rw [h' p, h p, enqueued_append, List.foldl_append]

theorem Tallies.trans_none {b b' b'' : Behaviour P F} {new : List (Attempt P)}
    (h : Tallies b new b')
    (h' : b''.router.have_tx_sent_per_peer = b'.router.have_tx_sent_per_peer) :
    Tallies b new b'' := by
  intro p
  rw [← h p]
  simp [Router.have_tx_sent, h']

omit [Libp2p P] [DecidableEq P] in
/-- An RPC that carries a transaction does not change the tally. -/
theorem RpcOut.tally_of_tx {rpc : RpcOut P} (h : rpc.tx?.isSome) (count : Nat) :
    rpc.tally count = count := by
  cases rpc with
  | Publish _ _ | Forward _ _ => rfl
  | HaveTx _ | ResetRoute _ => cases h

omit [Libp2p P] [DecidableEq P] in
theorem tally_transactions {rpcs : List (RpcOut P)} (h : ∀ rpc ∈ rpcs, rpc.tx?.isSome)
    (count : Nat) : rpcs.foldl RpcOut.tally count = count := by
  induction rpcs with
  | nil => rfl
  | cons rpc rpcs ih =>
    rw [List.foldl_cons, RpcOut.tally_of_tx (h rpc (by simp))]
    exact ih fun r hr => h r (by simp [hr])

theorem Spread.tallies {now : Nat} {tx_id : TransactionId} {rpc : RpcOut P} {peers : List P}
    {b b' : Behaviour P F} {new : List (Attempt P)} (h : Spread now tx_id rpc peers new)
    (hrpc : rpc.tx?.isSome)
    (hcounts : b'.router.have_tx_sent_per_peer = b.router.have_tx_sent_per_peer) :
    Tallies b new b' := by
  intro p
  rw [tally_transactions]
  · simp [Router.have_tx_sent, hcounts]
  · intro r hr
    obtain ⟨a, ha, -, -, rfl⟩ := mem_enqueued.mp hr
    rw [(h.all a ha).2.2]
    exact hrpc

/-! ## Transactions -/

namespace Behaviour

variable [Schema]

/-- Received transactions leave the routes alone, and their HaveTx are counted. -/
theorem received_router (b : Behaviour P F) (now : Nat) (raw : RawTransaction P) (source : P) :
    ∃ new, Sends b new (b.handle_received_transaction now raw source) ∧
      Tallies b new (b.handle_received_transaction now raw source) ∧
      (b.handle_received_transaction now raw source).router.disabled_routes =
        b.router.disabled_routes := by
  cases received_spec b now raw source with
  | invalid e _ sends router _ =>
    exact ⟨[], sends, .none (by rw [router]), by rw [router]⟩
  | duplicate tx tx_id _ _ _ _ answer =>
    rcases answer with ⟨sends, router⟩ | ⟨sends, router⟩
    · exact ⟨[], sends, .none (by rw [router]), by rw [router]⟩
    · refine ⟨_, sends, ?_, by rw [router]; split <;> rfl⟩
      intro p
      rw [router]
      by_cases hsource : source ∈ b.connected_peers
      · by_cases hp : p = source
        · subst hp
          simp [hsource, enqueued, have_tx_attempt, RpcOut.tally]
        · simp [hsource, enqueued, have_tx_attempt, Ne.symm hp, Router.have_tx_sent_register_ne hp]
      · simp [hsource, enqueued, have_tx_attempt]
  | first_time tx tx_id new _ _ _ _ router sends spread =>
    exact ⟨new, sends, spread.tallies rfl (by rw [router]), by rw [router]⟩

theorem handle_transactions_router (b : Behaviour P F) (clock : Nat → Nat) (source : P)
    (count : Nat) (raws : List (RawTransaction P)) :
    ∃ new, Sends b new (b.handle_transactions clock source count raws) ∧
      Tallies b new (b.handle_transactions clock source count raws) ∧
      (b.handle_transactions clock source count raws).router.disabled_routes =
        b.router.disabled_routes := by
  induction raws generalizing b count with
  | nil => exact ⟨[], Sends.refl b, .none rfl, rfl⟩
  | cons raw raws ih =>
    unfold handle_transactions
    split
    · exact ⟨[], Sends.refl b, .none rfl, rfl⟩
    · obtain ⟨new, hsends, htally, hroutes⟩ := received_router b (clock count) raw source
      obtain ⟨new', hsends', htally', hroutes'⟩ :=
        ih (b.handle_received_transaction (clock count) raw source) (count + 1)
      exact ⟨new ++ new', hsends.trans hsends', htally.trans htally', hroutes'.trans hroutes⟩

/-! ## HaveTx and ResetRoute -/

/-- The route that a HaveTx from `peer` disables, if it disables one. -/
def have_tx_route (cache : DuplicateCache TransactionId P) (peer : P)
    (tx_id : TransactionId) : Option (Route P) :=
  (cache.get tx_id).bind fun source =>
    if source = peer then none else some { source, target := peer }

omit [Libp2p P] [Schema] in
theorem mem_have_tx_routes {cache : DuplicateCache TransactionId P} {peer : P}
    {tx_ids : List TransactionId} {route : Route P} :
    route ∈ tx_ids.filterMap (have_tx_route cache peer) ↔
      route.target = peer ∧ route.source ≠ peer ∧
        ∃ tx_id ∈ tx_ids, cache.get tx_id = some route.source := by
  obtain ⟨s, t⟩ := route
  simp only [List.mem_filterMap, have_tx_route, Option.bind_eq_some_iff]
  constructor
  · rintro ⟨tx_id, hmem, source, hget, hroute⟩
    split at hroute
    · cases hroute
    · cases hroute
      exact ⟨rfl, by assumption, tx_id, hmem, hget⟩
  · rintro ⟨rfl, hne, tx_id, hmem, hget⟩
    exact ⟨tx_id, hmem, s, hget, if_neg hne⟩

omit [Schema] in
theorem handle_have_tx_id_spec (b : Behaviour P F) (peer : P) (tx_id : TransactionId) :
    Sends b [] (b.handle_have_tx_id peer tx_id) ∧
    (b.handle_have_tx_id peer tx_id).cache = b.cache ∧
    (b.handle_have_tx_id peer tx_id).router = { b.router with
      disabled_routes :=
        b.router.disabled_routes ++ (have_tx_route b.cache peer tx_id).toList } := by
  unfold handle_have_tx_id have_tx_route
  have hcache : (b.push_event (.HaveTxReceived peer tx_id)).cache = b.cache := rfl
  simp only [hcache]
  cases b.cache.get tx_id with
  | none => exact ⟨push_event_sends _ b, rfl, by simp⟩
  | some source =>
    by_cases h : source = peer
    · simp only [h, if_true]
      exact ⟨push_event_sends _ b, by simp, by simp⟩
    · simp only [h, if_false]
      exact ⟨.none rfl rfl rfl rfl rfl, by simp, by simp [h, Router.disable_route]⟩

omit [Schema] in
/-- What the HaveTx of an RPC do: each one whose id is cached with another source disables the route
from that source. -/
theorem handle_have_tx_spec (b : Behaviour P F) (tx_ids : List TransactionId) (peer : P) :
    Sends b [] (b.handle_have_tx tx_ids peer) ∧
    (b.handle_have_tx tx_ids peer).cache = b.cache ∧
    (b.handle_have_tx tx_ids peer).router = { b.router with
      disabled_routes :=
        b.router.disabled_routes ++ tx_ids.filterMap (have_tx_route b.cache peer) } := by
  unfold handle_have_tx
  have hloop : ∀ (tx_ids : List TransactionId) (b : Behaviour P F),
      Sends b [] (tx_ids.foldl (fun b tx_id => b.handle_have_tx_id peer tx_id) b) ∧
      (tx_ids.foldl (fun b tx_id => b.handle_have_tx_id peer tx_id) b).cache = b.cache ∧
      (tx_ids.foldl (fun b tx_id => b.handle_have_tx_id peer tx_id) b).router = { b.router with
        disabled_routes :=
          b.router.disabled_routes ++ tx_ids.filterMap (have_tx_route b.cache peer) } := by
    intro tx_ids
    induction tx_ids with
    | nil => intro b; exact ⟨Sends.refl b, rfl, by simp⟩
    | cons tx_id tx_ids ih =>
      intro b
      obtain ⟨hsends, hcache, hrouter⟩ := handle_have_tx_id_spec b peer tx_id
      obtain ⟨hsends', hcache', hrouter'⟩ := ih (b.handle_have_tx_id peer tx_id)
      refine ⟨hsends.none_trans hsends', hcache'.trans hcache, ?_⟩
      rw [List.foldl_cons, hrouter', hrouter, hcache]
      cases h : have_tx_route b.cache peer tx_id <;> simp [h]
  obtain ⟨hsends, hcache, hrouter⟩ := hloop tx_ids b
  exact ⟨hsends.trans_none (push_routing_updated_sends _), hcache, hrouter⟩

omit [Schema] in
theorem handle_reset_route_spec (b : Behaviour P F) (draw : Nat) (peer : P) :
    Sends b [] (b.handle_reset_route draw peer) ∧
    (b.handle_reset_route draw peer).cache = b.cache ∧
    (b.handle_reset_route draw peer).router =
      (b.router.enable_random_route_to_peer draw peer).2 := by
  unfold handle_reset_route
  have hrouter : (b.push_event (.ResetRouteReceived peer)).router = b.router := rfl
  simp only [hrouter]
  rcases Router.enable_random_route_spec b.router draw peer with ⟨_, _, _, _, _, h⟩ | ⟨_, h⟩
  · rw [h]
    exact ⟨.none rfl rfl rfl rfl rfl, rfl, rfl⟩
  · rw [h]
    exact ⟨push_event_sends _ b, rfl, rfl⟩

/-- The routes that an RPC disables, before it enables one. -/
def rpc_routes [F64 F] (b : Behaviour P F) (clock : Nat → Nat) (source : P) (rpc : Rpc P) :
    List (Route P) :=
  if b.config.ignore_have_tx then []
  else (have_tx_ids rpc.control_msgs).filterMap
    (have_tx_route (b.handle_transactions clock source 0 rpc.transactions).cache source)

omit [Libp2p P] [Schema] [DecidableEq P] in
theorem mem_have_tx_ids {control_msgs : List ControlAction} {tx_id : TransactionId} :
    tx_id ∈ have_tx_ids control_msgs ↔ .HaveTx { tx_id } ∈ control_msgs := by
  unfold have_tx_ids
  rw [List.mem_filterMap]
  constructor
  · rintro ⟨msg, hmsg, hid⟩
    cases msg with
    | HaveTx have_tx =>
      cases hid
      exact hmsg
    | ResetRoute reset_route => cases hid
  · intro h
    exact ⟨_, h, rfl⟩

/-- The routes that an RPC disables lead to its sender, and come from the sources that its HaveTx
name. -/
theorem mem_rpc_routes [F64 F] {b : Behaviour P F} {clock : Nat → Nat} {source : P} {rpc : Rpc P}
    {route : Route P} (h : route ∈ b.rpc_routes clock source rpc) :
    route.target = source ∧ route.source ≠ source ∧
      ∃ tx_id, .HaveTx { tx_id } ∈ rpc.control_msgs ∧
        (b.handle_transactions clock source 0 rpc.transactions).cache.get tx_id =
          some route.source := by
  unfold rpc_routes at h
  split at h
  · cases h
  · obtain ⟨htarget, hne, tx_id, hid, hget⟩ := mem_have_tx_routes.mp h
    exact ⟨htarget, hne, tx_id, mem_have_tx_ids.mp hid, hget⟩

/-- What holds once the transactions of an RPC are handled holds after the RPC, when its HaveTx and
its ResetRoutes keep it. -/
theorem on_rpc_rule {p : Behaviour P F → Prop} {b : Behaviour P F} {clock : Nat → Nat}
    {draw : Nat} {source : P} {rpc : Rpc P}
    (htransactions : p (b.handle_transactions clock source 0 rpc.transactions))
    (hhave_tx : ∀ b, p b → p (b.handle_have_tx (have_tx_ids rpc.control_msgs) source))
    (hreset : ∀ b, p b → p (b.handle_reset_route draw source)) :
    p (b.on_rpc clock draw source rpc) := by
  unfold on_rpc
  dsimp only
  split
  · apply hreset
    split
    · exact hhave_tx _ htransactions
    · exact htransactions
  · split
    · exact hhave_tx _ htransactions
    · exact htransactions

/-- What an RPC does: it sends what its transactions make it send, its HaveTx disable routes to its
sender, and a ResetRoute enables one of the routes to its sender, if there is one. -/
theorem on_rpc_spec [F64 F] (b : Behaviour P F) (clock : Nat → Nat) (draw : Nat) (source : P)
    (rpc : Rpc P) :
    ∃ new, Sends b new (b.on_rpc clock draw source rpc) ∧
      Tallies b new (b.on_rpc clock draw source rpc) ∧
      (b.on_rpc clock draw source rpc).cache =
        (b.handle_transactions clock source 0 rpc.transactions).cache ∧
      ((b.on_rpc clock draw source rpc).router.disabled_routes =
          b.router.disabled_routes ++ b.rpc_routes clock source rpc ∧
        (has_reset_route rpc.control_msgs = true →
          ∀ route ∈ b.router.disabled_routes ++ b.rpc_routes clock source rpc,
            route.target ≠ source) ∨
      has_reset_route rpc.control_msgs = true ∧ ∃ before route after,
        b.router.disabled_routes ++ b.rpc_routes clock source rpc = before ++ route :: after ∧
        route.target = source ∧
        (b.on_rpc clock draw source rpc).router.disabled_routes = before ++ after) := by
  obtain ⟨new, hsends, htally, hroutes⟩ :=
    handle_transactions_router b clock source 0 rpc.transactions
  unfold on_rpc
  simp only
  set b₁ := b.handle_transactions clock source 0 rpc.transactions with hb₁
  obtain ⟨b₂, hb₂, hsends₂, hcounts₂, hcache₂, hroutes₂⟩ : ∃ b₂,
      b₂ = (if have_tx_ids rpc.control_msgs ≠ [] && !b₁.config.ignore_have_tx then
        b₁.handle_have_tx (have_tx_ids rpc.control_msgs) source else b₁) ∧
      Sends b₁ [] b₂ ∧ b₂.router.have_tx_sent_per_peer = b₁.router.have_tx_sent_per_peer ∧
      b₂.cache = b₁.cache ∧
      b₂.router.disabled_routes = b.router.disabled_routes ++ b.rpc_routes clock source rpc := by
    refine ⟨_, rfl, ?_⟩
    unfold rpc_routes
    rw [hsends.config]
    obtain ⟨h₁, h₂, h₃⟩ := handle_have_tx_spec b₁ (have_tx_ids rpc.control_msgs) source
    cases hignore : b.config.ignore_have_tx with
    | true => simpa [hroutes] using Sends.refl b₁
    | false =>
      by_cases hids : have_tx_ids rpc.control_msgs = []
      · simpa [hids, hroutes] using Sends.refl b₁
      · simp only [ne_eq, hids, not_false_eq_true, decide_true, Bool.not_false, Bool.and_self,
          if_true, Bool.false_eq_true, if_false]
        refine ⟨h₁, ?_, h₂, ?_⟩
        · rw [h₃]
        · rw [h₃, hroutes]
  rw [← hb₂]
  have htally₂ : Tallies b new b₂ := htally.trans_none hcounts₂
  split
  · rename_i hreset
    obtain ⟨h₁, h₂, h₃⟩ := handle_reset_route_spec b₂ draw source
    have htally₃ : Tallies b new (b₂.handle_reset_route draw source) :=
      htally₂.trans_none (by rw [h₃, Router.enable_random_route_counts])
    refine ⟨new, (hsends.trans_none hsends₂).trans_none h₁, htally₃, h₂.trans hcache₂, ?_⟩
    rw [h₃, ← hroutes₂]
    rcases Router.enable_random_route_spec b₂.router draw source with
      ⟨before, route, after, hsplit, htarget, he⟩ | ⟨hnone, he⟩
    · exact .inr ⟨hreset, before, route, after, hsplit, htarget, by rw [he]⟩
    · exact .inl ⟨by rw [he], fun _ => hnone⟩
  · rename_i hreset
    exact ⟨new, hsends.trans_none hsends₂, htally₂, hcache₂,
      .inl ⟨hroutes₂, fun h => absurd h hreset⟩⟩

/-! ## The redundancy timer -/

/-- Whether the controller asks for a ResetRoute. -/
def asks_reset_route [F64 F] (b : Behaviour P F) : Bool := b.redundancy_controller.evaluate.1.2

/-- The ResetRoute that goes to the peer drawn. -/
def reset_route_attempt (b : Behaviour P F) (now : Nat) (p : P) : Attempt P :=
  { time := now, peer := p, tx_id := none, rpc := .ResetRoute {}
    accepted := decide (p ∈ b.connected_peers) }

/-- What `adjust_redundancy` does. -/
inductive Adjusted [F64 F] (b : Behaviour P F) (now draw : Nat) (b' : Behaviour P F) : Prop
  | idle (no : b.asks_reset_route = false ∨ b.router.get_random_have_tx_sent_peer draw = none)
      (sends : Sends b [] b') (router : b'.router = b.router) (cache : b'.cache = b.cache)
  | reset (p : P) (asks : b.asks_reset_route = true)
      (drawn : b.router.get_random_have_tx_sent_peer draw = some p)
      (sends : Sends b [b.reset_route_attempt now p] b')
      (router : b'.router =
        if p ∈ b.connected_peers then b.router.remove_have_tx_sent p else b.router)
      (cache : b'.cache = b.cache)

theorem send_reset_route_spec (b : Behaviour P F) (now draw : Nat) :
    (b.router.get_random_have_tx_sent_peer draw = none ∧ b.send_reset_route now draw = b) ∨
    ∃ p, b.router.get_random_have_tx_sent_peer draw = some p ∧
      Sends b [b.reset_route_attempt now p] (b.send_reset_route now draw) ∧
      (b.send_reset_route now draw).router =
        (if p ∈ b.connected_peers then b.router.remove_have_tx_sent p else b.router) ∧
      (b.send_reset_route now draw).cache = b.cache := by
  unfold send_reset_route
  cases hdraw : b.router.get_random_have_tx_sent_peer draw with
  | none => exact .inl ⟨rfl, rfl⟩
  | some p =>
    right
    refine ⟨p, rfl, ?_⟩
    have haccepted : (b.send now none p (.ResetRoute {})).1 = decide (p ∈ b.connected_peers) :=
      send_control b now none p (by rfl)
    have h := send_sends b now none p (.ResetRoute {})
    have hattempt : b.attempt now none p (.ResetRoute {}) = b.reset_route_attempt now p := by
      simp only [attempt, reset_route_attempt, haccepted]
    rw [hattempt] at h
    simp only [haccepted]
    by_cases hmem : p ∈ b.connected_peers
    · simp only [hmem, decide_true, if_true]
      exact ⟨h.trans_none (.none rfl rfl rfl rfl rfl), by simp, by simp⟩
    · simp only [hmem, decide_false, Bool.false_eq_true, if_false]
      exact ⟨h, by simp, by simp⟩

theorem adjust_redundancy_spec [F64 F] (b : Behaviour P F) (now draw : Nat) :
    Adjusted b now draw (b.adjust_redundancy now draw) := by
  unfold adjust_redundancy
  simp only
  set start := ({ b with redundancy_controller := b.redundancy_controller.evaluate.2 } :
    Behaviour P F) with hstart
  have h₀ : Sends b [] start := .none rfl rfl rfl rfl rfl
  by_cases hasks : b.redundancy_controller.evaluate.1.2 = true
  · simp only [hasks, if_true]
    rcases send_reset_route_spec start now draw with ⟨hnone, he⟩ | ⟨p, hp, hsends, hrouter, hcache⟩
    · rw [he]
      exact .idle (.inr hnone) (h₀.trans_none (.none rfl rfl rfl rfl rfl)) rfl rfl
    · exact .reset p hasks hp ((h₀.none_trans hsends).trans_none (.none rfl rfl rfl rfl rfl))
        hrouter hcache
  · simp only [hasks, Bool.false_eq_true, if_false]
    exact .idle (.inl (Bool.eq_false_iff.mpr hasks)) (h₀.trans_none (.none rfl rfl rfl rfl rfl)) rfl
      rfl

theorem adjust_redundancy_router [F64 F] (b : Behaviour P F) (now draw : Nat) :
    ∃ new, Sends b new (b.adjust_redundancy now draw) ∧
      Tallies b new (b.adjust_redundancy now draw) ∧
      (b.adjust_redundancy now draw).router.disabled_routes = b.router.disabled_routes := by
  cases adjust_redundancy_spec b now draw with
  | idle _ sends router _ => exact ⟨[], sends, .none (by rw [router]), by rw [router]⟩
  | reset p _ _ sends router _ =>
    refine ⟨_, sends, ?_, by rw [router]; split <;> rfl⟩
    intro q
    rw [router]
    by_cases hp : p ∈ b.connected_peers
    · by_cases hq : q = p
      · subst hq
        simp [hp, enqueued, reset_route_attempt, RpcOut.tally]
      · simp [hp, enqueued, reset_route_attempt, Ne.symm hq, Router.have_tx_sent_remove_ne hq]
    · simp [hp, enqueued, reset_route_attempt]

/-! ## Connections -/

omit [Schema] in
/-- A peer that has gone: its queue and its routes are gone, and the rest is as it was. -/
theorem disconnect_spec (b : Behaviour P F) (p : P) :
    (b.disconnect p).config = b.config ∧
    (b.disconnect p).data_transform = b.data_transform ∧
    (b.disconnect p).own_id = b.own_id ∧
    (b.disconnect p).history = b.history ∧
    (b.disconnect p).cache = b.cache ∧
    (b.disconnect p).redundancy_controller = b.redundancy_controller ∧
    (b.disconnect p).connected_peers = b.connected_peers.erase p ∧
    (b.disconnect p).router = (b.router.reset_routes_with_peer p).2 := by
  unfold disconnect
  simp only
  split <;> exact ⟨rfl, rfl, rfl, rfl, rfl, rfl, rfl, rfl⟩

omit [Schema] in
theorem disconnect_queue (b : Behaviour P F) (p q : P) :
    (b.disconnect p).queue q = if q = p then none else b.queue q := by
  obtain ⟨-, -, -, -, -, -, hpeers, -⟩ := disconnect_spec b p
  unfold queue
  rw [hpeers]
  by_cases h : q = p
  · subst h
    simp
  · simp [h, AList.lookup_erase_ne h]

omit [Schema] in
/-- A new connection to `p`: the peer has a queue, a new one if it had none. -/
theorem established_queue (b : Behaviour P F) (connection_id : ConnectionId) (p q : P) :
    (b.handle_established_connection connection_id p).2.queue q =
      if q = p then
        some ((b.queue p).getD (.new b.config.connection_handler_queue_len))
      else b.queue q := by
  unfold handle_established_connection entry_or_insert queue
  by_cases h : q = p
  · subst h
    cases b.connected_peers.lookup q <;> simp
  · simp [h, AList.lookup_insert_ne h]

end Behaviour
end libp2p_dog
