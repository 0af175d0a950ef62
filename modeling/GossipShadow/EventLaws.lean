-- Which events the calls push, and what they tell: the last RoutingUpdated and
-- the gauge of the metrics always show the routing table as it is.
import GossipShadow.Node

namespace libp2p_dog

section

variable {P F : Type}

/-! ## What events tell -/

/-- The routing table that an event shows, if it shows one. -/
def Event.routing : Event P → Option (List (Route P))
  | RoutingUpdated disabled_routes => some disabled_routes
  | _ => none

def Event.isReceived : Event P → Bool
  | TransactionReceived _ _ _ => true
  | _ => false

/-- The routing table that the last RoutingUpdated of some events shows. -/
def shown (events : List (Event P)) : Option (List (Route P)) :=
  (events.filterMap (·.routing)).getLast?

theorem shown_append (events events' : List (Event P)) :
    shown (events ++ events') = (shown events').or (shown events) := by
  unfold shown
  rw [List.filterMap_append, List.getLast?_append]

variable [Libp2p P]

/-- The gauge of the metrics, if there are metrics. -/
def Behaviour.gauge (b : Behaviour P F) : Option Int := b.metrics.map (·.disabled_routes_count)

/-- `b'` is `b` with the events `new` pushed, which tell what became of the routing table. -/
structure Tells (b : Behaviour P F) (new : List (Event P)) (b' : Behaviour P F) : Prop where
  events : b'.events = b.events ++ new
  routes : b'.router.disabled_routes = (shown new).getD b.router.disabled_routes
  gauge : b'.gauge = match shown new with
    | some routes => b.gauge.map fun _ => (routes.length : Int)
    | none => b.gauge

theorem Tells.trans {b b' b'' : Behaviour P F} {new new' : List (Event P)} (h : Tells b new b')
    (h' : Tells b' new' b'') : Tells b (new ++ new') b'' := by
  obtain ⟨hevents, hroutes, hgauge⟩ := h
  obtain ⟨hevents', hroutes', hgauge'⟩ := h'
  refine ⟨by rw [hevents', hevents, List.append_assoc], ?_, ?_⟩
  · rw [hroutes', hroutes, shown_append]
    cases shown new' <;> rfl
  · rw [hgauge', shown_append]
    cases shown new' with
    | none => exact hgauge
    | some routes =>
      rw [hgauge]
      cases shown new with
      | none => rfl
      | some _ => exact Option.map_map _ _ _

/-- A call that pushes only events that tell neither of a received transaction nor of the routing
table, which it leaves as it is. -/
def Silent (b b' : Behaviour P F) : Prop :=
  ∃ new, Tells b new b' ∧ ∀ e ∈ new, e.routing = none ∧ e.isReceived = false

omit [Libp2p P] in
theorem shown_eq_none {events : List (Event P)} (h : ∀ e ∈ events, e.routing = none) :
    shown events = none := by
  have hnil : events.filterMap (·.routing) = [] := List.filterMap_eq_nil_iff.mpr h
  rw [shown, hnil]
  rfl

theorem Silent.intro {b b' : Behaviour P F} {new : List (Event P)}
    (hevents : b'.events = b.events ++ new)
    (hnew : ∀ e ∈ new, e.routing = none ∧ e.isReceived = false)
    (hroutes : b'.router.disabled_routes = b.router.disabled_routes)
    (hgauge : b'.gauge = b.gauge) : Silent b b' := by
  have hnone := shown_eq_none fun e he => (hnew e he).1
  exact ⟨new, ⟨hevents, by rw [hroutes, hnone]; rfl, by rw [hgauge, hnone]⟩, hnew⟩

/-- Neither events nor routes nor metrics change. -/
theorem Silent.of_eq {b b' : Behaviour P F} (hevents : b'.events = b.events)
    (hroutes : b'.router.disabled_routes = b.router.disabled_routes)
    (hmetrics : b'.metrics = b.metrics) : Silent b b' :=
  .intro (by rw [hevents, List.append_nil]) (by simp) hroutes
    (by rw [Behaviour.gauge, hmetrics]; rfl)

theorem Silent.refl (b : Behaviour P F) : Silent b b := .of_eq rfl rfl rfl

theorem Silent.trans {b b' b'' : Behaviour P F} (h : Silent b b') (h' : Silent b' b'') :
    Silent b b'' := by
  obtain ⟨new, htells, hnew⟩ := h
  obtain ⟨new', htells', hnew'⟩ := h'
  refine ⟨new ++ new', htells.trans htells', ?_⟩
  intro e he
  exact (List.mem_append.mp he).elim (hnew e) (hnew' e)

/-- It pushes events, but no TransactionReceived. -/
theorem Silent.unheard {b b' : Behaviour P F} (h : Silent b b') :
    ∃ new, Tells b new b' ∧ new.filter (·.isReceived) = [] := by
  obtain ⟨new, htells, hnew⟩ := h
  refine ⟨new, htells, ?_⟩
  rw [List.filter_eq_nil_iff]
  intro e he
  simp [(hnew e he).2]

/-- The rest of a call may push what it likes. -/
theorem Silent.tells {b b' b'' : Behaviour P F} {new : List (Event P)} (h : Silent b b')
    (h' : Tells b' new b'') :
    ∃ all, Tells b all b'' ∧ all.filter (·.isReceived) = new.filter (·.isReceived) := by
  obtain ⟨before, htells, hnone⟩ := h.unheard
  exact ⟨before ++ new, htells.trans h', by rw [List.filter_append, hnone, List.nil_append]⟩

theorem Tells.silent {b b' b'' : Behaviour P F} {new : List (Event P)} (h : Tells b new b')
    (h' : Silent b' b'') :
    ∃ all, Tells b all b'' ∧ all.filter (·.isReceived) = new.filter (·.isReceived) := by
  obtain ⟨after, htells, hnone⟩ := h'.unheard
  exact ⟨new ++ after, h.trans htells, by rw [List.filter_append, hnone, List.append_nil]⟩

/-! ## The calls, one by one -/

namespace Behaviour

theorem with_metrics_silent {f : Metrics F → Metrics F}
    (hf : ∀ m, (f m).disabled_routes_count = m.disabled_routes_count) (b : Behaviour P F) :
    Silent b (b.with_metrics f) := by
  refine .intro (List.append_nil _).symm (by simp) rfl ?_
  simp only [gauge, with_metrics, Option.map_map]
  congr 1
  funext m
  exact hf m

theorem push_event_silent {e : Event P} (hrouting : e.routing = none)
    (hreceived : e.isReceived = false) (b : Behaviour P F) : Silent b (b.push_event e) := by
  have hevents : (b.push_event e).events = b.events ++ [e] := rfl
  refine .intro hevents ?_ rfl rfl
  intro e' he'
  rw [List.mem_singleton.mp he']
  exact ⟨hrouting, hreceived⟩

theorem push_event_tells {e : Event P} (hrouting : e.routing = none) (b : Behaviour P F) :
    Tells b [e] (b.push_event e) := by
  have hnone : shown [e] = none := shown_eq_none (by simpa using hrouting)
  exact ⟨rfl, by rw [hnone]; rfl, by rw [hnone]; rfl⟩

/-- Whatever became of the routing table, its event shows it. -/
theorem push_routing_updated_tells {b b' : Behaviour P F} {new : List (Event P)}
    (hevents : b'.events = b.events ++ new) (hmetrics : b'.metrics = b.metrics) :
    Tells b (new ++ [.RoutingUpdated b'.router.disabled_routes]) b'.push_routing_updated := by
  have hshown : shown (new ++ [.RoutingUpdated b'.router.disabled_routes]) =
      some b'.router.disabled_routes := by
    rw [shown_append]
    rfl
  refine ⟨?_, ?_, ?_⟩
  · simp [push_routing_updated, push_event, with_metrics, hevents]
  · rw [hshown]
    rfl
  · rw [hshown]
    simp only [gauge, push_routing_updated, with_metrics, push_event, hmetrics, Option.map_map]
    rfl

variable [DecidableEq P] [Schema]

theorem send_silent (b : Behaviour P F) (now : Nat) (tx_id : Option TransactionId) (p : P)
    (rpc : RpcOut P) : Silent b (b.send now tx_id p rpc).2 := by
  have hcount : Silent b (b.count_tx_sent rpc) := by
    unfold count_tx_sent
    split
    · exact with_metrics_silent (by intro m; rfl) b
    · exact .refl b
  apply hcount.trans
  unfold send send_transaction
  dsimp only
  split
  · exact .of_eq rfl rfl rfl
  · split
    · exact .of_eq rfl rfl rfl
    · exact .of_eq rfl rfl rfl

theorem send_to_each_silent (b : Behaviour P F) (now : Nat) (tx_id : TransactionId)
    (transaction : Transaction P) (rpc : RpcOut P) (peers : List P) :
    Silent b (b.send_to_each now tx_id transaction rpc peers).2 := by
  induction peers generalizing b with
  | nil => exact .refl b
  | cons p peers ih =>
    have hsend := send_silent b now (some tx_id) p rpc
    simp only [send_to_each]
    split
    · exact (hsend.trans (push_event_silent rfl rfl _)).trans (ih _)
    · exact hsend.trans (ih _)

theorem publish_new_silent (b : Behaviour P F) (now : Nat) (raw : RawTransaction P)
    (transaction : Transaction P) (tx_id : TransactionId) :
    Silent b (b.publish_new now raw transaction tx_id).2 := by
  unfold publish_new
  dsimp only
  have hcache : Silent b { b with cache := (b.cache.insert now tx_id b.own_id).2 } :=
    .of_eq rfl rfl rfl
  have hstart := hcache.trans (with_metrics_silent
    (f := (·.set_txs_cache_size (b.cache.insert now tx_id b.own_id).2.len)) (by intro m; rfl) _)
  have hsent := hstart.trans (send_to_each_silent _ now tx_id transaction
    (.Publish raw { created := now, duration := b.config.connection_handler_publish_duration })
    (b.router.filter_valid_routes b.own_id b.connected_peers.keys))
  split
  · exact hsent
  · split
    · exact hsent
    · exact hsent.trans (with_metrics_silent (by intro m; rfl) _)

theorem publish_silent {b b' : Behaviour P F} {now : Nat} {data : Bytes}
    {answer : Except PublishError TransactionId} (h : b.publish now data = some (answer, b')) :
    Silent b b' := by
  unfold publish at h
  split at h
  · cases h
    exact .refl b
  · split at h
    · cases h
      exact .refl b
    · obtain ⟨⟨built, config⟩, -, hres⟩ := Option.map_eq_some_iff.mp h
      have hconfig : Silent b { b with publish_config := config } := .of_eq rfl rfl rfl
      cases built with
      | error e =>
        cases hres
        exact hconfig
      | ok raw =>
        simp only [publish_built] at hres
        split at hres
        · cases hres
          exact hconfig
        · have hnew := publish_new_silent { b with publish_config := config } now raw
            { from_ := raw.from_, seqno := raw.seqno, data }
            (b.config.transaction_id { from_ := raw.from_, seqno := raw.seqno, data })
          rw [hres] at hnew
          exact hconfig.trans hnew

theorem forward_transaction_silent (b : Behaviour P F) (now : Nat) (tx_id : TransactionId)
    (raw : RawTransaction P) (source : P) :
    Silent b (b.forward_transaction now tx_id raw source).2 := by
  unfold forward_transaction
  dsimp only
  split
  · exact .refl b
  · exact send_to_each_silent _ _ _ _ _ _

theorem send_reset_route_silent (b : Behaviour P F) (now draw : Nat) :
    Silent b (b.send_reset_route now draw) := by
  unfold send_reset_route
  split
  · exact .refl b
  · rename_i p _
    have hsend := send_silent b now none p (.ResetRoute {})
    dsimp only
    split
    · set sent := (b.send now none p (.ResetRoute {})).2
      have hcount : Silent b { sent with router := sent.router.remove_have_tx_sent p } :=
        hsend.trans (.of_eq rfl rfl rfl)
      have hmetrics := hcount.trans (with_metrics_silent (f := (·.register_reset_route_sent))
        (by intro m; rfl) _)
      exact hmetrics.trans (push_event_silent rfl rfl _)
    · exact hsend

theorem adjust_redundancy_silent [F64 F] (b : Behaviour P F) (now draw : Nat) :
    Silent b (b.adjust_redundancy now draw) := by
  unfold adjust_redundancy
  dsimp only
  set evaluated : Behaviour P F :=
    { b with redundancy_controller := b.redundancy_controller.evaluate.2 } with hevaluated
  have hevaluate : Silent b evaluated := .of_eq rfl rfl rfl
  have hreset : Silent b (if b.redundancy_controller.evaluate.1.2 = true then
      evaluated.send_reset_route now draw else evaluated) := by
    split
    · exact hevaluate.trans (send_reset_route_silent _ _ _)
    · exact hevaluate
  have hmetrics := hreset.trans (with_metrics_silent
    (f := (·.set_redundancy b.redundancy_controller.evaluate.1.1)) (by intro m; rfl) _)
  exact hmetrics.trans (.of_eq rfl rfl rfl)

theorem send_have_tx_silent (b : Behaviour P F) (now : Nat) (tx_id : TransactionId) (source : P) :
    Silent b (b.send_have_tx now tx_id source) := by
  unfold send_have_tx
  have hsend := send_silent b now (some tx_id) source (.HaveTx { tx_id })
  dsimp only
  split
  · set sent := (b.send now (some tx_id) source (.HaveTx { tx_id })).2
    have hcount : Silent b { sent with
        router := sent.router.register_have_tx_sent source
        redundancy_controller := sent.redundancy_controller.block_have_tx } :=
      hsend.trans (.of_eq rfl rfl rfl)
    have hmetrics := hcount.trans (with_metrics_silent (f := (·.register_have_tx_sent))
      (by intro m; rfl) _)
    exact hmetrics.trans (push_event_silent rfl rfl _)
  · exact hsend

theorem handle_duplicate_silent (b : Behaviour P F) (now : Nat) (tx_id : TransactionId)
    (source : P) : Silent b (b.handle_duplicate now tx_id source) := by
  unfold handle_duplicate
  dsimp only
  have hmetrics := with_metrics_silent (f := (·.set_txs_cache_size b.cache.len))
    (by intro m; rfl) b
  have hcount : Silent b { b.with_metrics (·.set_txs_cache_size b.cache.len) with
      redundancy_controller := b.redundancy_controller.incr_duplicate_txs_count } :=
    hmetrics.trans (.of_eq rfl rfl rfl)
  split
  · exact hcount
  · split
    · exact hcount
    · exact hcount.trans (send_have_tx_silent _ _ _ _)

theorem handle_first_time_silent (b : Behaviour P F) (now : Nat) (tx_id : TransactionId)
    (raw : RawTransaction P) (source : P) :
    Silent b (b.handle_first_time now tx_id raw source) := by
  unfold handle_first_time
  dsimp only
  have hcount : Silent b { b with
    redundancy_controller := b.redundancy_controller.incr_first_time_txs_count } :=
    .of_eq rfl rfl rfl
  have hmetrics := (hcount.trans (with_metrics_silent (f := (·.tx_recv)) (by intro m; rfl) _)).trans
    (with_metrics_silent (f := (·.set_txs_cache_size b.cache.len)) (by intro m; rfl) _)
  split
  · exact hmetrics.trans (forward_transaction_silent _ _ _ _ _)
  · exact hmetrics

/-- The event that tells of a received transaction, if its data can be read. -/
def received_event (b : Behaviour P F) (source : P) (raw : RawTransaction P) : List (Event P) :=
  match b.data_transform.inbound_transform raw with
  | .error _ => []
  | .ok transaction =>
    [.TransactionReceived source (b.config.transaction_id transaction) transaction]

theorem received_tells (b : Behaviour P F) (now : Nat) (raw : RawTransaction P) (source : P) :
    ∃ new, Tells b new (b.handle_received_transaction now raw source) ∧
      new.filter (·.isReceived) = b.received_event source raw := by
  have hmetrics := with_metrics_silent (f := (·.tx_recv_unfiltered raw.raw_protobuf_len))
    (by intro m; rfl) b
  unfold handle_received_transaction received_event
  dsimp only
  set start := b.with_metrics (·.tx_recv_unfiltered raw.raw_protobuf_len) with hstart
  have htransform : start.data_transform = b.data_transform := rfl
  rw [htransform]
  cases b.data_transform.inbound_transform raw with
  | error e =>
    have hinvalid : Silent b (start.handle_invalid_transaction source raw) :=
      hmetrics.trans (with_metrics_silent (by intro m; rfl) _)
    exact hinvalid.unheard
  | ok transaction =>
    set tx_id := b.config.transaction_id transaction with hid
    have htold := push_event_tells (e := .TransactionReceived source tx_id transaction) rfl start
    have hrest : Silent (start.push_event (.TransactionReceived source tx_id transaction))
        (if (!(b.cache.insert now tx_id source).1) = true then
          ({ start.push_event (.TransactionReceived source tx_id transaction) with
            cache := (b.cache.insert now tx_id source).2 } : Behaviour P F).handle_duplicate now
              tx_id source
        else
          ({ start.push_event (.TransactionReceived source tx_id transaction) with
            cache := (b.cache.insert now tx_id source).2 } : Behaviour P F).handle_first_time now
              tx_id raw source) := by
      have hcache : Silent (start.push_event (.TransactionReceived source tx_id transaction))
          { start.push_event (.TransactionReceived source tx_id transaction) with
            cache := (b.cache.insert now tx_id source).2 } := .of_eq rfl rfl rfl
      split
      · exact hcache.trans (handle_duplicate_silent _ _ _ _)
      · exact hcache.trans (handle_first_time_silent _ _ _ _ _)
    obtain ⟨told, htold, hfilter⟩ := hmetrics.tells htold
    obtain ⟨all, htells, hall⟩ := htold.silent hrest
    exact ⟨all, htells, by rw [hall, hfilter]; rfl⟩

/-- The transactions of an RPC that the node looks at, when it has seen `count` of them. -/
def handled_from (b : Behaviour P F) (count : Nat) (raws : List (RawTransaction P)) :
    List (RawTransaction P) :=
  match b.config.max_transactions_per_rpc with
  | none => raws
  | some max => raws.take (max - count)

def handled (b : Behaviour P F) (raws : List (RawTransaction P)) : List (RawTransaction P) :=
  b.handled_from 0 raws

omit [DecidableEq P] [Schema] in
@[simp] theorem handled_from_nil (b : Behaviour P F) (count : Nat) :
    b.handled_from count [] = [] := by
  unfold handled_from
  cases b.config.max_transactions_per_rpc with
  | none => rfl
  | some max => exact List.take_nil

omit [DecidableEq P] [Schema] in
theorem handled_from_cons (b : Behaviour P F) (count : Nat) (raw : RawTransaction P)
    (raws : List (RawTransaction P)) :
    b.handled_from count (raw :: raws) =
      if b.config.max_transactions_per_rpc.any (fun max => decide (count ≥ max)) then []
      else raw :: b.handled_from (count + 1) raws := by
  unfold handled_from
  cases b.config.max_transactions_per_rpc with
  | none => rfl
  | some max =>
    by_cases h : count ≥ max
    · simp [h, Nat.sub_eq_zero_of_le h]
    · obtain ⟨left, hleft⟩ : ∃ left, max - count = left + 1 := ⟨max - count - 1, by omega⟩
      have hrest : max - (count + 1) = left := by omega
      simp [h, hleft, hrest]

/-- A received transaction leaves the limit on the transactions of an RPC as it is. -/
theorem handled_from_received (b : Behaviour P F) (now : Nat) (raw : RawTransaction P) (source : P)
    (count : Nat) (raws : List (RawTransaction P)) :
    (b.handle_received_transaction now raw source).handled_from count raws =
      b.handled_from count raws := by
  obtain ⟨sent, hsends, -, -⟩ := received_router b now raw source
  unfold handled_from
  rw [hsends.config]

theorem handle_transactions_tells (b : Behaviour P F) (clock : Nat → Nat) (source : P)
    (count : Nat) (raws : List (RawTransaction P)) :
    ∃ new, Tells b new (b.handle_transactions clock source count raws) ∧
      new.filter (·.isReceived) =
        (b.handled_from count raws).flatMap (b.received_event source) := by
  induction raws generalizing b count with
  | nil =>
    rw [handled_from_nil]
    exact (Silent.refl b).unheard
  | cons raw raws ih =>
    unfold handle_transactions
    rw [handled_from_cons]
    split
    · exact (Silent.refl b).unheard
    · obtain ⟨new, htells, hnew⟩ := received_tells b (clock count) raw source
      obtain ⟨new', htells', hnew'⟩ :=
        ih (b.handle_received_transaction (clock count) raw source) (count + 1)
      obtain ⟨sent, hsends, -, -⟩ := received_router b (clock count) raw source
      have hsame : (b.handle_received_transaction (clock count) raw source).received_event source =
          b.received_event source := by
        funext raw'
        unfold received_event
        rw [hsends.data_transform, hsends.config]
      refine ⟨new ++ new', htells.trans htells', ?_⟩
      rw [List.filter_append, hnew, hnew', hsame, handled_from_received, List.flatMap_cons]

/-! ## The control messages -/

omit [Schema] in
theorem handle_have_tx_tells (b : Behaviour P F) (tx_ids : List TransactionId) (source : P) :
    ∃ new, Tells b new (b.handle_have_tx tx_ids source) ∧ new.filter (·.isReceived) = [] := by
  have hloop : ∀ (tx_ids : List TransactionId) (b : Behaviour P F),
      (tx_ids.foldl (fun b tx_id => b.handle_have_tx_id source tx_id) b).events =
        b.events ++ tx_ids.map (.HaveTxReceived source) ∧
      (tx_ids.foldl (fun b tx_id => b.handle_have_tx_id source tx_id) b).metrics = b.metrics := by
    intro tx_ids
    induction tx_ids with
    | nil => intro b; exact ⟨(List.append_nil _).symm, rfl⟩
    | cons tx_id tx_ids ih =>
      intro b
      obtain ⟨hevents, hmetrics⟩ := ih (b.handle_have_tx_id source tx_id)
      have hone : (b.handle_have_tx_id source tx_id).events =
          b.events ++ [.HaveTxReceived source tx_id] ∧
          (b.handle_have_tx_id source tx_id).metrics = b.metrics := by
        unfold handle_have_tx_id
        dsimp only
        split
        · split
          · exact ⟨rfl, rfl⟩
          · exact ⟨rfl, rfl⟩
        · exact ⟨rfl, rfl⟩
      rw [List.foldl_cons, hevents, hmetrics, hone.1, hone.2]
      simp
  obtain ⟨hevents, hmetrics⟩ := hloop tx_ids b
  refine ⟨_, push_routing_updated_tells hevents hmetrics, ?_⟩
  rw [List.filter_append, List.filter_eq_nil_iff.mpr]
  · rfl
  · intro e he
    obtain ⟨tx_id, -, rfl⟩ := List.mem_map.mp he
    simp [Event.isReceived]

omit [Schema] in
theorem handle_reset_route_tells (b : Behaviour P F) (draw : Nat) (source : P) :
    ∃ new, Tells b new (b.handle_reset_route draw source) ∧ new.filter (·.isReceived) = [] := by
  unfold handle_reset_route
  dsimp only
  split
  · have hevents : ∀ router, ({ b.push_event (.ResetRouteReceived source) with router } :
        Behaviour P F).events = b.events ++ [.ResetRouteReceived source] := fun _ => rfl
    exact ⟨_, push_routing_updated_tells (hevents _) rfl, rfl⟩
  · exact ⟨_, push_event_tells rfl b, rfl⟩

theorem on_rpc_tells [F64 F] (b : Behaviour P F) (clock : Nat → Nat) (draw : Nat) (source : P)
    (rpc : Rpc P) :
    ∃ new, Tells b new (b.on_rpc clock draw source rpc) ∧
      new.filter (·.isReceived) =
        (b.handled rpc.transactions).flatMap (b.received_event source) := by
  apply on_rpc_rule (p := fun b' => ∃ new, Tells b new b' ∧ new.filter (·.isReceived) =
    (b.handled rpc.transactions).flatMap (b.received_event source))
  · exact handle_transactions_tells b clock source 0 rpc.transactions
  · rintro b' ⟨new, htells, hnew⟩
    obtain ⟨new', htells', hnew'⟩ := handle_have_tx_tells b' (have_tx_ids rpc.control_msgs) source
    exact ⟨new ++ new', htells.trans htells', by rw [List.filter_append, hnew, hnew']; simp⟩
  · rintro b' ⟨new, htells, hnew⟩
    obtain ⟨new', htells', hnew'⟩ := handle_reset_route_tells b' draw source
    exact ⟨new ++ new', htells.trans htells', by rw [List.filter_append, hnew, hnew']; simp⟩

/-! ## Connections, and the timer -/

omit [Schema] in
theorem disconnect_tells (b : Behaviour P F) (p : P) :
    ∃ new, Tells b new (b.disconnect p) ∧ new.filter (·.isReceived) = [] := by
  set forgot : Behaviour P F := { b with router := (b.router.reset_routes_with_peer p).2 }
    with hforgot
  obtain ⟨new, htells, hnew⟩ : ∃ new, Tells b new
      (if (b.router.reset_routes_with_peer p).1 ≠ [] then forgot.push_routing_updated else forgot) ∧
      new.filter (·.isReceived) = [] := by
    split
    · have hevents : forgot.events = b.events ++ [] := (List.append_nil _).symm
      exact ⟨_, push_routing_updated_tells hevents rfl, rfl⟩
    · rename_i hnone
      have hroutes : forgot.router.disabled_routes = b.router.disabled_routes := by
        simp only [Router.reset_routes_with_peer, ne_eq, not_not, List.filter_eq_nil_iff] at hnone
        simp only [hforgot, Router.reset_routes_with_peer, List.filter_eq_self]
        intro route hroute
        simpa using hnone route hroute
      have hsilent : Silent b forgot := .of_eq rfl hroutes rfl
      exact hsilent.unheard
  exact ⟨new, ⟨htells.events, htells.routes, htells.gauge⟩, hnew⟩

theorem on_connection_closed_tells [F64 F] (b : Behaviour P F) (now draw : Nat) (p : P)
    (connection_id : ConnectionId) (remaining_established : Nat) :
    ∃ new, Tells b new
      (b.on_connection_closed now draw p connection_id remaining_established) ∧
      new.filter (·.isReceived) = [] := by
  unfold on_connection_closed
  split
  · refine Silent.unheard ?_
    exact .of_eq rfl rfl rfl
  · obtain ⟨new, htells, hnew⟩ := disconnect_tells b p
    have hrest := (adjust_redundancy_silent (b.disconnect p) now draw).trans
      (with_metrics_silent (f := (·.dec_peers_count)) (by intro m; rfl) _)
    obtain ⟨all, hall, hfilter⟩ := htells.silent hrest
    exact ⟨all, hall, by rw [hfilter, hnew]⟩

theorem transaction_dropped_silent [F64 F] (b : Behaviour P F) (clock : Nat → Nat) (draw : Nat)
    (source : P) (rpc : RpcOut P) :
    Silent b (b.on_connection_handler_event clock draw source (.TransactionDropped rpc)) := by
  have htimedout : ∀ b : Behaviour P F,
      Silent b (b.with_metrics (·.register_timedout_tx_dropped)) :=
    with_metrics_silent (by intro m; rfl)
  cases rpc with
  | Publish tx timeout =>
    exact (with_metrics_silent (f := (·.register_published_tx_dropped)) (by intro m; rfl) b).trans
      (htimedout _)
  | Forward tx timeout =>
    exact (with_metrics_silent (f := (·.register_forwarded_tx_dropped)) (by intro m; rfl) b).trans
      (htimedout _)
  | HaveTx have_tx => exact htimedout b
  | ResetRoute reset_route => exact htimedout b

/-- The transactions that a call handles, with the peer that each came from. -/
def receptions (b : Behaviour P F) : Call P → List (P × RawTransaction P)
  | .on_connection_handler_event _ _ source (.Transaction rpc _) =>
    (b.handled rpc.transactions).map fun raw => (source, raw)
  | _ => []

/-- The events that tell of the transactions that a call handles. -/
def received_events (b : Behaviour P F) (c : Call P) : List (Event P) :=
  (b.receptions c).flatMap fun r => b.received_event r.1 r.2

/-- The events that a call hands out. -/
def emitted [F64 F] (b : Behaviour P F) : Call P → List (Event P)
  | .poll now draw redundancy_interval =>
    match (b.poll now draw redundancy_interval).1 with
    | .Ready event => [event]
    | .Pending => []
  | _ => []

/-- A call hands out the first event, or none, and pushes new ones at the end. -/
theorem call_tells [F64 F] {b b' : Behaviour P F} {c : Call P} (h : b.call c = some b') :
    ∃ new left, b.events = b.emitted c ++ left ∧ Tells { b with events := left } new b' ∧
      new.filter (·.isReceived) = b.received_events c := by
  have hpushes : b.emitted c = [] → (∃ new, Tells b new b' ∧
      new.filter (·.isReceived) = b.received_events c) →
      ∃ new left, b.events = b.emitted c ++ left ∧ Tells { b with events := left } new b' ∧
        new.filter (·.isReceived) = b.received_events c := by
    rintro hnone ⟨new, htells, hnew⟩
    exact ⟨new, b.events, by rw [hnone, List.nil_append], htells, hnew⟩
  cases c with
  | publish now data =>
    obtain ⟨⟨answer, after⟩, hpublish, rfl⟩ := Option.map_eq_some_iff.mp h
    exact hpushes rfl (publish_silent hpublish).unheard
  | handle_established_inbound_connection connection_id peer_id =>
    cases h
    have hsilent : Silent b (b.handle_established_connection connection_id peer_id).2 :=
      .of_eq rfl rfl rfl
    exact hpushes rfl hsilent.unheard
  | handle_established_outbound_connection connection_id peer =>
    cases h
    have hsilent : Silent b (b.handle_established_connection connection_id peer).2 :=
      .of_eq rfl rfl rfl
    exact hpushes rfl hsilent.unheard
  | on_swarm_event now draw event =>
    cases h
    apply hpushes rfl
    cases event with
    | ConnectionEstablished peer_id =>
      exact (with_metrics_silent (f := (·.inc_peers_count)) (by intro m; rfl) b).unheard
    | ConnectionClosed peer_id connection_id remaining_established =>
      exact on_connection_closed_tells b now draw peer_id connection_id remaining_established
    | Other => exact (Silent.refl b).unheard
  | on_connection_handler_event clock draw source event =>
    cases h
    apply hpushes rfl
    cases event with
    | Transaction rpc invalid =>
      obtain ⟨new, htells, hnew⟩ := on_rpc_tells b clock draw source rpc
      refine ⟨new, htells, hnew.trans ?_⟩
      simp only [received_events, receptions, List.flatMap_map]
    | TransactionDropped rpc => exact (transaction_dropped_silent b clock draw source rpc).unheard
  | poll now draw redundancy_interval =>
    cases h
    unfold emitted poll
    cases hevents : b.events with
    | cons event events =>
      have hsilent : Silent { b with events } { b with events } := .refl _
      obtain ⟨new, htells, hnew⟩ := hsilent.unheard
      exact ⟨new, events, rfl, htells, hnew⟩
    | nil =>
      have hsilent :
          Silent b (if redundancy_interval then b.adjust_redundancy now draw else b) := by
        split
        · exact adjust_redundancy_silent b now draw
        · exact .refl b
      obtain ⟨new, htells, hnew⟩ := hsilent.unheard
      have hsame : ({ b with events := [] } : Behaviour P F) = b := by rw [← hevents]
      exact ⟨new, [], rfl, by rwa [hsame], hnew⟩

end Behaviour

/-! ## Over whole runs -/

variable [DecidableEq P] [F64 F] [Schema]

/-- The events that a step hands out. -/
def Node.emitted (n : Node P F) (op : Op P) : List (Event P) := op.on_call n.behaviour.emitted

/-- The events pushed in a run: those that were handed out, then those that still wait. -/
def Setup.pushed (s : Setup P F) (ops : List (Op P)) (n : Node P F) : List (Event P) :=
  Machine.observe Node.step Node.emitted s.node ops ++ n.behaviour.events

/-- The last RoutingUpdated shows the routing table as it is, and so does the gauge. -/
structure Shows (events : List (Event P)) (b : Behaviour P F) : Prop where
  routes : (shown events).getD [] = b.router.disabled_routes
  gauge : ∀ m, b.metrics = some m → m.disabled_routes_count = b.router.disabled_routes.length

omit [DecidableEq P] [F64 F] [Schema] in
theorem Shows.tells {events new : List (Event P)} {b b' : Behaviour P F} (h : Shows events b)
    (htells : Tells b new b') : Shows (events ++ new) b' := by
  have hroutes : (shown (events ++ new)).getD [] = b'.router.disabled_routes := by
    rw [htells.routes, shown_append, ← h.routes]
    cases shown new <;> rfl
  refine ⟨hroutes, ?_⟩
  intro m hm
  have hgauge := htells.gauge
  have hrouting := htells.routes
  rw [Behaviour.gauge, hm] at hgauge
  cases hshown : shown new with
  | none =>
    rw [hshown] at hgauge hrouting
    obtain ⟨m', hm', hcount⟩ := Option.map_eq_some_iff.mp hgauge.symm
    have hcount : m'.disabled_routes_count = m.disabled_routes_count := hcount
    rw [← hcount, h.gauge m' hm', hrouting]
    rfl
  | some routes =>
    rw [hshown] at hgauge hrouting
    obtain ⟨count, -, hcount⟩ := Option.map_eq_some_iff.mp hgauge.symm
    have hcount : (routes.length : Int) = m.disabled_routes_count := hcount
    rw [← hcount, hrouting]
    rfl

omit [DecidableEq P] [Schema] in
theorem Shows.start (s : Setup P F) : Shows [] s.behaviour := by
  refine ⟨rfl, ?_⟩
  intro m hm
  simp only [Setup.behaviour, Behaviour.new_with_transform] at hm
  split at hm
  · cases hm
    rfl
  · cases hm

/-- One step hands out events and pushes others, and all of them together still show the table. -/
theorem Shows.step {seen : List (Event P)} {n n' : Node P F} {op : Op P}
    (h : Shows (seen ++ n.behaviour.events) n.behaviour) (hstep : n.step op = some n') :
    Shows ((seen ++ n.emitted op) ++ n'.behaviour.events) n'.behaviour := by
  cases Node.step_cases hstep with
  | called c b' call =>
    obtain ⟨new, left, hevents, htells, -⟩ := Behaviour.call_tells call
    have hall : (seen ++ n.behaviour.emitted c) ++ b'.events =
        (seen ++ n.behaviour.events) ++ new := by
      rw [htells.events, hevents]
      simp
    have hleft : Shows (seen ++ n.behaviour.events) { n.behaviour with events := left } :=
      ⟨h.routes, h.gauge⟩
    have hshows := hleft.tells htells
    rwa [← hall] at hshows
  | polled peers no_call _ same =>
    rw [Node.emitted, Op.on_call_eq_nil no_call, List.append_nil, same]
    exact ⟨h.routes, h.gauge⟩

/-- The events pushed so far and the metrics show the routing table as it is. -/
theorem the_events_show_the_routing_table {s : Setup P F} {n : Node P F} {ops : List (Op P)}
    (hrun : s.machine.Run s.node ops n) : Shows (s.pushed ops n) n.behaviour := by
  unfold Setup.pushed
  apply Machine.Run.observe_invariant (p := fun seen n => Shows (seen ++ n.behaviour.events)
    n.behaviour) hrun
  · exact Shows.start s
  · intro seen n op n' h hstep
    exact h.step hstep

end

/-- Peer 2 has its route from peer 1 disabled, one event is handed out, and peer 1 leaves. -/
def a_route_that_goes : List (Op Sample.Peer) :=
  [Sample.connect 1, Sample.connect 2, Sample.deliver 1 [Sample.raw 1 1] [],
    Sample.deliver 2 [] [.HaveTx { tx_id := Sample.tx_id 1 1 }], .call (.poll 0 0 false),
    Sample.close 1]

theorem the_events_show_a_route_that_came_and_went :
    let s := { Sample.setup 0 with metrics := true }
    ∃ n, s.machine.Run s.node a_route_that_goes n ∧
      (s.pushed a_route_that_goes n).filterMap (·.routing) = [[⟨⟨1⟩, ⟨2⟩⟩], []] ∧
      Shows (s.pushed a_route_that_goes n) n.behaviour := by
  intro s
  have hrun : (Machine.exec Node.step s.node a_route_that_goes).map
      (fun n => (s.pushed a_route_that_goes n).filterMap (·.routing)) =
      some [[⟨⟨1⟩, ⟨2⟩⟩], []] := by decide +kernel
  obtain ⟨n, hrun, hsee⟩ := Machine.exists_run_of_exec hrun
  exact ⟨n, hrun, hsee, the_events_show_the_routing_table hrun⟩

end libp2p_dog
