-- Laws of the routing table over whole runs: which peers the disabled routes
-- name, and when a ResetRoute opens a route again.
import Mathlib.Data.List.Dedup
import Mathlib.Data.List.Duplicate
import GossipShadow.Node

namespace libp2p_dog

section

variable {P F : Type} [Libp2p P] [DecidableEq P] [F64 F] [Schema]

/-! ## The peers that the routes name -/

/-- Each disabled route leads to a connected peer, from the node itself or from a connected peer. -/
def Behaviour.Live (b : Behaviour P F) : Prop :=
  ∀ route ∈ b.router.disabled_routes, route.target ∈ b.connected_peers ∧
    (route.source = b.own_id ∨ route.source ∈ b.connected_peers)

/-- Handlers speak for connected peers. -/
def from_connected (b : Behaviour P F) : Call P → Bool
  | .on_connection_handler_event _ _ source _ => decide (source ∈ b.connected_peers)
  | _ => true

/-- Each HaveTx of an RPC names an id that came from the sender of the RPC, from the node itself or
from a peer that is still connected, or an id that is not in the cache. -/
def sources_connected (b : Behaviour P F) : Call P → Bool
  | .on_connection_handler_event clock _ source (.Transaction rpc _) =>
    b.config.ignore_have_tx || (Behaviour.have_tx_ids rpc.control_msgs).all fun tx_id =>
      match (b.handle_transactions clock source 0 rpc.transactions).cache.get tx_id with
      | some s => decide (s = source) || decide (s = b.own_id) || decide (s ∈ b.connected_peers)
      | none => true
  | _ => true

omit [DecidableEq P] [F64 F] [Schema] in
theorem Behaviour.Live.of_subset {b b' : Behaviour P F} (h : b.Live)
    (hroutes : ∀ route ∈ b'.router.disabled_routes, route ∈ b.router.disabled_routes)
    (hown : b'.own_id = b.own_id)
    (hpeers : ∀ p ∈ b.connected_peers, p ∈ b'.connected_peers) : b'.Live := by
  intro route hmem
  obtain ⟨htarget, hsource⟩ := h route (hroutes route hmem)
  refine ⟨hpeers _ htarget, ?_⟩
  rw [hown]
  exact hsource.imp_right (hpeers _)

omit [F64 F] [Schema] in
/-- A disconnect keeps the table live: the routes of the peer go with the peer. -/
theorem Behaviour.Live.disconnect {b : Behaviour P F} (h : b.Live) (p : P) :
    (b.disconnect p).Live := by
  obtain ⟨-, -, hown, -, -, -, hpeers, hrouter⟩ := Behaviour.disconnect_spec b p
  intro route hmem
  rw [hrouter, Router.mem_reset_routes] at hmem
  obtain ⟨hmem, hsource, htarget⟩ := hmem
  obtain ⟨ht, hs⟩ := h route hmem
  rw [hpeers, hown]
  simp only [AList.mem_erase]
  exact ⟨⟨htarget, ht⟩, hs.imp_right fun hs => ⟨hsource, hs⟩⟩

/-- The routes that an RPC disables lead to its sender, from live sources. -/
theorem rpc_routes_live {b : Behaviour P F} {clock : Nat → Nat} {draw : Nat} {source : P}
    {rpc : Rpc P} {invalid : List (RawTransaction P × ValidationError)}
    (hfrom : from_connected b
      (.on_connection_handler_event clock draw source (.Transaction rpc invalid)) = true)
    (hsources : sources_connected b
      (.on_connection_handler_event clock draw source (.Transaction rpc invalid)) = true)
    {route : Route P} (hmem : route ∈ b.rpc_routes clock source rpc) :
    route.target ∈ b.connected_peers ∧
      (route.source = b.own_id ∨ route.source ∈ b.connected_peers) := by
  unfold Behaviour.rpc_routes at hmem
  split at hmem
  · cases hmem
  · rename_i hignore
    obtain ⟨htarget, hne, tx_id, hid, hget⟩ := Behaviour.mem_have_tx_routes.mp hmem
    have hconnected : source ∈ b.connected_peers := by simpa [from_connected] using hfrom
    refine ⟨htarget ▸ hconnected, ?_⟩
    simp only [sources_connected, hignore, Bool.false_or, List.all_eq_true] at hsources
    have hsource := hsources tx_id hid
    rw [hget] at hsource
    simpa [hne] using hsource

theorem Behaviour.Live.call {b b' : Behaviour P F} {c : Call P} (h : b.Live)
    (hfrom : from_connected b c = true) (hsources : sources_connected b c = true)
    (hcall : b.call c = some b') : b'.Live := by
  cases call_routed hcall with
  | sends new sends _ routes =>
    exact h.of_subset (by simp [routes]) sends.own_id fun p => sends.mem_keys.mpr
  | joined connection_id p _ =>
    refine h.of_subset (fun _ hr => hr) rfl fun q hq => ?_
    exact (AList.mem_insert _).mpr (.inr hq)
  | left now draw p connection_id new sends _ routes =>
    exact (h.disconnect p).of_subset (by simp [routes]) sends.own_id fun q => sends.mem_keys.mpr
  | rpc clock draw source rpc invalid new sends _ routes =>
    have hall : ∀ route ∈ b.router.disabled_routes ++ b.rpc_routes clock source rpc,
        route.target ∈ b.connected_peers ∧
          (route.source = b.own_id ∨ route.source ∈ b.connected_peers) := by
      intro route hmem
      rcases List.mem_append.mp hmem with hmem | hmem
      · exact h route hmem
      · exact rpc_routes_live hfrom hsources hmem
    intro route hmem
    rw [sends.own_id, sends.mem_keys, sends.mem_keys]
    exact hall route ((routes_sublist routes).subset hmem)

/-- As long as each HaveTx names a transaction whose source is still there, the routes only name
live peers: a peer that is away, and then comes back, finds no route from it or to it. -/
theorem the_disabled_routes_name_live_peers {s : Setup P F} {n : Node P F} {ops : List (Op P)}
    (hrun : s.machine.Run s.node ops n)
    (hok : s.machine.Meets (fun n op =>
      on_calls (fun b c => from_connected b c && sources_connected b c) n op = true)
      s.node ops) :
    n.behaviour.Live ∧
    ∀ p, p ∉ n.behaviour.connected_peers → p ≠ n.behaviour.own_id → ∀ connection_id,
      ∀ route ∈
        (n.behaviour.handle_established_connection connection_id p).2.router.disabled_routes,
        route.source ≠ p ∧ route.target ≠ p := by
  have hlive : n.behaviour.Live := by
    refine run_invariant hrun hok ?_ ?_ ?_
    · intro route hmem
      cases hmem
    · intro b c b' hb hok hcall
      obtain ⟨hfrom, hsources⟩ := (Bool.and_eq_true _ _).mp hok
      exact hb.call hfrom hsources hcall
    · intro b peers hb hkeys
      refine hb.of_subset (fun _ h => h) rfl fun p hp => ?_
      rwa [AList.mem_keys, hkeys, ← AList.mem_keys]
  refine ⟨hlive, ?_⟩
  intro p hp hown connection_id route hmem
  obtain ⟨htarget, hsource⟩ := hlive route hmem
  constructor
  · rintro rfl
    exact hsource.elim hown hp
  · rintro rfl
    exact hp htarget

end

/-- A transaction of peer 1 is cached, and a HaveTx of peer 2 disables the route between them. -/
def timely_have_tx : List (Op Sample.Peer) :=
  [Sample.connect 1, Sample.connect 2, Sample.deliver 1 [Sample.raw 1 1] [],
    Sample.deliver 2 [] [.HaveTx { tx_id := Sample.tx_id 1 1 }]]

theorem the_disabled_routes_name_live_peers_after_a_have_tx :
    ∃ n, (Sample.setup 0).machine.Run (Sample.setup 0).node timely_have_tx n ∧
      n.behaviour.router.disabled_routes = [⟨⟨1⟩, ⟨2⟩⟩] ∧ n.behaviour.Live := by
  have hrun : (Machine.exec (Machine.guarded
      (on_calls fun b c => from_connected b c && sources_connected b c) Node.step)
      (Sample.setup 0).node timely_have_tx).map (·.behaviour.router.disabled_routes) =
      some [⟨⟨1⟩, ⟨2⟩⟩] := by decide
  obtain ⟨n, hrun, hok, hsee⟩ := Setup.exists_run hrun
  exact ⟨n, hrun, hsee, (the_disabled_routes_name_live_peers hrun hok).1⟩

/-- A transaction of peer 1 is cached, peer 1 leaves, and a HaveTx of peer 2 arrives late. -/
def late_have_tx : List (Op Sample.Peer) :=
  [Sample.connect 1, Sample.connect 2, Sample.deliver 1 [Sample.raw 1 1] [], Sample.close 1,
    Sample.deliver 2 [] [.HaveTx { tx_id := Sample.tx_id 1 1 }]]

theorem a_late_have_tx_names_a_peer_that_left :
    ¬ ∀ (s : Setup Sample.Peer Rat) (n : Node Sample.Peer Rat) (ops : List (Op Sample.Peer)),
      s.machine.Run s.node ops n →
      s.machine.Meets (fun n op => on_calls from_connected n op = true) s.node ops →
      n.behaviour.Live := by
  intro hclaim
  have hrun : (Machine.exec (Machine.guarded (on_calls from_connected) Node.step)
      (Sample.setup 0).node late_have_tx).map
      (fun n => decide (∀ route ∈ n.behaviour.router.disabled_routes,
        route.source = n.behaviour.own_id ∨ route.source ∈ n.behaviour.connected_peers)) =
      some false := by decide +kernel
  obtain ⟨n, hrun, hok, hsee⟩ := Setup.exists_run hrun
  refine of_decide_eq_false hsee fun route hmem => ?_
  exact (hclaim _ n late_have_tx hrun hok route hmem).2

/-! ## Whose RPCs change which routes -/

section

variable {P F : Type} [Libp2p P] [DecidableEq P] [F64 F] [Schema]

/-- The disabled routes to the other peers, in their order. -/
def Router.routes_to_others (r : Router P) (p : P) : List (Route P) :=
  r.disabled_routes.filter fun route => decide (route.target ≠ p)

/-- The handler of `p` tells the behaviour something, or a receiver is polled. -/
def Op.from_peer (p : P) : Op P → Prop
  | call (.on_connection_handler_event _ _ source _) => source = p
  | call _ => False
  | poll_next _ => True
  | poll_stale _ _ => True
  | poll_is_empty _ => True

omit [DecidableEq P] [F64 F] [Schema] [Libp2p P] in
theorem Op.from_peer.call {p : P} {c : Call P} (h : (Op.call c).from_peer p) :
    ∃ clock draw event, c = .on_connection_handler_event clock draw p event := by
  cases c with
  | on_connection_handler_event clock draw source event =>
    cases h
    exact ⟨clock, draw, event, rfl⟩
  | publish => cases h
  | handle_established_inbound_connection => cases h
  | handle_established_outbound_connection => cases h
  | on_swarm_event => cases h
  | poll => cases h

/-- The call is an RPC of the peer that the route leads to. A HaveTx of it names an id that is in
the cache, when the HaveTx is looked at and after the call, with the source of the route. -/
def Behaviour.Earns (b : Behaviour P F) (c : Call P) (b' : Behaviour P F) (route : Route P) :
    Prop :=
  ∃ clock draw rpc invalid tx_id,
    c = .on_connection_handler_event clock draw route.target (.Transaction rpc invalid) ∧
    .HaveTx { tx_id } ∈ rpc.control_msgs ∧
    (b.handle_transactions clock route.target 0 rpc.transactions).cache.get tx_id =
      some route.source ∧
    b'.cache.get tx_id = some route.source

/-- The routes after an RPC are some of the old ones and of those that it disables. -/
theorem routed_sublist {b b' : Behaviour P F} {clock : Nat → Nat} {draw : Nat} {source : P}
    {rpc : Rpc P} {invalid : List (RawTransaction P × ValidationError)}
    (h : b.call (.on_connection_handler_event clock draw source (.Transaction rpc invalid)) =
      some b') :
    b'.router.disabled_routes.Sublist
      (b.router.disabled_routes ++ b.rpc_routes clock source rpc) := by
  cases h
  obtain ⟨new, -, -, -, hroutes⟩ := Behaviour.on_rpc_spec b clock draw source rpc
  exact routes_sublist hroutes

theorem handler_event_leaves_the_others {b b' : Behaviour P F} {clock : Nat → Nat} {draw : Nat}
    {p : P} {event : HandlerEvent P}
    (h : b.call (.on_connection_handler_event clock draw p event) = some b') :
    b'.router.routes_to_others p = b.router.routes_to_others p := by
  unfold Router.routes_to_others
  generalize hc : Call.on_connection_handler_event clock draw p event = c at h
  cases call_routed h with
  | sends new _ _ routes => rw [routes]
  | joined connection_id q _ => rfl
  | left now draw q connection_id new _ _ _ => cases hc
  | rpc clock draw source rpc invalid new _ _ routes =>
    cases hc
    have hnone :
        (b.rpc_routes clock p rpc).filter (fun route => decide (route.target ≠ p)) = [] := by
      rw [List.filter_eq_nil_iff]
      intro route hroute
      simp [(Behaviour.mem_rpc_routes hroute).1]
    have hall : (b.router.disabled_routes ++ b.rpc_routes clock p rpc).filter
        (fun route => decide (route.target ≠ p)) =
        b.router.disabled_routes.filter fun route => decide (route.target ≠ p) := by
      rw [List.filter_append, hnone, List.append_nil]
    rcases routes with ⟨hroutes, -⟩ | ⟨-, before, taken, after, hsplit, htarget, hroutes⟩
    · rw [hroutes, hall]
    · -- the route that is enabled again leads to `p` too
      rw [← hall, hsplit, hroutes, List.filter_append, List.filter_append,
        List.filter_cons_of_neg (by simp [htarget])]

/-- A call that adds a copy of a route is an RPC that earns it. -/
theorem call_earns {b b' : Behaviour P F} {c : Call P} {route : Route P}
    (hcall : b.call c = some b')
    (hmore : b.router.disabled_routes.count route < b'.router.disabled_routes.count route) :
    b.Earns c b' route ∧ route.source ≠ route.target := by
  cases call_routed hcall with
  | sends new _ _ routes =>
    rw [routes] at hmore
    omega
  | joined connection_id q _ => exact absurd hmore (lt_irrefl _)
  | left now draw q connection_id new _ _ routes =>
    obtain ⟨-, -, -, -, -, -, -, hrouter⟩ := Behaviour.disconnect_spec b q
    have hle : b'.router.disabled_routes.count route ≤ b.router.disabled_routes.count route := by
      rw [routes, hrouter]
      exact List.filter_sublist.count_le route
    omega
  | rpc clock draw source rpc invalid new _ _ _ =>
    have hle := (routed_sublist hcall).count_le route
    rw [List.count_append] at hle
    have hmem : route ∈ b.rpc_routes clock source rpc := by
      apply List.count_pos_iff.mp
      omega
    obtain ⟨rfl, hne, tx_id, hid, hget⟩ := Behaviour.mem_rpc_routes hmem
    refine ⟨⟨clock, draw, rpc, invalid, tx_id, rfl, hid, hget, ?_⟩, hne⟩
    cases hcall
    obtain ⟨-, -, -, hcache, -⟩ := Behaviour.on_rpc_spec b clock draw route.target rpc
    change (b.on_rpc clock draw route.target rpc).cache.get tx_id = some route.source
    rw [hcache, hget]

/-- A peer changes no route to another peer, whatever it sends, and each copy of a disabled route
was earned by an RPC of the peer that it leads to. -/
theorem a_peer_affects_only_the_routes_to_itself {s : Setup P F} {n : Node P F} {ops : List (Op P)}
    (hrun : s.machine.Run s.node ops n) :
    (∀ p ops' n', s.machine.Run n ops' n' → (∀ op ∈ ops', op.from_peer p) →
      n'.behaviour.router.routes_to_others p = n.behaviour.router.routes_to_others p) ∧
    ∀ route ∈ n.behaviour.router.disabled_routes, route.source ≠ route.target ∧
      ∀ copy < n.behaviour.router.disabled_routes.count route,
        ∃ before c after n₁ n₂, ops = before ++ .call c :: after ∧
          s.machine.Run s.node before n₁ ∧ s.machine.step n₁ (.call c) n₂ ∧
          s.machine.Run n₂ after n ∧
          n₁.behaviour.router.disabled_routes.count route ≤ copy ∧
          copy < n₂.behaviour.router.disabled_routes.count route ∧
          n₁.behaviour.Earns c n₂.behaviour route := by
  constructor
  · intro p ops' n' hrun' hfrom
    induction hrun' with
    | nil => rfl
    | @snoc t u is op _ hstep ih =>
      rw [← ih fun op hop => hfrom op (List.mem_append_left _ hop)]
      have hop := hfrom op (List.mem_append_right _ (List.mem_singleton.mpr rfl))
      cases Node.step_cases hstep with
      | called c b' call =>
        obtain ⟨clock, draw, event, rfl⟩ := hop.call
        exact handler_event_leaves_the_others call
      | polled peers _ _ same => rw [same]
  · intro route hmem
    have hcopy : ∀ copy < n.behaviour.router.disabled_routes.count route,
        ∃ before c after n₁ n₂, ops = before ++ .call c :: after ∧
          s.machine.Run s.node before n₁ ∧ s.machine.step n₁ (.call c) n₂ ∧
          s.machine.Run n₂ after n ∧
          n₁.behaviour.router.disabled_routes.count route ≤ copy ∧
          copy < n₂.behaviour.router.disabled_routes.count route ∧
          (n₁.behaviour.Earns c n₂.behaviour route ∧ route.source ≠ route.target) := by
      intro copy hlt
      obtain ⟨before, op, after, n₁, n₂, hops, hbefore, hstep, hafter, hle, hgained⟩ :=
        hrun.gained (p := fun n => copy < n.behaviour.router.disabled_routes.count route)
          (Nat.not_lt_zero _) hlt
      have hle := Nat.le_of_not_lt hle
      cases Node.step_cases hstep with
      | called c b' call =>
        exact ⟨before, c, after, n₁, _, hops, hbefore, hstep, hafter, hle, hgained,
          call_earns call (lt_of_le_of_lt hle hgained)⟩
      | polled peers _ _ same =>
        rw [same] at hgained
        exact absurd hgained (Nat.not_lt_of_le hle)
    obtain ⟨-, -, -, -, -, -, -, -, -, -, -, -, hne⟩ := hcopy 0 (List.count_pos_iff.mpr hmem)
    refine ⟨hne, ?_⟩
    intro copy hlt
    obtain ⟨before, c, after, n₁, n₂, hops, hbefore, hstep, hafter, hle, hgained, hearns, -⟩ :=
      hcopy copy hlt
    exact ⟨before, c, after, n₁, n₂, hops, hbefore, hstep, hafter, hle, hgained, hearns⟩

end

theorem peer_2_earned_its_route_and_peer_3_leaves_it :
    ∃ n, (Sample.setup 0).machine.Run (Sample.setup 0).node timely_have_tx n ∧
      (∀ ops' n', (Sample.setup 0).machine.Run n ops' n' → (∀ op ∈ ops', op.from_peer ⟨3⟩) →
        n'.behaviour.router.routes_to_others ⟨3⟩ = [⟨⟨1⟩, ⟨2⟩⟩]) ∧
      ∃ n₁ c n₂, (Sample.setup 0).machine.step n₁ (.call c) n₂ ∧
        n₁.behaviour.Earns c n₂.behaviour ⟨⟨1⟩, ⟨2⟩⟩ := by
  have hrun : (Machine.exec Node.step (Sample.setup 0).node timely_have_tx).map
      (·.behaviour.router.disabled_routes) = some [⟨⟨1⟩, ⟨2⟩⟩] := by decide
  obtain ⟨n, hrun, hsee⟩ := Machine.exists_run_of_exec hrun
  obtain ⟨hothers, hearned⟩ := a_peer_affects_only_the_routes_to_itself hrun
  refine ⟨n, hrun, ?_, ?_⟩
  · intro ops' n' hrun' hfrom
    rw [hothers ⟨3⟩ ops' n' hrun' hfrom, Router.routes_to_others, hsee]
    rfl
  · obtain ⟨-, hcopy⟩ := hearned ⟨⟨1⟩, ⟨2⟩⟩ (by simp [hsee])
    obtain ⟨-, c, -, n₁, n₂, -, -, hstep, -, -, -, hearns⟩ := hcopy 0 (by simp [hsee])
    exact ⟨n₁, c, n₂, hstep, hearns⟩

/-! ## A ResetRoute opens a route again -/

section

variable {P F : Type} [Libp2p P] [DecidableEq P] [F64 F] [Schema]

/-- The sources that are disabled towards a peer, each once. -/
def Router.sources_to (r : Router P) (p : P) : List P :=
  ((r.disabled_routes.filter fun route => decide (route.target = p)).map (·.source)).dedup

/-- A ResetRoute from `p` gives back one route: it leaves the list, and one source less is disabled
towards `p`. -/
def Behaviour.Reopens (b : Behaviour P F) (draw : Nat) (p : P) : Prop :=
  ∃ route, (b.router.enable_random_route_to_peer draw p).1 = some route ∧
    route ∉ (b.handle_reset_route draw p).router.disabled_routes ∧
    (b.handle_reset_route draw p).router.filter_valid_routes route.source [p] = [p] ∧
    ((b.handle_reset_route draw p).router.sources_to p).length + 1 =
      (b.router.sources_to p).length

omit [Libp2p P] [F64 F] [Schema] in
/-- Routes to one peer differ in their sources. -/
theorem sources_nodup {routes : List (Route P)} {p : P}
    (h : (routes.filter fun route => decide (route.target = p)).Nodup) :
    ((routes.filter fun route => decide (route.target = p)).map (·.source)).Nodup := by
  refine List.Nodup.map_on ?_ h
  rintro ⟨s, t⟩ hr ⟨s', t'⟩ hr' hs
  have ht : t = p := by simpa using (List.mem_filter.mp hr).2
  have ht' : t' = p := by simpa using (List.mem_filter.mp hr').2
  rw [ht, ht']
  exact congrArg (Route.mk · p) hs

omit [F64 F] [Schema] in
/-- Two copies of a route: the draw of one leaves the other behind. -/
theorem nodup_of_reopens {b : Behaviour P F} {p : P} (h : ∀ draw, b.Reopens draw p) :
    (b.router.disabled_routes.filter fun route => decide (route.target = p)).Nodup := by
  by_contra hdup
  obtain ⟨route, hroute⟩ := List.exists_duplicate_iff_not_nodup.mpr hdup
  have hmem : route ∈ b.router.disabled_routes.filter fun route => decide (route.target = p) :=
    hroute.mem
  have htarget : route.target = p := by simpa using (List.mem_filter.mp hmem).2
  obtain ⟨before, after, hsplit⟩ := List.append_of_mem (List.mem_filter.mp hmem).1
  -- the other copy stays behind when this one is drawn
  have hstays : route ∈ before ++ after := by
    have hcount := List.duplicate_iff_two_le_count.mp hroute
    have hle := (List.filter_sublist (p := fun route : Route P => decide (route.target = p))
      (l := b.router.disabled_routes)).count_le route
    rw [hsplit] at hle hcount
    have htwo := hcount.trans hle
    rw [List.count_append, List.count_cons_self] at htwo
    refine List.count_pos_iff.mp ?_
    rw [List.count_append]
    omega
  obtain ⟨draw, hdraw⟩ := Router.exists_draw_enable b.router hsplit
  rw [htarget] at hdraw
  obtain ⟨-, -, hrouter⟩ := Behaviour.handle_reset_route_spec b draw p
  obtain ⟨opened, hopened, hgone, -⟩ := h draw
  rw [hdraw] at hopened hrouter
  cases hopened
  rw [hrouter] at hgone
  exact hgone hstays

omit [F64 F] [Schema] in
theorem reopens_of_nodup {b : Behaviour P F} {p : P}
    (hsome : ∃ route ∈ b.router.disabled_routes, route.target = p)
    (hnodup : (b.router.disabled_routes.filter fun route => decide (route.target = p)).Nodup)
    (draw : Nat) : b.Reopens draw p := by
  obtain ⟨-, -, hrouter⟩ := Behaviour.handle_reset_route_spec b draw p
  rcases Router.enable_random_route_spec b.router draw p with
    ⟨before, route, after, hsplit, htarget, he⟩ | ⟨hnone, -⟩
  · have hfilter := hnodup
    rw [hsplit, List.filter_append, List.filter_cons_of_pos (by simp [htarget])] at hfilter
    have hrest : ((before ++ after).filter fun route => decide (route.target = p)).Nodup := by
      rw [List.filter_append]
      exact hfilter.sublist (List.Sublist.append_left (List.sublist_cons_self _ _) _)
    have hgone : route ∉ before ++ after := by
      intro hmem
      have : route ∈ (before ++ after).filter fun route => decide (route.target = p) :=
        List.mem_filter.mpr ⟨hmem, by simp [htarget]⟩
      rw [List.filter_append] at this
      have hperm := (List.perm_middle.nodup_iff.mp hfilter)
      exact (List.nodup_cons.mp hperm).1 this
    refine ⟨route, by rw [he], ?_, ?_, ?_⟩
    · rw [hrouter, he]
      exact hgone
    · have : p ∈ (b.handle_reset_route draw p).router.filter_valid_routes route.source [p] := by
        rw [Router.mem_filter_valid_routes, hrouter, he, ← htarget]
        exact ⟨by simp, hgone⟩
      unfold Router.filter_valid_routes at this ⊢
      rw [List.filter_cons] at this ⊢
      split at this <;> simp_all
    · unfold Router.sources_to
      rw [List.dedup_eq_self.mpr (sources_nodup hnodup), hrouter, he,
        List.dedup_eq_self.mpr (sources_nodup hrest), hsplit]
      simp [htarget]
      omega
  · obtain ⟨route, hmem, ht⟩ := hsome
    exact absurd ht (hnone route hmem)

omit [F64 F] [Schema] in
/-- Whatever the draw, a ResetRoute opens a route again exactly when no route to the peer stands in
the list twice. -/
theorem reopens_iff {b : Behaviour P F} {p : P}
    (hsome : ∃ route ∈ b.router.disabled_routes, route.target = p) :
    (∀ draw, b.Reopens draw p) ↔
      (b.router.disabled_routes.filter fun route => decide (route.target = p)).Nodup :=
  ⟨nodup_of_reopens, reopens_of_nodup hsome⟩

/-- The HaveTx of an RPC disable each route once, and none that is disabled already. -/
def routes_are_new (b : Behaviour P F) : Call P → Bool
  | .on_connection_handler_event clock _ source (.Transaction rpc _) =>
    decide (b.rpc_routes clock source rpc).Nodup &&
      (b.rpc_routes clock source rpc).all fun route => decide (route ∉ b.router.disabled_routes)
  | _ => true

theorem call_routes_nodup {b b' : Behaviour P F} {c : Call P}
    (h : b.router.disabled_routes.Nodup) (hnew : routes_are_new b c = true)
    (hcall : b.call c = some b') : b'.router.disabled_routes.Nodup := by
  cases call_routed hcall with
  | sends new _ _ routes => rwa [routes]
  | joined connection_id p _ => exact h
  | left now draw p connection_id new _ _ routes =>
    obtain ⟨-, -, -, -, -, -, -, hrouter⟩ := Behaviour.disconnect_spec b p
    rw [routes, hrouter]
    exact h.sublist List.filter_sublist
  | rpc clock draw source rpc invalid new _ _ routes =>
    obtain ⟨hnodup, hfresh⟩ := (Bool.and_eq_true _ _).mp hnew
    have hall : (b.router.disabled_routes ++ b.rpc_routes clock source rpc).Nodup := by
      refine List.nodup_append.mpr ⟨h, of_decide_eq_true hnodup, ?_⟩
      rintro route hmem _ hmem' rfl
      exact of_decide_eq_true (List.all_eq_true.mp hfresh route hmem') hmem
    exact hall.sublist (routes_sublist routes)

/-- As long as no HaveTx disables a route that is disabled already, a ResetRoute opens a route
again. In any state it does so for every draw exactly when no route to the peer stands twice. -/
theorem a_reset_route_opens_a_route_again {s : Setup P F} {n : Node P F} {ops : List (Op P)}
    (hrun : s.machine.Run s.node ops n) :
    (s.machine.Meets (fun n op => on_calls routes_are_new n op = true) s.node ops →
      ∀ p, (∃ route ∈ n.behaviour.router.disabled_routes, route.target = p) →
        ∀ draw, n.behaviour.Reopens draw p) ∧
    ∀ p, (∃ route ∈ n.behaviour.router.disabled_routes, route.target = p) →
      ((∀ draw, n.behaviour.Reopens draw p) ↔
        (n.behaviour.router.disabled_routes.filter fun route =>
          decide (route.target = p)).Nodup) := by
  refine ⟨?_, fun p hsome => reopens_iff hsome⟩
  intro hok p hsome
  have hnodup : n.behaviour.router.disabled_routes.Nodup :=
    run_invariant (p := fun b => b.router.disabled_routes.Nodup) hrun hok List.nodup_nil
      (fun _ _ _ h hnew hcall => call_routes_nodup h hnew hcall) (fun _ _ h _ => h)
  exact reopens_of_nodup hsome (hnodup.sublist List.filter_sublist)

end

theorem a_reset_route_opens_a_route_again_after_a_have_tx :
    ∃ n, (Sample.setup 0).machine.Run (Sample.setup 0).node timely_have_tx n ∧
      ∀ draw, n.behaviour.Reopens draw ⟨2⟩ := by
  have hrun : (Machine.exec (Machine.guarded (on_calls routes_are_new) Node.step)
      (Sample.setup 0).node timely_have_tx).map (·.behaviour.router.disabled_routes) =
      some [⟨⟨1⟩, ⟨2⟩⟩] := by decide
  obtain ⟨n, hrun, hok, hsee⟩ := Setup.exists_run hrun
  exact ⟨n, hrun, (a_reset_route_opens_a_route_again hrun).1 hok ⟨2⟩ ⟨⟨⟨1⟩, ⟨2⟩⟩, by simp [hsee]⟩⟩

/-- Two transactions of peer 1 are cached, and peer 2 answers both with a HaveTx. -/
def two_have_tx : List (Op Sample.Peer) :=
  [Sample.connect 1, Sample.connect 2, Sample.deliver 1 [Sample.raw 1 1] [],
    Sample.deliver 1 [Sample.raw 1 2] [],
    Sample.deliver 2 [] [.HaveTx { tx_id := Sample.tx_id 1 1 }],
    Sample.deliver 2 [] [.HaveTx { tx_id := Sample.tx_id 1 2 }]]

theorem a_reset_route_leaves_the_copy_of_a_route :
    ¬ ∀ (s : Setup Sample.Peer Rat) (n : Node Sample.Peer Rat), s.machine.Reachable n →
      ∀ p, (∃ route ∈ n.behaviour.router.disabled_routes, route.target = p) →
        ∀ draw, n.behaviour.Reopens draw p := by
  intro hclaim
  have hrun : (Machine.exec Node.step (Sample.setup 0).node two_have_tx).map
      (·.behaviour.router.disabled_routes) = some [⟨⟨1⟩, ⟨2⟩⟩, ⟨⟨1⟩, ⟨2⟩⟩] := by decide
  obtain ⟨n, hrun, hsee⟩ := Machine.exists_run_of_exec hrun
  have hnodup := nodup_of_reopens
    (hclaim _ n ⟨_, _, rfl, hrun⟩ ⟨2⟩ ⟨⟨⟨1⟩, ⟨2⟩⟩, by simp [hsee]⟩)
  rw [hsee] at hnodup
  simp at hnodup

end libp2p_dog
