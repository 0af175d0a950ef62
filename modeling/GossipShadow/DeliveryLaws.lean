-- Delivery in a network. Once nothing is on its way, a transaction is missing at
-- a node only where each neighbour that has it had the route to the node
-- disabled when it accepted the transaction.
import GossipShadow.Traffic

namespace libp2p_dog

section

variable {P F : Type} [Libp2p P] [DecidableEq P] [F64 F] [Schema]

namespace Network

variable {net : Network P F} {n n' : Net P F}

/-! ## Delivery -/

/-- A node that processes transactions gets what its neighbours hand to it. -/
theorem delivers {w : P} (hmax : (net.config w).max_transactions_per_rpc ≠ some 0) (v : P) :
    net.flood.Delivers net.machine v w := by
  intro n op n' id hreach hstep hoffered
  have hgood := good_of_reachable hreach
  have hmoved := hgood.moved hstep
  rcases hoffered with hw | ⟨rpc, hrpc, raw, hraw, hid⟩
  · exact .inl (hmoved.knows hw)
  · have hknows : net.flood.knows n w id → net.flood.knows n' w id := hmoved.knows
    cases hmoved with
    | polled node pending sound => exact .inr ⟨rpc, (pending v w rpc).mpr hrpc, raw, hraw, hid⟩
    | none u b new arrived accepts node receiver traffic known =>
      rcases traffic.after v w rpc hrpc with hrpc | ⟨rfl, harrived⟩
      · exact .inr ⟨rpc, hrpc, raw, hraw, hid⟩
      · exact .inl (hknows (known v rpc raw id harrived hraw hid hmax))
    | one u b now raw' source id' new arrived in_time accepts node receiver traffic origin =>
      rcases traffic.after v w rpc hrpc with hrpc | ⟨rfl, harrived⟩
      · exact .inr ⟨rpc, hrpc, raw, hraw, hid⟩
      · rcases origin with ⟨hnone, -, -⟩ | ⟨rpc', hsome, hraw'⟩
        · rw [hnone] at harrived
          cases harrived
        · rw [hsome] at harrived
          cases harrived
          rw [hraw] at hraw'
          cases hraw'
          have hid' := (hgood.fit w).accepted_id accepts
          rw [hid] at hid'
          cases hid'
          refine .inl ⟨v, ?_⟩
          rw [node, Function.update_self, accepts.get, if_pos rfl]

/-- When a node accepts a transaction, each neighbour has it or gets it, but for those to which the
route from its source is disabled. The source and the author have it already. -/
theorem Good.offered (h : net.Good n) {op : NetOp P} (hstep : net.step n op = some n') {v w : P}
    (hlink : net.Linked v w) {id : TransactionId} (hlearns : net.flood.Learns n n' v id) :
    net.flood.Offered n' v w id ∨ ∃ source, (n'.node v).cache.get id = some source ∧
      (⟨source, w⟩ : Route P) ∈ (n.node v).router.disabled_routes := by
  obtain ⟨hnot, source, hsource⟩ := hlearns
  have hmoved := h.moved hstep
  have hknows : ∀ u, net.flood.knows n u id → net.flood.knows n' u id := fun u => hmoved.knows
  cases hmoved with
  | polled node pending sound =>
    obtain ⟨peers, -, he⟩ := node v
    rw [he] at hsource
    exact absurd ⟨source, hsource⟩ hnot
  | none u b new arrived accepts node receiver traffic known =>
    rw [node] at hsource
    by_cases hu : v = u
    · subst hu
      rw [Function.update_self, accepts.cache] at hsource
      exact absurd ⟨source, hsource⟩ hnot
    · rw [Function.update_of_ne hu] at hsource
      exact absurd ⟨source, hsource⟩ hnot
  | one u b now raw s id' new arrived in_time accepts node receiver traffic origin =>
    rw [node] at hsource
    by_cases hu : v = u
    · subst hu
      rw [Function.update_self, accepts.get] at hsource
      by_cases hid : id = id'
      · subst hid
        by_cases hroute : (⟨s, w⟩ : Route P) ∈ (n.node v).router.disabled_routes
        · refine .inr ⟨s, ?_, hroute⟩
          rw [node, Function.update_self, accepts.get, if_pos rfl]
        left
        have hself : w ≠ v := by
          rintro rfl
          have hlinked := (List.mem_filter.mp hlink.2).2
          rw [net.irreflexive] at hlinked
          cases hlinked
        by_cases hw : w = s ∨ w = raw.from_
        · -- the RPC that brought it shows that both have it
          rcases origin with ⟨-, rfl, hauthor⟩ | ⟨rpc, harrived, hraw⟩
          · rw [hauthor, or_self] at hw
            exact absurd hw hself
          · obtain ⟨id', hid', hsender, hauthor⟩ :=
              h.carried s v rpc (traffic.came _ _ harrived) raw hraw
            rw [(h.fit v).accepted_id accepts] at hid'
            cases hid'
            rcases hw with rfl | rfl
            · exact .inl (hknows _ hsender)
            · exact .inl (hknows _ hauthor)
        · obtain ⟨hws, hwauthor⟩ := not_or.mp hw
          have hpeer := ((h.fit v).peers w).mpr hlink.2
          obtain ⟨x, hx, rfl⟩ := accepts.offer w hpeer hws hwauthor hroute
          exact .inr ⟨x.rpc, traffic.sent x hx, raw, accepts.carry x hx,
            (h.fit v).accepted_id accepts⟩
      · rw [if_neg hid] at hsource
        exact absurd ⟨source, hsource⟩ hnot
    · rw [Function.update_of_ne hu] at hsource
      exact absurd ⟨source, hsource⟩ hnot

omit [F64 F] [Schema] in
theorem get_none_of_not_knows {v : P} {id : TransactionId} (h : ¬ net.flood.knows n v id) :
    (n.node v).cache.get id = none := by
  by_contra hne
  exact h (Option.ne_none_iff_exists'.mp hne)

omit [Schema] in
theorem not_knows_initial (net : Network P F) (v : P) (id : TransactionId) :
    ¬ net.flood.knows net.initial v id := by
  obtain ⟨-, -, -, hcache, -⟩ := net.connected_spec v
  rintro ⟨source, hsource⟩
  change (net.connected v).cache.get id = some source at hsource
  rw [hcache] at hsource
  cases hsource

omit [Schema] [F64 F] in
theorem Quiet.settled (h : net.Quiet n) {v w : P} (hlink : net.Linked v w) (id : TransactionId) :
    ¬ net.flood.travels n v w id := by
  rintro ⟨rpc, hrpc, -⟩
  rw [h v hlink.1 w (List.mem_filter.mp hlink.2).1] at hrpc
  cases hrpc

/-- What `publish` has given an id for is in the cache of the publisher. -/
theorem Published.knows {ops : List (NetOp P)} {v : P} {id : TransactionId}
    (h : net.Published ops v id) (hrun : net.machine.Run net.initial ops n) :
    net.flood.knows n v id := by
  obtain ⟨before, now, data, after, n₁, b, rfl, hbefore, hpublish⟩ := h
  obtain ⟨n₁', hbefore', hrest⟩ := hrun.split
  obtain rfl := Machine.run_unique hbefore hbefore'
  obtain ⟨n₂, hstep, hafter⟩ := hrest.cons_inv
  have hgood := good_of_reachable ⟨_, _, rfl, hbefore⟩
  have hgood₂ := hgood.of_moved (hgood.moved hstep)
  obtain ⟨⟨answer, b'⟩, hpublish', hact⟩ := Option.bind_eq_some_iff.mp hstep
  rw [hpublish] at hpublish'
  cases hpublish'
  obtain ⟨-, hnow, -, rfl⟩ := act_spec hact
  have hfit := hgood.fit v
  rcases Behaviour.publish_accepts hfit.lawful (hfit.alive hnow) hpublish with
    ⟨-, hno⟩ | ⟨raw, id', new, -, haccepts, hid⟩
  · exact absurd rfl (hno id)
  · obtain rfl := hid id rfl
    refine ⟨(n₁.node v).own_id, run_get hgood₂ hafter ?_⟩
    simp only [Function.update_self]
    rw [haccepts.get, if_pos rfl]

/-- The answer of a call of `publish` in a run that is computed. -/
theorem published_of_exec {before : List (NetOp P)} {now : Nat} {data : Bytes} {v : P}
    {id : TransactionId} (h : ((Machine.exec net.step net.initial before).bind fun n =>
      (n.node v).publish now data).map (·.1) = some (.ok id)) (after : List (NetOp P)) :
    net.Published (before ++ .publish v now data :: after) v id := by
  obtain ⟨⟨answer, b⟩, hpublish, rfl⟩ := Option.map_eq_some_iff.mp h
  obtain ⟨n, hexec, hpublish⟩ := Option.bind_eq_some_iff.mp hpublish
  exact ⟨before, now, data, after, n, b, rfl, Machine.run_of_exec hexec, hpublish⟩

/-! ## What is missing, and why -/

/-- At a step of the run, `v` accepts the transaction from `source` while it has the route from
there to `w` disabled. -/
def Withheld (net : Network P F) (ops : List (NetOp P)) (id : TransactionId) (v w source : P) :
    Prop :=
  ∃ before op after n n', ops = before ++ op :: after ∧ net.machine.Run net.initial before n ∧
    net.machine.step n op n' ∧ (n.node v).cache.get id = none ∧
    (n'.node v).cache.get id = some source ∧
    (⟨source, w⟩ : Route P) ∈ (n.node v).router.disabled_routes

/-- A connection over which the run does not withhold the transaction, to a node that processes
transactions. -/
structure OpenTo (net : Network P F) (ops : List (NetOp P)) (id : TransactionId) (v w : P) :
    Prop where
  linked : net.Linked v w
  processes : (net.config w).max_transactions_per_rpc ≠ some 0
  enabled : ∀ source, ¬ net.Withheld ops id v w source

theorem missing_withheld {ops : List (NetOp P)} (hrun : net.machine.Run net.initial ops n)
    (hquiet : net.Quiet n) {v w source : P} {id : TransactionId} (hlink : net.Linked v w)
    (hmax : (net.config w).max_transactions_per_rpc ≠ some 0)
    (hv : (n.node v).cache.get id = some source) (hw : (n.node w).cache.get id = none) :
    net.Withheld ops id v w source := by
  have hmissed : ¬ net.flood.Offered n v w id := by
    rintro (⟨s, hs⟩ | htravels)
    · rw [hw] at hs
      cases hs
    · exact hquiet.settled hlink id htravels
  obtain ⟨before, op, after, n₁, n₂, rfl, hbefore, hstep, hafter, hlearns, hnot⟩ :=
    (delivers hmax v).missed rfl hrun (net.not_knows_initial v id) ⟨source, hv⟩ hmissed
  have hgood := good_of_reachable ⟨_, _, rfl, hbefore⟩
  have hgood₂ := hgood.of_moved (hgood.moved hstep)
  rcases hgood.offered hstep hlink hlearns with hoffered | ⟨s, hs, hroute⟩
  · exact absurd hoffered hnot
  · -- the source that the cache names in the end is the one of this step
    have hsame := (run_get hgood₂ hafter hs).symm.trans hv
    obtain rfl : s = source := Option.some.inj hsame
    exact ⟨before, op, after, n₁, n₂, rfl, hbefore, hstep, get_none_of_not_knows hlearns.1, hs,
      hroute⟩

theorem spreads {ops : List (NetOp P)} (hrun : net.machine.Run net.initial ops n)
    (hquiet : net.Quiet n) {v w : P} {id : TransactionId} (hv : net.flood.knows n v id)
    (hpath : Relation.ReflTransGen (net.OpenTo ops id) v w) : net.flood.knows n w id := by
  apply Flood.spreads _ _ rfl hrun (fun v => net.not_knows_initial v id) _ hpath hv
  · intro v w hopen
    exact delivers hopen.processes v
  · intro v w hopen before op after n₁ n₂ hsplit hbefore hstep hlearns
    have hgood := good_of_reachable ⟨_, _, rfl, hbefore⟩
    rcases hgood.offered hstep hopen.linked hlearns with hoffered | ⟨source, hsource, hroute⟩
    · exact hoffered
    · have hnone := get_none_of_not_knows hlearns.1
      exact absurd ⟨before, op, after, n₁, n₂, hsplit, hbefore, hstep, hnone, hsource, hroute⟩
        (hopen.enabled source)
  · intro v w hopen
    exact hquiet.settled hopen.linked id

/-- Once nothing is on its way, a published transaction is in the cache of each node that a path of
open connections joins to the publisher. -/
theorem a_transaction_reaches_all_over_open_routes {ops : List (NetOp P)}
    (hrun : net.machine.Run net.initial ops n) (hquiet : net.Quiet n) {v w : P}
    {id : TransactionId} (hpublished : net.Published ops v id)
    (hpath : Relation.ReflTransGen (net.OpenTo ops id) v w) :
    ∃ source, (n.node w).cache.get id = some source :=
  spreads hrun hquiet (hpublished.knows hrun) hpath

/-- Once nothing is on its way, a node that has a transaction withheld it from a neighbour that does
not have it, over a route disabled when the node accepted the transaction. So when no node disables
a route, a published transaction is in the cache of each node that is joined to the publisher. -/
theorem a_transaction_is_withheld_only_over_a_disabled_route {ops : List (NetOp P)}
    (hrun : net.machine.Run net.initial ops n) (hquiet : net.Quiet n) :
    (∀ v w source id, net.Linked v w → (net.config w).max_transactions_per_rpc ≠ some 0 →
      (n.node v).cache.get id = some source → (n.node w).cache.get id = none →
      net.Withheld ops id v w source) ∧
    ((∀ v ∈ net.nodes, (net.config v).max_transactions_per_rpc ≠ some 0) →
      net.machine.Meets (fun n _ => ∀ v ∈ net.nodes, (n.node v).router.disabled_routes = [])
        net.initial ops →
      ∀ v w id, net.Published ops v id → Relation.ReflTransGen net.Linked v w →
        ∃ source, (n.node w).cache.get id = some source) := by
  constructor
  · intro v w source id hlink hmax hv hw
    exact missing_withheld hrun hquiet hlink hmax hv hw
  · intro hmax hnone v w id hpublished hpath
    apply spreads hrun hquiet (hpublished.knows hrun)
    apply Relation.ReflTransGen.mono _ _ _ hpath
    intro a b hlink
    refine ⟨hlink, hmax b (List.mem_filter.mp hlink.2).1, ?_⟩
    rintro source ⟨before, op, after, n₁, n₂, hsplit, hbefore, -, -, -, hroute⟩
    rw [hnone before op after n₁ hsplit hbefore a hlink.1] at hroute
    cases hroute

end Network

end

/-! ## Networks to run -/

namespace Sample

/-- Two nodes, of which the second processes up to `max` transactions of an RPC. -/
def pair (max : Option Nat) : Network Peer Rat :=
  network [⟨1⟩, ⟨2⟩] [(⟨1⟩, ⟨2⟩)] fun v => if v = ⟨2⟩ then max else none

/-- Node 1 publishes, and node 2 gets what it sends. -/
def one_transaction : List (NetOp Peer) := .publish ⟨1⟩ 0 [1] :: send ⟨1⟩ ⟨2⟩

/-- Node 0 with three neighbours, of which nodes 1 and 2 are neighbours of each other. -/
def kite : Network Peer Rat :=
  network [⟨0⟩, ⟨1⟩, ⟨2⟩, ⟨3⟩] [(⟨0⟩, ⟨1⟩), (⟨0⟩, ⟨2⟩), (⟨1⟩, ⟨2⟩), (⟨0⟩, ⟨3⟩)] fun _ => none

/-- Node 0 publishes two transactions. Nodes 1 and 2 each get one of them first from the other, and
answer the one that comes from node 0 with a HaveTx. -/
def crossed_have_tx : List (NetOp Peer) :=
  [.publish ⟨0⟩ 0 [1], .publish ⟨0⟩ 0 [2]] ++
  send ⟨0⟩ ⟨2⟩ ++ send ⟨2⟩ ⟨1⟩ ++ send ⟨0⟩ ⟨1⟩ ++ send ⟨0⟩ ⟨1⟩ ++ send ⟨1⟩ ⟨0⟩ ++
  send ⟨1⟩ ⟨2⟩ ++ send ⟨0⟩ ⟨2⟩ ++ send ⟨2⟩ ⟨0⟩ ++ send ⟨0⟩ ⟨3⟩ ++ send ⟨0⟩ ⟨3⟩

/-- Node 0 then has the routes from itself to nodes 1 and 2 disabled, and hands its third
transaction to node 3 only. -/
def third_transaction : List (NetOp Peer) :=
  crossed_have_tx ++ .publish ⟨0⟩ 0 [3] :: send ⟨0⟩ ⟨3⟩

theorem third_transaction_published : kite.Published third_transaction ⟨0⟩ (tx_id 0 3) :=
  Network.published_of_exec (by decide +kernel) _

theorem third_transaction_ends :
    ∃ n, kite.machine.Run kite.initial third_transaction n ∧ kite.Quiet n ∧
      (n.node ⟨0⟩).cache.get (tx_id 0 3) = some ⟨0⟩ ∧
        (n.node ⟨1⟩).cache.get (tx_id 0 3) = none := by
  have hrun : (Machine.exec kite.step kite.initial third_transaction).map (fun n =>
      (decide (kite.Quiet n), (n.node ⟨0⟩).cache.get (tx_id 0 3),
        (n.node ⟨1⟩).cache.get (tx_id 0 3))) = some (true, some ⟨0⟩, none) := by decide +kernel
  obtain ⟨n, hrun, hsee⟩ := Machine.exists_run_of_exec hrun
  simp only [Prod.mk.injEq, decide_eq_true_eq] at hsee
  exact ⟨n, hrun, hsee⟩

theorem one_transaction_published : (pair none).Published one_transaction ⟨1⟩ (tx_id 1 1) :=
  @Network.published_of_exec _ _ _ _ _ _ (pair none) [] 0 [1] ⟨1⟩ _ (by decide +kernel) _

/-- One transaction is published and delivered, and no route is ever disabled. -/
theorem one_transaction_ends :
    ∃ n, (pair none).machine.Run (pair none).initial one_transaction n ∧ (pair none).Quiet n ∧
      (pair none).machine.Meets (fun n _ => ∀ v ∈ (pair none).nodes,
        (n.node v).router.disabled_routes = []) (pair none).initial one_transaction := by
  have hrun : (Machine.exec (Machine.guarded (fun n _ => decide (∀ v ∈ (pair none).nodes,
      (n.node v).router.disabled_routes = [])) (pair none).step) (pair none).initial
        one_transaction).map (fun n => decide ((pair none).Quiet n)) = some true := by
    decide +kernel
  obtain ⟨n, hrun, hmeets, hsee⟩ := Machine.exists_guarded_run hrun
  simp only [decide_eq_true_eq] at hsee hmeets
  exact ⟨n, hrun, hsee, hmeets⟩

end Sample

open Sample

theorem a_transaction_reaches_the_second_node :
    ∃ n, (pair none).machine.Run (pair none).initial one_transaction n ∧
      ∃ source, (n.node ⟨2⟩).cache.get (tx_id 1 1) = some source := by
  obtain ⟨n, hrun, hquiet, hmeets⟩ := one_transaction_ends
  have hopen : (pair none).OpenTo one_transaction (tx_id 1 1) ⟨1⟩ ⟨2⟩ := by
    refine ⟨by decide, by decide, ?_⟩
    rintro source ⟨before, op, after, n₁, n₂, hsplit, hbefore, -, -, -, hroute⟩
    rw [hmeets before op after n₁ hsplit hbefore ⟨1⟩ (by decide)] at hroute
    cases hroute
  exact ⟨n, hrun, Network.a_transaction_reaches_all_over_open_routes hrun hquiet
    one_transaction_published (.single hopen)⟩

theorem crossed_have_tx_cut_two_nodes_off :
    ¬ ∀ net : Network Peer Rat,
      (∀ v ∈ net.nodes, ∀ w ∈ net.nodes, Relation.ReflTransGen net.Linked v w) →
      (∀ v ∈ net.nodes, (net.config v).send_have_tx = true ∧
        (net.config v).ignore_have_tx = false) →
      ∀ ops n, net.machine.Run net.initial ops n → net.Quiet n →
        ∀ v id, net.Published ops v id →
          ∀ w ∈ net.nodes, ∃ source, (n.node w).cache.get id = some source := by
  intro hclaim
  obtain ⟨n, hrun, hquiet, -, hmissing⟩ := third_transaction_ends
  have hto : ∀ v ∈ kite.nodes, v = ⟨0⟩ ∨ kite.Linked v ⟨0⟩ := by decide
  have hback : ∀ v ∈ kite.nodes, v = ⟨0⟩ ∨ kite.Linked ⟨0⟩ v := by decide
  have hconnected : ∀ v ∈ kite.nodes, ∀ w ∈ kite.nodes,
      Relation.ReflTransGen kite.Linked v w := by
    intro v hv w hw
    have hfirst : Relation.ReflTransGen kite.Linked v ⟨0⟩ := by
      rcases hto v hv with rfl | h
      · exact .refl
      · exact .single h
    rcases hback w hw with rfl | h
    · exact hfirst
    · exact hfirst.tail h
  obtain ⟨source, hsource⟩ := hclaim kite hconnected (fun _ _ => ⟨rfl, rfl⟩) _ n hrun hquiet _ _
    third_transaction_published ⟨1⟩ (by decide)
  rw [hmissing] at hsource
  cases hsource

theorem the_third_transaction_is_withheld_over_a_disabled_route :
    kite.Withheld third_transaction (tx_id 0 3) ⟨0⟩ ⟨1⟩ ⟨0⟩ ∧
    ∃ n, (pair none).machine.Run (pair none).initial one_transaction n ∧
      ∃ source, (n.node ⟨2⟩).cache.get (tx_id 1 1) = some source := by
  obtain ⟨n, hrun, hquiet, hv, hw⟩ := third_transaction_ends
  obtain ⟨n', hrun', hquiet', hmeets⟩ := one_transaction_ends
  constructor
  · exact (Network.a_transaction_is_withheld_only_over_a_disabled_route hrun hquiet).1 ⟨0⟩ ⟨1⟩ ⟨0⟩ _
      (by decide) (by decide) hv hw
  · refine ⟨n', hrun', ?_⟩
    exact (Network.a_transaction_is_withheld_only_over_a_disabled_route hrun' hquiet').2
      (by decide) hmeets ⟨1⟩ ⟨2⟩ _ one_transaction_published (.single (by decide))

/-- Node 2 processes no transaction of an RPC, so the transaction does not reach it though no route
is ever disabled. -/
theorem a_node_that_processes_no_transactions_misses_one :
    ¬ ∀ (net : Network Peer Rat) ops n, net.machine.Run net.initial ops n → net.Quiet n →
      ∀ v w source id, net.Linked v w → (n.node v).cache.get id = some source →
        (n.node w).cache.get id = none → net.Withheld ops id v w source := by
  intro hclaim
  have hrun : (Machine.exec (Machine.guarded (fun n _ => decide
      ((n.node ⟨1⟩).router.disabled_routes = [])) (pair (some 0)).step) (pair (some 0)).initial
        one_transaction).map (fun n => (decide ((pair (some 0)).Quiet n),
          (n.node ⟨1⟩).cache.get (tx_id 1 1), (n.node ⟨2⟩).cache.get (tx_id 1 1))) =
      some (true, some ⟨1⟩, none) := by decide +kernel
  obtain ⟨n, hrun, hmeets, hsee⟩ := Machine.exists_guarded_run hrun
  simp only [Prod.mk.injEq, decide_eq_true_eq] at hsee hmeets
  obtain ⟨hquiet, hv, hw⟩ := hsee
  obtain ⟨before, op, after, n₁, n₂, hsplit, hbefore, -, -, -, hroute⟩ :=
    hclaim (pair (some 0)) _ n hrun hquiet ⟨1⟩ ⟨2⟩ ⟨1⟩ _ (by decide) hv hw
  rw [hmeets before op after n₁ hsplit hbefore] at hroute
  cases hroute

end libp2p_dog
