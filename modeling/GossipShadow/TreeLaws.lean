-- The cached sources of a transaction form a tree: whatever the nodes do and
-- whichever connections come and go, each node got the transaction from a node
-- that had it before, and the way back ends at the node that published it.
import GossipShadow.Lib.Forest
import GossipShadow.Parts

namespace libp2p_dog

section

variable {P F : Type} [Libp2p P] [DecidableEq P]

namespace Overlay

/-! ## Within the window -/

/-- The step reads its clock from `start` on, and before the cache would let go of an entry that it
took then. -/
def OnTime (o : Overlay P F) (start : Nat) (n : OverlayState P F) (op : OverlayOp P) : Prop :=
  ∀ r ∈ n.readings op, start ≤ r.2 ∧ r.2 < start + (o.config r.1).cache_time

section

variable [F64 F] [Schema] {o : Overlay P F} {n : OverlayState P F} {start : Nat}
  {ops more : List (OverlayOp P)}

theorem inWindow_snoc (hrun : o.machine.Run o.initial ops n) (op : OverlayOp P) :
    o.InWindow start (ops ++ [op]) ↔ o.InWindow start ops ∧ o.OnTime start n op := by
  unfold InWindow readings
  rw [Machine.observe_snoc _ hrun]
  exact List.forall_mem_append

theorem InWindow.left (h : o.InWindow start (ops ++ more))
    (hrun : o.machine.Run o.initial ops n) : o.InWindow start ops := by
  unfold InWindow readings at h
  rw [Machine.observe_append _ hrun] at h
  exact (List.forall_mem_append.mp h).1

end

/-- The entries of the cache live until the window is over. -/
structure Lasts (o : Overlay P F) (start : Nat) (v : P) (b : Behaviour P F) : Prop where
  ttl : b.cache.ttl = (o.config v).cache_time
  kept : ∀ e ∈ b.cache.list, start + (o.config v).cache_time ≤ e.expiration

omit [DecidableEq P] in
theorem Lasts.alive {o : Overlay P F} {v : P} {b : Behaviour P F} {start now : Nat}
    (h : o.Lasts start v b) (hnow : now < start + (o.config v).cache_time) : b.Alive now := by
  intro e he
  have := h.kept e he
  omega

theorem Lasts.caching {o : Overlay P F} {v : P} {b b' : Behaviour P F} {start : Nat}
    {origin : RawTransaction P → P → Prop} (h : o.Lasts start v b)
    (hcaching : b.Caching origin start b') : o.Lasts start v b' := by
  have hrest : b'.cache.ttl = b.cache.ttl ∧
      ∀ e ∈ b'.cache.list, e ∈ b.cache.list ∨ start + b.cache.ttl ≤ e.expiration := by
    cases hcaching with
    | none _ cache =>
      rw [cache]
      exact ⟨rfl, fun e he => .inl he⟩
    | one _ _ _ _ _ _ _ _ kept ttl _ => exact ⟨ttl, kept⟩
  refine ⟨hrest.1.trans h.ttl, ?_⟩
  intro e he
  rcases hrest.2 e he with he | he
  · exact h.kept e he
  · rwa [h.ttl] at he

/-! ## What holds in every state -/

/-- What is in a node's hands or in the air is in the cache of the node that sends it. -/
structure Good (o : Overlay P F) (start : Nat) (n : OverlayState P F) : Prop where
  fit : ∀ v, o.Fit v (n.node v).behaviour
  lasts : ∀ v, o.Lasts start v (n.node v).behaviour
  holds : ∀ v, (n.node v).Holds
  air : ∀ packet ∈ n.air, packet.sender ∈ o.nodes ∧
    (n.node packet.sender).behaviour.Cached packet.rpc

/-- What a step does to the caches: nothing, or one transaction comes into the cache of one node.
The node has published it, or it got it from another node that has it in its cache. -/
inductive Moved (o : Overlay P F) (n : OverlayState P F) (op : OverlayOp P)
    (n' : OverlayState P F) : Prop
  | same (source : ∀ id u, n'.source id u = n.source id u)
  | cached (v s : P) (id : TransactionId) (member : v ∈ o.nodes) (fresh : n.source id v = none)
      (source : ∀ id' u, n'.source id' u =
        if u = v ∧ id' = id then some s else n.source id' u)
      (origin : s = v ∧ (∃ now data, op = .act v (.call (.publish now data))) ∨
        s ≠ v ∧ s ∈ o.nodes ∧ ∃ s', n.source id s = some s')

variable {o : Overlay P F} {n n' : OverlayState P F} {op : OverlayOp P} {start : Nat}

/-- A node changes, and it may send what it has in its cache. -/
theorem Good.update (h : o.Good start n) {v : P} {node : Node P F} {air : List (Packet P)}
    (hv : v ∈ o.nodes) (hfit : o.Fit v node.behaviour) (hlasts : o.Lasts start v node.behaviour)
    (hholds : node.Holds)
    (hcached : ∀ rpc, (n.node v).behaviour.Cached rpc → node.behaviour.Cached rpc)
    (hair : ∀ packet ∈ air, packet ∈ n.air ∨
      packet.sender = v ∧ node.behaviour.Cached packet.rpc) :
    o.Good start { node := Function.update n.node v node, air } := by
  refine ⟨?_, ?_, ?_, ?_⟩
  · exact (Function.forall_update_iff n.node fun u node => o.Fit u node.behaviour).mpr
      ⟨hfit, fun u _ => h.fit u⟩
  · exact (Function.forall_update_iff n.node fun u node => o.Lasts start u node.behaviour).mpr
      ⟨hlasts, fun u _ => h.lasts u⟩
  · exact (Function.forall_update_iff n.node fun _ node => node.Holds).mpr
      ⟨hholds, fun u _ => h.holds u⟩
  · intro packet hpacket
    rcases hair packet hpacket with hold | ⟨rfl, hnew⟩
    · obtain ⟨hsender, hsent⟩ := h.air packet hold
      refine ⟨hsender, ?_⟩
      by_cases hu : packet.sender = v
      · subst hu
        simpa using hcached packet.rpc hsent
      · simpa [hu] using hsent
    · refine ⟨hv, ?_⟩
      simpa using hnew

/-- What a call at one node does to the caches. -/
theorem Moved.of_caching {v : P} {node : Node P F} {air : List (Packet P)}
    {origin : RawTransaction P → P → Prop} (hv : v ∈ o.nodes)
    (hcaching : (n.node v).behaviour.Caching origin start node.behaviour)
    (horigin : ∀ raw s id, origin raw s → (n.node v).behaviour.id_of raw = some id →
      n.source id v = none → s = v ∧ (∃ now data, op = .act v (.call (.publish now data))) ∨
        s ≠ v ∧ s ∈ o.nodes ∧ ∃ s', n.source id s = some s') :
    o.Moved n op { node := Function.update n.node v node, air } := by
  cases hcaching with
  | none _ cache =>
    refine .same ?_
    intro id u
    rw [source_update]
    split
    · rename_i hu
      rw [hu, cache]
      rfl
    · rfl
  | one now raw s id _ id_of fresh get _ _ origin =>
    refine .cached v s id hv fresh ?_ (horigin raw s id origin id_of fresh)
    intro id' u
    rw [source_update]
    by_cases hu : u = v
    · subst hu
      rw [if_pos rfl, get]
      simp only [true_and]
      rfl
    · rw [if_neg hu, if_neg (fun h => hu h.1)]

end Overlay

/-- A poll of a receiver: the node still holds what is in its cache, and so is what it sends. -/
theorem Node.Holds.poll_step [F64 F] [Schema] {n n' : Node P F} (h : n.Holds) {op : Op P}
    (hno : ∀ c, op ≠ .call c) (hstep : n.step op = some n') (v : P) :
    n'.Holds ∧ ∀ packet ∈ n.sent v op,
      packet.sender = v ∧ n.behaviour.Cached packet.rpc := by
  cases op with
  | call c => exact absurd rfl (hno c)
  | poll_next index =>
    obtain ⟨hholds, hout⟩ := h.polled (fun r q => Receiver.out (r.poll_next false q).1)
      (fun r q hsound => (Receiver.poll_next_spec hsound).1) hstep
    refine ⟨hholds, ?_⟩
    intro packet hpacket
    simp only [Node.sent, Option.bind_eq_bind, Option.mem_def, Option.bind_eq_some_iff] at hpacket
    obtain ⟨c, hc, q, hq, rpc, hrpc, hpacket⟩ := hpacket
    cases hpacket
    exact ⟨rfl, hout c q hc hq rpc hrpc⟩
  | poll_stale index elapsed =>
    obtain ⟨hholds, -⟩ := h.polled (fun r q => Receiver.out (r.poll_stale false elapsed q).1)
      (fun r q hsound => (Receiver.poll_stale_spec hsound).1) hstep
    exact ⟨hholds, by rintro packet ⟨⟩⟩
  | poll_is_empty index =>
    obtain ⟨hholds, -⟩ := h.polled (fun _ _ => none)
      (fun r q hsound => (Receiver.poll_is_empty_spec hsound).1) hstep
    exact ⟨hholds, by rintro packet ⟨⟩⟩

namespace Overlay

variable [F64 F] [Schema] {o : Overlay P F} {n n' : OverlayState P F} {start : Nat}

/-! ## The steps -/

omit [F64 F] [Schema] in
theorem Fit.caching {v : P} {b b' : Behaviour P F} {origin : RawTransaction P → P → Prop}
    (h : o.Fit v b) (hcaching : b.Caching origin start b') : o.Fit v b' := by
  obtain ⟨hconfig, htransform, hown⟩ := hcaching.same
  exact ⟨hconfig.trans h.config, htransform.trans h.data_transform,
    fun hv => hown.trans (h.own_id hv)⟩

theorem Good.own_call (h : o.Good start n) {v : P} {c : Call P} {b' : Behaviour P F}
    (hv : v ∈ o.nodes) (hown : Op.arrives (.call c) = false)
    (hread : o.OnTime start n (.act v (.call c)))
    (hcall : (n.node v).behaviour.call c = some b') :
    (n.node v).behaviour.Caching (fun raw source => raw.from_ = v ∧ source = v ∧
      ∃ now data, c = .publish now data) start b' := by
  have hfit := h.fit v
  have hcaching := Behaviour.call_caching start hcall hfit.lawful ?_ ?_
  · rwa [hfit.own_id hv] at hcaching
  · rintro now data rfl
    obtain ⟨hstart, hend⟩ := hread _ List.mem_cons_self
    exact ⟨hstart, (h.lasts v).alive hend⟩
  · rintro clock draw source rpc invalid rfl
    cases hown

/-- A step of a node of its own. -/
theorem Good.acted (h : o.Good start n) {v : P} {op : Op P} {node : Node P F} (hv : v ∈ o.nodes)
    (hown : op.arrives = false) (hread : o.OnTime start n (.act v op))
    (hstep : (n.node v).step op = some node) {air : List (Packet P)}
    (hair : air = n.air ++ ((n.node v).sent v op).toList) :
    o.Good start { node := Function.update n.node v node, air } ∧
      o.Moved n (.act v op) { node := Function.update n.node v node, air } := by
  subst hair
  cases Node.step_cases hstep with
  | called c b' call =>
    have hcaching := h.own_call hv hown hread call
    refine ⟨h.update hv ((h.fit v).caching hcaching) ((h.lasts v).caching hcaching)
      ((h.holds v).called hcaching) (fun rpc => hcaching.cached) ?_, ?_⟩
    · intro packet hpacket
      have hnone : (n.node v).sent v (.call c) = none := rfl
      rw [hnone, Option.toList_none, List.append_nil] at hpacket
      exact .inl hpacket
    · refine Moved.of_caching hv hcaching ?_
      rintro raw s id ⟨-, rfl, now, data, rfl⟩ _ _
      exact .inl ⟨rfl, now, data, rfl⟩
  | polled peers no_call keys same =>
    obtain ⟨hholds, hsent⟩ := (h.holds v).poll_step no_call hstep v
    have hcached : ∀ rpc, (n.node v).behaviour.Cached rpc → node.behaviour.Cached rpc := by
      intro rpc hrpc
      rw [same]
      exact hrpc
    refine ⟨h.update hv ?_ ?_ hholds hcached ?_, ?_⟩
    · rw [same]
      exact ⟨(h.fit v).config, (h.fit v).data_transform, (h.fit v).own_id⟩
    · rw [same]
      exact ⟨(h.lasts v).ttl, (h.lasts v).kept⟩
    · intro packet hpacket
      rcases List.mem_append.mp hpacket with hold | hnew
      · exact .inl hold
      · obtain ⟨hsender, hrpc⟩ := hsent packet (Option.mem_toList.mp hnew)
        exact .inr ⟨hsender, hcached packet.rpc hrpc⟩
    · refine .same ?_
      intro id u
      rw [source_update]
      split
      · rename_i hu
        rw [hu, same]
        rfl
      · rfl

/-- The arrival of an RPC. -/
theorem Good.delivered (h : o.Good start n) {index now draw : Nat} {valid : Bool}
    {packet : Packet P} {node : Node P F} (hthere : n.air[index]? = some packet)
    (hv : packet.recipient ∈ o.nodes) (hread : o.OnTime start n (.deliver index now draw valid))
    (hstep : (n.node packet.recipient).step (packet.arrives now draw valid) = some node)
    {air : List (Packet P)} (hair : air ⊆ n.air) :
    o.Good start { node := Function.update n.node packet.recipient node, air } ∧
      o.Moved n (.deliver index now draw valid)
        { node := Function.update n.node packet.recipient node, air } := by
  simp only [Packet.arrives, Node.step] at hstep
  obtain ⟨b', hcall, rfl⟩ := Option.map_eq_some_iff.mp hstep
  cases hcall
  obtain ⟨hsender, hsent⟩ := h.air packet (List.mem_of_getElem? hthere)
  have hfit := h.fit packet.recipient
  obtain ⟨hstart, hend⟩ := hread (packet.recipient, now) (by simp [OverlayState.readings, hthere])
  have hcaching := Behaviour.arrival_caching draw packet.sender packet.rpc valid hstart
    ((h.lasts packet.recipient).alive hend)
  refine ⟨h.update hv (hfit.caching hcaching) ((h.lasts packet.recipient).caching hcaching)
    ((h.holds packet.recipient).called hcaching) (fun rpc => hcaching.cached) ?_, ?_⟩
  · exact fun other hother => .inl (hair hother)
  · refine Moved.of_caching hv hcaching ?_
    rintro raw s id ⟨hraw, rfl⟩ hid hfresh
    right
    -- the sender has the id in its cache, and the recipient has not
    obtain ⟨id', s', hid', hs'⟩ := hsent raw hraw
    rw [(h.fit packet.sender).id_of hfit, hid] at hid'
    cases hid'
    refine ⟨?_, hsender, s', hs'⟩
    intro he
    rw [← he] at hfresh
    rw [OverlayState.source, hs'] at hfresh
    cases hfresh

theorem Good.step (h : o.Good start n) {op : OverlayOp P} (hread : o.OnTime start n op)
    (hstep : o.step n op = some n') : o.Good start n' ∧ o.Moved n op n' := by
  cases step_cases hstep with
  | acted v op node member own step => exact h.acted member own hread step rfl
  | delivered index now draw valid packet node there member step =>
    exact h.delivered there member hread step fun _ => List.mem_of_mem_eraseIdx
  | lost index =>
    refine ⟨⟨h.fit, h.lasts, h.holds, ?_⟩, .same fun _ _ => rfl⟩
    intro packet hpacket
    exact h.air packet (List.mem_of_mem_eraseIdx hpacket)

omit [Schema] in
theorem good_initial (o : Overlay P F) (start : Nat) : o.Good start o.initial where
  fit v := ⟨rfl, rfl, o.identity v⟩
  lasts v := ⟨rfl, by rintro e ⟨⟩⟩
  holds v := (o.setup v).node_holds
  air := by rintro packet ⟨⟩

theorem good_of_run {ops : List (OverlayOp P)} (hrun : o.machine.Run o.initial ops n)
    (hwindow : o.InWindow start ops) : o.Good start n := by
  induction hrun with
  | nil => exact good_initial o start
  | snoc hrun hstep ih =>
    obtain ⟨hbefore, hread⟩ := (inWindow_snoc hrun _).mp hwindow
    exact ((ih hbefore).step hread hstep).1

/-! ## The tree -/

/-- In the run, a call of `publish` of `v` puts the id in its cache. -/
def Published (o : Overlay P F) (ops : List (OverlayOp P)) (v : P) (id : TransactionId) : Prop :=
  ∃ before now data after n answer b,
    ops = before ++ .act v (.call (.publish now data)) :: after ∧
    o.machine.Run o.initial before n ∧
    (n.node v).behaviour.publish now data = some (answer, b) ∧
    n.source id v = none ∧ b.cache.get id = some v

/-- At step number `k` of the run, `v` accepts the transaction: its id comes into the cache. -/
def AcceptedAt (o : Overlay P F) (ops : List (OverlayOp P)) (v : P) (id : TransactionId)
    (k : Nat) : Prop :=
  o.machine.Begins (fun n => ∃ s, n.source id v = some s) o.initial ops k

omit [F64 F] [Schema] in
theorem Moved.keeps {op : OverlayOp P} (h : o.Moved n op n') {id : TransactionId} {v s : P}
    (hs : n.source id v = some s) : n'.source id v = some s := by
  cases h with
  | same source => rwa [source]
  | cached w s' id' _ fresh source _ =>
    rw [source]
    split
    · rename_i he
      obtain ⟨rfl, rfl⟩ := he
      rw [fresh] at hs
      cases hs
    · exact hs

/-- A source stays as it is until the end of the run. -/
theorem source_stays {ops more : List (OverlayOp P)} (hrun : o.machine.Run o.initial ops n)
    (hmore : o.machine.Run n more n') (hwindow : o.InWindow start (ops ++ more))
    {id : TransactionId} {v s : P} (hs : n.source id v = some s) : n'.source id v = some s := by
  induction hmore with
  | nil => exact hs
  | snoc hmore hstep ih =>
    have hall := hrun.append hmore
    rw [← List.append_assoc] at hwindow
    obtain ⟨hbefore, hread⟩ := (inWindow_snoc hall _).mp hwindow
    exact ((good_of_run hall hbefore).step hread hstep).2.keeps (ih hbefore)

theorem accepted_at_unique {ops : List (OverlayOp P)} (hrun : o.machine.Run o.initial ops n)
    (hwindow : o.InWindow start ops) {v : P} {id : TransactionId} {j k : Nat}
    (hj : o.AcceptedAt ops v id j) (hk : o.AcceptedAt ops v id k) : j = k := by
  unfold AcceptedAt machine at hj hk
  refine Machine.Begins.unique ?_ hj hk
  rintro is₁ is₂ t u ⟨rest, rfl⟩ hfirst hsecond ⟨s, hs⟩
  exact ⟨s, source_stays hfirst hsecond (hwindow.left (hfirst.append hsecond)) hs⟩

omit [F64 F] [Schema] in
theorem Moved.grows {op : OverlayOp P} (h : o.Moved n op n') (id : TransactionId) :
    Forest.Grows (n.source id) (n'.source id) where
  keeps v s hs := h.keeps hs
  new v s hold hs := by
    cases h with
    | same source =>
      rw [source, hold] at hs
      cases hs
    | cached w s' id' _ fresh source origin =>
      rw [source] at hs
      split at hs
      · rename_i he
        obtain ⟨rfl, rfl⟩ := he
        cases hs
        rcases origin with ⟨he, -⟩ | ⟨-, -, hsome⟩
        · exact .inl he
        · exact .inr hsome
      · rw [hold] at hs
        cases hs

/-- In every state, the sources lead from each node that has the transaction to a root. -/
theorem sources_rooted {ops : List (OverlayOp P)} (hrun : o.machine.Run o.initial ops n)
    (hwindow : o.InWindow start ops) (id : TransactionId) : Forest.Rooted (n.source id) := by
  induction hrun with
  | nil => exact Forest.rooted_empty fun _ => rfl
  | snoc hrun hstep ih =>
    obtain ⟨hbefore, hread⟩ := (inWindow_snoc hrun _).mp hwindow
    exact (ih hbefore).grow (((good_of_run hrun hbefore).step hread hstep).2.grows id)

/-! ## Where a source comes from -/

/-- Where the source of a transaction comes from: the node has published the transaction, or it got
it from a node that had accepted it before. -/
theorem source_origin {ops : List (OverlayOp P)} (hrun : o.machine.Run o.initial ops n)
    (hwindow : o.InWindow start ops) {id : TransactionId} {w s : P} (hs : n.source id w = some s) :
    s = w ∧ o.Published ops w id ∨
    s ≠ w ∧ s ∈ o.nodes ∧ (∃ s', n.source id s = some s') ∧
      ∃ i j, i < j ∧ o.AcceptedAt ops s id i ∧ o.AcceptedAt ops w id j := by
  obtain ⟨before, op, after, t, u, rfl, hbefore, hstep, hafter, ht, hu⟩ :=
    hrun.gained (p := fun n => n.source id w = some s) (by rintro ⟨⟩) hs
  have hwhole := hwindow
  rw [← List.singleton_append, ← List.append_assoc] at hwindow
  obtain ⟨hwindow, hread⟩ :=
    (inWindow_snoc hbefore op).mp (hwindow.left (hbefore.append (.single hstep)))
  cases ((good_of_run hbefore hwindow).step hread hstep).2 with
  | same source =>
    rw [source] at hu
    exact absurd hu ht
  | cached v s' id' member fresh source origin =>
    rw [source] at hu
    split at hu
    · rename_i he
      obtain ⟨rfl, rfl⟩ := he
      cases hu
      rcases origin with ⟨rfl, now, data, rfl⟩ | ⟨hne, hmember, s', hs'⟩
      · left
        obtain ⟨-, answer, b, hpublish, rfl⟩ := step_publish hstep
        refine ⟨rfl, before, now, data, after, t, answer, _, rfl, hbefore, hpublish, fresh, ?_⟩
        have hsource := source id s
        rw [if_pos ⟨rfl, rfl⟩] at hsource
        exact hsource
      · right
        have hreach : o.machine.Run t (op :: after) n := Machine.Run.cons hstep hafter
        have hknows : ∃ s', t.source id s = some s' := ⟨s', hs'⟩
        obtain ⟨i, hi, hbegins⟩ := hbefore.begins
          (p := fun n => ∃ s', n.source id s = some s') (by rintro ⟨s', ⟨⟩⟩) hknows
        refine ⟨hne, hmember, ⟨s', source_stays hbefore hreach hwhole hs'⟩, i, before.length, hi,
          hbegins.append (op :: after), ?_⟩
        refine ⟨before, op, after, t, u, rfl, rfl, hbefore, hstep, ?_, s, ?_⟩
        · rintro ⟨s'', hs''⟩
          rw [fresh] at hs''
          cases hs''
        · rw [source, if_pos ⟨rfl, rfl⟩]
    · exact absurd hu ht

/-- The publisher is the author that the id names. -/
theorem Published.author {ops : List (OverlayOp P)} (hrun : o.machine.Run o.initial ops n)
    {id : TransactionId} {v : P} (h : o.Published ops v id) :
    v ∈ o.nodes ∧ ∃ tx, tx.from_ = v ∧ o.transaction_id_fn tx = id := by
  obtain ⟨before, now, data, after, t, answer, b, rfl, hbefore, hpublish, hnone, hsome⟩ := h
  -- the call is a step of the run, so the node is one of the overlay
  obtain ⟨t', hbefore', hrest⟩ := hrun.split
  obtain rfl := Machine.run_unique hbefore' hbefore
  obtain ⟨u, hstep, -⟩ := hrest.cons_inv
  obtain ⟨hv, -⟩ := step_publish hstep
  cases Behaviour.publish_spec hpublish with
  | refused e _ _ _ cache =>
    rw [cache] at hsome
    rw [OverlayState.source, hsome] at hnone
    cases hnone
  | taken raw tx_id new _ _ _ tx_id_eq _ _ _ _ _ cache =>
    rw [cache] at hsome
    rcases DuplicateCache.get_insert hsome with hold | ⟨rfl, -⟩
    · rw [OverlayState.source, hold] at hnone
      cases hnone
    · have hfit := fit_in_run hbefore v
      refine ⟨hv, { from_ := (t'.node v).behaviour.own_id, seqno := raw.seqno, data },
        hfit.own_id hv, ?_⟩
      rw [tx_id_eq, Config.transaction_id, hfit.config, o.agree]

/-- Only its author publishes a transaction. -/
theorem Published.unique (hdistinct : o.Distinct) {ops : List (OverlayOp P)}
    (hrun : o.machine.Run o.initial ops n) {id : TransactionId} {v w : P}
    (hv : o.Published ops v id) (hw : o.Published ops w id) : v = w := by
  obtain ⟨hmember, tx, rfl, hid⟩ := hv.author hrun
  obtain ⟨hmember', tx', rfl, hid'⟩ := hw.author hrun
  exact (hdistinct tx tx' hmember hmember' (hid.trans hid'.symm)).1

end Overlay

/-- In an overlay of honest nodes, whatever they do and whichever connections come and go, as long
as no entry of a cache expires: a node that has a transaction in its cache has published it, or its
source is another node that has accepted it before. So the sources lead from each such node to the
publisher, and never back. -/
theorem the_cached_sources_form_a_tree [F64 F] [Schema] {o : Overlay P F}
    (hdistinct : o.Distinct) {n : OverlayState P F} {ops : List (OverlayOp P)}
    (hrun : o.machine.Run o.initial ops n) {start : Nat} (hwindow : o.InWindow start ops)
    {id : TransactionId} {w s : P} (hs : n.source id w = some s) :
    (s = w ∧ o.Published ops w id ∨
      s ≠ w ∧ s ∈ o.nodes ∧ (∃ s', n.source id s = some s') ∧
        ∃ i j, i < j ∧ (∀ k, o.AcceptedAt ops s id k ↔ k = i) ∧
          ∀ k, o.AcceptedAt ops w id k ↔ k = j) ∧
    ∃ (path : List P) (publisher : P),
      path.head? = some w ∧ path.getLast? = some publisher ∧ path.Nodup ∧
      path.IsChain (fun a b => n.source id a = some b) ∧
      ∀ v, o.Published ops v id ↔ v = publisher := by
  constructor
  · rcases Overlay.source_origin hrun hwindow hs with
      hown | ⟨hne, hmember, hknows, i, j, hlt, hi, hj⟩
    · exact .inl hown
    · have honce : ∀ {v j k}, o.AcceptedAt ops v id j → o.AcceptedAt ops v id k → j = k :=
        fun hj hk => Overlay.accepted_at_unique hrun hwindow hj hk
      refine .inr ⟨hne, hmember, hknows, i, j, hlt, ?_, ?_⟩
      · exact fun k => ⟨fun hk => honce hk hi, fun hk => hk ▸ hi⟩
      · exact fun k => ⟨fun hk => honce hk hj, fun hk => hk ▸ hj⟩
  · obtain ⟨path, root, hline⟩ := Overlay.sources_rooted hrun hwindow id w s hs
    have hroot : o.Published ops root id := by
      rcases Overlay.source_origin hrun hwindow hline.parent_root with ⟨-, hroot⟩ | ⟨hne, -⟩
      · exact hroot
      · exact absurd rfl hne
    refine ⟨path, root, hline.head, hline.last, hline.nodup, hline.chain, ?_⟩
    intro v
    constructor
    · intro hv
      exact hv.unique hdistinct hrun hroot
    · rintro rfl
      exact hroot

end

theorem two_hops_lead_back_to_the_publisher :
    let o := Sample.overlay [⟨0⟩, ⟨1⟩, ⟨2⟩]
    ∃ n, o.machine.Run o.initial Sample.two_hops n ∧
      n.source (Sample.tx_id 0 1) ⟨2⟩ = some ⟨1⟩ ∧
      (∃ i j, i < j ∧ o.AcceptedAt Sample.two_hops ⟨1⟩ (Sample.tx_id 0 1) i ∧
        o.AcceptedAt Sample.two_hops ⟨2⟩ (Sample.tx_id 0 1) j) ∧
      ∃ publisher, o.Published Sample.two_hops publisher (Sample.tx_id 0 1) := by
  intro o
  have hexec : (Machine.exec o.step o.initial Sample.two_hops).map
      (fun n => n.source (Sample.tx_id 0 1) ⟨2⟩) = some (some ⟨1⟩) := by decide +kernel
  obtain ⟨n, hrun, hsource⟩ := Machine.exists_run_of_exec hexec
  have hdistinct : o.Distinct := Sample.overlay_distinct _
  obtain ⟨horigin, path, publisher, -, -, -, -, hpublisher⟩ :=
    the_cached_sources_form_a_tree hdistinct hrun Sample.two_hops_in_window hsource
  refine ⟨n, hrun, hsource, ?_, publisher, (hpublisher publisher).mpr rfl⟩
  rcases horigin with ⟨hself, -⟩ | ⟨-, -, -, i, j, hlt, hi, hj⟩
  · cases hself
  · exact ⟨i, j, hlt, (hi i).mpr rfl, (hj j).mpr rfl⟩

end libp2p_dog
