-- Laws of what a node sends: a transaction goes to a peer at most once in
-- each window of the cache, whatever the peers do. The cache remembers each
-- send for as long as the window lasts.
import Mathlib.Algebra.Order.BigOperators.Group.List
import Mathlib.Algebra.Order.Group.Nat
import GossipShadow.Node

namespace libp2p_dog

section

variable {P F : Type} [Libp2p P] [DecidableEq P]

/-- The attempt to send a transaction with the id. -/
def Attempt.carries (a : Attempt P) (tx_id : TransactionId) : Prop :=
  a.tx_id = some tx_id ∧ a.rpc.tx?.isSome = true

/-- The window of the attempt is over at `now`, or the cache has an entry that lasts as long. -/
def covered (c : DuplicateCache TransactionId P) (now : Nat) (a : Attempt P)
    (tx_id : TransactionId) : Prop :=
  a.time + c.ttl ≤ now ∨ ∃ e ∈ c.list, e.key = tx_id ∧ a.time + c.ttl ≤ e.expiration

/-- Two attempts to send the same transaction to the same peer are a window apart. -/
def spaced (ttl : Nat) (a a' : Attempt P) : Prop :=
  ∀ tx_id, a.peer = a'.peer → a.carries tx_id → a'.carries tx_id → a.time + ttl ≤ a'.time

/-- What holds at `now`: the attempts are spaced, and the cache covers them. -/
structure Behaviour.Spaced (b : Behaviour P F) (ttl now : Nat) : Prop where
  good : b.cache.Good
  ttl_eq : b.cache.ttl = ttl
  covered : ∀ a ∈ b.history, ∀ tx_id, a.carries tx_id → covered b.cache now a tx_id
  spaced : b.history.Pairwise (spaced ttl)

omit [Libp2p P] [DecidableEq P] in
theorem covered_mono {c : DuplicateCache TransactionId P} {now later : Nat} {a : Attempt P}
    {tx_id : TransactionId} (h : covered c now a tx_id) (hle : now ≤ later) :
    covered c later a tx_id := by
  rcases h with h | h
  · exact .inl (by omega)
  · exact .inr h

omit [Libp2p P] [DecidableEq P] in
theorem Behaviour.Spaced.mono [Libp2p P] {b : Behaviour P F} {ttl now later : Nat}
    (h : b.Spaced ttl now) (hle : now ≤ later) : b.Spaced ttl later where
  good := h.good
  ttl_eq := h.ttl_eq
  covered a ha tx_id hcarries := covered_mono (h.covered a ha tx_id hcarries) hle
  spaced := h.spaced

omit [Libp2p P] [DecidableEq P] in
/-- An entry that a purge removes has expired, so an attempt stays covered. -/
theorem covered_insert {c : DuplicateCache TransactionId P} {now : Nat} {a : Attempt P}
    {tx_id : TransactionId} (h : covered c now a tx_id) (key : TransactionId) (value : P) :
    covered (c.insert now key value).2 now a tx_id := by
  unfold covered
  rw [DuplicateCache.insert_ttl]
  rcases h with h | ⟨e, he, hkey, hle⟩
  · exact .inl h
  · rw [DuplicateCache.list_eq_expired_append c now, List.mem_append] at he
    rcases he with he | he
    · left
      have := DuplicateCache.expiration_le_of_mem_expired he
      omega
    · right
      refine ⟨e, ?_, hkey, hle⟩
      rcases DuplicateCache.insert_spec c now key value with ⟨_, heq⟩ | ⟨_, _, _, hlist, _⟩
      · rw [heq]
        exact he
      · rw [hlist]
        exact List.mem_append_left _ he

omit [Libp2p P] [DecidableEq P] in
/-- An id that is new to the cache has no open window. -/
theorem window_over_of_fresh {c : DuplicateCache TransactionId P} (hgood : c.Good) {now : Nat}
    {a : Attempt P} {tx_id : TransactionId} (h : covered c now a tx_id) {value : P}
    (hfresh : (c.insert now tx_id value).1 = true) : a.time + c.ttl ≤ now := by
  rcases h with h | ⟨e, he, hkey, hle⟩
  · exact h
  · rw [DuplicateCache.list_eq_expired_append c now, List.mem_append] at he
    rcases he with he | he
    · have := DuplicateCache.expiration_le_of_mem_expired he
      omega
    · -- the entry is still in the list, so the id is in the map
      have hmem : tx_id ∈ (c.remove_expired_values now).values :=
        ((hgood.remove_expired now).mem_iff tx_id).mpr (List.mem_map.mpr ⟨e, he, hkey⟩)
      rcases DuplicateCache.insert_spec c now tx_id value with ⟨_, heq⟩ | ⟨hnew, _⟩
      · rw [heq] at hfresh
        cases hfresh
      · exact absurd hmem hnew

omit [Libp2p P] [DecidableEq P] in
theorem fresh_of_not_contains {c : DuplicateCache TransactionId P} {now : Nat}
    {tx_id : TransactionId} {value : P} (h : c.contains tx_id = false) :
    (c.insert now tx_id value).1 = true := by
  rcases DuplicateCache.insert_spec c now tx_id value with ⟨hmem, _⟩ | ⟨_, hnew, _⟩
  · have := DuplicateCache.mem_remove_expired hmem
    simp [DuplicateCache.contains, this] at h
  · exact hnew

/-! ## What keeps the attempts spaced -/

/-- A call that sends no transaction, and does no more to the cache than to insert. -/
theorem Behaviour.Spaced.sends {b b' : Behaviour P F} {ttl now : Nat} (h : b.Spaced ttl now)
    {new : List (Attempt P)} (hsends : Sends b new b') (hnew : ∀ a ∈ new, a.rpc.tx? = none)
    (hcache : b'.cache = b.cache ∨
      ∃ tx_id value, b'.cache = (b.cache.insert now tx_id value).2) : b'.Spaced ttl now := by
  have hnone : ∀ a ∈ new, ∀ tx_id, ¬ a.carries tx_id := by
    intro a ha tx_id hcarries
    simp [Attempt.carries, hnew a ha] at hcarries
  have hcovered : ∀ a ∈ b.history, ∀ tx_id, a.carries tx_id →
      libp2p_dog.covered b'.cache now a tx_id := by
    intro a ha tx_id hcarries
    rcases hcache with hcache | ⟨key, value, hcache⟩
    · rw [hcache]
      exact h.covered a ha tx_id hcarries
    · rw [hcache]
      exact covered_insert (h.covered a ha tx_id hcarries) key value
  refine ⟨?_, ?_, ?_, ?_⟩
  · rcases hcache with hcache | ⟨key, value, hcache⟩
    · rw [hcache]
      exact h.good
    · rw [hcache]
      exact h.good.insert now key value
  · rw [← h.ttl_eq]
    rcases hcache with hcache | ⟨key, value, hcache⟩
    · rw [hcache]
    · rw [hcache, DuplicateCache.insert_ttl]
  · intro a ha tx_id hcarries
    rw [hsends.history, List.mem_append] at ha
    rcases ha with ha | ha
    · exact hcovered a ha tx_id hcarries
    · exact absurd hcarries (hnone a ha tx_id)
  · rw [hsends.history, List.pairwise_append]
    refine ⟨h.spaced, ?_, ?_⟩
    · apply List.pairwise_of_forall_mem_list
      intro a ha a' _ tx_id _ hcarries
      exact absurd hcarries (hnone a ha tx_id)
    · intro a _ a' ha' tx_id _ _ hcarries
      exact absurd hcarries (hnone a' ha' tx_id)

/-- A call that enters a new id in the cache and sends its transaction, once to each peer. -/
theorem Behaviour.Spaced.spread {b b' : Behaviour P F} {ttl now : Nat} (h : b.Spaced ttl now)
    {new : List (Attempt P)} (hsends : Sends b new b') {tx_id : TransactionId} {rpc : RpcOut P}
    {peers : List P} (hspread : Spread now tx_id rpc peers new) (hpeers : peers.Nodup) {value : P}
    (hfresh : (b.cache.insert now tx_id value).1 = true)
    (hcache : b'.cache = (b.cache.insert now tx_id value).2) : b'.Spaced ttl now := by
  obtain ⟨hlist, httl⟩ : b'.cache.list = (b.cache.remove_expired_values now).list ++
      [{ key := tx_id, expiration := now + b.cache.ttl }] ∧ b'.cache.ttl = b.cache.ttl := by
    rw [hcache]
    rcases DuplicateCache.insert_spec b.cache now tx_id value with ⟨_, heq⟩ | ⟨_, _, _, hlist, ht⟩
    · rw [heq] at hfresh
      cases hfresh
    · exact ⟨hlist, ht⟩
  refine ⟨?_, ?_, ?_, ?_⟩
  · rw [hcache]
    exact h.good.insert now tx_id value
  · exact httl.trans h.ttl_eq
  · intro a ha id hcarries
    rw [hsends.history, List.mem_append] at ha
    rcases ha with ha | ha
    · rw [hcache]
      exact covered_insert (h.covered a ha id hcarries) tx_id value
    · obtain ⟨htime, hid, -⟩ := hspread.all a ha
      have hkey : id = tx_id := by simpa [hid] using hcarries.1.symm
      right
      rw [hlist, httl, htime]
      exact ⟨_, List.mem_append_right _ (List.mem_singleton.mpr rfl), hkey.symm, Nat.le_refl _⟩
  · rw [hsends.history, List.pairwise_append]
    refine ⟨h.spaced, ?_, ?_⟩
    · have hdistinct : new.Pairwise fun a a' => a.peer ≠ a'.peer := by
        rw [← List.pairwise_map, hspread.peers]
        exact hpeers
      apply hdistinct.imp
      intro a a' hne id heq
      exact absurd heq hne
    · intro a ha a' ha' id _ hcarries hcarries'
      obtain ⟨htime, hid, -⟩ := hspread.all a' ha'
      have hkey : id = tx_id := by simpa [hid] using hcarries'.1.symm
      subst hkey
      rw [htime, ← h.ttl_eq]
      exact window_over_of_fresh h.good (h.covered a ha id hcarries) hfresh

/-! ## The calls -/

variable [F64 F] [Schema]

omit [F64 F] [Schema] in
theorem Behaviour.Spaced.quiet {b b' : Behaviour P F} {ttl now : Nat} (h : b.Spaced ttl now)
    (hsends : Sends b [] b') (hcache : b'.cache = b.cache) : b'.Spaced ttl now :=
  h.sends hsends (by simp) (.inl hcache)

omit [F64 F] in
theorem Behaviour.Spaced.publish {b b' : Behaviour P F} {ttl now : Nat} (h : b.Spaced ttl now)
    {data : Bytes} {answer : Except PublishError TransactionId}
    (hpublish : b.publish now data = some (answer, b')) : b'.Spaced ttl now := by
  cases Behaviour.publish_spec hpublish with
  | refused e _ sends _ cache => exact h.quiet sends cache
  | taken raw tx_id new _ _ _ _ fresh _ sends spread _ cache =>
    apply h.spread sends spread _ (fresh_of_not_contains fresh) cache
    exact Router.filter_valid_routes_nodup b.connected_peers.keys_nodup

omit [F64 F] in
theorem Behaviour.Spaced.received {b : Behaviour P F} {ttl now : Nat} (h : b.Spaced ttl now)
    (raw : RawTransaction P) (source : P) :
    (b.handle_received_transaction now raw source).Spaced ttl now := by
  cases Behaviour.received_spec b now raw source with
  | invalid e _ sends _ cache => exact h.quiet sends cache
  | duplicate tx tx_id _ _ _ cache answer =>
    rcases answer with ⟨sends, -⟩ | ⟨sends, -⟩
    · exact h.sends sends (by simp) (.inr ⟨_, _, cache⟩)
    · apply h.sends sends _ (.inr ⟨_, _, cache⟩)
      intro a ha
      rw [List.mem_singleton.mp ha]
      rfl
  | first_time tx tx_id new _ _ fresh cache _ sends spread =>
    apply h.spread sends spread _ fresh cache
    split
    · exact Router.filter_valid_routes_nodup (b.connected_peers.keys_nodup.filter _)
    · exact List.nodup_nil

omit [F64 F] in
/-- The transactions of an RPC, when the clock does not go back between them. -/
theorem Behaviour.Spaced.transactions {b : Behaviour P F} {clock : Nat → Nat} (source : P)
    (raws : List (RawTransaction P)) {ttl count start now : Nat} (h : b.Spaced ttl start)
    (hstart : ∀ i, count ≤ i → i < count + raws.length → start ≤ clock i)
    (hclock : ∀ i j, count ≤ i → i ≤ j → j < count + raws.length → clock i ≤ clock j)
    (hle : start ≤ now) (hnow : ∀ i, count ≤ i → i < count + raws.length → clock i ≤ now) :
    (b.handle_transactions clock source count raws).Spaced ttl now := by
  induction raws generalizing b count start with
  | nil => exact h.mono hle
  | cons raw raws ih =>
    unfold handle_transactions
    split
    · exact h.mono hle
    · simp only [List.length_cons] at hstart hclock hnow
      have hfirst : start ≤ clock count := hstart count (by omega) (by omega)
      apply ih ((h.mono hfirst).received raw source)
      · intro i hi hlt
        exact hclock count i (by omega) (by omega) (by omega)
      · intro i j hi hij hlt
        exact hclock i j (by omega) hij (by omega)
      · exact hnow count (by omega) (by omega)
      · intro i hi hlt
        exact hnow i (by omega) (by omega)

theorem Behaviour.Spaced.adjust {b : Behaviour P F} {ttl now : Nat} (h : b.Spaced ttl now)
    (time draw : Nat) : (b.adjust_redundancy time draw).Spaced ttl now := by
  cases Behaviour.adjust_redundancy_spec b time draw with
  | idle _ sends _ cache => exact h.quiet sends cache
  | reset p _ _ sends _ cache =>
    apply h.sends sends _ (.inl cache)
    intro a ha
    rw [List.mem_singleton.mp ha]
    rfl

omit [DecidableEq P] [F64 F] [Schema] in
/-- The attempts and the cache are all that counts. -/
theorem Behaviour.Spaced.of_eq {b b' : Behaviour P F} {ttl now : Nat} (h : b.Spaced ttl now)
    (hcache : b'.cache = b.cache) (hhistory : b'.history = b.history) : b'.Spaced ttl now := by
  obtain ⟨hgood, httl, hcovered, hspaced⟩ := h
  rw [← hcache] at hgood httl hcovered
  rw [← hhistory] at hcovered hspaced
  exact ⟨hgood, httl, hcovered, hspaced⟩

/-- The readings of the clock that a call uses, in their order. -/
def Call.readings : Call P → List Nat
  | .publish now _ => [now]
  | .on_swarm_event now _ _ => [now]
  | .on_connection_handler_event clock _ _ (.Transaction rpc _) =>
    (List.range rpc.transactions.length).map clock
  | .poll now _ _ => [now]
  | _ => []

def Op.readings : Op P → List Nat
  | .call c => c.readings
  | _ => []

omit [F64 F] in
theorem Behaviour.Spaced.rpc {b : Behaviour P F} {clock : Nat → Nat} {ttl start now : Nat}
    (h : b.Spaced ttl start) (draw : Nat) (source : P) (rpc : Rpc P)
    (hstart : ∀ i < rpc.transactions.length, start ≤ clock i)
    (hclock : ∀ i j, i ≤ j → j < rpc.transactions.length → clock i ≤ clock j)
    (hle : start ≤ now) (hnow : ∀ i < rpc.transactions.length, clock i ≤ now) :
    (b.on_rpc clock draw source rpc).Spaced ttl now := by
  have h₁ : (b.handle_transactions clock source 0 rpc.transactions).Spaced ttl now := by
    apply h.transactions source rpc.transactions _ _ hle
    · intro i _ hi
      exact hnow i (by omega)
    · intro i _ hi
      exact hstart i (by omega)
    · intro i j _ hij hj
      exact hclock i j hij (by omega)
  apply on_rpc_rule (p := fun b => b.Spaced ttl now) h₁
  · intro b' h'
    obtain ⟨hsends, hcache, -⟩ := handle_have_tx_spec b' (have_tx_ids rpc.control_msgs) source
    exact h'.quiet hsends hcache
  · intro b' h'
    obtain ⟨hsends, hcache, -⟩ := handle_reset_route_spec b' draw source
    exact h'.quiet hsends hcache

theorem Behaviour.Spaced.call {b b' : Behaviour P F} {c : Call P} {ttl start now : Nat}
    (h : b.Spaced ttl start) (hcall : b.call c = some b')
    (hstart : ∀ t ∈ c.readings, start ≤ t) (hclock : c.readings.Pairwise (· ≤ ·))
    (hle : start ≤ now) (hnow : ∀ t ∈ c.readings, t ≤ now) : b'.Spaced ttl now := by
  cases call_cases hcall with
  | published time data answer publish =>
    have htime : start ≤ time := hstart time (by simp [Call.readings])
    exact ((h.mono htime).publish publish).mono (hnow time (by simp [Call.readings]))
  | joined connection_id p _ => exact (h.mono hle).of_eq rfl rfl
  | left time draw p connection_id =>
    obtain ⟨-, -, -, hhistory, hcache, -⟩ := disconnect_spec b p
    have hgone := (h.mono hle).of_eq hcache hhistory
    exact (hgone.adjust time draw).of_eq rfl rfl
  | rpc clock draw source rpc invalid =>
    simp only [Call.readings, List.mem_map, List.mem_range, forall_exists_index, and_imp,
      forall_apply_eq_imp_iff₂] at hstart hnow
    apply h.rpc draw source rpc hstart _ hle hnow
    intro i j hij hj
    rcases Nat.eq_or_lt_of_le hij with rfl | hlt
    · exact Nat.le_refl _
    · simp only [Call.readings, List.pairwise_map] at hclock
      have := List.pairwise_iff_getElem.mp hclock i j (by simp; omega) (by simpa using hj) hlt
      simpa using this
  | ticked time draw _ => exact (h.mono hle).adjust time draw
  | idle _ sends _ cache => exact (h.mono hle).quiet sends cache

/-! ## Over whole runs -/

theorem run_spaced {s : Setup P F} {n : Node P F} {ops : List (Op P)}
    (hrun : s.machine.Run s.node ops n) (hclock : (ops.flatMap Op.readings).Pairwise (· ≤ ·))
    {now : Nat} (hnow : ∀ t ∈ ops.flatMap Op.readings, t ≤ now) :
    n.behaviour.Spaced s.config.cache_time now := by
  generalize hstart : s.node = n₀ at hrun
  induction hrun generalizing now with
  | nil =>
    subst hstart
    exact ⟨DuplicateCache.good_new _, rfl, by rintro a ⟨⟩, List.Pairwise.nil⟩
  | @snoc n n' ops op hrun hstep ih =>
    simp only [List.flatMap_append, List.flatMap_cons, List.flatMap_nil, List.append_nil,
      List.pairwise_append, List.mem_append] at hclock hnow
    obtain ⟨hbefore, hreadings, hcross⟩ := hclock
    change n.step op = some n' at hstep
    have hreceiver : ∀ index poll, n.poll_receiver index poll = some n' →
        n'.behaviour.Spaced s.config.cache_time now := by
      intro index poll h
      obtain ⟨peers, -, he⟩ := Node.poll_receiver_behaviour h
      rw [he]
      exact (ih hbefore fun t ht => hnow t (.inl ht)).of_eq rfl rfl
    cases op with
    | call c =>
      obtain ⟨b', hcall, rfl⟩ := Option.map_eq_some_iff.mp hstep
      change ∀ t ∈ _, ∀ t' ∈ c.readings, t ≤ t' at hcross
      change c.readings.Pairwise (· ≤ ·) at hreadings
      cases hc : c.readings with
      | nil =>
        apply (ih hbefore fun t ht => hnow t (.inl ht)).call hcall
        · simp [hc]
        · simp [hc]
        · exact Nat.le_refl now
        · simp [hc]
      | cons first rest =>
        rw [hc] at hcross hreadings
        have hafter : ∀ t ∈ c.readings, t ≤ now := fun t ht => hnow t (.inr ht)
        have hfirst : first ≤ now := hafter first (by simp [hc])
        apply (ih hbefore fun t ht => hcross t ht first (by simp)).call hcall _ _ hfirst hafter
        · rw [hc]
          intro t ht
          rcases List.mem_cons.mp ht with rfl | ht
          · exact Nat.le_refl _
          · exact List.rel_of_pairwise_cons hreadings ht
        · rw [hc]
          exact hreadings
    | poll_next index =>
      simp only [Node.step] at hstep
      exact hreceiver _ _ hstep
    | poll_stale index elapsed =>
      simp only [Node.step] at hstep
      exact hreceiver _ _ hstep
    | poll_is_empty index =>
      simp only [Node.step] at hstep
      exact hreceiver _ _ hstep

/-- A node enqueues a transaction to a peer at most once in each window of the cache. An instant of
the run is what the cache read off the clock, once for each transaction that it was asked to
insert. -/
theorem a_transaction_goes_to_a_peer_once_in_each_window {s : Setup P F} {n : Node P F}
    {ops : List (Op P)} (hrun : s.machine.Run s.node ops n)
    (hclock : (ops.flatMap Op.readings).Pairwise (· ≤ ·)) :
    n.behaviour.history.Pairwise fun a a' =>
      ∀ tx_id, a.peer = a'.peer → a.accepted = true → a'.accepted = true →
        a.carries tx_id → a'.carries tx_id → a.time + s.config.cache_time ≤ a'.time := by
  have hbound : ∀ t ∈ ops.flatMap Op.readings, t ≤ (ops.flatMap Op.readings).sum :=
    List.single_le_sum fun _ _ => Nat.zero_le _
  have hspaced := (run_spaced hrun hclock hbound).spaced
  apply hspaced.imp
  intro a a' h tx_id hpeer _ _ hcarries hcarries'
  exact h tx_id hpeer hcarries hcarries'

end

/-- Peer 1 sends its transaction once more after the 30 seconds of the window. -/
def two_windows : List (Op Sample.Peer) :=
  [Sample.connect 1, Sample.connect 2, Sample.deliver 1 [Sample.raw 1 1] [],
    .call (.on_connection_handler_event (fun _ => from_secs 30) 0 ⟨1⟩
      (.Transaction { transactions := [Sample.raw 1 1], control_msgs := [] } []))]

theorem a_transaction_goes_to_a_peer_once_in_each_of_two_windows :
    ∃ n, (Sample.setup 0).machine.Run (Sample.setup 0).node two_windows n ∧
      n.behaviour.history.map (fun a => (a.time, a.peer, a.accepted)) =
        [(0, ⟨2⟩, true), (from_secs 30, ⟨2⟩, true)] ∧
      n.behaviour.history.Pairwise fun a a' =>
        ∀ tx_id, a.peer = a'.peer → a.accepted = true → a'.accepted = true →
          a.carries tx_id → a'.carries tx_id → a.time + from_secs 30 ≤ a'.time := by
  have hrun : (Machine.exec Node.step (Sample.setup 0).node two_windows).map
      (fun n => n.behaviour.history.map fun a => (a.time, a.peer, a.accepted)) =
      some [(0, ⟨2⟩, true), (from_secs 30, ⟨2⟩, true)] := by decide +kernel
  obtain ⟨n, hrun, hsee⟩ := Machine.exists_run_of_exec hrun
  have hclock : (two_windows.flatMap Op.readings).Pairwise (· ≤ ·) := by decide
  exact ⟨n, hrun, hsee, a_transaction_goes_to_a_peer_once_in_each_window hrun hclock⟩

end libp2p_dog
