-- When a node accepts a transaction: the id is new to its cache, the cache then
-- holds it with its source, and the RPC goes to every peer but the source, the
-- author, and those to which the route from the source is disabled.
import GossipShadow.Node

namespace libp2p_dog

section

variable {P F : Type} [Libp2p P] [DecidableEq P]

/-- The id of a transaction as it travels, if its data can be read. -/
def DataTransform.id_of (D : DataTransform P) (transaction_id_fn : Transaction P → TransactionId)
    (raw : RawTransaction P) : Option TransactionId :=
  (D.inbound_transform raw).toOption.map transaction_id_fn

namespace Behaviour

def id_of (b : Behaviour P F) (raw : RawTransaction P) : Option TransactionId :=
  b.data_transform.id_of b.config.transaction_id_fn raw

omit [DecidableEq P] in
theorem id_of_read {b : Behaviour P F} {raw : RawTransaction P} {tx : Transaction P}
    (h : b.data_transform.inbound_transform raw = .ok tx) :
    b.id_of raw = some (b.config.transaction_id tx) := by
  unfold id_of DataTransform.id_of
  rw [h]
  rfl

omit [DecidableEq P] in
theorem id_of_unread {b : Behaviour P F} {raw : RawTransaction P} {e : IoError}
    (h : b.data_transform.inbound_transform raw = .error e) : b.id_of raw = none := by
  unfold id_of DataTransform.id_of
  rw [h]
  rfl

omit [DecidableEq P] in
/-- The id turns on the configuration and the transform alone. -/
theorem id_of_congr {b b' : Behaviour P F} (hconfig : b'.config = b.config)
    (htransform : b'.data_transform = b.data_transform) (raw : RawTransaction P) :
    b'.id_of raw = b.id_of raw := by
  unfold id_of
  rw [hconfig, htransform]

/-- No entry of the cache is expired. -/
def Alive (b : Behaviour P F) (now : Nat) : Prop := ∀ e ∈ b.cache.list, now < e.expiration

/-- The call accepts no transaction, and what it sends are control RPCs. -/
structure AcceptsNone (b : Behaviour P F) (new : List (Attempt P)) (b' : Behaviour P F) : Prop where
  sends : Sends b new b'
  control : ∀ a ∈ new, a.rpc.tx? = none
  cache : b'.cache = b.cache

/-- The call accepts one transaction from `source`. -/
structure Accepts (b : Behaviour P F) (now : Nat) (raw : RawTransaction P) (source : P)
    (id : TransactionId) (new : List (Attempt P)) (b' : Behaviour P F) : Prop where
  id_of : b.id_of raw = some id
  fresh : b.cache.get id = none
  get : ∀ k, b'.cache.get k = if k = id then some source else b.cache.get k
  list : b'.cache.list = b.cache.list ++ [{ key := id, expiration := now + b.cache.ttl }]
  ttl : b'.cache.ttl = b.cache.ttl
  sends : Sends b new b'
  carry : ∀ a ∈ new, a.rpc.tx? = some raw
  offer : ∀ p ∈ b.connected_peers, p ≠ source → p ≠ raw.from_ →
    (⟨source, p⟩ : Route P) ∉ b.router.disabled_routes → ∃ a ∈ new, a.peer = p

/-- The call puts one transaction from `source` in the cache. What it sends, if it sends anything,
is that transaction. -/
structure Caches (b : Behaviour P F) (now : Nat) (raw : RawTransaction P) (source : P)
    (id : TransactionId) (new : List (Attempt P)) (b' : Behaviour P F) : Prop where
  id_of : b.id_of raw = some id
  fresh : b.cache.get id = none
  get : ∀ k, b'.cache.get k = if k = id then some source else b.cache.get k
  list : b'.cache.list = b.cache.list ++ [{ key := id, expiration := now + b.cache.ttl }]
  ttl : b'.cache.ttl = b.cache.ttl
  sends : Sends b new b'
  carry : ∀ a ∈ new, a.rpc.tx? = some raw

theorem Accepts.caches {b b' : Behaviour P F} {now : Nat} {raw : RawTransaction P} {source : P}
    {id : TransactionId} {new : List (Attempt P)} (h : Accepts b now raw source id new b') :
    Caches b now raw source id new b' :=
  ⟨h.id_of, h.fresh, h.get, h.list, h.ttl, h.sends, h.carry⟩

theorem Caches.accepts {b b' : Behaviour P F} {now : Nat} {raw : RawTransaction P} {source : P}
    {id : TransactionId} {new : List (Attempt P)} (h : Caches b now raw source id new b')
    (offer : ∀ p ∈ b.connected_peers, p ≠ source → p ≠ raw.from_ →
      (⟨source, p⟩ : Route P) ∉ b.router.disabled_routes → ∃ a ∈ new, a.peer = p) :
    Accepts b now raw source id new b' :=
  ⟨h.id_of, h.fresh, h.get, h.list, h.ttl, h.sends, h.carry, offer⟩

theorem Caches.of_insert {b b' : Behaviour P F} {now : Nat} {raw : RawTransaction P} {source : P}
    {id : TransactionId} {new : List (Attempt P)} (halive : b.Alive now)
    (hid : b.id_of raw = some id) (hfresh : b.cache.get id = none)
    (hcache : b'.cache = (b.cache.insert now id source).2) (hsends : Sends b new b')
    (hcarry : ∀ a ∈ new, a.rpc.tx? = some raw) : Caches b now raw source id new b' := by
  rcases DuplicateCache.insert_alive halive id source with
    ⟨⟨v, hv⟩, -⟩ | ⟨-, -, httl, hlist, hafter⟩
  · rw [hfresh] at hv
    cases hv
  · refine ⟨hid, hfresh, ?_, ?_, ?_, hsends, hcarry⟩
    · rw [hcache]
      exact hafter
    · rw [hcache, hlist]
    · rw [hcache, httl]

/-- `publish` accepts the node's own transaction, or none; and none when it fails before that. -/
theorem publish_accepts [Schema] {b b' : Behaviour P F} {now : Nat} {data : Bytes}
    {answer : Except PublishError TransactionId} (hlawful : b.data_transform.Lawful)
    (halive : b.Alive now) (h : b.publish now data = some (answer, b')) :
    (AcceptsNone b [] b' ∧ ∀ id, answer ≠ .ok id) ∨
    ∃ raw id new, raw.from_ = b.own_id ∧ Accepts b now raw b.own_id id new b' ∧
      ∀ id', answer = .ok id' → id' = id := by
  cases publish_spec h with
  | refused e answer_eq sends _ cache =>
    left
    refine ⟨⟨sends, by simp, cache⟩, ?_⟩
    intro id hid
    rw [answer_eq] at hid
    cases hid
  | taken raw tx_id new author outbound _ tx_id_eq fresh answer_eq sends spread _ cache =>
    right
    have hget : b.cache.get tx_id = none := DuplicateCache.get_of_not_contains fresh
    have hid : b.id_of raw = some tx_id := by
      obtain ⟨raw_from, seqno, raw_data, signature, key⟩ := raw
      rw [id_of_read (hlawful data raw_data outbound _ _ _ _), tx_id_eq, ← author]
    have hcarry : ∀ a ∈ new, a.rpc.tx? = some raw := spread.carries rfl
    have hcaches : Caches b now raw b.own_id tx_id new b' :=
      .of_insert halive hid hget cache sends hcarry
    refine ⟨raw, tx_id, new, author, hcaches.accepts ?_, answer_eq⟩
    intro p hp _ _ hroute
    apply spread.mem_peers
    exact Router.mem_filter_valid_routes.mpr ⟨hp, hroute⟩

/-- A received transaction is cached unless its id is known or it cannot be read; and a node that
forwards then offers it to its peers. -/
theorem received_caches [Schema] {b : Behaviour P F} {now : Nat} (raw : RawTransaction P)
    (source : P) (halive : b.Alive now) :
    (∃ new, AcceptsNone b new (b.handle_received_transaction now raw source) ∧
      ∀ id, b.id_of raw = some id → ∃ s, b.cache.get id = some s) ∨
    ∃ id new, Caches b now raw source id new (b.handle_received_transaction now raw source) ∧
      (b.config.forward_transactions = true → ∀ p ∈ b.connected_peers, p ≠ source →
        p ≠ raw.from_ → (⟨source, p⟩ : Route P) ∉ b.router.disabled_routes →
          ∃ a ∈ new, a.peer = p) := by
  cases received_spec b now raw source with
  | invalid e inbound sends _ cache =>
    refine .inl ⟨[], ⟨sends, by simp, cache⟩, ?_⟩
    intro id hid
    rw [id_of_unread inbound] at hid
    cases hid
  | duplicate tx tx_id inbound tx_id_eq known cache answer =>
    left
    rcases DuplicateCache.insert_alive halive tx_id source with ⟨hmem, he⟩ | ⟨-, hnew, -⟩
    · rw [he] at cache
      have hknown : ∀ id, b.id_of raw = some id → ∃ s, b.cache.get id = some s := by
        intro id hid
        rw [id_of_read inbound, ← tx_id_eq] at hid
        cases hid
        exact hmem
      rcases answer with ⟨sends, -⟩ | ⟨sends, -⟩
      · exact ⟨[], ⟨sends, by simp, cache⟩, hknown⟩
      · refine ⟨_, ⟨sends, ?_, cache⟩, hknown⟩
        intro a ha
        rw [List.mem_singleton.mp ha]
        rfl
    · rw [known] at hnew
      cases hnew
  | first_time tx tx_id new inbound tx_id_eq fresh cache _ sends spread =>
    right
    have hget : b.cache.get tx_id = none := by
      rcases DuplicateCache.insert_alive halive tx_id source with ⟨-, he⟩ | ⟨hget, -⟩
      · rw [he] at fresh
        cases fresh
      · exact hget
    have hid : b.id_of raw = some tx_id := by rw [id_of_read inbound, tx_id_eq]
    have hcarry : ∀ a ∈ new, a.rpc.tx? = some raw := spread.carries rfl
    refine ⟨tx_id, new, .of_insert halive hid hget cache sends hcarry, ?_⟩
    intro hforward p hp hsource hauthor hroute
    apply spread.mem_peers
    rw [if_pos hforward]
    refine Router.mem_filter_valid_routes.mpr ⟨?_, hroute⟩
    simp [AList.mem_keys.mp hp, hsource, hauthor]

/-- An RPC with one transaction and nothing else. -/
theorem on_rpc_transaction [Schema] [F64 F] (b : Behaviour P F) (clock : Nat → Nat) (draw : Nat)
    (source : P) (raw : RawTransaction P) :
    b.on_rpc clock draw source { transactions := [raw], control_msgs := [] } =
      if b.config.max_transactions_per_rpc = some 0 then b
      else b.handle_received_transaction (clock 0) raw source := by
  have hmax : (b.config.max_transactions_per_rpc.any fun max => decide (0 ≥ max)) =
      decide (b.config.max_transactions_per_rpc = some 0) := by
    cases b.config.max_transactions_per_rpc <;> simp
  simp only [on_rpc, handle_transactions, hmax, decide_eq_true_eq, have_tx_ids, has_reset_route,
    List.filterMap_nil, List.any_nil, ne_eq, not_true_eq_false, decide_false, Bool.false_and,
    Bool.false_eq_true, if_false]

/-- An RPC without transactions. -/
theorem on_rpc_control [Schema] (b : Behaviour P F) (clock : Nat → Nat) (draw : Nat) (source : P)
    {rpc : Rpc P} (h : rpc.transactions = []) :
    AcceptsNone b [] (b.on_rpc clock draw source rpc) := by
  apply on_rpc_rule (p := AcceptsNone b [])
  · rw [h]
    exact ⟨Sends.refl b, by simp, rfl⟩
  · intro b' h'
    obtain ⟨hsends, hcache, -⟩ := handle_have_tx_spec b' (have_tx_ids rpc.control_msgs) source
    exact ⟨h'.sends.trans_none hsends, by simp, hcache.trans h'.cache⟩
  · intro b' h'
    obtain ⟨hsends, hcache, -⟩ := handle_reset_route_spec b' draw source
    exact ⟨h'.sends.trans_none hsends, by simp, hcache.trans h'.cache⟩

/-- What the arrival of an RPC does: a transaction is cached, or its id is known already, or the
node processes no transactions, or the codec has taken the transaction out. -/
theorem arrival_caches [Schema] [F64 F] {b : Behaviour P F} {now : Nat} (draw : Nat) (source : P)
    (rpc : RpcOut P) (valid : Bool) (halive : b.Alive now) :
    (∃ new, AcceptsNone b new (b.on_rpc (fun _ => now) draw source (rpc.arrival valid)) ∧
      (valid = true → ∀ raw id, rpc.tx? = some raw → b.id_of raw = some id →
        b.config.max_transactions_per_rpc ≠ some 0 → ∃ s, b.cache.get id = some s)) ∨
    ∃ raw id new, rpc.tx? = some raw ∧
      Caches b now raw source id new (b.on_rpc (fun _ => now) draw source (rpc.arrival valid)) ∧
      (b.config.forward_transactions = true → ∀ p ∈ b.connected_peers, p ≠ source →
        p ≠ raw.from_ → (⟨source, p⟩ : Route P) ∉ b.router.disabled_routes →
          ∃ a ∈ new, a.peer = p) := by
  cases htx : rpc.tx? with
  | none =>
    have hcontrol : (rpc.arrival valid).transactions = [] := by
      cases rpc with
      | Publish tx timeout => cases htx
      | Forward tx timeout => cases htx
      | HaveTx have_tx => rfl
      | ResetRoute reset_route => rfl
    exact .inl ⟨[], on_rpc_control b _ draw source hcontrol, by rintro - raw id ⟨⟩⟩
  | some raw =>
    have harrival : rpc.arrival valid =
        { transactions := if valid then [raw] else [], control_msgs := [] } := by
      cases rpc with
      | Publish tx timeout =>
        cases htx
        rfl
      | Forward tx timeout =>
        cases htx
        rfl
      | HaveTx have_tx => cases htx
      | ResetRoute reset_route => cases htx
    rw [harrival]
    cases valid with
    | false => exact .inl ⟨[], ⟨Sends.refl b, by simp, rfl⟩, by rintro ⟨⟩⟩
    | true =>
      rw [if_pos rfl, on_rpc_transaction]
      by_cases hmax : b.config.max_transactions_per_rpc = some 0
      · rw [if_pos hmax]
        exact .inl ⟨[], ⟨Sends.refl b, by simp, rfl⟩, fun _ _ _ _ _ h => absurd hmax h⟩
      · rw [if_neg hmax]
        rcases received_caches raw source halive with
          ⟨new, hnone, hknown⟩ | ⟨id, new, hcaches, hoffer⟩
        · refine .inl ⟨new, hnone, ?_⟩
          rintro - raw' id ⟨⟩ hid -
          exact hknown id hid
        · exact .inr ⟨raw, id, new, rfl, hcaches, hoffer⟩

/-- What the arrival of a valid RPC does at a node that forwards. -/
theorem arrival_accepts [Schema] [F64 F] {b : Behaviour P F} {now : Nat} (draw : Nat) (source : P)
    (rpc : RpcOut P) (halive : b.Alive now) (hforward : b.config.forward_transactions = true) :
    (∃ new, AcceptsNone b new (b.on_rpc (fun _ => now) draw source (rpc.arrival true)) ∧
      ∀ raw id, rpc.tx? = some raw → b.id_of raw = some id →
        b.config.max_transactions_per_rpc ≠ some 0 → ∃ s, b.cache.get id = some s) ∨
    ∃ raw id new, rpc.tx? = some raw ∧
      Accepts b now raw source id new (b.on_rpc (fun _ => now) draw source (rpc.arrival true)) := by
  rcases arrival_caches draw source rpc true halive with
    ⟨new, hnone, hknown⟩ | ⟨raw, id, new, hraw, hcaches, hoffer⟩
  · exact .inl ⟨new, hnone, hknown rfl⟩
  · exact .inr ⟨raw, id, new, hraw, hcaches.accepts (hoffer hforward)⟩

/-- The timer sends a ResetRoute or nothing. -/
theorem adjust_redundancy_accepts [Schema] [F64 F] (b : Behaviour P F) (now draw : Nat) :
    ∃ new, AcceptsNone b new (b.adjust_redundancy now draw) := by
  cases adjust_redundancy_spec b now draw with
  | idle _ sends _ cache => exact ⟨[], sends, by simp, cache⟩
  | reset p _ _ sends _ cache =>
    refine ⟨_, sends, ?_, cache⟩
    intro a ha
    rw [List.mem_singleton.mp ha]
    rfl

theorem poll_accepts [Schema] [F64 F] (b : Behaviour P F) (now draw : Nat)
    (redundancy_interval : Bool) :
    ∃ new, AcceptsNone b new (b.poll now draw redundancy_interval).2 := by
  unfold poll
  cases b.events with
  | cons event events => exact ⟨[], .none rfl rfl rfl rfl rfl, by simp, rfl⟩
  | nil =>
    cases redundancy_interval with
    | false => exact ⟨[], Sends.refl b, by simp, rfl⟩
    | true => exact adjust_redundancy_accepts b now draw

end Behaviour

end

end libp2p_dog
