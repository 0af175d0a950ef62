-- Laws of publish: what its answer says, and what a failed call leaves behind.
import GossipShadow.Node

namespace libp2p_dog

section

variable {P F : Type} [Libp2p P] [DecidableEq P]

namespace Behaviour

/-! ## Who takes an RPC -/

/-- The queue of the peer accepts the RPC. -/
def takes (b : Behaviour P F) (rpc : RpcOut P) (p : P) : Bool :=
  (b.queue p).any fun s => (s.send_transaction rpc).toBool

/-- The queue of the peer has room for one more Publish. -/
def has_room (b : Behaviour P F) (p : P) : Bool :=
  (b.queue p).any fun s => decide (s.len < s.priority_cap)

theorem takes_publish (b : Behaviour P F) (raw : RawTransaction P) (timeout : Delay) (p : P) :
    b.takes (.Publish raw timeout) p = b.has_room p := by
  unfold takes has_room
  congr 1
  funext s
  simp only [Sender.send_transaction]
  by_cases h : s.len ≥ s.priority_cap
  · simp [h, Except.toBool]
  · simp [h, Except.toBool, Nat.lt_of_not_ge h]

/-- The connected peers to which the route of the node's own transactions is not disabled. -/
def recipients (b : Behaviour P F) : List P :=
  b.connected_peers.keys.filter fun p => !b.router.disabled_routes.contains ⟨b.own_id, p⟩

theorem recipients_eq (b : Behaviour P F) :
    b.router.filter_valid_routes b.own_id b.connected_peers.keys = b.recipients := by
  unfold recipients Router.filter_valid_routes
  apply List.filter_congr
  intro p _
  rw [Bool.eq_iff_iff]
  simp only [Bool.not_eq_true', List.any_eq_false, Bool.and_eq_true, decide_eq_true_eq, not_and,
    List.contains_eq_mem, decide_eq_false_iff_not]
  constructor
  · intro h hmem
    exact h _ hmem rfl rfl
  · rintro h ⟨source, target⟩ hmem rfl rfl
    exact h hmem

theorem recipients_nodup (b : Behaviour P F) : b.recipients.Nodup :=
  b.connected_peers.keys_nodup.sublist List.filter_sublist

/-- Not all connected peers are recipients: there are fewer. -/
theorem recipients_length_eq_iff (b : Behaviour P F) :
    b.recipients.length = b.connected_peers.keys.length ↔
      ∀ p ∈ b.connected_peers, p ∈ b.recipients := by
  unfold recipients
  rw [List.length_filter_eq_length_iff]
  simp only [List.mem_filter, ← AList.mem_keys]
  constructor
  · intro h p hp
    exact ⟨hp, h p hp⟩
  · intro h p hp
    exact (h p hp).2

variable [Schema]

theorem send_spec (b : Behaviour P F) (now : Nat) (tx_id : Option TransactionId) (p : P)
    (rpc : RpcOut P) :
    (b.send now tx_id p rpc).1 = b.takes rpc p ∧ (b.send now tx_id p rpc).2.events = b.events ∧
      ∀ q, (b.send now tx_id p rpc).2.queue q =
        if q = p ∧ b.takes rpc p = true then (b.queue q).map (·.push [rpc]) else b.queue q := by
  rcases send_transaction_cases b p rpc with ⟨f, peer, sender, hp, hs, he⟩ | ⟨f, hno, he⟩
  · have htakes : b.takes rpc p = true := by simp [takes, queue, hp, hs, Except.toBool]
    refine ⟨by simp [send, he, htakes], by simp [send, he, with_metrics], ?_⟩
    intro q
    simp only [send, he, queue, with_metrics, Table.lookup_replace, htakes, and_true]
    by_cases hq : q = p
    · subst hq
      simp [hp, Sender.send_transaction_ok hs]
    · simp [hq]
  · have htakes : b.takes rpc p = false := by
      unfold takes
      cases hq : b.queue p with
      | none => rfl
      | some s =>
        obtain ⟨e, herror⟩ := hno s hq
        simp [herror, Except.toBool]
    refine ⟨by simp [send, he, htakes], by simp [send, he, with_metrics], ?_⟩
    intro q
    simp [send, he, queue, with_metrics, htakes]

/-- An attempt changes no queue but that of its peer. -/
theorem takes_after_send {b b' : Behaviour P F} {now : Nat} {tx_id : Option TransactionId} {p q : P}
    {rpc : RpcOut P} (hqueue : ∀ q, b'.queue q = (b.send now tx_id p rpc).2.queue q) (hne : q ≠ p) :
    b'.takes rpc q = b.takes rpc q := by
  unfold takes
  rw [hqueue, (send_spec b now tx_id p rpc).2.2 q, if_neg (by simp [hne])]

/-- The loop over the recipients: each that takes the RPC makes an event, and gets the RPC. -/
theorem send_to_each_spec (b : Behaviour P F) (now : Nat) (tx_id : TransactionId)
    (transaction : Transaction P) (rpc : RpcOut P) {peers : List P} (hnodup : peers.Nodup) :
    (b.send_to_each now tx_id transaction rpc peers).1 = peers.any (b.takes rpc) ∧
    (b.send_to_each now tx_id transaction rpc peers).2.events =
      b.events ++ (peers.filter (b.takes rpc)).map (.TransactionSent · tx_id transaction) ∧
    ∀ q, (b.send_to_each now tx_id transaction rpc peers).2.queue q =
      if q ∈ peers.filter (b.takes rpc) then (b.queue q).map (·.push [rpc]) else b.queue q := by
  induction peers generalizing b with
  | nil => simp [send_to_each]
  | cons p peers ih =>
    obtain ⟨hp, hnodup⟩ := List.nodup_cons.mp hnodup
    obtain ⟨haccepted, hevents, hqueue⟩ := send_spec b now (some tx_id) p rpc
    simp only [send_to_each]
    set b₁ := (b.send now (some tx_id) p rpc).2 with hb₁
    set b₂ := if (b.send now (some tx_id) p rpc).1 then
      b₁.push_event (.TransactionSent p tx_id transaction) else b₁ with hb₂
    have hevents₂ : b₂.events = b.events ++
        if b.takes rpc p then [.TransactionSent p tx_id transaction] else [] := by
      rw [hb₂, haccepted]
      cases b.takes rpc p <;> simp [push_event, hevents]
    have hsame : ∀ q, b₂.queue q = b₁.queue q := by
      intro q
      rw [hb₂]
      split <;> rfl
    have hqueue₂ : ∀ q, b₂.queue q =
        if q = p ∧ b.takes rpc p = true then (b.queue q).map (·.push [rpc]) else b.queue q := by
      intro q
      rw [hsame, hqueue]
    have hother : ∀ q ∈ peers, b₂.takes rpc q = b.takes rpc q := by
      intro q hq
      have hne : q ≠ p := by
        rintro rfl
        exact hp hq
      exact takes_after_send hsame hne
    obtain ⟨hany, hevents', hqueue'⟩ := ih b₂ hnodup
    rw [List.filter_congr hother] at hevents' hqueue'
    refine ⟨?_, ?_, ?_⟩
    · rw [hany, haccepted, List.any_cons]
      congr 1
      rw [Bool.eq_iff_iff, List.any_eq_true, List.any_eq_true]
      refine exists_congr fun q => and_congr_right fun hq => ?_
      rw [hother q hq]
    · rw [hevents', hevents₂, List.filter_cons, List.append_assoc]
      cases b.takes rpc p <;> simp
    · intro q
      rw [hqueue' q, hqueue₂ q, List.filter_cons]
      by_cases hq : q = p
      · subst hq
        have hnot : q ∉ peers.filter (b.takes rpc) := fun h => hp (List.mem_filter.mp h).1
        cases htakes : b.takes rpc q <;> simp [hp]
      · cases b.takes rpc p <;> simp [hq]

/-! ## The parts of publish -/

omit [DecidableEq P] in
/-- What `publish` does before it looks into its cache: it makes the transaction, or fails. -/
def prepare (b : Behaviour P F) (data : Bytes) :
    Option (Except PublishError (RawTransaction P) × PublishConfig P) :=
  match b.data_transform.outbound_transform data with
  | .error e => some (.error (.TransformFailed e), b.publish_config)
  | .ok transformed_data =>
    if transformed_data.length > b.config.max_transmit_size then
      some (.error .TransactionTooLarge, b.publish_config)
    else b.publish_config.build_raw_transaction transformed_data

theorem publish_eq (b : Behaviour P F) (now : Nat) (data : Bytes) :
    b.publish now data = (b.prepare data).map (b.publish_built now data) := by
  unfold publish prepare
  cases b.data_transform.outbound_transform data with
  | error e => rfl
  | ok transformed_data =>
    dsimp only
    split
    · rfl
    · rfl

/-- The id that `publish` gives to the transaction that it made of the data. -/
def publish_id (b : Behaviour P F) (raw : RawTransaction P) (data : Bytes) : TransactionId :=
  b.config.transaction_id { from_ := raw.from_, seqno := raw.seqno, data }

/-- The RPC in which `publish` sends the transaction. -/
def publish_rpc (b : Behaviour P F) (now : Nat) (raw : RawTransaction P) : RpcOut P :=
  .Publish raw { created := now, duration := b.config.connection_handler_publish_duration }

omit [DecidableEq P] in
theorem prepare_own_id {b : Behaviour P F} {data : Bytes} {c : PublishConfig P}
    {r : Except PublishError (RawTransaction P)} (h : b.prepare data = some (r, c)) :
    c.get_own_id = b.own_id := by
  unfold prepare at h
  split at h
  · cases h
    rfl
  · split at h
    · cases h
      rfl
    · exact (build_raw_transaction_spec h).1

omit [Schema] in
/-- What the answer of `publish` is for an id that is not in the cache. -/
def fresh_answer (b : Behaviour P F) (tx_id : TransactionId) : Except PublishError TransactionId :=
  if b.recipients = [] then .error .InsufficientPeers
  else if b.recipients.any b.has_room then .ok tx_id
  else .error (.AllQueuesFull b.connected_peers.keys.length)

/-- What `publish` does with an id that is not in the cache. -/
theorem publish_new_spec (b : Behaviour P F) (now : Nat) (raw : RawTransaction P)
    (transaction : Transaction P) (tx_id : TransactionId) :
    (b.publish_new now raw transaction tx_id).1 = b.fresh_answer tx_id ∧
    (b.publish_new now raw transaction tx_id).2.events =
      b.events ++ (b.recipients.filter b.has_room).map (.TransactionSent · tx_id transaction) ∧
    ∀ q, (b.publish_new now raw transaction tx_id).2.queue q =
      if q ∈ b.recipients.filter b.has_room then (b.queue q).map (·.push [b.publish_rpc now raw])
      else b.queue q := by
  unfold publish_new fresh_answer
  simp only
  set start := ({ b with cache := (b.cache.insert now tx_id b.own_id).2 } : Behaviour P F)
    with hstart
  set noted := start.with_metrics (·.set_txs_cache_size start.cache.len) with hnoted
  have hrecipients : noted.router.filter_valid_routes noted.own_id noted.connected_peers.keys =
      b.recipients := recipients_eq b
  have htakes : noted.takes (b.publish_rpc now raw) = b.has_room := by
    funext p
    exact takes_publish b raw _ p
  have hkeys : ∀ peers, (noted.send_to_each now tx_id transaction (b.publish_rpc now raw)
      peers).2.connected_peers.keys = b.connected_peers.keys := by
    intro peers
    obtain ⟨_, hsends, -⟩ :=
      send_to_each_sends noted now tx_id transaction (b.publish_rpc now raw) peers
    exact hsends.keys
  obtain ⟨hany, hevents, hqueue⟩ := send_to_each_spec noted now tx_id transaction
    (b.publish_rpc now raw) b.recipients_nodup
  rw [htakes] at hany hevents hqueue
  have hqueue_eq : ∀ q, noted.queue q = b.queue q := fun _ => rfl
  have hevents_eq : noted.events = b.events := rfl
  rw [hevents_eq] at hevents
  simp only [hqueue_eq] at hqueue
  have hrpc : RpcOut.Publish raw { created := now, duration :=
      noted.config.connection_handler_publish_duration } = b.publish_rpc now raw := rfl
  rw [hrecipients, hrpc]
  by_cases hnone : b.recipients = []
  · rw [if_pos hnone, if_pos hnone]
    exact ⟨rfl, hevents, hqueue⟩
  · rw [if_neg hnone, if_neg hnone, hany]
    cases hroom : b.recipients.any b.has_room with
    | true => exact ⟨rfl, hevents, hqueue⟩
    | false =>
      simp only [Bool.not_false, if_true, hkeys]
      exact ⟨rfl, hevents, hqueue⟩

/-- The outcomes of `publish`: it makes no transaction, it finds the id in its cache, or it offers
the transaction to its recipients. -/
inductive Outcome (b : Behaviour P F) (now : Nat) (data : Bytes) :
    Except PublishError TransactionId → Behaviour P F → Prop
  | unmade (e : PublishError) (c : PublishConfig P)
      (prepare : b.prepare data = some (.error e, c)) :
      Outcome b now data (.error e) { b with publish_config := c }
  | duplicate (raw : RawTransaction P) (c : PublishConfig P)
      (prepare : b.prepare data = some (.ok raw, c))
      (known : b.cache.contains (b.publish_id raw data) = true) :
      Outcome b now data (.error .Duplicate) { b with publish_config := c }
  | offered (raw : RawTransaction P) (c : PublishConfig P) (b' : Behaviour P F)
      (prepare : b.prepare data = some (.ok raw, c))
      (fresh : b.cache.contains (b.publish_id raw data) = false)
      (cache : b'.cache = (b.cache.insert now (b.publish_id raw data) b.own_id).2)
      (events : b'.events = b.events ++ (b.recipients.filter b.has_room).map fun p =>
        .TransactionSent p (b.publish_id raw data)
          { from_ := raw.from_, seqno := raw.seqno, data })
      (queue : ∀ q, b'.queue q = if q ∈ b.recipients.filter b.has_room then
        (b.queue q).map (·.push [b.publish_rpc now raw]) else b.queue q) :
      Outcome b now data (b.fresh_answer (b.publish_id raw data)) b'

theorem publish_outcome {b b' : Behaviour P F} {now : Nat} {data : Bytes}
    {answer : Except PublishError TransactionId} (h : b.publish now data = some (answer, b')) :
    b.Outcome now data answer b' := by
  rw [publish_eq] at h
  obtain ⟨⟨made, c⟩, hprepare, hbuilt⟩ := Option.map_eq_some_iff.mp h
  cases made with
  | error e =>
    cases hbuilt
    exact .unmade e c hprepare
  | ok raw =>
    set start := ({ b with publish_config := c } : Behaviour P F) with hstart
    have hself : start.own_id = b.own_id := prepare_own_id hprepare
    have hrecipients : start.recipients = b.recipients := by
      unfold recipients
      rw [hself]
    have hfresh_answer : start.fresh_answer (b.publish_id raw data) =
        b.fresh_answer (b.publish_id raw data) := by
      unfold fresh_answer
      rw [hrecipients]
      rfl
    unfold publish_built at hbuilt
    simp only at hbuilt
    split at hbuilt
    · rename_i hknown
      cases hbuilt
      exact .duplicate raw c hprepare hknown
    · rename_i hfresh
      obtain ⟨hanswer, hevents, hqueue⟩ := publish_new_spec start now raw
        { from_ := raw.from_, seqno := raw.seqno, data } (b.publish_id raw data)
      obtain ⟨-, -, -, -, hcache⟩ := publish_new_sends start now raw
        { from_ := raw.from_, seqno := raw.seqno, data } (b.publish_id raw data)
      rw [hrecipients] at hevents hqueue
      rw [hfresh_answer] at hanswer
      rw [hself] at hcache
      obtain ⟨rfl, rfl⟩ := Prod.mk.inj hbuilt
      have hfresh : b.cache.contains (b.publish_id raw data) = false :=
        (Bool.not_eq_true _).mp hfresh
      change b.Outcome now data (start.publish_new now raw _ (b.publish_id raw data)).1 _
      rw [hanswer]
      exact .offered raw c _ hprepare hfresh hcache hevents hqueue

/-! ## A failed publish and its retry -/

/-- `b'` has no id in its cache that `b` has not, so a later call that finds the cache as it is in
`b'` is not refused for an id that came after `b`. -/
structure AddsNoId (b b' : Behaviour P F) : Prop where
  ids : ∀ tx_id, b'.cache.contains tx_id = true → b.cache.contains tx_id = true
  retry : ∀ (later later' : Behaviour P F) now data raw c, later.cache = b'.cache →
    later.prepare data = some (.ok raw, c) →
    later.publish now data = some (.error .Duplicate, later') →
    b.cache.contains (later.publish_id raw data) = true

/-- A transaction that is made and is not in the cache has a recipient with room in its queue. -/
def CanSend (b : Behaviour P F) (data : Bytes) : Prop :=
  ∀ raw c, b.prepare data = some (.ok raw, c) →
    b.cache.contains (b.publish_id raw data) = false →
    ∃ p ∈ b.recipients, b.has_room p = true

omit [Schema] in
theorem fresh_answer_ne_duplicate (b : Behaviour P F) (tx_id : TransactionId) :
    b.fresh_answer tx_id ≠ .error .Duplicate := by
  unfold fresh_answer
  split
  · simp
  · split <;> simp

/-- What `publish` does with a transaction that was made. -/
theorem publish_outcome_of_made {b b' : Behaviour P F} {now : Nat} {data : Bytes}
    {raw : RawTransaction P} {c : PublishConfig P} {answer : Except PublishError TransactionId}
    (hprepare : b.prepare data = some (.ok raw, c)) (h : b.publish now data = some (answer, b')) :
    (b.cache.contains (b.publish_id raw data) = true ∧ answer = .error .Duplicate ∧
      b' = { b with publish_config := c }) ∨
    (b.cache.contains (b.publish_id raw data) = false ∧
      answer = b.fresh_answer (b.publish_id raw data) ∧
      b'.cache = (b.cache.insert now (b.publish_id raw data) b.own_id).2 ∧
      (b'.events = b.events ++ (b.recipients.filter b.has_room).map fun p =>
        .TransactionSent p (b.publish_id raw data)
          { from_ := raw.from_, seqno := raw.seqno, data }) ∧
      ∀ q, b'.queue q = if q ∈ b.recipients.filter b.has_room then
        (b.queue q).map (·.push [b.publish_rpc now raw]) else b.queue q) := by
  cases publish_outcome h with
  | unmade e c' prepare =>
    rw [hprepare] at prepare
    cases prepare
  | duplicate raw' c' prepare known =>
    rw [hprepare] at prepare
    cases prepare
    exact .inl ⟨known, rfl, rfl⟩
  | offered raw' c' _ prepare fresh cache events queue =>
    rw [hprepare] at prepare
    cases prepare
    exact .inr ⟨fresh, rfl, cache, events, queue⟩

/-- A transaction that was made is refused as a duplicate only for the id in the cache. -/
theorem known_of_duplicate {b b' : Behaviour P F} {now : Nat} {data : Bytes}
    {raw : RawTransaction P} {c : PublishConfig P} (hprepare : b.prepare data = some (.ok raw, c))
    (h : b.publish now data = some (.error .Duplicate, b')) :
    b.cache.contains (b.publish_id raw data) = true := by
  rcases publish_outcome_of_made hprepare h with ⟨hknown, -⟩ | ⟨-, hanswer, -⟩
  · exact hknown
  · exact absurd hanswer.symm (fresh_answer_ne_duplicate b _)

theorem AddsNoId.of_ids {b b' : Behaviour P F}
    (h : ∀ tx_id, b'.cache.contains tx_id = true → b.cache.contains tx_id = true) :
    b.AddsNoId b' where
  ids := h
  retry := by
    intro later later' now data raw c hcache hprepare hpublish
    apply h
    rw [← hcache]
    exact known_of_duplicate hprepare hpublish

theorem publish_isSome {b : Behaviour P F} {data : Bytes}
    {made : Except PublishError (RawTransaction P) × PublishConfig P}
    (h : b.prepare data = some made) (now : Nat) :
    ∃ answer b', b.publish now data = some (answer, b') := by
  rw [publish_eq, h]
  exact ⟨_, _, rfl⟩

omit [Schema] in
theorem fresh_answer_ok {b : Behaviour P F} {p : P} (hp : p ∈ b.recipients)
    (hroom : b.has_room p = true) (tx_id : TransactionId) : b.fresh_answer tx_id = .ok tx_id := by
  have hnone : b.recipients ≠ [] := List.ne_nil_of_mem hp
  have hany : b.recipients.any b.has_room = true := List.any_eq_true.mpr ⟨p, hp, hroom⟩
  simp [fresh_answer, hnone, hany]

omit [Schema] in
theorem fresh_answer_error {b : Behaviour P F} (h : ¬ ∃ p ∈ b.recipients, b.has_room p = true)
    (tx_id : TransactionId) : ∃ e, b.fresh_answer tx_id = .error e := by
  have hany : b.recipients.any b.has_room = false := by
    rw [Bool.eq_false_iff, Ne, List.any_eq_true]
    exact h
  unfold fresh_answer
  by_cases hnone : b.recipients = []
  · exact ⟨_, if_pos hnone⟩
  · exact ⟨_, by rw [if_neg hnone, hany]; rfl⟩

/-- A failed `publish` adds no id to the cache exactly when it fails before it offers the
transaction to its recipients, that is: not when a new transaction was made and no recipient has
room. -/
theorem a_failed_publish_adds_no_id_iff (b : Behaviour P F) (now : Nat) (data : Bytes) :
    (∀ e b', b.publish now data = some (.error e, b') → b.AddsNoId b') ↔ b.CanSend data := by
  constructor
  · intro hall raw c hprepare hfresh
    by_contra hno
    obtain ⟨answer, b', hpublish⟩ := publish_isSome hprepare now
    rcases publish_outcome_of_made hprepare hpublish with ⟨hknown, -⟩ | ⟨-, hanswer, hcache, -⟩
    · rw [hfresh] at hknown
      cases hknown
    · obtain ⟨e, herror⟩ := fresh_answer_error hno (b.publish_id raw data)
      rw [hanswer, herror] at hpublish
      have hadded := (hall e b' hpublish).ids (b.publish_id raw data)
      rw [hcache, hfresh] at hadded
      cases hadded (DuplicateCache.contains_insert_self _ _ _ _)
  · intro hcan e b' hpublish
    have houtcome := publish_outcome hpublish
    generalize hanswer : (Except.error e : Except PublishError TransactionId) = answer at houtcome
    cases houtcome with
    | unmade e' c prepare => exact .of_ids fun _ h => h
    | duplicate raw c prepare known => exact .of_ids fun _ h => h
    | offered raw c _ prepare fresh _ _ _ =>
      obtain ⟨p, hp, hroom⟩ := hcan raw c prepare fresh
      rw [fresh_answer_ok hp hroom] at hanswer
      cases hanswer

/-! ## What the answer says -/

/-- The answer of `publish` and what it did, as the documentation of the errors has it. `sent` is
the transformed data, and `raw` the transaction that is made of it. -/
structure Reports (b : Behaviour P F) (now : Nat) (data sent : Bytes) (raw : RawTransaction P)
    (answer : Except PublishError TransactionId) (b' : Behaviour P F) : Prop where
  too_large : answer = .error .TransactionTooLarge ↔ b.config.max_transmit_size < sent.length
  duplicate : sent.length ≤ b.config.max_transmit_size →
    (answer = .error .Duplicate ↔ b.cache.contains (b.publish_id raw data) = true)
  no_peers : sent.length ≤ b.config.max_transmit_size →
    b.cache.contains (b.publish_id raw data) = false →
    (answer = .error .InsufficientPeers ↔ b.recipients = [])
  queues_full : sent.length ≤ b.config.max_transmit_size →
    b.cache.contains (b.publish_id raw data) = false → b.recipients ≠ [] →
    ∀ n, answer = .error (.AllQueuesFull n) ↔
      (∀ p ∈ b.recipients, b.has_room p = false) ∧ n = b.recipients.length
  ok : sent.length ≤ b.config.max_transmit_size →
    b.cache.contains (b.publish_id raw data) = false →
    (∃ p ∈ b.recipients, b.has_room p = true) → answer = .ok (b.publish_id raw data)
  events : ∀ tx_id, answer = .ok tx_id →
    b'.events = b.events ++ (b.recipients.filter b.has_room).map fun p =>
      .TransactionSent p tx_id { from_ := raw.from_, seqno := raw.seqno, data }
  queues : ∀ tx_id, answer = .ok tx_id → ∀ q, b'.queue q =
    if q ∈ b.recipients.filter b.has_room then (b.queue q).map (·.push [b.publish_rpc now raw])
    else b.queue q
  silent : ∀ e, answer = .error e → b'.events = b.events ∧ ∀ q, b'.queue q = b.queue q

/-- When the queues of all recipients are full, all connected peers are recipients. -/
def CountsRecipients (b : Behaviour P F) (data sent : Bytes) (raw : RawTransaction P) : Prop :=
  sent.length ≤ b.config.max_transmit_size → b.cache.contains (b.publish_id raw data) = false →
    b.recipients ≠ [] → (∀ p ∈ b.recipients, b.has_room p = false) →
    ∀ p ∈ b.connected_peers, p ∈ b.recipients

section

variable {b b' : Behaviour P F} {now : Nat} {data sent : Bytes} {raw : RawTransaction P}

omit [Schema] in
theorem Reports.of_long (hlong : b.config.max_transmit_size < sent.length)
    (hevents : b'.events = b.events) (hqueues : ∀ q, b'.queue q = b.queue q) :
    b.Reports now data sent raw (.error .TransactionTooLarge) b' where
  too_large := by simp [hlong]
  duplicate hfits := absurd hlong (Nat.not_lt.mpr hfits)
  no_peers hfits := absurd hlong (Nat.not_lt.mpr hfits)
  queues_full hfits := absurd hlong (Nat.not_lt.mpr hfits)
  ok hfits := absurd hlong (Nat.not_lt.mpr hfits)
  events tx_id h := by cases h
  queues tx_id h := by cases h
  silent _ _ := ⟨hevents, hqueues⟩

omit [Schema] in
theorem Reports.of_known (hfits : sent.length ≤ b.config.max_transmit_size)
    (hknown : b.cache.contains (b.publish_id raw data) = true)
    (hevents : b'.events = b.events) (hqueues : ∀ q, b'.queue q = b.queue q) :
    b.Reports now data sent raw (.error .Duplicate) b' where
  too_large := by simp [Nat.not_lt.mpr hfits]
  duplicate _ := by simp [hknown]
  no_peers _ hfresh := by simp [hknown] at hfresh
  queues_full _ hfresh := by simp [hknown] at hfresh
  ok _ hfresh := by simp [hknown] at hfresh
  events tx_id h := by cases h
  queues tx_id h := by cases h
  silent _ _ := ⟨hevents, hqueues⟩

omit [Schema] in
theorem Reports.of_room (hfits : sent.length ≤ b.config.max_transmit_size)
    (hfresh : b.cache.contains (b.publish_id raw data) = false) {p : P} (hp : p ∈ b.recipients)
    (hroom : b.has_room p = true)
    (hevents : b'.events = b.events ++ (b.recipients.filter b.has_room).map fun p =>
      .TransactionSent p (b.publish_id raw data) { from_ := raw.from_, seqno := raw.seqno, data })
    (hqueues : ∀ q, b'.queue q = if q ∈ b.recipients.filter b.has_room then
      (b.queue q).map (·.push [b.publish_rpc now raw]) else b.queue q) :
    b.Reports now data sent raw (.ok (b.publish_id raw data)) b' where
  too_large := by simp [Nat.not_lt.mpr hfits]
  duplicate _ := by simp [hfresh]
  no_peers _ _ := by simp [List.ne_nil_of_mem hp]
  queues_full _ _ _ n := by
    have hfull : ¬ ∀ p ∈ b.recipients, b.has_room p = false := by
      intro hall
      rw [hall p hp] at hroom
      cases hroom
    simp [hfull]
  ok _ _ _ := rfl
  events tx_id hid := by
    cases hid
    exact hevents
  queues _ _ := hqueues
  silent e he := by cases he

omit [Schema] in
theorem Reports.of_no_peers (hfits : sent.length ≤ b.config.max_transmit_size)
    (hfresh : b.cache.contains (b.publish_id raw data) = false) (hnone : b.recipients = [])
    (hevents : b'.events = b.events) (hqueues : ∀ q, b'.queue q = b.queue q) :
    b.Reports now data sent raw (.error .InsufficientPeers) b' where
  too_large := by simp [Nat.not_lt.mpr hfits]
  duplicate _ := by simp [hfresh]
  no_peers _ _ := by simp [hnone]
  queues_full _ _ hsome := absurd hnone hsome
  ok _ _ hroom := by simp [hnone] at hroom
  events tx_id h := by cases h
  queues tx_id h := by cases h
  silent _ _ := ⟨hevents, hqueues⟩

omit [Schema] in
/-- When all recipients are full, the report is right up to the count of the peers. -/
theorem Reports.of_full_iff (hfits : sent.length ≤ b.config.max_transmit_size)
    (hfresh : b.cache.contains (b.publish_id raw data) = false) (hsome : b.recipients ≠ [])
    (hfull : ∀ p ∈ b.recipients, b.has_room p = false)
    (hevents : b'.events = b.events) (hqueues : ∀ q, b'.queue q = b.queue q) :
    b.Reports now data sent raw (.error (.AllQueuesFull b.connected_peers.keys.length)) b' ↔
      ∀ p ∈ b.connected_peers, p ∈ b.recipients := by
  rw [← recipients_length_eq_iff]
  constructor
  · intro h
    exact (((h.queues_full hfits hfresh hsome _).mp rfl).2).symm
  · intro hlength
    have hnot : ¬ ∃ p ∈ b.recipients, b.has_room p = true := by
      rintro ⟨p, hp, hroom⟩
      rw [hfull p hp] at hroom
      cases hroom
    refine ⟨by simp [Nat.not_lt.mpr hfits], by simp [hfresh], by simp [hsome], ?_,
      fun _ _ hroom => absurd hroom hnot, by simp, by simp, fun _ _ => ⟨hevents, hqueues⟩⟩
    intro _ _ _ n
    rw [hlength]
    constructor
    · intro h
      cases h
      exact ⟨hfull, rfl⟩
    · rintro ⟨-, rfl⟩
      rfl

omit [Schema] in
/-- For an id that is not in the cache, the report is right up to the count of the peers. -/
theorem Reports.of_fresh_iff (hfits : sent.length ≤ b.config.max_transmit_size)
    (hfresh : b.cache.contains (b.publish_id raw data) = false)
    (hevents : b'.events = b.events ++ (b.recipients.filter b.has_room).map fun p =>
      .TransactionSent p (b.publish_id raw data) { from_ := raw.from_, seqno := raw.seqno, data })
    (hqueues : ∀ q, b'.queue q = if q ∈ b.recipients.filter b.has_room then
      (b.queue q).map (·.push [b.publish_rpc now raw]) else b.queue q) :
    b.Reports now data sent raw (b.fresh_answer (b.publish_id raw data)) b' ↔
      b.CountsRecipients data sent raw := by
  by_cases hroom : ∃ p ∈ b.recipients, b.has_room p = true
  · obtain ⟨p, hp, hroom⟩ := hroom
    rw [fresh_answer_ok hp hroom]
    refine iff_of_true (.of_room hfits hfresh hp hroom hevents hqueues) ?_
    intro _ _ _ hfull
    rw [hfull p hp] at hroom
    cases hroom
  · have hfull : ∀ p ∈ b.recipients, b.has_room p = false := by
      intro p hp
      by_contra hp'
      exact hroom ⟨p, hp, (Bool.not_eq_false _).mp hp'⟩
    have htakers : b.recipients.filter b.has_room = [] := by
      rw [List.filter_eq_nil_iff]
      intro p hp
      simp [hfull p hp]
    simp only [htakers, List.map_nil, List.append_nil, List.not_mem_nil, if_false]
      at hevents hqueues
    by_cases hnone : b.recipients = []
    · have hanswer : b.fresh_answer (b.publish_id raw data) = .error .InsufficientPeers := by
        simp [fresh_answer, hnone]
      rw [hanswer]
      refine iff_of_true (.of_no_peers hfits hfresh hnone hevents hqueues) ?_
      intro _ _ hsome
      exact absurd hnone hsome
    · have hanswer : b.fresh_answer (b.publish_id raw data) =
          .error (.AllQueuesFull b.connected_peers.keys.length) := by
        have hany : b.recipients.any b.has_room = false := by
          rw [List.any_eq_false]
          intro p hp
          simp [hfull p hp]
        simp [fresh_answer, hnone, hany]
      rw [hanswer, Reports.of_full_iff hfits hfresh hnone hfull hevents hqueues]
      constructor
      · intro hall _ _ _ _
        exact hall
      · intro hcounts
        exact hcounts hfits hfresh hnone hfull

end

/-- The answer of `publish` says what it did, and counts the peers that it attempted, exactly when
the queues of all recipients are full only with all connected peers among them. -/
theorem publish_reports_what_it_did_iff (b : Behaviour P F) (now : Nat) {data sent : Bytes}
    {raw : RawTransaction P} {c : PublishConfig P}
    (hsent : b.data_transform.outbound_transform data = .ok sent)
    (hbuilt : b.publish_config.build_raw_transaction sent = some (.ok raw, c)) :
    ∃ answer b', b.publish now data = some (answer, b') ∧
      (b.Reports now data sent raw answer b' ↔ b.CountsRecipients data sent raw) := by
  have hprepare : b.prepare data = if sent.length > b.config.max_transmit_size then
      some (.error .TransactionTooLarge, b.publish_config) else some (.ok raw, c) := by
    simp [prepare, hsent, hbuilt]
  by_cases hlong : sent.length > b.config.max_transmit_size
  · rw [if_pos hlong] at hprepare
    refine ⟨.error .TransactionTooLarge, b, by rw [publish_eq, hprepare]; rfl, ?_⟩
    constructor
    · intro _ hfits
      exact absurd hlong (Nat.not_lt.mpr hfits)
    · intro _
      exact .of_long hlong rfl fun _ => rfl
  · have hfits := Nat.le_of_not_lt hlong
    rw [if_neg hlong] at hprepare
    obtain ⟨answer, b', hpublish⟩ := publish_isSome hprepare now
    refine ⟨answer, b', hpublish, ?_⟩
    rcases publish_outcome_of_made hprepare hpublish with ⟨hknown, rfl, rfl⟩ |
      ⟨hfresh, rfl, -, hevents, hqueue⟩
    · refine iff_of_true (.of_known hfits hknown rfl fun _ => rfl) ?_
      intro _ hfresh
      rw [hknown] at hfresh
      cases hfresh
    · exact Reports.of_fresh_iff hfits hfresh hevents hqueue

end Behaviour

end

/-! ## A node that publishes -/

/-- A node that takes the data of a transaction for its id. -/
def content_ids : Setup Sample.Peer Rat :=
  { Sample.setup 0 with
    config := { (Config.default : Config Sample.Peer Rat) with
      transaction_id_fn := fun tx => ⟨tx.data⟩ } }

/-- A payload that found no peer is refused as a duplicate once there is one. -/
theorem a_failed_publish_adds_an_id :
    ¬ ∀ (s : Setup Sample.Peer Rat) (n : Node Sample.Peer Rat), s.machine.Reachable n →
      ∀ now data e b', n.behaviour.publish now data = some (.error e, b') →
        n.behaviour.AddsNoId b' := by
  intro hclaim
  have hfirst :
      (content_ids.behaviour.publish 0 [1]).map (fun r => (r.1, r.2.cache.contains ⟨[1]⟩)) =
      some (.error .InsufficientPeers, true) := by decide +kernel
  obtain ⟨⟨answer, b'⟩, hpublish, hsee⟩ := Option.map_eq_some_iff.mp hfirst
  simp only [Prod.mk.injEq] at hsee
  obtain ⟨rfl, hcontains⟩ := hsee
  have hadds := hclaim content_ids content_ids.node ⟨_, [], rfl, .nil _⟩ 0 [1] _ b' hpublish
  have hbefore := hadds.ids ⟨[1]⟩ hcontains
  cases hbefore

/-- A node whose queues hold one Publish. -/
def short_queues : Setup Sample.Peer Rat :=
  { Sample.setup 0 with config := { Config.default with connection_handler_queue_len := 2 } }

theorem publish_reports_what_it_did_to_a_peer_with_room :
    ∃ n, short_queues.machine.Run short_queues.node [Sample.connect 1] n ∧
      ∃ raw answer b', n.behaviour.publish 0 [7] = some (answer, b') ∧
        n.behaviour.Reports 0 [7] [7] raw answer b' := by
  have hrun : (Machine.exec Node.step short_queues.node [Sample.connect 1]).map (fun n =>
      (n.behaviour.data_transform.outbound_transform [7],
        (n.behaviour.publish_config.build_raw_transaction [7]).map fun r => r.1.toBool,
        n.behaviour.recipients.map n.behaviour.has_room)) =
      some (.ok [7], some true, [true]) := by decide +kernel
  obtain ⟨n, hrun, hsee⟩ := Machine.exists_run_of_exec hrun
  simp only [Prod.mk.injEq, Option.map_eq_some_iff] at hsee
  obtain ⟨hsent, ⟨⟨made, c⟩, hbuilt, hmade⟩, hroom⟩ := hsee
  obtain ⟨p, hp, hp'⟩ : ∃ p ∈ n.behaviour.recipients, n.behaviour.has_room p = true :=
    List.mem_map.mp (hroom ▸ List.mem_singleton.mpr rfl)
  cases made with
  | error e => cases hmade
  | ok raw =>
    obtain ⟨answer, b', hpublish, hreports⟩ :=
      Behaviour.publish_reports_what_it_did_iff n.behaviour 0 hsent hbuilt
    refine ⟨n, hrun, raw, answer, b', hpublish, hreports.mpr ?_⟩
    intro _ _ _ hfull
    rw [hfull p hp] at hp'
    cases hp'

/-- Both queues are full, and the route to peer 1 is disabled. -/
def a_full_queue_and_a_disabled_route : List (Op Sample.Peer) :=
  [Sample.connect 1, Sample.connect 2, .call (.publish 0 [7]),
    Sample.deliver 1 [] [.HaveTx { tx_id := Sample.tx_id 0 1 }]]

/-- One peer was attempted, and the error counts two. -/
theorem publish_counts_a_peer_that_it_did_not_attempt :
    ¬ ∀ (s : Setup Sample.Peer Rat) (n : Node Sample.Peer Rat), s.machine.Reachable n →
      ∀ now data sent raw c, n.behaviour.data_transform.outbound_transform data = .ok sent →
        n.behaviour.publish_config.build_raw_transaction sent = some (.ok raw, c) →
        ∃ answer b', n.behaviour.publish now data = some (answer, b') ∧
          n.behaviour.Reports now data sent raw answer b' := by
  intro hclaim
  have hrun : (Machine.exec Node.step short_queues.node a_full_queue_and_a_disabled_route).map
      (fun n => (decide (n.behaviour.data_transform.outbound_transform [8] = .ok [8]),
        (n.behaviour.publish_config.build_raw_transaction [8]).map (fun r =>
          r.1.toOption.map fun raw =>
          n.behaviour.cache.contains (n.behaviour.publish_id raw [8])),
        (n.behaviour.publish 0 [8]).map (fun r => decide (r.1 = .error (.AllQueuesFull 2))),
        n.behaviour.config.max_transmit_size, n.behaviour.recipients)) =
      some (true, some (some false), some true, 65536, [{ number := 2 }]) := by decide +kernel
  obtain ⟨n, hrun, hsee⟩ := Machine.exists_run_of_exec hrun
  simp only [Prod.mk.injEq, Option.map_eq_some_iff, decide_eq_true_eq] at hsee
  obtain ⟨hsent, ⟨⟨made, c⟩, hbuilt, raw, hraw, hfresh⟩, ⟨⟨answer, b'⟩, hpublish, hanswer⟩, hmax,
    hrecipients⟩ := hsee
  cases made with
  | error e => cases hraw
  | ok raw' =>
    obtain rfl : raw' = raw := Option.some.inj hraw
    obtain ⟨answer', b'', hpublish', hreports⟩ :=
      hclaim _ n ⟨_, _, rfl, hrun⟩ 0 [8] [8] raw' c hsent hbuilt
    rw [hpublish] at hpublish'
    cases hpublish'
    have hcount :=
      (hreports.queues_full (by simp [hmax]) hfresh (by simp [hrecipients]) 2).mp hanswer
    rw [hrecipients] at hcount
    cases hcount.2

end libp2p_dog
