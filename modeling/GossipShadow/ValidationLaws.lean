-- Strict validation is a gate: whatever a node does with a transaction of a
-- peer, the decoder has checked the signature of its author first.
import GossipShadow.CodecLaws
import GossipShadow.EventLaws
import GossipShadow.HaveTxLaws

namespace libp2p_dog

/-! ## What the decoder lets through -/

section

variable {P : Type} [Libp2p P] [Schema]

/-- The author field is the id of `p`, and the signature is right under a key of `p`: the one in the
key field, if there is one, or else the one inlined in the id. -/
def Authentic (transaction : proto.Transaction) (p : P) : Prop :=
  Libp2p.from_bytes transaction.from_ = some p ∧
  ∃ key : Libp2p.PublicKey P,
    (Libp2p.try_decode_protobuf transaction.key = some key ∨
      (Libp2p.try_decode_protobuf transaction.key : Option (Libp2p.PublicKey P)) = none ∧
        Libp2p.try_decode_protobuf ((Libp2p.to_bytes p).drop 2) = some key) ∧
    Libp2p.to_peer_id key = p ∧
    Libp2p.verify key
      (SIGNING_PREFIX ++ proto.Transaction.write_message
        { from_ := transaction.from_, seqno := transaction.seqno, data := transaction.data
          signature := [], key := [] })
      transaction.signature = true

/-- What one transaction of a frame becomes: it is valid and authentic, or it is invalid and nobody
can be its author. Nothing else of it changes. -/
def Judges (transaction : proto.Transaction) :
    Except (RawTransaction P × ValidationError) (RawTransaction P) → Prop
  | .ok raw =>
    raw = DogCodec.raw_transaction raw.from_ transaction ∧ Authentic transaction raw.from_
  | .error (raw, _) => raw = DogCodec.raw_transaction raw.from_ transaction ∧
    ∀ p : P, ¬ Authentic transaction p

def invalid? : Except (RawTransaction P × ValidationError) (RawTransaction P) →
    Option (RawTransaction P × ValidationError)
  | .ok _ => none
  | .error invalid => some invalid

omit [Schema] in
theorem public_key_iff {p : P} {transaction : proto.Transaction} {key : Libp2p.PublicKey P} :
    DogCodec.public_key p transaction = some key ↔
      (Libp2p.try_decode_protobuf transaction.key = some key ∨
        (Libp2p.try_decode_protobuf transaction.key : Option (Libp2p.PublicKey P)) = none ∧
          Libp2p.try_decode_protobuf ((Libp2p.to_bytes p).drop 2) = some key) := by
  unfold DogCodec.public_key
  cases (Libp2p.try_decode_protobuf transaction.key : Option (Libp2p.PublicKey P)) with
  | none => simp
  | some key' => simp

variable [DecidableEq P]

theorem verify_signature_iff {transaction : proto.Transaction} :
    DogCodec.verify_signature P transaction = true ↔ ∃ p : P, Authentic transaction p := by
  unfold DogCodec.verify_signature Authentic
  cases (Libp2p.from_bytes transaction.from_ : Option P) with
  | none => simp
  | some p =>
    simp only [Option.some.injEq, exists_eq_left', ← public_key_iff]
    cases DogCodec.public_key p transaction with
    | none => simp
    | some key =>
      simp only [Option.some.injEq, exists_eq_left']
      by_cases h : Libp2p.to_peer_id key = p
      · simp [h]
      · simp [h, Ne.symm h]

theorem decode_transaction_judges (random : P) (transaction : proto.Transaction) :
    Judges transaction (DogCodec.decode_transaction .Strict random transaction) := by
  unfold DogCodec.decode_transaction
  cases hfrom : (Libp2p.from_bytes transaction.from_ : Option P) with
  | none =>
    refine ⟨rfl, ?_⟩
    rintro p ⟨hp, -⟩
    rw [hfrom] at hp
    cases hp
  | some source =>
    dsimp only
    cases hverify : DogCodec.verify_signature P transaction with
    | true =>
      obtain ⟨p, hp⟩ := verify_signature_iff.mp hverify
      have hsource : source = p := by
        have hp := hp.1
        rw [hfrom] at hp
        exact Option.some.inj hp
      subst hsource
      exact ⟨rfl, hp⟩
    | false =>
      refine ⟨rfl, ?_⟩
      intro p hp
      rw [verify_signature_iff.mpr ⟨p, hp⟩] at hverify
      cases hverify

omit [DecidableEq P] in
/-- What comes out as valid was in the frame, and it is authentic. -/
theorem authentic_of_judged {transactions : List proto.Transaction}
    {outcomes : List (Except (RawTransaction P × ValidationError) (RawTransaction P))}
    (h : List.Forall₂ Judges transactions outcomes) {raw : RawTransaction P}
    (hraw : raw ∈ outcomes.filterMap (·.toOption)) :
    ∃ transaction ∈ transactions, raw = DogCodec.raw_transaction raw.from_ transaction ∧
      Authentic transaction raw.from_ := by
  induction h with
  | nil => cases hraw
  | @cons transaction outcome transactions outcomes hjudge _ ih =>
    have hrest : raw ∈ outcomes.filterMap (·.toOption) →
        ∃ tx ∈ transaction :: transactions, raw = DogCodec.raw_transaction raw.from_ tx ∧
          Authentic tx raw.from_ := by
      intro hraw
      obtain ⟨tx, htx, hauthentic⟩ := ih hraw
      exact ⟨tx, List.mem_cons_of_mem _ htx, hauthentic⟩
    cases outcome with
    | error invalid => exact hrest hraw
    | ok valid =>
      rcases List.mem_cons.mp hraw with rfl | hraw
      · exact ⟨transaction, List.mem_cons_self, hjudge⟩
      · exact hrest hraw

/-- The transactions of a frame, judged in order. -/
theorem decode_transactions_judges (random : Nat → P) (count : Nat)
    (transactions : List proto.Transaction) :
    ∃ outcomes, List.Forall₂ Judges transactions outcomes ∧
      DogCodec.decode_transactions .Strict random count transactions =
        (outcomes.filterMap (·.toOption), outcomes.filterMap invalid?) := by
  induction transactions generalizing count with
  | nil => exact ⟨[], .nil, rfl⟩
  | cons transaction rest ih =>
    obtain ⟨outcomes, hjudges, hrest⟩ := ih (count + 1)
    refine ⟨_ :: outcomes, .cons (decode_transaction_judges (random count) transaction) hjudges, ?_⟩
    unfold DogCodec.decode_transactions
    rw [hrest]
    cases DogCodec.decode_transaction .Strict (random count) transaction with
    | ok raw => rfl
    | error invalid => rfl

end

/-! ## The transactions that a node handles -/

section

variable {P F : Type} [Libp2p P] [DecidableEq P] [F64 F] [Schema]

/-- The transactions that a step handles. -/
def Node.receptions (n : Node P F) (op : Op P) : List (P × RawTransaction P) :=
  op.on_call n.behaviour.receptions

/-- The transactions that a run handles. -/
def Setup.receptions (s : Setup P F) (ops : List (Op P)) : List (P × RawTransaction P) :=
  Machine.observe Node.step Node.receptions s.node ops

omit [DecidableEq P] [F64 F] [Schema] in
theorem Behaviour.handled_subset (b : Behaviour P F) {raws : List (RawTransaction P)} :
    b.handled raws ⊆ raws := by
  unfold handled handled_from
  cases b.config.max_transactions_per_rpc with
  | none => exact fun _ h => h
  | some max => exact List.take_subset _ _

/-- What a node never changes. -/
structure Fixed (b b' : Behaviour P F) : Prop where
  config : b'.config = b.config
  data_transform : b'.data_transform = b.data_transform
  own_id : b'.own_id = b.own_id

theorem call_fixed {b b' : Behaviour P F} {c : Call P} (h : b.call c = some b') : Fixed b b' := by
  cases call_routed h with
  | sends new sends _ _ => exact ⟨sends.config, sends.data_transform, sends.own_id⟩
  | joined connection_id p _ => exact ⟨rfl, rfl, rfl⟩
  | left now draw p connection_id new sends _ _ =>
    obtain ⟨hconfig, htransform, hown, -⟩ := Behaviour.disconnect_spec b p
    exact ⟨sends.config.trans hconfig, sends.data_transform.trans htransform,
      sends.own_id.trans hown⟩
  | rpc clock draw source rpc invalid new sends _ _ =>
    exact ⟨sends.config, sends.data_transform, sends.own_id⟩

theorem run_fixed {s : Setup P F} {n : Node P F} {ops : List (Op P)}
    (hrun : s.machine.Run s.node ops n) : Fixed s.behaviour n.behaviour := by
  apply hrun.invariant (p := fun n => Fixed s.behaviour n.behaviour)
  · exact ⟨rfl, rfl, rfl⟩
  · intro n op n' h hstep
    cases Node.step_cases hstep with
    | called c b' call =>
      have hcall := call_fixed call
      exact ⟨hcall.config.trans h.config, hcall.data_transform.trans h.data_transform,
        hcall.own_id.trans h.own_id⟩
    | polled peers _ _ same =>
      rw [same]
      exact ⟨h.config, h.data_transform, h.own_id⟩

/-! ### What they leave in the events -/

/-- The events that tell of received transactions: one for each that is handled and can be read. -/
theorem received_events_of_run {s : Setup P F} {n : Node P F} {ops : List (Op P)}
    (hrun : s.machine.Run s.node ops n) :
    (s.pushed ops n).filter (·.isReceived) =
      (s.receptions ops).flatMap fun r => s.behaviour.received_event r.1 r.2 := by
  unfold Setup.pushed Setup.receptions
  induction hrun with
  | nil => rfl
  | @snoc n n' ops op hrun hstep ih =>
    rw [Machine.observe_snoc _ hrun, Machine.observe_snoc _ hrun, List.flatMap_append, ← ih]
    cases Node.step_cases hstep with
    | called c b' call =>
      obtain ⟨new, left, hevents, htells, hnew⟩ := Behaviour.call_tells call
      have hfixed := run_fixed hrun
      have hnow : new.filter (·.isReceived) =
          (n.receptions (.call c)).flatMap fun r => s.behaviour.received_event r.1 r.2 := by
        rw [hnew]
        unfold Behaviour.received_events Behaviour.received_event
        rw [hfixed.config, hfixed.data_transform]
        rfl
      rw [← hnow, htells.events, hevents]
      simp [Node.emitted, Op.on_call]
    | polled peers no_call _ same =>
      rw [Node.emitted, Node.receptions, Op.on_call_eq_nil no_call, Op.on_call_eq_nil no_call, same]
      simp

/-! ### What they leave in the cache and in the queues -/

/-- The transaction that an attempt forwards. -/
def Attempt.forwarded? (a : Attempt P) : Option (RawTransaction P) :=
  match a.rpc with
  | .Forward raw _ => some raw
  | _ => none

/-- The transactions that the node tried to forward so far. -/
def Behaviour.forwarded (b : Behaviour P F) : List (RawTransaction P) :=
  b.history.filterMap (·.forwarded?)

/-- What is new in the cache and among the forwarded transactions comes from the given ones. -/
structure Gains (b : Behaviour P F) (received : List (P × RawTransaction P)) (b' : Behaviour P F) :
    Prop where
  fixed : Fixed b b'
  cache : ∀ id source, b'.cache.get id = some source → b.cache.get id = some source ∨
    ∃ raw, (source, raw) ∈ received ∧ b.id_of raw = some id
  forwarded : ∀ raw ∈ b'.forwarded, raw ∈ b.forwarded ∨ ∃ source, (source, raw) ∈ received

omit [F64 F] [Schema] [DecidableEq P] in
theorem Fixed.trans {b b' b'' : Behaviour P F} (h : Fixed b b') (h' : Fixed b' b'') : Fixed b b'' :=
  ⟨h'.config.trans h.config, h'.data_transform.trans h.data_transform, h'.own_id.trans h.own_id⟩

omit [F64 F] [Schema] [DecidableEq P] in
theorem Fixed.id_of {b b' : Behaviour P F} (h : Fixed b b') (raw : RawTransaction P) :
    b'.id_of raw = b.id_of raw :=
  Behaviour.id_of_congr h.config h.data_transform raw

omit [F64 F] [Schema] in
theorem Sends.fixed {b b' : Behaviour P F} {new : List (Attempt P)} (h : Sends b new b') :
    Fixed b b' := ⟨h.config, h.data_transform, h.own_id⟩

omit [F64 F] [Schema] [DecidableEq P] in
theorem Gains.trans {b b' b'' : Behaviour P F} {received received' : List (P × RawTransaction P)}
    (h : Gains b received b') (h' : Gains b' received' b'') :
    Gains b (received ++ received') b'' := by
  refine ⟨h.fixed.trans h'.fixed, ?_, ?_⟩
  · intro id source hget
    rcases h'.cache id source hget with hget | ⟨raw, hmem, hid⟩
    · rcases h.cache id source hget with hget | ⟨raw, hmem, hid⟩
      · exact .inl hget
      · exact .inr ⟨raw, List.mem_append_left _ hmem, hid⟩
    · rw [h.fixed.id_of] at hid
      exact .inr ⟨raw, List.mem_append_right _ hmem, hid⟩
  · intro raw hraw
    rcases h'.forwarded raw hraw with hraw | ⟨source, hmem⟩
    · rcases h.forwarded raw hraw with hraw | ⟨source, hmem⟩
      · exact .inl hraw
      · exact .inr ⟨source, List.mem_append_left _ hmem⟩
    · exact .inr ⟨source, List.mem_append_right _ hmem⟩

omit [F64 F] [Schema] in
/-- A call that leaves the cache as it is and forwards nothing. -/
theorem Gains.none {b b' : Behaviour P F} {new : List (Attempt P)} (hsends : Sends b new b')
    (hnew : ∀ a ∈ new, a.forwarded? = .none) (hcache : b'.cache = b.cache) : Gains b [] b' := by
  refine ⟨hsends.fixed, ?_, ?_⟩
  · intro id source hget
    rw [hcache] at hget
    exact .inl hget
  · intro raw hraw
    have hnil : new.filterMap (·.forwarded?) = [] := List.filterMap_eq_nil_iff.mpr hnew
    rw [Behaviour.forwarded, hsends.history, List.filterMap_append, hnil, List.append_nil] at hraw
    exact .inl hraw

omit [F64 F] [Schema] in
theorem Gains.quiet {b b' : Behaviour P F} (hsends : Sends b [] b') (hcache : b'.cache = b.cache) :
    Gains b [] b' := .none hsends (by simp) hcache

namespace Behaviour

omit [F64 F] in
theorem received_gains (b : Behaviour P F) (now : Nat) (raw : RawTransaction P) (source : P) :
    Gains b [(source, raw)] (b.handle_received_transaction now raw source) := by
  have hcached : ∀ tx, b.data_transform.inbound_transform raw = .ok tx →
      ∀ id source', (b.cache.insert now (b.config.transaction_id tx) source).2.get id =
        some source' → b.cache.get id = some source' ∨
          ∃ raw', (source', raw') ∈ [(source, raw)] ∧ b.id_of raw' = some id := by
    intro tx hinbound id source' hget
    rcases DuplicateCache.get_insert hget with hget | ⟨rfl, rfl⟩
    · exact .inl hget
    · exact .inr ⟨raw, List.mem_singleton.mpr rfl, id_of_read hinbound⟩
  have hforwarded : ∀ new : List (Attempt P),
      Sends b new (b.handle_received_transaction now raw source) →
      (∀ a ∈ new, a.forwarded? = none ∨ a.forwarded? = some raw) →
      ∀ raw' ∈ (b.handle_received_transaction now raw source).forwarded, raw' ∈ b.forwarded ∨
        ∃ source', (source', raw') ∈ [(source, raw)] := by
    intro new hsends hnew raw' hraw'
    rw [forwarded, hsends.history, List.filterMap_append] at hraw'
    rcases List.mem_append.mp hraw' with hraw' | hraw'
    · exact .inl hraw'
    · obtain ⟨a, ha, hraw'⟩ := List.mem_filterMap.mp hraw'
      rcases hnew a ha with hnone | hsome
      · rw [hnone] at hraw'
        cases hraw'
      · rw [hsome] at hraw'
        cases hraw'
        exact .inr ⟨source, List.mem_singleton.mpr rfl⟩
  cases received_spec b now raw source with
  | invalid e _ sends _ cache =>
    refine ⟨sends.fixed, ?_, hforwarded [] sends (by simp)⟩
    intro id source' hget
    rw [cache] at hget
    exact .inl hget
  | duplicate tx tx_id inbound tx_id_eq _ cache answer =>
    rw [tx_id_eq] at cache
    rcases answer with ⟨sends, -⟩ | ⟨sends, -⟩
    · refine ⟨sends.fixed, ?_, hforwarded [] sends (by simp)⟩
      rw [cache]
      exact hcached tx inbound
    · refine ⟨sends.fixed, ?_, hforwarded _ sends ?_⟩
      · rw [cache]
        exact hcached tx inbound
      · intro a ha
        rw [List.mem_singleton.mp ha]
        exact .inl rfl
  | first_time tx tx_id new inbound tx_id_eq _ cache _ sends spread =>
    rw [tx_id_eq] at cache
    refine ⟨sends.fixed, ?_, hforwarded new sends ?_⟩
    · rw [cache]
      exact hcached tx inbound
    · intro a ha
      right
      unfold Attempt.forwarded?
      rw [(spread.all a ha).2.2]

omit [F64 F] in
theorem transactions_gain (b : Behaviour P F) (clock : Nat → Nat) (source : P) (count : Nat)
    (raws : List (RawTransaction P)) :
    Gains b ((b.handled_from count raws).map fun raw => (source, raw))
      (b.handle_transactions clock source count raws) := by
  induction raws generalizing b count with
  | nil =>
    rw [handled_from_nil]
    exact .quiet (Sends.refl b) rfl
  | cons raw raws ih =>
    unfold handle_transactions
    rw [handled_from_cons]
    split
    · exact .quiet (Sends.refl b) rfl
    · have hraw := received_gains b (clock count) raw source
      have hrest := ih (b.handle_received_transaction (clock count) raw source) (count + 1)
      rw [handled_from_received] at hrest
      exact hraw.trans hrest

omit [F64 F] in
theorem on_rpc_gains (b : Behaviour P F) (clock : Nat → Nat) (draw : Nat) (source : P)
    (rpc : Rpc P) :
    Gains b ((b.handled rpc.transactions).map fun raw => (source, raw))
      (b.on_rpc clock draw source rpc) := by
  apply on_rpc_rule (transactions_gain b clock source 0 rpc.transactions)
  · intro b' h
    obtain ⟨hsends, hcache, -⟩ := handle_have_tx_spec b' (have_tx_ids rpc.control_msgs) source
    simpa using h.trans (.quiet hsends hcache)
  · intro b' h
    obtain ⟨hsends, hcache, -⟩ := handle_reset_route_spec b' draw source
    simpa using h.trans (.quiet hsends hcache)

theorem adjust_redundancy_gains (b : Behaviour P F) (now draw : Nat) :
    Gains b [] (b.adjust_redundancy now draw) := by
  cases adjust_redundancy_spec b now draw with
  | idle _ sends _ cache => exact .quiet sends cache
  | reset p _ _ sends _ cache =>
    refine .none sends ?_ cache
    intro a ha
    rw [List.mem_singleton.mp ha]
    rfl

end Behaviour

omit [DecidableEq P] [F64 F] [Schema] in
theorem Behaviour.receptions_of_idles {b : Behaviour P F} {c : Call P} (h : b.idles c = true) :
    b.receptions c = [] := by
  unfold receptions
  split
  · cases h
  · rfl

/-- A call gains what it handles. Only `publish` puts a transaction of the node itself in the
cache, and it forwards nothing. -/
theorem call_gains {b b' : Behaviour P F} {c : Call P} (h : b.call c = some b') :
    Gains b (b.receptions c) b' ∨
    (∃ now data, c = .publish now data) ∧
      (∀ id source, b'.cache.get id = some source →
        b.cache.get id = some source ∨ source = b.own_id) ∧
      b'.forwarded = b.forwarded := by
  cases Behaviour.call_cases h with
  | published now data answer publish =>
    right
    refine ⟨⟨now, data, rfl⟩, ?_⟩
    cases Behaviour.publish_spec publish with
    | refused e _ sends _ cache =>
      refine ⟨?_, ?_⟩
      · intro id source hget
        rw [cache] at hget
        exact .inl hget
      · rw [Behaviour.forwarded, sends.history, List.append_nil]
        rfl
    | taken raw tx_id new _ _ _ _ _ _ sends spread _ cache =>
      refine ⟨?_, ?_⟩
      · intro id source hget
        rw [cache] at hget
        exact (DuplicateCache.get_insert hget).imp_right (·.2)
      · have hnil : new.filterMap (·.forwarded?) = [] := by
          rw [List.filterMap_eq_nil_iff]
          intro a ha
          unfold Attempt.forwarded?
          rw [(spread.all a ha).2.2]
        rw [Behaviour.forwarded, sends.history, List.filterMap_append, hnil, List.append_nil]
        rfl
  | joined connection_id p call =>
    left
    have hnone : b.receptions c = [] := by
      rcases call with rfl | rfl
      · rfl
      · rfl
    rw [hnone]
    exact ⟨⟨rfl, rfl, rfl⟩, fun _ _ hget => .inl hget, fun _ hraw => .inl hraw⟩
  | left now draw p connection_id =>
    left
    obtain ⟨hconfig, htransform, hown, hhistory, hcache, -⟩ :=
      Behaviour.disconnect_spec b p
    have hdisconnect : Gains b [] (b.disconnect p) := by
      refine ⟨⟨hconfig, htransform, hown⟩, ?_, ?_⟩
      · intro id source hget
        rw [hcache] at hget
        exact .inl hget
      · intro raw hraw
        rw [Behaviour.forwarded, hhistory] at hraw
        exact .inl hraw
    exact (hdisconnect.trans (Behaviour.adjust_redundancy_gains _ now draw)).trans
      (.quiet (Behaviour.with_metrics_sends _ _) rfl)
  | rpc clock draw source rpc invalid => exact .inl (Behaviour.on_rpc_gains b clock draw source rpc)
  | ticked now draw _ => exact .inl (Behaviour.adjust_redundancy_gains b now draw)
  | idle idles sends _ cache =>
    left
    rw [Behaviour.receptions_of_idles idles]
    exact .quiet sends cache

/-- The forwarded transactions of a run are among those that it handled. -/
theorem forwarded_of_run {s : Setup P F} {n : Node P F} {ops : List (Op P)}
    (hrun : s.machine.Run s.node ops n) :
    ∀ raw ∈ n.behaviour.forwarded, ∃ source, (source, raw) ∈ s.receptions ops := by
  apply Machine.Run.observe_invariant (p := fun seen (n : Node P F) =>
    ∀ raw ∈ n.behaviour.forwarded, ∃ source, (source, raw) ∈ seen) hrun
  · intro raw hraw
    cases hraw
  · intro seen n op n' h hstep raw hraw
    have hold : raw ∈ n.behaviour.forwarded →
        ∃ source, (source, raw) ∈ seen ++ n.receptions op := by
      intro hraw
      obtain ⟨source, hmem⟩ := h raw hraw
      exact ⟨source, List.mem_append_left _ hmem⟩
    cases Node.step_cases hstep with
    | called c b' call =>
      rcases call_gains call with hgains | ⟨-, -, hsame⟩
      · rcases hgains.forwarded raw hraw with hraw | ⟨source, hmem⟩
        · exact hold hraw
        · exact ⟨source, List.mem_append_right _ hmem⟩
      · dsimp only at hraw
        rw [hsame] at hraw
        exact hold hraw
    | polled peers _ _ same =>
      rw [same] at hraw
      exact hold hraw

/-- The call that puts an entry in the cache: the node publishes, or it handles a transaction of the
peer that the entry names. -/
theorem mem_receptions {s : Setup P F} {n : Node P F} {before after : List (Op P)} {c : Call P}
    (hrun : s.machine.Run s.node before n) {r : P × RawTransaction P}
    (hr : r ∈ n.behaviour.receptions c) : r ∈ s.receptions (before ++ .call c :: after) := by
  unfold Setup.receptions
  rw [Machine.observe_append _ hrun]
  apply List.mem_append_right
  unfold Machine.observe
  exact List.mem_append_left _ hr

theorem cached_by {s : Setup P F} {n : Node P F} {ops : List (Op P)}
    (hrun : s.machine.Run s.node ops n) {id : TransactionId} {source : P}
    (hget : n.behaviour.cache.get id = some source) :
    ∃ before c after n₁ n₂, ops = before ++ .call c :: after ∧ s.machine.Run s.node before n₁ ∧
      s.machine.step n₁ (.call c) n₂ ∧ n₁.behaviour.cache.get id ≠ some source ∧
      n₂.behaviour.cache.get id = some source ∧
      ((∃ now data, c = .publish now data) ∧ source = s.behaviour.own_id ∨
        ∃ raw, (source, raw) ∈ n₁.behaviour.receptions c ∧ s.behaviour.id_of raw = some id) := by
  have hstart : ¬ s.node.behaviour.cache.get id = some source := by
    intro h
    cases h
  obtain ⟨before, op, after, n₁, n₂, hops, hbefore, hstep, -, hno, hnew⟩ :=
    hrun.gained (p := fun n => n.behaviour.cache.get id = some source) hstart hget
  have hfixed := run_fixed hbefore
  cases Node.step_cases hstep with
  | called c b' call =>
    refine ⟨before, c, after, n₁, _, hops, hbefore, hstep, hno, hnew, ?_⟩
    rcases call_gains call with hgains | ⟨hpublish, hcache, -⟩
    · obtain ⟨raw, hmem, hid⟩ := (hgains.cache id source hnew).resolve_left hno
      rw [hfixed.id_of] at hid
      exact .inr ⟨raw, hmem, hid⟩
    · have hown := (hcache id source hnew).resolve_left hno
      rw [hfixed.own_id] at hown
      exact .inl ⟨hpublish, hown⟩
  | polled peers _ _ same =>
    rw [same] at hnew
    exact absurd hnew hno

/-! ### What they add to the counters -/

def Mark.isReception : Mark P → Bool
  | first_time => true
  | duplicate => true
  | _ => false

namespace Behaviour

omit [F64 F] in
/-- Each transaction that is handled and can be read counts once. -/
theorem received_counted {b : Behaviour P F} {raw : RawTransaction P} {tx : Transaction P}
    (hinbound : b.data_transform.inbound_transform raw = .ok tx) (now : Nat) (source : P) :
    (b.received_marks now raw source).countP (·.isReception) = 1 := by
  unfold received_marks
  rw [hinbound]
  dsimp only
  split
  · rfl
  · split
    · rfl
    · rfl

omit [F64 F] in
theorem transactions_counted {b : Behaviour P F} (hreads : ∀ raw, ∃ tx,
    b.data_transform.inbound_transform raw = .ok tx) (clock : Nat → Nat) (source : P) (count : Nat)
    (raws : List (RawTransaction P)) :
    (b.transactions_marks clock source count raws).countP (·.isReception) =
      (b.handled_from count raws).length := by
  induction raws generalizing b count with
  | nil =>
    rw [handled_from_nil]
    rfl
  | cons raw raws ih =>
    unfold transactions_marks
    rw [handled_from_cons]
    split
    · rfl
    · obtain ⟨tx, htx⟩ := hreads raw
      have hfixed := (received_gains b (clock count) raw source).fixed
      have hrest := ih (b := b.handle_received_transaction (clock count) raw source)
        (by rwa [hfixed.data_transform]) (count + 1)
      rw [List.countP_append, received_counted htx, hrest, handled_from_received, List.length_cons]
      omega

omit [F64 F] in
theorem call_counted {b : Behaviour P F} (hreads : ∀ raw, ∃ tx,
    b.data_transform.inbound_transform raw = .ok tx) (c : Call P) :
    (b.call_marks c).countP (·.isReception) = (b.receptions c).length := by
  cases c with
  | on_connection_handler_event clock draw source event =>
    cases event with
    | Transaction rpc invalid =>
      unfold call_marks receptions
      rw [List.length_map]
      exact transactions_counted hreads clock source 0 rpc.transactions
    | TransactionDropped rpc => rfl
  | on_swarm_event now draw event =>
    cases event with
    | ConnectionEstablished peer_id => rfl
    | ConnectionClosed peer_id connection_id remaining_established =>
      cases remaining_established with
      | zero => rfl
      | succ remaining => rfl
    | Other => rfl
  | poll now draw redundancy_interval =>
    cases redundancy_interval with
    | false => rfl
    | true =>
      change (if b.events.isEmpty then [.adjusted] else [] : List (Mark P)).countP
        (·.isReception) = 0
      split
      · rfl
      · rfl
  | publish now data => rfl
  | handle_established_inbound_connection connection_id peer_id => rfl
  | handle_established_outbound_connection connection_id peer => rfl

end Behaviour

/-- What a run counts is what it handled. -/
theorem counted_of_run {s : Setup P F} {n : Node P F} {ops : List (Op P)}
    (hreads : ∀ raw, ∃ tx, s.data_transform.inbound_transform raw = .ok tx)
    (hrun : s.machine.Run s.node ops n) :
    (s.marks ops).countP (·.isReception) = (s.receptions ops).length := by
  unfold Setup.marks Setup.receptions
  induction hrun with
  | nil => rfl
  | @snoc n n' ops op hrun hstep ih =>
    rw [Machine.observe_snoc _ hrun, Machine.observe_snoc _ hrun, List.countP_append,
      List.length_append, ih]
    congr 1
    have hreads' : ∀ raw, ∃ tx, n.behaviour.data_transform.inbound_transform raw = .ok tx := by
      rw [(run_fixed hrun).data_transform]
      exact hreads
    unfold Node.marks Node.receptions
    cases Node.step_cases hstep with
    | called c b' call => exact Behaviour.call_counted hreads' c
    | polled peers no_call _ _ =>
      rw [Op.on_call_eq_nil no_call, Op.on_call_eq_nil no_call]
      rfl

/-! ### The gate -/

/-- The handlers tell only what their codec decoded. -/
def Op.DecodedBy (c : DogCodec) : Op P → Prop
  | call (.on_connection_handler_event _ _ _ (.Transaction rpc invalid)) =>
    ∃ random src rest, c.decode random src = .ok (some (.Transaction rpc invalid), rest)
  | _ => True

/-- A transaction that came from `source`: it was in a frame, and it is authentic. -/
def Vouched (c : Codec) (ops : List (Op P)) (source : P) (raw : RawTransaction P) : Prop :=
  ∃ clock draw random src rest frame rpc invalid transaction,
    c.decode src = .ok (some frame, rest) ∧
    DogCodec.decode_rpc .Strict random frame = .Transaction rpc invalid ∧
    .call (.on_connection_handler_event clock draw source (.Transaction rpc invalid)) ∈ ops ∧
    transaction ∈ frame.txs ∧ raw = DogCodec.raw_transaction raw.from_ transaction ∧
    Authentic transaction raw.from_

/-- Everything that a strict node handles is vouched for. -/
theorem receptions_vouched {s : Setup P F} {n : Node P F} {ops : List (Op P)} {codec : Codec}
    (hrun : s.machine.Run s.node ops n)
    (hdecoded : ∀ op ∈ ops, op.DecodedBy { validation_mode := .Strict, codec }) :
    ∀ r ∈ s.receptions ops, Vouched codec ops r.1 r.2 := by
  refine (Machine.Run.forall_observe_iff hrun).mpr ?_
  rintro before op after m rfl - r hr
  have hmem : op ∈ before ++ op :: after := List.mem_append_right _ List.mem_cons_self
  have hop := hdecoded op hmem
  unfold Node.receptions Op.on_call Behaviour.receptions at hr
  split at hr
  · split at hr
    · rename_i clock draw source rpc invalid
      obtain ⟨raw, hraw, rfl⟩ := List.mem_map.mp hr
      obtain ⟨random, src, rest, hdecode⟩ := hop
      unfold DogCodec.decode at hdecode
      split at hdecode
      · cases hdecode
      · cases hdecode
      · rename_i frame rest' hframe
        have hrpc : DogCodec.decode_rpc .Strict random frame = .Transaction rpc invalid := by
          simp only [Except.ok.injEq, Prod.mk.injEq, Option.some.injEq] at hdecode
          exact hdecode.1
        obtain ⟨outcomes, hjudges, houtcomes⟩ :=
          decode_transactions_judges random 0 frame.txs
        have hvalid : raw ∈ outcomes.filterMap (·.toOption) := by
          unfold DogCodec.decode_rpc at hrpc
          rw [houtcomes] at hrpc
          cases hrpc
          exact m.behaviour.handled_subset hraw
        obtain ⟨transaction, htx, heq, hauthentic⟩ := authentic_of_judged hjudges hvalid
        exact ⟨clock, draw, random, src, rest', frame, rpc, invalid, transaction, hframe, hrpc,
          hmem, htx, heq, hauthentic⟩
    · cases hr
  · cases hr

/-- With strict validation the decoder judges each transaction of a frame, in order, and a node
handles only authentic ones: those that it tells of, puts in its cache as a peer's, counts or
forwards. -/
theorem strict_validation_is_a_gate {s : Setup P F} {n : Node P F} {ops : List (Op P)}
    {codec : Codec} (hmode : s.config.protocol.validation_mode = .Strict)
    (htransform : s.data_transform = IdentityTransform)
    (hrun : s.machine.Run s.node ops n)
    (hdecoded : ∀ op ∈ ops, op.DecodedBy
      { validation_mode := s.config.protocol.validation_mode, codec }) :
    (∀ (random : Nat → P) src frame rest, codec.decode src = .ok (some frame, rest) →
      ∃ outcomes, List.Forall₂ Judges frame.txs outcomes ∧
        DogCodec.decode { validation_mode := s.config.protocol.validation_mode, codec } random src =
          .ok (some (.Transaction
            { transactions := outcomes.filterMap (·.toOption)
              control_msgs := (frame.control.map DogCodec.decode_control).getD [] }
            (outcomes.filterMap invalid?)), rest)) ∧
    (∀ r ∈ s.receptions ops, Vouched codec ops r.1 r.2) ∧
    ((s.pushed ops n).filter (·.isReceived) = (s.receptions ops).map fun (source, raw) =>
      let transaction := { from_ := raw.from_, seqno := raw.seqno, data := raw.data }
      .TransactionReceived source (s.config.transaction_id transaction) transaction) ∧
    (∀ id source, n.behaviour.cache.get id = some source →
      ∃ before c after n₁ n₂, ops = before ++ .call c :: after ∧ s.machine.Run s.node before n₁ ∧
        s.machine.step n₁ (.call c) n₂ ∧ n₁.behaviour.cache.get id ≠ some source ∧
        n₂.behaviour.cache.get id = some source ∧
        ((∃ now data, c = .publish now data) ∧ source = s.behaviour.own_id ∨
          ∃ raw, (source, raw) ∈ s.receptions ops ∧ s.behaviour.id_of raw = some id)) ∧
    (n.behaviour.redundancy_controller.Counts ((s.marks ops).foldl Tally.next ⟨0, 0⟩) ∧
      (s.marks ops).countP (·.isReception) = (s.receptions ops).length) ∧
    ∀ raw ∈ n.behaviour.forwarded, ∃ source, (source, raw) ∈ s.receptions ops := by
  rw [hmode] at hdecoded ⊢
  have hmarked := run_marked hrun
  refine ⟨?_, receptions_vouched hrun hdecoded, ?_, ?_, ⟨?_, ?_⟩, forwarded_of_run hrun⟩
  · intro random src frame rest hframe
    obtain ⟨outcomes, hjudges, houtcomes⟩ := decode_transactions_judges random 0 frame.txs
    refine ⟨outcomes, hjudges, ?_⟩
    unfold DogCodec.decode DogCodec.decode_rpc
    rw [hframe]
    dsimp only
    rw [houtcomes]
  · rw [received_events_of_run hrun, List.map_eq_flatMap]
    congr 1
    funext r
    have hbehaviour : s.behaviour.data_transform = IdentityTransform := htransform
    unfold Behaviour.received_event
    rw [hbehaviour]
    rfl
  · intro id source hget
    obtain ⟨before, c, after, n₁, n₂, rfl, hbefore, hstep, hno, hnew, hcause⟩ := cached_by hrun hget
    refine ⟨before, c, after, n₁, n₂, rfl, hbefore, hstep, hno, hnew, hcause.imp_right ?_⟩
    rintro ⟨raw, hmem, hid⟩
    exact ⟨raw, mem_receptions hbefore hmem, hid⟩
  · rw [hmarked.controller]
    have hcounts : s.behaviour.redundancy_controller.Counts ⟨0, 0⟩ := ⟨rfl, rfl⟩
    exact hcounts.marks (s.marks ops)
  · refine counted_of_run ?_ hrun
    intro raw
    rw [htransform]
    exact ⟨_, rfl⟩

end

namespace Sample

/-- A transaction with a signature that is not its author's. -/
def forged : RawTransaction Peer := { raw 2 1 with signature := some [0] }

/-- A frame of two transactions, one of them forged. -/
def half_forged : proto.RPC := { txs := [forged.into_proto, (raw 1 1).into_proto], control := none }

/-- Peer 3 connects, and the frame arrives. -/
def half_forged_arrives : List (Op Peer) :=
  [connect 3, .call (.on_connection_handler_event (fun _ => 0) 0 ⟨3⟩
    (.Transaction { transactions := [raw 1 1], control_msgs := [] } [(forged, .InvalidSignature)]))]

end Sample

open Sample in
theorem strict_validation_stops_a_forged_transaction :
    ∃ n, (setup 0).machine.Run (setup 0).node half_forged_arrives n ∧
      (setup 0).receptions half_forged_arrives = [(⟨3⟩, raw 1 1)] ∧
      Vouched (codec half_forged) half_forged_arrives ⟨3⟩ (raw 1 1) := by
  have hreceptions : (setup 0).receptions half_forged_arrives = [(⟨3⟩, raw 1 1)] := by
    decide +kernel
  have hrun : (Machine.exec Node.step (setup 0).node half_forged_arrives).map
      (·.behaviour.cache.get (tx_id 1 1)) = some (some ⟨3⟩) := by decide +kernel
  have hjudged : DogCodec.decode_transactions .Strict (fun _ => (⟨0⟩ : Peer)) 0 half_forged.txs =
      ([raw 1 1], [(forged, .InvalidSignature)]) := by decide +kernel
  have hframe : (codec half_forged).decode (frame half_forged) = .ok (some half_forged, []) := by
    simp [codec]
  have hdecoded : ∀ op ∈ half_forged_arrives,
      op.DecodedBy { validation_mode := .Strict, codec := codec half_forged } := by
    intro op hop
    rcases List.mem_cons.mp hop with rfl | hop
    · trivial
    · rw [List.mem_singleton.mp hop]
      refine ⟨fun _ => ⟨0⟩, frame half_forged, [], ?_⟩
      simp only [DogCodec.decode, hframe, DogCodec.decode_rpc, hjudged]
      rfl
  obtain ⟨n, hrun, -⟩ := Machine.exists_run_of_exec hrun
  have hgate := strict_validation_is_a_gate rfl rfl hrun hdecoded
  exact ⟨n, hrun, hreceptions, hgate.2.1 _ (hreceptions ▸ List.mem_singleton.mpr rfl)⟩

end libp2p_dog
