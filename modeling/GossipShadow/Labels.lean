-- What the attempts of a node carry: each transaction that it tries to send is
-- its own, made by publish, or one that it handled, and the attempt bears the
-- id of it.
import GossipShadow.OwnLaws
import GossipShadow.PublishLaws

namespace libp2p_dog

section

variable {P F : Type} [Libp2p P] [DecidableEq P]

/-! ## What a call makes and handles -/

/-- The transaction that a call of `publish` makes, with the data that it was given. -/
def Behaviour.made [Schema] (b : Behaviour P F) : Call P → List (RawTransaction P × Bytes)
  | .publish _ data =>
    match b.prepare data with
    | some (.ok raw, _) => [(raw, data)]
    | _ => []
  | _ => []

/-- The transactions that a call brings into the node: those that it makes and those that it
handles. -/
def Behaviour.brought [Schema] (b : Behaviour P F) (c : Call P) : List (RawTransaction P) :=
  (b.made c).map (·.1) ++ (b.receptions c).map (·.2)

/-- A call whose attempts carry some of the transactions and bear their ids. -/
structure Labels (b : Behaviour P F) (raws : List (RawTransaction P)) (new : List (Attempt P))
    (b' : Behaviour P F) : Prop where
  sends : Sends b new b'
  labelled : ∀ a ∈ new, ∀ raw, a.rpc.tx? = some raw → raw ∈ raws ∧ a.tx_id = b.id_of raw

theorem Labels.trans {b b' b'' : Behaviour P F} {raws raws' : List (RawTransaction P)}
    {new new' : List (Attempt P)} (h : Labels b raws new b') (h' : Labels b' raws' new' b'') :
    Labels b (raws ++ raws') (new ++ new') b'' := by
  refine ⟨h.sends.trans h'.sends, ?_⟩
  intro a ha raw hraw
  rcases List.mem_append.mp ha with ha | ha
  · obtain ⟨hmem, hid⟩ := h.labelled a ha raw hraw
    exact ⟨List.mem_append_left _ hmem, hid⟩
  · obtain ⟨hmem, hid⟩ := h'.labelled a ha raw hraw
    refine ⟨List.mem_append_right _ hmem, ?_⟩
    rw [hid]
    exact Behaviour.id_of_congr h.sends.config h.sends.data_transform raw

/-- What carries no transaction needs no label. -/
theorem Sends.labels {b b' : Behaviour P F} {new : List (Attempt P)} (h : Sends b new b')
    (hcontrol : ∀ a ∈ new, a.rpc.tx? = .none) : Labels b [] new b' := by
  refine ⟨h, ?_⟩
  intro a ha raw hraw
  rw [hcontrol a ha] at hraw
  cases hraw

theorem Spread.labels {b b' : Behaviour P F} {now : Nat} {tx_id : TransactionId} {rpc : RpcOut P}
    {peers : List P} {new : List (Attempt P)} (h : Spread now tx_id rpc peers new)
    (hsends : Sends b new b') {raw : RawTransaction P} (hraw : rpc.tx? = some raw)
    (hid : b.id_of raw = some tx_id) : Labels b [raw] new b' := by
  refine ⟨hsends, ?_⟩
  intro a ha raw' hraw'
  obtain ⟨-, htx_id, hrpc⟩ := h.all a ha
  rw [hrpc, hraw] at hraw'
  cases hraw'
  exact ⟨List.mem_singleton.mpr rfl, by rw [htx_id, hid]⟩

namespace Behaviour

variable [Schema]

omit [DecidableEq P] in
/-- What `publish` makes: the node's own transaction, with the data in its outbound form. -/
theorem made_spec {b : Behaviour P F} {c : Call P} {raw : RawTransaction P} {data : Bytes}
    (h : (raw, data) ∈ b.made c) :
    raw.from_ = b.own_id ∧ b.data_transform.outbound_transform data = .ok raw.data ∧
      ∃ now config, c = .publish now data ∧ b.prepare data = some (.ok raw, config) := by
  unfold made at h
  split at h
  · rename_i now data'
    split at h
    · rename_i raw' config hprepare
      obtain ⟨rfl, rfl⟩ := Prod.mk.inj (List.mem_singleton.mp h)
      have hparts := hprepare
      unfold prepare at hparts
      split at hparts
      · cases hparts
      · rename_i transformed_data houtbound
        split at hparts
        · cases hparts
        · obtain ⟨hfrom, rfl⟩ := (build_raw_transaction_spec hparts).2 raw rfl
          exact ⟨hfrom, houtbound, now, config, rfl, hprepare⟩
    · cases h
  · cases h

omit [DecidableEq P] in
/-- The id of what was made is the one of the data that was given. -/
theorem id_of_made {b : Behaviour P F} (hlawful : b.data_transform.Lawful) {c : Call P}
    {raw : RawTransaction P} {data : Bytes} (h : (raw, data) ∈ b.made c) :
    b.id_of raw =
      some (b.config.transaction_id { from_ := raw.from_, seqno := raw.seqno, data }) := by
  obtain ⟨-, houtbound, -⟩ := made_spec h
  obtain ⟨from_, seqno, sent, signature, key⟩ := raw
  exact id_of_read (hlawful data sent houtbound _ _ _ _)

/-- What `publish` does, by what it makes: it refuses it, or it caches it and sends it on. -/
theorem publish_made {b b' : Behaviour P F} {now : Nat} {data : Bytes}
    {answer : Except PublishError TransactionId}
    (h : b.publish now data = some (answer, b')) :
    AcceptsNone b [] b' ∨ ∃ raw tx_id new, b.made (.publish now data) = [(raw, data)] ∧
      tx_id = b.config.transaction_id { from_ := raw.from_, seqno := raw.seqno, data } ∧
      Sends b new b' ∧ Spread now tx_id (b.publish_rpc now raw) b.recipients new ∧
      b'.cache = (b.cache.insert now tx_id b.own_id).2 := by
  rw [publish_eq] at h
  obtain ⟨⟨result, config⟩, hprepare, hbuilt⟩ := Option.map_eq_some_iff.mp h
  have hself : config.get_own_id = b.own_id := prepare_own_id hprepare
  have hstart : Sends b [] { b with publish_config := config } := .none rfl rfl hself rfl rfl
  cases result with
  | error e =>
    cases hbuilt
    exact .inl ⟨hstart, by simp, rfl⟩
  | ok raw =>
    simp only [publish_built] at hbuilt
    split at hbuilt
    · cases hbuilt
      exact .inl ⟨hstart, by simp, rfl⟩
    · right
      obtain ⟨new, hsends, hspread, -, hcache⟩ :=
        publish_new_sends { b with publish_config := config }
        now raw { from_ := raw.from_, seqno := raw.seqno, data }
        (b.config.transaction_id { from_ := raw.from_, seqno := raw.seqno, data })
      rw [hbuilt] at hsends hcache
      have hown : ({ b with publish_config := config } : Behaviour P F).own_id = b.own_id := hself
      rw [hown] at hspread hcache
      have hrecipients : b.router.filter_valid_routes b.own_id b.connected_peers.keys =
          b.recipients := recipients_eq b
      rw [hrecipients] at hspread
      refine ⟨raw, _, new, ?_, rfl, hstart.none_trans hsends, hspread, hcache⟩
      simp only [made, hprepare]

theorem publish_labels {b b' : Behaviour P F} {now : Nat} {data : Bytes}
    {answer : Except PublishError TransactionId} (hlawful : b.data_transform.Lawful)
    (h : b.publish now data = some (answer, b')) :
    ∃ new, Labels b (b.brought (.publish now data)) new b' := by
  rcases publish_made h with hnone | ⟨raw, tx_id, new, hmade, tx_id_eq, hsends, hspread, -⟩
  · exact ⟨[], ⟨hnone.sends, by simp⟩⟩
  · have hmem : (raw, data) ∈ b.made (.publish now data) := by
      rw [hmade]
      exact List.mem_singleton.mpr rfl
    have hid := id_of_made hlawful hmem
    rw [← tx_id_eq] at hid
    have hbrought : b.brought (.publish now data) = [raw] := by
      unfold brought
      rw [hmade]
      rfl
    rw [hbrought]
    exact ⟨new, hspread.labels hsends rfl hid⟩

theorem received_labels (b : Behaviour P F) (now : Nat) (raw : RawTransaction P) (source : P) :
    ∃ new, Labels b [raw] new (b.handle_received_transaction now raw source) := by
  cases received_spec b now raw source with
  | invalid e _ sends _ _ => exact ⟨[], ⟨sends, by simp⟩⟩
  | duplicate tx tx_id _ _ _ _ answer =>
    rcases answer with ⟨sends, -⟩ | ⟨sends, -⟩
    · exact ⟨[], ⟨sends, by simp⟩⟩
    · refine ⟨_, sends, ?_⟩
      intro a ha raw' hraw'
      rw [List.mem_singleton.mp ha] at hraw'
      cases hraw'
  | first_time tx tx_id new inbound tx_id_eq _ _ _ sends spread =>
    have hid : b.id_of raw = some tx_id := by rw [id_of_read inbound, tx_id_eq]
    exact ⟨new, spread.labels sends rfl hid⟩

theorem transactions_labels (b : Behaviour P F) (clock : Nat → Nat) (source : P) (count : Nat)
    (raws : List (RawTransaction P)) :
    ∃ new, Labels b (b.handled_from count raws) new
      (b.handle_transactions clock source count raws) := by
  induction raws generalizing b count with
  | nil => exact ⟨[], ⟨Sends.refl b, by simp⟩⟩
  | cons raw raws ih =>
    unfold handle_transactions
    rw [handled_from_cons]
    split
    · exact ⟨[], ⟨Sends.refl b, by simp⟩⟩
    · obtain ⟨new, hnew⟩ := received_labels b (clock count) raw source
      obtain ⟨new', hnew'⟩ :=
        ih (b.handle_received_transaction (clock count) raw source) (count + 1)
      rw [handled_from_received] at hnew'
      exact ⟨new ++ new', hnew.trans hnew'⟩

/-- What a call tries to send, it has made or handled, and the attempts bear the ids. -/
theorem call_labels [F64 F] {b b' : Behaviour P F} {c : Call P} (hlawful : b.data_transform.Lawful)
    (h : b.call c = some b') :
    ∃ new, b'.history = b.history ++ new ∧
      ∀ a ∈ new, ∀ raw, a.rpc.tx? = some raw → raw ∈ b.brought c ∧ a.tx_id = b.id_of raw := by
  have hcontrol : ∀ new : List (Attempt P), (∀ a ∈ new, a.rpc.tx? = none) →
      ∀ a ∈ new, ∀ raw, a.rpc.tx? = some raw → raw ∈ b.brought c ∧ a.tx_id = b.id_of raw := by
    intro new hnew a ha raw hraw
    rw [hnew a ha] at hraw
    cases hraw
  cases call_cases h with
  | published now data answer publish =>
    obtain ⟨new, hnew⟩ := publish_labels hlawful publish
    exact ⟨new, hnew.sends.history, hnew.labelled⟩
  | joined connection_id p _ => exact ⟨[], (List.append_nil _).symm, hcontrol [] (by simp)⟩
  | left now draw p connection_id =>
    obtain ⟨-, -, -, hhistory, -, -, -, -⟩ := disconnect_spec b p
    obtain ⟨new, hnone⟩ := (b.disconnect p).adjust_redundancy_accepts now draw
    have hnew := hnone.sends.history
    rw [hhistory] at hnew
    exact ⟨new, hnew, hcontrol new hnone.control⟩
  | rpc clock draw source rpc invalid =>
    have hrpc : ∃ new,
        Labels b (b.handled rpc.transactions) new (b.on_rpc clock draw source rpc) := by
      apply on_rpc_rule (p := fun b' => ∃ new, Labels b (b.handled rpc.transactions) new b')
      · exact transactions_labels b clock source 0 rpc.transactions
      · rintro b' ⟨new, hnew⟩
        have hsends := (handle_have_tx_spec b' (have_tx_ids rpc.control_msgs) source).1
        have hboth := hnew.trans (hsends.labels (by simp))
        rw [List.append_nil] at hboth
        exact ⟨_, hboth⟩
      · rintro b' ⟨new, hnew⟩
        have hsends := (handle_reset_route_spec b' draw source).1
        have hboth := hnew.trans (hsends.labels (by simp))
        rw [List.append_nil] at hboth
        exact ⟨_, hboth⟩
    obtain ⟨new, hnew⟩ := hrpc
    refine ⟨new, hnew.sends.history, ?_⟩
    intro a ha raw hraw
    obtain ⟨hmem, hid⟩ := hnew.labelled a ha raw hraw
    refine ⟨?_, hid⟩
    simpa [brought, made, receptions] using hmem
  | ticked now draw _ =>
    obtain ⟨new, hnone⟩ := b.adjust_redundancy_accepts now draw
    exact ⟨new, hnone.sends.history, hcontrol new hnone.control⟩
  | idle _ sends _ _ _ => exact ⟨[], sends.history, hcontrol [] (by simp)⟩

/-- What a call adds to the cache, it has made or handled. -/
theorem call_caches [F64 F] {b b' : Behaviour P F} {c : Call P} (hlawful : b.data_transform.Lawful)
    (h : b.call c = some b') {id : TransactionId} {source : P}
    (hget : b'.cache.get id = some source) :
    b.cache.get id = some source ∨ ∃ raw ∈ b.brought c, b.id_of raw = some id := by
  rcases call_gains h with hgains | ⟨⟨now, data, rfl⟩, -, -⟩
  · refine (hgains.cache id source hget).imp_right ?_
    rintro ⟨raw, hmem, hid⟩
    exact ⟨raw, List.mem_append_right _ (List.mem_map.mpr ⟨_, hmem, rfl⟩), hid⟩
  · obtain ⟨⟨answer, after⟩, hpublish, rfl⟩ := Option.map_eq_some_iff.mp h
    rcases publish_made hpublish with hnone | ⟨raw, tx_id, new, hmade, tx_id_eq, -, -, hcache⟩
    · left
      have hcache : after.cache = b.cache := hnone.cache
      rwa [hcache] at hget
    · have hmem : (raw, data) ∈ b.made (.publish now data) := by
        rw [hmade]
        exact List.mem_singleton.mpr rfl
      have hid := id_of_made hlawful hmem
      rw [← tx_id_eq] at hid
      have hcache : after.cache = (b.cache.insert now tx_id b.own_id).2 := hcache
      rw [hcache] at hget
      rcases DuplicateCache.get_insert hget with hold | ⟨rfl, -⟩
      · exact .inl hold
      · exact .inr ⟨raw, List.mem_append_left _ (List.mem_map.mpr ⟨_, hmem, rfl⟩), hid⟩

end Behaviour

variable [F64 F] [Schema]

/-- What a node makes in a step. -/
def Node.made (n : Node P F) (op : Op P) : List (RawTransaction P × Bytes) :=
  op.on_call n.behaviour.made

/-- Every attempt of a run bears the id of its transaction. -/
theorem labelled_of_run {s : Setup P F} (hlawful : s.data_transform.Lawful) {n : Node P F}
    {ops : List (Op P)} (hrun : s.machine.Run s.node ops n) :
    ∀ a ∈ n.behaviour.history, ∀ raw, a.rpc.tx? = some raw → a.tx_id = s.behaviour.id_of raw := by
  have hboth := hrun.invariant (p := fun n => Fixed s.behaviour n.behaviour ∧
    ∀ a ∈ n.behaviour.history, ∀ raw, a.rpc.tx? = some raw → a.tx_id = s.behaviour.id_of raw)
    ⟨⟨rfl, rfl, rfl⟩, by rintro a ⟨⟩⟩ ?_
  · exact hboth.2
  · rintro n op n' ⟨hfixed, hold⟩ hstep
    refine ⟨hfixed.trans (step_fixed hstep), ?_⟩
    cases Node.step_cases hstep with
    | called c b' call =>
      have hlawful' : n.behaviour.data_transform.Lawful := by
        rw [hfixed.data_transform]
        exact hlawful
      obtain ⟨new, hhistory, hnew⟩ := Behaviour.call_labels hlawful' call
      intro a ha raw hraw
      rw [hhistory] at ha
      rcases List.mem_append.mp ha with ha | ha
      · exact hold a ha raw hraw
      · rw [(hnew a ha raw hraw).2, hfixed.id_of]
    | polled peers _ _ same =>
      rw [same]
      exact hold

end

end libp2p_dog
