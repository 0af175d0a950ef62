-- Laws of the duplicate cache: it deduplicates within a window of time, and
-- what the read paths make of it.
import Mathlib.Data.List.Induction
import GossipShadow.Lib.Window
import GossipShadow.Acceptance
import GossipShadow.PublishLaws

namespace libp2p_dog

namespace DuplicateCache

open Window

variable {K V : Type} [DecidableEq K]

/-! ## The number of the entries -/

/-- The loop of `remove_expired_values`, with the check of `self.len -= 1` for an underflow. `none`
is the underflow. -/
def remove_expired_checked (now : Nat) :
    List (ExpiringEntry K) → DuplicateCache K V → Option (DuplicateCache K V)
  | [], c => some { c with list := [] }
  | entry :: rest, c =>
    if entry.expiration > now then some { c with list := entry :: rest }
    else if c.len = 0 then none
    else remove_expired_checked now rest
      { c with len := c.len - 1, values := c.values.erase entry.key }

/-- A purge that counts at least the entries of the list does not underflow. -/
theorem remove_expired_checked_eq (now : Nat) (l : List (ExpiringEntry K)) (c : DuplicateCache K V)
    (hlen : l.length ≤ c.len) :
    remove_expired_checked now l c = some (remove_expired_loop now l c) := by
  induction l generalizing c with
  | nil => rfl
  | cons entry rest ih =>
    rw [List.length_cons] at hlen
    unfold remove_expired_checked remove_expired_loop
    by_cases h : entry.expiration > now
    · simp [h]
    · have hpos : c.len ≠ 0 := by omega
      simp only [h, hpos, if_false]
      apply ih
      dsimp only
      omega

theorem remove_expired_loop_len (now : Nat) (l : List (ExpiringEntry K)) (c : DuplicateCache K V)
    (hlen : c.len = l.length) :
    (remove_expired_loop now l c).len = (remove_expired_loop now l c).list.length := by
  induction l generalizing c with
  | nil => simpa [remove_expired_loop] using hlen
  | cons entry rest ih =>
    unfold remove_expired_loop
    by_cases h : entry.expiration > now
    · simp [h, hlen]
    · simp only [h, if_false]
      apply ih
      simp [hlen]

theorem remove_expired_len {c : DuplicateCache K V} (hlen : c.len = c.list.length) (now : Nat) :
    (c.remove_expired_values now).len = (c.remove_expired_values now).list.length :=
  remove_expired_loop_len now c.list c hlen

theorem insert_len {c : DuplicateCache K V} (hlen : c.len = c.list.length) (now : Nat) (key : K)
    (value : V) :
    (c.insert now key value).2.len = (c.insert now key value).2.list.length := by
  have hpurged := remove_expired_len hlen now
  unfold insert
  by_cases h : key ∈ (c.remove_expired_values now).values
  · simp [h, hpurged]
  · simp [h, hpurged]

omit [DecidableEq K] in
/-- The map and the list name the same keys, each once, so there are as many in both. -/
theorem Good.length {c : DuplicateCache K V} (h : c.Good) :
    c.values.entries.length = c.list.length := by
  have hkeys : c.values.keys.Perm (c.list.map (·.key)) := by
    rw [List.perm_ext_iff_of_nodup c.values.keys_nodup h.nodup]
    intro k
    rw [← h.mem_iff k, AList.mem_keys]
  have hlength := hkeys.length_eq
  rwa [AList.keys, List.keys, List.length_map, List.length_map] at hlength

/-! ## A sequence of inserts -/

def insert_all (c : DuplicateCache K V) (offers : List (Offer K V)) : DuplicateCache K V :=
  offers.foldl (fun c o => (c.insert o.time o.key o.value).2) c

/-- The cache after a sequence of inserts. -/
def after (ttl : Nat) (offers : List (Offer K V)) : DuplicateCache K V :=
  (new ttl).insert_all offers

theorem insert_all_append (c : DuplicateCache K V) (offers rest : List (Offer K V)) :
    c.insert_all (offers ++ rest) = (c.insert_all offers).insert_all rest := List.foldl_append

/-- The inserts that returned `true`. -/
def accepted (c : DuplicateCache K V) : List (Offer K V) → List (Offer K V)
  | [] => []
  | o :: offers =>
    (if (c.insert o.time o.key o.value).1 then [o] else []) ++
      (c.insert o.time o.key o.value).2.accepted offers

@[simp] theorem after_snoc (ttl : Nat) (offers : List (Offer K V)) (o : Offer K V) :
    after ttl (offers ++ [o]) = ((after ttl offers).insert o.time o.key o.value).2 := by
  rw [after, insert_all_append]
  rfl

theorem accepted_append (c : DuplicateCache K V) (offers rest : List (Offer K V)) :
    c.accepted (offers ++ rest) = c.accepted offers ++ (c.insert_all offers).accepted rest := by
  induction offers generalizing c with
  | nil => rfl
  | cons o offers ih =>
    simp only [List.cons_append, accepted, ih, List.append_assoc]
    rfl

theorem accepted_snoc (ttl : Nat) (offers : List (Offer K V)) (o : Offer K V) :
    (new ttl).accepted (offers ++ [o]) = (new ttl).accepted offers ++
      if ((after ttl offers).insert o.time o.key o.value).1 then [o] else [] := by
  rw [accepted_append]
  simp only [accepted, List.append_nil]
  rfl

/-! ## The cache follows the window -/

/-- The entry of an accepted insert. -/
def entry (ttl : Nat) (o : Offer K V) : ExpiringEntry K :=
  { key := o.key, expiration := o.time + ttl }

/-- The cache at `now`, when it has accepted the offers of the log: the ones that it has forgotten
are too old, and its list holds the others. -/
structure Follows (ttl : Nat) (log : List (Offer K V)) (now : Nat) (c : DuplicateCache K V) :
    Prop where
  ttl_eq : c.ttl = ttl
  len : c.len = c.list.length
  good : c.Good
  ordered : InOrder log
  past : ∀ o ∈ log, o.time ≤ now
  kept : ∃ gone kept, log = gone ++ kept ∧ (∀ o ∈ gone, old ttl now o = true) ∧
    c.list = kept.map (entry ttl) ∧ ∀ o ∈ kept, c.get o.key = some o.value

theorem follows_new (ttl : Nat) : Follows ttl [] 0 (new ttl : DuplicateCache K V) where
  ttl_eq := by simp [new]
  len := by simp [new]
  good := good_new ttl
  ordered := List.Pairwise.nil
  past := by simp
  kept := ⟨[], [], by simp [new]⟩

theorem lookup_purged_of_mem {c : DuplicateCache K V} {now : Nat} {k : K}
    (h : k ∈ (c.remove_expired_values now).values) :
    (c.remove_expired_values now).get k = c.get k := by
  obtain ⟨v, hv⟩ := Table.mem_iff_lookup.mp h
  unfold get
  rw [lookup_remove_expired] at hv ⊢
  split at hv
  · cases hv
  · rename_i hnot
    rw [if_neg hnot]

/-- A purge forgets what is too old, and nothing else. -/
theorem Follows.purge {c : DuplicateCache K V} {ttl now : Nat} {log : List (Offer K V)}
    (h : Follows ttl log now c) {later : Nat} (hlater : now ≤ later) :
    ∃ gone kept, log = gone ++ kept ∧ (∀ o ∈ gone, old ttl later o = true) ∧
      (c.remove_expired_values later).list = kept.map (entry ttl) ∧
      (∀ o ∈ kept, old ttl later o = false) ∧
      ∀ o ∈ kept, (c.remove_expired_values later).get o.key = some o.value := by
  obtain ⟨gone, kept, hlog, hgone, hlist, hget⟩ := h.kept
  have hsplit : kept = kept.takeWhile (old ttl later) ++ kept.dropWhile (old ttl later) :=
    List.takeWhile_append_dropWhile.symm
  have hpurged : (c.remove_expired_values later).list =
      (kept.dropWhile (old ttl later)).map (entry ttl) := by
    rw [remove_expired_list, hlist, List.dropWhile_map]
    rfl
  refine ⟨gone ++ kept.takeWhile (old ttl later), kept.dropWhile (old ttl later), ?_, ?_, hpurged,
    ?_, ?_⟩
  · rw [List.append_assoc, ← hsplit, hlog]
  · intro o ho
    rcases List.mem_append.mp ho with ho | ho
    · exact old_mono hlater (hgone o ho)
    · exact List.mem_takeWhile_imp ho
  · intro o ho
    have hordered := h.ordered
    rw [hlog, InOrder, List.pairwise_append] at hordered
    exact young_of_mem_dropWhile hordered.2.1 ho
  · intro o ho
    have hmem : o.key ∈ (c.remove_expired_values later).values := by
      rw [(h.good.remove_expired later).mem_iff, hpurged, List.map_map]
      exact List.mem_map.mpr ⟨o, ho, rfl⟩
    rw [lookup_purged_of_mem hmem]
    exact hget o ((List.dropWhile_suffix _).subset ho)

/-- After a purge, the keys that are left are the recent ones. -/
theorem Follows.mem_purged_iff {c : DuplicateCache K V} {ttl now : Nat} {log : List (Offer K V)}
    (h : Follows ttl log now c) {later : Nat} (hlater : now ≤ later) (key : K) :
    key ∈ (c.remove_expired_values later).values ↔ Recent ttl log later key := by
  obtain ⟨gone, kept, hlog, hgone, hlist, hyoung, -⟩ := h.purge hlater
  rw [hlog, recent_append_iff hgone, recent_iff_mem hyoung, (h.good.remove_expired later).mem_iff,
    hlist, List.map_map]
  rfl

theorem Follows.insert_iff {c : DuplicateCache K V} {ttl now : Nat} {log : List (Offer K V)}
    (h : Follows ttl log now c) {later : Nat} (hlater : now ≤ later) (key : K) (value : V) :
    (c.insert later key value).1 = true ↔ ¬ Recent ttl log later key := by
  rw [← h.mem_purged_iff hlater key]
  rcases insert_spec c later key value with ⟨hmem, he⟩ | ⟨hnew, hanswer, -⟩
  · simp [he, hmem]
  · simp [hanswer, hnew]

theorem Follows.insert {c : DuplicateCache K V} {ttl now : Nat} {log : List (Offer K V)}
    (h : Follows ttl log now c) {o : Offer K V} (hnow : now ≤ o.time) :
    Follows ttl (log ++ if (c.insert o.time o.key o.value).1 then [o] else []) o.time
      (c.insert o.time o.key o.value).2 := by
  have hpast : ∀ other ∈ log, other.time ≤ o.time := by
    intro other hother
    exact Nat.le_trans (h.past other hother) hnow
  obtain ⟨gone, kept, hlog, hgone, hlist, hyoung, hget⟩ := h.purge hnow
  have hlen := insert_len h.len o.time o.key o.value
  have hgood := h.good.insert o.time o.key o.value
  have httl : (c.insert o.time o.key o.value).2.ttl = ttl := by rw [insert_ttl, h.ttl_eq]
  rcases insert_spec c o.time o.key o.value with ⟨-, he⟩ | ⟨hnew, hanswer, hvalues, hadded, -⟩
  · rw [he] at hlen hgood httl ⊢
    simp only [Bool.false_eq_true, if_false, List.append_nil]
    exact ⟨httl, hlen, hgood, h.ordered, hpast, gone, kept, hlog, hgone, hlist, hget⟩
  · rw [if_pos hanswer]
    refine ⟨httl, hlen, hgood, h.ordered.snoc hpast, ?_, gone, kept ++ [o], ?_, hgone, ?_, ?_⟩
    · intro other hother
      rcases List.mem_append.mp hother with hother | hother
      · exact hpast other hother
      · rw [List.mem_singleton.mp hother]
    · rw [hlog, List.append_assoc]
    · rw [hadded, hlist, h.ttl_eq, List.map_append]
      rfl
    · intro other hother
      unfold DuplicateCache.get
      rw [hvalues]
      rcases List.mem_append.mp hother with hother | hother
      · have hother' : other.key ≠ o.key := by
          intro hsame
          apply hnew
          rw [← hsame]
          exact Table.mem_iff_lookup.mpr ⟨_, hget other hother⟩
        rw [AList.lookup_insert_ne hother']
        exact hget other hother
      · rw [List.mem_singleton.mp hother, AList.lookup_insert]

/-- After inserts in the order of their times, the cache follows the window of those that it
accepted. -/
theorem follows_after (ttl : Nat) {offers : List (Offer K V)} (hordered : InOrder offers) :
    ∃ last, Follows ttl ((new ttl).accepted offers) last (after ttl offers) ∧
      ∀ now, (∀ o ∈ offers, o.time ≤ now) → last ≤ now := by
  induction offers using List.reverseRecOn with
  | nil => exact ⟨0, follows_new ttl, fun now _ => Nat.zero_le now⟩
  | append_singleton offers o ih =>
    obtain ⟨hordered, -, hlast⟩ := List.pairwise_append.mp hordered
    obtain ⟨last, hfollows, hleast⟩ := ih hordered
    have hle : last ≤ o.time :=
      hleast o.time fun other hother => hlast other hother o (List.mem_singleton_self o)
    refine ⟨o.time, ?_, fun now hpast => hpast o (by simp)⟩
    rw [accepted_snoc, after_snoc]
    exact hfollows.insert hle

theorem Follows.sorted {c : DuplicateCache K V} {ttl now : Nat} {log : List (Offer K V)}
    (h : Follows ttl log now c) : c.list.Pairwise fun a b => a.expiration ≤ b.expiration := by
  obtain ⟨gone, kept, hlog, -, hlist, -⟩ := h.kept
  have hordered := h.ordered
  rw [hlog, InOrder, List.pairwise_append] at hordered
  rw [hlist, List.pairwise_map]
  apply hordered.2.1.imp
  intro a b hle
  simp only [entry]
  omega

theorem Follows.latest {c : DuplicateCache K V} {ttl now : Nat} {log : List (Offer K V)}
    (h : Follows ttl log now c) {key : K} {value : V} (hget : c.get key = some value) :
    Latest log key value := by
  obtain ⟨gone, kept, hlog, -, hlist, hvalues⟩ := h.kept
  have hmem : key ∈ c.list.map (·.key) := by
    rw [← h.good.mem_iff]
    exact Table.mem_iff_lookup.mpr ⟨value, hget⟩
  have hnodup := h.good.nodup
  rw [hlist, List.map_map] at hmem hnodup
  obtain ⟨o, ho, rfl⟩ := List.mem_map.mp hmem
  have hvalue : some o.value = some value := (hvalues o ho).symm.trans hget
  rw [← Option.some.inj hvalue, hlog]
  exact latest_of_mem_kept hnodup ho

/-- The counter, the map and the list are in step. -/
structure InStep (c : DuplicateCache K V) : Prop where
  len_list : c.len = c.list.length
  len_values : c.len = c.values.entries.length
  distinct : (c.list.map (·.key)).Nodup
  same_keys : ∀ k, k ∈ c.list.map (·.key) ↔ k ∈ c.values
  sorted : c.list.Pairwise fun a b => a.expiration ≤ b.expiration

theorem Follows.inStep {c : DuplicateCache K V} {ttl now : Nat} {log : List (Offer K V)}
    (h : Follows ttl log now c) : c.InStep where
  len_list := h.len
  len_values := h.len.trans h.good.length.symm
  distinct := h.good.nodup
  same_keys k := (h.good.mem_iff k).symm
  sorted := h.sorted

/-- After any inserts in the order of their times: the counter, the map and the list are in step,
and a purge does not underflow; the next insert is accepted when none of its key was accepted less
than `ttl` before; and the value of a key is the one of its last accepted insert. -/
theorem inserts_are_deduplicated_within_the_window (ttl : Nat) {offers : List (Offer K V)}
    (hordered : InOrder offers) :
    (after ttl offers).InStep ∧
    (∀ now, (∀ o ∈ offers, o.time ≤ now) →
      remove_expired_checked now (after ttl offers).list (after ttl offers) =
        some ((after ttl offers).remove_expired_values now) ∧
      ∀ key value, ((after ttl offers).insert now key value).1 = true ↔
        ∀ o ∈ (new ttl).accepted offers, o.key = key → ¬ now < o.time + ttl) ∧
    ∀ key value, (after ttl offers).get key = some value →
      Latest ((new ttl).accepted offers) key value := by
  obtain ⟨last, hfollows, hleast⟩ := follows_after ttl hordered
  refine ⟨hfollows.inStep, ?_, fun key value => hfollows.latest⟩
  intro now hpast
  have hle := hleast now hpast
  refine ⟨remove_expired_checked_eq now _ _ hfollows.len.ge, ?_⟩
  intro key value
  rw [hfollows.insert_iff hle]
  constructor
  · intro hold o ho hkey hlt
    exact hold ⟨o, ho, hkey, hlt⟩
  · rintro hold ⟨o, ho, hkey, hlt⟩
    exact hold o ho hkey hlt

/-- A key comes again within the window, at its end, and within the next one. -/
theorem three_inserts_are_deduplicated_within_the_window :
    let offers : List (Offer Nat Nat) := [⟨0, 1, 10⟩, ⟨29, 1, 11⟩, ⟨30, 1, 12⟩]
    (after 30 offers).InStep ∧ ((after 30 offers).insert 59 1 13).1 = false ∧
      Latest ((new 30).accepted offers) 1 12 := by
  intro offers
  have hordered : InOrder offers := by
    unfold InOrder
    decide
  obtain ⟨hstep, hinsert, hlatest⟩ := inserts_are_deduplicated_within_the_window 30 hordered
  refine ⟨hstep, ?_, hlatest 1 12 (by decide)⟩
  rw [Bool.eq_false_iff, Ne, (hinsert 59 (by decide)).2 1 13]
  intro hold
  exact hold ⟨30, 1, 12⟩ (by decide) rfl (by decide)

/-! ## The read paths -/

/-- The read paths, which do not purge, and an insert at `now` say the same of a key: whether it is
recent. -/
structure Agrees (c : DuplicateCache K V) (now : Nat) (key : K) (recent : Prop) : Prop where
  contains : c.contains key = true ↔ recent
  get : (∃ value, c.get key = some value) ↔ recent
  insert : ∀ value, (c.insert now key value).1 = false ↔ recent

/-- An entry that is still in the list has expired. -/
def Stale (c : DuplicateCache K V) (now : Nat) (key : K) : Prop :=
  ∃ e ∈ c.list, e.key = key ∧ e.expiration ≤ now

theorem Follows.contains_iff {c : DuplicateCache K V} {ttl now : Nat} {log : List (Offer K V)}
    (h : Follows ttl log now c) {later : Nat} (hlater : now ≤ later) (key : K) :
    c.contains key = true ↔ Recent ttl log later key ∨ c.Stale later key := by
  rw [← h.mem_purged_iff hlater key, contains, decide_eq_true_eq]
  constructor
  · intro hmem
    by_cases hpurged : key ∈ (c.remove_expired_values later).values
    · exact .inl hpurged
    · obtain ⟨e, he, hkey⟩ := List.mem_map.mp ((h.good.mem_iff key).mp hmem)
      rw [list_eq_expired_append c later] at he
      rcases List.mem_append.mp he with he' | he'
      · rw [← list_eq_expired_append] at he
        exact .inr ⟨e, he, hkey, expiration_le_of_mem_expired he'⟩
      · rw [(h.good.remove_expired later).mem_iff] at hpurged
        exact absurd (List.mem_map.mpr ⟨e, he', hkey⟩) hpurged
  · rintro (hpurged | ⟨e, he, hkey, -⟩)
    · exact mem_remove_expired hpurged
    · exact (h.good.mem_iff key).mpr (List.mem_map.mpr ⟨e, he, hkey⟩)

/-- A key is not both recent and stale: it is in the list once. -/
theorem Follows.not_recent_of_stale {c : DuplicateCache K V} {ttl now : Nat}
    {log : List (Offer K V)} (h : Follows ttl log now c) {later : Nat} (hlater : now ≤ later)
    {key : K} (hstale : c.Stale later key) : ¬ Recent ttl log later key := by
  rw [← h.mem_purged_iff hlater key, (h.good.remove_expired later).mem_iff, List.mem_map]
  rintro ⟨e', he', hkey'⟩
  obtain ⟨e, he, hkey, hexpired⟩ := hstale
  have hsame : e = e' := by
    apply List.inj_on_of_nodup_map h.good.nodup he _ (hkey.trans hkey'.symm)
    rw [list_eq_expired_append c later]
    exact List.mem_append_right _ he'
  obtain ⟨gone, kept, -, -, hlist, hyoung, -⟩ := h.purge hlater
  rw [hlist] at he'
  obtain ⟨o, ho, ho'⟩ := List.mem_map.mp he'
  have hlt := hyoung o ho
  simp only [old, decide_eq_false_iff_not] at hlt
  rw [hsame, ← ho'] at hexpired
  exact hlt hexpired

theorem Follows.agrees_iff {c : DuplicateCache K V} {ttl now : Nat} {log : List (Offer K V)}
    (h : Follows ttl log now c) {later : Nat} (hlater : now ≤ later) (key : K) :
    c.Agrees later key (Recent ttl log later key) ↔ ¬ c.Stale later key := by
  have hcontains := h.contains_iff hlater key
  constructor
  · intro hagrees hstale
    exact h.not_recent_of_stale hlater hstale
      (hagrees.contains.mp (hcontains.mpr (.inr hstale)))
  · intro hfresh
    have hread : c.contains key = true ↔ Recent ttl log later key := by
      rw [hcontains, or_iff_left hfresh]
    refine ⟨hread, contains_iff_get.symm.trans hread, ?_⟩
    intro value
    rw [Bool.eq_false_iff, Ne, h.insert_iff hlater key value, Classical.not_not]

end DuplicateCache

section

open Window

variable {P F : Type} [Libp2p P] [DecidableEq P]

namespace Behaviour

/-! ## The cache of a node -/

/-- The inserts that the transactions of an RPC make, from number `count`. -/
def transactions_offers (b : Behaviour P F) (clock : Nat → Nat) (source : P) :
    Nat → List (RawTransaction P) → List (Offer TransactionId P)
  | _, [] => []
  | count, raw :: rest =>
    if b.config.max_transactions_per_rpc.any (fun max => decide (count ≥ max)) then []
    else ((b.id_of raw).map fun tx_id => ⟨clock count, tx_id, source⟩).toList ++
      b.transactions_offers clock source (count + 1) rest

variable [Schema]

/-- The inserts of a call. -/
def offers (b : Behaviour P F) : Call P → List (Offer TransactionId P)
  | .publish now data =>
    match b.prepare data with
    | some (.ok raw, _) => if b.cache.contains (b.publish_id raw data) then []
      else [⟨now, b.publish_id raw data, b.own_id⟩]
    | _ => []
  | .on_connection_handler_event clock _ source (.Transaction rpc _) =>
    b.transactions_offers clock source 0 rpc.transactions
  | _ => []

theorem publish_offers {b b' : Behaviour P F} {now : Nat} {data : Bytes}
    {answer : Except PublishError TransactionId} (h : b.publish now data = some (answer, b')) :
    b'.cache = b.cache.insert_all (b.offers (.publish now data)) := by
  cases publish_outcome h with
  | unmade e c prepare => simp [offers, prepare, DuplicateCache.insert_all]
  | duplicate raw c prepare known => simp [offers, prepare, known, DuplicateCache.insert_all]
  | offered raw c _ prepare fresh cache _ _ =>
    simp [offers, prepare, fresh, cache, DuplicateCache.insert_all]

theorem received_offers (b : Behaviour P F) (now : Nat) (raw : RawTransaction P) (source : P) :
    (b.handle_received_transaction now raw source).cache = b.cache.insert_all
      ((b.id_of raw).map fun tx_id => (⟨now, tx_id, source⟩ : Offer TransactionId P)).toList := by
  cases received_spec b now raw source with
  | invalid e inbound _ _ cache =>
    rw [id_of_unread inbound]
    exact cache
  | duplicate tx tx_id inbound tx_id_eq _ cache _ =>
    rw [id_of_read inbound, ← tx_id_eq]
    exact cache
  | first_time tx tx_id _ inbound tx_id_eq _ cache _ _ _ =>
    rw [id_of_read inbound, ← tx_id_eq]
    exact cache

theorem received_frame (b : Behaviour P F) (now : Nat) (raw : RawTransaction P) (source : P) :
    (b.handle_received_transaction now raw source).config = b.config ∧
      (b.handle_received_transaction now raw source).data_transform = b.data_transform := by
  obtain ⟨_, hsends, -⟩ := received_router b now raw source
  exact ⟨hsends.config, hsends.data_transform⟩

omit [DecidableEq P] [Schema] in
theorem transactions_offers_congr {b b' : Behaviour P F} (hconfig : b'.config = b.config)
    (htransform : b'.data_transform = b.data_transform) (clock : Nat → Nat) (source : P)
    (count : Nat) (raws : List (RawTransaction P)) :
    b'.transactions_offers clock source count raws =
      b.transactions_offers clock source count raws := by
  induction raws generalizing count with
  | nil => rfl
  | cons raw raws ih =>
    simp only [transactions_offers, ih, id_of_congr hconfig htransform, hconfig]

theorem handle_transactions_offers (b : Behaviour P F) (clock : Nat → Nat) (source : P)
    (count : Nat) (raws : List (RawTransaction P)) :
    (b.handle_transactions clock source count raws).cache =
      b.cache.insert_all (b.transactions_offers clock source count raws) := by
  induction raws generalizing b count with
  | nil => rfl
  | cons raw raws ih =>
    simp only [handle_transactions, transactions_offers]
    split
    · rfl
    · obtain ⟨hconfig, htransform⟩ := received_frame b (clock count) raw source
      rw [ih, received_offers, transactions_offers_congr hconfig htransform,
        DuplicateCache.insert_all_append]

theorem on_rpc_offers (b : Behaviour P F) (clock : Nat → Nat) (draw : Nat) (source : P)
    (rpc : Rpc P) : (b.on_rpc clock draw source rpc).cache =
      b.cache.insert_all (b.transactions_offers clock source 0 rpc.transactions) := by
  apply on_rpc_rule (p := fun b' => b'.cache =
    b.cache.insert_all (b.transactions_offers clock source 0 rpc.transactions))
  · exact handle_transactions_offers b clock source 0 rpc.transactions
  · intro b' h
    exact (handle_have_tx_spec b' (have_tx_ids rpc.control_msgs) source).2.1.trans h
  · intro b' h
    exact (handle_reset_route_spec b' draw source).2.1.trans h

/-- What is in the cache came by the inserts of the calls. -/
theorem call_offers [F64 F] {b b' : Behaviour P F} {c : Call P} (h : b.call c = some b') :
    b'.cache = b.cache.insert_all (b.offers c) := by
  cases call_cases h with
  | published now data answer publish => exact publish_offers publish
  | joined connection_id p call => rcases call with rfl | rfl <;> rfl
  | left now draw p connection_id =>
    obtain ⟨new, hadjust⟩ := adjust_redundancy_accepts (b.disconnect p) now draw
    exact hadjust.cache.trans (disconnect_spec b p).2.2.2.2.1
  | rpc clock draw source rpc invalid => exact on_rpc_offers b clock draw source rpc
  | ticked now draw _ =>
    obtain ⟨new, hadjust⟩ := adjust_redundancy_accepts b now draw
    exact hadjust.cache
  | idle idles _ _ cache _ =>
    have hnone : b.offers c = [] := by
      unfold offers
      split
      · cases idles
      · cases idles
      · rfl
    rw [hnone]
    exact cache

end Behaviour

variable [F64 F] [Schema]

/-- The inserts of a run, in their order. -/
def Setup.offers (s : Setup P F) (ops : List (Op P)) : List (Offer TransactionId P) :=
  Machine.observe Node.step (fun n op => op.on_call n.behaviour.offers) s.node ops

/-- The cache of a node is what the inserts of its run made of it. -/
theorem the_cache_holds_the_inserts_of_the_run {s : Setup P F} {n : Node P F} {ops : List (Op P)}
    (hrun : s.machine.Run s.node ops n) :
    n.behaviour.cache = DuplicateCache.after s.config.cache_time (s.offers ops) := by
  apply Machine.Run.observe_invariant (p := fun seen (n : Node P F) =>
    n.behaviour.cache = DuplicateCache.after s.config.cache_time seen) hrun
  · rfl
  intro seen n op n' hn hstep
  cases Node.step_cases hstep with
  | called c b' call =>
    rw [DuplicateCache.after, DuplicateCache.insert_all_append, ← DuplicateCache.after, ← hn]
    exact Behaviour.call_offers call
  | polled peers no_call _ same =>
    rw [Op.on_call_eq_nil no_call, List.append_nil, same]
    exact hn

namespace Behaviour

/-! ## Who reads the cache -/

/-- The receive path takes the id for one that it has received, whoever sends it. -/
def TakesForReceived (b : Behaviour P F) (now : Nat) (tx_id : TransactionId) : Prop :=
  ∀ source, (b.cache.insert now tx_id source).1 = false

/-- `publish` refuses an id as a duplicate, and `handle_have_tx` disables a route for it, only when
the receive path takes it for received. -/
structure UsersAgree (b : Behaviour P F) (now : Nat) (tx_id : TransactionId) : Prop where
  publish : ∀ data raw c b', b.prepare data = some (.ok raw, c) → b.publish_id raw data = tx_id →
    b.publish now data = some (.error .Duplicate, b') → b.TakesForReceived now tx_id
  have_tx : ∀ source, (b.handle_have_tx_id source tx_id).router ≠ b.router →
    b.TakesForReceived now tx_id

omit [F64 F] in
/-- The read paths of the cache, their users and the receive path agree on an id exactly when no
entry of the id that has expired is still in the cache. -/
theorem the_users_of_the_cache_agree_iff {ttl now : Nat}
    {offers : List (Offer TransactionId P)} (hordered : InOrder offers)
    (hpast : ∀ o ∈ offers, o.time ≤ now) {b : Behaviour P F}
    (hcache : b.cache = DuplicateCache.after ttl offers) (tx_id : TransactionId) :
    (b.cache.Agrees now tx_id
        (∃ o ∈ (DuplicateCache.new ttl).accepted offers, o.key = tx_id ∧ now < o.time + ttl) ∧
      b.UsersAgree now tx_id) ↔ ¬ b.cache.Stale now tx_id := by
  obtain ⟨last, hfollows, hleast⟩ := DuplicateCache.follows_after ttl hordered
  rw [← hcache] at hfollows
  have hiff := hfollows.agrees_iff (hleast now hpast) tx_id
  constructor
  · rintro ⟨hagrees, -⟩
    exact hiff.mp hagrees
  · intro hfresh
    have hagrees := hiff.mpr hfresh
    refine ⟨hagrees, ?_, ?_⟩
    · intro data raw c b' hprepare hid hpublish source
      have hknown := known_of_duplicate hprepare hpublish
      rw [hid, hagrees.contains] at hknown
      exact (hagrees.insert source).mpr hknown
    · intro peer hrouter source
      have hget : ∃ source, b.cache.get tx_id = some source := by
        by_contra hnone
        rw [not_exists] at hnone
        apply hrouter
        rw [(handle_have_tx_id_spec b peer tx_id).2.2, have_tx_route]
        have hnone : b.cache.get tx_id = none := Option.eq_none_iff_forall_ne_some.mpr hnone
        simp [hnone]
      exact (hagrees.insert source).mpr (hagrees.get.mp hget)

end Behaviour

end

/-- Transaction 1 of peer 1 arrives at time 0. -/
def one_arrival : List (Op Sample.Peer) :=
  [Sample.connect 1, Sample.deliver 1 [Sample.raw 1 1] []]

theorem one_arrival_offers :
    (Sample.setup 0).offers one_arrival = [⟨0, Sample.tx_id 1 1, { number := 1 }⟩] := by
  decide +kernel

theorem the_users_of_the_cache_agree_within_its_window :
    ∃ n, (Sample.setup 0).machine.Run (Sample.setup 0).node one_arrival n ∧
      n.behaviour.cache.contains (Sample.tx_id 1 1) = true ∧
      n.behaviour.UsersAgree (from_secs 29) (Sample.tx_id 1 1) := by
  have hrun : (Machine.exec Node.step (Sample.setup 0).node one_arrival).map (fun n =>
      (n.behaviour.cache.contains (Sample.tx_id 1 1), n.behaviour.cache.list)) =
      some (true, [⟨Sample.tx_id 1 1, from_secs 30⟩]) := by decide +kernel
  obtain ⟨n, hrun, hsee⟩ := Machine.exists_run_of_exec hrun
  obtain ⟨hcontains, hlist⟩ := Prod.mk.inj hsee
  have hcache := the_cache_holds_the_inserts_of_the_run hrun
  rw [one_arrival_offers] at hcache
  refine ⟨n, hrun, hcontains, ?_⟩
  refine ((Behaviour.the_users_of_the_cache_agree_iff (List.pairwise_singleton _ _) ?_ hcache
    (Sample.tx_id 1 1)).mpr ?_).2
  · simp
  · rintro ⟨e, he, -, hexpired⟩
    rw [hlist, List.mem_singleton] at he
    subst he
    exact absurd hexpired (by decide)

/-- A HaveTx for the transaction comes 31 seconds later: it disables a route, and the transaction
itself would be taken for a new one. -/
theorem a_have_tx_disables_a_route_for_an_id_that_expired :
    ¬ ∀ (ttl now : Nat) (offers : List (Window.Offer TransactionId Sample.Peer)),
      Window.InOrder offers → (∀ o ∈ offers, o.time ≤ now) →
      ∀ b : Behaviour Sample.Peer Rat, b.cache = DuplicateCache.after ttl offers →
        ∀ tx_id, b.cache.Agrees now tx_id (∃ o ∈ (DuplicateCache.new ttl).accepted offers,
          o.key = tx_id ∧ now < o.time + ttl) ∧ b.UsersAgree now tx_id := by
  intro hclaim
  have hrun : (Machine.exec Node.step (Sample.setup 0).node one_arrival).map (fun n =>
      ((n.behaviour.handle_have_tx_id { number := 2 } (Sample.tx_id 1 1)).router.disabled_routes,
        n.behaviour.router.disabled_routes,
        (n.behaviour.cache.insert (from_secs 31) (Sample.tx_id 1 1) { number := 2 }).1)) =
      some ([⟨⟨1⟩, ⟨2⟩⟩], [], true) := by decide +kernel
  obtain ⟨n, hrun, hsee⟩ := Machine.exists_run_of_exec hrun
  simp only [Prod.mk.injEq] at hsee
  obtain ⟨hafter, hbefore, hinsert⟩ := hsee
  have hcache := the_cache_holds_the_inserts_of_the_run hrun
  rw [one_arrival_offers] at hcache
  obtain ⟨-, husers⟩ :=
    hclaim _ (from_secs 31) _ (List.pairwise_singleton _ _) (by simp) n.behaviour
    hcache (Sample.tx_id 1 1)
  have hrouter : (n.behaviour.handle_have_tx_id { number := 2 } (Sample.tx_id 1 1)).router ≠
      n.behaviour.router := by
    intro hsame
    rw [hsame, hbefore] at hafter
    cases hafter
  have hreceived := husers.have_tx { number := 2 } hrouter { number := 2 }
  rw [hinsert] at hreceived
  cases hreceived

end libp2p_dog
