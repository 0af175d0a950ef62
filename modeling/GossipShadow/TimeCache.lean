-- The duplicate cache (time_cache.rs): a map, the list of its keys in the
-- order in which they expire, and the length of both.
import Mathlib.Data.List.TakeWhile
import GossipShadow.Lib.Table
import GossipShadow.Types

namespace libp2p_dog

structure ExpiringEntry (K : Type) where
  key : K
  expiration : Nat
deriving DecidableEq, Repr

structure DuplicateCache (K V : Type) where
  len : Nat
  values : Table K V
  list : List (ExpiringEntry K)
  ttl : Nat

namespace DuplicateCache

variable {K V : Type}

def new (ttl : Nat) : DuplicateCache K V := { len := 0, values := ∅, list := [], ttl }

/-- The entries that a purge at `now` removes: the front of the list, up to the first that is
still alive. -/
def expired (now : Nat) (l : List (ExpiringEntry K)) : List (ExpiringEntry K) :=
  l.takeWhile fun e => decide (e.expiration ≤ now)

theorem expiration_le_of_mem_expired {now : Nat} {l : List (ExpiringEntry K)}
    {e : ExpiringEntry K} (h : e ∈ expired now l) : e.expiration ≤ now := by
  have := List.mem_takeWhile_imp h
  simpa using this

variable [DecidableEq K]

/-- The loop of `remove_expired_values`, over the entries that are left. -/
def remove_expired_loop (now : Nat) :
    List (ExpiringEntry K) → DuplicateCache K V → DuplicateCache K V
  | [], c => { c with list := [] }
  | entry :: rest, c =>
    if entry.expiration > now then { c with list := entry :: rest }
    else
      remove_expired_loop now rest
        { c with len := c.len - 1, values := c.values.erase entry.key }

def remove_expired_values (c : DuplicateCache K V) (now : Nat) : DuplicateCache K V :=
  remove_expired_loop now c.list c

/-- `insert` gives `true` when the key is new. Where `now + ttl` is past the last `Instant` the code
panics; instants have no last one here. -/
def insert (c : DuplicateCache K V) (now : Nat) (key : K) (value : V) :
    Bool × DuplicateCache K V :=
  let c := c.remove_expired_values now
  if key ∈ c.values then (false, c)
  else (true, { c with
    values := c.values.insert key value
    len := c.len + 1
    list := c.list ++ [{ key, expiration := now + c.ttl }] })

def contains (c : DuplicateCache K V) (key : K) : Bool := decide (key ∈ c.values)

def get (c : DuplicateCache K V) (key : K) : Option V := c.values.lookup key

/-! ## What a purge leaves -/

theorem remove_expired_loop_eq (now : Nat) (l : List (ExpiringEntry K))
    (c : DuplicateCache K V) :
    (remove_expired_loop now l c).ttl = c.ttl ∧
    (remove_expired_loop now l c).list = l.dropWhile (fun e => decide (e.expiration ≤ now)) ∧
    ∀ k, (remove_expired_loop now l c).values.lookup k =
      if k ∈ (expired now l).map (·.key) then none else c.values.lookup k := by
  induction l generalizing c with
  | nil => simp [remove_expired_loop, expired]
  | cons entry rest ih =>
    unfold remove_expired_loop
    by_cases h : entry.expiration > now
    · have hle : ¬ entry.expiration ≤ now := by omega
      simp [h, hle, expired]
    · have hle : entry.expiration ≤ now := by omega
      simp only [h, if_false]
      obtain ⟨httl, hlist, hlook⟩ :=
        ih { c with len := c.len - 1, values := c.values.erase entry.key }
      refine ⟨httl, by simpa [hle] using hlist, ?_⟩
      intro k
      rw [hlook k]
      have hexp : expired now (entry :: rest) = entry :: expired now rest := by
        simp [expired, hle]
      rw [hexp, List.map_cons]
      by_cases hk : k = entry.key
      · subst hk
        simp
      · simp [hk, AList.lookup_erase_ne hk]

@[simp] theorem remove_expired_ttl (c : DuplicateCache K V) (now : Nat) :
    (c.remove_expired_values now).ttl = c.ttl := (remove_expired_loop_eq now c.list c).1

theorem remove_expired_list (c : DuplicateCache K V) (now : Nat) :
    (c.remove_expired_values now).list =
      c.list.dropWhile fun e => decide (e.expiration ≤ now) :=
  (remove_expired_loop_eq now c.list c).2.1

theorem lookup_remove_expired (c : DuplicateCache K V) (now : Nat) (k : K) :
    (c.remove_expired_values now).values.lookup k =
      if k ∈ (expired now c.list).map (·.key) then none else c.values.lookup k :=
  (remove_expired_loop_eq now c.list c).2.2 k

/-- No entry has expired, so the purge removes nothing. -/
theorem remove_expired_eq_self {c : DuplicateCache K V} {now : Nat}
    (h : ∀ e ∈ c.list, now < e.expiration) : c.remove_expired_values now = c := by
  obtain ⟨len, values, list, ttl⟩ := c
  unfold remove_expired_values
  cases list with
  | nil => rfl
  | cons entry rest =>
    have : entry.expiration > now := h entry (by simp)
    simp [remove_expired_loop, this]

theorem mem_remove_expired {c : DuplicateCache K V} {now : Nat} {k : K}
    (h : k ∈ (c.remove_expired_values now).values) : k ∈ c.values := by
  rw [Table.mem_iff_lookup] at h ⊢
  obtain ⟨v, hv⟩ := h
  rw [lookup_remove_expired] at hv
  split at hv
  · cases hv
  · exact ⟨v, hv⟩

theorem contains_iff_get {c : DuplicateCache K V} {k : K} :
    c.contains k = true ↔ ∃ v, c.get k = some v := by
  simp only [contains, get, decide_eq_true_eq]
  exact Table.mem_iff_lookup

theorem get_of_not_contains {c : DuplicateCache K V} {k : K} (h : c.contains k = false) :
    c.get k = none := by
  cases hlook : c.get k with
  | none => rfl
  | some v =>
    rw [contains_iff_get.mpr ⟨v, hlook⟩] at h
    cases h

/-! ## The list and the map name the same keys -/

/-- The keys of the list are the keys of the map, each once. -/
structure Good (c : DuplicateCache K V) : Prop where
  mem_iff : ∀ k, k ∈ c.values ↔ k ∈ c.list.map (·.key)
  nodup : (c.list.map (·.key)).Nodup

omit [DecidableEq K] in
theorem good_new (ttl : Nat) : (new ttl : DuplicateCache K V).Good where
  mem_iff := by simp [new]
  nodup := by simp [new]

theorem list_eq_expired_append (c : DuplicateCache K V) (now : Nat) :
    c.list = expired now c.list ++ (c.remove_expired_values now).list := by
  rw [remove_expired_list]
  exact List.takeWhile_append_dropWhile.symm

theorem Good.remove_expired {c : DuplicateCache K V} (h : c.Good) (now : Nat) :
    (c.remove_expired_values now).Good := by
  have hnd := h.nodup
  rw [list_eq_expired_append c now, List.map_append, List.nodup_append] at hnd
  refine ⟨?_, hnd.2.1⟩
  intro k
  have hk := h.mem_iff k
  rw [list_eq_expired_append c now, List.map_append, List.mem_append] at hk
  rw [← AList.lookup_isSome, lookup_remove_expired]
  by_cases hexp : k ∈ (expired now c.list).map (·.key)
  · simp only [hexp, if_true, Option.isSome_none, Bool.false_eq_true, false_iff]
    intro hmem
    exact hnd.2.2 k hexp k hmem rfl
  · rw [if_neg hexp, AList.lookup_isSome, hk]
    simp [hexp]

/-- What `insert` does, from its answer. -/
theorem insert_spec (c : DuplicateCache K V) (now : Nat) (key : K) (value : V) :
    (key ∈ (c.remove_expired_values now).values ∧
      c.insert now key value = (false, c.remove_expired_values now)) ∨
    (key ∉ (c.remove_expired_values now).values ∧ (c.insert now key value).1 = true ∧
      (c.insert now key value).2.values = (c.remove_expired_values now).values.insert key value ∧
      (c.insert now key value).2.list =
        (c.remove_expired_values now).list ++ [{ key, expiration := now + c.ttl }] ∧
      (c.insert now key value).2.ttl = c.ttl) := by
  unfold insert
  by_cases h : key ∈ (c.remove_expired_values now).values
  · left
    simp [h]
  · right
    simp [h]

@[simp] theorem insert_ttl (c : DuplicateCache K V) (now : Nat) (key : K) (value : V) :
    (c.insert now key value).2.ttl = c.ttl := by
  rcases insert_spec c now key value with ⟨_, h⟩ | ⟨_, _, _, _, h⟩
  · rw [h]; simp
  · exact h

/-- What is in the cache after `insert` was there before, or it is the new entry. -/
theorem get_insert {c : DuplicateCache K V} {now : Nat} {key k : K} {value v : V}
    (h : (c.insert now key value).2.get k = some v) : c.get k = some v ∨ k = key ∧ v = value := by
  have hpurge : ∀ k v, (c.remove_expired_values now).values.lookup k = some v →
      c.get k = some v := by
    intro k v hk
    rw [lookup_remove_expired] at hk
    split at hk
    · cases hk
    · exact hk
  unfold get at h
  rcases insert_spec c now key value with ⟨-, he⟩ | ⟨-, -, hvalues, -⟩
  · rw [he] at h
    exact .inl (hpurge k v h)
  · rw [hvalues] at h
    by_cases hk : k = key
    · subst hk
      rw [AList.lookup_insert] at h
      exact .inr ⟨rfl, (Option.some.inj h).symm⟩
    · rw [AList.lookup_insert_ne hk] at h
      exact .inl (hpurge k v h)

/-- After `insert` the key is in the cache, whatever the answer is. -/
theorem contains_insert_self (c : DuplicateCache K V) (now : Nat) (key : K) (value : V) :
    (c.insert now key value).2.contains key = true := by
  unfold contains
  rcases insert_spec c now key value with ⟨hmem, he⟩ | ⟨-, -, hvalues, -⟩
  · simpa [he] using hmem
  · simp [hvalues]

theorem Good.insert {c : DuplicateCache K V} (h : c.Good) (now : Nat) (key : K) (value : V) :
    (c.insert now key value).2.Good := by
  have hg := h.remove_expired now
  rcases insert_spec c now key value with ⟨_, he⟩ | ⟨hnew, _, hvalues, hlist, _⟩
  · rw [he]; exact hg
  · constructor
    · intro k
      rw [hvalues, hlist, AList.mem_insert, List.map_append, List.mem_append, hg.mem_iff k]
      simp [or_comm]
    · rw [hlist, List.map_append, List.nodup_append]
      refine ⟨hg.nodup, by simp, ?_⟩
      intro a ha b hb
      simp only [List.map_cons, List.map_nil, List.mem_singleton] at hb
      subst hb
      rintro rfl
      exact hnew ((hg.mem_iff _).mpr ha)

/-- With nothing expired, `insert` adds the key if it is new, and else changes nothing. -/
theorem insert_alive {c : DuplicateCache K V} {now : Nat} (h : ∀ e ∈ c.list, now < e.expiration)
    (key : K) (value : V) :
    ((∃ v, c.get key = some v) ∧ c.insert now key value = (false, c)) ∨
    (c.get key = none ∧ (c.insert now key value).1 = true ∧
      (c.insert now key value).2.ttl = c.ttl ∧
      (c.insert now key value).2.list = c.list ++ [{ key, expiration := now + c.ttl }] ∧
      ∀ k, (c.insert now key value).2.get k = if k = key then some value else c.get k) := by
  have hpurge := remove_expired_eq_self h
  rcases insert_spec c now key value with ⟨hmem, he⟩ | ⟨hnew, hanswer, hvalues, hlist, httl⟩
  · rw [hpurge] at hmem he
    exact .inl ⟨Table.mem_iff_lookup.mp hmem, he⟩
  · rw [hpurge] at hnew hvalues hlist
    refine .inr ⟨?_, hanswer, httl, hlist, ?_⟩
    · unfold get
      rwa [← Option.not_isSome_iff_eq_none, AList.lookup_isSome]
    · intro k
      unfold get
      rw [hvalues]
      by_cases hk : k = key
      · subst hk
        simp
      · simp [hk, AList.lookup_insert_ne hk]

end DuplicateCache

end libp2p_dog
