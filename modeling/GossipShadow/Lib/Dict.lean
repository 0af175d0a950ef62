-- Dictionaries that keep the order in which their keys came, and the
-- dictionaries of lists that a program fills by appending.
import GossipShadow.Lib.Table

namespace Table

variable {K V W α : Type} [DecidableEq K]

/-! ## Assignment -/

/-- Assigns to a key: in its place when it is there, and else after the keys that are. -/
def put (k : K) (v : V) (t : Table K V) : Table K V :=
  if h : k ∈ t then t.replace k v
  else
    { entries := t.entries ++ [⟨k, v⟩]
      nodupKeys := by
        rw [List.nodupKeys_middle, List.append_nil]
        exact List.nodupKeys_cons.mpr ⟨h, t.nodupKeys⟩ }

theorem lookup_put (k k' : K) (v : V) (t : Table K V) :
    (t.put k v).lookup k' = if k' = k then some v else t.lookup k' := by
  unfold put
  split
  · rename_i h
    rw [lookup_replace]
    obtain ⟨w, hw⟩ := mem_iff_lookup.mp h
    split
    · rename_i hk
      rw [hk, hw, Option.map_some]
    · rfl
  · rename_i h
    have hnone : t.entries.dlookup k = none := AList.lookup_eq_none.mpr h
    unfold AList.lookup
    rw [List.dlookup_append]
    by_cases hk : k' = k
    · rw [hk, hnone, if_pos rfl, List.dlookup_cons_eq, Option.none_or]
    · rw [if_neg hk, List.dlookup_cons_ne _ _ hk, List.dlookup_nil, Option.or_none]

theorem entries_put_of_notMem {k : K} {t : Table K V} (h : k ∉ t) (v : V) :
    (t.put k v).entries = t.entries ++ [⟨k, v⟩] := by
  unfold put
  rw [dif_neg h]

theorem mem_put {k k' : K} {v : V} {t : Table K V} : k' ∈ t.put k v ↔ k' = k ∨ k' ∈ t := by
  rw [mem_iff_lookup, mem_iff_lookup, lookup_put]
  by_cases hk : k' = k
  · simp [hk]
  · simp [hk]

/-! ## A dictionary filled by a loop -/

/-- A loop that assigns to each key the value that it has, if any. -/
structure Assigns {L : Type} (key : L → K) (value : L → Option V)
    (turn : Table K V → L → Table K V) : Prop where
  put : ∀ t l v, value l = some v → turn t l = t.put (key l) v
  skip : ∀ t l, value l = none → turn t l = t

theorem Assigns.lookup {L : Type} [DecidableEq L] {key : L → K} {value : L → Option V}
    {turn : Table K V → L → Table K V} (h : Assigns key value turn) (hkey : Function.Injective key)
    (ls : List L) (t : Table K V) (l : L) :
    (ls.foldl turn t).lookup (key l) =
      if l ∈ ls then (value l).or (t.lookup (key l)) else t.lookup (key l) := by
  induction ls generalizing t with
  | nil => simp
  | cons first ls ih =>
    rw [List.foldl_cons, ih]
    by_cases hfirst : l = first
    · subst hfirst
      cases hvalue : value l with
      | none => simp [h.skip t l hvalue]
      | some v => simp [h.put t l v hvalue, lookup_put]
    · have hkeep : (turn t first).lookup (key l) = t.lookup (key l) := by
        cases hvalue : value first with
        | none => rw [h.skip t first hvalue]
        | some v => rw [h.put t first v hvalue, lookup_put, if_neg (hkey.ne hfirst)]
      rw [hkeep]
      simp [hfirst]

/-- No other keys come in. -/
theorem Assigns.mem {L : Type} {key : L → K} {value : L → Option V}
    {turn : Table K V → L → Table K V} (h : Assigns key value turn) {ls : List L} {t : Table K V}
    {k : K} (hk : k ∈ ls.foldl turn t) : k ∈ t ∨ ∃ l ∈ ls, k = key l := by
  induction ls generalizing t with
  | nil => exact Or.inl hk
  | cons first ls ih =>
    rw [List.foldl_cons] at hk
    rcases ih hk with hmem | ⟨l, hl, hkey⟩
    · cases hvalue : value first with
      | none =>
        rw [h.skip t first hvalue] at hmem
        exact Or.inl hmem
      | some v =>
        rw [h.put t first v hvalue] at hmem
        rcases mem_put.mp hmem with hkey | hmem
        · exact Or.inr ⟨first, List.mem_cons_self, hkey⟩
        · exact Or.inl hmem
    · exact Or.inr ⟨l, List.mem_cons_of_mem _ hl, hkey⟩

/-! ## A dictionary built out of another one -/

/-- Assigns to each key of the dictionary what a function that may fail makes of its value. -/
def traverse (f : K → V → Option W) (t : Table K V) : Option (Table K W) :=
  t.entries.foldlM (fun result e => (f e.1 e.2).map fun w => result.put e.1 w) ∅

/-- The loop of `traverse`: the entries are done in order, and each comes last when it is done. -/
theorem entries_foldlM_put (f : K → V → Option W) {l : List ((_ : K) × V)} {acc result : Table K W}
    (hl : l.NodupKeys) (hacc : ∀ e ∈ l, e.1 ∉ acc)
    (h : l.foldlM (fun acc e => (f e.1 e.2).map fun w => acc.put e.1 w) acc = some result) :
    ∃ done, result.entries = acc.entries ++ done ∧
      List.Forall₂ (fun e w => w.1 = e.1 ∧ f e.1 e.2 = some w.2) l done := by
  induction l generalizing acc with
  | nil =>
    cases h
    exact ⟨[], (List.append_nil _).symm, List.Forall₂.nil⟩
  | cons e l ih =>
    obtain ⟨hnew, hrest⟩ := List.nodupKeys_cons.mp hl
    simp only [List.foldlM_cons, Option.bind_eq_bind, Option.bind_eq_some_iff,
      Option.map_eq_some_iff] at h
    obtain ⟨acc', ⟨w, hw, rfl⟩, h⟩ := h
    have hfirst : e.1 ∉ acc := hacc e List.mem_cons_self
    have hlater : ∀ e' ∈ l, e'.1 ∉ acc.put e.1 w := by
      intro e' he' hmem
      rw [mem_iff_lookup, lookup_put] at hmem
      split at hmem
      · rename_i hkey
        exact hnew (hkey ▸ List.mem_keys_of_mem he')
      · exact hacc e' (List.mem_cons_of_mem _ he') (mem_iff_lookup.mpr hmem)
    obtain ⟨done, hdone, hall⟩ := ih hrest hlater h
    rw [entries_put_of_notMem hfirst, List.append_assoc] at hdone
    exact ⟨⟨e.1, w⟩ :: done, hdone, List.Forall₂.cons ⟨rfl, hw⟩ hall⟩

theorem traverse_entries {f : K → V → Option W} {t : Table K V} {result : Table K W}
    (h : t.traverse f = some result) :
    List.Forall₂ (fun e w => w.1 = e.1 ∧ f e.1 e.2 = some w.2) t.entries result.entries := by
  have hacc : ∀ e ∈ t.entries, e.1 ∉ (∅ : Table K W) := fun e _ => AList.notMem_empty e.1
  obtain ⟨done, hdone, hall⟩ := entries_foldlM_put f t.nodupKeys hacc h
  rw [hdone]
  exact hall

/-! ## Dictionaries of lists -/

/-- The list under a key, which is empty when the key is not there. -/
def under (t : Table K (List α)) (k : K) : List α := (t.lookup k).getD []

/-- Appends to the list under a key. -/
def extend (k : K) (as : List α) (t : Table K (List α)) : Table K (List α) :=
  t.put k (t.under k ++ as)

/-- All that the lists hold, with the key that it is under. -/
def items (t : Table K (List α)) : List (K × α) := t.entries.flatMap fun e => e.2.map (e.1, ·)

@[simp] theorem under_empty (k : K) : under (∅ : Table K (List α)) k = [] := rfl

theorem under_extend (k k' : K) (as : List α) (t : Table K (List α)) :
    (t.extend k as).under k' = if k' = k then t.under k ++ as else t.under k' := by
  unfold extend
  rw [under, lookup_put]
  split
  · rfl
  · rfl

theorem items_kreplace {k : K} {old : List α} (as : List α) {l : List ((_ : K) × List α)}
    (h : l.dlookup k = some old) :
    ((List.kreplace k (old ++ as) l).flatMap fun e => e.2.map (e.1, ·)).Perm
      ((l.flatMap fun e => e.2.map (e.1, ·)) ++ as.map (k, ·)) := by
  induction l with
  | nil => cases h
  | cons e l ih =>
    obtain ⟨a, b⟩ := e
    rw [kreplace_cons]
    by_cases hk : k = a
    · subst hk
      obtain rfl : b = old := by simpa using h
      simp only [if_true, List.flatMap_cons, List.map_append, List.append_assoc]
      exact List.Perm.append_left _ List.perm_append_comm
    · rw [List.dlookup_cons_ne _ _ hk] at h
      simp only [if_neg hk, List.flatMap_cons, List.append_assoc]
      exact List.Perm.append_left _ (ih h)

/-- Appending to a list appends to all that the lists hold. -/
theorem items_extend (k : K) (as : List α) (t : Table K (List α)) :
    (t.extend k as).items.Perm (t.items ++ as.map (k, ·)) := by
  unfold extend under
  by_cases hk : k ∈ t
  · obtain ⟨old, hold⟩ := mem_iff_lookup.mp hk
    unfold put
    rw [dif_pos hk, hold]
    exact items_kreplace as hold
  · unfold items
    rw [entries_put_of_notMem hk, AList.lookup_eq_none.mpr hk, List.flatMap_append]
    simp

theorem items_eq_flatMap_keys (t : Table K (List α)) :
    t.items = t.keys.flatMap fun k => (t.under k).map (k, ·) := by
  unfold items AList.keys List.keys
  rw [List.flatMap_map]
  apply List.flatMap_congr
  intro e he
  have hlookup : t.lookup e.1 = some e.2 := List.mem_dlookup t.nodupKeys he
  unfold under
  rw [hlookup]
  rfl

theorem mem_items {t : Table K (List α)} {k : K} {a : α} : (k, a) ∈ t.items ↔ a ∈ t.under k := by
  rw [items_eq_flatMap_keys]
  simp only [List.mem_flatMap, List.mem_map, Prod.mk.injEq]
  constructor
  · rintro ⟨k, -, a, ha, rfl, rfl⟩
    exact ha
  · intro ha
    refine ⟨k, ?_, a, ha, rfl, rfl⟩
    rw [← AList.mem_keys]
    by_contra hmem
    unfold under at ha
    rw [AList.lookup_eq_none.mpr hmem] at ha
    cases ha

omit [DecidableEq K] in
theorem flatMap_filter_ne_nil {β : Type} (f : K → List β) (ks : List K) :
    (ks.filter fun k => !(f k).isEmpty).flatMap f = ks.flatMap f := by
  induction ks with
  | nil => rfl
  | cons k ks ih =>
    rw [List.filter_cons, List.flatMap_cons]
    split
    · rw [List.flatMap_cons, ih]
    · rename_i h
      have hnil : f k = [] := by simpa using h
      rw [hnil, ih, List.nil_append]

/-- The lists of the dictionary, met in the order of some keys with none left out. -/
theorem items_perm {t : Table K (List α)} {ks : List K} (hks : ks.Nodup)
    (h : ∀ k, k ∉ ks → t.under k = []) :
    t.items.Perm (ks.flatMap fun k => (t.under k).map (k, ·)) := by
  rw [items_eq_flatMap_keys, ← flatMap_filter_ne_nil _ t.keys, ← flatMap_filter_ne_nil _ ks]
  apply List.Perm.flatMap_right
  rw [List.perm_ext_iff_of_nodup (t.keys_nodup.filter _) (hks.filter _)]
  intro k
  simp only [List.mem_filter, and_congr_left_iff, Bool.not_eq_true', List.isEmpty_eq_false_iff,
    ne_eq, List.map_eq_nil_iff]
  intro hne
  constructor
  · intro _
    by_contra hmem
    exact hne (h k hmem)
  · intro _
    rw [← AList.mem_keys]
    by_contra hmem
    apply hne
    unfold under
    rw [AList.lookup_eq_none.mpr hmem]
    rfl

/-- What there is under the keys of a table, met in the order of some keys with none left out. -/
theorem flatMap_keys_perm {β : Type} {t : Table K V} {ks : List K} (hks : ks.Nodup)
    (h : ∀ k ∈ t, k ∈ ks) (f : K → List β) :
    (ks.flatMap fun k => if k ∈ t then f k else []).Perm (t.keys.flatMap f) := by
  have hfilter : (ks.flatMap fun k => if k ∈ t then f k else []) =
      (ks.filter fun k => decide (k ∈ t)).flatMap f := by
    clear hks h
    induction ks with
    | nil => rfl
    | cons k ks ih =>
      rw [List.flatMap_cons, ih]
      by_cases hk : k ∈ t
      · simp [hk]
      · simp [hk]
  rw [hfilter]
  apply List.Perm.flatMap_right
  rw [List.perm_ext_iff_of_nodup (hks.filter _) t.keys_nodup]
  intro k
  rw [List.mem_filter, decide_eq_true_eq, AList.mem_keys]
  exact ⟨And.right, fun hk => ⟨h k hk, hk⟩⟩

end Table
