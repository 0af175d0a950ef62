-- Hash maps as finite tables: at most one value for each key. A program
-- that walks over a hash map meets its keys in some order, and the order of
-- the entries stands for it.
import Mathlib.Data.List.AList

/-- A finite map from `K` to `V`. -/
abbrev Table (K V : Type) := AList (fun _ : K => V)

namespace Table

variable {K V : Type} [DecidableEq K]

/-- Changes the value of a key in place, if the key is there. -/
def modify (k : K) (f : V → V) (t : Table K V) : Table K V :=
  match t.lookup k with
  | some v => t.replace k (f v)
  | none => t

theorem kreplace_cons (k : K) (v : V) (a : K) (b : V) (l : List ((_ : K) × V)) :
    List.kreplace k v (⟨a, b⟩ :: l) =
      if k = a then ⟨k, v⟩ :: l else ⟨a, b⟩ :: List.kreplace k v l := by
  unfold List.kreplace
  split
  · rw [List.lookmap_cons_some]
    simp [*]
  · rw [List.lookmap_cons_none]
    simp [*]

theorem kreplace_kreplace (k : K) (v w : V)
    (l : List ((_ : K) × V)) :
    List.kreplace k w (List.kreplace k v l) = List.kreplace k w l := by
  induction l with
  | nil => simp [List.kreplace]
  | cons e l ih =>
    obtain ⟨a, b⟩ := e
    by_cases hk : k = a
    · subst hk
      simp [kreplace_cons]
    · simp [kreplace_cons, hk, ih]

theorem dlookup_kreplace (k k' : K) (v : V) (l : List ((_ : K) × V)) :
    (List.kreplace k v l).dlookup k' =
      if k' = k then (l.dlookup k').map (fun _ => v) else l.dlookup k' := by
  induction l with
  | nil => simp [List.kreplace]
  | cons e l ih =>
    obtain ⟨a, b⟩ := e
    rw [kreplace_cons]
    by_cases hka : k = a
    · subst hka
      by_cases hk' : k' = k
      · subst hk'
        simp
      · simp [hk', List.dlookup_cons_ne]
    · simp only [hka, if_false]
      by_cases hk' : k' = a
      · subst hk'
        simp [Ne.symm hka]
      · rw [List.dlookup_cons_ne _ _ hk', List.dlookup_cons_ne _ _ hk', ih]

theorem lookup_replace (k k' : K) (v : V) (t : Table K V) :
    (t.replace k v).lookup k' =
      if k' = k then (t.lookup k').map (fun _ => v) else t.lookup k' :=
  dlookup_kreplace k k' v t.entries

theorem modify_modify (k : K) (f g : V → V) (t : Table K V) :
    modify k g (modify k f t) = modify k (fun v => g (f v)) t := by
  have hmodify : ∀ (f : V → V) (t : Table K V), modify k f t =
      match t.lookup k with
      | some v => t.replace k (f v)
      | none => t := fun _ _ => rfl
  rw [hmodify f t, hmodify (fun v => g (f v)) t]
  cases hv : t.lookup k with
  | none => rw [hmodify, hv]
  | some v =>
    rw [hmodify]
    dsimp only
    rw [lookup_replace, if_pos rfl, hv]
    apply AList.ext
    exact kreplace_kreplace k (f v) (g (f v)) t.entries

theorem modify_of_fixed {k : K} {f : V → V} {t : Table K V}
    (h : ∀ v, t.lookup k = some v → f v = v) : modify k f t = t := by
  unfold modify
  split
  · rename_i v hv
    apply AList.ext
    exact List.kreplace_self t.nodupKeys (List.of_mem_dlookup ((h v hv).symm ▸ hv))
  · rfl

theorem lookup_modify (k k' : K) (f : V → V) (t : Table K V) :
    (modify k f t).lookup k' = if k' = k then (t.lookup k).map f else t.lookup k' := by
  unfold modify
  cases h : t.lookup k with
  | none =>
    by_cases hk : k' = k
    · subst hk; simp [h]
    · simp [hk]
  | some v =>
    rw [lookup_replace]
    by_cases hk : k' = k
    · subst hk; simp [h]
    · simp [hk]

@[simp] theorem lookup_modify_self (k : K) (f : V → V) (t : Table K V) :
    (modify k f t).lookup k = (t.lookup k).map f := by
  simp [lookup_modify]

theorem lookup_modify_ne {k k' : K} (h : k' ≠ k) (f : V → V) (t : Table K V) :
    (modify k f t).lookup k' = t.lookup k' := by
  simp [lookup_modify, h]

@[simp] theorem keys_modify (k : K) (f : V → V) (t : Table K V) :
    (modify k f t).keys = t.keys := by
  unfold modify
  split
  · exact AList.keys_replace k _ t
  · rfl

@[simp] theorem mem_modify {k k' : K} {f : V → V} {t : Table K V} :
    k' ∈ modify k f t ↔ k' ∈ t := by
  rw [AList.mem_keys, keys_modify, ← AList.mem_keys]

theorem mem_iff_lookup {k : K} {t : Table K V} : k ∈ t ↔ ∃ v, t.lookup k = some v := by
  rw [← AList.lookup_isSome, Option.isSome_iff_exists]

/-- The value of a key, or a default. -/
def getD (t : Table K V) (k : K) (d : V) : V := (t.lookup k).getD d

@[simp] theorem getD_insert_self (k : K) (v d : V) (t : Table K V) :
    getD (t.insert k v) k d = v := by
  simp [getD]

theorem getD_insert_ne {k k' : K} (h : k' ≠ k) (v d : V) (t : Table K V) :
    getD (t.insert k v) k' d = getD t k' d := by
  simp [getD, AList.lookup_insert_ne h]

theorem getD_modify (k k' : K) (f : V → V) (d : V) (t : Table K V) :
    getD (modify k f t) k' d =
      if k' = k then ((t.lookup k).map f).getD d else getD t k' d := by
  unfold getD
  rw [lookup_modify]
  split <;> rfl

end Table
