-- Programs that change a state and may stop: the first step that stops ends
-- the whole program, and what was done until then remains done.
import Mathlib.Data.List.Forall2

namespace Fallible

variable {α β σ τ ε : Type*}

/-- Runs a step for each element, until one stops. -/
def each (f : α → σ → σ × Option ε) : List α → σ → σ × Option ε
  | [], s => (s, none)
  | a :: rest, s =>
    match f a s with
    | (s, none) => each f rest s
    | (s, some e) => (s, some e)

variable {f : α → σ → σ × Option ε}

@[simp] theorem each_nil (s : σ) : each f [] s = (s, none) := rfl

theorem each_cons_go {a : α} {s t : σ} (h : f a s = (t, none)) (rest : List α) :
    each f (a :: rest) s = each f rest t := by
  simp only [each, h]

theorem each_cons_stop {a : α} {s t : σ} {e : ε} (h : f a s = (t, some e)) (rest : List α) :
    each f (a :: rest) s = (t, some e) := by
  simp only [each, h]

theorem each_singleton (a : α) (s : σ) : each f [a] s = f a s := by
  cases h : f a s with
  | mk t stop =>
    cases stop with
    | none => exact each_cons_go h []
    | some e => exact each_cons_stop h []

theorem each_append (l l' : List α) (s : σ) :
    each f (l ++ l') s =
      match each f l s with
      | (s, none) => each f l' s
      | (s, some e) => (s, some e) := by
  induction l generalizing s with
  | nil => rfl
  | cons a l ih =>
    rw [List.cons_append]
    cases h : f a s with
    | mk t stop =>
      cases stop with
      | none => rw [each_cons_go h, each_cons_go h, ih]
      | some e => rw [each_cons_stop h, each_cons_stop h]

theorem each_map (h : β → α) (l : List β) (s : σ) :
    each f (l.map h) s = each (fun b => f (h b)) l s := by
  induction l generalizing s with
  | nil => rfl
  | cons b l ih =>
    rw [List.map_cons]
    cases hb : f (h b) s with
    | mk t stop =>
      cases stop with
      | none =>
        rw [each_cons_go hb, each_cons_go (f := fun b => f (h b)) hb]
        exact ih t
      | some e => rw [each_cons_stop hb, each_cons_stop (f := fun b => f (h b)) hb]

/-- A program of programs is one program. -/
theorem each_flatMap (parts : β → List α) (l : List β) (s : σ) :
    each f (l.flatMap parts) s = each (fun b => each f (parts b)) l s := by
  induction l generalizing s with
  | nil => rfl
  | cons b l ih =>
    rw [List.flatMap_cons, each_append]
    cases h : each f (parts b) s with
    | mk t stop =>
      cases stop with
      | none =>
        rw [each_cons_go (f := fun b => each f (parts b)) h]
        exact ih t
      | some e => rw [each_cons_stop (f := fun b => each f (parts b)) h]

/-- Steps that are those of another program, seen through `view`, make a program that is the other
one. -/
theorem each_sim (R : β → α → Prop) (view : σ → τ) {g : β → τ → τ × Option ε}
    (hsim : ∀ b a, R b a → ∀ s, g b (view s) = (view (f a s).1, (f a s).2))
    {l : List β} {l' : List α} (hl : List.Forall₂ R l l') (s : σ) :
    each g l (view s) = (view (each f l' s).1, (each f l' s).2) := by
  induction hl generalizing s with
  | nil => rfl
  | @cons b a l l' hba hl ih =>
    have hstep := hsim b a hba s
    cases h : f a s with
    | mk t stop =>
      rw [h] at hstep
      cases stop with
      | none => rw [each_cons_go hstep, each_cons_go h, ih]
      | some e => rw [each_cons_stop hstep, each_cons_stop h]

/-- Steps that are those of another program. -/
theorem each_congr (R : β → α → Prop) {g : β → σ → σ × Option ε}
    (hsame : ∀ b a, R b a → ∀ s, g b s = f a s) {l : List β} {l' : List α}
    (hl : List.Forall₂ R l l') (s : σ) : each g l s = each f l' s :=
  each_sim R id hsame hl s

/-- What each step keeps of the elements done so far holds of all of them, or of those before the
one that stopped. -/
theorem each_invariant {p : List α → σ → Prop}
    (hstep : ∀ done a s t, p done s → f a s = (t, none) → p (done ++ [a]) t) {l : List α} {s : σ}
    (hs : p [] s) :
    (∀ t, each f l s = (t, none) → p l t) ∧
      ∀ t e, each f l s = (t, some e) → ∃ done a s', done ++ [a] <+: l ∧ p done s' ∧
        f a s' = (t, some e) := by
  suffices hfrom : ∀ (l done : List α) (s : σ), p done s →
      (∀ t, each f l s = (t, none) → p (done ++ l) t) ∧
        ∀ t e, each f l s = (t, some e) → ∃ done' a s', done' ++ [a] <+: done ++ l ∧ p done' s' ∧
          f a s' = (t, some e) by
    exact hfrom l [] s hs
  intro l
  induction l with
  | nil =>
    intro done s hs
    refine ⟨?_, ?_⟩
    · intro t ht
      cases ht
      simpa using hs
    · intro t e ht
      cases ht
  | cons a l ih =>
    intro done s hs
    cases h : f a s with
    | mk t stop =>
      cases stop with
      | none =>
        rw [each_cons_go h]
        have hnext := ih (done ++ [a]) t (hstep done a s t hs h)
        rw [List.append_assoc] at hnext
        exact hnext
      | some e =>
        rw [each_cons_stop h]
        refine ⟨?_, ?_⟩
        · intro t' ht'
          cases ht'
        · intro t' e' ht'
          cases ht'
          refine ⟨done, a, s, ?_, hs, h⟩
          exact ⟨l, by simp⟩

/-- What each step keeps holds at the end, wherever the program stops. -/
theorem each_preserves {q : σ → Prop} (hstep : ∀ a s, q s → q (f a s).1) (l : List α) {s : σ}
    (hs : q s) : q (each f l s).1 := by
  induction l generalizing s with
  | nil => exact hs
  | cons a l ih =>
    have hnext := hstep a s hs
    cases h : f a s with
    | mk t stop =>
      rw [h] at hnext
      cases stop with
      | none =>
        rw [each_cons_go h]
        exact ih hnext
      | some e =>
        rw [each_cons_stop h]
        exact hnext

/-- A program none of whose steps stops goes to its end. -/
theorem each_goes_on {l : List α} (hstep : ∀ a ∈ l, ∀ s, (f a s).2 = none) (s : σ) :
    (each f l s).2 = none := by
  induction l generalizing s with
  | nil => rfl
  | cons a l ih =>
    rw [List.forall_mem_cons] at hstep
    have h : f a s = ((f a s).1, none) := Prod.ext rfl (hstep.1 s)
    rw [each_cons_go h]
    exact ih hstep.2 _

/-! ## Loops that fail as a whole -/

/-- A loop over elements that all have a value: each turn adds the value of its element to what the
loop has done. -/
theorem foldlM_of_mapM {step : σ → α → Option σ} {value : α → Option β} {p : σ → List β → Prop}
    (hstep : ∀ s done a b, p s done → value a = some b →
      ∃ s', step s a = some s' ∧ p s' (done ++ [b]))
    {l : List α} {bs done : List β} {s : σ} (hs : p s done) (hl : l.mapM value = some bs) :
    ∃ s', l.foldlM step s = some s' ∧ p s' (done ++ bs) := by
  induction l generalizing s done bs with
  | nil =>
    cases hl
    exact ⟨s, rfl, by simpa using hs⟩
  | cons a l ih =>
    simp only [List.mapM_cons, Option.bind_eq_bind, Option.bind_eq_some_iff] at hl
    obtain ⟨b, hb, bs, hbs, hl⟩ := hl
    cases hl
    obtain ⟨t, hfirst, ht⟩ := hstep s done a b hs hb
    obtain ⟨u, hrest, hu⟩ := ih ht hbs
    refine ⟨u, ?_, ?_⟩
    · rw [List.foldlM_cons, hfirst]
      exact hrest
    · rw [List.append_assoc] at hu
      exact hu

/-- The values of the same elements in another order. -/
theorem mapM_of_perm {value : α → Option β} {l l' : List α} (h : l.Perm l') {bs : List β}
    (hl : l.mapM value = some bs) : ∃ bs', l'.mapM value = some bs' ∧ bs.Perm bs' := by
  induction h generalizing bs with
  | nil => exact ⟨bs, hl, List.Perm.refl _⟩
  | cons a _ ih =>
    simp only [List.mapM_cons, Option.bind_eq_bind, Option.bind_eq_some_iff] at hl
    obtain ⟨b, hb, rest, hrest, hl⟩ := hl
    cases hl
    obtain ⟨rest', hrest', hperm⟩ := ih hrest
    refine ⟨b :: rest', ?_, hperm.cons b⟩
    simp only [List.mapM_cons, hb, hrest', Option.bind_eq_bind, Option.bind_some]
    rfl
  | swap a a' l =>
    simp only [List.mapM_cons, Option.bind_eq_bind, Option.bind_eq_some_iff] at hl
    obtain ⟨b, hb, rest, ⟨b', hb', rest', hrest', hrest⟩, hl⟩ := hl
    cases hrest
    cases hl
    refine ⟨b' :: b :: rest', ?_, List.Perm.swap _ _ _⟩
    simp only [List.mapM_cons, hb, hb', hrest', Option.bind_eq_bind, Option.bind_some]
    rfl
  | trans _ _ ih₁ ih₂ =>
    obtain ⟨bs₁, hbs₁, hperm₁⟩ := ih₁ hl
    obtain ⟨bs₂, hbs₂, hperm₂⟩ := ih₂ hbs₁
    exact ⟨bs₂, hbs₂, hperm₁.trans hperm₂⟩

end Fallible
