-- State machines and their runs. A machine takes one input at a time; a law
-- of the machine is an invariant of its runs, or a condition on the inputs
-- under which it is one.
import Mathlib.Data.List.Induction

/-- A machine: where it may start, and which inputs take which state where. -/
structure Machine (σ ι : Type*) where
  init : σ → Prop
  step : σ → ι → σ → Prop

namespace Machine

variable {σ ι : Type*} {M : Machine σ ι}

/-- The machine whose step is a partial function. -/
def ofFun (init : σ → Prop) (f : σ → ι → Option σ) : Machine σ ι where
  init := init
  step s i t := f s i = some t

/-- From `s`, the inputs take the machine to the last state. -/
inductive Run (M : Machine σ ι) : σ → List ι → σ → Prop
  | nil (s : σ) : Run M s [] s
  | snoc {s t u : σ} {is : List ι} {i : ι} : Run M s is t → M.step t i u → Run M s (is ++ [i]) u

def Reachable (M : Machine σ ι) (s : σ) : Prop := ∃ s₀ is, M.init s₀ ∧ M.Run s₀ is s

/-- Each input of the run meets `ok` in the state that it finds. -/
def Meets (M : Machine σ ι) (ok : σ → ι → Prop) (s : σ) (is : List ι) : Prop :=
  ∀ is₁ i is₂ t, is = is₁ ++ i :: is₂ → M.Run s is₁ t → ok t i

/-- Each input of the run meets `ok`, which knows the inputs before it, in the state that it
finds. -/
def MeetsAfter (M : Machine σ ι) (ok : List ι → σ → ι → Prop) (s : σ) (is : List ι) : Prop :=
  ∀ is₁ i is₂ t, is = is₁ ++ i :: is₂ → M.Run s is₁ t → ok is₁ t i

/-! ## Building runs and taking them apart -/

theorem Run.single {s t : σ} {i : ι} (h : M.step s i t) : M.Run s [i] t :=
  Run.snoc (Run.nil s) h

theorem Run.append {s t u : σ} {is js : List ι} (h₁ : M.Run s is t) (h₂ : M.Run t js u) :
    M.Run s (is ++ js) u := by
  induction h₂ with
  | nil => simpa using h₁
  | snoc _ hstep ih =>
    rw [← List.append_assoc]
    exact Run.snoc ih hstep

theorem Run.nil_inv {s t : σ} (h : M.Run s [] t) : s = t := by
  generalize hl : ([] : List ι) = l at h
  cases h with
  | nil => rfl
  | snoc _ _ => simp at hl

theorem Run.snoc_inv {s u : σ} {is : List ι} {i : ι} (h : M.Run s (is ++ [i]) u) :
    ∃ t, M.Run s is t ∧ M.step t i u := by
  generalize hl : is ++ [i] = l at h
  cases h with
  | nil => simp at hl
  | snoc hrun hstep =>
    obtain ⟨rfl, hi⟩ := List.append_inj' hl rfl
    cases hi
    exact ⟨_, hrun, hstep⟩

/-- A run passes through a state at every cut of its inputs. -/
theorem Run.split {s u : σ} {is js : List ι} (h : M.Run s (is ++ js) u) :
    ∃ t, M.Run s is t ∧ M.Run t js u := by
  induction js using List.reverseRecOn generalizing u with
  | nil => exact ⟨u, by simpa using h, Run.nil u⟩
  | append_singleton js i ih =>
    rw [← List.append_assoc] at h
    obtain ⟨v, hv, hstep⟩ := h.snoc_inv
    obtain ⟨t, h₁, h₂⟩ := ih hv
    exact ⟨t, h₁, Run.snoc h₂ hstep⟩

theorem Run.cons_inv {s u : σ} {i : ι} {is : List ι} (h : M.Run s (i :: is) u) :
    ∃ t, M.step s i t ∧ M.Run t is u := by
  rw [← List.singleton_append] at h
  obtain ⟨t, hfirst, hrest⟩ := h.split
  rw [← List.nil_append [i]] at hfirst
  obtain ⟨s', hnil, hstep⟩ := hfirst.snoc_inv
  obtain rfl := hnil.nil_inv
  exact ⟨t, hstep, hrest⟩

theorem Meets.left {ok : σ → ι → Prop} {s : σ} {is js : List ι} (h : M.Meets ok s (is ++ js)) :
    M.Meets ok s is := by
  intro is₁ i is₂ t he hrun
  exact h is₁ i (is₂ ++ js) t (by simp [he]) hrun

/-! ## Invariants -/

/-- What holds at the start and passes every input that meets `ok` holds at the end. -/
theorem Run.invariant_of_meets {ok : σ → ι → Prop} {p : σ → Prop} {s t : σ} {is : List ι}
    (hrun : M.Run s is t) (hok : M.Meets ok s is) (hs : p s)
    (hstep : ∀ t i u, p t → ok t i → M.step t i u → p u) : p t := by
  induction hrun with
  | nil => exact hs
  | snoc hrun hlast ih => exact hstep _ _ _ (ih hok.left) (hok _ _ [] _ rfl hrun) hlast

theorem Run.invariant {p : σ → Prop} {s t : σ} {is : List ι} (hrun : M.Run s is t) (hs : p s)
    (hstep : ∀ t i u, p t → M.step t i u → p u) : p t := by
  have hok : M.Meets (fun _ _ => True) s is := fun _ _ _ _ _ _ => trivial
  apply hrun.invariant_of_meets hok hs
  intro t i u ht _ hu
  exact hstep t i u ht hu

theorem Reachable.invariant {p : σ → Prop} {s : σ} (h : M.Reachable s)
    (hinit : ∀ s, M.init s → p s) (hstep : ∀ t i u, p t → M.step t i u → p u) : p s := by
  obtain ⟨s₀, is, hs₀, hrun⟩ := h
  exact hrun.invariant (hinit s₀ hs₀) hstep

/-- What does not hold at the start and holds at the end began to hold at one step. -/
theorem Run.gained {p : σ → Prop} {s t : σ} {is : List ι} (hrun : M.Run s is t)
    (hs : ¬ p s) (ht : p t) :
    ∃ is₁ i is₂ u v, is = is₁ ++ i :: is₂ ∧ M.Run s is₁ u ∧ M.step u i v ∧ M.Run v is₂ t ∧
      ¬ p u ∧ p v := by
  induction hrun with
  | nil => exact absurd ht hs
  | @snoc t u is i hrun hstep ih =>
    by_cases htm : p t
    · obtain ⟨is₁, j, is₂, a, b, he, h₁, h₂, h₃, ha, hb⟩ := ih htm
      exact ⟨is₁, j, is₂ ++ [i], a, b, by simp [he], h₁, h₂, Run.snoc h₃ hstep, ha, hb⟩
    · exact ⟨is, i, [], t, u, rfl, hrun, hstep, Run.nil u, htm, ht⟩

/-! ## Runs that can be computed -/

/-- Feeds the inputs to a partial step function. -/
def exec (f : σ → ι → Option σ) : σ → List ι → Option σ
  | s, [] => some s
  | s, i :: is => (f s i).bind fun t => exec f t is

theorem Run.cons {s t u : σ} {i : ι} {is : List ι} (h : M.step s i t) (h' : M.Run t is u) :
    M.Run s (i :: is) u :=
  (Run.single h).append h'

theorem run_of_exec {init : σ → Prop} {f : σ → ι → Option σ} {s t : σ} {is : List ι}
    (h : exec f s is = some t) : (ofFun init f).Run s is t := by
  induction is generalizing s with
  | nil =>
    simp only [exec, Option.some.injEq] at h
    exact h ▸ Run.nil s
  | cons i is ih =>
    simp only [exec, Option.bind_eq_some_iff] at h
    obtain ⟨u, hu, hrest⟩ := h
    exact Run.cons hu (ih hrest)

theorem exec_append (f : σ → ι → Option σ) (s : σ) (is js : List ι) :
    exec f s (is ++ js) = (exec f s is).bind fun t => exec f t js := by
  induction is generalizing s with
  | nil => rfl
  | cons i is ih =>
    simp only [List.cons_append, exec, Option.bind_assoc]
    congr 1
    funext t
    exact ih t

theorem exec_of_run {init : σ → Prop} {f : σ → ι → Option σ} {s t : σ} {is : List ι}
    (h : (ofFun init f).Run s is t) : exec f s is = some t := by
  induction h with
  | nil => rfl
  | @snoc t u is i _ hstep ih =>
    have hstep : f t i = some u := hstep
    simp [exec_append, ih, exec, hstep]

theorem run_unique {init : σ → Prop} {f : σ → ι → Option σ} {s t u : σ} {is : List ι}
    (h : (ofFun init f).Run s is t) (h' : (ofFun init f).Run s is u) : t = u :=
  Option.some.inj ((exec_of_run h).symm.trans (exec_of_run h'))

/-- A computed run, by what can be seen of its end. -/
theorem exists_run_of_exec {init : σ → Prop} {f : σ → ι → Option σ} {s : σ} {is : List ι}
    {α : Type*} {see : σ → α} {v : α} (h : (exec f s is).map see = some v) :
    ∃ t, (ofFun init f).Run s is t ∧ see t = v := by
  obtain ⟨t, ht, hv⟩ := Option.map_eq_some_iff.mp h
  exact ⟨t, run_of_exec ht, hv⟩

/-- The step function, on the inputs that pass a test. -/
def guarded (ok : σ → ι → Bool) (f : σ → ι → Option σ) (s : σ) (i : ι) : Option σ :=
  if ok s i then f s i else none

theorem exec_of_guarded {ok : σ → ι → Bool} {f : σ → ι → Option σ} {s t : σ} {is : List ι}
    (h : exec (guarded ok f) s is = some t) : exec f s is = some t := by
  induction is generalizing s with
  | nil => exact h
  | cons i is ih =>
    simp only [exec, Option.bind_eq_some_iff] at h ⊢
    obtain ⟨u, hu, hrest⟩ := h
    unfold guarded at hu
    split at hu
    · exact ⟨u, hu, ih hrest⟩
    · cases hu

/-- A run computed with the test on meets the test at each input. -/
theorem meets_of_guarded {init : σ → Prop} {ok : σ → ι → Bool} {f : σ → ι → Option σ} {s t : σ}
    {is : List ι} (h : exec (guarded ok f) s is = some t) :
    (ofFun init f).Meets (fun s i => ok s i = true) s is := by
  intro is₁ i is₂ u he hrun
  subst he
  rw [exec_append] at h
  obtain ⟨u', hu', h⟩ := Option.bind_eq_some_iff.mp h
  obtain rfl : u' = u := Option.some.inj ((exec_of_guarded hu').symm.trans (exec_of_run hrun))
  simp only [exec, Option.bind_eq_some_iff, guarded] at h
  obtain ⟨v, hv, -⟩ := h
  split at hv
  · assumption
  · cases hv

theorem exists_guarded_run {init : σ → Prop} {ok : σ → ι → Bool} {f : σ → ι → Option σ} {s : σ}
    {is : List ι} {α : Type*} {see : σ → α} {v : α}
    (h : (exec (guarded ok f) s is).map see = some v) :
    ∃ t, (ofFun init f).Run s is t ∧ (ofFun init f).Meets (fun s i => ok s i = true) s is ∧
      see t = v := by
  obtain ⟨t, ht, hv⟩ := Option.map_eq_some_iff.mp h
  exact ⟨t, run_of_exec (exec_of_guarded ht), meets_of_guarded ht, hv⟩

/-! ## When something begins -/

/-- At step number `k` of the run, `p` begins to hold. -/
def Begins (M : Machine σ ι) (p : σ → Prop) (s : σ) (is : List ι) (k : Nat) : Prop :=
  ∃ is₁ i is₂ t u, is = is₁ ++ i :: is₂ ∧ is₁.length = k ∧ M.Run s is₁ t ∧ M.step t i u ∧
    ¬ p t ∧ p u

theorem Run.begins {p : σ → Prop} {s t : σ} {is : List ι} (hrun : M.Run s is t) (hs : ¬ p s)
    (ht : p t) : ∃ k < is.length, M.Begins p s is k := by
  obtain ⟨is₁, i, is₂, u, v, rfl, h₁, hstep, -, hu, hv⟩ := hrun.gained hs ht
  exact ⟨is₁.length, by simp, is₁, i, is₂, u, v, rfl, rfl, h₁, hstep, hu, hv⟩

theorem Begins.append {p : σ → Prop} {s : σ} {is : List ι} {k : Nat} (h : M.Begins p s is k)
    (js : List ι) : M.Begins p s (is ++ js) k := by
  obtain ⟨is₁, i, is₂, u, v, rfl, hlength, h₁, hstep, hu, hv⟩ := h
  exact ⟨is₁, i, is₂ ++ js, u, v, by simp, hlength, h₁, hstep, hu, hv⟩

/-- What stays once it holds begins once. -/
theorem Begins.unique {init : σ → Prop} {f : σ → ι → Option σ} {p : σ → Prop} {s : σ}
    {is : List ι} (hkeeps : ∀ is₁ is₂ t u, is₁ ++ is₂ <+: is → (ofFun init f).Run s is₁ t →
      (ofFun init f).Run t is₂ u → p t → p u) {j k : Nat}
    (hj : (ofFun init f).Begins p s is j) (hk : (ofFun init f).Begins p s is k) : j = k := by
  have hnot : ∀ j k, (ofFun init f).Begins p s is j → (ofFun init f).Begins p s is k →
      ¬ j < k := by
    rintro j k ⟨is₁, i, is₂, t, u, rfl, rfl, h₁, hstep, -, hu⟩
      ⟨js₁, i', js₂, t', u', he, rfl, h₁', -, ht', -⟩ hlt
    have hfirst : is₁ ++ [i] <+: is₁ ++ i :: is₂ := ⟨is₂, by simp⟩
    have hsecond : js₁ <+: is₁ ++ i :: is₂ := ⟨i' :: js₂, he.symm⟩
    have hlength : (is₁ ++ [i]).length ≤ js₁.length := by
      rw [List.length_append, List.length_singleton]
      exact hlt
    obtain ⟨rest, rfl⟩ := List.prefix_of_prefix_length_le hfirst hsecond hlength
    obtain ⟨v, hv, hrest⟩ := h₁'.split
    obtain rfl := run_unique hv (Run.snoc h₁ hstep)
    exact ht' (hkeeps _ _ _ _ hsecond hv hrest hu)
  have hjk := hnot j k hj hk
  have hkj := hnot k j hk hj
  omega

/-! ## What a run lets one see -/

/-- What each input lets one see in the state that it finds, in order. -/
def observe {α : Type*} (f : σ → ι → Option σ) (see : σ → ι → List α) : σ → List ι → List α
  | _, [] => []
  | s, i :: is => see s i ++ match f s i with
    | some t => observe f see t is
    | none => []

theorem observe_append {α : Type*} {init : σ → Prop} {f : σ → ι → Option σ}
    (see : σ → ι → List α) {s t : σ} {is : List ι} (h : (ofFun init f).Run s is t)
    (js : List ι) : observe f see s (is ++ js) = observe f see s is ++ observe f see t js := by
  have hexec := exec_of_run h
  clear h
  induction is generalizing s with
  | nil =>
    cases hexec
    rfl
  | cons i is ih =>
    obtain ⟨u, hu, hrest⟩ := Option.bind_eq_some_iff.mp hexec
    simp only [List.cons_append, observe, hu]
    rw [ih hrest, List.append_assoc]

theorem observe_snoc {α : Type*} {init : σ → Prop} {f : σ → ι → Option σ}
    (see : σ → ι → List α) {s t : σ} {is : List ι} (h : (ofFun init f).Run s is t) (i : ι) :
    observe f see s (is ++ [i]) = observe f see s is ++ see t i := by
  rw [observe_append see h]
  congr 1
  unfold observe
  cases f t i <;> simp [observe]

theorem observe_eq_nil {α : Type*} {f : σ → ι → Option σ} {see : σ → ι → List α} {is : List ι}
    (h : ∀ i ∈ is, ∀ s, see s i = []) (s : σ) : observe f see s is = [] := by
  induction is generalizing s with
  | nil => rfl
  | cons i is ih =>
    unfold observe
    rw [h i List.mem_cons_self s, List.nil_append]
    split
    · exact ih (fun j hj => h j (List.mem_cons_of_mem i hj)) _
    · rfl

/-- An invariant that relates the state to what was seen on the way to it. -/
theorem Run.observe_invariant_of_meets {α : Type*} {init : σ → Prop} {f : σ → ι → Option σ}
    {ok : σ → ι → Prop} {see : σ → ι → List α} {p : List α → σ → Prop} {s t : σ} {is : List ι}
    (hrun : (ofFun init f).Run s is t) (hok : (ofFun init f).Meets ok s is) (hs : p [] s)
    (hstep : ∀ seen t i u, p seen t → ok t i → f t i = some u → p (seen ++ see t i) u) :
    p (observe f see s is) t := by
  induction hrun with
  | nil => exact hs
  | snoc hrun hlast ih =>
    rw [observe_snoc see hrun]
    exact hstep _ _ _ _ (ih hok.left) (hok _ _ [] _ rfl hrun) hlast

theorem Run.observe_invariant {α : Type*} {init : σ → Prop} {f : σ → ι → Option σ}
    {see : σ → ι → List α} {p : List α → σ → Prop} {s t : σ} {is : List ι}
    (hrun : (ofFun init f).Run s is t) (hs : p [] s)
    (hstep : ∀ seen t i u, p seen t → f t i = some u → p (seen ++ see t i) u) :
    p (observe f see s is) t := by
  have hok : (ofFun init f).Meets (fun _ _ => True) s is := fun _ _ _ _ _ _ => trivial
  apply hrun.observe_invariant_of_meets hok hs
  intro seen t i u ht _ hu
  exact hstep seen t i u ht hu

/-- A condition on the inputs alone. -/
theorem meets_of_forall {ok : ι → Prop} {s : σ} {is : List ι} (h : ∀ i ∈ is, ok i) :
    M.Meets (fun _ i => ok i) s is := by
  rintro is₁ i is₂ t rfl _
  exact h i (by simp)

/-- Where each input has one outcome, a run has one. -/
theorem Run.unique (hone : ∀ s i t u, M.step s i t → M.step s i u → t = u) {s t u : σ}
    {is : List ι} (h : M.Run s is t) (h' : M.Run s is u) : t = u := by
  induction h generalizing u with
  | nil => exact h'.nil_inv
  | snoc _ hstep ih =>
    obtain ⟨t', hrun', hstep'⟩ := h'.snoc_inv
    obtain rfl := ih hrun'
    exact hone _ _ _ _ hstep hstep'

theorem meetsAfter_nil {ok : List ι → σ → ι → Prop} (s : σ) : M.MeetsAfter ok s [] := by
  intro is₁ i is₂ t he
  simp at he

theorem meets_nil {ok : σ → ι → Prop} (s : σ) : M.Meets ok s [] := meetsAfter_nil s

theorem Run.meetsAfter_last (hone : ∀ s i t u, M.step s i t → M.step s i u → t = u)
    {ok : List ι → σ → ι → Prop} {s t : σ} {is : List ι} (h : M.Run s is t) (i : ι) :
    M.MeetsAfter ok s (is ++ [i]) ↔ M.MeetsAfter ok s is ∧ ok is t i := by
  constructor
  · intro hok
    refine ⟨?_, hok is i [] t rfl h⟩
    rintro is₁ j is₂ u rfl hrun
    exact hok is₁ j (is₂ ++ [i]) u (by simp) hrun
  · rintro ⟨hok, hlast⟩ is₁ j is₂ u he hrun
    rcases List.eq_nil_or_concat is₂ with rfl | ⟨is₃, k, rfl⟩
    · obtain ⟨rfl, hij⟩ := List.append_inj' he rfl
      cases hij
      rwa [hrun.unique hone h]
    · have he' : is ++ [i] = (is₁ ++ j :: is₃) ++ [k] := by simpa using he
      obtain ⟨rfl, -⟩ := List.append_inj' he' rfl
      exact hok is₁ j is₃ u rfl hrun

theorem Run.meets_last (hone : ∀ s i t u, M.step s i t → M.step s i u → t = u)
    {ok : σ → ι → Prop} {s t : σ} {is : List ι} (h : M.Run s is t) (i : ι) :
    M.Meets ok s (is ++ [i]) ↔ M.Meets ok s is ∧ ok t i :=
  h.meetsAfter_last hone i

theorem meetsAfter_snoc {init : σ → Prop} {f : σ → ι → Option σ} {ok : List ι → σ → ι → Prop}
    {s t : σ} {is : List ι} (h : (ofFun init f).Run s is t) (i : ι) :
    (ofFun init f).MeetsAfter ok s (is ++ [i]) ↔ (ofFun init f).MeetsAfter ok s is ∧ ok is t i := by
  refine h.meetsAfter_last ?_ i
  intro s i t u ht hu
  exact Option.some_inj.mp (Eq.trans (Eq.symm ht) hu)

theorem meets_snoc {init : σ → Prop} {f : σ → ι → Option σ} {ok : σ → ι → Prop} {s t : σ}
    {is : List ι} (h : (ofFun init f).Run s is t) (i : ι) :
    (ofFun init f).Meets ok s (is ++ [i]) ↔ (ofFun init f).Meets ok s is ∧ ok t i :=
  meetsAfter_snoc h i

/-- Whether the inputs of a run meet a condition is computed along the run. -/
instance {init : σ → Prop} {f : σ → ι → Option σ} {ok : List ι → σ → ι → Prop}
    [∀ is t i, Decidable (ok is t i)] {s : σ} {is : List ι} :
    Decidable ((ofFun init f).MeetsAfter ok s is) :=
  decidable_of_iff (∀ k < is.length, ∀ i ∈ is[k]?, ∀ t ∈ exec f s (is.take k),
    ok (is.take k) t i) (by
    constructor
    · rintro h is₁ i is₂ t rfl hrun
      have hk := h is₁.length (by simp) i (by simp) t
      rw [List.take_left] at hk
      exact hk (exec_of_run hrun)
    · intro h k hk i hi t ht
      obtain ⟨-, rfl⟩ := List.getElem?_eq_some_iff.mp hi
      refine h (is.take k) is[k] (is.drop (k + 1)) t ?_ (run_of_exec ht)
      rw [List.getElem_cons_drop, List.take_append_drop])

/-- All that is seen in a run is as it should be when it is at each input. -/
theorem Run.forall_observe_iff {α : Type*} {init : σ → Prop} {f : σ → ι → Option σ}
    {see : σ → ι → List α} {ok : α → Prop} {s t : σ} {is : List ι}
    (hrun : (ofFun init f).Run s is t) :
    (∀ a ∈ observe f see s is, ok a) ↔
      (ofFun init f).Meets (fun s i => ∀ a ∈ see s i, ok a) s is := by
  induction hrun with
  | nil =>
    refine iff_of_true ?_ (meets_nil s)
    intro a ha
    cases ha
  | snoc hrun _ ih => rw [observe_snoc see hrun, List.forall_mem_append, meets_snoc hrun, ih]

/-! ## The part of a component -/

section

variable {τ κ : Type*} {init : σ → Prop} {init' : τ → Prop} {f : σ → ι → Option σ}
  {g : τ → κ → Option τ} {project : σ → τ} {part : σ → ι → List κ}

/-- A component that takes its part in each step takes its part in a run, which is a run of the
machine of the component. -/
theorem Run.component
    (hstep : ∀ s i t, f s i = some t → (ofFun init' g).Run (project s) (part s i) (project t))
    {s t : σ} {is : List ι} (hrun : (ofFun init f).Run s is t) :
    (ofFun init' g).Run (project s) (observe f part s is) (project t) := by
  induction hrun with
  | nil => exact .nil _
  | snoc hrun hlast ih =>
    rw [observe_snoc part hrun]
    exact ih.append (hstep _ _ _ hlast)

/-- What is seen of the component in a run is what is seen in its part. -/
theorem Run.observe_component {α : Type*} {see : τ → κ → List α}
    (hstep : ∀ s i t, f s i = some t → (ofFun init' g).Run (project s) (part s i) (project t))
    {s t : σ} {is : List ι} (hrun : (ofFun init f).Run s is t) :
    observe f (fun s i => observe g see (project s) (part s i)) s is =
      observe g see (project s) (observe f part s is) := by
  induction hrun with
  | nil => rfl
  | snoc hrun hlast ih =>
    rw [observe_snoc _ hrun, observe_snoc part hrun, ih,
      observe_append see (hrun.component hstep)]

end

end Machine
