-- Loops without a bound of their own. A turn of a loop goes on to the next
-- turn, ends the loop, leaves the function around it, or panics; a loop runs
-- on fuel, and a measure that each turn decreases says how much is enough.
import Mathlib.Tactic.Basic

/-- How a loop ends. -/
inductive Exit (σ α : Type*) where
  | Break (s : σ)
  | Return (a : α) (s : σ)
  | Panic

/-- What one turn of a loop does. -/
inductive Turn (σ α : Type*) where
  | Continue (s : σ)
  | Leave (e : Exit σ α)

namespace Loop

variable {σ α : Type*}

/-- Runs the loop; `none` when the fuel does not suffice. -/
def run (turn : σ → Turn σ α) : Nat → σ → Option (Exit σ α)
  | 0, _ => none
  | fuel + 1, s =>
    match turn s with
    | .Continue s => run turn fuel s
    | .Leave e => some e

/-- What a turn keeps: it goes on in a state of `p` with a smaller measure, or it leaves as `q`
says. -/
def Keeps (p : σ → Prop) (q : Exit σ α → Prop) (measure : σ → Nat) (s : σ) : Turn σ α → Prop
  | .Continue s' => p s' ∧ measure s' < measure s
  | .Leave e => q e

/-- A loop whose turns decrease a measure ends, as its turns say, and all fuel above the measure
gives the same end. -/
theorem run_of_measure {turn : σ → Turn σ α} {p : σ → Prop} {q : Exit σ α → Prop}
    {measure : σ → Nat} (hturn : ∀ s, p s → Keeps p q measure s (turn s)) {s : σ} (hs : p s) :
    ∃ e, q e ∧ ∀ fuel, measure s < fuel → run turn fuel s = some e := by
  -- by induction on a bound of the measure
  suffices hbound : ∀ n s, p s → measure s < n →
      ∃ e, q e ∧ ∀ fuel, measure s < fuel → run turn fuel s = some e by
    exact hbound (measure s + 1) s hs (Nat.lt_succ_self _)
  intro n
  induction n with
  | zero =>
    intro s _ hlt
    exact absurd hlt (Nat.not_lt_zero _)
  | succ n ih =>
    intro s hs hlt
    have hkeeps := hturn s hs
    cases hnext : turn s with
    | Leave e =>
      rw [hnext] at hkeeps
      refine ⟨e, hkeeps, ?_⟩
      intro fuel hfuel
      obtain ⟨fuel, rfl⟩ : ∃ k, fuel = k + 1 := ⟨fuel - 1, by omega⟩
      simp only [run, hnext]
    | Continue s' =>
      rw [hnext] at hkeeps
      obtain ⟨hs', hless⟩ := hkeeps
      obtain ⟨e, he, hrun⟩ := ih s' hs' (by omega)
      refine ⟨e, he, ?_⟩
      intro fuel hfuel
      obtain ⟨fuel, rfl⟩ : ∃ k, fuel = k + 1 := ⟨fuel - 1, by omega⟩
      simp only [run, hnext]
      exact hrun fuel (by omega)

/-! ## What holds however a loop ends -/

/-- What a turn preserves, whether or not the loop ends. -/
def Preserves (p : σ → Prop) (q : Exit σ α → Prop) : Turn σ α → Prop
  | .Continue s => p s
  | .Leave e => q e

/-- What one turn notes, turn after turn. -/
def trace {ν : Type*} (turn : σ → Turn σ α) (note : σ → List ν) : Nat → σ → List ν
  | 0, _ => []
  | fuel + 1, s => note s ++
    match turn s with
    | .Continue s => trace turn note fuel s
    | .Leave _ => []

/-- More fuel than a loop needs changes nothing. -/
theorem run_mono {ν : Type*} {turn : σ → Turn σ α} (note : σ → List ν) {fuel fuel' : Nat} {s : σ}
    {e : Exit σ α} (hrun : run turn fuel s = some e) (hle : fuel ≤ fuel') :
    run turn fuel' s = some e ∧ trace turn note fuel' s = trace turn note fuel s := by
  induction fuel generalizing fuel' s with
  | zero => cases hrun
  | succ fuel ih =>
    obtain ⟨fuel', rfl⟩ : ∃ k, fuel' = k + 1 := ⟨fuel' - 1, by omega⟩
    unfold run at hrun ⊢
    unfold trace
    cases h : turn s with
    | Leave e' =>
      rw [h] at hrun
      exact ⟨hrun, rfl⟩
    | Continue s' =>
      rw [h] at hrun
      obtain ⟨hrun', htrace⟩ := ih hrun (Nat.le_of_succ_le_succ hle)
      exact ⟨hrun', by simp only [htrace]⟩

/-- An invariant that relates the state of a loop to what its turns have noted. -/
theorem run_trace {ν : Type*} {turn : σ → Turn σ α} (note : σ → List ν) {p : List ν → σ → Prop}
    {q : List ν → Exit σ α → Prop}
    (hturn : ∀ notes s, p notes s →
      Preserves (p (notes ++ note s)) (q (notes ++ note s)) (turn s))
    {fuel : Nat} (notes : List ν) {s : σ} {e : Exit σ α} (hs : p notes s)
    (hrun : run turn fuel s = some e) : q (notes ++ trace turn note fuel s) e := by
  induction fuel generalizing notes s with
  | zero => cases hrun
  | succ fuel ih =>
    have hnext := hturn notes s hs
    unfold run at hrun
    unfold trace
    cases h : turn s with
    | Leave e' =>
      rw [h] at hnext hrun
      cases hrun
      rwa [List.append_nil]
    | Continue s' =>
      rw [h] at hnext hrun
      rw [← List.append_assoc]
      exact ih _ hnext hrun

/-- The loop from `s` comes to a turn in `t`. -/
inductive Visits (turn : σ → Turn σ α) : σ → σ → Prop
  | here (s : σ) : Visits turn s s
  | later {s s' t : σ} : turn s = .Continue s' → Visits turn s' t → Visits turn s t

/-- What holds of all that a loop notes holds of what each of its turns notes. -/
theorem forall_trace_iff {ν : Type*} {turn : σ → Turn σ α} {note : σ → List ν} {ok : ν → Prop}
    {fuel : Nat} {s : σ} {e : Exit σ α} (hrun : run turn fuel s = some e) :
    (∀ n ∈ trace turn note fuel s, ok n) ↔ ∀ t, Visits turn s t → ∀ n ∈ note t, ok n := by
  induction fuel generalizing s with
  | zero => cases hrun
  | succ fuel ih =>
    unfold run at hrun
    unfold trace
    rw [List.forall_mem_append]
    cases h : turn s with
    | Leave e' =>
      constructor
      · rintro ⟨hok, -⟩ t hvisits
        cases hvisits with
        | here => exact hok
        | later hnext _ =>
          rw [h] at hnext
          cases hnext
      · intro hok
        exact ⟨hok s (.here s), by simp⟩
    | Continue s' =>
      rw [h] at hrun
      dsimp only
      rw [ih hrun]
      constructor
      · rintro ⟨hok, hrest⟩ t hvisits
        cases hvisits with
        | here => exact hok
        | later hnext hlater =>
          rw [h] at hnext
          cases hnext
          exact hrest t hlater
      · intro hok
        exact ⟨hok s (.here s), fun t hvisits => hok t (.later h hvisits)⟩

theorem run_preserves {turn : σ → Turn σ α} {p : σ → Prop} {q : Exit σ α → Prop}
    (hturn : ∀ s, p s → Preserves p q (turn s)) {fuel : Nat} {s : σ} {e : Exit σ α} (hs : p s)
    (hrun : run turn fuel s = some e) : q e := by
  have hturn' : ∀ (_ : List Unit) s, p s → Preserves p q (turn s) := fun _ => hturn
  exact run_trace (p := fun _ => p) (q := fun _ => q) (fun _ => []) hturn' [] hs hrun

end Loop
