-- Flooding. A node that learns an item hands it to its neighbours, and what it
-- hands on travels and arrives. So an item that a node never gets was kept from
-- it at the step at which a neighbour learned the item.
import Mathlib.Logic.Relation
import GossipShadow.Lib.Machine

/-- What a network shows of itself: who knows which items, and what is on its way to whom. -/
structure Flood (σ V X : Type*) where
  knows : σ → V → X → Prop
  travels : σ → V → V → X → Prop

namespace Flood

variable {σ ι V X : Type*} {M : Machine σ ι} {f : Flood σ V X}

/-- `w` knows the item or will get it from `v`. -/
def Offered (f : Flood σ V X) (s : σ) (v w : V) (x : X) : Prop :=
  f.knows s w x ∨ f.travels s v w x

/-- The step from `s` to `t` is the one at which `v` learns the item. -/
def Learns (f : Flood σ V X) (s t : σ) (v : V) (x : X) : Prop := ¬ f.knows s v x ∧ f.knows t v x

/-- From `v` to `w` nothing is lost. -/
def Delivers (M : Machine σ ι) (f : Flood σ V X) (v w : V) : Prop :=
  ∀ s i t x, M.Reachable s → M.step s i t → f.Offered s v w x → f.Offered t v w x

/-- In this run, `v` hands the item to `w` when it learns it. -/
def Hands (M : Machine σ ι) (f : Flood σ V X) (s : σ) (is : List ι) (x : X) (v w : V) : Prop :=
  ∀ before i after t u, is = before ++ i :: after → M.Run s before t → M.step t i u →
    f.Learns t u v x → f.Offered u v w x

theorem Delivers.run {v w : V} (h : Delivers M f v w) {s t : σ} {is : List ι}
    (hs : M.Reachable s) (hrun : M.Run s is t) {x : X} (hx : f.Offered s v w x) :
    f.Offered t v w x := by
  obtain ⟨s₀, before, hs₀, hbefore⟩ := hs
  induction hrun with
  | nil => exact hx
  | snoc hrun hstep ih => exact h _ _ _ _ ⟨s₀, _, hs₀, hbefore.append hrun⟩ hstep ih

/-- What `v` knows and `w` neither knows nor gets, `v` did not hand to `w` when it learned it. -/
theorem Delivers.missed {v w : V} (h : Delivers M f v w) {s t : σ} {is : List ι} {x : X}
    (hs : M.init s) (hrun : M.Run s is t) (hnew : ¬ f.knows s v x) (hv : f.knows t v x)
    (hw : ¬ f.Offered t v w x) :
    ∃ before i after u u', is = before ++ i :: after ∧ M.Run s before u ∧ M.step u i u' ∧
      M.Run u' after t ∧ f.Learns u u' v x ∧ ¬ f.Offered u' v w x := by
  obtain ⟨before, i, after, u, u', hsplit, hbefore, hstep, hafter, hu, hu'⟩ :=
    hrun.gained (p := fun s => f.knows s v x) hnew hv
  refine ⟨before, i, after, u, u', hsplit, hbefore, hstep, hafter, ⟨hu, hu'⟩, ?_⟩
  intro hoffered
  have hreach : M.Reachable u' := ⟨s, before ++ [i], hs, hbefore.snoc hstep⟩
  exact hw (h.run hreach hafter hoffered)

/-- Along links that lose nothing and over which the item is handed on, an item reaches everyone
once nothing is on its way. -/
theorem spreads {link : V → V → Prop} {s t : σ} {is : List ι} {x : X}
    (hdelivers : ∀ v w, link v w → Delivers M f v w)
    (hhands : ∀ v w, link v w → Hands M f s is x v w)
    (hs : M.init s) (hrun : M.Run s is t) (hnew : ∀ v, ¬ f.knows s v x)
    (hsettled : ∀ v w, link v w → ¬ f.travels t v w x) {v w : V}
    (hpath : Relation.ReflTransGen link v w) (hv : f.knows t v x) : f.knows t w x := by
  induction hpath with
  | refl => exact hv
  | @tail u w _ hlink ih =>
    by_contra hw
    have hmissed : ¬ f.Offered t u w x := not_or.mpr ⟨hw, hsettled u w hlink⟩
    obtain ⟨before, i, after, a, b, hsplit, hbefore, hstep, -, hlearns, hnot⟩ :=
      (hdelivers u w hlink).missed hs hrun (hnew u) ih hmissed
    exact hnot (hhands u w hlink before i after a b hsplit hbefore hstep hlearns)

end Flood
