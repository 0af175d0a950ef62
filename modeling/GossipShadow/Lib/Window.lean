-- Deduplication within a window of time. Offers come in the order of their
-- times; an offer is accepted when none of its key was accepted less than
-- `ttl` before it. What is too old is forgotten from the front.
import Mathlib.Data.List.Pairwise
import Mathlib.Data.List.TakeWhile

namespace Window

structure Offer (K V : Type*) where
  time : Nat
  key : K
  value : V
deriving DecidableEq, Repr

variable {K V : Type*} {ttl now : Nat} {log gone kept : List (Offer K V)} {key : K}

/-- The key was accepted less than `ttl` ago. -/
def Recent (ttl : Nat) (log : List (Offer K V)) (now : Nat) (key : K) : Prop :=
  ∃ o ∈ log, o.key = key ∧ now < o.time + ttl

/-- The last offer of the key in the log. -/
def Latest (log : List (Offer K V)) (key : K) (value : V) : Prop :=
  ∃ before o after, log = before ++ o :: after ∧ o.key = key ∧ o.value = value ∧
    ∀ other ∈ after, other.key ≠ key

def InOrder (log : List (Offer K V)) : Prop := log.Pairwise fun a b => a.time ≤ b.time

/-- What is too old at `now`. -/
def old (ttl now : Nat) (o : Offer K V) : Bool := decide (o.time + ttl ≤ now)

theorem old_mono {later : Nat} (h : now ≤ later) {o : Offer K V} (ho : old ttl now o = true) :
    old ttl later o = true := by
  simp only [old, decide_eq_true_eq] at ho ⊢
  omega

/-- What is too old at the front of the log makes no key recent. -/
theorem recent_append_iff (hgone : ∀ o ∈ gone, old ttl now o = true) :
    Recent ttl (gone ++ kept) now key ↔ Recent ttl kept now key := by
  constructor
  · rintro ⟨o, ho, hkey, hlt⟩
    rcases List.mem_append.mp ho with ho | ho
    · have hold := hgone o ho
      simp only [old, decide_eq_true_eq] at hold
      omega
    · exact ⟨o, ho, hkey, hlt⟩
  · rintro ⟨o, ho, hkey, hlt⟩
    exact ⟨o, List.mem_append_right _ ho, hkey, hlt⟩

/-- When nothing that is kept is too old, the recent keys are the keys that are kept. -/
theorem recent_iff_mem (hkept : ∀ o ∈ kept, old ttl now o = false) :
    Recent ttl kept now key ↔ key ∈ kept.map (·.key) := by
  rw [List.mem_map]
  constructor
  · rintro ⟨o, ho, hkey, -⟩
    exact ⟨o, ho, hkey⟩
  · rintro ⟨o, ho, hkey⟩
    have hyoung := hkept o ho
    simp only [old, decide_eq_false_iff_not] at hyoung
    exact ⟨o, ho, hkey, by omega⟩

/-- In a log that is in order, all that comes after the first young offer is young. -/
theorem young_of_mem_dropWhile (hordered : InOrder log) {o : Offer K V}
    (ho : o ∈ log.dropWhile (old ttl now)) : old ttl now o = false := by
  induction log with
  | nil => cases ho
  | cons first log ih =>
    obtain ⟨hfirst, hordered⟩ := List.pairwise_cons.mp hordered
    rw [List.dropWhile_cons] at ho
    cases hold : old ttl now first with
    | true =>
      rw [if_pos hold] at ho
      exact ih hordered ho
    | false =>
      rw [if_neg (by simp [hold])] at ho
      rcases List.mem_cons.mp ho with rfl | ho
      · exact hold
      · have hle := hfirst o ho
        simp only [old, decide_eq_false_iff_not] at hold ⊢
        omega

theorem InOrder.snoc (h : InOrder log) {o : Offer K V} (ho : ∀ other ∈ log, other.time ≤ o.time) :
    InOrder (log ++ [o]) := by
  unfold InOrder
  rw [List.pairwise_append]
  refine ⟨h, List.pairwise_singleton _ o, ?_⟩
  intro other hother last hlast
  rw [List.mem_singleton.mp hlast]
  exact ho other hother

/-- A key that is kept once: the one that is kept is its last offer. -/
theorem latest_of_mem_kept (hnodup : (kept.map (·.key)).Nodup) {o : Offer K V} (ho : o ∈ kept) :
    Latest (gone ++ kept) o.key o.value := by
  obtain ⟨before, after, rfl⟩ := List.append_of_mem ho
  refine ⟨gone ++ before, o, after, by simp, rfl, rfl, ?_⟩
  intro other hother hsame
  rw [List.map_append, List.map_cons, List.nodup_append, List.nodup_cons] at hnodup
  exact hnodup.2.1.1 (List.mem_map.mpr ⟨other, hother, hsame⟩)

end Window
