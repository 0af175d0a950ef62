-- A ledger of fates. A worker takes items, one at a time; it holds at most one
-- of them, hands it on or loses it, and it may report an item as it takes it.
-- Each item that was taken has one fate.
import Mathlib.Data.List.Basic

inductive Fate where
  | Held
  | Handed
  | Reported
  | Lost
deriving DecidableEq, Repr

namespace Ledger

variable {α β : Type*} {f : α → β} {entries before after : List (α × Fate)} {x : α} {y : β}

/-- The items with a fate. -/
def having (fate : Fate) (entries : List (α × Fate)) : List α :=
  (entries.filter fun e => decide (e.2 = fate)).map (·.1)

@[simp] theorem having_nil (fate : Fate) : having fate ([] : List (α × Fate)) = [] := rfl

@[simp] theorem having_append (fate : Fate) (entries entries' : List (α × Fate)) :
    having fate (entries ++ entries') = having fate entries ++ having fate entries' := by
  simp [having]

@[simp] theorem having_cons (fate : Fate) (e : α × Fate) (entries : List (α × Fate)) :
    having fate (e :: entries) =
      if e.2 = fate then e.1 :: having fate entries else having fate entries := by
  unfold having
  rw [List.filter_cons]
  by_cases h : e.2 = fate <;> simp [h]

theorem having_eq_nil_iff {fate : Fate} : having fate entries = [] ↔ ∀ e ∈ entries, e.2 ≠ fate := by
  unfold having
  rw [List.map_eq_nil_iff, List.filter_eq_nil_iff]
  simp

/-- The ledger of what was taken. An item is handed on or lost in the form that `f` gives it, and
what came after the item that is held was reported at once. -/
structure Books (f : α → β) (entries : List (α × Fate)) (taken : List α) (held : Option β)
    (handed lost : List β) (reported : List α) : Prop where
  taken : entries.map (·.1) = taken
  held : (having .Held entries).map f = held.toList
  handed : (having .Handed entries).map f = handed
  lost : (having .Lost entries).map f = lost
  reported : having .Reported entries = reported
  last : ∀ before e after, entries = before ++ e :: after → e.2 = .Held →
    ∀ e' ∈ after, e'.2 = .Reported

theorem Books.empty (f : α → β) : Books f [] [] none [] [] [] :=
  ⟨rfl, rfl, rfl, rfl, rfl, by simp⟩

variable {taken reported : List α} {handed lost : List β} {held : Option β}

theorem Books.none_held (h : Books f entries taken none handed lost reported) :
    ∀ e ∈ entries, e.2 ≠ .Held := by
  have hnil := h.held
  rw [Option.toList_none, List.map_eq_nil_iff] at hnil
  exact having_eq_nil_iff.mp hnil

/-- An item is taken, and held. -/
theorem Books.take (h : Books f entries taken none handed lost reported) (x : α) :
    Books f (entries ++ [(x, .Held)]) (taken ++ [x]) (some (f x)) handed lost reported := by
  have hnone : having .Held entries = [] := having_eq_nil_iff.mpr h.none_held
  refine ⟨by simp [h.taken], by simp [hnone], by simp [h.handed], by simp [h.lost],
    by simp [h.reported], ?_⟩
  intro before e after he hheld e' he'
  rcases List.eq_nil_or_concat after with rfl | ⟨rest, last, rfl⟩
  · cases he'
  · have he : entries ++ [(x, Fate.Held)] = (before ++ e :: rest) ++ [last] := by simpa using he
    obtain ⟨rfl, -⟩ := List.append_inj' he rfl
    exact absurd hheld (h.none_held e (by simp))

/-- An item is taken and reported at once. -/
theorem Books.report (h : Books f entries taken held handed lost reported) (x : α) :
    Books f (entries ++ [(x, .Reported)]) (taken ++ [x]) held handed lost (reported ++ [x]) := by
  refine ⟨by simp [h.taken], by simp [h.held], by simp [h.handed], by simp [h.lost],
    by simp [h.reported], ?_⟩
  intro before e after he hheld e' he'
  rcases List.eq_nil_or_concat after with rfl | ⟨rest, last, rfl⟩
  · cases he'
  · have he : entries ++ [(x, Fate.Reported)] = (before ++ e :: rest) ++ [last] := by simpa using he
    obtain ⟨hentries, hlast⟩ := List.append_inj' he rfl
    rw [List.concat_eq_append] at he'
    rcases List.mem_append.mp he' with he' | he'
    · exact h.last before e rest hentries hheld e' he'
    · cases hlast
      rw [List.mem_singleton.mp he']

/-- Where the item that is held stands in the ledger. -/
theorem Books.split (h : Books f entries taken (some y) handed lost reported) :
    ∃ before x after, entries = before ++ (x, .Held) :: after ∧ f x = y ∧
      having .Held before = [] ∧ ∀ fate, fate ≠ .Reported → having fate after = [] := by
  have hheld := h.held
  have hsome : ∃ e ∈ entries, e.2 = .Held := by
    by_contra hnone
    rw [not_exists] at hnone
    have hnil : having .Held entries = [] := having_eq_nil_iff.mpr fun e he he' => hnone e ⟨he, he'⟩
    rw [hnil] at hheld
    cases hheld
  obtain ⟨⟨x, fate⟩, he, rfl⟩ := hsome
  obtain ⟨before, after, rfl⟩ := List.append_of_mem he
  have hafter : ∀ fate, fate ≠ .Reported → having fate after = [] := by
    intro fate hfate
    rw [having_eq_nil_iff]
    intro e' he'
    rw [h.last before _ after rfl rfl e' he']
    exact hfate.symm
  simp only [having_append, having_cons, if_true, hafter .Held (by simp), List.map_append,
    List.map_cons, List.map_nil, Option.toList_some] at hheld
  have hheld : (having .Held before).map f ++ [f x] = [] ++ [y] := hheld
  obtain ⟨hbefore, hx⟩ := List.append_inj' hheld rfl
  exact ⟨before, x, after, rfl, List.singleton_inj.mp hx, List.map_eq_nil_iff.mp hbefore, hafter⟩

/-- Nothing is held, so nothing comes after what is held. -/
theorem last_of_none_held (h : having .Held entries = []) : ∀ before e after,
    entries = before ++ e :: after → e.2 = .Held → ∀ e' ∈ after, e'.2 = .Reported := by
  intro before e after he hheld
  exact absurd hheld (having_eq_nil_iff.mp h e (by simp [he]))

/-- The item that is held is handed on. -/
theorem Books.hand (h : Books f entries taken (some y) handed lost reported) :
    ∃ entries', Books f entries' taken none (handed ++ [y]) lost reported := by
  obtain ⟨before, x, after, rfl, rfl, hbefore, hafter⟩ := h.split
  have hheld : having .Held (before ++ (x, .Handed) :: after) = [] := by
    simp [hbefore, hafter .Held (by simp)]
  refine ⟨before ++ (x, .Handed) :: after, ?_, by simp [hheld], ?_, ?_, ?_, last_of_none_held hheld⟩
  · simpa using h.taken
  · simpa [hafter .Handed (by simp)] using h.handed
  · simpa using h.lost
  · simpa using h.reported

/-- The item that is held is lost. -/
theorem Books.lose (h : Books f entries taken (some y) handed lost reported) :
    ∃ entries', Books f entries' taken none handed (lost ++ [y]) reported := by
  obtain ⟨before, x, after, rfl, rfl, hbefore, hafter⟩ := h.split
  have hheld : having .Held (before ++ (x, .Lost) :: after) = [] := by
    simp [hbefore, hafter .Held (by simp)]
  refine ⟨before ++ (x, .Lost) :: after, ?_, by simp [hheld], ?_, ?_, ?_, last_of_none_held hheld⟩
  · simpa using h.taken
  · simpa using h.handed
  · simpa [hafter .Lost (by simp)] using h.lost
  · simpa using h.reported

/-- There are as many items as fates. -/
theorem Books.length (h : Books f entries taken held handed lost reported) :
    taken.length = held.toList.length + handed.length + lost.length + reported.length := by
  have hall : ∀ entries : List (α × Fate), entries.length = (having .Held entries).length +
      (having .Handed entries).length + (having .Lost entries).length +
      (having .Reported entries).length := by
    intro entries
    induction entries with
    | nil => rfl
    | cons e entries ih =>
      obtain ⟨x, fate⟩ := e
      cases fate <;> simp [ih] <;> omega
  rw [← h.taken, ← h.held, ← h.handed, ← h.lost, ← h.reported]
  simp only [List.length_map]
  exact hall entries

end Ledger
