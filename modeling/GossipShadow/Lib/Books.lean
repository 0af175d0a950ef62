-- Two parties keep books on the same thing. The near one enters a message as
-- it sends it, the far one as it arrives, and the far one may enter less than
-- the message allows. The far book never gets ahead.
import Mathlib.Order.Monotone.Basic

/-- The near book, the messages on their way in the order in which they arrive, and the far book. -/
structure Books (σ μ : Type*) where
  near : σ
  pending : List μ
  far : σ

namespace Books

variable {σ μ : Type*} [Preorder σ] {enter : σ → μ → σ}

/-- Were all pending messages entered in the far book, it would not be ahead of the near one. -/
def Behind (enter : σ → μ → σ) (b : Books σ μ) : Prop := b.pending.foldl enter b.far ≤ b.near

/-- The near party sends: it enters the messages, and they are on their way. -/
theorem Behind.send (hmono : ∀ m, Monotone fun s => enter s m) {b : Books σ μ}
    (h : b.Behind enter) (messages : List μ) :
    Behind enter { near := messages.foldl enter b.near, pending := b.pending ++ messages
                   far := b.far } := by
  unfold Behind at *
  rw [List.foldl_append]
  exact List.foldl_monotone hmono messages h

/-- A message arrives, and the far party enters no more than it says. -/
theorem Behind.arrive (hmono : ∀ m, Monotone fun s => enter s m) {near far far' : σ} {m : μ}
    {rest : List μ} (h : Behind enter { near, pending := m :: rest, far })
    (hfar : far' ≤ enter far m) : Behind enter { near, pending := rest, far := far' } :=
  (List.foldl_monotone hmono rest hfar).trans h

/-- The far book goes down on its own. -/
theorem Behind.lower (hmono : ∀ m, Monotone fun s => enter s m) {near far far' : σ}
    {pending : List μ} (h : Behind enter { near, pending, far }) (hfar : far' ≤ far) :
    Behind enter { near, pending, far := far' } :=
  (List.foldl_monotone hmono pending hfar).trans h

omit [Preorder σ] in
/-- Messages that enter nothing may come and go. -/
theorem foldl_filter_of_neutral {keep : μ → Bool} (hneutral : ∀ s m, keep m = false → enter s m = s)
    (messages : List μ) (s : σ) :
      (messages.filter keep).foldl enter s = messages.foldl enter s := by
  induction messages generalizing s with
  | nil => rfl
  | cons m messages ih =>
    cases hm : keep m with
    | true => simp [hm, ih]
    | false => simp [hm, ih, hneutral s m hm]

/-- With nothing pending that counts, the far book is not ahead. -/
theorem Behind.settled {b : Books σ μ} (h : b.Behind enter)
    (hneutral : ∀ s, ∀ m ∈ b.pending, enter s m = s) : b.far ≤ b.near := by
  have hfold : ∀ (pending : List μ) (s : σ), (∀ s, ∀ m ∈ pending, enter s m = s) →
      pending.foldl enter s = s := by
    intro pending
    induction pending with
    | nil => exact fun _ _ => rfl
    | cons m pending ih =>
      intro s hs
      rw [List.foldl_cons, hs s m (by simp)]
      exact ih s fun s m hm => hs s m (by simp [hm])
  have := h
  rwa [Behind, hfold b.pending b.far hneutral] at this

end Books
