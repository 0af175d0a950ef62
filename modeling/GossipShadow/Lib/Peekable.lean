-- Streams that are polled: the receiving end of a channel, and the adapter
-- that reads one item ahead. What waits in an adapter is its slot, then the
-- channel; every poll takes from the front of that, or leaves it alone.
import Mathlib.Data.List.Basic

/-- The outcome of a poll. -/
inductive Poll (α : Type) where
  | Ready (value : α)
  | Pending
deriving DecidableEq, Repr

namespace Poll

variable {α : Type}

/-- One poll of the receiving end of a channel: its oldest item, or the end of
the stream once the sending ends are gone. -/
def recv (closed : Bool) : List α → Poll (Option α) × List α
  | item :: items => (.Ready (some item), items)
  | [] => (if closed then .Ready none else .Pending, [])

end Poll

/-- A stream that can show its next item before it gives it out. The stream
below is fused: after its end it is not polled again. -/
structure Peekable (α : Type) where
  peeked : Option α
  done : Bool
deriving DecidableEq, Repr

namespace Peekable

variable {α : Type}

def new : Peekable α := { peeked := none, done := false }

/-- One poll of the fused stream. -/
def poll_fused (closed : Bool) (p : Peekable α) (items : List α) :
    Poll (Option α) × Peekable α × List α :=
  if p.done then (.Ready none, p, items)
  else match Poll.recv closed items with
    | (.Ready none, rest) => (.Ready none, { p with done := true }, rest)
    | (polled, rest) => (polled, p, rest)

def poll_peek (closed : Bool) (p : Peekable α) (items : List α) :
    Poll (Option α) × Peekable α × List α :=
  match p.peeked with
  | some item => (.Ready (some item), p, items)
  | none => match p.poll_fused closed items with
    | (.Ready (some item), p', rest) => (.Ready (some item), { p' with peeked := some item }, rest)
    | unchanged => unchanged

def poll_next (closed : Bool) (p : Peekable α) (items : List α) :
    Poll (Option α) × Peekable α × List α :=
  match p.peeked with
  | some item => (.Ready (some item), { p with peeked := none }, items)
  | none => p.poll_fused closed items

/-- What the adapter still gives out: its slot, then the channel. -/
def waiting (p : Peekable α) (items : List α) : List α := p.peeked.toList ++ items

/-- The fuse only blows when the channel is closed and empty. -/
def Sound (closed : Bool) (p : Peekable α) (items : List α) : Prop :=
  p.done = true → closed = true ∧ p.peeked = none ∧ items = []

@[simp] theorem waiting_new (items : List α) : (new : Peekable α).waiting items = items := rfl

theorem sound_new (closed : Bool) (items : List α) : (new : Peekable α).Sound closed items := by
  simp [Sound, new]

/-- A sound adapter that waits for nothing gives the end of the stream, or nothing yet. -/
def emptyPoll (closed : Bool) : Poll (Option α) := if closed then .Ready none else .Pending

@[simp] theorem emptyPoll_true : (emptyPoll true : Poll (Option α)) = .Ready none := rfl

@[simp] theorem emptyPoll_false : (emptyPoll false : Poll (Option α)) = .Pending := rfl

/-- An item that is given out was the first to wait. -/
theorem poll_next_some {closed : Bool} {p p' : Peekable α} {items items' : List α} {item : α}
    (h : p.poll_next closed items = (.Ready (some item), p', items')) :
    p.waiting items = item :: p'.waiting items' := by
  obtain ⟨peeked, done⟩ := p
  unfold poll_next at h
  cases peeked with
  | some x =>
    cases h
    rfl
  | none =>
    cases done with
    | true => cases h
    | false =>
      cases items with
      | cons x rest =>
        cases h
        rfl
      | nil => cases closed <;> cases h

/-- Nothing is lost when there is nothing yet. -/
theorem poll_next_pending {closed : Bool} {p p' : Peekable α} {items items' : List α}
    (h : p.poll_next closed items = (.Pending, p', items')) : p' = p ∧ items' = items := by
  obtain ⟨peeked, done⟩ := p
  unfold poll_next at h
  cases peeked with
  | some x => cases h
  | none =>
    cases done with
    | true => cases h
    | false =>
      cases items with
      | cons x rest => cases h
      | nil =>
        cases closed with
        | true => cases h
        | false =>
          cases h
          exact ⟨rfl, rfl⟩

/-- What one `poll_next` does: it gives out the front of what waits. -/
theorem poll_next_spec {closed : Bool} {p : Peekable α} {items : List α}
    (h : p.Sound closed items) :
    (p.poll_next closed items).2.1.Sound closed (p.poll_next closed items).2.2 ∧
      (match p.waiting items with
        | [] => (p.poll_next closed items).1 = emptyPoll closed ∧
            (p.poll_next closed items).2.1.waiting (p.poll_next closed items).2.2 = []
        | item :: rest => (p.poll_next closed items).1 = .Ready (some item) ∧
            (p.poll_next closed items).2.1.waiting (p.poll_next closed items).2.2 = rest) := by
  obtain ⟨peeked, done⟩ := p
  cases peeked with
  | some item =>
    have hd : done = false := by
      cases done
      · rfl
      · simpa using (h rfl).2.1
    subst hd
    simp [poll_next, waiting, Sound]
  | none =>
    cases done with
    | true =>
      obtain ⟨hc, -, hi⟩ := h rfl
      simp_all [poll_next, poll_fused, waiting, Sound, emptyPoll]
    | false =>
      cases items with
      | cons item rest => simp [poll_next, poll_fused, Poll.recv, waiting, Sound]
      | nil => cases closed <;> simp [poll_next, poll_fused, Poll.recv, waiting, Sound, emptyPoll]

/-- What one `poll_peek` does: it shows the front of what waits and takes nothing out. -/
theorem poll_peek_spec {closed : Bool} {p : Peekable α} {items : List α}
    (h : p.Sound closed items) :
    (p.poll_peek closed items).2.1.Sound closed (p.poll_peek closed items).2.2 ∧
      (p.poll_peek closed items).2.1.waiting (p.poll_peek closed items).2.2 = p.waiting items ∧
      (match p.waiting items with
        | [] => (p.poll_peek closed items).1 = emptyPoll closed
        | item :: _ => (p.poll_peek closed items).1 = .Ready (some item) ∧
            (p.poll_peek closed items).2.1.peeked = some item) := by
  obtain ⟨peeked, done⟩ := p
  cases peeked with
  | some item => exact ⟨h, rfl, rfl, rfl⟩
  | none =>
    cases done with
    | true =>
      obtain ⟨hc, -, hi⟩ := h rfl
      simp_all [poll_peek, poll_fused, waiting, Sound, emptyPoll]
    | false =>
      cases items with
      | cons item rest => simp [poll_peek, poll_fused, Poll.recv, waiting, Sound]
      | nil => cases closed <;> simp [poll_peek, poll_fused, Poll.recv, waiting, Sound, emptyPoll]

/-- An item that is shown is in the slot, and the next poll gives it out. -/
theorem poll_next_of_peek {closed : Bool} {p p' : Peekable α} {items items' : List α} {item : α}
    (h : p.poll_peek closed items = (.Ready (some item), p', items')) :
    p'.poll_next closed items' = (.Ready (some item), { p' with peeked := none }, items') := by
  have hslot : p'.peeked = some item := by
    unfold poll_peek at h
    split at h
    · rename_i hpeeked
      cases h
      exact hpeeked
    · split at h
      · cases h
        rfl
      · rename_i hnot
        exact absurd h (hnot item p' items')
  simp [poll_next, hslot]

/-- Polls take from the front of the channel only. -/
theorem poll_fused_suffix (closed : Bool) (p : Peekable α) (items : List α) :
    (p.poll_fused closed items).2.2 <:+ items := by
  unfold poll_fused
  split
  · exact List.suffix_refl _
  · cases items with
    | nil => cases closed <;> exact List.suffix_refl _
    | cons item items => exact List.suffix_cons item items

theorem poll_next_suffix (closed : Bool) (p : Peekable α) (items : List α) :
    (p.poll_next closed items).2.2 <:+ items := by
  unfold poll_next
  split
  · exact List.suffix_refl _
  · exact poll_fused_suffix closed p items

theorem poll_peek_suffix (closed : Bool) (p : Peekable α) (items : List α) :
    (p.poll_peek closed items).2.2 <:+ items := by
  have hfused := poll_fused_suffix closed p items
  unfold poll_peek
  split
  · exact List.suffix_refl _
  · split
    · rename_i h
      rwa [h] at hfused
    · exact hfused

/-- An open channel has blown no fuse. -/
theorem sound_open {p : Peekable α} {items : List α} :
    p.Sound false items ↔ p.done = false := by
  unfold Sound
  cases p.done <;> simp

end Peekable
