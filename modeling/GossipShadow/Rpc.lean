-- The queue between the behaviour and the handlers of one peer (rpc.rs): a
-- sender, two channels, and receivers that read one item ahead.
import GossipShadow.Lib.Peekable
import GossipShadow.Types

namespace libp2p_dog

/-- The values of a `usize` counter. -/
def usizeSize : Nat := UInt64.size

/-- `AtomicUsize::fetch_sub(1)`, which wraps around at zero. -/
def fetch_sub (counter : Nat) : Nat := (counter + (usizeSize - 1)) % usizeSize

/-- The sender, with what it shares with its receivers: the counter `len` and the contents of the
two channels. The priority channel is unbounded; the other holds `priority_cap` items, which is
also the bound that `send_transaction` puts on `len`. The sender keeps both ends of the channels,
so they are open as long as it lives. -/
structure Sender (P : Type) where
  priority_cap : Nat
  len : Nat
  priority : List (RpcOut P)
  non_priority : List (RpcOut P)
deriving DecidableEq, Repr

structure Receiver (P : Type) where
  priority_receiver : Peekable (RpcOut P)
  non_priority_receiver : Peekable (RpcOut P)
deriving DecidableEq, Repr

variable {P : Type}

namespace Sender

/-- For the capacities 0 and 1 the code panics, since a bounded channel has room for one at
least. -/
def new (cap : Nat) : Sender P :=
  { priority_cap := cap / 2, len := 0, priority := [], non_priority := [] }

def new_receiver (_ : Sender P) : Receiver P :=
  { priority_receiver := .new, non_priority_receiver := .new }

def send_transaction (s : Sender P) (rpc : RpcOut P) : Except (RpcOut P) (Sender P) :=
  match rpc with
  | .Publish _ _ =>
    if s.len ≥ s.priority_cap then .error rpc
    else .ok { s with len := s.len + 1, priority := s.priority ++ [rpc] }
  | .HaveTx _ | .ResetRoute _ => .ok { s with priority := s.priority ++ [rpc] }
  | .Forward _ _ =>
    if s.non_priority.length ≥ s.priority_cap then .error rpc
    else .ok { s with non_priority := s.non_priority ++ [rpc] }

/-! ## What the sender accepts -/

/-- The sender after it accepted the RPCs. -/
def push (s : Sender P) (rpcs : List (RpcOut P)) : Sender P :=
  { s with
    len := s.len + rpcs.countP (·.isPublish)
    priority := s.priority ++ rpcs.filter (!·.isForward)
    non_priority := s.non_priority ++ rpcs.filter (·.isForward) }

@[simp] theorem push_nil (s : Sender P) : s.push [] = s := by simp [push]

theorem push_append (s : Sender P) (rpcs rpcs' : List (RpcOut P)) :
    s.push (rpcs ++ rpcs') = (s.push rpcs).push rpcs' := by
  simp [push, Nat.add_assoc]

/-- The only thing that `send_transaction` does is to accept the RPC. -/
theorem send_transaction_ok {s s' : Sender P} {rpc : RpcOut P}
    (h : s.send_transaction rpc = .ok s') : s' = s.push [rpc] := by
  cases rpc with
  | Publish tx timeout =>
    simp only [send_transaction] at h
    split at h
    · cases h
    · cases h
      simp [push, RpcOut.isPublish, RpcOut.isForward]
  | Forward tx timeout =>
    simp only [send_transaction] at h
    split at h
    · cases h
    · cases h
      simp [push, RpcOut.isPublish, RpcOut.isForward]
  | HaveTx m =>
    cases h
    simp [push, RpcOut.isPublish, RpcOut.isForward]
  | ResetRoute m =>
    cases h
    simp [push, RpcOut.isPublish, RpcOut.isForward]

/-- A control RPC is always accepted. -/
theorem send_control {s : Sender P} {rpc : RpcOut P} (h : rpc.tx? = none) :
    s.send_transaction rpc = .ok (s.push [rpc]) := by
  cases hs : s.send_transaction rpc with
  | ok s' => rw [send_transaction_ok hs]
  | error e => cases rpc <;> simp_all [send_transaction, RpcOut.tx?]

end Sender

namespace Receiver

/-- The end of the poll of one queue by `poll_stale`: `some` when the head is a transaction of the
queue that has timed out, and else whether the poll ended with `Poll::Ready(None)`. The test
`timed` says which RPCs of the queue carry a timeout; `elapsed` says which timeouts are over. -/
def poll_stale_queue (closed : Bool) (timed : RpcOut P → Option Delay) (elapsed : Delay → Bool)
    (p : Peekable (RpcOut P)) (items : List (RpcOut P)) :
    (Option (RpcOut P) × Bool) × Peekable (RpcOut P) × List (RpcOut P) :=
  match p.poll_peek closed items with
  | (.Ready (some rpc), p, items) =>
    match timed rpc with
    | some timeout =>
      if elapsed timeout then
        match p.poll_next closed items with
        | (.Ready dropped, p, items) => ((dropped, false), p, items)
        | (.Pending, p, items) => ((none, false), p, items)
      else ((none, true), p, items)
    | none => ((none, false), p, items)
  | (.Ready none, p, items) => ((none, true), p, items)
  | (.Pending, p, items) => ((none, false), p, items)

/-- The timeouts that `poll_stale` looks at in the priority queue. -/
def publish_timeout : RpcOut P → Option Delay
  | .Publish _ timeout => some timeout
  | _ => none

/-- The timeouts that `poll_stale` looks at in the other queue. -/
def forward_timeout : RpcOut P → Option Delay
  | .Forward _ timeout => some timeout
  | _ => none

/-- The answer, the receiver and the shared part of the sender. -/
def poll_stale (closed : Bool) (elapsed : Delay → Bool) (r : Receiver P) (s : Sender P) :
    Poll (Option (RpcOut P)) × Receiver P × Sender P :=
  match poll_stale_queue closed publish_timeout elapsed r.priority_receiver s.priority with
  -- the drop is final: `len` is not touched, and the other queue is not looked at
  | ((some dropped, _), p, items) =>
    (.Ready (some dropped), { r with priority_receiver := p }, { s with priority := items })
  | ((none, priority), p, items) =>
    let r := { r with priority_receiver := p }
    let s := { s with priority := items }
    match poll_stale_queue closed forward_timeout elapsed r.non_priority_receiver
        s.non_priority with
    | ((some dropped, _), p, items) =>
      (.Ready (some dropped), { r with non_priority_receiver := p },
        { s with non_priority := items })
    | ((none, non_priority), p, items) =>
      (if priority && non_priority then .Ready none else .Pending,
        { r with non_priority_receiver := p }, { s with non_priority := items })

def poll_is_empty (closed : Bool) (r : Receiver P) (s : Sender P) :
    Bool × Receiver P × Sender P :=
  let (priority, p, items) := r.priority_receiver.poll_peek closed s.priority
  let (non_priority, p', items') := r.non_priority_receiver.poll_peek closed s.non_priority
  ((match priority, non_priority with
    | .Ready none, .Ready none => true
    | _, _ => false),
    { priority_receiver := p, non_priority_receiver := p' },
    { s with priority := items, non_priority := items' })

def poll_next (closed : Bool) (r : Receiver P) (s : Sender P) :
    Poll (Option (RpcOut P)) × Receiver P × Sender P :=
  match r.priority_receiver.poll_next closed s.priority with
  | (.Ready rpc, p, items) =>
    let len := match rpc with
      | some (.Publish _ _) => fetch_sub s.len
      | _ => s.len
    -- the end of the priority stream ends the whole stream here
    (.Ready rpc, { r with priority_receiver := p }, { s with priority := items, len })
  | (.Pending, p, items) =>
    let (polled, p', items') := r.non_priority_receiver.poll_next closed s.non_priority
    (polled, { priority_receiver := p, non_priority_receiver := p' },
      { s with priority := items, non_priority := items' })

end Receiver

/-! ## What the polls of a receiver take -/

namespace Receiver

/-- What a receiver still gives out of the priority queue: its slot, then the channel. -/
def priority_waiting (r : Receiver P) (s : Sender P) : List (RpcOut P) :=
  r.priority_receiver.waiting s.priority

/-- What a receiver still gives out of the other queue. -/
def non_priority_waiting (r : Receiver P) (s : Sender P) : List (RpcOut P) :=
  r.non_priority_receiver.waiting s.non_priority

/-- What a receiver holds in its two slots. -/
def slots (r : Receiver P) : List (RpcOut P) :=
  r.priority_receiver.peeked.toList ++ r.non_priority_receiver.peeked.toList

/-- Neither stream has ended early. -/
structure Sound (closed : Bool) (r : Receiver P) (s : Sender P) : Prop where
  priority : r.priority_receiver.Sound closed s.priority
  non_priority : r.non_priority_receiver.Sound closed s.non_priority

/-- What a poll does: it takes the front of one of the two queues, or nothing. -/
structure Takes (closed : Bool) (r : Receiver P) (s : Sender P) (out : Option (RpcOut P))
    (r' : Receiver P) (s' : Sender P) : Prop where
  sound : r'.Sound closed s'
  priority_cap : s'.priority_cap = s.priority_cap
  priority : s'.priority <:+ s.priority
  non_priority : s'.non_priority <:+ s.non_priority
  taken :
    (out = none ∧ r'.priority_waiting s' = r.priority_waiting s ∧
      r'.non_priority_waiting s' = r.non_priority_waiting s) ∨
    (∃ rpc, out = some rpc ∧ r.priority_waiting s = rpc :: r'.priority_waiting s' ∧
      r'.non_priority_waiting s' = r.non_priority_waiting s) ∨
    (∃ rpc, out = some rpc ∧ r'.priority_waiting s' = r.priority_waiting s ∧
      r.non_priority_waiting s = rpc :: r'.non_priority_waiting s')

/-- The RPC that a poll gave out, if it gave one. -/
def out : Poll (Option (RpcOut P)) → Option (RpcOut P)
  | .Ready rpc => rpc
  | .Pending => none

/-- The counter after an RPC of the priority queue was given out. -/
def len_after (len : Nat) : Option (RpcOut P) → Nat
  | some (.Publish _ _) => fetch_sub len
  | _ => len

/-- `poll_next` gives out the front of the priority queue. Once that is empty it gives out the
front of the other, as long as the sender lives. -/
theorem poll_next_spec {closed : Bool} {r : Receiver P} {s : Sender P} (h : r.Sound closed s) :
    Takes closed r s (out (r.poll_next closed s).1) (r.poll_next closed s).2.1
      (r.poll_next closed s).2.2 ∧
    (match r.priority_waiting s with
      | rpc :: _ => (r.poll_next closed s).1 = .Ready (some rpc) ∧
          (r.poll_next closed s).2.1.non_priority_waiting (r.poll_next closed s).2.2 =
            r.non_priority_waiting s ∧
          (r.poll_next closed s).2.2.len = len_after s.len (some rpc)
      | [] => (r.poll_next closed s).2.2.len = s.len ∧
          if closed then (r.poll_next closed s).1 = .Ready none
          else (r.poll_next closed s).1 = match r.non_priority_waiting s with
            | rpc :: _ => .Ready (some rpc)
            | [] => .Pending) := by
  obtain ⟨hsound, hnext⟩ := Peekable.poll_next_spec h.priority
  obtain ⟨hsound', hnext'⟩ := Peekable.poll_next_spec h.non_priority
  have hchannel := Peekable.poll_next_suffix closed r.priority_receiver s.priority
  have hchannel' := Peekable.poll_next_suffix closed r.non_priority_receiver s.non_priority
  unfold poll_next priority_waiting non_priority_waiting
  revert hsound hnext hchannel
  generalize r.priority_receiver.poll_next closed s.priority = polled
  intro hsound hnext hchannel
  obtain ⟨polled, p, items⟩ := polled
  cases hwaiting : r.priority_receiver.waiting s.priority with
  | cons rpc rest =>
    simp only [hwaiting] at hnext
    obtain ⟨rfl, hrest⟩ := hnext
    refine ⟨⟨⟨hsound, h.non_priority⟩, rfl, hchannel, List.suffix_refl _, .inr (.inl ?_)⟩, rfl, rfl,
        ?_⟩
    · exact ⟨rpc, rfl, by simp [priority_waiting, hwaiting, hrest], rfl⟩
    · cases rpc <;> rfl
  | nil =>
    cases closed with
    | true =>
      simp only [hwaiting, Peekable.emptyPoll_true] at hnext
      obtain ⟨rfl, hrest⟩ := hnext
      refine ⟨⟨⟨hsound, h.non_priority⟩, rfl, hchannel, List.suffix_refl _, .inl ⟨rfl, ?_, rfl⟩⟩,
          rfl, rfl⟩
      simp [priority_waiting, hwaiting, hrest]
    | false =>
      simp only [hwaiting, Peekable.emptyPoll_false] at hnext
      obtain ⟨rfl, hrest⟩ := hnext
      revert hsound' hnext' hchannel'
      generalize r.non_priority_receiver.poll_next false s.non_priority = polled
      intro hsound' hnext' hchannel'
      obtain ⟨polled, p', items'⟩ := polled
      cases hwaiting' : r.non_priority_receiver.waiting s.non_priority with
      | cons rpc rest =>
        simp only [hwaiting'] at hnext'
        obtain ⟨rfl, hrest'⟩ := hnext'
        refine ⟨⟨⟨hsound, hsound'⟩, rfl, hchannel, hchannel', .inr (.inr ⟨rpc, rfl, ?_, ?_⟩)⟩, rfl,
            rfl⟩
        · simp [priority_waiting, hwaiting, hrest]
        · simp [non_priority_waiting, hwaiting', hrest']
      | nil =>
        simp only [hwaiting', Peekable.emptyPoll_false] at hnext'
        obtain ⟨rfl, hrest'⟩ := hnext'
        refine ⟨⟨⟨hsound, hsound'⟩, rfl, hchannel, hchannel', .inl ⟨rfl, ?_, ?_⟩⟩, rfl, rfl⟩
        · simp [priority_waiting, hwaiting, hrest]
        · simp [non_priority_waiting, hwaiting', hrest']

/-- `poll_next` leaves the other queue alone as long as the priority queue has an item. -/
theorem priority_empty_of_taken {closed : Bool} {r : Receiver P} {s : Sender P}
    (h : r.Sound closed s) {rpc : RpcOut P}
    (htaken : r.non_priority_waiting s = rpc :: (r.poll_next closed s).2.1.non_priority_waiting
      (r.poll_next closed s).2.2) : r.priority_waiting s = [] := by
  obtain ⟨-, hnext⟩ := poll_next_spec h
  cases hwaiting : r.priority_waiting s with
  | nil => rfl
  | cons first rest =>
    rw [hwaiting] at hnext
    rw [hnext.2.1] at htaken
    have hlength := congrArg List.length htaken
    simp at hlength

/-- The head of a queue is a transaction that has timed out. -/
def head_stale (timed : RpcOut P → Option Delay) (elapsed : Delay → Bool) :
    List (RpcOut P) → Bool
  | rpc :: _ => (timed rpc).any elapsed
  | [] => false

theorem isPublish_of_head_stale {elapsed : Delay → Bool} {rpc : RpcOut P} {rest : List (RpcOut P)}
    (h : head_stale publish_timeout elapsed (rpc :: rest) = true) : rpc.isPublish = true := by
  cases rpc with
  | Publish _ _ => rfl
  | Forward _ _ | HaveTx _ | ResetRoute _ => cases h

/-- `poll_stale` takes the head of a queue out exactly when it has timed out. -/
theorem poll_stale_queue_spec {closed : Bool} (timed : RpcOut P → Option Delay)
    (elapsed : Delay → Bool) {p : Peekable (RpcOut P)} {items : List (RpcOut P)}
    (h : p.Sound closed items) :
    (poll_stale_queue closed timed elapsed p items).2.1.Sound closed
      (poll_stale_queue closed timed elapsed p items).2.2 ∧
    (poll_stale_queue closed timed elapsed p items).2.2 <:+ items ∧
    (if head_stale timed elapsed (p.waiting items) then
      ∃ rpc, (poll_stale_queue closed timed elapsed p items).1.1 = some rpc ∧
        p.waiting items = rpc :: (poll_stale_queue closed timed elapsed p items).2.1.waiting
          (poll_stale_queue closed timed elapsed p items).2.2
    else (poll_stale_queue closed timed elapsed p items).1.1 = none ∧
      (poll_stale_queue closed timed elapsed p items).2.1.waiting
        (poll_stale_queue closed timed elapsed p items).2.2 = p.waiting items) := by
  obtain ⟨hsound, hwaits, hpeek⟩ := Peekable.poll_peek_spec h
  have hchannel := Peekable.poll_peek_suffix closed p items
  unfold poll_stale_queue
  revert hsound hwaits hpeek hchannel
  generalize p.poll_peek closed items = peek
  intro hsound hwaits hpeek hchannel
  obtain ⟨polled, p₁, items₁⟩ := peek
  simp only at hsound hwaits hpeek hchannel
  cases hwaiting : p.waiting items with
  | nil =>
    rw [hwaiting] at hwaits hpeek
    simp only at hpeek
    subst hpeek
    cases closed with
    | true => exact ⟨hsound, hchannel, rfl, hwaits⟩
    | false => exact ⟨hsound, hchannel, rfl, hwaits⟩
  | cons rpc rest =>
    rw [hwaiting] at hwaits hpeek
    simp only at hpeek
    obtain ⟨rfl, hslot⟩ := hpeek
    cases htimed : timed rpc with
    | none =>
      simp only [head_stale, htimed, Option.any_none, Bool.false_eq_true, if_false]
      exact ⟨hsound, hchannel, trivial, hwaits⟩
    | some timeout =>
      cases helapsed : elapsed timeout with
      | false =>
        simp only [head_stale, htimed, Option.any_some, helapsed, Bool.false_eq_true, if_false]
        exact ⟨hsound, hchannel, trivial, hwaits⟩
      | true =>
        simp only [head_stale, htimed, Option.any_some, helapsed, if_true]
        obtain ⟨hsound', hnext⟩ := Peekable.poll_next_spec hsound
        have hchannel' := (Peekable.poll_next_suffix closed p₁ items₁).trans hchannel
        revert hsound' hnext hchannel'
        generalize p₁.poll_next closed items₁ = next
        intro hsound' hnext hchannel'
        obtain ⟨polled, p₂, items₂⟩ := next
        rw [hwaits] at hnext
        simp only at hnext
        obtain ⟨rfl, hrest⟩ := hnext
        exact ⟨hsound', hchannel', rpc, rfl, by rw [hrest]⟩

/-- `poll_stale` takes out at most one RPC: the head of the priority queue if that is a Publish that
has timed out, or else the head of the other queue if that is a Forward that has. It leaves the
counter alone. -/
theorem poll_stale_spec {closed : Bool} {elapsed : Delay → Bool} {r : Receiver P} {s : Sender P}
    (h : r.Sound closed s) :
    Takes closed r s (out (r.poll_stale closed elapsed s).1) (r.poll_stale closed elapsed s).2.1
      (r.poll_stale closed elapsed s).2.2 ∧
    (r.poll_stale closed elapsed s).2.2.len = s.len ∧
    (head_stale publish_timeout elapsed (r.priority_waiting s) = false →
      (r.poll_stale closed elapsed s).2.1.priority_waiting
        (r.poll_stale closed elapsed s).2.2 = r.priority_waiting s) := by
  obtain ⟨hsound, hchannel, hstale⟩ := poll_stale_queue_spec publish_timeout elapsed h.priority
  obtain ⟨hsound', hchannel', hstale'⟩ :=
    poll_stale_queue_spec forward_timeout elapsed h.non_priority
  unfold poll_stale priority_waiting
  revert hsound hchannel hstale
  generalize poll_stale_queue closed publish_timeout elapsed r.priority_receiver s.priority = polled
  intro hsound hchannel hstale
  obtain ⟨⟨dropped, ended⟩, p, items⟩ := polled
  simp only at hsound hchannel hstale
  cases hhead : head_stale publish_timeout elapsed
      (r.priority_receiver.waiting s.priority) with
  | true =>
    rw [if_pos hhead] at hstale
    obtain ⟨rpc, rfl, hwaits⟩ := hstale
    refine ⟨⟨⟨hsound, h.non_priority⟩, rfl, hchannel, List.suffix_refl _, .inr (.inl ?_)⟩, rfl,
        by simp⟩
    exact ⟨rpc, rfl, hwaits, rfl⟩
  | false =>
    rw [if_neg (by simp [hhead])] at hstale
    obtain ⟨rfl, hwaits⟩ := hstale
    dsimp only
    revert hsound' hchannel' hstale'
    generalize poll_stale_queue closed forward_timeout elapsed r.non_priority_receiver
      s.non_priority = polled
    intro hsound' hchannel' hstale'
    obtain ⟨⟨dropped', ended'⟩, p', items'⟩ := polled
    simp only at hsound' hchannel' hstale'
    split at hstale'
    · obtain ⟨rpc, rfl, hwaits'⟩ := hstale'
      refine ⟨⟨⟨hsound, hsound'⟩, rfl, hchannel, hchannel', .inr (.inr ?_)⟩, rfl, fun _ => hwaits⟩
      exact ⟨rpc, rfl, hwaits, hwaits'⟩
    · obtain ⟨rfl, hwaits'⟩ := hstale'
      refine ⟨⟨⟨hsound, hsound'⟩, rfl, hchannel, hchannel', .inl ⟨?_, hwaits, hwaits'⟩⟩, rfl,
        fun _ => hwaits⟩
      cases ended <;> cases ended' <;> rfl

/-- What `poll_stale` takes out of the priority queue is stale. -/
theorem head_stale_of_taken {closed : Bool} {elapsed : Delay → Bool} {r : Receiver P} {s : Sender P}
    (h : r.Sound closed s) {rpc : RpcOut P}
    (htaken : r.priority_waiting s = rpc :: (r.poll_stale closed elapsed s).2.1.priority_waiting
      (r.poll_stale closed elapsed s).2.2) :
    head_stale publish_timeout elapsed (r.priority_waiting s) = true := by
  by_contra hnot
  have hsame := (poll_stale_spec h).2.2 ((Bool.not_eq_true _).mp hnot)
  rw [htaken] at hsame
  have hlength := congrArg List.length hsame
  simp at hlength

theorem head_stale_never (timed : RpcOut P → Option Delay) (l : List (RpcOut P)) :
    head_stale timed (fun _ => false) l = false := by
  cases l with
  | nil => rfl
  | cons rpc rest => simp [head_stale]

/-- As long as no timeout is over, `poll_stale` takes nothing out. -/
theorem poll_stale_never_spec {closed : Bool} {r : Receiver P} {s : Sender P}
    (h : r.Sound closed s) :
    Takes closed r s none (r.poll_stale closed (fun _ => false) s).2.1
      (r.poll_stale closed (fun _ => false) s).2.2 := by
  have hspec := poll_stale_queue_spec publish_timeout (fun _ => false) h.priority
  have hspec' := poll_stale_queue_spec forward_timeout (fun _ => false) h.non_priority
  simp only [head_stale_never, Bool.false_eq_true, if_false] at hspec hspec'
  obtain ⟨hsound, hchannel, hout, hwaits⟩ := hspec
  obtain ⟨hsound', hchannel', hout', hwaits'⟩ := hspec'
  unfold poll_stale
  revert hsound hchannel hout hwaits
  generalize poll_stale_queue closed publish_timeout (fun _ => false) r.priority_receiver
    s.priority = polled
  intro hsound hchannel hout hwaits
  obtain ⟨⟨dropped, ended⟩, p, items⟩ := polled
  cases hout
  revert hsound' hchannel' hout' hwaits'
  dsimp only
  generalize poll_stale_queue closed forward_timeout (fun _ => false) r.non_priority_receiver
    s.non_priority = polled
  intro hsound' hchannel' hout' hwaits'
  obtain ⟨⟨dropped', ended'⟩, p', items'⟩ := polled
  cases hout'
  exact ⟨⟨hsound, hsound'⟩, rfl, hchannel, hchannel', .inl ⟨rfl, hwaits, hwaits'⟩⟩

/-- `poll_is_empty` takes nothing out. -/
theorem poll_is_empty_spec {closed : Bool} {r : Receiver P} {s : Sender P}
    (h : r.Sound closed s) :
    Takes closed r s none (r.poll_is_empty closed s).2.1 (r.poll_is_empty closed s).2.2 ∧
    (r.poll_is_empty closed s).2.2.len = s.len := by
  obtain ⟨hsound, hwaits, -⟩ := Peekable.poll_peek_spec h.priority
  obtain ⟨hsound', hwaits', -⟩ := Peekable.poll_peek_spec h.non_priority
  exact ⟨⟨⟨hsound, hsound'⟩, rfl, Peekable.poll_peek_suffix _ _ _, Peekable.poll_peek_suffix _ _ _,
    .inl ⟨rfl, hwaits, hwaits'⟩⟩, rfl⟩

/-- What a receiver still gives out of both queues. -/
def waiting (r : Receiver P) (s : Sender P) : List (RpcOut P) :=
  r.priority_waiting s ++ r.non_priority_waiting s

theorem mem_waiting_push {r : Receiver P} {s : Sender P} {rpcs : List (RpcOut P)} {rpc : RpcOut P} :
    rpc ∈ r.waiting (s.push rpcs) ↔ rpc ∈ r.waiting s ∨ rpc ∈ rpcs := by
  simp only [waiting, priority_waiting, non_priority_waiting, Peekable.waiting, Sender.push,
    List.mem_append, List.mem_filter]
  cases rpc.isForward <;> simp <;> tauto

theorem Takes.mem_waiting {closed : Bool} {r r' : Receiver P} {s s' : Sender P}
    {out : Option (RpcOut P)} (h : Takes closed r s out r' s') {rpc : RpcOut P} :
    rpc ∈ r.waiting s ↔ rpc ∈ out.toList ∨ rpc ∈ r'.waiting s' := by
  unfold waiting
  rcases h.taken with ⟨rfl, h₁, h₂⟩ | ⟨x, rfl, h₁, h₂⟩ | ⟨x, rfl, h₁, h₂⟩
  · simp [h₁, h₂]
  · simp [h₁, h₂]
  · simp only [h₁, h₂, List.mem_append, List.mem_cons, Option.toList_some]
    tauto

/-- As long as the sender lives, what it sends leaves its receivers sound. -/
theorem Sound.of_open {r : Receiver P} {s : Sender P} (h : r.Sound false s) (s' : Sender P) :
    r.Sound false s' :=
  ⟨Peekable.sound_open.mpr (Peekable.sound_open.mp h.priority),
    Peekable.sound_open.mpr (Peekable.sound_open.mp h.non_priority)⟩

end Receiver

end libp2p_dog
