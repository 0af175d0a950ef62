-- Laws of the queue of one peer over any interleaving of sends, polls of its
-- receivers, new connections and drops: what its counter counts, and that
-- what it accepts comes out.
import Mathlib.Data.List.Perm.Basic
import GossipShadow.Lib.Machine
import GossipShadow.Rpc

namespace libp2p_dog

variable {P : Type}

/-! ## The queue and its runs -/

/-- The queue of one peer: the sender, as long as it is not dropped, and a receiver for each
connection. -/
structure Queue (P : Type) where
  sender : Sender P
  alive : Bool
  receivers : List (Receiver P)
  /-- History variables, oldest first: what was accepted, and what each kind of poll gave out. -/
  accepted : List (RpcOut P)
  returned : List (RpcOut P)
  stale : List (RpcOut P)

inductive QueueOp (P : Type) where
  | send_transaction (rpc : RpcOut P)
  | new_receiver
  | poll_next (index : Nat)
  | poll_stale (index : Nat) (elapsed : Delay → Bool)
  | poll_is_empty (index : Nat)
  | drop_receiver (index : Nat)
  | drop_sender

def QueueOp.drops : QueueOp P → Bool
  | drop_receiver _ | drop_sender => true
  | _ => false

namespace Queue

/-- A queue starts with the receiver of the connection that it was made for. -/
def new (cap : Nat) : Queue P where
  sender := .new cap
  alive := true
  receivers := [(Sender.new cap).new_receiver]
  accepted := []
  returned := []
  stale := []

/-- The queue after a poll of one receiver. -/
def polled (q : Queue P) (index : Nat) (receiver : Receiver P) (sender : Sender P) : Queue P :=
  { q with sender, receivers := q.receivers.set index receiver }

/-- A send needs the sender; a receiver is dropped only while another remains. -/
def step (q : Queue P) : QueueOp P → Option (Queue P)
  | .send_transaction rpc =>
    if q.alive then
      match q.sender.send_transaction rpc with
      | .ok sender => some { q with sender, accepted := q.accepted ++ [rpc] }
      | .error _ => some q
    else none
  | .new_receiver =>
    if q.alive then some { q with receivers := q.receivers ++ [q.sender.new_receiver] } else none
  | .poll_next index => q.receivers[index]?.map fun r =>
    let (answer, receiver, sender) := r.poll_next (!q.alive) q.sender
    { q.polled index receiver sender with
      returned := q.returned ++ (Receiver.out answer).toList }
  | .poll_stale index elapsed => q.receivers[index]?.map fun r =>
    let (answer, receiver, sender) := r.poll_stale (!q.alive) elapsed q.sender
    { q.polled index receiver sender with
      stale := q.stale ++ (Receiver.out answer).toList }
  | .poll_is_empty index => q.receivers[index]?.map fun r =>
    let (_, receiver, sender) := r.poll_is_empty (!q.alive) q.sender
    q.polled index receiver sender
  | .drop_receiver index =>
    if 2 ≤ q.receivers.length ∧ index < q.receivers.length then
      some { q with receivers := q.receivers.eraseIdx index }
    else none
  | .drop_sender => if q.alive then some { q with alive := false } else none

/-- The runs of a queue. -/
def machine (P : Type) (cap : Nat) : Machine (Queue P) (QueueOp P) := .ofFun (· = .new cap) step

/-- What a step is. A poll and a drop name a receiver that is there. -/
inductive Stepped (q : Queue P) : QueueOp P → Queue P → Prop
  | sent (rpc : RpcOut P) (sender : Sender P) (alive : q.alive = true)
      (send : q.sender.send_transaction rpc = .ok sender) :
      Stepped q (.send_transaction rpc) { q with sender, accepted := q.accepted ++ [rpc] }
  | refused (rpc : RpcOut P) : Stepped q (.send_transaction rpc) q
  | joined (alive : q.alive = true) :
      Stepped q .new_receiver { q with receivers := q.receivers ++ [q.sender.new_receiver] }
  | next (index : Nat) (r : Receiver P) (there : q.receivers[index]? = some r) :
      Stepped q (.poll_next index)
        { q.polled index (r.poll_next (!q.alive) q.sender).2.1
            (r.poll_next (!q.alive) q.sender).2.2 with
          returned := q.returned ++ (Receiver.out (r.poll_next (!q.alive) q.sender).1).toList }
  | timed_out (index : Nat) (elapsed : Delay → Bool) (r : Receiver P)
      (there : q.receivers[index]? = some r) :
      Stepped q (.poll_stale index elapsed)
        { q.polled index (r.poll_stale (!q.alive) elapsed q.sender).2.1
            (r.poll_stale (!q.alive) elapsed q.sender).2.2 with
          stale := q.stale ++ (Receiver.out (r.poll_stale (!q.alive) elapsed q.sender).1).toList }
  | peeked (index : Nat) (r : Receiver P) (there : q.receivers[index]? = some r) :
      Stepped q (.poll_is_empty index)
        (q.polled index (r.poll_is_empty (!q.alive) q.sender).2.1
          (r.poll_is_empty (!q.alive) q.sender).2.2)
  | receiver_dropped (index : Nat) (r : Receiver P) (there : q.receivers[index]? = some r)
      (others : 2 ≤ q.receivers.length) :
      Stepped q (.drop_receiver index) { q with receivers := q.receivers.eraseIdx index }
  | sender_dropped (alive : q.alive = true) : Stepped q .drop_sender { q with alive := false }

theorem step_cases {q q' : Queue P} {op : QueueOp P} (h : q.step op = some q') :
    q.Stepped op q' := by
  cases op with
  | send_transaction rpc =>
    simp only [step] at h
    split at h
    · rename_i halive
      split at h
      · rename_i sender hsend
        cases h
        exact .sent rpc sender halive hsend
      · cases h
        exact .refused rpc
    · cases h
  | new_receiver =>
    simp only [step] at h
    split at h
    · rename_i halive
      cases h
      exact .joined halive
    · cases h
  | poll_next index =>
    obtain ⟨r, hr, rfl⟩ := Option.map_eq_some_iff.mp h
    exact .next index r hr
  | poll_stale index elapsed =>
    obtain ⟨r, hr, rfl⟩ := Option.map_eq_some_iff.mp h
    exact .timed_out index elapsed r hr
  | poll_is_empty index =>
    obtain ⟨r, hr, rfl⟩ := Option.map_eq_some_iff.mp h
    exact .peeked index r hr
  | drop_receiver index =>
    simp only [step] at h
    split at h
    · rename_i hlen
      cases h
      exact .receiver_dropped index _ (List.getElem?_eq_getElem hlen.2) hlen.1
    · cases h
  | drop_sender =>
    simp only [step] at h
    split at h
    · rename_i halive
      cases h
      exact .sender_dropped halive
    · cases h

/-- What waits: in the channels, and in the slots of the receivers. -/
def waiting (q : Queue P) : List (RpcOut P) :=
  q.sender.priority ++ q.sender.non_priority ++ q.receivers.flatMap Receiver.slots

/-- What waits, from where one receiver stands. -/
theorem waiting_perm {q : Queue P} {index : Nat} {r : Receiver P}
    (h : q.receivers[index]? = some r) :
    q.waiting.Perm (r.priority_waiting q.sender ++ r.non_priority_waiting q.sender ++
      (q.receivers.eraseIdx index).flatMap Receiver.slots) := by
  classical
  obtain ⟨hlt, rfl⟩ := List.getElem?_eq_some_iff.mp h
  have hreceivers := (List.getElem_cons_eraseIdx_perm hlt).symm.flatMap_right Receiver.slots
  refine (hreceivers.append_left _).trans ?_
  rw [List.perm_iff_count]
  intro rpc
  simp only [List.flatMap_cons, Receiver.slots, Receiver.priority_waiting,
    Receiver.non_priority_waiting, Peekable.waiting, List.count_append]
  omega

/-- What waits before a poll is what the poll gave out and what waits after it. -/
theorem waiting_of_takes {q : Queue P} {index : Nat} {r r' : Receiver P} {s' : Sender P}
    {out : Option (RpcOut P)} (h : q.receivers[index]? = some r)
    (htakes : r.Takes (!q.alive) q.sender out r' s') :
    q.waiting.Perm (out.toList ++ (q.polled index r' s').waiting) := by
  classical
  have hlt : index < q.receivers.length := (List.getElem?_eq_some_iff.mp h).1
  have hr' : (q.polled index r' s').receivers[index]? = some r' := by simp [polled, hlt]
  have hafter := waiting_perm hr'
  simp only [polled, List.eraseIdx_set_eq] at hafter
  refine (waiting_perm h).trans ?_
  refine List.Perm.trans ?_ (hafter.symm.append_left _)
  rw [List.perm_iff_count]
  intro rpc
  rcases htakes.taken with ⟨rfl, h₁, h₂⟩ | ⟨x, rfl, h₁, h₂⟩ | ⟨x, rfl, h₁, h₂⟩
  · simp [h₁, h₂]
  · simp only [h₁, h₂, Option.toList_some, List.count_append, List.count_cons, List.count_nil]
    omega
  · simp only [h₁, h₂, Option.toList_some, List.count_append, List.count_cons, List.count_nil]
    omega

/-! ## What is accepted is given out or waits -/

/-- What holds in every state of a run: the streams have not ended early, and the books balance. -/
structure Good (q : Queue P) : Prop where
  sound : ∀ r ∈ q.receivers, r.Sound (!q.alive) q.sender
  some_receiver : q.receivers ≠ []
  closed : q.alive = false → ∀ r ∈ q.receivers, r.non_priority_waiting q.sender = []
  ledger : q.accepted.Perm (q.returned ++ q.stale ++ q.waiting)

theorem good_new (cap : Nat) : (new cap : Queue P).Good where
  sound := by
    intro r hr
    rw [List.mem_singleton.mp hr]
    exact ⟨Peekable.sound_new _ _, Peekable.sound_new _ _⟩
  some_receiver := by simp [new]
  closed := by simp [new]
  ledger := by simp [new, waiting, Sender.new, Sender.new_receiver, Receiver.slots, Peekable.new]

/-- Once nothing waits in the other queue, a poll leaves it so. -/
theorem Good.polled_closed {q : Queue P} (h : q.Good) {index : Nat} {r r' : Receiver P}
    {s' : Sender P} {out : Option (RpcOut P)} (hr : r ∈ q.receivers)
    (htakes : r.Takes (!q.alive) q.sender out r' s') (hclosed : q.alive = false) :
    ∀ r ∈ (q.polled index r' s').receivers, r.non_priority_waiting s' = [] := by
  intro other hmem
  rcases List.mem_or_eq_of_mem_set hmem with hmem | rfl
  · have hnil := h.closed hclosed other hmem
    simp only [Receiver.non_priority_waiting, Peekable.waiting, List.append_eq_nil_iff] at hnil ⊢
    exact ⟨hnil.1, List.suffix_nil.mp (hnil.2 ▸ htakes.non_priority)⟩
  · have hnil := h.closed hclosed r hr
    rcases htakes.taken with ⟨-, -, h₂⟩ | ⟨x, -, -, h₂⟩ | ⟨x, -, -, h₂⟩
    · rw [h₂, hnil]
    · rw [h₂, hnil]
    · rw [hnil] at h₂
      cases h₂

/-- A poll of one receiver leaves the others sound. -/
theorem Good.polled_sound {q : Queue P} (h : q.Good) {index : Nat} {r r' : Receiver P}
    {s' : Sender P} {out : Option (RpcOut P)}
    (htakes : r.Takes (!q.alive) q.sender out r' s') :
    ∀ r ∈ (q.polled index r' s').receivers, r.Sound (!q.alive) s' := by
  intro other hmem
  rcases List.mem_or_eq_of_mem_set hmem with hmem | rfl
  · obtain ⟨h₁, h₂⟩ := h.sound other hmem
    constructor
    · intro hdone
      obtain ⟨hclosed, hpeeked, hitems⟩ := h₁ hdone
      exact ⟨hclosed, hpeeked, List.suffix_nil.mp (hitems ▸ htakes.priority)⟩
    · intro hdone
      obtain ⟨hclosed, hpeeked, hitems⟩ := h₂ hdone
      exact ⟨hclosed, hpeeked, List.suffix_nil.mp (hitems ▸ htakes.non_priority)⟩
  · exact htakes.sound

/-- A poll that gives out `out` keeps the books, once `out` is noted. -/
theorem Good.polled_ledger {q : Queue P} (h : q.Good) {index : Nat} {r r' : Receiver P}
    {s' : Sender P} {out : Option (RpcOut P)} (hr : q.receivers[index]? = some r)
    (htakes : r.Takes (!q.alive) q.sender out r' s') {returned stale : List (RpcOut P)}
    (hnoted : (returned ++ stale).Perm (q.returned ++ q.stale ++ out.toList)) :
    q.accepted.Perm (returned ++ stale ++ (q.polled index r' s').waiting) := by
  classical
  have hwaiting := waiting_of_takes hr htakes
  have hledger := h.ledger
  rw [List.perm_iff_count] at *
  intro rpc
  have h₁ := hwaiting rpc
  have h₂ := hledger rpc
  have h₃ := hnoted rpc
  simp only [List.count_append] at *
  omega

/-- A poll keeps all of it, once what it gives out is noted. -/
theorem Good.polled {q : Queue P} (h : q.Good) {index : Nat} {r r' : Receiver P} {s' : Sender P}
    {out : Option (RpcOut P)} (hr : q.receivers[index]? = some r)
    (htakes : r.Takes (!q.alive) q.sender out r' s') {returned stale : List (RpcOut P)}
    (hnoted : (returned ++ stale).Perm (q.returned ++ q.stale ++ out.toList)) :
    ({ q.polled index r' s' with returned, stale } : Queue P).Good where
  sound := h.polled_sound htakes
  some_receiver := by simpa [Queue.polled] using h.some_receiver
  closed := h.polled_closed (List.mem_of_getElem? hr) htakes
  ledger := h.polled_ledger hr htakes hnoted

/-- A receiver is dropped with both slots empty, and the sender with no Forward waiting. -/
def keeps_waiting (q : Queue P) : QueueOp P → Bool
  | .drop_receiver index => (q.receivers[index]?.map Receiver.slots).all (·.isEmpty)
  | .drop_sender => q.sender.non_priority.isEmpty &&
      q.receivers.all fun r => r.non_priority_receiver.peeked.isNone
  | _ => true

theorem waiting_push (q : Queue P) (rpc : RpcOut P) :
    ({ q with sender := q.sender.push [rpc] } : Queue P).waiting.Perm (rpc :: q.waiting) := by
  classical
  rw [List.perm_iff_count]
  intro x
  simp only [waiting, Sender.push, List.count_append, List.count_cons]
  cases hrpc : rpc.isForward <;> simp [hrpc, List.count_cons] <;> omega

theorem Good.sent {q : Queue P} (h : q.Good) (halive : q.alive = true) (rpc : RpcOut P) :
    ({ q with sender := q.sender.push [rpc], accepted := q.accepted ++ [rpc] } : Queue P).Good := by
  refine ⟨?_, h.some_receiver, by simp [halive], ?_⟩
  · intro r hr
    obtain ⟨h₁, h₂⟩ := h.sound r hr
    simp only [halive, Bool.not_true] at h₁ h₂ ⊢
    rw [Peekable.sound_open] at h₁ h₂
    exact ⟨Peekable.sound_open.mpr h₁, Peekable.sound_open.mpr h₂⟩
  · have hwaiting := (waiting_push q rpc).symm.append_left (q.returned ++ q.stale)
    refine List.Perm.trans ?_ hwaiting
    refine (List.perm_append_singleton rpc q.accepted).trans ?_
    exact (h.ledger.cons rpc).trans List.perm_middle.symm

theorem Good.dropped_receiver {q : Queue P} (h : q.Good) {index : Nat} {r : Receiver P}
    (hr : q.receivers[index]? = some r) (hslots : r.slots = [])
    (hlen : 2 ≤ q.receivers.length) :
    ({ q with receivers := q.receivers.eraseIdx index } : Queue P).Good := by
  obtain ⟨hlt, rfl⟩ := List.getElem?_eq_some_iff.mp hr
  refine ⟨?_, ?_, ?_, ?_⟩
  · intro r hmem
    exact h.sound r (List.mem_of_mem_eraseIdx hmem)
  · intro hnil
    have := congrArg List.length hnil
    rw [List.length_eraseIdx_of_lt hlt] at this
    simp only [List.length_nil] at this
    omega
  · intro hclosed r hmem
    exact h.closed hclosed r (List.mem_of_mem_eraseIdx hmem)
  · refine h.ledger.trans (List.Perm.append_left _ (List.Perm.append_left _ ?_))
    have hreceivers := (List.getElem_cons_eraseIdx_perm hlt).symm.flatMap_right Receiver.slots
    rwa [List.flatMap_cons, hslots, List.nil_append] at hreceivers

theorem Good.dropped_sender {q : Queue P} (h : q.Good) (halive : q.alive = true)
    (hkeeps : q.keeps_waiting .drop_sender = true) :
    ({ q with alive := false } : Queue P).Good := by
  obtain ⟨hchannel, hslots⟩ := (Bool.and_eq_true _ _).mp hkeeps
  refine ⟨?_, h.some_receiver, ?_, h.ledger⟩
  · intro r hr
    obtain ⟨h₁, h₂⟩ := h.sound r hr
    simp only [halive, Bool.not_true] at h₁ h₂
    rw [Peekable.sound_open] at h₁ h₂
    exact ⟨fun hdone => absurd (h₁.symm.trans hdone) (by simp),
      fun hdone => absurd (h₂.symm.trans hdone) (by simp)⟩
  · intro _ r hr
    have hpeeked := List.all_eq_true.mp hslots r hr
    simp only [Receiver.non_priority_waiting, Peekable.waiting, List.append_eq_nil_iff]
    exact ⟨by simpa using hpeeked, by simpa using hchannel⟩

theorem Good.joined {q : Queue P} (h : q.Good) (halive : q.alive = true) :
    ({ q with receivers := q.receivers ++ [q.sender.new_receiver] } : Queue P).Good := by
  refine ⟨?_, by simp, by simp [halive], ?_⟩
  · intro r hr
    rcases List.mem_append.mp hr with hr | hr
    · exact h.sound r hr
    · rw [List.mem_singleton.mp hr]
      exact ⟨Peekable.sound_new _ _, Peekable.sound_new _ _⟩
  · refine h.ledger.trans ?_
    simp [waiting, Sender.new_receiver, Receiver.slots, Peekable.new]

theorem Good.step {q q' : Queue P} {op : QueueOp P} (h : q.Good)
    (hkeeps : q.keeps_waiting op = true) (hstep : q.step op = some q') : q'.Good := by
  cases step_cases hstep with
  | sent rpc sender alive send =>
    rw [Sender.send_transaction_ok send]
    exact h.sent alive rpc
  | refused rpc => exact h
  | joined alive => exact h.joined alive
  | next index r there =>
    obtain ⟨htakes, -⟩ := Receiver.poll_next_spec (h.sound r (List.mem_of_getElem? there))
    apply h.polled there htakes
    rw [List.append_assoc, List.append_assoc]
    exact List.perm_append_comm.append_left _
  | timed_out index elapsed r there =>
    obtain ⟨htakes, -⟩ := Receiver.poll_stale_spec (h.sound r (List.mem_of_getElem? there))
    apply h.polled there htakes
    simp [Queue.polled]
  | peeked index r there =>
    obtain ⟨htakes, -⟩ := Receiver.poll_is_empty_spec (h.sound r (List.mem_of_getElem? there))
    apply h.polled there htakes
    simp
  | receiver_dropped index r there others =>
    exact h.dropped_receiver there (by simpa [keeps_waiting, there] using hkeeps) others
  | sender_dropped alive => exact h.dropped_sender alive hkeeps

end Queue

/-! ## What waits can be had -/

/-- What a number of `poll_next` calls give out, one after the other. -/
def Receiver.next_results (closed : Bool) : Nat → Receiver P → Sender P → List (RpcOut P)
  | 0, _, _ => []
  | n + 1, r, s =>
    let (answer, r, s) := r.poll_next closed s
    (Receiver.out answer).toList ++ next_results closed n r s

/-- Enough calls of `poll_next` give out all that waits for the receiver: the priority queue first,
then the other. -/
theorem Receiver.next_results_eq {closed : Bool} (n : Nat) {r : Receiver P} {s : Sender P}
    (h : r.Sound closed s) (hclosed : closed = true → r.non_priority_waiting s = []) :
    next_results closed n r s = (r.priority_waiting s ++ r.non_priority_waiting s).take n := by
  induction n generalizing r s with
  | zero => rfl
  | succ n ih =>
    obtain ⟨htakes, hnext⟩ := poll_next_spec h
    have hclosed' : closed = true → (r.poll_next closed s).2.1.non_priority_waiting
        (r.poll_next closed s).2.2 = [] := by
      intro hc
      rcases htakes.taken with ⟨-, -, h₂⟩ | ⟨x, -, -, h₂⟩ | ⟨x, -, -, h₂⟩
      · rw [h₂, hclosed hc]
      · rw [h₂, hclosed hc]
      · rw [hclosed hc] at h₂
        cases h₂
    unfold next_results
    simp only
    rw [ih htakes.sound hclosed']
    rcases htakes.taken with ⟨hout, h₁, h₂⟩ | ⟨x, hout, h₁, h₂⟩ | ⟨x, hout, h₁, h₂⟩
    · rw [hout, h₁, h₂]
      -- nothing came out, so nothing waits
      have hempty : r.priority_waiting s ++ r.non_priority_waiting s = [] := by
        cases hp : r.priority_waiting s with
        | cons rpc rest =>
          rw [hp] at hnext
          rw [hnext.1] at hout
          cases hout
        | nil =>
          rw [hp] at hnext
          cases hc : closed with
          | true => simp [hclosed hc]
          | false =>
            cases hn : r.non_priority_waiting s with
            | nil => rfl
            | cons rpc rest =>
              simp only [hc, hn, Bool.false_eq_true, if_false] at hnext hout
              rw [hnext.2] at hout
              cases hout
      simp [hempty]
    · rw [hout, h₁, h₂]
      simp
    · rw [hout, h₁, h₂, priority_empty_of_taken h h₂]
      simp

namespace Queue

/-- Some receiver gives the RPC out after enough calls of `poll_next`. -/
def Obtainable (q : Queue P) (rpc : RpcOut P) : Prop :=
  ∃ r ∈ q.receivers, ∃ n, rpc ∈ Receiver.next_results (!q.alive) n r q.sender

theorem Good.obtainable {q : Queue P} (h : q.Good) {rpc : RpcOut P} (hrpc : rpc ∈ q.waiting) :
    q.Obtainable rpc := by
  have hall : ∀ r ∈ q.receivers,
      rpc ∈ r.priority_waiting q.sender ++ r.non_priority_waiting q.sender →
      q.Obtainable rpc := by
    intro r hr hmem
    refine ⟨r, hr, (r.priority_waiting q.sender ++ r.non_priority_waiting q.sender).length, ?_⟩
    rw [Receiver.next_results_eq _ (h.sound r hr)
      (fun hclosed => h.closed (by simpa using hclosed) r hr), List.take_length]
    exact hmem
  obtain ⟨r, hr⟩ := List.exists_mem_of_ne_nil _ h.some_receiver
  simp only [waiting, List.mem_append, List.mem_flatMap] at hrpc
  rcases hrpc with (hrpc | hrpc) | ⟨r', hr', hrpc⟩
  · refine hall r hr ?_
    simp [Receiver.priority_waiting, Peekable.waiting, hrpc]
  · refine hall r hr ?_
    simp [Receiver.non_priority_waiting, Peekable.waiting, hrpc]
  · refine hall r' hr' ?_
    simp only [Receiver.slots, List.mem_append] at hrpc
    rcases hrpc with hrpc | hrpc
    · simp [Receiver.priority_waiting, Peekable.waiting, List.mem_append, hrpc]
    · simp [Receiver.non_priority_waiting, Peekable.waiting, List.mem_append, hrpc]

/-- As long as receivers are dropped with empty slots, and the sender with no Forward waiting, each
RPC that was accepted has been given out once, or waits and can be had. -/
theorem no_accepted_rpc_is_lost {cap : Nat} {q : Queue P} {ops : List (QueueOp P)}
    (hrun : (machine P cap).Run (new cap) ops q)
    (hok : (machine P cap).Meets (fun q op => q.keeps_waiting op = true) (new cap) ops) :
    q.accepted.Perm (q.returned ++ q.stale ++ q.waiting) ∧ ∀ rpc ∈ q.waiting, q.Obtainable rpc := by
  have hgood : q.Good := hrun.invariant_of_meets hok (good_new cap)
    fun _ _ _ h hkeeps hstep => h.step hkeeps hstep
  exact ⟨hgood.ledger, fun rpc => hgood.obtainable⟩

end Queue

/-- Once the sender is gone, `poll_next` gives out the priority queue and nothing else. -/
theorem Receiver.next_results_closed (n : Nat) {r : Receiver P} {s : Sender P}
    (h : r.Sound true s) : next_results true n r s = (r.priority_waiting s).take n := by
  induction n generalizing r s with
  | zero => rfl
  | succ n ih =>
    obtain ⟨htakes, hnext⟩ := poll_next_spec h
    unfold next_results
    simp only
    rw [ih htakes.sound]
    cases hp : r.priority_waiting s with
    | nil =>
      simp only [hp, if_true] at hnext
      rw [hnext.2]
      rcases htakes.taken with ⟨-, h₁, -⟩ | ⟨x, -, h₁, -⟩ | ⟨x, -, h₁, -⟩
      · simp [h₁, hp, out]
      · rw [hp] at h₁
        cases h₁
      · simp [h₁, hp, out]
    | cons rpc rest =>
      simp only [hp] at hnext
      rw [hnext.1]
      rcases htakes.taken with ⟨hout, -, -⟩ | ⟨x, hout, h₁, -⟩ | ⟨x, -, -, h₂⟩
      · rw [hnext.1] at hout
        cases hout
      · rw [hp] at h₁
        cases h₁
        simp [out]
      · rw [priority_empty_of_taken h h₂] at hp
        cases hp

namespace Queue

theorem no_accepted_rpc_is_lost_over_two_receivers :
    ∃ q : Queue Nat, (machine Nat 4).Run (new 4)
        [.new_receiver, .send_transaction (.HaveTx ⟨⟨[1]⟩⟩), .send_transaction (.ResetRoute {}),
          .poll_is_empty 1, .poll_next 1, .drop_receiver 1] q ∧
      q.returned = [.HaveTx ⟨⟨[1]⟩⟩] ∧ q.Obtainable (.ResetRoute {}) := by
  have hrun : (Machine.exec (Machine.guarded keeps_waiting step) (new 4 : Queue Nat)
      [.new_receiver, .send_transaction (.HaveTx ⟨⟨[1]⟩⟩), .send_transaction (.ResetRoute {}),
        .poll_is_empty 1, .poll_next 1, .drop_receiver 1]).map
      (fun q => (q.returned, q.waiting)) = some ([.HaveTx ⟨⟨[1]⟩⟩], [.ResetRoute {}]) := by
    decide
  obtain ⟨q, hrun, hok, hsee⟩ := Machine.exists_guarded_run hrun
  simp only [Prod.mk.injEq] at hsee
  exact ⟨q, hrun, hsee.1, (no_accepted_rpc_is_lost hrun hok).2 _ (by simp [hsee.2])⟩

/-- A Forward that carries a transaction. -/
def sample_forward : RpcOut Nat :=
  .Forward { from_ := 1, seqno := 1, data := [], signature := none, key := none }
    { created := 0, duration := 1 }

/-- Two ways to lose an RPC: in the slot of a receiver that is dropped, and as a Forward that waits
when the sender is dropped. -/
theorem an_accepted_rpc_is_lost :
    (∃ q : Queue Nat, (machine Nat 4).Run (new 4)
        [.new_receiver, .send_transaction (.ResetRoute {}), .poll_is_empty 1, .drop_receiver 1] q ∧
      ¬ q.accepted.Perm (q.returned ++ q.stale ++ q.waiting)) ∧
    (∃ q : Queue Nat, (machine Nat 4).Run (new 4)
        [.send_transaction sample_forward, .drop_sender] q ∧
      ∃ rpc ∈ q.waiting, ¬ q.Obtainable rpc) := by
  constructor
  · have hrun : (Machine.exec step (new 4 : Queue Nat)
        [.new_receiver, .send_transaction (.ResetRoute {}), .poll_is_empty 1, .drop_receiver 1]).map
        (fun q => (q.accepted, q.returned ++ q.stale ++ q.waiting)) =
        some ([.ResetRoute {}], []) := by decide
    obtain ⟨q, hrun, hsee⟩ := Machine.exists_run_of_exec hrun
    simp only [Prod.mk.injEq] at hsee
    refine ⟨q, hrun, ?_⟩
    rw [hsee.1, hsee.2]
    simp
  · have hrun : (Machine.exec step (new 4 : Queue Nat)
        [.send_transaction sample_forward, .drop_sender]).map
        (fun q => (q.alive, q.sender.priority, q.receivers, q.waiting)) =
        some (false, [], [(Sender.new 4).new_receiver], [sample_forward]) := by decide
    obtain ⟨q, hrun, hsee⟩ := Machine.exists_run_of_exec hrun
    simp only [Prod.mk.injEq] at hsee
    obtain ⟨halive, hpriority, hreceivers, hwaiting⟩ := hsee
    refine ⟨q, hrun, sample_forward, by simp [hwaiting], ?_⟩
    rintro ⟨r, hr, n, hmem⟩
    rw [hreceivers, List.mem_singleton] at hr
    subst hr
    rw [halive, Bool.not_false, Receiver.next_results_closed n
      ⟨Peekable.sound_new _ _, Peekable.sound_new _ _⟩] at hmem
    simp [Receiver.priority_waiting, Sender.new_receiver, Peekable.waiting, Peekable.new,
      hpriority] at hmem

/-! ## The counter -/

/-- The Publish RPCs that wait. -/
def publishes (q : Queue P) : Nat := q.waiting.countP (·.isPublish)

/-- The Publish RPCs that `poll_stale` took out. -/
def stale_publishes (q : Queue P) : Nat := q.stale.countP (·.isPublish)

/-- The counter counts the Publish RPCs that wait and those that `poll_stale` took out. -/
structure Counted (cap : Nat) (q : Queue P) : Prop where
  good : q.Good
  alive : q.alive = true
  priority_cap : q.sender.priority_cap = cap / 2
  forwards : ∀ r ∈ q.receivers, ∀ rpc ∈ r.non_priority_waiting q.sender, rpc.isPublish = false
  len : q.sender.len = q.publishes + q.stale_publishes
  len_le : q.sender.len ≤ cap / 2

end Queue

theorem Sender.send_publish_lt {s s' : Sender P} {rpc : RpcOut P}
    (h : s.send_transaction rpc = .ok s') (hrpc : rpc.isPublish = true) :
    s.len < s.priority_cap := by
  cases rpc with
  | Publish tx timeout =>
    simp only [send_transaction] at h
    split at h
    · cases h
    · omega
  | Forward _ _ | HaveTx _ | ResetRoute _ => cases hrpc

theorem Receiver.poll_next_len {closed : Bool} {r : Receiver P} {s : Sender P}
    (h : r.Sound closed s)
    (hforwards : ∀ rpc ∈ r.non_priority_waiting s, rpc.isPublish = false) :
    (r.poll_next closed s).2.2.len = len_after s.len (out (r.poll_next closed s).1) := by
  obtain ⟨-, hnext⟩ := poll_next_spec h
  cases hp : r.priority_waiting s with
  | cons rpc rest =>
    simp only [hp] at hnext
    rw [hnext.2.2, hnext.1]
    rfl
  | nil =>
    simp only [hp] at hnext
    rw [hnext.1]
    cases closed with
    | true =>
      rw [if_pos rfl] at hnext
      rw [hnext.2]
      rfl
    | false =>
      rw [if_neg (by simp)] at hnext
      rw [hnext.2]
      cases hn : r.non_priority_waiting s with
      | nil => rfl
      | cons rpc rest =>
        have hrpc := hforwards rpc (by simp [hn])
        cases rpc with
        | Publish _ _ => cases hrpc
        | Forward _ _ | HaveTx _ | ResetRoute _ => rfl

/-- A counter in the range of `usize` that is positive goes down by one. -/
theorem fetch_sub_of_pos {counter : Nat} (hpos : 0 < counter) (hlt : counter < usizeSize) :
    fetch_sub counter + 1 = counter := by
  unfold fetch_sub usizeSize UInt64.size at *
  omega

namespace Queue

theorem counted_new (cap : Nat) : (new cap : Queue P).Counted cap where
  good := good_new cap
  alive := rfl
  priority_cap := rfl
  forwards := by
    intro r hr rpc hrpc
    rw [List.mem_singleton.mp hr] at hrpc
    cases hrpc
  len := rfl
  len_le := Nat.zero_le _

/-- What a poll takes out of the other queue is no Publish. -/
theorem Counted.polled_forwards {cap : Nat} {q : Queue P} (h : q.Counted cap) {index : Nat}
    {r r' : Receiver P} {s' : Sender P} {out : Option (RpcOut P)} (hr : r ∈ q.receivers)
    (htakes : r.Takes (!q.alive) q.sender out r' s') :
    ∀ r ∈ (q.polled index r' s').receivers, ∀ rpc ∈ r.non_priority_waiting s',
      rpc.isPublish = false := by
  intro other hmem rpc hrpc
  rcases List.mem_or_eq_of_mem_set hmem with hmem | rfl
  · refine h.forwards other hmem rpc ?_
    simp only [Receiver.non_priority_waiting, Peekable.waiting, List.mem_append] at hrpc ⊢
    exact hrpc.imp_right (htakes.non_priority.mem ·)
  · refine h.forwards r hr rpc ?_
    rcases htakes.taken with ⟨-, -, h₂⟩ | ⟨x, -, -, h₂⟩ | ⟨x, -, -, h₂⟩
    · rwa [h₂] at hrpc
    · rwa [h₂] at hrpc
    · rw [h₂]
      exact List.mem_cons_of_mem _ hrpc

/-- What a poll gives out was counted. -/
theorem publishes_of_takes {q : Queue P} {index : Nat} {r r' : Receiver P} {s' : Sender P}
    {out : Option (RpcOut P)} (hr : q.receivers[index]? = some r)
    (htakes : r.Takes (!q.alive) q.sender out r' s') :
    q.publishes = out.toList.countP (·.isPublish) + (q.polled index r' s').publishes := by
  unfold publishes
  rw [(waiting_of_takes hr htakes).countP_eq, List.countP_append]

theorem len_after_eq {len : Nat} (rpc : Option (RpcOut P))
    (hpos : rpc.toList.countP (·.isPublish) ≤ len) (hlt : len < usizeSize) :
    Receiver.len_after len rpc + rpc.toList.countP (·.isPublish) = len := by
  cases rpc with
  | none => rfl
  | some rpc =>
    cases rpc with
    | Publish tx timeout =>
      have h : 1 ≤ len := by simpa [RpcOut.isPublish] using hpos
      simpa [Receiver.len_after, RpcOut.isPublish] using fetch_sub_of_pos h hlt
    | Forward _ _ | HaveTx _ | ResetRoute _ => rfl

/-- The sender accepts an RPC, and counts it if it is a Publish. -/
theorem Counted.sent {cap : Nat} {q : Queue P} (h : q.Counted cap) {rpc : RpcOut P}
    {sender : Sender P}
    (hgood : ({ q with sender, accepted := q.accepted ++ [rpc] } : Queue P).Good)
    (hsend : q.sender.send_transaction rpc = .ok sender) :
    ({ q with sender, accepted := q.accepted ++ [rpc] } : Queue P).Counted cap := by
  obtain rfl := Sender.send_transaction_ok hsend
  refine ⟨hgood, h.alive, h.priority_cap, ?_, ?_, ?_⟩
  · intro r hr x hx
    simp only [Receiver.non_priority_waiting, Peekable.waiting, Sender.push,
      List.mem_append, List.mem_filter, List.mem_singleton] at hx
    rcases hx with hx | hx | ⟨rfl, hx⟩
    · exact h.forwards r hr x (by simp [Receiver.non_priority_waiting, Peekable.waiting, hx])
    · exact h.forwards r hr x (by simp [Receiver.non_priority_waiting, Peekable.waiting, hx])
    · cases x with
      | Forward _ _ => rfl
      | Publish _ _ | HaveTx _ | ResetRoute _ => cases hx
  · have hcount := (waiting_push q rpc).countP_eq (·.isPublish)
    have hlen := h.len
    simp only [publishes, stale_publishes, List.countP_cons] at hcount hlen ⊢
    simp only [waiting, Sender.push] at hcount hlen ⊢
    rw [hcount, List.countP_singleton]
    omega
  · have hle := h.len_le
    simp only [Sender.push, List.countP_singleton]
    cases hrpc : rpc.isPublish with
    | false => simpa using hle
    | true =>
      have hlt := Sender.send_publish_lt hsend hrpc
      rw [h.priority_cap] at hlt
      simp only [if_true]
      omega

/-- A new receiver has empty slots and waits for what is in the channels. -/
theorem Counted.joined {cap : Nat} {q : Queue P} (h : q.Counted cap)
    (hgood : ({ q with receivers := q.receivers ++ [q.sender.new_receiver] } : Queue P).Good) :
    ({ q with receivers := q.receivers ++ [q.sender.new_receiver] } : Queue P).Counted cap := by
  refine ⟨hgood, h.alive, h.priority_cap, ?_, ?_, h.len_le⟩
  · intro r hr x hx
    rcases List.mem_append.mp hr with hr | hr
    · exact h.forwards r hr x hx
    · obtain ⟨r₀, hr₀⟩ := List.exists_mem_of_ne_nil _ h.good.some_receiver
      rw [List.mem_singleton.mp hr] at hx
      refine h.forwards r₀ hr₀ x ?_
      simp only [Receiver.non_priority_waiting, Peekable.waiting, List.mem_append]
      exact .inr hx
  · rw [h.len]
    simp [publishes, stale_publishes, waiting, Sender.new_receiver, Receiver.slots, Peekable.new]

/-- Neither the receivers nor the sender are dropped. -/
theorem Counted.step {cap : Nat} (hcap : cap < usizeSize) {q q' : Queue P} {op : QueueOp P}
    (h : q.Counted cap) (hop : op.drops = false) (hstep : q.step op = some q') :
    q'.Counted cap := by
  have hgood : q'.Good := by
    refine h.good.step ?_ hstep
    cases op <;> first | rfl | cases hop
  have hlt : q.sender.len < usizeSize := by
    have := h.len_le
    omega
  cases step_cases hstep with
  | sent rpc sender _ send => exact h.sent hgood send
  | refused rpc => exact h
  | joined _ => exact h.joined hgood
  | next index r there =>
    have hmem := List.mem_of_getElem? there
    obtain ⟨htakes, -⟩ := Receiver.poll_next_spec (h.good.sound r hmem)
    have hcount := publishes_of_takes there htakes
    have hlen := h.len
    have hafter := len_after_eq (Receiver.out (r.poll_next (!q.alive) q.sender).1)
      (by omega) hlt
    rw [← Receiver.poll_next_len (h.good.sound r hmem) (h.forwards r hmem)] at hafter
    refine ⟨hgood, h.alive, htakes.priority_cap.trans h.priority_cap,
      h.polled_forwards hmem htakes, ?_, ?_⟩
    · change (r.poll_next (!q.alive) q.sender).2.2.len =
        (q.polled index (r.poll_next (!q.alive) q.sender).2.1
          (r.poll_next (!q.alive) q.sender).2.2).publishes + q.stale_publishes
      omega
    · have hle := h.len_le
      change (r.poll_next (!q.alive) q.sender).2.2.len ≤ cap / 2
      omega
  | timed_out index elapsed r there =>
    have hmem := List.mem_of_getElem? there
    obtain ⟨htakes, hafter, -⟩ := Receiver.poll_stale_spec (h.good.sound r hmem)
    have hcount := publishes_of_takes there htakes
    refine ⟨hgood, h.alive, htakes.priority_cap.trans h.priority_cap,
      h.polled_forwards hmem htakes, ?_, Nat.le_trans (Nat.le_of_eq hafter) h.len_le⟩
    change (r.poll_stale (!q.alive) elapsed q.sender).2.2.len =
      (q.polled index (r.poll_stale (!q.alive) elapsed q.sender).2.1
        (r.poll_stale (!q.alive) elapsed q.sender).2.2).publishes +
      (q.stale ++ (Receiver.out (r.poll_stale (!q.alive) elapsed q.sender).1).toList).countP
        (·.isPublish)
    rw [hafter, h.len, hcount, List.countP_append, stale_publishes]
    omega
  | peeked index r there =>
    have hmem := List.mem_of_getElem? there
    obtain ⟨htakes, hafter⟩ := Receiver.poll_is_empty_spec (h.good.sound r hmem)
    have hcount := publishes_of_takes there htakes
    refine ⟨hgood, h.alive, htakes.priority_cap.trans h.priority_cap,
      h.polled_forwards hmem htakes, ?_, Nat.le_trans (Nat.le_of_eq hafter) h.len_le⟩
    refine hafter.trans (h.len.trans ?_)
    rw [hcount]
    simp [stale_publishes, polled, publishes]
  | receiver_dropped index r _ _ => cases hop
  | sender_dropped _ => cases hop

/-- No poll of a receiver takes out a Publish that has timed out. -/
def keeps_publishes (q : Queue P) : QueueOp P → Bool
  | .poll_stale index elapsed => (q.receivers[index]?).all fun r =>
      !Receiver.head_stale Receiver.publish_timeout elapsed (r.priority_waiting q.sender)
  | _ => true

/-- The stale Publish RPCs are those that a `poll_stale` finds at the head. -/
theorem Counted.stale_step {cap : Nat} {q q' : Queue P} {op : QueueOp P} (h : q.Counted cap)
    (hkeeps : q.keeps_publishes op = true) (hstep : q.step op = some q') :
    q'.stale_publishes = q.stale_publishes := by
  cases step_cases hstep with
  | timed_out index elapsed r there =>
    have hmem := List.mem_of_getElem? there
    have hsound := h.good.sound r hmem
    obtain ⟨htakes, -⟩ := @Receiver.poll_stale_spec P (!q.alive) elapsed r q.sender hsound
    have hfresh : Receiver.head_stale Receiver.publish_timeout elapsed
        (r.priority_waiting q.sender) = false := by simpa [keeps_publishes, there] using hkeeps
    have hout : (Receiver.out (r.poll_stale (!q.alive) elapsed q.sender).1).toList.countP
        (·.isPublish) = 0 := by
      rcases htakes.taken with ⟨hout, -, -⟩ | ⟨x, -, h₁, -⟩ | ⟨x, hout, -, h₂⟩
      · rw [hout]
        rfl
      · rw [Receiver.head_stale_of_taken hsound h₁] at hfresh
        cases hfresh
      · rw [hout]
        simp [h.forwards r hmem x (by simp [h₂])]
    change (q.stale ++ (Receiver.out (r.poll_stale (!q.alive) elapsed q.sender).1).toList).countP
      (·.isPublish) = q.stale_publishes
    rw [List.countP_append, hout]
    rfl
  | sent rpc sender _ _ => rfl
  | refused rpc => rfl
  | joined _ => rfl
  | next index r _ => rfl
  | peeked index r _ => rfl
  | receiver_dropped index r _ _ => rfl
  | sender_dropped _ => rfl

theorem run_counted {cap : Nat} (hcap : cap < usizeSize) {q : Queue P} {ops : List (QueueOp P)}
    (hrun : (machine P cap).Run (new cap) ops q) (hops : ∀ op ∈ ops, op.drops = false) :
    q.Counted cap := by
  have hok : (machine P cap).Meets (fun _ op => op.drops = false) (new cap) ops := by
    intro is₁ op is₂ t he _
    exact hops op (he ▸ List.mem_append_right _ (List.mem_cons_self))
  exact hrun.invariant_of_meets hok (counted_new cap)
    fun _ _ _ h hop hstep => h.step hcap hop hstep

/-- As long as no `poll_stale` takes out a Publish, the counter is the number of Publish RPCs that
wait, so a Publish is only refused when half the capacity waits. In any run it is that number
exactly when no Publish has been taken out so; and it never wraps around. -/
theorem the_counter_counts_the_publishes_that_wait {cap : Nat} (hcap : cap < usizeSize)
    {q : Queue P} {ops : List (QueueOp P)} (hrun : (machine P cap).Run (new cap) ops q)
    (hops : ∀ op ∈ ops, op.drops = false) :
    ((machine P cap).Meets (fun q op => q.keeps_publishes op = true) (new cap) ops →
      q.sender.len = q.publishes ∧
      ∀ rpc e, rpc.isPublish = true → q.sender.send_transaction rpc = .error e →
        q.publishes = cap / 2) ∧
    (q.sender.len = q.publishes ↔ ∀ rpc ∈ q.stale, rpc.isPublish = false) ∧
    ∀ r ∈ q.receivers, (r.poll_next (!q.alive) q.sender).2.2.len ≤ q.sender.len := by
  have hcounted := run_counted hcap hrun hops
  have hlen := hcounted.len
  refine ⟨?_, ?_, ?_⟩
  · intro hok
    have hmeets : (machine P cap).Meets
        (fun q op => op.drops = false ∧ q.keeps_publishes op = true) (new cap) ops := by
      intro is₁ op is₂ t he ht
      exact ⟨hops op (he ▸ List.mem_append_right _ (List.mem_cons_self)), hok is₁ op is₂ t he ht⟩
    have hstale : q.Counted cap ∧ q.stale_publishes = 0 := by
      refine hrun.invariant_of_meets (p := fun q => q.Counted cap ∧ q.stale_publishes = 0) hmeets
        ⟨counted_new cap, rfl⟩ ?_
      rintro t op u ⟨hcounted, hzero⟩ ⟨hop, hkeeps⟩ hstep
      exact ⟨hcounted.step hcap hop hstep, (hcounted.stale_step hkeeps hstep).trans hzero⟩
    have hle := hcounted.len_le
    have hpriority_cap := hcounted.priority_cap
    refine ⟨by omega, ?_⟩
    intro rpc e hrpc hrefused
    cases rpc with
    | Publish tx timeout =>
      simp only [Sender.send_transaction] at hrefused
      split at hrefused
      · omega
      · cases hrefused
    | Forward _ _ | HaveTx _ | ResetRoute _ => cases hrpc
  · have hzero : q.stale_publishes = 0 ↔ ∀ rpc ∈ q.stale, rpc.isPublish = false := by
      simp [stale_publishes, List.countP_eq_zero]
    rw [← hzero]
    omega
  · intro r hr
    rw [Receiver.poll_next_len (hcounted.good.sound r hr) (hcounted.forwards r hr)]
    obtain ⟨index, hindex⟩ := List.getElem?_of_mem hr
    obtain ⟨htakes, -⟩ := Receiver.poll_next_spec (hcounted.good.sound r hr)
    have hcount := publishes_of_takes hindex htakes
    have hle := hcounted.len_le
    have hlt : q.sender.len < usizeSize := by omega
    have := len_after_eq (Receiver.out (r.poll_next (!q.alive) q.sender).1) (by omega) hlt
    omega

/-- A Publish whose timeout is over once the clock passes 1. -/
def sample_publish : RpcOut Nat :=
  .Publish { from_ := 1, seqno := 1, data := [], signature := none, key := none }
    { created := 0, duration := 1 }

theorem the_counter_counts_the_publishes_that_wait_behind_a_have_tx :
    ∃ q : Queue Nat, (machine Nat 2).Run (new 2)
        [.send_transaction (.HaveTx ⟨⟨[1]⟩⟩), .send_transaction sample_publish,
          .poll_stale 0 fun _ => true] q ∧ q.publishes = 1 ∧ q.sender.len = q.publishes := by
  have hrun : (Machine.exec (Machine.guarded keeps_publishes step) (new 2 : Queue Nat)
      [.send_transaction (.HaveTx ⟨⟨[1]⟩⟩), .send_transaction sample_publish,
        .poll_stale 0 fun _ => true]).map publishes = some 1 := by decide
  obtain ⟨q, hrun, hok, hsee⟩ := Machine.exists_guarded_run hrun
  have hlaw := the_counter_counts_the_publishes_that_wait (by decide) hrun (by decide)
  exact ⟨q, hrun, hsee, (hlaw.1 hok).1⟩

/-- The stale Publish stays in the counter, and with capacity 2 every later Publish is refused. -/
theorem the_counter_counts_a_stale_publish :
    ¬ ∀ (cap : Nat) (q : Queue Nat) (ops : List (QueueOp Nat)), 2 ≤ cap → cap < usizeSize →
      (machine Nat cap).Run (new cap) ops q → (∀ op ∈ ops, op.drops = false) →
      q.sender.len = q.publishes := by
  intro hclaim
  have hrun : (Machine.exec step (new 2 : Queue Nat)
      [.send_transaction sample_publish, .poll_stale 0 fun _ => true]).map
      (fun q => (q.sender.len, q.publishes)) = some (1, 0) := by decide
  obtain ⟨q, hrun, hsee⟩ := Machine.exists_run_of_exec hrun
  have hlen := hclaim 2 q _ (by decide) (by decide) hrun (by decide)
  simp only [Prod.mk.injEq] at hsee
  omega

end Queue

end libp2p_dog
