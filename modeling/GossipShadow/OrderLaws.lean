-- Laws of a queue with one receiver: the RPCs of each of its two channels come
-- out in the order in which they were accepted, those of the first before
-- those of the second.
import GossipShadow.QueueLaws

namespace libp2p_dog

variable {P : Type}

namespace Receiver

/-- What `poll_stale` takes out is the head of the priority queue, a Publish, or the head of the
other queue. -/
theorem poll_stale_takes {closed : Bool} {elapsed : Delay → Bool} {r : Receiver P} {s : Sender P}
    (h : r.Sound closed s) {rpc : RpcOut P}
    (hout : out (r.poll_stale closed elapsed s).1 = some rpc) :
    rpc.isPublish = true ∧ r.priority_waiting s = rpc ::
        (r.poll_stale closed elapsed s).2.1.priority_waiting (r.poll_stale closed elapsed s).2.2 ∨
      r.non_priority_waiting s = rpc :: (r.poll_stale closed elapsed s).2.1.non_priority_waiting
        (r.poll_stale closed elapsed s).2.2 := by
  obtain ⟨htakes, -⟩ := @poll_stale_spec P closed elapsed r s h
  rcases htakes.taken with ⟨hnone, -⟩ | ⟨x, hx, hfirst, -⟩ | ⟨x, hx, -, hfirst⟩
  · rw [hnone] at hout
    cases hout
  · rw [hx] at hout
    cases hout
    refine .inl ⟨?_, hfirst⟩
    have hstale := head_stale_of_taken h hfirst
    rw [hfirst] at hstale
    exact isPublish_of_head_stale hstale
  · rw [hx] at hout
    cases hout
    exact .inr hfirst

/-- `poll_next` takes the head of the other queue only once the priority queue is empty. -/
theorem poll_next_takes {closed : Bool} {r : Receiver P} {s : Sender P} (h : r.Sound closed s)
    {rpc : RpcOut P} (hout : out (r.poll_next closed s).1 = some rpc) :
    (∃ rest, r.priority_waiting s = rpc :: rest) ∨
      r.priority_waiting s = [] ∧ ∃ rest, r.non_priority_waiting s = rpc :: rest := by
  obtain ⟨htakes, -⟩ := poll_next_spec h
  rcases htakes.taken with ⟨hnone, -⟩ | ⟨x, hx, hfirst, -⟩ | ⟨x, hx, -, hfirst⟩
  · rw [hnone] at hout
    cases hout
  · rw [hx] at hout
    cases hout
    exact .inl ⟨_, hfirst⟩
  · rw [hx] at hout
    cases hout
    exact .inr ⟨priority_empty_of_taken h hfirst, _, hfirst⟩

end Receiver

/-! ## The order in which RPCs come out -/

/-- The operations of a queue that keeps its one receiver and its sender. -/
def QueueOp.serves : QueueOp P → Bool
  | send_transaction _ | poll_next _ | poll_stale _ _ | poll_is_empty _ => true
  | _ => false

namespace Queue

/-- What an operation takes out. -/
def taken (q : Queue P) : QueueOp P → List (RpcOut P)
  | .poll_next index => (q.receivers[index]?.bind fun r =>
      Receiver.out (r.poll_next (!q.alive) q.sender).1).toList
  | .poll_stale index elapsed => (q.receivers[index]?.bind fun r =>
      Receiver.out (r.poll_stale (!q.alive) elapsed q.sender).1).toList
  | _ => []

/-- What a run takes out, in its order. -/
def taken_by (cap : Nat) (ops : List (QueueOp P)) : List (RpcOut P) :=
  Machine.observe step taken (new cap) ops

/-- The one receiver of a queue whose sender lives, when `seen` was taken out: of each channel, what
was accepted is what was taken out and then what waits. -/
structure Serves (seen : List (RpcOut P)) (q : Queue P) (r : Receiver P) : Prop where
  alive : q.alive = true
  receivers : q.receivers = [r]
  sound : r.Sound false q.sender
  priority : q.accepted.filter (!·.isForward) =
    seen.filter (!·.isForward) ++ r.priority_waiting q.sender
  non_priority : q.accepted.filter (·.isForward) =
    seen.filter (·.isForward) ++ r.non_priority_waiting q.sender

theorem serves_new (cap : Nat) :
    Serves [] (new cap : Queue P) ((Sender.new cap).new_receiver) where
  alive := rfl
  receivers := rfl
  sound := ⟨Peekable.sound_new _ _, Peekable.sound_new _ _⟩
  priority := by
    simp [new, Sender.new, Sender.new_receiver, Receiver.priority_waiting]
  non_priority := by
    simp [new, Sender.new, Sender.new_receiver, Receiver.non_priority_waiting]

theorem Serves.isForward_of_priority {seen : List (RpcOut P)} {q : Queue P} {r : Receiver P}
    (h : Serves seen q r) {rpc : RpcOut P} (hrpc : rpc ∈ r.priority_waiting q.sender) :
    rpc.isForward = false := by
  have hmem : rpc ∈ q.accepted.filter (!·.isForward) := by
    rw [h.priority]
    exact List.mem_append_right _ hrpc
  simpa using (List.mem_filter.mp hmem).2

theorem Serves.isForward_of_non_priority {seen : List (RpcOut P)} {q : Queue P} {r : Receiver P}
    (h : Serves seen q r) {rpc : RpcOut P} (hrpc : rpc ∈ r.non_priority_waiting q.sender) :
    rpc.isForward = true := by
  have hmem : rpc ∈ q.accepted.filter (·.isForward) := by
    rw [h.non_priority]
    exact List.mem_append_right _ hrpc
  exact (List.mem_filter.mp hmem).2

/-- A poll that takes the front of one of the channels, or nothing. -/
theorem Serves.polled {seen : List (RpcOut P)} {q : Queue P} {r r' : Receiver P} {s' : Sender P}
    {out : Option (RpcOut P)} (h : Serves seen q r) (htakes : r.Takes false q.sender out r' s')
    (returned stale : List (RpcOut P)) :
    Serves (seen ++ out.toList) { q.polled 0 r' s' with returned, stale } r' := by
  have hpriority := h.priority
  have hnon_priority := h.non_priority
  refine ⟨h.alive, by simp [Queue.polled, h.receivers], htakes.sound, ?_, ?_⟩
  all_goals
    simp only [Queue.polled]
    rcases htakes.taken with ⟨rfl, h₁, h₂⟩ | ⟨rpc, rfl, h₁, h₂⟩ | ⟨rpc, rfl, h₁, h₂⟩
  · simpa [h₁] using hpriority
  · have hrpc : rpc.isForward = false := h.isForward_of_priority (by simp [h₁])
    simpa [h₁, hrpc] using hpriority
  · have hrpc : rpc.isForward = true := h.isForward_of_non_priority (by simp [h₂])
    simpa [h₁, hrpc] using hpriority
  · simpa [h₂] using hnon_priority
  · have hrpc : rpc.isForward = false := h.isForward_of_priority (by simp [h₁])
    simpa [h₂, hrpc] using hnon_priority
  · have hrpc : rpc.isForward = true := h.isForward_of_non_priority (by simp [h₂])
    simpa [h₂, hrpc] using hnon_priority

theorem Serves.sent {seen : List (RpcOut P)} {q : Queue P} {r : Receiver P} (h : Serves seen q r)
    (rpc : RpcOut P) :
    Serves seen { q with sender := q.sender.push [rpc], accepted := q.accepted ++ [rpc] } r := by
  refine ⟨h.alive, h.receivers, h.sound.of_open _, ?_, ?_⟩
  · simp only [List.filter_append, h.priority, Receiver.priority_waiting, Peekable.waiting,
      Sender.push, List.append_assoc]
  · simp only [List.filter_append, h.non_priority, Receiver.non_priority_waiting, Peekable.waiting,
      Sender.push, List.append_assoc]

/-- A poll names a receiver that is there, and there is one. -/
theorem Serves.polls {seen : List (RpcOut P)} {q : Queue P} {r r' : Receiver P} {index : Nat}
    (h : Serves seen q r) (hr' : q.receivers[index]? = some r') : index = 0 ∧ r' = r := by
  rw [h.receivers, List.getElem?_singleton] at hr'
  split at hr'
  · rename_i hindex
    cases hr'
    exact ⟨hindex, rfl⟩
  · cases hr'

theorem Serves.step {seen : List (RpcOut P)} {q q' : Queue P} {r : Receiver P} {op : QueueOp P}
    (h : Serves seen q r) (hop : op.serves = true) (hstep : q.step op = some q') :
    ∃ r', Serves (seen ++ q.taken op) q' r' := by
  have hopen : (!q.alive) = false := by rw [h.alive]; rfl
  cases step_cases hstep with
  | sent rpc sender alive send =>
    rw [Sender.send_transaction_ok send]
    exact ⟨r, by simpa [taken] using h.sent rpc⟩
  | refused rpc => exact ⟨r, by simpa [taken] using h⟩
  | joined _ => cases hop
  | next index r' there =>
    obtain ⟨rfl, rfl⟩ := h.polls there
    obtain ⟨htakes, -⟩ := Receiver.poll_next_spec h.sound
    simp only [taken, there, Option.bind_some, hopen]
    exact ⟨_, h.polled htakes _ _⟩
  | timed_out index elapsed r' there =>
    obtain ⟨rfl, rfl⟩ := h.polls there
    obtain ⟨htakes, -⟩ := @Receiver.poll_stale_spec P false elapsed r' q.sender h.sound
    simp only [taken, there, Option.bind_some, hopen]
    exact ⟨_, h.polled htakes _ _⟩
  | peeked index r' there =>
    obtain ⟨rfl, rfl⟩ := h.polls there
    obtain ⟨htakes, -⟩ := Receiver.poll_is_empty_spec h.sound
    have hpolled := h.polled htakes q.returned q.stale
    rw [hopen]
    exact ⟨_, hpolled⟩
  | receiver_dropped _ _ _ _ => cases hop
  | sender_dropped _ => cases hop

theorem serves_of_run {cap : Nat} {q : Queue P} {ops : List (QueueOp P)}
    (hrun : (machine P cap).Run (new cap) ops q) (hops : ∀ op ∈ ops, op.serves = true) :
    ∃ r, Serves (taken_by cap ops) q r := by
  refine Machine.Run.observe_invariant_of_meets (p := fun seen q => ∃ r, Serves seen q r) hrun
    (Machine.meets_of_forall hops) ⟨_, serves_new cap⟩ ?_
  rintro seen q op q' ⟨r, h⟩ hop hstep
  exact h.step hop hstep

/-- A queue with one receiver, over any sends and polls: the priority RPCs come out in the order in
which they were accepted, and so do the Forwards; a Forward comes by `poll_next` only when no
priority RPC waits; a control RPC is neither refused nor dropped as stale. -/
theorem a_single_receiver_merges_in_order {cap : Nat} {q : Queue P} {ops : List (QueueOp P)}
    (hrun : (machine P cap).Run (new cap) ops q) (hops : ∀ op ∈ ops, op.serves = true) :
    ∃ r, q.receivers = [r] ∧
      q.accepted.filter (!·.isForward) =
        (taken_by cap ops).filter (!·.isForward) ++ r.priority_waiting q.sender ∧
      q.accepted.filter (·.isForward) =
        (taken_by cap ops).filter (·.isForward) ++ r.non_priority_waiting q.sender ∧
      (∀ rpc, rpc.isForward = true → (r.poll_next false q.sender).1 = .Ready (some rpc) →
        r.priority_waiting q.sender = []) ∧
      (∀ rpc : RpcOut P, rpc.tx? = none →
        (∃ sender, q.sender.send_transaction rpc = .ok sender) ∧
        ∀ elapsed, (r.poll_stale false elapsed q.sender).1 ≠ .Ready (some rpc)) := by
  obtain ⟨r, h⟩ := serves_of_run hrun hops
  refine ⟨r, h.receivers, h.priority, h.non_priority, ?_, ?_⟩
  · intro rpc hforward hnext
    have hout : Receiver.out (r.poll_next false q.sender).1 = some rpc := by rw [hnext]; rfl
    rcases Receiver.poll_next_takes h.sound hout with ⟨rest, hrest⟩ | ⟨hempty, -⟩
    · have hnot : rpc.isForward = false := h.isForward_of_priority (by simp [hrest])
      rw [hforward] at hnot
      cases hnot
    · exact hempty
  · intro rpc hcontrol
    refine ⟨⟨_, Sender.send_control hcontrol⟩, ?_⟩
    intro elapsed hstale
    have hout : Receiver.out (r.poll_stale false elapsed q.sender).1 = some rpc := by
      rw [hstale]; rfl
    rcases Receiver.poll_stale_takes h.sound hout with ⟨hpublish, -⟩ | hfirst
    · cases rpc <;> simp_all [RpcOut.isPublish, RpcOut.tx?]
    · have hforward : rpc.isForward = true := h.isForward_of_non_priority (by simp [hfirst])
      cases rpc <;> simp_all [RpcOut.isForward, RpcOut.tx?]

/-- A HaveTx and a Forward are peeked at before a Publish is sent, and the two transactions time
out. -/
def peeks_and_polls : List (QueueOp Nat) :=
  [.send_transaction sample_forward, .send_transaction (.HaveTx ⟨⟨[1]⟩⟩), .poll_is_empty 0,
    .send_transaction sample_publish, .poll_stale 0 (fun _ => true), .poll_next 0,
    .poll_stale 0 (fun _ => true), .send_transaction (.ResetRoute {})]

theorem a_single_receiver_merges_four_rpcs_in_order :
    ∃ q r, (machine Nat 4).Run (new 4) peeks_and_polls q ∧ q.receivers = [r] ∧
      taken_by 4 peeks_and_polls = [sample_forward, .HaveTx ⟨⟨[1]⟩⟩, sample_publish] ∧
      r.priority_waiting q.sender = [.ResetRoute {}] ∧ r.non_priority_waiting q.sender = [] := by
  have hrun : (Machine.exec step (new 4 : Queue Nat) peeks_and_polls).map (·.accepted) =
      some [sample_forward, .HaveTx ⟨⟨[1]⟩⟩, sample_publish, .ResetRoute {}] := by decide
  have htaken : taken_by 4 peeks_and_polls = [sample_forward, .HaveTx ⟨⟨[1]⟩⟩, sample_publish] := by
    decide
  obtain ⟨q, hrun, haccepted⟩ := Machine.exists_run_of_exec hrun
  obtain ⟨r, hreceivers, hpriority, hnon_priority, -⟩ :=
    a_single_receiver_merges_in_order hrun (by decide)
  rw [haccepted, htaken] at hpriority hnon_priority
  refine ⟨q, r, hrun, hreceivers, htaken, ?_, ?_⟩
  · simpa [sample_forward, sample_publish, RpcOut.isForward] using hpriority.symm
  · simpa [sample_forward, sample_publish, RpcOut.isForward] using hnon_priority

end Queue

end libp2p_dog
