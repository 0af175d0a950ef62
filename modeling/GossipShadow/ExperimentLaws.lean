-- Laws of the experiment: the scripts that the nodes run and the phases that the
-- analysis reads are two accounts of the same messages.
import GossipShadow.Experiment
import GossipShadow.Lib.Timeline

namespace experiment

open Timeline

/-! ## What the scripts publish -/

/-- What the analysis should know of an instruction that a node gets at some time. -/
def InstructionParams.publication (source : NodeID) (time_ms : Int) :
    InstructionParams → Option MessageInfo
  | .Publish message_id size_bytes topic => some { message_id, source, size_bytes, topic, time_ms }
  | _ => none

def ScriptInstruction.publications (source : NodeID) (i : ScriptInstruction) : List MessageInfo :=
  i.instructions.filterMap (InstructionParams.publication source i.elapsedMillis)

def published (t : Table NodeID (List ScriptInstruction)) : List MessageInfo :=
  t.items.flatMap fun e => e.2.publications e.1

theorem published_extend (nid : NodeID) (is : List ScriptInstruction)
    (t : Table NodeID (List ScriptInstruction)) :
    (published (t.extend nid is)).Perm (published t ++ is.flatMap (·.publications nid)) := by
  unfold published
  have hitems := (Table.items_extend nid is t).flatMap_right fun e => e.2.publications e.1
  rwa [List.flatMap_append, List.flatMap_map] at hitems

/-- When a phase starts, how long it warms up, and when it ends. -/
structure Window where
  start : Int
  warmup : Int
  finish : Int

section

variable {C : Type}

/-! ## The phase -/

namespace ExperimentPhase

/-- The window of a phase. The clock stands still while the phase is filled. -/
def window (phase : ExperimentPhase) (state : ExperimentState C) : Window where
  start := state.elapsed_time_ms
  warmup := phase.warmup_time_ms
  finish := phase.get_end_time_ms state

/-- What holds of a phase while it is filled. -/
structure Fits (phase : ExperimentPhase) (state : ExperimentState C) : Prop where
  warmup : 0 ≤ phase.warmup_time_ms
  cooldown : 0 ≤ phase.cooldown_time_ms
  duration : 0 ≤ phase.main_phase_duration_ms
  active : phase.active_ids = state.active_ids
  scripts : ∀ nid, Within ScriptInstruction.elapsedMillis
    (state.elapsed_time_ms + phase.warmup_time_ms) (phase.get_main_phase_end_time_ms state)
    (phase.main_phase.under nid)
  idle : ∀ nid, nid ∉ phase.active_ids → phase.main_phase.under nid = []
  published : (published phase.main_phase).Perm phase.messages
  messages : ∀ m ∈ phase.messages, m.source ∈ phase.active_ids ∧
    state.elapsed_time_ms + phase.warmup_time_ms ≤ m.time_ms ∧
    m.time_ms ≤ phase.get_main_phase_end_time_ms state

theorem fits_new {state : ExperimentState C} {warmup cooldown : Int} (hwarmup : 0 ≤ warmup)
    (hcooldown : 0 ≤ cooldown) : (new state warmup cooldown).Fits state where
  warmup := hwarmup
  cooldown := hcooldown
  duration := le_refl 0
  active := rfl
  scripts := fun _ => Within.nil
  idle := fun _ _ => rfl
  published := List.Perm.refl []
  messages := by
    intro m hm
    cases hm

/-- The message that `add_message` takes down. -/
def next_message (phase : ExperimentPhase) (state : ExperimentState C) (delay_ms : Int)
    (node_id : NodeID) (size_bytes : Int) (topic : String) : MessageInfo where
  message_id := state.next_message_id
  source := node_id
  size_bytes := size_bytes
  topic := topic
  time_ms := phase.get_main_phase_end_time_ms state + delay_ms

/-- The same message, as it stands in the script of its node. -/
def publish_at (m : MessageInfo) : ScriptInstruction where
  elapsedMillis := m.time_ms
  instructions := [.Publish m.message_id m.size_bytes m.topic]

theorem publish_at_publications (m : MessageInfo) :
    (publish_at m).publications m.source = [m] := rfl

/-- What one call of `add_message` does. -/
theorem add_message_cases {phase phase' : ExperimentPhase} {state state' : ExperimentState C}
    {delay_ms : Int} {node_id : NodeID} {size_bytes : Int} {topic : String} {message_id : Nat}
    (h : phase.add_message state delay_ms node_id size_bytes topic =
      some (message_id, phase', state')) :
    ∃ m, m = phase.next_message state delay_ms node_id size_bytes topic ∧
      node_id ∈ phase.active_ids ∧ message_id = m.message_id ∧
      state' = { state with next_message_id := state.next_message_id + 1 } ∧
      phase' = { phase with
        main_phase_duration_ms := phase.main_phase_duration_ms + delay_ms
        main_phase := phase.main_phase.extend m.source [publish_at m]
        messages := phase.messages ++ [m] } := by
  unfold add_message at h
  split at h
  · rename_i hactive
    cases h
    refine ⟨_, rfl, hactive, rfl, rfl, ?_⟩
    simp only [publish_at, next_message, get_main_phase_end_time_ms, Int.add_assoc]
  · cases h

theorem Fits.add_message {phase phase' : ExperimentPhase} {state state' : ExperimentState C}
    {delay_ms : Int} {node_id : NodeID} {size_bytes : Int} {topic : String} {message_id : Nat}
    (hfits : phase.Fits state) (hdelay : 0 ≤ delay_ms)
    (h : phase.add_message state delay_ms node_id size_bytes topic =
      some (message_id, phase', state')) : phase'.Fits state' := by
  obtain ⟨m, hm, hactive, -, rfl, rfl⟩ := add_message_cases h
  have hsource : m.source = node_id := by rw [hm, next_message]
  have htime : m.time_ms = phase.get_main_phase_end_time_ms state + delay_ms := by
    rw [hm, next_message]
  have hwarm : state.elapsed_time_ms + phase.warmup_time_ms ≤
      phase.get_main_phase_end_time_ms state := by
    unfold get_main_phase_end_time_ms
    have := hfits.duration
    omega
  -- the main phase now ends with the message
  have hend : state.elapsed_time_ms + phase.warmup_time_ms +
      (phase.main_phase_duration_ms + delay_ms) = m.time_ms := by
    rw [htime, get_main_phase_end_time_ms]
    omega
  refine ⟨hfits.warmup, hfits.cooldown, Int.add_nonneg hfits.duration hdelay, hfits.active,
    ?_, ?_, ?_, ?_⟩
  · intro nid
    unfold get_main_phase_end_time_ms
    dsimp only
    rw [Table.under_extend, hend]
    split
    · have hlast : Within ScriptInstruction.elapsedMillis
          (phase.get_main_phase_end_time_ms state) m.time_ms [publish_at m] := by
        apply Within.single
        · unfold publish_at
          dsimp only
          omega
        · exact le_refl m.time_ms
      exact (hfits.scripts m.source).append hlast hwarm (by omega)
    · exact (hfits.scripts nid).mono (by omega)
  · intro nid hnid
    have hne : nid ≠ m.source := by
      rintro rfl
      rw [hsource] at hnid
      exact hnid hactive
    rw [Table.under_extend, if_neg hne]
    exact hfits.idle nid hnid
  · apply (published_extend m.source [publish_at m] phase.main_phase).trans
    rw [List.flatMap_singleton, publish_at_publications]
    exact hfits.published.append_right [m]
  · intro m' hm'
    unfold get_main_phase_end_time_ms
    dsimp only
    rw [hend]
    rcases List.mem_append.mp hm' with hold | hnew
    · obtain ⟨hmem, hafter, hbefore⟩ := hfits.messages m' hold
      exact ⟨hmem, hafter, by omega⟩
    · obtain rfl := List.mem_singleton.mp hnew
      exact ⟨hsource ▸ hactive, by omega, le_refl _⟩

/-! ## Applying a phase -/

/-- The entry that keeps a node up until the end of the phase. -/
def end_marker (phase : ExperimentPhase) (state : ExperimentState C) : ScriptInstruction where
  elapsedMillis := phase.get_end_time_ms state
  instructions := []

/-- What a phase adds to the script of an active node. -/
def addition (phase : ExperimentPhase) (state : ExperimentState C) (nid : NodeID) :
    List ScriptInstruction :=
  phase.main_phase.under nid ++ [phase.end_marker state]

theorem under_apply_to (phase : ExperimentPhase) (state : ExperimentState C)
    (t : Table NodeID (List ScriptInstruction)) (node : Node C) (nid : NodeID) :
    (phase.apply_to state t node).under nid =
      if nid = node.idx then t.under nid ++ phase.addition state nid else t.under nid := by
  unfold apply_to
  simp only [Table.under_extend]
  split
  · rename_i hnid
    rw [if_pos trivial, hnid, List.append_assoc]
    rfl
  · rfl

theorem published_apply_to (phase : ExperimentPhase) (state : ExperimentState C)
    (t : Table NodeID (List ScriptInstruction)) (node : Node C) :
    (published (phase.apply_to state t node)).Perm
      (published t ++ (phase.main_phase.under node.idx).flatMap (·.publications node.idx)) := by
  unfold apply_to
  apply (published_extend _ _ _).trans
  rw [List.flatMap_singleton]
  have hnone : (phase.end_marker state).publications node.idx = [] := rfl
  unfold end_marker at hnone
  rw [hnone, List.append_nil]
  exact published_extend _ _ t

/-- The loop over the active nodes adds to the script of each of them once. -/
theorem under_foldl_apply_to (phase : ExperimentPhase) (state : ExperimentState C)
    {nodes : List (Node C)} (hnodes : (nodes.map (·.idx)).Nodup)
    (t : Table NodeID (List ScriptInstruction)) (nid : NodeID) :
    (nodes.foldl (phase.apply_to state) t).under nid =
      if nid ∈ nodes.map (·.idx) then t.under nid ++ phase.addition state nid
      else t.under nid := by
  induction nodes generalizing t with
  | nil => rfl
  | cons node nodes ih =>
    rw [List.map_cons, List.nodup_cons] at hnodes
    rw [List.foldl_cons, ih hnodes.2, under_apply_to, List.map_cons]
    by_cases hnid : nid = node.idx
    · subst hnid
      rw [if_neg hnodes.1, if_pos rfl, if_pos List.mem_cons_self]
    · simp only [List.mem_cons, hnid, false_or, if_false]

theorem published_foldl_apply_to (phase : ExperimentPhase) (state : ExperimentState C)
    (nodes : List (Node C)) (t : Table NodeID (List ScriptInstruction)) :
    (published (nodes.foldl (phase.apply_to state) t)).Perm
      (published t ++ (nodes.map (·.idx)).flatMap fun nid =>
        (phase.main_phase.under nid).flatMap (·.publications nid)) := by
  induction nodes generalizing t with
  | nil =>
    rw [List.map_nil, List.flatMap_nil, List.append_nil]
    exact List.Perm.refl _
  | cons node nodes ih =>
    rw [List.foldl_cons, List.map_cons, List.flatMap_cons, ← List.append_assoc]
    exact (ih _).trans ((published_apply_to phase state t node).append_right _)

/-- The active nodes get all that the phase has to publish. -/
theorem Fits.published_active {phase : ExperimentPhase} {state : ExperimentState C}
    (hfits : phase.Fits state) {ks : List NodeID} (hks : ks.Nodup)
    (hactive : ∀ nid, nid ∈ phase.active_ids → nid ∈ ks) :
    (ks.flatMap fun nid => (phase.main_phase.under nid).flatMap (·.publications nid)).Perm
      phase.messages := by
  have hidle : ∀ nid, nid ∉ ks → phase.main_phase.under nid = [] :=
    fun nid hnid => hfits.idle nid (fun h => hnid (hactive nid h))
  have hitems := (Table.items_perm hks hidle).flatMap_right fun e => e.2.publications e.1
  rw [List.flatMap_assoc] at hitems
  simp only [List.flatMap_map] at hitems
  exact hitems.symm.trans hfits.published

end ExperimentPhase

/-! ## The scenario -/

/-- The durations that a call gives are not negative. -/
def Call.NonNegative : Call C → Prop
  | .new_phase warmup_ms cooldown_ms => 0 ≤ warmup_ms ∧ 0 ≤ cooldown_ms
  | .add_message delay_ms _ _ _ => 0 ≤ delay_ms
  | _ => True

namespace Experiment

def messages (exp : Experiment C) : List MessageInfo := exp.phases.flatMap (·.messages)

/-- What holds of an experiment between the calls. -/
structure Fits (exp : Experiment C) : Prop where
  distinct : ((exp.state.active_set ++ exp.state.ready_set).map (·.idx)).Nodup
  clock : 0 ≤ exp.state.elapsed_time_ms
  scripts : ∀ nid, Within ScriptInstruction.elapsedMillis 0 exp.state.elapsed_time_ms
    (exp.instructions.under nid)
  published : (published exp.instructions).Perm exp.messages

theorem Fits.active {exp : Experiment C} (hfits : exp.Fits) :
    (exp.state.active_set.map (·.idx)).Nodup := by
  have h := hfits.distinct
  rw [List.map_append] at h
  exact h.of_append_left

theorem mem_active_ids {state : ExperimentState C} {nid : NodeID} :
    nid ∈ state.active_ids ↔ nid ∈ state.active_set.map (·.idx) := by
  unfold ExperimentState.active_ids
  exact List.mem_dedup

theorem fits_new {nodes : List (Node C)} (hnodes : (nodes.map (·.idx)).Nodup) :
    (new nodes).Fits where
  distinct := hnodes
  clock := le_refl 0
  scripts := fun _ => Within.nil
  published := List.Perm.refl []

/-- A call between the phases: the experiment fits, and nothing was noted of a message. -/
structure Between (exp exp' : Experiment C) : Prop where
  fits : exp'.Fits
  phases : exp'.phases = exp.phases
  next_message_id : exp'.state.next_message_id = exp.state.next_message_id

theorem Fits.setup_node {exp exp' : Experiment C} {node : Node C} {peers : List NodeID}
    {topics : List String} (hfits : exp.Fits)
    (h : exp.setup_node node peers topics = some exp') : Between exp exp' := by
  unfold Experiment.setup_node at h
  split at h
  · cases h
    refine ⟨⟨hfits.distinct, hfits.clock, ?_, ?_⟩, rfl, rfl⟩
    · intro nid
      unfold add_instruction
      dsimp only
      rw [Table.under_extend]
      split
      · exact (hfits.scripts node.idx).append (Within.single (le_refl _) (le_refl _)) hfits.clock
          (le_refl _)
      · exact hfits.scripts nid
    · apply (published_extend _ _ exp.instructions).trans
      have hnone : (topics.map InstructionParams.SubscribeToTopic).filterMap
          (InstructionParams.publication node.idx exp.state.elapsed_time_ms) = [] := by
        rw [List.filterMap_map]
        exact List.filterMap_eq_nil_iff.mpr fun _ _ => rfl
      simp only [List.flatMap_singleton, ScriptInstruction.publications]
      rw [List.filterMap_cons_none rfl, hnone, List.append_nil]
      exact hfits.published
  · cases h

/-- What a phase leaves of the experiment that it is applied to. -/
theorem Fits.apply_phase {exp : Experiment C} {phase : ExperimentPhase} (hfits : exp.Fits)
    (hphase : phase.Fits exp.state) : (exp.apply_phase phase).Fits := by
  have hmain : exp.state.elapsed_time_ms + phase.warmup_time_ms ≤
      phase.get_main_phase_end_time_ms exp.state := by
    unfold ExperimentPhase.get_main_phase_end_time_ms
    have := hphase.duration
    omega
  have hend : phase.get_main_phase_end_time_ms exp.state ≤ phase.get_end_time_ms exp.state := by
    unfold ExperimentPhase.get_end_time_ms
    have := hphase.cooldown
    omega
  have hclock := hfits.clock
  have hwarmup := hphase.warmup
  refine ⟨hfits.distinct, ?_, ?_, ?_⟩
  · show 0 ≤ phase.get_end_time_ms exp.state
    omega
  · intro nid
    show Within ScriptInstruction.elapsedMillis 0 (phase.get_end_time_ms exp.state)
      ((exp.state.active_set.foldl (phase.apply_to exp.state) exp.instructions).under nid)
    rw [ExperimentPhase.under_foldl_apply_to phase exp.state hfits.active]
    have hold := hfits.scripts nid
    split
    · have hmarker : Within ScriptInstruction.elapsedMillis
          (phase.get_main_phase_end_time_ms exp.state) (phase.get_end_time_ms exp.state)
          [phase.end_marker exp.state] :=
        Within.single hend (le_refl _)
      have hnew := (hphase.scripts nid).append hmarker hmain hend
      have hwarm := hold.mono (c := exp.state.elapsed_time_ms + phase.warmup_time_ms) (by omega)
      exact hwarm.append hnew (by omega) (by omega)
    · exact hold.mono (by omega)
  · apply (ExperimentPhase.published_foldl_apply_to phase exp.state _ _).trans
    have hactive : ∀ nid, nid ∈ phase.active_ids → nid ∈ exp.state.active_set.map (·.idx) := by
      intro nid hnid
      rw [hphase.active, mem_active_ids] at hnid
      exact hnid
    have hmessages : (exp.apply_phase phase).messages = exp.messages ++ phase.messages := by
      unfold Experiment.messages Experiment.apply_phase
      rw [List.flatMap_append, List.flatMap_singleton]
      rfl
    rw [hmessages]
    exact hfits.published.append (hphase.published_active hfits.active hactive)

variable [DecidableEq C]

theorem Fits.activate_node {exp exp' : Experiment C} {node : Node C} (hfits : exp.Fits)
    (h : exp.activate_node node = some exp') : Between exp exp' := by
  unfold Experiment.activate_node at h
  split at h
  · rename_i hmem
    cases h
    refine ⟨⟨?_, hfits.clock, hfits.scripts, hfits.published⟩, rfl, rfl⟩
    have hperm : (exp.state.active_set ++ exp.state.ready_set).Perm
        (exp.state.active_set ++ [node] ++ exp.state.ready_set.erase node) := by
      rw [List.append_assoc]
      exact (List.perm_cons_erase hmem).append_left _
    exact ((hperm.map _).nodup_iff).mp hfits.distinct
  · cases h

theorem Fits.deactivate_node {exp exp' : Experiment C} {node : Node C} (hfits : exp.Fits)
    (h : exp.deactivate_node node = some exp') : Between exp exp' := by
  unfold Experiment.deactivate_node at h
  split at h
  · cases h
    refine ⟨⟨?_, hfits.clock, hfits.scripts, hfits.published⟩, rfl, rfl⟩
    have hsub : (exp.state.active_set.erase node).Sublist exp.state.active_set :=
      List.erase_sublist
    exact hfits.distinct.sublist ((hsub.append_right _).map _)
  · cases h

omit [DecidableEq C] in
/-- A loop over nodes is between the phases when each of its turns is. -/
theorem Fits.foldlM {turn : Experiment C → Node C → Option (Experiment C)}
    (hturn : ∀ exp node exp', exp.Fits → turn exp node = some exp' → Between exp exp')
    {nodes : List (Node C)} {exp exp' : Experiment C} (hfits : exp.Fits)
    (h : nodes.foldlM turn exp = some exp') : Between exp exp' := by
  induction nodes generalizing exp with
  | nil =>
    cases h
    exact ⟨hfits, rfl, rfl⟩
  | cons node nodes ih =>
    simp only [List.foldlM_cons, Option.bind_eq_bind, Option.bind_eq_some_iff] at h
    obtain ⟨mid, hmid, h⟩ := h
    have hfirst := hturn _ _ _ hfits hmid
    have hrest := ih hfirst.fits h
    exact ⟨hrest.fits, hrest.phases.trans hfirst.phases,
      hrest.next_message_id.trans hfirst.next_message_id⟩

end Experiment

/-- The sources of the messages of a phase are among its nodes, and their times lie between the
end of the warmup and the end of the phase. -/
def PhaseInfo.Covers (info : PhaseInfo) (w : Window) : Prop :=
  ∀ m ∈ info.messages, m.source ∈ info.nodes ∧ w.start + w.warmup ≤ m.time_ms ∧ m.time_ms ≤ w.finish

theorem ExperimentPhase.Fits.covers {phase : ExperimentPhase} {exp : Experiment C}
    (hphase : phase.Fits exp.state) :
    (phase.apply exp.state exp.instructions).1.Covers (phase.window exp.state) := by
  intro m hm
  obtain ⟨hactive, hwarm, hmain⟩ := hphase.messages m hm
  refine ⟨?_, hwarm, ?_⟩
  · unfold ExperimentPhase.apply
    exact (List.mem_insertionSort _).mpr hactive
  · unfold ExperimentPhase.window ExperimentPhase.get_end_time_ms
    have hcooldown := hphase.cooldown
    dsimp only
    omega

namespace Scenario

/-- The messages of the phase that is being filled. -/
def open_messages (s : Scenario C) : List MessageInfo := s.phase.elim [] (·.messages)

structure Fits (s : Scenario C) : Prop where
  exp : s.exp.Fits
  phase : ∀ phase ∈ s.phase, phase.Fits s.exp.state
  ids : (s.exp.messages ++ s.open_messages).map (·.message_id) =
    List.range s.exp.state.next_message_id

theorem fits_start {nodes : List (Node C)} (hnodes : (nodes.map (·.idx)).Nodup) :
    (start nodes).Fits where
  exp := Experiment.fits_new hnodes
  phase := by
    intro phase h
    cases h
  ids := rfl

theorem Fits.between {s : Scenario C} {exp : Experiment C} (hfits : s.Fits)
    (hphase : s.phase = none) (h : Experiment.Between s.exp exp) :
    ({ exp, phase := none } : Scenario C).Fits where
  exp := h.fits
  phase := by
    intro phase hsome
    cases hsome
  ids := by
    have hids := hfits.ids
    unfold Experiment.messages open_messages at hids ⊢
    rw [hphase] at hids
    rw [h.phases, h.next_message_id]
    exact hids

/-- What a call lets one see of the phase that it applies. -/
def windows (s : Scenario C) : Call C → List Window
  | .apply_phase => s.phase.toList.map (·.window s.exp.state)
  | _ => []

/-- The message id that a call returns. -/
def returned_ids (s : Scenario C) : Call C → List Nat
  | .add_message delay_ms node_id size_bytes topic =>
    (s.phase.bind fun phase =>
      phase.add_message s.exp.state delay_ms node_id size_bytes topic).toList.map (·.1)
  | _ => []

/-- What a call does to the phases that are noted and to the message ids. -/
structure Took (s : Scenario C) (call : Call C) (s' : Scenario C) : Prop where
  fits : s'.Fits
  phases : ∃ infos, s'.exp.phases = s.exp.phases ++ infos ∧
    List.Forall₂ PhaseInfo.Covers infos (s.windows call)
  ids : ∃ n, s.returned_ids call = List.range' s.exp.state.next_message_id n ∧
    s'.exp.state.next_message_id = s.exp.state.next_message_id + n

theorem Fits.took_between {s : Scenario C} {exp : Experiment C} (hfits : s.Fits)
    (hphase : s.phase = none) (h : Experiment.Between s.exp exp) (call : Call C)
    (hids : s.returned_ids call = []) :
    Took s call { exp, phase := none } where
  fits := hfits.between hphase h
  phases := by
    refine ⟨[], by rw [h.phases, List.append_nil], ?_⟩
    unfold windows
    split
    · rw [hphase]
      exact List.Forall₂.nil
    · exact List.Forall₂.nil
  ids := ⟨0, by rw [hids, List.range'_zero], by rw [h.next_message_id, Nat.add_zero]⟩

theorem Fits.apply_phase {s : Scenario C} {phase : ExperimentPhase} (hfits : s.Fits)
    (hphase : s.phase = some phase) :
    Took s .apply_phase { exp := s.exp.apply_phase phase, phase := none } := by
  have hfilled := hfits.phase phase hphase
  refine ⟨⟨hfits.exp.apply_phase hfilled, ?_, ?_⟩, ⟨_, rfl, ?_⟩, ⟨0, rfl, rfl⟩⟩
  · intro phase₁ h₁
    cases h₁
  · have hids := hfits.ids
    unfold Experiment.messages open_messages at hids ⊢
    rw [hphase] at hids
    unfold Experiment.apply_phase
    rw [List.flatMap_append, List.flatMap_singleton, Option.elim_none, List.append_nil]
    exact hids
  · unfold windows
    rw [hphase]
    exact List.Forall₂.cons hfilled.covers List.Forall₂.nil

variable [DecidableEq C]

theorem Fits.add_message {s s' : Scenario C} {phase : ExperimentPhase} {delay_ms : Int}
    {node_id : NodeID} {size_bytes : Int} {topic : String} (hfits : s.Fits)
    (hphase : s.phase = some phase) (hdelay : 0 ≤ delay_ms)
    (h : s.step (.add_message delay_ms node_id size_bytes topic) = some s') :
    Took s (.add_message delay_ms node_id size_bytes topic) s' := by
  unfold step at h
  rw [hphase] at h
  obtain ⟨⟨message_id, phase', state'⟩, hadded, rfl⟩ := Option.map_eq_some_iff.mp h
  have hphase' := (hfits.phase phase hphase).add_message hdelay hadded
  have hreturned : s.returned_ids (.add_message delay_ms node_id size_bytes topic) =
      [message_id] := by
    simp only [returned_ids, hphase, Option.bind_some, hadded]
    rfl
  obtain ⟨m, hm, -, rfl, rfl, rfl⟩ := ExperimentPhase.add_message_cases hadded
  have hid : m.message_id = s.exp.state.next_message_id := by rw [hm, ExperimentPhase.next_message]
  refine ⟨⟨⟨hfits.exp.distinct, hfits.exp.clock, hfits.exp.scripts, hfits.exp.published⟩, ?_, ?_⟩,
    ⟨[], (List.append_nil _).symm, List.Forall₂.nil⟩, ⟨1, ?_, rfl⟩⟩
  · intro phase₁ h₁
    cases h₁
    exact hphase'
  · have hids := hfits.ids
    unfold Experiment.messages open_messages at hids ⊢
    rw [hphase] at hids
    simp only [Option.elim_some] at hids ⊢
    rw [← List.append_assoc, List.map_append, hids, List.range_succ, List.map_singleton, hid]
  · rw [hreturned, hid, List.range'_one]

theorem Fits.step {s s' : Scenario C} {call : Call C} (hfits : s.Fits) (hcall : call.NonNegative)
    (h : s.step call = some s') : Took s call s' := by
  cases hphase : s.phase with
  | none =>
    unfold Scenario.step at h
    rw [hphase] at h
    cases call with
    | activate_nodes nodes =>
      obtain ⟨exp, hexp, rfl⟩ := Option.map_eq_some_iff.mp h
      have hbetween := hfits.exp.foldlM (fun _ _ _ hf ht => hf.activate_node ht) hexp
      exact hfits.took_between hphase hbetween (.activate_nodes nodes) rfl
    | deactivate_nodes nodes =>
      obtain ⟨exp, hexp, rfl⟩ := Option.map_eq_some_iff.mp h
      have hbetween := hfits.exp.foldlM (fun _ _ _ hf ht => hf.deactivate_node ht) hexp
      exact hfits.took_between hphase hbetween (.deactivate_nodes nodes) rfl
    | setup_node node peers topics =>
      obtain ⟨exp, hexp, rfl⟩ := Option.map_eq_some_iff.mp h
      have hbetween := hfits.exp.setup_node hexp
      exact hfits.took_between hphase hbetween (.setup_node node peers topics) rfl
    | new_phase warmup_ms cooldown_ms =>
      cases h
      obtain ⟨hwarmup, hcooldown⟩ := hcall
      refine ⟨⟨hfits.exp, ?_, ?_⟩, ⟨[], (List.append_nil _).symm, List.Forall₂.nil⟩,
        ⟨0, rfl, rfl⟩⟩
      · intro phase h
        cases h
        exact ExperimentPhase.fits_new hwarmup hcooldown
      · have hids := hfits.ids
        unfold open_messages at hids
        rw [hphase] at hids
        exact hids
    | add_message delay_ms node_id size_bytes topic => cases h
    | apply_phase => cases h
  | some phase =>
    cases call with
    | add_message delay_ms node_id size_bytes topic => exact hfits.add_message hphase hcall h
    | apply_phase =>
      unfold Scenario.step at h
      rw [hphase] at h
      cases h
      exact hfits.apply_phase hphase
    | activate_nodes nodes | deactivate_nodes nodes | setup_node node peers topics
    | new_phase warmup_ms cooldown_ms =>
      unfold Scenario.step at h
      rw [hphase] at h
      cases h

/-- What a whole scenario does: it fits, the phases cover the windows in which they were applied,
and the message ids count the messages. -/
theorem fits_of_run {nodes : List (Node C)} {calls : List (Call C)} {s : Scenario C}
    (hnodes : (nodes.map (·.idx)).Nodup)
    (hrun : (Machine.ofFun (· = start nodes) step).Run (start nodes) calls s)
    (hcalls : ∀ call ∈ calls, call.NonNegative) :
    s.Fits ∧
      List.Forall₂ PhaseInfo.Covers s.exp.phases
        (Machine.observe step windows (start nodes) calls) ∧
      Machine.observe step returned_ids (start nodes) calls =
        List.range s.exp.state.next_message_id := by
  have hok := Machine.meets_of_forall (M := Machine.ofFun (· = start nodes) step)
    (s := start nodes) hcalls
  have hcovers : s.Fits ∧ List.Forall₂ PhaseInfo.Covers s.exp.phases
      (Machine.observe step windows (start nodes) calls) := by
    refine hrun.observe_invariant_of_meets
      (p := fun seen t => t.Fits ∧ List.Forall₂ PhaseInfo.Covers t.exp.phases seen) hok
      ⟨fits_start hnodes, List.Forall₂.nil⟩ ?_
    intro seen t call u ⟨hfits, hseen⟩ hcall hstep
    have htook := hfits.step hcall hstep
    obtain ⟨infos, hphases, hnew⟩ := htook.phases
    rw [hphases]
    exact ⟨htook.fits, List.rel_append hseen hnew⟩
  have hids : s.Fits ∧ Machine.observe step returned_ids (start nodes) calls =
      List.range s.exp.state.next_message_id := by
    refine hrun.observe_invariant_of_meets
      (p := fun seen t => t.Fits ∧ seen = List.range t.exp.state.next_message_id) hok
      ⟨fits_start hnodes, rfl⟩ ?_
    intro seen t call u ⟨hfits, hseen⟩ hcall hstep
    have htook := hfits.step hcall hstep
    obtain ⟨n, hnew, hnext⟩ := htook.ids
    refine ⟨htook.fits, ?_⟩
    have happend := List.range'_append_1 (s := 0) (m := t.exp.state.next_message_id) (n := n)
    rw [Nat.zero_add] at happend
    rw [hseen, hnew, hnext, List.range_eq_range', List.range_eq_range', happend]
  exact ⟨hcovers.1, hcovers.2, hids.2⟩

end Scenario

/-! ## What `finalize` returns -/

/-- What the scripts of the parameters publish. -/
def published_by (params : Table NodeID (ExperimentParams C)) : List MessageInfo :=
  params.entries.flatMap fun e => e.2.script.flatMap (·.publications e.1)

namespace Experiment

theorem finalize_cases {exp : Experiment C} {params : Table NodeID (ExperimentParams C)}
    {phases : List PhaseInfo} {time_sec : Int}
    (h : exp.finalize = some (params, phases, time_sec)) :
    phases = exp.phases ∧
      (∃ time_ms, exp.last_times.max? = some time_ms ∧ time_sec = (time_ms + 999) / 1000) ∧
      List.Forall₂ (fun e p => p.1 = e.1 ∧ p.2.script = e.2) exp.instructions.entries
        params.entries := by
  unfold finalize at h
  simp only [Option.bind_eq_bind, Option.bind_eq_some_iff, Option.some.injEq, Prod.mk.injEq] at h
  obtain ⟨time_ms, hmax, result, hresult, rfl, rfl, rfl⟩ := h
  refine ⟨rfl, ⟨time_ms, hmax, rfl⟩, ?_⟩
  apply (Table.traverse_entries hresult).imp
  rintro e p ⟨hkey, hp⟩
  obtain ⟨node, -, hp⟩ := Option.map_eq_some_iff.mp hp
  exact ⟨hkey, by rw [← hp]⟩

/-- The bound that is taken from the last entries alone holds of all of them. -/
theorem Fits.le_time_sec {exp : Experiment C} (hfits : exp.Fits) {time_ms : Int}
    (hmax : exp.last_times.max? = some time_ms) {nid : NodeID} {i : ScriptInstruction}
    (hi : i ∈ exp.instructions.under nid) :
    i.elapsedMillis ≤ (time_ms + 999) / 1000 * 1000 := by
  obtain ⟨last, hlast, hle⟩ := le_getLast (hfits.scripts nid).ordered hi
  have hmem : last.elapsedMillis ∈ exp.last_times := by
    unfold last_times
    rw [List.mem_filterMap]
    unfold Table.under at hi hlast
    cases hlookup : exp.instructions.lookup nid with
    | none =>
      rw [hlookup] at hi
      cases hi
    | some script =>
      rw [hlookup] at hlast
      exact ⟨⟨nid, script⟩, List.of_mem_dlookup hlookup,
        Option.map_eq_some_iff.mpr ⟨last, hlast, rfl⟩⟩
  have hbound : last.elapsedMillis ≤ time_ms := (List.max?_eq_some_iff.mp hmax).2 _ hmem
  omega

end Experiment

/-- The scripts that `finalize` returns are those of the experiment. -/
theorem script_eq_under {t : Table NodeID (List ScriptInstruction)}
    {params : Table NodeID (ExperimentParams C)}
    (h : List.Forall₂ (fun e p => p.1 = e.1 ∧ p.2.script = e.2) t.entries params.entries)
    {nid : NodeID} {p : ExperimentParams C} (hp : params.lookup nid = some p) :
    p.script = t.under nid := by
  unfold Table.under AList.lookup at *
  generalize t.entries = es, params.entries = ps at h hp
  induction h with
  | nil => cases hp
  | @cons e q es ps hq _ ih =>
    obtain ⟨k, script⟩ := e
    obtain ⟨k', q⟩ := q
    obtain ⟨rfl, rfl⟩ := hq
    by_cases hnid : nid = k'
    · subst hnid
      obtain rfl : q = p := by simpa using hp
      rw [List.dlookup_cons_eq, Option.getD_some]
    · rw [List.dlookup_cons_ne _ _ hnid] at hp ⊢
      exact ih hp

theorem published_by_eq {t : Table NodeID (List ScriptInstruction)}
    {params : Table NodeID (ExperimentParams C)}
    (h : List.Forall₂ (fun e p => p.1 = e.1 ∧ p.2.script = e.2) t.entries params.entries) :
    published_by params = published t := by
  unfold published_by published Table.items
  rw [List.flatMap_assoc]
  simp only [List.flatMap_map]
  generalize t.entries = es, params.entries = ps at h
  induction h with
  | nil => rfl
  | cons hp _ ih => rw [List.flatMap_cons, List.flatMap_cons, hp.1, hp.2, ih]

theorem eq_range_of_append {l l' : List Nat} {n : Nat} (h : l ++ l' = List.range n) :
    l = List.range l.length := by
  have hlength := congrArg List.length h
  have htake := congrArg (List.take l.length) h
  rw [List.length_append, List.length_range] at hlength
  rw [List.take_left, List.take_range, Nat.min_eq_left (by omega)] at htake
  exact htake

variable [DecidableEq C]

/-- The scripts and the phases that a scenario gets from `finalize` describe the same experiment. -/
theorem the_scripts_and_the_phases_describe_the_same_experiment {nodes : List (Node C)}
    {calls : List (Call C)} {s : Scenario C} {params : Table NodeID (ExperimentParams C)}
    {phases : List PhaseInfo} {time_sec : Int} (hnodes : (nodes.map (·.idx)).Nodup)
    (hrun : (Machine.ofFun (· = Scenario.start nodes) Scenario.step).Run (Scenario.start nodes)
      calls s)
    (hcalls : ∀ call ∈ calls, call.NonNegative)
    (hfinalize : s.exp.finalize = some (params, phases, time_sec)) :
    (∀ nid p, params.lookup nid = some p →
      p.script.Pairwise (fun i j => i.elapsedMillis ≤ j.elapsedMillis) ∧
        ∀ i ∈ p.script, i.elapsedMillis ≤ time_sec * 1000) ∧
    (published_by params).Perm (phases.flatMap (·.messages)) ∧
    (phases.flatMap (·.messages)).map (·.message_id) =
      List.range (phases.flatMap (·.messages)).length ∧
    (phases.flatMap (·.messages) ++ s.open_messages).map (·.message_id) =
      Machine.observe Scenario.step Scenario.returned_ids (Scenario.start nodes) calls ∧
    List.Forall₂ PhaseInfo.Covers phases
      (Machine.observe Scenario.step Scenario.windows (Scenario.start nodes) calls) := by
  obtain ⟨hfits, hcovers, hreturned⟩ := Scenario.fits_of_run hnodes hrun hcalls
  obtain ⟨rfl, ⟨time_ms, hmax, rfl⟩, hentries⟩ := Experiment.finalize_cases hfinalize
  refine ⟨?_, ?_, ?_, ?_, hcovers⟩
  · intro nid p hp
    rw [script_eq_under hentries hp]
    refine ⟨(hfits.exp.scripts nid).ordered, ?_⟩
    intro i hi
    exact hfits.exp.le_time_sec hmax hi
  · rw [published_by_eq hentries]
    exact hfits.exp.published
  · -- the messages of the phases come before those of the phase that is open
    have hids := hfits.ids
    rw [List.map_append] at hids
    have hrange := eq_range_of_append hids
    rwa [List.length_map] at hrange
  · rw [hreturned]
    exact hfits.ids

end

/-- A node of the example. -/
def example_node (idx : NodeID) : Node Unit := { idx, config := () }

/-- Two phases, and between them one node gives its place to another. -/
def example_calls : List (Call Unit) :=
  [.activate_nodes [example_node 0, example_node 1],
   .setup_node (example_node 0) [1] ["default"],
   .new_phase 100 50,
   .add_message 10 1 1024 "default",
   .add_message 0 0 1024 "default",
   .apply_phase,
   .deactivate_nodes [example_node 0],
   .activate_nodes [example_node 2],
   .setup_node (example_node 2) [1] ["default"],
   .new_phase 20 5,
   .add_message 7 2 512 "default",
   .apply_phase]

def example_phases : List PhaseInfo :=
  [{ nodes := [0, 1]
     messages :=
       [{ message_id := 0, source := 1, size_bytes := 1024, topic := "default", time_ms := 110 },
        { message_id := 1, source := 0, size_bytes := 1024, topic := "default", time_ms := 110 }] },
   { nodes := [1, 2]
     messages :=
       [{ message_id := 2, source := 2, size_bytes := 512, topic := "default", time_ms := 187 }] }]

theorem three_messages_are_in_the_scripts :
    ∃ s : Scenario Unit, ∃ params,
      s.exp.finalize = some (params, example_phases, 1) ∧
      (published_by params).Perm (example_phases.flatMap (·.messages)) := by
  have hrun : (Machine.exec Scenario.step (Scenario.start ([2, 0, 1].map example_node))
      example_calls).map (fun s => s.exp.finalize.map (·.2)) = some (some (example_phases, 1)) := by
    decide +kernel
  obtain ⟨s, hrun, hsee⟩ := Machine.exists_run_of_exec hrun
  obtain ⟨⟨params, phases, time_sec⟩, hfinalize, hrest⟩ := Option.map_eq_some_iff.mp hsee
  cases hrest
  refine ⟨s, params, hfinalize, ?_⟩
  exact (the_scripts_and_the_phases_describe_the_same_experiment (by decide) hrun (by
    unfold example_calls
    simp [Call.NonNegative]) hfinalize).2.1

end experiment
