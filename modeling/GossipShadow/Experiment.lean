-- The experiment of `experiment.py`: which nodes are active, what the script of
-- each node is told to do and when, and what is noted about each phase for the
-- analysis. A call that raises an exception is `none`, and ends the scenario.
import GossipShadow.Lib.Dict
import GossipShadow.Lib.Machine
import Mathlib.Data.List.Dedup
import Mathlib.Data.List.Sort

namespace experiment

/-! ## The script of a node -/

abbrev NodeID := Int

/-- What the scripts of the scenarios are made of (`script_instruction.py`). -/
inductive InstructionParams where
  | Connect (connectTo : List NodeID)
  | Publish (messageID : Nat) (messageSizeBytes : Int) (topicID : String)
  | SubscribeToTopic (topicID : String)
deriving DecidableEq, Repr

structure ScriptInstruction where
  elapsedMillis : Int
  instructions : List InstructionParams
deriving DecidableEq, Repr

structure MessageInfo where
  message_id : Nat
  source : NodeID
  size_bytes : Int
  topic : String
  time_ms : Int
deriving DecidableEq, Repr

structure PhaseInfo where
  nodes : List NodeID
  messages : List MessageInfo
deriving DecidableEq, Repr

/-- `C` stands for the configuration, which is only handed on. -/
structure ExperimentParams (C : Type) where
  config : C
  script : List ScriptInstruction
deriving DecidableEq, Repr

/-- Python compares nodes by identity. For nodes with distinct indices this is their equality. -/
structure Node (C : Type) where
  idx : NodeID
  config : C
deriving DecidableEq, Repr

structure ExperimentState (C : Type) where
  elapsed_time_ms : Int := 0
  next_message_id : Nat := 0
  active_set : List (Node C) := []
  ready_set : List (Node C) := []

section

variable {C : Type}

/-- The set `{n.idx for n in active_set}`, as the list of its elements. -/
def ExperimentState.active_ids (state : ExperimentState C) : List NodeID :=
  (state.active_set.map (·.idx)).dedup

/-! ## The phase -/

/-- A phase. The state that it shares with the experiment is passed to its methods. -/
structure ExperimentPhase where
  warmup_time_ms : Int
  cooldown_time_ms : Int
  main_phase : Table NodeID (List ScriptInstruction)
  main_phase_duration_ms : Int
  active_ids : List NodeID
  messages : List MessageInfo

namespace ExperimentPhase

def new (state : ExperimentState C) (warmup_time_ms cooldown_time_ms : Int) : ExperimentPhase where
  warmup_time_ms
  cooldown_time_ms
  main_phase := ∅
  main_phase_duration_ms := 0
  active_ids := state.active_ids
  messages := []

def get_main_phase_end_time_ms (phase : ExperimentPhase) (state : ExperimentState C) : Int :=
  state.elapsed_time_ms + phase.warmup_time_ms + phase.main_phase_duration_ms

def get_end_time_ms (phase : ExperimentPhase) (state : ExperimentState C) : Int :=
  phase.get_main_phase_end_time_ms state + phase.cooldown_time_ms

/-- Returns the id of the message. -/
def add_message (phase : ExperimentPhase) (state : ExperimentState C) (delay_ms : Int)
    (node_id : NodeID) (size_bytes : Int) (topic : String := "default") :
    Option (Nat × ExperimentPhase × ExperimentState C) :=
  if node_id ∈ phase.active_ids then
    let phase := { phase with main_phase_duration_ms := phase.main_phase_duration_ms + delay_ms }
    let message_id := state.next_message_id
    let state := { state with next_message_id := state.next_message_id + 1 }
    let publish_instruction := InstructionParams.Publish message_id size_bytes topic
    let time_ms := phase.get_main_phase_end_time_ms state
    let instruction : ScriptInstruction :=
      { elapsedMillis := time_ms, instructions := [publish_instruction] }
    let message : MessageInfo := { message_id, source := node_id, size_bytes, topic, time_ms }
    some (message_id,
      { phase with
        main_phase := phase.main_phase.extend node_id [instruction]
        messages := phase.messages ++ [message] },
      state)
  else none

/-- The instructions with what a phase adds for one active node. The last one prevents the node
from shutting down before the end of the phase. -/
def apply_to (phase : ExperimentPhase) (state : ExperimentState C)
    (instructions : Table NodeID (List ScriptInstruction)) (node : Node C) :
    Table NodeID (List ScriptInstruction) :=
  let instructions := instructions.extend node.idx (phase.main_phase.under node.idx)
  instructions.extend node.idx
    [{ elapsedMillis := phase.get_end_time_ms state, instructions := [] }]

def apply (phase : ExperimentPhase) (state : ExperimentState C)
    (instructions : Table NodeID (List ScriptInstruction)) :
    PhaseInfo × ExperimentState C × Table NodeID (List ScriptInstruction) :=
  let instructions := state.active_set.foldl (phase.apply_to state) instructions
  let info : PhaseInfo :=
    { nodes := phase.active_ids.insertionSort (· ≤ ·), messages := phase.messages }
  (info, { state with elapsed_time_ms := phase.get_end_time_ms state }, instructions)

end ExperimentPhase

/-! ## The experiment -/

structure Experiment (C : Type) where
  nodes : List (Node C)
  state : ExperimentState C
  instructions : Table NodeID (List ScriptInstruction)
  phases : List PhaseInfo

namespace Experiment

def new (nodes : List (Node C)) : Experiment C where
  nodes := nodes.insertionSort fun a b => a.idx ≤ b.idx
  state := { ready_set := nodes }
  instructions := ∅
  phases := []

variable [DecidableEq C]

def activate_node (exp : Experiment C) (node : Node C) : Option (Experiment C) :=
  if node ∈ exp.state.ready_set then
    some { exp with state :=
      { exp.state with
        ready_set := exp.state.ready_set.erase node
        active_set := exp.state.active_set ++ [node] } }
  else none

def activate_nodes (exp : Experiment C) (nodes : List (Node C)) : Option (Experiment C) :=
  nodes.foldlM activate_node exp

def activate_all (exp : Experiment C) : Option (Experiment C) :=
  exp.activate_nodes exp.state.ready_set

def deactivate_node (exp : Experiment C) (node : Node C) : Option (Experiment C) :=
  if node ∈ exp.state.active_set then
    some { exp with state :=
      { exp.state with active_set := exp.state.active_set.erase node } }
  else none

def deactivate_nodes (exp : Experiment C) (nodes : List (Node C)) : Option (Experiment C) :=
  nodes.foldlM deactivate_node exp

omit [DecidableEq C]

def add_instruction (exp : Experiment C) (node_idx : NodeID) (instruction : ScriptInstruction) :
    Experiment C :=
  { exp with instructions := exp.instructions.extend node_idx [instruction] }

def setup_node (exp : Experiment C) (node : Node C) (peers : List NodeID) (topics : List String) :
    Option (Experiment C) :=
  if ∀ peer ∈ peers, peer ∈ exp.state.active_ids then
    some (exp.add_instruction node.idx
      { elapsedMillis := exp.state.elapsed_time_ms
        instructions := .Connect peers :: topics.map .SubscribeToTopic })
  else none

def new_phase (exp : Experiment C) (warmup_ms : Int := 0) (cooldown_ms : Int := 0) :
    ExperimentPhase :=
  ExperimentPhase.new exp.state warmup_ms cooldown_ms

def apply_phase (exp : Experiment C) (phase : ExperimentPhase) : Experiment C :=
  let (info, state, instructions) := phase.apply exp.state exp.instructions
  { exp with state, instructions, phases := exp.phases ++ [info] }

/-- The dictionary of the nodes, under their indices. -/
def nodes_by_idx (exp : Experiment C) : Table NodeID (Node C) :=
  exp.nodes.foldl (fun nodes_by_idx n => nodes_by_idx.put n.idx n) ∅

/-- The last time of each script that is not empty. -/
def last_times (exp : Experiment C) : List Int :=
  exp.instructions.entries.filterMap fun e => e.2.getLast?.map (·.elapsedMillis)

def finalize (exp : Experiment C) :
    Option (Table NodeID (ExperimentParams C) × List PhaseInfo × Int) := do
  let time_ms ← exp.last_times.max?
  let time_sec := (time_ms + 999) / 1000
  let result ← exp.instructions.traverse fun nid instrs =>
    (exp.nodes_by_idx.lookup nid).map fun node => { config := node.config, script := instrs }
  some (result, exp.phases, time_sec)

end Experiment

/-! ## The scenarios -/

/-- What a scenario function calls; `activate_all` is an `activate_nodes` of the ready set. -/
inductive Call (C : Type) where
  | activate_nodes (nodes : List (Node C))
  | deactivate_nodes (nodes : List (Node C))
  | setup_node (node : Node C) (peers : List NodeID) (topics : List String)
  | new_phase (warmup_ms cooldown_ms : Int)
  | add_message (delay_ms : Int) (node_id : NodeID) (size_bytes : Int) (topic : String)
  | apply_phase

/-- A scenario function at work: its experiment, and the phase that it fills. -/
structure Scenario (C : Type) where
  exp : Experiment C
  phase : Option ExperimentPhase

namespace Scenario

def start (nodes : List (Node C)) : Scenario C where
  exp := Experiment.new nodes
  phase := none

/-- Nodes come, go and are set up between the phases, and a phase is applied before the next one
is created. -/
def step [DecidableEq C] (s : Scenario C) (call : Call C) : Option (Scenario C) :=
  match call, s.phase with
  | .activate_nodes nodes, none =>
    (s.exp.activate_nodes nodes).map fun exp => { s with exp }
  | .deactivate_nodes nodes, none =>
    (s.exp.deactivate_nodes nodes).map fun exp => { s with exp }
  | .setup_node node peers topics, none =>
    (s.exp.setup_node node peers topics).map fun exp => { s with exp }
  | .new_phase warmup_ms cooldown_ms, none =>
    some { s with phase := some (s.exp.new_phase warmup_ms cooldown_ms) }
  | .add_message delay_ms node_id size_bytes topic, some phase =>
    (phase.add_message s.exp.state delay_ms node_id size_bytes topic).map fun added =>
      { exp := { s.exp with state := added.2.2 }, phase := some added.2.1 }
  | .apply_phase, some phase =>
    some { exp := s.exp.apply_phase phase, phase := none }
  | _, _ => none

end Scenario

end

end experiment
