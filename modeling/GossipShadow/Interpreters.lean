-- The two interpreters of the scripts: the one in Rust (experiment.rs and
-- script_instruction.rs) and the one in Go (experiment.go and instruction.go).
-- A node that runs its script waits, and calls its swarm or its host.
import GossipShadow.Experiment
import GossipShadow.Lib.Fallible
import GossipShadow.Types

namespace experiment

/-! ## What both have of the world -/

/-- A call that the script of a node makes it attempt. -/
inductive Attempted where
  | Connect (target_node_id : Int)
  | Publish (msg : List UInt8)
deriving DecidableEq, Repr

/-- An attempt of a node: when it was made, in nanoseconds since the start of the node, and what the
script instruction that it is part of asks for. -/
structure Attempt where
  call : Attempted
  time : Nat
  elapsed_millis : Int
deriving DecidableEq, Repr

/-- How an interpreter ends before the end of its script. -/
inductive Stop where
  | Error
  | Panic
deriving DecidableEq, Repr

/-- The time that a node needs, in nanoseconds: until its interpreter begins, for a call, and to
wake up when a wait is over. -/
structure Clock where
  began : Nat
  took : Nat → Nat
  late : Nat → Nat

/-- How far a node has come with its script. -/
structure Progress where
  now : Nat
  waits : Nat
  elapsed_millis : Int
  attempts : List Attempt
deriving DecidableEq, Repr

namespace Progress

def start (clock : Clock) : Progress where
  now := clock.began
  waits := 0
  elapsed_millis := 0
  attempts := []

/-- A sleep takes at least as long as it should. -/
def sleep (clock : Clock) (wait_time : Nat) (p : Progress) : Progress :=
  { p with now := p.now + wait_time + clock.late p.waits, waits := p.waits + 1 }

def attempt (clock : Clock) (call : Attempted) (p : Progress) : Progress :=
  { p with
    now := p.now + clock.took p.attempts.length
    attempts := p.attempts ++ [{ call, time := p.now, elapsed_millis := p.elapsed_millis }] }

/-- Whether the next call of the script succeeds. -/
def next_succeeds (succeeds : Nat → Bool) (p : Progress) : Bool := succeeds p.attempts.length

end Progress

/-- `BigEndian::write_u64` and `binary.BigEndian.PutUint64`; both panic when there is no room. -/
def write_u64 (buf : List UInt8) (n : UInt64) : Option (List UInt8) :=
  if buf.length < 8 then none
  else some ((List.range 8).map (fun i => (n >>> UInt64.ofNat (8 * (7 - i))).toUInt8) ++ buf.drop 8)

/-! ## experiment.rs -/

namespace rs

inductive Instruction where
  | Connect (connect_to : List Int32)
  | SubscribeToTopic (topic_id : String)
  | Publish (message_id : UInt64) (message_size_bytes : UInt64) (topic_id : String)
deriving DecidableEq, Repr

structure ScriptInstruction where
  elapsed_millis : UInt64
  instructions : List Instruction
deriving DecidableEq, Repr

section

variable (clock : Clock) (succeeds : Nat → Bool)

/-- A message too large to be allocated, which ends the process, is not looked at. -/
def run_instruction (instruction : Instruction) (node : Progress) : Progress × Option Stop :=
  match instruction with
  | .Connect connect_to =>
    Fallible.each (fun target_node_id node =>
      let node' := node.attempt clock (.Connect target_node_id.toInt)
      if node.next_succeeds succeeds then (node', none) else (node', some .Error))
      connect_to node
  | .Publish message_id message_size_bytes _ =>
    match write_u64 (List.replicate message_size_bytes.toNat 0) message_id with
    | none => (node, some .Panic)
    | some msg =>
      let node' := node.attempt clock (.Publish msg)
      if node.next_succeeds succeeds then (node', none) else (node', some .Error)
  | .SubscribeToTopic _ => (node, none)

def run_script_instruction (script_instruction : ScriptInstruction) (node : Progress) :
    Progress × Option Stop :=
  let elapsed_millis := script_instruction.elapsed_millis
  let node := { node with elapsed_millis := elapsed_millis.toNat }
  let target_time := elapsed_millis.toNat * 1000000
  let node :=
    if node.now < target_time then node.sleep clock (target_time - node.now) else node
  Fallible.each (run_instruction clock succeeds) script_instruction.instructions node

def run_experiment (script : List ScriptInstruction) : Progress × Option Stop :=
  Fallible.each (run_script_instruction clock succeeds) script (.start clock)

end

end rs

/-! ## experiment.go -/

namespace go

inductive Instruction where
  | ConnectInstruction (ConnectTo : List Int64)
  | PublishInstruction (MessageID : Int64) (MessageSizeBytes : Int64) (TopicID : String)
  | SubscribeToTopicInstruction (TopicID : String)
deriving DecidableEq, Repr

structure ScriptInstruction where
  ElapsedMillis : Int64
  Instructions : List Instruction
deriving DecidableEq, Repr

/-- What the code uses of go-libp2p-pubsub: to join a topic, when some are joined already, and to
subscribe to one. -/
structure PubSub where
  Join : List String → String → Bool
  Subscribe : String → Bool

structure scriptedNode extends Progress where
  topics : List String

/-- The second part of the answer says that there is no error. -/
def getTopic (pubsub : PubSub) (topicStr : String) (n : scriptedNode) : scriptedNode × Bool :=
  if topicStr ∈ n.topics then (n, true)
  else if pubsub.Join n.topics topicStr then ({ n with topics := n.topics ++ [topicStr] }, true)
  else (n, false)

section

variable (clock : Clock) (succeeds : Nat → Bool) (pubsub : PubSub)

def attempt (call : Attempted) (n : scriptedNode) : scriptedNode :=
  { n with toProgress := n.toProgress.attempt clock call }

/-- As in Rust, messages can be allocated. -/
def runInstruction (instruction : Instruction) (n : scriptedNode) : scriptedNode × Option Stop :=
  match instruction with
  | .ConnectInstruction ConnectTo =>
    -- an error is logged, and the loop goes on
    Fallible.each (fun targetNodeId n => (attempt clock (.Connect targetNodeId.toInt) n, none))
      ConnectTo n
  | .PublishInstruction MessageID MessageSizeBytes TopicID =>
    match getTopic pubsub TopicID n with
    | (n, false) => (n, some .Error)
    | (n, true) =>
      if MessageSizeBytes < 0 then (n, some .Panic)
      else match write_u64 (List.replicate MessageSizeBytes.toNatClampNeg 0) MessageID.toUInt64 with
        | none => (n, some .Panic)
        | some msg =>
          let n' := attempt clock (.Publish msg) n
          if n.next_succeeds succeeds then (n', none) else (n', some .Error)
  | .SubscribeToTopicInstruction TopicID =>
    match getTopic pubsub TopicID n with
    | (n, false) => (n, some .Error)
    | (n, true) => if pubsub.Subscribe TopicID then (n, none) else (n, some .Error)

def runScriptInstruction (si : ScriptInstruction) (n : scriptedNode) :
    scriptedNode × Option Stop :=
  let n := { n with elapsed_millis := si.ElapsedMillis.toInt }
  -- a `time.Duration` is an `int64`
  let targetTime := (si.ElapsedMillis * 1000000).toInt
  let waitTime := targetTime - n.now
  let n :=
    if waitTime > 0 then { n with toProgress := n.toProgress.sleep clock waitTime.toNat } else n
  Fallible.each (runInstruction clock succeeds pubsub) si.Instructions n

def RunExperiment (script : List ScriptInstruction) : scriptedNode × Option Stop :=
  Fallible.each (runScriptInstruction clock succeeds pubsub) script
    { toProgress := .start clock, topics := [] }

end

end go

end experiment
