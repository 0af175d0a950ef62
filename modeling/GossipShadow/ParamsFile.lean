-- The params files: what run.py writes for a node, from its configuration and its
-- script (script_instruction.py), and how the node reads it back, in Rust
-- (script_instruction.rs, with serde) and in Go (main.go and instruction.go). Which
-- host of the simulation reads which file is up to shadow_config.py.
import GossipShadow.Interpreters
import GossipShadow.Lib.Json

namespace libp2p_dog

/-! ## config.rs: the builder -/

structure ConfigBuilder (P F : Type) where
  config : Config P F

namespace ConfigBuilder

variable {P F : Type}

def default [Libp2p P] [F64 F] : ConfigBuilder P F := { config := .default }

def set (change : Config P F → Config P F) (b : ConfigBuilder P F) : ConfigBuilder P F :=
  { config := change b.config }

def max_transactions_per_rpc (max_transactions_per_rpc : Nat) :
    ConfigBuilder P F → ConfigBuilder P F :=
  set fun c => { c with max_transactions_per_rpc := some max_transactions_per_rpc }

def connection_handler_queue_len (connection_handler_queue_len : Nat) :
    ConfigBuilder P F → ConfigBuilder P F :=
  set fun c => { c with connection_handler_queue_len }

def cache_time (cache_time : Nat) : ConfigBuilder P F → ConfigBuilder P F :=
  set fun c => { c with cache_time }

def target_redundancy (target_redundancy : F) : ConfigBuilder P F → ConfigBuilder P F :=
  set fun c => { c with target_redundancy }

def redundancy_delta_percent (redundancy_delta_percent : UInt8) :
    ConfigBuilder P F → ConfigBuilder P F :=
  set fun c => { c with redundancy_delta_percent }

def redundancy_interval (redundancy_interval : Nat) : ConfigBuilder P F → ConfigBuilder P F :=
  set fun c => { c with redundancy_interval }

def connection_handler_publish_duration (connection_handler_publish_duration : Nat) :
    ConfigBuilder P F → ConfigBuilder P F :=
  set fun c => { c with connection_handler_publish_duration }

def connection_handler_forward_duration (connection_handler_forward_duration : Nat) :
    ConfigBuilder P F → ConfigBuilder P F :=
  set fun c => { c with connection_handler_forward_duration }

def deliver_own_transactions (deliver_own_transactions : Bool) :
    ConfigBuilder P F → ConfigBuilder P F :=
  set fun c => { c with deliver_own_transactions }

def forward_transactions (forward_transactions : Bool) : ConfigBuilder P F → ConfigBuilder P F :=
  set fun c => { c with forward_transactions }

def send_have_tx (send_have_tx : Bool) : ConfigBuilder P F → ConfigBuilder P F :=
  set fun c => { c with send_have_tx }

def ignore_have_tx (ignore_have_tx : Bool) : ConfigBuilder P F → ConfigBuilder P F :=
  set fun c => { c with ignore_have_tx }

/-- It never fails. -/
def build (b : ConfigBuilder P F) : Config P F := b.config

end ConfigBuilder

end libp2p_dog

namespace experiment

open libp2p_dog (F64 Libp2p Config ConfigBuilder from_secs)

/-- What the libraries make of the numbers of a document. -/
class JsonNumbers (F : Type) where
  /-- For the others json.dump writes the words NaN and Infinity, which no document of JSON has. -/
  finite : F → Bool
  /-- What serde_json reads where a double is wanted. It may miss the double that was written by a
  unit in the last place, since its feature float_roundtrip is off. -/
  serde_json : Json F → Option F
  /-- What encoding/json reads there. -/
  encoding_json : Json F → Option F
  serde_json_reads : ∀ x, finite x = true → (serde_json (.float x)).isSome = true

/-- The text of the document is one of JSON. -/
def json_text {F : Type} [JsonNumbers F] (json : Json F) : Bool :=
  json.floats.all JsonNumbers.finite

/-! ## What run.py writes -/

/-- `DOGParams` of script_instruction.py. -/
structure DOGParams (F : Type) where
  max_transactions_per_rpc : Option Int
  connection_handler_queue_len : Int
  cache_time_sec : Int
  target_redundancy : F
  redundancy_delta_percent : Int
  redundancy_interval_sec : Int
  connection_handler_publish_duration_sec : Int
  connection_handler_forward_duration_sec : Int
  deliver_own_transactions : Bool
  forward_transactions : Bool
  send_have_tx : Bool
  ignore_have_tx : Bool
deriving DecidableEq, Repr

section

variable {F : Type}

/-- The parameters of a `DOGNode` that is given none. -/
def DOGParams.default [F64 F] : DOGParams F where
  max_transactions_per_rpc := none
  connection_handler_queue_len := 5000
  cache_time_sec := 30
  target_redundancy := F64.ofNat 1
  redundancy_delta_percent := 10
  redundancy_interval_sec := 1
  connection_handler_publish_duration_sec := 5
  connection_handler_forward_duration_sec := 1
  deliver_own_transactions := false
  forward_transactions := true
  send_have_tx := true
  ignore_have_tx := false

/-- `MaliciousDOGNode`: three of the parameters are overwritten. -/
def DOGParams.malicious (params : DOGParams F) : DOGParams F :=
  { params with send_have_tx := false, ignore_have_tx := true, forward_transactions := false }

def DOGParams.model_dump (params : DOGParams F) : Json.Members F :=
  [("max_transactions_per_rpc", params.max_transactions_per_rpc.elim .null .int),
    ("connection_handler_queue_len", .int params.connection_handler_queue_len),
    ("cache_time_sec", .int params.cache_time_sec),
    ("target_redundancy", .float params.target_redundancy),
    ("redundancy_delta_percent", .int params.redundancy_delta_percent),
    ("redundancy_interval_sec", .int params.redundancy_interval_sec),
    ("connection_handler_publish_duration_sec",
      .int params.connection_handler_publish_duration_sec),
    ("connection_handler_forward_duration_sec",
      .int params.connection_handler_forward_duration_sec),
    ("deliver_own_transactions", .bool params.deliver_own_transactions),
    ("forward_transactions", .bool params.forward_transactions),
    ("send_have_tx", .bool params.send_have_tx),
    ("ignore_have_tx", .bool params.ignore_have_tx)]

def InstructionParams.model_dump : InstructionParams → Json.Members F
  | .Connect connectTo => [("type", .str "connect"), ("connectTo", .arr (connectTo.map .int))]
  | .Publish messageID messageSizeBytes topicID =>
    [("type", .str "publish"), ("messageID", .int messageID),
      ("messageSizeBytes", .int messageSizeBytes), ("topicID", .str topicID)]
  | .SubscribeToTopic topicID => [("type", .str "subscribeToTopic"), ("topicID", .str topicID)]

def ScriptInstruction.model_dump (i : ScriptInstruction) : Json.Members F :=
  [("elapsedMillis", .int i.elapsedMillis),
    ("instructions", .arr (i.instructions.map fun i => .obj i.model_dump))]

/-- What `main` of run.py writes to the file of a node, of its dumped configuration and its
script. -/
def params_file (config : Json.Members F) (script : List ScriptInstruction) : Json.Members F :=
  [("config", .obj config), ("script", .arr (script.map fun i => .obj i.model_dump))]

end

/-! ## script_instruction.rs -/

namespace rs

section

variable {F : Type}

def read_u64 (json : Json F) : Option UInt64 :=
  (json.whole 0 18446744073709551616).map fun n => UInt64.ofNat n.toNat

/-- A `usize` has 64 bits. -/
def read_usize : Json F → Option UInt64 := read_u64

def read_u8 (json : Json F) : Option UInt8 :=
  (json.whole 0 256).map fun n => UInt8.ofNat n.toNat

/-- A `NodeID`. -/
def read_i32 (json : Json F) : Option Int32 :=
  (json.whole (-2147483648) 2147483648).map Int32.ofInt

def read_f64 [JsonNumbers F] : Json F → Option F := JsonNumbers.serde_json

/-- The tag is in the member `type`, beside the other ones. -/
def Instruction.deserialize (json : Json F) : Option Instruction := do
  let members ← json.members
  let tag ← Json.required Json.text "type" members
  if tag = "connect" then
    let connect_to ← Json.required (Json.items read_i32) "connectTo" members
    some (.Connect connect_to)
  else if tag = "subscribeToTopic" then
    let topic_id ← Json.required Json.text "topicID" members
    some (.SubscribeToTopic topic_id)
  else if tag = "publish" then
    let message_id ← Json.required read_u64 "messageID" members
    let message_size_bytes ← Json.required read_usize "messageSizeBytes" members
    let topic_id ← Json.required Json.text "topicID" members
    some (.Publish message_id message_size_bytes topic_id)
  else none

def ScriptInstruction.deserialize (json : Json F) : Option ScriptInstruction := do
  let members ← json.members
  let elapsed_millis ← Json.required read_u64 "elapsedMillis" members
  let instructions ← Json.required (Json.items Instruction.deserialize) "instructions" members
  some { elapsed_millis, instructions }

/-- `DOGParams` of script_instruction.rs. -/
structure DOGParams (F : Type) where
  max_transactions_per_rpc : Option UInt64
  connection_handler_queue_len : Option UInt64
  cache_time_sec : Option UInt64
  target_redundancy : Option F
  redundancy_delta_percent : Option UInt8
  redundancy_interval_sec : Option UInt64
  connection_handler_publish_duration_sec : Option UInt64
  connection_handler_forward_duration_sec : Option UInt64
  deliver_own_transactions : Option Bool
  forward_transactions : Option Bool
  send_have_tx : Option Bool
  ignore_have_tx : Option Bool
deriving DecidableEq, Repr

def DOGParams.deserialize [JsonNumbers F] (json : Json F) : Option (DOGParams F) := do
  let members ← json.members
  some {
    max_transactions_per_rpc := ← Json.optional read_usize "max_transactions_per_rpc" members
    connection_handler_queue_len :=
      ← Json.optional read_usize "connection_handler_queue_len" members
    cache_time_sec := ← Json.optional read_u64 "cache_time_sec" members
    target_redundancy := ← Json.optional read_f64 "target_redundancy" members
    redundancy_delta_percent := ← Json.optional read_u8 "redundancy_delta_percent" members
    redundancy_interval_sec := ← Json.optional read_u64 "redundancy_interval_sec" members
    connection_handler_publish_duration_sec :=
      ← Json.optional read_u64 "connection_handler_publish_duration_sec" members
    connection_handler_forward_duration_sec :=
      ← Json.optional read_u64 "connection_handler_forward_duration_sec" members
    deliver_own_transactions := ← Json.optional Json.truth "deliver_own_transactions" members
    forward_transactions := ← Json.optional Json.truth "forward_transactions" members
    send_have_tx := ← Json.optional Json.truth "send_have_tx" members
    ignore_have_tx := ← Json.optional Json.truth "ignore_have_tx" members }

structure ExperimentParams (F : Type) where
  config : DOGParams F
  script : List ScriptInstruction
deriving DecidableEq, Repr

/-- `from_json_file`, of what is in the file. -/
def ExperimentParams.from_json [JsonNumbers F] (json : Json F) : Option (ExperimentParams F) :=
  if json_text json then do
    let members ← json.members
    let config ← Json.required DOGParams.deserialize "config" members
    let script ← Json.required (Json.items ScriptInstruction.deserialize) "script" members
    some { config, script }
  else none

end

section

variable {P F : Type}

/-- `if let Some(v) = ...`: the builder is told of a value that is there. -/
def tell {V : Type} (v : Option V) (set : V → ConfigBuilder P F → ConfigBuilder P F)
    (builder : ConfigBuilder P F) : ConfigBuilder P F :=
  match v with
  | some v => set v builder
  | none => builder

def DOGParams.apply (params : DOGParams F) (builder : ConfigBuilder P F) : ConfigBuilder P F :=
  let builder :=
    tell params.max_transactions_per_rpc (fun v => .max_transactions_per_rpc v.toNat) builder
  let builder := tell params.connection_handler_queue_len
    (fun v => .connection_handler_queue_len v.toNat) builder
  let builder := tell params.cache_time_sec (fun v => .cache_time (from_secs v.toNat)) builder
  let builder := tell params.target_redundancy .target_redundancy builder
  let builder := tell params.redundancy_delta_percent .redundancy_delta_percent builder
  let builder := tell params.redundancy_interval_sec
    (fun v => .redundancy_interval (from_secs v.toNat)) builder
  let builder := tell params.connection_handler_publish_duration_sec
    (fun v => .connection_handler_publish_duration (from_secs v.toNat)) builder
  let builder := tell params.connection_handler_forward_duration_sec
    (fun v => .connection_handler_forward_duration (from_secs v.toNat)) builder
  let builder := tell params.deliver_own_transactions .deliver_own_transactions builder
  let builder := tell params.forward_transactions .forward_transactions builder
  let builder := tell params.send_have_tx .send_have_tx builder
  tell params.ignore_have_tx .ignore_have_tx builder

/-- The configuration that `new_swarm` gives to the behaviour. -/
def new_swarm_config [Libp2p P] [F64 F] (dog_params : DOGParams F) : Config P F :=
  (dog_params.apply .default).build

/-- `NodeID::new`, on the host `node{host}`. -/
def NodeID.new (host : Nat) : Option Int32 :=
  if host < 2147483648 then some (Int32.ofNat host) else none

/-- `main` on the host `node{host}`, of what is in the params file: the configuration of its swarm,
and the run of its script. -/
def main [Libp2p P] [F64 F] [JsonNumbers F] (clock : Clock) (succeeds : Nat → Bool) (host : Nat)
    (json : Json F) : Option (Config P F × Progress × Option Stop) := do
  let params ← ExperimentParams.from_json json
  let _ ← NodeID.new host
  some (new_swarm_config params.config, run_experiment clock succeeds params.script)

end

end rs

/-! ## instruction.go and main.go -/

namespace go

variable {F : Type}

/-- The names of members are compared without their case. -/
def fold (name : String) : List Char := name.toList.map Char.toLower

/-- The members that are unmarshalled into a struct; null has none. -/
def fields : Json F → Option (Json.Members F)
  | .null => some []
  | json => json.members

def unmarshal {V : Type} (read : Json F → Option V) (zero : V) (name : String)
    (members : Json.Members F) : Option V :=
  Json.assigned fold read zero name members

/-- A `json.RawMessage` takes any value, null as well. -/
def unmarshal_raw (name : String) (members : Json.Members F) : Option (Json F) :=
  members.foldl (fun value m => if fold m.1 = fold name then some m.2 else value) none

/-- The values of a slice. Null stands for the zero value. -/
def slice {V : Type} (read : Json F → Option V) (zero : V) : Json F → Option (List V) :=
  Json.items (Json.assign read zero)

/-- An `int` has 64 bits. -/
def read_int (json : Json F) : Option Int64 :=
  (json.whole (-9223372036854775808) 9223372036854775808).map Int64.ofInt

def read_float64 [JsonNumbers F] : Json F → Option F := JsonNumbers.encoding_json

structure SetTopicValidationDelayInstruction (F : Type) where
  TopicID : String
  DelaySeconds : F

/-- An instruction that is read is one of a script, or it sets a delay. -/
abbrev Unmarshalled (F : Type) := Instruction ⊕ SetTopicValidationDelayInstruction F

def unmarshalInstruction [F64 F] [JsonNumbers F] (json : Json F) : Option (Unmarshalled F) := do
  let members ← fields json
  let tag ← unmarshal Json.text "" "type" members
  if tag = "connect" then
    let ConnectTo ← unmarshal (slice read_int 0) [] "connectTo" members
    some (.inl (.ConnectInstruction ConnectTo))
  else if tag = "publish" then
    let MessageID ← unmarshal read_int 0 "messageID" members
    let MessageSizeBytes ← unmarshal read_int 0 "messageSizeBytes" members
    let TopicID ← unmarshal Json.text "" "topicID" members
    some (.inl (.PublishInstruction MessageID MessageSizeBytes TopicID))
  else if tag = "subscribeToTopic" then
    let TopicID ← unmarshal Json.text "" "topicID" members
    some (.inl (.SubscribeToTopicInstruction TopicID))
  else if tag = "setTopicValidationDelay" then
    let TopicID ← unmarshal Json.text "" "topicID" members
    let DelaySeconds ← unmarshal read_float64 (F64.ofNat 0) "delaySeconds" members
    some (.inr { TopicID, DelaySeconds })
  else none

/-- A `ScriptInstruction` as it is read. -/
structure UnmarshalledScriptInstruction (F : Type) where
  ElapsedMillis : Int64
  Instructions : List (Unmarshalled F)

/-- The values of `[]json.RawMessage` are unmarshalled one after the other. -/
def UnmarshalJSON [F64 F] [JsonNumbers F] (json : Json F) :
    Option (UnmarshalledScriptInstruction F) := do
  let members ← fields json
  let ElapsedMillis ← unmarshal read_int 0 "elapsedMillis" members
  let raw ← unmarshal (Json.items some) [] "instructions" members
  let Instructions ← raw.mapM unmarshalInstruction
  some { ElapsedMillis, Instructions }

/-- The configuration is kept as it is. -/
structure ExperimentParams (F : Type) where
  Config : Option (Json F)
  Script : List (UnmarshalledScriptInstruction F)

/-- `readParams`, of what is in the file. -/
def readParams [F64 F] [JsonNumbers F] (json : Json F) : Option (ExperimentParams F) :=
  if json_text json then do
    let members ← fields json
    let Config := unmarshal_raw "config" members
    let Script ← unmarshal (Json.items UnmarshalJSON) [] "script" members
    some { Config, Script }
  else none

end go

/-! ## Which host reads which file -/

section

variable {P F : Type}

def DOGNode.binary : String := "libp2p-dog/target/debug/experiment"

def Node.binary (_ : Node (DOGParams F)) : String := DOGNode.binary

/-- The file `node{node_id}.json`, if `main` of run.py writes it. -/
def params_files (experiment_params : Table NodeID (ExperimentParams (DOGParams F)))
    (node_id : NodeID) : Option (Json F) :=
  (experiment_params.lookup node_id).map fun node_params =>
    .obj (params_file node_params.config.model_dump node_params.script)

/-- A host of shadow.yaml: the number in its name `node{name}`, its binary, and the number in the
name of the params file that it is given. -/
structure Host where
  name : Nat
  path : String
  params : NodeID
deriving DecidableEq, Repr

/-- `generate_shadow_config`: the hosts are numbered, whatever the indices of their nodes are. -/
def generate_shadow_config (binary_paths : List String) : List Host :=
  binary_paths.zipIdx.map fun (binary_path, i) => { name := i, path := binary_path, params := i }

/-- The process of a host, which ends at once when there is no file for it. -/
def Host.run [Libp2p P] [F64 F] [JsonNumbers F] (clock : Clock) (succeeds : Nat → Bool)
    (files : NodeID → Option (Json F)) (host : Host) :
      Option (Config P F × Progress × Option Stop) := do
  let file ← files host.params
  if host.path = DOGNode.binary then rs.main clock succeeds host.name file else none

end

end experiment
