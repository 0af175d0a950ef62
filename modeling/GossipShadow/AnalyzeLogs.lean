-- The analysis of the logs by `analyze_logs.py`: the entries of all nodes are
-- merged by their times, and what they tell of the traffic and of the messages
-- is counted and saved. A function that raises an exception gives no value.
import GossipShadow.Lib.Decimal
import GossipShadow.Lib.Dict
import GossipShadow.Lib.Fallible
import GossipShadow.Lib.Merge
import Mathlib.Algebra.GroupWithZero.Nat
import Mathlib.Data.Finset.Erase
import Mathlib.Data.Finset.Insert
import Mathlib.Data.List.Sort
import Mathlib.Order.Defs.LinearOrder

namespace analyze_logs

/-! ## Log entries -/

/-- The values of a log line: texts, and the numbers that the nodes log, which are ids and sizes. -/
inductive LogValue where
  | str (text : String)
  | num (number : Nat)
deriving DecidableEq, Repr

abbrev Log := Table String LogValue

inductive Error where
  | KeyError
  | TypeError
  | AttributeError
deriving DecidableEq, Repr

/-- `dateutil.parser`. -/
class Dateutil where
  /-- The microseconds from 1970 on of a time with an offset from UTC; `none` for other texts. -/
  isoparse : String → Option Int

/-- The value for `"time"` is looked up even when the entry has the time of its event. -/
def get_time (log : Log) : Option LogValue :=
  (log.lookup "time").map fun time => (log.lookup "event_time").getD time

section

variable [Dateutil]

def instant : LogValue → Option Int
  | .str text => Dateutil.isoparse text
  | .num _ => none

structure LogEntry where
  node : Int
  time : Int
  log : Log
  dated : (get_time log).bind instant = some time

namespace LogEntry

def new (node_id : Int) (log : Log) : Option LogEntry :=
  match h : (get_time log).bind instant with
  | some time => some { node := node_id, time, log, dated := h }
  | none => none

theorem isSome_get_time (entry : LogEntry) : (analyze_logs.get_time entry.log).isSome = true := by
  have hdated := entry.dated
  cases htime : analyze_logs.get_time entry.log with
  | none =>
    rw [htime] at hdated
    cases hdated
  | some time => rfl

/-- `get_time(log)` of an entry, which has a time. -/
def get_time (entry : LogEntry) : LogValue :=
  (analyze_logs.get_time entry.log).get entry.isSome_get_time

theorem instant_get_time (entry : LogEntry) : instant entry.get_time = some entry.time := by
  have hdated := entry.dated
  have hget := Option.some_get entry.isSome_get_time
  rw [← hget] at hdated
  exact hdated

def get (entry : LogEntry) (arg : String) (default : LogValue) : LogValue :=
  (entry.log.lookup arg).getD default

def getitem (entry : LogEntry) (arg : String) : Except Error LogValue :=
  match entry.log.lookup arg with
  | some value => .ok value
  | none => .error .KeyError

end LogEntry

/-! ## The log files -/

def startswith (text start : String) : Bool := start.toList.isPrefixOf text.toList

def endswith (text ending : String) : Bool := ending.toList.isSuffixOf text.toList

def remove_start (text start : String) : List Char :=
  if startswith text start then text.toList.drop start.length else text.toList

/-- The lines of a file, as `json.loads` reads them; `none` for a line that it does not read. -/
abbrev Lines := List (Option Log)

/-- A directory with the log files of a node, as `os.listdir` lists it. -/
structure NodeDir where
  name : String
  log_files : List (String × Lines)

/-- The iterator over the entries of a file. At `none` it raises an exception. -/
abbrev Iterator := List (Option LogEntry)

def parse_single_file (node_idx : Int) (lines : Lines) : Iterator :=
  lines.map fun line => line.bind (LogEntry.new node_idx)

/-- The entries that come next in the files, each with the iterator over the others. -/
abbrev Heads := List (LogEntry × Iterator)

/-- `if head := next(iterator, None)`: the head goes to the heads, if there is one. -/
def push (heads : Heads) : Iterator → Option Heads
  | [] => some heads
  | none :: _ => none
  | some head :: iterator => some ((head, iterator) :: heads)

/-- The heads of the files of a node. -/
def push_files (heads : Heads) (node_dir : NodeDir) : Option Heads := do
  let node_idx ← Decimal.read (remove_start node_dir.name "node")
  node_dir.log_files.foldlM (fun heads log_file =>
    if endswith log_file.1 ".stdout" then push heads (parse_single_file node_idx log_file.2)
    else some heads) heads

/-- The loop over the heap. Of several heads with the smallest time, `heapq` gives any. -/
def merge (ties : Nat → Nat) : Nat → Heads → Option (List LogEntry)
  | 0, _ => some []
  | fuel + 1, heads =>
    match MinQueue.pop (fun head : LogEntry × Iterator => head.1.time) (ties fuel) heads with
    | none => some []
    | some ((head, iterator), heads) => do
      let heads ← push heads iterator
      let logs ← merge ties fuel heads
      some (head :: logs)

/-- The number of entries that are left to merge. -/
def left_to_merge (heads : Heads) : Nat := (heads.map fun head => head.2.length + 1).sum

def parse_log_files (ties : Nat → Nat) (hosts : List NodeDir) : Option (List LogEntry) := do
  let heads ← hosts.foldlM push_files []
  merge ties (left_to_merge heads) heads

end

/-! ## The dictionaries of the module -/

structure Globals where
  peer_ids : Table LogValue Int := ∅
  /-- The sets hold nodes, and the ids that a node logs for its peers. -/
  meshes : Table LogValue (Table Int (Finset (Int ⊕ LogValue))) := ∅
  bytes_sent_payload : Table Int Nat := ∅
  bytes_received_payload : Table Int Nat := ∅
  bytes_sent_control : Table Int Nat := ∅
  bytes_received_control : Table Int Nat := ∅
  msg_send_times : Table LogValue (LogValue × Int) := ∅
  msg_delivery_times : Table LogValue (Table Int LogValue) := ∅

namespace Globals

def add_connection (g : Globals) (topic : LogValue) (from_id : Int) (to_id : Int ⊕ LogValue) :
    Globals :=
  let mesh := (g.meshes.lookup topic).getD ∅
  let peers := (mesh.lookup from_id).getD ∅
  { g with meshes := g.meshes.put topic (mesh.put from_id (insert to_id peers)) }

def remove_connection (g : Globals) (topic : LogValue) (from_id : Int) (to_id : Int ⊕ LogValue) :
    Globals :=
  match g.meshes.lookup topic with
  | none => g
  | some mesh =>
    match mesh.lookup from_id with
    | none => g
    | some peers =>
      { g with meshes := g.meshes.put topic (mesh.put from_id (peers.erase to_id)) }

/-- A text cannot be added to a number. -/
def register_bytes (bytes : Table Int Nat) (node_id : Int) :
    LogValue → Except Error (Table Int Nat)
  | .num num_bytes => .ok (bytes.put node_id ((bytes.lookup node_id).getD 0 + num_bytes))
  | .str _ => .error .TypeError

def register_sent_bytes (g : Globals) (node_id : Int) (num_bytes : LogValue) (is_payload : Bool) :
    Except Error Globals :=
  if is_payload then do
    let bytes ← register_bytes g.bytes_sent_payload node_id num_bytes
    .ok { g with bytes_sent_payload := bytes }
  else do
    let bytes ← register_bytes g.bytes_sent_control node_id num_bytes
    .ok { g with bytes_sent_control := bytes }

def register_received_bytes (g : Globals) (node_id : Int) (num_bytes : LogValue)
    (is_payload : Bool) : Except Error Globals :=
  if is_payload then do
    let bytes ← register_bytes g.bytes_received_payload node_id num_bytes
    .ok { g with bytes_received_payload := bytes }
  else do
    let bytes ← register_bytes g.bytes_received_control node_id num_bytes
    .ok { g with bytes_received_control := bytes }

/-- `msg_delivery_times[message_id]`, a `defaultdict`. -/
def delivery_times (g : Globals) (message_id : LogValue) : Table Int LogValue :=
  (g.msg_delivery_times.lookup message_id).getD ∅

def register_message_delivery (g : Globals) (message_id : LogValue) (node_id : Int)
    (timestamp : LogValue) : Globals :=
  if node_id ∈ g.delivery_times message_id then g
  else
    { g with msg_delivery_times :=
      g.msg_delivery_times.put message_id ((g.delivery_times message_id).put node_id timestamp) }

def register_message_send (g : Globals) (message_id : LogValue) (node_id : Int)
    (timestamp : LogValue) : Globals :=
  let g := if message_id ∈ g.msg_send_times then g
    else { g with msg_send_times := g.msg_send_times.put message_id (timestamp, node_id) }
  g.register_message_delivery message_id node_id timestamp

/-- `peer_ids[id]`. -/
def peer_id (g : Globals) (id : LogValue) : Except Error Int :=
  match g.peer_ids.lookup id with
  | some node_id => .ok node_id
  | none => .error .KeyError

end Globals

/-! ## Snapshots -/

structure Bytes where
  payload : Nat
  control : Nat
deriving DecidableEq, Repr

structure NodeData where
  bytes_up : Bytes
  bytes_down : Bytes
deriving DecidableEq, Repr

/-- The nodes of a snapshot. JSON writes the number of a node as a text. -/
abbrev Snapshot := Table (List Char) NodeData

namespace Globals

def all_node_idxs (g : Globals) : List Int :=
  (g.bytes_received_payload.keys ++ g.bytes_received_control.keys ++ g.bytes_sent_payload.keys ++
    g.bytes_sent_control.keys).dedup

def node_data (g : Globals) (node_idx : Int) : NodeData where
  bytes_up :=
    { payload := (g.bytes_sent_payload.lookup node_idx).getD 0
      control := (g.bytes_sent_control.lookup node_idx).getD 0 }
  bytes_down :=
    { payload := (g.bytes_received_payload.lookup node_idx).getD 0
      control := (g.bytes_received_control.lookup node_idx).getD 0 }

def snapshot_data (g : Globals) : Snapshot :=
  g.all_node_idxs.foldl
    (fun nodes node_idx => nodes.put (Decimal.writeInt node_idx) (g.node_data node_idx)) ∅

end Globals

/-- `str(elapsed_time)`, of the microseconds. -/
def timedelta_str (elapsed_time : Int) : List Char :=
  let days := elapsed_time / 86400000000
  let seconds := (elapsed_time % 86400000000 / 1000000).toNat
  let microseconds := (elapsed_time % 1000000).toNat
  let plural := if days.natAbs = 1 then [] else ['s']
  let days_text := if days = 0 then [] else
    Decimal.writeInt days ++ " day".toList ++ plural ++ ", ".toList
  let fraction := if microseconds = 0 then [] else '.' :: Decimal.pad 6 microseconds
  days_text ++ Decimal.write (seconds / 3600) ++ ':' :: Decimal.pad 2 (seconds / 60 % 60) ++
    ':' :: Decimal.pad 2 (seconds % 60) ++ fraction

/-- `f"{elapsed_time}.json"`. -/
def snapshot_name : Option Int → List Char
  | some elapsed_time => timedelta_str elapsed_time ++ ".json".toList
  | none => "None.json".toList

/-! ## Processing the logs -/

/-- 2000-01-01. -/
def genesis_time : Int := 946684800000000

def snapshot_duration : Int := 5000000

section

variable [Dateutil]

/-- The match on the message of an entry. -/
def process_msg (g : Globals) (log : LogEntry) : Except Error Globals := do
  let node_idx := log.node
  match ← log.getitem "msg" with
  | .num _ => .error .AttributeError
  | .str "PeerID" =>
    let id ← log.getitem "id"
    .ok { g with peer_ids := g.peer_ids.put id node_idx }
  | .str "Sent Graft" =>
    let to_id ← g.peer_id (← log.getitem "to")
    let g := g.add_connection (log.get "topic" (.str "default")) node_idx (.inl to_id)
    g.register_sent_bytes node_idx (← log.getitem "size") false
  | .str "Received Graft" =>
    let to_id ← g.peer_id (← log.getitem "from")
    let g := g.add_connection (log.get "topic" (.str "default")) node_idx (.inl to_id)
    g.register_received_bytes node_idx (← log.getitem "size") false
  | .str "Added Peer" =>
    let id ← log.getitem "id"
    .ok (g.add_connection (.str "default") node_idx (.inr id))
  | .str "Removed Peer" =>
    let id ← log.getitem "id"
    .ok (g.remove_connection (.str "default") node_idx (.inr id))
  | .str "Sent Prune" =>
    let to_id ← g.peer_id (← log.getitem "to")
    let g := g.remove_connection (log.get "topic" (.str "default")) node_idx (.inl to_id)
    g.register_sent_bytes node_idx (← log.getitem "size") false
  | .str "Received Prune" =>
    let to_id ← g.peer_id (← log.getitem "from")
    let g := g.remove_connection (log.get "topic" (.str "default")) node_idx (.inl to_id)
    g.register_received_bytes node_idx (← log.getitem "size") false
  | .str "Sent Message" =>
    let g := g.register_message_send (← log.getitem "id") node_idx log.get_time
    g.register_sent_bytes node_idx (← log.getitem "size") true
  | .str "Received Message" =>
    let g := g.register_message_delivery (← log.getitem "id") node_idx log.get_time
    g.register_received_bytes node_idx (← log.getitem "size") true
  | .str msg =>
    if startswith msg "Sent" then
      g.register_sent_bytes node_idx (← log.getitem "size") false
    else if startswith msg "Received" then
      g.register_received_bytes node_idx (← log.getitem "size") false
    else .ok g

/-- The variables of `process_logs`, and the files in the directory of the snapshots. -/
structure Processing where
  globals : Globals := {}
  next_snapshot : Int := snapshot_duration
  elapsed_time : Option Int := none
  snapshots : Table (List Char) Snapshot := ∅

def LogEntry.elapsed_time (log : LogEntry) : Int := log.time - genesis_time

omit [Dateutil] in
def Processing.save_snapshot (s : Processing) : Processing :=
  { s with snapshots := s.snapshots.put (snapshot_name s.elapsed_time) s.globals.snapshot_data }

/-- `while elapsed_time >= next_snapshot: next_snapshot += snapshot_duration`. -/
def skip_snapshots (elapsed_time : Int) : Nat → Int → Int
  | 0, next_snapshot => next_snapshot
  | fuel + 1, next_snapshot =>
    if elapsed_time ≥ next_snapshot then
      skip_snapshots elapsed_time fuel (next_snapshot + snapshot_duration)
    else next_snapshot

/-- One turn of the loop over the entries. -/
def process_log (log : LogEntry) (s : Processing) : Processing × Option Error :=
  let s := { s with elapsed_time := some log.elapsed_time }
  match process_msg s.globals log with
  | .error e => (s, some e)
  | .ok globals =>
    let s := { s with globals }
    if log.elapsed_time ≥ s.next_snapshot then
      let s := s.save_snapshot
      let turns := (log.elapsed_time - s.next_snapshot).toNat + 1
      ({ s with next_snapshot := skip_snapshots log.elapsed_time turns s.next_snapshot }, none)
    else (s, none)

end

/-! ## The messages -/

structure MessageData where
  source : Int
  sent : LogValue
  received : Table Int LogValue

def LogValue.le : LogValue → LogValue → Bool
  | .str a, .str b => decide (a ≤ b)
  | .num a, .num b => decide (a ≤ b)
  | _, _ => false

def LogValue.is_str : LogValue → Bool
  | .str _ => true
  | .num _ => false

/-- `sorted(ids)`. A text does not compare with a number. -/
def sorted (ids : List LogValue) : Except Error (List LogValue) :=
  if ids.all LogValue.is_str || ids.all fun id => !id.is_str then
    .ok (ids.insertionSort fun a b => a.le b = true)
  else .error .TypeError

/-- What is recorded of a message that was sent. -/
def Globals.message (g : Globals) (msg_id : LogValue) : Option MessageData :=
  (g.msg_send_times.lookup msg_id).map fun (sent, source) =>
    { source, sent, received := g.delivery_times msg_id }

/-- What is written to `messages.json`. -/
def Globals.message_data (g : Globals) : Except Error (Table LogValue MessageData) := do
  let msg_ids ← sorted g.msg_send_times.keys
  .ok (msg_ids.foldl (fun message_data msg_id =>
    match g.message msg_id with
    | some data => message_data.put msg_id data
    | none => message_data) ∅)

/-- The files of the snapshots, which stay when an exception is raised, and the messages. -/
def process_logs [Dateutil] (logs : List LogEntry) :
    Table (List Char) Snapshot × Except Error (Table LogValue MessageData) :=
  match Fallible.each process_log logs {} with
  | (s, some e) => (s.snapshots, .error e)
  | (s, none) => (s.save_snapshot.snapshots, s.globals.message_data)

/-! ## Reading the snapshots -/

/-- The microseconds in the name of a file. Only a fraction that is no number is passed over. -/
def snapshot_time (file_name : List Char) : Option Int := do
  let hours ← (file_name.splitOn ':')[0]?.bind Decimal.read
  let minutes ← (file_name.splitOn ':')[1]?.bind Decimal.read
  let rest ← (file_name.splitOn ':')[2]?
  let seconds ← (rest.splitOn '.')[0]?.bind Decimal.read
  let fraction ← (rest.splitOn '.')[1]?
  let microseconds := (Decimal.read fraction).getD 0
  some (1000000 * (60 * (60 * hours + minutes) + seconds) + microseconds)

/-- Two snapshots in the order of their times. -/
def no_later (a b : Int × Snapshot) : Prop := a.1 ≤ b.1

instance : DecidableRel no_later := fun a b => inferInstanceAs (Decidable (a.1 ≤ b.1))

/-- One turn of the loop over the files. -/
def read_snapshot (warmup_time : Int) (snapshot_data : Table Int Snapshot)
    (file : List Char × Snapshot) : Option (Table Int Snapshot) := do
  let total_microseconds ← snapshot_time file.1
  if total_microseconds ≤ warmup_time then some snapshot_data
  else some (snapshot_data.put total_microseconds file.2)

/-- The files are those that `glob` finds, in its order, with what is in them. -/
def get_snapshot_data (snapshot_files : List (List Char × Snapshot)) (warmup_time : Int) :
    Option (List (Int × Snapshot)) := do
  let snapshot_data ← snapshot_files.foldlM (read_snapshot warmup_time) ∅
  some ((snapshot_data.entries.map fun e => (e.1, e.2)).insertionSort no_later)

/-! ## The series of the nodes -/

/-- The floats of Python, as the plots use them. Division rounds correctly. -/
class PyFloat (F : Type) [LinearOrder F] [Zero F] where
  truediv : Int → Int → F
  mono : ∀ a b c, 0 < c → a ≤ b → truediv a c ≤ truediv b c
  zero : ∀ c, 0 < c → truediv 0 c = 0

section

variable {F : Type} [LinearOrder F] [Zero F] [PyFloat F]

/-- What is plotted: the times, and for each node the values at these times. -/
structure Plot (F : Type) where
  x : List F := []
  y_up : Table (List Char) (List F) := ∅
  y_down : Table (List Char) (List F) := ∅

def Plot.add_node (i : Nat) (s : Plot F) (node : (_ : List Char) × NodeData) : Plot F :=
  let s := if node.1 ∈ s.y_up then s
    else { s with
      y_up := s.y_up.put node.1 (List.replicate i 0)
      y_down := s.y_down.put node.1 (List.replicate i 0) }
  { s with
    y_up := s.y_up.extend node.1 [PyFloat.truediv node.2.bytes_up.payload 1000000]
    y_down := s.y_down.extend node.1 [PyFloat.truediv node.2.bytes_down.payload 1000000] }

def Plot.add_snapshot (s : Plot F) (snapshot : (Int × Snapshot) × Nat) : Plot F :=
  snapshot.1.2.entries.foldl (Plot.add_node snapshot.2)
    { s with x := s.x ++ [PyFloat.truediv snapshot.1.1 60000000] }

end

end analyze_logs
