-- Laws of the log analysis: the merge gives every entry once and in the order
-- of the times, and so the first occurrences that are kept are the earliest
-- ones, whatever the order in which the files are listed.
import GossipShadow.AnalyzeLogs

namespace analyze_logs

section

variable [Dateutil]

/-! ## What the log files hold -/

/-- The entries of a file of which every line is read. -/
def file_entries (node_idx : Int) (lines : Lines) : Option (List LogEntry) :=
  lines.mapM fun line => line.bind (LogEntry.new node_idx)

/-- The entries of each log file of a node. -/
def NodeDir.entries (node_dir : NodeDir) : Option (List (List LogEntry)) := do
  let node_idx ← Decimal.read (remove_start node_dir.name "node")
  (node_dir.log_files.filter fun log_file => endswith log_file.1 ".stdout").mapM fun log_file =>
    file_entries node_idx log_file.2

/-- The entries of each log file. -/
def log_entries (hosts : List NodeDir) : Option (List (List LogEntry)) :=
  (hosts.mapM NodeDir.entries).map List.flatten

theorem parse_single_file_of_entries {node_idx : Int} {lines : Lines} {entries : List LogEntry}
    (h : file_entries node_idx lines = some entries) :
    parse_single_file node_idx lines = entries.map some := by
  unfold parse_single_file
  induction lines generalizing entries with
  | nil =>
    cases h
    rfl
  | cons line lines ih =>
    simp only [file_entries, List.mapM_cons, Option.bind_eq_bind, Option.bind_eq_some_iff] at h
    obtain ⟨entry, hline, rest, hrest, h⟩ := h
    cases h
    simp only [List.map_cons]
    rw [ih hrest, Option.bind_eq_some_iff.mpr hline]

/-! ## The heap -/

/-- The entries that a head stands for. -/
def remaining (head : LogEntry × Iterator) : List LogEntry := head.1 :: head.2.reduceOption

/-- The heads stand for the files, but for those that have no more entries. -/
structure Stands (heads : Heads) (files : List (List LogEntry)) : Prop where
  reads : ∀ head ∈ heads, none ∉ head.2
  files : ∃ count, files.Perm (List.replicate count [] ++ heads.map remaining)

theorem Stands.nil : Stands [] [] where
  reads := by
    intro head hhead
    cases hhead
  files := ⟨0, List.Perm.refl _⟩

theorem Stands.push {heads : Heads} {files : List (List LogEntry)} (h : Stands heads files)
    (entries : List LogEntry) :
    ∃ heads', analyze_logs.push heads (entries.map some) = some heads' ∧
      Stands heads' (files ++ [entries]) := by
  obtain ⟨hreads, count, hfiles⟩ := h
  cases entries with
  | nil =>
    refine ⟨heads, rfl, hreads, count + 1, ?_⟩
    exact (List.perm_append_singleton [] files).trans (hfiles.cons [])
  | cons entry entries =>
    refine ⟨_, rfl, ?_, count, ?_⟩
    · intro head hhead
      rcases List.mem_cons.mp hhead with rfl | hhead
      · simp
      · exact hreads head hhead
    · have hentry : remaining (entry, entries.map some) = entry :: entries := by
        change entry :: (entries.map some).filterMap id = entry :: entries
        simp [List.filterMap_map]
      rw [List.map_cons, hentry]
      apply (List.perm_append_singleton _ files).trans
      exact (hfiles.cons _).trans List.perm_middle.symm

theorem Stands.push_files {heads : Heads} {files entries : List (List LogEntry)}
    (h : Stands heads files) {node_dir : NodeDir} (hentries : node_dir.entries = some entries) :
    ∃ heads', analyze_logs.push_files heads node_dir = some heads' ∧
      Stands heads' (files ++ entries) := by
  simp only [NodeDir.entries, Option.bind_eq_bind, Option.bind_eq_some_iff] at hentries
  obtain ⟨node_idx, hname, hentries⟩ := hentries
  unfold analyze_logs.push_files
  simp only [hname, Option.bind_eq_bind, Option.bind_some]
  have hfilter : node_dir.log_files.foldlM (fun heads log_file =>
      if endswith log_file.1 ".stdout" then
        analyze_logs.push heads (parse_single_file node_idx log_file.2)
      else some heads) heads =
        (node_dir.log_files.filter fun log_file => endswith log_file.1 ".stdout").foldlM
          (fun heads log_file =>
            analyze_logs.push heads (parse_single_file node_idx log_file.2)) heads :=
    List.foldlM_filter.symm
  rw [hfilter]
  apply Fallible.foldlM_of_mapM _ h hentries
  intro heads files log_file entries hheads hfile
  rw [parse_single_file_of_entries hfile]
  exact hheads.push entries

/-- The heads that the merge starts with stand for all files. -/
theorem stands_of_log_entries {hosts : List NodeDir} {files : List (List LogEntry)}
    (h : log_entries hosts = some files) :
    ∃ heads, hosts.foldlM push_files [] = some heads ∧ Stands heads files := by
  obtain ⟨parts, hparts, rfl⟩ := Option.map_eq_some_iff.mp h
  have hnil : Stands [] (List.flatten []) := .nil
  apply Fallible.foldlM_of_mapM (p := fun heads parts => Stands heads parts.flatten) _ hnil hparts
  intro heads done node_dir entries hheads hentries
  rw [List.flatten_append, List.flatten_singleton]
  exact hheads.push_files hentries

/-! ## The merge -/

/-- Two entries in the order of their times. -/
def in_order (a b : LogEntry) : Prop := a.time ≤ b.time

instance : IsTrans LogEntry in_order := ⟨fun _ _ _ hab hbc => Int.le_trans hab hbc⟩

theorem left_to_merge_of_perm {heads heads' : Heads} (h : heads.Perm heads') :
    left_to_merge heads = left_to_merge heads' := (h.map _).sum_nat

theorem left_to_merge_cons (head : LogEntry × Iterator) (heads : Heads) :
    left_to_merge (head :: heads) = head.2.length + 1 + left_to_merge heads := by
  simp [left_to_merge]

/-- The fuel of `parse_log_files` suffices for the loop, which merges what the heads stand for. -/
theorem merge_spec (ties : Nat → Nat) {fuel : Nat} {heads : Heads}
    (hreads : ∀ head ∈ heads, none ∉ head.2) (hfuel : left_to_merge heads ≤ fuel) :
    ∃ logs, merge ties fuel heads = some logs ∧ Merges in_order (heads.map remaining) logs := by
  induction fuel generalizing heads with
  | zero =>
    have hnil : heads = [] := by
      cases heads with
      | nil => rfl
      | cons head heads =>
        rw [left_to_merge_cons] at hfuel
        omega
    subst hnil
    exact ⟨[], rfl, .done (by simp)⟩
  | succ fuel ih =>
    unfold merge
    cases hpop : MinQueue.pop (fun head : LogEntry × Iterator => head.1.time) (ties fuel) heads with
    | none =>
      have hnil : heads = [] := MinQueue.eq_nil_of_pop hpop
      subst hnil
      exact ⟨[], rfl, .done (by simp)⟩
    | some popped =>
      obtain ⟨⟨head, iterator⟩, rest⟩ := popped
      obtain ⟨hperm, hfirst⟩ := MinQueue.pop_spec hpop
      have hlists : (heads.map remaining).Perm
          ((head :: iterator.reduceOption) :: rest.map remaining) := hperm.map remaining
      have hleast : ∀ b l, b :: l ∈ heads.map remaining → in_order head b := by
        intro b l hb
        obtain ⟨other, hother, hremaining⟩ := List.mem_map.mp hb
        cases hremaining
        exact hfirst other hother
      have hleft := left_to_merge_of_perm hperm
      rw [left_to_merge_cons] at hleft
      have hrest : ∀ head ∈ rest, none ∉ head.2 := fun other hother =>
        hreads other (hperm.mem_iff.mpr (List.mem_cons_of_mem _ hother))
      have hiterator : none ∉ iterator := hreads _ (hperm.mem_iff.mpr List.mem_cons_self)
      cases iterator with
      | nil =>
        obtain ⟨logs, hmerge, hmerges⟩ := ih hrest (by omega)
        refine ⟨head :: logs, ?_, .take hlists hleast hmerges.nil_cons⟩
        simp only [push, Option.bind_eq_bind, Option.bind_some, hmerge]
      | cons next iterator =>
        cases next with
        | none => exact absurd List.mem_cons_self hiterator
        | some next =>
          have hreads' : ∀ head ∈ (next, iterator) :: rest, none ∉ head.2 := by
            intro other hother
            rcases List.mem_cons.mp hother with rfl | hother
            · exact fun hnone => hiterator (List.mem_cons_of_mem _ hnone)
            · exact hrest other hother
          have hfuel' : left_to_merge ((next, iterator) :: rest) ≤ fuel := by
            rw [left_to_merge_cons]
            simp only [List.length_cons] at hleft ⊢
            omega
          obtain ⟨logs, hmerge, hmerges⟩ := ih hreads' hfuel'
          refine ⟨head :: logs, ?_, .take hlists hleast hmerges⟩
          simp only [push, Option.bind_eq_bind, Option.bind_some, hmerge]

/-- The files are merged: every entry is yielded. -/
theorem parse_log_files_merges (ties : Nat → Nat) {hosts : List NodeDir}
    {files : List (List LogEntry)} (h : log_entries hosts = some files) :
    ∃ logs, parse_log_files ties hosts = some logs ∧ Merges in_order files logs := by
  obtain ⟨heads, hheads, hreads, count, hfiles⟩ := stands_of_log_entries h
  obtain ⟨logs, hmerge, hmerges⟩ := merge_spec ties hreads (Nat.le_refl _)
  refine ⟨logs, ?_, (hmerges.nils_append count).of_perm hfiles⟩
  unfold parse_log_files
  rw [hheads]
  exact hmerge

/-! ## What an entry tells of -/

inductive Direction where
  | up
  | down
deriving DecidableEq, Repr

inductive Kind where
  | payload
  | control
deriving DecidableEq, Repr

omit [Dateutil] in
/-- The traffic that a message tells of. -/
def traffic_of (msg : String) : Option (Direction × Kind) :=
  if startswith msg "Sent" then
    some (.up, if msg = "Sent Message" then .payload else .control)
  else if startswith msg "Received" then
    some (.down, if msg = "Received Message" then .payload else .control)
  else none

namespace LogEntry

def msg? (log : LogEntry) : Option String :=
  match log.log.lookup "msg" with
  | some (.str msg) => some msg
  | _ => none

def traffic (log : LogEntry) : Option (Direction × Kind) := log.msg?.bind traffic_of

def size (log : LogEntry) : Nat :=
  match log.log.lookup "size" with
  | some (.num num_bytes) => num_bytes
  | _ => 0

/-- The entry has this message, about a message with this id. -/
def tells_of (log : LogEntry) (msg : String) (id : LogValue) : Bool :=
  decide (log.msg? = some msg) && decide (log.log.lookup "id" = some id)

def sends (log : LogEntry) (id : LogValue) : Bool := log.tells_of "Sent Message" id

/-- The node has the message when it sends it, or receives it. -/
def delivers (log : LogEntry) (id : LogValue) (node : Int) : Bool :=
  decide (log.node = node) && (log.sends id || log.tells_of "Received Message" id)

def counts (log : LogEntry) (node : Int) (d : Direction) (k : Kind) : Bool :=
  decide (log.node = node) && decide (log.traffic = some (d, k))

end LogEntry

omit [Dateutil] in
def Globals.bytes (g : Globals) : Direction → Kind → Table Int Nat
  | .up, .payload => g.bytes_sent_payload
  | .up, .control => g.bytes_sent_control
  | .down, .payload => g.bytes_received_payload
  | .down, .control => g.bytes_received_control

/-! ## One entry -/

omit [Dateutil] in
theorem ok_of_bind {ε α β : Type} {x : Except ε α} {f : α → Except ε β} {b : β}
    (h : x >>= f = .ok b) : ∃ a, x = .ok a ∧ f a = .ok b := by
  cases x with
  | error e => cases h
  | ok a => exact ⟨a, rfl, h⟩

theorem LogEntry.getitem_ok {log : LogEntry} {arg : String} {value : LogValue}
    (h : log.getitem arg = .ok value) : log.log.lookup arg = some value := by
  unfold getitem at h
  split at h
  · rename_i found hfound
    cases h
    exact hfound
  · cases h

/-- What the counters and the times become with an entry. -/
structure Registers (g : Globals) (log : LogEntry) (g' : Globals) : Prop where
  bytes : ∀ d k, g'.bytes d k =
    if log.traffic = some (d, k) then
      (g.bytes d k).put log.node (((g.bytes d k).lookup log.node).getD 0 + log.size)
    else g.bytes d k
  sends : ∀ id, g'.msg_send_times.lookup id =
    (g.msg_send_times.lookup id).or (if log.sends id then some (log.get_time, log.node) else none)
  deliveries : ∀ id node, (g'.delivery_times id).lookup node =
    ((g.delivery_times id).lookup node).or
      (if log.delivers id node then some log.get_time else none)

/-- The entry is about no message. -/
theorem Registers.of_quiet {g g' : Globals} {log : LogEntry} {msg : String}
    (hmsg : log.msg? = some msg) (hsent : msg ≠ "Sent Message")
    (hreceived : msg ≠ "Received Message")
    (hbytes : ∀ d k, g'.bytes d k =
      if log.traffic = some (d, k) then
        (g.bytes d k).put log.node (((g.bytes d k).lookup log.node).getD 0 + log.size)
      else g.bytes d k)
    (hsends : g'.msg_send_times = g.msg_send_times)
    (hdeliveries : g'.msg_delivery_times = g.msg_delivery_times) : Registers g log g' := by
  have hquiet : ∀ id, log.sends id = false ∧ log.tells_of "Received Message" id = false := by
    intro id
    simp [LogEntry.sends, LogEntry.tells_of, hmsg, hsent, hreceived]
  refine ⟨hbytes, ?_, ?_⟩
  · intro id
    simp [hsends, (hquiet id).1]
  · intro id node
    simp [Globals.delivery_times, hdeliveries, LogEntry.delivers, hquiet id]

omit [Dateutil] in
def kind (is_payload : Bool) : Kind := if is_payload then .payload else .control

omit [Dateutil] in
/-- A counter that is told of some bytes. -/
structure Counts (g : Globals) (node : Int) (d : Direction) (k : Kind) (num_bytes : LogValue)
    (g' : Globals) : Prop where
  num : ∃ n, num_bytes = .num n ∧ ∀ d' k', g'.bytes d' k' =
    if d = d' ∧ k = k' then
      (g.bytes d' k').put node (((g.bytes d' k').lookup node).getD 0 + n)
    else g.bytes d' k'
  sends : g'.msg_send_times = g.msg_send_times
  deliveries : g'.msg_delivery_times = g.msg_delivery_times

omit [Dateutil] in
theorem register_bytes_ok {bytes bytes' : Table Int Nat} {node : Int} {num_bytes : LogValue}
    (h : Globals.register_bytes bytes node num_bytes = .ok bytes') :
    ∃ n, num_bytes = .num n ∧ bytes' = bytes.put node ((bytes.lookup node).getD 0 + n) := by
  cases num_bytes with
  | str text => cases h
  | num n =>
    cases h
    exact ⟨n, rfl, rfl⟩

omit [Dateutil] in
theorem register_sent_bytes_counts {g g' : Globals} {node : Int} {num_bytes : LogValue}
    {is_payload : Bool} (h : g.register_sent_bytes node num_bytes is_payload = .ok g') :
    Counts g node .up (kind is_payload) num_bytes g' := by
  unfold Globals.register_sent_bytes at h
  cases is_payload
  all_goals
    obtain ⟨bytes', hregister, h⟩ := ok_of_bind h
    obtain ⟨n, rfl, rfl⟩ := register_bytes_ok hregister
    cases h
    refine ⟨⟨n, rfl, ?_⟩, rfl, rfl⟩
    rintro (_ | _) (_ | _) <;> rfl

omit [Dateutil] in
theorem register_received_bytes_counts {g g' : Globals} {node : Int} {num_bytes : LogValue}
    {is_payload : Bool} (h : g.register_received_bytes node num_bytes is_payload = .ok g') :
    Counts g node .down (kind is_payload) num_bytes g' := by
  unfold Globals.register_received_bytes at h
  cases is_payload
  all_goals
    obtain ⟨bytes', hregister, h⟩ := ok_of_bind h
    obtain ⟨n, rfl, rfl⟩ := register_bytes_ok hregister
    cases h
    refine ⟨⟨n, rfl, ?_⟩, rfl, rfl⟩
    rintro (_ | _) (_ | _) <;> rfl

/-- The bytes of an entry are counted, in the counter of its message. -/
theorem Counts.bytes {g g₁ g' : Globals} {log : LogEntry} {d : Direction} {k : Kind}
    {num_bytes : LogValue} (h : Counts g₁ log.node d k num_bytes g')
    (hsame : ∀ d k, g₁.bytes d k = g.bytes d k) (htraffic : log.traffic = some (d, k))
    (hsize : log.getitem "size" = .ok num_bytes) :
    ∀ d k, g'.bytes d k =
      if log.traffic = some (d, k) then
        (g.bytes d k).put log.node (((g.bytes d k).lookup log.node).getD 0 + log.size)
      else g.bytes d k := by
  obtain ⟨n, rfl, hbytes⟩ := h.num
  have hn : log.size = n := by
    unfold LogEntry.size
    rw [LogEntry.getitem_ok hsize]
  intro d' k'
  rw [hbytes, hsame, htraffic, hn]
  simp only [Option.some.injEq, Prod.mk.injEq]

omit [Dateutil] in
/-- Only the first delivery of a message to a node is kept. -/
theorem register_message_delivery_spec (g : Globals) (message_id : LogValue) (node_id : Int)
    (timestamp : LogValue) (id : LogValue) (node : Int) :
    ((g.register_message_delivery message_id node_id timestamp).delivery_times id).lookup node =
      ((g.delivery_times id).lookup node).or
        (if message_id = id ∧ node_id = node then some timestamp else none) := by
  unfold Globals.register_message_delivery
  split
  · rename_i hknown
    by_cases hsame : message_id = id ∧ node_id = node
    · obtain ⟨rfl, rfl⟩ := hsame
      obtain ⟨first, hfirst⟩ := Table.mem_iff_lookup.mp hknown
      simp [hfirst]
    · simp [hsame]
  · rename_i hnew
    have hnone : (g.delivery_times message_id).lookup node_id = none :=
      AList.lookup_eq_none.mpr hnew
    simp only [Globals.delivery_times, Table.lookup_put]
    by_cases hid : message_id = id
    · subst hid
      simp only [if_true, Option.getD_some, Table.lookup_put, true_and]
      by_cases hnode : node_id = node
      · subst hnode
        simp only [Globals.delivery_times] at hnone
        simp [hnone]
      · simp [hnode, Ne.symm hnode]
    · simp [hid, Ne.symm hid]

omit [Dateutil] in
theorem register_message_delivery_sends (g : Globals) (message_id : LogValue) (node_id : Int)
    (timestamp : LogValue) :
    (g.register_message_delivery message_id node_id timestamp).msg_send_times =
      g.msg_send_times := by
  unfold Globals.register_message_delivery
  split <;> rfl

omit [Dateutil] in
/-- Only the first time that a message is sent is kept. -/
theorem register_message_send_spec (g : Globals) (message_id : LogValue) (node_id : Int)
    (timestamp : LogValue) (id : LogValue) :
    (g.register_message_send message_id node_id timestamp).msg_send_times.lookup id =
      (g.msg_send_times.lookup id).or
        (if message_id = id then some (timestamp, node_id) else none) := by
  unfold Globals.register_message_send
  rw [register_message_delivery_sends]
  split
  · rename_i hknown
    by_cases hid : message_id = id
    · subst hid
      obtain ⟨first, hfirst⟩ := Table.mem_iff_lookup.mp hknown
      simp [hfirst]
    · simp [hid]
  · rename_i hnew
    have hnone : g.msg_send_times.lookup message_id = none := AList.lookup_eq_none.mpr hnew
    rw [Table.lookup_put]
    by_cases hid : message_id = id
    · subst hid
      simp [hnone]
    · simp [hid, Ne.symm hid]

omit [Dateutil] in
theorem register_message_delivery_bytes (g : Globals) (message_id : LogValue) (node_id : Int)
    (timestamp : LogValue) (d : Direction) (k : Kind) :
    (g.register_message_delivery message_id node_id timestamp).bytes d k = g.bytes d k := by
  unfold Globals.register_message_delivery
  split
  · rfl
  · cases d <;> cases k <;> rfl

omit [Dateutil] in
theorem register_message_send_bytes (g : Globals) (message_id : LogValue) (node_id : Int)
    (timestamp : LogValue) (d : Direction) (k : Kind) :
    (g.register_message_send message_id node_id timestamp).bytes d k = g.bytes d k := by
  unfold Globals.register_message_send
  rw [register_message_delivery_bytes]
  split
  · rfl
  · cases d <;> cases k <;> rfl

omit [Dateutil] in
theorem register_message_send_deliveries (g : Globals) (message_id : LogValue) (node_id : Int)
    (timestamp : LogValue) (id : LogValue) (node : Int) :
    ((g.register_message_send message_id node_id timestamp).delivery_times id).lookup node =
      ((g.delivery_times id).lookup node).or
        (if message_id = id ∧ node_id = node then some timestamp else none) := by
  unfold Globals.register_message_send
  rw [register_message_delivery_spec]
  split <;> rfl

omit [Dateutil] in
/-- Neither the counters nor the times change. -/
structure Quiet (g g' : Globals) : Prop where
  bytes : ∀ d k, g'.bytes d k = g.bytes d k
  sends : g'.msg_send_times = g.msg_send_times
  deliveries : g'.msg_delivery_times = g.msg_delivery_times

omit [Dateutil] in
theorem add_connection_quiet (g : Globals) (topic : LogValue) (from_id : Int)
    (to_id : Int ⊕ LogValue) : Quiet g (g.add_connection topic from_id to_id) := by
  refine ⟨?_, rfl, rfl⟩
  rintro (_ | _) (_ | _) <;> rfl

omit [Dateutil] in
theorem remove_connection_quiet (g : Globals) (topic : LogValue) (from_id : Int)
    (to_id : Int ⊕ LogValue) : Quiet g (g.remove_connection topic from_id to_id) := by
  unfold Globals.remove_connection
  split
  · exact ⟨fun _ _ => rfl, rfl, rfl⟩
  · split
    · exact ⟨fun _ _ => rfl, rfl, rfl⟩
    · refine ⟨?_, rfl, rfl⟩
      rintro (_ | _) (_ | _) <;> rfl

theorem LogEntry.msg?_of_getitem {log : LogEntry} {text : String}
    (h : log.getitem "msg" = .ok (.str text)) : log.msg? = some text := by
  unfold msg?
  rw [getitem_ok h]

theorem LogEntry.traffic_of_getitem {log : LogEntry} {text : String}
    (h : log.getitem "msg" = .ok (.str text)) : log.traffic = traffic_of text := by
  unfold traffic
  rw [msg?_of_getitem h]
  rfl

/-- An arm that counts nothing. -/
theorem Quiet.registers {g g' : Globals} (h : Quiet g g') {log : LogEntry} {text : String}
    (hmsg : log.getitem "msg" = .ok (.str text)) (htraffic : traffic_of text = none)
    (hsent : text ≠ "Sent Message") (hreceived : text ≠ "Received Message") :
    Registers g log g' := by
  apply Registers.of_quiet (LogEntry.msg?_of_getitem hmsg) hsent hreceived _ h.sends h.deliveries
  intro d k
  rw [LogEntry.traffic_of_getitem hmsg, htraffic, h.bytes]
  rfl

/-- An arm that counts bytes. -/
theorem Quiet.registers_bytes {g g₁ g' : Globals} (h : Quiet g g₁) {log : LogEntry}
    {text : String} {d : Direction} {k : Kind} {num_bytes : LogValue}
    (hmsg : log.getitem "msg" = .ok (.str text)) (htraffic : traffic_of text = some (d, k))
    (hsent : text ≠ "Sent Message") (hreceived : text ≠ "Received Message")
    (hsize : log.getitem "size" = .ok num_bytes) (hcounts : Counts g₁ log.node d k num_bytes g') :
    Registers g log g' := by
  apply Registers.of_quiet (LogEntry.msg?_of_getitem hmsg) hsent hreceived
  · exact hcounts.bytes h.bytes ((LogEntry.traffic_of_getitem hmsg).trans htraffic) hsize
  · rw [hcounts.sends, h.sends]
  · rw [hcounts.deliveries, h.deliveries]

theorem registers_sent_message {g g' : Globals} {log : LogEntry} {id num_bytes : LogValue}
    (hmsg : log.getitem "msg" = .ok (.str "Sent Message")) (hid : log.getitem "id" = .ok id)
    (hsize : log.getitem "size" = .ok num_bytes)
    (hcounts : Counts (g.register_message_send id log.node log.get_time) log.node .up .payload
      num_bytes g') : Registers g log g' := by
  have hsends : ∀ id', log.sends id' = decide (id = id') := by
    intro id'
    simp [LogEntry.sends, LogEntry.tells_of, LogEntry.msg?_of_getitem hmsg, LogEntry.getitem_ok hid]
  have hreceives : ∀ id', log.tells_of "Received Message" id' = false := by
    intro id'
    simp [LogEntry.tells_of, LogEntry.msg?_of_getitem hmsg]
  refine ⟨?_, ?_, ?_⟩
  · apply hcounts.bytes (register_message_send_bytes g _ _ _) _ hsize
    rw [LogEntry.traffic_of_getitem hmsg]
    decide
  · intro id'
    rw [hcounts.sends, register_message_send_spec, hsends]
    simp only [decide_eq_true_eq]
  · intro id' node
    have hsame : g'.delivery_times id' =
        (g.register_message_send id log.node log.get_time).delivery_times id' := by
      unfold Globals.delivery_times
      rw [hcounts.deliveries]
    rw [hsame, register_message_send_deliveries, LogEntry.delivers, hsends, hreceives]
    simp only [Bool.or_false, Bool.and_eq_true, decide_eq_true_eq, and_comm]

theorem registers_received_message {g g' : Globals} {log : LogEntry} {id num_bytes : LogValue}
    (hmsg : log.getitem "msg" = .ok (.str "Received Message")) (hid : log.getitem "id" = .ok id)
    (hsize : log.getitem "size" = .ok num_bytes)
    (hcounts : Counts (g.register_message_delivery id log.node log.get_time) log.node .down .payload
      num_bytes g') : Registers g log g' := by
  have hsends : ∀ id', log.sends id' = false := by
    intro id'
    simp [LogEntry.sends, LogEntry.tells_of, LogEntry.msg?_of_getitem hmsg]
  have hreceives : ∀ id', log.tells_of "Received Message" id' = decide (id = id') := by
    intro id'
    simp [LogEntry.tells_of, LogEntry.msg?_of_getitem hmsg, LogEntry.getitem_ok hid]
  refine ⟨?_, ?_, ?_⟩
  · apply hcounts.bytes (register_message_delivery_bytes g _ _ _) _ hsize
    rw [LogEntry.traffic_of_getitem hmsg]
    decide
  · intro id'
    rw [hcounts.sends, register_message_delivery_sends, hsends]
    simp
  · intro id' node
    have hsame : g'.delivery_times id' =
        (g.register_message_delivery id log.node log.get_time).delivery_times id' := by
      unfold Globals.delivery_times
      rw [hcounts.deliveries]
    rw [hsame, register_message_delivery_spec, LogEntry.delivers, hsends, hreceives]
    simp only [Bool.false_or, Bool.and_eq_true, decide_eq_true_eq, and_comm]

/-- The message of an entry is matched by one arm, which counts its bytes once. -/
theorem process_msg_registers {g g' : Globals} {log : LogEntry} (h : process_msg g log = .ok g') :
    Registers g log g' := by
  unfold process_msg at h
  obtain ⟨msg, hmsg, h⟩ := ok_of_bind h
  have hself : Quiet g g := ⟨fun _ _ => rfl, rfl, rfl⟩
  split at h
  · cases h
  · obtain ⟨id, -, h⟩ := ok_of_bind h
    cases h
    have hquiet : Quiet g { g with peer_ids := g.peer_ids.put id log.node } := by
      refine ⟨?_, rfl, rfl⟩
      rintro (_ | _) (_ | _) <;> rfl
    exact hquiet.registers hmsg (by decide) (by decide) (by decide)
  · obtain ⟨to_text, -, h⟩ := ok_of_bind h
    obtain ⟨to_id, -, h⟩ := ok_of_bind h
    obtain ⟨num_bytes, hsize, h⟩ := ok_of_bind h
    exact (add_connection_quiet g _ _ _).registers_bytes hmsg (by decide) (by decide) (by decide)
      hsize
      (register_sent_bytes_counts h)
  · obtain ⟨from_text, -, h⟩ := ok_of_bind h
    obtain ⟨from_id, -, h⟩ := ok_of_bind h
    obtain ⟨num_bytes, hsize, h⟩ := ok_of_bind h
    exact (add_connection_quiet g _ _ _).registers_bytes hmsg (by decide) (by decide) (by decide)
      hsize
      (register_received_bytes_counts h)
  · obtain ⟨id, -, h⟩ := ok_of_bind h
    cases h
    exact (add_connection_quiet g _ _ _).registers hmsg (by decide) (by decide) (by decide)
  · obtain ⟨id, -, h⟩ := ok_of_bind h
    cases h
    exact (remove_connection_quiet g _ _ _).registers hmsg (by decide) (by decide) (by decide)
  · obtain ⟨to_text, -, h⟩ := ok_of_bind h
    obtain ⟨to_id, -, h⟩ := ok_of_bind h
    obtain ⟨num_bytes, hsize, h⟩ := ok_of_bind h
    exact (remove_connection_quiet g _ _ _).registers_bytes hmsg (by decide) (by decide) (by decide)
      hsize (register_sent_bytes_counts h)
  · obtain ⟨from_text, -, h⟩ := ok_of_bind h
    obtain ⟨from_id, -, h⟩ := ok_of_bind h
    obtain ⟨num_bytes, hsize, h⟩ := ok_of_bind h
    exact (remove_connection_quiet g _ _ _).registers_bytes hmsg (by decide) (by decide) (by decide)
      hsize (register_received_bytes_counts h)
  · obtain ⟨id, hid, h⟩ := ok_of_bind h
    obtain ⟨num_bytes, hsize, h⟩ := ok_of_bind h
    exact registers_sent_message hmsg hid hsize (register_sent_bytes_counts h)
  · obtain ⟨id, hid, h⟩ := ok_of_bind h
    obtain ⟨num_bytes, hsize, h⟩ := ok_of_bind h
    exact registers_received_message hmsg hid hsize (register_received_bytes_counts h)
  · rename_i text _ _ _ _ _ _ _ hsent hreceived
    split at h
    · rename_i hstarts
      obtain ⟨num_bytes, hsize, h⟩ := ok_of_bind h
      have htraffic : traffic_of text = some (.up, .control) := by
        unfold traffic_of
        rw [if_pos hstarts, if_neg hsent]
      exact hself.registers_bytes hmsg htraffic hsent hreceived hsize (register_sent_bytes_counts h)
    · rename_i hsends
      split at h
      · rename_i hstarts
        obtain ⟨num_bytes, hsize, h⟩ := ok_of_bind h
        have htraffic : traffic_of text = some (.down, .control) := by
          unfold traffic_of
          rw [if_neg hsends, if_pos hstarts, if_neg hreceived]
        exact hself.registers_bytes hmsg htraffic hsent hreceived hsize
          (register_received_bytes_counts h)
      · rename_i hreceives
        cases h
        have htraffic : traffic_of text = none := by
          unfold traffic_of
          rw [if_neg hsends, if_neg hreceives]
        exact hself.registers hmsg htraffic hsent hreceived

/-! ## All entries -/

/-- The bytes of the entries that count for a node, a direction and a kind. -/
def total (logs : List LogEntry) (node : Int) (d : Direction) (k : Kind) : Nat :=
  ((logs.filter fun log => log.counts node d k).map LogEntry.size).sum

theorem total_of_not_any {logs : List LogEntry} {node : Int} {d : Direction} {k : Kind}
    (h : (logs.any fun log => log.counts node d k) = false) : total logs node d k = 0 := by
  have hfilter : (logs.filter fun log => log.counts node d k) = [] := by
    simpa [List.filter_eq_nil_iff] using h
  unfold total
  rw [hfilter]
  rfl

/-- The counters hold the totals of the entries, and the times are those of the first entries. -/
structure Tells (logs : List LogEntry) (g : Globals) : Prop where
  bytes : ∀ node d k, (g.bytes d k).lookup node =
    if logs.any fun log => log.counts node d k then some (total logs node d k) else none
  sends : ∀ id, (g.msg_send_times.lookup id).map Prod.fst =
    (logs.find? fun log => log.sends id).map LogEntry.get_time
  deliveries : ∀ id node, (g.delivery_times id).lookup node =
    (logs.find? fun log => log.delivers id node).map LogEntry.get_time

theorem Tells.nil : Tells [] {} where
  bytes _ d k := by cases d <;> cases k <;> rfl
  sends _ := rfl
  deliveries _ _ := rfl

theorem Tells.snoc {logs : List LogEntry} {g g' : Globals} (h : Tells logs g) {log : LogEntry}
    (hlog : Registers g log g') : Tells (logs ++ [log]) g' := by
  refine ⟨?_, ?_, ?_⟩
  · intro node d k
    have htotal : total (logs ++ [log]) node d k =
        total logs node d k + if log.counts node d k then log.size else 0 := by
      unfold total
      rw [List.filter_append, List.map_append, List.sum_append]
      by_cases hcounts : log.counts node d k = true
      · simp [hcounts]
      · simp [hcounts]
    have hold := h.bytes node d k
    rw [hlog.bytes, htotal, List.any_append, List.any_cons, List.any_nil, Bool.or_false]
    by_cases hcounts : log.counts node d k = true
    · obtain ⟨hnode, htraffic⟩ := Bool.and_eq_true_iff.mp hcounts
      have hnode : log.node = node := of_decide_eq_true hnode
      rw [if_pos (of_decide_eq_true htraffic), Table.lookup_put, if_pos hnode.symm, hnode, hold,
        hcounts, Bool.or_true, if_pos rfl, if_pos rfl]
      cases hany : logs.any fun log => log.counts node d k with
      | true => simp
      | false => simp [total_of_not_any hany]
    · have hkept : (if log.traffic = some (d, k) then
          (g.bytes d k).put log.node (((g.bytes d k).lookup log.node).getD 0 + log.size)
          else g.bytes d k).lookup node = (g.bytes d k).lookup node := by
        split
        · rename_i htraffic
          rw [Table.lookup_put, if_neg]
          rintro rfl
          exact hcounts (by simp [LogEntry.counts, htraffic])
        · rfl
      rw [hkept, hold]
      simp [hcounts]
  · intro id
    rw [hlog.sends, List.find?_append, Option.map_or, Option.map_or, h.sends]
    congr 1
    by_cases hsends : log.sends id = true
    · simp [hsends]
    · simp [hsends]
  · intro id node
    rw [hlog.deliveries, List.find?_append, Option.map_or, h.deliveries]
    congr 1
    by_cases hdelivers : log.delivers id node = true
    · simp [hdelivers]
    · simp [hdelivers]

/-! ## The files that are written -/

/-- Some traffic of a node. -/
def LogEntry.of_traffic (log : LogEntry) (node : Int) : Bool :=
  decide (log.node = node) && log.traffic.isSome

def node_totals (logs : List LogEntry) (node : Int) : NodeData where
  bytes_up := { payload := total logs node .up .payload, control := total logs node .up .control }
  bytes_down :=
    { payload := total logs node .down .payload, control := total logs node .down .control }

/-- A snapshot with the totals of the entries, for each node that had traffic. -/
structure Shows (logs : List LogEntry) (data : Snapshot) : Prop where
  totals : ∀ node, data.lookup (Decimal.writeInt node) =
    if logs.any fun log => log.of_traffic node then some (node_totals logs node) else none
  keys : ∀ key ∈ data, ∃ node, key = Decimal.writeInt node

theorem of_traffic_iff (log : LogEntry) (node : Int) :
    log.of_traffic node = true ↔ ∃ d k, log.counts node d k = true := by
  simp only [LogEntry.of_traffic, LogEntry.counts, Bool.and_eq_true, decide_eq_true_eq,
    Option.isSome_iff_exists, Prod.exists]
  constructor
  · rintro ⟨hnode, d, k, htraffic⟩
    exact ⟨d, k, hnode, htraffic⟩
  · rintro ⟨d, k, hnode, htraffic⟩
    exact ⟨hnode, d, k, htraffic⟩

/-- A node without traffic has sent and received nothing of any kind. -/
theorem total_of_no_traffic {logs : List LogEntry} {node : Int} (d : Direction) (k : Kind)
    (h : (logs.any fun log => log.of_traffic node) = false) : total logs node d k = 0 := by
  apply total_of_not_any
  rw [List.any_eq_false] at h ⊢
  intro log hlog hcounts
  exact h log hlog ((of_traffic_iff log node).mpr ⟨d, k, hcounts⟩)

omit [Dateutil] in
theorem mem_all_node_idxs {g : Globals} {node : Int} :
    node ∈ g.all_node_idxs ↔ ∃ d k, node ∈ g.bytes d k := by
  simp only [Globals.all_node_idxs, List.mem_dedup, List.mem_append, ← AList.mem_keys]
  constructor
  · rintro (((h | h) | h) | h)
    · exact ⟨.down, .payload, h⟩
    · exact ⟨.down, .control, h⟩
    · exact ⟨.up, .payload, h⟩
    · exact ⟨.up, .control, h⟩
  · rintro ⟨d, k, h⟩
    cases d <;> cases k <;> simp_all [Globals.bytes]

theorem Tells.shows {logs : List LogEntry} {g : Globals} (h : Tells logs g) :
    Shows logs g.snapshot_data := by
  have hmem : ∀ node, node ∈ g.all_node_idxs ↔
      (logs.any fun log => log.of_traffic node) = true := by
    intro node
    rw [mem_all_node_idxs, List.any_eq_true]
    simp only [of_traffic_iff, Table.mem_iff_lookup, h.bytes]
    constructor
    · rintro ⟨d, k, v, hv⟩
      split at hv
      · rename_i hany
        obtain ⟨log, hlog, hcounts⟩ := List.any_eq_true.mp hany
        exact ⟨log, hlog, d, k, hcounts⟩
      · cases hv
    · rintro ⟨log, hlog, d, k, hcounts⟩
      exact ⟨d, k, _, if_pos (List.any_eq_true.mpr ⟨log, hlog, hcounts⟩)⟩
  have hcount : ∀ node d k, ((g.bytes d k).lookup node).getD 0 = total logs node d k := by
    intro node d k
    rw [h.bytes]
    cases hany : logs.any fun log => log.counts node d k with
    | true => rfl
    | false => exact (total_of_not_any hany).symm
  have hassigns : Table.Assigns Decimal.writeInt (fun node_idx => some (g.node_data node_idx))
      fun nodes node_idx => nodes.put (Decimal.writeInt node_idx) (g.node_data node_idx) := by
    refine ⟨?_, ?_⟩
    · intro t node data hdata
      cases hdata
      rfl
    · intro t node hnone
      cases hnone
  refine ⟨?_, ?_⟩
  · intro node
    have hlookup := hassigns.lookup Decimal.writeInt_injective g.all_node_idxs ∅ node
    have hdata : g.node_data node = node_totals logs node := by
      unfold node_totals
      rw [← hcount, ← hcount, ← hcount, ← hcount]
      rfl
    unfold Globals.snapshot_data
    refine hlookup.trans ?_
    rw [hdata]
    simp only [hmem, Option.some_or, AList.lookup_empty]
  · intro key hkey
    rcases hassigns.mem hkey with hempty | ⟨node, -, hnode⟩
    · exact absurd hempty (AList.notMem_empty key)
    · exact ⟨node, hnode⟩

/-- A snapshot was saved after some of the entries, under the time of the last of them. -/
def SavedFrom (logs : List LogEntry) (name : List Char) (data : Snapshot) : Prop :=
  ∃ seen log, seen ++ [log] <+: logs ∧ name = snapshot_name (some log.elapsed_time) ∧
    Shows (seen ++ [log]) data

/-- The entries processed so far. -/
structure Processed (logs : List LogEntry) (s : Processing) : Prop where
  tells : Tells logs s.globals
  elapsed : s.elapsed_time = logs.getLast?.map LogEntry.elapsed_time
  saved : ∀ name data, s.snapshots.lookup name = some data → SavedFrom logs name data

theorem SavedFrom.append {logs : List LogEntry} {name : List Char} {data : Snapshot}
    (h : SavedFrom logs name data) (more : List LogEntry) : SavedFrom (logs ++ more) name data := by
  obtain ⟨seen, log, hseen, hsaved⟩ := h
  exact ⟨seen, log, hseen.trans (List.prefix_append _ _), hsaved⟩

/-- Saving a snapshot at the last entry. -/
theorem Processed.save_snapshot {logs : List LogEntry} {log : LogEntry} {s : Processing}
    (h : Processed (logs ++ [log]) s) : Processed (logs ++ [log]) s.save_snapshot := by
  refine ⟨h.tells, h.elapsed, ?_⟩
  intro name data hlookup
  simp only [Processing.save_snapshot, Table.lookup_put] at hlookup
  split at hlookup
  · rename_i hname
    cases hlookup
    refine ⟨logs, log, List.prefix_refl _, ?_, h.tells.shows⟩
    rw [hname, h.elapsed, List.getLast?_concat]
    rfl
  · exact h.saved name data hlookup

theorem Processed.step {logs : List LogEntry} {log : LogEntry} {s t : Processing}
    (h : Processed logs s) (hstep : process_log log s = (t, none)) :
    Processed (logs ++ [log]) t := by
  unfold process_log at hstep
  dsimp only at hstep
  split at hstep
  · cases hstep
  · rename_i g hprocess
    have hnext : Processed (logs ++ [log])
        { s with elapsed_time := some log.elapsed_time, globals := g } := by
      refine ⟨h.tells.snoc (process_msg_registers hprocess), ?_, ?_⟩
      · rw [List.getLast?_concat]
        rfl
      · intro name data hlookup
        exact (h.saved name data hlookup).append [log]
    split at hstep
    · cases hstep
      have hsaved := hnext.save_snapshot
      exact ⟨hsaved.tells, hsaved.elapsed, hsaved.saved⟩
    · cases hstep
      exact hnext

theorem Processed.start : Processed [] {} where
  tells := .nil
  elapsed := rfl
  saved _ _ h := by cases h

/-- The instants and the totals in the files. -/
structure Findings where
  /-- The instant at which a message was sent. -/
  sent : LogValue → Option Int
  /-- The instant at which a node had a message. -/
  delivered : LogValue → Int → Option Int
  /-- The bytes in the last snapshot. -/
  totals : Int → Direction → Kind → Nat

omit [Dateutil] in
def NodeData.bytes (data : NodeData) : Direction → Kind → Nat
  | .up, .payload => data.bytes_up.payload
  | .up, .control => data.bytes_up.control
  | .down, .payload => data.bytes_down.payload
  | .down, .control => data.bytes_down.control

/-- The last snapshot has the time of the last entry. -/
def findings (logs : List LogEntry) (snapshots : Table (List Char) Snapshot)
    (message_data : Table LogValue MessageData) : Findings where
  sent id := (message_data.lookup id).bind fun data => instant data.sent
  delivered id node :=
    (message_data.lookup id).bind fun data => (data.received.lookup node).bind instant
  totals node d k :=
    let last := snapshots.lookup (snapshot_name (logs.getLast?.map LogEntry.elapsed_time))
    ((last.bind fun data => data.lookup (Decimal.writeInt node)).map fun data =>
      data.bytes d k).getD 0

/-- The earliest time of the entries that `p` holds of. -/
def earliest (p : LogEntry → Bool) (entries : List LogEntry) : Option Int :=
  ((entries.filter p).map LogEntry.time).min?

/-- What the entries tell, in any order. A node has a message when it sends or receives it; only
messages that were sent are recorded. -/
def told (entries : List LogEntry) : Findings where
  sent id := earliest (fun log => log.sends id) entries
  delivered id node :=
    if entries.any fun log => log.sends id then
      earliest (fun log => log.delivers id node) entries
    else none
  totals node d k := total entries node d k

theorem earliest_of_perm (p : LogEntry → Bool) {entries entries' : List LogEntry}
    (h : entries.Perm entries') : earliest p entries = earliest p entries' := by
  have hperm := (h.filter p).map LogEntry.time
  apply Option.ext
  intro time
  unfold earliest
  rw [List.min?_eq_some_iff, List.min?_eq_some_iff, hperm.mem_iff]
  simp only [hperm.mem_iff]

theorem told_of_perm {entries entries' : List LogEntry} (h : entries.Perm entries') :
    told entries = told entries' := by
  have hany : ∀ p : LogEntry → Bool, entries.any p = entries'.any p := by
    intro p
    rw [Bool.eq_iff_iff, List.any_eq_true, List.any_eq_true]
    simp only [h.mem_iff]
  have htotal : ∀ node d k, total entries node d k = total entries' node d k := by
    intro node d k
    exact ((h.filter _).map _).sum_nat
  unfold told
  simp only [earliest_of_perm _ h, hany, htotal]

/-- In entries that are in order, the first one is the earliest one. -/
theorem find?_of_in_order (p : LogEntry → Bool) {logs : List LogEntry}
    (h : logs.Pairwise in_order) : (logs.find? p).map LogEntry.time = earliest p logs := by
  induction logs with
  | nil => rfl
  | cons log logs ih =>
    obtain ⟨hfirst, hrest⟩ := List.pairwise_cons.mp h
    by_cases hp : p log = true
    · have hleast : ((log :: logs).filter p |>.map LogEntry.time).min? = some log.time := by
        rw [List.min?_eq_some_iff, List.filter_cons_of_pos hp, List.map_cons]
        refine ⟨List.mem_cons_self, ?_⟩
        intro time htime
        rcases List.mem_cons.mp htime with rfl | htime
        · exact Int.le_refl _
        · obtain ⟨later, hlater, rfl⟩ := List.mem_map.mp htime
          exact hfirst later (List.mem_filter.mp hlater).1
      rw [List.find?_cons_of_pos hp]
      exact hleast.symm
    · rw [List.find?_cons_of_neg hp, ih hrest]
      unfold earliest
      rw [List.filter_cons_of_neg hp]

omit [Dateutil] in
/-- The messages that are recorded are those that were sent. -/
theorem message_data_lookup {g : Globals} {message_data : Table LogValue MessageData}
    (h : g.message_data = .ok message_data) (id : LogValue) :
    message_data.lookup id = g.message id := by
  obtain ⟨ids, hids, h⟩ := ok_of_bind h
  cases h
  have hmem : ids.Perm g.msg_send_times.keys := by
    unfold sorted at hids
    split at hids
    · cases hids
      exact List.perm_insertionSort _ _
    · cases hids
  refine (Table.Assigns.lookup (⟨?_, ?_⟩ : Table.Assigns (fun id => id) g.message _)
    (fun _ _ h => h) ids ∅ id).trans ?_
  · intro t id data hdata
    simp only [hdata]
  · intro t id hnone
    simp only [hnone]
  rw [AList.lookup_empty, Option.or_none]
  by_cases hid : id ∈ ids
  · rw [if_pos hid]
  · have hnew : id ∉ g.msg_send_times := fun h => hid (hmem.mem_iff.mpr (AList.mem_keys.mp h))
    unfold Globals.message
    rw [if_neg hid, AList.lookup_eq_none.mpr hnew]
    rfl

theorem instant_of_find? (p : LogEntry → Bool) (logs : List LogEntry) :
    ((logs.find? p).map LogEntry.get_time).bind instant = (logs.find? p).map LogEntry.time := by
  cases logs.find? p with
  | none => rfl
  | some log => exact log.instant_get_time

/-- What is found in the files is what the entries tell. -/
theorem findings_of_in_order {logs : List LogEntry} (hsorted : logs.Pairwise in_order)
    {message_data : Table LogValue MessageData} (h : (process_logs logs).2 = .ok message_data) :
    findings logs (process_logs logs).1 message_data = told logs := by
  have hdone := (Fallible.each_invariant (p := Processed)
    (fun _ _ _ _ hs hstep => hs.step hstep) .start (l := logs)).1
  unfold process_logs at h ⊢
  split at h
  · cases h
  · rename_i s hrun
    obtain ⟨htells, helapsed, -⟩ := hdone s hrun
    have hmessages := message_data_lookup h
    have hsent : ∀ id, (s.globals.msg_send_times.lookup id).map Prod.fst =
        (logs.find? fun log => log.sends id).map LogEntry.get_time := htells.sends
    unfold findings told
    congr 1
    · funext id
      have hinstant := instant_of_find? (fun log => log.sends id) logs
      rw [find?_of_in_order _ hsorted, ← hsent] at hinstant
      rw [hmessages, ← hinstant, Globals.message, Option.bind_map, Option.bind_map]
      rfl
    · funext id node
      have hinstant := instant_of_find? (fun log => log.delivers id node) logs
      rw [find?_of_in_order _ hsorted, ← htells.deliveries] at hinstant
      have hid := hsent id
      rw [hmessages, Globals.message, Option.bind_map, ← hinstant]
      cases hfirst : s.globals.msg_send_times.lookup id with
      | none =>
        rw [hfirst, Option.map_none, eq_comm, Option.map_eq_none_iff, List.find?_eq_none] at hid
        have hany : (logs.any fun log => log.sends id) = false := by simpa using hid
        rw [hany]
        rfl
      | some sent =>
        rw [hfirst, Option.map_some, eq_comm, Option.map_eq_some_iff] at hid
        obtain ⟨log, hlog, -⟩ := hid
        have hany : (logs.any fun log => log.sends id) = true :=
          List.any_eq_true.mpr ⟨log, List.mem_of_find?_eq_some hlog,
            List.find?_some (p := fun log : LogEntry => log.sends id) hlog⟩
        rw [hany]
        rfl
    · funext node d k
      have hlast : s.save_snapshot.snapshots.lookup
          (snapshot_name (logs.getLast?.map LogEntry.elapsed_time)) =
            some s.globals.snapshot_data := by
        rw [← helapsed]
        simp [Processing.save_snapshot, Table.lookup_put]
      dsimp only
      rw [hlast, Option.bind_some, htells.shows.totals]
      cases hany : logs.any fun log => log.of_traffic node with
      | true => cases d <;> cases k <;> rfl
      | false =>
        rw [total_of_no_traffic d k hany]
        rfl

/-! ## The order of the listings -/

omit [Dateutil] in
/-- The same directories with the same files, listed in another order. -/
def SameHosts (hosts hosts' : List NodeDir) : Prop :=
  ∃ relisted, List.Forall₂ (fun node_dir node_dir' : NodeDir =>
    node_dir.name = node_dir'.name ∧ node_dir.log_files.Perm node_dir'.log_files) hosts relisted ∧
    relisted.Perm hosts'

theorem entries_of_relisted {node_dir node_dir' : NodeDir} (hname : node_dir.name = node_dir'.name)
    (hfiles : node_dir.log_files.Perm node_dir'.log_files) {entries : List (List LogEntry)}
    (h : node_dir.entries = some entries) :
    ∃ entries', node_dir'.entries = some entries' ∧ entries.Perm entries' := by
  simp only [NodeDir.entries, Option.bind_eq_bind, Option.bind_eq_some_iff] at h ⊢
  obtain ⟨node_idx, hnode, hentries⟩ := h
  obtain ⟨entries', hentries', hperm⟩ := Fallible.mapM_of_perm (hfiles.filter _) hentries
  rw [hname] at hnode
  exact ⟨entries', ⟨node_idx, hnode, hentries'⟩, hperm⟩

theorem log_entries_of_relisted {hosts hosts' : List NodeDir} (hsame : SameHosts hosts hosts')
    {files : List (List LogEntry)} (h : log_entries hosts = some files) :
    ∃ files', log_entries hosts' = some files' ∧ files.Perm files' := by
  obtain ⟨relisted, heach, hperm⟩ := hsame
  obtain ⟨parts, hparts, rfl⟩ := Option.map_eq_some_iff.mp h
  have hrelisted : ∃ parts', relisted.mapM NodeDir.entries = some parts' ∧
      List.Forall₂ List.Perm parts parts' := by
    clear h hperm
    induction heach generalizing parts with
    | nil =>
      cases hparts
      exact ⟨[], rfl, List.Forall₂.nil⟩
    | @cons node_dir node_dir' hosts relisted hdirs _ ih =>
      simp only [List.mapM_cons, Option.bind_eq_bind, Option.bind_eq_some_iff] at hparts
      obtain ⟨entries, hentries, rest, hrest, hparts⟩ := hparts
      cases hparts
      obtain ⟨entries', hentries', hperm⟩ := entries_of_relisted hdirs.1 hdirs.2 hentries
      obtain ⟨rest', hrest', hperms⟩ := ih rest hrest
      refine ⟨entries' :: rest', ?_, List.Forall₂.cons hperm hperms⟩
      simp only [List.mapM_cons, hentries', hrest', Option.bind_eq_bind, Option.bind_some]
      rfl
  obtain ⟨parts', hparts', hperms⟩ := hrelisted
  obtain ⟨parts'', hparts'', hperm'⟩ := Fallible.mapM_of_perm hperm hparts'
  refine ⟨parts''.flatten, ?_, ?_⟩
  · unfold log_entries
    rw [hparts'']
    rfl
  · exact (List.Perm.flatten_congr hperms).trans hperm'.flatten

/-- Log files that are in order are merged: every entry comes once, in the order of the times and
of its file. What the files tell, when no exception is raised, is what the entries tell, and so it
is the same for every order in which the log files are listed. -/
theorem the_analysis_does_not_depend_on_the_listing (ties : Nat → Nat) {hosts : List NodeDir}
    {files : List (List LogEntry)} (hfiles : log_entries hosts = some files)
    (hsorted : ∀ file ∈ files, file.Pairwise in_order) :
    ∃ logs, parse_log_files ties hosts = some logs ∧ logs.Perm files.flatten ∧
      logs.Pairwise in_order ∧ (∀ file ∈ files, file.Sublist logs) ∧
      (∀ message_data, (process_logs logs).2 = .ok message_data →
        findings logs (process_logs logs).1 message_data = told files.flatten) ∧
      ∀ hosts' ties' logs' message_data message_data', SameHosts hosts hosts' →
        parse_log_files ties' hosts' = some logs' →
        (process_logs logs).2 = .ok message_data → (process_logs logs').2 = .ok message_data' →
        findings logs' (process_logs logs').1 message_data' =
          findings logs (process_logs logs).1 message_data := by
  obtain ⟨logs, hlogs, hmerges⟩ := parse_log_files_merges ties hfiles
  have horder := hmerges.pairwise hsorted
  have htold := told_of_perm hmerges.perm
  refine ⟨logs, hlogs, hmerges.perm, horder, hmerges.sublist, ?_, ?_⟩
  · intro message_data hok
    rw [findings_of_in_order horder hok, htold]
  · intro hosts' ties' logs' message_data message_data' hsame hlogs' hok hok'
    obtain ⟨files', hfiles', hperm⟩ := log_entries_of_relisted hsame hfiles
    obtain ⟨logs'', hlogs'', hmerges'⟩ := parse_log_files_merges ties' hfiles'
    rw [hlogs''] at hlogs'
    cases hlogs'
    have hsorted' : ∀ file ∈ files', file.Pairwise in_order := fun file hfile =>
      hsorted file (hperm.mem_iff.mpr hfile)
    rw [findings_of_in_order horder hok,
      findings_of_in_order (hmerges'.pairwise hsorted') hok', htold,
      told_of_perm hmerges'.perm, told_of_perm hperm.flatten]

end

namespace Sample

/-- Two times of the second half of a minute. -/
instance dateutil : Dateutil where
  isoparse text :=
    if text = "2000-01-01T00:00:31Z" then some 946684831000000
    else if text = "2000-01-01T00:00:36Z" then some 946684836000000
    else none

def dict (items : List (String × LogValue)) : Log :=
  items.foldl (fun log item => log.put item.1 item.2) ∅

/-- One message goes from a node to another one. -/
def hosts : List NodeDir :=
  [{ name := "node1"
     log_files := [("dog.1000.stdout",
       [some (dict [("msg", .str "Received Message"), ("id", .num 7), ("size", .num 8),
         ("time", .str "2000-01-01T00:00:36Z")])])] },
   { name := "node0"
     log_files := [("dog.1000.stderr", [none]), ("dog.1000.stdout",
       [some (dict [("msg", .str "Sent Message"), ("id", .num 7), ("size", .num 8),
         ("time", .str "2000-01-01T00:00:31Z")])])] }]

end Sample

theorem the_analysis_of_one_message :
    ∃ files logs message_data, log_entries Sample.hosts = some files ∧
      parse_log_files (fun _ => 0) Sample.hosts = some logs ∧ logs.Perm files.flatten ∧
      logs.Pairwise in_order ∧ (process_logs logs).2 = .ok message_data ∧
      findings logs (process_logs logs).1 message_data = told files.flatten := by
  have hsome : ((log_entries Sample.hosts).map fun files =>
      files.all fun file => decide (file.Pairwise fun a b => a.time ≤ b.time)) = some true := by
    decide +kernel
  have hcompletes : ((parse_log_files (fun _ => 0) Sample.hosts).map fun logs =>
      (process_logs logs).2.isOk) = some true := by
    decide +kernel
  obtain ⟨files, hfiles, hall⟩ := Option.map_eq_some_iff.mp hsome
  have hsorted : ∀ file ∈ files, file.Pairwise in_order := fun file hfile =>
    of_decide_eq_true (p := file.Pairwise fun a b => a.time ≤ b.time)
      (List.all_eq_true.mp hall file hfile)
  obtain ⟨logs, hlogs, hperm, horder, -, htold, -⟩ :=
    the_analysis_does_not_depend_on_the_listing (fun _ => 0) hfiles hsorted
  rw [hlogs, Option.map_some, Option.some.injEq] at hcompletes
  cases hok : (process_logs logs).2 with
  | error e =>
    rw [hok] at hcompletes
    cases hcompletes
  | ok message_data =>
    exact ⟨files, logs, message_data, hfiles, hlogs, hperm, horder, hok, htold message_data hok⟩

end analyze_logs
