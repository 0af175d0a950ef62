-- The params files carry an experiment: what is read from them is what was
-- written, as long as the numbers fit, and the nodes that run it publish the
-- messages of the phases.
import GossipShadow.ExperimentLaws
import GossipShadow.InterpreterLaws
import GossipShadow.MaliceLaws
import GossipShadow.ParamsFile

namespace experiment

open libp2p_dog (F64 Libp2p Config ConfigBuilder from_secs)

section

variable {F : Type}

/-! ## Numbers -/

theorem rs.read_u64_iff {n : Int} {v : UInt64} :
    rs.read_u64 (.int n : Json F) = some v ↔ n = v.toNat := by
  simp only [rs.read_u64, Option.map_eq_some_iff, Json.whole_int]
  constructor
  · rintro ⟨m, ⟨rfl, hlow, hhigh⟩, rfl⟩
    rw [UInt64.toNat_ofNat']
    omega
  · rintro rfl
    have hlt := v.toNat_lt
    exact ⟨v.toNat, ⟨rfl, by omega, by omega⟩, by simp⟩

theorem rs.read_u8_iff {n : Int} {v : UInt8} :
    rs.read_u8 (.int n : Json F) = some v ↔ n = v.toNat := by
  simp only [rs.read_u8, Option.map_eq_some_iff, Json.whole_int]
  constructor
  · rintro ⟨m, ⟨rfl, hlow, hhigh⟩, rfl⟩
    rw [UInt8.toNat_ofNat']
    omega
  · rintro rfl
    have hlt := v.toNat_lt
    exact ⟨v.toNat, ⟨rfl, by omega, by omega⟩, by simp⟩

theorem rs.read_i32_iff {n : Int} {v : Int32} :
    rs.read_i32 (.int n : Json F) = some v ↔ n = v.toInt := by
  simp only [rs.read_i32, Option.map_eq_some_iff, Json.whole_int]
  constructor
  · rintro ⟨m, ⟨rfl, hlow, hhigh⟩, rfl⟩
    rw [Int32.toInt_ofInt_of_le (by omega) (by omega)]
  · rintro rfl
    have hle := v.le_toInt
    have hlt := v.toInt_lt
    exact ⟨v.toInt, ⟨rfl, by omega, by omega⟩, by simp⟩

theorem go.read_int_iff {n : Int} {v : Int64} :
    go.read_int (.int n : Json F) = some v ↔ n = v.toInt := by
  simp only [go.read_int, Option.map_eq_some_iff, Json.whole_int]
  constructor
  · rintro ⟨m, ⟨rfl, hlow, hhigh⟩, rfl⟩
    rw [Int64.toInt_ofInt_of_le (by omega) (by omega)]
  · rintro rfl
    have hle := v.le_toInt
    have hlt := v.toInt_lt
    exact ⟨v.toInt, ⟨rfl, by omega, by omega⟩, by simp⟩

theorem rs.reads_u64 : Json.Reads (.int : Int → Json F) rs.read_u64 fun n v => n = v.toNat :=
  fun _ _ => rs.read_u64_iff

theorem rs.reads_u8 : Json.Reads (.int : Int → Json F) rs.read_u8 fun n v => n = v.toNat :=
  fun _ _ => rs.read_u8_iff

theorem rs.reads_usize : Json.Reads (.int : Int → Json F) rs.read_usize fun n v => n = v.toNat :=
  rs.reads_u64

/-! ## Scripts, in Rust -/

/-- What the interpreter in Rust makes of an instruction. -/
inductive rs.Instruction.Means : InstructionParams → rs.Instruction → Prop
  | reads {i : InstructionParams} {r : rs.Instruction} (h : rs.Instruction.Reads i r) : Means i r
  | SubscribeToTopic (topic_id : String) :
    Means (.SubscribeToTopic topic_id) (.SubscribeToTopic topic_id)

structure rs.ScriptInstruction.Means (i : experiment.ScriptInstruction) (r : rs.ScriptInstruction) :
    Prop where
  elapsed_millis : i.elapsedMillis = r.elapsed_millis.toNat
  instructions : List.Forall₂ rs.Instruction.Means i.instructions r.instructions

theorem rs.reads_node_ids :
    Json.Reads (fun l => .arr (l.map .int) : List Int → Json F) (Json.items rs.read_i32)
      (List.Forall₂ fun n v => n = v.toInt) :=
  Json.Reads.items fun _ _ => rs.read_i32_iff

theorem forall₂_toInt {l : List Int} {v : List Int32} :
    List.Forall₂ (fun n i => n = i.toInt) l v ↔ l = v.map Int32.toInt := by
  rw [← List.forall₂_eq_eq_eq, List.forall₂_map_right_iff]

theorem rs.Instruction.means_connect {connectTo : List Int} {r : rs.Instruction} :
    Means (.Connect connectTo) r ↔
      ∃ connect_to : List Int32,
        connectTo = connect_to.map Int32.toInt ∧ r = .Connect connect_to := by
  constructor
  · intro h
    cases h with
    | reads h => cases h with
      | Connect connect_to => exact ⟨connect_to, rfl, rfl⟩
  · rintro ⟨connect_to, rfl, rfl⟩
    exact .reads (.Connect connect_to)

theorem rs.Instruction.means_publish {messageID : Nat} {messageSizeBytes : Int} {topicID : String}
    {r : rs.Instruction} :
    Means (.Publish messageID messageSizeBytes topicID) r ↔
      ∃ message_id message_size_bytes : UInt64, (messageID : Int) = message_id.toNat ∧
        messageSizeBytes = message_size_bytes.toNat ∧
        r = .Publish message_id message_size_bytes topicID := by
  constructor
  · intro h
    cases h with
    | reads h => cases h with
      | Publish message_id message_size_bytes =>
        exact ⟨message_id, message_size_bytes, rfl, rfl, rfl⟩
  · rintro ⟨message_id, message_size_bytes, hid, rfl, rfl⟩
    obtain rfl := Int.ofNat_inj.mp hid
    exact .reads (.Publish message_id message_size_bytes topicID)

theorem rs.Instruction.means_subscribe {topicID : String} {r : rs.Instruction} :
    Means (.SubscribeToTopic topicID) r ↔ r = .SubscribeToTopic topicID := by
  constructor
  · intro h
    cases h with
    | reads h => cases h
    | SubscribeToTopic => rfl
  · rintro rfl
    exact .SubscribeToTopic topicID

theorem rs.Instruction.reads_dump :
    Json.Reads (fun i => .obj i.model_dump : InstructionParams → Json F) rs.Instruction.deserialize
      rs.Instruction.Means := by
  intro i r
  unfold deserialize
  rw [Json.members, Option.bind_eq_bind, Option.bind_some]
  cases i with
  | Connect connectTo =>
    have htag : Json.required Json.text "type"
        ((InstructionParams.Connect connectTo).model_dump : Json.Members F) = some "connect" :=
      (Json.reads_text.required rfl).mpr rfl
    have hids : ∀ v, Json.required (Json.items rs.read_i32) "connectTo"
        ((InstructionParams.Connect connectTo).model_dump : Json.Members F) = some v ↔
          connectTo = v.map Int32.toInt := fun v =>
            (rs.reads_node_ids.required rfl).trans forall₂_toInt
    rw [htag, Option.bind_eq_bind, Option.bind_some, if_pos rfl, means_connect]
    simp only [Option.bind_eq_bind, Option.bind_eq_some_iff, hids, Option.some.injEq,
      @eq_comm _ _ r]
  | Publish messageID messageSizeBytes topicID =>
    have htag : Json.required Json.text "type"
        ((InstructionParams.Publish messageID messageSizeBytes topicID).model_dump :
          Json.Members F) = some "publish" := (Json.reads_text.required rfl).mpr rfl
    have hid : ∀ v, Json.required rs.read_u64 "messageID"
        ((InstructionParams.Publish messageID messageSizeBytes topicID).model_dump :
          Json.Members F) =
          some v ↔ (messageID : Int) = v.toNat := fun v => rs.reads_u64.required rfl
    have hsize : ∀ v, Json.required rs.read_usize "messageSizeBytes"
        ((InstructionParams.Publish messageID messageSizeBytes topicID).model_dump :
          Json.Members F) =
          some v ↔ messageSizeBytes = v.toNat := fun v => rs.reads_usize.required rfl
    have htopic : Json.required Json.text "topicID"
        ((InstructionParams.Publish messageID messageSizeBytes topicID).model_dump :
          Json.Members F) = some topicID := (Json.reads_text.required rfl).mpr rfl
    rw [htag, Option.bind_eq_bind, Option.bind_some, if_neg (by decide), if_neg (by decide),
      if_pos rfl, htopic, means_publish]
    simp only [Option.bind_eq_bind, Option.bind_eq_some_iff, Option.bind_some, hid, hsize,
      Option.some.injEq, @eq_comm _ _ r, exists_and_left]
  | SubscribeToTopic topicID =>
    have htag : Json.required Json.text "type"
        ((InstructionParams.SubscribeToTopic topicID).model_dump : Json.Members F) =
          some "subscribeToTopic" := (Json.reads_text.required rfl).mpr rfl
    have htopic : Json.required Json.text "topicID"
        ((InstructionParams.SubscribeToTopic topicID).model_dump : Json.Members F) = some topicID :=
      (Json.reads_text.required rfl).mpr rfl
    rw [htag, Option.bind_eq_bind, Option.bind_some, if_neg (by decide), if_pos rfl, htopic,
      means_subscribe]
    simp only [Option.bind_some, Option.some.injEq, @eq_comm _ _ r]

theorem rs.ScriptInstruction.reads_dump :
    Json.Reads (fun i => .obj i.model_dump : experiment.ScriptInstruction → Json F)
      rs.ScriptInstruction.deserialize rs.ScriptInstruction.Means := by
  intro i r
  have helapsed : ∀ v, Json.required rs.read_u64 "elapsedMillis" (i.model_dump : Json.Members F) =
      some v ↔ i.elapsedMillis = v.toNat := fun v => rs.reads_u64.required rfl
  have hinstructions : ∀ v, Json.required (Json.items rs.Instruction.deserialize) "instructions"
      (i.model_dump : Json.Members F) = some v ↔
        List.Forall₂ rs.Instruction.Means i.instructions v :=
    fun v => rs.Instruction.reads_dump.items.required rfl
  unfold deserialize
  rw [Json.members, Option.bind_eq_bind, Option.bind_some]
  simp only [Option.bind_eq_bind, Option.bind_eq_some_iff, helapsed, hinstructions,
    Option.some.injEq]
  constructor
  · rintro ⟨elapsed_millis, hmillis, instructions, hall, rfl⟩
    exact ⟨hmillis, hall⟩
  · rintro ⟨hmillis, hall⟩
    exact ⟨_, hmillis, _, hall, rfl⟩

/-! ## Configurations, in Rust -/

section

variable [JsonNumbers F]

theorem rs.reads_f64 :
    Json.Reads (.float : F → Json F) rs.read_f64 fun x v => rs.read_f64 (.float x) = some v :=
  fun _ _ => Iff.rfl

/-- What the interpreter in Rust makes of a configuration: it is told of all of it. -/
structure rs.DOGParams.Means (c : experiment.DOGParams F) (d : rs.DOGParams F) : Prop where
  max_transactions_per_rpc :
    Option.Rel (fun n v => n = (UInt64.toNat v : Int)) c.max_transactions_per_rpc
      d.max_transactions_per_rpc
  connection_handler_queue_len : ∃ v, d.connection_handler_queue_len = some v ∧
    c.connection_handler_queue_len = v.toNat
  cache_time_sec : ∃ v, d.cache_time_sec = some v ∧ c.cache_time_sec = v.toNat
  target_redundancy : ∃ x, d.target_redundancy = some x ∧
    rs.read_f64 (.float c.target_redundancy) = some x
  redundancy_delta_percent : ∃ v, d.redundancy_delta_percent = some v ∧
    c.redundancy_delta_percent = v.toNat
  redundancy_interval_sec : ∃ v, d.redundancy_interval_sec = some v ∧
    c.redundancy_interval_sec = v.toNat
  connection_handler_publish_duration_sec :
    ∃ v, d.connection_handler_publish_duration_sec = some v ∧
      c.connection_handler_publish_duration_sec = v.toNat
  connection_handler_forward_duration_sec :
    ∃ v, d.connection_handler_forward_duration_sec = some v ∧
      c.connection_handler_forward_duration_sec = v.toNat
  deliver_own_transactions : d.deliver_own_transactions = some c.deliver_own_transactions
  forward_transactions : d.forward_transactions = some c.forward_transactions
  send_have_tx : d.send_have_tx = some c.send_have_tx
  ignore_have_tx : d.ignore_have_tx = some c.ignore_have_tx

theorem rs.DOGParams.reads_dump :
    Json.Reads (fun c => .obj c.model_dump : experiment.DOGParams F → Json F)
      rs.DOGParams.deserialize rs.DOGParams.Means := by
  intro c d
  have hint : ∀ n : Int, (.int n : Json F) ≠ .null := by simp
  have hfloat : ∀ x : F, (.float x : Json F) ≠ .null := by simp
  have hbool : ∀ b, (.bool b : Json F) ≠ .null := by simp
  have hmax : ∀ v,
      Json.optional rs.read_usize "max_transactions_per_rpc" c.model_dump = some v ↔ _ :=
    fun v => rs.reads_usize.optional_nullable hint rfl
  have hlen : ∀ v,
      Json.optional rs.read_usize "connection_handler_queue_len" c.model_dump = some v ↔
      _ := fun v => rs.reads_usize.optional hint rfl
  have hcache : ∀ v, Json.optional rs.read_u64 "cache_time_sec" c.model_dump = some v ↔ _ :=
    fun v => rs.reads_u64.optional hint rfl
  have htarget : ∀ v, Json.optional rs.read_f64 "target_redundancy" c.model_dump = some v ↔ _ :=
    fun v => rs.reads_f64.optional hfloat rfl
  have hdelta : ∀ v,
      Json.optional rs.read_u8 "redundancy_delta_percent" c.model_dump = some v ↔ _ :=
    fun v => rs.reads_u8.optional hint rfl
  have hinterval : ∀ v,
      Json.optional rs.read_u64 "redundancy_interval_sec" c.model_dump = some v ↔ _ :=
    fun v => rs.reads_u64.optional hint rfl
  have hpublish : ∀ v, Json.optional rs.read_u64 "connection_handler_publish_duration_sec"
      c.model_dump = some v ↔ _ := fun v => rs.reads_u64.optional hint rfl
  have hforward : ∀ v, Json.optional rs.read_u64 "connection_handler_forward_duration_sec"
      c.model_dump = some v ↔ _ := fun v => rs.reads_u64.optional hint rfl
  have hdeliver : ∀ v,
      Json.optional Json.truth "deliver_own_transactions" c.model_dump = some v ↔ _ :=
    fun v => Json.reads_truth.optional hbool rfl
  have hforwards : ∀ v, Json.optional Json.truth "forward_transactions" c.model_dump = some v ↔ _ :=
    fun v => Json.reads_truth.optional hbool rfl
  have hsend : ∀ v, Json.optional Json.truth "send_have_tx" c.model_dump = some v ↔ _ :=
    fun v => Json.reads_truth.optional hbool rfl
  have hignore : ∀ v, Json.optional Json.truth "ignore_have_tx" c.model_dump = some v ↔ _ :=
    fun v => Json.reads_truth.optional hbool rfl
  unfold deserialize
  rw [Json.members, Option.bind_eq_bind, Option.bind_some]
  constructor
  · intro h
    obtain ⟨_, hmax', h⟩ := Option.bind_eq_some_iff.mp h
    obtain ⟨_, hlen', h⟩ := Option.bind_eq_some_iff.mp h
    obtain ⟨_, hcache', h⟩ := Option.bind_eq_some_iff.mp h
    obtain ⟨_, htarget', h⟩ := Option.bind_eq_some_iff.mp h
    obtain ⟨_, hdelta', h⟩ := Option.bind_eq_some_iff.mp h
    obtain ⟨_, hinterval', h⟩ := Option.bind_eq_some_iff.mp h
    obtain ⟨_, hpublish', h⟩ := Option.bind_eq_some_iff.mp h
    obtain ⟨_, hforward', h⟩ := Option.bind_eq_some_iff.mp h
    obtain ⟨_, hdeliver', h⟩ := Option.bind_eq_some_iff.mp h
    obtain ⟨_, hforwards', h⟩ := Option.bind_eq_some_iff.mp h
    obtain ⟨_, hsend', h⟩ := Option.bind_eq_some_iff.mp h
    obtain ⟨_, hignore', h⟩ := Option.bind_eq_some_iff.mp h
    obtain ⟨_, rfl, rfl⟩ := (hdeliver _).mp hdeliver'
    obtain ⟨_, rfl, rfl⟩ := (hforwards _).mp hforwards'
    obtain ⟨_, rfl, rfl⟩ := (hsend _).mp hsend'
    obtain ⟨_, rfl, rfl⟩ := (hignore _).mp hignore'
    cases h
    exact ⟨(hmax _).mp hmax', (hlen _).mp hlen', (hcache _).mp hcache', (htarget _).mp htarget',
      (hdelta _).mp hdelta', (hinterval _).mp hinterval', (hpublish _).mp hpublish',
      (hforward _).mp hforward', rfl, rfl, rfl, rfl⟩
  · intro h
    refine Option.bind_eq_some_iff.mpr ⟨_, (hmax _).mpr h.max_transactions_per_rpc, ?_⟩
    refine Option.bind_eq_some_iff.mpr ⟨_, (hlen _).mpr h.connection_handler_queue_len, ?_⟩
    refine Option.bind_eq_some_iff.mpr ⟨_, (hcache _).mpr h.cache_time_sec, ?_⟩
    refine Option.bind_eq_some_iff.mpr ⟨_, (htarget _).mpr h.target_redundancy, ?_⟩
    refine Option.bind_eq_some_iff.mpr ⟨_, (hdelta _).mpr h.redundancy_delta_percent, ?_⟩
    refine Option.bind_eq_some_iff.mpr ⟨_, (hinterval _).mpr h.redundancy_interval_sec, ?_⟩
    refine Option.bind_eq_some_iff.mpr
      ⟨_, (hpublish _).mpr h.connection_handler_publish_duration_sec, ?_⟩
    refine Option.bind_eq_some_iff.mpr
      ⟨_, (hforward _).mpr h.connection_handler_forward_duration_sec, ?_⟩
    refine Option.bind_eq_some_iff.mpr ⟨_, (hdeliver _).mpr ⟨_, h.deliver_own_transactions, rfl⟩,
        ?_⟩
    refine Option.bind_eq_some_iff.mpr ⟨_, (hforwards _).mpr ⟨_, h.forward_transactions, rfl⟩, ?_⟩
    refine Option.bind_eq_some_iff.mpr ⟨_, (hsend _).mpr ⟨_, h.send_have_tx, rfl⟩, ?_⟩
    exact Option.bind_eq_some_iff.mpr ⟨_, (hignore _).mpr ⟨_, h.ignore_have_tx, rfl⟩, rfl⟩

omit [JsonNumbers F] in
theorem floats_script (script : List ScriptInstruction) :
    (.arr (script.map fun i => .obj i.model_dump) : Json F).floats = [] := by
  have hinstruction : ∀ i : InstructionParams, (.obj i.model_dump : Json F).floats = [] := by
    intro i
    cases i <;> simp [InstructionParams.model_dump]
  simp [ScriptInstruction.model_dump, hinstruction]

/-- No script has a number with a fraction. -/
theorem json_text_params_file (config : Json.Members F) (script : List ScriptInstruction) :
    json_text (.obj (params_file config script)) = json_text (.obj config) := by
  unfold json_text params_file
  rw [Json.floats_obj, List.flatMap_cons, List.flatMap_cons, List.flatMap_nil, floats_script,
    List.append_nil, List.append_nil]

theorem json_text_model_dump (config : DOGParams F) :
    json_text (.obj config.model_dump) = JsonNumbers.finite config.target_redundancy := by
  have hmax : (config.max_transactions_per_rpc.elim .null .int : Json F).floats = [] := by
    cases config.max_transactions_per_rpc <;> simp
  simp [json_text, DOGParams.model_dump, hmax]

/-- What is read of the file of a node is what was written to it. -/
structure rs.ExperimentParams.Means (config : experiment.DOGParams F)
    (script : List experiment.ScriptInstruction) (q : rs.ExperimentParams F) : Prop where
  text : JsonNumbers.finite config.target_redundancy = true
  config : rs.DOGParams.Means config q.config
  script : List.Forall₂ rs.ScriptInstruction.Means script q.script

theorem rs.ExperimentParams.from_json_iff {config : experiment.DOGParams F}
    {script : List experiment.ScriptInstruction} {q : rs.ExperimentParams F} :
    from_json (.obj (params_file config.model_dump script)) = some q ↔ Means config script q := by
  have hconfig : ∀ v, Json.required rs.DOGParams.deserialize "config"
      (params_file config.model_dump script) = some v ↔ rs.DOGParams.Means config v :=
    fun v => rs.DOGParams.reads_dump.required rfl
  have hscript : ∀ v, Json.required (Json.items rs.ScriptInstruction.deserialize) "script"
      (params_file config.model_dump script) = some v ↔
        List.Forall₂ rs.ScriptInstruction.Means script v :=
    fun v => rs.ScriptInstruction.reads_dump.items.required rfl
  unfold from_json
  rw [json_text_params_file, json_text_model_dump, Option.ite_none_right_eq_some, Json.members,
    Option.bind_eq_bind, Option.bind_some]
  simp only [Option.bind_eq_bind, Option.bind_eq_some_iff, hconfig, hscript, Option.some.injEq]
  constructor
  · rintro ⟨htext, _, hconfig, _, hscript, rfl⟩
    exact ⟨htext, hconfig, hscript⟩
  · rintro ⟨htext, hconfig, hscript⟩
    exact ⟨htext, _, hconfig, _, hscript, rfl⟩

/-! ## The file of a node in Go -/

omit [JsonNumbers F] in
theorem go.reads_int : Json.Reads (.int : Int → Json F) go.read_int fun n v => n = v.toInt :=
  fun _ _ => go.read_int_iff

/-- What the interpreter in Go makes of an instruction. -/
inductive go.Instruction.Means : InstructionParams → go.Unmarshalled F → Prop
  | reads {i : InstructionParams} {g : go.Instruction} (h : go.Instruction.Reads i g) :
    Means i (.inl g)
  | SubscribeToTopic (TopicID : String) :
      Means (.SubscribeToTopic TopicID) (.inl (.SubscribeToTopicInstruction TopicID))

structure go.ScriptInstruction.Means (i : experiment.ScriptInstruction)
    (g : go.UnmarshalledScriptInstruction F) : Prop where
  elapsed_millis : i.elapsedMillis = g.ElapsedMillis.toInt
  instructions : List.Forall₂ go.Instruction.Means i.instructions g.Instructions

omit [JsonNumbers F] in
theorem go.Instruction.means_connect {connectTo : List Int} {g : go.Unmarshalled F} :
    Means (.Connect connectTo) g ↔
      ∃ ConnectTo : List Int64, connectTo = ConnectTo.map Int64.toInt ∧
        g = .inl (.ConnectInstruction ConnectTo) := by
  constructor
  · intro h
    cases h with
    | reads h => cases h with
      | Connect ConnectTo => exact ⟨ConnectTo, rfl, rfl⟩
  · rintro ⟨ConnectTo, rfl, rfl⟩
    exact .reads (.Connect ConnectTo)

omit [JsonNumbers F] in
theorem go.Instruction.means_publish {messageID : Nat} {messageSizeBytes : Int} {topicID : String}
    {g : go.Unmarshalled F} :
    Means (.Publish messageID messageSizeBytes topicID) g ↔
      ∃ MessageID MessageSizeBytes : Int64, (messageID : Int) = MessageID.toInt ∧
        messageSizeBytes = MessageSizeBytes.toInt ∧
        g = .inl (.PublishInstruction MessageID MessageSizeBytes topicID) := by
  constructor
  · intro h
    cases h with
    | reads h => cases h with
      | Publish hid => exact ⟨_, _, hid, rfl, rfl⟩
  · rintro ⟨MessageID, MessageSizeBytes, hid, rfl, rfl⟩
    exact .reads (.Publish hid)

omit [JsonNumbers F] in
theorem go.Instruction.means_subscribe {topicID : String} {g : go.Unmarshalled F} :
    Means (.SubscribeToTopic topicID) g ↔ g = .inl (.SubscribeToTopicInstruction topicID) := by
  constructor
  · intro h
    cases h with
    | reads h => cases h
    | SubscribeToTopic => rfl
  · rintro rfl
    exact .SubscribeToTopic topicID

omit [JsonNumbers F] in
theorem go.fields_obj (members : Json.Members F) : go.fields (.obj members) = some members := rfl

omit [JsonNumbers F] in
theorem go.reads_node_ids :
    Json.Reads (fun l => .arr (l.map .int) : List Int → Json F) (go.slice go.read_int 0)
      (List.Forall₂ fun n v => n = v.toInt) :=
  (go.reads_int.assign (by simp) 0).items

omit [JsonNumbers F] in
theorem go.forall₂_toInt {l : List Int} {v : List Int64} :
    List.Forall₂ (fun n i => n = i.toInt) l v ↔ l = v.map Int64.toInt := by
  rw [← List.forall₂_eq_eq_eq, List.forall₂_map_right_iff]

variable [F64 F]

theorem go.Instruction.reads_dump :
    Json.Reads (fun i => .obj i.model_dump : InstructionParams → Json F) go.unmarshalInstruction
      go.Instruction.Means := by
  intro i g
  have hint : ∀ n : Int, (.int n : Json F) ≠ .null := by simp
  have htext : ∀ t, (.str t : Json F) ≠ .null := by simp
  unfold go.unmarshalInstruction
  rw [go.fields_obj, Option.bind_eq_bind, Option.bind_some]
  cases i with
  | Connect connectTo =>
    have htag : go.unmarshal Json.text "" "type"
        ((InstructionParams.Connect connectTo).model_dump : Json.Members F) = some "connect" :=
      (Json.reads_text.assigned htext (x := "connect")
        (by simp [Json.folded, go.fold, InstructionParams.model_dump])).mpr rfl
    have hids : ∀ v, go.unmarshal (go.slice go.read_int 0) [] "connectTo"
        ((InstructionParams.Connect connectTo).model_dump : Json.Members F) = some v ↔
          connectTo = v.map Int64.toInt := fun v =>
      (go.reads_node_ids.assigned (by simp) (x := connectTo)
        (by simp [Json.folded, go.fold, InstructionParams.model_dump])).trans go.forall₂_toInt
    rw [htag, Option.bind_eq_bind, Option.bind_some, if_pos rfl, go.Instruction.means_connect]
    simp only [Option.bind_eq_bind, Option.bind_eq_some_iff, hids, Option.some.injEq,
      @eq_comm _ _ g]
  | Publish messageID messageSizeBytes topicID =>
    have htag : go.unmarshal Json.text "" "type"
        ((InstructionParams.Publish messageID messageSizeBytes topicID).model_dump :
          Json.Members F) = some "publish" :=
      (Json.reads_text.assigned htext (x := "publish")
        (by simp [Json.folded, go.fold, InstructionParams.model_dump])).mpr rfl
    have hid : ∀ v, go.unmarshal go.read_int 0 "messageID"
        ((InstructionParams.Publish messageID messageSizeBytes topicID).model_dump :
          Json.Members F) = some v ↔ (messageID : Int) = v.toInt := fun v =>
      go.reads_int.assigned hint (by simp [Json.folded, go.fold, InstructionParams.model_dump])
    have hsize : ∀ v, go.unmarshal go.read_int 0 "messageSizeBytes"
        ((InstructionParams.Publish messageID messageSizeBytes topicID).model_dump :
          Json.Members F) = some v ↔ messageSizeBytes = v.toInt := fun v =>
      go.reads_int.assigned hint (by simp [Json.folded, go.fold, InstructionParams.model_dump])
    have htopic : go.unmarshal Json.text "" "topicID"
        ((InstructionParams.Publish messageID messageSizeBytes topicID).model_dump :
          Json.Members F) = some topicID :=
      (Json.reads_text.assigned htext (x := topicID)
        (by simp [Json.folded, go.fold, InstructionParams.model_dump])).mpr rfl
    rw [htag, Option.bind_eq_bind, Option.bind_some, if_neg (by decide), if_pos rfl, htopic,
      go.Instruction.means_publish]
    simp only [Option.bind_eq_bind, Option.bind_eq_some_iff, Option.bind_some, hid, hsize,
      Option.some.injEq, @eq_comm _ _ g, exists_and_left]
  | SubscribeToTopic topicID =>
    have htag : go.unmarshal Json.text "" "type"
        ((InstructionParams.SubscribeToTopic topicID).model_dump : Json.Members F) =
          some "subscribeToTopic" :=
      (Json.reads_text.assigned htext (x := "subscribeToTopic")
        (by simp [Json.folded, go.fold, InstructionParams.model_dump])).mpr rfl
    have htopic : go.unmarshal Json.text "" "topicID"
        ((InstructionParams.SubscribeToTopic topicID).model_dump : Json.Members F) = some topicID :=
      (Json.reads_text.assigned htext (x := topicID)
        (by simp [Json.folded, go.fold, InstructionParams.model_dump])).mpr rfl
    rw [htag, Option.bind_eq_bind, Option.bind_some, if_neg (by decide), if_neg (by decide),
      if_pos rfl, htopic, go.Instruction.means_subscribe]
    simp only [Option.bind_some, Option.some.injEq, @eq_comm _ _ g]

theorem go.ScriptInstruction.reads_dump :
    Json.Reads (fun i => .obj i.model_dump : experiment.ScriptInstruction → Json F)
      go.UnmarshalJSON go.ScriptInstruction.Means := by
  intro i g
  have helapsed : ∀ v, go.unmarshal go.read_int 0 "elapsedMillis" (i.model_dump : Json.Members F) =
      some v ↔ i.elapsedMillis = v.toInt := fun v =>
    go.reads_int.assigned (by simp)
      (by simp [Json.folded, go.fold, experiment.ScriptInstruction.model_dump])
  have hraw : go.unmarshal (Json.items some) [] "instructions" (i.model_dump : Json.Members F) =
      some (i.instructions.map fun i => .obj i.model_dump) :=
    (Json.reads_arr.assigned (by simp)
      (by simp [Json.folded, go.fold, experiment.ScriptInstruction.model_dump])).mpr rfl
  have hall : ∀ v, (i.instructions.map fun i => (.obj i.model_dump : Json F)).mapM
      go.unmarshalInstruction = some v ↔ List.Forall₂ go.Instruction.Means i.instructions v :=
    go.Instruction.reads_dump.items i.instructions
  unfold go.UnmarshalJSON
  rw [go.fields_obj, Option.bind_eq_bind, Option.bind_some, hraw]
  simp only [Option.bind_eq_bind, Option.bind_some, Option.bind_eq_some_iff, helapsed, hall,
    Option.some.injEq]
  constructor
  · rintro ⟨_, hmillis, _, hall, rfl⟩
    exact ⟨hmillis, hall⟩
  · rintro ⟨hmillis, hall⟩
    exact ⟨_, hmillis, _, hall, rfl⟩

/-- The configuration is kept, and the script is read as it was written. -/
structure go.ExperimentParams.Means (config : Json.Members F)
    (script : List experiment.ScriptInstruction) (q : go.ExperimentParams F) : Prop where
  text : json_text (.obj config) = true
  config : q.Config = some (.obj config)
  script : List.Forall₂ go.ScriptInstruction.Means script q.Script

theorem go.readParams_iff {config : Json.Members F} {script : List experiment.ScriptInstruction}
    {q : go.ExperimentParams F} :
    go.readParams (.obj (params_file config script)) = some q ↔
      go.ExperimentParams.Means config script q := by
  have hconfig : go.unmarshal_raw "config" (params_file config script) = some (.obj config) := by
    simp [go.unmarshal_raw, go.fold, params_file]
  have hscript : ∀ v, go.unmarshal (Json.items go.UnmarshalJSON) [] "script"
      (params_file config script) = some v ↔
        List.Forall₂ go.ScriptInstruction.Means script v := fun v =>
    go.ScriptInstruction.reads_dump.items.assigned (by simp)
      (by simp [Json.folded, go.fold, params_file])
  unfold go.readParams
  rw [json_text_params_file, Option.ite_none_right_eq_some, go.fields_obj, Option.bind_eq_bind,
    Option.bind_some, hconfig]
  simp only [Option.bind_eq_bind, Option.bind_eq_some_iff, hscript, Option.some.injEq]
  constructor
  · rintro ⟨htext, _, hscript, rfl⟩
    exact ⟨htext, rfl, hscript⟩
  · rintro ⟨htext, hconfig, hscript⟩
    exact ⟨htext, _, hscript, by rw [← hconfig]⟩

/-! ## What can be read -/

/-- The numbers of a `u64`. -/
def Unsigned (n : Int) : Prop := 0 ≤ n ∧ n < 18446744073709551616

instance (n : Int) : Decidable (Unsigned n) := inferInstanceAs (Decidable (_ ∧ _))

/-- The numbers of an `i32`. -/
def Short (n : Int) : Prop := -2147483648 ≤ n ∧ n < 2147483648

instance (n : Int) : Decidable (Short n) := inferInstanceAs (Decidable (_ ∧ _))

/-- The numbers of an `int64`. -/
def Signed (n : Int) : Prop := -9223372036854775808 ≤ n ∧ n < 9223372036854775808

/-- The indices of nodes and the other numbers of an instruction fit. -/
def InstructionParams.Fits (node_id number : Int → Prop) : InstructionParams → Prop
  | .Connect connectTo => ∀ n ∈ connectTo, node_id n
  | .Publish messageID messageSizeBytes _ => number messageID ∧ number messageSizeBytes
  | .SubscribeToTopic _ => True

instance (node_id number : Int → Prop) [DecidablePred node_id] [DecidablePred number] :
    (i : InstructionParams) → Decidable (i.Fits node_id number)
  | .Connect connectTo => inferInstanceAs (Decidable (∀ n ∈ connectTo, node_id n))
  | .Publish messageID messageSizeBytes _ =>
    inferInstanceAs (Decidable (number messageID ∧ number messageSizeBytes))
  | .SubscribeToTopic _ => inferInstanceAs (Decidable True)

structure ScriptInstruction.Fits (node_id number : Int → Prop) (i : ScriptInstruction) : Prop where
  elapsedMillis : number i.elapsedMillis
  instructions : ∀ instruction ∈ i.instructions, instruction.Fits node_id number

instance (node_id number : Int → Prop) [DecidablePred node_id] [DecidablePred number]
    (i : ScriptInstruction) : Decidable (i.Fits node_id number) :=
  decidable_of_iff (number i.elapsedMillis ∧
    ∀ instruction ∈ i.instructions, instruction.Fits node_id number)
    ⟨fun h => ⟨h.1, h.2⟩, fun h => ⟨h.1, h.2⟩⟩

structure DOGParams.Fits (c : DOGParams F) : Prop where
  max_transactions_per_rpc : ∀ n ∈ c.max_transactions_per_rpc, Unsigned n
  connection_handler_queue_len : Unsigned c.connection_handler_queue_len
  cache_time_sec : Unsigned c.cache_time_sec
  target_redundancy : JsonNumbers.finite c.target_redundancy = true
  redundancy_delta_percent : 0 ≤ c.redundancy_delta_percent ∧ c.redundancy_delta_percent < 256
  redundancy_interval_sec : Unsigned c.redundancy_interval_sec
  connection_handler_publish_duration_sec : Unsigned c.connection_handler_publish_duration_sec
  connection_handler_forward_duration_sec : Unsigned c.connection_handler_forward_duration_sec

theorem exists_u64 {n : Int} : (∃ v : UInt64, n = v.toNat) ↔ Unsigned n := by
  constructor
  · rintro ⟨v, rfl⟩
    have hlt := v.toNat_lt
    unfold Unsigned
    omega
  · rintro ⟨hlow, hhigh⟩
    refine ⟨UInt64.ofNat n.toNat, ?_⟩
    rw [UInt64.toNat_ofNat']
    omega

theorem exists_u8 {n : Int} : (∃ v : UInt8, n = v.toNat) ↔ 0 ≤ n ∧ n < 256 := by
  constructor
  · rintro ⟨v, rfl⟩
    have hlt := v.toNat_lt
    omega
  · rintro ⟨hlow, hhigh⟩
    refine ⟨UInt8.ofNat n.toNat, ?_⟩
    rw [UInt8.toNat_ofNat']
    omega

theorem exists_i32 {n : Int} : (∃ v : Int32, n = v.toInt) ↔ Short n := by
  constructor
  · rintro ⟨v, rfl⟩
    exact ⟨v.le_toInt, v.toInt_lt⟩
  · rintro ⟨hlow, hhigh⟩
    exact ⟨Int32.ofInt n, (Int32.toInt_ofInt_of_le (by omega) (by omega)).symm⟩

theorem exists_int64 {n : Int} : (∃ v : Int64, n = v.toInt) ↔ Signed n := by
  constructor
  · rintro ⟨v, rfl⟩
    exact ⟨v.le_toInt, v.toInt_lt⟩
  · rintro ⟨hlow, hhigh⟩
    exact ⟨Int64.ofInt n, (Int64.toInt_ofInt_of_le (by omega) (by omega)).symm⟩

theorem exists_option_u64 {o : Option Int} :
    (∃ v, Option.Rel (fun n v => n = (UInt64.toNat v : Int)) o v) ↔ ∀ n ∈ o, Unsigned n := by
  cases o with
  | none =>
    constructor
    · intro _ n hn
      cases hn
    · exact fun _ => ⟨none, .none⟩
  | some n =>
    constructor
    · rintro ⟨_, h⟩ _ hn
      cases hn
      cases h with
      | some h => exact exists_u64.mp ⟨_, h⟩
    · intro h
      obtain ⟨v, hv⟩ := exists_u64.mpr (h n rfl)
      exact ⟨some v, .some hv⟩

theorem exists_node_ids {l : List Int} :
    (∃ v : List Int32, l = v.map Int32.toInt) ↔ ∀ n ∈ l, Short n := by
  simp only [← forall₂_toInt, Json.exists_forall₂, exists_i32]

theorem go.exists_node_ids {l : List Int} :
    (∃ v : List Int64, l = v.map Int64.toInt) ↔ ∀ n ∈ l, Signed n := by
  simp only [← go.forall₂_toInt, Json.exists_forall₂, exists_int64]

theorem rs.Instruction.exists_means {i : InstructionParams} :
    (∃ r, Means i r) ↔ i.Fits Short Unsigned := by
  cases i with
  | Connect connectTo =>
    simp only [rs.Instruction.means_connect]
    rw [exists_comm]
    simp [InstructionParams.Fits, ← exists_node_ids]
  | Publish messageID messageSizeBytes topicID =>
    simp only [rs.Instruction.means_publish, InstructionParams.Fits, ← exists_u64]
    constructor
    · rintro ⟨_, message_id, message_size_bytes, hid, hsize, -⟩
      exact ⟨⟨message_id, hid⟩, message_size_bytes, hsize⟩
    · rintro ⟨⟨message_id, hid⟩, message_size_bytes, hsize⟩
      exact ⟨_, message_id, message_size_bytes, hid, hsize, rfl⟩
  | SubscribeToTopic topicID => simp [rs.Instruction.means_subscribe, InstructionParams.Fits]

omit [F64 F] [JsonNumbers F] in
theorem go.Instruction.exists_means {i : InstructionParams} :
    (∃ g : go.Unmarshalled F, Means i g) ↔ i.Fits Signed Signed := by
  cases i with
  | Connect connectTo =>
    simp only [go.Instruction.means_connect]
    rw [exists_comm]
    simp [InstructionParams.Fits, ← go.exists_node_ids]
  | Publish messageID messageSizeBytes topicID =>
    simp only [go.Instruction.means_publish, InstructionParams.Fits, ← exists_int64]
    constructor
    · rintro ⟨_, MessageID, MessageSizeBytes, hid, hsize, -⟩
      exact ⟨⟨MessageID, hid⟩, MessageSizeBytes, hsize⟩
    · rintro ⟨⟨MessageID, hid⟩, MessageSizeBytes, hsize⟩
      exact ⟨_, MessageID, MessageSizeBytes, hid, hsize, rfl⟩
  | SubscribeToTopic topicID => simp [go.Instruction.means_subscribe, InstructionParams.Fits]

theorem rs.ScriptInstruction.exists_means {i : experiment.ScriptInstruction} :
    (∃ r, Means i r) ↔ i.Fits Short Unsigned := by
  constructor
  · rintro ⟨r, hmillis, hall⟩
    refine ⟨exists_u64.mp ⟨_, hmillis⟩, fun instruction hmem => ?_⟩
    exact rs.Instruction.exists_means.mp (Json.exists_forall₂.mp ⟨_, hall⟩ instruction hmem)
  · rintro ⟨hmillis, hall⟩
    obtain ⟨elapsed_millis, hmillis⟩ := exists_u64.mpr hmillis
    obtain ⟨instructions, hall⟩ :=
      Json.exists_forall₂.mpr fun i hi => rs.Instruction.exists_means.mpr (hall i hi)
    exact ⟨⟨elapsed_millis, instructions⟩, hmillis, hall⟩

omit [F64 F] [JsonNumbers F] in
theorem go.ScriptInstruction.exists_means {i : experiment.ScriptInstruction} :
    (∃ g : go.UnmarshalledScriptInstruction F, Means i g) ↔ i.Fits Signed Signed := by
  constructor
  · rintro ⟨g, hmillis, hall⟩
    refine ⟨exists_int64.mp ⟨_, hmillis⟩, fun instruction hmem => ?_⟩
    exact go.Instruction.exists_means.mp (Json.exists_forall₂.mp ⟨_, hall⟩ instruction hmem)
  · rintro ⟨hmillis, hall⟩
    obtain ⟨ElapsedMillis, hmillis⟩ := exists_int64.mpr hmillis
    obtain ⟨Instructions, hall⟩ := Json.exists_forall₂.mpr fun i hi =>
      (go.Instruction.exists_means (F := F)).mpr (hall i hi)
    exact ⟨⟨ElapsedMillis, Instructions⟩, hmillis, hall⟩

omit [F64 F] in
theorem rs.DOGParams.exists_means {c : experiment.DOGParams F} :
    (JsonNumbers.finite c.target_redundancy = true ∧ ∃ d, Means c d) ↔ c.Fits := by
  constructor
  · rintro ⟨hfinite, d, hmax, ⟨len, -, hlen⟩, ⟨cache, -, hcache⟩, -, ⟨delta, -, hdelta⟩,
      ⟨interval, -, hinterval⟩, ⟨publish, -, hpublish⟩, ⟨forward, -, hforward⟩, -⟩
    exact ⟨exists_option_u64.mp ⟨_, hmax⟩, exists_u64.mp ⟨_, hlen⟩, exists_u64.mp ⟨_, hcache⟩,
      hfinite, exists_u8.mp ⟨_, hdelta⟩, exists_u64.mp ⟨_, hinterval⟩,
      exists_u64.mp ⟨_, hpublish⟩, exists_u64.mp ⟨_, hforward⟩⟩
  · rintro ⟨hmax, hlen, hcache, hfinite, hdelta, hinterval, hpublish, hforward⟩
    obtain ⟨max, hmax⟩ := exists_option_u64.mpr hmax
    obtain ⟨len, hlen⟩ := exists_u64.mpr hlen
    obtain ⟨cache, hcache⟩ := exists_u64.mpr hcache
    obtain ⟨target, htarget⟩ := Option.isSome_iff_exists.mp (JsonNumbers.serde_json_reads _ hfinite)
    obtain ⟨delta, hdelta⟩ := exists_u8.mpr hdelta
    obtain ⟨interval, hinterval⟩ := exists_u64.mpr hinterval
    obtain ⟨publish, hpublish⟩ := exists_u64.mpr hpublish
    obtain ⟨forward, hforward⟩ := exists_u64.mpr hforward
    exact ⟨hfinite,
      ⟨max, some len, some cache, some target, some delta, some interval, some publish,
        some forward, some c.deliver_own_transactions, some c.forward_transactions,
        some c.send_have_tx, some c.ignore_have_tx⟩,
      hmax, ⟨len, rfl, hlen⟩, ⟨cache, rfl, hcache⟩, ⟨target, rfl, htarget⟩, ⟨delta, rfl, hdelta⟩,
      ⟨interval, rfl, hinterval⟩, ⟨publish, rfl, hpublish⟩, ⟨forward, rfl, hforward⟩,
      rfl, rfl, rfl, rfl⟩

/-! ## The configuration of a node in Rust -/

/-- The configuration that the parameters stand for. What they do not name is as by default. -/
def DOGParams.config {P : Type} [Libp2p P] (c : DOGParams F) : Config P F where
  protocol := .default
  transaction_id_fn := Config.default_transaction_id
  max_transactions_per_rpc := c.max_transactions_per_rpc.map Int.toNat
  connection_handler_queue_len := c.connection_handler_queue_len.toNat
  cache_time := from_secs c.cache_time_sec.toNat
  target_redundancy := c.target_redundancy
  redundancy_delta_percent := UInt8.ofNat c.redundancy_delta_percent.toNat
  redundancy_interval := from_secs c.redundancy_interval_sec.toNat
  connection_handler_publish_duration := from_secs c.connection_handler_publish_duration_sec.toNat
  connection_handler_forward_duration := from_secs c.connection_handler_forward_duration_sec.toNat
  deliver_own_transactions := c.deliver_own_transactions
  forward_transactions := c.forward_transactions
  send_have_tx := c.send_have_tx
  ignore_have_tx := c.ignore_have_tx

omit [JsonNumbers F] in
theorem rs.tell_max_transactions_per_rpc {P : Type} [Libp2p P] {n : Option Int} {v : Option UInt64}
    (h : Option.Rel (fun n v => n = (UInt64.toNat v : Int)) n v) :
    rs.tell v (fun v => .max_transactions_per_rpc v.toNat) (.default : ConfigBuilder P F) =
      ⟨{ (Config.default : Config P F) with max_transactions_per_rpc := n.map Int.toNat }⟩ := by
  cases h with
  | none => rfl
  | some h =>
    subst h
    simp [rs.tell, ConfigBuilder.max_transactions_per_rpc, ConfigBuilder.set, ConfigBuilder.default]

/-- The target redundancy is what was read of it, and all else is as it was written. -/
theorem rs.new_swarm_config_eq {P : Type} [Libp2p P] {c : experiment.DOGParams F}
    {d : rs.DOGParams F}
    (h : rs.DOGParams.Means c d) : ∃ x, rs.read_f64 (.float c.target_redundancy) = some x ∧
      (rs.new_swarm_config d : Config P F) = { c.config with target_redundancy := x } := by
  obtain ⟨hmax, ⟨len, hlen, hlen'⟩, ⟨cache, hcache, hcache'⟩, ⟨target, htarget, htarget'⟩,
    ⟨delta, hdelta, hdelta'⟩, ⟨interval, hinterval, hinterval'⟩, ⟨publish, hpublish, hpublish'⟩,
    ⟨forward, hforward, hforward'⟩, hdeliver, hforwards, hsend, hignore⟩ := h
  refine ⟨target, htarget', ?_⟩
  unfold rs.new_swarm_config rs.DOGParams.apply ConfigBuilder.build
  rw [rs.tell_max_transactions_per_rpc hmax, hlen, hcache, htarget, hdelta, hinterval, hpublish,
    hforward, hdeliver, hforwards, hsend, hignore]
  unfold DOGParams.config
  rw [hlen', hcache', hdelta', hinterval', hpublish', hforward']
  simp only [Int.toNat_natCast, UInt8.ofNat_toNat]
  rfl

/-- The parameters of a `DOGNode` that is given none fit, and they are those of the crate. -/
theorem default_fits (hone : JsonNumbers.finite (F64.ofNat 1 : F) = true) :
    (DOGParams.default : DOGParams F).Fits where
  max_transactions_per_rpc := fun n hn => by cases hn
  connection_handler_queue_len := (by decide : Unsigned 5000)
  cache_time_sec := (by decide : Unsigned 30)
  target_redundancy := hone
  redundancy_delta_percent := (by decide : (0 : Int) ≤ 10 ∧ (10 : Int) < 256)
  redundancy_interval_sec := (by decide : Unsigned 1)
  connection_handler_publish_duration_sec := (by decide : Unsigned 5)
  connection_handler_forward_duration_sec := (by decide : Unsigned 1)

omit [JsonNumbers F] in
theorem default_config {P : Type} [Libp2p P] :
    ((DOGParams.default : DOGParams F).config : Config P F) = .default := rfl

/-- Both interpreters read of a file what was written to it, when it is a document of JSON and its
numbers are those of their types, and nothing otherwise. The node in Rust runs with the
configuration of a `DOGNode`, up to what serde_json makes of the target redundancy, and a
`MaliciousDOGNode` is a malicious one. The node in Go keeps any configuration as it was dumped. -/
theorem a_node_reads_what_was_written (P : Type) [Libp2p P] (config : DOGParams F)
    (dumped : Json.Members F) (script : List ScriptInstruction) :
    ((∃ q, rs.ExperimentParams.from_json (.obj (params_file config.model_dump script)) = some q) ↔
      config.Fits ∧ ∀ i ∈ script, i.Fits Short Unsigned) ∧
    (∀ q, rs.ExperimentParams.from_json (.obj (params_file config.model_dump script)) = some q →
      (∃ x, rs.read_f64 (.float config.target_redundancy) = some x ∧
        (rs.new_swarm_config q.config : Config P F) =
          { config.config with target_redundancy := x }) ∧
      (∀ params : DOGParams F, config = params.malicious →
        (rs.new_swarm_config q.config : Config P F).Malicious) ∧
      List.Forall₂ rs.ScriptInstruction.Means script q.script) ∧
    ((∃ q, go.readParams (.obj (params_file dumped script)) = some q) ↔
      json_text (.obj dumped) = true ∧ ∀ i ∈ script, i.Fits Signed Signed) ∧
    ∀ q, go.readParams (.obj (params_file dumped script)) = some q →
      q.Config = some (.obj dumped) ∧ List.Forall₂ go.ScriptInstruction.Means script q.Script := by
  refine ⟨?_, ?_, ?_, ?_⟩
  · simp only [rs.ExperimentParams.from_json_iff]
    constructor
    · rintro ⟨q, htext, hconfig, hscript⟩
      refine ⟨rs.DOGParams.exists_means.mp ⟨htext, _, hconfig⟩, fun i hi => ?_⟩
      exact rs.ScriptInstruction.exists_means.mp (Json.exists_forall₂.mp ⟨_, hscript⟩ i hi)
    · rintro ⟨hconfig, hscript⟩
      obtain ⟨htext, d, hconfig⟩ := rs.DOGParams.exists_means.mpr hconfig
      obtain ⟨r, hscript⟩ :=
        Json.exists_forall₂.mpr fun i hi => rs.ScriptInstruction.exists_means.mpr (hscript i hi)
      exact ⟨⟨d, r⟩, htext, hconfig, hscript⟩
  · intro q hq
    obtain ⟨-, hconfig, hscript⟩ := rs.ExperimentParams.from_json_iff.mp hq
    obtain ⟨x, hx, hnew⟩ := rs.new_swarm_config_eq (P := P) hconfig
    refine ⟨⟨x, hx, hnew⟩, ?_, hscript⟩
    rintro params rfl
    rw [hnew]
    exact ⟨rfl, rfl, rfl⟩
  · simp only [go.readParams_iff]
    constructor
    · rintro ⟨q, htext, -, hscript⟩
      refine ⟨htext, fun i hi => ?_⟩
      exact go.ScriptInstruction.exists_means.mp (Json.exists_forall₂.mp ⟨_, hscript⟩ i hi)
    · rintro ⟨htext, hscript⟩
      obtain ⟨g, hscript⟩ := Json.exists_forall₂.mpr fun i hi =>
        (go.ScriptInstruction.exists_means (F := F)).mpr (hscript i hi)
      exact ⟨⟨some (.obj dumped), g⟩, htext, rfl, hscript⟩
  · intro q hq
    obtain ⟨-, hconfig, hscript⟩ := go.readParams_iff.mp hq
    exact ⟨hconfig, hscript⟩

end

end

end experiment
