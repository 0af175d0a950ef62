-- What the nodes of an experiment publish: each reads its file and runs its script,
-- and together they publish the messages that the phases note for the analysis.
import GossipShadow.ExperimentLaws
import GossipShadow.ParamsLaws

namespace experiment

open libp2p_dog (F64 Libp2p Config)

/-- A message as its source publishes it: its bytes, and the time that the script asks for. -/
structure Publication where
  source : NodeID
  msg : List UInt8
  elapsed_millis : Int
deriving DecidableEq, Repr

def Attempt.publication (source : NodeID) (a : Attempt) : Option Publication :=
  match a.call with
  | .Publish msg => some { source, msg, elapsed_millis := a.elapsed_millis }
  | .Connect _ => none

/-- There is none when the message has no room for its id. -/
def MessageInfo.publication (m : MessageInfo) : Option Publication :=
  (message m.message_id m.size_bytes).map fun msg =>
    { source := m.source, msg, elapsed_millis := m.time_ms }

/-! ## What a script plans -/

/-- What the steps of a script publish when none of them fails. -/
def planned (source : NodeID) (elapsed_millis : Int) : List Atom → List Publication
  | [] => []
  | .Wait elapsedMillis :: l => planned source elapsedMillis l
  | .Connect _ :: l => planned source elapsed_millis l
  | .Publish messageID messageSizeBytes :: l =>
    ((message messageID messageSizeBytes).map fun msg => { source, msg, elapsed_millis }).toList ++
      planned source elapsed_millis l

theorem planned_connects (source : NodeID) (elapsed_millis : Int) (ids : List NodeID)
    (l : List Atom) :
    planned source elapsed_millis (ids.map .Connect ++ l) = planned source elapsed_millis l := by
  induction ids with
  | nil => rfl
  | cons id ids ih => exact ih

theorem planned_instructions (source : NodeID) (elapsed_millis : Int) (is : List InstructionParams)
    (l : List Atom) :
    planned source elapsed_millis (is.flatMap (·.atoms) ++ l) =
      (is.filterMap (·.publication source elapsed_millis)).filterMap (·.publication) ++
        planned source elapsed_millis l := by
  induction is with
  | nil => rfl
  | cons i is ih =>
    rw [List.flatMap_cons, List.append_assoc]
    cases i with
    | Connect connectTo =>
      rw [InstructionParams.atoms, planned_connects, ih, List.filterMap_cons_none rfl]
    | SubscribeToTopic topicID =>
      rw [InstructionParams.atoms, List.nil_append, ih, List.filterMap_cons_none rfl]
    | Publish messageID messageSizeBytes topicID =>
      have hpublication : (InstructionParams.Publish messageID messageSizeBytes topicID).publication
          source elapsed_millis =
            some ⟨messageID, source, messageSizeBytes, topicID, elapsed_millis⟩ := rfl
      rw [InstructionParams.atoms, List.singleton_append, planned, ih,
        List.filterMap_cons_some hpublication, List.filterMap_cons]
      unfold MessageInfo.publication
      cases message messageID messageSizeBytes with
      | none => rfl
      | some msg => rfl

/-- A script plans the messages that it publishes. -/
theorem planned_atoms (source : NodeID) (elapsed_millis : Int) (script : List ScriptInstruction) :
    planned source elapsed_millis (atoms script) =
      (script.flatMap (·.publications source)).filterMap (·.publication) := by
  induction script generalizing elapsed_millis with
  | nil => rfl
  | cons i script ih =>
    unfold atoms at ih ⊢
    rw [List.flatMap_cons, List.flatMap_cons, List.filterMap_append, ScriptInstruction.atoms,
      List.cons_append, planned, planned_instructions, ih]
    rfl

/-! ## What a run publishes -/

def Progress.publications (source : NodeID) (p : Progress) : List Publication :=
  p.attempts.filterMap (·.publication source)

section

variable {clock : Clock} {succeeds : Nat → Bool}

theorem Progress.publications_wait_until (source : NodeID) (target : Int) (p : Progress) :
    (p.wait_until clock target).publications source = p.publications source := by
  unfold publications
  rw [wait_until_attempts]

theorem Progress.publications_attempt (source : NodeID) (call : Attempted) (p : Progress) :
    (p.attempt clock call).publications source =
      p.publications source ++
        (Attempt.publication source ⟨call, p.now, p.elapsed_millis⟩).toList := by
  unfold publications attempt
  rw [List.filterMap_append, List.filterMap_cons, List.filterMap_nil]
  cases Attempt.publication source ⟨call, p.now, p.elapsed_millis⟩ <;> rfl

/-- A run publishes what is planned until it stops, and all of it when it does not. -/
theorem Interpreter.publications_each (I : Interpreter) (clock : Clock) (succeeds : Nat → Bool)
    (source : NodeID) (l : List Atom) (p : Progress) :
    ((Fallible.each (I.step clock succeeds) l p).1.publications source <+:
        p.publications source ++ planned source p.elapsed_millis l) ∧
      ((Fallible.each (I.step clock succeeds) l p).2 = none →
        (Fallible.each (I.step clock succeeds) l p).1.publications source =
          p.publications source ++ planned source p.elapsed_millis l) := by
  induction l generalizing p with
  | nil => simp [planned]
  | cons atom l ih =>
    cases atom with
    | Wait elapsedMillis =>
      rw [Fallible.each_cons_go (I.step_wait elapsedMillis p)]
      have hrest := ih ({ p with elapsed_millis := elapsedMillis }.wait_until clock
        (I.deadline elapsedMillis))
      rw [Progress.publications_wait_until, Progress.wait_until_millis] at hrest
      exact hrest
    | Connect target_node_id =>
      have hattempt : (p.attempt clock (.Connect target_node_id)).publications source =
          p.publications source := by
        rw [Progress.publications_attempt]
        exact List.append_nil _
      cases hstop : (I.step clock succeeds (.Connect target_node_id) p).2 with
      | none =>
        have hstep : I.step clock succeeds (.Connect target_node_id) p =
            (p.attempt clock (.Connect target_node_id), none) := Prod.ext rfl hstop
        have hrest := ih (p.attempt clock (.Connect target_node_id))
        rw [hattempt] at hrest
        rw [Fallible.each_cons_go hstep]
        exact hrest
      | some stop =>
        have hstep : I.step clock succeeds (.Connect target_node_id) p =
            (p.attempt clock (.Connect target_node_id), some stop) := Prod.ext rfl hstop
        rw [Fallible.each_cons_stop hstep, hattempt]
        exact ⟨List.prefix_append _ _, by simp⟩
    | Publish messageID messageSizeBytes =>
      cases hmessage : message messageID messageSizeBytes with
      | none =>
        rw [Fallible.each_cons_stop (I.step_panic hmessage p)]
        exact ⟨List.prefix_append _ _, by simp⟩
      | some msg =>
        have hattempt : (p.attempt clock (.Publish msg)).publications source =
            p.publications source ++ [⟨source, msg, p.elapsed_millis⟩] :=
          Progress.publications_attempt source (.Publish msg) p
        have hplanned : planned source p.elapsed_millis (.Publish messageID messageSizeBytes :: l) =
            ⟨source, msg, p.elapsed_millis⟩ :: planned source p.elapsed_millis l := by
          rw [planned, hmessage]
          rfl
        have hstep := I.step_publish clock succeeds hmessage p
        rw [hplanned, List.append_cons, ← hattempt]
        cases hsucceeds : p.next_succeeds succeeds with
        | true =>
          rw [hsucceeds, if_pos rfl] at hstep
          rw [Fallible.each_cons_go hstep]
          exact ih (p.attempt clock (.Publish msg))
        | false =>
          rw [hsucceeds, if_neg Bool.false_ne_true] at hstep
          rw [Fallible.each_cons_stop hstep]
          exact ⟨List.prefix_append _ _, by simp⟩

/-- The time of the last wait is over, and no attempt was made before its time. -/
def Progress.OnTime (p : Progress) : Prop := p.elapsed_millis * 1000000 ≤ p.now ∧ p.InTime

theorem Progress.OnTime.attempt {p : Progress} (h : p.OnTime) (clock : Clock) (call : Attempted) :
    (p.attempt clock call).OnTime := by
  obtain ⟨hnow, hin_time⟩ := h
  refine ⟨?_, hin_time.attempt clock call hnow⟩
  dsimp only [Progress.attempt]
  omega

theorem rust_on_time (atom : Atom) (p : Progress) (h : p.OnTime) :
    (rust.step clock succeeds atom p).1.OnTime := by
  cases atom with
  | Wait elapsedMillis =>
    rw [Interpreter.step_wait]
    constructor
    · rw [Progress.wait_until_millis]
      exact (Progress.le_wait_until clock (rust.deadline elapsedMillis) _).1
    · intro attempt hmem
      rw [Progress.wait_until_attempts] at hmem
      exact h.2 attempt hmem
  | Connect target_node_id => exact h.attempt clock (.Connect target_node_id)
  | Publish messageID messageSizeBytes =>
    cases hmessage : message messageID messageSizeBytes with
    | none =>
      rw [Interpreter.step_panic rust hmessage]
      exact h
    | some msg =>
      rw [Interpreter.step_publish rust clock succeeds hmessage]
      exact h.attempt clock (.Publish msg)

/-- A step goes on when its call does not fail and its message has room for its id. -/
theorem Interpreter.step_goes_on (I : Interpreter) (hsucceeds : ∀ n, succeeds n = true)
    {atom : Atom}
    (hroom : ∀ messageID messageSizeBytes, atom = .Publish messageID messageSizeBytes →
      (message messageID messageSizeBytes).isSome) (p : Progress) :
    (I.step clock succeeds atom p).2 = none := by
  have hnext : p.next_succeeds succeeds = true := hsucceeds _
  cases atom with
  | Wait elapsedMillis => rw [Interpreter.step_wait]
  | Connect target_node_id => simp [Interpreter.step, hnext]
  | Publish messageID messageSizeBytes =>
    obtain ⟨msg, hmessage⟩ := Option.isSome_iff_exists.mp (hroom messageID messageSizeBytes rfl)
    rw [I.step_publish clock succeeds hmessage, hnext, if_pos rfl]

/-! ## A node and its file -/

theorem rs.run_instruction_means {i : InstructionParams} {r : rs.Instruction}
    (h : rs.Instruction.Means i r) (node : Progress) :
    Fallible.each (rust.step clock succeeds) i.atoms node =
      rs.run_instruction clock succeeds r node := by
  cases h with
  | reads h => exact rs.run_instruction_eq h node
  | SubscribeToTopic topic_id => rfl

theorem rs.run_script_instruction_means {i : experiment.ScriptInstruction}
    {r : rs.ScriptInstruction}
    (h : rs.ScriptInstruction.Means i r) (node : Progress) :
    Fallible.each (rust.step clock succeeds) i.atoms node =
      rs.run_script_instruction clock succeeds r node := by
  unfold experiment.ScriptInstruction.atoms run_script_instruction
  rw [Fallible.each_cons_go (rust.step_wait i.elapsedMillis node), Fallible.each_flatMap,
    h.elapsed_millis]
  dsimp only
  rw [rs.wait_eq r.elapsed_millis { node with elapsed_millis := r.elapsed_millis.toNat }]
  apply Fallible.each_congr rs.Instruction.Means _ h.instructions
  intro i r hir node
  exact rs.run_instruction_means hir node

/-- The run of a script, from its start. -/
def rust_run (clock : Clock) (succeeds : Nat → Bool) (script : List ScriptInstruction) :
    Progress × Option Stop :=
  Fallible.each (rust.step clock succeeds) (atoms script) (.start clock)

theorem rs.run_experiment_means {script : List experiment.ScriptInstruction}
    {r : List rs.ScriptInstruction} (h : List.Forall₂ rs.ScriptInstruction.Means script r) :
    rs.run_experiment clock succeeds r = rust_run clock succeeds script := by
  unfold run_experiment rust_run atoms
  rw [Fallible.each_flatMap]
  symm
  apply Fallible.each_congr rs.ScriptInstruction.Means _ h
  intro i r hir node
  exact rs.run_script_instruction_means hir node

theorem rs.main_eq {P F : Type} [Libp2p P] [F64 F] [JsonNumbers F] {config : experiment.DOGParams F}
    {script : List experiment.ScriptInstruction} (hconfig : config.Fits)
    (hscript : ∀ i ∈ script, i.Fits Short Unsigned) {host : Nat} (hhost : host < 2147483648)
    (clock : Clock) (succeeds : Nat → Bool) :
    ∃ x, rs.read_f64 (.float config.target_redundancy) = some x ∧
      (rs.main clock succeeds host (.obj (params_file config.model_dump script)) :
        Option (Config P F × Progress × Option Stop)) =
          some ({ config.config with target_redundancy := x }, rust_run clock succeeds script) := by
  obtain ⟨htext, d, hd⟩ := rs.DOGParams.exists_means.mpr hconfig
  obtain ⟨r, hr⟩ :=
    Json.exists_forall₂.mpr fun i hi => rs.ScriptInstruction.exists_means.mpr (hscript i hi)
  have hread : rs.ExperimentParams.from_json (.obj (params_file config.model_dump script)) =
      some ⟨d, r⟩ := rs.ExperimentParams.from_json_iff.mpr ⟨htext, hd, hr⟩
  obtain ⟨x, hx, hnew⟩ := rs.new_swarm_config_eq (P := P) hd
  refine ⟨x, hx, ?_⟩
  unfold rs.main rs.NodeID.new
  rw [hread, if_pos hhost, Option.bind_eq_bind, Option.bind_some, Option.bind_eq_bind,
    Option.bind_some, hnew, rs.run_experiment_means hr]

theorem rust_run_on_time (script : List ScriptInstruction) :
    (rust_run clock succeeds script).1.InTime := by
  have hstart : (Progress.start clock).OnTime := by
    constructor
    · simp [Progress.start]
    · simp [Progress.InTime, Progress.start]
  exact (Fallible.each_preserves rust_on_time (atoms script) hstart).2

theorem publications_rust_run (clock : Clock) (succeeds : Nat → Bool) (source : NodeID)
    (script : List ScriptInstruction) :
    ((rust_run clock succeeds script).1.publications source <+:
        (script.flatMap (·.publications source)).filterMap (·.publication)) ∧
      ((rust_run clock succeeds script).2 = none →
        (rust_run clock succeeds script).1.publications source =
          (script.flatMap (·.publications source)).filterMap (·.publication)) := by
  have heach := rust.publications_each clock succeeds source (atoms script) (.start clock)
  rw [planned_atoms] at heach
  exact heach

/-- A message has room for its id from eight bytes on. -/
theorem message_isSome {messageID : Nat} {messageSizeBytes : Int} (h : 8 ≤ messageSizeBytes) :
    (message messageID messageSizeBytes).isSome := by
  unfold message write_u64
  rw [List.length_replicate, if_neg (by omega)]
  rfl

theorem mem_atoms_publish (source : NodeID) {script : List ScriptInstruction} {messageID : Nat}
    {messageSizeBytes : Int} (h : .Publish messageID messageSizeBytes ∈ atoms script) :
    ∃ m ∈ script.flatMap (·.publications source), m.size_bytes = messageSizeBytes := by
  unfold atoms at h
  obtain ⟨i, hi, h⟩ := List.mem_flatMap.mp h
  rcases List.mem_cons.mp h with h | h
  · cases h
  · obtain ⟨instruction, hinstruction, h⟩ := List.mem_flatMap.mp h
    cases instruction with
    | Connect connectTo => simp [InstructionParams.atoms] at h
    | SubscribeToTopic topicID => simp [InstructionParams.atoms] at h
    | Publish id size topicID =>
      simp only [InstructionParams.atoms, List.mem_singleton, Atom.Publish.injEq] at h
      obtain ⟨rfl, rfl⟩ := h
      refine ⟨⟨messageID, source, messageSizeBytes, topicID, i.elapsedMillis⟩, ?_, rfl⟩
      exact List.mem_flatMap.mpr ⟨i, hi, List.mem_filterMap.mpr ⟨_, hinstruction, rfl⟩⟩

theorem rust_run_goes_on (hsucceeds : ∀ n, succeeds n = true) (source : NodeID)
    (script : List ScriptInstruction)
    (hroom : ∀ m ∈ script.flatMap (·.publications source), 8 ≤ m.size_bytes) :
    (rust_run clock succeeds script).2 = none := by
  apply Fallible.each_goes_on
  rintro atom hatom p
  apply rust.step_goes_on hsucceeds
  rintro messageID messageSizeBytes rfl
  obtain ⟨m, hm, rfl⟩ := mem_atoms_publish source hatom
  exact message_isSome (hroom m hm)

end

/-! ## The nodes of an experiment -/

section

variable {C : Type}

theorem Experiment.mem_nodes_by_idx {exp : Experiment C} {nid : NodeID} {node : Node C}
    (h : exp.nodes_by_idx.lookup nid = some node) : node ∈ exp.nodes ∧ node.idx = nid := by
  suffices hfold : ∀ (nodes : List (Node C)) (t : Table NodeID (Node C)),
      (nodes.foldl (fun t n => t.put n.idx n) t).lookup nid = some node →
        (node ∈ nodes ∧ node.idx = nid) ∨ t.lookup nid = some node by
    rcases hfold exp.nodes ∅ h with hmem | hnone
    · exact hmem
    · cases hnone
  intro nodes
  induction nodes with
  | nil => exact fun t h => .inr h
  | cons n nodes ih =>
    intro t h
    rcases ih _ h with ⟨hmem, hidx⟩ | hput
    · exact .inl ⟨List.mem_cons_of_mem _ hmem, hidx⟩
    · rw [Table.lookup_put] at hput
      split at hput
      · rename_i hnid
        cases hput
        exact .inl ⟨List.mem_cons_self, hnid.symm⟩
      · exact .inr hput

/-- The parameters of a node have the configuration of the node. -/
theorem Experiment.config_of_finalize {exp : Experiment C}
    {params : Table NodeID (ExperimentParams C)} {phases : List PhaseInfo} {time_sec : Int}
    (h : exp.finalize = some (params, phases, time_sec)) {nid : NodeID} {p : ExperimentParams C}
    (hp : params.lookup nid = some p) :
      ∃ node ∈ exp.nodes, node.idx = nid ∧ node.config = p.config := by
  unfold finalize at h
  simp only [Option.bind_eq_bind, Option.bind_eq_some_iff, Option.some.injEq, Prod.mk.injEq] at h
  obtain ⟨_, -, result, hresult, rfl, -, -⟩ := h
  obtain ⟨e, hkey, he⟩ := Json.exists_forall₂.mp ⟨_, (Table.traverse_entries hresult).flip⟩ _
    (List.of_mem_dlookup hp)
  obtain ⟨node, hnode, hconfig⟩ := Option.map_eq_some_iff.mp he
  obtain ⟨hmem, hidx⟩ := mem_nodes_by_idx hnode
  exact ⟨node, hmem, hidx.trans hkey.symm, congrArg ExperimentParams.config hconfig⟩

/-- A loop over nodes leaves the nodes of the experiment as they are when each of its turns does. -/
theorem Experiment.nodes_foldlM {turn : Experiment C → Node C → Option (Experiment C)}
    (hturn : ∀ exp node exp', turn exp node = some exp' → exp'.nodes = exp.nodes)
    {nodes : List (Node C)} {exp exp' : Experiment C} (h : nodes.foldlM turn exp = some exp') :
    exp'.nodes = exp.nodes := by
  induction nodes generalizing exp with
  | nil =>
    cases h
    rfl
  | cons node nodes ih =>
    rw [List.foldlM_cons, Option.bind_eq_bind, Option.bind_eq_some_iff] at h
    obtain ⟨next, hfirst, hrest⟩ := h
    exact (ih hrest).trans (hturn exp node next hfirst)

variable [DecidableEq C]

theorem Experiment.nodes_activate_node {exp exp' : Experiment C} {node : Node C}
    (h : exp.activate_node node = some exp') : exp'.nodes = exp.nodes := by
  unfold activate_node at h
  split at h
  · cases h
    rfl
  · cases h

theorem Experiment.nodes_deactivate_node {exp exp' : Experiment C} {node : Node C}
    (h : exp.deactivate_node node = some exp') : exp'.nodes = exp.nodes := by
  unfold deactivate_node at h
  split at h
  · cases h
    rfl
  · cases h

/-- No call changes the nodes of an experiment. -/
theorem Scenario.nodes_step {s s' : Scenario C} {call : Call C} (h : s.step call = some s') :
    s'.exp.nodes = s.exp.nodes := by
  unfold Scenario.step at h
  split at h
  · obtain ⟨exp, hexp, rfl⟩ := Option.map_eq_some_iff.mp h
    exact Experiment.nodes_foldlM (fun _ _ _ => Experiment.nodes_activate_node) hexp
  · obtain ⟨exp, hexp, rfl⟩ := Option.map_eq_some_iff.mp h
    exact Experiment.nodes_foldlM (fun _ _ _ => Experiment.nodes_deactivate_node) hexp
  · obtain ⟨exp, hexp, rfl⟩ := Option.map_eq_some_iff.mp h
    unfold Experiment.setup_node at hexp
    split at hexp
    · cases hexp
      rfl
    · cases hexp
  · cases h
    rfl
  · obtain ⟨added, -, rfl⟩ := Option.map_eq_some_iff.mp h
    rfl
  · cases h
    rfl
  · cases h

theorem Scenario.nodes_of_run {nodes : List (Node C)} {calls : List (Call C)} {s : Scenario C}
    (hrun : (Machine.ofFun (· = start nodes) step).Run (start nodes) calls s) :
    s.exp.nodes = (start nodes).exp.nodes :=
  hrun.invariant (p := fun s => s.exp.nodes = (start nodes).exp.nodes) rfl
    fun _ _ _ hs hstep => (nodes_step hstep).trans hs

theorem Scenario.length_nodes_of_run {nodes : List (Node C)} {calls : List (Call C)}
    {s : Scenario C}
    (hrun : (Machine.ofFun (· = start nodes) step).Run (start nodes) calls s) :
    s.exp.nodes.length = nodes.length := by
  rw [nodes_of_run hrun]
  exact List.length_insertionSort _ _

theorem Scenario.mem_nodes_of_run {nodes : List (Node C)} {calls : List (Call C)} {s : Scenario C}
    (hrun : (Machine.ofFun (· = start nodes) step).Run (start nodes) calls s) {node : Node C}
    (h : node ∈ s.exp.nodes) : node ∈ nodes := by
  rw [nodes_of_run hrun] at h
  exact (List.mem_insertionSort _).mp h

end

/-- What all the scripts plan, node by node. -/
theorem planned_by_keys {C : Type} {params : Table NodeID (ExperimentParams C)}
    {t : Table NodeID (List ScriptInstruction)}
    (h : ∀ nid p, params.lookup nid = some p → p.script = t.under nid) :
    (params.keys.flatMap fun nid =>
        ((t.under nid).flatMap (·.publications nid)).filterMap (·.publication)) =
      (published_by params).filterMap (·.publication) := by
  unfold published_by AList.keys List.keys
  rw [List.filterMap_flatMap, List.flatMap_map]
  apply List.flatMap_congr
  intro e he
  rw [h e.1 e.2 (AList.mem_lookup_iff.mpr he)]

/-! ## What is written to the files -/

/-- The files of a scenario: each has the configuration of a node and the script that was made for
it, and what the scripts publish is what the phases note. -/
structure Written {C : Type} (nodes : List (Node C))
    (instructions : Table NodeID (List ScriptInstruction))
    (params : Table NodeID (ExperimentParams C)) (phases : List PhaseInfo) : Prop where
  node : ∀ nid p, params.lookup nid = some p →
    ∃ node ∈ nodes, node.idx = nid ∧ node.config = p.config
  script : ∀ nid p, params.lookup nid = some p → p.script = instructions.under nid
  messages : (published_by params).Perm (phases.flatMap (·.messages))

theorem Scenario.written {C : Type} [DecidableEq C] {nodes : List (Node C)}
    {calls : List (Call C)} {s : Scenario C} {params : Table NodeID (ExperimentParams C)}
    {phases : List PhaseInfo} {time_sec : Int} (hnodup : (nodes.map (·.idx)).Nodup)
    (hrun : (Machine.ofFun (· = start nodes) step).Run (start nodes) calls s)
    (hcalls : ∀ call ∈ calls, call.NonNegative)
    (hfinalize : s.exp.finalize = some (params, phases, time_sec)) :
    Written nodes s.exp.instructions params phases := by
  obtain ⟨hfits, -, -⟩ := fits_of_run hnodup hrun hcalls
  obtain ⟨rfl, -, hentries⟩ := Experiment.finalize_cases hfinalize
  refine ⟨?_, fun nid p hp => script_eq_under hentries hp, ?_⟩
  · intro nid p hp
    obtain ⟨node, hmem, hnode⟩ := Experiment.config_of_finalize hfinalize hp
    exact ⟨node, mem_nodes_of_run hrun hmem, hnode⟩
  · rw [published_by_eq hentries]
    exact hfits.exp.published

/-! ## What the hosts make of the files -/

/-- The host of a node in Rust: it is given the file with its own number. -/
def Host.rust (i : Nat) : Host := { name := i, path := DOGNode.binary, params := i }

theorem hosts_eq {F : Type} (nodes : List (Node (DOGParams F))) :
    generate_shadow_config (nodes.map (·.binary)) = (List.range nodes.length).map Host.rust := by
  unfold generate_shadow_config
  apply List.ext_getElem
  · simp
  · intro i hi hi'
    simp [Node.binary, Host.rust]

variable {P F : Type} [Libp2p P] [F64 F] [JsonNumbers F] [DecidableEq F]

/-- What the process of a host publishes. -/
def Host.publications (ran : Option (Config P F × Progress × Option Stop)) (host : Host) :
    List Publication :=
  ran.elim [] fun r => r.2.1.publications host.name

section

variable {nodes : List (Node (DOGParams F))}
  {params : Table NodeID (ExperimentParams (DOGParams F))} {phases : List PhaseInfo}
  {instructions : Table NodeID (List ScriptInstruction)}

omit [DecidableEq F] in
/-- Without a file the process ends. -/
theorem Host.run_none (clock : Clock) (succeeds : Nat → Bool) {i : Nat} (hi : (i : Int) ∉ params) :
    ((Host.rust i).run clock succeeds (params_files params) :
      Option (Config P F × Progress × Option Stop)) = none := by
  change Option.bind ((params.lookup (i : Int)).map _) _ = _
  rw [AList.lookup_eq_none.mpr hi]
  rfl

omit [DecidableEq F] in
/-- A host whose file is there runs the script of the node with its number, with the configuration
of this node. -/
theorem Written.run_eq (h : Written nodes instructions params phases)
    (hconfigs : ∀ node ∈ nodes, node.config.Fits)
    (hscripts : ∀ nid p, params.lookup nid = some p → ∀ i ∈ p.script, i.Fits Short Unsigned)
    {i : Nat} (hi : i < 2147483648) (hmem : (i : Int) ∈ params) (clock : Clock)
    (succeeds : Nat → Bool) :
    ∃ node ∈ nodes, node.idx = i ∧
      ∃ x, rs.read_f64 (.float node.config.target_redundancy) = some x ∧
        ((Host.rust i).run clock succeeds (params_files params) :
          Option (Config P F × Progress × Option Stop)) =
            some ({ node.config.config with target_redundancy := x },
              rust_run clock succeeds (instructions.under (i : Int))) := by
  obtain ⟨p, hp⟩ := Table.mem_iff_lookup.mp hmem
  obtain ⟨node, hnode, hidx, hconfig⟩ := h.node i p hp
  obtain ⟨x, hx, hmain⟩ := rs.main_eq (P := P) (hconfigs node hnode) (hscripts i p hp) hi clock
    succeeds
  refine ⟨node, hnode, hidx, x, hx, ?_⟩
  rw [← h.script i p hp, ← hmain, hconfig]
  change Option.bind ((params.lookup (i : Int)).map _) _ = _
  rw [hp]
  rfl

omit [F64 F] [JsonNumbers F] [DecidableEq F] in
/-- The indices of the nodes are the numbers of the hosts. -/
theorem Written.mem_range (h : Written nodes instructions params phases)
    (hindices : (nodes.map (·.idx)).Perm ((List.range nodes.length).map Int.ofNat)) {nid : NodeID}
    (hnid : nid ∈ params) : nid ∈ (List.range nodes.length).map Int.ofNat := by
  obtain ⟨p, hp⟩ := Table.mem_iff_lookup.mp hnid
  obtain ⟨node, hnode, rfl, -⟩ := h.node nid p hp
  exact hindices.mem_iff.mp (List.mem_map_of_mem hnode)

omit [Libp2p P] [F64 F] [JsonNumbers F] [DecidableEq F] in
/-- The hosts publish what the scripts of the files do, in another order. -/
theorem Host.publications_perm {n : Nat} {ran : Host → Option (Config P F × Progress × Option Stop)}
    {run : NodeID → Progress × Option Stop}
    (hkeys : ∀ nid ∈ params, nid ∈ (List.range n).map Int.ofNat)
    (hran : ∀ i < n, (i : Int) ∈ params → ∃ config, ran (Host.rust i) = some (config, run i))
    (hnone : ∀ i : Nat, (i : Int) ∉ params → ran (Host.rust i) = none) :
    (((List.range n).map Host.rust).flatMap fun host => host.publications (ran host)).Perm
      (params.keys.flatMap fun nid => (run nid).1.publications nid) := by
  have hone : ∀ i ∈ List.range n, (Host.rust i).publications (ran (Host.rust i)) =
      if Int.ofNat i ∈ params then (run i).1.publications i else [] := by
    intro i hi
    by_cases hmem : Int.ofNat i ∈ params
    · obtain ⟨config, hsome⟩ := hran i (List.mem_range.mp hi) hmem
      rw [if_pos hmem, hsome]
      rfl
    · rw [if_neg hmem, hnone i hmem]
      rfl
  have hnodup : ((List.range n).map Int.ofNat).Nodup :=
    List.nodup_range.map fun i j h => Int.ofNat_inj.mp h
  have hkeyed := Table.flatMap_keys_perm hnodup hkeys fun nid => (run nid).1.publications nid
  rw [List.flatMap_map] at hkeyed
  rw [List.flatMap_map, List.flatMap_congr hone]
  exact hkeyed

end

/-- What a scenario writes to the files of its nodes makes their hosts publish the messages that its
phases note, and nothing else, wherever their runs stop. With indices from zero on, each file is
read by the host of its node, which runs with the configuration of the node, up to what serde_json
makes of the target redundancy; a message is published by its source once and not before its time,
and all of them are when no run stops. None does when no call fails and each message has room for
its id. -/
theorem the_nodes_publish_the_messages_of_the_phases {nodes : List (Node (DOGParams F))}
    {calls : List (Call (DOGParams F))} {s : Scenario (DOGParams F)}
    {params : Table NodeID (ExperimentParams (DOGParams F))} {phases : List PhaseInfo}
    {time_sec : Int}
    (hindices : (nodes.map (·.idx)).Perm ((List.range nodes.length).map Int.ofNat))
    (hcount : nodes.length ≤ 2147483648)
    (hrun : (Machine.ofFun (· = Scenario.start nodes) Scenario.step).Run (Scenario.start nodes)
      calls s)
    (hcalls : ∀ call ∈ calls, call.NonNegative)
    (hfinalize : s.exp.finalize = some (params, phases, time_sec))
    (hconfigs : ∀ node ∈ nodes, node.config.Fits)
    (hscripts : ∀ nid p, params.lookup nid = some p → ∀ i ∈ p.script, i.Fits Short Unsigned)
    (clock : Nat → Clock) (succeeds : Nat → Nat → Bool) :
    let hosts := generate_shadow_config (s.exp.nodes.map (·.binary))
    let ran := fun host : Host =>
      (host.run (clock host.name) (succeeds host.name) (params_files params) :
      Option (Config P F × Progress × Option Stop))
    (∀ nid ∈ params, ∃ host ∈ hosts, host.params = nid) ∧
    (∀ host ∈ hosts, host.params ∈ params → ∃ node ∈ nodes, node.idx = host.name ∧
      ∃ x, rs.read_f64 (.float node.config.target_redundancy) = some x ∧
      ∃ r, ran host = some ({ node.config.config with target_redundancy := x }, r) ∧ r.1.InTime) ∧
    (hosts.flatMap fun host => host.publications (ran host)).Subperm
      ((phases.flatMap (·.messages)).filterMap (·.publication)) ∧
    ((∀ host ∈ hosts, ∀ r, ran host = some r → r.2.2 = none) →
      (hosts.flatMap fun host => host.publications (ran host)).Perm
        ((phases.flatMap (·.messages)).filterMap (·.publication))) ∧
    ((∀ i n, succeeds i n = true) → (∀ m ∈ phases.flatMap (·.messages), 8 ≤ m.size_bytes) →
      ∀ host ∈ hosts, ∀ r, ran host = some r → r.2.2 = none) := by
  intro hosts ran
  have hnodup : ((List.range nodes.length).map Int.ofNat).Nodup :=
    List.nodup_range.map fun i j h => Int.ofNat_inj.mp h
  have hwritten := Scenario.written (hindices.nodup_iff.mpr hnodup) hrun hcalls hfinalize
  have hhosts : hosts = (List.range nodes.length).map Host.rust := by
    rw [← Scenario.length_nodes_of_run hrun]
    exact hosts_eq s.exp.nodes
  set run := fun nid : NodeID => rust_run (clock nid.toNat) (succeeds nid.toNat)
    (s.exp.instructions.under nid) with hrust
  have hran : ∀ i < nodes.length, (i : Int) ∈ params → ∃ node ∈ nodes, node.idx = i ∧
      ∃ x, rs.read_f64 (.float node.config.target_redundancy) = some x ∧
        ran (Host.rust i) = some ({ node.config.config with target_redundancy := x }, run i) :=
    fun i hi hmem => hwritten.run_eq hconfigs hscripts (Nat.lt_of_lt_of_le hi hcount) hmem (clock i)
      (succeeds i)
  have hkeys := fun nid (hnid : nid ∈ params) => hwritten.mem_range hindices hnid
  have hpublished : (hosts.flatMap fun host => host.publications (ran host)).Perm
      (params.keys.flatMap fun nid => (run nid).1.publications nid) := by
    rw [hhosts]
    apply Host.publications_perm hkeys
    · intro i hi hmem
      obtain ⟨_, -, -, _, -, hsome⟩ := hran i hi hmem
      exact ⟨_, hsome⟩
    · exact fun i hmem => Host.run_none (clock i) (succeeds i) hmem
  have hplans := fun nid : NodeID => publications_rust_run (clock nid.toNat) (succeeds nid.toNat)
    nid (s.exp.instructions.under nid)
  have hplanned := planned_by_keys hwritten.script
  refine ⟨?_, ?_, ?_, ?_, ?_⟩
  · intro nid hnid
    obtain ⟨i, hi, rfl⟩ := List.mem_map.mp (hkeys nid hnid)
    rw [hhosts]
    exact ⟨_, List.mem_map_of_mem hi, rfl⟩
  · intro host hhost hmem
    rw [hhosts] at hhost
    obtain ⟨i, hi, rfl⟩ := List.mem_map.mp hhost
    obtain ⟨node, hnode, hidx, x, hx, hsome⟩ := hran i (List.mem_range.mp hi) hmem
    exact ⟨node, hnode, hidx, x, hx, run i, hsome, rust_run_on_time _⟩
  · have hsub := List.Sublist.flatMap_right params.keys fun nid _ => (hplans nid).1.sublist
    rw [hplanned] at hsub
    exact hpublished.subperm.trans (hsub.subperm.trans (hwritten.messages.filterMap _).subperm)
  · intro hends
    have hall : (params.keys.flatMap fun nid => (run nid).1.publications nid) =
        (published_by params).filterMap (·.publication) := by
      rw [← hplanned]
      apply List.flatMap_congr
      intro nid hnid
      have hmem := AList.mem_keys.mpr hnid
      obtain ⟨i, hi, rfl⟩ := List.mem_map.mp (hkeys nid hmem)
      obtain ⟨_, -, -, _, -, hsome⟩ := hran i (List.mem_range.mp hi) hmem
      exact (hplans i).2 (hends _ (hhosts ▸ List.mem_map_of_mem hi) _ hsome)
    exact hpublished.trans (hall ▸ hwritten.messages.filterMap _)
  · intro hsucceeds hroom host hhost r hr
    rw [hhosts] at hhost
    obtain ⟨i, hi, rfl⟩ := List.mem_map.mp hhost
    by_cases hmem : (i : Int) ∈ params
    · obtain ⟨_, -, -, _, -, hsome⟩ := hran i (List.mem_range.mp hi) hmem
      obtain ⟨p, hp⟩ := Table.mem_iff_lookup.mp hmem
      rw [hsome] at hr
      cases hr
      apply rust_run_goes_on (hsucceeds i) i
      intro m hm
      rw [← hwritten.script i p hp] at hm
      exact hroom m (hwritten.messages.mem_iff.mp
        (List.mem_flatMap.mpr ⟨⟨_, p⟩, AList.mem_lookup_iff.mp hp, hm⟩))
    · have hnone : ran (Host.rust i) = none := Host.run_none (clock i) (succeeds i) hmem
      rw [hnone] at hr
      cases hr

/-! ## Three nodes and their files -/

/-- A rational is read as it was written. -/
instance : JsonNumbers Rat where
  finite _ := true
  serde_json
    | .float x => some x
    | .int n => some n
    | _ => none
  encoding_json
    | .float x => some x
    | .int n => some n
    | _ => none
  serde_json_reads _ _ := rfl

/-- A node with the parameters of the crate. -/
def example_dog_node (idx : NodeID) : Node (DOGParams Rat) := { idx, config := .default }

/-- Two nodes publish a message each, then a third node takes the place of one of them. -/
def example_dog_calls : List (Call (DOGParams Rat)) :=
  [.activate_nodes [example_dog_node 0, example_dog_node 1],
   .setup_node (example_dog_node 0) [1] ["default"],
   .new_phase 100 50,
   .add_message 10 1 1024 "default",
   .add_message 0 0 1024 "default",
   .apply_phase,
   .deactivate_nodes [example_dog_node 0],
   .activate_nodes [example_dog_node 2],
   .setup_node (example_dog_node 2) [1] ["default"],
   .new_phase 20 5,
   .add_message 7 2 512 "default",
   .apply_phase]

/-- Nothing fails, and the hosts of the three nodes publish their three messages, with the
configuration of the crate. -/
theorem three_nodes_publish_three_messages :
    ∃ params : Table NodeID (ExperimentParams (DOGParams Rat)),
      let hosts := generate_shadow_config (([0, 1, 2].map example_dog_node).map (·.binary))
      let ran := fun host : Host => (host.run instant (fun _ => true) (params_files params) :
        Option (Config libp2p_dog.Sample.Peer Rat × Progress × Option Stop))
      (∀ host ∈ hosts, host.params ∈ params →
        ∃ r : Progress × Option Stop, ran host = some (Config.default, r)) ∧
      (hosts.flatMap fun host => host.publications (ran host)).Perm
        ((example_phases.flatMap (·.messages)).filterMap (·.publication)) := by
  have hrun : (Machine.exec Scenario.step (Scenario.start ([2, 0, 1].map example_dog_node))
      example_dog_calls).map (fun s => (s.exp.nodes, s.exp.finalize.map fun r =>
        (r.2, decide (∀ e ∈ r.1.entries, ∀ i ∈ e.2.script, i.Fits Short Unsigned)))) =
      some ([0, 1, 2].map example_dog_node, some ((example_phases, 1), true)) := by
    decide +kernel
  obtain ⟨s, hrun, hsee⟩ := Machine.exists_run_of_exec hrun
  obtain ⟨hnodes, hsee⟩ := Prod.mk.inj hsee
  obtain ⟨⟨params, phases, time_sec⟩, hfinalize, hrest⟩ := Option.map_eq_some_iff.mp hsee
  simp only [Prod.mk.injEq, decide_eq_true_eq] at hrest
  obtain ⟨⟨rfl, rfl⟩, hscripts⟩ := hrest
  obtain ⟨-, hmain, -, hall, hends⟩ := the_nodes_publish_the_messages_of_the_phases
    (P := libp2p_dog.Sample.Peer) (by decide) (by decide) hrun
    (by simp [example_dog_calls, Call.NonNegative]) hfinalize
    (by
      intro node hnode
      obtain ⟨idx, -, rfl⟩ := List.mem_map.mp hnode
      exact default_fits rfl)
    (fun nid p hp => hscripts ⟨nid, p⟩ (AList.mem_lookup_iff.mp hp))
    (fun _ => instant) (fun _ _ => true)
  rw [hnodes] at hmain hall hends
  refine ⟨params, ?_, hall (hends (fun _ _ => rfl) (by decide))⟩
  intro host hhost hmem
  obtain ⟨node, hnode, -, x, hx, r, hr, -⟩ := hmain host hhost hmem
  obtain ⟨idx, -, rfl⟩ := List.mem_map.mp hnode
  cases hx
  exact ⟨r, hr.trans (by rw [← default_config]; rfl)⟩

end experiment
