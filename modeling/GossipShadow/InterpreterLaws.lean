-- Laws of the two interpreters: both are one program over the calls and the
-- waits of a script, and they differ in what a failed connect does and in how
-- long they wait.
import GossipShadow.Interpreters

namespace experiment

/-! ## Reading a script -/

/-- What the interpreter in Rust reads of a Connect or a Publish. -/
inductive rs.Instruction.Reads : InstructionParams → rs.Instruction → Prop
  | Connect (connect_to : List Int32) :
      Reads (.Connect (connect_to.map Int32.toInt)) (.Connect connect_to)
  | Publish (message_id message_size_bytes : UInt64) (topic_id : String) :
      Reads (.Publish message_id.toNat message_size_bytes.toNat topic_id)
        (.Publish message_id message_size_bytes topic_id)

structure rs.ScriptInstruction.Reads (i : experiment.ScriptInstruction)
    (r : rs.ScriptInstruction) : Prop where
  elapsed_millis : i.elapsedMillis = r.elapsed_millis.toNat
  instructions : List.Forall₂ rs.Instruction.Reads i.instructions r.instructions

/-- What the interpreter in Go reads of a Connect or a Publish. -/
inductive go.Instruction.Reads : InstructionParams → go.Instruction → Prop
  | Connect (ConnectTo : List Int64) :
      Reads (.Connect (ConnectTo.map Int64.toInt)) (.ConnectInstruction ConnectTo)
  | Publish {messageID : Nat} {MessageID MessageSizeBytes : Int64} {TopicID : String}
      (id : (messageID : Int) = MessageID.toInt) :
      Reads (.Publish messageID MessageSizeBytes.toInt TopicID)
        (.PublishInstruction MessageID MessageSizeBytes TopicID)

structure go.ScriptInstruction.Reads (i : experiment.ScriptInstruction)
    (g : go.ScriptInstruction) : Prop where
  elapsed_millis : i.elapsedMillis = g.ElapsedMillis.toInt
  instructions : List.Forall₂ go.Instruction.Reads i.instructions g.Instructions

/-! ## One program -/

/-- A step of a script: to wait, or to make a call. -/
inductive Atom where
  | Wait (elapsedMillis : Int)
  | Connect (target_node_id : Int)
  | Publish (messageID : Nat) (messageSizeBytes : Int)
deriving DecidableEq, Repr

def InstructionParams.atoms : InstructionParams → List Atom
  | .Connect connectTo => connectTo.map .Connect
  | .Publish messageID messageSizeBytes _ => [.Publish messageID messageSizeBytes]
  | .SubscribeToTopic _ => []

def ScriptInstruction.atoms (i : ScriptInstruction) : List Atom :=
  .Wait i.elapsedMillis :: i.instructions.flatMap (·.atoms)

def atoms (script : List ScriptInstruction) : List Atom := script.flatMap (·.atoms)

/-- The message of a Publish, when there is room for its id. -/
def message (messageID : Nat) (messageSizeBytes : Int) : Option (List UInt8) :=
  write_u64 (List.replicate messageSizeBytes.toNat 0) (UInt64.ofNat messageID)

/-- What an interpreter has of its own: until when it waits, in nanoseconds since its start, and
whether a connect that fails stops it. -/
structure Interpreter where
  deadline : Int → Int
  connect_stops : Bool

def rust : Interpreter where
  deadline elapsedMillis := elapsedMillis * 1000000
  connect_stops := true

def golang : Interpreter where
  deadline elapsedMillis := (Int64.ofInt (elapsedMillis * 1000000)).toInt
  connect_stops := false

def Progress.wait_until (clock : Clock) (target : Int) (p : Progress) : Progress :=
  if (p.now : Int) < target then p.sleep clock (target - p.now).toNat else p

def Interpreter.step (I : Interpreter) (clock : Clock) (succeeds : Nat → Bool) (atom : Atom)
    (p : Progress) : Progress × Option Stop :=
  match atom with
  | .Wait elapsedMillis =>
    ({ p with elapsed_millis := elapsedMillis }.wait_until clock (I.deadline elapsedMillis), none)
  | .Connect target_node_id =>
    (p.attempt clock (.Connect target_node_id),
      if I.connect_stops && !p.next_succeeds succeeds then some .Error else none)
  | .Publish messageID messageSizeBytes =>
    match message messageID messageSizeBytes with
    | none => (p, some .Panic)
    | some msg => (p.attempt clock (.Publish msg),
        if p.next_succeeds succeeds then none else some .Error)

section

variable {clock : Clock} {succeeds : Nat → Bool}

theorem Interpreter.step_wait (I : Interpreter) (elapsedMillis : Int) (p : Progress) :
    I.step clock succeeds (.Wait elapsedMillis) p =
      ({ p with elapsed_millis := elapsedMillis }.wait_until clock (I.deadline elapsedMillis),
        none) :=
  rfl

theorem Interpreter.step_panic (I : Interpreter) {messageID : Nat} {messageSizeBytes : Int}
    (h : message messageID messageSizeBytes = none) (p : Progress) :
    I.step clock succeeds (.Publish messageID messageSizeBytes) p = (p, some .Panic) := by
  simp only [step, h]

theorem Interpreter.step_publish (I : Interpreter) (clock : Clock) (succeeds : Nat → Bool)
    {messageID : Nat} {messageSizeBytes : Int}
    {msg : List UInt8} (h : message messageID messageSizeBytes = some msg) (p : Progress) :
    I.step clock succeeds (.Publish messageID messageSizeBytes) p =
      (p.attempt clock (.Publish msg),
        if p.next_succeeds succeeds then none else some .Error) := by
  simp only [step, h]

/-- The message that is read from the values of a Publish. -/
theorem message_eq (message_id : UInt64) (size : Nat) :
    message message_id.toNat size = write_u64 (List.replicate size 0) message_id := by
  unfold message
  rw [Int.toNat_natCast, UInt64.ofNat_toNat]

/-! ## The interpreter in Rust -/

theorem rs.run_instruction_eq {i : InstructionParams} {r : rs.Instruction}
    (h : rs.Instruction.Reads i r) (node : Progress) :
    Fallible.each (rust.step clock succeeds) i.atoms node =
      rs.run_instruction clock succeeds r node := by
  cases h with
  | Connect connect_to =>
    rw [InstructionParams.atoms, List.map_map, Fallible.each_map]
    unfold run_instruction
    congr 1
    funext target_node_id node
    cases hsucceeds : node.next_succeeds succeeds <;> simp [Interpreter.step, rust, hsucceeds]
  | Publish message_id message_size_bytes topic_id =>
    rw [InstructionParams.atoms, Fallible.each_singleton]
    simp only [Interpreter.step, run_instruction, message_eq]
    cases write_u64 (List.replicate message_size_bytes.toNat 0) message_id with
    | none => rfl
    | some msg => cases hsucceeds : node.next_succeeds succeeds <;> simp

theorem rs.wait_eq (elapsed_millis : UInt64) (p : Progress) :
    (if p.now < elapsed_millis.toNat * 1000000 then
        p.sleep clock (elapsed_millis.toNat * 1000000 - p.now) else p) =
      p.wait_until clock (rust.deadline elapsed_millis.toNat) := by
  have hdeadline : rust.deadline elapsed_millis.toNat =
      ((elapsed_millis.toNat * 1000000 : Nat) : Int) := by
    simp [rust]
  unfold Progress.wait_until
  rw [hdeadline]
  generalize elapsed_millis.toNat * 1000000 = target_time
  by_cases hwait : p.now < target_time
  · rw [if_pos hwait, if_pos (by omega)]
    congr 1
    omega
  · rw [if_neg hwait, if_neg (by omega)]

theorem rs.run_script_instruction_eq {i : experiment.ScriptInstruction} {r : rs.ScriptInstruction}
    (h : rs.ScriptInstruction.Reads i r) (node : Progress) :
    Fallible.each (rust.step clock succeeds) i.atoms node =
      rs.run_script_instruction clock succeeds r node := by
  unfold experiment.ScriptInstruction.atoms run_script_instruction
  rw [Fallible.each_cons_go (rust.step_wait i.elapsedMillis node), Fallible.each_flatMap,
    h.elapsed_millis]
  dsimp only
  rw [rs.wait_eq r.elapsed_millis { node with elapsed_millis := r.elapsed_millis.toNat }]
  apply Fallible.each_congr rs.Instruction.Reads _ h.instructions
  intro i r hir node
  exact run_instruction_eq hir node

theorem rs.run_experiment_eq {script : List experiment.ScriptInstruction}
    {r : List rs.ScriptInstruction} (h : List.Forall₂ rs.ScriptInstruction.Reads script r) :
    rs.run_experiment clock succeeds r =
      Fallible.each (rust.step clock succeeds) (atoms script) (.start clock) := by
  unfold run_experiment atoms
  rw [Fallible.each_flatMap]
  symm
  apply Fallible.each_congr rs.ScriptInstruction.Reads _ h
  intro i r hir node
  exact run_script_instruction_eq hir node

/-! ## The interpreter in Go -/

namespace go

/-- A topic that was not joined before can be joined. -/
def PubSub.Joins (pubsub : PubSub) : Prop :=
  ∀ topics topicStr, topicStr ∉ topics → pubsub.Join topics topicStr = true

theorem getTopic_joins {pubsub : PubSub} (hjoins : pubsub.Joins) (topicStr : String)
    (n : scriptedNode) :
    ∃ topics, getTopic pubsub topicStr n = ({ n with topics }, true) := by
  unfold getTopic
  by_cases hmem : topicStr ∈ n.topics
  · exact ⟨n.topics, by rw [if_pos hmem]⟩
  · rw [if_neg hmem, if_pos (hjoins n.topics topicStr hmem)]
    exact ⟨_, rfl⟩

/-- The message that is read from the values of a Publish. -/
theorem message_eq {messageID : Nat} {MessageID : Int64} (hid : (messageID : Int) = MessageID.toInt)
    (MessageSizeBytes : Int64) :
    message messageID MessageSizeBytes.toInt =
      if MessageSizeBytes < 0 then none
      else write_u64 (List.replicate MessageSizeBytes.toNatClampNeg 0) MessageID.toUInt64 := by
  have hnonneg : 0 ≤ MessageID := by
    rw [Int64.le_iff_toInt_le, ← hid]
    exact Int.natCast_nonneg messageID
  have hvalue : MessageID.toUInt64.toNat = messageID := by
    rw [Int64.toNat_toUInt64_of_le hnonneg, Int64.toNatClampNeg, ← hid, Int.toNat_natCast]
  unfold message
  rw [← hvalue, UInt64.ofNat_toNat]
  by_cases hneg : MessageSizeBytes < 0
  · have hzero : MessageSizeBytes.toInt.toNat = 0 := by
      rw [Int64.lt_iff_toInt_lt] at hneg
      exact Int.toNat_of_nonpos (Int.le_of_lt hneg)
    rw [if_pos hneg, hzero]
    rfl
  · rw [if_neg hneg, Int64.toNatClampNeg]

theorem runInstruction_eq {pubsub : PubSub} (hjoins : pubsub.Joins) {i : InstructionParams}
    {g : go.Instruction} (h : go.Instruction.Reads i g) (n : scriptedNode) :
    Fallible.each (golang.step clock succeeds) i.atoms n.toProgress =
      ((runInstruction clock succeeds pubsub g n).1.toProgress,
        (runInstruction clock succeeds pubsub g n).2) := by
  cases h with
  | Connect ConnectTo =>
    rw [InstructionParams.atoms, List.map_map, Fallible.each_map]
    unfold runInstruction
    refine Fallible.each_sim Eq scriptedNode.toProgress ?_
      (List.forall₂_refl ConnectTo) n
    rintro targetNodeId _ rfl n
    simp [Interpreter.step, golang, attempt]
  | @Publish messageID MessageID MessageSizeBytes TopicID hid =>
    obtain ⟨topics, htopic⟩ := getTopic_joins hjoins TopicID n
    rw [InstructionParams.atoms, Fallible.each_singleton]
    simp only [Interpreter.step, runInstruction, htopic, message_eq hid]
    by_cases hneg : MessageSizeBytes < 0
    · simp [hneg]
    · simp only [if_neg hneg]
      cases write_u64 (List.replicate MessageSizeBytes.toNatClampNeg 0) MessageID.toUInt64 with
      | none => rfl
      | some msg =>
        cases hsucceeds : n.toProgress.next_succeeds succeeds <;> simp [attempt]

theorem wait_eq (target : Int) (n : scriptedNode) :
    (if target - n.now > 0
      then { n with toProgress := n.toProgress.sleep clock (target - n.now).toNat }
      else n).toProgress = n.toProgress.wait_until clock target := by
  unfold Progress.wait_until
  by_cases hwait : (n.now : Int) < target
  · rw [if_pos hwait, if_pos (by omega)]
  · rw [if_neg hwait, if_neg (by omega)]

theorem toInt_duration (ElapsedMillis : Int64) :
    (ElapsedMillis * 1000000).toInt = golang.deadline ElapsedMillis.toInt := by
  simp [golang]

theorem runScriptInstruction_eq {pubsub : PubSub} (hjoins : pubsub.Joins)
    {i : experiment.ScriptInstruction} {g : go.ScriptInstruction}
    (h : go.ScriptInstruction.Reads i g) (n : scriptedNode) :
    Fallible.each (golang.step clock succeeds) i.atoms n.toProgress =
      ((runScriptInstruction clock succeeds pubsub g n).1.toProgress,
        (runScriptInstruction clock succeeds pubsub g n).2) := by
  unfold experiment.ScriptInstruction.atoms runScriptInstruction
  rw [Fallible.each_cons_go (golang.step_wait i.elapsedMillis n.toProgress), Fallible.each_flatMap,
    h.elapsed_millis, ← toInt_duration]
  dsimp only
  rw [← wait_eq (n := { n with elapsed_millis := g.ElapsedMillis.toInt })]
  refine Fallible.each_sim go.Instruction.Reads scriptedNode.toProgress ?_
    h.instructions _
  intro i g hig n
  exact runInstruction_eq hjoins hig n

theorem RunExperiment_eq {pubsub : PubSub} (hjoins : pubsub.Joins)
    {script : List experiment.ScriptInstruction} {g : List go.ScriptInstruction}
    (h : List.Forall₂ go.ScriptInstruction.Reads script g) :
    Fallible.each (golang.step clock succeeds) (atoms script) (.start clock) =
      ((RunExperiment clock succeeds pubsub g).1.toProgress,
        (RunExperiment clock succeeds pubsub g).2) := by
  unfold RunExperiment atoms
  rw [Fallible.each_flatMap]
  refine Fallible.each_sim go.ScriptInstruction.Reads scriptedNode.toProgress ?_ h
    { toProgress := .start clock, topics := [] }
  intro i g hig n
  exact runScriptInstruction_eq hjoins hig n

end go

/-! ## When the two agree -/

/-- No attempt was made before its time. -/
def Progress.InTime (p : Progress) : Prop :=
  ∀ attempt ∈ p.attempts, attempt.elapsed_millis * 1000000 ≤ attempt.time

/-- Two runs attempt the same calls in the same order, stop at the same point, and make no attempt
before its time. -/
structure SameExperiment (rust golang : Progress × Option Stop) : Prop where
  calls : rust.1.attempts.map (·.call) = golang.1.attempts.map (·.call)
  stop : rust.2 = golang.2
  rust_in_time : rust.1.InTime
  go_in_time : golang.1.InTime

/-- Where a script has come to: how many calls were made, what its last wait asks for, and the
latest deadline that the interpreter in Go has had. -/
structure Place where
  calls : Nat
  elapsed_millis : Int
  latest : Int

namespace Place

def start : Place := { calls := 0, elapsed_millis := 0, latest := 0 }

def pass (p : Place) : Atom → Place
  | .Wait elapsedMillis =>
    { p with
      elapsed_millis := elapsedMillis
      latest := max p.latest (golang.deadline elapsedMillis) }
  | .Connect _ => { p with calls := p.calls + 1 }
  | .Publish _ _ => { p with calls := p.calls + 1 }

/-- The deadlines so far are not before what the last wait asks for. -/
def InTime (p : Place) : Prop := p.elapsed_millis * 1000000 ≤ p.latest

end Place

namespace Atom

/-- A Publish that fails, or has no room for its id, ends a script. -/
def ends (succeeds : Nat → Bool) (p : Place) : Atom → Bool
  | Publish messageID messageSizeBytes =>
    (message messageID messageSizeBytes).isNone || !succeeds p.calls
  | _ => false

/-- A connect succeeds, and a call is made in time. -/
def Agrees (succeeds : Nat → Bool) (p : Place) : Atom → Prop
  | Wait _ => True
  | Connect _ => succeeds p.calls = true ∧ p.InTime
  | Publish messageID messageSizeBytes =>
    (message messageID messageSizeBytes).isSome = true → p.InTime

end Atom

/-- Each connect before the end of the script succeeds, and each call is made in time. -/
def Agree (succeeds : Nat → Bool) (p : Place) (l : List Atom) : Prop :=
  ∀ before atom after, l = before ++ atom :: after →
    (∀ b a c, before = b ++ a :: c → a.ends succeeds (b.foldl Place.pass p) = false) →
    atom.Agrees succeeds (before.foldl Place.pass p)

theorem agree_cons {p : Place} {a : Atom} {l : List Atom} :
    Agree succeeds p (a :: l) ↔
      a.Agrees succeeds p ∧ (a.ends succeeds p = false → Agree succeeds (p.pass a) l) := by
  constructor
  · intro hagree
    refine ⟨hagree [] a l rfl (by simp), ?_⟩
    rintro hgoes before atom after rfl hpassed
    refine hagree (a :: before) atom after rfl ?_
    rintro (_ | ⟨a', b⟩) c rest he
    · cases he
      exact hgoes
    · cases he
      exact hpassed b c rest rfl
  · rintro ⟨hfirst, hrest⟩ (_ | ⟨a', before⟩) atom after he hpassed
    · cases he
      exact hfirst
    · cases he
      refine hrest (hpassed [] a before rfl) before atom after rfl ?_
      rintro b c rest rfl
      exact hpassed (a :: b) c rest rfl

/-! ## Two nodes at one place -/

/-- Two nodes that have made the same calls, the one with the interpreter in Rust and the one with
that in Go. -/
structure At (p : Place) (r g : Progress) : Prop where
  calls : r.attempts.map (·.call) = g.attempts.map (·.call)
  length : r.attempts.length = p.calls
  rust_millis : r.elapsed_millis = p.elapsed_millis
  go_millis : g.elapsed_millis = p.elapsed_millis
  rust_in_time : r.InTime
  go_in_time : g.InTime
  rust_now : p.elapsed_millis * 1000000 ≤ r.now
  go_now : p.latest ≤ g.now

theorem At.go_length {p : Place} {r g : Progress} (hat : At p r g) :
    g.attempts.length = p.calls := by
  have hlength := congrArg List.length hat.calls
  rw [List.length_map, List.length_map] at hlength
  rw [← hlength, hat.length]

@[simp] theorem Progress.wait_until_attempts (clock : Clock) (target : Int) (p : Progress) :
    (p.wait_until clock target).attempts = p.attempts := by
  unfold wait_until sleep
  split <;> rfl

@[simp] theorem Progress.wait_until_millis (clock : Clock) (target : Int) (p : Progress) :
    (p.wait_until clock target).elapsed_millis = p.elapsed_millis := by
  unfold wait_until sleep
  split <;> rfl

/-- A wait is over at its target, or after it. -/
theorem Progress.le_wait_until (clock : Clock) (target : Int) (p : Progress) :
    target ≤ (p.wait_until clock target).now ∧ p.now ≤ (p.wait_until clock target).now := by
  unfold wait_until sleep
  split
  · dsimp only
    omega
  · omega

theorem At.wait {p : Place} {r g : Progress} (hat : At p r g) (clock clock' : Clock)
    (elapsedMillis : Int) :
    At (p.pass (.Wait elapsedMillis))
      ({ r with elapsed_millis := elapsedMillis }.wait_until clock (rust.deadline elapsedMillis))
      ({ g with elapsed_millis := elapsedMillis }.wait_until clock'
        (golang.deadline elapsedMillis)) where
  calls := by simpa using hat.calls
  length := by simpa [Place.pass] using hat.length
  rust_millis := by simp [Place.pass]
  go_millis := by simp [Place.pass]
  rust_in_time := by
    intro attempt hattempt
    rw [Progress.wait_until_attempts] at hattempt
    exact hat.rust_in_time attempt hattempt
  go_in_time := by
    intro attempt hattempt
    rw [Progress.wait_until_attempts] at hattempt
    exact hat.go_in_time attempt hattempt
  rust_now := (Progress.le_wait_until _ _ _).1
  go_now := by
    obtain ⟨htarget, hnow⟩ := Progress.le_wait_until clock' (golang.deadline elapsedMillis)
      { g with elapsed_millis := elapsedMillis }
    have hbefore := hat.go_now
    dsimp only [Place.pass] at hnow ⊢
    omega

@[simp] theorem Progress.attempts_attempt (clock : Clock) (call : Attempted) (p : Progress) :
    (p.attempt clock call).attempts.length = p.attempts.length + 1 := by
  simp [attempt]

theorem Progress.InTime.attempt {p : Progress} (h : p.InTime) (clock : Clock) (call : Attempted)
    (hnow : p.elapsed_millis * 1000000 ≤ p.now) : (p.attempt clock call).InTime := by
  intro attempt hattempt
  rcases List.mem_append.mp hattempt with hattempt | hattempt
  · exact h attempt hattempt
  · rw [List.mem_singleton] at hattempt
    rw [hattempt]
    exact hnow

theorem At.attempt {p : Place} {r g : Progress} (hat : At p r g) (hin_time : p.InTime)
    (clock clock' : Clock) (call : Attempted) :
    At { p with calls := p.calls + 1 } (r.attempt clock call) (g.attempt clock' call) where
  calls := by simp [Progress.attempt, hat.calls]
  length := by simp [Progress.attempt, hat.length]
  rust_millis := hat.rust_millis
  go_millis := hat.go_millis
  rust_in_time := by
    apply hat.rust_in_time.attempt
    rw [hat.rust_millis]
    exact hat.rust_now
  go_in_time := by
    apply hat.go_in_time.attempt
    rw [hat.go_millis]
    exact Int.le_trans hin_time hat.go_now
  rust_now := by
    have hbefore := hat.rust_now
    dsimp only [Progress.attempt]
    omega
  go_now := by
    have hbefore := hat.go_now
    dsimp only [Progress.attempt]
    omega

/-! ## Two runs from one place -/

/-- What was attempted remains so. -/
theorem prefix_attempts_each (I : Interpreter) (l : List Atom) (p : Progress) :
    p.attempts <+: (Fallible.each (I.step clock succeeds) l p).1.attempts := by
  induction l generalizing p with
  | nil => exact List.prefix_refl _
  | cons atom l ih =>
    have hstep : p.attempts <+: (I.step clock succeeds atom p).1.attempts := by
      cases atom with
      | Wait elapsedMillis => simp [Interpreter.step]
      | Connect target_node_id => exact List.prefix_append _ _
      | Publish messageID messageSizeBytes =>
        simp only [Interpreter.step]
        cases message messageID messageSizeBytes with
        | none => exact List.prefix_refl _
        | some msg => exact List.prefix_append _ _
    cases h : I.step clock succeeds atom p with
    | mk p' stop =>
      rw [h] at hstep
      cases stop with
      | none =>
        rw [Fallible.each_cons_go h]
        exact hstep.trans (ih p')
      | some e =>
        rw [Fallible.each_cons_stop h]
        exact hstep

/-- The interpreter in Go stops with an error at a call that it has attempted. -/
theorem go_error_attempts (l : List Atom) (p : Progress)
    (herror : (Fallible.each (golang.step clock succeeds) l p).2 = some .Error) :
    p.attempts.length < (Fallible.each (golang.step clock succeeds) l p).1.attempts.length := by
  induction l generalizing p with
  | nil => cases herror
  | cons atom l ih =>
    cases atom with
    | Wait elapsedMillis =>
      rw [Fallible.each_cons_go (golang.step_wait elapsedMillis p)] at herror ⊢
      simpa using ih _ herror
    | Connect target_node_id =>
      have hstep : golang.step clock succeeds (.Connect target_node_id) p =
          (p.attempt clock (.Connect target_node_id), none) := rfl
      rw [Fallible.each_cons_go hstep] at herror ⊢
      have hlater := ih _ herror
      rw [Progress.attempts_attempt] at hlater
      omega
    | Publish messageID messageSizeBytes =>
      cases hmessage : message messageID messageSizeBytes with
      | none =>
        rw [Fallible.each_cons_stop (golang.step_panic hmessage p)] at herror
        cases herror
      | some msg =>
        have hstep := golang.step_publish clock succeeds hmessage p
        cases hsucceeds : p.next_succeeds succeeds with
        | true =>
          rw [hsucceeds, if_pos rfl] at hstep
          rw [Fallible.each_cons_go hstep] at herror ⊢
          have hlater := ih _ herror
          rw [Progress.attempts_attempt] at hlater
          omega
        | false =>
          rw [hsucceeds, if_neg Bool.false_ne_true] at hstep
          rw [Fallible.each_cons_stop hstep, Progress.attempts_attempt]
          omega

theorem At.next_succeeds {p : Place} {r g : Progress} (hat : At p r g) (succeeds : Nat → Bool) :
    r.next_succeeds succeeds = succeeds p.calls ∧ g.next_succeeds succeeds = succeeds p.calls := by
  unfold Progress.next_succeeds
  rw [hat.length, hat.go_length]
  exact ⟨rfl, rfl⟩

/-- From one place on, the two run the same experiment as long as their script agrees. -/
theorem same_of_agree {clock' : Clock} (l : List Atom) {p : Place} {r g : Progress} (hat : At p r g)
    (hagree : Agree succeeds p l) :
    SameExperiment (Fallible.each (rust.step clock succeeds) l r)
      (Fallible.each (golang.step clock' succeeds) l g) := by
  induction l generalizing p r g with
  | nil => exact ⟨hat.calls, rfl, hat.rust_in_time, hat.go_in_time⟩
  | cons atom l ih =>
    obtain ⟨hatom, hrest⟩ := agree_cons.mp hagree
    obtain ⟨hrust, hgo⟩ := hat.next_succeeds succeeds
    cases atom with
    | Wait elapsedMillis =>
      rw [Fallible.each_cons_go (rust.step_wait elapsedMillis r),
        Fallible.each_cons_go (golang.step_wait elapsedMillis g)]
      exact ih (hat.wait clock clock' elapsedMillis) (hrest rfl)
    | Connect target_node_id =>
      obtain ⟨hsucceeds, hin_time⟩ := hatom
      have hstep : rust.step clock succeeds (.Connect target_node_id) r =
          (r.attempt clock (.Connect target_node_id), none) := by
        simp [Interpreter.step, hrust, hsucceeds]
      have hstep' : golang.step clock' succeeds (.Connect target_node_id) g =
          (g.attempt clock' (.Connect target_node_id), none) := rfl
      rw [Fallible.each_cons_go hstep, Fallible.each_cons_go hstep']
      exact ih (hat.attempt hin_time clock clock' _) (hrest rfl)
    | Publish messageID messageSizeBytes =>
      cases hmessage : message messageID messageSizeBytes with
      | none =>
        rw [Fallible.each_cons_stop (rust.step_panic hmessage r),
          Fallible.each_cons_stop (golang.step_panic hmessage g)]
        exact ⟨hat.calls, rfl, hat.rust_in_time, hat.go_in_time⟩
      | some msg =>
        have hin_time : p.InTime := hatom (by simp [hmessage])
        have hstep := rust.step_publish clock succeeds hmessage r
        have hstep' := golang.step_publish clock' succeeds hmessage g
        have hnext := hat.attempt hin_time clock clock' (.Publish msg)
        rw [hrust] at hstep
        rw [hgo] at hstep'
        cases hsucceeds : succeeds p.calls with
        | true =>
          rw [hsucceeds, if_pos rfl] at hstep hstep'
          rw [Fallible.each_cons_go hstep, Fallible.each_cons_go hstep']
          exact ih hnext (hrest (by simp [Atom.ends, hmessage, hsucceeds]))
        | false =>
          rw [hsucceeds, if_neg Bool.false_ne_true] at hstep hstep'
          rw [Fallible.each_cons_stop hstep, Fallible.each_cons_stop hstep']
          exact ⟨hnext.calls, rfl, hnext.rust_in_time, hnext.go_in_time⟩

/-- At a connect that fails, the node in Rust stops, and the other one would have to with the same
attempts. -/
theorem At.connect_differs {clock' : Clock} {p : Place} {r g : Progress} (hat : At p r g)
    (hfails : succeeds p.calls = false) (target_node_id : Int) (l : List Atom) :
    ¬ SameExperiment (Fallible.each (rust.step clock succeeds) (.Connect target_node_id :: l) r)
      (Fallible.each (golang.step clock' succeeds) (.Connect target_node_id :: l) g) := by
  intro hsame
  have hstep : rust.step clock succeeds (.Connect target_node_id) r =
      (r.attempt clock (.Connect target_node_id), some .Error) := by
    simp [Interpreter.step, (hat.next_succeeds succeeds).1, hfails, rust]
  have hstep' : golang.step clock' succeeds (.Connect target_node_id) g =
      (g.attempt clock' (.Connect target_node_id), none) := rfl
  rw [Fallible.each_cons_stop hstep, Fallible.each_cons_go hstep'] at hsame
  have hmore := go_error_attempts l _ hsame.stop.symm
  have hlength := congrArg List.length hsame.calls
  rw [List.length_map, List.length_map, Progress.attempts_attempt, hat.length] at hlength
  rw [Progress.attempts_attempt, hat.go_length] at hmore
  omega

/-- A node that needs no time of its own. -/
def instant : Clock where
  began := 0
  took _ := 0
  late _ := 0

/-- A call that is made in time shows that its place is. -/
theorem in_time_of_attempt {p : Place} {r g : Progress} (hat : At p r g)
    (hnow : (g.now : Int) = p.latest) {call : Attempted} {l : List Atom}
    (hin_time : (Fallible.each (golang.step instant succeeds) l
      (g.attempt instant call)).1.InTime) : p.InTime := by
  have hlast : { call, time := g.now, elapsed_millis := g.elapsed_millis } ∈
      (g.attempt instant call).attempts := by simp [Progress.attempt]
  have htime := hin_time _ ((prefix_attempts_each golang l (g.attempt instant call)).subset hlast)
  dsimp only at htime
  rw [hnow, hat.go_millis] at htime
  exact htime

theorem wait_until_instant (target : Int) (p : Progress) :
    ((p.wait_until instant target).now : Int) = max (p.now : Int) target := by
  unfold Progress.wait_until Progress.sleep instant
  split
  · dsimp only
    omega
  · omega

/-- From one place on, where the node in Go comes without any delay, the script agrees if the two
run the same experiment. -/
theorem agree_of_same (l : List Atom) {p : Place} {r g : Progress} (hat : At p r g)
    (hnow : (g.now : Int) = p.latest)
    (hsame : SameExperiment (Fallible.each (rust.step clock succeeds) l r)
      (Fallible.each (golang.step instant succeeds) l g)) : Agree succeeds p l := by
  induction l generalizing p r g with
  | nil =>
    intro before atom after he
    simp at he
  | cons atom l ih =>
    obtain ⟨hrust, hgo⟩ := hat.next_succeeds succeeds
    rw [agree_cons]
    cases atom with
    | Wait elapsedMillis =>
      rw [Fallible.each_cons_go (rust.step_wait elapsedMillis r),
        Fallible.each_cons_go (golang.step_wait elapsedMillis g)] at hsame
      refine ⟨trivial, fun _ => ih (hat.wait clock instant elapsedMillis) ?_ hsame⟩
      rw [wait_until_instant, hnow]
      rfl
    | Connect target_node_id =>
      have hstep' : golang.step instant succeeds (.Connect target_node_id) g =
          (g.attempt instant (.Connect target_node_id), none) := rfl
      rw [Fallible.each_cons_go hstep'] at hsame
      have hin_time := in_time_of_attempt hat hnow hsame.go_in_time
      cases hsucceeds : succeeds p.calls with
      | true =>
        have hstep : rust.step clock succeeds (.Connect target_node_id) r =
            (r.attempt clock (.Connect target_node_id), none) := by
          simp [Interpreter.step, hrust, hsucceeds]
        rw [Fallible.each_cons_go hstep] at hsame
        refine ⟨⟨hsucceeds, hin_time⟩, fun _ => ih (hat.attempt hin_time clock instant _) ?_ hsame⟩
        simpa [Progress.attempt, instant, Place.pass] using hnow
      | false =>
        rw [← Fallible.each_cons_go hstep'] at hsame
        exact absurd hsame (hat.connect_differs hsucceeds target_node_id l)
    | Publish messageID messageSizeBytes =>
      cases hmessage : message messageID messageSizeBytes with
      | none => exact ⟨by simp [Atom.Agrees, hmessage], by simp [Atom.ends, hmessage]⟩
      | some msg =>
        have hstep := rust.step_publish clock succeeds hmessage r
        have hstep' := golang.step_publish instant succeeds hmessage g
        rw [hrust] at hstep
        rw [hgo] at hstep'
        cases hsucceeds : succeeds p.calls with
        | true =>
          rw [hsucceeds, if_pos rfl] at hstep hstep'
          rw [Fallible.each_cons_go hstep, Fallible.each_cons_go hstep'] at hsame
          have hin_time := in_time_of_attempt hat hnow hsame.go_in_time
          refine ⟨fun _ => hin_time, fun _ => ih (hat.attempt hin_time clock instant _) ?_ hsame⟩
          simpa [Progress.attempt, instant, Place.pass] using hnow
        | false =>
          rw [hsucceeds, if_neg Bool.false_ne_true] at hstep hstep'
          rw [Fallible.each_cons_stop hstep'] at hsame
          have hlast : (Fallible.each (golang.step instant succeeds) []
              (g.attempt instant (.Publish msg))).1.InTime := hsame.go_in_time
          have hin_time := in_time_of_attempt hat hnow hlast
          exact ⟨fun _ => hin_time, by simp [Atom.ends, hsucceeds]⟩

theorem at_start (clock clock' : Clock) : At .start (.start clock) (.start clock') where
  calls := rfl
  length := rfl
  rust_millis := rfl
  go_millis := rfl
  rust_in_time := by simp [Progress.InTime, Progress.start]
  go_in_time := by simp [Progress.InTime, Progress.start]
  rust_now := by simp [Place.start]
  go_now := by simp [Place.start]

/-- Whatever time the two nodes need, the interpreters run the same experiment as long as each
connect before the end of the script succeeds, and each call of the interpreter in Go has a deadline
that did not wrap around to a time before it, and no longer. -/
theorem the_interpreters_run_the_same_experiment_iff {script : List ScriptInstruction}
    {r : List rs.ScriptInstruction} {g : List go.ScriptInstruction}
    (hr : List.Forall₂ rs.ScriptInstruction.Reads script r)
    (hg : List.Forall₂ go.ScriptInstruction.Reads script g) (succeeds : Nat → Bool)
    {pubsub : go.PubSub} (hjoins : pubsub.Joins) :
    (∀ clock clock', SameExperiment (rs.run_experiment clock succeeds r)
      ((go.RunExperiment clock' succeeds pubsub g).1.toProgress,
        (go.RunExperiment clock' succeeds pubsub g).2)) ↔
      Agree succeeds .start (atoms script) := by
  constructor
  · intro hsame
    have hinstant := hsame instant instant
    rw [rs.run_experiment_eq hr, ← go.RunExperiment_eq hjoins hg] at hinstant
    exact agree_of_same _ (at_start instant instant) rfl hinstant
  · intro hagree clock clock'
    rw [rs.run_experiment_eq hr, ← go.RunExperiment_eq hjoins hg]
    exact same_of_agree _ (at_start clock clock') hagree

/-! ## Scripts of which nothing fails -/

/-- A time that has not wrapped around. -/
def Small (elapsedMillis : Int) : Prop :=
  0 ≤ elapsedMillis ∧ elapsedMillis * 1000000 ≤ Int64.maxValue.toInt

theorem Small.deadline {elapsedMillis : Int} (h : Small elapsedMillis) :
    golang.deadline elapsedMillis = elapsedMillis * 1000000 := by
  obtain ⟨hnonneg, hle⟩ := h
  have hmax : Int64.maxValue.toInt = 9223372036854775807 := by decide
  apply Int64.toInt_ofInt_of_le <;> omega

theorem Place.InTime.pass {p : Place} (h : p.InTime) {atom : Atom}
    (hsmall : ∀ elapsedMillis, atom = .Wait elapsedMillis → Small elapsedMillis) :
    (p.pass atom).InTime := by
  cases atom with
  | Wait elapsedMillis =>
    show elapsedMillis * 1000000 ≤ max p.latest (golang.deadline elapsedMillis)
    rw [(hsmall elapsedMillis rfl).deadline]
    exact Int.le_max_right _ _
  | Connect target_node_id => exact h
  | Publish messageID messageSizeBytes => exact h

theorem agree_of_success (l : List Atom) {p : Place} (hin_time : p.InTime)
    (hsmall : ∀ elapsedMillis, .Wait elapsedMillis ∈ l → Small elapsedMillis) :
    Agree (fun _ => true) p l := by
  induction l generalizing p with
  | nil =>
    intro before atom after he
    simp at he
  | cons atom l ih =>
    rw [agree_cons]
    refine ⟨?_, fun _ => ih (hin_time.pass ?_) fun e he => hsmall e (List.mem_cons_of_mem _ he)⟩
    · cases atom with
      | Wait elapsedMillis => trivial
      | Connect target_node_id => exact ⟨rfl, hin_time⟩
      | Publish messageID messageSizeBytes => exact fun _ => hin_time
    · rintro elapsedMillis rfl
      exact hsmall elapsedMillis List.mem_cons_self

end

/-! ## A script of two groups -/

/-- To connect to two nodes, and to publish a message at some time. -/
def example_script (elapsedMillis : Int) : List ScriptInstruction :=
  [{ elapsedMillis := 0, instructions := [.Connect [2, 3]] },
    { elapsedMillis, instructions := [.Publish 7 16 "default"] }]

def example_rs (elapsed_millis : UInt64) : List rs.ScriptInstruction :=
  [{ elapsed_millis := 0, instructions := [.Connect [2, 3]] },
    { elapsed_millis, instructions := [.Publish 7 16 "default"] }]

def example_go (ElapsedMillis : Int64) : List go.ScriptInstruction :=
  [{ ElapsedMillis := 0, Instructions := [.ConnectInstruction [2, 3]] },
    { ElapsedMillis, Instructions := [.PublishInstruction 7 16 "default"] }]

def example_pubsub : go.PubSub where
  Join topics topicStr := !topics.contains topicStr
  Subscribe _ := true

theorem example_joins : example_pubsub.Joins := by
  intro topics topicStr hnot
  simpa [example_pubsub] using hnot

theorem example_rs_reads (elapsed_millis : UInt64) :
    List.Forall₂ rs.ScriptInstruction.Reads (example_script elapsed_millis.toNat)
      (example_rs elapsed_millis) :=
  .cons ⟨rfl, .cons (.Connect [2, 3]) .nil⟩
    (.cons ⟨rfl, .cons (.Publish 7 16 "default") .nil⟩ .nil)

theorem example_go_reads (ElapsedMillis : Int64) :
    List.Forall₂ go.ScriptInstruction.Reads (example_script ElapsedMillis.toInt)
      (example_go ElapsedMillis) := by
  have hconnect : go.Instruction.Reads (.Connect [2, 3]) (.ConnectInstruction [2, 3]) :=
    .Connect [2, 3]
  have hpublish : go.Instruction.Reads (.Publish 7 (16 : Int64).toInt "default")
      (.PublishInstruction 7 16 "default") := .Publish rfl
  exact .cons ⟨rfl, .cons hconnect .nil⟩ (.cons ⟨rfl, .cons hpublish .nil⟩ .nil)

/-- Nothing fails, and the message is published after one second. -/
theorem the_interpreters_run_the_same_experiment_of_one_second :
    SameExperiment (rs.run_experiment instant (fun _ => true) (example_rs 1000))
      ((go.RunExperiment instant (fun _ => true) example_pubsub (example_go 1000)).1.toProgress,
        (go.RunExperiment instant (fun _ => true) example_pubsub (example_go 1000)).2) := by
  refine (the_interpreters_run_the_same_experiment_iff (example_rs_reads 1000)
    (example_go_reads 1000) (fun _ => true) example_joins).mpr ?_ instant instant
  apply agree_of_success
  · exact Int.le_refl 0
  · have hsmall : Small 0 ∧ Small 1000 := by
      unfold Small
      decide
    simpa [example_script, atoms, ScriptInstruction.atoms, InstructionParams.atoms] using hsmall

/-- When the first connect fails, the interpreter in Rust stops and the one in Go goes on; and a
time of three centuries is over at once in Go. -/
theorem the_interpreters_run_different_experiments :
    (¬ SameExperiment (rs.run_experiment instant (fun n => n != 0) (example_rs 1000))
      ((go.RunExperiment instant (fun n => n != 0) example_pubsub (example_go 1000)).1.toProgress,
        (go.RunExperiment instant (fun n => n != 0) example_pubsub (example_go 1000)).2)) ∧
    ¬ SameExperiment (rs.run_experiment instant (fun _ => true) (example_rs 9223372036855))
      ((go.RunExperiment instant (fun _ => true) example_pubsub
          (example_go 9223372036855)).1.toProgress,
        (go.RunExperiment instant (fun _ => true) example_pubsub
          (example_go 9223372036855)).2) := by
  constructor
  · intro hsame
    exact absurd hsame.calls (by decide)
  · intro hsame
    have hlate : ¬ (go.RunExperiment instant (fun _ => true) example_pubsub
        (example_go 9223372036855)).1.InTime := by
      unfold Progress.InTime
      decide
    exact hlate hsame.go_in_time

end experiment
