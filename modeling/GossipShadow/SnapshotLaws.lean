-- Laws of the snapshots: which names of files are read back as the times that
-- they were written for, and what the series of the nodes look like that are
-- made of the files.
import GossipShadow.LogLaws
import GossipShadow.Lib.Timeline
import Mathlib.Algebra.Order.Field.Basic
import Mathlib.Algebra.Order.Field.Rat

namespace analyze_logs

/-! ## The names of the files -/

/-- The microseconds of a day. -/
def day : Nat := 86400000000

/-- The time of a day, without the days before it. -/
structure Clock where
  hours : Nat
  minutes : Nat
  seconds : Nat
  microseconds : Nat

def clock (elapsed_time : Nat) : Clock where
  hours := elapsed_time % day / 1000000 / 3600
  minutes := elapsed_time % day / 1000000 / 60 % 60
  seconds := elapsed_time % day / 1000000 % 60
  microseconds := elapsed_time % 1000000

/-- The part of a name after the days. -/
def Clock.text (c : Clock) : List Char :=
  Decimal.write c.hours ++ ':' :: Decimal.pad 2 c.minutes ++ ':' :: Decimal.pad 2 c.seconds ++
    if c.microseconds = 0 then [] else '.' :: Decimal.pad 6 c.microseconds

/-- The part of a name with the days, if there are any. -/
def days_text (days : Nat) : List Char :=
  if days = 0 then []
  else Decimal.write days ++ " day".toList ++ (if days = 1 then [] else ['s']) ++ ", ".toList

theorem timedelta_str_of_nat (elapsed_time : Nat) :
    timedelta_str elapsed_time = days_text (elapsed_time / day) ++ (clock elapsed_time).text := by
  unfold timedelta_str
  have hdays : (elapsed_time : Int) / 86400000000 = ((elapsed_time / day : Nat) : Int) := by
    simp [day]
  have hseconds : ((elapsed_time : Int) % 86400000000 / 1000000).toNat =
      elapsed_time % day / 1000000 := by
    simp only [day]
    omega
  have hmicros : ((elapsed_time : Int) % 1000000).toNat = (clock elapsed_time).microseconds := by
    simp only [clock]
    omega
  rw [hdays, hseconds, hmicros]
  have htext : (if ((elapsed_time / day : Nat) : Int) = 0 then []
      else Decimal.writeInt ((elapsed_time / day : Nat) : Int) ++ " day".toList ++
        (if ((elapsed_time / day : Nat) : Int).natAbs = 1 then [] else ['s']) ++ ", ".toList) =
          days_text (elapsed_time / day) := by
    unfold days_text
    simp only [Int.natAbs_natCast, Int.natCast_eq_zero]
    rfl
  dsimp only
  rw [htext]
  simp only [Clock.text, clock, List.append_assoc]

theorem not_mem_days_text (days : Nat) : ':' ∉ days_text days := by
  have hdigits := (Decimal.isDigits_write days).notMem (c := ':') rfl
  unfold days_text
  split
  · exact List.not_mem_nil
  · split
    · simp [hdigits]
    · simp [hdigits]

/-- The three parts of a name: the colons stand between digits. -/
theorem splitOn_name (elapsed_time : Nat) :
    (snapshot_name (some (elapsed_time : Int))).splitOn ':' =
      [days_text (elapsed_time / day) ++ Decimal.write (clock elapsed_time).hours,
        Decimal.pad 2 (clock elapsed_time).minutes,
        Decimal.pad 2 (clock elapsed_time).seconds ++
          ((if (clock elapsed_time).microseconds = 0 then []
            else '.' :: Decimal.pad 6 (clock elapsed_time).microseconds) ++ ".json".toList)] := by
  set c := clock elapsed_time
  have hhours : ':' ∉ days_text (elapsed_time / day) ++ Decimal.write c.hours := by
    rw [List.mem_append, not_or]
    exact ⟨not_mem_days_text _, (Decimal.isDigits_write _).notMem rfl⟩
  have hminutes : ':' ∉ Decimal.pad 2 c.minutes := (Decimal.isDigits_pad _ _).notMem rfl
  have hseconds : ':' ∉ Decimal.pad 2 c.seconds := (Decimal.isDigits_pad _ _).notMem rfl
  have hfraction : ':' ∉ Decimal.pad 6 c.microseconds := (Decimal.isDigits_pad _ _).notMem rfl
  have hname : snapshot_name (some (elapsed_time : Int)) =
      (days_text (elapsed_time / day) ++ Decimal.write c.hours) ++ ':' ::
        (Decimal.pad 2 c.minutes ++ ':' :: (Decimal.pad 2 c.seconds ++
          ((if c.microseconds = 0 then [] else '.' :: Decimal.pad 6 c.microseconds) ++
            ".json".toList))) := by
    unfold snapshot_name
    simp only [timedelta_str_of_nat, Clock.text, List.append_assoc, List.cons_append]
    rfl
  rw [hname, List.splitOn_append_cons_self_of_not_mem hhours,
    List.splitOn_append_cons_self_of_not_mem hminutes, List.splitOn_eq_singleton]
  split
  · simp [hseconds]
  · simp [hseconds, hfraction]

/-- The seconds and the fraction, or `"json"` where there is no fraction. -/
theorem splitOn_seconds (seconds microseconds : Nat) :
    ∃ fraction rest, (Decimal.pad 2 seconds ++
        ((if microseconds = 0 then [] else '.' :: Decimal.pad 6 microseconds) ++
          ".json".toList)).splitOn '.' = Decimal.pad 2 seconds :: fraction :: rest ∧
      (Decimal.read fraction).getD 0 = microseconds := by
  have hseconds : '.' ∉ Decimal.pad 2 seconds := (Decimal.isDigits_pad _ _).notMem rfl
  have hfraction : '.' ∉ Decimal.pad 6 microseconds := (Decimal.isDigits_pad _ _).notMem rfl
  have hjson : ".json".toList = '.' :: "json".toList := rfl
  have hend : ("json".toList).splitOn '.' = ["json".toList] :=
    List.splitOn_eq_singleton (by decide)
  rw [hjson]
  by_cases hzero : microseconds = 0
  · refine ⟨"json".toList, [], ?_, ?_⟩
    · rw [if_pos hzero, List.nil_append, List.splitOn_append_cons_self_of_not_mem hseconds, hend]
    · rw [hzero]
      rfl
  · refine ⟨Decimal.pad 6 microseconds, ["json".toList], ?_, ?_⟩
    · rw [if_neg hzero, List.cons_append, List.splitOn_append_cons_self_of_not_mem hseconds,
        List.splitOn_append_cons_self_of_not_mem hfraction, hend]
    · rw [Decimal.read_pad]
      rfl

/-- Before the first day is over, a name is read as its time. From then on it raises an exception:
the days are no number. -/
theorem snapshot_time_of_name (elapsed_time : Nat) :
    snapshot_time (snapshot_name (some (elapsed_time : Int))) =
      if elapsed_time < day then some (elapsed_time : Int) else none := by
  obtain ⟨fraction, rest, hsplit, hfraction⟩ :=
    splitOn_seconds (clock elapsed_time).seconds (clock elapsed_time).microseconds
  unfold snapshot_time
  rw [splitOn_name]
  simp only [List.getElem?_cons_zero, List.getElem?_cons_succ, Option.bind_some, hsplit,
    Decimal.read_pad, hfraction, Option.bind_eq_bind]
  by_cases hday : elapsed_time < day
  · have hdays : days_text (elapsed_time / day) = [] := by
      rw [Nat.div_eq_of_lt hday]
      rfl
    rw [hdays, List.nil_append, Decimal.read_write, if_pos hday, Option.bind_some]
    congr 1
    simp only [clock, day] at hday ⊢
    omega
  · have hpos : elapsed_time / day ≠ 0 := by
      simp only [day] at hday ⊢
      omega
    have hnone : Decimal.read (days_text (elapsed_time / day) ++
        Decimal.write (clock elapsed_time).hours) = none := by
      by_contra hsome
      obtain ⟨hours, hread⟩ := Option.ne_none_iff_exists'.mp hsome
      have hnumeral := Decimal.isNumeral_of_read hread 'd' (by
        unfold days_text
        rw [if_neg hpos]
        simp)
      cases hnumeral
    rw [hnone, if_neg hday]
    rfl

/-! ## Reading all files -/

instance : Std.Total no_later := ⟨fun a b => Int.le_total a.1 b.1⟩

instance : IsTrans (Int × Snapshot) no_later := ⟨fun _ _ _ hab hbc => Int.le_trans hab hbc⟩

/-- The file of a snapshot. -/
def file_of (saved : Nat × Snapshot) : List Char × Snapshot :=
  (snapshot_name (some (saved.1 : Int)), saved.2)

/-- What is kept of the snapshots: those after the warmup. -/
def kept (warmup_time : Int) (saved : List (Nat × Snapshot)) : List (Int × Snapshot) :=
  (saved.map fun e => ((e.1 : Int), e.2)).filter fun e => decide (warmup_time < e.1)

/-- The loop over the files of distinct times of the first day. -/
theorem read_snapshots (warmup_time : Int) {saved : List (Nat × Snapshot)}
    (hnodup : (saved.map Prod.fst).Nodup) (hday : ∀ e ∈ saved, e.1 < day) {t : Table Int Snapshot}
    (ht : ∀ e ∈ saved, (e.1 : Int) ∉ t) :
    ∃ t', (saved.map file_of).foldlM (read_snapshot warmup_time) t = some t' ∧
      (t'.entries.map fun e => (e.1, e.2)) =
        (t.entries.map fun e => (e.1, e.2)) ++ kept warmup_time saved := by
  induction saved generalizing t with
  | nil => exact ⟨t, rfl, by simp [kept]⟩
  | cons first saved ih =>
    obtain ⟨hnew, hnodup⟩ := List.nodup_cons.mp hnodup
    obtain ⟨hfirst, hday⟩ := List.forall_mem_cons.mp hday
    obtain ⟨htfirst, ht⟩ := List.forall_mem_cons.mp ht
    have htime : snapshot_time (file_of first).1 = some (first.1 : Int) := by
      rw [file_of, snapshot_time_of_name, if_pos hfirst]
    rw [List.map_cons, List.foldlM_cons]
    simp only [read_snapshot, htime, Option.bind_eq_bind, Option.bind_some]
    by_cases hwarm : (first.1 : Int) ≤ warmup_time
    · obtain ⟨t', hread, hentries⟩ := ih hnodup hday ht
      refine ⟨t', ?_, ?_⟩
      · rw [if_pos hwarm]
        exact hread
      · rw [hentries]
        simp [kept, hwarm]
    · have ht' : ∀ e ∈ saved, (e.1 : Int) ∉ t.put (first.1 : Int) first.2 := by
        intro e he hmem
        rcases Table.mem_put.mp hmem with hsame | hmem
        · apply hnew
          rw [← Int.ofNat_inj.mp hsame]
          exact List.mem_map_of_mem he
        · exact ht e he hmem
      obtain ⟨t', hread, hentries⟩ := ih hnodup hday ht'
      refine ⟨t', ?_, ?_⟩
      · rw [if_neg hwarm]
        exact hread
      · rw [hentries, Table.entries_put_of_notMem htfirst]
        have hlate : warmup_time < first.1 := Int.not_le.mp hwarm
        simp [kept, hlate]

/-- The snapshots of distinct times of the first day are all read, and come in their order. -/
theorem get_snapshot_data_spec (warmup_time : Int) {saved : List (Nat × Snapshot)}
    (hnodup : (saved.map Prod.fst).Nodup) (hday : ∀ e ∈ saved, e.1 < day) :
    ∃ data, get_snapshot_data (saved.map file_of) warmup_time = some data ∧
      data.Perm (kept warmup_time saved) ∧ data.Pairwise fun a b => a.1 < b.1 := by
  have hempty : ∀ e ∈ saved, (e.1 : Int) ∉ (∅ : Table Int Snapshot) :=
    fun e _ => AList.notMem_empty _
  obtain ⟨t, hread, hentries⟩ := read_snapshots warmup_time hnodup hday hempty
  have hperm := List.perm_insertionSort no_later (t.entries.map fun e => (e.1, e.2))
  refine ⟨(t.entries.map fun e => (e.1, e.2)).insertionSort no_later, ?_, ?_, ?_⟩
  · unfold get_snapshot_data
    rw [hread]
    rfl
  · rw [hentries] at hperm ⊢
    exact hperm
  · have hkeys : ((t.entries.map fun e => (e.1, e.2)).map Prod.fst).Nodup := by
      rw [List.map_map]
      exact t.keys_nodup
    have hsorted := List.pairwise_insertionSort no_later (t.entries.map fun e => (e.1, e.2))
    have hdistinct : ((t.entries.map fun e => (e.1, e.2)).insertionSort no_later).Pairwise
        fun a b => a.1 ≠ b.1 := by
      rw [← List.pairwise_map (f := Prod.fst) (R := fun a b => a ≠ b)]
      exact (hperm.map Prod.fst).nodup_iff.mpr hkeys
    exact (hsorted.and hdistinct).imp fun h => lt_of_le_of_ne h.1 h.2

/-- A file of a later time makes the whole function fail. -/
theorem get_snapshot_data_of_late (warmup_time : Int) {saved : List (Nat × Snapshot)}
    {late : Nat × Snapshot} (hlate : late ∈ saved) (hday : ¬ late.1 < day) :
    get_snapshot_data (saved.map file_of) warmup_time = none := by
  have hread : ∀ t : Table Int Snapshot,
      (saved.map file_of).foldlM (read_snapshot warmup_time) t = none := by
    induction saved with
    | nil => cases hlate
    | cons first saved ih =>
      intro t
      rw [List.map_cons, List.foldlM_cons]
      rcases List.mem_cons.mp hlate with rfl | hlate
      · have htime : snapshot_time (file_of late).1 = none := by
          rw [file_of, snapshot_time_of_name, if_neg hday]
        simp only [read_snapshot, htime]
        rfl
      · cases hfirst : read_snapshot warmup_time t (file_of first) with
        | none => rfl
        | some t' => exact ih hlate t'
  unfold get_snapshot_data
  rw [hread]
  rfl

/-- A name is read as its time exactly when the time is less than a day. So snapshots of distinct
times stay distinct and are read back in the order of their times, whatever the order of the files,
exactly when all of them were saved within the first day. -/
theorem snapshot_names_are_read_back_iff (elapsed_time : Nat) (saved : List (Nat × Snapshot))
    (warmup_time : Int) (hnodup : (saved.map Prod.fst).Nodup) :
    (snapshot_time (snapshot_name (some (elapsed_time : Int))) = some (elapsed_time : Int) ↔
      elapsed_time < day) ∧
    ((∃ data, get_snapshot_data (saved.map file_of) warmup_time = some data ∧
      data.Perm (kept warmup_time saved) ∧ data.Pairwise fun a b => a.1 < b.1) ↔
        ∀ e ∈ saved, e.1 < day) := by
  constructor
  · rw [snapshot_time_of_name]
    by_cases hday : elapsed_time < day
    · simp [hday]
    · simp [hday]
  · constructor
    · rintro ⟨data, hdata, -⟩ e he
      by_contra hday
      rw [get_snapshot_data_of_late warmup_time he hday] at hdata
      cases hdata
    · exact get_snapshot_data_spec warmup_time hnodup

theorem snapshot_names_of_two_times_are_read_back :
    snapshot_time (snapshot_name (some 5000001)) = some 5000001 ∧
    ∃ data, get_snapshot_data ([(12000000, ∅), (5000001, ∅)].map file_of) 0 = some data ∧
      data.Perm (kept 0 [(12000000, ∅), (5000001, ∅)]) ∧ data.Pairwise fun a b => a.1 < b.1 := by
  have h := snapshot_names_are_read_back_iff 5000001 [(12000000, ∅), (5000001, ∅)] 0 (by decide)
  exact ⟨h.1.mpr (by decide), h.2.mpr (by decide)⟩

/-- After one day the name is `1 day, 0:00:00.json`. -/
theorem the_name_of_one_day_is_not_read_back :
    ¬ ∀ elapsed_time : Nat,
      snapshot_time (snapshot_name (some (elapsed_time : Int))) = some (elapsed_time : Int) := by
  intro hclaim
  have hnone : snapshot_time (snapshot_name (some 86400000000)) = none := by decide +kernel
  have hsome := hclaim 86400000000
  rw [show ((86400000000 : Nat) : Int) = 86400000000 from rfl, hnone] at hsome
  cases hsome

/-! ## The series of a plot -/

section

variable {F : Type} [LinearOrder F] [Zero F] [PyFloat F]

omit [PyFloat F] in
def Plot.series (s : Plot F) : Direction → Table (List Char) (List F)
  | .up => s.y_up
  | .down => s.y_down

/-- The value of a node in a snapshot, where a node that is not there has sent nothing. -/
def megabytes (d : Direction) (key : List Char) (snapshot : Int × Snapshot) : F :=
  match snapshot.2.lookup key with
  | some data => PyFloat.truediv (data.bytes d .payload) 1000000
  | none => 0

/-- The series hold a value for each snapshot so far, once their node has come up. -/
structure Drawn (done : List (Int × Snapshot)) (s : Plot F) : Prop where
  x : s.x.length = done.length
  series : ∀ d key, (s.series d).lookup key =
    if done.any fun e => decide (key ∈ e.2) then some (done.map (megabytes d key)) else none

theorem add_node_x (i : Nat) (s : Plot F) (node : (_ : List Char) × NodeData) :
    (s.add_node i node).x = s.x := by
  unfold Plot.add_node
  dsimp only
  split <;> rfl

/-- A node gets one value more, after zeros for the snapshots that it was not in. -/
theorem add_node_series (i : Nat) (s : Plot F) (node : (_ : List Char) × NodeData) (d : Direction)
    (key : List Char) :
    ((s.add_node i node).series d).lookup key =
      if key = node.1 then
        some ((if node.1 ∈ s.y_up then (s.series d).under node.1 else List.replicate i 0) ++
          [PyFloat.truediv (node.2.bytes d .payload) 1000000])
      else (s.series d).lookup key := by
  unfold Plot.add_node
  dsimp only
  cases d
  all_goals
    simp only [Plot.series, Table.extend, Table.lookup_put]
    by_cases hkey : key = node.1
    · subst hkey
      simp only [if_true]
      split
      · rfl
      · simp only [Table.under, Table.lookup_put, if_true, Option.getD_some]
        rfl
    · simp only [hkey, if_false]
      split
      · rfl
      · rw [Table.lookup_put, if_neg hkey]

theorem add_nodes_x (i : Nat) (s : Plot F) (l : List ((_ : List Char) × NodeData)) :
    (l.foldl (Plot.add_node i) s).x = s.x := by
  induction l generalizing s with
  | nil => rfl
  | cons node l ih => rw [List.foldl_cons, ih, add_node_x]

/-- All nodes of a snapshot. -/
theorem add_nodes_series (i : Nat) (s : Plot F) {l : List ((_ : List Char) × NodeData)}
    (hl : l.NodupKeys) (d : Direction) (key : List Char) :
    ((l.foldl (Plot.add_node i) s).series d).lookup key =
      match l.dlookup key with
      | some data =>
        some ((if key ∈ s.y_up then (s.series d).under key else List.replicate i 0) ++
          [PyFloat.truediv (data.bytes d .payload) 1000000])
      | none => (s.series d).lookup key := by
  induction l generalizing s with
  | nil => rfl
  | cons node l ih =>
    obtain ⟨hnew, hl⟩ := List.nodupKeys_cons.mp hl
    rw [List.foldl_cons, ih (s.add_node i node) hl]
    by_cases hkey : key = node.1
    · subst hkey
      have hnone : l.dlookup node.1 = none := List.dlookup_eq_none.mpr hnew
      rw [hnone, List.dlookup_cons_eq]
      simp only [add_node_series, if_true]
    · have hup : key ∈ (s.add_node i node).y_up ↔ key ∈ s.y_up := by
        have hlookup := add_node_series i s node .up key
        rw [if_neg hkey] at hlookup
        rw [Table.mem_iff_lookup, Table.mem_iff_lookup]
        simp only [Plot.series] at hlookup
        rw [hlookup]
      have hunder : ((s.add_node i node).series d).under key = (s.series d).under key := by
        unfold Table.under
        rw [add_node_series, if_neg hkey]
      rw [List.dlookup_cons_ne _ _ hkey]
      simp only [hup, hunder, add_node_series, if_neg hkey]

theorem Drawn.start : Drawn (F := F) [] {} where
  x := rfl
  series d _ := by cases d <;> rfl

/-- Nothing of a node is lost from a snapshot to a later one. -/
def Persists (a b : Int × Snapshot) : Prop := ∀ key ∈ a.2, key ∈ b.2

theorem Drawn.snoc {done : List (Int × Snapshot)} {s : Plot F} (h : Drawn done s)
    {snapshot : Int × Snapshot} (hpersists : ∀ e ∈ done, Persists e snapshot) :
    Drawn (done ++ [snapshot]) (s.add_snapshot (snapshot, done.length)) := by
  have hup : ∀ key, key ∈ s.y_up ↔ (done.any fun e => decide (key ∈ e.2)) = true := by
    intro key
    have hlookup := h.series .up key
    rw [Table.mem_iff_lookup]
    simp only [Plot.series] at hlookup
    rw [hlookup]
    cases done.any fun e => decide (key ∈ e.2) with
    | true => simp
    | false => simp
  refine ⟨?_, ?_⟩
  · unfold Plot.add_snapshot
    rw [add_nodes_x]
    simp [h.x]
  · intro d key
    have hseries := add_nodes_series done.length
      { s with x := s.x ++ [PyFloat.truediv snapshot.1 60000000] } snapshot.2.nodupKeys d key
    have hold : Plot.series { s with x := s.x ++ [PyFloat.truediv snapshot.1 60000000] } d =
        s.series d := by cases d <;> rfl
    rw [hold] at hseries
    unfold Plot.add_snapshot
    refine hseries.trans ?_
    rw [List.any_append, List.any_cons, List.any_nil, Bool.or_false]
    cases hdata : snapshot.2.entries.dlookup key with
    | none =>
      have hnew : key ∉ snapshot.2 := AList.lookup_eq_none.mp hdata
      have hnone : (done.any fun e => decide (key ∈ e.2)) = false := by
        rw [List.any_eq_false]
        intro e he hkey
        exact hnew (hpersists e he key (of_decide_eq_true hkey))
      simp [h.series, hnone, hnew]
    | some data =>
      have hmem : key ∈ snapshot.2 := Table.mem_iff_lookup.mpr ⟨data, hdata⟩
      have hvalue : megabytes (F := F) d key snapshot =
          PyFloat.truediv (data.bytes d .payload) 1000000 := by
        unfold megabytes AList.lookup
        rw [hdata]
      have hbefore : (if key ∈ s.y_up then (s.series d).under key
          else List.replicate done.length 0) = done.map (megabytes d key) := by
        by_cases hany : (done.any fun e => decide (key ∈ e.2)) = true
        · rw [if_pos ((hup key).mpr hany), Table.under, h.series, if_pos hany]
          rfl
        · rw [if_neg (mt (hup key).mp hany), eq_comm, List.eq_replicate_iff]
          refine ⟨List.length_map .., ?_⟩
          intro value hvalue
          obtain ⟨e, he, rfl⟩ := List.mem_map.mp hvalue
          have hnone : e.2.lookup key = none := by
            apply AList.lookup_eq_none.mpr
            intro hkey
            exact hany (List.any_eq_true.mpr ⟨e, he, decide_eq_true hkey⟩)
          unfold megabytes
          rw [hnone]
      simp only [hbefore, hmem, decide_true, Bool.or_true, if_true, List.map_append,
        List.map_cons, List.map_nil, hvalue]

end

/-! ## Snapshots of a run -/

section

variable [Dateutil]

variable {F : Type} [LinearOrder F] [Zero F] [PyFloat F]

theorem Shows.megabytes {seen : List LogEntry} {snapshot : Int × Snapshot}
    (h : Shows seen snapshot.2) (node : Int) (d : Direction) :
    megabytes (F := F) d (Decimal.writeInt node) snapshot =
      PyFloat.truediv (total seen node d .payload) 1000000 := by
  unfold analyze_logs.megabytes
  rw [h.totals]
  cases hany : seen.any fun log => log.of_traffic node with
  | true => cases d <;> rfl
  | false =>
    rw [total_of_no_traffic d .payload hany]
    exact (PyFloat.zero _ (by decide)).symm

end

namespace Sample

/-- The rational numbers, for which division is exact. -/
instance : PyFloat Rat where
  truediv a c := a / c
  mono a b c hc hab := by
    have hpos : (0 : Rat) ≤ c := by exact_mod_cast hc.le
    exact div_le_div_of_nonneg_right (by exact_mod_cast hab) hpos
  zero c _ := by simp

end Sample

end analyze_logs
