-- JSON values, and two ways to read them: a strict one, which wants each member
-- of an object once, and a lenient one, which starts from zero values and assigns
-- the members that it finds. The text of a document is not looked at.
import Mathlib.Data.List.Forall2

/-- `F` stands for the numbers that are written with a fraction. -/
inductive Json (F : Type) where
  | null
  | bool (b : Bool)
  | int (n : Int)
  | float (x : F)
  | str (text : String)
  | arr (items : List (Json F))
  | obj (members : List (String × Json F))

namespace Json

variable {F X V : Type}

abbrev Members (F : Type) := List (String × Json F)

def members : Json F → Option (Members F)
  | obj members => some members
  | _ => none

def text : Json F → Option String
  | str text => some text
  | _ => none

def truth : Json F → Option Bool
  | bool b => some b
  | _ => none

/-- A whole number between two bounds, the second of which is not included. -/
def whole (least limit : Int) : Json F → Option Int
  | int n => if least ≤ n ∧ n < limit then some n else none
  | _ => none

def items (read : Json F → Option V) : Json F → Option (List V)
  | arr items => items.mapM read
  | _ => none

mutual

/-- The numbers with a fraction, wherever they stand in a document. -/
def floats : Json F → List F
  | float x => [x]
  | arr items => floatsOfItems items
  | obj members => floatsOfMembers members
  | null | bool _ | int _ | str _ => []

def floatsOfItems : List (Json F) → List F
  | [] => []
  | json :: items => json.floats ++ floatsOfItems items

def floatsOfMembers : List (String × Json F) → List F
  | [] => []
  | (_, json) :: members => json.floats ++ floatsOfMembers members

end

/-! ## The strict way -/

/-- The values of the members with this name. -/
def named (name : String) (members : Members F) : List (Json F) :=
  (members.filter fun m => decide (m.1 = name)).map (·.2)

/-- A member that has to be there, once. -/
def required (read : Json F → Option V) (name : String) (members : Members F) : Option V :=
  match named name members with
  | [json] => read json
  | _ => none

/-- A value, or null for none. -/
def nullable (read : Json F → Option V) : Json F → Option (Option V)
  | null => some none
  | json => (read json).map some

/-- A member that may be missing. -/
def optional (read : Json F → Option V) (name : String) (members : Members F) : Option (Option V) :=
  match named name members with
  | [] => some none
  | [json] => nullable read json
  | _ => none

/-! ## The lenient way -/

/-- Null leaves a value as it is. -/
def assign (read : Json F → Option V) (value : V) : Json F → Option V
  | null => some value
  | json => read json

/-- The values of the members with this name, up to what `fold` makes of names. -/
def folded (fold : String → List Char) (name : String) (members : Members F) : List (Json F) :=
  (members.filter fun m => decide (fold m.1 = fold name)).map (·.2)

/-- The members with this name, up to what `fold` makes of names, are assigned one after the
other. -/
def assigned (fold : String → List Char) (read : Json F → Option V) (zero : V) (name : String)
    (members : Members F) : Option V :=
  members.foldlM
    (fun value m => if fold m.1 = fold name then assign read value m.2 else some value) zero

/-! ## What is read of what was written -/

/-- What was written is read as the relation says, and in no other way. -/
def Reads (write : X → Json F) (read : Json F → Option V) (means : X → V → Prop) : Prop :=
  ∀ x v, read (write x) = some v ↔ means x v

theorem nullable_of_ne_null {read : Json F → Option V} {json : Json F} (h : json ≠ null) :
    nullable read json = (read json).map some := by
  cases json with
  | null => exact absurd rfl h
  | _ => rfl

theorem assign_of_ne_null {read : Json F → Option V} {value : V} {json : Json F} (h : json ≠ null) :
    assign read value json = read json := by
  cases json with
  | null => exact absurd rfl h
  | _ => rfl

@[simp] theorem floats_arr (items : List (Json F)) : (arr items).floats = items.flatMap floats := by
  rw [floats]
  induction items with
  | nil => rfl
  | cons json items ih => rw [floatsOfItems, ih, List.flatMap_cons]

@[simp] theorem floats_obj (members : Members F) :
    (obj members).floats = members.flatMap fun m => m.2.floats := by
  rw [floats]
  induction members with
  | nil => rfl
  | cons m members ih => rw [floatsOfMembers, ih, List.flatMap_cons]

@[simp] theorem floats_float (x : F) : (float x).floats = [x] := by rw [floats]

@[simp] theorem floats_null : (null : Json F).floats = [] := by rw [floats]

@[simp] theorem floats_bool (b : Bool) : (bool b : Json F).floats = [] := by rw [floats]

@[simp] theorem floats_int (n : Int) : (int n : Json F).floats = [] := by rw [floats]

@[simp] theorem floats_str (text : String) : (str text : Json F).floats = [] := by rw [floats]

theorem reads_text : Reads (str : String → Json F) text Eq := by
  intro x v
  simp [text]

theorem reads_truth : Reads (bool : Bool → Json F) truth Eq := by
  intro x v
  simp [truth]

theorem whole_int {least limit n v : Int} :
    whole least limit (int n : Json F) = some v ↔ n = v ∧ least ≤ v ∧ v < limit := by
  simp only [whole]
  by_cases hin : least ≤ n ∧ n < limit
  · rw [if_pos hin, Option.some.injEq]
    constructor
    · rintro rfl
      exact ⟨rfl, hin⟩
    · exact fun h => h.1
  · rw [if_neg hin]
    constructor
    · intro h
      cases h
    · rintro ⟨rfl, h⟩
      exact absurd h hin

theorem mapM_iff {read : X → Option V} {means : X → V → Prop}
    (h : ∀ x v, read x = some v ↔ means x v) (xs : List X) (vs : List V) :
    xs.mapM read = some vs ↔ List.Forall₂ means xs vs := by
  induction xs generalizing vs with
  | nil => simp [eq_comm]
  | cons x xs ih =>
    simp only [List.mapM_cons, Option.bind_eq_bind, Option.bind_eq_some_iff, Option.pure_def,
      Option.some.injEq, h, ih]
    constructor
    · rintro ⟨v, hv, rest, hrest, rfl⟩
      exact .cons hv hrest
    · intro hall
      cases hall with
      | cons hv hrest => exact ⟨_, hv, _, hrest, rfl⟩

/-- A value that is not null is read as ever. -/
theorem Reads.assign {write : X → Json F} {read : Json F → Option V} {means : X → V → Prop}
    (h : Reads write read means) (hwrite : ∀ x, write x ≠ null) (zero : V) :
    Reads write (Json.assign read zero) means := by
  intro x v
  rw [assign_of_ne_null (hwrite x)]
  exact h x v

/-- A list can be read when each of its elements can. -/
theorem exists_forall₂ {means : X → V → Prop} {xs : List X} :
    (∃ vs, List.Forall₂ means xs vs) ↔ ∀ x ∈ xs, ∃ v, means x v := by
  induction xs with
  | nil => simp
  | cons x xs ih =>
    rw [List.forall_mem_cons, ← ih]
    constructor
    · rintro ⟨_, hall⟩
      cases hall with
      | cons hv hrest => exact ⟨⟨_, hv⟩, _, hrest⟩
    · rintro ⟨⟨v, hv⟩, vs, hrest⟩
      exact ⟨v :: vs, .cons hv hrest⟩

theorem Reads.items {write : X → Json F} {read : Json F → Option V} {means : X → V → Prop}
    (h : Reads write read means) :
    Reads (fun xs => arr (xs.map write)) (Json.items read) (List.Forall₂ means) := by
  intro xs vs
  rw [Json.items, List.mapM_map]
  exact mapM_iff h xs vs

/-- A list of which the values are kept as they are. -/
theorem reads_arr : Reads (arr : List (Json F) → Json F) (Json.items some) Eq := by
  intro items v
  have hsome : ∀ json v : Json F, some json = some v ↔ json = v := by simp
  rw [Json.items, mapM_iff hsome, List.forall₂_eq_eq_eq]

theorem required_sole {read : Json F → Option V} {name : String} {members : Members F}
    (json : Json F) (h : named name members = [json]) :
    required read name members = read json := by
  unfold required
  rw [h]

theorem optional_sole {read : Json F → Option V} {name : String} {members : Members F}
    (json : Json F) (h : named name members = [json]) :
    optional read name members = nullable read json := by
  unfold optional
  rw [h]

theorem assigned_eq {fold : String → List Char} {read : Json F → Option V} {zero : V}
    {name : String} {members : Members F} :
    assigned fold read zero name members =
      (folded fold name members).foldlM (assign read) zero := by
  unfold assigned folded
  induction members generalizing zero with
  | nil => rfl
  | cons m members ih =>
    rw [List.foldlM_cons]
    by_cases hname : fold m.1 = fold name
    · simp only [hname, if_true, decide_true, List.filter_cons_of_pos, List.map_cons,
        List.foldlM_cons]
      congr 1
      funext value
      exact ih
    · simp only [hname, if_false, decide_false, Bool.false_eq_true, not_false_eq_true,
        List.filter_cons_of_neg]
      exact ih

theorem assigned_sole {fold : String → List Char} {read : Json F → Option V} {zero : V}
    {name : String} {members : Members F} (json : Json F) (h : folded fold name members = [json]) :
    assigned fold read zero name members = assign read zero json := by
  rw [assigned_eq, h, List.foldlM_cons]
  simp

/-- What is written to a member that has to be there. -/
theorem Reads.required {write : X → Json F} {read : Json F → Option V} {means : X → V → Prop}
    (h : Reads write read means) {name : String} {members : Members F} {x : X} {v : V}
    (hnamed : named name members = [write x]) :
    Json.required read name members = some v ↔ means x v := by
  rw [required_sole (write x) hnamed]
  exact h x v

/-- What is written to a member that may be missing. -/
theorem Reads.optional {write : X → Json F} {read : Json F → Option V} {means : X → V → Prop}
    (h : Reads write read means) (hwrite : ∀ x, write x ≠ null) {name : String}
    {members : Members F}
    {x : X} {o : Option V} (hnamed : named name members = [write x]) :
    Json.optional read name members = some o ↔ ∃ v, o = some v ∧ means x v := by
  rw [optional_sole (write x) hnamed, nullable_of_ne_null (hwrite x), Option.map_eq_some_iff]
  constructor
  · rintro ⟨v, hv, rfl⟩
    exact ⟨v, rfl, (h x v).mp hv⟩
  · rintro ⟨v, rfl, hv⟩
    exact ⟨v, (h x v).mpr hv, rfl⟩

/-- The same of a member that is null for none. -/
theorem Reads.optional_nullable {write : X → Json F} {read : Json F → Option V}
    {means : X → V → Prop}
    (h : Reads write read means) (hwrite : ∀ x, write x ≠ null) {name : String}
    {members : Members F}
    {o : Option X} {v : Option V} (hnamed : named name members = [o.elim null write]) :
    Json.optional read name members = some v ↔ Option.Rel means o v := by
  cases o with
  | none =>
    rw [optional_sole null hnamed]
    constructor
    · intro hv
      cases hv
      exact .none
    · intro hv
      cases hv
      rfl
  | some x =>
    rw [h.optional hwrite hnamed]
    constructor
    · rintro ⟨v, rfl, hv⟩
      exact .some hv
    · intro hv
      cases hv with
      | some hv => exact ⟨_, rfl, hv⟩

/-- The same in the lenient way. -/
theorem Reads.assigned {write : X → Json F} {read : Json F → Option V} {means : X → V → Prop}
    (h : Reads write read means) (hwrite : ∀ x, write x ≠ null) {fold : String → List Char}
    {zero : V}
    {name : String} {members : Members F} {x : X} {v : V}
    (hfolded : folded fold name members = [write x]) :
    Json.assigned fold read zero name members = some v ↔ means x v := by
  rw [assigned_sole (write x) hfolded]
  exact h.assign hwrite zero x v

end Json
