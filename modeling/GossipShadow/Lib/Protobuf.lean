-- The wire form of protobuf messages, as far as a writer needs it: varints,
-- length-delimited fields, and the lengths of both. What is written can be read
-- back: where a field ends, and which field comes next, is never in doubt.
import Mathlib.Algebra.Group.Nat.Defs
import Mathlib.Data.List.Basic

namespace Protobuf

abbrev Bytes := List UInt8

/-- The groups of seven bits of a varint, low group first, at most `fuel + 1` of them. -/
def varintGroups : Nat → Nat → Bytes
  | 0, n => [UInt8.ofNat n]
  | fuel + 1, n =>
    if n < 128 then [UInt8.ofNat n]
    else UInt8.ofNat (n % 128 + 128) :: varintGroups fuel (n / 128)

/-- A 64-bit number takes ten groups at most. -/
def varint (n : Nat) : Bytes := varintGroups 9 n

/-- How an unsigned 64-bit field is written. -/
inductive IntWire where
  | varint
  | fixed64
deriving DecidableEq, Repr

/-- The key of a field: its number and its wire type. -/
def key (field wireType : Nat) : Bytes := varint (field * 8 + wireType)

/-- The eight bytes of a fixed field, low byte first. -/
def fixed64 (n : Nat) : Bytes := (List.range 8).map fun i => UInt8.ofNat (n / Nat.pow 256 i % 256)

/-- A length-delimited field: bytes, or a message within a message. -/
def lengthField (field : Nat) (payload : Bytes) : Bytes :=
  key field 2 ++ varint payload.length ++ payload

/-- A bytes field of proto3: the empty value is not written. -/
def bytesField (field : Nat) (payload : Bytes) : Bytes :=
  if payload = [] then [] else lengthField field payload

/-- An unsigned field of proto3: zero is not written. -/
def uintField (wire : IntWire) (field n : Nat) : Bytes :=
  if n = 0 then []
  else match wire with
    | .varint => key field 0 ++ varint n
    | .fixed64 => key field 1 ++ fixed64 n

/-! ## Lengths -/

/-- The length of a varint. -/
def varintLen (n : Nat) : Nat := (varint n).length

/-- The length of a length-delimited field with a payload of `n` bytes. -/
def lengthFieldLen (field n : Nat) : Nat := (key field 2).length + varintLen n + n

/-- The length of a bytes field with a payload of `n` bytes. -/
def bytesFieldLen (field n : Nat) : Nat := if n = 0 then 0 else lengthFieldLen field n

def uintFieldLen (wire : IntWire) (field n : Nat) : Nat := (uintField wire field n).length

@[simp] theorem length_lengthField (field : Nat) (payload : Bytes) :
    (lengthField field payload).length = lengthFieldLen field payload.length := by
  simp [lengthField, lengthFieldLen, varintLen, Nat.add_assoc]

@[simp] theorem length_bytesField (field : Nat) (payload : Bytes) :
    (bytesField field payload).length = bytesFieldLen field payload.length := by
  unfold bytesField bytesFieldLen
  split
  · simp [*]
  · simp [*]

theorem varintGroups_pos (fuel n : Nat) : 0 < (varintGroups fuel n).length := by
  cases fuel with
  | zero => simp [varintGroups]
  | succ fuel => unfold varintGroups; split <;> simp

theorem varintLen_pos (n : Nat) : 0 < varintLen n := varintGroups_pos 9 n

/-- A field is longer than its payload by its key and its length, two bytes or more. -/
theorem add_two_le_lengthFieldLen (field n : Nat) : n + 2 ≤ lengthFieldLen field n := by
  have hkey : 0 < (key field 2).length := varintGroups_pos 9 _
  have hlen := varintLen_pos n
  unfold lengthFieldLen
  omega

theorem le_bytesFieldLen (field n : Nat) : n ≤ bytesFieldLen field n := by
  unfold bytesFieldLen
  split
  · omega
  · have := add_two_le_lengthFieldLen field n
    omega

/-! ## What is written can be read back -/

theorem varintGroups_append_inj {fuel a b : Nat} {xs ys : Bytes} (ha : a < Nat.pow 128 (fuel + 1))
    (hb : b < Nat.pow 128 (fuel + 1)) (h : varintGroups fuel a ++ xs = varintGroups fuel b ++ ys) :
    a = b ∧ xs = ys := by
  induction fuel generalizing a b with
  | zero =>
    simp only [Nat.pow_eq, Nat.zero_add, Nat.pow_one] at ha hb
    obtain ⟨hhead, hrest⟩ := List.cons.inj h
    have hhead := congrArg UInt8.toNat hhead
    simp only [UInt8.toNat_ofNat'] at hhead
    exact ⟨by omega, hrest⟩
  | succ fuel ih =>
    have hhigh : ∀ n, n < Nat.pow 128 (fuel + 1 + 1) → n / 128 < Nat.pow 128 (fuel + 1) := by
      intro n hn
      rw [Nat.pow_eq, Nat.pow_succ] at hn
      exact Nat.div_lt_of_lt_mul (by rwa [Nat.mul_comm] at hn)
    unfold varintGroups at h
    -- only the last group has a byte below 128
    split at h <;> split at h <;> obtain ⟨hhead, hrest⟩ := List.cons.inj h <;>
      have hhead := congrArg UInt8.toNat hhead <;> simp only [UInt8.toNat_ofNat'] at hhead
    · exact ⟨by omega, hrest⟩
    · omega
    · omega
    · obtain ⟨hquotient, hrest⟩ := ih (hhigh a ha) (hhigh b hb) hrest
      exact ⟨by omega, hrest⟩

theorem varint_append_inj {a b : Nat} {xs ys : Bytes} (ha : a < 2 ^ 64) (hb : b < 2 ^ 64)
    (h : varint a ++ xs = varint b ++ ys) : a = b ∧ xs = ys := by
  have hten : 2 ^ 64 ≤ Nat.pow 128 (9 + 1) := by decide
  exact varintGroups_append_inj (by omega) (by omega) h

/-- The bytes of a number give the number, as far as they go. -/
theorem mod_eq_of_bytes {a b k : Nat}
    (h : ∀ i < k, a / Nat.pow 256 i % 256 = b / Nat.pow 256 i % 256) :
    a % Nat.pow 256 k = b % Nat.pow 256 k := by
  induction k with
  | zero => rw [Nat.pow_eq, Nat.pow_zero, Nat.mod_one, Nat.mod_one]
  | succ k ih =>
    have hlow := ih fun i hi => h i (Nat.lt_succ_of_lt hi)
    have hhigh := h k (Nat.lt_succ_self k)
    simp only [Nat.pow_eq] at hlow hhigh ⊢
    rw [Nat.mod_pow_succ, Nat.mod_pow_succ, hlow, hhigh]

theorem fixed64_append_inj {a b : Nat} {xs ys : Bytes} (ha : a < 2 ^ 64) (hb : b < 2 ^ 64)
    (h : fixed64 a ++ xs = fixed64 b ++ ys) : a = b ∧ xs = ys := by
  obtain ⟨hbytes, hrest⟩ := List.append_inj h (by simp [fixed64])
  refine ⟨?_, hrest⟩
  have hbyte : ∀ i < 8, a / Nat.pow 256 i % 256 = b / Nat.pow 256 i % 256 := by
    intro i hi
    have hone := List.map_inj_left.mp hbytes i (List.mem_range.mpr hi)
    have hone := congrArg UInt8.toNat hone
    simp only [UInt8.toNat_ofNat'] at hone
    omega
  have hsize : 2 ^ 64 = Nat.pow 256 8 := by decide
  have hmod := mod_eq_of_bytes hbyte
  rwa [Nat.mod_eq_of_lt (hsize ▸ ha), Nat.mod_eq_of_lt (hsize ▸ hb)] at hmod

/-- The wire type of a number. -/
def IntWire.wireType : IntWire → Nat
  | varint => 0
  | fixed64 => 1

/-- A number without its key. -/
def IntWire.write : IntWire → Nat → Bytes
  | varint, n => Protobuf.varint n
  | fixed64, n => Protobuf.fixed64 n

theorem IntWire.wireType_lt (wire : IntWire) : wire.wireType < 8 := by
  cases wire <;> decide

theorem IntWire.write_append_inj (wire : IntWire) {a b : Nat} {xs ys : Bytes} (ha : a < 2 ^ 64)
    (hb : b < 2 ^ 64) (h : wire.write a ++ xs = wire.write b ++ ys) : a = b ∧ xs = ys := by
  cases wire with
  | varint => exact varint_append_inj ha hb h
  | fixed64 => exact fixed64_append_inj ha hb h

theorem uintField_zero {wire : IntWire} {field n : Nat} (h : n = 0) : uintField wire field n = [] :=
  if_pos h

theorem uintField_of_ne {wire : IntWire} {field n : Nat} (h : n ≠ 0) :
    uintField wire field n = key field wire.wireType ++ wire.write n := by
  unfold uintField
  rw [if_neg h]
  cases wire <;> rfl

/-- The numbers that a field may have. -/
def FieldNumber (field : Nat) : Prop := field < 2 ^ 29

/-- The bytes do not begin with a key of the field. -/
def Avoids (field : Nat) (bytes : Bytes) : Prop :=
  ∀ wireType < 8, ∀ rest, bytes ≠ key field wireType ++ rest

theorem key_append_inj {field field' wireType wireType' : Nat} {xs ys : Bytes}
    (hfield : FieldNumber field) (hfield' : FieldNumber field') (hwire : wireType < 8)
    (hwire' : wireType' < 8) (h : key field wireType ++ xs = key field' wireType' ++ ys) :
    field = field' ∧ wireType = wireType' ∧ xs = ys := by
  unfold FieldNumber at hfield hfield'
  obtain ⟨hkey, hrest⟩ := varint_append_inj (by omega) (by omega) h
  exact ⟨by omega, by omega, hrest⟩

theorem avoids_nil (field : Nat) : Avoids field [] := by
  intro wireType _ rest h
  have hpos : 0 < (key field wireType).length := varintGroups_pos 9 _
  rw [(List.append_eq_nil_iff.mp h.symm).1] at hpos
  exact Nat.lt_irrefl 0 hpos

/-- Another field does not begin like this one. -/
theorem avoids_key {field other wireType : Nat} (hne : field ≠ other) (hfield : FieldNumber field)
    (hother : FieldNumber other) (hwire : wireType < 8) (rest : Bytes) :
    Avoids field (key other wireType ++ rest) := by
  intro wireType' hwire' rest' h
  exact hne (key_append_inj hother hfield hwire hwire' h).1.symm

theorem Avoids.bytesField {field other : Nat} {rest : Bytes} (h : Avoids field rest)
    (hne : field ≠ other) (hfield : FieldNumber field) (hother : FieldNumber other)
    (payload : Bytes) : Avoids field (bytesField other payload ++ rest) := by
  unfold Protobuf.bytesField lengthField
  split
  · exact h
  · rw [List.append_assoc, List.append_assoc]
    exact avoids_key hne hfield hother (by decide) _

theorem Avoids.uintField {field other : Nat} {rest : Bytes} (h : Avoids field rest)
    (hne : field ≠ other) (hfield : FieldNumber field) (hother : FieldNumber other)
    (wire : IntWire) (n : Nat) : Avoids field (uintField wire other n ++ rest) := by
  by_cases hn : n = 0
  · rw [uintField_zero hn]
    exact h
  · rw [uintField_of_ne hn, List.append_assoc]
    exact avoids_key hne hfield hother wire.wireType_lt _

theorem bytesField_append_inj {field : Nat} {payload payload' xs ys : Bytes}
    (hlen : payload.length < 2 ^ 64) (hlen' : payload'.length < 2 ^ 64) (hxs : Avoids field xs)
    (hys : Avoids field ys) (h : bytesField field payload ++ xs = bytesField field payload' ++ ys) :
    payload = payload' ∧ xs = ys := by
  unfold bytesField lengthField at h
  split at h
  · rename_i hnil
    split at h
    · rename_i hnil'
      exact ⟨hnil.trans hnil'.symm, h⟩
    · rw [List.nil_append, List.append_assoc, List.append_assoc] at h
      exact absurd h (hxs 2 (by decide) _)
  · split at h
    · rw [List.nil_append, List.append_assoc, List.append_assoc] at h
      exact absurd h.symm (hys 2 (by decide) _)
    · simp only [List.append_assoc, List.append_cancel_left_eq] at h
      obtain ⟨hlength, hrest⟩ := varint_append_inj hlen hlen' h
      exact List.append_inj hrest hlength

theorem uintField_append_inj {wire : IntWire} {field n n' : Nat} {xs ys : Bytes}
    (hn : n < 2 ^ 64) (hn' : n' < 2 ^ 64) (hxs : Avoids field xs) (hys : Avoids field ys)
    (h : uintField wire field n ++ xs = uintField wire field n' ++ ys) : n = n' ∧ xs = ys := by
  by_cases hzero : n = 0
  · rw [uintField_zero hzero] at h
    by_cases hzero' : n' = 0
    · rw [uintField_zero hzero'] at h
      exact ⟨hzero.trans hzero'.symm, h⟩
    · rw [uintField_of_ne hzero', List.append_assoc] at h
      exact absurd h (hxs _ wire.wireType_lt _)
  · rw [uintField_of_ne hzero, List.append_assoc] at h
    by_cases hzero' : n' = 0
    · rw [uintField_zero hzero'] at h
      exact absurd h.symm (hys _ wire.wireType_lt _)
    · rw [uintField_of_ne hzero', List.append_assoc] at h
      exact wire.write_append_inj hn hn' (List.append_cancel_left h)

end Protobuf
