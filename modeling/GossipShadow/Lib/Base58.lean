-- Numerals, the most significant digit first. Two numerals of one number may
-- differ in the zeros at their front, so a change of the base that keeps these
-- loses nothing; base-58 is such a change of the base 256.
import Mathlib.Data.Nat.Digits.Lemmas

namespace Radix

variable {b c : Nat} {l l' : List Nat}

/-- How many zeros a numeral starts with. -/
def zeros : List Nat → Nat
  | 0 :: l => zeros l + 1
  | _ => 0

def value (b : Nat) (l : List Nat) : Nat := Nat.ofDigits b l.reverse

/-- The numeral of `n` with `z` zeros at its front. -/
def numeral (b z n : Nat) : List Nat := List.replicate z 0 ++ (Nat.digits b n).reverse

@[simp] theorem zeros_nil : zeros [] = 0 := rfl

@[simp] theorem zeros_zero_cons (l : List Nat) : zeros (0 :: l) = zeros l + 1 := rfl

theorem zeros_cons_of_ne {d : Nat} (hd : d ≠ 0) (l : List Nat) : zeros (d :: l) = 0 := by
  cases d with
  | zero => exact absurd rfl hd
  | succ d => rfl

@[simp] theorem value_zero_cons (l : List Nat) : value b (0 :: l) = value b l := by
  simp [value, Nat.ofDigits_append]

theorem value_cons (d : Nat) (l : List Nat) : value b (d :: l) = d * b ^ l.length + value b l := by
  unfold value
  rw [List.reverse_cons, Nat.ofDigits_append, Nat.ofDigits_singleton, List.length_reverse]
  ring

theorem value_lt (hb : 1 < b) (hl : ∀ d ∈ l, d < b) : value b l < b ^ l.length := by
  have hlt := Nat.ofDigits_lt_base_pow_length hb fun d hd => hl d (List.mem_reverse.mp hd)
  rwa [List.length_reverse] at hlt

theorem zeros_digits (b n : Nat) : zeros (Nat.digits b n).reverse = 0 := by
  cases h : (Nat.digits b n).reverse with
  | nil => rfl
  | cons d rest =>
    apply zeros_cons_of_ne
    have hne : Nat.digits b n ≠ [] := by
      intro hnil
      rw [hnil] at h
      cases h
    have hn : n ≠ 0 := Nat.digits_ne_nil_iff_ne_zero.mp hne
    have hlast : (Nat.digits b n).getLast hne = d := by
      have hrev : Nat.digits b n = (d :: rest).reverse := by rw [← h, List.reverse_reverse]
      simp only [hrev, List.reverse_cons, List.getLast_append, List.getLast_singleton]
      simp
    rw [← hlast]
    exact Nat.getLast_digit_ne_zero b hn

@[simp] theorem zeros_numeral (b z n : Nat) : zeros (numeral b z n) = z := by
  unfold numeral
  induction z with
  | zero => exact zeros_digits b n
  | succ z ih => rw [List.replicate_succ, List.cons_append, zeros_zero_cons, ih]

@[simp] theorem value_numeral (b z n : Nat) : value b (numeral b z n) = n := by
  unfold numeral
  induction z with
  | zero => simp [value, Nat.ofDigits_digits]
  | succ z ih => rw [List.replicate_succ, List.cons_append, value_zero_cons, ih]

/-- A numeral is told by the zeros at its front and its value. -/
theorem numeral_zeros_value (hb : 1 < b) (hl : ∀ d ∈ l, d < b) :
    numeral b (zeros l) (value b l) = l := by
  induction l with
  | nil => simp [numeral, value]
  | cons d l ih =>
    by_cases hd : d = 0
    · subst hd
      have hrest := ih fun d hmem => hl d (List.mem_cons_of_mem 0 hmem)
      unfold numeral at hrest ⊢
      rw [zeros_zero_cons, value_zero_cons, List.replicate_succ, List.cons_append, hrest]
    · have hdigits : Nat.digits b (value b (d :: l)) = (d :: l).reverse := by
        apply Nat.digits_ofDigits b hb
        · intro e he
          exact hl e (List.mem_reverse.mp he)
        · intro _
          simpa using hd
      rw [numeral, zeros_cons_of_ne hd, hdigits, List.replicate_zero, List.nil_append,
        List.reverse_reverse]

/-- The numeral in another base, with as many zeros at its front. -/
def convert (b c : Nat) (l : List Nat) : List Nat := numeral c (zeros l) (value b l)

theorem convert_convert (hb : 1 < b) (hl : ∀ d ∈ l, d < b) : convert c b (convert b c l) = l := by
  unfold convert
  rw [zeros_numeral, value_numeral, numeral_zeros_value hb hl]

theorem convert_lt (hc : 1 < c) (l : List Nat) : ∀ d ∈ convert b c l, d < c := by
  intro d hd
  rcases List.mem_append.mp hd with hd | hd
  · rw [List.eq_of_mem_replicate hd]
    omega
  · exact Nat.digits_lt_base hc (List.mem_reverse.mp hd)

/-- How long a numeral gets in another base. -/
theorem length_convert {k : Nat} (hc : 1 < c) (hlow : c ^ k ≤ value b l)
    (hhigh : value b l < c ^ (k + 1)) : (convert b c l).length = zeros l + (k + 1) := by
  have hmore := (Nat.lt_digits_length_iff hc _).mpr hlow
  have hless := (Nat.digits_length_le_iff hc _).mpr hhigh
  unfold convert numeral
  rw [List.length_append, List.length_replicate, List.length_reverse]
  omega

end Radix

namespace Base58

/-- Letters and digits, without those that look alike. -/
def alphabet : List UInt8 :=
  ['1', '2', '3', '4', '5', '6', '7', '8', '9',
    'A', 'B', 'C', 'D', 'E', 'F', 'G', 'H', 'J', 'K', 'L', 'M', 'N', 'P', 'Q', 'R', 'S', 'T', 'U',
    'V', 'W', 'X', 'Y', 'Z',
    'a', 'b', 'c', 'd', 'e', 'f', 'g', 'h', 'i', 'j', 'k', 'm', 'n', 'o', 'p', 'q', 'r', 's', 't',
    'u', 'v', 'w', 'x', 'y', 'z'].map Char.toUInt8

def letter (d : Nat) : UInt8 := alphabet.getD d 0

def digits (bytes : List UInt8) : List Nat := Radix.convert 256 58 (bytes.map UInt8.toNat)

def encode (bytes : List UInt8) : List UInt8 := (digits bytes).map letter

/-- The letters are distinct. -/
theorem idxOf_letter {d : Nat} (hd : d < 58) : alphabet.idxOf (letter d) = d := by
  have hnodup : alphabet.Nodup := by decide
  have hlt : d < alphabet.length := hd
  have hletter : letter d = alphabet[d] := by simp [letter, hlt]
  rw [hletter]
  exact hnodup.idxOf_getElem d hlt

theorem letter_mem {d : Nat} (hd : d < 58) : letter d ∈ alphabet := by
  have hlt : d < alphabet.length := hd
  have hletter : letter d = alphabet[d] := by simp [letter, hlt]
  rw [hletter]
  exact List.getElem_mem hlt

theorem digits_lt (bytes : List UInt8) : ∀ d ∈ digits bytes, d < 58 :=
  Radix.convert_lt (by omega) _

theorem mem_alphabet_of_mem_encode {bytes : List UInt8} {c : UInt8} (h : c ∈ encode bytes) :
    c ∈ alphabet := by
  obtain ⟨d, hd, rfl⟩ := List.mem_map.mp h
  exact letter_mem (digits_lt bytes d hd)

def decode (name : List UInt8) : List UInt8 :=
  (Radix.convert 58 256 (name.map alphabet.idxOf)).map UInt8.ofNat

theorem decode_encode (bytes : List UInt8) : decode (encode bytes) = bytes := by
  have hback : (encode bytes).map alphabet.idxOf = digits bytes := by
    unfold encode
    rw [List.map_map]
    calc (digits bytes).map (alphabet.idxOf ∘ letter) = (digits bytes).map id := by
          apply List.map_congr_left
          intro d hd
          exact idxOf_letter (digits_lt bytes d hd)
      _ = digits bytes := List.map_id _
  have hbytes : ∀ d ∈ bytes.map UInt8.toNat, d < 256 := by
    intro d hd
    obtain ⟨byte, -, rfl⟩ := List.mem_map.mp hd
    exact byte.toNat_lt
  unfold decode
  rw [hback, digits, Radix.convert_convert (by omega) hbytes, List.map_map]
  have hid : UInt8.ofNat ∘ UInt8.toNat = id := by
    funext byte
    exact UInt8.ofNat_toNat
  rw [hid, List.map_id]

theorem encode_injective : Function.Injective encode :=
  Function.LeftInverse.injective decode_encode

end Base58
