-- Decimal texts: how a number is written, with or without leading zeros, and
-- which texts are read as a number.
import Mathlib.Data.List.DropRight
import Mathlib.Data.List.TakeWhile
import Mathlib.Data.Nat.Notation

namespace Decimal

/-! ## Writing -/

def write (n : Nat) : List Char := Nat.toDigits 10 n

/-- With leading zeros, up to a width. -/
def pad (width n : Nat) : List Char := List.replicate (width - (write n).length) '0' ++ write n

def writeInt : Int → List Char
  | .ofNat n => write n
  | .negSucc n => '-' :: write (n + 1)

/-! ## Reading -/

def strip (text : List Char) : List Char :=
  (text.dropWhile Char.isWhitespace).rdropWhile Char.isWhitespace

/-- Reads digits. There may be single underscores between them. -/
def readNat (text : List Char) : Option Nat :=
  if (text.all fun c => c.isDigit || c == '_') &&
      (text.splitOn '_').all fun group => !group.isEmpty then
    some (Nat.ofDigitChars 10 (text.filter (· != '_')) 0)
  else none

/-- Reads a number with or without a sign. Blanks around it do not count. -/
def read (text : List Char) : Option Int :=
  match strip text with
  | '-' :: digits => (readNat digits).map fun (n : Nat) => -(n : Int)
  | '+' :: digits => (readNat digits).map Int.ofNat
  | digits => (readNat digits).map Int.ofNat

/-! ## What is written is read back -/

structure IsDigits (text : List Char) : Prop where
  digits : ∀ c ∈ text, c.isDigit = true
  ne_nil : text ≠ []

/-- A character that is no digit is not in the text. -/
theorem IsDigits.notMem {text : List Char} (h : IsDigits text) {c : Char}
    (hc : c.isDigit = false) : c ∉ text := by
  intro hmem
  rw [h.digits c hmem] at hc
  cases hc

theorem isDigits_write (n : Nat) : IsDigits (write n) where
  digits _ hc := Nat.isDigit_of_mem_toDigits (by decide) (by decide) hc
  ne_nil := Nat.toDigits_ne_nil

theorem isDigits_pad (width n : Nat) : IsDigits (pad width n) where
  digits c hc := by
    rcases List.mem_append.mp hc with hzero | hwritten
    · rw [List.eq_of_mem_replicate hzero]
      rfl
    · exact (isDigits_write n).digits c hwritten
  ne_nil := by simp [pad, (isDigits_write n).ne_nil]

theorem value_write (n : Nat) : Nat.ofDigitChars 10 (write n) 0 = n := Nat.ofDigitChars_ten_toDigits

theorem value_pad (width n : Nat) : Nat.ofDigitChars 10 (pad width n) 0 = n := by
  unfold pad
  rw [Nat.ofDigitChars_append, Nat.ofDigitChars_replicate_zero, Nat.mul_zero, value_write]

theorem isWhitespace_of_isDigit {c : Char} (h : c.isDigit = true) : c.isWhitespace = false := by
  by_contra hspace
  simp only [Char.isWhitespace, Bool.or_eq_true, decide_eq_true_eq, Bool.not_eq_false] at hspace
  rcases hspace with ((rfl | rfl) | rfl) | rfl
  all_goals cases h

theorem strip_of_isDigits {text : List Char} (h : IsDigits text) : strip text = text := by
  have hleft : text.dropWhile Char.isWhitespace = text := by
    apply List.dropWhile_eq_self_iff.mpr
    intro hpos
    simp [isWhitespace_of_isDigit (h.digits _ (List.getElem_mem hpos))]
  unfold strip
  rw [hleft, List.rdropWhile_eq_self_iff]
  intro hne
  simp [isWhitespace_of_isDigit (h.digits _ (List.getLast_mem hne))]

theorem readNat_of_isDigits {text : List Char} (h : IsDigits text) :
    readNat text = some (Nat.ofDigitChars 10 text 0) := by
  have hgroups : text.splitOn '_' = [text] := List.splitOn_eq_singleton (h.notMem rfl)
  have hfilter : text.filter (· != '_') = text := by
    apply List.filter_eq_self.mpr
    intro c hc
    rw [bne_iff_ne]
    rintro rfl
    exact h.notMem rfl hc
  have hall : (text.all fun c => c.isDigit || c == '_') = true := by
    apply List.all_eq_true.mpr
    intro c hc
    rw [h.digits c hc, Bool.true_or]
  unfold readNat
  rw [hgroups, hfilter, hall]
  simp [h.ne_nil]

theorem read_of_isDigits {text : List Char} (h : IsDigits text) :
    read text = some ((Nat.ofDigitChars 10 text 0 : Nat) : Int) := by
  have hread : (readNat text).map Int.ofNat = some ((Nat.ofDigitChars 10 text 0 : Nat) : Int) := by
    rw [readNat_of_isDigits h]
    rfl
  unfold read
  rw [strip_of_isDigits h]
  split
  · exact absurd List.mem_cons_self (h.notMem rfl)
  · exact absurd List.mem_cons_self (h.notMem rfl)
  · exact hread

theorem read_write (n : Nat) : read (write n) = some (n : Int) := by
  rw [read_of_isDigits (isDigits_write n), value_write]

theorem read_pad (width n : Nat) : read (pad width n) = some (n : Int) := by
  rw [read_of_isDigits (isDigits_pad width n), value_pad]

theorem read_writeInt (n : Int) : read (writeInt n) = some n := by
  cases n with
  | ofNat n => exact read_write n
  | negSucc n =>
    have hstrip : strip ('-' :: write (n + 1)) = '-' :: write (n + 1) := by
      unfold strip
      rw [List.dropWhile_cons_of_neg (by decide), List.rdropWhile_eq_self_iff]
      intro hne
      rw [List.getLast_cons (isDigits_write (n + 1)).ne_nil]
      have hlast := (isDigits_write (n + 1)).digits _
        (List.getLast_mem (isDigits_write (n + 1)).ne_nil)
      simp [isWhitespace_of_isDigit hlast]
    have hread := readNat_of_isDigits (isDigits_write (n + 1))
    rw [value_write] at hread
    unfold read writeInt
    simp only [hstrip, hread]
    rfl

theorem writeInt_injective : Function.Injective writeInt := by
  intro m n h
  have hread := congrArg read h
  rw [read_writeInt, read_writeInt] at hread
  exact Option.some.inj hread

/-! ## What is read as a number -/

theorem mem_of_mem_rdropWhile {p : Char → Bool} {text : List Char} {c : Char} (hc : c ∈ text) :
    c ∈ text.rdropWhile p ∨ p c = true := by
  have hsplit := text.rdropWhile_append_rtakeWhile (p := p)
  rw [← hsplit] at hc
  rcases List.mem_append.mp hc with hkept | hdropped
  · exact Or.inl hkept
  · exact Or.inr (List.mem_rtakeWhile_imp hdropped)

theorem mem_of_mem_dropWhile {p : Char → Bool} {text : List Char} {c : Char} (hc : c ∈ text) :
    c ∈ text.dropWhile p ∨ p c = true := by
  rw [← List.takeWhile_append_dropWhile (p := p) (l := text)] at hc
  rcases List.mem_append.mp hc with hdropped | hkept
  · exact Or.inr (List.mem_takeWhile_imp hdropped)
  · exact Or.inl hkept

/-- The characters that a number is read from. -/
def isNumeral (c : Char) : Bool :=
  c.isDigit || c == '_' || c == '+' || c == '-' || c.isWhitespace

theorem isNumeral_of_readNat {text : List Char} {n : Nat} (h : readNat text = some n) :
    ∀ c ∈ text, isNumeral c = true := by
  unfold readNat at h
  split at h
  · rename_i hvalid
    have hall := List.all_eq_true.mp (Bool.and_eq_true_iff.mp hvalid).1
    intro c hc
    have hdigit := hall c hc
    unfold isNumeral
    rw [hdigit]
    rfl
  · cases h

/-- A text with any other character is not read as a number. -/
theorem isNumeral_of_read {text : List Char} {n : Int} (h : read text = some n) :
    ∀ c ∈ text, isNumeral c = true := by
  have hstrip : ∀ c ∈ strip text, isNumeral c = true := by
    unfold read at h
    split at h
    · rename_i digits hs
      obtain ⟨m, hm, -⟩ := Option.map_eq_some_iff.mp h
      rw [hs]
      exact List.forall_mem_cons.mpr ⟨rfl, isNumeral_of_readNat hm⟩
    · rename_i digits hs
      obtain ⟨m, hm, -⟩ := Option.map_eq_some_iff.mp h
      rw [hs]
      exact List.forall_mem_cons.mpr ⟨rfl, isNumeral_of_readNat hm⟩
    · obtain ⟨m, hm, -⟩ := Option.map_eq_some_iff.mp h
      exact isNumeral_of_readNat hm
  intro c hc
  rcases mem_of_mem_dropWhile (p := Char.isWhitespace) hc with hc | hblank
  · rcases mem_of_mem_rdropWhile (p := Char.isWhitespace) hc with hc | hblank
    · exact hstrip c hc
    · simp [isNumeral, hblank]
  · simp [isNumeral, hblank]

end Decimal
