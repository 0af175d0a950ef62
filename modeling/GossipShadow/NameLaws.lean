-- Laws of the ids that transactions have by default: an id is the name of the
-- author and the sequence number, with nothing between them.
import GossipShadow.Lib.Base58
import GossipShadow.Overlay
import GossipShadow.Protocol

namespace libp2p_dog

/-! ## Decimals -/

namespace Config

/-- The number that a string of digits stands for. -/
def value (digits : Bytes) : Nat := digits.foldl (fun n c => 10 * n + (c.toNat - 48)) 0

@[simp] theorem value_nil : value [] = 0 := rfl

@[simp] theorem value_concat (digits : Bytes) (c : UInt8) :
    value (digits ++ [c]) = 10 * value digits + (c.toNat - 48) := by
  simp [value, List.foldl_append]

/-- Each digit that is put behind makes the number ten times larger. -/
theorem value_mul_ten_le (digits : Bytes) {more : Bytes} (hmore : more ≠ []) :
    value digits * 10 ≤ value (digits ++ more) := by
  induction more using List.reverseRecOn with
  | nil => exact absurd rfl hmore
  | append_singleton more c ih =>
    rw [← List.append_assoc, value_concat]
    by_cases hnil : more = []
    · subst hnil
      rw [List.append_nil]
      omega
    · have hless := ih hnil
      omega

/-- A digit that does not stand for zero. -/
def nonzero (c : UInt8) : Prop := 49 ≤ c.toNat ∧ c.toNat ≤ 57

theorem toNat_digitChar {n : Nat} (hn : n < 10) : (Nat.digitChar n).toUInt8.toNat = 48 + n := by
  have hall : ∀ n < 10, (Nat.digitChar n).toUInt8.toNat = 48 + n := by decide
  exact hall n hn

theorem digitChar_toUInt8 {c : UInt8} (h : 48 ≤ c.toNat ∧ c.toNat ≤ 57) :
    (Nat.digitChar (c.toNat - 48)).toUInt8 = c := by
  apply UInt8.toNat_inj.mp
  rw [toNat_digitChar (by omega)]
  omega

/-- A string of digits without zeros is the decimal of its number. -/
theorem toDigits_value {digits : Bytes} (hne : digits ≠ []) (hdigits : ∀ c ∈ digits, nonzero c) :
    (Nat.toDigits 10 (value digits)).map Char.toUInt8 = digits ∧ 0 < value digits := by
  induction digits using List.reverseRecOn with
  | nil => exact absurd rfl hne
  | append_singleton digits c ih =>
    have hc : nonzero c := hdigits c (by simp)
    obtain ⟨hlow, hhigh⟩ := hc
    have hlast : (Nat.toDigits 10 (c.toNat - 48)).map Char.toUInt8 = [c] := by
      rw [Nat.toDigits_of_lt_base (by omega), List.map_singleton,
        digitChar_toUInt8 ⟨by omega, hhigh⟩]
    rw [value_concat]
    refine ⟨?_, by omega⟩
    by_cases hnil : digits = []
    · subst hnil
      simpa using hlast
    · obtain ⟨hrest, hpos⟩ := ih hnil fun c hc => hdigits c (by simp [hc])
      rw [← Nat.toDigits_append_toDigits (by omega) hpos (by omega), List.map_append, hrest, hlast]

theorem value_toDigits (n : Nat) : value ((Nat.toDigits 10 n).map Char.toUInt8) = n := by
  induction n using Nat.strong_induction_on with
  | _ n ih =>
    by_cases hn : n < 10
    · rw [Nat.toDigits_of_lt_base hn, List.map_singleton, ← List.nil_append [_], value_concat,
        toNat_digitChar hn]
      simp
    · have hlast : n % 10 < 10 := Nat.mod_lt n (by omega)
      have happend := Nat.toDigits_append_toDigits (by omega) (by omega : 0 < n / 10) hlast
      rw [Nat.div_add_mod] at happend
      rw [← happend, List.map_append, Nat.toDigits_of_lt_base hlast, List.map_singleton,
        value_concat, ih (n / 10) (by omega), toNat_digitChar hlast]
      omega

theorem value_decimal (n : UInt64) : value (decimal n) = n.toNat := value_toDigits n.toNat

theorem decimal_ne_nil (n : UInt64) : decimal n ≠ [] := by
  unfold decimal
  simp

theorem digit_of_mem_decimal {n : UInt64} {c : UInt8} (hc : c ∈ decimal n) :
    48 ≤ c.toNat ∧ c.toNat ≤ 57 := by
  obtain ⟨char, hchar, rfl⟩ := List.mem_map.mp hc
  obtain ⟨hbyte, hlow, hhigh⟩ := toUInt8_of_isDigit
    (Nat.isDigit_of_mem_toDigits (by omega) (by omega) hchar)
  omega

/-- Nonzero digits before the decimal of a number are the digits of a number. -/
theorem decimal_of_value {digits : Bytes} (hne : digits ≠ []) (hdigits : ∀ c ∈ digits, nonzero c)
    (hfits : value digits * 10 < UInt64.size) :
    decimal (UInt64.ofNat (value digits * 10)) = digits ++ decimal 0 := by
  obtain ⟨hvalue, hpos⟩ := toDigits_value hne hdigits
  have happend := Nat.toDigits_append_toDigits (by omega : 1 < 10) hpos (by omega : 0 < 10)
  have hnumber : (UInt64.ofNat (value digits * 10)).toNat = 10 * value digits + 0 := by
    rw [UInt64.toNat_ofNat_of_lt' hfits]
    omega
  unfold decimal
  rw [hnumber, ← happend, List.map_append, hvalue]
  rfl

end Config

/-! ## The names of authors -/

/-- The name of a peer is its bytes in base-58, and these bytes are the peer's alone. -/
structure Libp2p.Names (P : Type) [Libp2p P] : Prop where
  to_base58 : ∀ p : P, Libp2p.to_base58 p = Base58.encode (Libp2p.to_bytes p)
  from_bytes : ∀ p : P, Libp2p.from_bytes (Libp2p.to_bytes p) = some p

section

variable {P : Type} [Libp2p P]

theorem Libp2p.Names.injective (h : Libp2p.Names P) {p q : P}
    (hname : Libp2p.to_base58 p = Libp2p.to_base58 q) : p = q := by
  rw [h.to_base58, h.to_base58] at hname
  have hbytes := Base58.encode_injective hname
  have hsome : some p = some q := by rw [← h.from_bytes p, hbytes, h.from_bytes q]
  exact Option.some_inj.mp hsome

/-- There is no zero in base-58. -/
theorem Libp2p.Names.ne_zero (h : Libp2p.Names P) {p : P} {c : UInt8}
    (hc : c ∈ Libp2p.to_base58 p) : c.toNat ≠ 48 := by
  rw [h.to_base58] at hc
  have hall : ∀ c ∈ Base58.alphabet, c.toNat ≠ 48 := by decide +kernel
  exact hall c (Base58.mem_alphabet_of_mem_encode hc)

/-- The name of `q` is that of `p` with digits behind it, and these and one digit more are still a
sequence number. -/
def Clashes (p q : P) : Prop :=
  ∃ digits, digits ≠ [] ∧ (∀ c ∈ digits, Config.nonzero c) ∧
    Libp2p.to_base58 q = Libp2p.to_base58 p ++ digits ∧ Config.value digits * 10 < UInt64.size

/-- Sequence numbers of `p` and `q` that give one id. -/
theorem Clashes.exists_same_id {p q : P} (h : Clashes p q) :
    ∃ n : UInt64, Config.default_transaction_id { from_ := p, seqno := n, data := [] } =
      Config.default_transaction_id { from_ := q, seqno := 0, data := [] } := by
  obtain ⟨digits, hne, hdigits, hname, hfits⟩ := h
  refine ⟨UInt64.ofNat (Config.value digits * 10), ?_⟩
  simp only [Config.default_transaction_id, Config.decimal_of_value hne hdigits hfits, hname,
    List.append_assoc]

/-- What two transactions of one id have in common, or else their authors clash. -/
theorem clashes_of_append {p q : P} (hnames : Libp2p.Names P) {m n : UInt64} {digits : Bytes}
    (hname : Libp2p.to_base58 q = Libp2p.to_base58 p ++ digits)
    (hnumber : Config.decimal m = digits ++ Config.decimal n) :
    (p = q ∧ m = n) ∨ Clashes p q := by
  by_cases hnil : digits = []
  · subst hnil
    rw [List.append_nil] at hname
    exact .inl ⟨hnames.injective hname.symm, decimal_injective hnumber⟩
  · refine .inr ⟨digits, hnil, ?_, hname, ?_⟩
    · intro c hc
      have hdigit := Config.digit_of_mem_decimal (n := m) (c := c) (by simp [hnumber, hc])
      have hzero := hnames.ne_zero (p := q) (c := c) (by simp [hname, hc])
      unfold Config.nonzero
      omega
    · have hle := Config.value_mul_ten_le digits (Config.decimal_ne_nil n)
      rw [← hnumber, Config.value_decimal] at hle
      have hlt := m.toNat_lt
      unfold UInt64.size
      omega

theorem Clashes.ne {p q : P} (h : Clashes p q) : p ≠ q := by
  rintro rfl
  obtain ⟨digits, hne, -, hname, -⟩ := h
  rw [List.self_eq_append_right] at hname
  exact hne hname

/-- The ids that transactions have by default tell two authors, and the transactions of each, apart
unless the name of one author is that of the other with digits behind it that fit a sequence
number. -/
theorem the_default_ids_are_distinct_iff (hnames : Libp2p.Names P) (p q : P) :
    (∀ tx tx' : Transaction P, tx.from_ = p → tx'.from_ = q →
      Config.default_transaction_id tx = Config.default_transaction_id tx' →
      tx.from_ = tx'.from_ ∧ tx.seqno = tx'.seqno) ↔ ¬ Clashes p q ∧ ¬ Clashes q p := by
  constructor
  · intro hdistinct
    refine ⟨?_, ?_⟩
    · intro hclash
      obtain ⟨n, hsame⟩ := hclash.exists_same_id
      exact hclash.ne (hdistinct _ _ rfl rfl hsame).1
    · intro hclash
      obtain ⟨n, hsame⟩ := hclash.exists_same_id
      exact hclash.ne (hdistinct _ _ rfl rfl hsame.symm).1.symm
  · rintro ⟨hclash, hclash'⟩ tx tx' rfl rfl hid
    have hbytes := TransactionId.mk.inj hid
    rcases List.append_eq_append_iff.mp hbytes with
      ⟨digits, hname, hnumber⟩ | ⟨digits, hname, hnumber⟩
    · rcases clashes_of_append hnames hname hnumber with hsame | h
      · exact hsame
      · exact absurd h hclash
    · rcases clashes_of_append hnames hname hnumber with ⟨hauthor, hseqno⟩ | h
      · exact ⟨hauthor.symm, hseqno.symm⟩
      · exact absurd h hclash'

/-- The longer name is that of the second author. -/
theorem Clashes.length_lt {p q : P} (h : Clashes p q) :
    (Libp2p.to_base58 p).length < (Libp2p.to_base58 q).length := by
  obtain ⟨digits, hne, -, hname, -⟩ := h
  have hpos := List.length_pos_iff.mpr hne
  rw [hname, List.length_append]
  omega

end

/-! ## Names of one, and of two -/

namespace Sample

/-- A peer id is a multihash: a key of up to 42 bytes, or the digest of one. -/
structure PeerId where
  code : UInt8
  digest : Bytes
  admitted : (code = 0 ∧ digest.length ≤ 42) ∨ (code = 18 ∧ digest.length ≤ 64)
deriving DecidableEq

namespace PeerId

def to_bytes (p : PeerId) : Bytes := p.code :: UInt8.ofNat p.digest.length :: p.digest

def from_bytes : Bytes → Option PeerId
  | code :: size :: digest =>
    if h : digest.length = size.toNat ∧
        ((code = 0 ∧ digest.length ≤ 42) ∨ (code = 18 ∧ digest.length ≤ 64)) then
      some { code, digest, admitted := h.2 }
    else none
  | _ => none

theorem from_bytes_to_bytes (p : PeerId) : from_bytes p.to_bytes = some p := by
  have hlength : p.digest.length < 256 := by
    rcases p.admitted with ⟨-, hle⟩ | ⟨-, hle⟩ <;> omega
  have hsize : p.digest.length = (UInt8.ofNat p.digest.length).toNat := by
    rw [UInt8.toNat_ofNat_of_lt' hlength]
  unfold to_bytes from_bytes
  simp only
  rw [dif_pos ⟨hsize, p.admitted⟩]

end PeerId

/-- The names and the bytes are those of libp2p; in the place of a key stands the peer id. -/
instance : Libp2p PeerId where
  Keypair := PeerId
  PublicKey := PeerId
  public_key := id
  sign _ bytes := .ok [digest bytes]
  verify _ bytes signature := signature == [digest bytes]
  encode_protobuf := PeerId.to_bytes
  try_decode_protobuf := PeerId.from_bytes
  to_peer_id := id
  to_bytes := PeerId.to_bytes
  from_bytes := PeerId.from_bytes
  to_base58 p := Base58.encode p.to_bytes

theorem names : Libp2p.Names PeerId := ⟨fun _ => rfl, PeerId.from_bytes_to_bytes⟩

/-- An author with an inlined key. -/
def author (key : Bytes) (hkey : key.length ≤ 42) : PeerId := ⟨0, key, .inl ⟨rfl, hkey⟩⟩

end Sample

/-- The names of these authors have one length. -/
theorem the_default_ids_of_two_authors_are_distinct :
    Config.default_transaction_id
        { from_ := Sample.author [2] (by decide), seqno := 1110, data := [] } ≠
      Config.default_transaction_id
        { from_ := Sample.author [3] (by decide), seqno := 0, data := [] } := by
  have hlength : (Libp2p.to_base58 (Sample.author [2] (by decide))).length =
      (Libp2p.to_base58 (Sample.author [3] (by decide))).length := by decide
  have hdistinct := (the_default_ids_are_distinct_iff Sample.names (Sample.author [2] (by decide))
    (Sample.author [3] (by decide))).mpr
    ⟨fun h => absurd h.length_lt (by omega), fun h => absurd h.length_lt (by omega)⟩
  intro hid
  cases (hdistinct _ _ rfl rfl hid).2

/-- The codec lets through a transaction of each of two authors, and these have one id. -/
theorem two_authors_have_one_default_id :
    ∃ (random : Sample.PeerId) (transaction transaction' : proto.Transaction)
      (raw raw' : RawTransaction Sample.PeerId) (tx tx' : Transaction Sample.PeerId),
      DogCodec.decode_transaction .None random transaction = .ok raw ∧
      DogCodec.decode_transaction .None random transaction' = .ok raw' ∧
      IdentityTransform.inbound_transform raw = .ok tx ∧
      IdentityTransform.inbound_transform raw' = .ok tx' ∧
      Config.default_transaction_id tx = Config.default_transaction_id tx' ∧
      tx.from_ ≠ tx'.from_ ∧ tx.seqno ≠ tx'.seqno := by
  refine ⟨Sample.author [] (by decide),
    { from_ := [0, 1, 2], seqno := 1110, data := [], signature := [], key := [] },
    { from_ := [0, 3, 0, 28, 80], seqno := 0, data := [], signature := [], key := [] },
    _, _, _, _, rfl, rfl, rfl, rfl, ?_, by decide, by decide⟩
  decide

/-! ## The names of Ed25519 keys -/

/-- The bytes are those of the peer id of an Ed25519 key: a multihash of 36 bytes that are
themselves, the key in protobuf. -/
def Ed25519 (bytes : Bytes) : Prop :=
  ∃ key, key.length = 32 ∧ bytes = 0 :: 36 :: 8 :: 1 :: 18 :: 32 :: key

theorem length_encode_ed25519 {bytes : Bytes} (h : Ed25519 bytes) :
    (Base58.encode bytes).length = 52 := by
  obtain ⟨key, hkey, rfl⟩ := h
  have hlt : ∀ d ∈ (8 :: 1 :: 18 :: 32 :: key).map UInt8.toNat, d < 256 := by
    intro d hd
    obtain ⟨byte, -, rfl⟩ := List.mem_map.mp hd
    exact byte.toNat_lt
  have hrest := Radix.value_lt (by omega) hlt
  have hlength : ((8 :: 1 :: 18 :: 32 :: key).map UInt8.toNat).length = 36 := by simp [hkey]
  rw [hlength] at hrest
  -- the number is between 36 and 37 times the 36th power of 256
  have hvalue : Radix.value 256 ((0 :: 36 :: 8 :: 1 :: 18 :: 32 :: key).map UInt8.toNat) =
      36 * 256 ^ 36 + Radix.value 256 ((8 :: 1 :: 18 :: 32 :: key).map UInt8.toNat) := by
    have hcons := Radix.value_cons (b := 256) 36 ((8 :: 1 :: 18 :: 32 :: key).map UInt8.toNat)
    rw [hlength] at hcons
    exact (Radix.value_zero_cons _).trans hcons
  unfold Base58.encode Base58.digits
  rw [List.length_map, Radix.length_convert (k := 50) (by omega)]
  · rfl
  · rw [hvalue]
    omega
  · rw [hvalue]
    omega

/-- The default ids of nodes with Ed25519 keys are distinct. -/
theorem default_transaction_id_ed25519 {P F : Type} [Libp2p P] {o : Overlay P F}
    (hnames : Libp2p.Names P) (hid : o.transaction_id_fn = Config.default_transaction_id)
    (hkeys : ∀ v ∈ o.nodes, Ed25519 (Libp2p.to_bytes v)) : o.Distinct := by
  have hlength : ∀ v ∈ o.nodes, (Libp2p.to_base58 v).length = 52 := by
    intro v hv
    rw [hnames.to_base58]
    exact length_encode_ed25519 (hkeys v hv)
  apply default_transaction_id_distinct hid
  · intro p hp q hq
    rw [hlength p hp, hlength q hq]
  · exact fun p _ q _ => hnames.injective

/-- Two such nodes, with the default configuration. -/
example :
    let v := Sample.author (8 :: 1 :: 18 :: 32 :: List.replicate 32 1) (by decide)
    let w := Sample.author (8 :: 1 :: 18 :: 32 :: List.replicate 32 2) (by decide)
    ({ nodes := [v, w]
       keypair := fun p => p
       config := fun _ => .default
       seqno := fun _ => 0
       metrics := fun _ => false
       transaction_id_fn := Config.default_transaction_id
       data_transform := IdentityTransform
       identity := fun _ _ => rfl
       agree := fun _ => rfl
       lawful := identityTransform_lawful } : Overlay Sample.PeerId Rat).Distinct := by
  apply default_transaction_id_ed25519 Sample.names rfl
  intro p hp
  rcases List.mem_pair.mp hp with rfl | rfl
  · exact ⟨List.replicate 32 1, rfl, rfl⟩
  · exact ⟨List.replicate 32 2, rfl, rfl⟩

end libp2p_dog
