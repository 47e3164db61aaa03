import Koku.Rust.Utf8

/-! # Reading and writing octets

`octets`: numbers in network byte order and the variable-length integers of QUIC (`getVarint`,
`putVarint`), whose first two bits say how many bytes there are. A reader is the bytes that are
left; what does not fit leaves them as they are. -/

namespace Koku.Masque

open Rust.Utf8 List

/-! ### Numbers -/

def bigEndian (bs : Bytes) : ℕ := bs.foldl (fun n b => n * 256 + b.toNat) 0

/-- The last `len` bytes of a number. -/
def toBigEndian : ℕ → ℕ → Bytes
  | 0, _ => []
  | len + 1, n => UInt8.ofNat (n / 256 ^ len) :: toBigEndian len n

@[simp] theorem length_toBigEndian (len n : ℕ) : (toBigEndian len n).length = len := by
  induction len with
  | zero => rfl
  | succ len ih => rw [toBigEndian, length_cons, ih]

theorem foldl_toBigEndian (len n m : ℕ) :
    (toBigEndian len n).foldl (fun n b => n * 256 + b.toNat) m = m * 256 ^ len + n % 256 ^ len := by
  induction len generalizing m with
  | zero => simp [toBigEndian, Nat.mod_one]
  | succ len ih =>
    have hbyte : (UInt8.ofNat (n / 256 ^ len)).toNat = n / 256 ^ len % 256 := by simp
    rw [toBigEndian, foldl_cons, ih, hbyte, pow_succ, Nat.mod_mul]
    ring

/-! ### Variable-length integers -/

/-- `varint_parse_len`. -/
def varintParseLen (first : UInt8) : ℕ :=
  match first.toNat >>> 6 with
  | 0 => 1
  | 1 => 2
  | 2 => 4
  | _ => 8

/-- `Octets::get_varint`. -/
def getVarint (bs : Bytes) : Option (ℕ × Bytes) :=
  match bs with
  | [] => none
  | first :: _ =>
    let len := varintParseLen first
    if len > bs.length then none
    else some (bigEndian (bs.take len) % 2 ^ (8 * len - 2), bs.drop len)

/-- `Octets::get_u8`. -/
def getU8 : Bytes → Option (UInt8 × Bytes)
  | [] => none
  | b :: bs => some (b, bs)

/-- `Octets::get_bytes`. -/
def getBytes (len : ℕ) (bs : Bytes) : Option (Bytes × Bytes) :=
  if bs.length < len then none else some (bs.take len, bs.drop len)

def maxVarInt : ℕ := 2 ^ 62 - 1

/-- `put_varint`: the length that `varint_len` gives, marked in the first byte. It panics on a
number that is too large. -/
def putVarint (v : ℕ) : Option Bytes :=
  if v ≤ 63 then some (toBigEndian 1 v)
  else if v ≤ 16383 then some ((toBigEndian 2 v).modifyHead (· ||| 0x40))
  else if v ≤ 1073741823 then some ((toBigEndian 4 v).modifyHead (· ||| 0x80))
  else if v ≤ maxVarInt then some ((toBigEndian 8 v).modifyHead (· ||| 0xc0))
  else none

theorem one_le_varintParseLen (first : UInt8) : 1 ≤ varintParseLen first := by
  unfold varintParseLen
  split <;> omega

theorem getVarint_append {bs rest : Bytes} {v : ℕ} (h : getVarint bs = some (v, rest))
    (more : Bytes) : getVarint (bs ++ more) = some (v, rest ++ more) := by
  cases bs with
  | nil => cases h
  | cons first tail =>
    simp only [getVarint] at h
    split_ifs at h with hlen
    cases h
    have hle : varintParseLen first ≤ (first :: tail).length := Nat.le_of_not_lt hlen
    have hle' : ¬varintParseLen first > ((first :: tail) ++ more).length := by
      rw [length_append]
      omega
    rw [cons_append] at hle' ⊢
    simp only [getVarint]
    rw [if_neg hle', ← cons_append, take_append_of_le_length hle,
      drop_append_of_le_length hle]

theorem getVarint_length {bs rest : Bytes} {v : ℕ} (h : getVarint bs = some (v, rest)) :
    rest.length < bs.length := by
  cases bs with
  | nil => cases h
  | cons first tail =>
    simp only [getVarint] at h
    split_ifs at h with hlen
    cases h
    have hpos := one_le_varintParseLen first
    rw [length_drop]
    simp only [length_cons] at hlen ⊢
    omega

theorem toNat_or_mark {b : UInt8} {mark : ℕ} (hb : b.toNat < 64) (hmark : mark < 4) :
    (b ||| UInt8.ofNat (mark * 64)).toNat = mark * 64 + b.toNat := by
  have hbyte : (UInt8.ofNat (mark * 64)).toNat = 2 ^ 6 * mark := by
    rw [UInt8.toNat_ofNat']
    omega
  rw [UInt8.toNat_or, hbyte, Nat.or_comm, ← Nat.two_pow_add_eq_or_of_lt (by omega)]
  omega

theorem varintParseLen_of_mark {first : UInt8} {mark v : ℕ} (hmark : mark < 4)
    (hfirst : first.toNat = mark * 64 + v) (hv : v < 64) : varintParseLen first = 2 ^ mark := by
  have hshift : first.toNat >>> 6 = mark := by
    rw [Nat.shiftRight_eq_div_pow, hfirst]
    omega
  unfold varintParseLen
  rw [hshift]
  interval_cases mark <;> rfl

theorem getVarint_marked (mark len : ℕ) {v : ℕ} (hmark : mark < 4) (hlen : 2 ^ mark = len + 1)
    (hv : v < 64 * 256 ^ len) (rest : Bytes) :
    getVarint ((toBigEndian (len + 1) v).modifyHead (· ||| UInt8.ofNat (mark * 64)) ++ rest) =
      some (v, rest) := by
  have hhigh : v / 256 ^ len < 64 := Nat.div_lt_of_lt_mul (by rw [Nat.mul_comm]; exact hv)
  set b := UInt8.ofNat (v / 256 ^ len) with hb
  have hbyte : b.toNat = v / 256 ^ len := by
    rw [hb, UInt8.toNat_ofNat']
    exact Nat.mod_eq_of_lt (hhigh.trans (by decide))
  have hfirst : (b ||| UInt8.ofNat (mark * 64)).toNat = mark * 64 + v / 256 ^ len := by
    rw [toNat_or_mark (by omega) hmark, hbyte]
  have hparse := varintParseLen_of_mark hmark hfirst hhigh
  have hlong :
      ¬len + 1 > ((b ||| UInt8.ofNat (mark * 64)) :: toBigEndian len v ++ rest).length := by
    simp
  -- the mark stands above the bits that are kept
  have hvalue : ((mark * 64 + v / 256 ^ len) * 256 ^ len + v % 256 ^ len) % (64 * 256 ^ len) =
      v := by
    have hsplit : (mark * 64 + v / 256 ^ len) * 256 ^ len + v % 256 ^ len =
        v + 64 * 256 ^ len * mark := by
      have hdiv := Nat.div_add_mod v (256 ^ len)
      nlinarith
    rw [hsplit, Nat.add_mul_mod_self_left, Nat.mod_eq_of_lt hv]
  have hpow : 2 ^ (8 * (len + 1) - 2) = 64 * 256 ^ len := by
    rw [show 8 * (len + 1) - 2 = 6 + 8 * len by omega, pow_add, pow_mul]
    norm_num
  simp only [toBigEndian, ← hb, modifyHead_cons, cons_append, getVarint]
  rw [hparse, hlen, ← cons_append, if_neg hlong, take_left' (by simp), drop_left' (by simp),
    bigEndian, foldl_cons, foldl_toBigEndian, Nat.zero_mul, Nat.zero_add, hfirst, hpow, hvalue]

/-- **A number that was written is read back.** -/
theorem getVarint_putVarint {v : ℕ} {bs : Bytes} (h : putVarint v = some bs) (rest : Bytes) :
    getVarint (bs ++ rest) = some (v, rest) := by
  unfold putVarint maxVarInt at h
  split_ifs at h with h1 h2 h4 h8 <;> cases h
  · have hread := getVarint_marked 0 0 (v := v) (by omega) rfl (by omega) rest
    simpa [toBigEndian] using hread
  · exact getVarint_marked 1 1 (by omega) rfl (by omega) rest
  · exact getVarint_marked 2 3 (by omega) rfl (by omega) rest
  · exact getVarint_marked 3 7 (by omega) rfl (by omega) rest

end Koku.Masque
