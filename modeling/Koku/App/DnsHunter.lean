import Koku.App.Bridge
import Koku.Rust.Append
import Koku.Rust.Pieces
import Koku.Rust.Seen

/-! # The resolvers of the app

`DnsHunter.kt`: the addresses that are tried as resolvers before the tunnel is up. `sampleCidr`
takes one of each known range (`sampleCidr_inside`); `customCandidates` takes those the user has
written down, which are addresses but for `Stray` pieces (`custom_resolvers_addresses_iff`). -/

namespace Koku.App

open Rust.Str Rust.Seen List

section Digits

-- the decimal digits of Unicode outside ASCII, with their values
variable (nd : Char → Option ℕ)

/-! ### Numbers -/

/-- `toIntOrNull` and `toLongOrNull`, for the numbers from `-max` up to `max`. -/
def numberOrNull (max : ℕ) (t : Text) : Option ℤ :=
  let ds := if t.head? = some '-' ∨ t.head? = some '+' then t.tail else t
  if ds ≠ [] ∧ ds.all (isDigit nd) then
    let n := ds.foldl (fun n c => 10 * n + (digit nd c).getD 0) 0
    (some (if t.head? = some '-' then -(n : ℤ) else n)).filter fun n => -max ≤ n ∧ n < max
  else none

/-- A text that reads as a number up to `max`. -/
structure Numeral (max : ℕ) where
  text : Text
  value : ℕ
  reads : digits text = some value
  le : value ≤ max

theorem isDigit_of_digits {t : Text} {n : ℕ} (h : digits t = some n) :
    t ≠ [] ∧ ∀ c ∈ t, c.isDigit = true := by
  unfold digits at h
  split_ifs at h with hall
  exact ⟨hall.1, all_eq_true.mp hall.2⟩

theorem digit_of_isDigit {c : Char} (h : c.isDigit = true) : digit nd c = some (c.toNat - 48) := by
  have hlt : c.toNat < 128 := by
    have : c.toNat ≤ 57 := (Char.isDigit_iff_toNat.mp h).2
    omega
  rw [digit, if_pos hlt, if_pos h]
  rfl

/-- ASCII digits are read as they are, whatever the other digits are. -/
theorem numberOrNull_of_digits {max : ℕ} {t : Text} {n : ℕ} (h : digits t = some n) (hn : n < max) :
    numberOrNull nd max t = some (n : ℤ) := by
  obtain ⟨hne, hall⟩ := isDigit_of_digits h
  have hsign : ∀ c, c.isDigit = false → t.head? ≠ some c := by
    intro c hc hhead
    have := hall c (mem_of_head? hhead)
    simp [hc] at this
  have hread : t.all (isDigit nd) = true :=
    all_eq_true.mpr fun c hc => by rw [isDigit, digit_of_isDigit nd (hall c hc), Option.isSome_some]
  have hvalue : t.foldl (fun n c => 10 * n + (digit nd c).getD 0) 0 = n := by
    rw [digits, if_pos ⟨hne, all_eq_true.mpr hall⟩] at h
    rw [← Option.some.inj h]
    exact foldl_ext _ _ 0 fun a c hc => by rw [digit_of_isDigit nd (hall c hc), Option.getD_some]
  simp only [numberOrNull, hsign '-' rfl, hsign '+' rfl, or_self, if_false, hne, hread, hvalue,
    ne_eq, not_false_eq_true, and_self, if_true]
  exact Option.filter_some_pos (decide_eq_true (by omega))

/-! ### Texts of an address -/

def dottedText (a b c d : Text) : Text := a ++ '.' :: (b ++ '.' :: (c ++ '.' :: d))

theorem notMem_of_digits {t : Text} {n : ℕ} {c : Char} (h : digits t = some n)
    (hc : c.isDigit = false) : c ∉ t := by
  intro hmem
  have := (isDigit_of_digits h).2 c hmem
  simp [hc] at this

theorem split_dottedText {m : ℕ} (a b c d : Numeral m) :
    split '.' (dottedText a.text b.text c.text d.text) = [a.text, b.text, c.text, d.text] := by
  have hdot (n : Numeral m) : '.' ∉ n.text := notMem_of_digits n.reads rfl
  rw [dottedText, split_append_cons (hdot a), split_append_cons (hdot b),
    split_append_cons (hdot c), split_of_notMem (hdot d)]

/-! ### One address of a range -/

def dotted (n : ℕ) : Text :=
  let octet (shift : ℕ) : Text := Nat.toDigits 10 ((n >>> shift) &&& 0xff)
  dottedText (octet 24) (octet 16) (octet 8) (octet 0)

/-- The address that is taken from a range. Nothing here reaches 63 bits. -/
def selected (value bits : ℕ) : ℕ :=
  let mask := if bits = 0 then 0 else (0xffffffff <<< (32 - bits)) &&& 0xffffffff
  let hostCount := 1 <<< (32 - bits)
  let offset := if hostCount ≤ 2 then 0 else 1 + (value ^^^ bits) % (hostCount - 2)
  ((value &&& mask) + offset) &&& 0xffffffff

/-- `sampleCidr`. -/
def sampleCidr (cidr : Text) : Option (Option Text) :=
  (splitOnce ['/'] cidr).map fun (address, prefixText) =>
    let octets := (split '.' address).filterMap (numberOrNull nd (2 ^ 63))
    match numberOrNull nd (2 ^ 31) prefixText with
    | none => none
    | some bits =>
      if octets.length ≠ 4 ∨ ¬(0 ≤ bits ∧ bits ≤ 32) ∨ octets.any fun n => ¬(0 ≤ n ∧ n ≤ 255)
        then none
      else
        let value := (octets.map Int.toNat).foldl (fun current octet => (current <<< 8) ||| octet) 0
        some (dotted (selected value bits.toNat))

theorem and_mask {value bits : ℕ} (hvalue : value < 2 ^ 32) :
    value &&& ((0xffffffff <<< (32 - bits)) &&& 0xffffffff) =
      value / 2 ^ (32 - bits) * 2 ^ (32 - bits) := by
  rw [← Nat.shiftRight_eq_div_pow, ← Nat.shiftLeft_eq]
  refine Nat.eq_of_testBit_eq fun i => ?_
  have hones : (0xffffffff : ℕ) = 2 ^ 32 - 1 := by norm_num
  rw [hones]
  simp only [Nat.testBit_and, Nat.testBit_shiftLeft, Nat.testBit_shiftRight,
    Nat.testBit_two_pow_sub_one]
  by_cases hi : 32 - bits ≤ i
  · have hback : 32 - bits + (i - (32 - bits)) = i := by omega
    by_cases hbit : i < 32
    · simp [hi, hback, hbit, show i - (32 - bits) < 32 by omega]
    · have hzero : value.testBit i = false :=
        Nat.testBit_lt_two_pow (hvalue.trans_le (Nat.pow_le_pow_right (by omega) (by omega)))
      simp [hback, hbit, hzero]
  · simp [hi]

/-- The address is in the network, and with more than two addresses at neither end. -/
theorem selected_spec {value bits : ℕ} (hvalue : value < 2 ^ 32) (hbits : bits ≤ 32) :
    selected value bits < 2 ^ 32 ∧ selected value bits / 2 ^ (32 - bits) = value / 2 ^ (32 - bits) ∧
      (bits ≤ 30 → 0 < selected value bits % 2 ^ (32 - bits) ∧
        selected value bits % 2 ^ (32 - bits) < 2 ^ (32 - bits) - 1) := by
  obtain ⟨k, hk⟩ : ∃ k, k = 32 - bits := ⟨_, rfl⟩
  have hpow : 2 ^ k ∣ 2 ^ 32 := Nat.pow_dvd_pow 2 (by omega)
  have hbase : value &&& (if bits = 0 then 0 else (0xffffffff <<< (32 - bits)) &&& 0xffffffff) =
      value / 2 ^ k * 2 ^ k := by
    split_ifs with h0
    · have hk32 : k = 32 := by omega
      rw [Nat.and_zero, hk32, Nat.div_eq_of_lt hvalue, Nat.zero_mul]
    · rw [and_mask hvalue, hk]
  have hpos : 0 < 2 ^ k := Nat.two_pow_pos k
  obtain ⟨offset, hoffset, hlt, hends⟩ : ∃ offset, offset = (if 1 <<< (32 - bits) ≤ 2 then 0
      else 1 + (value ^^^ bits) % (1 <<< (32 - bits) - 2)) ∧ offset < 2 ^ k ∧
        (bits ≤ 30 → 0 < offset ∧ offset < 2 ^ k - 1) := by
    refine ⟨_, rfl, ?_⟩
    rw [Nat.one_shiftLeft, ← hk]
    split_ifs with htwo
    · refine ⟨hpos, fun h => ?_⟩
      have : 2 ^ 2 ≤ 2 ^ k := Nat.pow_le_pow_right (by omega) (by omega)
      omega
    · have := Nat.mod_lt (value ^^^ bits) (show 0 < 2 ^ k - 2 by omega)
      exact ⟨by omega, fun _ => by omega⟩
  have hsum : value / 2 ^ k * 2 ^ k + offset < 2 ^ 32 := by
    obtain ⟨m, hm⟩ := hpow
    have hdiv : value / 2 ^ k < m := Nat.div_lt_of_lt_mul (by omega)
    calc value / 2 ^ k * 2 ^ k + offset < (value / 2 ^ k + 1) * 2 ^ k := by rw [Nat.add_mul]; omega
      _ ≤ m * 2 ^ k := Nat.mul_le_mul_right _ hdiv
      _ = 2 ^ 32 := by rw [hm, Nat.mul_comm]
  have hselected : selected value bits = value / 2 ^ k * 2 ^ k + offset := by
    simp only [selected]
    rw [hbase, ← hoffset]
    exact (Nat.and_two_pow_sub_one_eq_mod _ 32).trans (Nat.mod_eq_of_lt hsum)
  have hquot : (value / 2 ^ k * 2 ^ k + offset) / 2 ^ k = value / 2 ^ k := by
    rw [Nat.add_comm, Nat.add_mul_div_right _ _ hpos, Nat.div_eq_of_lt hlt, Nat.zero_add]
  have hrest : (value / 2 ^ k * 2 ^ k + offset) % 2 ^ k = offset := by
    rw [Nat.add_comm, Nat.add_mul_mod_self_right, Nat.mod_eq_of_lt hlt]
  rw [hselected, ← hk, hquot, hrest]
  exact ⟨hsum, rfl, hends⟩

/-- **A sampled address is a host of its range.** -/
theorem sampleCidr_inside (a b c d : Numeral 255) (p : Numeral 32) :
    let value := ((a.value * 256 + b.value) * 256 + c.value) * 256 + d.value
    let size := 2 ^ (32 - p.value)
    ∃ n < 2 ^ 32, sampleCidr nd (dottedText a.text b.text c.text d.text ++ '/' :: p.text) =
      some (some (dotted n)) ∧ n / size = value / size ∧
      (p.value ≤ 30 → 0 < n % size ∧ n % size < size - 1) := by
  intro value size
  have ha := a.le
  have hb := b.le
  have hc := c.le
  have hd := d.le
  have hp := p.le
  have hslash : '/' ∉ dottedText a.text b.text c.text d.text := by
    have h (n : Numeral 255) : '/' ∉ n.text := notMem_of_digits n.reads rfl
    simp [dottedText, h]
  have hoctet (n : Numeral 255) : numberOrNull nd (2 ^ 63) n.text = some (n.value : ℤ) :=
    numberOrNull_of_digits nd n.reads (by have := n.le; omega)
  have hbits : numberOrNull nd (2 ^ 31) p.text = some (p.value : ℤ) :=
    numberOrNull_of_digits nd p.reads (by omega)
  have hor (x : ℕ) {o : ℕ} (ho : o ≤ 255) : (x <<< 8) ||| o = x * 256 + o := by
    rw [← Nat.shiftLeft_add_eq_or_of_lt (by omega), Nat.shiftLeft_eq]
  have hspec := @selected_spec value p.value (by omega) hp
  refine ⟨selected value p.value, hspec.1, ?_, hspec.2⟩
  simp only [sampleCidr, splitOnce_char hslash, Option.map_some, split_dottedText, hbits,
    filterMap_cons, hoctet, filterMap_nil]
  rw [if_neg (by simp; omega)]
  simp only [map_cons, map_nil, Int.toNat_natCast, foldl_cons, foldl_nil, hor _ ha, hor _ hb,
    hor _ hc, hor _ hd, Nat.zero_mul, Nat.zero_add]
  rfl

/-! ### The user's resolvers -/

/-- `isIpv4`. -/
def isIpv4 (value : Text) : Bool :=
  let parts := (split '.' value).filterMap (numberOrNull nd (2 ^ 31))
  parts.length = 4 && parts.all fun n => 0 ≤ n ∧ n ≤ 255

/-- `Char.isWhitespace`. -/
def isSpace (c : Char) : Bool :=
  let n := c.toNat
  (0x09 ≤ n && n ≤ 0x0d) || (0x1c ≤ n && n ≤ 0x20) || (0x2000 ≤ n && n ≤ 0x200a) ||
    n ∈ [0xa0, 0x1680, 0x2028, 0x2029, 0x202f, 0x205f, 0x3000]

/-- `split` at the longest runs of such characters. -/
def splitRuns (sep : Char → Bool) : Text → List Text
  | [] => [[]]
  | c :: cs =>
    if sep c then (if cs.head?.any sep then splitRuns sep cs else [] :: splitRuns sep cs)
    else (splitRuns sep cs).modifyHead (c :: ·)

/-- The text split at commas and white space, which is what `white` says `\s` matches, and each
piece trimmed. -/
def pieces (white : Char → Bool) (value : Text) : List Text :=
  (splitRuns (fun c => c == ',' || white c) value).map fun t =>
    (t.dropWhile isSpace).rdropWhile isSpace

/-- The candidates of `selectCustomResolver`, all of which are tested. -/
def customCandidates (white : Char → Bool) (value : Text) : List Text :=
  (keepNew id [] ((pieces white value).filter (isIpv4 nd))).take 128

/-- Four numbers from 0 to 255 in ASCII digits, with dots between them. -/
def IsAddressText (t : Text) : Prop :=
  ∃ a b c d : Numeral 255, t = dottedText a.text b.text c.text d.text

/-- Some part between dots is not a number in ASCII digits, while four parts read as numbers up to
255 and no other part reads at all. -/
structure Stray (t : Text) : Prop where
  four : isIpv4 nd t = true
  odd : ∃ part ∈ split '.' t, ¬∃ n < 2 ^ 31, digits part = some n

theorem filterMap_numberOrNull {l : List Text} (h : ∀ t ∈ l, ∃ n < 2 ^ 31, digits t = some n) :
    l.filterMap (numberOrNull nd (2 ^ 31)) = l.map fun t => ((digits t).getD 0 : ℤ) := by
  rw [← filterMap_eq_map]
  refine filterMap_congr fun t ht => ?_
  obtain ⟨n, hn, hread⟩ := h t ht
  rw [numberOrNull_of_digits nd hread hn, Function.comp_apply, hread, Option.getD_some]

/-- When no part is dropped, the parts that are counted are all there are. -/
theorem isAddressText_iff {t : Text} (h : isIpv4 nd t = true) :
    IsAddressText t ↔ ∀ part ∈ split '.' t, ∃ n < 2 ^ 31, digits part = some n := by
  constructor
  · rintro ⟨a, b, c, d, rfl⟩ part hpart
    rw [split_dottedText] at hpart
    have hread (n : Numeral 255) : ∃ v < 2 ^ 31, digits n.text = some v :=
      ⟨n.value, by have := n.le; omega, n.reads⟩
    simp only [mem_cons, not_mem_nil, or_false] at hpart
    rcases hpart with rfl | rfl | rfl | rfl <;> exact hread _
  · intro hparts
    have hjoin : ['.'].intercalate (split '.' t) = t := intercalate_splitOn '.'
    simp only [isIpv4, filterMap_numberOrNull nd hparts, length_map, all_map, Bool.and_eq_true,
      decide_eq_true_eq] at h
    obtain ⟨hlen, hrange⟩ := h
    have hnumeral : ∀ part ∈ split '.' t, ∃ n : Numeral 255, n.text = part := by
      intro part hpart
      obtain ⟨n, -, hread⟩ := hparts part hpart
      have hle := all_eq_true.mp hrange part hpart
      simp only [Function.comp_apply, hread, Option.getD_some, decide_eq_true_eq] at hle
      exact ⟨⟨part, n, hread, by omega⟩, rfl⟩
    obtain ⟨p, q, r, s, hsplit⟩ := length_eq_four.mp hlen
    rw [hsplit] at hnumeral hjoin
    obtain ⟨a, rfl⟩ := hnumeral p (by simp)
    obtain ⟨b, rfl⟩ := hnumeral q (by simp)
    obtain ⟨c, rfl⟩ := hnumeral r (by simp)
    obtain ⟨d, rfl⟩ := hnumeral s (by simp)
    exact ⟨a, b, c, d, by rw [← hjoin]; simp [dottedText, intercalate]⟩

/-- **Every tested resolver is an address exactly if no stray piece counts**: one with fewer than
128 different pieces of four numbers in front of it. -/
theorem custom_resolvers_addresses_iff (white : Char → Bool) (value : Text) :
    (∀ t ∈ customCandidates nd white value, IsAddressText t) ↔
      ∀ before t after, pieces white value = before ++ t :: after → t ∉ before →
        (before.filter (isIpv4 nd)).toFinset.card < 128 → ¬Stray nd t := by
  constructor
  · rintro h before t after hpieces hnew hfew ⟨hfour, part, hpart, hodd⟩
    rw [← length_keepNew] at hfew
    have hmem : t ∈ customCandidates nd white value :=
      mem_take_keepNew_filter.mpr ⟨hfour, not_mem_nil, before, after, hpieces, hnew, hfew⟩
    exact hodd ((isAddressText_iff nd hfour).mp (h t hmem) part hpart)
  · intro h t hmem
    obtain ⟨hfour, -, before, after, hpieces, hnew, hfew⟩ := mem_take_keepNew_filter.mp hmem
    rw [length_keepNew] at hfew
    refine (isAddressText_iff nd hfour).mpr fun part hpart => ?_
    by_contra hodd
    exact h before t after hpieces hnew hfew ⟨hfour, part, hpart, hodd⟩

end Digits

/-- The name `x.1.2.3.4` is passed on. -/
theorem name_taken_for_address :
    "x.1.2.3.4".toList ∈ customCandidates (fun _ => none) (· == ' ') "x.1.2.3.4".toList ∧
      ¬IsAddressText "x.1.2.3.4".toList := by
  have hipv4 : isIpv4 (fun _ => none) "x.1.2.3.4".toList = true := by decide
  refine ⟨by decide, fun h => ?_⟩
  obtain ⟨n, -, hread⟩ := (isAddressText_iff (fun _ => none) hipv4).mp h ['x'] (by decide)
  exact absurd hread (by simp [digits])

end Koku.App
