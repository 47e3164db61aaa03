import Koku.Rust.Net
import Koku.Rust.Utf8

/-! # The checksum of an IPv4 header

`ipv4HeaderChecksum` of `masque.rs` adds up the words of a header in 32 bits and folds the carries
back; a sum that does not fit is `none`. What counts for the receiver is the sum in ones' complement
(`onesSum`), where a carry comes back at once (`checksum_stored`). -/

namespace Koku.Masque

open Rust.Utf8 Rust.Net List

/-! ### The function -/

/-- `a + b` of `u32`. -/
def add32 (a b : ℕ) : Option ℕ := if a + b < 2 ^ 32 then some (a + b) else none

/-- The loop over the words, and a last byte without a second one. -/
def sumWords : ℕ → Bytes → Option ℕ
  | sum, hi :: lo :: rest => (add32 sum (hi.toNat * 256 + lo.toNat)).bind fun sum =>
    sumWords sum rest
  | sum, [last] => add32 sum (last.toNat * 256)
  | sum, [] => some sum

/-- The loop that folds the carries. -/
def foldCarries (sum : ℕ) : Option ℕ :=
  if sum / 65536 = 0 then some sum
  else if sum % 65536 + sum / 65536 < 2 ^ 32 then foldCarries (sum % 65536 + sum / 65536)
  else none
termination_by sum
decreasing_by omega

/-- `ipv4_header_checksum`. -/
def ipv4HeaderChecksum (header : Bytes) : Option UInt16 := do
  let sum ← sumWords 0 header
  let sum ← foldCarries sum
  return ~~~(UInt16.ofNat sum)

/-! ### The sum of the receiver -/

/-- The words of sixteen bits. -/
def words : Bytes → List ℕ
  | hi :: lo :: rest => (hi.toNat * 256 + lo.toNat) :: words rest
  | _ => []

def onesAdd (a b : ℕ) : ℕ := if a + b < 65536 then a + b else a + b - 65535

/-- The sum in ones' complement. -/
def onesSum (l : List ℕ) : ℕ := l.foldl onesAdd 0

variable {l : Bytes} {sum : ℕ}

theorem words_append : ∀ {l : Bytes}, l.length % 2 = 0 → ∀ m, words (l ++ m) = words l ++ words m
  | [], _, _ => rfl
  | [_], h, _ => by simp at h
  | hi :: lo :: rest, h, m => by
    have hrest : rest.length % 2 = 0 := by
      simp only [length_cons] at h
      omega
    rw [cons_append, cons_append, words, words, words_append hrest, cons_append]

theorem words_lt : ∀ {l : Bytes}, ∀ w ∈ words l, w < 65536
  | hi :: lo :: rest, w, h => by
    rcases mem_cons.mp h with rfl | h
    · have := hi.toNat_lt
      have := lo.toNat_lt
      omega
    · exact words_lt w h

theorem sumWords_eq : ∀ {l : Bytes} {sum : ℕ}, l.length % 2 = 0 → sum + 65536 * l.length < 2 ^ 32 →
    sumWords sum l = some (sum + (words l).sum) ∧ sum + (words l).sum < 2 ^ 32
  | [], _, _, h => ⟨rfl, h⟩
  | [_], _, h, _ => by simp at h
  | hi :: lo :: rest, sum, h, hlt => by
    simp only [length_cons] at h hlt
    have := hi.toNat_lt
    have := lo.toNat_lt
    have hadd : add32 sum (hi.toNat * 256 + lo.toNat) = some (sum + (hi.toNat * 256 + lo.toNat)) :=
      if_pos (by omega)
    have hrest := @sumWords_eq rest (sum + (hi.toNat * 256 + lo.toNat)) (by omega) (by omega)
    rw [Nat.add_assoc] at hrest
    rw [sumWords, hadd, Option.bind_some, words, sum_cons]
    exact hrest

theorem words_beBytes (n : UInt16) : words (beBytes n) = [n.toNat] := by
  have := n.toNat_lt
  simp only [words, beBytes, UInt16.toNat_toUInt8, UInt16.toNat_shiftRight, UInt16.reduceToNat,
    Nat.shiftRight_eq_div_pow]
  congr 1
  norm_num
  omega

/-- Folding ends, and keeps the remainder modulo 65535. -/
theorem foldCarries_spec (hsum : sum < 2 ^ 32) :
    ∃ f, foldCarries sum = some f ∧ f < 65536 ∧ f ≤ sum ∧ f % 65535 = sum % 65535 := by
  induction sum using Nat.strong_induction_on with
  | _ sum ih =>
    rw [foldCarries]
    split_ifs with hzero hfits
    · exact ⟨sum, rfl, by omega, le_rfl, rfl⟩
    · obtain ⟨f, hf, hlt, hle, hmod⟩ := ih (sum % 65536 + sum / 65536) (by omega) (by omega)
      exact ⟨f, hf, hlt, by omega, by omega⟩
    · omega

theorem foldl_onesAdd {l : List ℕ} (hl : ∀ w ∈ l, w < 65536) {a : ℕ} (ha : a < 65536) :
    l.foldl onesAdd a < 65536 ∧ (l.foldl onesAdd a) % 65535 = (a + l.sum) % 65535 ∧
      (l.foldl onesAdd a = 0 → a + l.sum = 0) := by
  induction l generalizing a with
  | nil => exact ⟨ha, rfl, id⟩
  | cons w l ih =>
    have hw := hl w mem_cons_self
    have hadd : onesAdd a w < 65536 ∧ onesAdd a w % 65535 = (a + w) % 65535 ∧
        (onesAdd a w = 0 → a + w = 0) := by
      unfold onesAdd
      split_ifs <;> omega
    obtain ⟨hlt, hmod, hzero⟩ := ih (fun w hw => hl w (mem_cons_of_mem _ hw)) hadd.1
    rw [foldl_cons, sum_cons]
    exact ⟨hlt, by omega, fun h => by have := hzero h; omega⟩

/-- **The checksum makes the sum of the header 0xffff**: it is computed without an overflow, and
with it in bytes 10 and 11 the words add up to all ones. -/
theorem checksum_stored (header : Bytes) (heven : header.length % 2 = 0)
    (hlen : header.length ≤ 65534) (h10 : header[10]? = some 0) (h11 : header[11]? = some 0) :
    ∃ c, ipv4HeaderChecksum header = some c ∧
      onesSum (words (header.take 10 ++ (beBytes c ++ header.drop 12))) = 65535 := by
  obtain ⟨hlt, -⟩ := List.getElem?_eq_some_iff.mp h11
  have hcut : header = header.take 10 ++ ([0, 0] ++ header.drop 12) := by
    have hdrop : header.drop 10 = 0 :: 0 :: header.drop 12 := by
      rw [drop_eq_getElem_cons (by omega), drop_eq_getElem_cons (by omega),
        (List.getElem?_eq_some_iff.mp h10).2, (List.getElem?_eq_some_iff.mp h11).2]
    conv_lhs => rw [← take_append_drop 10 header, hdrop]
    rfl
  have htake : (header.take 10).length % 2 = 0 := by rw [length_take_of_le (by omega)]
  have hsum : (words header).sum = (words (header.take 10)).sum + (words (header.drop 12)).sum := by
    conv_lhs => rw [hcut, words_append htake, sum_append, words_append rfl, sum_append]
    simp [words]
  obtain ⟨hwords, hbound⟩ := @sumWords_eq header 0 heven (by omega)
  rw [Nat.zero_add] at hwords hbound
  obtain ⟨f, hf, hf16, hfle, hfmod⟩ := foldCarries_spec hbound
  refine ⟨~~~(UInt16.ofNat f), ?_, ?_⟩
  · rw [ipv4HeaderChecksum, hwords, Option.bind_eq_bind, Option.bind_some, hf]
    rfl
  · have hc : (~~~(UInt16.ofNat f)).toNat = 65535 - f := by
      rw [UInt16.toNat_not, UInt16.toNat_ofNat_of_lt' hf16]
      rfl
    have heven2 : (beBytes (~~~(UInt16.ofNat f))).length % 2 = 0 := by simp [beBytes]
    have htotal :
        (words (header.take 10 ++ (beBytes (~~~(UInt16.ofNat f)) ++ header.drop 12))).sum =
        (words header).sum + (65535 - f) := by
      rw [words_append htake, words_append heven2, words_beBytes, hc, sum_append, sum_append,
        sum_singleton, hsum]
      omega
    obtain ⟨hlt, hmod, hzero⟩ :=
      foldl_onesAdd (words_lt (l := header.take 10 ++ (beBytes (~~~(UInt16.ofNat f)) ++
      header.drop 12))) (a := 0) (by omega)
    rw [htotal] at hmod hzero
    unfold onesSum
    omega

theorem plain_header_checksum : ∃ c, ipv4HeaderChecksum [69, 0, 0, 12, 0, 0, 0, 0, 64, 17, 0, 0] =
    some c ∧ onesSum (words ([69, 0, 0, 12, 0, 0, 0, 0, 64, 17] ++ (beBytes c ++ []))) = 65535 :=
  checksum_stored [69, 0, 0, 12, 0, 0, 0, 0, 64, 17, 0, 0] rfl (by decide) rfl rfl

end Koku.Masque
