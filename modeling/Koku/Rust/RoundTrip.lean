import Koku.Rust.Net
import Koku.Rust.Utf8
import Mathlib.Tactic

/-! # What was encoded is decoded

Text in UTF-8 and numbers in network byte order come back as they were, whatever stands behind them
(`fromUtf8Lossy_asBytes`, `ofBeBytes_beBytes`). -/

namespace Koku.Rust

open Str Utf8 Net List

/-! ### UTF-8 -/

namespace Utf8

theorem Decoder.feed_inside {missing n bits : ℕ} {lo hi : UInt8} (hn : n < 64)
    (hlo : lo.toNat ≤ n + 128) (hhi : n + 128 ≤ hi.toNat) :
    (Decoder.inside missing lo hi bits).feed (UInt8.ofNat (n + 128)) =
      if missing ≤ 1 then ([some (Char.ofNat (bits * 64 + n))], .idle)
      else ([], .inside (missing - 1) 0x80 0xbf (bits * 64 + n)) := by
  have hbyte : (UInt8.ofNat (n + 128)).toNat = n + 128 := by
    rw [UInt8.toNat_ofNat']
    omega
  have hrange : lo ≤ UInt8.ofNat (n + 128) ∧ UInt8.ofNat (n + 128) ≤ hi := by
    rw [UInt8.le_iff_toNat_le, UInt8.le_iff_toNat_le, hbyte]
    exact ⟨hlo, hhi⟩
  rw [Decoder.feed, if_pos hrange, hbyte, Nat.add_sub_cancel]

theorem Decoder.feed_last {n bits : ℕ} (hn : n < 64) :
    (Decoder.inside 1 0x80 0xbf bits).feed (UInt8.ofNat (n + 128)) =
    ([some (Char.ofNat (bits * 64 + n))], .idle) := by
  have hlo : (0x80 : UInt8).toNat ≤ n + 128 := Nat.le_add_left 128 n
  have hhi : n + 128 ≤ (0xbf : UInt8).toNat := Nat.add_le_add_right (Nat.le_of_lt_succ hn) 128
  rw [feed_inside hn hlo hhi, if_pos le_rfl]

theorem Decoder.feed_more {missing n bits : ℕ} {lo hi : UInt8} (hn : n < 64)
    (hlo : lo.toNat ≤ n + 128) (hhi : n + 128 ≤ hi.toNat) :
    (Decoder.inside (missing + 2) lo hi bits).feed (UInt8.ofNat (n + 128)) =
      ([], .inside (missing + 1) 0x80 0xbf (bits * 64 + n)) := by
  have hmore : ¬missing + 2 ≤ 1 := by omega
  rw [feed_inside hn hlo hhi, if_neg hmore]
  rfl

theorem Decoder.start_one :
    ∀ n < 128, Decoder.start (UInt8.ofNat n) = ([some (Char.ofNat n)], .idle) := by
  intro n hn
  have hbyte : (UInt8.ofNat n).toNat = n := by
    rw [UInt8.toNat_ofNat']
    omega
  have hlt : UInt8.ofNat n < 0x80 := by
    rw [UInt8.lt_iff_toNat_lt, hbyte]
    exact hn
  rw [Decoder.start, if_pos hlt, hbyte]

theorem Decoder.start_two {n : ℕ} (hlo : 2 ≤ n) (hhi : n < 32) :
    Decoder.start (UInt8.ofNat (n + 192)) = ([], .inside 1 0x80 0xbf n) := by
  interval_cases n <;> rfl

theorem Decoder.start_three {n : ℕ} (hn : n < 16) :
    Decoder.start (UInt8.ofNat (n + 224)) =
      ([], .inside 2 (if n = 0 then 0xa0 else 0x80) (if n = 13 then 0x9f else 0xbf) n) := by
  interval_cases n <;> rfl

theorem Decoder.start_four {n : ℕ} (hn : n < 5) :
    Decoder.start (UInt8.ofNat (n + 240)) =
      ([], .inside 3 (if n = 0 then 0x90 else 0x80) (if n = 4 then 0x8f else 0xbf) n) := by
  interval_cases n <;> rfl

theorem Decoder.run_cons (d : Decoder) (b : UInt8) (bs : Bytes) :
    d.run (b :: bs) = (d.feed b).1 ++ (d.feed b).2.run bs := by
  cases d <;> rfl

/-- **A character is decoded as it was encoded.** -/
theorem Decoder.run_encodeChar (c : Char) (rest : Bytes) :
    Decoder.idle.run (String.utf8EncodeChar c ++ rest) = some c :: Decoder.idle.run rest := by
  have hvalid : c.val.toNat < 0xd800 ∨ 0xdfff < c.val.toNat ∧ c.val.toNat < 0x110000 := c.valid
  have hc : Char.ofNat c.val.toNat = c := Char.ofNat_toNat c
  unfold String.utf8EncodeChar
  set v := c.val.toNat
  dsimp only
  split_ifs with h1 h2 h3
  · rw [singleton_append, run_cons, Decoder.feed, start_one v (by omega), hc]
    rfl
  · rw [cons_append, singleton_append, run_cons, Decoder.feed, start_two (by omega) (by omega),
      run_cons, feed_last (Nat.mod_lt _ (by omega)), show v / 64 % 32 * 64 + v % 64 = v by
        omega, hc]
    rfl
  · have hlo : (if v / 4096 % 16 = 0 then 0xa0 else 0x80 : UInt8).toNat ≤ v / 64 % 64 + 128 := by
      split_ifs
      · simp; omega
      · simp
    have hhi : v / 64 % 64 + 128 ≤ (if v / 4096 % 16 = 13 then 0x9f else 0xbf : UInt8).toNat := by
      split_ifs
      · simp; omega
      · simp; omega
    rw [cons_append, cons_append, singleton_append, run_cons, Decoder.feed,
      start_three (Nat.mod_lt _ (by omega)), run_cons, feed_more (Nat.mod_lt _ (by omega)) hlo hhi,
      run_cons, feed_last (Nat.mod_lt _ (by omega)), show (v / 4096 % 16 * 64 + v / 64 % 64) * 64 +
      v % 64 = v by omega, hc]
    rfl
  · have hlo : (if v / 262144 % 8 = 0 then 0x90 else 0x80 : UInt8).toNat ≤ v / 4096 % 64 + 128 := by
      split_ifs
      · simp; omega
      · simp
    have hhi : v / 4096 % 64 + 128 ≤ (if v / 262144 % 8 = 4 then 0x8f else 0xbf : UInt8).toNat := by
      split_ifs
      · simp; omega
      · simp; omega
    have hmid : v / 64 % 64 + 128 ≤ (0xbf : UInt8).toNat := by simp; omega
    rw [cons_append, cons_append, cons_append, singleton_append, run_cons, Decoder.feed,
      start_four (by omega), run_cons, feed_more (Nat.mod_lt _ (by omega)) hlo hhi, run_cons,
      feed_more (Nat.mod_lt _ (by omega)) (Nat.le_add_left 128 _) hmid, run_cons,
      feed_last (Nat.mod_lt _ (by omega)),
      show ((v / 262144 % 8 * 64 + v / 4096 % 64) * 64 + v / 64 % 64) * 64 + v % 64 = v by
        omega, hc]
    rfl

theorem Decoder.run_asBytes (t : Text) (rest : Bytes) :
    Decoder.idle.run (asBytes t ++ rest) = t.map some ++ Decoder.idle.run rest := by
  induction t with
  | nil => rfl
  | cons c t ih =>
    rw [asBytes, flatMap_cons, append_assoc, run_encodeChar]
    rw [asBytes] at ih
    rw [ih, map_cons, cons_append]

/-- **Text is not changed by `from_utf8_lossy`.** -/
@[simp] theorem fromUtf8Lossy_asBytes (t : Text) : fromUtf8Lossy (asBytes t) = t := by
  have hrun := Decoder.run_asBytes t []
  rw [append_nil] at hrun
  rw [fromUtf8Lossy, hrun]
  simp [Decoder.run]

theorem fromUtf8_asBytes (t : Text) : fromUtf8 (asBytes t) = some t := by
  have hrun := Decoder.run_asBytes t []
  rw [append_nil] at hrun
  have hpure : t.mapM some = some t := by simpa using mapM_pure (m := Option) (l := t) (f := id)
  rw [fromUtf8, hrun]
  simpa [Decoder.run] using hpure

theorem length_asBytes (t : Text) : (asBytes t).length = len t := by
  unfold asBytes len
  rw [length_flatMap]
  simp

theorem toNat_of_mem_encodeChar {c : Char} {b : UInt8} (h : b ∈ String.utf8EncodeChar c)
    (hb : b.toNat < 128) : c.toNat = b.toNat := by
  show c.val.toNat = b.toNat
  unfold String.utf8EncodeChar at h
  set v := c.val.toNat
  dsimp only at h
  split_ifs at h with h1 h2 h3
  · obtain rfl := mem_singleton.mp h
    rw [UInt8.toNat_ofNat', Nat.mod_eq_of_lt (by omega)]
  all_goals
    simp only [mem_cons, not_mem_nil, or_false] at h
    rcases h with rfl | rfl | rfl | rfl
    all_goals
      rw [UInt8.toNat_ofNat'] at hb
      omega

theorem exists_of_mem_asBytes {t : Text} {b : UInt8} (h : b ∈ asBytes t) (hb : b.toNat < 128) :
    ∃ c ∈ t, c.toNat = b.toNat := by
  obtain ⟨c, hc, hmem⟩ := mem_flatMap.mp h
  exact ⟨c, hc, toNat_of_mem_encodeChar hmem hb⟩

end Utf8

/-! ### Numbers and addresses -/

namespace Net

theorem ofBeBytes_beBytes (n : UInt16) : ofBeBytes (n >>> 8).toUInt8 n.toUInt8 = n := by
  have hn := n.toNat_lt
  have hshift : UInt16.toNat 8 % 16 = 8 := rfl
  have hhigh : n.toNat / 2 ^ 8 % 2 ^ 8 * 2 ^ 8 % 2 ^ 16 = 2 ^ 8 * (n.toNat / 2 ^ 8) := by omega
  have hlow : n.toNat % 2 ^ 8 < 2 ^ 8 := Nat.mod_lt _ (by omega)
  apply UInt16.toNat_inj.mp
  unfold ofBeBytes
  rw [UInt16.toNat_or, UInt16.toNat_shiftLeft, UInt8.toNat_toUInt16, UInt8.toNat_toUInt16,
    UInt16.toNat_toUInt8, UInt16.toNat_toUInt8, UInt16.toNat_shiftRight, Nat.shiftLeft_eq,
    Nat.shiftRight_eq_div_pow, hshift, hhigh, ← Nat.two_pow_add_eq_or_of_lt hlow, Nat.div_add_mod]

@[simp] theorem length_octets (ip : Ipv6Addr) : ip.octets.length = 16 := rfl

theorem ofOctets_octets (ip : Ipv6Addr) {h : ip.octets.toArray.size = 16} :
    Ipv6Addr.ofOctets ⟨ip.octets.toArray, h⟩ = ip := by
  obtain ⟨s0, s1, s2, s3, s4, s5, s6, s7⟩ := ip
  rw [Ipv6Addr.ofOctets, Ipv6Addr.mk.injEq]
  exact ⟨ofBeBytes_beBytes s0, ofBeBytes_beBytes s1, ofBeBytes_beBytes s2, ofBeBytes_beBytes s3,
    ofBeBytes_beBytes s4, ofBeBytes_beBytes s5, ofBeBytes_beBytes s6, ofBeBytes_beBytes s7⟩

end Net

end Koku.Rust
