import Koku.Rust.Append

/-! # The characters of an address

What `from_str` of `IpAddr` accepts: digits and dots for IPv4; for IPv6 hexadecimal digits, colons
and perhaps dots (`isAddrChar_of_parseIp`), where a first group or a double colon comes first
(`parseIp_start`). -/

namespace Koku.Rust.Net

open Str List Option

def isV4Char (c : Char) : Bool := (digitValue 10 c).isSome || c == '.'

/-- A hexadecimal digit. -/
def isHex (c : Char) : Bool := (digitValue 16 c).isSome

/-- A character of an address. -/
def isAddrChar (c : Char) : Bool := isHex c || c == '.' || c == ':'

theorem isHex_of_decimal {c : Char} (h : (digitValue 10 c).isSome) : isHex c = true := by
  unfold digitValue at h
  unfold isHex digitValue
  rw [Option.isSome_filter, Option.any_eq_true] at h ⊢
  obtain ⟨n, hn, hlt⟩ := h
  rw [decide_eq_true_eq] at hlt
  exact ⟨n, hn, decide_eq_true (by omega)⟩

theorem isAddrChar_of_isHex {c : Char} (h : isHex c = true) : isAddrChar c = true := by
  simp [isAddrChar, h]

theorem isAddrChar_of_isV4Char {c : Char} (h : isV4Char c = true) : isAddrChar c = true := by
  unfold isV4Char at h
  rw [Bool.or_eq_true] at h
  rcases h with h | h
  · exact isAddrChar_of_isHex (isHex_of_decimal h)
  · simp [isAddrChar, h]

theorem toNat_of_isHex {c : Char} (h : isHex c = true) :
    48 ≤ c.toNat ∧ c.toNat ≤ 57 ∨ 97 ≤ c.toNat ∧ c.toNat ≤ 102 ∨ 65 ≤ c.toNat ∧ c.toNat ≤ 70 := by
  unfold isHex digitValue at h
  rw [Option.isSome_filter, Option.any_eq_true] at h
  obtain ⟨n, hn, hlt⟩ := h
  have hlt := of_decide_eq_true hlt
  have hle : ∀ {a b : Char}, a ≤ b ↔ a.toNat ≤ b.toNat := by
    intro a b
    rw [Char.le_def, UInt32.le_iff_toNat_le]
    rfl
  simp only [hle] at hn
  split_ifs at hn with h1 h2 h3
  · exact .inl h1
  · have := Option.some.inj hn
    exact .inr (.inl ⟨h2.1, by omega⟩)
  · have := Option.some.inj hn
    exact .inr (.inr ⟨h3.1, by omega⟩)

theorem toNat_of_isAddrChar {c : Char} (h : isAddrChar c = true) : c.toNat < 128 := by
  simp only [isAddrChar, Bool.or_eq_true, beq_iff_eq] at h
  rcases h with (h | rfl) | rfl
  · have := toNat_of_isHex h
    omega
  · decide
  · decide

/-! ### What a reader has taken -/

/-- A reader took characters of a class and left `rest`. -/
def Taken (p : Char → Bool) (t rest : Text) : Prop :=
  ∃ taken, t = taken ++ rest ∧ ∀ c ∈ taken, p c = true

section Taken

variable {p q : Char → Bool} {a b c : Text}

theorem Taken.refl (t : Text) : Taken p t t := ⟨[], rfl, by simp⟩

theorem Taken.trans (hab : Taken p a b) (hbc : Taken p b c) : Taken p a c := by
  obtain ⟨x, rfl, hx⟩ := hab
  obtain ⟨y, rfl, hy⟩ := hbc
  refine ⟨x ++ y, (append_assoc ..).symm, fun d hd => ?_⟩
  rcases mem_append.mp hd with hd | hd
  · exact hx d hd
  · exact hy d hd

theorem Taken.mono (h : Taken p a b) (hpq : ∀ d, p d = true → q d = true) : Taken q a b := by
  obtain ⟨x, rfl, hx⟩ := h
  exact ⟨x, rfl, fun d hd => hpq d (hx d hd)⟩

theorem Taken.all (h : Taken p a []) : ∀ d ∈ a, p d = true := by
  obtain ⟨x, rfl, hx⟩ := h
  simpa using hx

theorem taken_stripPrefix {pre t rest : Text} (hpre : ∀ c ∈ pre, p c = true)
    (h : stripPrefix pre t = some rest) : Taken p t rest :=
  ⟨pre, (isPrefixOf?_eq_some_iff_append_eq.mp h).symm, hpre⟩

end Taken

variable {t rest : Text}

theorem readNumber_taken {radix maxDigits max n : ℕ} {allowZero : Bool}
    (h : readNumber radix maxDigits allowZero max t = some (n, rest)) :
    ∃ ds, ds ≠ [] ∧ t = ds ++ rest ∧ ∀ c ∈ ds, (digitValue radix c).isSome = true := by
  unfold readNumber at h
  dsimp only at h
  split_ifs at h with hbad
  rw [not_or] at hbad
  obtain ⟨-, rfl⟩ := Prod.mk.injEq .. ▸ some.inj h
  refine ⟨t.takeWhile fun c => (digitValue radix c).isSome, hbad.1, ?_, fun c hc => ?_⟩
  · exact (prefix_iff_eq_append.mp <| takeWhile_prefix _).symm
  · exact mem_takeWhile_imp (p := fun c => (digitValue radix c).isSome) hc

theorem readOctet_taken {first : Bool} {n : UInt8} (h : readOctet first t = some (n, rest)) :
    Taken isV4Char t rest := by
  unfold readOctet at h
  obtain ⟨⟨m, r⟩, hread, heq⟩ := map_eq_some_iff.mp h
  obtain ⟨-, rfl⟩ := Prod.mk.injEq .. ▸ heq
  obtain ⟨after, hafter, hnum⟩ := bind_eq_some_iff.mp hread
  have hstart : Taken isV4Char t after := by
    split_ifs at hafter with hfirst
    · cases hafter
      exact .refl _
    · exact taken_stripPrefix (forall_mem_singleton.mpr rfl) hafter
  obtain ⟨ds, -, rfl, hds⟩ := readNumber_taken hnum
  exact hstart.trans ⟨ds, rfl, fun c hc => by simp [isV4Char, hds c hc]⟩

theorem readIpv4_taken {ip : Ipv4Addr} (h : readIpv4 t = some (ip, rest)) :
    Taken isV4Char t rest := by
  unfold readIpv4 at h
  obtain ⟨⟨a, t1⟩, h1, h⟩ := bind_eq_some_iff.mp h
  obtain ⟨⟨b, t2⟩, h2, h⟩ := bind_eq_some_iff.mp h
  obtain ⟨⟨c, t3⟩, h3, h⟩ := bind_eq_some_iff.mp h
  obtain ⟨⟨d, t4⟩, h4, h⟩ := bind_eq_some_iff.mp h
  obtain ⟨-, rfl⟩ := Prod.mk.injEq .. ▸ some.inj h
  exact (readOctet_taken h1).trans
    ((readOctet_taken h2).trans ((readOctet_taken h3).trans (readOctet_taken h4)))

theorem readGroups_taken (left : ℕ) (first : Bool) (t : Text) :
    Taken isAddrChar t (readGroups left first t).2.2 := by
  induction left generalizing first t with
  | zero => exact .refl t
  | succ left ih =>
    rw [readGroups]
    dsimp only
    have hstart : ∀ after, (if first then some t else stripPrefix [':'] t) = some after →
        Taken isAddrChar t after := by
      intro after h
      split_ifs at h with hfirst
      · cases h
        exact .refl _
      · exact taken_stripPrefix (forall_mem_singleton.mpr rfl) h
    generalize (if first then some t else stripPrefix [':'] t) = start at hstart ⊢
    split
    · next ip rest hv4 =>
      obtain ⟨after, h1, h2⟩ := bind_eq_some_iff.mp (ite_none_right_eq_some.mp hv4).2
      exact (hstart after h1).trans ((readIpv4_taken h2).mono fun c => isAddrChar_of_isV4Char)
    · split
      · exact .refl t
      · next g rest hnum =>
        obtain ⟨after, h1, h2⟩ := bind_eq_some_iff.mp hnum
        obtain ⟨ds, -, rfl, hds⟩ := readNumber_taken h2
        exact (hstart _ h1).trans (.trans ⟨ds, rfl, fun c hc => isAddrChar_of_isHex (hds c hc)⟩
          (ih false rest))

theorem readIpv6_taken {ip : Ipv6Addr} (h : readIpv6 t = some (ip, rest)) :
    Taken isAddrChar t rest := by
  have hhead := readGroups_taken 8 true t
  unfold readIpv6 at h
  dsimp only at h
  split_ifs at h with hall hv4
  · obtain ⟨-, rfl⟩ := Prod.mk.injEq .. ▸ some.inj h
    exact hhead
  · obtain ⟨after, hstrip, heq⟩ := map_eq_some_iff.mp h
    obtain ⟨-, rfl⟩ := Prod.mk.injEq .. ▸ heq
    have hcolons : Taken isAddrChar (readGroups 8 true t).2.2 after := by
      refine taken_stripPrefix ?_ hstrip
      rintro c hc
      rw [show c = ':' by simpa using hc]
      rfl
    exact (hhead.trans hcolons).trans (readGroups_taken _ true after)

/-! ### How an address starts -/

theorem readNumber_colon {radix maxDigits max : ℕ} {allowZero : Bool} (t : Text) :
    readNumber radix maxDigits allowZero max (':' :: t) = none := by
  have hcolon : (digitValue radix ':').isSome = false := rfl
  have hnone : (':' :: t).takeWhile (fun c => (digitValue radix c).isSome) = [] :=
    takeWhile_cons_of_neg (by simp [hcolon])
  unfold readNumber
  rw [hnone]
  exact if_pos (.inl rfl)

theorem readIpv4_colon (t : Text) : readIpv4 (':' :: t) = none := by
  unfold readIpv4 readOctet
  rw [if_pos rfl, bind_some, readNumber_colon]
  rfl

theorem readGroups_colon (left : ℕ) (t : Text) :
    readGroups left true (':' :: t) = ([], false, ':' :: t) := by
  rcases left with _ | left
  · rfl
  · rw [readGroups]
    simp [readIpv4_colon, readNumber_colon]

theorem readGroups_end (left : ℕ) (h : stripPrefix [':'] t = none) :
    readGroups left false t = ([], false, t) := by
  rcases left with _ | left
  · rfl
  · rw [readGroups]
    simp [h]

theorem readIpv6_start {ip : Ipv6Addr} (hv4 : readIpv4 t = none)
    (h : readIpv6 t = some (ip, rest)) : ∃ ds r, t = ds ++ ':' :: r ∧ ∀ c ∈ ds, isHex c = true := by
  have hstrip : ∀ {x y : Text}, stripPrefix [':', ':'] x = some y → x = ':' :: ':' :: y := fun hx =>
    (isPrefixOf?_eq_some_iff_append_eq.mp hx).symm
  unfold readIpv6 at h
  rw [readGroups] at h
  simp only [if_true, bind_some, hv4, ite_self] at h
  rcases hnum : readNumber 16 4 true 0xffff t with _ | ⟨g, r⟩
  · -- no first group: a double colon
    rw [hnum] at h
    rcases hafter : stripPrefix [':', ':'] t with _ | after
    · simp [hafter] at h
    · exact ⟨[], _, hstrip hafter, by simp⟩
  · rw [hnum] at h
    obtain ⟨ds, -, rfl, hds⟩ := readNumber_taken hnum
    refine ⟨ds, r.tail, ?_, hds⟩
    rcases hcolon : stripPrefix [':'] r with _ | r'
    · -- the first group alone: a double colon behind it starts with the colon that is not there
      simp only [readGroups_end _ hcolon] at h
      rcases hafter : stripPrefix [':', ':'] r with _ | after
      · simp [hafter] at h
      · rw [hstrip hafter]
        rfl
    · rw [← isPrefixOf?_eq_some_iff_append_eq.mp hcolon]
      rfl

theorem readIpv6_colon {ip : Ipv6Addr} (h : readIpv6 (':' :: t) = some (ip, [])) :
    ∃ r, t = ':' :: r ∧ r.head? ≠ some ':' := by
  unfold readIpv6 at h
  rw [readGroups_colon] at h
  dsimp only at h
  rw [if_neg (by simp), if_neg (by simp)] at h
  obtain ⟨after, hafter, heq⟩ := map_eq_some_iff.mp h
  refine ⟨after, (cons.inj (isPrefixOf?_eq_some_iff_append_eq.mp hafter)).2.symm, fun hthird => ?_⟩
  obtain ⟨r, rfl⟩ := head?_eq_some_iff.mp hthird
  rw [readGroups_colon] at heq
  simp at heq

/-! ### Addresses -/

theorem parseIp_cases {a : IpAddr} (h : parseIp t = some a) :
    (∃ ip, a = .v4 ip ∧ readIpv4 t = some (ip, [])) ∨
      ∃ ip, a = .v6 ip ∧ readIpv4 t = none ∧ readIpv6 t = some (ip, []) := by
  unfold parseIp at h
  split at h
  · next ip rest hv4 =>
    obtain ⟨rfl, hip⟩ := ite_none_right_eq_some.mp h
    exact .inl ⟨ip, (some.inj hip).symm, hv4⟩
  · next hv4 =>
    split at h
    · next ip rest hv6 =>
      obtain ⟨rfl, hip⟩ := ite_none_right_eq_some.mp h
      exact .inr ⟨ip, (some.inj hip).symm, hv4, hv6⟩
    · cases h

theorem isAddrChar_of_parseIp {a : IpAddr} (h : parseIp t = some a) :
    ∀ c ∈ t, isAddrChar c = true := by
  rcases parseIp_cases h with ⟨ip, -, hv4⟩ | ⟨ip, -, -, hv6⟩
  · exact ((readIpv4_taken hv4).mono fun c => isAddrChar_of_isV4Char).all
  · exact (readIpv6_taken hv6).all

theorem parseIp_start {a : IpAddr} (h : parseIp t = some a) (hcolon : ':' ∈ t) :
    ∃ ds r, t = ds ++ ':' :: r ∧ ∀ c ∈ ds, isHex c = true := by
  rcases parseIp_cases h with ⟨ip, -, hv4⟩ | ⟨ip, -, hv4, hv6⟩
  · exact absurd ((readIpv4_taken hv4).all _ hcolon) (by decide)
  · exact readIpv6_start hv4 hv6

theorem parseIp_behind_colon {a : IpAddr} (h : parseIp (':' :: t) = some a) : parseIp t = none := by
  have hstart : ∀ {x : Text} {b : IpAddr}, parseIp (':' :: x) = some b → ∃ r, x = ':' :: r ∧
      r.head? ≠ some ':' := by
    intro x b hx
    rcases parseIp_cases hx with ⟨ip, -, hv4⟩ | ⟨ip, -, -, hv6⟩
    · rw [readIpv4_colon] at hv4
      cases hv4
    · exact readIpv6_colon hv6
  obtain ⟨r, rfl, hr⟩ := hstart h
  rw [eq_none_iff_forall_ne_some]
  intro b hb
  obtain ⟨r', rfl, -⟩ := hstart hb
  exact hr rfl

end Koku.Rust.Net
