import Koku.Rust.NetText

/-! # Addresses read back

What `Display` writes of an address, `from_str` reads as that address (`parseIp_text`,
`parseScoped_text`): the digits of a number up to a character that is none, the groups of an IPv6
address with the longest run of zeros left out (`readIpv6_text`), and an IPv4 address at the end of
a mapped one. -/

namespace Koku.Rust.Net

open Rust.Str List Option

/-! ### Numbers -/

/-- The text does not start with a digit. -/
def NoDigit (radix : ℕ) (t : Text) : Prop := ∀ c ∈ t.head?, digitValue radix c = none

theorem NoDigit.decimal {t : Text} (h : NoDigit 16 t) : NoDigit 10 t := by
  intro c hc
  have hnone := h c hc
  unfold digitValue at hnone ⊢
  rw [filter_eq_none_iff] at hnone ⊢
  intro d hd
  have := hnone d hd
  simp only [decide_eq_true_eq] at this ⊢
  omega

variable {radix : ℕ}

theorem digitValue_digitChar (hradix : radix ≤ 16) {d : ℕ} (hd : d < radix) :
    digitValue radix (Nat.digitChar d) = some d := by
  have hvalue : ∀ d < 16, digitValue 16 (Nat.digitChar d) = some d := by decide
  have h16 := hvalue d (by omega)
  unfold digitValue at h16 ⊢
  rw [filter_eq_some_iff] at h16 ⊢
  exact ⟨h16.1, decide_eq_true hd⟩

theorem mem_toDigits (hradix : 1 < radix) {n : ℕ} {c : Char} (h : c ∈ Nat.toDigits radix n) :
    ∃ d < radix, c = Nat.digitChar d := by
  induction n using Nat.strong_induction_on with
  | h n ih =>
    rw [Nat.toDigits_eq_if hradix] at h
    split_ifs at h with hn
    · exact ⟨n, hn, mem_singleton.mp h⟩
    · rcases mem_append.mp h with h | h
      · exact ih (n / radix) (Nat.div_lt_self (by omega) hradix) h
      · exact ⟨n % radix, Nat.mod_lt _ (by omega), mem_singleton.mp h⟩

theorem foldl_toDigits (hradix : 1 < radix) (h16 : radix ≤ 16) (n : ℕ) :
    (Nat.toDigits radix n).foldl (fun m c => m * radix + (digitValue radix c).getD 0) 0 = n := by
  induction n using Nat.strong_induction_on with
  | h n ih =>
    rw [Nat.toDigits_eq_if hradix]
    split_ifs with hn
    · rw [foldl_cons, foldl_nil, digitValue_digitChar h16 hn]
      simp
    · have hlast : n % radix < radix := Nat.mod_lt _ (by omega)
      rw [foldl_append, ih (n / radix) (Nat.div_lt_self (by omega) hradix), foldl_cons, foldl_nil,
        digitValue_digitChar h16 hlast, getD_some]
      exact Nat.div_add_mod' n radix

theorem head?_toDigits (hradix : 1 < radix) (h16 : radix ≤ 16) {n : ℕ} (hn : 0 < n) :
    (Nat.toDigits radix n).head? ≠ some '0' := by
  induction n using Nat.strong_induction_on with
  | h n ih =>
    rw [Nat.toDigits_eq_if hradix]
    split_ifs with hlt
    · have hzero : ∀ d < 16, 0 < d → Nat.digitChar d ≠ '0' := by decide
      intro h
      exact hzero n (by omega) hn (some.inj h)
    · rw [head?_append_of_ne_nil _ Nat.toDigits_ne_nil]
      exact ih (n / radix) (Nat.div_lt_self hn hradix) (Nat.div_pos (by omega) (by omega))

theorem length_toDigits_of_zero (hradix : 1 < radix) (h16 : radix ≤ 16) {n : ℕ}
    (h : (Nat.toDigits radix n).head? = some '0') : (Nat.toDigits radix n).length = 1 := by
  rcases Nat.eq_zero_or_pos n with rfl | hn
  · rw [Nat.toDigits_of_lt_base (by omega)]
    rfl
  · exact absurd h (head?_toDigits hradix h16 hn)

variable {rest : Text}

theorem takeWhile_toDigits (hradix : 1 < radix) (h16 : radix ≤ 16) (n : ℕ)
    (hrest : NoDigit radix rest) :
    (Nat.toDigits radix n ++ rest).takeWhile (fun c => (digitValue radix c).isSome) =
    Nat.toDigits radix n := by
  have hall : ∀ c ∈ Nat.toDigits radix n, (digitValue radix c).isSome = true := by
    intro c hc
    obtain ⟨d, hd, rfl⟩ := mem_toDigits hradix hc
    rw [digitValue_digitChar h16 hd]
    rfl
  have hend : rest.takeWhile (fun c => (digitValue radix c).isSome) = [] := by
    rcases rest with _ | ⟨c, rest⟩
    · rfl
    · rw [takeWhile_cons, hrest c rfl]
      rfl
  rw [takeWhile_append_of_pos hall, hend, append_nil]

theorem readNumber_toDigits (hradix : 1 < radix) (h16 : radix ≤ 16) {maxDigits max n : ℕ}
    (allowZero : Bool) (hlength : (Nat.toDigits radix n).length ≤ maxDigits) (hmax : n ≤ max)
    (hrest : NoDigit radix rest) :
    readNumber radix maxDigits allowZero max (Nat.toDigits radix n ++ rest) = some (n, rest) := by
  unfold readNumber
  dsimp only
  rw [takeWhile_toDigits hradix h16 n hrest, foldl_toDigits hradix h16, drop_left]
  refine if_neg ?_
  rintro (h | h | ⟨-, hzero, h⟩ | h)
  · exact Nat.toDigits_ne_nil h
  · omega
  · have := length_toDigits_of_zero hradix h16 hzero
    omega
  · omega

theorem readNumber_none {maxDigits max : ℕ} {allowZero : Bool} {t : Text} (h : NoDigit radix t) :
    readNumber radix maxDigits allowZero max t = none := by
  have hnone : t.takeWhile (fun c => (digitValue radix c).isSome) = [] := by
    rcases t with _ | ⟨c, t⟩
    · rfl
    · rw [takeWhile_cons, h c rfl]
      rfl
  unfold readNumber
  rw [hnone]
  exact if_pos (.inl rfl)

/-! ### IPv4 -/

theorem length_decimal_octet (b : UInt8) : (decimal b.toNat).length ≤ 3 :=
  (Nat.length_toDigits_le_iff (by decide) (by decide)).mpr (b.toNat_lt.trans (by decide))

theorem readNumber_octet (b : UInt8) (hrest : NoDigit 10 rest) :
    readNumber 10 3 false 255 (decimal b.toNat ++ rest) = some (b.toNat, rest) :=
  readNumber_toDigits (by decide) (by decide) false (length_decimal_octet b)
    (Nat.le_of_lt_succ b.toNat_lt) hrest

theorem readOctet_first (b : UInt8) (hrest : NoDigit 10 rest) :
    readOctet true (decimal b.toNat ++ rest) = some (b, rest) := by
  rw [readOctet, if_pos rfl, bind_some, readNumber_octet b hrest, map_some]
  exact congrArg (fun n => some (n, rest)) (UInt8.ofNat_toNat)

theorem readOctet_next (b : UInt8) (hrest : NoDigit 10 rest) :
    readOctet false ('.' :: (decimal b.toNat ++ rest)) = some (b, rest) := by
  have hdot : stripPrefix ['.'] ('.' :: (decimal b.toNat ++ rest)) =
      some (decimal b.toNat ++ rest) := by
    simp [stripPrefix, isPrefixOf?]
  rw [readOctet, if_neg (by decide), hdot, bind_some, readNumber_octet b hrest, map_some]
  exact congrArg (fun n => some (n, rest)) (UInt8.ofNat_toNat)

theorem Ipv4Addr.text_append (ip : Ipv4Addr) (rest : Text) : ip.text ++ rest =
    decimal ip.a.toNat ++ '.' ::
      (decimal ip.b.toNat ++ '.' ::
        (decimal ip.c.toNat ++ '.' :: (decimal ip.d.toNat ++ rest))) := by
  simp [Ipv4Addr.text, Ipv4Addr.octets, intercalate]

theorem readIpv4_text (ip : Ipv4Addr) (hrest : NoDigit 10 rest) :
    readIpv4 (ip.text ++ rest) = some (ip, rest) := by
  have hdot : ∀ t : Text, NoDigit 10 ('.' :: t) := by
    intro t c hc
    cases hc
    rfl
  simp only [ip.text_append, readIpv4, readOctet_first _ (hdot _), readOctet_next _ (hdot _),
    readOctet_next _ hrest, bind_eq_bind, bind_some]
  rfl

theorem readIpv4_noDigit {t : Text} (h : NoDigit 10 t) : readIpv4 t = none := by
  rw [readIpv4, readOctet, if_pos rfl, bind_some, readNumber_none h]
  rfl

theorem readIpv4_noDot {t : Text} (h : '.' ∉ t) : readIpv4 t = none := by
  rw [readIpv4]
  rcases hfirst : readOctet true t with _ | ⟨a, t1⟩
  · rfl
  · obtain ⟨ds, rfl, -⟩ := readOctet_taken hfirst
    have hstrip : stripPrefix ['.'] t1 = none := by
      rw [eq_none_iff_forall_ne_some]
      intro r hr
      rw [← isPrefixOf?_eq_some_iff_append_eq.mp hr] at h
      simp at h
    have hsecond : readOctet false t1 = none := by
      rw [readOctet, if_neg (by decide), hstrip]
      rfl
    rw [bind_eq_bind, bind_some]
    dsimp only
    rw [hsecond]
    rfl

/-! ### Groups -/

/-- Groups, each behind a colon. -/
def colonGroups (l : List UInt16) : Text := l.flatMap fun g => ':' :: Nat.toDigits 16 g.toNat

theorem groupsText_cons (g : UInt16) (l : List UInt16) :
    groupsText (g :: l) = Nat.toDigits 16 g.toNat ++ colonGroups l := by
  induction l generalizing g with
  | nil => simp [groupsText, colonGroups, intercalate]
  | cons h l ih =>
    have hnext :
        groupsText (g :: h :: l) = Nat.toDigits 16 g.toNat ++ ':' :: groupsText (h :: l) := by
      simp [groupsText, intercalate]
    rw [hnext, ih]
    rfl

theorem dot_notMem_hex (n : ℕ) : '.' ∉ Nat.toDigits 16 n := by
  intro h
  obtain ⟨d, hd, heq⟩ := mem_toDigits (by decide) h
  have hdot : ∀ d < 16, Nat.digitChar d ≠ '.' := by decide
  exact hdot d hd heq.symm

theorem dot_notMem_colonGroups (l : List UInt16) : '.' ∉ colonGroups l := by
  rw [colonGroups, mem_flatMap]
  rintro ⟨g, -, hg⟩
  rcases mem_cons.mp hg with h | h
  · exact absurd h (by decide)
  · exact dot_notMem_hex _ h

theorem noDigit_colon (radix : ℕ) (t : Text) : NoDigit radix (':' :: t) := by
  intro c hc
  cases hc
  rfl

theorem noDigit_colonGroups {radix : ℕ} (l : List UInt16) (hrest : NoDigit radix rest) :
    NoDigit radix (colonGroups l ++ rest) := by
  rcases l with _ | ⟨g, l⟩
  · exact hrest
  · exact noDigit_colon radix _

theorem readNumber_group (g : UInt16) (hrest : NoDigit 16 rest) :
    readNumber 16 4 true 0xffff (Nat.toDigits 16 g.toNat ++ rest) = some (g.toNat, rest) := by
  have hlength : (Nat.toDigits 16 g.toNat).length ≤ 4 :=
    (Nat.length_toDigits_le_iff (by decide) (by decide)).mpr g.toNat_lt
  exact readNumber_toDigits (by decide)
    (by decide) true hlength (Nat.le_of_lt_succ g.toNat_lt) hrest

theorem readGroups_group {left : ℕ} (first : Bool) {t rest : Text} (g : UInt16)
    (hafter : (if first then some t else stripPrefix [':'] t) =
      some (Nat.toDigits 16 g.toNat ++ rest))
    (hv4 : readIpv4 (Nat.toDigits 16 g.toNat ++ rest) = none) (hrest : NoDigit 16 rest) :
    readGroups (left + 1) first t =
      (g :: (readGroups left false rest).1, (readGroups left false rest).2) := by
  rw [readGroups]
  dsimp only
  rw [hafter, bind_some, hv4, ite_self]
  dsimp only
  rw [bind_some, readNumber_group g hrest]
  dsimp only
  rw [UInt16.ofNat_toNat]

/-- No group can be read. -/
def Stops (t : Text) : Prop := ∀ left, readGroups left false t = ([], false, t)

theorem stops_of_noColon {t : Text} (h : t.head? ≠ some ':') : Stops t := by
  intro left
  refine readGroups_end left ?_
  rw [eq_none_iff_forall_ne_some]
  intro r hr
  rw [← isPrefixOf?_eq_some_iff_append_eq.mp hr] at h
  exact h rfl

theorem stops_colons (t : Text) : Stops (':' :: ':' :: t) := by
  intro left
  rcases left with _ | left
  · rfl
  · have hstrip : stripPrefix [':'] (':' :: ':' :: t) = some (':' :: t) := by
      simp [stripPrefix, isPrefixOf?]
    rw [readGroups]
    simp [hstrip, readIpv4_colon, readNumber_colon]

variable {rest : Text}

theorem readGroups_colonGroups (l : List UInt16) {left : ℕ} (hlength : l.length ≤ left)
    (hdot : '.' ∉ rest) (hdigit : NoDigit 16 rest) (hstop : Stops rest) :
    readGroups left false (colonGroups l ++ rest) = (l, false, rest) := by
  induction l generalizing left with
  | nil => exact hstop left
  | cons g l ih =>
    obtain ⟨left, rfl⟩ := Nat.exists_eq_succ_of_ne_zero (Nat.ne_zero_of_lt hlength)
    have hafter : stripPrefix [':'] (colonGroups (g :: l) ++ rest) =
        some (Nat.toDigits 16 g.toNat ++ (colonGroups l ++ rest)) := by
      simp [stripPrefix, isPrefixOf?, colonGroups]
    have hnone : readIpv4 (Nat.toDigits 16 g.toNat ++ (colonGroups l ++ rest)) = none := by
      refine readIpv4_noDot ?_
      simp only [mem_append, not_or]
      exact ⟨dot_notMem_hex _, dot_notMem_colonGroups l, hdot⟩
    rw [Nat.succ_eq_add_one, readGroups_group false g hafter hnone (noDigit_colonGroups l hdigit),
      ih (Nat.le_of_succ_le_succ hlength)]

theorem readGroups_groupsText (l : List UInt16) {left : ℕ} (hlength : l.length ≤ left)
    (hdot : '.' ∉ rest) (hdigit : NoDigit 16 rest) (hstop : Stops rest) :
    readGroups left true (groupsText l ++ rest) = (l, false, rest) := by
  rcases l with _ | ⟨g, l⟩
  · rcases left with _ | left
    · rfl
    · rw [readGroups]
      simp [readIpv4_noDigit hdigit.decimal, readNumber_none hdigit, groupsText]
  · obtain ⟨left, rfl⟩ := Nat.exists_eq_succ_of_ne_zero (Nat.ne_zero_of_lt hlength)
    have hnone : readIpv4 (Nat.toDigits 16 g.toNat ++ (colonGroups l ++ rest)) = none := by
      refine readIpv4_noDot ?_
      simp only [mem_append, not_or]
      exact ⟨dot_notMem_hex _, dot_notMem_colonGroups l, hdot⟩
    rw [groupsText_cons, append_assoc, Nat.succ_eq_add_one,
      readGroups_group true g rfl hnone (noDigit_colonGroups l hdigit),
      readGroups_colonGroups l (Nat.le_of_succ_le_succ hlength) hdot hdigit hstop]

/-! ### The run of zeros that is left out -/

/-- A run of zeros of a list: where it starts and how long it is. -/
def ZeroRun (l : List UInt16) (run : ℕ × ℕ) : Prop :=
  run.1 + run.2 ≤ l.length ∧ ∀ j, run.1 ≤ j → j < run.1 + run.2 → l[j]? = some 0

theorem ZeroRun.append {l : List UInt16} {run : ℕ × ℕ} (h : ZeroRun l run) (m : List UInt16) :
    ZeroRun (l ++ m) run := by
  obtain ⟨hbound, hzero⟩ := h
  refine ⟨by rw [length_append]; omega, fun j hle hlt => ?_⟩
  rw [getElem?_append_left (by omega)]
  exact hzero j hle hlt

/-- A round of `longestZeros`. -/
def zerosStep (acc : (ℕ × ℕ) × (ℕ × ℕ)) (x : UInt16 × ℕ) : (ℕ × ℕ) × (ℕ × ℕ) :=
  if x.1 = 0 then
    (if acc.1.2 < acc.2.2 + 1 then (if acc.2.2 = 0 then x.2 else acc.2.1, acc.2.2 + 1) else acc.1,
      (if acc.2.2 = 0 then x.2 else acc.2.1, acc.2.2 + 1))
  else
    (acc.1, (0, 0))

/-- The longest run of zeros so far, and the current one. -/
def ZerosAt (l : List UInt16) (acc : (ℕ × ℕ) × (ℕ × ℕ)) : Prop :=
  ZeroRun l acc.1 ∧ ZeroRun l acc.2 ∧ (acc.2.2 = 0 ∨ acc.2.1 + acc.2.2 = l.length)

theorem ZerosAt.concat {l : List UInt16} {acc : (ℕ × ℕ) × (ℕ × ℕ)} (h : ZerosAt l acc)
    (g : UInt16) : ZerosAt (l ++ [g]) (zerosStep acc (g, l.length)) := by
  obtain ⟨hlongest, hcurrent, hend⟩ := h
  have hempty : ZeroRun (l ++ [g]) (0, 0) :=
    ⟨Nat.zero_le _, fun j _ hlt => absurd hlt (Nat.not_lt_zero j)⟩
  unfold zerosStep
  by_cases hg : g = 0
  · subst hg
    rw [if_pos rfl]
    -- the current run goes on, or starts here
    have hnext : ZeroRun (l ++ [0]) (if acc.2.2 = 0 then l.length else acc.2.1, acc.2.2 + 1) ∧
        (if acc.2.2 = 0 then l.length else acc.2.1) + (acc.2.2 + 1) =
        (l ++ [(0 : UInt16)]).length := by
      have hlast : (l ++ [(0 : UInt16)])[l.length]? = some 0 := by simp
      rw [length_append, length_singleton]
      split_ifs with hzero
      · refine ⟨⟨by simp [hzero], fun j hle hlt => ?_⟩, by omega⟩
        obtain rfl : j = l.length := by simp only [hzero] at hle hlt; omega
        exact hlast
      · have hreach := hend.resolve_left hzero
        refine ⟨⟨by simp only [length_append, length_singleton]; omega,
          fun j hle hlt => ?_⟩, by omega⟩
        rcases Nat.lt_or_ge j l.length with hj | hj
        · exact (hcurrent.append [0]).2 j hle (by simp only at hlt ⊢; omega)
        · obtain rfl : j = l.length := by simp only at hle hlt; omega
          exact hlast
    refine ⟨?_, hnext.1, .inr hnext.2⟩
    dsimp only
    split_ifs with hlonger hzero
    · rw [if_pos hzero] at hnext
      exact hnext.1
    · rw [if_neg hzero] at hnext
      exact hnext.1
    · exact hlongest.append [0]
  · rw [if_neg hg]
    exact ⟨hlongest.append [g], hempty, .inl rfl⟩

theorem zerosAt_foldl (l : List UInt16) :
    ZerosAt l (l.zipIdx.foldl zerosStep ((0, 0), (0, 0))) := by
  induction l using reverseRecOn with
  | nil =>
    have hempty : ZeroRun [] (0, 0) := ⟨le_rfl, fun j _ hlt => absurd hlt (Nat.not_lt_zero j)⟩
    exact ⟨hempty, hempty, .inl rfl⟩
  | append_singleton l g ih =>
    have := ih.concat g
    rw [zipIdx_append, foldl_append]
    simpa using this

theorem zeroRun_longestZeros (l : List UInt16) : ZeroRun l (longestZeros l) := (zerosAt_foldl l).1

theorem ZeroRun.eq {l : List UInt16} {start count : ℕ} (h : ZeroRun l (start, count)) :
    l.take start ++ replicate count 0 ++ l.drop (start + count) = l := by
  obtain ⟨hbound, hzero⟩ := h
  simp only at hbound hzero
  have hrun : (l.drop start).take count = replicate count 0 := by
    refine ext_getElem? fun i => ?_
    rw [getElem?_take, getElem?_replicate]
    split_ifs with hi
    · rw [getElem?_drop]
      exact hzero (start + i) (by omega) (by omega)
    · rfl
  rw [← hrun, append_assoc, ← drop_drop, take_append_drop, take_append_drop]

/-! ### IPv6 -/

theorem Ipv6Addr.length_segments (ip : Ipv6Addr) : ip.segments.length = 8 := rfl

theorem Ipv6Addr.ofSegments_segments (ip : Ipv6Addr) : ofSegments ip.segments = ip := rfl

theorem ofBeBytes_halves (n : UInt16) : ofBeBytes (n >>> 8).toUInt8 n.toUInt8 = n :=
  ofBeBytes_beBytes n

theorem readIpv6_mapped {ip : Ipv6Addr} {v4 : Ipv4Addr} (h : ip.toIpv4Mapped = some v4)
    (hdigit : NoDigit 10 rest) :
    readIpv6 ("::ffff:".toList ++ v4.text ++ rest) = some (ip, rest) := by
  obtain ⟨s0, s1, s2, s3, s4, s5, s6, s7⟩ := ip
  unfold Ipv6Addr.toIpv4Mapped at h
  obtain ⟨⟨rfl, rfl, rfl, rfl, rfl, rfl⟩, hv4⟩ := ite_none_right_eq_some.mp h
  have hread := readIpv4_text v4 hdigit
  have htail :
      readGroups 7 true ("ffff:".toList ++ (v4.text ++ rest)) = ([0xffff, s6, s7], true, rest) := by
    have hafter : stripPrefix [':'] (':' :: (v4.text ++ rest)) = some (v4.text ++ rest) := by
      simp [stripPrefix, isPrefixOf?]
    have hlast : readGroups 6 false (':' :: (v4.text ++ rest)) = ([s6, s7], true, rest) := by
      rw [readGroups]
      simp only [Bool.false_eq_true, if_false, hafter, bind_some, hread, Nat.zero_lt_succ, if_true]
      rw [← some.inj hv4]
      simp only [ofBeBytes_halves]
    have hletter : NoDigit 10 ("ffff".toList ++ ':' :: (v4.text ++ rest)) := by
      intro c hc
      cases hc
      rfl
    have hgroup : readGroups (6 + 1) true ("ffff".toList ++ ':' :: (v4.text ++ rest)) = _ :=
      readGroups_group true 0xffff rfl (readIpv4_noDigit hletter) (noDigit_colon 16 _)
    exact hgroup.trans (by rw [hlast])
  have hstrip :
      stripPrefix [':', ':'] ("::ffff:".toList ++ v4.text ++ rest) =
      some ("ffff:".toList ++ (v4.text ++ rest)) := by
    simp [stripPrefix, isPrefixOf?]
  have hhead : readGroups 8 true ("::ffff:".toList ++ v4.text ++ rest) =
      ([], false, "::ffff:".toList ++ v4.text ++ rest) := readGroups_colon 8 _
  unfold readIpv6
  rw [hhead]
  dsimp only
  rw [if_neg (by decide), if_neg (by decide), hstrip, map_some, length_nil, htail]
  rfl

theorem dot_notMem_groupsText (l : List UInt16) : '.' ∉ groupsText l := by
  rcases l with _ | ⟨g, l⟩
  · simp [groupsText]
  · rw [groupsText_cons, mem_append, not_or]
    exact ⟨dot_notMem_hex _, dot_notMem_colonGroups l⟩

/-- **An IPv6 address is read back**, in front of anything that cannot belong to it. -/
theorem readIpv6_text (ip : Ipv6Addr) (hdot : '.' ∉ rest) (hdigit : NoDigit 16 rest)
    (hcolon : rest.head? ≠ some ':') : readIpv6 (ip.text ++ rest) = some (ip, rest) := by
  have hstop := stops_of_noColon hcolon
  unfold Ipv6Addr.text
  rcases hmapped : ip.toIpv4Mapped with _ | v4
  · dsimp only
    have hrun := zeroRun_longestZeros ip.segments
    generalize longestZeros ip.segments = run at hrun ⊢
    obtain ⟨start, count⟩ := run
    dsimp only
    split_ifs with hcount
    · -- the groups in front of the double colon, then those behind it
      have hbound : start + count ≤ 8 := hrun.1
      have hhead : (ip.segments.take start).length = start := by
        rw [length_take, ip.length_segments]
        omega
      have htail : (ip.segments.drop (start + count)).length = 8 - (start + count) := by
        rw [length_drop, ip.length_segments]
      have hfirst : readGroups 8 true (groupsText (ip.segments.take start) ++ ("::".toList ++
          (groupsText (ip.segments.drop (start + count)) ++ rest))) = _ :=
        readGroups_groupsText _ (by omega) (by simpa using ⟨dot_notMem_groupsText _, hdot⟩)
          (noDigit_colon 16 _)
          (stops_colons _)
      have hsecond :
          readGroups (7 - start) true (groupsText (ip.segments.drop (start + count)) ++ rest) = _ :=
        readGroups_groupsText _ (by omega) hdot hdigit hstop
      have hstrip :
          stripPrefix [':', ':']
          ("::".toList ++ (groupsText (ip.segments.drop (start + count)) ++ rest)) =
          some (groupsText (ip.segments.drop (start + count)) ++ rest) := by
        simp [stripPrefix, isPrefixOf?]
      rw [append_assoc, append_assoc, readIpv6, hfirst]
      dsimp only
      rw [hhead, if_neg (by omega), if_neg (by decide), hstrip, map_some, hsecond]
      dsimp only
      rw [htail, show 8 - start - (8 - (start + count)) = count by omega, hrun.eq,
        ip.ofSegments_segments]
    · rw [readIpv6, readGroups_groupsText _ (le_of_eq ip.length_segments) hdot hdigit hstop]
      exact if_pos ip.length_segments
  · exact readIpv6_mapped hmapped hdigit.decimal

theorem readIpv4_v6 (ip : Ipv6Addr) (hdot : '.' ∉ rest) : readIpv4 (ip.text ++ rest) = none := by
  unfold Ipv6Addr.text
  rcases ip.toIpv4Mapped with _ | v4
  · dsimp only
    refine readIpv4_noDot ?_
    rw [mem_append, not_or]
    refine ⟨?_, hdot⟩
    split_ifs
    · simp only [mem_append, not_or]
      exact ⟨⟨dot_notMem_groupsText _, by decide⟩, dot_notMem_groupsText _⟩
    · exact dot_notMem_groupsText _
  · exact readIpv4_colon _

/-! ### Addresses -/

/-- **An address is read back.** -/
theorem parseIp_text (ip : IpAddr) : parseIp ip.text = some ip := by
  have hnone : ∀ radix, NoDigit radix [] := fun radix c hc => by cases hc
  unfold parseIp IpAddr.text
  rcases ip with ip | ip
  · have hread := readIpv4_text ip (hnone 10)
    rw [append_nil] at hread
    simp only [hread, if_true]
  · have hread := readIpv6_text ip (by simp) (hnone 16) (by simp)
    have hv4 := readIpv4_v6 ip (by simp : '.' ∉ ([] : Text))
    rw [append_nil] at hread hv4
    simp only [hread, hv4, if_true]

theorem isAddrChar_of_text (ip : IpAddr) : ∀ c ∈ ip.text, isAddrChar c = true :=
  isAddrChar_of_parseIp (parseIp_text ip)

/-! ### Socket addresses -/

/-- `SocketAddr` with the scope that the text of an IPv6 address can give. -/
inductive ScopedAddr
  | v4 (ip : Ipv4Addr) (port : UInt16)
  | v6 (ip : Ipv6Addr) (scope : UInt32) (port : UInt16)
  deriving DecidableEq

/-- `SocketAddr::new`. -/
def ScopedAddr.new : IpAddr → UInt16 → ScopedAddr
  | .v4 ip, port => .v4 ip port
  | .v6 ip, port => .v6 ip 0 port

/-- `read_scope_id`, zero if there is none. -/
def readScopeId (t : Text) : UInt32 × Text :=
  match (stripPrefix ['%'] t).bind fun t => readNumber 10 t.length true 0xffffffff t with
  | some (n, rest) => (UInt32.ofNat n, rest)
  | none => (0, t)

/-- `read_socket_addr_v4`. -/
def readScopedV4 (t : Text) : Option (ScopedAddr × Text) := do
  let (ip, t) ← readIpv4 t
  let (port, t) ← readPort t
  return (.v4 ip port, t)

/-- `read_socket_addr_v6`. -/
def readScopedV6 (t : Text) : Option (ScopedAddr × Text) := do
  let t ← stripPrefix ['['] t
  let (ip, t) ← readIpv6 t
  let (scope, t) := readScopeId t
  let t ← stripPrefix [']'] t
  let (port, t) ← readPort t
  return (.v6 ip scope port, t)

/-- `from_str` of `SocketAddr`. -/
def parseScoped (t : Text) : Option ScopedAddr :=
  match (readScopedV4 t).or (readScopedV6 t) with
  | some (address, rest) => if rest = [] then some address else none
  | none => none

/-- `Display` of `SocketAddr`. -/
def ScopedAddr.text : ScopedAddr → Text
  | .v4 ip port => ip.text ++ ":".toList ++ decimal port.toNat
  | .v6 ip scope port =>
    if scope = 0 then
      "[".toList ++ ip.text ++ "]:".toList ++ decimal port.toNat
    else
      "[".toList ++ ip.text ++ "%".toList ++ decimal scope.toNat ++ "]:".toList ++
        decimal port.toNat

theorem stripPrefix_cons (c : Char) (t : Text) : stripPrefix [c] (c :: t) = some t := by
  simp [stripPrefix, isPrefixOf?]

theorem stripPrefix_ne {c d : Char} (h : d ≠ c) (t : Text) : stripPrefix [c] (d :: t) = none := by
  simp [stripPrefix, isPrefixOf?, h.symm]

theorem readNumber_decimal {max n : ℕ} (hmax : n ≤ max) (hrest : NoDigit 10 rest) :
    readNumber 10 (decimal n ++ rest).length true max (decimal n ++ rest) = some (n, rest) := by
  refine readNumber_toDigits (by decide) (by decide) true ?_ hmax hrest
  rw [length_append]
  exact Nat.le_add_right _ _

theorem readPort_text (port : UInt16) : readPort (':' :: decimal port.toNat) = some (port, []) := by
  have hread :
      readNumber 10 (decimal port.toNat ++ []).length true 0xffff (decimal port.toNat ++ []) = _ :=
    readNumber_decimal (Nat.le_of_lt_succ port.toNat_lt) fun c hc => by cases hc
  rw [append_nil] at hread
  rw [readPort, stripPrefix_cons, bind_some, hread, map_some]
  exact congrArg (fun n => some (n, ([] : Text))) UInt16.ofNat_toNat

theorem noDigit_of_mark {radix : ℕ} {c : Char} (hc : digitValue radix c = none) (t : Text) :
    NoDigit radix (c :: t) := by
  intro d hd
  cases hd
  exact hc

theorem parseUnsigned_decimal {max n : ℕ} (h : n ≤ max) :
    parseUnsigned max (decimal n) = some n := by
  have hdigit : ∀ d < 10, (Nat.digitChar d).isDigit = true ∧
      (digitValue 10 (Nat.digitChar d)).getD 0 = (Nat.digitChar d).toNat - 48 := by decide
  have hall : ∀ c ∈ decimal n, c.isDigit = true ∧ (digitValue 10 c).getD 0 = c.toNat - 48 := by
    intro c hc
    obtain ⟨d, hd, rfl⟩ := mem_toDigits (by decide) hc
    exact hdigit d hd
  have hplus : (decimal n).head? ≠ some '+' := fun hhead =>
    absurd (hall '+' (mem_of_mem_head? hhead)).1 (by decide)
  have hvalue : (decimal n).foldl (fun m c => 10 * m + (c.toNat - 48)) 0 = n := by
    conv_rhs => rw [← foldl_toDigits (by decide) (by decide : 10 ≤ 16) n]
    refine foldl_ext _ _ _ fun m c hc => ?_
    rw [(hall c hc).2, Nat.mul_comm]
  rw [parseUnsigned, if_neg hplus, digits,
    if_pos ⟨Nat.toDigits_ne_nil, all_eq_true.mpr fun c hc => (hall c hc).1⟩,
    hvalue, filter_some, if_pos (by simpa using h)]

theorem isDigit_of_mem_decimal {n : ℕ} {c : Char} (h : c ∈ decimal n) : c.isDigit = true := by
  obtain ⟨d, hd, rfl⟩ := mem_toDigits (by decide) h
  have hdigit : ∀ d < 10, (Nat.digitChar d).isDigit = true := by decide
  exact hdigit d hd

theorem dot_notMem_decimal (n : ℕ) : '.' ∉ decimal n :=
  fun h => absurd (isDigit_of_mem_decimal h) (by decide)

theorem readScopeId_bracket (t : Text) : readScopeId (']' :: t) = (0, ']' :: t) := by
  rw [readScopeId, stripPrefix_ne (by decide)]
  rfl

theorem readScopeId_text (scope : UInt32) (t : Text) :
    readScopeId ('%' :: (decimal scope.toNat ++ ']' :: t)) = (scope, ']' :: t) := by
  have hread :
      readNumber 10 (decimal scope.toNat ++ ']' :: t).length true 0xffffffff
      (decimal scope.toNat ++ ']' :: t) = _ :=
    readNumber_decimal (Nat.le_of_lt_succ scope.toNat_lt) (noDigit_of_mark (by decide) t)
  rw [readScopeId, stripPrefix_cons, bind_some, hread]
  exact congrArg (fun n => (n, ']' :: t)) UInt32.ofNat_toNat

theorem readScopedV4_text (ip : Ipv4Addr) (port : UInt16) :
    readScopedV4 (ip.text ++ ':' :: decimal port.toNat) = some (.v4 ip port, []) := by
  rw [readScopedV4, readIpv4_text ip (noDigit_of_mark (by decide) _), bind_eq_bind, bind_some]
  dsimp only
  rw [readPort_text]
  rfl

theorem readScopedV6_text (ip : Ipv6Addr) {scope : UInt32} {port : UInt16} {behind : Text}
    (hscope : readScopeId behind = (scope, ']' :: ':' :: decimal port.toNat)) (hdot : '.' ∉ behind)
    (hdigit : NoDigit 16 behind) (hcolon : behind.head? ≠ some ':') :
    readScopedV6 ('[' :: (ip.text ++ behind)) = some (.v6 ip scope port, []) := by
  rw [readScopedV6, stripPrefix_cons, bind_eq_bind, bind_some, readIpv6_text ip hdot hdigit hcolon,
    bind_eq_bind, bind_some]
  dsimp only
  rw [hscope]
  dsimp only
  rw [stripPrefix_cons, bind_some, readPort_text]
  rfl

theorem ScopedAddr.text_v4 (ip : Ipv4Addr) (port : UInt16) :
    (v4 ip port).text = ip.text ++ ':' :: decimal port.toNat := by
  simp [text]

theorem ScopedAddr.text_v6 (ip : Ipv6Addr) (scope : UInt32) (port : UInt16) :
    (v6 ip scope port).text =
    '[' :: (ip.text ++ ((if scope = 0 then [] else '%' :: decimal scope.toNat) ++ ']' :: ':' ::
    decimal port.toNat)) := by
  by_cases hscope : scope = 0
  · simp [text, hscope]
  · simp [text, hscope]

/-- **A socket address is read back.** -/
theorem parseScoped_text (address : ScopedAddr) : parseScoped address.text = some address := by
  unfold parseScoped
  rcases address with ⟨ip, port⟩ | ⟨ip, scope, port⟩
  · rw [ScopedAddr.text_v4, readScopedV4_text]
    exact if_pos rfl
  · have hv4 : ∀ t : Text, readScopedV4 ('[' :: t) = none := by
      intro t
      rw [readScopedV4, readIpv4_noDigit (noDigit_of_mark (by decide) t)]
      rfl
    have hport : '.' ∉ ']' :: ':' :: decimal port.toNat := by
      simp only [mem_cons, not_or]
      exact ⟨by decide, by decide, dot_notMem_decimal _⟩
    rw [ScopedAddr.text_v6, hv4, none_or]
    split_ifs with hscope
    · rw [nil_append,
        readScopedV6_text ip (readScopeId_bracket _) hport (noDigit_of_mark (by decide) _)
        (by simp), hscope]
      exact if_pos rfl
    · have hdot : '.' ∉ '%' :: (decimal scope.toNat ++ ']' :: ':' :: decimal port.toNat) := by
        rw [mem_cons, mem_append, not_or, not_or]
        exact ⟨by decide, dot_notMem_decimal _, hport⟩
      rw [cons_append,
        readScopedV6_text ip (readScopeId_text scope _) hdot (noDigit_of_mark (by decide) _)
        (by simp)]
      exact if_pos rfl

end Koku.Rust.Net
