import Koku.Routing.Sources
import Koku.Rust.NetText

/-! # Rules that are addresses

An entry is split at its first colon before it is tried as an address, unless a dot or a slash comes
first. An IPv4 address or network has no colon (`parse_v4`). Of an IPv6 one the digits in front of
the first colon are taken for the kind of the entry, and none is a kind (`parse_v6`); only one that
starts with two colons has the empty kind, and what is left is a name. -/

namespace Koku.Routing

open Rust.Str Rust.Net List Option

/-- The characters of a network: those of an address and a slash. -/
def isNetChar (c : Char) : Bool := isAddrChar c || c == '/'

/-- What is assumed of `ipnet` about `IpNet::from_str`, `IpNet::from` and `IpNet::contains`. -/
structure NetFacts (L : Libs) : Prop where
  /-- A network is an address, a slash and a number. -/
  chars : ∀ t n, L.netParse t = some n → ∀ c ∈ t, isNetChar c = true
  slash : ∀ t n, L.netParse t = some n → '/' ∈ t
  /-- What stands in front of the first colon is a group. -/
  start : ∀ t n, L.netParse t = some n → ':' ∈ t → ∃ ds r, t = ds ++ ':' :: r ∧
    ∀ c ∈ ds, isHex c = true
  /-- No third colon follows the two that it starts with. -/
  colons : ∀ t n, L.netParse (':' :: t) = some n → L.netParse t = none
  /-- A network is not empty. -/
  inhabited : ∀ t n, L.netParse t = some n → ∃ ip, L.netContains n ip = true
  /-- The network of one address. -/
  ofIp : ∀ a b, L.netContains (L.netOfIp a) b = true ↔ b = a

variable (u : UnicodeData) {L : Libs} {t : Text}

/-! ### The characters of an entry -/

theorem toNat_of_isNetChar {c : Char} (h : isNetChar c = true) : c.toNat < 128 := by
  simp only [isNetChar, Bool.or_eq_true, beq_iff_eq] at h
  rcases h with h | rfl
  · exact toNat_of_isAddrChar h
  · decide

theorem isNetChar_of_isHex {c : Char} (h : isHex c = true) : isNetChar c = true := by
  simp [isNetChar, isAddrChar_of_isHex h]

theorem forall_isNetChar {p : Char → Prop} (h : ∀ n < 128, isNetChar (Char.ofNat n) = true →
    p (Char.ofNat n)) : ∀ c, isNetChar c = true → p c := by
  intro c hc
  have := h c.toNat (toNat_of_isNetChar hc)
  rw [Char.ofNat_toNat] at this
  exact this hc

theorem isWhitespace_of_isNetChar : ∀ c, isNetChar c = true → isWhitespace c = false :=
  forall_isNetChar (by decide)

theorem not_private (h : ∀ c ∈ t, isNetChar c = true) :
    eqIgnoreAsciiCase t "private".toList = false := by
  rw [Bool.eq_false_iff]
  intro heq
  have hlower : t.map Char.toLower = "private".toList := by
    simpa [eqIgnoreAsciiCase, toAsciiLowercase] using heq
  obtain ⟨c, hc, hp⟩ := mem_map.mp (show 'p' ∈ t.map Char.toLower by rw [hlower]; decide)
  exact forall_isNetChar (p := fun c => c.toLower ≠ 'p') (by decide) c (h c hc) hp

theorem trim_between {before after : Text} (hbefore : ∀ c ∈ before, isWhitespace c = true)
    (hafter : ∀ c ∈ after, isWhitespace c = true) (h : ∀ c ∈ t, isNetChar c = true) :
    trim (before ++ t ++ after) = t := by
  rw [trim_append_blank _ hafter, trim_blank_append hbefore]
  exact trim_of_all fun c hc => isWhitespace_of_isNetChar c (h c hc)

/-! ### How the entry is read -/

theorem parse_of_chars (hne : t ≠ []) (h : ∀ c ∈ t, isNetChar c = true) :
    ¬(trim t = [] ∨ (trim t).head? = some '#') := by
  rw [trim_of_all fun c hc => isWhitespace_of_isNetChar c (h c hc)]
  rintro (he | hmark)
  · exact hne he
  · exact absurd (h '#' (mem_of_mem_head? hmark)) (by decide)

theorem parse_plain {value : Text} (hsplit : splitEntry u (trim t) = ([], value))
    (hentry : ¬(trim t = [] ∨ (trim t).head? = some '#'))
    (hvalue : ∀ c ∈ value, isNetChar c = true) : Matcher.parse u L t = match parseNet L value with
      | some n => some (.net n)
      | none => (normalizeDomain u value).map .domainSuffix := by
  unfold Matcher.parse
  rw [if_neg hentry]
  simp only [hsplit]
  rw [if_neg (by decide), if_neg (by decide), if_neg (by decide), if_neg (by decide),
    if_neg (by decide), if_neg (by decide), if_neg (by decide), if_pos trivial]
  exact if_neg (by rw [not_private hvalue]; decide)

variable {n : L.IpNet}

/-- **An entry without a colon** is the network that it spells. -/
theorem parse_v4 (hne : t ≠ []) (h : ∀ c ∈ t, isNetChar c = true) (hcolon : ':' ∉ t)
    (hnet : parseNet L t = some n) : Matcher.parse u L t = some (.net n) := by
  have htrim : trim t = t := trim_of_all fun c hc => isWhitespace_of_isNetChar c (h c hc)
  have hsplit : splitEntry u (trim t) = ([], t) := by
    rw [htrim, splitEntry, splitOnce_none hcolon]
  rw [parse_plain u hsplit (parse_of_chars hne h) h, hnet]

def kinds : List Text :=
  ["domain".toList, "suffix".toList, "full".toList, "exact".toList, "keyword".toList,
    "regexp".toList, "regex".toList, "ip".toList, "cidr".toList, "port".toList, "geoip".toList,
    "geosite".toList]

theorem hex_not_kind {ds : Text} (h : ∀ c ∈ ds, isHex c = true) : toAsciiLowercase ds ∉ kinds := by
  have hhex : ∀ c ∈ toAsciiLowercase ds, isHex c = true := by
    intro c hc
    obtain ⟨d, hd, rfl⟩ := mem_map.mp hc
    exact forall_isNetChar (p := fun c => isHex c = true → isHex c.toLower = true) (by decide) d
      (isNetChar_of_isHex (h d hd)) (h d hd)
  intro hmem
  have hbad : ∀ k ∈ kinds, k.any (!isHex ·) = true := by decide
  obtain ⟨c, hc, hnot⟩ := any_eq_true.mp (hbad _ hmem)
  rw [hhex c hc] at hnot
  exact absurd hnot (by decide)

/-- **An entry that starts with a group and a colon** is no address: it is nothing, or a name if the
group is empty. -/
theorem parse_v6 {ds r : Text} (h : ∀ c ∈ ds ++ ':' :: r, isNetChar c = true)
    (hds : ∀ c ∈ ds, isHex c = true) (hrest : ds = [] → parseNet L r = none) :
    ∀ m, Matcher.parse u L (ds ++ ':' :: r) = some m → ∃ name, m = .domainSuffix name := by
  have hblank : ∀ {x : Text}, (∀ c ∈ x, isNetChar c = true) → trim x = x := fun hx =>
    trim_of_all fun c hc => isWhitespace_of_isNetChar c (hx c hc)
  have hr : ∀ c ∈ r, isNetChar c = true := fun c hc => h c (by simp [hc])
  have hds' : ∀ c ∈ ds, isNetChar c = true := fun c hc => isNetChar_of_isHex (hds c hc)
  have hno : ∀ c, isHex c = false → c ∉ ds := fun c hc hm => by simp [hds c hm] at hc
  have hlower : toLowercase u ds = toAsciiLowercase ds :=
    toLowercaseFrom_ascii u fun c hc => toNat_of_isNetChar (hds' c hc)
  have hsplit : splitEntry u (trim (ds ++ ':' :: r)) = (toAsciiLowercase ds, r) := by
    rw [hblank h, splitEntry, splitOnce_char (hno ':' (by decide))]
    simp only
    rw [if_pos ⟨hno '.' (by decide), hno '/' (by decide)⟩, hblank hds', hblank hr, hlower]
  have hentry := parse_of_chars (by simp) h
  by_cases hempty : ds = []
  · have hplain := parse_plain (L := L) u (by rw [hsplit, hempty]; rfl) hentry hr
    rw [hrest hempty] at hplain
    intro m hm
    rw [hplain] at hm
    obtain ⟨name, -, rfl⟩ := map_eq_some_iff.mp hm
    exact ⟨name, rfl⟩
  · -- the digits are the kind of the entry, and there is no such kind
    have hkind := hex_not_kind hds
    have hne : toAsciiLowercase ds ≠ [] := by simpa [toAsciiLowercase] using hempty
    have hmem : ∀ ks : List Text, (∀ k ∈ ks, k ∈ kinds) → toAsciiLowercase ds ∉ ks :=
      fun ks hks hm => hkind (hks _ hm)
    have hone : ∀ k ∈ kinds, toAsciiLowercase ds ≠ k := fun k hk he => hkind (he ▸ hk)
    intro m hm
    unfold Matcher.parse at hm
    rw [if_neg hentry] at hm
    simp only [hsplit] at hm
    rw [if_neg (hmem _ (by decide)), if_neg (hmem _ (by decide)), if_neg (hone _ (by decide)),
      if_neg (hmem _ (by decide)), if_neg (hmem _ (by decide)), if_neg (hone _ (by decide)),
      if_neg (hmem _ (by decide)), if_neg hne] at hm
    cases hm

/-! ### Addresses and networks -/

variable (L)

/-- The rule that an entry is read as matches the hosts of a set and no other. -/
def MatchesExactly (entry : Text) (hosts : Host → Prop) : Prop :=
  ∃ m, Matcher.parse u L entry = some m ∧ ∀ host port, m.matches u host port = true ↔ hosts host

variable {L}

theorem MatchesExactly.trim {entry : Text} {hosts : Host → Prop} :
    MatchesExactly u L entry hosts ↔ MatchesExactly u L (trim entry) hosts := by
  unfold MatchesExactly
  rw [Matcher.parse_congr u L (trim_trim entry)]

theorem matchesExactly_net (h : Matcher.parse u L t = some (.net n)) :
    MatchesExactly u L t fun host => ∃ b, host = .ip b ∧ L.netContains n b = true := by
  refine ⟨_, h, fun host port => ?_⟩
  rcases host with name | ip
  · simp [Matcher.matches]
  · simp [Matcher.matches]

theorem not_matchesExactly_name {hosts : Host → Prop} {b : IpAddr} (hb : hosts (.ip b))
    (h : ∀ m, Matcher.parse u L t = some m → ∃ name, m = .domainSuffix name) :
    ¬MatchesExactly u L t hosts := by
  rintro ⟨m, hm, hexact⟩
  obtain ⟨name, rfl⟩ := h m hm
  have := (hexact (.ip b) 0).mpr hb
  simp [Matcher.matches] at this

/-- Of an address and of a network alike: what it is read as if it has no colon and if it has
one. -/
theorem matchesExactly_iff (hne : t ≠ []) (hchars : ∀ c ∈ t, isNetChar c = true)
    (hnet : parseNet L t = some n) (hin : ∃ b, L.netContains n b = true)
    (hstart : ':' ∈ t → ∃ ds r, t = ds ++ ':' :: r ∧ ∀ c ∈ ds, isHex c = true)
    (hcolons : ∀ r, t = ':' :: r → parseNet L r = none) :
    (MatchesExactly u L t fun host => ∃ b, host = .ip b ∧ L.netContains n b = true) ↔ ':' ∉ t := by
  constructor
  · intro hexact hcolon
    obtain ⟨ds, r, rfl, hds⟩ := hstart hcolon
    obtain ⟨b, hb⟩ := hin
    refine not_matchesExactly_name u ⟨b, rfl, hb⟩ (parse_v6 u hchars hds fun hempty => ?_) hexact
    exact hcolons r (by rw [hempty, nil_append])
  · exact fun hcolon => matchesExactly_net u (parse_v4 u hne hchars hcolon hnet)

theorem parseNet_of_slash (F : NetFacts L) (hchars : ∀ c ∈ t, isNetChar c = true)
    (hslash : '/' ∉ t) : parseNet L t = (parseIp t).map L.netOfIp := by
  have hnone : L.netParse t = none := by
    rw [eq_none_iff_forall_ne_some]
    exact fun n hn => hslash (F.slash t n hn)
  rw [parseNet, trim_of_all fun c hc => isWhitespace_of_isNetChar c (hchars c hc), hnone]

theorem parseNet_of_net (hchars : ∀ c ∈ t, isNetChar c = true) (hn : L.netParse t = some n) :
    parseNet L t = some n := by
  rw [parseNet, trim_of_all fun c hc => isWhitespace_of_isNetChar c (hchars c hc), hn]

theorem address_exact_iff (F : NetFacts L) {a : IpAddr} (h : parseIp t = some a) :
    MatchesExactly u L t (fun host => host = .ip a) ↔ ':' ∉ t := by
  have haddr := isAddrChar_of_parseIp h
  have hnetchar : ∀ {x : Text}, (∀ c ∈ x, isAddrChar c = true) → ∀ c ∈ x, isNetChar c = true :=
    fun hx c hc => by
    simp [isNetChar, hx c hc]
  have hslash : ∀ {x : Text}, (∀ c ∈ x, isAddrChar c = true) → '/' ∉ x := fun hx hm =>
    absurd (hx '/' hm) (by decide)
  have hne : t ≠ [] := by
    rintro rfl
    cases h
  have hnet : parseNet L t = some (L.netOfIp a) := by
    rw [parseNet_of_slash F (hnetchar haddr) (hslash haddr), h]
    rfl
  have hcolons : ∀ r, t = ':' :: r → parseNet L r = none := by
    rintro r rfl
    have hr : ∀ c ∈ r, isAddrChar c = true := fun c hc => haddr c (mem_cons_of_mem _ hc)
    rw [parseNet_of_slash F (hnetchar hr) (hslash hr), parseIp_behind_colon h]
    rfl
  have hsame : (fun host => host = Host.ip a) = fun host => ∃ b, host = .ip b ∧
      L.netContains (L.netOfIp a) b = true := by
    funext host
    simp [F.ofIp]
  rw [hsame]
  exact matchesExactly_iff u hne (hnetchar haddr) hnet ⟨a, (F.ofIp a a).mpr rfl⟩
    (parseIp_start h) hcolons

theorem network_exact_iff (F : NetFacts L) (h : L.netParse t = some n) :
    (MatchesExactly u L t fun host => ∃ b, host = .ip b ∧ L.netContains n b = true) ↔ ':' ∉ t := by
  have hchars := F.chars t n h
  have hslash := F.slash t n h
  have hcolons : ∀ r, t = ':' :: r → parseNet L r = none := by
    rintro r rfl
    have hr : ∀ c ∈ r, isNetChar c = true := fun c hc => hchars c (mem_cons_of_mem _ hc)
    have hip : parseIp r = none := by
      rw [eq_none_iff_forall_ne_some]
      intro b hb
      have hmem : '/' ∈ r := by simpa using hslash
      exact absurd (isAddrChar_of_parseIp hb '/' hmem) (by decide)
    rw [parseNet, trim_of_all fun c hc => isWhitespace_of_isNetChar c (hr c hc),
      F.colons r n h, hip]
    rfl
  exact matchesExactly_iff u (ne_nil_of_mem hslash) hchars (parseNet_of_net hchars h)
    (F.inhabited t n h)
    (F.start t n h) hcolons

/-- **Which address rules are read**: an address or a network, with blanks around it or not, becomes
the rule for its own addresses exactly if it has no colon. -/
theorem address_rule_iff (F : NetFacts L) {before after : Text}
    (hbefore : ∀ c ∈ before, isWhitespace c = true) (hafter : ∀ c ∈ after, isWhitespace c = true) :
    (∀ t a, parseIp t = some a →
      (MatchesExactly u L (before ++ t ++ after) (fun host => host = .ip a) ↔ ':' ∉ t)) ∧
    ∀ t n, L.netParse t = some n →
      ((MatchesExactly u L (before ++ t ++ after) fun host => ∃ b, host = .ip b ∧
        L.netContains n b = true) ↔ ':' ∉ t) := by
  refine ⟨fun t a h => ?_, fun t n h => ?_⟩
  · have hchars : ∀ c ∈ t, isNetChar c = true :=
  fun c hc => by simp [isNetChar, isAddrChar_of_parseIp h c hc]
    rw [MatchesExactly.trim, trim_between hbefore hafter hchars]
    exact address_exact_iff u F h
  · rw [MatchesExactly.trim, trim_between hbefore hafter (F.chars t n h)]
    exact network_exact_iff u F h

/-- Libraries with one network, `10.0.0.0/8`. -/
def tenLibs : Libs where
  Regex := Text
  regexNew := some
  isMatch := fun pattern t => pattern <:+: t
  IpNet := Option IpAddr
  netParse := fun t => if t = "10.0.0.0/8".toList then some none else none
  netOfIp := some
  netContains := fun n ip =>
    match n, ip with
    | some a, ip => ip = a
    | none, .v4 ip => ip.a = 10
    | none, .v6 _ => false

theorem tenLibs_facts : NetFacts tenLibs := by
  have htext : ∀ t n, tenLibs.netParse t = some n → t = "10.0.0.0/8".toList ∧ n = none := by
    intro t n h
    obtain ⟨ht, hn⟩ := ite_none_right_eq_some.mp h
    exact ⟨ht, (some.inj hn).symm⟩
  refine ⟨fun t n h => ?_, fun t n h => ?_, fun t n h => ?_, fun t n h => ?_, fun t n h => ?_,
    fun a b => ?_⟩
  · rw [(htext t n h).1]
    exact all_eq_true.mp rfl
  · rw [(htext t n h).1]
    decide
  · rw [(htext t n h).1]
    exact fun hcolon => absurd hcolon (by decide)
  · exact absurd (htext _ n h).1 (by simp)
  · rw [(htext t n h).2]
    exact ⟨.v4 ⟨10, 0, 0, 1⟩, rfl⟩
  · exact decide_eq_true_iff

theorem ten_rule_read :
    MatchesExactly asciiData tenLibs " 10.0.0.1\t".toList (fun host => host =
      .ip (.v4 ⟨10, 0, 0, 1⟩)) ∧ MatchesExactly asciiData tenLibs " 10.0.0.0/8\t".toList
        fun host => ∃ b, host = .ip b ∧ tenLibs.netContains none b = true := by
  have hspace : ∀ c ∈ [' '], isWhitespace c = true := forall_mem_singleton.mpr rfl
  have htab : ∀ c ∈ ['\t'], isWhitespace c = true := forall_mem_singleton.mpr rfl
  have h := address_rule_iff asciiData tenLibs_facts hspace htab
  exact ⟨(h.1 "10.0.0.1".toList _ (by decide)).mpr (by decide),
    (h.2 "10.0.0.0/8".toList _ rfl).mpr (by decide)⟩

/-- The loopback address of IPv6 becomes a rule for the name `:1`, and an address with a first group
no rule. -/
theorem loopback_rule_is_name :
    parseIp "::1".toList = some (.v6 .localhost) ∧
      (∃ m, Matcher.parse asciiData tenLibs "::1".toList = some m ∧
        m.matches asciiData (.ip (.v6 .localhost)) 443 = false ∧
        m.matches asciiData (.domain ":1".toList) 443 = true) ∧
      (parseIp "2001:db8::1".toList).isSome = true ∧
      Matcher.parse asciiData tenLibs "2001:db8::1".toList = none :=
  ⟨by decide, ⟨.domainSuffix ":1".toList, by rfl, by decide, by decide⟩, by decide, by rfl⟩

end Koku.Routing
