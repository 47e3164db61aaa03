import Koku.Dns.Query
import Koku.Rust.NetPrint
import Koku.Rust.Pieces

/-! # The resolver setting

`EchDns` of `dns.rs`: the resolver that is asked for ECH keys, as the settings name it
(`EchDns.parse`) and the log writes it (`EchDns.text`). What is written names the same resolver
(`resolver_read_back`). -/

namespace Koku.Dns

open Rust.Str Rust.Utf8 Rust.Net List Option

/-! ### The functions -/

/-- A `str` in front of a byte index and from it on: `none` inside of a character, and behind the
end. -/
def splitAtByte : ℕ → Text → Option (Text × Text)
  | 0, t => some ([], t)
  | _ + 1, [] => none
  | n + 1, c :: t =>
    if c.utf8Size ≤ n + 1 then (splitAtByte (n + 1 - c.utf8Size) t).map fun (a, b) => (c :: a, b)
      else none

/-- `strip_scheme`. -/
def stripScheme (value scheme : Text) : Option Text :=
  (splitAtByte (len scheme) value).bind fun (head, rest) => if eqIgnoreAsciiCase head scheme
    then some rest else none

/-- `str::strip_suffix` with a character. -/
def stripLast (c : Char) (t : Text) : Option Text :=
  if t.getLast? = some c then some t.dropLast else none

/-- `from_str` of `Ipv6Addr`. -/
def parseIpv6 (t : Text) : Option Ipv6Addr :=
  match readIpv6 t with
  | some (ip, rest) => if rest = [] then some ip else none
  | none => none

/-- `socket_address`. -/
def socketAddress (text : Text) (defaultPort : UInt16) : Option ScopedAddr :=
  match parseScoped text with
  | some address => some address
  | none =>
    match parseIp text with
    | some ip => some (.new ip defaultPort)
    | none => do
      let rest ← stripPrefix ['['] text
      let inner ← stripLast ']' rest
      let ip ← parseIpv6 inner
      return .new (.v6 ip) defaultPort

def bareOf (value : Text) : Text := ((stripPrefix ['['] value).bind (stripLast ']')).getD value

/-- `host_address`. -/
def hostAddress (value : Text) : Option Text :=
  match parseIp (bareOf value) with
  | some ip => some ip.text
  | none => if validDomain value then some value else none

/-- `DohEndpoint`. -/
structure DohEndpoint where
  url : Text
  address : Option Text
  sni : Option Text
  deriving DecidableEq

/-- What `@sni=` may name. -/
def isServerName (setting : Text) : Bool := (parseIp (bareOf setting)).isNone && validDomain setting

def neitherSetting (value piece : Text) : Text :=
  "@".toList ++ piece ++ " in ".toList ++ value ++ " is neither @address= nor @sni=".toList

def namedTwice (value name : Text) : Text :=
  value ++ " names @".toList ++ trim name ++ " twice".toList

def noAddress (setting : Text) : Text :=
  "@address=".toList ++ setting ++ " is no IP address or domain name; the port is the URL's".toList

def noServerName (setting : Text) : Text := "@sni=".toList ++ setting ++ " is no domain name".toList

/-- One setting behind the URL. -/
def DohEndpoint.set (value : Text) (endpoint : DohEndpoint) (piece : Text) :
    Except Text DohEndpoint :=
  match splitOnce ['='] piece with
  | none => .error (neitherSetting value piece)
  | some (name, setting) =>
    let setting := trim setting
    let key := toAsciiLowercase (trim name)
    if key = "address".toList then
      if endpoint.address.isSome then
        .error (namedTwice value name)
      else
        match hostAddress setting with
        | some address => .ok { endpoint with address := some address }
        | none => .error (noAddress setting)
    else if key = "sni".toList then
      if endpoint.sni.isSome then
        .error (namedTwice value name)
      else if isServerName setting then
        .ok { endpoint with sni := some setting }
      else
        .error (noServerName setting)
    else
      .error (neitherSetting value piece)

/-- The host of an `https://` URL: what stands in front of the path, the query and the fragment. -/
def urlHost (url : Text) : Text :=
  ((stripScheme url "https://".toList).map fun rest => rest.takeWhile fun c =>
    c ∉ ['/', '?', '#']).getD []

/-- `DohEndpoint::parse`. -/
def DohEndpoint.parse (value : Text) : Except Text DohEndpoint :=
  let pieces := split '@' value
  let url := trim (pieces.headD [])
  if urlHost url = [] then
    .error (value ++ " names no host".toList)
  else
    pieces.tail.foldlM (DohEndpoint.set value) ⟨url, none, none⟩

/-- `EchDns`. -/
inductive EchDns
  | udp (address : ScopedAddr)
  | tcp (address : ScopedAddr)
  | https (endpoint : DohEndpoint)
  deriving DecidableEq

/-- A resolver over UDP or TCP, by what stands behind the scheme. -/
def plainResolver (value rest : Text) (make : ScopedAddr → EchDns) : Except Text EchDns :=
  match socketAddress (trimEndMatches '/' rest) 53 with
  | some address => .ok (make address)
  | none => .error (value ++ " names no IP address".toList)

/-- **`EchDns::parse`**. -/
def EchDns.parse (value : Text) : Except Text EchDns :=
  let value := trim value
  if (stripScheme value "https://".toList).isSome then
    (DohEndpoint.parse value).map .https
  else
    match stripScheme value "udp://".toList with
    | some rest => plainResolver value rest .udp
    | none =>
      match stripScheme value "tcp://".toList with
      | some rest => plainResolver value rest .tcp
      | none => .error (value ++ " is no udp://, tcp:// or https:// address".toList)

def DohEndpoint.settings (endpoint : DohEndpoint) : Text :=
  (endpoint.address.map fun address => "@address=".toList ++ address).getD [] ++
    (endpoint.sni.map fun sni => "@sni=".toList ++ sni).getD []

/-- **`Display` of `EchDns`**. -/
def EchDns.text : EchDns → Text
  | .udp address => "udp://".toList ++ address.text
  | .tcp address => "tcp://".toList ++ address.text
  | .https endpoint => endpoint.url ++ endpoint.settings

/-! ### Schemes -/

theorem len_cons (c : Char) (t : Text) : len (c :: t) = c.utf8Size + len t := by simp [len]

theorem splitAtByte_append (a b : Text) : splitAtByte (len a) (a ++ b) = some (a, b) := by
  induction a with
  | nil => cases b <;> rfl
  | cons c a ih =>
    have hpos := c.utf8Size_pos
    obtain ⟨n, hn⟩ := Nat.exists_eq_succ_of_ne_zero (by rw [len_cons]; omega : len (c :: a) ≠ 0)
    have hlen := len_cons c a
    rw [hn, cons_append, splitAtByte, if_pos (by omega), show n + 1 - c.utf8Size = len a by omega,
      ih]
    rfl

theorem eq_of_splitAtByte {n : ℕ} {t a b : Text} (h : splitAtByte n t = some (a, b)) :
    t = a ++ b := by
  induction t generalizing n a with
  | nil =>
    rcases n with _ | n
    · obtain ⟨rfl, rfl⟩ := Prod.mk.inj (some.inj h)
      rfl
    · cases h
  | cons c t ih =>
    rcases n with _ | n
    · obtain ⟨rfl, rfl⟩ := Prod.mk.inj (some.inj h)
      rfl
    · rw [splitAtByte] at h
      obtain ⟨-, hmap⟩ := ite_none_right_eq_some.mp h
      obtain ⟨⟨x, y⟩, hxy, heq⟩ := map_eq_some_iff.mp hmap
      obtain ⟨rfl, rfl⟩ := Prod.mk.inj heq
      rw [ih hxy]
      rfl

theorem len_toAsciiLowercase (t : Text) : len (toAsciiLowercase t) = len t := by
  have hsize : ∀ c : Char, c.toLower.utf8Size = c.utf8Size :=
    fun c => apply_toLower (fun d hd => utf8Size_of_isAlpha hd) c
  rw [len, len, toAsciiLowercase, List.map_map]
  exact congrArg List.sum (List.map_congr_left fun c _ => hsize c)

/-- **A scheme is found in any letter case.** -/
theorem stripScheme_eq_some {value scheme rest : Text} : stripScheme value scheme = some rest ↔
    ∃ head, value = head ++ rest ∧ toAsciiLowercase head = toAsciiLowercase scheme := by
  unfold stripScheme
  rw [bind_eq_some_iff]
  constructor
  · rintro ⟨⟨head, rest'⟩, hsplit, h⟩
    obtain ⟨hcase, heq⟩ := ite_none_right_eq_some.mp h
    cases heq
    exact ⟨head, eq_of_splitAtByte hsplit, eq_of_beq hcase⟩
  · rintro ⟨head, rfl, hcase⟩
    have hlen : len scheme = len head := by
      rw [← len_toAsciiLowercase, ← hcase, len_toAsciiLowercase]
    refine ⟨(head, rest), ?_, if_pos (beq_iff_eq.mpr hcase)⟩
    rw [hlen]
    exact splitAtByte_append head rest

theorem stripScheme_append (scheme rest : Text) : stripScheme (scheme ++ rest) scheme = some rest :=
  stripScheme_eq_some.mpr ⟨scheme, rfl, rfl⟩

theorem stripScheme_more {value scheme rest : Text} (more : Text)
    (h : stripScheme value scheme = some rest) :
    stripScheme (value ++ more) scheme = some (rest ++ more) := by
  obtain ⟨head, rfl, hcase⟩ := stripScheme_eq_some.mp h
  exact stripScheme_eq_some.mpr ⟨head, append_assoc .., hcase⟩

/-! ### Characters of addresses and names -/

def isHostChar (c : Char) : Bool := isAddrChar c || c.isAlphanum || c == '-' || c == '_'

theorem toNat_of_isHostChar {c : Char} (h : isHostChar c = true) : c.toNat < 128 := by
  simp only [isHostChar, Bool.or_eq_true, beq_iff_eq] at h
  rcases h with ((h | h) | rfl) | rfl
  · exact toNat_of_isAddrChar h
  · rw [Char.isAlphanum, Bool.or_eq_true] at h
    rcases h with h | h
    · have := toNat_of_isAlpha h
      omega
    · have hdigit : c.toNat ≤ 57 := (Char.isDigit_iff_toNat.mp h).2
      omega
  · decide
  · decide

theorem forall_isHostChar {p : Char → Prop} (h : ∀ n < 128, isHostChar (Char.ofNat n) = true →
    p (Char.ofNat n)) {c : Char}
    (hc : isHostChar c = true) : p c := by
  have := h c.toNat (toNat_of_isHostChar hc)
  rw [Char.ofNat_toNat] at this
  exact this hc

theorem isWhitespace_of_isHostChar {c : Char} (h : isHostChar c = true) : isWhitespace c = false :=
  forall_isHostChar (p := fun c => isWhitespace c = false) (by decide) h

theorem toNat_of_isDomainByte {b : UInt8} (h : isDomainByte b = true) : b.toNat < 128 := by
  simp only [isDomainByte, Bool.or_eq_true, Bool.and_eq_true, decide_eq_true_eq, beq_iff_eq,
    UInt8.le_iff_toNat_le] at h
  rcases h with (((⟨-, h⟩ | ⟨-, h⟩) | ⟨-, h⟩) | rfl) | rfl
  · exact h.trans_lt (by decide)
  · exact h.trans_lt (by decide)
  · exact h.trans_lt (by decide)
  · decide
  · decide

theorem isHostChar_of_bytes {c : Char} (h : ∀ b ∈ String.utf8EncodeChar c, isDomainByte b = true) :
    isHostChar c = true := by
  have hascii : ∀ n < 128, isDomainByte (UInt8.ofNat n) = true →
      isHostChar (Char.ofNat n) = true := by decide
  obtain ⟨b, hb⟩ :=
    exists_mem_of_ne_nil _ (length_pos_iff.mp (String.length_utf8EncodeChar c ▸ c.utf8Size_pos))
  have hlow := toNat_of_isDomainByte (h b hb)
  have hchar := hascii b.toNat hlow (by rw [UInt8.ofNat_toNat]; exact h b hb)
  rwa [← toNat_of_mem_encodeChar hb hlow, Char.ofNat_toNat] at hchar

/-- A nonempty text of such characters. -/
def HostText (t : Text) : Prop := t ≠ [] ∧ ∀ c ∈ t, isHostChar c = true

namespace HostText

variable {t : Text}

theorem trim_eq (h : HostText t) : trim t = t :=
  trim_of_all fun c hc => isWhitespace_of_isHostChar (h.2 c hc)

theorem notMem (h : HostText t) {c : Char} (hc : isHostChar c = false) : c ∉ t := fun hmem => by
  rw [h.2 c hmem] at hc
  cases hc

theorem getLast? (h : HostText t) (front : Text) :
    ∀ c ∈ (front ++ t).getLast?, isWhitespace c = false := by
  intro c hc
  rw [getLast?_append_of_ne_nil _ h.1] at hc
  exact isWhitespace_of_isHostChar (h.2 c (mem_of_getLast? hc))

end HostText

theorem hostText_ip (ip : IpAddr) : HostText ip.text := by
  refine ⟨fun hnil => ?_, fun c hc => ?_⟩
  · have hparse := parseIp_text ip
    rw [hnil] at hparse
    cases hparse
  · rw [isHostChar, isAddrChar_of_text ip c hc]
    rfl

theorem hostText_of_validDomain {t : Text} (h : validDomain t = true) : HostText t := by
  simp only [validDomain, Bool.and_eq_true, List.all_eq_true, decide_eq_true_eq] at h
  obtain ⟨⟨hne, -⟩, hlabels⟩ := h
  have hchars : ∀ c ∈ stripDot t, isHostChar c = true := by
    intro c hc
    by_cases hdot : c = '.'
    · subst hdot
      rfl
    · obtain ⟨label, hlabel, hmem⟩ := exists_mem_split hc hdot
      refine isHostChar_of_bytes fun b hb => (hlabels label hlabel).2 b ?_
      exact List.mem_flatMap.mpr ⟨c, hmem, hb⟩
  unfold stripDot at hne hchars
  split_ifs at hne hchars with hlast
  · obtain ⟨front, rfl⟩ := getLast?_eq_some_iff.mp hlast
    rw [dropLast_concat] at hchars
    refine ⟨by simp, fun c hc => ?_⟩
    rcases mem_append.mp hc with hc | hc
    · exact hchars c hc
    · rw [mem_singleton.mp hc]
      rfl
  · exact ⟨hne, hchars⟩

theorem bareOf_hostText {t : Text} (h : HostText t) : bareOf t = t := by
  have hnone : stripPrefix ['['] t = none := by
    rw [eq_none_iff_forall_ne_some]
    intro rest hrest
    refine h.notMem (c := '[') (by decide) ?_
    rw [← isPrefixOf?_eq_some_iff_append_eq.mp hrest]
    simp
  rw [bareOf, hnone]
  rfl

theorem hostAddress_again {value address : Text} (h : hostAddress value = some address) :
    HostText address ∧ hostAddress address = some address := by
  have hip : ∀ ip : IpAddr, hostAddress ip.text = some ip.text := by
    intro ip
    rw [hostAddress, bareOf_hostText (hostText_ip ip), parseIp_text]
  unfold hostAddress at h
  rcases hparse : parseIp (bareOf value) with _ | ip
  · simp only [hparse] at h
    obtain ⟨hvalid, heq⟩ := ite_none_right_eq_some.mp h
    cases heq
    refine ⟨hostText_of_validDomain hvalid, ?_⟩
    rw [hostAddress, hparse]
    exact if_pos hvalid
  · simp only [hparse] at h
    cases h
    exact ⟨hostText_ip ip, hip ip⟩

/-! ### Endpoints -/

/-- **An endpoint that was read**: what stands in it is as it is written. -/
structure DohEndpoint.Normal (endpoint : DohEndpoint) : Prop where
  url_clean : '@' ∉ endpoint.url
  url_trim : trim endpoint.url = endpoint.url
  host : urlHost endpoint.url ≠ []
  address : ∀ address ∈ endpoint.address, HostText address ∧ hostAddress address = some address
  sni : ∀ sni ∈ endpoint.sni, HostText sni ∧ isServerName sni = true

theorem DohEndpoint.Normal.set {value piece : Text} {endpoint result : DohEndpoint}
    (h : endpoint.Normal) (hset : DohEndpoint.set value endpoint piece = .ok result) :
    result.Normal := by
  unfold DohEndpoint.set at hset
  rcases hsplit : splitOnce ['='] piece with _ | ⟨name, setting⟩
  · simp only [hsplit] at hset
    cases hset
  · simp only [hsplit] at hset
    split_ifs at hset with haddress htwice hsni htwice hname
    · rcases hhost : hostAddress (trim setting) with _ | address
      · simp only [hhost] at hset
        cases hset
      · simp only [hhost] at hset
        cases hset
        refine ⟨h.url_clean, h.url_trim, h.host, fun a ha => ?_, h.sni⟩
        cases ha
        exact hostAddress_again hhost
    · cases hset
      refine ⟨h.url_clean, h.url_trim, h.host, h.address, fun n hn => ?_⟩
      cases hn
      exact ⟨hostText_of_validDomain (Bool.and_eq_true .. ▸ hname).2, hname⟩

variable {endpoint : DohEndpoint}

theorem DohEndpoint.normal_of_parse {value : Text} (h : DohEndpoint.parse value = .ok endpoint) :
    endpoint.Normal := by
  unfold DohEndpoint.parse at h
  dsimp only at h
  split_ifs at h with hhost
  have hstart : DohEndpoint.Normal ⟨trim ((split '@' value).headD []), none, none⟩ := by
    refine ⟨fun hmem => ?_, trim_trim _, hhost, nofun, nofun⟩
    obtain ⟨first, rest, hsplit⟩ := exists_cons_of_ne_nil (splitOn_ne_nil '@' value)
    have hsplit : split '@' value = first :: rest := hsplit
    have hfirst : first ∈ split '@' value := hsplit ▸ mem_cons_self
    dsimp only at hmem
    rw [hsplit] at hmem
    exact notMem_of_mem_split hfirst (mem_of_mem_trim hmem)
  -- every piece keeps the endpoint normal
  generalize (⟨trim ((split '@' value).headD []), none, none⟩ : DohEndpoint) = start at hstart h
  generalize (split '@' value).tail = pieces at h
  induction pieces generalizing start with
  | nil => exact Except.ok.inj h ▸ hstart
  | cons piece pieces ih =>
    rw [foldlM_cons] at h
    rcases hset : DohEndpoint.set value start piece with e | next
    · rw [hset] at h
      cases h
    · rw [hset] at h
      exact ih next (hstart.set hset) h

theorem DohEndpoint.set_address (value url : Text) {sni : Option Text} {address : Text}
    (h : HostText address) (hhost : hostAddress address = some address) :
    DohEndpoint.set value ⟨url, none, sni⟩ ("address=".toList ++ address) =
      .ok ⟨url, some address, sni⟩ := by
  have hsplit : splitOnce ['='] ("address=".toList ++ address) = some ("address".toList, address) :=
    splitOnce_char (a := "address".toList) (by decide) address
  rw [DohEndpoint.set, hsplit]
  dsimp only
  rw [if_pos (by decide), if_neg (by decide), h.trim_eq, hhost]

theorem DohEndpoint.set_sni (value url : Text) {address : Option Text} {sni : Text}
    (h : HostText sni) (hname : isServerName sni = true) :
    DohEndpoint.set value ⟨url, address, none⟩ ("sni=".toList ++ sni) =
      .ok ⟨url, address, some sni⟩ := by
  have hsplit : splitOnce ['='] ("sni=".toList ++ sni) = some ("sni".toList, sni) :=
    splitOnce_char (a := "sni".toList) (by decide) sni
  rw [DohEndpoint.set, hsplit]
  dsimp only
  rw [if_neg (by decide), if_pos (by decide), if_neg (by decide), h.trim_eq, if_pos hname]

def DohEndpoint.pieces (endpoint : DohEndpoint) : List Text :=
  (endpoint.address.map fun address => "address=".toList ++ address).toList ++
    (endpoint.sni.map fun sni => "sni=".toList ++ sni).toList

theorem DohEndpoint.settings_eq (endpoint : DohEndpoint) :
    endpoint.settings = endpoint.pieces.flatMap ('@' :: ·) := by
  obtain ⟨url, address, sni⟩ := endpoint
  rcases address with _ | address
  · rcases sni with _ | sni
    · rfl
    · simp [settings, pieces]
  · rcases sni with _ | sni
    · simp [settings, pieces]
    · simp [settings, pieces]

theorem split_joined {url : Text} (hurl : '@' ∉ url) (pieces : List Text)
    (hpieces : ∀ piece ∈ pieces, '@' ∉ piece) :
    split '@' (url ++ pieces.flatMap ('@' :: ·)) = url :: pieces := by
  induction pieces generalizing url with
  | nil =>
    rw [flatMap_nil, append_nil]
    exact split_of_notMem hurl
  | cons piece pieces ih =>
    rw [flatMap_cons, cons_append, split_append_cons hurl,
      ih (hpieces piece mem_cons_self) fun p hp => hpieces p (mem_cons_of_mem piece hp)]

theorem DohEndpoint.Normal.pieces_clean (h : endpoint.Normal) :
    ∀ piece ∈ endpoint.pieces, '@' ∉ piece := by
  intro piece hpiece
  rcases mem_append.mp hpiece with hpiece | hpiece
  · obtain ⟨address, haddress, rfl⟩ := map_eq_some_iff.mp (mem_toList.mp hpiece)
    rw [mem_append, not_or]
    exact ⟨by decide, (h.address address haddress).1.notMem (by decide)⟩
  · obtain ⟨sni, hsni, rfl⟩ := map_eq_some_iff.mp (mem_toList.mp hpiece)
    rw [mem_append, not_or]
    exact ⟨by decide, (h.sni sni hsni).1.notMem (by decide)⟩

/-- **An endpoint is read back.** -/
theorem DohEndpoint.Normal.parse_text (h : endpoint.Normal) :
    DohEndpoint.parse (endpoint.url ++ endpoint.settings) = .ok endpoint := by
  generalize hvalue : endpoint.url ++ endpoint.settings = value
  have hsplit : split '@' value = endpoint.url :: endpoint.pieces := by
    rw [← hvalue, endpoint.settings_eq]
    exact split_joined h.url_clean _ h.pieces_clean
  unfold DohEndpoint.parse
  dsimp only
  rw [hsplit, headD_cons, h.url_trim, if_neg h.host, tail_cons]
  obtain ⟨url, address, sni⟩ := endpoint
  rcases address with _ | address
  · rcases sni with _ | sni
    · rfl
    · exact (congrArg (· >>= pure)
        (DohEndpoint.set_sni value url (h.sni sni rfl).1 (h.sni sni rfl).2))
  · have haddress : DohEndpoint.set value ⟨url, none, none⟩ ("address=".toList ++ address) = _ :=
      DohEndpoint.set_address value url (h.address address rfl).1 (h.address address rfl).2
    rcases sni with _ | sni
    · exact congrArg (· >>= pure) haddress
    · show (DohEndpoint.set value ⟨url, none, none⟩ ("address=".toList ++ address) >>= fun next =>
        DohEndpoint.set value next ("sni=".toList ++ sni) >>= pure) = _
      rw [haddress]
      exact congrArg (· >>= pure)
        (DohEndpoint.set_sni value url (h.sni sni rfl).1 (h.sni sni rfl).2)

theorem DohEndpoint.Normal.exists_rest (h : endpoint.Normal) :
    ∃ rest, stripScheme endpoint.url "https://".toList = some rest := by
  rcases hstrip : stripScheme endpoint.url "https://".toList with _ | rest
  · have hhost := h.host
    rw [urlHost, hstrip] at hhost
    exact absurd rfl hhost
  · exact ⟨rest, rfl⟩

theorem DohEndpoint.Normal.trim_text (h : endpoint.Normal) :
    trim (endpoint.url ++ endpoint.settings) = endpoint.url ++ endpoint.settings := by
  have hne : endpoint.url ≠ [] := by
    intro hnil
    obtain ⟨rest, hrest⟩ := h.exists_rest
    rw [hnil] at hrest
    cases hrest
  refine trim_eq_self (fun c hc => ?_) ?_
  · rw [head?_append_of_ne_nil _ hne] at hc
    exact head?_of_trim h.url_trim c hc
  · obtain ⟨url, address, sni⟩ := endpoint
    rcases sni with _ | sni
    · rcases address with _ | address
      · rw [settings]
        simpa using getLast?_of_trim h.url_trim
      · have hlast := (h.address address rfl).1.getLast? (url ++ "@address=".toList)
        simpa [settings] using hlast
    · have hlast :=
        (h.sni sni rfl).1.getLast? (url ++ (address.map fun a => "@address=".toList ++ a).getD [] ++
          "@sni=".toList)
      simpa [settings] using hlast

/-! ### Resolvers over UDP and TCP -/

theorem isHostChar_or_mark (address : ScopedAddr) :
    ∀ c ∈ address.text, isHostChar c = true ∨ c = '[' ∨ c = ']' ∨ c = '%' := by
  have haddr : ∀ (ip : IpAddr), ∀ c ∈ ip.text, isHostChar c = true := fun ip => (hostText_ip ip).2
  have hdigits : ∀ (n : ℕ), ∀ c ∈ decimal n, isHostChar c = true := by
    intro n c hc
    obtain ⟨d, hd, rfl⟩ := mem_toDigits (by decide) hc
    have hall : ∀ d < 10, isHostChar (Nat.digitChar d) = true := by decide
    exact hall d hd
  intro c hc
  rcases address with ⟨ip, port⟩ | ⟨ip, scope, port⟩
  · rw [ScopedAddr.text_v4, mem_append, mem_cons] at hc
    rcases hc with hc | rfl | hc
    · exact .inl (haddr (.v4 ip) c hc)
    · exact .inl (by decide)
    · exact .inl (hdigits _ c hc)
  · rw [ScopedAddr.text_v6, mem_cons, mem_append, mem_append, mem_cons, mem_cons] at hc
    rcases hc with rfl | hc | hc | rfl | rfl | hc
    · exact .inr (.inl rfl)
    · exact .inl (haddr (.v6 ip) c hc)
    · split_ifs at hc with hscope
      · cases hc
      · rcases mem_cons.mp hc with rfl | hc
        · exact .inr (.inr (.inr rfl))
        · exact .inl (hdigits _ c hc)
    · exact .inr (.inr (.inl rfl))
    · exact .inl (by decide)
    · exact .inl (hdigits _ c hc)

theorem forall_addressChar {p : Char → Prop} (h : ∀ c, isHostChar c = true → p c)
    (hmarks : p '[' ∧ p ']' ∧ p '%') (address : ScopedAddr) : ∀ c ∈ address.text, p c := by
  intro c hc
  rcases isHostChar_or_mark address c hc with hc | rfl | rfl | rfl
  · exact h c hc
  · exact hmarks.1
  · exact hmarks.2.1
  · exact hmarks.2.2

theorem socketAddress_text (address : ScopedAddr) :
    socketAddress (trimEndMatches '/' address.text) 53 = some address := by
  have hslash : ∀ c ∈ address.text, c ≠ '/' := by
    refine forall_addressChar (fun c hc heq => ?_) (by decide) address
    rw [heq] at hc
    cases hc
  have htrim : trimEndMatches '/' address.text = address.text := by
    rw [trimEndMatches, rdropWhile_eq_self_iff]
    intro hne
    simpa using hslash _ (getLast_mem hne)
  rw [htrim, socketAddress, parseScoped_text]

theorem stripScheme_none {c d : Char} (h : c.toLower ≠ d.toLower) (value scheme : Text) :
    stripScheme (c :: value) (d :: scheme) = none := by
  rw [eq_none_iff_forall_ne_some]
  intro rest hrest
  obtain ⟨head, hvalue, hcase⟩ := stripScheme_eq_some.mp hrest
  rcases head with _ | ⟨e, head⟩
  · cases hcase
  · obtain ⟨rfl, -⟩ := cons.inj hvalue
    exact h (cons.inj hcase).1

theorem parse_plain (scheme : Text) (hscheme : scheme.all (fun c => !isWhitespace c) = true)
    (address : ScopedAddr) :
    trim (scheme ++ address.text) = scheme ++ address.text ∧ ∀ make : ScopedAddr → EchDns,
      plainResolver (scheme ++ address.text) address.text make = .ok (make address) := by
  refine ⟨trim_of_all fun c hc => ?_, fun make => by rw [plainResolver, socketAddress_text]⟩
  rcases mem_append.mp hc with hc | hc
  · simpa using all_eq_true.mp hscheme c hc
  · exact forall_addressChar (fun c => isWhitespace_of_isHostChar) ⟨rfl, rfl, rfl⟩ address c hc

theorem plainResolver_ne_https {value rest : Text} {make : ScopedAddr → EchDns}
    (hmake : ∀ address, make address ≠ .https endpoint) :
    plainResolver value rest make ≠ .ok (.https endpoint) := by
  unfold plainResolver
  rcases socketAddress (trimEndMatches '/' rest) 53 with _ | address
  · exact nofun
  · exact fun h => hmake address (Except.ok.inj h)

theorem normal_of_https {s : Text} (h : EchDns.parse s = .ok (.https endpoint)) :
    endpoint.Normal := by
  unfold EchDns.parse at h
  dsimp only at h
  split_ifs at h with hscheme
  · rcases hparse : DohEndpoint.parse (trim s) with e | found
    · rw [hparse] at h
      cases h
    · rw [hparse] at h
      obtain rfl := EchDns.https.inj (Except.ok.inj h)
      exact DohEndpoint.normal_of_parse hparse
  · split at h
    · exact absurd h (plainResolver_ne_https nofun)
    · split at h
      · exact absurd h (plainResolver_ne_https nofun)
      · cases h

/-- **A resolver is read back from what is written of it.** -/
theorem resolver_read_back {s : Text} {x : EchDns} (h : EchDns.parse s = .ok x) :
    EchDns.parse x.text = .ok x := by
  unfold EchDns.parse
  dsimp only
  rcases x with address | address | endpoint
  · obtain ⟨htrim, hparse⟩ := parse_plain "udp://".toList rfl address
    have hhttps : stripScheme ("udp://".toList ++ address.text) "https://".toList = none :=
      stripScheme_none (by decide) _ _
    rw [EchDns.text, htrim, hhttps, if_neg (by decide), stripScheme_append]
    exact hparse .udp
  · obtain ⟨htrim, hparse⟩ := parse_plain "tcp://".toList rfl address
    have hhttps : stripScheme ("tcp://".toList ++ address.text) "https://".toList = none :=
      stripScheme_none (by decide) _ _
    have hudp : stripScheme ("tcp://".toList ++ address.text) "udp://".toList = none :=
      stripScheme_none (by decide) _ _
    rw [EchDns.text, htrim, hhttps, if_neg (by decide), hudp, stripScheme_append]
    exact hparse .tcp
  · -- only this case needs that the endpoint was read
    have hnormal := normal_of_https h
    obtain ⟨rest, hrest⟩ := hnormal.exists_rest
    rw [EchDns.text, hnormal.trim_text, stripScheme_more _ hrest, isSome_some, if_pos rfl,
      hnormal.parse_text]
    rfl

/-- A URL with both settings, in the other order and with an address in brackets. -/
theorem doh_read_back :
    EchDns.parse (EchDns.text (.https ⟨"HTTPS://doh.example/q".toList, some "::1".toList,
    some "a.example".toList⟩)) =
      .ok (.https ⟨"HTTPS://doh.example/q".toList, some "::1".toList, some "a.example".toList⟩) :=
  resolver_read_back (s := " HTTPS://doh.example/q @SNI=a.example@address=[0:0::1] ".toList)
    (by decide)

end Koku.Dns
