import Koku.Rust.NetPrint
import Koku.Rust.Pieces
import Koku.Upstream.Setting

/-! # The upstream proxy as a URL

`psiphonUrl` writes the proxy into the one address that psiphon takes, credentials included. What
can be written there is what can be read (`psiphonUrl_read_back`): the marks of a URL are escaped in
the credentials, the host is set in brackets if it has colons. -/

namespace Koku.Upstream

open Rust Rust.Str Rust.Net Rust.Utf8 List Option

/-! ### Escapes -/

def isUnreserved (b : UInt8) : Bool :=
  (65 ≤ b && b ≤ 90) || (97 ≤ b && b ≤ 122) || (48 ≤ b && b ≤ 57) || b == 45 || b == 46 ||
    b == 95 || b == 126

/-- A digit of `{:02X}`. -/
def upperHex (d : ℕ) : Char := (Nat.digitChar d).toUpper

/-- A byte in percent encoding. -/
def encodeByte (b : UInt8) : Text :=
  if isUnreserved b then [Char.ofNat b.toNat]
    else ['%', upperHex (b.toNat / 16), upperHex (b.toNat % 16)]

/-- `percent_encode`. -/
def percentEncode (value : Text) : Text := (asBytes value).flatMap encodeByte

theorem toNat_of_isUnreserved {b : UInt8} (h : isUnreserved b = true) :
    b.toNat < 128 ∧ b.toNat ≠ 0x25 ∧ b.toNat ≠ 0x3a ∧ b.toNat ≠ 0x40 := by
  simp only [isUnreserved, Bool.or_eq_true, Bool.and_eq_true, decide_eq_true_eq, beq_iff_eq,
    UInt8.le_iff_toNat_le, ← UInt8.toNat_inj, UInt8.toNat_ofNat] at h
  omega

theorem upperHex_spec : ∀ d < 16, (upperHex d).toNat < 128 ∧ digitValue 16 (upperHex d) = some d ∧
    upperHex d ≠ '+' ∧ upperHex d ≠ ':' ∧ upperHex d ≠ '@' := by decide

theorem nibbles (b : UInt8) : b.toNat / 16 < 16 ∧ b.toNat % 16 < 16 := by
  have := b.toNat_lt
  omega

/-- The bytes of an escaped text are those of its characters, and neither mark of the credentials is
among them. -/
theorem of_mem_encodeByte {b : UInt8} {c : Char} (h : c ∈ encodeByte b) :
    c.toNat < 128 ∧ c ≠ ':' ∧ c ≠ '@' := by
  unfold encodeByte at h
  split_ifs at h with hplain
  · obtain ⟨hascii, -, hcolon, hat⟩ := toNat_of_isUnreserved hplain
    obtain rfl := mem_singleton.mp h
    have htoNat : (Char.ofNat b.toNat).toNat = b.toNat := by
      rw [Char.toNat_ofNat, if_pos (Or.inl (by omega))]
    refine ⟨by omega, fun heq => hcolon ?_, fun heq => hat ?_⟩
    · rw [← htoNat, heq]
      rfl
    · rw [← htoNat, heq]
      rfl
  · obtain ⟨hhi, hlo⟩ := nibbles b
    simp only [mem_cons, not_mem_nil, or_false] at h
    rcases h with rfl | rfl | rfl
    · decide
    · obtain ⟨hascii, -, -, hcolon, hat⟩ := upperHex_spec _ hhi
      exact ⟨hascii, hcolon, hat⟩
    · obtain ⟨hascii, -, -, hcolon, hat⟩ := upperHex_spec _ hlo
      exact ⟨hascii, hcolon, hat⟩

theorem of_mem_percentEncode {t : Text} {c : Char} (h : c ∈ percentEncode t) :
    c.toNat < 128 ∧ c ≠ ':' ∧ c ≠ '@' := by
  obtain ⟨b, -, hc⟩ := mem_flatMap.mp h
  exact of_mem_encodeByte hc

theorem hexByte_upperHex {h l : ℕ} (hh : h < 16) (hl : l < 16) :
    hexByte (UInt8.ofNat (upperHex h).toNat) (UInt8.ofNat (upperHex l).toNat) =
      some (UInt8.ofNat (16 * h + l)) := by
  obtain ⟨hascii, hvalue, hplus, -, -⟩ := upperHex_spec h hh
  obtain ⟨lascii, lvalue, -, -, -⟩ := upperHex_spec l hl
  have hbytes : [UInt8.ofNat (upperHex h).toNat, UInt8.ofNat (upperHex l).toNat] =
      asBytes [upperHex h, upperHex l] := by
    rw [asBytes_ascii (by simp [hascii, lascii])]
    rfl
  have hhead : [upperHex h, upperHex l].head? ≠ some '+' := fun heq => hplus (some.inj heq)
  unfold hexByte
  rw [hbytes, fromUtf8_asBytes, bind_eq_bind, bind_some]
  dsimp only
  rw [if_neg hhead]
  simp [hvalue, lvalue]

theorem percentDecodeBytes_cons {b : UInt8} (h : b ≠ 0x25) (rest : Bytes) :
    percentDecodeBytes (b :: rest) = b :: percentDecodeBytes rest := by
  rw [percentDecodeBytes]
  rintro hi lo more rfl
  exact absurd rfl h

/-- **One byte is read back.** -/
theorem percentDecodeBytes_encodeByte (b : UInt8) (rest : Bytes) :
    percentDecodeBytes (asBytes (encodeByte b) ++ rest) = b :: percentDecodeBytes rest := by
  rw [asBytes_ascii fun c hc => (of_mem_encodeByte hc).1]
  unfold encodeByte
  split_ifs with hplain
  · obtain ⟨hascii, hpercent, -, -⟩ := toNat_of_isUnreserved hplain
    have hbyte : UInt8.ofNat (Char.ofNat b.toNat).toNat = b := by
      rw [Char.toNat_ofNat, if_pos (Or.inl (by omega)), UInt8.ofNat_toNat]
    rw [map_singleton, hbyte, singleton_append, percentDecodeBytes_cons]
    exact fun heq => hpercent (congrArg UInt8.toNat heq)
  · obtain ⟨hhi, hlo⟩ := nibbles b
    have hhex := hexByte_upperHex hhi hlo
    rw [Nat.div_add_mod, UInt8.ofNat_toNat] at hhex
    have hread : percentDecodeBytes (0x25 :: UInt8.ofNat (upperHex (b.toNat / 16)).toNat ::
        UInt8.ofNat (upperHex (b.toNat % 16)).toNat :: rest) = b :: percentDecodeBytes rest := by
      rw [percentDecodeBytes, hhex]
    exact hread

theorem percentDecodeBytes_flatMap (bs : Bytes) :
    percentDecodeBytes (asBytes (bs.flatMap encodeByte)) = bs := by
  induction bs with
  | nil => rfl
  | cons b bs ih =>
    have happend :
        asBytes ((b :: bs).flatMap encodeByte) = asBytes (encodeByte b) ++
        asBytes (bs.flatMap encodeByte) := by
      rw [flatMap_cons]
      exact flatMap_append
    rw [happend, percentDecodeBytes_encodeByte, ih]

/-- **Every text is read back from its escaped form.** -/
theorem percentDecode_percentEncode (t : Text) : percentDecode (percentEncode t) = t := by
  rw [percentDecode, percentEncode, percentDecodeBytes_flatMap, fromUtf8Lossy_asBytes]

/-! ### The URL -/

def hostText (proxy : Upstream) : Text :=
  if ':' ∈ proxy.host then '[' :: (proxy.host ++ [']']) else proxy.host

def Kind.scheme : Kind → Text
  | .socks5 => "socks5".toList
  | .http => "http".toList

def credentialText (proxy : Upstream) : Text :=
  match proxy.user, proxy.password with
  | some user, some password => percentEncode user ++ ':' :: (percentEncode password ++ ['@'])
  | some user, none => percentEncode user ++ ['@']
  | none, _ => []

/-- `psiphon_url`. -/
def psiphonUrl (proxy : Upstream) : Text :=
  proxy.kind.scheme ++
    ("://".toList ++ (proxy.credentialText ++ (proxy.hostText ++ ':' :: decimal proxy.port.toNat)))

/-! ### What was read -/

/-- A proxy that was read: its host is not empty and has no sign that ends credentials, its port is
not zero, and a password has a user. -/
structure Readable (proxy : Upstream) : Prop where
  host : proxy.host ≠ []
  sign : '@' ∉ proxy.host
  port : proxy.port ≠ 0
  user : proxy.user = none → proxy.password = none

theorem of_parsePort {t : Text} {port : UInt16} (h : parsePort t = some port) : port ≠ 0 := by
  obtain ⟨n, hn, rfl⟩ := map_eq_some_iff.mp h
  obtain ⟨hread, hzero⟩ := filter_eq_some_iff.mp hn
  have hle : n ≤ 65535 := by
    obtain ⟨-, hle⟩ := filter_eq_some_iff.mp hread
    simpa using hle
  intro heq
  have hn : n % 2 ^ 16 = 0 := congrArg UInt16.toNat heq
  rw [Nat.mod_eq_of_lt (by omega)] at hn
  subst hn
  cases hzero

theorem of_splitEndpoint {endpoint host : Text} {port : UInt16}
    (h : splitEndpoint endpoint = .ok (host, port)) : host ≠ [] ∧ port ≠ 0 ∧ host ⊆ endpoint := by
  unfold splitEndpoint at h
  dsimp only at h
  split at h
  · rename_i host' port' hparts
    split_ifs at h with hempty
    cases h
    obtain ⟨⟨a, b⟩, hsplit, hport⟩ := bind_eq_some_iff.mp hparts
    obtain ⟨p, hp, heq⟩ := map_eq_some_iff.mp hport
    obtain ⟨rfl, rfl⟩ := Prod.mk.injEq .. ▸ heq
    refine ⟨hempty, of_parsePort hp, ?_⟩
    split at hsplit
    · rename_i rest hrest
      obtain ⟨⟨a', tail⟩, hclose, hcolon⟩ := bind_eq_some_iff.mp hsplit
      obtain ⟨b', -, heq⟩ := map_eq_some_iff.mp hcolon
      obtain ⟨rfl, rfl⟩ := Prod.mk.injEq .. ▸ heq
      rw [← isPrefixOf?_eq_some_iff_append_eq.mp hrest, eq_of_splitOnce hclose]
      intro c hc
      simp [hc]
    · rw [eq_of_rsplitOnce hsplit]
      exact subset_append_left _ _
  · cases h

/-- `parse` behind the scheme: the credentials, if there are some, and the endpoint. -/
def readParts (scheme : Text) (kind : Kind) (credentials : Option Text) (endpoint : Text) :
    Except AetherError Upstream :=
  if scheme = "https".toList ∧ credentials.isSome then
    .error httpsPassword
  else
    match splitEndpoint (trimEndMatches '/' endpoint) with
    | .error e => .error e
    | .ok (host, port) =>
      .ok ⟨kind, host, port, (credentialPair credentials).1, (credentialPair credentials).2⟩

def readRest (scheme rest : Text) : Except AetherError Upstream :=
  match Kind.ofScheme scheme with
  | none => .error (notAKind scheme)
  | some kind =>
    match rsplitOnce '@' rest with
    | some (credentials, endpoint) => readParts scheme kind (some credentials) endpoint
    | none => readParts scheme kind none rest

def schemeAndRest (u : UnicodeData) (raw : Text) : Text × Text :=
  match splitOnce "://".toList raw with
  | some (scheme, rest) => (toLowercase u scheme, rest)
  | none => ("socks5".toList, raw)

theorem parse_eq (u : UnicodeData) (raw : Text) :
    parse u raw = readRest (schemeAndRest u (trim raw)).1 (schemeAndRest u (trim raw)).2 := by
  unfold parse readRest schemeAndRest
  dsimp only
  rcases splitOnce "://".toList (trim raw) with _ | ⟨scheme, rest⟩
  · rcases rsplitOnce '@' (trim raw) with _ | ⟨credentials, endpoint⟩
    · rfl
    · rfl
  · rcases rsplitOnce '@' rest with _ | ⟨credentials, endpoint⟩
    · rfl
    · rfl

variable {proxy : Upstream}

theorem readable_of_readParts {scheme endpoint : Text} {kind : Kind} {credentials : Option Text}
    (h : readParts scheme kind credentials endpoint = .ok proxy) (hsign : '@' ∉ endpoint) :
    proxy.Readable := by
  unfold readParts at h
  split_ifs at h
  split at h
  · cases h
  · rename_i host port hsplit
    cases h
    obtain ⟨hhost, hport, hsub⟩ := of_splitEndpoint hsplit
    refine ⟨hhost, fun hmem => hsign ?_, hport, ?_⟩
    · refine IsPrefix.subset ?_ (hsub hmem)
      exact rdropWhile_prefix _ endpoint
    · intro hnone
      unfold credentialPair at hnone ⊢
      rcases credentials with _ | pair
      · rfl
      · dsimp only at hnone ⊢
        rcases hpair : splitOnce [':'] pair with _ | ⟨user, password⟩
        · rfl
        · rw [hpair] at hnone
          cases hnone

/-- **What was read can be written.** -/
theorem readable_of_parse {u : UnicodeData} {raw : Text} (h : parse u raw = .ok proxy) :
    proxy.Readable := by
  rw [parse_eq, readRest] at h
  split at h
  · cases h
  · split at h
    · rename_i hsplit
      exact readable_of_readParts h (notMem_of_rsplitOnce hsplit)
    · rename_i hnone
      exact readable_of_readParts h (rsplitOnce_eq_none_iff.mp hnone)

/-! ### The way back -/

theorem splitEndpoint_text (hr : proxy.Readable) (hopen : '[' ∉ proxy.host)
    (hclose : ']' ∉ proxy.host) :
    splitEndpoint (proxy.hostText ++ ':' :: decimal proxy.port.toNat) =
      .ok (proxy.host, proxy.port) := by
  have hport : parsePort (decimal proxy.port.toNat) = some proxy.port := by
    have hzero : proxy.port.toNat ≠ 0 := fun heq => hr.port (UInt16.toNat_inj.mp heq)
    rw [parsePort, parseUnsigned_decimal (Nat.le_of_lt_succ proxy.port.toNat_lt), filter_some,
      if_pos (by simpa using hzero), map_some, UInt16.ofNat_toNat]
  have hcolon : ':' ∉ decimal proxy.port.toNat :=
    fun hmem => absurd (isDigit_of_mem_decimal hmem) (by decide)
  unfold splitEndpoint
  dsimp only
  unfold hostText
  split_ifs with hhost
  · have hstrip :
        stripPrefix ['['] ('[' :: (proxy.host ++ [']']) ++ ':' :: decimal proxy.port.toNat) =
        some (proxy.host ++ ']' :: ':' :: decimal proxy.port.toNat) := by
          simp [stripPrefix, isPrefixOf?]
    have htail :
        stripPrefix [':'] (':' :: decimal proxy.port.toNat) = some (decimal proxy.port.toNat) := by
      simp [stripPrefix, isPrefixOf?]
    rw [hstrip]
    dsimp only
    rw [splitOnce_char hclose, bind_some]
    dsimp only
    rw [htail, map_some, bind_some]
    dsimp only
    rw [hport, map_some]
    exact if_neg hr.host
  · have hstrip : stripPrefix ['['] (proxy.host ++ ':' :: decimal proxy.port.toNat) = none := by
      obtain ⟨c, host, hc⟩ := exists_cons_of_ne_nil hr.host
      have hne : '[' ≠ c := fun heq => hopen (by rw [hc, heq]; exact mem_cons_self)
      rw [hc]
      simp [stripPrefix, isPrefixOf?, hne]
    rw [hstrip]
    dsimp only
    rw [rsplitOnce_append hcolon, bind_some]
    dsimp only
    rw [hport, map_some]
    exact if_neg hr.host

theorem credentials_text (hr : proxy.Readable) {endpoint : Text} (hsign : '@' ∉ endpoint) :
    ∃ credentials, rsplitOnce '@' (proxy.credentialText ++ endpoint) =
        credentials.map (fun pair => (pair, endpoint)) ∧
      credentialPair credentials = (proxy.user, proxy.password) ∧
        (credentials = none → proxy.credentialText = []) := by
  have hcolon : ∀ t, ':' ∉ percentEncode t := fun t hmem => (of_mem_percentEncode hmem).2.1 rfl
  unfold credentialText
  rcases huser : proxy.user with _ | user
  · refine ⟨none, ?_, ?_, fun _ => rfl⟩
    · exact rsplitOnce_of_notMem hsign
    · rw [hr.user huser]
      rfl
  · rcases hpassword : proxy.password with _ | password
    · refine ⟨some (percentEncode user), ?_, ?_, nofun⟩
      · rw [append_assoc]
        exact rsplitOnce_append hsign _
      · unfold credentialPair
        dsimp only
        rw [splitOnce_none (hcolon user)]
        dsimp only
        rw [percentDecode_percentEncode]
    · refine ⟨some (percentEncode user ++ ':' :: percentEncode password), ?_, ?_, nofun⟩
      · have heq : percentEncode user ++ ':' :: (percentEncode password ++ ['@']) ++ endpoint =
            percentEncode user ++ ':' :: percentEncode password ++ '@' :: endpoint := by simp
        dsimp only
        rw [heq]
        exact rsplitOnce_append hsign _
      · unfold credentialPair
        dsimp only
        rw [splitOnce_char (hcolon user)]
        dsimp only
        rw [percentDecode_percentEncode, percentDecode_percentEncode]

theorem isDigit_of_getLast? {t : Text} {n : ℕ} {c : Char} (h : c ∈ (t ++ decimal n).getLast?) :
    c.isDigit = true := by
  have hne : decimal n ≠ [] := Nat.toDigits_ne_nil
  rw [getLast?_append_of_ne_nil _ hne] at h
  exact isDigit_of_mem_decimal (mem_of_getLast? h)

theorem trim_psiphonUrl (proxy : Upstream) : trim proxy.psiphonUrl = proxy.psiphonUrl := by
  refine trim_eq_self ?_ ?_
  · intro c hc
    unfold psiphonUrl at hc
    rcases hkind : proxy.kind with _ | _
    · rw [hkind] at hc
      cases hc
      decide
    · rw [hkind] at hc
      cases hc
      decide
  · intro c hc
    have hurl : proxy.psiphonUrl = proxy.kind.scheme ++
        ("://".toList ++ (proxy.credentialText ++ (proxy.hostText ++ [':'])))
        ++ decimal proxy.port.toNat := by simp [psiphonUrl]
    rw [hurl] at hc
    exact isWhitespace_of_isDigit (isDigit_of_getLast? hc)

theorem schemeAndRest_scheme (u : UnicodeData) (kind : Kind) (rest : Text) :
    schemeAndRest u (kind.scheme ++ ("://".toList ++ rest)) = (kind.scheme, rest) := by
  have hnone : ¬"://".toList <:+: kind.scheme ++ "://".toList.dropLast := by
    cases kind with
    | socks5 => decide
    | http => decide
  have hlower : toLowercase u kind.scheme = kind.scheme := by
    cases kind with
    | socks5 | http => exact toLowercaseFrom_ascii u (by simp [Kind.scheme])
  rw [schemeAndRest, splitOnce_first (by decide) hnone]
  exact congrArg (fun scheme => (scheme, rest)) hlower

theorem endpoint_text (hr : proxy.Readable) :
    '@' ∉ proxy.hostText ++ ':' :: decimal proxy.port.toNat ∧
      trimEndMatches '/' (proxy.hostText ++ ':' :: decimal proxy.port.toNat) =
        proxy.hostText ++ ':' :: decimal proxy.port.toNat := by
  constructor
  · have hdecimal : '@' ∉ decimal proxy.port.toNat :=
      fun hmem => absurd (isDigit_of_mem_decimal hmem) (by decide)
    have hsign := hr.sign
    unfold hostText
    split_ifs
    · simp [hsign, hdecimal]
    · simp [hsign, hdecimal]
  · rw [trimEndMatches, rdropWhile_eq_self_iff]
    intro hne hslash
    have hlast := getLast?_eq_some_getLast hne
    have heq : proxy.hostText ++ ':' :: decimal proxy.port.toNat = proxy.hostText ++ [':'] ++
        decimal proxy.port.toNat := by
      simp
    have hdigit : ((proxy.hostText ++ ':' :: decimal proxy.port.toNat).getLast hne).isDigit =
        true := by
      refine isDigit_of_getLast? (t := proxy.hostText ++ [':']) (n := proxy.port.toNat) ?_
      rw [← heq]
      exact hlast
    rw [beq_iff_eq.mp hslash] at hdigit
    cases hdigit

/-- **The URL names the proxy**: what `psiphon_url` writes of a proxy that was read is read as that
proxy. -/
theorem psiphonUrl_read_back {u : UnicodeData} {raw : Text} (h : parse u raw = .ok proxy)
    (hopen : '[' ∉ proxy.host) (hclose : ']' ∉ proxy.host) :
    parse u proxy.psiphonUrl = .ok proxy := by
  have hr := readable_of_parse h
  obtain ⟨hsign, hslash⟩ := endpoint_text hr
  obtain ⟨credentials, hsplit, hpair, hnone⟩ := credentials_text hr hsign
  have hkind : Kind.ofScheme proxy.kind.scheme = some proxy.kind := by
    rcases proxy.kind with _ | _
    · rfl
    · rfl
  have hplain : ¬(proxy.kind.scheme = "https".toList ∧ credentials.isSome) := by
    rintro ⟨hhttps, -⟩
    rcases hk : proxy.kind with _ | _
    · rw [hk] at hhttps
      exact absurd hhttps (by decide)
    · rw [hk] at hhttps
      exact absurd hhttps (by decide)
  have hread :
      readParts proxy.kind.scheme proxy.kind credentials
      (proxy.hostText ++ ':' :: decimal proxy.port.toNat) = .ok proxy := by
    rw [readParts, if_neg hplain, hslash, splitEndpoint_text hr hopen hclose, hpair]
  rw [parse_eq, trim_psiphonUrl, psiphonUrl, schemeAndRest_scheme, readRest, hkind]
  dsimp only
  rw [hsplit]
  rcases credentials with _ | pair
  · rw [hnone rfl]
    exact hread
  · exact hread

/-- A user and a password with the marks of a URL in them, at an IPv6 address. -/
theorem marked_credentials_read_back :
    let proxy : Upstream := ⟨.socks5, "::1".toList, 1080, some "a@b:c".toList, some "d/%e".toList⟩
    parse asciiData " SOCKS5h://a%40b%3ac:d/%25e@[::1]:1080/ ".toList = .ok proxy ∧
      proxy.psiphonUrl = "socks5://a%40b%3Ac:d%2F%25e@[::1]:1080".toList ∧
      parse asciiData proxy.psiphonUrl = .ok proxy := by
  have hparse : parse asciiData " SOCKS5h://a%40b%3ac:d/%25e@[::1]:1080/ ".toList =
      .ok ⟨.socks5, "::1".toList, 1080, some "a@b:c".toList, some "d/%e".toList⟩ := by decide
  exact ⟨hparse, by decide, psiphonUrl_read_back hparse (by decide) (by decide)⟩

end Koku.Upstream
