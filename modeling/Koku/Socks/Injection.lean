import Koku.Rust.NetPrint
import Koku.Rust.Pieces
import Koku.Socks.Open

/-! # The request to the gateway

`build_proxy_connect` writes the target into a request line and a `Host` line. A name that a SOCKS
client gives is any text of at most 255 bytes, also one with a line break (`BreaksLine`); a target
of the HTTP front end and an address hold none (`gateway_request_intact_iff`). -/

namespace Koku.Socks

open Rust Rust.Str Rust.Utf8 Rust.Net

/-! ### Lines -/

/-- A receiver ends a line at a carriage return with a line feed, or at every line feed and then
drops a carriage return in front of it. -/
inductive LineReading
  | strict
  | lenient
  deriving DecidableEq

namespace LineReading

/-- What ends a line. -/
def mark : LineReading → Text
  | strict => ['\r', '\n']
  | lenient => ['\n']

def take : LineReading → Text → Text
  | strict => id
  | lenient => dropCr

/-- The lines of a text. -/
def lines (reading : LineReading) (t : Text) : List Text := (pieces reading.mark t).map reading.take

variable {reading : LineReading}

theorem mark_ne_nil : reading.mark ≠ [] := by
  cases reading with
  | strict | lenient => exact List.cons_ne_nil _ _

theorem mem_mark {c : Char} (h : c ∈ reading.mark) : c = '\r' ∨ c = '\n' := by
  cases reading with
  | strict => simpa [mark] using h
  | lenient => exact Or.inr (by simpa [mark] using h)

theorem lines_nil : reading.lines [] = [[]] := by
  cases reading with
  | strict => rfl
  | lenient => rfl

theorem not_infix_concat {l : Text} (h : ¬reading.mark <:+: l) :
    ¬reading.mark <:+: l ++ ['\r'] := by
  rw [List.infix_concat_iff, not_or]
  refine ⟨fun hsuffix => ?_, h⟩
  rcases List.suffix_concat_iff.mp hsuffix with hnil | ⟨t, hmark, -⟩
  · exact mark_ne_nil hnil
  · have hlast := congrArg List.getLast? hmark
    rw [List.getLast?_concat] at hlast
    cases reading with
    | strict | lenient => cases hlast

theorem lines_append {l : Text} (h : ¬reading.mark <:+: l) (rest : Text) :
    reading.lines (l ++ ['\r', '\n'] ++ rest) = l :: reading.lines rest := by
  have hcr := not_infix_concat h
  cases reading with
  | strict =>
    have hsplit : splitOnce strict.mark (l ++ ['\r', '\n'] ++ rest) = some (l, rest) := by
      rw [List.append_assoc]
      exact splitOnce_first mark_ne_nil hcr rest
    rw [lines, pieces_of_some mark_ne_nil hsplit]
    rfl
  | lenient =>
    have hsplit :
        splitOnce lenient.mark (l ++ ['\r', '\n'] ++ rest) = some (l ++ ['\r'], rest) := by
      have heq : l ++ ['\r', '\n'] ++ rest = l ++ ['\r'] ++ (lenient.mark ++ rest) := by simp [mark]
      rw [heq]
      exact splitOnce_first mark_ne_nil (by rwa [mark, List.dropLast_singleton, List.append_nil])
        rest
    have htake : lenient.take (l ++ ['\r']) = l := by
      rw [take, dropCr, List.getLast?_concat, if_pos rfl, List.dropLast_concat]
    rw [lines, pieces_of_some mark_ne_nil hsplit, List.map_cons, htake]
    rfl

theorem not_infix_of_lines {t l : Text} {more : List Text} (h : reading.lines t = l :: more) :
    ¬reading.mark <:+: l := by
  have htake : ∀ a, reading.take a <+: a := by
    intro a
    cases reading with
    | strict => exact List.prefix_refl a
    | lenient =>
      rw [take, dropCr]
      split_ifs
      · exact List.dropLast_prefix a
      · exact List.prefix_refl a
  rcases hsplit : splitOnce reading.mark t with _ | ⟨a, b⟩
  · rw [lines, pieces_of_none hsplit, List.map_singleton] at h
    obtain ⟨rfl, -⟩ := List.cons.inj h
    exact fun hpart => splitOnce_eq_none_iff.mp hsplit (hpart.trans (htake t).isInfix)
  · rw [lines, pieces_of_some mark_ne_nil hsplit, List.map_cons] at h
    obtain ⟨rfl, -⟩ := List.cons.inj h
    exact fun hpart => not_infix_of_splitOnce mark_ne_nil hsplit (hpart.trans (htake a).isInfix)

end LineReading

/-! ### The request -/

def gatewayAuthority (target : Text) (port : UInt16) : Text :=
  if ':' ∈ target ∧ target.head? ≠ some '[' then
    "[".toList ++ target ++ "]:".toList ++ decimal port.toNat
  else
    target ++ ":".toList ++ decimal port.toNat

/-- The gateway receives the request line, the two header lines and the empty line, and nothing
behind it. -/
def RequestIntact (reading : LineReading) (target : Text) (port : UInt16) : Prop :=
  reading.lines (fromUtf8Lossy (buildProxyConnect target port)) =
    ["CONNECT ".toList ++ gatewayAuthority target port ++ " HTTP/1.1".toList,
      "Host: ".toList ++ gatewayAuthority target port, "User-Agent: WARP for Android".toList,
      [], []]

instance (reading : LineReading) (target : Text) (port : UInt16) :
    Decidable (RequestIntact reading target port) :=
  inferInstanceAs (Decidable (_ = _))

section Request

variable {reading : LineReading} {target : Text} {port : UInt16}

theorem notMem_mark_of_all {t : Text} (h : t.all (fun c => c != '\r' && c != '\n') = true) :
    ∀ c ∈ t, c ∉ reading.mark := by
  intro c hc hmark
  have hplain := List.all_eq_true.mp h c hc
  rcases LineReading.mem_mark hmark with rfl | rfl
  · cases hplain
  · cases hplain

theorem notMem_mark_decimal (n : ℕ) : ∀ c ∈ decimal n, c ∉ reading.mark := by
  refine notMem_mark_of_all (List.all_eq_true.mpr fun c hc => ?_)
  obtain ⟨d, hd, rfl⟩ := mem_toDigits (by decide) hc
  have hdigit : ∀ d < 10, (Nat.digitChar d != '\r' && Nat.digitChar d != '\n') = true := by decide
  exact hdigit d hd

theorem infix_gatewayAuthority {pre post : Text} (hpre : ∀ c ∈ pre, c ∉ reading.mark)
    (hpost : ∀ c ∈ post, c ∉ reading.mark) :
    reading.mark <:+: pre ++ gatewayAuthority target port ++ post ↔ reading.mark <:+: target := by
  have hplain : ∀ (x z : Text), (∀ c ∈ x, c ∉ reading.mark) → (∀ c ∈ z, c ∉ reading.mark) →
      (reading.mark <:+: pre ++ (x ++ target ++ z ++ decimal port.toNat) ++ post ↔
      reading.mark <:+: target) := by
    intro x z hx hz
    have heq : pre ++ (x ++ target ++ z ++ decimal port.toNat) ++ post =
        (pre ++ x) ++ (target ++ (z ++ decimal port.toNat ++ post)) := by simp
    rw [heq]
    refine infix_append_plain LineReading.mark_ne_nil ?_ ?_
    · intro c hc
      rcases List.mem_append.mp hc with hc | hc
      · exact hpre c hc
      · exact hx c hc
    · intro c hc
      simp only [List.mem_append] at hc
      rcases hc with (hc | hc) | hc
      · exact hz c hc
      · exact notMem_mark_decimal _ c hc
      · exact hpost c hc
  unfold gatewayAuthority
  split_ifs
  · exact hplain "[".toList "]:".toList (notMem_mark_of_all rfl) (notMem_mark_of_all rfl)
  · exact hplain [] ":".toList (notMem_mark_of_all rfl) (notMem_mark_of_all rfl)

/-- **The request is received as it is meant exactly if the target has no line break.** -/
theorem requestIntact_iff : RequestIntact reading target port ↔ ¬reading.mark <:+: target := by
  have hconnect :
      reading.mark <:+: "CONNECT ".toList ++ gatewayAuthority target port ++ " HTTP/1.1".toList ↔
      reading.mark <:+: target :=
        infix_gatewayAuthority (notMem_mark_of_all rfl) (notMem_mark_of_all rfl)
  constructor
  · intro h hpart
    exact LineReading.not_infix_of_lines h (hconnect.mpr hpart)
  · intro h
    have hhost : ¬reading.mark <:+: "Host: ".toList ++ gatewayAuthority target port := by
      rw [← List.append_nil ("Host: ".toList ++ _), infix_gatewayAuthority (notMem_mark_of_all rfl)
        (notMem_mark_of_all rfl)]
      exact h
    have hagent : ¬reading.mark <:+: "User-Agent: WARP for Android".toList := by
      intro hpart
      have hmark : reading.mark ≠ [] := LineReading.mark_ne_nil
      obtain ⟨c, hc⟩ := List.exists_mem_of_ne_nil _ hmark
      exact notMem_mark_of_all rfl c (hpart.subset hc) hc
    have hempty : ¬reading.mark <:+: [] :=
      fun hnil => LineReading.mark_ne_nil (List.infix_nil.mp hnil)
    have htext : buildProxyConnect target port =
        asBytes ("CONNECT ".toList ++ gatewayAuthority target port ++ " HTTP/1.1".toList ++
        ['\r', '\n'] ++
          ("Host: ".toList ++ gatewayAuthority target port ++ ['\r', '\n'] ++
            ("User-Agent: WARP for Android".toList ++ ['\r', '\n'] ++
            ([] ++ ['\r', '\n'] ++ [])))) := by
      have hagain :
          " HTTP/1.1\r\nHost: ".toList = " HTTP/1.1".toList ++ ['\r', '\n'] ++ "Host: ".toList :=
            rfl
      have hend : "\r\nUser-Agent: WARP for Android\r\n\r\n".toList =
          ['\r', '\n'] ++ "User-Agent: WARP for Android".toList ++ ['\r', '\n'] ++ ['\r', '\n'] :=
            rfl
      rw [buildProxyConnect, hagain, hend]
      simp only [gatewayAuthority, List.append_assoc, List.nil_append, List.append_nil]
    rw [RequestIntact, htext, fromUtf8Lossy_asBytes, LineReading.lines_append (mt hconnect.mp h),
      LineReading.lines_append hhost, LineReading.lines_append hagent,
      LineReading.lines_append hempty, LineReading.lines_nil]

end Request

/-! ### Targets of the front ends -/

/-- What a client sends to one of the two front ends: the address of a SOCKS request and what
follows it, or the first line of an HTTP request. -/
inductive ProxyRequest
  | socks (atyp : UInt8) (input : Bytes)
  | http (line : Text)

namespace ProxyRequest

/-- The target of a request. -/
def target : ProxyRequest → Option Target
  | socks atyp input =>
    match readTarget atyp input with
    | .ok ((target, _), _) => some target
    | .error _ => none
  | http line => (parseRequestLine line).map HttpRequestLine.target

/-- The domain of the request has a line break in it. -/
def BreaksLine (reading : LineReading) : ProxyRequest → Prop
  | socks atyp input =>
    atyp = atypDomain ∧ reading.mark <:+: fromUtf8Lossy ((input.drop 1).take (input.headD 0).toNat)
  | http _ => False

end ProxyRequest

variable {reading : LineReading}

theorem not_infix_of_solid {t : Text} (h : ∀ c ∈ t, isWhitespace c = false) :
    ¬reading.mark <:+: t := by
  intro hpart
  have hmark : reading.mark ≠ [] := LineReading.mark_ne_nil
  obtain ⟨c, hc⟩ := List.exists_mem_of_ne_nil _ hmark
  have hspace := h c (hpart.subset hc)
  rcases LineReading.mem_mark hc with rfl | rfl
  · cases hspace
  · cases hspace

theorem isWhitespace_of_isAddrChar {c : Char} (h : isAddrChar c = true) :
    isWhitespace c = false := by
  have hascii : ∀ n < 128, isAddrChar (Char.ofNat n) = true →
      isWhitespace (Char.ofNat n) = false := by decide
  rw [← Char.ofNat_toNat c] at h ⊢
  exact hascii c.toNat (toNat_of_isAddrChar (by rwa [Char.ofNat_toNat] at h)) h

theorem not_infix_ip (ip : IpAddr) : ¬reading.mark <:+: (Target.ip ip).text :=
  not_infix_of_solid fun c hc => isWhitespace_of_isAddrChar (isAddrChar_of_text ip c hc)

theorem mem_of_parseAuthority {raw host : Text} {defaultPort port : UInt16}
    (h : parseAuthority raw defaultPort = some (host, port)) : ∀ c ∈ host, c ∈ raw := by
  suffices hsub : host ⊆ trim raw from fun c hc => mem_of_mem_trim (hsub hc)
  unfold parseAuthority at h
  dsimp only at h
  split_ifs at h
  split at h
  · rename_i rest hrest
    obtain ⟨⟨a, tail⟩, hsplit, h⟩ := Option.bind_eq_some_iff.mp h
    have hpart : a ⊆ trim raw := by
      rw [← List.isPrefixOf?_eq_some_iff_append_eq.mp hrest, eq_of_splitOnce hsplit]
      intro c hc
      simp [hc]
    dsimp only at h
    split_ifs at h
    split at h
    · obtain ⟨p, -, heq⟩ := Option.map_eq_some_iff.mp h
      obtain ⟨rfl, -⟩ := Prod.mk.injEq .. ▸ heq
      exact hpart
    · obtain ⟨rfl, -⟩ := Prod.mk.injEq .. ▸ Option.some.inj h
      exact hpart
  · split at h
    · rename_i a p hsplit
      have hpart : a ⊆ trim raw := by
        rw [eq_of_rsplitOnce hsplit]
        exact List.subset_append_left _ _
      split_ifs at h
      · obtain ⟨rfl, -⟩ := Prod.mk.injEq .. ▸ Option.some.inj h
        exact List.Subset.refl _
      · obtain ⟨p, -, heq⟩ := Option.map_eq_some_iff.mp h
        obtain ⟨rfl, -⟩ := Prod.mk.injEq .. ▸ heq
        exact hpart
    · obtain ⟨rfl, -⟩ := Prod.mk.injEq .. ▸ Option.some.inj h
      exact List.Subset.refl _

theorem splitPath_subset (t : Text) : (splitPath t).1 ⊆ t := by
  unfold splitPath
  split
  · rename_i a p hsplit
    rw [eq_of_splitOnce hsplit, List.append_assoc]
    exact List.subset_append_left _ _
  · exact List.Subset.refl _

theorem stripPrefix_subset {pre t rest : Text} (h : stripPrefix pre t = some rest) : rest ⊆ t := by
  rw [← List.isPrefixOf?_eq_some_iff_append_eq.mp h]
  exact List.subset_append_right _ _

theorem isWhitespace_of_parseRequestLine {line : Text} {request : HttpRequestLine}
    (h : parseRequestLine line = some request) :
    ∀ c ∈ request.authority, isWhitespace c = false := by
  unfold parseRequestLine at h
  split at h
  · rename_i method word rest hwords
    have hword : IsWord word := isWord_of_mem (t := line) (by rw [hwords]; simp)
    dsimp only at h
    split_ifs at h
    · obtain ⟨⟨authority, port⟩, hauthority, rfl⟩ := Option.map_eq_some_iff.mp h
      exact fun c hc => hword.2 c (mem_of_parseAuthority hauthority c hc)
    · obtain ⟨without, hwithout, h⟩ := Option.bind_eq_some_iff.mp h
      obtain ⟨⟨authority, port⟩, hauthority, h⟩ := Option.bind_eq_some_iff.mp h
      cases h
      have hsub : without ⊆ word := by
        rcases Option.or_eq_some_iff.mp hwithout with hstrip | ⟨-, hstrip⟩
        · exact stripPrefix_subset hstrip
        · exact stripPrefix_subset hstrip
      exact fun c hc =>
        hword.2 c (hsub (splitPath_subset without (mem_of_parseAuthority hauthority c hc)))
  · cases h

theorem not_infix_http {line : Text} {request : HttpRequestLine}
    (h : parseRequestLine line = some request) : ¬reading.mark <:+: request.target.text := by
  unfold HttpRequestLine.target
  split
  · rename_i ip _
    exact not_infix_ip ip
  · exact not_infix_of_solid (isWhitespace_of_parseRequestLine h)

theorem of_readExact_bind {α : Type} {n : ℕ} {f : Vector UInt8 n → Reader α} {input : Bytes}
    {r : α × Bytes} (h : (readExact n >>= f) input = .ok r) :
    ∃ hle : n ≤ input.length, f ⟨(input.take n).toArray, by simp [hle]⟩ (input.drop n) = .ok r := by
  have hrun : (readExact n >>= f) input = (readExact n input).bind fun p => f p.1 p.2 := rfl
  rw [hrun] at h
  unfold readExact at h
  split_ifs at h with hle
  · exact ⟨hle, h⟩
  · cases h

theorem of_readAddress {atyp : UInt8} {input rest : Bytes} {target : Target}
    (h : readAddress atyp input = .ok (target, rest)) :
    (atyp ≠ atypDomain ∧ ∃ ip, target = .ip ip) ∨
      (atyp = atypDomain ∧
        target = .domain (fromUtf8Lossy ((input.drop 1).take (input.headD 0).toNat))) := by
  unfold readAddress at h
  split_ifs at h with hv4 hv6 hdomain
  · obtain ⟨_, h⟩ := of_readExact_bind h
    cases h
    exact Or.inl ⟨by rw [hv4]; decide, _, rfl⟩
  · obtain ⟨_, h⟩ := of_readExact_bind h
    cases h
    exact Or.inl ⟨by rw [hv6]; decide, _, rfl⟩
  · obtain ⟨hlen, h⟩ := of_readExact_bind h
    obtain ⟨_, h⟩ := of_readExact_bind h
    cases h
    rcases input with _ | ⟨n, input⟩
    · cases hlen
    · exact Or.inr ⟨hdomain, rfl⟩
  · cases h

theorem infix_socks {atyp : UInt8} {input : Bytes} {target : Target}
    (h : (ProxyRequest.socks atyp input).target = some target) :
    reading.mark <:+: target.text ↔ (ProxyRequest.socks atyp input).BreaksLine reading := by
  obtain ⟨rest, haddress⟩ : ∃ rest, readAddress atyp input = .ok (target, rest) := by
    unfold ProxyRequest.target readTarget at h
    dsimp only [bind, StateT.bind] at h
    rcases haddress : readAddress atyp input with e | ⟨found, rest⟩
    · rw [haddress] at h
      cases h
    · rw [haddress] at h
      dsimp only [Except.bind] at h
      rcases hport : readExact 2 rest with e | ⟨port, rest'⟩
      · rw [hport] at h
        cases h
      · rw [hport] at h
        cases h
        exact ⟨rest, rfl⟩
  rcases of_readAddress haddress with ⟨hatyp, ip, rfl⟩ | ⟨hatyp, rfl⟩
  · exact iff_of_false (not_infix_ip ip) fun hbreaks => hatyp hbreaks.1
  · exact (and_iff_right hatyp).symm

/-- **When the gateway receives the request and nothing else**: for every target that a client can
name, exactly if it has sent no line break in the name of a SOCKS request. -/
theorem gateway_request_intact_iff {request : ProxyRequest} {target : Target}
    (h : request.target = some target) (reading : LineReading) (port : UInt16) :
    RequestIntact reading target.text port ↔ ¬request.BreaksLine reading := by
  rw [requestIntact_iff]
  cases request with
  | socks atyp input => rw [infix_socks h]
  | http line =>
    obtain ⟨request, hrequest, rfl⟩ := Option.map_eq_some_iff.mp h
    exact iff_of_true (not_infix_http hrequest) not_false

/-- A request for `a.example` with an address of type domain. -/
theorem plain_name_intact :
    (ProxyRequest.socks atypDomain (9 :: asBytes "a.example".toList ++ [1, 187])).target =
        some (.domain "a.example".toList) ∧
      RequestIntact .strict "a.example".toList 443 := by
  have htarget :
      (ProxyRequest.socks atypDomain (9 :: asBytes "a.example".toList ++ [1, 187])).target =
      some (.domain "a.example".toList) := by decide
  refine ⟨htarget, (gateway_request_intact_iff htarget .strict 443).mpr ?_⟩
  rintro ⟨-, hpart⟩
  exact absurd hpart (by decide)

/-- The name of a SOCKS request, eight bytes long, that brings a header line of its own. -/
theorem name_adds_header :
    (ProxyRequest.socks atypDomain (8 :: asBytes "a\r\nX: y ".toList ++ [1, 187])).target =
        some (.domain "a\r\nX: y ".toList) ∧
      LineReading.strict.lines (fromUtf8Lossy (buildProxyConnect "a\r\nX: y ".toList 443)) =
        ["CONNECT [a".toList, "X: y ]:443 HTTP/1.1".toList, "Host: [a".toList, "X: y ]:443".toList,
          "User-Agent: WARP for Android".toList, [], []] ∧
      ¬RequestIntact .strict "a\r\nX: y ".toList 443 := by
  decide

end Koku.Socks
