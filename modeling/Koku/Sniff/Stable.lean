import Koku.Rust.Append
import Koku.Sniff

/-! # A name found in the first bytes of a stream

`socks.rs` looks for a name in what the first read gave. More of the stream would not change a name
that `tls_sni` has found, which refuses a field that is cut off (`tlsSni_grows`). `http_host` takes
a host header as it stands, so its name is final only if the line of the header has ended
(`hostname_final_iff`). -/

namespace Koku.Sniff

open Rust.Str Rust.Utf8 List Option

variable {u : UnicodeData}

/-! ### TLS -/

section Tls

variable {p s : Bytes} {pos n : ℕ}

theorem getElem?_grows {b : UInt8} (hps : p <+: s) (h : p[pos]? = some b) : s[pos]? = some b := by
  obtain ⟨more, rfl⟩ := hps
  rw [List.getElem?_append_left (List.getElem?_eq_some_iff.mp h).1, h]

theorem be16_grows (hps : p <+: s) (h : be16 p pos = some n) : be16 s pos = some n := by
  obtain ⟨hi, hhi, h⟩ := bind_eq_some_iff.mp h
  obtain ⟨lo, hlo, h⟩ := bind_eq_some_iff.mp h
  rw [be16, getElem?_grows hps hhi, getElem?_grows hps hlo]
  exact h

theorem be24_grows (hps : p <+: s) (h : be24 p pos = some n) : be24 s pos = some n := by
  obtain ⟨a, ha, h⟩ := bind_eq_some_iff.mp h
  obtain ⟨b, hb, h⟩ := bind_eq_some_iff.mp h
  obtain ⟨c, hc, h⟩ := bind_eq_some_iff.mp h
  rw [be24, getElem?_grows hps ha, getElem?_grows hps hb, getElem?_grows hps hc]
  exact h

theorem slice_grows {stop : ℕ} {bytes : Bytes} (hps : p <+: s) (h : slice p pos stop = some bytes) :
    slice s pos stop = some bytes := by
  obtain ⟨⟨hle, hstop⟩, hbytes⟩ := ite_none_right_eq_some.mp h
  obtain ⟨more, rfl⟩ := hps
  have hlen : stop ≤ (p ++ more).length := by
    rw [length_append]
    omega
  rw [slice, if_pos ⟨hle, hlen⟩, take_append_of_le_length hstop, hbytes]

theorem slice_min_grows {stop : ℕ} {bytes : Bytes} (hps : p <+: s)
    (h : slice p pos (min stop p.length) = some bytes) :
    ∃ bytes', slice s pos (min stop s.length) = some bytes' ∧ bytes <+: bytes' := by
  obtain ⟨⟨hle, hstop⟩, hbytes⟩ := ite_none_right_eq_some.mp h
  have hlen := hps.length_le
  refine ⟨_, if_pos ⟨by omega, Nat.min_le_right _ _⟩, ?_⟩
  rw [← some.inj hbytes, ← take_eq_take_min, ← take_eq_take_min]
  exact (hps.take stop).drop pos

theorem extensionsFrom_grows {name : Text} {stop stop' n n' : ℕ} (hps : p <+: s)
    (hstop : stop ≤ stop') (hn : n ≤ n') (h : extensionsFrom u p stop n pos = some name) :
    extensionsFrom u s stop' n' pos = some name := by
  induction n generalizing n' pos with
  | zero => cases h
  | succ n ih =>
    obtain ⟨n', rfl⟩ : ∃ m, n' = m + 1 := ⟨n' - 1, by omega⟩
    obtain ⟨hroom, h⟩ := ite_none_right_eq_some.mp h
    obtain ⟨kind, hkind, h⟩ := bind_eq_some_iff.mp h
    obtain ⟨len, hlen, h⟩ := bind_eq_some_iff.mp h
    obtain ⟨hinside, h⟩ := ite_none_left_eq_some.mp h
    have hroom' : pos + 4 ≤ stop' := by omega
    have hinside' : ¬pos + 4 + len > stop' := by omega
    rw [extensionsFrom, if_pos hroom', be16_grows hps hkind, be16_grows hps hlen]
    simp only [bind_eq_bind, bind_some]
    rw [if_neg hinside']
    by_cases hsni : kind = extServerName
    · rw [if_pos hsni] at h ⊢
      obtain ⟨data, hdata, h⟩ := bind_eq_some_iff.mp h
      rw [slice_grows hps hdata]
      exact h
    · rw [if_neg hsni] at h ⊢
      exact ih (by omega) h

/-- **A server name is not changed by what follows.** -/
theorem tlsSni_grows {name : Text} (hps : p <+: s) (h : tlsSni u p = some name) :
    tlsSni u s = some name := by
  obtain ⟨first, hfirst, h⟩ := bind_eq_some_iff.mp h
  obtain ⟨_, hhandshake, h⟩ := bind_eq_some_iff.mp h
  obtain ⟨recordLen, hrecordLen, h⟩ := bind_eq_some_iff.mp h
  obtain ⟨body, hbody, h⟩ := bind_eq_some_iff.mp h
  obtain ⟨kind, hkind, h⟩ := bind_eq_some_iff.mp h
  obtain ⟨_, hclientHello, h⟩ := bind_eq_some_iff.mp h
  obtain ⟨helloLen, hhelloLen, h⟩ := bind_eq_some_iff.mp h
  obtain ⟨hello, hhello, h⟩ := bind_eq_some_iff.mp h
  obtain ⟨session, hsession, h⟩ := bind_eq_some_iff.mp h
  obtain ⟨ciphers, hciphers, h⟩ := bind_eq_some_iff.mp h
  obtain ⟨compression, hcompression, h⟩ := bind_eq_some_iff.mp h
  obtain ⟨extensions, hextensions, h⟩ := bind_eq_some_iff.mp h
  rw [head?_eq_getElem?] at hfirst hkind
  -- the record and the message may be cut off in `p` and longer in `s`
  obtain ⟨body', hbody', hbodies⟩ := slice_min_grows hps hbody
  obtain ⟨hello', hhello', hhellos⟩ := slice_min_grows hbodies hhello
  have hlen := hhellos.length_le
  have hloop := extensionsFrom_grows hhellos (min_le_min_left _ hlen) hlen h
  rw [tlsSni, head?_eq_getElem?, getElem?_grows hps hfirst, be16_grows hps hrecordLen]
  simp only [bind_eq_bind, bind_some]
  rw [hhandshake, hbody']
  simp only [bind_some]
  rw [head?_eq_getElem?, getElem?_grows hbodies hkind, be24_grows hbodies hhelloLen]
  simp only [bind_some]
  rw [hclientHello, hhello']
  simp only [bind_some]
  rw [getElem?_grows hhellos hsession]
  simp only [bind_some]
  rw [be16_grows hhellos hciphers]
  simp only [bind_some]
  rw [getElem?_grows hhellos hcompression]
  simp only [bind_some]
  rw [be16_grows hhellos hextensions]
  exact hloop

end Tls

/-! ### HTTP -/

/-- The end of a line. -/
def crlf : Text := ['\r', '\n']

/-- The lines of a head, as `http_host` takes it apart. -/
def headLines (bs : Bytes) : List Text := pieces crlf (fromUtf8Lossy (bs.take peekBudget))

/-- The line is a `Host` header. -/
def isHostLine (line : Text) : Bool :=
  match splitOnce [':'] line with
  | some (name, _) => eqIgnoreAsciiCase name "host".toList
  | none => false

section Lines

variable {lines more : List Text} {line : Text}

theorem hostHeader_cons (line : Text) (lines : List Text) : hostHeader u (line :: lines) =
    if line = [] then none
    else if isHostLine line = true then hostHeader u [line] else hostHeader u lines := by
  rw [hostHeader, hostHeader, isHostLine]
  by_cases hline : line = []
  · rw [if_pos hline, if_pos hline]
  · rw [if_neg hline, if_neg hline, if_neg hline]
    cases splitOnce [':'] line with
    | none => rfl
    | some p =>
      obtain ⟨name, value⟩ := p
      dsimp only
      by_cases hname : eqIgnoreAsciiCase name "host".toList = true
      · rw [if_pos hname, if_pos hname, if_pos hname]
      · rw [if_neg hname, if_neg hname]

theorem hostHeader_append_of_any (h : ∃ line ∈ lines, isHostLine line = true) (more : List Text) :
    hostHeader u (lines ++ more) = hostHeader u lines := by
  induction lines with
  | nil => simp at h
  | cons line lines ih =>
    rw [cons_append, hostHeader_cons, hostHeader_cons line lines]
    by_cases hline : isHostLine line = true
    · rw [if_pos hline, if_pos hline]
    · obtain ⟨other, hmem, hother⟩ := h
      rcases mem_cons.mp hmem with rfl | hmem
      · exact absurd hother hline
      · rw [if_neg hline, if_neg hline, ih ⟨other, hmem, hother⟩]

theorem hostHeader_append_of_not (h : ∀ line ∈ lines, ¬isHostLine line = true) (more : List Text) :
    hostHeader u (lines ++ more) = if [] ∈ lines then none else hostHeader u more := by
  induction lines with
  | nil => simp
  | cons line lines ih =>
    rw [cons_append, hostHeader_cons, if_neg (h line mem_cons_self),
      ih fun other hmem => h other (mem_cons_of_mem _ hmem)]
    by_cases hline : line = []
    · rw [if_pos hline, if_pos (hline ▸ mem_cons_self)]
    · have hmem : [] ∈ line :: lines ↔ [] ∈ lines := by simp [Ne.symm hline]
      rw [if_neg hline]
      simp only [hmem]

end Lines

theorem replacement_mem_trim {t : Text} (h : '�' ∈ t) : '�' ∈ trim t := by
  have hstart : '�' ∈ trimStart t := by
    rw [← takeWhile_append_dropWhile (p := isWhitespace) (l := t), mem_append] at h
    refine h.resolve_left fun hmem => ?_
    exact absurd (mem_takeWhile_imp hmem) (by decide)
  rw [← rdropWhile_append_rtakeWhile (p := isWhitespace) (l := trimStart t), mem_append] at hstart
  refine hstart.resolve_right fun hmem => ?_
  exact absurd (mem_rtakeWhile_imp hmem) (by decide)

theorem replacement_mem_withoutPort {t : Text} (h : '�' ∈ t) : '�' ∈ withoutPort t := by
  unfold withoutPort
  split
  · rename_i host port hsplit
    split
    · rename_i hdigits
      rw [eq_of_rsplitOnce hsplit, mem_append, mem_cons] at h
      rcases h with hhost | hcolon | hport
      · exact hhost
      · exact absurd hcolon (by decide)
      · exact absurd (all_eq_true.mp hdigits _ hport) (by decide)
    · exact h
  · exact h

theorem plausibleHost_replacement {t : Text} (h : '�' ∈ t) :
    plausibleHost u (asBytes t) = none := by
  have hmem := replacement_mem_trim h
  have hname : '�' ∈ trimEndMatches '.' (trim t) := by
    rw [← rdropWhile_append_rtakeWhile (p := (· == '.')) (l := trim t), mem_append] at hmem
    refine hmem.resolve_right fun hmem => ?_
    exact absurd (mem_rtakeWhile_imp hmem) (by decide)
  have hchars : (!(trimEndMatches '.' (trim t)).all hostChar) = true := by
    rw [Bool.not_eq_true', List.all_eq_false]
    exact ⟨_, hname, by decide⟩
  rw [plausibleHost, fromUtf8_asBytes]
  simp only [bind_eq_bind, bind_some]
  split_ifs with h1 h2 h3 h4
  · rfl
  · rfl
  · rfl
  · rfl
  · exact absurd (Or.inl hchars) h3

/-- **A last line that ends in the replacement character names no host.** -/
theorem hostHeader_replacement (line : Text) : hostHeader u [line ++ ['�']] = none := by
  rw [hostHeader]
  split_ifs with hnil
  · rfl
  · split
    · rename_i name value hsplit
      have heq := eq_of_splitOnce hsplit
      have hmem : '�' ∈ value := by
        rcases eq_nil_or_concat' value with rfl | ⟨value', c, rfl⟩
        · rw [append_nil] at heq
          exact absurd (append_inj_right' heq rfl) (by decide)
        · rw [← append_assoc] at heq
          rw [← append_inj_right' heq rfl, mem_append]
          exact .inr mem_cons_self
      rw [plausibleHost_replacement (replacement_mem_withoutPort (replacement_mem_trim hmem))]
      split_ifs
      · rfl
      · rfl
    · rfl

/-! ### The head -/

/-- The lines of a head that is not full: more bytes add to the last one and may end it. -/
theorem exists_headLines {p : Bytes} (hp : p.length < peekBudget) : ∃ init last,
    (headLines p = init ++ [last ++ ['�']] ∨
      headLines p = init ++ [last] ∧ headLines (p ++ [0xff]) = init ++ [last ++ ['�']]) ∧
    ∀ more, ∃ lines, headLines (p ++ more) = init ++ lines := by
  have hne : crlf ≠ [] := by decide
  obtain ⟨init, last, hlast, hpieces, hgrow⟩ := exists_pieces hne (completeText p)
  have hnewline : '�' ≠ '\n' := by decide
  have hlast' : splitOnce crlf (last ++ ['�']) = none := splitOnce_concat_none ['\r'] hnewline hlast
  have hreplaced : pieces crlf (completeText p ++ ['�']) = init ++ [last ++ ['�']] := by
    rw [hgrow, pieces_of_none hlast']
  refine ⟨init, last, ?_, fun more => ?_⟩
  · have htake : p.take peekBudget = p := take_of_length_le hp.le
    have htake' : (p ++ [0xff]).take peekBudget = p ++ [0xff] := by
      apply take_of_length_le
      rw [length_append]
      exact hp
    unfold headLines
    rw [htake, htake']
    rcases fromUtf8Lossy_cases p with hreplace | ⟨hcomplete, hff⟩
    · rw [hreplace]
      exact .inl hreplaced
    · rw [hcomplete, hff]
      exact .inr ⟨hpieces, hreplaced⟩
  · obtain ⟨rest, hrest⟩ := exists_fromUtf8Lossy_append p (more.take (peekBudget - p.length))
    unfold headLines
    rw [take_append, take_of_length_le hp.le, hrest, hgrow]
    exact ⟨_, rfl⟩

theorem httpHost_eq (bs : Bytes) : httpHost u bs = match headLines bs with
    | requestLine :: rest => if looksLikeHttp requestLine then hostHeader u rest else none
    | [] => none := rfl

theorem httpHost_eq_some_iff {bs : Bytes} {name : Text} : httpHost u bs = some name ↔
    ∃ request lines, headLines bs = request :: lines ∧ looksLikeHttp request = true ∧
      hostHeader u lines = some name := by
  rw [httpHost_eq]
  cases headLines bs with
  | nil => simp
  | cons request lines =>
    rw [ite_none_right_eq_some]
    simp

/-- **When the name of a host header is final**, in a head that is not full: some line before the
last one is a host header. -/
theorem httpHost_final_iff {p : Bytes} {name : Text} (hp : p.length < peekBudget)
    (h : httpHost u p = some name) : (∀ s, p <+: s → httpHost u s = some name) ↔
      ∃ line ∈ (headLines p).tail.dropLast, isHostLine line = true := by
  obtain ⟨init, last, hends, hgrow⟩ := exists_headLines hp
  obtain ⟨line, hline⟩ : ∃ line, headLines p = init ++ [line] := by
    rcases hends with hline | ⟨hline, -⟩
    · exact ⟨_, hline⟩
    · exact ⟨_, hline⟩
  obtain ⟨request, rest, hrest, hhttp, hhost⟩ := httpHost_eq_some_iff.mp h
  rw [hline] at hrest
  cases init with
  | nil =>
    -- the request line is the last one, so there is no header
    obtain ⟨-, rfl⟩ := cons.injEq .. ▸ hrest
    cases hhost
  | cons first lines =>
    rw [cons_append] at hrest
    obtain ⟨rfl, rfl⟩ := cons.injEq .. ▸ hrest
    have hbefore : (headLines p).tail.dropLast = lines := by
      rw [hline]
      exact dropLast_concat
    rw [hbefore]
    constructor
    · intro hall
      by_contra hnot
      push Not at hnot
      -- with the last line spoiled the head names no host, in `p` itself or with one more byte
      have hspoiled : ∀ bs, headLines bs = first :: lines ++ [last ++ ['�']] →
          httpHost u bs ≠ some name := by
        intro bs hbs hname
        obtain ⟨request, rest, hrest, -, hhost⟩ := httpHost_eq_some_iff.mp hname
        rw [hbs, cons_append] at hrest
        obtain ⟨-, rfl⟩ := cons.injEq .. ▸ hrest
        rw [hostHeader_append_of_not hnot, hostHeader_replacement, ite_self] at hhost
        cases hhost
      rcases hends with hspoil | ⟨-, hspoil⟩
      · exact hspoiled p hspoil h
      · exact hspoiled _ hspoil (hall _ (prefix_append p [0xff]))
    · rintro hany s ⟨more, rfl⟩
      obtain ⟨lines', hlines'⟩ := hgrow more
      refine httpHost_eq_some_iff.mpr ⟨first, lines ++ lines', hlines', hhttp, ?_⟩
      rw [hostHeader_append_of_any hany] at hhost ⊢
      exact hhost

theorem httpHost_of_full {p s : Bytes} (hps : p <+: s) (hp : peekBudget ≤ p.length) :
    httpHost u s = httpHost u p := by
  obtain ⟨more, rfl⟩ := hps
  unfold httpHost
  rw [take_append_of_le_length hp]

theorem httpHost_handshake {p : Bytes} (hp : p.head? = some tlsHandshake) :
    httpHost u p = none := by
  obtain ⟨rest, rfl⟩ := List.head?_eq_some_iff.mp hp
  have hmethods : ∀ method ∈ methods, method.head? ≠ some '\x16' ∧ method ≠ [] := by decide
  rw [Option.eq_none_iff_forall_ne_some]
  intro name hname
  obtain ⟨request, lines, hlines, hhttp, -⟩ := httpHost_eq_some_iff.mp hname
  have hrequest : request.head? = some '\x16' := head?_of_pieces (by decide) (by decide) hlines
  rw [looksLikeHttp, Bool.and_eq_true, List.any_eq_true] at hhttp
  obtain ⟨⟨method, hmem, hprefix⟩, -⟩ := hhttp
  obtain ⟨hhead, hne⟩ := hmethods method hmem
  obtain ⟨more, rfl⟩ := List.isPrefixOf_iff_prefix.mp hprefix
  rw [List.head?_append_of_ne_nil _ hne] at hrequest
  exact hhead hrequest

/-! ### Both -/

/-- **A first read whose name is final**: a TLS record, as much as is ever looked at, or a host
header that is not on the last line. -/
def Final (p : Bytes) : Prop :=
  p.head? = some tlsHandshake ∨ peekBudget ≤ p.length ∨ ∃ line ∈ (headLines p).tail.dropLast,
    isHostLine line = true

instance (p : Bytes) : Decidable (Final p) := inferInstanceAs (Decidable (_ ∨ _ ∨ _))

theorem tlsSni_of_ne {p : Bytes} (hp : p.head? ≠ some tlsHandshake) : tlsSni u p = none := by
  rw [eq_none_iff_forall_ne_some]
  intro name hname
  obtain ⟨first, hfirst, h⟩ := bind_eq_some_iff.mp hname
  obtain ⟨_, hguard, -⟩ := bind_eq_some_iff.mp h
  have hhandshake : first = tlsHandshake := (ite_none_right_eq_some.mp hguard).1
  exact hp (hhandshake ▸ hfirst)

/-- **The name of a first read is that of the whole stream**, whatever follows, exactly if it is
final. -/
theorem hostname_final_iff {p : Bytes} {name : Text} (h : hostname u p = some name) :
    (∀ s, p <+: s → hostname u s = some name) ↔ Final p := by
  by_cases hhandshake : p.head? = some tlsHandshake
  · have hname : tlsSni u p = some name := by
      rw [hostname, httpHost_handshake hhandshake, or_none] at h
      exact h
    refine ⟨fun _ => .inl hhandshake, fun _ s hps => ?_⟩
    rw [hostname, tlsSni_grows hps hname]
    rfl
  · have hne : p ≠ [] := by
      rintro rfl
      have hnone : hostname u [] = none := rfl
      rw [hnone] at h
      cases h
    have hhttp : ∀ s, p <+: s → hostname u s = httpHost u s := by
      intro s hps
      have hs : s.head? ≠ some tlsHandshake := by
        obtain ⟨more, rfl⟩ := hps
        rw [head?_append_of_ne_nil _ hne]
        exact hhandshake
      rw [hostname, tlsSni_of_ne hs, none_or]
    have hname : httpHost u p = some name := hhttp p (prefix_refl p) ▸ h
    have hstream : (∀ s, p <+: s → hostname u s = some name) ↔
        ∀ s, p <+: s → httpHost u s = some name :=
      forall₂_congr fun s hps => by rw [hhttp s hps]
    rw [hstream, Final, or_iff_right hhandshake]
    by_cases hfull : peekBudget ≤ p.length
    · exact iff_of_true (fun s hps => (httpHost_of_full hps hfull).trans hname) (.inl hfull)
    · rw [or_iff_right hfull]
      exact httpHost_final_iff (Nat.lt_of_not_le hfull) hname

/-- A request whose host header has ended. -/
theorem ended_header_final :
    hostname asciiData (asBytes "GET / HTTP/1.1\r\nHost: example.com\r\n".toList) =
      some "example.com".toList ∧
        ∀ s, asBytes "GET / HTTP/1.1\r\nHost: example.com\r\n".toList <+: s →
          hostname asciiData s = some "example.com".toList :=
  ⟨by decide, (hostname_final_iff (by decide)).mpr (by decide)⟩

/-- A read that ends inside the header gives another name than the whole request. -/
theorem cut_header_differs :
    hostname asciiData (asBytes "GET / HTTP/1.1\r\nHost: example.co".toList) =
      some "example.co".toList ∧ asBytes "GET / HTTP/1.1\r\nHost: example.co".toList <+:
        asBytes "GET / HTTP/1.1\r\nHost: example.com\r\n\r\n".toList ∧
      hostname asciiData (asBytes "GET / HTTP/1.1\r\nHost: example.com\r\n\r\n".toList) =
        some "example.com".toList := by
  decide

end Koku.Sniff
