import Koku.Rust.Pieces
import Koku.Socks.Request

/-! # Requests in absolute form

An `AbsoluteRequest` names its target as `http://host[:port]path[?query]`. `parse_request_line`
looks for the two spellings `http://` and `HTTP://`, takes `connect` in any letter case for
`CONNECT`, and ends the authority at the first slash, so that a query behind an empty path is taken
for a part of the host (`absolute_form_read_iff`). -/

namespace Koku.Socks

open Rust.Str Routing List Option

/-! ### Requests -/

/-- A host: a name or an IPv4 literal, or an IPv6 literal that stands in brackets. -/
inductive UriHost
  | name (text : Text) (word : IsWord text) (colon : ':' ∉ text) (slash : '/' ∉ text)
      (question : '?' ∉ text)
      (start : text.head? ≠ some '[')
  | literal (text : Text) (word : IsWord text) (bracket : ']' ∉ text) (slash : '/' ∉ text)
      (question : '?' ∉ text)

/-- The host without brackets. -/
def UriHost.text : UriHost → Text
  | name text .. => text
  | literal text .. => text

def UriHost.written : UriHost → Text
  | name text .. => text
  | literal text .. => '[' :: (text ++ [']'])

/-- A port in digits. -/
structure UriPort where
  digits : Text
  value : UInt16
  nonempty : digits ≠ []
  decimal : ∀ c ∈ digits, c.isDigit = true
  spells : digits.foldl (fun n c => 10 * n + (c.toNat - 48)) 0 = value.toNat
  positive : value ≠ 0

/-- A request line with a target in absolute form. -/
structure AbsoluteRequest where
  method : Text
  scheme : Text
  host : UriHost
  port : Option UriPort
  path : Text
  query : Option Text
  version : Text
  method_word : IsWord method
  other_method : method ≠ "CONNECT".toList
  any_case : toAsciiLowercase scheme = "http://".toList
  path_start : path = [] ∨ path.head? = some '/'
  path_solid : ∀ c ∈ path, isWhitespace c = false
  path_question : '?' ∉ path
  query_solid : ∀ q ∈ query, ∀ c ∈ q, isWhitespace c = false
  version_word : IsWord version

namespace AbsoluteRequest

/-- The authority of the target. -/
def authority (r : AbsoluteRequest) : Text :=
  r.host.written ++ (r.port.map fun port => ':' :: port.digits).getD []

def queryText (r : AbsoluteRequest) : Text := (r.query.map fun q => '?' :: q).getD []

def line (r : AbsoluteRequest) : Text :=
  r.method ++ ' ' :: (r.scheme ++ (r.authority ++ (r.path ++ r.queryText)) ++ ' ' :: r.version)

/-- The target for the origin: the path, or a slash if it is empty, and the query. -/
def originTarget (r : AbsoluteRequest) : Text :=
  (if r.path = [] then ['/'] else r.path) ++ r.queryText

def read (r : AbsoluteRequest) : HttpRequestLine where
  method := r.method
  authority := r.host.text
  port := (r.port.map UriPort.value).getD 80
  rewritten := some (r.method ++ [' '] ++ r.originTarget ++ [' '] ++ r.version ++ ['\r', '\n'])

end AbsoluteRequest

/-! ### Authorities -/

theorem UriPort.notMem (port : UriPort) {d : Char} (hd : d.isDigit = false) : d ∉ port.digits := by
  intro hmem
  rw [port.decimal d hmem] at hd
  cases hd

theorem UriPort.parsePort_digits (port : UriPort) : parsePort port.digits = some port.value := by
  have hplus : port.digits.head? ≠ some '+' := fun h => port.notMem (by decide) (mem_of_mem_head? h)
  have hdigits : Rust.Str.digits port.digits = some port.value.toNat := by
    rw [Rust.Str.digits, if_pos ⟨port.nonempty, all_eq_true.mpr port.decimal⟩, port.spells]
  have hle : port.value.toNat ≤ 65535 := Nat.le_of_lt_succ port.value.toNat_lt
  rw [parsePort, parseUnsigned, if_neg hplus, hdigits, filter_some, if_pos (by simpa using hle),
    map_some, UInt16.ofNat_toNat]

theorem UriHost.word_written (host : UriHost) : IsWord host.written := by
  rcases host with ⟨text, word, -, -, -, -⟩ | ⟨text, word, -, -, -⟩
  · exact word
  · refine ⟨cons_ne_nil _ _, fun c hc => ?_⟩
    rcases mem_cons.mp hc with rfl | hc
    · rfl
    · rcases mem_append.mp hc with hc | hc
      · exact word.2 c hc
      · rw [mem_singleton.mp hc]
        rfl

theorem UriHost.slash_written (host : UriHost) : '/' ∉ host.written := by
  rcases host with ⟨text, -, -, slash, -, -⟩ | ⟨text, -, -, slash, -⟩
  · exact slash
  · simp [written, slash]

variable (r : AbsoluteRequest)

theorem AbsoluteRequest.word_authority : IsWord r.authority := by
  refine ⟨append_ne_nil_of_left_ne_nil r.host.word_written.1 _, fun c hc => ?_⟩
  rcases mem_append.mp hc with hc | hc
  · exact r.host.word_written.2 c hc
  · rcases hport : r.port with _ | port
    · rw [hport] at hc
      cases hc
    · rw [hport] at hc
      rcases mem_cons.mp hc with rfl | hc
      · rfl
      · exact isWhitespace_of_isDigit (port.decimal c hc)

theorem AbsoluteRequest.slash_authority : '/' ∉ r.authority := by
  rw [authority, mem_append, not_or]
  refine ⟨r.host.slash_written, ?_⟩
  rcases r.port with _ | port
  · exact not_mem_nil
  · rw [map_some, getD_some, mem_cons, not_or]
    exact ⟨by decide, port.notMem (by decide)⟩

/-- **An authority is read**, with its port or the default. -/
theorem AbsoluteRequest.parseAuthority_authority (defaultPort : UInt16) :
    parseAuthority r.authority defaultPort =
      some (r.host.text, (r.port.map UriPort.value).getD defaultPort) := by
  have hword := r.word_authority
  unfold parseAuthority
  dsimp only
  rw [hword.trim_eq, if_neg hword.1, authority]
  rcases r.host with ⟨text, word, colon, -, -, start⟩ | ⟨text, word, bracket, -, -⟩
  · have hstrip : ∀ more : Text, stripPrefix ['['] (text ++ more) = none := by
      intro more
      obtain ⟨c, text', rfl⟩ := exists_cons_of_ne_nil word.1
      have hc : c ≠ '[' := fun h => start (congrArg some h)
      simp [stripPrefix, isPrefixOf?, Ne.symm hc]
    rw [UriHost.written, hstrip]
    dsimp only
    rcases r.port with _ | port
    · rw [map_none, getD_none, append_nil, rsplitOnce_of_notMem colon]
      rfl
    · rw [map_some, getD_some, rsplitOnce_append (port.notMem (by decide))]
      dsimp only
      rw [if_pos colon, if_neg word.1, port.parsePort_digits]
      rfl
  · have hstrip : ∀ more :
        Text, stripPrefix ['['] ('[' :: (text ++ [']']) ++ more) = some (text ++ ']' :: more) := by
      intro more
      simp [stripPrefix, isPrefixOf?]
    rw [UriHost.written, hstrip]
    dsimp only
    rw [splitOnce_char bracket, bind_eq_bind, bind_some]
    dsimp only
    rw [if_neg word.1]
    rcases r.port with _ | port
    · rfl
    · have hcolon : stripPrefix [':'] (':' :: port.digits) = some port.digits := by
        simp [stripPrefix, isPrefixOf?]
      rw [map_some, getD_some, hcolon]
      dsimp only
      rw [port.parsePort_digits]
      rfl

/-! ### The target -/

theorem splitPath_slash {a : Text} (h : '/' ∉ a) (p : Text) :
    splitPath (a ++ '/' :: p) = (a, '/' :: p) := by
  rw [splitPath, splitOnce_char h]

theorem splitPath_none {a : Text} (h : '/' ∉ a) : splitPath a = (a, ['/']) := by
  rw [splitPath, splitOnce_none h]

theorem length_splitPath {a : Text} (h : '/' ∉ a) (t : Text) :
    (splitPath (a ++ t)).2.length ≤ t.length + 1 := by
  unfold splitPath
  rcases hsplit : splitOnce ['/'] (a ++ t) with _ | ⟨x, p⟩
  · simp
  · have heq : a ++ t = x ++ '/' :: p := by simpa using eq_of_splitOnce hsplit
    rcases append_eq_append_iff.mp heq with ⟨b, rfl, rfl⟩ | ⟨b, rfl, hp⟩
    · simp only [length_append, length_cons]
      omega
    · -- the slash is not before `t`, so nothing of `a` is behind it
      rcases b with _ | ⟨c, b⟩
      · rw [nil_append] at hp
        subst hp
        exact Nat.le_succ _
      · obtain ⟨rfl, -⟩ := cons_eq_cons.mp hp
        simp at h

theorem stripPrefix_scheme {pre scheme : Text} (hlength : pre.length = scheme.length)
    (rest : Text) :
    stripPrefix pre (scheme ++ rest) = if pre = scheme then some rest else none := by
  split_ifs with heq
  · subst heq
    exact isPrefixOf?_eq_some_iff_append_eq.mpr rfl
  · rw [eq_none_iff_forall_ne_some]
    intro rest' hrest
    exact heq (append_inj_left (isPrefixOf?_eq_some_iff_append_eq.mp hrest) hlength)

theorem AbsoluteRequest.length_scheme : r.scheme.length = 7 := by
  have := congrArg length r.any_case
  simpa [toAsciiLowercase] using this

theorem AbsoluteRequest.strip_target (rest : Text) :
    (stripPrefix "http://".toList (r.scheme ++ rest)).or
      (stripPrefix "HTTP://".toList (r.scheme ++ rest)) = if r.scheme = "http://".toList ∨
      r.scheme = "HTTP://".toList then some rest else none := by
  have hlower : "http://".toList.length = r.scheme.length := by rw [r.length_scheme]; rfl
  have hupper : "HTTP://".toList.length = r.scheme.length := by rw [r.length_scheme]; rfl
  rw [stripPrefix_scheme hlower, stripPrefix_scheme hupper]
  by_cases h₁ : r.scheme = "http://".toList
  · rw [if_pos h₁.symm, if_pos (Or.inl h₁), some_or]
  · rw [if_neg (Ne.symm h₁), none_or]
    by_cases h₂ : r.scheme = "HTTP://".toList
    · rw [if_pos h₂.symm, if_pos (Or.inr h₂)]
    · rw [if_neg (Ne.symm h₂), if_neg (not_or.mpr ⟨h₁, h₂⟩)]

theorem toLower_of_isWhitespace {c : Char} (h : isWhitespace c = true) : c.toLower = c := by
  have hupper : ¬ (c.toNat ≥ 65 ∧ c.toNat ≤ 90) := by
    simp only [isWhitespace, Bool.or_eq_true, Bool.and_eq_true, decide_eq_true_eq] at h
    omega
  exact dif_neg hupper

theorem AbsoluteRequest.word_target :
    IsWord (r.scheme ++ (r.authority ++ (r.path ++ r.queryText))) := by
  have hscheme : ∀ c ∈ r.scheme, isWhitespace c = false := by
    intro c hc
    by_contra hspace
    have hspace : isWhitespace c = true := by simpa using hspace
    have hlower : c.toLower ∈ "http://".toList := r.any_case ▸ mem_map_of_mem hc
    have hmarks : "http://".toList.all (fun d => !isWhitespace d) = true := rfl
    have := all_eq_true.mp hmarks _ hlower
    rw [toLower_of_isWhitespace hspace, hspace] at this
    cases this
  refine ⟨?_, fun c hc => ?_⟩
  · have := r.length_scheme
    exact append_ne_nil_of_left_ne_nil (ne_nil_of_length_eq_add_one this) _
  · simp only [mem_append] at hc
    rcases hc with hc | hc | hc | hc
    · exact hscheme c hc
    · exact r.word_authority.2 c hc
    · exact r.path_solid c hc
    · rw [queryText] at hc
      rcases hquery : r.query with _ | q
      · simp [hquery] at hc
      · rw [hquery, map_some, getD_some] at hc
        rcases mem_cons.mp hc with rfl | hc
        · rfl
        · exact r.query_solid q hquery c hc

theorem AbsoluteRequest.splitWhitespace_line : splitWhitespace r.line =
    [r.method, r.scheme ++ (r.authority ++ (r.path ++ r.queryText)), r.version] := by
  rw [line, splitWhitespace_append _ rfl, splitWhitespace_append _ rfl,
    splitWhitespace_word r.method_word, splitWhitespace_word r.word_target,
    splitWhitespace_word r.version_word]
  rfl

theorem AbsoluteRequest.splitPath_target (h : r.path = [] → r.query = none) :
    splitPath (r.authority ++ (r.path ++ r.queryText)) = (r.authority, r.originTarget) := by
  rw [originTarget]
  rcases hpath : r.path with _ | ⟨c, path⟩
  · have hquery : r.queryText = [] := by rw [queryText, h hpath, map_none, getD_none]
    rw [hquery, append_nil, append_nil, splitPath_none r.slash_authority, if_pos rfl]
    rfl
  · have hc : c = '/' := by
      have hstart := r.path_start
      rw [hpath] at hstart
      simpa using hstart
    subst hc
    rw [cons_append, splitPath_slash r.slash_authority, if_neg (cons_ne_nil _ _), cons_append]

/-! ### The request line -/

theorem AbsoluteRequest.parseRequestLine_line (hscheme : r.scheme = "http://".toList ∨
    r.scheme = "HTTP://".toList)
    (hmethod : eqIgnoreAsciiCase r.method "CONNECT".toList = false) : parseRequestLine r.line =
      (parseAuthority (splitPath (r.authority ++ (r.path ++ r.queryText))).1 80).map fun (authority,
        port) =>
        ⟨r.method, authority, port,
          some (r.method ++ [' '] ++ (splitPath (r.authority ++ (r.path ++ r.queryText))).2 ++
            [' '] ++ r.version
            ++ ['\r', '\n'])⟩ := by
  unfold parseRequestLine
  rw [r.splitWhitespace_line]
  dsimp only
  rw [if_neg (by rw [hmethod]; exact Bool.false_ne_true), r.strip_target, if_pos hscheme,
    bind_eq_bind, bind_some]
  rcases parseAuthority (splitPath (r.authority ++ (r.path ++ r.queryText))).1 80 with
    _ | ⟨authority, port⟩
  · rfl
  · rfl

theorem AbsoluteRequest.of_rewritten {request : HttpRequestLine}
    (h : parseRequestLine r.line = some request) (hrewritten : request.rewritten ≠ none) :
    (r.scheme = "http://".toList ∨ r.scheme = "HTTP://".toList) ∧
      eqIgnoreAsciiCase r.method "CONNECT".toList = false := by
  unfold parseRequestLine at h
  rw [r.splitWhitespace_line] at h
  dsimp only at h
  split_ifs at h with hmethod
  · obtain ⟨⟨authority, port⟩, -, rfl⟩ := map_eq_some_iff.mp h
    exact absurd rfl hrewritten
  · refine ⟨?_, by simpa using hmethod⟩
    by_contra hscheme
    rw [r.strip_target, if_neg hscheme] at h
    cases h

/-- **Which requests in absolute form are read.** The host, the port and the rewritten line are
those of the request if and only if the scheme is in one letter case, the method is not `CONNECT` in
another, and a query stands behind a path. -/
theorem absolute_form_read_iff : parseRequestLine r.line = some r.read ↔
    (r.scheme = "http://".toList ∨ r.scheme = "HTTP://".toList) ∧
      eqIgnoreAsciiCase r.method "CONNECT".toList = false ∧ (r.path = [] → r.query = none) := by
  constructor
  · intro h
    obtain ⟨hscheme, hmethod⟩ :=
      r.of_rewritten h (by rw [AbsoluteRequest.read]; exact some_ne_none _)
    refine ⟨hscheme, hmethod, fun hpath => ?_⟩
    by_contra hquery
    obtain ⟨q, hq⟩ := ne_none_iff_exists'.mp hquery
    rw [r.parseRequestLine_line hscheme hmethod] at h
    obtain ⟨⟨authority, port⟩, -, hread⟩ := map_eq_some_iff.mp h
    -- the target that was found is shorter than the slash and the query
    have htarget : (splitPath (r.authority ++ (r.path ++ r.queryText))).2.length =
        r.originTarget.length := by
      have := congrArg length (some.inj (congrArg HttpRequestLine.rewritten hread))
      simp only [length_append] at this
      omega
    have hslash : '/' ∉ r.authority ++ ['?'] := by simp [r.slash_authority]
    have hlength := length_splitPath hslash q
    have hsame : r.authority ++ (r.path ++ r.queryText) = r.authority ++ ['?'] ++ q := by
      simp [AbsoluteRequest.queryText, hpath, hq]
    rw [hsame] at htarget
    simp only [AbsoluteRequest.originTarget, AbsoluteRequest.queryText, if_pos hpath, hq, map_some,
      getD_some, length_append, length_cons, length_nil] at htarget
    omega
  · rintro ⟨hscheme, hmethod, hquery⟩
    rw [r.parseRequestLine_line hscheme hmethod, r.splitPath_target hquery,
      r.parseAuthority_authority]
    rfl

/-- `GET http://a.example?q HTTP/1.1`. -/
def queryRequest : AbsoluteRequest where
  method := "GET".toList
  scheme := "http://".toList
  host := .name "a.example".toList (isWord_of_all rfl) (by decide) (by decide) (by decide)
    (by decide)
  port := none
  path := []
  query := some "q".toList
  version := "HTTP/1.1".toList
  method_word := isWord_of_all rfl
  other_method := by decide
  any_case := rfl
  path_start := Or.inl rfl
  path_solid := by simp
  path_question := by decide
  query_solid := by simp [isWhitespace]
  version_word := isWord_of_all rfl

/-- The query is taken for a part of the host, and the origin is not asked for it. -/
theorem query_taken_for_host :
    queryRequest.line = "GET http://a.example?q HTTP/1.1".toList ∧
      parseRequestLine queryRequest.line =
        some ⟨"GET".toList, "a.example?q".toList, 80, some "GET / HTTP/1.1\r\n".toList⟩ ∧
      queryRequest.read =
        ⟨"GET".toList, "a.example".toList, 80, some "GET /?q HTTP/1.1\r\n".toList⟩ ∧
      parseRequestLine queryRequest.line ≠ some queryRequest.read := by
  decide

end Koku.Socks
