import Koku.Https.Cuts
import Koku.Rust.Append
import Koku.Rust.RoundTrip

/-! # Chunked answers

A `ChunkedAnswer`, written down: interim heads, the head of the answer, chunks with their sizes and
extensions, the last chunk and a trailer. `Http1Answer` takes it to be whole exactly at its last
byte, and joins the chunks (`chunks_joined`). -/

namespace Koku.Https

open Rust.Str Rust.Utf8 Rust.Search Machine.Resume List Option

variable {w : ℕ}

/-! ### The parts of an answer -/

def hexNumber (t : Text) : Option ℕ :=
  (t.mapM hexDigit).map fun digits => digits.foldl (fun n d => 16 * n + d) 0

/-- A line with the size `n`, in any spelling, and an extension behind it. -/
structure SizeLine (n : ℕ) where
  size : Text
  blanks : Text
  extension : Option Text
  some_digit : size ≠ []
  reads : hexNumber size = some n
  blank : ∀ c ∈ blanks, c = ' ' ∨ c = '\t'
  one_line : ∀ c ∈ extension.getD [], c ≠ '\r' ∧ c ≠ '\n'

def SizeLine.text {n : ℕ} (line : SizeLine n) : Text :=
  line.size ++ line.blanks ++ (line.extension.map fun t => ';' :: t).getD []

/-- The bytes of the line. -/
def SizeLine.bytes {n : ℕ} (line : SizeLine n) : Bytes := asBytes line.text

/-- A chunk that is not the last one. -/
structure Chunk where
  data : Bytes
  line : SizeLine data.length
  nonempty : data ≠ []

/-- The bytes of a chunk. -/
def Chunk.encode (chunk : Chunk) : Bytes := chunk.line.bytes ++ (crlf ++ (chunk.data ++ crlf))

/-- A line of the trailer. -/
structure TrailerLine where
  bytes : Bytes
  nonempty : bytes ≠ []
  one_line : ∀ j, ¬Occurs crlf bytes j

def TrailerLine.encode (line : TrailerLine) : Bytes := line.bytes ++ crlf

/-- A head that `http1_head` can read, with no empty line in it. -/
structure Head where
  bytes : Bytes
  status : ℕ
  fields : List (Text × Text)
  reads : http1Head bytes = .ok (status, fields)
  ends : Ends crlfcrlf bytes

def Head.encode (head : Head) : Bytes := head.bytes ++ crlfcrlf

/-- A chunked answer behind its interim answers. -/
structure ChunkedAnswer (w : ℕ) where
  interim : List Head
  head : Head
  chunks : List Chunk
  last : SizeLine 0
  trailer : List TrailerLine
  all_interim : ∀ h ∈ interim, Interim h.status
  final : ¬Interim head.status
  chunked : framing w head.status head.fields = .ok (.chunked {})
  short_chunks : ∀ c ∈ chunks, c.line.bytes.length < maxLine
  short_last : last.bytes.length < maxLine
  short_trailer : ∀ t ∈ trailer, t.bytes.length < maxLine

namespace ChunkedAnswer

variable (a : ChunkedAnswer w)

def heads : Bytes := a.interim.flatMap Head.encode ++ a.head.encode

def ending : Bytes := a.last.bytes ++ (crlf ++ (a.trailer.flatMap TrailerLine.encode ++ crlf))

def body : Bytes := a.chunks.flatMap Chunk.encode ++ a.ending

def encode : Bytes := a.heads ++ a.body

def joined : Bytes := a.chunks.flatMap Chunk.data

end ChunkedAnswer

/-! ### The lines -/

theorem getElem_of_occurs {bytes : Bytes} {j : ℕ} (h : Occurs crlf bytes j) :
    bytes[j]? = some 13 ∧ bytes[j + 1]? = some 10 := by
  obtain ⟨rest, hrest⟩ := h
  have hget : ∀ i, bytes[j + i]? = (crlf ++ rest)[i]? := by
    intro i
    rw [hrest, getElem?_drop]
  exact ⟨hget 0, hget 1⟩

theorem ends_crlf {line : Bytes} (h : ∀ j, ¬Occurs crlf line j) : Ends crlf line := by
  intro j hj hocc
  by_cases hin : j + 2 ≤ line.length
  · exact h j (hocc.of_append hin)
  · -- behind the last byte of the line stands a carriage return
    have hlast : j + 1 = line.length := by omega
    have hget := (getElem_of_occurs hocc).2
    rw [hlast, getElem?_append_right le_rfl, Nat.sub_self] at hget
    exact absurd hget (by decide)

theorem ends_nil {pat : Bytes} : Ends pat [] := fun j hj => absurd hj (Nat.not_lt_zero j)

theorem hexDigit_isSome {t : Text} {n : ℕ} (h : hexNumber t = some n) :
    ∀ c ∈ t, (hexDigit c).isSome = true := by
  obtain ⟨digits, hdigits, -⟩ := map_eq_some_iff.mp h
  clear h
  induction t generalizing digits with
  | nil => exact nofun
  | cons c t ih =>
    rw [mapM_cons] at hdigits
    obtain ⟨d, hd, hdigits⟩ := bind_eq_some_iff.mp hdigits
    obtain ⟨ds, hds, -⟩ := bind_eq_some_iff.mp hdigits
    intro x hx
    rcases mem_cons.mp hx with rfl | hx
    · rw [hd]
      rfl
    · exact ih ds hds x hx

theorem hexDigit_range {c : Char} (h : (hexDigit c).isSome = true) : 48 ≤ c.toNat ∧ c.toNat ≤ 102 ∧
    c.toNat ≠ 59 := by
  unfold hexDigit at h
  split_ifs at h with h₁ h₂ h₃
  · have hlo : 48 ≤ c.toNat := h₁.1
    have hhi : c.toNat ≤ 57 := h₁.2
    omega
  · have hlo : 97 ≤ c.toNat := h₂.1
    have hhi : c.toNat ≤ 102 := h₂.2
    omega
  · have hlo : 65 ≤ c.toNat := h₃.1
    have hhi : c.toNat ≤ 70 := h₃.2
    omega
  · cases h

theorem isWhitespace_hexDigit {c : Char} (h : (hexDigit c).isSome = true) :
    isWhitespace c = false := by
  obtain ⟨hlo, hhi, -⟩ := hexDigit_range h
  simp only [isWhitespace, Bool.or_eq_false_iff, Bool.and_eq_false_iff, decide_eq_false_iff_not]
  omega

theorem isWhitespace_blank {c : Char} (h : c = ' ' ∨ c = '\t') : isWhitespace c = true := by
  rcases h with rfl | rfl
  · decide
  · decide

namespace SizeLine

variable {n : ℕ} (line : SizeLine n)

theorem chunkSize_bytes (hn : n < 2 ^ w) : chunkSize w line.bytes = some n := by
  have hdigit := hexDigit_isSome line.reads
  have hsemicolon : ';' ∉ line.size ++ line.blanks := by
    intro hmem
    rcases mem_append.mp hmem with h | h
    · exact (hexDigit_range (hdigit _ h)).2.2 rfl
    · rcases line.blank _ h with h | h
      · exact absurd h (by decide)
      · exact absurd h (by decide)
  have hsplit : (split ';' line.text).headD [] = line.size ++ line.blanks := by
    unfold SizeLine.text
    rcases line.extension with _ | t
    · rw [map_none, getD_none, append_nil, split_of_notMem hsemicolon]
      rfl
    · rw [map_some, getD_some, split, splitOn, splitOnP_append_cons _ t rfl]
      show (split ';' (line.size ++ line.blanks) ++ _).headD [] = _
      rw [split_of_notMem hsemicolon]
      rfl
  have htrim : trim (line.size ++ line.blanks) = line.size := by
    rw [trim_append_blank line.size fun c hc => isWhitespace_blank (line.blank c hc),
      trim_of_all fun c hc => isWhitespace_hexDigit (hdigit c hc)]
  have hplus : line.size.head? ≠ some '+' := by
    intro hhead
    have hlow := (hexDigit_range (hdigit '+' (mem_of_mem_head? hhead))).1
    exact absurd hlow (by decide)
  have hread :
      (line.size.mapM hexDigit).map (fun digits => digits.foldl (fun n d => 16 * n + d) 0) =
      some n := line.reads
  rw [chunkSize, SizeLine.bytes, fromUtf8_asBytes, bind_eq_bind, bind_some, hsplit, htrim, fromHex,
    if_neg hplus, if_neg line.some_digit, hread, filter_some, if_pos (decide_eq_true hn)]

theorem ends : Ends crlf line.bytes := by
  refine ends_crlf fun j hocc => ?_
  have hmem : (13 : UInt8) ∈ line.bytes := mem_of_getElem? (getElem_of_occurs hocc).1
  obtain ⟨c, hc, hcode⟩ := exists_of_mem_asBytes hmem (by decide)
  have hcr : c.toNat = 13 := hcode
  rcases mem_append.mp hc with hc | hc
  · rcases mem_append.mp hc with hc | hc
    · have hlow := (hexDigit_range (hexDigit_isSome line.reads c hc)).1
      omega
    · rcases line.blank c hc with rfl | rfl
      · exact absurd hcr (by decide)
      · exact absurd hcr (by decide)
  · have hline := line.one_line c
    rcases hext : line.extension with _ | t
    · rw [hext] at hc
      cases hc
    · rw [hext] at hc hline
      rcases mem_cons.mp hc with rfl | hc
      · exact absurd hcr (by decide)
      · refine (hline hc).1 ?_
        rw [← Char.ofNat_toNat c, hcr]

end SizeLine

/-! ### The walk over a body -/

section Walk

variable {body : Bytes} {d : Dechunker}

theorem Dechunker.takeLine_size {line : Bytes} {next n : ℕ} (htrailer : d.trailer = false)
    (hsize : chunkSize w line = some n) (hne : n ≠ 0) :
    d.takeLine w line next = .more { d with pos := next, searched := next, data := some n } := by
  obtain ⟨k, rfl⟩ := Nat.exists_eq_succ_of_ne_zero hne
  rw [Dechunker.takeLine, if_neg (by rw [htrailer]; exact Bool.false_ne_true), hsize]
  rfl

theorem Dechunker.takeLine_last {line : Bytes} {next : ℕ} (htrailer : d.trailer = false)
    (hsize : chunkSize w line = some 0) :
    d.takeLine w line next = .more { d with pos := next, searched := next, trailer := true } := by
  rw [Dechunker.takeLine, if_neg (by rw [htrailer]; exact Bool.false_ne_true), hsize]
  rfl

theorem part_found {pat part bytes : Bytes} (hpat : pat ≠ []) (hpart : Ends pat part)
    (pre post : Bytes) (hbytes : bytes = pre ++ (part ++ (pat ++ post))) :
      first pat bytes pre.length = some (pre.length + part.length) ∧
        (bytes.take (pre.length + part.length)).drop pre.length = part := by
  subst hbytes
  refine ⟨first_of_ends hpat hpart pre post, ?_⟩
  rw [drop_take, Nat.add_sub_cancel_left, drop_left, take_left]

theorem step_line (pre post : Bytes) {line : Bytes} (hline : Ends crlf line)
    (hbody : body = pre ++ (line ++ (crlf ++ post))) (hw : body.length < 2 ^ w)
    (hpos : d.pos = pre.length) (hsearched : d.searched = pre.length) (hdone : d.done = false)
    (hdata : d.data = none) :
    (dechunking w).step body d = d.takeLine w line (pre.length + line.length + 2) := by
  have hle : pre.length ≤ body.length := by
    rw [hbody, length_append]
    omega
  have hlooked : Looked crlf body d.pos d.searched := by
    rw [hpos, hsearched]
    exact Looked.start crlf_ne_nil hle
  obtain ⟨hfirst, hslice⟩ := part_found crlf_ne_nil hline pre post hbody
  rw [← hpos] at hfirst
  rw [dechunking_step hw hlooked, Dechunker.plain_of_line hdone hdata,
    Dechunker.plainLine_found hfirst, hpos, hslice]

theorem step_data (pre post : Bytes) {data : Bytes} (hbody : body = pre ++ (data ++ (crlf ++ post)))
    (hw : body.length < 2 ^ w) (hpos : d.pos = pre.length) (hsearched : d.searched = pre.length)
    (hdone : d.done = false) (hdata : d.data = some data.length) :
    (dechunking w).step body d = .more { d with
      joined := d.joined ++ data, pos := pre.length + data.length + 2, searched :=
      pre.length + data.length + 2, data := none } := by
  have hlength : pre.length + data.length + 2 ≤ body.length := by
    rw [hbody, length_append, length_append, length_append, show crlf.length = 2 from rfl]
    omega
  have hlooked : Looked crlf body d.pos d.searched := by
    rw [hpos, hsearched]
    exact Looked.start crlf_ne_nil (by omega)
  have hocc : Occurs crlf body (pre.length + data.length) := by
    have := occurs_append_length crlf (pre ++ data) post
    rwa [append_assoc, ← hbody, length_append] at this
  have hslice : (body.take (pre.length + data.length)).drop pre.length = data := by
    rw [hbody, drop_take, Nat.add_sub_cancel_left, drop_left, take_left]
  rw [dechunking_step hw hlooked, Dechunker.plain_of_data hdone hdata, Dechunker.plainData, hpos,
    if_neg (by omega), if_neg (by omega), if_pos hocc, hslice]

def Dechunker.sizeAt (pos : ℕ) (joined : Bytes) : Dechunker :=
  { pos := pos, searched := pos, joined := joined }

def Dechunker.trailerAt (pos : ℕ) (joined : Bytes) : Dechunker :=
  { pos := pos, searched := pos, trailer := true, joined := joined }

theorem run_chunk (pre post : Bytes) {chunk : Chunk} {joined : Bytes}
    (hbody : body = pre ++ (chunk.encode ++ post)) (hw : body.length < 2 ^ w) :
    (dechunking w).run body (.sizeAt pre.length joined) =
      (dechunking w).run body (.sizeAt (pre ++ chunk.encode).length (joined ++ chunk.data)) := by
  have hlength :
      (pre ++ chunk.encode).length = (pre ++ chunk.line.bytes ++ crlf).length + chunk.data.length +
      2 := by
    rw [Chunk.encode]
    simp only [length_append, show crlf.length = 2 from rfl]
    omega
  have hplace : (pre ++ chunk.line.bytes ++ crlf).length = pre.length + chunk.line.bytes.length +
      2 := by
    simp only [length_append, show crlf.length = 2 from rfl]
  have hfits : chunk.data.length < 2 ^ w := by
    rw [hbody, ← append_assoc, length_append, hlength] at hw
    omega
  have hne : chunk.data.length ≠ 0 := fun h => chunk.nonempty (eq_nil_of_length_eq_zero h)
  have hline : (dechunking w).step body (.sizeAt pre.length joined) =
      .more
      { Dechunker.sizeAt (pre ++ chunk.line.bytes ++ crlf).length joined with
      data := some chunk.data.length } := by
    have hparts : body = pre ++ (chunk.line.bytes ++ (crlf ++ (chunk.data ++ crlf ++ post))) := by
      rw [hbody, Chunk.encode]
      simp only [append_assoc]
    rw [step_line pre _ chunk.line.ends hparts hw rfl rfl rfl rfl,
      Dechunker.takeLine_size rfl (chunk.line.chunkSize_bytes hfits) hne, hplace]
    rfl
  have hdata : (dechunking w).step body
        { Dechunker.sizeAt (pre ++ chunk.line.bytes ++ crlf).length joined with
          data := some chunk.data.length } =
      .more (.sizeAt (pre ++ chunk.encode).length (joined ++ chunk.data)) := by
    have hparts : body = pre ++ chunk.line.bytes ++ crlf ++ (chunk.data ++ (crlf ++ post)) := by
      rw [hbody, Chunk.encode]
      simp only [append_assoc]
    rw [step_data _ _ hparts hw rfl rfl rfl rfl, hlength]
    rfl
  rw [Reader.run_more hline, Reader.run_more hdata]

theorem run_chunks (pre post : Bytes) (chunks : List Chunk) {joined : Bytes}
    (hbody : body = pre ++ (chunks.flatMap Chunk.encode ++ post)) (hw : body.length < 2 ^ w) :
    (dechunking w).run body (.sizeAt pre.length joined) = (dechunking w).run body
      (.sizeAt (pre ++ chunks.flatMap Chunk.encode).length
        (joined ++ chunks.flatMap Chunk.data)) := by
  induction chunks generalizing pre joined with
  | nil => simp only [flatMap_nil, append_nil]
  | cons chunk chunks ih =>
    have hparts : body = pre ++ (chunk.encode ++ (chunks.flatMap Chunk.encode ++ post)) := by
      rw [hbody, flatMap_cons, append_assoc]
    have hrest : body = pre ++ chunk.encode ++ (chunks.flatMap Chunk.encode ++ post) := by
      rw [hparts, append_assoc]
    rw [run_chunk pre _ hparts hw, ih (pre ++ chunk.encode) hrest, flatMap_cons, flatMap_cons,
      append_assoc, append_assoc]

theorem run_trailer (pre post : Bytes) (trailer : List TrailerLine) {joined : Bytes}
    (hbody : body = pre ++ (trailer.flatMap TrailerLine.encode ++ post))
    (hw : body.length < 2 ^ w) : (dechunking w).run body (.trailerAt pre.length joined) =
      (dechunking w).run body (.trailerAt (pre ++ trailer.flatMap TrailerLine.encode).length
        joined) := by
  induction trailer generalizing pre with
  | nil => simp only [flatMap_nil, append_nil]
  | cons line trailer ih =>
    have hparts :
        body = pre ++ (line.bytes ++ (crlf ++ (trailer.flatMap TrailerLine.encode ++ post))) := by
      rw [hbody, flatMap_cons, TrailerLine.encode]
      simp only [append_assoc]
    have hrest : body = pre ++ line.encode ++ (trailer.flatMap TrailerLine.encode ++ post) := by
      rw [hparts, TrailerLine.encode]
      simp only [append_assoc]
    have hplace : (pre ++ line.encode).length = pre.length + line.bytes.length + 2 := by
      rw [length_append, TrailerLine.encode, length_append, Nat.add_assoc]
      rfl
    have hstep : (dechunking w).step body (.trailerAt pre.length joined) =
        .more (.trailerAt (pre ++ line.encode).length joined) := by
      rw [step_line pre _ (ends_crlf line.one_line) hparts hw rfl rfl rfl rfl, hplace]
      show Step.more _ = Step.more _
      rw [decide_eq_false line.nonempty]
      rfl
    rw [Reader.run_more hstep, ih (pre ++ line.encode) hrest, flatMap_cons, append_assoc]

end Walk

namespace ChunkedAnswer

variable (a : ChunkedAnswer w)

def beforeTrailer : Bytes := a.chunks.flatMap Chunk.encode ++ (a.last.bytes ++ crlf)

theorem body_eq : a.body = a.beforeTrailer ++ (a.trailer.flatMap TrailerLine.encode ++ crlf) := by
  rw [body, ending, beforeTrailer]
  simp only [append_assoc]

/-- **The whole body**: the chunks are joined, and its end is that of the body. -/
theorem run_body (hw : a.body.length < 2 ^ w) : (dechunking w).run a.body {} = .stop (some (.ok
    { pos := a.body.length
      searched := a.body.length
      trailer := true
      done := true
      joined := a.joined })) := by
  have hlast :
    (dechunking w).step a.body (.sizeAt (a.chunks.flatMap Chunk.encode).length a.joined) =
      .more (.trailerAt a.beforeTrailer.length a.joined) := by
    have hplace :
        a.beforeTrailer.length = (a.chunks.flatMap Chunk.encode).length + a.last.bytes.length +
        2 := by
      rw [beforeTrailer, length_append, length_append, ← Nat.add_assoc]
      rfl
    have hparts : a.body = a.chunks.flatMap Chunk.encode ++
        (a.last.bytes ++ (crlf ++ (a.trailer.flatMap TrailerLine.encode ++ crlf))) := rfl
    rw [step_line _ _ a.last.ends hparts hw rfl rfl rfl rfl,
      Dechunker.takeLine_last rfl (a.last.chunkSize_bytes (Nat.two_pow_pos w)), hplace]
    rfl
  have hempty : (dechunking w).step a.body
        (.trailerAt (a.beforeTrailer ++ a.trailer.flatMap TrailerLine.encode).length a.joined) =
      .more
        { pos := a.body.length
          searched := a.body.length
          trailer := true
          done := true
          joined := a.joined } := by
    have hparts :
        a.body = a.beforeTrailer ++ a.trailer.flatMap TrailerLine.encode ++
        ([] ++ (crlf ++ [])) := by
      rw [a.body_eq, nil_append, append_nil, append_assoc]
    have hplace : a.body.length = (a.beforeTrailer ++ a.trailer.flatMap TrailerLine.encode).length +
        0 + 2 := by
      rw [a.body_eq, ← append_assoc, length_append, Nat.add_zero]
      rfl
    rw [step_line _ _ ends_nil hparts hw rfl rfl rfl rfl, hplace]
    rfl
  have hdone : (dechunking w).step a.body
        { pos := a.body.length, searched := a.body.length, trailer := true, done := true,
          joined := a.joined } =
      .stop (some (.ok
        { pos := a.body.length, searched := a.body.length, trailer := true, done := true,
          joined := a.joined })) := by
    rw [dechunking_step hw (Looked.start crlf_ne_nil le_rfl)]
    rfl
  have hstart : ({} : Dechunker) = .sizeAt ([] : Bytes).length [] := rfl
  have hparts : a.body = [] ++ (a.chunks.flatMap Chunk.encode ++ a.ending) := rfl
  rw [hstart, run_chunks [] a.ending a.chunks hparts hw]
  show (dechunking w).run a.body (.sizeAt (a.chunks.flatMap Chunk.encode).length a.joined) = _
  rw [Reader.run_more hlast, run_trailer a.beforeTrailer crlf a.trailer a.body_eq hw,
    Reader.run_more hempty, Reader.run_stop hdone]

/-! ### No line is too long -/

/-- The places at which a piece of the body starts. -/
def Known (p : ℕ) : Piece → Prop
  | .size => ∃ before after, a.chunks = before ++ after ∧ p = (before.flatMap Chunk.encode).length
  | .data n => ∃ before chunk after, a.chunks = before ++ chunk :: after ∧ n = chunk.data.length ∧
      p = (before.flatMap Chunk.encode).length + chunk.line.bytes.length + 2
  | .trailer => ∃ before after, a.trailer = before ++ after ∧
      p = (a.beforeTrailer ++ before.flatMap TrailerLine.encode).length

theorem known_size {p : ℕ} (h : a.Known p .size) : ∃ line :
    Bytes, first crlf a.body p = some (p + line.length) ∧ (a.body.take (p + line.length)).drop p =
    line ∧ line.length < maxLine ∧
      ((∃ before chunk after, a.chunks = before ++ chunk :: after ∧
        p = (before.flatMap Chunk.encode).length ∧ line = chunk.line.bytes) ∨
          (p = (a.chunks.flatMap Chunk.encode).length ∧ line = a.last.bytes)) := by
  obtain ⟨before, after, hchunks, rfl⟩ := h
  rcases after with _ | ⟨chunk, after⟩
  · rw [append_nil] at hchunks
    have hbody : a.body = before.flatMap Chunk.encode ++
        (a.last.bytes ++ (crlf ++ (a.trailer.flatMap TrailerLine.encode ++ crlf))) := by
      rw [← hchunks]
      rfl
    obtain ⟨hfirst, hslice⟩ := part_found crlf_ne_nil a.last.ends _ _ hbody
    exact ⟨_, hfirst, hslice, a.short_last, .inr ⟨by rw [hchunks], rfl⟩⟩
  · have hbody : a.body = before.flatMap Chunk.encode ++
        (chunk.line.bytes ++
        (crlf ++ (chunk.data ++ crlf ++ after.flatMap Chunk.encode ++ a.ending))) := by
      rw [body, hchunks, flatMap_append, flatMap_cons, Chunk.encode]
      simp only [append_assoc]
    obtain ⟨hfirst, hslice⟩ := part_found crlf_ne_nil chunk.line.ends _ _ hbody
    refine ⟨_, hfirst, hslice, a.short_chunks chunk ?_,
      .inl ⟨before, chunk, after, hchunks, rfl, rfl⟩⟩
    rw [hchunks]
    exact mem_append_right before mem_cons_self

theorem known_trailer {p : ℕ} (h : a.Known p .trailer) : ∃ line :
    Bytes, first crlf a.body p = some (p + line.length) ∧ line.length < maxLine ∧
      (line = [] ∨ a.Known (p + line.length + 2) .trailer) := by
  obtain ⟨before, after, htrailer, rfl⟩ := h
  rcases after with _ | ⟨line, after⟩
  · rw [append_nil] at htrailer
    have hbody :
        a.body = a.beforeTrailer ++ before.flatMap TrailerLine.encode ++ ([] ++ (crlf ++ [])) := by
      rw [a.body_eq, htrailer, nil_append, append_nil, append_assoc]
    obtain ⟨hfirst, -⟩ := part_found crlf_ne_nil ends_nil _ _ hbody
    exact ⟨[], hfirst, by decide, .inl rfl⟩
  · have hbody : a.body = a.beforeTrailer ++ before.flatMap TrailerLine.encode ++
        (line.bytes ++ (crlf ++ (after.flatMap TrailerLine.encode ++ crlf))) := by
      rw [a.body_eq, htrailer, flatMap_append, flatMap_cons, TrailerLine.encode]
      simp only [append_assoc]
    obtain ⟨hfirst, -⟩ := part_found crlf_ne_nil (ends_crlf line.one_line) _ _ hbody
    refine ⟨_, hfirst, a.short_trailer line ?_, .inr ⟨before ++ [line], after, ?_, ?_⟩⟩
    · rw [htrailer]
      exact mem_append_right before mem_cons_self
    · rw [htrailer, append_assoc, singleton_append]
    · simp only [flatMap_append, flatMap_singleton, TrailerLine.encode, length_append,
        show crlf.length = 2 from rfl]
      omega

/-- **What is expected at a place of the body is what was written there.** -/
theorem known_of_expected (hw : a.body.length < 2 ^ w) {p : ℕ} {piece : Piece}
    (h : Expected w a.body p piece) : a.Known p piece := by
  have hsize : ∀ {before chunk after}, a.chunks = before ++ chunk :: after →
      chunkSize w chunk.line.bytes = some chunk.data.length := by
    intro before chunk after hchunks
    refine chunk.line.chunkSize_bytes ?_
    rw [body, hchunks, flatMap_append, flatMap_cons, Chunk.encode] at hw
    simp only [length_append] at hw
    omega
  have hzero : chunkSize w a.last.bytes = some 0 := a.last.chunkSize_bytes (Nat.two_pow_pos w)
  induction h with
  | start => exact ⟨[], a.chunks, rfl, rfl⟩
  | size hp he hn hne ih =>
    obtain ⟨line, hfirst, hslice, -, hplace⟩ := a.known_size ih
    obtain rfl := some.inj (hfirst.symm.trans he)
    rw [hslice] at hn
    rcases hplace with ⟨before, chunk, after, hchunks, rfl, rfl⟩ | ⟨-, rfl⟩
    · obtain rfl := some.inj ((hsize hchunks).symm.trans hn)
      exact ⟨before, chunk, after, hchunks, rfl, rfl⟩
    · exact absurd (some.inj (hzero.symm.trans hn)).symm hne
  | data hp hocc ih =>
    obtain ⟨before, chunk, after, hchunks, rfl, rfl⟩ := ih
    refine ⟨before ++ [chunk], after, ?_, ?_⟩
    · rw [hchunks, append_assoc, singleton_append]
    · simp only [flatMap_append, flatMap_singleton, Chunk.encode, length_append,
        show crlf.length = 2 from rfl]
      omega
  | last hp he hn ih =>
    obtain ⟨line, hfirst, hslice, -, hplace⟩ := a.known_size ih
    obtain rfl := some.inj (hfirst.symm.trans he)
    rw [hslice] at hn
    rcases hplace with ⟨before, chunk, after, hchunks, rfl, rfl⟩ | ⟨rfl, rfl⟩
    · have hnil := some.inj ((hsize hchunks).symm.trans hn)
      exact absurd (eq_nil_of_length_eq_zero hnil) chunk.nonempty
    · refine ⟨[], a.trailer, rfl, ?_⟩
      rw [flatMap_nil, append_nil, beforeTrailer, length_append, length_append, ← Nat.add_assoc]
      rfl
  | field hp he hne ih =>
    obtain ⟨line, hfirst, -, hplace⟩ := a.known_trailer ih
    obtain rfl := some.inj (hfirst.symm.trans he)
    rcases hplace with rfl | hnext
    · exact absurd rfl hne
    · exact hnext

theorem shortLines (hw : a.body.length < 2 ^ w) : ShortLines w a.body := by
  intro p piece e hp hpiece he
  have hknown := a.known_of_expected hw hp
  rcases piece with _ | n | _
  · obtain ⟨line, hfirst, -, hshort, -⟩ := a.known_size hknown
    obtain rfl := some.inj (hfirst.symm.trans he)
    rwa [Nat.add_sub_cancel_left]
  · exact absurd rfl (hpiece n)
  · obtain ⟨line, hfirst, hshort, -⟩ := a.known_trailer hknown
    obtain rfl := some.inj (hfirst.symm.trans he)
    rwa [Nat.add_sub_cancel_left]

/-! ### The heads -/

def headPlace (before : List Head) : ℕ := (before.flatMap Head.encode).length

theorem headPlace_concat (before : List Head) (head : Head) :
    headPlace (before ++ [head]) = headPlace before + head.bytes.length + 4 := by
  simp only [headPlace, flatMap_append, flatMap_singleton, Head.encode, length_append,
    show crlfcrlf.length = 4 from rfl]
  omega

theorem interim_found (rest : Bytes) {before after : List Head} {head : Head}
    (h : a.interim = before ++ head :: after) :
    first crlfcrlf (a.heads ++ rest) (headPlace before) =
      some (headPlace before + head.bytes.length) ∧
        ((a.heads ++ rest).take (headPlace before + head.bytes.length)).drop (headPlace before) =
        head.bytes := by
  refine part_found crlfcrlf_ne_nil head.ends (before.flatMap Head.encode)
    (after.flatMap Head.encode ++ a.head.encode ++ rest) ?_
  rw [heads, h, flatMap_append, flatMap_cons, Head.encode]
  simp only [append_assoc]

theorem final_found (rest : Bytes) :
    first crlfcrlf (a.heads ++ rest) (headPlace a.interim) =
      some (headPlace a.interim + a.head.bytes.length) ∧
        ((a.heads ++ rest).take (headPlace a.interim + a.head.bytes.length)).drop
        (headPlace a.interim) = a.head.bytes := by
  refine part_found crlfcrlf_ne_nil a.head.ends (a.interim.flatMap Head.encode) rest ?_
  rw [heads, Head.encode]
  simp only [append_assoc]

theorem length_heads : a.heads.length = headPlace a.interim + a.head.bytes.length + 4 := by
  rw [heads, Head.encode, length_append, length_append, ← Nat.add_assoc]
  rfl

/-- The head that `push` keeps. -/
def kept : Http1Head := ⟨a.head.status, a.head.fields, a.heads.length, .chunked {}⟩

/-- **The heads**: the interim ones are passed over, and the last one is kept. -/
theorem run_heads (rest : Bytes) (hw : (a.heads ++ rest).length < 2 ^ w) :
    (heading w).run (a.heads ++ rest) {} = .stop (some (.ok a.kept)) := by
  have hlooked : ∀ {before after}, a.interim = before ++ after →
      Looked crlfcrlf (a.heads ++ rest) (headPlace before) (headPlace before) := by
    intro before after h
    refine Looked.start crlfcrlf_ne_nil ?_
    rw [heads, h, flatMap_append]
    simp only [headPlace, length_append]
    omega
  have hrun : ∀ after before, a.interim = before ++ after →
      (heading w).run (a.heads ++ rest) ⟨headPlace before, headPlace before⟩ =
      .stop (some (.ok a.kept)) := by
    intro after
    induction after with
    | nil =>
      intro before h
      obtain rfl : a.interim = before := by rw [h, append_nil]
      refine Reader.run_stop ?_
      obtain ⟨hfirst, hslice⟩ := a.final_found rest
      rw [heading_step hw (hlooked h), Search.plain, hfirst]
      dsimp only
      rw [hslice, takeHead, a.head.reads]
      dsimp only
      rw [if_neg a.final, a.chunked, kept, length_heads]
    | cons head after ih =>
      intro before h
      obtain ⟨hfirst, hslice⟩ := a.interim_found rest h
      have hinterim : Interim head.status := a.all_interim head (by rw [h]; simp)
      have hstep : (heading w).step (a.heads ++ rest) ⟨headPlace before, headPlace before⟩ =
          .more ⟨headPlace (before ++ [head]), headPlace (before ++ [head])⟩ := by
        rw [heading_step hw (hlooked h), Search.plain, hfirst]
        dsimp only
        rw [hslice, takeHead, head.reads]
        dsimp only
        rw [if_pos hinterim, headPlace_concat]
      rw [Reader.run_more hstep]
      exact ih (before ++ [head]) (by rw [h, append_assoc, singleton_append])
  exact hrun a.interim [] rfl

theorem known_of_headAt (rest : Bytes) {p : ℕ} (h : HeadAt (a.heads ++ rest) p) :
    ∃ before after, a.interim = before ++ after ∧ p = headPlace before := by
  induction h with
  | start => exact ⟨[], a.interim, rfl, rfl⟩
  | interim hp he hhead hinterim ih =>
    obtain ⟨before, after, h, rfl⟩ := ih
    rcases after with _ | ⟨head, after⟩
    · -- the head of the answer is no interim one
      obtain rfl : a.interim = before := by rw [h, append_nil]
      obtain ⟨hfirst, hslice⟩ := a.final_found rest
      obtain rfl := some.inj (hfirst.symm.trans he)
      rw [hslice, a.head.reads] at hhead
      cases hhead
      exact absurd hinterim a.final
    · obtain ⟨hfirst, -⟩ := a.interim_found rest h
      obtain rfl := some.inj (hfirst.symm.trans he)
      refine ⟨before ++ [head], after, ?_, (headPlace_concat before head).symm⟩
      rw [h, append_assoc, singleton_append]

theorem start_of_chunkedAt (rest : Bytes) {start : ℕ} (h : ChunkedAt w (a.heads ++ rest) start) :
    start = a.heads.length := by
  obtain ⟨p, e, status, fields, hp, he, hhead, hfinal, -, rfl⟩ := h
  obtain ⟨before, after, h, rfl⟩ := a.known_of_headAt rest hp
  rcases after with _ | ⟨head, after⟩
  · obtain rfl : a.interim = before := by rw [h, append_nil]
    obtain ⟨hfirst, -⟩ := a.final_found rest
    obtain rfl := some.inj (hfirst.symm.trans he)
    exact a.length_heads.symm
  · obtain ⟨hfirst, hslice⟩ := a.interim_found rest h
    obtain rfl := some.inj (hfirst.symm.trans he)
    rw [hslice, head.reads] at hhead
    cases hhead
    exact absurd (a.all_interim head (by rw [h]; simp)) hfinal

theorem readable (hw : maxBody < 2 ^ w) (hsize : a.encode.length ≤ maxBody) :
    Readable w a.encode := by
  refine ⟨hsize, fun start hstart => ?_⟩
  obtain rfl := a.start_of_chunkedAt a.body hstart
  rw [encode, drop_left]
  refine a.shortLines (lt_of_le_of_lt ?_ hw)
  rw [encode, length_append] at hsize
  omega

/-! ### Starts of the answer -/

variable {a} {raw : Bytes}

theorem run_start (hw : a.body.length < 2 ^ w) (hraw : raw <+: a.body) (hne : raw ≠ a.body) :
    ∃ d : Dechunker, (dechunking w).run raw {} = .wait d ∧ d.done = false := by
  obtain ⟨rest, hrest⟩ := hraw
  have hprefix : raw ++ rest <+: a.body := by rw [hrest]
  have hplaced := Dechunker.placed_start (w := w) ((prefix_append raw rest).trans hprefix)
  have hres := dechunking_resumes hw (a.shortLines hw)
  have hended := dechunking_ended (hplaced.body_le.length_le.trans_lt hw) hplaced.looked
  have hwhole := a.run_body hw
  rcases hrun : (dechunking w).run raw {} with d | _ | e | d
  · rw [hrun] at hended
    exact ⟨d, rfl, hended.2⟩
  · rw [hrun] at hended
    exact hended.elim
  · have hstop := hres.run_stop_append hplaced hprefix hrun
    rw [hrest, hwhole] at hstop
    cases hstop
  · -- the end of the body would stand in this start of it
    have hstop := hres.run_stop_append hplaced hprefix hrun
    rw [hrest, hwhole] at hstop
    obtain rfl := Except.ok.inj (some.inj (Reply.stop.inj hstop))
    rw [hrun] at hended
    have hlength : a.body.length ≤ raw.length := hended.1.pos_le.trans hended.1.le_length
    refine absurd (List.IsPrefix.eq_of_length_le ?_ hlength) hne
    exact ⟨rest, hrest⟩

theorem run_heads_start (hw : a.encode.length < 2 ^ w) (hraw : raw <+: a.encode)
    (hheads : ¬a.heads <+: raw) : ∃ s : Search, (heading w).run raw {} = .wait s := by
  obtain ⟨rest, hrest⟩ := id hraw
  have hprefix : raw ++ rest <+: a.encode := by rw [hrest]
  have hplaced := Search.placed_start hraw
  have hres := heading_resumes hw
  have hended := heading_ended (hraw.length_le.trans_lt hw) hplaced.looked
  have hwhole := a.run_heads a.body hw
  rcases hrun : (heading w).run raw {} with s | _ | e | head
  · exact ⟨s, rfl⟩
  · rw [hrun] at hended
    exact hended.elim
  · have hstop := hres.run_stop_append hplaced hprefix hrun
    rw [hrest] at hstop
    cases hwhole.symm.trans hstop
  · have hstop := hres.run_stop_append hplaced hprefix hrun
    rw [hrest] at hstop
    cases hwhole.symm.trans hstop
    rw [hrun] at hended
    exact absurd (prefix_of_prefix_length_le (prefix_append _ _) hraw hended.1) hheads

/-- **A start of the answer**, pushed at once. -/
theorem push_start_of (hw : maxBody < 2 ^ w) (hsize : a.encode.length ≤ maxBody)
    (hraw : raw <+: a.encode) :
    ∃ x : Http1Answer, ({} : Http1Answer).push w raw = some (.ok (decide (raw = a.encode), x)) ∧
      (raw = a.encode → x.finish = some (.ok (a.head.status, a.head.fields, a.joined))) ∧
      (raw ≠ a.encode → a.heads <+: raw →
        x.finish = some
          (.error (.api "the chunked answer ended before its last chunk".toList))) := by
  have hww : a.encode.length < 2 ^ w := hsize.trans_lt hw
  rw [Koku.Https.push_start (hraw.length_le.trans hsize)]
  by_cases hheads : a.heads <+: raw
  · obtain ⟨body, rfl⟩ := hheads
    have hbody : body <+: a.body := (prefix_append_right_inj a.heads).mp hraw
    have hsame : a.heads ++ body = a.encode ↔ body = a.body := append_right_inj a.heads
    have hstart : a.kept.bodyStart ≤ (a.heads ++ body).length := by
      rw [length_append]
      exact Nat.le_add_right _ _
    have hdrop : (a.heads ++ body).drop a.kept.bodyStart = body := drop_left
    have hwb : a.body.length < 2 ^ w := by
      rw [encode, length_append] at hww
      omega
    rw [a.run_heads body (hraw.length_le.trans_lt hww)]
    dsimp only
    rw [pushBody_eq a.kept hstart, hdrop]
    show ∃ x, (Dechunker.advance w {} body).map _ = _ ∧ _
    by_cases hall : body = a.body
    · have hencode := hsame.mpr hall
      rw [decide_eq_true hencode, hall, Dechunker.advance, a.run_body hwb]
      refine ⟨_, rfl, fun _ => ?_, fun h => absurd (hall ▸ hencode) h⟩
      exact finish_chunked (hall ▸ hstart)
    · obtain ⟨d, hrun, hdone⟩ := run_start hwb hbody hall
      have hencode : a.heads ++ body ≠ a.encode := fun h => hall (hsame.mp h)
      rw [decide_eq_false hencode, Dechunker.advance, hrun]
      refine ⟨_, rfl, fun h => absurd h hencode, fun _ _ => (finish_chunked hstart).trans ?_⟩
      rw [Dechunker.finish, if_neg (by rw [hdone]; exact Bool.false_ne_true)]
      rfl
  · obtain ⟨s, hrun⟩ := run_heads_start hww hraw hheads
    have hne : raw ≠ a.encode := by
      rintro rfl
      exact hheads (prefix_append _ _)
    rw [hrun, decide_eq_false hne]
    exact ⟨_, rfl, fun h => absurd h hne, fun _ h => absurd h hheads⟩

end ChunkedAnswer

/-! ### The answer in pieces -/

theorem eq_of_outcome {r : Option (Except AetherError (Bool × Http1Answer))} {b : Bool}
    {x : Http1Answer} (h : outcome r = outcome (some (.ok (b, x)))) : ∃ y, r = some (.ok (b, y)) ∧
      y.finish = x.finish := by
  rcases r with _ | e | ⟨b', y⟩
  · cases h
  · cases h
  · obtain ⟨rfl, hfinish⟩ := Prod.mk.inj (Except.ok.inj (some.inj h))
    exact ⟨y, rfl, hfinish⟩

/-- **Chunked answers.** Pushed in any pieces, the answer is whole exactly at its last byte, and
`finish` returns the chunks joined; a start of it that ends behind the head is an error. Whatever
the bytes, no sum overflows and no read is out of range. -/
theorem chunks_joined (hw : 32 ≤ w) :
    (∀ (a : ChunkedAnswer w) (pieces : List Bytes), a.encode.length ≤ maxBody →
      pieces.flatten <+: a.encode → ∃ x :
        Http1Answer, feed w {} pieces = some (.ok (decide (pieces.flatten = a.encode), x)) ∧
        (pieces.flatten = a.encode → x.finish = some (.ok (a.head.status, a.head.fields, a.joined)))
        ∧ (pieces.flatten ≠ a.encode → a.heads <+: pieces.flatten →
          x.finish = some (.error (.api "the chunked answer ended before its last chunk".toList))))
            ∧
    ∀ pieces : List Bytes, feed w {} pieces ≠ none ∧ collect w pieces ≠ none := by
  have hmax := maxBody_lt hw
  refine ⟨fun a pieces hsize hpieces => ?_, fun pieces => ?_⟩
  · obtain ⟨x, hpush, hwhole, hcut⟩ := ChunkedAnswer.push_start_of hmax hsize hpieces
    have houtcome := feed_outcome hmax (a.readable hmax hsize) pieces push_nil hpieces
    rw [nil_append, hpush] at houtcome
    obtain ⟨y, hfeed, hfinish⟩ := eq_of_outcome houtcome
    exact ⟨y, hfeed, fun h => hfinish.trans (hwhole h), fun h h' => hfinish.trans (hcut h h')⟩
  · obtain ⟨r, hfeed, -⟩ := feed_reads hmax pieces Http1Answer.fits_start
    obtain ⟨r', hcollect⟩ := collect_reads hmax pieces
    rw [hfeed, hcollect]
    exact ⟨some_ne_none r, some_ne_none r'⟩

/-- An answer behind early hints: one chunk with an extension, and a trailer. -/
def hintedAnswer : ChunkedAnswer 64 where
  interim := [⟨asBytes "HTTP/1.1 103 Early Hints".toList, 103, [], by rfl, by unfold Ends; decide⟩]
  head := ⟨asBytes "HTTP/1.1 200 OK\r\nTransfer-Encoding: chunked".toList, 200,
    [("Transfer-Encoding".toList, "chunked".toList)], by rfl, by unfold Ends; decide⟩
  chunks :=
    [⟨asBytes "hello".toList, ⟨"5".toList, [], some "x=y".toList, by decide, by decide, by simp,
    by simp⟩, by decide⟩]
  last := ⟨"00".toList, [], none, by decide, by decide, by simp, by simp⟩
  trailer :=
    [⟨asBytes "A: b".toList, by decide, (windowPosition_eq_none crlf_ne_nil).mp (by decide)⟩]
  all_interim := by simp [Interim]
  final := by decide
  chunked := by rfl
  short_chunks := by simp; decide
  short_last := by decide
  short_trailer := by simp; decide

theorem hinted_answer_joined : ∃ x :
    Http1Answer, feed 64 {} [hintedAnswer.encode] = some (.ok (true, x)) ∧
    x.finish = some (.ok (200, [("Transfer-Encoding".toList, "chunked".toList)],
      asBytes "hello".toList)) := by
  obtain ⟨x, hfeed, hwhole, -⟩ :=
    (chunks_joined (by decide)).1 hintedAnswer [hintedAnswer.encode] (by decide) (by simp)
  refine ⟨x, ?_, hwhole (by simp)⟩
  rw [hfeed, decide_eq_true (by simp)]

end Koku.Https
