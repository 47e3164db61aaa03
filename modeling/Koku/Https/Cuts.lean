import Koku.Https.Rounds

/-! # Where an answer is cut

The bytes of an answer come in pieces, and both readers go on with what they know. That this does
not show is `Resumes` for each of them (`dechunking_resumes`, `heading_resumes`), and
`cuts_do_not_matter` for the answer. One thing does show, and is excluded (`ShortLines`): a line of
a chunked body that is too long is an error only while its end has not come. -/

namespace Koku.Https

open Rust.Str Rust.Utf8 Rust.Search Machine.Resume List Option

variable {w : ℕ}

/-! ### Nothing is read out of range -/

section Reads

variable {body raw : Bytes} {d : Dechunker} {s : Search}

/-- What holds when the loop over chunks ends. -/
def Dechunker.Ended (body : Bytes) : Reply Dechunker (Option (Except AetherError Dechunker)) → Prop
  | .wait d => Looked crlf body d.pos d.searched ∧ d.done = false
  | .stop none => False
  | .stop (some (.error _)) => True
  | .stop (some (.ok d)) => Looked crlf body d.pos d.searched ∧ d.done = true

theorem dechunking_ended (hw : body.length < 2 ^ w) (hd : Looked crlf body d.pos d.searched) :
    Dechunker.Ended body ((dechunking w).run body d) := by
  refine Reader.run_induction (P := fun d => Looked crlf body d.pos d.searched) ?_ ?_ ?_ hd
  · intro d d' hd h
    rw [dechunking_step hw hd] at h
    exact Dechunker.looked_more h
  · intro d d' hd h
    rw [dechunking_step hw hd] at h
    refine ⟨Dechunker.looked_wait hd h, ?_⟩
    obtain ⟨hdone, ⟨_, -, -, -, rfl⟩ | ⟨-, -, rfl⟩⟩ := Dechunker.plain_wait h
    · exact hdone
    · exact hdone
  · intro d x hd h
    rw [dechunking_step hw hd] at h
    rcases Dechunker.plain_done h with ⟨hdone, rfl⟩ | ⟨e, rfl⟩
    · exact ⟨hd, hdone⟩
    · trivial

theorem framing_chunked {status : ℕ} {fields : List (Text × Text)} {f : Dechunker}
    (h : framing w status fields = .ok (.chunked f)) : f = {} := by
  unfold framing at h
  split_ifs at h
  · cases h
  · cases h
    rfl
  · split at h
    · split at h
      · cases h
      · cases h
    · cases h

/-- What holds when the search for a head ends. -/
def Search.Ended (raw : Bytes) : Reply Search (Option (Except AetherError Http1Head)) → Prop
  | .wait s => Looked crlfcrlf raw s.headStart s.searched
  | .stop none => False
  | .stop (some (.error _)) => True
  | .stop (some (.ok head)) => head.bodyStart ≤ raw.length ∧ ∀ f, head.framing = .chunked f → f = {}

theorem heading_ended (hw : raw.length < 2 ^ w) (hs : Looked crlfcrlf raw s.headStart s.searched) :
    Search.Ended raw ((heading w).run raw s) := by
  refine Reader.run_induction (P := fun s => Looked crlfcrlf raw s.headStart s.searched) ?_ ?_ ?_ hs
  · intro s s' hs h
    rw [heading_step hw hs] at h
    exact Search.looked_more h
  · intro s s' hs h
    rw [heading_step hw hs] at h
    exact Search.looked_wait hs h
  · intro s y hs h
    rw [heading_step hw hs] at h
    obtain ⟨e, he, hhead⟩ := Search.plain_stop h
    obtain ⟨e', rfl⟩ | ⟨head, rfl, hnext, -, -, hframing⟩ := takeHead_stop hhead
    · trivial
    · refine ⟨hnext.trans_le (first_bound crlfcrlf_ne_nil he), fun f hf => ?_⟩
      rw [hf] at hframing
      exact framing_chunked hframing

end Reads

/-! ### What stands where -/

/-- What the reader looks for. -/
inductive Piece
  | size
  | data (n : ℕ)
  | trailer

/-- What stands at a position of a chunked body: a chunk size, the data of a chunk, or a line of the
trailer. -/
inductive Expected (w : ℕ) (body : Bytes) : ℕ → Piece → Prop
  | start : Expected w body 0 .size
  | size {p e n : ℕ} (hp : Expected w body p .size) (he : first crlf body p = some e)
      (hn : chunkSize w ((body.take e).drop p) = some n) (hne : n ≠ 0) :
        Expected w body (e + 2) (.data n)
  | data {p n : ℕ} (hp : Expected w body p (.data n)) (h : Occurs crlf body (p + n)) :
      Expected w body (p + n + 2) .size
  | last {p e : ℕ} (hp : Expected w body p .size) (he : first crlf body p = some e)
      (hn : chunkSize w ((body.take e).drop p) = some 0) : Expected w body (e + 2) .trailer
  | field {p e : ℕ} (hp : Expected w body p .trailer) (he : first crlf body p = some e)
      (hne : p ≠ e) :
      Expected w body (e + 2) .trailer

/-- No chunk-size or trailer line of a body reaches `MAX_LINE`. -/
def ShortLines (w : ℕ) (body : Bytes) : Prop :=
  ∀ p piece e, Expected w body p piece → (∀ n, piece ≠ .data n) → first crlf body p = some e →
    e - p < maxLine

/-- A head starts at this position of an answer: at its start, or behind an interim answer. -/
inductive HeadAt (raw : Bytes) : ℕ → Prop
  | start : HeadAt raw 0
  | interim {p e status : ℕ} {fields : List (Text × Text)} (hp : HeadAt raw p)
      (he : first crlfcrlf raw p = some e)
      (hhead : http1Head ((raw.take e).drop p) = .ok (status, fields)) (hinterim : Interim status) :
        HeadAt raw (e + 4)

/-- The head of the answer says that a chunked body follows, which starts at this position. -/
def ChunkedAt (w : ℕ) (raw : Bytes) (start : ℕ) : Prop :=
  ∃ p e status fields, HeadAt raw p ∧ first crlfcrlf raw p = some e ∧
    http1Head ((raw.take e).drop p) = .ok (status, fields) ∧ ¬Interim status ∧
    framing w status fields = .ok (.chunked {}) ∧ start = e + 4

/-! ### The dechunker resumes -/

section Dechunking

variable {whole body extra : Bytes} {d d' : Dechunker}

def Dechunker.piece (d : Dechunker) : Piece :=
  match d.data with
  | some size => .data size
  | none => if d.trailer then .trailer else .size

/-- On a start of a whole body: what is remembered is right, and the place is one of the whole. -/
structure Dechunker.Placed (w : ℕ) (whole body : Bytes) (d : Dechunker) : Prop where
  looked : Looked crlf body d.pos d.searched
  body_le : body <+: whole
  data : d.data = none ∨ d.trailer = false
  expected : d.done = true ∨ Expected w whole d.pos d.piece

theorem first_prefixed {pat l m : Bytes} {start e : ℕ} (hpat : pat ≠ []) (hl : l <+: m)
    (h : first pat l start = some e) : first pat m start = some e := by
  obtain ⟨rest, rfl⟩ := hl
  exact first_append hpat h

theorem take_drop_prefixed {l m : Bytes} {start e : ℕ} (hl : l <+: m) (he : e ≤ l.length) :
    (m.take e).drop start = (l.take e).drop start := by
  obtain ⟨rest, rfl⟩ := hl
  rw [take_append_of_le_length he]

theorem Dechunker.Placed.more (hd : d.Placed w whole body) (h : d.plain w body = .more d') :
    d'.Placed w whole body := by
  obtain ⟨hdone, hcases⟩ := plain_more h
  have hexpected := hd.expected.resolve_left (by rw [hdone]; exact Bool.false_ne_true)
  rcases hcases with ⟨size, hdata, -, hlen, hocc, rfl⟩ | ⟨hdata, e, he, hline⟩
  · -- behind a chunk, the size of the next one
    have htrailer : d.trailer = false :=
      hd.data.resolve_left (by rw [hdata]; exact some_ne_none size)
    rw [Dechunker.piece, hdata] at hexpected
    obtain ⟨rest, rfl⟩ := hd.body_le
    refine ⟨looked_more h, hd.body_le, .inl rfl, .inr ?_⟩
    rw [Dechunker.piece, htrailer]
    exact .data hexpected (hocc.append crlf_ne_nil)
  · have hbound : e + 2 ≤ body.length := first_bound crlf_ne_nil he
    have hwhole := first_prefixed crlf_ne_nil hd.body_le he
    rw [← take_drop_prefixed hd.body_le (by omega)] at hline
    rcases takeLine_more hline with
      ⟨htrailer, rfl⟩ | ⟨htrailer, ⟨hsize, rfl⟩ | ⟨size, hsize, hne, rfl⟩⟩
    · -- a field of the trailer, or its end
      rw [Dechunker.piece, hdata, htrailer] at hexpected
      refine ⟨looked_more h, hd.body_le, .inl hdata, ?_⟩
      by_cases hempty : (whole.take e).drop d.pos = []
      · exact .inl (decide_eq_true hempty)
      · refine .inr ?_
        rw [Dechunker.piece, hdata, htrailer]
        refine .field hexpected hwhole fun hpe => hempty ?_
        rw [hpe]
        exact drop_eq_nil_of_le (length_take_le e whole)
    · rw [Dechunker.piece, hdata, htrailer] at hexpected
      refine ⟨looked_more h, hd.body_le, .inl hdata, .inr ?_⟩
      rw [Dechunker.piece, hdata]
      exact .last hexpected hwhole hsize
    · rw [Dechunker.piece, hdata, htrailer] at hexpected
      exact ⟨looked_more h, hd.body_le, .inr htrailer, .inr (.size hexpected hwhole hsize hne)⟩

theorem Dechunker.Placed.wait (hd : d.Placed w whole body) (h : d.plain w body = .wait d') :
    d'.Placed w whole body := by
  have hlooked := looked_wait hd.looked h
  obtain ⟨-, ⟨size, -, -, -, rfl⟩ | ⟨-, -, rfl⟩⟩ := plain_wait h
  · exact hd
  · exact ⟨hlooked, hd.body_le, hd.data, hd.expected⟩

theorem Dechunker.plain_of_data {size : ℕ} (hdone : d.done = false) (hdata : d.data = some size) :
    d.plain w body = d.plainData w body size := by
  rw [Dechunker.plain, if_neg (by rw [hdone]; exact Bool.false_ne_true), hdata]

theorem Dechunker.plain_of_line (hdone : d.done = false) (hdata : d.data = none) :
    d.plain w body = d.plainLine w body := by
  rw [Dechunker.plain, if_neg (by rw [hdone]; exact Bool.false_ne_true), hdata]

theorem Dechunker.plainLine_found {e : ℕ} (h : first crlf body d.pos = some e) :
    d.plainLine w body = d.takeLine w ((body.take e).drop d.pos) (e + 2) := by
  rw [Dechunker.plainLine, h]

theorem Dechunker.plain_more_append (h : d.plain w body = .more d') :
    d.plain w (body ++ extra) = .more d' := by
  obtain ⟨hdone, ⟨size, hdata, hfits, hlen, hocc, rfl⟩ | ⟨hdata, e, he, hline⟩⟩ := plain_more h
  · have hlen' : ¬(body ++ extra).length < d.pos + size + 2 := by
      rw [length_append]
      omega
    rw [plain_of_data hdone hdata, plainData, if_neg (by omega), if_neg hlen',
      if_pos (hocc.append crlf_ne_nil), take_append_of_le_length (by omega)]
  · have hbound : e + 2 ≤ body.length := first_bound crlf_ne_nil he
    rw [plain_of_line hdone hdata, plainLine_found (first_append crlf_ne_nil he),
      take_append_of_le_length (by omega), hline]

theorem Dechunker.plain_wait_append (h : d.plain w body = .wait d') (longer : Bytes) :
    d'.plain w longer = d.plain w longer := by
  obtain ⟨hdone, ⟨size, -, -, -, rfl⟩ | ⟨hdata, -, rfl⟩⟩ := plain_wait h
  · rfl
  · rw [plain_of_line hdone hdata, plain_of_line (d := { d with searched := body.length }) hdone
      hdata]
    rfl

theorem Dechunker.plain_stop_append {x : Option (Except AetherError Dechunker)}
    (hshort : ShortLines w whole) (hd : d.Placed w whole body) (hb : body ++ extra <+: whole)
    (h : d.plain w body = .stop x) : d.plain w (body ++ extra) = .stop x := by
  rcases plain_stop h with ⟨hdone, rfl⟩ | ⟨hdone, hcases⟩
  · rw [Dechunker.plain, if_pos hdone]
  rcases hcases with ⟨size, hdata, hbig, rfl⟩ | ⟨size, hdata, hfits, hlen, hocc, rfl⟩ | ⟨hdata,
    hnone, hlong, rfl⟩ |
    ⟨hdata, e, he, hline⟩
  · rw [plain_of_data hdone hdata, plainData, if_pos hbig]
  · have hlen' : ¬(body ++ extra).length < d.pos + size + 2 := by
      rw [length_append]
      omega
    rw [plain_of_data hdone hdata, plainData, if_neg (by omega), if_neg hlen',
      if_neg fun h => hocc (h.of_append hlen)]
  · -- the end of a line that is already too long would make it one of the whole
    have hnone' : first crlf (body ++ extra) d.pos = none := by
      rw [eq_none_iff_forall_ne_some]
      intro e he
      have hlate : body.length < e + 2 := first_append_late crlf_ne_nil hnone he
      have hline := hd.expected.resolve_left (by rw [hdone]; exact Bool.false_ne_true)
      have hpiece : ∀ n, d.piece ≠ .data n := by
        intro n
        rw [Dechunker.piece, hdata]
        split_ifs
        · exact nofun
        · exact nofun
      have := hshort d.pos d.piece e hline hpiece (first_prefixed crlf_ne_nil hb he)
      omega
    have hlong' : maxLine < (body ++ extra).length - d.pos := by
      rw [length_append]
      omega
    rw [plain_of_line hdone hdata, plainLine, hnone']
    exact if_pos hlong'
  · have hbound : e + 2 ≤ body.length := first_bound crlf_ne_nil he
    rw [plain_of_line hdone hdata, plainLine_found (first_append crlf_ne_nil he),
      take_append_of_le_length (by omega), hline]

/-- **The dechunker does not see where its body is cut**, if no line of the whole is too long. -/
theorem dechunking_resumes (hw : whole.length < 2 ^ w) (hshort : ShortLines w whole) :
    Resumes (dechunking w) whole (Dechunker.Placed w whole) := by
  have hplain : ∀ {b d}, Dechunker.Placed w whole b d → (dechunking w).step b d = d.plain w b :=
    fun hd =>
    dechunking_step (hd.body_le.length_le.trans_lt hw) hd.looked
  have hgrow : ∀ {b c d}, Dechunker.Placed w whole b d → b ++ c <+: whole →
      Dechunker.Placed w whole (b ++ c) d :=
    fun hd hb => ⟨hd.looked.append, hb, hd.data, hd.expected⟩
  refine ⟨hgrow, fun hd h => ?_, fun hd h => ?_, fun hd hb h => ?_, fun hd hb h => ?_,
    fun hd hb h => ?_⟩
  · exact hd.more ((hplain hd).symm.trans h)
  · exact hd.wait ((hplain hd).symm.trans h)
  · rw [hplain (hgrow hd hb)]
    exact Dechunker.plain_more_append ((hplain hd).symm.trans h)
  · have hwait := (hplain hd).symm.trans h
    rw [hplain (hgrow hd hb), hplain (hgrow (hd.wait hwait) hb)]
    exact Dechunker.plain_wait_append hwait _
  · rw [hplain (hgrow hd hb)]
    exact Dechunker.plain_stop_append hshort hd hb ((hplain hd).symm.trans h)

end Dechunking

/-! ### The search for the head resumes -/

section Heading

variable {whole raw extra : Bytes} {s s' : Search} {y : Option (Except AetherError Http1Head)}

/-- On a start of a whole answer: what is remembered is right, and the head starts where one of the
whole does. -/
structure Search.Placed (whole raw : Bytes) (s : Search) : Prop where
  looked : Looked crlfcrlf raw s.headStart s.searched
  raw_le : raw <+: whole
  head : HeadAt whole s.headStart

theorem Search.Placed.more (hs : s.Placed whole raw) (h : s.plain w raw = .more s') :
    s'.Placed whole raw := by
  have hlooked := looked_more h
  obtain ⟨e, he, hhead⟩ := plain_more h
  have hbound : e + 4 ≤ raw.length := first_bound crlfcrlf_ne_nil he
  rw [← take_drop_prefixed hs.raw_le (by omega)] at hhead
  obtain ⟨status, fields, hread, hinterim⟩ := takeHead_more hhead
  obtain rfl := eq_of_takeHead hhead
  exact ⟨hlooked, hs.raw_le, .interim hs.head (first_prefixed crlfcrlf_ne_nil hs.raw_le he) hread
    hinterim⟩

theorem Search.plain_append {e : ℕ} (he : first crlfcrlf raw s.headStart = some e) :
    s.plain w (raw ++ extra) = s.plain w raw := by
  have hbound : e + 4 ≤ raw.length := first_bound crlfcrlf_ne_nil he
  rw [Search.plain, Search.plain, first_append crlfcrlf_ne_nil he, he]
  dsimp only
  rw [take_append_of_le_length (by omega)]

/-- **The search for the head does not see where the answer is cut.** -/
theorem heading_resumes (hw : whole.length < 2 ^ w) :
    Resumes (heading w) whole (Search.Placed whole) := by
  have hplain : ∀ {b s}, Search.Placed whole b s → (heading w).step b s = s.plain w b := fun hs =>
    heading_step (hs.raw_le.length_le.trans_lt hw) hs.looked
  have hgrow : ∀ {b c s}, Search.Placed whole b s → b ++ c <+: whole →
      Search.Placed whole (b ++ c) s :=
    fun hs hb => ⟨hs.looked.append, hb, hs.head⟩
  have hwait : ∀ {b s s'}, Search.Placed whole b s → s.plain w b = .wait s' →
      Search.Placed whole b s' := by
    intro b s s' hs h
    have hlooked := Search.looked_wait hs.looked h
    obtain ⟨-, rfl⟩ := Search.plain_wait h
    exact ⟨hlooked, hs.raw_le, hs.head⟩
  refine ⟨hgrow, fun hs h => ?_, fun hs h => ?_, fun hs hb h => ?_, fun hs hb h => ?_,
    fun hs hb h => ?_⟩
  · exact hs.more ((hplain hs).symm.trans h)
  · exact hwait hs ((hplain hs).symm.trans h)
  · have hmore := (hplain hs).symm.trans h
    obtain ⟨e, he, -⟩ := Search.plain_more hmore
    rw [hplain (hgrow hs hb), Search.plain_append he, hmore]
  · have h' := (hplain hs).symm.trans h
    rw [hplain (hgrow hs hb), hplain (hgrow (hwait hs h') hb)]
    obtain ⟨-, rfl⟩ := Search.plain_wait h'
    rfl
  · have hstop := (hplain hs).symm.trans h
    obtain ⟨e, he, -⟩ := Search.plain_stop hstop
    rw [hplain (hgrow hs hb), Search.plain_append he, hstop]

end Heading

/-! ### Answers -/

section Pushes

variable {whole raw extra : Bytes} {head : Http1Head}

/-- An answer that is not too large, with no line of a chunked body that is too long. -/
structure Readable (w : ℕ) (whole : Bytes) : Prop where
  fits : whole.length ≤ maxBody
  lines : ∀ start, ChunkedAt w whole start → ShortLines w (whole.drop start)

theorem Search.placed_start (h : raw <+: whole) : ({} : Search).Placed whole raw :=
  ⟨Looked.start crlfcrlf_ne_nil (Nat.zero_le _), h, .start⟩

theorem Dechunker.placed_start (h : raw <+: whole) : ({} : Dechunker).Placed w whole raw :=
  ⟨Looked.start crlf_ne_nil (Nat.zero_le _), h, .inl rfl, .inr .start⟩

/-- If a head was found in a start of the whole, it is that of the whole. -/
def Search.Found (w : ℕ) (whole raw : Bytes) :
    Reply Search (Option (Except AetherError Http1Head)) → Prop
  | .stop (some (.ok head)) => head.bodyStart ≤ raw.length ∧
      ∀ f, head.framing = .chunked f → f = {} ∧ ChunkedAt w whole head.bodyStart
  | _ => True

theorem heading_found (hw : whole.length < 2 ^ w) (hraw : raw <+: whole) :
    Search.Found w whole raw ((heading w).run raw {}) := by
  refine Reader.run_induction (P := Search.Placed whole raw) ?_ ?_ ?_ (Search.placed_start hraw)
  · intro s s' hs hstep
    exact (heading_resumes hw).more hs hstep
  · intro s s' hs hstep
    trivial
  · intro s y hs hstep
    rw [heading_step (hraw.length_le.trans_lt hw) hs.looked] at hstep
    obtain ⟨e, he, hhead⟩ := Search.plain_stop hstep
    have hbound : e + 4 ≤ raw.length := first_bound crlfcrlf_ne_nil he
    rw [← take_drop_prefixed hraw (by omega)] at hhead
    obtain ⟨e', rfl⟩ | ⟨head, rfl, hnext, hread, hfinal, hframing⟩ := takeHead_stop hhead
    · trivial
    · refine ⟨hnext.trans_le hbound, fun f hf => ?_⟩
      rw [hf] at hframing
      obtain rfl := framing_chunked hframing
      exact ⟨rfl, s.headStart, e, _, _, hs.head, first_prefixed crlfcrlf_ne_nil hraw he, hread,
        hfinal, hframing, hnext⟩

/-- More bytes give what all bytes at once give. -/
def Carried (w : ℕ) (extra : Bytes) (same : Option (Except AetherError (Bool × Http1Answer))) :
    Option (Except AetherError (Bool × Http1Answer)) → Prop
  | none => False
  | some (.error e) => same = some (.error e)
  | some (.ok (false, a)) => a.push w extra = same
  | some (.ok (true, a)) => ∃ a', same = some (.ok (true, a')) ∧ a'.finish = a.finish

theorem pushBody_eq (head : Http1Head) (h : head.bodyStart ≤ raw.length) :
    Http1Answer.pushBody w raw head = match head.framing with
    | .length length => some (.ok (length ≤ (raw.drop head.bodyStart).length, ⟨raw, .body head⟩))
    | .chunked dechunker =>
      (dechunker.advance w (raw.drop head.bodyStart)).map fun r => r.map fun p =>
        (p.1, ⟨raw, .body { head with framing := .chunked p.2 }⟩)
    | .close => some (.ok (false, ⟨raw, .body head⟩)) := by
  rw [Http1Answer.pushBody, rangeFrom_eq_some.mpr ⟨h, rfl⟩, bind_eq_bind, bind_some]
  rcases head.framing with length | dechunker | _
  · rfl
  · dsimp only
    rcases dechunker.advance w (raw.drop head.bodyStart) with _ | e | ⟨b, d⟩
    · rfl
    · rfl
    · rfl
  · rfl

theorem push_body (h : (raw ++ extra).length ≤ maxBody) :
    (⟨raw, .body head⟩ : Http1Answer).push w extra = Http1Answer.pushBody w (raw ++ extra) head :=
  if_neg (Nat.not_lt.mpr h)

theorem finish_length {length : ℕ} (hstart : head.bodyStart ≤ raw.length)
    (hframing : head.framing = .length length)
    (hlength : length ≤ (raw.drop head.bodyStart).length) :
    (⟨raw, .body head⟩ : Http1Answer).finish =
      some (.ok (head.status, head.fields, (raw.drop head.bodyStart).take length)) := by
  have hrange :
      range (raw.drop head.bodyStart) 0 length = some ((raw.drop head.bodyStart).take length) :=
    range_eq_some.mpr ⟨Nat.zero_le _, hlength, rfl⟩
  unfold Http1Answer.finish
  dsimp only
  rw [rangeFrom_eq_some.mpr ⟨hstart, rfl⟩, bind_eq_bind, bind_some, hframing]
  dsimp only
  rw [if_neg (Nat.not_lt.mpr hlength), hrange]
  rfl

theorem finish_chunked {d : Dechunker} (hstart : head.bodyStart ≤ raw.length) :
    (⟨raw, .body { head with framing := .chunked d }⟩ : Http1Answer).finish =
      some (d.finish.map fun body => (head.status, head.fields, body)) := by
  unfold Http1Answer.finish
  dsimp only
  rw [rangeFrom_eq_some.mpr ⟨hstart, rfl⟩]
  rfl

theorem pushBody_append (hw : whole.length < 2 ^ w) (hsize : whole.length ≤ maxBody)
    (hb : raw ++ extra <+: whole) (hstart : head.bodyStart ≤ raw.length)
    (hlines : ∀ f, head.framing = .chunked f → f = {} ∧ ShortLines w (whole.drop head.bodyStart)) :
    Carried w extra (Http1Answer.pushBody w (raw ++ extra) head)
      (Http1Answer.pushBody w raw head) := by
  have hstart' : head.bodyStart ≤ (raw ++ extra).length := by
    rw [length_append]
    omega
  have hpush : ∀ h :
      Http1Head, (⟨raw, .body h⟩ : Http1Answer).push w extra =
      Http1Answer.pushBody w (raw ++ extra) h :=
    fun h => push_body (hb.length_le.trans hsize)
  have hdrop : (raw ++ extra).drop head.bodyStart = raw.drop head.bodyStart ++ extra :=
    drop_append_of_le_length hstart
  rcases hf : head.framing with length | f | _
  · by_cases hdone : length ≤ (raw.drop head.bodyStart).length
    · have hdone' : length ≤ ((raw ++ extra).drop head.bodyStart).length := by
        rw [hdrop, length_append]
        omega
      rw [pushBody_eq head hstart, pushBody_eq head hstart', hf]
      dsimp only
      rw [decide_eq_true hdone, decide_eq_true hdone']
      refine ⟨_, rfl, ?_⟩
      rw [finish_length hstart' hf hdone', finish_length hstart hf hdone, hdrop,
        take_append_of_le_length hdone]
    · rw [pushBody_eq head hstart, hf]
      dsimp only
      rw [decide_eq_false hdone]
      exact hpush head
  · obtain ⟨rfl, hshort⟩ := hlines f hf
    have hprefix : raw.drop head.bodyStart ++ extra <+: whole.drop head.bodyStart :=
      hdrop ▸ hb.drop head.bodyStart
    have hw' : (whole.drop head.bodyStart).length < 2 ^ w := by
      rw [length_drop]
      omega
    have hres := dechunking_resumes hw' hshort
    have hplaced := Dechunker.placed_start (w := w) ((prefix_append _ _).trans hprefix)
    have hended := dechunking_ended ((hplaced.body_le.length_le).trans_lt hw') hplaced.looked
    rw [pushBody_eq head hstart, hf]
    dsimp only
    rcases hrun : (dechunking w).run (raw.drop head.bodyStart) {} with d | _ | e | d
    · have hsame := hres.run_wait_append hplaced hprefix hrun
      have hadvance : d.advance w (raw.drop head.bodyStart ++ extra) =
          Dechunker.advance w {} (raw.drop head.bodyStart ++ extra) := by
        rw [Dechunker.advance, Dechunker.advance, hsame]
      rw [Dechunker.advance, hrun]
      show Http1Answer.push w ⟨raw, .body { head with framing := .chunked d }⟩ extra = _
      rw [hpush, pushBody_eq { head with framing := .chunked d } hstart',
        pushBody_eq head hstart', hf]
      dsimp only
      rw [hdrop, hadvance]
    · rw [hrun] at hended
      exact hended.elim
    · have hsame := hres.run_stop_append hplaced hprefix hrun
      rw [Dechunker.advance, hrun, pushBody_eq head hstart', hf]
      dsimp only
      rw [hdrop, Dechunker.advance, hsame]
      rfl
    · have hsame := hres.run_stop_append hplaced hprefix hrun
      rw [Dechunker.advance, hrun, pushBody_eq head hstart', hf]
      dsimp only
      rw [hdrop, Dechunker.advance, hsame]
      exact ⟨_, rfl, (finish_chunked hstart').trans (finish_chunked hstart).symm⟩
  · rw [pushBody_eq head hstart, hf]
    exact hpush head

theorem push_start (h : raw.length ≤ maxBody) : ({} : Http1Answer).push w raw =
    match (heading w).run raw {} with
    | .wait search => some (.ok (false, ⟨raw, .searching search⟩))
    | .stop none => none
    | .stop (some (.error e)) => some (.error e)
    | .stop (some (.ok head)) => Http1Answer.pushBody w raw head :=
  if_neg (Nat.not_lt.mpr h)

/-- **More bytes**: a push that was not whole goes on as if all bytes had come at once; any other
stays as it was. -/
theorem push_append (hw : maxBody < 2 ^ w) (hr : Readable w whole) (hb : raw ++ extra <+: whole) :
    Carried w extra (({} : Http1Answer).push w (raw ++ extra)) (({} : Http1Answer).push w raw) := by
  have hlen : (raw ++ extra).length ≤ maxBody := hb.length_le.trans hr.fits
  have hraw : raw <+: whole := (prefix_append _ _).trans hb
  have hww : whole.length < 2 ^ w := hr.fits.trans_lt hw
  have hres := heading_resumes hww
  have hplaced := Search.placed_start hraw
  have hended := heading_ended (hraw.length_le.trans_lt hww) hplaced.looked
  have hfound := heading_found hww hraw
  rw [push_start hlen, push_start (hraw.length_le.trans hr.fits)]
  rcases hrun : (heading w).run raw {} with s | _ | e | head
  · show Http1Answer.push w ⟨raw, .searching s⟩ extra = _
    rw [← hres.run_wait_append hplaced hb hrun]
    exact if_neg (Nat.not_lt.mpr hlen)
  · rw [hrun] at hended
    exact hended.elim
  · rw [hres.run_stop_append hplaced hb hrun]
    rfl
  · rw [hrun] at hfound
    rw [hres.run_stop_append hplaced hb hrun]
    refine pushBody_append hww hr.fits hb hfound.1 fun f hf => ?_
    obtain ⟨rfl, hchunked⟩ := hfound.2 f hf
    exact ⟨rfl, hr.lines _ hchunked⟩

/-- What shows of a push: an error, or whether the answer is whole and what is made of it. -/
def outcome (r : Option (Except AetherError (Bool × Http1Answer))) :
    Option (Except AetherError (Bool × Option (Except AetherError Response))) :=
  r.map fun x => x.map fun p => (p.1, p.2.finish)

variable {a : Http1Answer}

theorem feed_outcome (hw : maxBody < 2 ^ w) (hr : Readable w whole) (pieces : List Bytes)
    (ha : ({} : Http1Answer).push w raw = some (.ok (false, a)))
    (hb : raw ++ pieces.flatten <+: whole) :
    outcome (feed w a pieces) = outcome (({} : Http1Answer).push w (raw ++ pieces.flatten)) := by
  induction pieces generalizing raw a with
  | nil =>
    rw [flatten_nil, append_nil, ha]
    rfl
  | cons piece pieces ih =>
    rw [flatten_cons, ← append_assoc] at hb ⊢
    have hfirst := push_append hw hr ((prefix_append _ _).trans hb)
    have hrest := push_append hw hr hb
    rw [ha] at hfirst
    have hpush : a.push w piece = ({} : Http1Answer).push w (raw ++ piece) := hfirst
    rw [feed, hpush]
    rcases hstart : ({} : Http1Answer).push w (raw ++ piece) with _ | e | ⟨_ | _, a'⟩
    · rw [hstart] at hrest
      exact hrest.elim
    · rw [hstart] at hrest
      rw [show ({} : Http1Answer).push w (raw ++ piece ++ pieces.flatten) = some (.error e) from
        hrest]
      rfl
    · exact ih hstart hb
    · rw [hstart] at hrest
      obtain ⟨a'', hwhole, hfinish⟩ := hrest
      rw [hwhole]
      show some (Except.ok (true, a'.finish)) = some (Except.ok (true, a''.finish))
      rw [hfinish]

theorem push_nil : ({} : Http1Answer).push w [] = some (.ok (false, {})) := by
  have hlooked : Looked crlfcrlf [] 0 0 := Looked.start crlfcrlf_ne_nil le_rfl
  have hstep : (heading w).step [] {} = .wait {} := by
    rw [heading_step (Nat.two_pow_pos w) hlooked]
    rfl
  rw [push_start (Nat.zero_le _), Reader.run_wait hstep]

theorem collect_eq (pieces : List Bytes) :
    collect w pieces = (outcome (feed w {} pieces)).bind fun x =>
    match x with
    | .error e => some (.error e)
    | .ok p => p.2 := by
  rw [collect]
  rcases feed w {} pieces with _ | e | ⟨b, a⟩
  · rfl
  · rfl
  · rfl

/-! ### No overflow and no range out of bounds -/

/-- What holds of an answer between two reads. -/
def Http1Answer.Fits (a : Http1Answer) : Prop :=
  a.raw.length ≤ maxBody ∧ match a.stage with
    | .searching s => Looked crlfcrlf a.raw s.headStart s.searched
    | .body head => head.bodyStart ≤ a.raw.length ∧
        ∀ d, head.framing = .chunked d → Looked crlf (a.raw.drop head.bodyStart) d.pos d.searched

theorem Http1Answer.fits_start : ({} : Http1Answer).Fits :=
  ⟨Nat.zero_le _, Looked.start crlfcrlf_ne_nil le_rfl⟩

theorem pushBody_reads (hw : maxBody < 2 ^ w) (hlen : raw.length ≤ maxBody)
    (hstart : head.bodyStart ≤ raw.length) (hd : ∀ d, head.framing = .chunked d →
      Looked crlf (raw.drop head.bodyStart) d.pos d.searched) :
    ∃ r, Http1Answer.pushBody w raw head = some r ∧ ∀ b a, r = .ok (b, a) → a.Fits := by
  rw [pushBody_eq head hstart]
  rcases hf : head.framing with length | d | _
  · refine ⟨_, rfl, fun b a h => ?_⟩
    cases h
    exact ⟨hlen, hstart, fun d hd' => nomatch hf.symm.trans hd'⟩
  · have hbody : (raw.drop head.bodyStart).length < 2 ^ w := by
      rw [length_drop]
      omega
    have hended := dechunking_ended hbody (hd d hf)
    dsimp only
    unfold Dechunker.advance
    rcases hrun : (dechunking w).run (raw.drop head.bodyStart) d with d' | _ | e | d'
    · rw [hrun] at hended
      refine ⟨_, rfl, fun b a h => ?_⟩
      cases h
      refine ⟨hlen, hstart, fun f hf' => ?_⟩
      cases hf'
      exact hended.1
    · rw [hrun] at hended
      exact hended.elim
    · exact ⟨_, rfl, fun b a h => nomatch h⟩
    · rw [hrun] at hended
      refine ⟨_, rfl, fun b a h => ?_⟩
      cases h
      refine ⟨hlen, hstart, fun f hf' => ?_⟩
      cases hf'
      exact hended.1
  · refine ⟨_, rfl, fun b a h => ?_⟩
    cases h
    exact ⟨hlen, hstart, fun d hd' => nomatch hf.symm.trans hd'⟩

/-- **A push of any bytes** has no overflow and no range out of bounds, and leaves an answer of
which that is true again. -/
theorem push_reads (hw : maxBody < 2 ^ w) (ha : a.Fits) (bytes : Bytes) :
    ∃ r, a.push w bytes = some r ∧ ∀ b a', r = .ok (b, a') → a'.Fits := by
  obtain ⟨raw, stage⟩ := a
  obtain ⟨-, hstage⟩ := ha
  unfold Http1Answer.push
  dsimp only
  by_cases hlen : maxBody < (raw ++ bytes).length
  · rw [if_pos hlen]
    exact ⟨_, rfl, fun b a h => nomatch h⟩
  have hlen := Nat.le_of_not_lt hlen
  rw [if_neg (Nat.not_lt.mpr hlen)]
  rcases stage with s | head
  · have hlooked : Looked crlfcrlf (raw ++ bytes) s.headStart s.searched := Looked.append hstage
    have hended := heading_ended (hlen.trans_lt hw) hlooked
    dsimp only
    rcases hrun : (heading w).run (raw ++ bytes) s with s' | _ | e | head
    · rw [hrun] at hended
      refine ⟨_, rfl, fun b a h => ?_⟩
      cases h
      exact ⟨hlen, hended⟩
    · rw [hrun] at hended
      exact hended.elim
    · exact ⟨_, rfl, fun b a h => nomatch h⟩
    · rw [hrun] at hended
      refine pushBody_reads hw hlen hended.1 fun d hd => ?_
      rw [hended.2 d hd]
      exact Looked.start crlf_ne_nil (Nat.zero_le _)
  · obtain ⟨hstart, hd⟩ := hstage
    dsimp only at hstart hd ⊢
    have hstart' : head.bodyStart ≤ (raw ++ bytes).length := by
      rw [length_append]
      omega
    refine pushBody_reads hw hlen hstart' fun d hf => ?_
    rw [drop_append_of_le_length hstart]
    exact (hd d hf).append

theorem feed_reads (hw : maxBody < 2 ^ w) (pieces : List Bytes) (ha : a.Fits) :
    ∃ r, feed w a pieces = some r ∧ ∀ b a', r = .ok (b, a') → a'.Fits := by
  induction pieces generalizing a with
  | nil =>
    refine ⟨_, rfl, fun b a' h => ?_⟩
    cases h
    exact ha
  | cons piece pieces ih =>
    obtain ⟨r, hr, hfits⟩ := push_reads hw ha piece
    rw [feed, hr]
    rcases r with e | ⟨_ | _, a'⟩
    · exact ⟨_, rfl, fun b a h => nomatch h⟩
    · exact ih (hfits _ _ rfl)
    · refine ⟨_, rfl, fun b a h => ?_⟩
      cases h
      exact hfits _ _ rfl

theorem finish_reads (ha : a.Fits) : ∃ r, a.finish = some r := by
  obtain ⟨raw, s | head⟩ := a
  · exact ⟨_, rfl⟩
  · obtain ⟨-, hstart, -⟩ := ha
    unfold Http1Answer.finish
    dsimp only at hstart ⊢
    rw [rangeFrom_eq_some.mpr ⟨hstart, rfl⟩, bind_eq_bind, bind_some]
    rcases head.framing with length | d | _
    · dsimp only
      split_ifs with hlen
      · exact ⟨_, rfl⟩
      · rw [range_eq_some.mpr ⟨Nat.zero_le _, Nat.le_of_not_lt hlen, rfl⟩]
        exact ⟨_, rfl⟩
    · exact ⟨_, rfl⟩
    · exact ⟨_, rfl⟩

theorem collect_reads (hw : maxBody < 2 ^ w) (pieces : List Bytes) :
    ∃ r, collect w pieces = some r := by
  obtain ⟨r, hr, hfits⟩ := feed_reads hw pieces Http1Answer.fits_start
  rw [collect, hr]
  rcases r with e | ⟨b, a⟩
  · exact ⟨_, rfl⟩
  · exact finish_reads (hfits b a rfl)

/-! ### The outcome -/

theorem maxBody_lt (hw : 32 ≤ w) : maxBody < 2 ^ w := by
  have hpow : 2 ^ 32 ≤ 2 ^ w := Nat.pow_le_pow_right (by decide) hw
  exact Nat.lt_of_lt_of_le (by decide) hpow

/-- **Where an answer is cut does not matter**, if it is not too large and no line of a chunked body
reaches `MAX_LINE`. -/
theorem cuts_do_not_matter (hw : 32 ≤ w) (hsize : whole.length ≤ maxBody)
    (hlines : ∀ start, ChunkedAt w whole start → ShortLines w (whole.drop start))
    (pieces : List Bytes) (hpieces : pieces.flatten = whole) :
    collect w pieces = collect w [whole] ∧ collect w pieces ≠ none := by
  have hmax := maxBody_lt hw
  have hr : Readable w whole := ⟨hsize, hlines⟩
  have houtcome : ∀ pieces : List Bytes, pieces.flatten = whole →
      outcome (feed w {} pieces) = outcome (({} : Http1Answer).push w whole) := by
    intro pieces hpieces
    have h := feed_outcome hmax hr pieces push_nil (by rw [nil_append, hpieces])
    rwa [nil_append, hpieces] at h
  obtain ⟨r, hcollect⟩ := collect_reads hmax pieces
  refine ⟨?_, by rw [hcollect]; exact some_ne_none r⟩
  rw [collect_eq, collect_eq, houtcome pieces hpieces, houtcome [whole] (by simp)]

theorem shortLines_of_length (h : whole.length ≤ maxLine) (start : ℕ) :
    ShortLines w (whole.drop start) := by
  intro p piece e _ _ he
  have hbound : e + 2 ≤ (whole.drop start).length := first_bound crlf_ne_nil he
  rw [length_drop] at hbound
  omega

/-- A chunked answer, cut in its head, in a chunk size and in a chunk. -/
def cutAnswer : List Bytes :=
  [asBytes "HTTP/1.1 200 OK\r\nTransfer-Encoding: chunked\r\n\r".toList, asBytes "\n5\r".toList,
    asBytes "\nhel".toList, asBytes "lo\r\n0\r\n\r\n".toList]

theorem cut_answer_is_whole : collect 64 cutAnswer = collect 64 [cutAnswer.flatten] ∧
    collect 64 cutAnswer ≠ none :=
  cuts_do_not_matter (by decide) (by decide) (fun start _ => shortLines_of_length (by decide) start)
    cutAnswer rfl

end Pushes

end Koku.Https
